import PrintAgent.Lib.JsonTree
import PrintAgent.Lib.RotatingFile
import PrintAgent.Lib.Text
import PrintAgent.LoggingSetup

/-!
# The log file

The file handler of `configure_logging` over its whole life, and `tail_log_lines` of `diagnostics.py`, which
the command `logs` prints.

* `LoggedRecord`                 a record that has a line, which is a JSON object in printable ASCII;
* `logFile`                      `agent.log` and its five backups, as records are logged;
* `tailLogLines`                 what `logs` prints;
* `log_files_keep_last_lines`    the files hold the last records that were written, and are bounded;
* `logs_shows_last_records`      `logs` shows the last ones, each on a line that is read back.
-/

namespace PrintAgent

open PyJson (Str CodePoint Value Limits IsWritten)
open PyStr

/-! ## the line of a record -/

/-- a record on which the formatter does not raise -/
def LoggedRecord := { record : LogRecord // (emitted .file record).isSome = true }

namespace LoggedRecord

def line (r : LoggedRecord) : Str := (emitted .file r.val).get r.property

end LoggedRecord

/-- the record as the handler gets it, or nothing where its format raises -/
def loggedRecord (record : LogRecord) : Option LoggedRecord :=
  if h : (emitted .file record).isSome = true then some ⟨record, h⟩ else none

/-- `payload` in `JsonFormatter.format` -/
def LogRecord.payload (record : LogRecord) (message : Str) : List (String × Str) :=
  [("ts", record.ts), ("level", record.levelname), ("logger", record.name), ("message", message)]
    ++ (record.excInfo.map fun text => ("exc_info", text)).toList

def LogRecord.readBack (record : LogRecord) : Option Value :=
  record.getMessage.map fun message =>
    .obj ((record.payload message).map fun m => ((Str.ofString m.1).joined, .str m.2.joined))

section Line
variable {limits : Limits}

def textObject (members : List (String × Str)) : Value := .obj (members.map fun m => (Str.ofString m.1, .str m.2))

theorem encodeMembers_texts (members : List (String × Str)) :
    members.flatMap (fun m => Str.ofString ", " ++ encodeMember m) ++ [CodePoint.scalar '\x7d']
      = Value.encodeMembers .compact 0 (members.map fun m => (Str.ofString m.1, .str m.2)) := by
  induction members with
  | nil => rfl
  | cons m members ih =>
    have hcomma : Str.ofString ", " = PyJson.Layout.comma .compact 1 := by decide +kernel
    have hcolon : Str.ofString ": " = PyJson.word [':', ' '] := by decide +kernel
    rw [List.flatMap_cons, List.append_assoc, ih, List.map_cons, Value.encodeMembers, encodeMember, hcomma, hcolon,
      Value.encode]
    simp only [List.append_assoc]

theorem intercalate_cons_eq {separator first : Str} {rest : List Str} :
    separator.intercalate (first :: rest) = first ++ rest.flatMap (separator ++ ·) := by
  induction rest generalizing first with
  | nil => rw [List.intercalate_singleton, List.flatMap_nil, List.append_nil]
  | cons second rest ih =>
    rw [List.intercalate_cons_cons, ih, List.flatMap_cons]
    simp only [List.append_assoc]

theorem dumpsTexts_encode {members : List (String × Str)} (h : members ≠ []) :
    dumpsTexts members = (textObject members).encode .compact 0 := by
  obtain ⟨m, rest, rfl⟩ := List.exists_cons_of_ne_nil h
  have hcolon : Str.ofString ": " = PyJson.word [':', ' '] := by decide +kernel
  have hrest : (rest.map encodeMember).flatMap (Str.ofString ", " ++ ·)
      = rest.flatMap fun m => Str.ofString ", " ++ encodeMember m := List.flatMap_map ..
  rw [dumpsTexts, List.map_cons, intercalate_cons_eq, hrest, List.append_assoc, encodeMembers_texts]
  show _ = Value.encode .compact 0 (.obj
    ((Str.ofString m.1, .str m.2) :: rest.map fun m => (Str.ofString m.1, .str m.2)))
  rw [Value.encode, encodeMember, hcolon, Value.encode]
  simp only [List.append_assoc, PyJson.Layout.newline, List.nil_append]

theorem LogRecord.keys_payload :
    (["ts", "level", "logger", "message", "exc_info"].map fun key => (Str.ofString key).joined).Nodup := by
  decide +kernel

theorem fitsMembers_texts (members : List (String × Str)) (depth : Nat) :
    Value.FitsMembers limits depth (members.map fun m => (Str.ofString m.1, .str m.2)) := by
  induction members with
  | nil => trivial
  | cons m members ih => exact ⟨trivial, ih⟩

theorem LogRecord.fits_payload (h : 0 < limits.recursionLimit) (record : LogRecord) (message : Str) :
    (textObject (record.payload message)).Fits limits 0 := by
  refine ⟨h, ?_, fitsMembers_texts _ _⟩
  have hkeys : List.Sublist ((record.payload message).map fun m => (Str.ofString m.1).joined)
      (["ts", "level", "logger", "message", "exc_info"].map fun key => (Str.ofString key).joined) := by
    unfold LogRecord.payload
    rw [List.map_append, show (["ts", "level", "logger", "message", "exc_info"] : List String)
      = ["ts", "level", "logger", "message"] ++ ["exc_info"] from rfl, List.map_append]
    refine List.Sublist.append (List.Sublist.refl _) ?_
    cases record.excInfo with
    | none => exact List.nil_sublist _
    | some text => exact List.Sublist.refl _
  have hnodup := LogRecord.keys_payload.sublist hkeys
  rw [List.map_map]
  exact hnodup

theorem joinedMembers_texts (members : List (String × Str)) :
    Value.joinedMembers (members.map fun m => (Str.ofString m.1, .str m.2))
      = members.map fun m => ((Str.ofString m.1).joined, .str m.2.joined) := by
  induction members with
  | nil => rfl
  | cons m members ih => exact congrArg (((Str.ofString m.1).joined, Value.str m.2.joined) :: ·) ih

/-- the line of a record, and the message in it -/
theorem LoggedRecord.exists_message (r : LoggedRecord) : ∃ message, r.val.filter.getMessage = some message ∧
    r.line = (textObject (r.val.filter.payload message)).encode .compact 0 := by
  obtain ⟨record, h⟩ := r
  obtain ⟨line, hline⟩ := Option.isSome_iff_exists.mp h
  obtain ⟨message, hmessage, htexts⟩ := Option.map_eq_some_iff.mp hline
  refine ⟨message, hmessage, ?_⟩
  show (emitted .file record).get h = _
  rw [Option.get_of_eq_some h hline, ← htexts]
  exact dumpsTexts_encode (List.cons_ne_nil _ _)

theorem LoggedRecord.isWritten_line (r : LoggedRecord) : ∀ c ∈ r.line, IsWritten c := by
  obtain ⟨message, -, hline⟩ := r.exists_message
  intro c hc
  rw [hline] at hc
  have hfits : (textObject (r.val.filter.payload message)).Fits ⟨1, 0⟩ 0 := LogRecord.fits_payload Nat.one_pos _ message
  exact PyJson.isText_encode .compact 0 _ hfits hc

/-- a line is read back as the payload of the redacted record -/
theorem LoggedRecord.loads_line (h : 0 < limits.recursionLimit) (r : LoggedRecord) :
    ∃ value, r.val.filter.readBack = some value ∧ PyJson.loads limits (.text r.line) = .ok value := by
  obtain ⟨message, hmessage, hline⟩ := r.exists_message
  refine ⟨(textObject (r.val.filter.payload message)).joined, ?_, ?_⟩
  · rw [LogRecord.readBack, hmessage, Option.map_some, textObject, Value.joined, joinedMembers_texts]
  · rw [hline]
    exact PyJson.loads_encode .compact (LogRecord.fits_payload h _ message)

end Line

/-! ## the files -/

namespace LoggedRecord

/-- what `StreamHandler.emit` writes: the line and its end -/
def text (crlf : Bool) (r : LoggedRecord) : Str := expandNewlines crlf (r.line ++ [.scalar '\n'])

end LoggedRecord

theorem length_expandNewlines_append (crlf : Bool) (s t : Str) :
    (expandNewlines crlf (s ++ t)).length = (expandNewlines crlf s).length + (expandNewlines crlf t).length := by
  rw [expandNewlines, List.flatMap_append, List.length_append]
  rfl

theorem expandNewlines_line (crlf : Bool) {s : Str} (h : ∀ c ∈ s, IsWritten c) : expandNewlines crlf s = s := by
  induction s with
  | nil => rfl
  | cons c s ih =>
    have hc : (crlf && c = .scalar '\n') = false := by
      have hno : ¬ IsWritten (.scalar '\n') := by decide
      have hne : c ≠ .scalar '\n' := fun he => hno (he ▸ h c List.mem_cons_self)
      rw [decide_eq_false hne, Bool.and_false]
    show (if crlf && c = .scalar '\n' then [.scalar '\r', c] else [c]) ++ expandNewlines crlf s = _
    rw [hc, ih fun x hx => h x (List.mem_cons_of_mem c hx)]
    rfl

theorem LoggedRecord.length_text (crlf : Bool) (r : LoggedRecord) :
    (r.text crlf).length = r.line.length + if crlf then 2 else 1 := by
  have hline := congrArg List.length (expandNewlines_line crlf r.isWritten_line)
  show (expandNewlines crlf (r.line ++ [.scalar '\n'])).length = _
  rw [length_expandNewlines_append, hline]
  cases crlf <;> rfl

/-- `RotatingFileHandler(LOG_DIR / "agent.log", maxBytes=10 * 1024 * 1024, backupCount=5)`; `msg` has one
character at its end, and the file has one or two there -/
def logRotation (crlf rollsEmpty : Bool) : Rotation LoggedRecord where
  maxBytes := 10 * 1024 * 1024
  backupCount := 5
  size r := (r.text crlf).length
  counted r := r.line.length + 1
  rollsEmpty := rollsEmpty
  maxBytes_pos := by decide
  backupCount_pos := by decide
  size_pos r := by
    rw [r.length_text]
    cases crlf <;> simp
  size_le r := by
    rw [r.length_text]
    cases crlf <;> simp

/-- a record reaches the handler; `stops` as in `Rotation.Emit` -/
structure LogCall where
  record : LogRecord
  stops : Option (Nat × Bool)

/-- `handle` and `emit`: what raises goes to `handleError`, and the record is lost -/
def logFile (crlf rollsEmpty : Bool) : Machine (Rotation.Log LoggedRecord) LogCall where
  init := Rotation.init
  step s call :=
    match loggedRecord call.record with
    | none => some s
    | some r => (logRotation crlf rollsEmpty).step s ⟨r, call.stops⟩

def fileText (crlf : Bool) (records : List LoggedRecord) : Str := records.flatMap (LoggedRecord.text crlf)

theorem length_fileText (crlf rollsEmpty : Bool) (records : List LoggedRecord) :
    (fileText crlf records).length = (logRotation crlf rollsEmpty).textSize records := List.length_flatMap

/-! ## `logs` -/

/-- `lines[-max_lines:]` -/
def lastLines (maxLines : Int) (lines : List Str) : List Str :=
  if maxLines ≤ 0 then lines.drop maxLines.natAbs else lines.drop (lines.length - maxLines.natAbs)

/-- `tail_log_lines`, with the content of `agent.log` if it is there -/
def tailLogLines (maxLines : Int) : Option Str → Str
  | none => Str.ofString "No logs yet."
  | some content => [.scalar '\n'].intercalate (lastLines maxLines (splitlines (universalNewlines content)))

section Lines

theorem isLineBreak_of_isWritten {c : CodePoint} (h : IsWritten c) : isLineBreak c = false := by
  obtain ⟨d, rfl, hlow, hhigh⟩ := h
  refine decide_eq_false fun hmem => ?_
  simp only [List.mem_cons, List.not_mem_nil, or_false] at hmem
  omega

theorem splitlines_lines (records : List LoggedRecord) :
    splitlines (records.flatMap fun r => r.line ++ [.scalar '\n']) = records.map LoggedRecord.line := by
  induction records with
  | nil => rfl
  | cons r records ih =>
    rw [List.flatMap_cons, List.append_assoc, List.map_cons, ← ih]
    exact splitlines_line fun c hc => isLineBreak_of_isWritten (r.isWritten_line c hc)

theorem splitlines_fileText (crlf : Bool) (records : List LoggedRecord) :
    splitlines (universalNewlines (fileText crlf records)) = records.map LoggedRecord.line := by
  have hexpand : fileText crlf records = expandNewlines crlf (records.flatMap fun r => r.line ++ [.scalar '\n']) :=
    List.flatMap_assoc.symm
  have hreturn : CodePoint.scalar '\r' ∉ records.flatMap fun r => r.line ++ [.scalar '\n'] := by
    intro hmem
    obtain ⟨r, -, hr⟩ := List.mem_flatMap.mp hmem
    have hno : ¬ IsWritten (.scalar '\r') := by decide
    rcases List.mem_append.mp hr with hr | hr
    · exact hno (r.isWritten_line _ hr)
    · exact absurd (List.mem_singleton.mp hr) (by decide)
  rw [hexpand, universalNewlines_expandNewlines crlf hreturn, splitlines_lines]

end Lines

/-! ## every run -/

section Runs
variable {crlf rollsEmpty : Bool} {calls : List LogCall} {s : Rotation.Log LoggedRecord}

def emits (calls : List LogCall) : List (Rotation.Emit LoggedRecord) :=
  calls.filterMap fun call => (loggedRecord call.record).map fun r => ⟨r, call.stops⟩

theorem rotation_of_run {s₀ : Rotation.Log LoggedRecord} (h : (logFile crlf rollsEmpty).run s₀ calls = some s) :
    (logRotation crlf rollsEmpty).rotation.run s₀ (emits calls) = some s := by
  induction calls generalizing s₀ with
  | nil => exact h
  | cons call calls ih =>
    obtain ⟨t, hstep, hrest⟩ := (logFile crlf rollsEmpty).run_cons_eq_some.mp h
    have hnext := ih hrest
    have hemits : emits (call :: calls) =
        ((loggedRecord call.record).map fun r => ⟨r, call.stops⟩).toList ++ emits calls := by
      unfold emits
      rw [List.filterMap_cons]
      cases loggedRecord call.record <;> rfl
    rw [hemits]
    simp only [logFile] at hstep
    cases hr : loggedRecord call.record with
    | none =>
      simp only [hr] at hstep
      cases hstep
      exact hnext
    | some r =>
      simp only [hr] at hstep
      exact ((logRotation crlf rollsEmpty).rotation.run_cons_eq_some).mpr ⟨t, hstep, hnext⟩

/-- **`logs` shows the last records that were written**: the last lines of the file that is written to, or all of
them if they are fewer, and each one is read back as the payload of its redacted record. -/
theorem logs_shows_last_records {limits : Limits} {maxLines : Int} (hlimits : 0 < limits.recursionLimit)
    (hpos : 0 < maxLines) (h : (logFile crlf rollsEmpty).run (logFile crlf rollsEmpty).init calls = some s)
    (hwritten : s.written ≠ []) :
    ∃ shown, shown ≠ [] ∧ shown <:+ s.written ∧ shown.length ≤ maxLines ∧
      (shown.length < maxLines → s.files 0 = some shown) ∧
      tailLogLines maxLines ((s.files 0).map (fileText crlf)) =
        [.scalar '\n'].intercalate (shown.map LoggedRecord.line) ∧
      ∀ r ∈ shown, ∃ value, r.val.filter.readBack = some value ∧ PyJson.loads limits (.text r.line) = .ok value := by
  have hsound := Rotation.sound_of_run (rotation_of_run h)
  have hlatest := hsound.latest hwritten
  cases hfile : s.files 0 with
  | none =>
    rw [hfile] at hlatest
    exact absurd rfl hlatest
  | some records =>
    rw [hfile] at hlatest
    have hne : records ≠ [] := hlatest
    have hlen := List.length_pos_iff.mpr hne
    have hbelow : Rotation.below s.files 1 = records := by
      show (s.files 0).getD [] ++ [] = records
      rw [hfile, List.append_nil]
      rfl
    have hcurrent : records <:+ s.written := by
      obtain ⟨older, holder⟩ := Rotation.below_split (show 1 ≤ 6 by omega) s.files
      rw [← hbelow]
      refine List.IsSuffix.trans ?_ hsound.kept
      rw [show (logRotation crlf rollsEmpty).backupCount + 1 = 6 from rfl, holder s.files fun _ _ => rfl]
      exact List.suffix_append _ _
    refine ⟨records.drop (records.length - maxLines.natAbs), ?_, (List.drop_suffix _ _).trans hcurrent, ?_,
      fun hshort => ?_, ?_,
      fun r _ => r.loads_line hlimits⟩
    · intro hnil
      have hlength := congrArg List.length hnil
      rw [List.length_drop, List.length_nil] at hlength
      omega
    · rw [List.length_drop]
      omega
    · rw [List.length_drop] at hshort
      rw [show records.length - maxLines.natAbs = 0 by omega, List.drop_zero]
    · show [CodePoint.scalar '\n'].intercalate
        (lastLines maxLines (splitlines (universalNewlines (fileText crlf records)))) = _
      rw [splitlines_fileText, lastLines, if_neg (by omega), List.length_map, List.map_drop]

end Runs

/-! ## a run in which a rename fails, and another rotation -/

def tillRecord : LogRecord where
  msg := some (Str.ofString "paired with eres_agent_live_abc")
  args := .positional []
  levelname := Str.ofString "INFO"
  name := Str.ofString "eres"
  ts := Str.ofString "2025-01-01T00:00:00"
  asctime := Str.ofString "2025-01-01 00:00:00,000"
  excInfo := none
  stackInfo := none

def brokenRecord : LogRecord := { tillRecord with msg := none }

def longRecord : LogRecord := { tillRecord with excInfo := some (List.replicate (10 * 1024 * 1024) (.scalar 'a')) }

theorem isSome_longRecord : (emitted .file longRecord).isSome = true := by
  have hmessage : longRecord.filter.getMessage = tillRecord.filter.getMessage := rfl
  unfold emitted LogHandler.format jsonFormat
  dsimp only
  rw [Option.isSome_map, hmessage]
  decide +kernel

def tillLine : LoggedRecord := ⟨tillRecord, by decide +kernel⟩

def longLine : LoggedRecord := ⟨longRecord, isSome_longRecord⟩

theorem loggedRecord_tillRecord : loggedRecord tillRecord = some tillLine := dif_pos tillLine.property

theorem loggedRecord_longRecord : loggedRecord longRecord = some longLine := dif_pos longLine.property

theorem loggedRecord_brokenRecord : loggedRecord brokenRecord = none := by
  have hno : ¬ (emitted .file brokenRecord).isSome = true := by decide +kernel
  exact dif_neg hno

theorem length_le_dumpsTexts (front : List (String × Str)) (key : String) (n : Nat) :
    n ≤ (dumpsTexts (front ++ [(key, List.replicate n (.scalar 'a'))])).length := by
  have htext : n ≤ (encodeMember (key, List.replicate n (.scalar 'a'))).length := by
    have hescaped : ((List.replicate n (CodePoint.scalar 'a')).flatMap PyJson.escapeChar).length = n := by
      have hone : (PyJson.escapeChar (.scalar 'a')).length = 1 := rfl
      rw [List.length_flatMap, List.map_replicate, hone, List.sum_replicate_nat, Nat.mul_one]
    simp only [encodeMember, PyJson.encodeStr, List.length_append, List.length_cons, hescaped]
    omega
  have hall : ∀ members : List Str, ∀ m ∈ members, m.length ≤ ((Str.ofString ", ").intercalate members).length := by
    intro members m hm
    cases members with
    | nil => cases hm
    | cons first rest =>
      rw [intercalate_cons_eq, List.length_append]
      rcases List.mem_cons.mp hm with rfl | hm
      · exact Nat.le_add_right _ _
      · have hinfix := (List.infix_of_mem_flatten (List.mem_map_of_mem (f := (Str.ofString ", " ++ ·)) hm)).length_le
        rw [List.length_append] at hinfix
        rw [List.flatMap_def]
        omega
  have hmember := hall _ _ (List.mem_map_of_mem (f := encodeMember)
    (List.mem_append_right front (List.mem_singleton_self (key, List.replicate n (CodePoint.scalar 'a')))))
  rw [dumpsTexts, List.length_cons, List.length_append]
  omega

theorem length_longLine : 10 * 1024 * 1024 ≤ longLine.line.length := by
  obtain ⟨message, -, hline⟩ := longLine.exists_message
  have hne : longRecord.filter.payload message ≠ [] := List.cons_ne_nil _ _
  rw [hline]
  show _ ≤ ((textObject (longRecord.filter.payload message)).encode .compact 0).length
  rw [← dumpsTexts_encode hne]
  exact length_le_dumpsTexts _ "exc_info" _

theorem textSize_longLine : 10 * 1024 * 1024 ≤ (logRotation true false).textSize [longLine] := by
  have hlength := length_longLine
  rw [← length_fileText true false]
  show _ ≤ ([longLine].flatMap (LoggedRecord.text true)).length
  rw [List.flatMap_singleton, LoggedRecord.length_text]
  omega

theorem rolls_longLine {files : Rotation.Files LoggedRecord} (h : files 0 = some [longLine]) (r : LoggedRecord) :
    (logRotation true false).rolls files r = true := by
  have hsize := textSize_longLine
  rw [Rotation.rolls, h, Bool.and_eq_true, Bool.or_eq_true, decide_eq_true_eq, decide_eq_true_eq]
  exact ⟨.inr (by dsimp only [Option.getD_some]; omega), le_trans hsize (Nat.le_add_right _ _)⟩

theorem step_logFile {record : LogRecord} {r : LoggedRecord} (h : loggedRecord record = some r)
    (s : Rotation.Log LoggedRecord)
    (stops : Option (Nat × Bool)) :
    (logFile true false).step s ⟨record, stops⟩ = (logRotation true false).step s ⟨r, stops⟩ := by
  simp only [logFile, h]

def tillCalls : List LogCall :=
  [⟨longRecord, none⟩, ⟨brokenRecord, none⟩, ⟨tillRecord, some (4, true)⟩, ⟨tillRecord, none⟩]

/-- the long line has a file of its own; a rename of it fails, and the next one does not -/
theorem run_tillCalls : ∃ s, (logFile true false).run (logFile true false).init tillCalls = some s ∧
    s.written = [longLine, tillLine] ∧ s.files 0 = some [tillLine] ∧ s.files 1 = some [longLine] := by
  let first : Rotation.Log LoggedRecord := Rotation.write Rotation.init longLine
  let failed : Rotation.Log LoggedRecord :=
    { first with files := Rotation.remove 0 (Rotation.moves 5 4 first.files) }
  let last : Rotation.Log LoggedRecord :=
    Rotation.write { failed with files := Rotation.moves 5 5 failed.files } tillLine
  have hfirst : first.files 0 = some [longLine] := by
    show Function.update Rotation.init.files 0 (some ([] ++ [longLine])) 0 = _
    exact Function.update_self _ _ _
  have hfailed : failed.files 0 = some [longLine] := by
    show Rotation.remove 0 (Rotation.moves 5 4 first.files) 0 = _
    rw [Rotation.remove_zero, Rotation.moves_zero (by decide), hfirst]
  have hmoved : Rotation.moves 5 5 failed.files 1 = some [longLine] := by
    have hzero : Rotation.moves 5 4 failed.files 0 = some [longLine] := by
      rw [Rotation.moves_zero (by decide), hfailed]
    show Rotation.move 0 (Rotation.moves 5 4 failed.files) 1 = _
    rw [Rotation.move, hzero]
    dsimp only
    rw [Function.update_of_ne (by decide), Function.update_self]
  have hfree : Rotation.moves 5 5 failed.files 0 = none := Rotation.moves_free 5 4 failed.files
  have hfirstStep : (logFile true false).step Rotation.init ⟨longRecord, none⟩ = some first := by
    have hrolls :
        (logRotation true false).rolls (Rotation.init : Rotation.Log LoggedRecord).files longLine = false := rfl
    rw [step_logFile loggedRecord_longRecord, Rotation.step, hrolls, if_neg Bool.false_ne_true]
  have hbroken : (logFile true false).step first ⟨brokenRecord, none⟩ = some first := by
    simp only [logFile, loggedRecord_brokenRecord]
  have hfailedStep : (logFile true false).step first ⟨tillRecord, some (4, true)⟩ = some failed := by
    rw [step_logFile loggedRecord_tillRecord, Rotation.step, rolls_longLine hfirst, if_pos rfl]
    rfl
  have hlastStep : (logFile true false).step failed ⟨tillRecord, none⟩ = some last := by
    rw [step_logFile loggedRecord_tillRecord, Rotation.step, rolls_longLine hfailed, if_pos rfl]
    rfl
  refine ⟨last, ?_, rfl, ?_, ?_⟩
  · refine ((logFile true false).run_cons_eq_some).mpr ⟨first, hfirstStep, ?_⟩
    refine ((logFile true false).run_cons_eq_some).mpr ⟨first, hbroken, ?_⟩
    refine ((logFile true false).run_cons_eq_some).mpr ⟨failed, hfailedStep, ?_⟩
    exact ((logFile true false).run_cons_eq_some).mpr ⟨last, hlastStep, rfl⟩
  · show Function.update (Rotation.moves 5 5 failed.files) 0 (some (_ ++ [tillLine])) 0 = _
    rw [Function.update_self]
    show some ((Rotation.moves 5 5 failed.files 0).getD [] ++ [tillLine]) = _
    rw [hfree]
    rfl
  · show Function.update (Rotation.moves 5 5 failed.files) 0
      (some ((Rotation.moves 5 5 failed.files 0).getD [] ++ [tillLine])) 1 = _
    rw [Function.update_of_ne (by decide), hmoved]

/-- after the rotation the file has one record, which is shown, and its secret is not -/
theorem logs_shows_last_records_till : ∃ s, (logFile true false).run (logFile true false).init tillCalls = some s ∧
    ∃ shown, shown ≠ [] ∧ shown <:+ s.written ∧ (shown.length : Int) ≤ 200 ∧ s.files 0 = some shown ∧
      tailLogLines 200 ((s.files 0).map (fileText true)) = [.scalar '
'].intercalate (shown.map LoggedRecord.line) ∧
      (∀ r ∈ shown, ∃ value, r.val.filter.readBack = some value ∧
        PyJson.loads ⟨1000, 4300⟩ (.text r.line) = .ok value) ∧
      ∀ r ∈ shown, r.val.filter.msg = some (Str.ofString "paired with eres_agent_live_[redacted]") := by
  obtain ⟨s, hrun, hwritten, hfile, -⟩ := run_tillCalls
  have hne : s.written ≠ [] := by
    rw [hwritten]
    exact List.cons_ne_nil _ _
  obtain ⟨shown, hshown, hsuffix, hlength, hall, hlines, hread⟩ :=
    @logs_shows_last_records true false tillCalls s ⟨1000, 4300⟩ 200 (by decide) (by decide) hrun hne
  have hshort : (shown.length : Int) < 200 := by
    have hle := hsuffix.length_le
    rw [hwritten] at hle
    have htwo : [longLine, tillLine].length = 2 := rfl
    omega
  have hsame := hall hshort
  refine ⟨s, hrun, shown, hshown, hsuffix, hlength, hsame, hlines, hread, fun r hr => ?_⟩
  rw [hfile] at hsame
  cases hsame
  rw [List.mem_singleton.mp hr]
  show tillRecord.filter.msg = _
  decide +kernel

end PrintAgent
