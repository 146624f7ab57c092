import PrintAgent.Config
import PrintAgent.Lib.JsonTree
import PrintAgent.Lib.Loop
import PrintAgent.Lib.Machine
import PrintAgent.Lib.Text

/-!
# The status snapshot

`status_store.py`: the running agent writes `status.json`, and the commands `status` and `printers` read it
from a process of their own, with `collect_status` and `collect_printers` of `diagnostics.py`.

* `StatusFiles`, `statusFiles`   `write_status` as steps: the temporary file is opened, gets the text piece by
                                 piece, and takes the place of `status.json`; it can stop between any two;
* `Board`                        what it is for: a place where one whole snapshot is shown at a time;
* `Shows`                        the two agree (`shows_of_run`);
* `status_shows_last_snapshot`   so the commands report the snapshot whose writing was completed last.
-/

namespace PrintAgent

open PyJson (Str CodePoint Value Limits LoadError Layout)
open PyStr

/-! ## the snapshot -/

/-- an entry of `printers` in `_write_status_snapshot` -/
structure SnapshotPrinter where
  localPrinterId : Str
  displayName : Str

/-- what `_write_status_snapshot` hands to `write_status`; `queueDepth` is the length of a `dict` -/
structure StatusSnapshot where
  agentId : Option Str
  agentVersion : Str
  tenantId : Option Str
  siteId : Option Str
  connection : Str
  hubUrl : Option Str
  queueDepth : Fin (2 ^ 63)
  printers : List SnapshotPrinter

namespace StatusSnapshot

def field : Option Str → Value
  | none => .null
  | some s => .str s

def printerTree (printer : SnapshotPrinter) : Value :=
  .obj [(Str.ofString "localPrinterId", .str printer.localPrinterId),
    (Str.ofString "displayName", .str printer.displayName)]

/-- `{**snapshot, "updatedAt": _now_iso()}` -/
def payload (snapshot : StatusSnapshot) (updatedAt : Str) : Value :=
  .obj [(Str.ofString "agentId", field snapshot.agentId), (Str.ofString "agentVersion", .str snapshot.agentVersion),
    (Str.ofString "tenantId", field snapshot.tenantId), (Str.ofString "siteId", field snapshot.siteId),
    (Str.ofString "connection", .str snapshot.connection), (Str.ofString "hubUrl", field snapshot.hubUrl),
    (Str.ofString "queueDepth", .int snapshot.queueDepth.val),
    (Str.ofString "printers", .arr (snapshot.printers.map printerTree)), (Str.ofString "updatedAt", .str updatedAt)]

/-- what `write_text` puts into the file -/
def text (crlf : Bool) (snapshot : StatusSnapshot) (updatedAt : Str) : Str :=
  expandNewlines crlf ((snapshot.payload updatedAt).encode (.indent 2) 0)

end StatusSnapshot

/-- `read_status`, from the content of the file if there is one -/
def readStatus (limits : Limits) : Option Str → Except LoadError (Option Value)
  | none => .ok none
  | some content =>
    match PyJson.loads limits (.text (universalNewlines content)) with
    | .error .jsonDecodeError => .ok none
    | .error e => .error e
    | .ok value => .ok (some value)

/-! ## writing -/

/-- where `write_status` is: outside, or in the middle of `write_text` with so many characters in the file -/
inductive StatusWriter where
  | idle
  | writing (text : Str) (done : Nat)

/-- `status.json`, `status.json.tmp`, and the agent -/
structure StatusFiles where
  target : Option Str
  tmp : Option Str
  writer : StatusWriter

inductive StatusAct where
  /-- `write_status` is called, and opens the temporary file -/
  | begins (snapshot : StatusSnapshot) (updatedAt : Str)
  /-- so many more characters reach the file -/
  | writes (count : Nat)
  /-- `tmp_path.replace(STATUS_PATH)` -/
  | replaces
  /-- a call raises `OSError`, or the process ends -/
  | stops

namespace StatusFiles

def init : StatusFiles := ⟨none, none, .idle⟩

def step (crlf : Bool) (s : StatusFiles) : StatusAct → Option StatusFiles
  | .begins snapshot updatedAt =>
    match s.writer with
    | .idle => some { s with tmp := some [], writer := .writing (snapshot.text crlf updatedAt) 0 }
    | .writing _ _ => none
  | .writes count =>
    match s.writer with
    | .idle => none
    | .writing text done =>
      if done + count ≤ text.length then
        some { s with tmp := some (text.take (done + count)), writer := .writing text (done + count) }
      else none
  | .replaces =>
    match s.writer with
    | .idle => none
    | .writing text done =>
      if done = text.length then some { target := s.tmp, tmp := none, writer := .idle } else none
  | .stops => some { s with writer := .idle }

end StatusFiles

def statusFiles (crlf : Bool) : Machine StatusFiles StatusAct := ⟨StatusFiles.init, StatusFiles.step crlf⟩

/-! ## what it is for -/

/-- one whole snapshot is shown at a time, with the time of its writing; the next one may be on its way -/
structure Board where
  next : Option (StatusSnapshot × Str)
  shown : Option (StatusSnapshot × Str)

namespace Board

def empty : Board := ⟨none, none⟩

def step (board : Board) : StatusAct → Board
  | .begins snapshot updatedAt => { board with next := some (snapshot, updatedAt) }
  | .writes _ => board
  | .replaces => ⟨none, board.next⟩
  | .stops => { board with next := none }

def after (as : List StatusAct) : Board := as.foldl step empty

end Board

def textOf (crlf : Bool) (p : StatusSnapshot × Str) : Str := p.1.text crlf p.2

/-- the files show what the board shows, and the temporary file has the beginning of what comes next -/
structure Shows (crlf : Bool) (s : StatusFiles) (board : Board) : Prop where
  shown : s.target = board.shown.map (textOf crlf)
  next : ∀ text done, s.writer = .writing text done →
    s.tmp = some (text.take done) ∧ board.next.map (textOf crlf) = some text

theorem shows_init (crlf : Bool) : Shows crlf .init .empty where
  shown := rfl
  next _ _ h := by cases h

theorem Shows.step {crlf : Bool} {s s' : StatusFiles} {board : Board} {a : StatusAct} (h : Shows crlf s board)
    (hs : s.step crlf a = some s') : Shows crlf s' (board.step a) := by
  obtain ⟨target, tmp, writer⟩ := s
  cases a with
  | begins snapshot updatedAt =>
    cases writer with
    | writing text done => cases hs
    | idle =>
      cases hs
      refine ⟨h.shown, fun text done he => ?_⟩
      cases he
      exact ⟨rfl, rfl⟩
  | writes count =>
    cases writer with
    | idle => cases hs
    | writing text done =>
      obtain ⟨hle, hs⟩ := Option.ite_none_right_eq_some.mp hs
      cases hs
      refine ⟨h.shown, fun text' done' he => ?_⟩
      cases he
      exact ⟨rfl, (h.next text done rfl).2⟩
  | replaces =>
    cases writer with
    | idle => cases hs
    | writing text done =>
      obtain ⟨hdone, hs⟩ := Option.ite_none_right_eq_some.mp hs
      cases hs
      have htmp : tmp = some (text.take done) := (h.next text done rfl).1
      refine ⟨?_, fun _ _ he => by cases he⟩
      show tmp = board.next.map (textOf crlf)
      rw [htmp, (h.next text done rfl).2, hdone, List.take_length]
  | stops =>
    cases hs
    exact ⟨h.shown, fun _ _ he => by cases he⟩

/-- **The files refine the board**, wherever writing stops. -/
theorem shows_of_run {crlf : Bool} {as : List StatusAct} {s : StatusFiles}
    (h : (statusFiles crlf).run (statusFiles crlf).init as = some s) : Shows crlf s (Board.after as) := by
  have hrun : Shows crlf s (Board.after ([] ++ as)) :=
    (Machine.Path.of_run h).invariant_schedule (I := fun as s => Shows crlf s (Board.after as))
      (fun before s a s' hshows _ hs => by
        show Shows crlf s' ((before ++ [a]).foldl Board.step Board.empty)
        rw [List.foldl_append]
        exact hshows.step hs)
      (shows_init crlf)
  exact hrun

/-! ## reading -/

/-- the reader's limits leave room for a snapshot: a list of objects in an object, and a number below `2 ^ 63` -/
structure ReadsStatus (limits : Limits) : Prop where
  nesting : 3 ≤ limits.recursionLimit
  digits : limits.intMaxStrDigits ≠ 0 → 19 ≤ limits.intMaxStrDigits

section Read
variable {limits : Limits}

theorem StatusSnapshot.fits_field (v : Option Str) (depth : Nat) : (field v).Fits limits depth := by
  cases v <;> trivial

theorem StatusSnapshot.keys_printer :
    ([Str.ofString "localPrinterId", Str.ofString "displayName"].map PyJson.Str.joined).Nodup := by
  decide +kernel

theorem StatusSnapshot.keys_payload :
    (["agentId", "agentVersion", "tenantId", "siteId", "connection", "hubUrl", "queueDepth", "printers",
      "updatedAt"].map fun key => (Str.ofString key).joined).Nodup := by
  decide +kernel

theorem StatusSnapshot.fits_printers (h : 3 ≤ limits.recursionLimit) (printers : List SnapshotPrinter) :
    Value.FitsItems limits 2 (printers.map printerTree) := by
  induction printers with
  | nil => trivial
  | cons printer printers ih => exact ⟨⟨by omega, keys_printer, trivial, trivial, trivial⟩, ih⟩

theorem StatusSnapshot.fits_payload (h : ReadsStatus limits) (snapshot : StatusSnapshot) (updatedAt : Str) :
    (snapshot.payload updatedAt).Fits limits 0 := by
  have hnesting := h.nesting
  have hdepth : limits.intMaxStrDigits ≠ 0 →
      (PyJson.decimalDigits (snapshot.queueDepth.val : Int).natAbs).length ≤ limits.intMaxStrDigits := by
    intro hlimit
    refine le_trans (PyJson.length_decimalDigits_le ?_) (h.digits hlimit)
    have hlt := snapshot.queueDepth.isLt
    show snapshot.queueDepth.val < 10 ^ (18 + 1)
    omega
  exact ⟨by omega, keys_payload, fits_field _ _, trivial, fits_field _ _, fits_field _ _, trivial, fits_field _ _,
    hdepth, ⟨by omega, fits_printers hnesting _⟩, trivial, trivial⟩

/-- a snapshot that was written whole is read back -/
theorem readStatus_text (h : ReadsStatus limits) (crlf : Bool) (snapshot : StatusSnapshot) (updatedAt : Str) :
    readStatus limits (some (snapshot.text crlf updatedAt)) = .ok (some (snapshot.payload updatedAt).joined) := by
  have hreturn : .scalar '\r' ∉ (snapshot.payload updatedAt).encode (.indent 2) 0 := by
    intro hmem
    have hno : ¬ PyJson.IsWritten (.scalar '\r') := by decide
    exact (PyJson.isText_encode (.indent 2) 0 _ (StatusSnapshot.fits_payload h snapshot updatedAt) hmem).elim hno
      (by decide)
  rw [readStatus, StatusSnapshot.text, universalNewlines_expandNewlines crlf hreturn,
    PyJson.loads_encode (.indent 2) (StatusSnapshot.fits_payload h snapshot updatedAt)]

end Read

/-! ## `collect_status` and `collect_printers` -/

inductive StatusExc where
  | loads (e : LoadError)
  | attributeError
  | typeError
  /-- whether a `float` is zero is out of the model -/
  | illTyped
  deriving DecidableEq, Repr

/-- `bool(value)` -/
def isTruthy : Value → Except StatusExc Bool
  | .null => .ok false
  | .bool b => .ok b
  | .int n => .ok (n ≠ 0)
  | .float _ => .error .illTyped
  | .str s => .ok (!s.isEmpty)
  | .arr items => .ok (!items.isEmpty)
  | .obj members => .ok (!members.isEmpty)

/-- `read_status() or {}`, whose `get` is called -/
def snapshotMembers (limits : Limits) (content : Option Str) : Except StatusExc (List (Str × Value)) :=
  match readStatus limits content with
  | .error e => .error (.loads e)
  | .ok none => .ok []
  | .ok (some value) => do
    if ← isTruthy value then
      match value with
      | .obj members => .ok members
      | _ => .error .attributeError
    else .ok []

/-- `snapshot.get(key, default)` -/
def getOr (members : List (Str × Value)) (key : String) (default : Value) : Value :=
  (Value.getItem members (Str.ofString key)).getD default

def collectPrinters (limits : Limits) (content : Option Str) : Except StatusExc Value := do
  return getOr (← snapshotMembers limits content) "printers" (.arr [])

def pyLen : Value → Except StatusExc Nat
  | .arr items => .ok items.length
  | .str s => .ok s.length
  | .obj members => .ok members.length
  | _ => .error .typeError

/-- what `collect_status` returns -/
structure StatusReport where
  service : Str
  paired : Bool
  agentId : Option Str
  hubUrl : Option Str
  connection : Value
  tenantId : Value
  siteId : Value
  agentVersion : Value
  queueDepth : Value
  printerCount : Nat
  lastUpdatedAt : Value

/-- `collect_status`, with what `_service_status` and `load_config` return -/
def collectStatus (limits : Limits) (service : Str) (config : AgentConfig) (content : Option Str) :
    Except StatusExc StatusReport := do
  let snapshot ← snapshotMembers limits content
  let printerCount ← pyLen (getOr snapshot "printers" (.arr []))
  return {
    service := service
    paired := config.isPaired
    agentId := config.agentId
    hubUrl := config.hubUrl
    connection := getOr snapshot "connection" (.str (Str.ofString "unknown"))
    tenantId := getOr snapshot "tenantId" .null
    siteId := getOr snapshot "siteId" .null
    agentVersion := getOr snapshot "agentVersion" .null
    queueDepth := getOr snapshot "queueDepth" .null
    printerCount := printerCount
    lastUpdatedAt := getOr snapshot "updatedAt" .null }

/-- `printer.get("displayName") or printer.get("localPrinterId", "Unknown")` -/
def printerName : Value → Except StatusExc Value
  | .obj members => do
    let displayName := getOr members "displayName" .null
    if ← isTruthy displayName then return displayName
    return getOr members "localPrinterId" (.str (Str.ofString "Unknown"))
  | _ => .error .attributeError

/-- an item of `"\n".join` -/
def textItem : Value → Except StatusExc Str
  | .str s => .ok s
  | _ => .error .typeError

def formatPrintersText (printers : Value) : Except StatusExc Str := do
  if ← isTruthy printers then
    match printers with
    | .arr items => do
      let names ← items.mapM printerName
      return [.scalar '\n'].intercalate (← names.mapM textItem)
    | .str _ | .obj _ => .error .attributeError
    | _ => .error .typeError
  else return Str.ofString "No printers discovered yet. Is the agent running and connected?"

/-! ## what the commands show -/

/-- the name in the list of `printers` -/
def SnapshotPrinter.shownName (printer : SnapshotPrinter) : Str :=
  if printer.displayName = [] then printer.localPrinterId.joined else printer.displayName.joined

namespace StatusReport

def text : Option Str → Value
  | none => .null
  | some s => .str s.joined

def of (service : Str) (config : AgentConfig) (shown : Option (StatusSnapshot × Str)) : StatusReport where
  service := service
  paired := config.isPaired
  agentId := config.agentId
  hubUrl := config.hubUrl
  connection := shown.elim (.str (Str.ofString "unknown")) fun p => .str p.1.connection.joined
  tenantId := shown.elim .null fun p => text p.1.tenantId
  siteId := shown.elim .null fun p => text p.1.siteId
  agentVersion := shown.elim .null fun p => .str p.1.agentVersion.joined
  queueDepth := shown.elim .null fun p => .int p.1.queueDepth.val
  printerCount := shown.elim 0 fun p => p.1.printers.length
  lastUpdatedAt := shown.elim .null fun p => .str p.2.joined

end StatusReport

/-- the text of `printers` -/
def printersText : List SnapshotPrinter → Str
  | [] => Str.ofString "No printers discovered yet. Is the agent running and connected?"
  | printer :: printers => [.scalar '\n'].intercalate ((printer :: printers).map SnapshotPrinter.shownName)

section Commands
variable {limits : Limits} {content : Option Str} {shown : Option (StatusSnapshot × Str)}

/-- the members that are read of a snapshot, or none -/
def membersOf (shown : Option (StatusSnapshot × Str)) : List (Str × Value) :=
  shown.elim [] fun p =>
    [(Str.ofString "agentId", StatusReport.text p.1.agentId),
      (Str.ofString "agentVersion", .str p.1.agentVersion.joined),
      (Str.ofString "tenantId", StatusReport.text p.1.tenantId), (Str.ofString "siteId", StatusReport.text p.1.siteId),
      (Str.ofString "connection", .str p.1.connection.joined), (Str.ofString "hubUrl", StatusReport.text p.1.hubUrl),
      (Str.ofString "queueDepth", .int p.1.queueDepth.val),
      (Str.ofString "printers", .arr (Value.joinedItems (p.1.printers.map StatusSnapshot.printerTree))),
      (Str.ofString "updatedAt", .str p.2.joined)]

theorem joined_field (v : Option Str) : (StatusSnapshot.field v).joined = StatusReport.text v := by
  cases v <;> rfl

theorem joined_payload (p : StatusSnapshot × Str) : (p.1.payload p.2).joined = .obj (membersOf (some p)) := by
  show Value.obj [(_, (StatusSnapshot.field p.1.agentId).joined), _, (_, (StatusSnapshot.field p.1.tenantId).joined),
    (_, (StatusSnapshot.field p.1.siteId).joined), _, (_, (StatusSnapshot.field p.1.hubUrl).joined), _, _, _] = _
  simp only [joined_field]
  rfl

theorem snapshotMembers_shown (h : ReadsStatus limits) (crlf : Bool) (shown : Option (StatusSnapshot × Str)) :
    snapshotMembers limits (shown.map (textOf crlf)) = .ok (membersOf shown) := by
  cases shown with
  | none => rfl
  | some p =>
    show snapshotMembers limits (some (p.1.text crlf p.2)) = _
    rw [snapshotMembers, readStatus_text h, joined_payload]
    rfl

theorem collectStatus_shown (h : ReadsStatus limits) (crlf : Bool) (service : Str) (config : AgentConfig)
    (shown : Option (StatusSnapshot × Str)) :
    collectStatus limits service config (shown.map (textOf crlf)) = .ok (.of service config shown) := by
  unfold collectStatus
  rw [snapshotMembers_shown h]
  cases shown with
  | none => rfl
  | some p =>
    have hlength : ∀ printers : List SnapshotPrinter,
        (Value.joinedItems (printers.map StatusSnapshot.printerTree)).length = printers.length := by
      intro printers
      induction printers with
      | nil => rfl
      | cons printer printers ih => exact congrArg (· + 1) ih
    show Except.ok ({ StatusReport.of service config (some p) with printerCount := List.length _ } : StatusReport) = _
    rw [hlength]
    rfl

def SnapshotPrinter.read (printer : SnapshotPrinter) : Value :=
  .obj [(Str.ofString "localPrinterId", .str printer.localPrinterId.joined),
    (Str.ofString "displayName", .str printer.displayName.joined)]

theorem printerName_read (printer : SnapshotPrinter) : printerName printer.read = .ok (.str printer.shownName) := by
  unfold SnapshotPrinter.shownName
  by_cases h : printer.displayName = []
  · rw [if_pos h]
    unfold SnapshotPrinter.read
    rw [h]
    rfl
  · rw [if_neg h]
    obtain ⟨c, rest, hjoined⟩ := List.exists_cons_of_ne_nil (PyJson.Str.joined_ne_nil h)
    unfold SnapshotPrinter.read
    rw [hjoined]
    rfl

theorem formatPrintersText_read (printers : List SnapshotPrinter) :
    formatPrintersText (.arr (printers.map SnapshotPrinter.read)) = .ok (printersText printers) := by
  cases printers with
  | nil => rfl
  | cons printer printers =>
    have hnames : ((printer :: printers).map SnapshotPrinter.read).mapM printerName
        = .ok ((printer :: printers).map fun x => .str x.shownName) := by
      rw [List.mapM_map]
      exact mapM_ok fun x _ => printerName_read x
    have htexts : ((printer :: printers).map fun x => Value.str x.shownName).mapM textItem
        = .ok ((printer :: printers).map SnapshotPrinter.shownName) := by
      rw [List.mapM_map]
      exact mapM_ok fun x _ => rfl
    show (do
      let names ← ((printer :: printers).map SnapshotPrinter.read).mapM printerName
      return [CodePoint.scalar '\n'].intercalate (← names.mapM textItem)) = _
    rw [hnames]
    show (do
      return [CodePoint.scalar '\n'].intercalate
        (← ((printer :: printers).map fun x : SnapshotPrinter => Value.str x.shownName).mapM textItem)) = _
    rw [htexts]
    rfl

theorem formatPrintersText_shown (h : ReadsStatus limits) (crlf : Bool) (shown : Option (StatusSnapshot × Str)) :
    (do formatPrintersText (← collectPrinters limits (shown.map (textOf crlf))))
      = .ok (printersText (shown.elim [] fun p => p.1.printers)) := by
  unfold collectPrinters
  rw [snapshotMembers_shown h]
  cases shown with
  | none => rfl
  | some p =>
    have hread : ∀ printers : List SnapshotPrinter,
        Value.joinedItems (printers.map StatusSnapshot.printerTree) = printers.map SnapshotPrinter.read := by
      intro printers
      induction printers with
      | nil => rfl
      | cons printer printers ih => exact congrArg (printer.read :: ·) ih
    show formatPrintersText (.arr (Value.joinedItems (p.1.printers.map StatusSnapshot.printerTree))) = _
    rw [hread]
    exact formatPrintersText_read p.1.printers

end Commands

/-- **The commands report the snapshot that was written last**, wherever the writing of another one stopped. -/
theorem status_shows_last_snapshot {limits : Limits} {crlf : Bool} {as : List StatusAct} {s : StatusFiles}
    (hlimits : ReadsStatus limits) (h : (statusFiles crlf).run (statusFiles crlf).init as = some s) (service : Str)
    (config : AgentConfig) :
    collectStatus limits service config s.target = .ok (.of service config (Board.after as).shown) ∧
      (do formatPrintersText (← collectPrinters limits s.target))
        = .ok (printersText ((Board.after as).shown.elim [] fun p => p.1.printers)) := by
  rw [(shows_of_run h).shown]
  exact ⟨collectStatus_shown hlimits crlf service config _, formatPrintersText_shown hlimits crlf _⟩

/-! ## a snapshot whose successor is cut off -/

def tillSnapshot : StatusSnapshot where
  agentId := some (Str.ofString "agent-1")
  agentVersion := Str.ofString "1.1.4"
  tenantId := some (Str.ofString "tenant-1")
  siteId := none
  connection := Str.ofString "connected"
  hubUrl := some (Str.ofString "wss://hub")
  queueDepth := 2
  printers := [⟨Str.ofString "POS_58", Str.ofString "Till"⟩]

def tillTime : Str := Str.ofString "2025-01-01T00:00:00.000Z"

/-- the snapshot is written, and the next one stops after seven characters -/
theorem status_shows_last_snapshot_till :
    collectStatus ⟨1000, 4300⟩ (Str.ofString "running") .unpaired (some (tillSnapshot.text true tillTime))
        = .ok (.of (Str.ofString "running") .unpaired (some (tillSnapshot, tillTime))) ∧
      (do formatPrintersText (← collectPrinters ⟨1000, 4300⟩ (some (tillSnapshot.text true tillTime))))
        = .ok (Str.ofString "Till") := by
  have hrun : (statusFiles true).run (statusFiles true).init
      [.begins tillSnapshot tillTime, .writes (tillSnapshot.text true tillTime).length, .replaces,
        .begins { tillSnapshot with queueDepth := 0 } tillTime, .writes 7, .stops]
      = some ⟨some (tillSnapshot.text true tillTime),
          some ((StatusSnapshot.text true { tillSnapshot with queueDepth := 0 } tillTime).take 7), .idle⟩ := by
    have hlong : 7 ≤ (StatusSnapshot.text true { tillSnapshot with queueDepth := 0 } tillTime).length := by
      decide +kernel
    simp [Machine.run, statusFiles, StatusFiles.step, StatusFiles.init, hlong]
  exact status_shows_last_snapshot ⟨by decide, fun _ => by decide⟩ hrun (Str.ofString "running") .unpaired

end PrintAgent
