import PrintAgent.Lib.Regex
import PrintAgent.Lib.Text
import PrintAgent.Net.Downloader

/-!
# The state of a printer on a Mac

What `printing/macos.py` reads off CUPS, and what it says of a printer.

* `Cups`                           what the commands print;
* `statusFromState`                `_status_from_state`, from the first line of `lpstat -l -p`;
* `usbAttached`                    `_usb_attached`;
* `status_independent_of_name`     when the status of a queue does not depend on its name;
* `usb_attached_per_device`        when a printer counts as attached only if it is.
-/

namespace PrintAgent

open PyJson (Str CodePoint)
open PyUrl (Unicode)
open PyStr

structure PrinterStatus where
  online : Bool
  detail : Str
  deriving DecidableEq, Repr

/-- what the commands print; `none` is a command that fails -/
structure Cups where
  /-- `lpstat -e` -/
  queues : Option Str
  /-- `lpstat -d` -/
  destination : Str
  /-- `lpstat -l -p NAME` -/
  details : Str → Str
  /-- `lpstat -v NAME` -/
  device : Str → Str
  /-- `lpinfo --include-schemes usb -v` -/
  usbDevices : Option Str

/-! ## what is read -/

def printerNames (w : Cups) : List Str :=
  match w.queues with
  | none => []
  | some stdout => ((splitlines stdout).map strip).filter (· ≠ [])

def isNoSpace (c : CodePoint) : Bool := !isSpace c

/-- `system default destination:\s*(\S+)` -/
def defaultDestination : Regex CodePoint :=
  .cat [.literal (Str.ofString "system default destination:"), .many isSpace, .group (.plus isNoSpace)]

def defaultPrinter (w : Cups) : Option Str := (defaultDestination.search w.destination).map (·.group 1)

structure PrinterDetails where
  state : Str := []
  description : Str := []
  interface : Str := []
  alerts : Str := []
  connection : Option Str := none

def PrinterDetails.readLine (u : Unicode) (details : PrinterDetails) (line : Str) : PrinterDetails :=
  let key := u.lower (strip (PyUrl.before ':' (strip line)))
  let value := strip (PyUrl.after ':' (strip line))
  if key = Str.ofString "description" then { details with description := value }
  else if key = Str.ofString "interface" then { details with interface := value }
  else if key = Str.ofString "alerts" then { details with alerts := value }
  else if key = Str.ofString "connection" then { details with connection := some value }
  else details

def printerDetails (u : Unicode) (w : Cups) (name : Str) : PrinterDetails :=
  match splitlines (w.details name) with
  | [] => {}
  | line :: lines => lines.foldl (PrinterDetails.readLine u) { state := strip line }

/-- `^device for [^:]+:\s*(\S+)` -/
def deviceFor : Regex CodePoint :=
  .cat [.between fun previous _ => previous.all (· = .scalar '\n'), .literal (Str.ofString "device for "),
    .plus (· ≠ .scalar ':'), .one (· = .scalar ':'), .many isSpace, .group (.plus isNoSpace)]

def deviceUri (w : Cups) (name : Str) : Str := ((deviceFor.search (w.device name)).map (·.group 1)).getD []

/-- the second of `line.split(None, 1)`, if there is one -/
def afterFirstWord (line : Str) : Option Str :=
  match ((line.dropWhile isSpace).dropWhile isNoSpace).dropWhile isSpace with
  | [] => none
  | rest => some rest

/-- `startswith("usb://")` -/
def isUsbUri (uri : Str) : Bool := decide (Str.ofString "usb://" <+: uri)

def attachedUsbUris (w : Cups) : Option (List Str) :=
  w.usbDevices.map fun stdout =>
    ((splitlines stdout).filterMap fun line => (afterFirstWord line).map strip).filter isUsbUri

/-! ## what is said of the printer -/

def usbAttached (uri : Str) (attached : Option (List Str)) : Bool :=
  match attached with
  | none => true
  | some attached =>
    !isUsbUri uri || attached.contains uri ||
      attached.any fun item => PyUrl.before '?' item = PyUrl.before '?' uri

def unpluggedDetail : Str := Str.ofString "Not connected (unplugged or switched off)"

def pausedStatus : PrinterStatus := ⟨false, Str.ofString "Paused in macOS (resume it in Printers & Scanners)"⟩

def statusFromState (u : Unicode) (stateLine : Str) : PrinterStatus :=
  let text := u.lower stateLine
  if contains "disabled" text then pausedStatus
  else if contains "not accepting" text then ⟨false, Str.ofString "Not accepting jobs"⟩
  else if contains "now printing" text then ⟨true, Str.ofString "Printing"⟩
  else if contains "idle" text then ⟨true, Str.ofString "Ready"⟩
  else ⟨stateLine ≠ [], if stateLine = [] then Str.ofString "Unknown" else stateLine⟩

/-- the status, or that the printer is not attached -/
def checkAttached (attached : Bool) (status : PrinterStatus) : PrinterStatus :=
  if status.online && !attached then ⟨false, unpluggedDetail⟩ else status

/-- the status of a queue in `MacPrinterManager.discover` -/
def discoveredStatus (u : Unicode) (w : Cups) (name : Str) : PrinterStatus :=
  checkAttached (usbAttached (deviceUri w name) (attachedUsbUris w))
    (statusFromState u (printerDetails u w name).state)

def getStatus (u : Unicode) (w : Cups) (name : Str) : PrinterStatus :=
  if (printerDetails u w name).state = [] then ⟨false, Str.ofString "Printer not found on this Mac"⟩
  else
    checkAttached (usbAttached (deviceUri w name) (attachedUsbUris w))
      (statusFromState u (printerDetails u w name).state)

theorem getStatus_eq_discoveredStatus {u : Unicode} {w : Cups} {name : Str}
    (h : (printerDetails u w name).state ≠ []) : getStatus u w name = discoveredStatus u w name := if_neg h

/-! ## the status by name -/

inductive QueueCondition where
  | idle
  | printing (job : Nat)
  | disabled
  deriving DecidableEq, Repr

def QueueCondition.isPrinting : QueueCondition → Bool
  | .printing _ => true
  | _ => false

/-- what `lpstat` says between the name and the date -/
def QueueCondition.text (name : Str) : QueueCondition → Str
  | .idle => Str.ofString "is idle.  enabled since"
  | .printing job =>
    Str.ofString "now printing" ++ .scalar ' ' ::
      (name ++ .scalar '-' :: Str.ofString (toString job ++ ".  enabled since"))
  | .disabled => Str.ofString "disabled since"

/-- the line that `lpstat` prints: `printer NAME TEXT DATE` -/
def statusLine (name text date : Str) : Str :=
  Str.ofString "printer" ++ .scalar ' ' :: (name ++ .scalar ' ' :: (text ++ .scalar ' ' :: date))

/-- the first line of `lpstat -l -p`; that of a disabled queue ends with a hyphen -/
def QueueCondition.line (condition : QueueCondition) (name date : Str) : Str :=
  match condition with
  | .idle => statusLine name (QueueCondition.idle.text name) date
  | .printing job => statusLine name ((QueueCondition.printing job).text name) date
  | .disabled => statusLine name (QueueCondition.disabled.text name) (date ++ .scalar ' ' :: Str.ofString "-")

section Line
variable {name text date word front back : Str} {job : Nat}

theorem digit_toString {c : Char} (h : c ∈ (toString job).toList) : 0x30 ≤ c.toNat ∧ c.toNat ≤ 0x39 := by
  rw [Nat.toString_eq_ofList_toDigits, String.toList_ofList] at h
  exact Char.isDigit_iff_toNat.mp (Nat.isDigit_of_mem_toDigits (by decide) (by decide) h)

theorem infix_statusLine (h : word <:+: text) : word <:+: statusLine name text date :=
  List.infix_append_of_infix_right (List.infix_cons (List.infix_append_of_infix_right
    (List.infix_cons (List.infix_append_of_infix_left h))))

/-- a word is in the name, in the text or in the date -/
theorem word_statusLine (hblank : .scalar ' ' ∉ word) (hprinter : ¬ word <:+: Str.ofString "printer") :
    word <:+: statusLine name text date ↔ word <:+: name ∨ word <:+: text ∨ word <:+: date := by
  rw [statusLine, infix_append_cons_of_not_mem hblank, infix_append_cons_of_not_mem hblank,
    infix_append_cons_of_not_mem hblank, or_iff_right hprinter]

/-- so are two words, if the name has no blank and the text does not begin with the second one or end with the
first one -/
theorem phrase_statusLine (hfront : .scalar ' ' ∉ front) (hback : .scalar ' ' ∉ back)
    (hprinter : ¬ front ++ .scalar ' ' :: back <:+: Str.ofString "printer" ∧ ¬ front <:+ Str.ofString "printer")
    (hname : .scalar ' ' ∉ name) (hbegins : ¬ back <+: text ++ .scalar ' ' :: date) (hends : ¬ front <:+ text) :
    front ++ .scalar ' ' :: back <:+: statusLine name text date ↔
      front ++ .scalar ' ' :: back <:+: text ∨ front ++ .scalar ' ' :: back <:+: date := by
  have hinName : ¬ front ++ .scalar ' ' :: back <:+: name :=
    fun h => hname (h.subset (List.mem_append_right _ List.mem_cons_self))
  rw [statusLine, infix_append_cons_of_phrase hfront hback, infix_append_cons_of_phrase hfront hback,
    infix_append_cons_of_phrase hfront hback, or_iff_right hprinter.1, or_iff_left fun h => hprinter.2 h.1,
    or_iff_right hinName, or_iff_left fun h => hbegins h.2, or_iff_left fun h : _ ∧ _ => hends h.1]

theorem job_text : Str.ofString (toString job ++ ".  enabled since") =
    Str.ofString (toString job) ++ .scalar '.' :: Str.ofString "  enabled since" := by
  rw [Str.ofString, String.toList_append, List.map_append]
  rfl

/-- a word that is not of digits is not in the number of the job -/
theorem word_job {c : Char} (hpoint : .scalar '.' ∉ word) (hc : .scalar c ∈ word) (hletter : 0x39 < c.toNat)
    (hsince : ¬ word <:+: Str.ofString "  enabled since") :
    ¬ word <:+: Str.ofString (toString job ++ ".  enabled since") := by
  rw [job_text, infix_append_cons_of_not_mem hpoint]
  rintro (h | h)
  · obtain ⟨c', hc', he⟩ := List.mem_map.mp (h.subset hc)
    obtain rfl := CodePoint.scalar.inj he
    exact absurd (digit_toString hc').2 (by omega)
  · exact hsince h

variable {condition : QueueCondition}

theorem disabled_line (hcondition : condition ≠ .disabled) :
    Str.ofString "disabled" <:+: condition.line name date ↔
      Str.ofString "disabled" <:+: name ∨ Str.ofString "disabled" <:+: date := by
  have hblank : .scalar ' ' ∉ Str.ofString "disabled" := by decide +kernel
  have hprinter : ¬ Str.ofString "disabled" <:+: Str.ofString "printer" := by decide +kernel
  cases condition with
  | disabled => exact absurd rfl hcondition
  | idle =>
    have htext : ¬ Str.ofString "disabled" <:+: Str.ofString "is idle.  enabled since" := by decide +kernel
    rw [QueueCondition.line, word_statusLine hblank hprinter, QueueCondition.text, or_iff_right htext]
  | printing job =>
    have hnow : ¬ Str.ofString "disabled" <:+: Str.ofString "now printing" := by decide +kernel
    have hjob : ¬ Str.ofString "disabled" <:+: Str.ofString (toString job ++ ".  enabled since") :=
      word_job (c := 'd') (by decide +kernel) (by decide +kernel) (by decide) (by decide +kernel)
    rw [QueueCondition.line, word_statusLine hblank hprinter, QueueCondition.text,
      infix_append_cons_of_not_mem hblank, infix_append_cons_of_not_mem (by decide +kernel),
      or_iff_right hnow, or_iff_left hjob, ← or_assoc, or_self]

/-- the text of a queue that prints ends like that of an idle one -/
theorem suffix_printing (h : word <:+ (QueueCondition.printing job).text name)
    (hlength : word.length ≤ (Str.ofString "  enabled since").length) : word <:+ Str.ofString "  enabled since" := by
  refine List.suffix_of_suffix_length_le h ?_ hlength
  rw [QueueCondition.text, job_text]
  refine List.suffix_append_of_suffix (.trans ?_ (List.suffix_cons _ _))
  refine List.suffix_append_of_suffix (.trans ?_ (List.suffix_cons _ _))
  exact List.suffix_append_of_suffix (List.suffix_cons _ _)

theorem notAccepting_text (hname : .scalar ' ' ∉ name) (hcondition : condition ≠ .disabled) :
    ¬ Str.ofString "not" ++ .scalar ' ' :: Str.ofString "accepting" <:+: condition.text name := by
  have hfront : .scalar ' ' ∉ Str.ofString "not" := by decide +kernel
  have hback : .scalar ' ' ∉ Str.ofString "accepting" := by decide +kernel
  cases condition with
  | disabled => exact absurd rfl hcondition
  | idle =>
    show ¬ _ <:+: Str.ofString "is idle.  enabled since"
    decide +kernel
  | printing job =>
    rw [QueueCondition.text, infix_append_cons_of_phrase hfront hback, infix_append_cons_of_not_mem (by decide +kernel)]
    rintro (h | (h | h) | ⟨h, _⟩)
    · exact absurd h (by decide +kernel)
    · exact hname (h.subset (by decide +kernel))
    · exact word_job (c := 'n') (by decide +kernel) (by decide +kernel) (by decide) (by decide +kernel) h
    · exact absurd h (by decide +kernel)

theorem notAccepting_line (hname : .scalar ' ' ∉ name) (hcondition : condition ≠ .disabled) :
    Str.ofString "not accepting" <:+: condition.line name date ↔ Str.ofString "not accepting" <:+: date := by
  have hphrase : Str.ofString "not accepting" = Str.ofString "not" ++ .scalar ' ' :: Str.ofString "accepting" := rfl
  have hfront : .scalar ' ' ∉ Str.ofString "not" := by decide +kernel
  have hback : .scalar ' ' ∉ Str.ofString "accepting" := by decide +kernel
  have hprinter : ¬ Str.ofString "not" ++ .scalar ' ' :: Str.ofString "accepting" <:+: Str.ofString "printer" ∧
      ¬ Str.ofString "not" <:+ Str.ofString "printer" := by decide +kernel
  have htext := notAccepting_text hname hcondition
  rw [hphrase]
  cases condition with
  | disabled => exact absurd rfl hcondition
  | idle =>
    have hbegins : ¬ Str.ofString "accepting" <+: QueueCondition.idle.text name ++ .scalar ' ' :: date := by
      intro h
      exact absurd (List.cons_prefix_cons.mp h).1 (by decide)
    have hends : ¬ Str.ofString "not" <:+ QueueCondition.idle.text name := by
      show ¬ _ <:+ Str.ofString "is idle.  enabled since"
      decide +kernel
    rw [QueueCondition.line, phrase_statusLine hfront hback hprinter hname hbegins hends, or_iff_right htext]
  | printing job =>
    have hbegins : ¬ Str.ofString "accepting" <+:
        (QueueCondition.printing job).text name ++ .scalar ' ' :: date := by
      intro h
      exact absurd (List.cons_prefix_cons.mp h).1 (by decide)
    have hends : ¬ Str.ofString "not" <:+ (QueueCondition.printing job).text name := by
      intro h
      exact absurd (suffix_printing h (by decide +kernel)) (by decide +kernel)
    rw [QueueCondition.line, phrase_statusLine hfront hback hprinter hname hbegins hends, or_iff_right htext]

theorem nowPrinting_line (hname : .scalar ' ' ∉ name) (hcondition : condition ≠ .disabled) :
    Str.ofString "now printing" <:+: condition.line name date ↔
      condition.isPrinting = true ∨ Str.ofString "now printing" <:+: date := by
  cases condition with
  | disabled => exact absurd rfl hcondition
  | idle =>
    have hphrase : Str.ofString "now printing" = Str.ofString "now" ++ .scalar ' ' :: Str.ofString "printing" := rfl
    have hbegins : ¬ Str.ofString "printing" <+: QueueCondition.idle.text name ++ .scalar ' ' :: date := by
      intro h
      exact absurd (List.cons_prefix_cons.mp h).1 (by decide)
    have hends : ¬ Str.ofString "now" <:+ QueueCondition.idle.text name := by
      show ¬ _ <:+ Str.ofString "is idle.  enabled since"
      decide +kernel
    have htext : ¬ Str.ofString "now" ++ .scalar ' ' :: Str.ofString "printing" <:+: QueueCondition.idle.text name := by
      show ¬ _ <:+: Str.ofString "is idle.  enabled since"
      decide +kernel
    rw [hphrase, QueueCondition.line, phrase_statusLine (by decide +kernel) (by decide +kernel) (by decide +kernel)
      hname hbegins hends, or_iff_right htext, or_iff_right]
    exact Bool.false_ne_true
  | printing job =>
    refine iff_of_true ?_ (.inl rfl)
    have htext : Str.ofString "now printing" <:+: (QueueCondition.printing job).text name :=
      (List.prefix_append _ _).isInfix
    exact infix_statusLine htext

theorem idle_line : Str.ofString "idle" <:+: QueueCondition.idle.line name date := by
  have hidle : Str.ofString "idle" <:+: Str.ofString "is idle.  enabled since" := by decide +kernel
  exact infix_statusLine hidle

theorem disabled_line_self : Str.ofString "disabled" <:+: QueueCondition.disabled.line name date := by
  have hdisabled : Str.ofString "disabled" <:+: Str.ofString "disabled since" := by decide +kernel
  exact infix_statusLine hdisabled

/-! ### small letters -/

theorem lower_statusLine (u : Casing) :
    u.lower (statusLine name text date) = statusLine (u.lower name) (u.lower text) (u.lower date) := by
  have hprinter : u.lower (Str.ofString "printer") = Str.ofString "printer" := u.lower_word (by decide)
  rw [statusLine, u.lower_apart ' ' _ _ (.inl rfl), u.lower_apart ' ' _ _ (.inl rfl),
    u.lower_apart ' ' _ _ (.inl rfl), hprinter]
  rfl

theorem lower_job (u : Casing) :
    u.lower (Str.ofString (toString job ++ ".  enabled since")) =
      Str.ofString (toString job ++ ".  enabled since") := by
  refine u.lower_word ?_
  rw [String.toList_append, List.all_append, Bool.and_eq_true]
  refine ⟨List.all_eq_true.mpr fun c hc => ?_, by decide⟩
  obtain ⟨hlow, hhigh⟩ := digit_toString hc
  have hlower : c.toLower = c := by
    rcases toLower_cases c with hsame | ⟨hupper, -, -⟩
    · exact hsame
    · omega
  have hascii : c.toNat < 0x80 := by omega
  rw [decide_eq_true hascii, decide_eq_true hlower]
  rfl

theorem lower_text (u : Casing) : u.lower (condition.text name) = condition.text (u.lower name) := by
  cases condition with
  | idle => exact u.lower_word (by decide)
  | printing job =>
    have hnow : u.lower (Str.ofString "now printing") = Str.ofString "now printing" := u.lower_word (by decide)
    rw [QueueCondition.text, u.lower_apart ' ' _ _ (.inl rfl), u.lower_apart '-' _ _ (.inr rfl), hnow, lower_job]
    rfl
  | disabled => exact u.lower_word (by decide)

theorem lower_line (u : Casing) :
    u.lower (condition.line name date) = condition.line (u.lower name) (u.lower date) := by
  cases condition with
  | idle => rw [QueueCondition.line, lower_statusLine, lower_text, QueueCondition.line]
  | printing job => rw [QueueCondition.line, lower_statusLine, lower_text, QueueCondition.line]
  | disabled =>
    have hhyphen : u.lower (Str.ofString "-") = Str.ofString "-" := u.lower_word (by decide)
    rw [QueueCondition.line, lower_statusLine, lower_text, u.lower_apart ' ' _ _ (.inl rfl), hhyphen,
      QueueCondition.line]

/-! ### what is said of a queue -/

/-- the status of a queue that does not count as paused -/
def QueueCondition.activeStatus (condition : QueueCondition) (date : Str) : PrinterStatus :=
  if contains "not accepting" date then ⟨false, Str.ofString "Not accepting jobs"⟩
  else if condition.isPrinting || contains "now printing" date then ⟨true, Str.ofString "Printing"⟩
  else ⟨true, Str.ofString "Ready"⟩

/-- it counts as paused: its line has the word, be it in its name -/
def QueueCondition.countsAsPaused (condition : QueueCondition) (name date : Str) : Prop :=
  condition = .disabled ∨ contains "disabled" date = true ∨ contains "disabled" name = true

instance : Decidable (condition.countsAsPaused name date) :=
  inferInstanceAs (Decidable (_ ∨ _ ∨ _))

theorem contains_disabled_line :
    contains "disabled" (condition.line name date) = true ↔ condition.countsAsPaused name date := by
  rw [contains_iff, QueueCondition.countsAsPaused, contains_iff, contains_iff]
  by_cases hcondition : condition = .disabled
  · rw [hcondition]
    exact iff_of_true disabled_line_self (.inl rfl)
  · rw [disabled_line hcondition, or_iff_right hcondition, or_comm]

theorem statusFromState_line (u : Casing) (hname : ∀ c ∈ name, isSpace c = false) :
    statusFromState u.toUnicode (condition.line name date) =
      if condition.countsAsPaused (u.lower name) (u.lower date) then pausedStatus
      else condition.activeStatus (u.lower date) := by
  have hblank : .scalar ' ' ∉ u.lower name := by
    intro h
    exact absurd (hname _ (u.mem_of_blank name h)) (by decide)
  rw [statusFromState, lower_line]
  by_cases hpaused : condition.countsAsPaused (u.lower name) (u.lower date)
  · rw [if_pos hpaused]
    exact if_pos (contains_disabled_line.mpr hpaused)
  · have hcondition : condition ≠ .disabled := fun h => hpaused (.inl h)
    have haccepting : contains "not accepting" (condition.line (u.lower name) (u.lower date)) =
        contains "not accepting" (u.lower date) := by
      rw [Bool.eq_iff_iff, contains_iff, contains_iff, notAccepting_line hblank hcondition]
    have hprinting : contains "now printing" (condition.line (u.lower name) (u.lower date)) =
        (condition.isPrinting || contains "now printing" (u.lower date)) := by
      rw [Bool.eq_iff_iff, Bool.or_eq_true, contains_iff, contains_iff, nowPrinting_line hblank hcondition]
    rw [if_neg hpaused, QueueCondition.activeStatus, if_neg fun h => hpaused (contains_disabled_line.mp h),
      haccepting, hprinting]
    cases condition with
    | disabled => exact absurd rfl hcondition
    | printing job =>
      have hprints : (QueueCondition.printing job).isPrinting = true := rfl
      rw [hprints, Bool.true_or, if_pos rfl, if_pos rfl]
    | idle => rw [contains_iff.mpr idle_line, if_pos rfl]

end Line

theorem activeStatus_ne_paused (condition : QueueCondition) (date : Str) (attached : Bool) :
    checkAttached attached (condition.activeStatus date) ≠ checkAttached attached pausedStatus := by
  have hpaused : checkAttached attached pausedStatus = pausedStatus := rfl
  rw [hpaused, QueueCondition.activeStatus]
  cases attached <;> split_ifs <;> decide +kernel

/-- the queue counts as paused under any name, or under both names, or under none of the two -/
def PausedAlike (u : Casing) (condition : QueueCondition) (date m n : Str) : Prop :=
  condition = .disabled ∨ contains "disabled" (u.lower date) = true ∨
    (contains "disabled" (u.lower m) = true ↔ contains "disabled" (u.lower n) = true)

section Names
variable {condition : QueueCondition} {date m n : Str}

theorem pausedAlike_iff (u : Casing) : PausedAlike u condition date m n ↔
    (condition.countsAsPaused (u.lower m) (u.lower date) ↔ condition.countsAsPaused (u.lower n) (u.lower date)) := by
  rw [PausedAlike, QueueCondition.countsAsPaused, QueueCondition.countsAsPaused]
  by_cases hdisabled : condition = .disabled
  · exact iff_of_true (.inl hdisabled) (iff_of_true (.inl hdisabled) (.inl hdisabled))
  by_cases hdate : contains "disabled" (u.lower date) = true
  · exact iff_of_true (.inr (.inl hdate)) (iff_of_true (.inr (.inl hdate)) (.inr (.inl hdate)))
  rw [or_iff_right hdisabled, or_iff_right hdisabled, or_iff_right hdisabled, or_iff_right hdate,
    or_iff_right hdate, or_iff_right hdate]

theorem checkAttached_line_eq (u : Casing) (condition : QueueCondition) (date : Str) (attached : Bool)
    (hm : ∀ c ∈ m, isSpace c = false)
    (hn : ∀ c ∈ n, isSpace c = false) :
    checkAttached attached (statusFromState u.toUnicode (condition.line m date)) =
        checkAttached attached (statusFromState u.toUnicode (condition.line n date)) ↔
      PausedAlike u condition date m n := by
  have hne := activeStatus_ne_paused condition (u.lower date) attached
  rw [statusFromState_line u hm, statusFromState_line u hn, pausedAlike_iff]
  by_cases hm' : condition.countsAsPaused (u.lower m) (u.lower date)
  · rw [if_pos hm', iff_true_left hm']
    by_cases hn' : condition.countsAsPaused (u.lower n) (u.lower date)
    · rw [if_pos hn']
      exact iff_of_true rfl hn'
    · rw [if_neg hn']
      exact iff_of_false hne.symm hn'
  · rw [if_neg hm', iff_false_left hm']
    by_cases hn' : condition.countsAsPaused (u.lower n) (u.lower date)
    · rw [if_pos hn']
      exact iff_of_false hne fun h => h hn'
    · rw [if_neg hn']
      exact iff_of_true rfl hn'

theorem line_ne_nil (condition : QueueCondition) (name date : Str) : condition.line name date ≠ [] := by
  cases condition <;> exact List.cons_ne_nil _ _

end Names

/-- the status of a queue is the same under two names, unless one of them has the word "disabled" and the other
does not -/
theorem status_independent_of_name (u : Casing) (condition : QueueCondition) (date : Str) {m n : Str}
    (hm : ∀ c ∈ m, isSpace c = false) (hn : ∀ c ∈ n, isSpace c = false) :
    (statusFromState u.toUnicode (condition.line m date) = statusFromState u.toUnicode (condition.line n date) ↔
      PausedAlike u condition date m n) ∧
    ∀ w w' : Cups, (printerDetails u.toUnicode w m).state = condition.line m date →
      (printerDetails u.toUnicode w' n).state = condition.line n date →
      usbAttached (deviceUri w m) (attachedUsbUris w) = usbAttached (deviceUri w' n) (attachedUsbUris w') →
      (discoveredStatus u.toUnicode w m = discoveredStatus u.toUnicode w' n ↔ PausedAlike u condition date m n) ∧
      (getStatus u.toUnicode w m = getStatus u.toUnicode w' n ↔ PausedAlike u condition date m n) := by
  have hplain : ∀ status, checkAttached true status = status := by
    intro status
    rw [checkAttached, Bool.not_true, Bool.and_false, if_neg Bool.false_ne_true]
  have hstatus := checkAttached_line_eq u condition date true hm hn
  rw [hplain, hplain] at hstatus
  refine ⟨hstatus, fun w w' hstate hstate' hattached => ?_⟩
  have hne : (printerDetails u.toUnicode w m).state ≠ [] := hstate ▸ line_ne_nil condition m date
  have hne' : (printerDetails u.toUnicode w' n).state ≠ [] := hstate' ▸ line_ne_nil condition n date
  rw [getStatus_eq_discoveredStatus hne, getStatus_eq_discoveredStatus hne', discoveredStatus, discoveredStatus,
    hstate, hstate', hattached]
  have hchecked := checkAttached_line_eq u condition date
    (usbAttached (deviceUri w' n) (attachedUsbUris w')) hm hn
  exact ⟨hchecked, hchecked⟩

def idleQueues : Cups where
  queues := some (Str.ofString "Till\nBar\nDisabled-Access\n")
  destination := []
  details name := QueueCondition.idle.line name (Str.ofString "Sat") ++ Str.ofString "\n"
  device _ := []
  usbDevices := some []

theorem status_independent_of_name_till :
    getStatus .ascii idleQueues (Str.ofString "Till") = getStatus .ascii idleQueues (Str.ofString "Bar") :=
  have hnames := status_independent_of_name .ascii .idle (Str.ofString "Sat") (m := Str.ofString "Till")
    (n := Str.ofString "Bar") (by decide +kernel) (by decide +kernel)
  (hnames.2 idleQueues idleQueues (by decide +kernel) (by decide +kernel) rfl).2.mpr
    (.inr (.inr (iff_of_false (by decide +kernel) (by decide +kernel))))

/-- an idle printer is paused by its name -/
theorem idle_printer_paused :
    getStatus .ascii idleQueues (Str.ofString "Till") = ⟨true, Str.ofString "Ready"⟩ ∧
      getStatus .ascii idleQueues (Str.ofString "Disabled-Access") = pausedStatus ∧
      statusFromState .ascii (QueueCondition.idle.line (Str.ofString "Till") (Str.ofString "Sat")) ≠
        statusFromState .ascii (QueueCondition.idle.line (Str.ofString "Disabled-Access") (Str.ofString "Sat")) := by
  refine ⟨?_, ?_, ?_⟩ <;> decide +kernel

/-! ## attached printers -/

def queryParams (uri : Str) : List (Str × Str) :=
  (((PyUrl.after '?' uri).splitOn (.scalar '&')).filter (· ≠ [])).map fun param =>
    (PyUrl.before '=' param, PyUrl.after '=' param)

def valuesOf (key uri : Str) : List Str := ((queryParams uri).filter (·.1 = key)).map (·.2)

/-- printers of one model have the same part before the query -/
def SameModel (u v : Str) : Prop := PyUrl.before '?' v = PyUrl.before '?' u

/-- one device: parameters may be missing or in another order, but not different -/
structure SameDevice (u v : Str) : Prop where
  model : SameModel u v
  params : ∀ key, valuesOf key u ≠ [] → valuesOf key v ≠ [] → (valuesOf key u).Perm (valuesOf key v)

theorem SameDevice.refl (u : Str) : SameDevice u u := ⟨rfl, fun _ _ _ => .refl _⟩

/-- every printer of the model counts, whatever its parameters are -/
theorem usbAttached_iff {uri : Str} {attached : List Str} (hu : isUsbUri uri = true) :
    usbAttached uri (some attached) = true ↔ ∃ v ∈ attached, SameModel uri v := by
  rw [usbAttached, hu, Bool.not_true, Bool.false_or, Bool.or_eq_true, List.contains_iff_mem]
  constructor
  · rintro (h | h)
    · exact ⟨uri, h, rfl⟩
    · obtain ⟨v, hv, hmodel⟩ := List.any_eq_true.mp h
      have hbase : PyUrl.before '?' v = PyUrl.before '?' uri := of_decide_eq_true hmodel
      exact ⟨v, hv, hbase⟩
  · rintro ⟨v, hv, hmodel⟩
    have hbase : PyUrl.before '?' v = PyUrl.before '?' uri := hmodel
    exact .inr (List.any_eq_true.mpr ⟨v, hv, decide_eq_true hbase⟩)

theorem online_checkAttached {attached : Bool} {status : PrinterStatus} (h : status.online = true) :
    (checkAttached attached status).online = attached := by
  rw [checkAttached, h, Bool.true_and]
  cases attached with
  | true => exact h
  | false => rfl

section Attached
variable {u : Unicode} {w : Cups} {name : Str}

theorem state_ne_nil (h : (statusFromState u (printerDetails u w name).state).online = true) :
    (printerDetails u w name).state ≠ [] := by
  intro hnil
  have hlower : u.lower [] = [] := u.lower_ascii [] fun c hc => by cases hc
  rw [hnil, statusFromState, hlower] at h
  exact absurd h (by decide)

end Attached

/-- a printer counts as attached only if it is, and is offline if it is not, unless others of its model are
attached and it is not -/
theorem usb_attached_per_device {uri : Str} {attached : List Str} (hu : isUsbUri uri = true) :
    ((usbAttached uri (some attached) = true ↔ ∃ v ∈ attached, SameDevice uri v) ↔
      ((∃ v ∈ attached, SameModel uri v) → ∃ v ∈ attached, SameDevice uri v)) ∧
    ∀ (u : Unicode) (w : Cups) (name : Str), deviceUri w name = uri → attachedUsbUris w = some attached →
      (statusFromState u (printerDetails u w name).state).online = true →
      (((discoveredStatus u w name).online = true ↔ ∃ v ∈ attached, SameDevice uri v) ↔
        ((∃ v ∈ attached, SameModel uri v) → ∃ v ∈ attached, SameDevice uri v)) ∧
      (((getStatus u w name).online = true ↔ ∃ v ∈ attached, SameDevice uri v) ↔
        ((∃ v ∈ attached, SameModel uri v) → ∃ v ∈ attached, SameDevice uri v)) := by
  have hmodel : (∃ v ∈ attached, SameDevice uri v) → ∃ v ∈ attached, SameModel uri v :=
    fun ⟨v, hv, h⟩ => ⟨v, hv, h.model⟩
  have hdecided : (usbAttached uri (some attached) = true ↔ ∃ v ∈ attached, SameDevice uri v) ↔
      ((∃ v ∈ attached, SameModel uri v) → ∃ v ∈ attached, SameDevice uri v) := by
    rw [usbAttached_iff hu]
    exact ⟨fun h => h.mp, fun h => ⟨h, hmodel⟩⟩
  refine ⟨hdecided, fun u w name huri hattached honline => ?_⟩
  have hdiscovered : (discoveredStatus u w name).online = usbAttached uri (some attached) := by
    rw [discoveredStatus, huri, hattached]
    exact online_checkAttached honline
  rw [getStatus_eq_discoveredStatus (state_ne_nil honline), hdiscovered]
  exact ⟨hdecided, hdecided⟩

def tillPrinter : Str := Str.ofString "usb://EPSON/TM-T20?serial=A"

def barPrinter : Str := Str.ofString "usb://EPSON/TM-T20?serial=B"

/-- the queue of the till, with these devices attached -/
def tillQueue (devices : String) : Cups where
  queues := some (Str.ofString "Till\n")
  destination := []
  details _ := Str.ofString "printer Till is idle.  enabled since Sat\n"
  device _ := Str.ofString "device for Till: usb://EPSON/TM-T20?serial=A\n"
  usbDevices := some (Str.ofString devices)

theorem usb_attached_per_device_till :
    (getStatus .ascii (tillQueue "direct usb://EPSON/TM-T20?serial=A\n") (Str.ofString "Till")).online = true ↔
      ∃ v ∈ [tillPrinter], SameDevice tillPrinter v :=
  have hu : isUsbUri tillPrinter = true := by decide +kernel
  have hstatus := (@usb_attached_per_device tillPrinter [tillPrinter] hu).2 .ascii
    (tillQueue "direct usb://EPSON/TM-T20?serial=A\n") (Str.ofString "Till")
    (by decide +kernel) (by decide +kernel) (by decide +kernel)
  hstatus.2.mpr fun _ => ⟨tillPrinter, List.mem_singleton_self _, .refl _⟩

/-- only the printer at the bar is plugged in, and the one at the till is online -/
theorem unplugged_printer_online :
    usbAttached tillPrinter (some [barPrinter]) = true ∧
      (getStatus .ascii (tillQueue "direct usb://EPSON/TM-T20?serial=B\n") (Str.ofString "Till")).online = true ∧
      ¬ ∃ v ∈ [barPrinter], SameDevice tillPrinter v := by
  refine ⟨by decide +kernel, by decide +kernel, ?_⟩
  rintro ⟨v, hv, h⟩
  rw [List.mem_singleton.mp hv] at h
  have hserial := h.params (Str.ofString "serial") (by decide +kernel) (by decide +kernel)
  exact absurd hserial (by decide +kernel)

end PrintAgent
