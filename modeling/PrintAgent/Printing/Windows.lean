import PrintAgent.Lib.Joined
import PrintAgent.Lib.Raise
import PrintAgent.Models
import PrintAgent.Printing.Cups

/-!
# The printers of a Windows machine

`WindowsPrinterManager` asks the spooler through `win32print`, any call of which may raise.

* `discoverPrinter_run`   what `discover` makes of one printer, whatever its driver does;
* `discover_agrees`       `discover` lists every printer, closes what it opens, and says of a printer what `get_status`
                          says;
* `detail_tells`          the detail of a printer tells whether it is online, and what is wrong with it.
-/

namespace PrintAgent.WindowsPrinting

open PyJson (Str)
open Raise

/-! ## the status of a printer -/

def offlineStatusBits : List (String × Nat) :=
  [("PRINTER_STATUS_OFFLINE", 0x00000080),
   ("PRINTER_STATUS_ERROR", 0x00000002),
   ("PRINTER_STATUS_NOT_AVAILABLE", 0x00001000),
   ("PRINTER_STATUS_NO_TONER", 0x00040000),
   ("PRINTER_STATUS_PAPER_OUT", 0x00000010),
   ("PRINTER_STATUS_PAPER_JAM", 0x00000008),
   ("PRINTER_STATUS_DOOR_OPEN", 0x00400000)]

def printerAttributeWorkOffline : Nat := 0x00000400

/-- `value & bit` -/
def has (value bit : Nat) : Bool := value &&& bit ≠ 0

def isOnline (statusBits attributes : Nat) : Bool :=
  if has attributes printerAttributeWorkOffline then false
  else !(offlineStatusBits.any fun entry => has statusBits entry.2)

def active (statusBits : Nat) : List String :=
  (offlineStatusBits.filter fun entry => has statusBits entry.2).map Prod.fst

def statusDetail (statusBits : Nat) : String :=
  if statusBits = 0 then "Ready"
  else if active statusBits ≠ [] then ", ".intercalate (active statusBits)
  else "Status code " ++ toString statusBits

def notConnected : String := "Not connected (unplugged, switched off or set to offline)"

/-! ## the spooler -/

/-- what `EnumPrinters` says of a printer -/
structure Entry where
  pPrinterName : String
  pDriverName : Option String
  pPortName : Option String
  status : Option Nat
  attributes : Option Nat
  deriving DecidableEq, Repr

structure DevMode where
  color : Option Int
  duplex : Option Int
  deriving DecidableEq, Repr

/-- what `GetPrinter` says -/
structure PrinterInfo where
  status : Option Nat
  attributes : Option Nat
  pDevMode : Option DevMode
  deriving DecidableEq, Repr

/-- what the calls for a printer do: they return, or raise with a message -/
structure Driver where
  openPrinter : Except String PUnit
  getPrinter : Except String PrinterInfo
  closePrinter : Except String PUnit

inductive HandleCall where
  | opened (name : String)
  | closed (name : String)
  deriving DecidableEq, Repr

/-- the calls so far, and the variables `color` and `duplex` -/
structure Spooler where
  calls : List HandleCall
  color : Option Bool
  duplex : Option Bool
  deriving DecidableEq, Repr

abbrev Win32 := ExceptT String (StateM Spooler)

section
variable (d : Driver) (name : String)

def openPrinter : Win32 PUnit := do
  match d.openPrinter with
  | .error e => throw e
  | .ok _ => modify fun s => { s with calls := s.calls ++ [.opened name] }

def getPrinter : Win32 PrinterInfo :=
  match d.getPrinter with
  | .error e => throw e
  | .ok info => pure info

def closePrinter : Win32 PUnit := do
  modify fun s => { s with calls := s.calls ++ [.closed name] }
  match d.closePrinter with
  | .error e => throw e
  | .ok _ => pure ⟨⟩

/-- `try: body finally: ClosePrinter` -/
def closing {α : Type} (body : Win32 α) : Win32 α := do
  let result ← try Except.ok <$> body catch e => pure (Except.error e)
  closePrinter d name
  match result with
  | .ok a => pure a
  | .error e => throw e

/-- the body of the inner `try` of `discover` -/
def readDevMode : Win32 PUnit := do
  let info ← getPrinter d
  match info.pDevMode with
  | none => pure ⟨⟩
  | some devmode => modify fun s => { s with
      color := some (devmode.color.getD 0 = 2)
      duplex := some (devmode.duplex.getD 0 ∉ [0, 1]) }

/-- one round of the loop of `discover` -/
def discoverPrinter (defaultName : Option String) (entry : Entry) : Win32 DiscoveredPrinter := do
  modify fun s => { s with color := none, duplex := none }
  try
    openPrinter d entry.pPrinterName
    closing d entry.pPrinterName (readDevMode d)
  catch _ => pure ⟨⟩
  let s ← get
  return {
    localPrinterId := entry.pPrinterName
    displayName := entry.pPrinterName
    driverName := entry.pDriverName
    portName := entry.pPortName
    isDefault := some entry.pPrinterName = defaultName
    color := s.color
    duplex := s.duplex
    statusDetail := some (if has (entry.attributes.getD 0) printerAttributeWorkOffline then notConnected
      else statusDetail (entry.status.getD 0))
    online := some (isOnline (entry.status.getD 0) (entry.attributes.getD 0)) }

end

/-- `discover`; each printer comes with what its driver does -/
def discover (getDefaultPrinter : Except String String) (enumPrinters : Except String (List (Entry × Driver))) :
    Win32 (List DiscoveredPrinter) := do
  let defaultName := getDefaultPrinter.toOption
  match enumPrinters with
  | .error e => throw e
  | .ok rawPrinters => rawPrinters.mapM fun raw => discoverPrinter raw.2 defaultName raw.1

/-- the body of the second `try` of `get_status` -/
def readStatus (d : Driver) : Win32 PrinterStatus := do
  let info ← getPrinter d
  let statusBits := info.status.getD 0
  if has (info.attributes.getD 0) printerAttributeWorkOffline then
    return ⟨false, Str.ofString notConnected⟩
  return ⟨isOnline statusBits 0, Str.ofString (statusDetail statusBits)⟩

def getStatus (d : Driver) (localPrinterId : String) : Win32 PrinterStatus := do
  match ← (try Except.ok <$> openPrinter d localPrinterId catch e => pure (Except.error e)) with
  | .error error => return ⟨false, Str.ofString ("Printer unavailable: " ++ error)⟩
  | .ok _ => closing d localPrinterId (readStatus d)

/-! ## what the calls come to -/

def handleCalls (d : Driver) (name : String) : List HandleCall :=
  match d.openPrinter with
  | .error _ => []
  | .ok _ => [.opened name, .closed name]

def devMode (d : Driver) : Option DevMode :=
  match d.openPrinter, d.getPrinter with
  | .ok _, .ok info => info.pDevMode
  | _, _ => none

/-- what `discover` says of a printer -/
def described (defaultName : Option String) (entry : Entry) (d : Driver) : DiscoveredPrinter where
  localPrinterId := entry.pPrinterName
  displayName := entry.pPrinterName
  driverName := entry.pDriverName
  portName := entry.pPortName
  isDefault := some entry.pPrinterName = defaultName
  color := (devMode d).map fun devmode => devmode.color.getD 0 = 2
  duplex := (devMode d).map fun devmode => devmode.duplex.getD 0 ∉ [0, 1]
  statusDetail := some (if has (entry.attributes.getD 0) printerAttributeWorkOffline then notConnected
    else statusDetail (entry.status.getD 0))
  online := some (isOnline (entry.status.getD 0) (entry.attributes.getD 0))

theorem discoverPrinter_run (d : Driver) (defaultName : Option String) (entry : Entry) (s : Spooler) :
    (discoverPrinter d defaultName entry).run.run s = (.ok (described defaultName entry d),
      ⟨s.calls ++ handleCalls d entry.pPrinterName, (described defaultName entry d).color,
        (described defaultName entry d).duplex⟩) := by
  obtain ⟨opens, gets, closes⟩ := d
  cases opens with
  | error e => rw [handleCalls, List.append_nil]; rfl
  | ok _ =>
    have hcalls : s.calls ++ [HandleCall.opened entry.pPrinterName, .closed entry.pPrinterName] =
        s.calls ++ [HandleCall.opened entry.pPrinterName] ++ [.closed entry.pPrinterName] := by
      rw [List.append_assoc]
      rfl
    cases gets with
    | error e =>
      simp only [handleCalls, hcalls]
      cases closes <;> rfl
    | ok info =>
      obtain ⟨status, attributes, pDevMode⟩ := info
      simp only [handleCalls, hcalls]
      cases pDevMode <;> cases closes <;> rfl

theorem mapM_run (defaultName : Option String) (rawPrinters : List (Entry × Driver)) (s : Spooler) :
    ∃ s' : Spooler, (rawPrinters.mapM fun raw => discoverPrinter raw.2 defaultName raw.1).run.run s =
        (.ok (rawPrinters.map fun raw => described defaultName raw.1 raw.2), s') ∧
      s'.calls = s.calls ++ rawPrinters.flatMap fun raw => handleCalls raw.2 raw.1.pPrinterName := by
  induction rawPrinters generalizing s with
  | nil => exact ⟨s, rfl, (List.append_nil _).symm⟩
  | cons raw rest ih =>
    obtain ⟨s', hrest, hcalls⟩ := ih ⟨s.calls ++ handleCalls raw.2 raw.1.pPrinterName,
      (described defaultName raw.1 raw.2).color, (described defaultName raw.1 raw.2).duplex⟩
    refine ⟨s', ?_, ?_⟩
    · rw [List.mapM_cons, bind_of_ok (discoverPrinter_run raw.2 defaultName raw.1 s), bind_of_ok hrest]
      rfl
    · rw [hcalls, List.flatMap_cons, List.append_assoc]

theorem listed_of_discover {getDefaultPrinter : Except String String}
    {enumPrinters : Except String (List (Entry × Driver))} {printers : List DiscoveredPrinter} {s s' : Spooler}
    (h : (discover getDefaultPrinter enumPrinters).run.run s = (.ok printers, s')) : ∃ rawPrinters,
      enumPrinters = .ok rawPrinters ∧
      printers = rawPrinters.map fun raw => described getDefaultPrinter.toOption raw.1 raw.2 := by
  cases enumPrinters with
  | error e => cases h
  | ok rawPrinters =>
    obtain ⟨s'', hrun, -⟩ := mapM_run getDefaultPrinter.toOption rawPrinters s
    exact ⟨rawPrinters, rfl, Except.ok.inj (Prod.mk.inj (h.symm.trans hrun)).1⟩

/-- what `get_status` says of a printer -/
def reported (info : PrinterInfo) : PrinterStatus :=
  if has (info.attributes.getD 0) printerAttributeWorkOffline then ⟨false, Str.ofString notConnected⟩
  else ⟨isOnline (info.status.getD 0) 0, Str.ofString (statusDetail (info.status.getD 0))⟩

def answered (d : Driver) : Except String PrinterStatus :=
  match d.openPrinter with
  | .error error => .ok ⟨false, Str.ofString ("Printer unavailable: " ++ error)⟩
  | .ok _ =>
    match d.closePrinter with
    | .error e => .error e
    | .ok _ => d.getPrinter.map reported

theorem readStatus_run (d : Driver) (s : Spooler) : (readStatus d).run.run s = (d.getPrinter.map reported, s) := by
  cases hinfo : d.getPrinter with
  | error e =>
    have hget : (getPrinter d).run.run s = (.error e, s) := by
      unfold getPrinter
      rw [hinfo]
      rfl
    exact bind_of_error hget _
  | ok info =>
    have hget : (getPrinter d).run.run s = (.ok info, s) := by
      unfold getPrinter
      rw [hinfo]
      rfl
    unfold readStatus
    rw [bind_of_ok hget, Except.map, reported]
    split <;> rfl

/-- a `finally` is run either way, and raises in place of the body -/
theorem closing_run (d : Driver) (name : String) {α : Type} {body : Win32 α} {s s' : Spooler} {r : Except String α}
    (h : body.run.run s = (r, s')) : (closing d name body).run.run s =
      (match d.closePrinter with | .error e => .error e | .ok _ => r,
        { s' with calls := s'.calls ++ [.closed name] }) := by
  have hattempt : (tryCatch (Except.ok <$> body) fun e => pure (Except.error e) : Win32 (Except String α)).run.run s =
      (.ok r, s') := by
    cases r with
    | ok a =>
      refine tryCatch_of_ok ?_ _
      rw [map_eq_pure_bind, bind_of_ok h]
      rfl
    | error e =>
      have hmap : (Except.ok <$> body : Win32 (Except String α)).run.run s = (.error e, s') := by
        rw [map_eq_pure_bind, bind_of_error h]
      rw [tryCatch_of_error hmap]
      rfl
  unfold closing
  rw [bind_of_ok hattempt]
  obtain ⟨opens, gets, closes⟩ := d
  cases closes <;> cases r <;> rfl

theorem getStatus_run (d : Driver) (name : String) (s : Spooler) :
    (getStatus d name).run.run s = (answered d, { s with calls := s.calls ++ handleCalls d name }) := by
  obtain ⟨opens, gets, closes⟩ := d
  cases opens with
  | error e => rw [handleCalls, List.append_nil]; rfl
  | ok _ =>
    have hclosing := closing_run ⟨.ok ⟨⟩, gets, closes⟩ name
      (readStatus_run ⟨.ok ⟨⟩, gets, closes⟩ { s with calls := s.calls ++ [HandleCall.opened name] })
    rw [List.append_assoc] at hclosing
    exact hclosing

/-! ## the two ways to ask agree -/

/-- the spooler says of a printer what it said in the list -/
def Driver.Confirms (d : Driver) (entry : Entry) : Prop :=
  d.openPrinter = .ok ⟨⟩ ∧ ∃ info, d.getPrinter = .ok info ∧
    info.status.getD 0 = entry.status.getD 0 ∧ info.attributes.getD 0 = entry.attributes.getD 0

theorem reported_of_confirms {d : Driver} {entry : Entry} {status : PrinterStatus} (h : d.Confirms entry)
    (hanswer : answered d = .ok status) :
    status = if has (entry.attributes.getD 0) printerAttributeWorkOffline then ⟨false, Str.ofString notConnected⟩
      else ⟨isOnline (entry.status.getD 0) 0, Str.ofString (statusDetail (entry.status.getD 0))⟩ := by
  obtain ⟨hopen, info, hget, hstatus, hattributes⟩ := h
  unfold answered at hanswer
  rw [hopen, hget] at hanswer
  cases hclose : d.closePrinter with
  | error e =>
    rw [hclose] at hanswer
    cases hanswer
  | ok _ =>
    rw [hclose] at hanswer
    rw [← Except.ok.inj hanswer, reported, hstatus, hattributes]

theorem described_eq_reported {defaultName : Option String} {entry : Entry} {d d' : Driver} {status : PrinterStatus}
    (h : d'.Confirms entry) (hanswer : answered d' = .ok status) :
    (described defaultName entry d).online = some status.online ∧
      (described defaultName entry d).statusDetail.map Str.ofString = some status.detail := by
  rw [reported_of_confirms h hanswer]
  cases hoffline : has (entry.attributes.getD 0) printerAttributeWorkOffline with
  | true => simp [described, isOnline, hoffline]
  | false =>
    have hnone : has 0 printerAttributeWorkOffline = false := by decide
    simp [described, isOnline, hoffline, hnone]

theorem handleCalls_eq (rawPrinters : List (Entry × Driver)) : ∃ names : List String,
    names.Sublist (rawPrinters.map fun raw => raw.1.pPrinterName) ∧
      (rawPrinters.flatMap fun raw => handleCalls raw.2 raw.1.pPrinterName) =
        names.flatMap fun name => [.opened name, .closed name] := by
  induction rawPrinters with
  | nil => exact ⟨[], .slnil, rfl⟩
  | cons raw rest ih =>
    obtain ⟨names, hsub, hcalls⟩ := ih
    rw [List.flatMap_cons, hcalls]
    cases hopen : raw.2.openPrinter with
    | error e =>
      refine ⟨names, hsub.cons _, ?_⟩
      rw [handleCalls, hopen]
      rfl
    | ok _ =>
      refine ⟨raw.1.pPrinterName :: names, hsub.cons_cons _, ?_⟩
      rw [handleCalls, hopen]
      rfl

/-- **`discover` lists every printer, and `get_status` agrees with it**: whatever the drivers do, each printer that
`EnumPrinters` returns is listed once, in its place, each handle that was opened is closed before the next one is, and
where `get_status` finds the status that the list had, it tells the same. -/
theorem discover_agrees (getDefaultPrinter : Except String String) (rawPrinters : List (Entry × Driver)) (s : Spooler) :
    ∃ printers s', (discover getDefaultPrinter (.ok rawPrinters)).run.run s = (.ok printers, s') ∧
      printers.map (·.localPrinterId) = rawPrinters.map (·.1.pPrinterName) ∧
      (∃ names : List String, names.Sublist (rawPrinters.map (·.1.pPrinterName)) ∧
        s'.calls = s.calls ++ names.flatMap fun name => [.opened name, .closed name]) ∧
      ∀ (i : Nat) (raw : Entry × Driver) (printer : DiscoveredPrinter) (d : Driver) (status : PrinterStatus)
        (s₁ s₂ : Spooler),
        rawPrinters[i]? = some raw → printers[i]? = some printer → d.Confirms raw.1 →
        (getStatus d printer.localPrinterId).run.run s₁ = (.ok status, s₂) →
        printer.online = some status.online ∧ printer.statusDetail.map Str.ofString = some status.detail := by
  obtain ⟨s', hrun, hcalls⟩ := mapM_run getDefaultPrinter.toOption rawPrinters s
  obtain ⟨names, hsub, hpairs⟩ := handleCalls_eq rawPrinters
  refine ⟨_, s', hrun, ?_, ⟨names, hsub, by rw [hcalls, hpairs]⟩, ?_⟩
  · rw [List.map_map]
    rfl
  · intro i raw printer d status s₁ s₂ hraw hprinter hconfirms hstatus
    rw [List.getElem?_map, hraw] at hprinter
    cases hprinter
    rw [getStatus_run] at hstatus
    exact described_eq_reported hconfirms (Prod.mk.inj hstatus).1

/-! ## what the detail tells -/

/-- whether a detail is one of a printer that is online: it begins like `Ready` or `Status code` -/
def tellsOnline (detail : Str) : Bool :=
  detail.head? = some (.scalar 'R') || detail.head? = some (.scalar 'S')

theorem tellsOnline_ofString (detail : String) : tellsOnline (Str.ofString detail) =
    (detail.toList.head? = some 'R' || detail.toList.head? = some 'S' : Bool) := by
  unfold tellsOnline Str.ofString
  cases detail.toList with
  | nil => rfl
  | cons c rest => simp

theorem active_sublist (statusBits : Nat) : (active statusBits).Sublist (offlineStatusBits.map Prod.fst) :=
  List.filter_sublist.map Prod.fst

theorem active_eq_nil_iff {statusBits : Nat} :
    active statusBits = [] ↔ (offlineStatusBits.any fun entry => has statusBits entry.2) = false := by
  rw [active, List.map_eq_nil_iff, List.filter_eq_nil_iff, List.any_eq_false]

/-- the three kinds of details begin differently -/
theorem head?_statusDetail (statusBits : Nat) : (statusDetail statusBits).toList.head? =
    some (if statusBits = 0 then 'R' else if active statusBits ≠ [] then 'P' else 'S') := by
  have hhead : ∀ name ∈ offlineStatusBits.map Prod.fst, name.toList.head? = some 'P' := by decide
  unfold statusDetail
  split
  · rfl
  · split
    · rename_i hactive
      obtain ⟨name, names, hnames⟩ := List.exists_cons_of_ne_nil hactive
      have hmem : name ∈ active statusBits := by
        rw [hnames]
        exact List.mem_cons_self
      have hp := hhead name ((active_sublist statusBits).subset hmem)
      have hne : name.toList ≠ [] := by
        intro hnil
        rw [hnil] at hp
        cases hp
      rw [hnames, String.toList_intercalate, List.map_cons, Joined.head?_intercalate hne, hp]
    · rw [String.toList_append]
      rfl

theorem tellsOnline_statusDetail (statusBits : Nat) :
    tellsOnline (Str.ofString (statusDetail statusBits)) =
      !(offlineStatusBits.any fun entry => has statusBits entry.2) := by
  rw [tellsOnline_ofString, head?_statusDetail]
  by_cases hzero : statusBits = 0
  · rw [hzero]
    decide
  · rw [if_neg hzero]
    by_cases hactive : active statusBits = []
    · rw [active_eq_nil_iff.mp hactive, if_neg (not_not_intro hactive)]
      rfl
    · have hany := (Bool.eq_false_or_eq_true (offlineStatusBits.any fun entry => has statusBits entry.2)).resolve_right
        fun hany => hactive (active_eq_nil_iff.mpr hany)
      rw [hany, if_pos hactive]
      rfl

theorem tellsOnline_shown (statusBits attributes : Nat) :
    isOnline statusBits attributes = tellsOnline (Str.ofString
      (if has attributes printerAttributeWorkOffline then notConnected else statusDetail statusBits)) := by
  unfold isOnline
  split
  · decide
  · exact (tellsOnline_statusDetail statusBits).symm

theorem tellsOnline_answered {d : Driver} {status : PrinterStatus} (h : answered d = .ok status) :
    status.online = tellsOnline status.detail := by
  unfold answered at h
  split at h
  · rename_i error _
    cases h
    show false = tellsOnline (Str.ofString ("Printer unavailable: " ++ error))
    rw [tellsOnline_ofString, String.toList_append]
    rfl
  · split at h
    · cases h
    · cases hget : d.getPrinter with
      | error e =>
        rw [hget] at h
        cases h
      | ok info =>
        rw [hget] at h
        rw [← Except.ok.inj h, reported]
        split
        · decide
        · have hnone : has 0 printerAttributeWorkOffline = false := by decide
          have hshown := tellsOnline_shown (info.status.getD 0) 0
          rwa [hnone] at hshown

theorem active_of_statusDetail {statusBits statusBits' : Nat} (h : statusDetail statusBits = statusDetail statusBits') :
    active statusBits = active statusBits' := by
  have hhead := head?_statusDetail statusBits
  rw [h, head?_statusDetail] at hhead
  have hnone : active 0 = [] := by decide
  by_cases hzero : statusBits = 0 <;> by_cases hzero' : statusBits' = 0
  · rw [hzero, hzero']
  · by_cases hactive' : active statusBits' = []
    · rw [hzero, hnone, hactive']
    · simp [hzero, hzero', hactive'] at hhead
  · by_cases hactive : active statusBits = []
    · rw [hzero', hnone, hactive]
    · simp [hzero, hzero', hactive] at hhead
  · by_cases hactive : active statusBits = [] <;> by_cases hactive' : active statusBits' = []
    · rw [hactive, hactive']
    · simp [hzero, hzero', hactive, hactive'] at hhead
    · simp [hzero, hzero', hactive, hactive'] at hhead
    · unfold statusDetail at h
      rw [if_neg hzero, if_neg hzero', if_pos hactive, if_pos hactive'] at h
      have hlists := congrArg String.toList h
      rw [String.toList_intercalate, String.toList_intercalate] at hlists
      have hcomma : ∀ name ∈ offlineStatusBits.map Prod.fst, ',' ∉ name.toList := by decide
      have hnames : ∀ bits, ∀ word ∈ (active bits).map String.toList, ',' ∉ word := by
        intro bits word hword
        obtain ⟨name, hname, rfl⟩ := List.mem_map.mp hword
        exact hcomma name ((active_sublist bits).subset hname)
      have hwords := Joined.intercalate_injective (c := ',')
        (fun hnil => hactive (List.map_eq_nil_iff.mp hnil)) (fun hnil => hactive' (List.map_eq_nil_iff.mp hnil))
        (hnames statusBits) (hnames statusBits') hlists
      exact List.map_injective_iff.mpr (fun a b hab => String.toList_inj.mp hab) hwords

/-- **The detail of a printer tells what state it is in**: from it alone one reads whether the printer is online, in
what `discover` says and in what `get_status` says, and two statuses with one detail have the same of the bits that
matter. -/
theorem detail_tells :
    (∀ (d : Driver) (name : String) (status : PrinterStatus) (s s' : Spooler),
      (getStatus d name).run.run s = (.ok status, s') → status.online = tellsOnline status.detail) ∧
    (∀ (getDefaultPrinter : Except String String) (enumPrinters : Except String (List (Entry × Driver)))
      (printers : List DiscoveredPrinter) (s s' : Spooler),
      (discover getDefaultPrinter enumPrinters).run.run s = (.ok printers, s') → ∀ printer ∈ printers,
        printer.online = printer.statusDetail.map fun detail => tellsOnline (Str.ofString detail)) ∧
    ∀ statusBits statusBits' : Nat, statusDetail statusBits = statusDetail statusBits' →
      ∀ entry ∈ offlineStatusBits, has statusBits entry.2 = has statusBits' entry.2 := by
  refine ⟨fun d name status s s' h => ?_, fun getDefaultPrinter enumPrinters printers s s' h printer hprinter => ?_,
    fun statusBits statusBits' h => ?_⟩
  · rw [getStatus_run] at h
    exact tellsOnline_answered (Prod.mk.inj h).1
  · obtain ⟨rawPrinters, -, rfl⟩ := listed_of_discover h
    obtain ⟨raw, -, rfl⟩ := List.mem_map.mp hprinter
    exact congrArg some (tellsOnline_shown _ _)
  · have hnodup : (offlineStatusBits.map Prod.fst).Nodup := by decide
    intro entry hentry
    exact Joined.filter_of_map hnodup (p := fun entry => has statusBits entry.2)
      (q := fun entry => has statusBits' entry.2) (active_of_statusDetail h) hentry

end PrintAgent.WindowsPrinting
