import PrintAgent.Lib.Machine
import PrintAgent.Lib.Raise
import PrintAgent.Lib.Text
import PrintAgent.Net.Downloader

/-!
# The background service on a Mac

`service/macos_service.py`, and `cmd_pair` and `cmd_uninstall` of `cli.py`.  launchd and `launchctl` are no part of
the repository: they are a parameter (`Launchd`), and what the results rely on is what is documented of them
(`Launchd.Documented`).  `Mac` is the plist and the credentials on the disk, with the state of launchd.

`Kept` is for what the runs are about: the parts of the commands keep an invariant, so every step keeps it.
-/

namespace PrintAgent.MacosService

open PyJson (Str)
open PyStr
open Raise

/-- what `install_service` finds: `sys.frozen`, `sys.executable`, `LOG_DIR` and the variables it passes through -/
structure Installation where
  frozen : Bool
  executable : String
  logDir : String
  environ : List (String × String)
  deriving DecidableEq, Repr

structure Plist where
  label : String
  programArguments : List String
  runAtLoad : Bool
  keepAlive : Bool
  throttleInterval : Nat
  processType : String
  standardOutPath : String
  standardErrorPath : String
  environmentVariables : Option (List (String × String))
  deriving DecidableEq, Repr

/-- the file at `PLIST_PATH`; a write that raises may leave a part of it -/
inductive PlistFile where
  | absent
  | cut
  | whole (plist : Plist)
  deriving DecidableEq, Repr

/-- what is on the disk: `credentials` is the number of the pairing that they are from -/
structure Files where
  plist : PlistFile
  credentials : Option Nat
  deriving DecidableEq, Repr

/-- the subcommands of `launchctl` that the service uses; `kill` is the option `-k` -/
inductive Launchctl where
  | print
  | bootout
  | bootstrap
  | kickstart (kill : Bool)
  deriving DecidableEq, Repr

structure CompletedProcess where
  returncode : Int
  stdout : String
  stderr : String

/-! ## launchd -/

structure Launchd where
  State : Type
  /-- what happens without a command: a login, a logout, the agent ends, it is started again -/
  Event : Type
  init : State
  /-- the plist of the job that is loaded -/
  loaded : State → Option Plist
  /-- the credentials that the agent that runs has read -/
  process : State → Option Nat
  /-- a command, which may not even start -/
  launchctl : Launchctl → Files → State → Option CompletedProcess × State
  happens : Event → Files → State → State

namespace Launchd

/-- the job is still the one it was, or that of the plist on the disk -/
def Loads (L : Launchd) (files : Files) (s s' : L.State) : Prop :=
  L.loaded s' = L.loaded s ∨ ∃ plist, files.plist = .whole plist ∧ L.loaded s' = some plist

/-- an agent that starts reads the credentials on the disk -/
def Reads (L : Launchd) (files : Files) (s s' : L.State) : Prop :=
  L.process s' = none ∨ L.process s' = L.process s ∨ L.process s' = files.credentials

def Done (L : Launchd) (c : Launchctl) (files : Files) (s : L.State) : Prop :=
  ∃ result, (L.launchctl c files s).1 = some result ∧ result.returncode = 0

/-- what is documented of launchd and `launchctl`, and of the agent: it reads the credentials at its start -/
structure Documented (L : Launchd) : Prop where
  init_unloaded : L.loaded L.init = none
  /-- `print` is for a job that is loaded -/
  print_keeps (files s) : L.loaded (L.launchctl .print files s).2 = L.loaded s
  print_finds (files s result) : (L.launchctl .print files s).1 = some result →
    (result.returncode = 0 ↔ (L.loaded s).isSome = true)
  /-- `bootout` unloads the job -/
  bootout_unloads (files s) :
    L.loaded (L.launchctl .bootout files s).2 = none ∨ L.loaded (L.launchctl .bootout files s).2 = L.loaded s
  bootout_done (files s) : L.Done .bootout files s → L.loaded (L.launchctl .bootout files s).2 = none
  /-- `bootstrap` loads the plist, and with `RunAtLoad` the agent starts -/
  bootstrap_loads (files s) : L.Loads files s (L.launchctl .bootstrap files s).2
  bootstrap_done (files s) : L.Done .bootstrap files s → ∃ plist, files.plist = .whole plist ∧
    L.loaded (L.launchctl .bootstrap files s).2 = some plist ∧
    (plist.runAtLoad = true → L.process (L.launchctl .bootstrap files s).2 = files.credentials)
  /-- `kickstart` starts the agent, with `-k` also one that runs -/
  kickstart_keeps (kill files s) : L.loaded (L.launchctl (.kickstart kill) files s).2 = L.loaded s
  kickstart_leaves (files s k) : L.process s = some k → L.process (L.launchctl (.kickstart false) files s).2 = some k
  kickstart_done (files s) : L.Done (.kickstart true) files s →
    L.process (L.launchctl (.kickstart true) files s).2 = files.credentials
  launchctl_reads (c files s) : L.Reads files s (L.launchctl c files s).2
  /-- at a login the plist is loaded, at a logout the job is gone -/
  happens_loads (event files s) :
    L.loaded (L.happens event files s) = none ∨ L.Loads files s (L.happens event files s)
  happens_reads (event files s) : L.Reads files s (L.happens event files s)

end Launchd

/-! ## the commands -/

inductive ServiceError where
  | runtimeError (message : Str)
  | osError

/-- `written` counts the pairings that have written credentials, and `calls` are those of `launchctl` by the last
command, the latest one first, with what they exited with -/
structure Mac (L : Launchd) where
  files : Files
  launchd : L.State
  written : Nat
  calls : List (Launchctl × Option Int)

abbrev Manage (L : Launchd) := ExceptT ServiceError (StateM (Mac L))

section
variable {L : Launchd}

def init (L : Launchd) : Mac L := ⟨⟨.absent, none⟩, L.init, 0, []⟩

namespace Mac

def answer (m : Mac L) (c : Launchctl) : Option CompletedProcess := (L.launchctl c m.files m.launchd).1

def call (m : Mac L) (c : Launchctl) : Mac L :=
  { m with
    launchd := (L.launchctl c m.files m.launchd).2
    calls := (c, (m.answer c).map CompletedProcess.returncode) :: m.calls }

def put (m : Mac L) (file : PlistFile) : Mac L := { m with files := { m.files with plist := file } }

end Mac

def launchctl (c : Launchctl) : Manage L CompletedProcess := do
  let m ← get
  set (m.call c)
  match m.answer c with
  | some result => return result
  | none => throw .osError

/-- `(result.stderr or result.stdout).strip()` -/
def CompletedProcess.message (result : CompletedProcess) : Str :=
  strip (Str.ofString (if result.stderr.isEmpty then result.stdout else result.stderr))

def label : String := "cloud.eres.printagent"

def programArguments (inst : Installation) : List String :=
  if inst.frozen then [inst.executable, "run"] else [inst.executable, "-m", "eres_print_agent", "run"]

def passthroughEnv : List String := ["ERES_PRINT_AGENT_ALLOW_INSECURE_HTTP"]

def passedThrough (inst : Installation) : List (String × String) :=
  passthroughEnv.filterMap fun key => (inst.environ.find? (·.1 = key)).filter (·.2 ≠ "")

/-- the plist that `install_service` writes -/
def plistOf (inst : Installation) : Plist where
  label := label
  programArguments := programArguments inst
  runAtLoad := true
  keepAlive := true
  throttleInterval := 15
  processType := "Background"
  standardOutPath := inst.logDir ++ "/launchd.out.log"
  standardErrorPath := inst.logDir ++ "/launchd.err.log"
  environmentVariables := if (passedThrough inst).isEmpty then none else some (passedThrough inst)

def serviceExists : Manage L Bool := return (← get).files.plist ≠ .absent

def isLoaded : Manage L Bool := return (← launchctl .print).returncode = 0

/-- how the plist gets onto the disk: `ensure_directories`, `mkdir` and `open` may raise, and so may the write -/
inductive WriteAnswer where
  | done
  | refused
  | cut
  deriving DecidableEq, Repr

def writePlist (inst : Installation) : WriteAnswer → Manage L PUnit
  | .done => modify fun m => m.put (.whole (plistOf inst))
  | .refused => throw .osError
  | .cut => do
    modify fun m => m.put .cut
    throw .osError

/-- `if _is_loaded(): _launchctl("bootout", _target())`, which three commands have -/
def bootoutIfLoaded : Manage L PUnit := do
  if ← isLoaded then
    let _ ← launchctl .bootout

/-- the end of `install_service` -/
def bootstrapOrRaise : Manage L PUnit := do
  let result ← launchctl .bootstrap
  if result.returncode ≠ 0 then
    if !(← isLoaded) then
      throw (.runtimeError (Str.ofString "launchctl bootstrap failed: " ++ result.message))

def installService (inst : Installation) (write : WriteAnswer) : Manage L PUnit := do
  writePlist inst write
  bootoutIfLoaded
  bootstrapOrRaise

/-- `unlinks` says whether the file can be removed -/
def uninstallService (unlinks : Bool) : Manage L PUnit := do
  bootoutIfLoaded
  if ← serviceExists then
    if unlinks then modify fun m => m.put .absent else throw .osError

def startService (inst : Installation) (write : WriteAnswer) : Manage L PUnit := do
  if !(← serviceExists) then
    installService inst write
  else
    if !(← isLoaded) then
      let _ ← launchctl .bootstrap
    let _ ← launchctl (.kickstart false)

def stopService : Manage L PUnit := bootoutIfLoaded

def restartService (inst : Installation) (write : WriteAnswer) : Manage L PUnit := do
  if !(← isLoaded) then
    startService inst write
  else
    let result ← launchctl (.kickstart true)
    if result.returncode ≠ 0 then
      throw (.runtimeError (Str.ofString "launchctl kickstart failed: " ++ result.message))

/-- the first line with a state in what `launchctl print` writes -/
def stateLine (stdout : String) : Option Str :=
  ((splitlines (Str.ofString stdout)).map strip).findSome? fun line =>
    if Str.ofString "state =" <+: line then some (strip ((line.dropWhile (· ≠ .scalar '=')).drop 1)) else none

def queryServiceStatus : Manage L Str := do
  if !(← serviceExists) then
    return Str.ofString "not installed"
  else
    let result ← launchctl .print
    if result.returncode ≠ 0 then
      return Str.ofString "stopped"
    else
      return (stateLine result.stdout).getD (Str.ofString "loaded")

/-- `cmd_uninstall`; `deletes` says whether it comes to `delete_agent_secret` -/
def cmdUninstall (unlinks deletes : Bool) : Manage L PUnit := do
  uninstallService unlinks
  if deletes then modify fun m => { m with files := { m.files with credentials := none } }

/-- how `pair` ends; one that fails or raises may have written something -/
inductive Paired where
  | success
  | failure (wrote : Bool)
  deriving DecidableEq, Repr

def Paired.wrote : Paired → Bool
  | .success => true
  | .failure wrote => wrote

/-- `pair` has written the credentials -/
def Mac.pair (m : Mac L) : Mac L :=
  { m with files := { m.files with credentials := some (m.written + 1) }, written := m.written + 1 }

/-- the end of `cmd_pair` on a Mac: the service starts with the credentials that pairing has written -/
def serveNewCredentials (inst : Installation) (write : WriteAnswer) : Manage L PUnit := do
  if ← serviceExists then
    restartService inst write
  else
    installService inst write

/-- `cmd_pair` on a Mac, with the exit code -/
def cmdPair (inst : Installation) (write : WriteAnswer) (paired : Paired) (noService : Bool) (m : Mac L) :
    Int × Mac L :=
  let m' := if paired.wrote then m.pair else m
  if paired ≠ .success then (1, m')
  else if noService then (0, m')
  else
    let r := (serveNewCredentials inst write).run.run m'
    (if r.1.isOk then 0 else 1, r.2)

/-! ## the runs -/

/-- what can happen: a command, or something without one -/
inductive Act (L : Launchd) where
  | install (inst : Installation) (write : WriteAnswer)
  | uninstall (unlinks deletes : Bool)
  | start (inst : Installation) (write : WriteAnswer)
  | stop
  | restart (inst : Installation) (write : WriteAnswer)
  | query
  | pair (inst : Installation) (write : WriteAnswer) (paired : Paired) (noService : Bool)
  | happens (event : L.Event)

/-- the state after a command, whether it raises or not -/
def Mac.after {α : Type} (m : Mac L) (command : Manage L α) : Mac L := (command.run.run { m with calls := [] }).2

def step (m : Mac L) : Act L → Mac L
  | .install inst write => m.after (installService inst write)
  | .uninstall unlinks deletes => m.after (cmdUninstall unlinks deletes)
  | .start inst write => m.after (startService inst write)
  | .stop => m.after stopService
  | .restart inst write => m.after (restartService inst write)
  | .query => m.after queryServiceStatus
  | .pair inst write paired noService => (cmdPair inst write paired noService { m with calls := [] }).2
  | .happens event => { m with launchd := L.happens event m.files m.launchd, calls := [] }

def service (L : Launchd) : Machine (Mac L) (Act L) := ⟨init L, fun m a => some (step m a)⟩

/-! ## the parts of a command -/

theorem ends_launchctl {c : Launchctl} {P E : Mac L → Prop} {Q : CompletedProcess → Mac L → Prop}
    (hok : ∀ m result, P m → m.answer c = some result → Q result (m.call c))
    (hraise : ∀ m, P m → m.answer c = none → E (m.call c)) : Ends P (launchctl c) Q E := by
  refine Ends.seq (R := fun m' m => m' = m ∧ P m) (Ends.of_get fun m hm => ⟨rfl, hm⟩) fun m => ?_
  refine Ends.seq (R := fun _ m' => m' = m.call c ∧ P m) ?_ fun _ => ?_
  · intro s s' hs
    refine ⟨fun _ hrun => ?_, fun _ hrun => ?_⟩
    · cases hrun
      exact ⟨rfl, hs.1 ▸ hs.2⟩
    · cases hrun
  · cases hans : m.answer c with
    | some result => exact Ends.of_pure fun m' hm' => hm'.1 ▸ hok m result hm'.2 hans
    | none => exact Ends.of_throw fun m' hm' => hm'.1 ▸ hraise m hm'.2 hans

theorem keeps_launchctl {c : Launchctl} {I : Mac L → Prop} (h : ∀ m, I m → I (m.call c)) : Keeps I (launchctl c) :=
  ends_launchctl (fun m _ hm _ => h m hm) fun m hm _ => h m hm

theorem ends_isLoaded {P E : Mac L → Prop} {Q : Bool → Mac L → Prop}
    (hok : ∀ m result, P m → m.answer .print = some result → Q (result.returncode = 0) (m.call .print))
    (hraise : ∀ m, P m → m.answer .print = none → E (m.call .print)) : Ends P isLoaded Q E := by
  refine Ends.seq (R := fun result m => Q (result.returncode = 0) m) (ends_launchctl hok hraise) fun result => ?_
  exact Ends.of_pure fun m hm => hm

theorem ends_serviceExists {P E : Mac L → Prop} :
    Ends P serviceExists (fun found m => P m ∧ found = decide (m.files.plist ≠ .absent)) E := by
  refine Ends.seq (R := fun m' m => m' = m ∧ P m) (Ends.of_get fun m hm => ⟨rfl, hm⟩) fun m => ?_
  exact Ends.of_pure fun m' hm' => ⟨hm'.2, by rw [hm'.1]⟩

theorem absent_of_missing {found : Bool} {m : Mac L} (h : found = decide (m.files.plist ≠ .absent))
    (hmissing : ¬ found = true) : m.files.plist = .absent := by
  rw [h, decide_eq_true_iff] at hmissing
  exact not_not.mp hmissing

section
variable {I : Mac L → Prop}

/-! what every call keeps, a command keeps that does not write -/

theorem keeps_isLoaded (h : ∀ m c, I m → I (m.call c)) : Keeps I isLoaded :=
  ends_isLoaded (fun m _ hm _ => h m _ hm) fun m hm _ => h m _ hm

theorem keeps_bootoutIfLoaded (h : ∀ m c, I m → I (m.call c)) : Keeps I bootoutIfLoaded :=
  (keeps_isLoaded h).seq fun _ => Ends.of_ite
    (fun _ => (keeps_launchctl fun m hm => h m _ hm).seq fun _ => Ends.of_pure fun _ hm => hm)
    fun _ => Ends.of_pure fun _ hm => hm

theorem keeps_bootstrapOrRaise (h : ∀ m c, I m → I (m.call c)) : Keeps I bootstrapOrRaise :=
  (keeps_launchctl fun m hm => h m _ hm).seq fun _ => Ends.of_ite
    (fun _ => (keeps_isLoaded h).seq fun _ => Ends.of_ite (fun _ => Ends.of_throw fun _ hm => hm)
      fun _ => Ends.of_pure fun _ hm => hm)
    fun _ => Ends.of_pure fun _ hm => hm

theorem keeps_query (h : ∀ m c, I m → I (m.call c)) : Keeps I queryServiceStatus := by
  refine ends_serviceExists.seq fun found => Ends.of_ite (fun _ => Ends.of_pure fun _ hm => hm.1) fun _ => ?_
  refine Ends.seq (R := fun _ => I) (ends_launchctl (fun m _ hm _ => h m _ hm.1) fun m hm _ => h m _ hm.1) fun _ => ?_
  exact Ends.of_ite (fun _ => Ends.of_pure fun _ hm => hm) fun _ => Ends.of_pure fun _ hm => hm

end

theorem ends_writePlist {inst : Installation} {write : WriteAnswer} {P Q E : Mac L → Prop}
    (hdone : ∀ m, P m → Q (m.put (.whole (plistOf inst)))) (hrefused : ∀ m, P m → E m)
    (hcut : ∀ m, P m → E (m.put .cut)) : Ends P (writePlist inst write) (fun _ => Q) E := by
  cases write with
  | done => exact Ends.of_modify hdone
  | refused => exact Ends.of_throw hrefused
  | cut => exact Ends.seq (R := fun _ => E) (Ends.of_modify hcut) fun _ => Ends.of_throw fun _ hm => hm

def Act.pairs : Act L → Bool
  | .pair _ _ paired _ => paired.wrote
  | _ => false

/-- the parts of the step keep `I` -/
structure Kept (a : Act L) (I : Mac L → Prop) : Prop where
  forget : ∀ m, I m → I { m with calls := [] }
  call : ∀ m c, I m → I (m.call c)
  /-- a plist is installed where there is none -/
  first : ∀ inst write,
    Ends (fun m => I m ∧ m.files.plist = .absent) (installService inst write) (fun _ => I) I
  install : ∀ inst write, a = .install inst write → Keeps I (installService inst write)
  uninstall : ∀ unlinks deletes, a = .uninstall unlinks deletes → Keeps I (cmdUninstall unlinks deletes)
  pair : ∀ m, a.pairs = true → I m → I m.pair
  happens : ∀ m event, I m → I { m with launchd := L.happens event m.files m.launchd }

namespace Kept
variable {a : Act L} {I : Mac L → Prop} {inst : Installation} {write : WriteAnswer} {m : Mac L}

theorem start (h : Kept a I) : Keeps I (startService inst write) := by
  refine ends_serviceExists.seq fun found => Ends.of_ite (fun hfound => ?_) fun _ => ?_
  · have hmissing : ¬ found = true := Bool.eq_false_iff.mp ((Bool.not_eq_true' found).mp hfound)
    exact (h.first inst write).of_imp fun m hm => ⟨hm.1, absent_of_missing hm.2 hmissing⟩
  · have hkick : Keeps I (do let _ ← launchctl (.kickstart false)) :=
      (keeps_launchctl fun m hm => h.call m _ hm).seq fun _ => Ends.of_pure fun _ hm => hm
    refine Ends.of_imp (P := I) ?_ fun m hm => hm.1
    refine (keeps_isLoaded h.call).seq fun loaded => Ends.of_ite (fun _ => ?_) fun _ => hkick
    exact (keeps_launchctl fun m hm => h.call m _ hm).seq fun _ => hkick

theorem restart (h : Kept a I) : Keeps I (restartService inst write) := by
  refine (keeps_isLoaded h.call).seq fun loaded => Ends.of_ite (fun _ => h.start) fun _ => ?_
  exact (keeps_launchctl fun m hm => h.call m _ hm).seq fun _ =>
    Ends.of_ite (fun _ => Ends.of_throw fun _ hm => hm) fun _ => Ends.of_pure fun _ hm => hm

theorem serve (h : Kept a I) : Keeps I (serveNewCredentials inst write) := by
  refine ends_serviceExists.seq fun found => Ends.of_ite (fun _ => ?_) fun hfound => ?_
  · exact h.restart.of_imp fun m hm => hm.1
  · exact (h.first inst write).of_imp fun m hm => ⟨hm.1, absent_of_missing hm.2 hfound⟩

/-- **What the parts keep, the step keeps.** -/
theorem step (h : Kept a I) (hm : I m) : I (step m a) := by
  have hstart : I { m with calls := [] } := h.forget m hm
  cases a with
  | install inst write => exact (h.install inst write rfl).state hstart
  | uninstall unlinks deletes => exact (h.uninstall unlinks deletes rfl).state hstart
  | start inst write => exact h.start.state hstart
  | stop => exact (keeps_bootoutIfLoaded h.call).state hstart
  | restart inst write => exact h.restart.state hstart
  | query => exact (keeps_query h.call).state hstart
  | happens event => exact h.happens _ event hstart
  | pair inst write paired noService =>
    cases paired with
    | failure wrote =>
      cases wrote with
      | false => exact hstart
      | true => exact h.pair _ rfl hstart
    | success =>
      have hpaired := h.pair _ rfl hstart
      cases noService with
      | true => exact hpaired
      | false => exact h.serve.state hpaired

end Kept

end

end PrintAgent.MacosService
