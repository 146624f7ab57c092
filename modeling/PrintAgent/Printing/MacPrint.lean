import PrintAgent.Lib.Raise
import PrintAgent.Net.Downloader
import PrintAgent.Printing.Ppd
import PrintAgent.Printing.Receipt

/-!
# Printing on a Mac

`MacPrinterManager.print`: the receipt goes to `lp` as a raw bitmap when the printer is taken for a receipt
printer, and else, or when an exception comes up on the way, to its driver.

`call_ends` says all that a call can do (`Ends`), and `one_accepted_submission` when CUPS gets the receipt once:
unless the raw run is accepted and does not count as done, and the driver run is accepted too.
-/

namespace PrintAgent.MacPrinterManager

open PyJson (Str)
open Raise

/-- how a run of `lp` ends -/
inductive Finish where
  | exited (returncode : Int) (stdout stderr : String)
  | timedOut

/-- a run of `lp`; when it exits with 0, CUPS has accepted the job -/
structure LpRun where
  finish : Finish
  accepted : Bool
  accepted_of_zero : ∀ stdout stderr, finish = .exited 0 stdout stderr → accepted = true

/-- the answers of the world to one call of `print` -/
structure World where
  /-- the PPD of the printer -/
  ppd : Option (List UInt8)
  /-- the PDF file -/
  pdf : Option (List UInt8)
  /-- `render_pdf_gray` for a width; `none` when it raises -/
  render : Int → Option (List GrayPage)
  /-- `write_bytes` does not raise -/
  written : Bool
  /-- `unlink` does not raise -/
  unlinked : Bool
  rawRun : LpRun
  driverRun : LpRun

inductive PrintError where
  | arith (e : ArithError)
  | render (e : RenderError)
  | renderPdf
  | osError
  | timeoutExpired
  | runtimeError (message : Str)

/-- a run of `lp` with its arguments; `raw` is what its file holds, if it is not the PDF -/
structure Submission where
  args : List String
  raw : Option (List UInt8)
  run : LpRun

/-- a program that starts `lp` and raises -/
abbrev Spool := ExceptT PrintError (StateM (List Submission))

def liftArith {α : Type} : Except ArithError α → Spool α
  | .ok a => pure a
  | .error e => throw (.arith e)

/-- what `_run` returns -/
structure CompletedProcess where
  returncode : Int
  stdout : String
  stderr : String

/-- `_run(args, timeout=PRINT_TIMEOUT_SECONDS)` -/
def runLp (args : List String) (raw : Option (List UInt8)) (run : LpRun) : Spool CompletedProcess := do
  modify (· ++ [⟨args, raw, run⟩])
  match run.finish with
  | .exited returncode stdout stderr => return ⟨returncode, stdout, stderr⟩
  | .timedOut => throw .timeoutExpired

/-- `["lp", "-d", local_printer_id, "-n", str(max(1, int(copies)))]` -/
def lpArgs (localPrinterId : String) (copies : Int) : List String :=
  ["lp", "-d", localPrinterId, "-n", toString (max 1 copies)]

/-- `build_escpos_receipt(file_path, width_dots, dpi)` -/
def receiptData (w : World) (widthDots dpi : Int) : Spool (List UInt8) :=
  match w.render widthDots with
  | none => throw .renderPdf
  | some pages =>
    match buildEscposReceipt double pages dpi with
    | .ok data => return data
    | .error e => throw (.render e)

/-- `Path(raw_path).write_bytes(data)` -/
def writeBytes (w : World) : Spool PUnit := if w.written then pure () else throw .osError

/-- `Path(raw_path).unlink(missing_ok=True)` -/
def unlink (w : World) : Spool PUnit := if w.unlinked then pure () else throw .osError

/-- the receipt as a bitmap; the result says whether `print` returns -/
def printRaw (w : World) (args : List String) (filePath : String) (widthDots : Int) : Spool Bool := do
  let dpi ← liftArith (dpiOf (ppdText w.ppd))
  let data ← receiptData w widthDots dpi
  writeBytes w
  let rawPath := s!"{filePath}.escpos"
  let result ← tryFinally (runLp (args ++ ["-o", "raw", rawPath]) (some data) w.rawRun) (unlink w)
  return result.returncode = 0

/-- `(result.stderr or result.stdout or "").strip()` -/
def CompletedProcess.message (result : CompletedProcess) : Str :=
  strip (Str.ofString (if result.stderr.isEmpty then result.stdout else result.stderr))

/-- `if result.returncode != 0: raise RuntimeError(...)` -/
def checkReturncode (result : CompletedProcess) : Spool PUnit :=
  if result.returncode = 0 then pure ()
  else
    let reason := if result.message = [] then Str.ofString s!"lp exited {result.returncode}" else result.message
    throw (.runtimeError (Str.ofString "macOS print failed: " ++ reason))

def mediaArgs : Option String → List String
  | some media => ["-o", s!"media={media}", "-o", "fit-to-page"]
  | none => []

def printDriver (w : World) (args : List String) (filePath : String) (sizes : List (PaperSize Double))
    (custom : Option (CustomRange Double)) : Spool PUnit := do
  let page ← liftArith (pdfPageSize w.pdf)
  let media ← liftArith (chosenMedia sizes custom page)
  let result ← runLp (args ++ mediaArgs media ++ [filePath]) none w.driverRun
  checkReturncode result

/-- the raw bitmap, if the printer takes it; every exception on the way is caught -/
def tryRaw (w : World) (args : List String) (filePath : String) : Option Int → Spool Bool
  | some widthDots => tryCatch (printRaw w args filePath widthDots) fun _ => pure false
  | none => pure false

def print (w : World) (localPrinterId filePath : String) (copies : Int) : Spool PUnit := do
  let args := lpArgs localPrinterId copies
  let sizes : List (PaperSize Double) ← liftArith (paperSizes w.ppd)
  let custom ← liftArith (customSizeRange w.ppd)
  let widthDots ← liftArith (escposWidthDots (ppdText w.ppd) sizes custom)
  if ← tryRaw w args filePath widthDots then return
  printDriver w args filePath sizes custom

/-! ## what a call does -/

/-- what `_run` returns or raises -/
def LpRun.result (run : LpRun) : Except PrintError CompletedProcess :=
  match run.finish with
  | .exited returncode stdout stderr => .ok ⟨returncode, stdout, stderr⟩
  | .timedOut => .error .timeoutExpired

/-- `lp` exits with 0 -/
def LpRun.succeeds (run : LpRun) : Bool :=
  match run.result with
  | .ok result => result.returncode = 0
  | .error _ => false

theorem LpRun.accepted_of_succeeds {run : LpRun} (h : run.succeeds = true) : run.accepted = true := by
  rw [succeeds, result] at h
  cases hfinish : run.finish with
  | exited returncode stdout stderr =>
    rw [hfinish] at h
    have hzero : returncode = 0 := of_decide_eq_true h
    exact run.accepted_of_zero stdout stderr (hzero ▸ hfinish)
  | timedOut =>
    rw [hfinish] at h
    cases h

structure RawFile (w : World) (widthDots : Int) (data : List UInt8) : Prop where
  data : ∃ dpi pages, dpiOf (ppdText w.ppd) = .ok dpi ∧ w.render widthDots = some pages ∧
    buildEscposReceipt double pages dpi = .ok data
  written : w.written = true

/-- `print` returns after the raw run -/
structure RawReturns (w : World) : Prop where
  succeeds : w.rawRun.succeeds = true
  unlinked : w.unlinked = true

section Steps
variable {w : World} {args : List String} {filePath : String} {widthDots : Int} {s : List Submission}

theorem liftArith_of_ok {α : Type} {x : Except ArithError α} {a : α} (h : x = .ok a) :
    (liftArith x).run.run s = (.ok a, s) := by
  rw [h]
  rfl

theorem liftArith_of_error {α : Type} {x : Except ArithError α} {e : ArithError} (h : x = .error e) :
    (liftArith x).run.run s = (.error (.arith e), s) := by
  rw [h]
  rfl

theorem runLp_run (args : List String) (raw : Option (List UInt8)) (run : LpRun) (s : List Submission) :
    (runLp args raw run).run.run s = (run.result, s ++ [⟨args, raw, run⟩]) := by
  rw [runLp, LpRun.result]
  cases run.finish with
  | exited returncode stdout stderr => rfl
  | timedOut => rfl

theorem runRaw_run (w : World) (args : List String) (raw : Option (List UInt8)) (s : List Submission) :
    (tryFinally (runLp args raw w.rawRun) (unlink w)).run.run s
      = (if w.unlinked then w.rawRun.result else .error .osError, s ++ [⟨args, raw, w.rawRun⟩]) := by
  rw [runLp, LpRun.result, unlink]
  cases w.rawRun.finish with
  | exited returncode stdout stderr =>
    cases w.unlinked with
    | false => rfl
    | true => rfl
  | timedOut =>
    cases w.unlinked with
    | false => rfl
    | true => rfl

variable (args filePath s) in
theorem printRaw_of_file {data : List UInt8} (h : RawFile w widthDots data) :
    ∃ r sub, (printRaw w args filePath widthDots).run.run s = (r, s ++ [sub]) ∧ sub.run = w.rawRun ∧
      (r = .ok true ↔ RawReturns w) := by
  obtain ⟨⟨dpi, pages, hdpi, hpages, hdata⟩, hwritten⟩ := h
  have hreceipt : (receiptData w widthDots dpi).run.run s = (.ok data, s) := by
    rw [receiptData, hpages]
    dsimp only
    rw [hdata]
    rfl
  have hwrite : (writeBytes w).run.run s = (.ok (), s) := by rw [writeBytes, hwritten]; rfl
  rw [printRaw, bind_of_ok (liftArith_of_ok hdpi), bind_of_ok hreceipt, bind_of_ok hwrite]
  dsimp only
  have hrun := runRaw_run w (args ++ ["-o", "raw", s!"{filePath}.escpos"]) (some data) s
  by_cases hunlinked : w.unlinked = true
  · rw [if_pos hunlinked] at hrun
    cases hresult : w.rawRun.result with
    | error e =>
      rw [hresult] at hrun
      rw [bind_of_error hrun]
      refine ⟨_, _, rfl, rfl, iff_of_false (fun h => by cases h) fun h => ?_⟩
      have hno := h.succeeds
      rw [LpRun.succeeds, hresult] at hno
      cases hno
    | ok result =>
      rw [hresult] at hrun
      rw [bind_of_ok hrun]
      have hsucceeds : w.rawRun.succeeds = decide (result.returncode = 0) := by rw [LpRun.succeeds, hresult]
      refine ⟨_, _, rfl, rfl, fun h => ⟨hsucceeds.trans (Except.ok.inj h), hunlinked⟩, fun h => ?_⟩
      exact congrArg Except.ok (hsucceeds.symm.trans h.succeeds)
  · rw [if_neg hunlinked] at hrun
    rw [bind_of_error hrun]
    exact ⟨_, _, rfl, rfl, iff_of_false (fun h => by cases h) fun h => absurd h.unlinked hunlinked⟩

variable (args filePath s) in
theorem printRaw_of_no_file (h : ∀ data, ¬ RawFile w widthDots data) :
    ∃ e, (printRaw w args filePath widthDots).run.run s = (.error e, s) := by
  rw [printRaw]
  cases hdpi : dpiOf (ppdText w.ppd) with
  | error e => exact ⟨.arith e, bind_of_error (liftArith_of_error rfl) _⟩
  | ok dpi =>
    rw [bind_of_ok (liftArith_of_ok rfl)]
    cases hpages : w.render widthDots with
    | none =>
      have hreceipt : (receiptData w widthDots dpi).run.run s = (.error .renderPdf, s) := by
        rw [receiptData, hpages]
        rfl
      exact ⟨_, bind_of_error hreceipt _⟩
    | some pages =>
      cases hdata : buildEscposReceipt double pages dpi with
      | error e =>
        have hreceipt : (receiptData w widthDots dpi).run.run s = (.error (.render e), s) := by
          rw [receiptData, hpages]
          dsimp only
          rw [hdata]
          rfl
        exact ⟨_, bind_of_error hreceipt _⟩
      | ok data =>
        have hreceipt : (receiptData w widthDots dpi).run.run s = (.ok data, s) := by
          rw [receiptData, hpages]
          dsimp only
          rw [hdata]
          rfl
        have hwrite : (writeBytes w).run.run s = (.error .osError, s) := by
          rw [writeBytes, if_neg fun hw => h data ⟨⟨dpi, pages, hdpi, hpages, hdata⟩, hw⟩]
          rfl
        rw [bind_of_ok hreceipt]
        exact ⟨_, bind_of_error hwrite _⟩

theorem tryRaw_run (w : World) (args : List String) (filePath : String) (width : Option Int)
    (s : List Submission) :
    (∃ widthDots data, width = some widthDots ∧ RawFile w widthDots data) ∧
        (∃ b sub, (tryRaw w args filePath width).run.run s = (.ok b, s ++ [sub]) ∧ sub.run = w.rawRun ∧
          (b = true ↔ RawReturns w)) ∨
      (¬ ∃ widthDots data, width = some widthDots ∧ RawFile w widthDots data) ∧
        (tryRaw w args filePath width).run.run s = (.ok false, s) := by
  cases width with
  | none => exact .inr ⟨(fun ⟨_, _, h, _⟩ => by cases h), rfl⟩
  | some widthDots =>
    by_cases hfile : ∃ data, RawFile w widthDots data
    · obtain ⟨data, hdata⟩ := hfile
      refine .inl ⟨⟨widthDots, data, rfl, hdata⟩, ?_⟩
      obtain ⟨r, sub, hrun, hsub, hr⟩ := printRaw_of_file args filePath s hdata
      cases r with
      | ok b =>
        refine ⟨b, sub, tryCatch_of_ok hrun _, hsub, ?_⟩
        rw [← hr]
        exact ⟨congrArg Except.ok, Except.ok.inj⟩
      | error e =>
        refine ⟨false, sub, (tryCatch_of_error hrun _).trans rfl, hsub, ?_⟩
        exact iff_of_false (by decide) fun h => by cases hr.mpr h
    · obtain ⟨e, hrun⟩ := printRaw_of_no_file args filePath s
        fun data hdata => hfile ⟨data, hdata⟩
      refine .inr ⟨fun ⟨_, data, h, hdata⟩ => ?_, (tryCatch_of_error hrun _).trans rfl⟩
      cases h
      exact hfile ⟨data, hdata⟩

def paperFor (w : World) (sizes : List (PaperSize Double)) (custom : Option (CustomRange Double)) :
    Except ArithError (Option String) := do
  chosenMedia sizes custom (← pdfPageSize w.pdf)

theorem printDriver_run (w : World) (args : List String) (filePath : String) (sizes : List (PaperSize Double))
    (custom : Option (CustomRange Double)) (s : List Submission) :
    (∃ media, paperFor w sizes custom = .ok media) ∧
        (∃ r sub, (printDriver w args filePath sizes custom).run.run s = (r, s ++ [sub]) ∧
          sub.run = w.driverRun ∧ (r = .ok () ↔ w.driverRun.succeeds = true)) ∨
      (¬ ∃ media, paperFor w sizes custom = .ok media) ∧
        ∃ e, (printDriver w args filePath sizes custom).run.run s = (.error e, s) := by
  rw [printDriver, paperFor]
  cases hpage : (pdfPageSize w.pdf : Except ArithError (Option (PageSize Double))) with
  | error e => exact .inr ⟨(fun ⟨_, h⟩ => by cases h), _, bind_of_error (liftArith_of_error rfl) _⟩
  | ok page =>
    rw [bind_of_ok (liftArith_of_ok rfl)]
    cases hmedia : chosenMedia sizes custom page with
    | error e =>
      refine .inr ⟨fun ⟨_, h⟩ => ?_, _, bind_of_error (liftArith_of_error rfl) _⟩
      cases hmedia.symm.trans h
    | ok media =>
      refine .inl ⟨⟨media, hmedia⟩, ?_⟩
      have hrun := runLp_run (args ++ mediaArgs media ++ [filePath]) none w.driverRun s
      rw [bind_of_ok (liftArith_of_ok rfl), LpRun.succeeds]
      cases hresult : w.driverRun.result with
      | error e =>
        rw [hresult] at hrun
        rw [bind_of_error hrun]
        exact ⟨_, _, rfl, rfl, iff_of_false (fun h => by cases h) fun h => by cases h⟩
      | ok result =>
        rw [hresult] at hrun
        rw [bind_of_ok hrun, checkReturncode]
        by_cases hzero : result.returncode = 0
        · rw [if_pos hzero]
          exact ⟨_, _, rfl, rfl, iff_of_true rfl (decide_eq_true hzero)⟩
        · rw [if_neg hzero]
          exact ⟨_, _, rfl, rfl, iff_of_false (fun h => by cases h) fun h => hzero (of_decide_eq_true h)⟩

end Steps

/-! ## the whole call -/

/-- how a call of `print` ends, and the runs of `lp` that it made -/
def call (w : World) (localPrinterId filePath : String) (copies : Int) :
    Except PrintError PUnit × List Submission :=
  (print w localPrinterId filePath copies).run.run []

/-- the width of the receipt printer that the PPD describes, if it does -/
def receiptWidth (ppd : Option (List UInt8)) : Except ArithError (Option Int) := do
  let sizes : List (PaperSize Double) ← paperSizes ppd
  let custom ← customSizeRange ppd
  escposWidthDots (ppdText ppd) sizes custom

def paperOf (w : World) : Except ArithError (Option String) := do
  let sizes ← paperSizes w.ppd
  let custom ← customSizeRange w.ppd
  paperFor w sizes custom

/-- the receipt goes to `lp` as a bitmap -/
def RawSubmitted (w : World) : Prop :=
  ∃ widthDots data, receiptWidth w.ppd = .ok (some widthDots) ∧ RawFile w widthDots data

/-- all that a call of `print` can do -/
inductive Ends (w : World) : Except PrintError PUnit × List Submission → Prop
  | nothing (e : PrintError) (hraw : ¬ RawSubmitted w) : Ends w (.error e, [])
  | raw (sub : Submission) (hsub : sub.run = w.rawRun) (hreturns : RawReturns w) : Ends w (.ok (), [sub])
  | rawOnly (e : PrintError) (sub : Submission) (hsub : sub.run = w.rawRun)
      (hpaper : ¬ ∃ media, paperOf w = .ok media) : Ends w (.error e, [sub])
  | driver (r : Except PrintError PUnit) (sub : Submission) (hraw : ¬ RawSubmitted w)
      (hsub : sub.run = w.driverRun) (hr : r = .ok () ↔ w.driverRun.succeeds = true) : Ends w (r, [sub])
  | both (r : Except PrintError PUnit) (sub sub' : Submission) (hraw : RawSubmitted w) (hreturns : ¬ RawReturns w)
      (hpaper : ∃ media, paperOf w = .ok media) (hsub : sub.run = w.rawRun) (hsub' : sub'.run = w.driverRun)
      (hr : r = .ok () ↔ w.driverRun.succeeds = true) : Ends w (r, [sub, sub'])

theorem call_ends (w : World) (localPrinterId filePath : String) (copies : Int) :
    Ends w (call w localPrinterId filePath copies) := by
  rw [call, print]
  cases hsizes : (paperSizes w.ppd : Except ArithError (List (PaperSize Double))) with
  | error e =>
    rw [bind_of_error (liftArith_of_error rfl)]
    refine .nothing _ fun ⟨_, _, h, _⟩ => ?_
    rw [receiptWidth, hsizes] at h
    cases h
  | ok sizes =>
    rw [bind_of_ok (liftArith_of_ok rfl)]
    cases hcustom : (customSizeRange w.ppd : Except ArithError (Option (CustomRange Double))) with
    | error e =>
      rw [bind_of_error (liftArith_of_error rfl)]
      refine .nothing _ fun ⟨_, _, h, _⟩ => ?_
      rw [receiptWidth, hsizes, hcustom] at h
      cases h
    | ok custom =>
      rw [bind_of_ok (liftArith_of_ok rfl)]
      have hwidth : receiptWidth w.ppd = escposWidthDots (ppdText w.ppd) sizes custom := by
        rw [receiptWidth, hsizes, hcustom]
        rfl
      have hpaper : paperOf w = paperFor w sizes custom := by
        rw [paperOf, hsizes, hcustom]
        rfl
      cases hdots : escposWidthDots (ppdText w.ppd) sizes custom with
      | error e =>
        rw [bind_of_error (liftArith_of_error rfl)]
        refine .nothing _ fun ⟨_, _, h, _⟩ => ?_
        rw [hwidth, hdots] at h
        cases h
      | ok width =>
        rw [bind_of_ok (liftArith_of_ok rfl)]
        have hraw : RawSubmitted w ↔ ∃ widthDots data, width = some widthDots ∧ RawFile w widthDots data := by
          rw [RawSubmitted, hwidth, hdots]
          simp only [Except.ok.injEq]
        rcases tryRaw_run w (lpArgs localPrinterId copies) filePath width [] with
          ⟨hyes, b, sub, hrun, hsub, hb⟩ | ⟨hno, hrun⟩
        · rw [bind_of_ok hrun]
          cases b with
          | true => exact .raw sub hsub (hb.mp rfl)
          | false =>
            have hreturns : ¬ RawReturns w := fun h => by cases hb.mpr h
            rcases printDriver_run w (lpArgs localPrinterId copies) filePath sizes custom ([] ++ [sub]) with
              ⟨hmedia, r, sub', hrun', hsub', hr⟩ | ⟨hmedia, e, hrun'⟩
            · show Ends w ((printDriver w (lpArgs localPrinterId copies) filePath sizes custom).run.run ([] ++ [sub]))
              rw [hrun']
              exact .both r sub sub' (hraw.mpr hyes) hreturns (hpaper ▸ hmedia) hsub hsub' hr
            · show Ends w ((printDriver w (lpArgs localPrinterId copies) filePath sizes custom).run.run ([] ++ [sub]))
              rw [hrun']
              exact .rawOnly e sub hsub (hpaper ▸ hmedia)
        · rw [bind_of_ok hrun]
          show Ends w ((printDriver w (lpArgs localPrinterId copies) filePath sizes custom).run.run [])
          rcases printDriver_run w (lpArgs localPrinterId copies) filePath sizes custom [] with
            ⟨_, r, sub, hrun', hsub, hr⟩ | ⟨_, e, hrun'⟩
          · rw [hrun']
            exact .driver r sub (fun h => hno (hraw.mp h)) hsub hr
          · rw [hrun']
            exact .nothing e fun h => hno (hraw.mp h)

/-! ## one accepted submission -/

def acceptedCount (submissions : List Submission) : Nat := submissions.countP (·.run.accepted)

/-- CUPS has accepted at most one submission, and one if the call returned -/
structure OneAccepted (outcome : Except PrintError PUnit × List Submission) : Prop where
  atMost : acceptedCount outcome.2 ≤ 1
  exact : outcome.1 = .ok () → acceptedCount outcome.2 = 1

/-- CUPS accepts the raw run, but `print` goes on after it, and CUPS accepts the driver run too -/
structure AcceptsTwice (w : World) : Prop where
  raw : RawSubmitted w
  rawAccepted : w.rawRun.accepted = true
  goesOn : ¬ RawReturns w
  paper : ∃ media, paperOf w = .ok media
  driverAccepted : w.driverRun.accepted = true

theorem acceptedCount_one {sub : Submission} {run : LpRun} (hsub : sub.run = run) :
    acceptedCount [sub] = run.accepted.toNat := by
  rw [acceptedCount, List.countP_singleton, hsub]
  cases run.accepted <;> rfl

theorem oneAccepted_of_one {r : Except PrintError PUnit} {sub : Submission} {run : LpRun} (hsub : sub.run = run)
    (hr : r = .ok () → run.accepted = true) : OneAccepted (r, [sub]) where
  atMost := List.countP_le_length
  exact h := by
    show acceptedCount [sub] = 1
    rw [acceptedCount_one hsub, hr h]
    rfl

/-- a call gets one job accepted at most, and one if it returns, unless it gets two accepted -/
theorem one_accepted_submission (w : World) (localPrinterId filePath : String) (copies : Int) :
    OneAccepted (call w localPrinterId filePath copies) ↔ ¬ AcceptsTwice w := by
  have hends := call_ends w localPrinterId filePath copies
  generalize call w localPrinterId filePath copies = outcome at hends
  cases hends with
  | nothing e hraw =>
    exact iff_of_true ⟨Nat.zero_le 1, fun h => by cases h⟩ fun h => hraw h.raw
  | raw sub hsub hreturns =>
    refine iff_of_true (oneAccepted_of_one hsub fun _ => ?_) fun h => h.goesOn hreturns
    exact LpRun.accepted_of_succeeds hreturns.succeeds
  | rawOnly e sub hsub hpaper =>
    exact iff_of_true (oneAccepted_of_one hsub fun h => by cases h) fun h => hpaper h.paper
  | driver r sub hraw hsub hr =>
    refine iff_of_true (oneAccepted_of_one hsub fun h => ?_) fun h => hraw h.raw
    exact LpRun.accepted_of_succeeds (hr.mp h)
  | both r sub sub' hraw hreturns hpaper hsub hsub' hr =>
    have hcount : acceptedCount [sub, sub'] = w.rawRun.accepted.toNat + w.driverRun.accepted.toNat := by
      rw [← acceptedCount_one hsub, ← acceptedCount_one hsub']
      show acceptedCount ([sub] ++ [sub']) = _
      exact List.countP_append
    have hdriver : r = .ok () → w.driverRun.accepted = true := fun h => LpRun.accepted_of_succeeds (hr.mp h)
    by_cases htwice : w.rawRun.accepted = true ∧ w.driverRun.accepted = true
    · obtain ⟨h₁, h₂⟩ := htwice
      refine iff_of_false (fun h => ?_) fun h => h ⟨hraw, h₁, hreturns, hpaper, h₂⟩
      have hle := h.atMost
      dsimp only at hle
      rw [hcount, h₁, h₂] at hle
      exact absurd hle (by decide)
    · refine iff_of_true ⟨?_, fun h => ?_⟩ fun h => htwice ⟨h.rawAccepted, h.driverAccepted⟩
      · show acceptedCount [sub, sub'] ≤ 1
        rw [hcount]
        cases h₁ : w.rawRun.accepted with
        | false => exact (Nat.zero_add _).le.trans (Bool.toNat_le _)
        | true =>
          rw [Bool.eq_false_iff.mpr fun h₂ => htwice ⟨h₁, h₂⟩]
          rfl
      · show acceptedCount [sub, sub'] = 1
        have h₂ := hdriver h
        have h₁ : w.rawRun.accepted = false := Bool.eq_false_iff.mpr fun h₁ => htwice ⟨h₁, h₂⟩
        rw [hcount, h₁, h₂]
        rfl

/-! ## the input that prints twice -/

def rollPpd : List UInt8 := "*PaperDimension R: \"8 40\"".toList.map fun c => UInt8.ofNat c.toNat

/-- CUPS accepts the bitmap, and then `lp` times out -/
def timedOutRun : LpRun where
  finish := .timedOut
  accepted := true
  accepted_of_zero _ _ _ := rfl

def acceptedRun : LpRun where
  finish := .exited 0 "" ""
  accepted := true
  accepted_of_zero _ _ _ := rfl

def slowQueue : World where
  ppd := some rollPpd
  pdf := some []
  render widthDots := some [⟨List.replicate widthDots.toNat 0, widthDots.toNat, 1⟩]
  written := true
  unlinked := true
  rawRun := timedOutRun
  driverRun := acceptedRun

/-- the receipt is printed twice, and the call returns -/
theorem receipt_printed_twice :
    (call slowQueue "POS58" "receipt.pdf" 1).1.isOk = true ∧
      ¬ OneAccepted (call slowQueue "POS58" "receipt.pdf" 1) := by
  constructor
  · decide +kernel
  · intro h
    exact absurd h.atMost (by decide +kernel)

end PrintAgent.MacPrinterManager
