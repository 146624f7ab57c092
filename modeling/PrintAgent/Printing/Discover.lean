import PrintAgent.Models
import PrintAgent.Printing.Cups
import PrintAgent.Printing.MacPrint
import PrintAgent.Printing.OddPpd

/-!
# Discovering the printers of a Mac

`MacPrinterManager.discover`, and what odd PPDs do to it and to `print`.

* `discover_ok`           `discover` returns if it can read the papers of every printer;
* `papers_ok`             the functions that read the PPD and the PDF return if both are `WellFormed`;
* `call_reaches_lp`       `print` comes to a run of `lp` if they return, or if the bitmap was sent before;
* `odd_ppds_harmless`     both do what they should if all PPDs and the PDF are well-formed.
-/

namespace PrintAgent

open PyJson (Str)
open PyUrl (Unicode)
open FloatArith

/-- one printer of `discover` -/
def discoverPrinter (u : Unicode) (w : Cups) (ppd : Str → Option (List UInt8)) (name : Str) :
    Except ArithError DiscoveredPrinter := do
  let details := printerDetails u w name
  let status := discoveredStatus u w name
  let sizes : List (PaperSize Double) ← paperSizes (ppd name)
  return {
    localPrinterId := headerText name
    displayName := headerText (if details.description ≠ [] then details.description
      else name.map fun c => if c = .scalar '_' then .scalar ' ' else c)
    driverName := none
    portName := (details.connection.filter (· ≠ [])).map headerText
    isDefault := defaultPrinter w = some name
    paperSizes := if sizes.isEmpty then none else some (sizes.map (·.choice))
    statusDetail := some (headerText status.detail)
    online := some status.online }

/-- `MacPrinterManager.discover`; the PPD of a printer is found by its name -/
def discover (u : Unicode) (w : Cups) (ppd : Str → Option (List UInt8)) : Except ArithError (List DiscoveredPrinter) :=
  (printerNames w).mapM (discoverPrinter u w ppd)

/-- what `print` finds out from the PPD and the PDF: the dots of a receipt printer, and the paper for the driver -/
def papers (ppd pdf : Option (List UInt8)) : Except ArithError (Option Int × Option String) := do
  let sizes : List (PaperSize Double) ← paperSizes ppd
  let custom ← customSizeRange ppd
  let widthDots ← escposWidthDots (ppdText ppd) sizes custom
  let page ← pdfPageSize pdf
  let media ← chosenMedia sizes custom page
  return (widthDots, media)

structure WellFormed (ppd pdf : Option (List UInt8)) : Prop where
  sizes : SizesReadable ppd
  custom : CustomReadable ppd
  resolution : ResolutionFits (ppdText ppd) (readSizes ppd) (readCustom ppd)
  page : PageReadable pdf
  media : MediaFits (readSizes ppd) (readCustom ppd) (readPage pdf)

/-! ## one printer -/

section Printer
variable {ppd pdf : Option (List UInt8)}

structure Finds (ppd pdf : Option (List UInt8)) (sizes : List (PaperSize Double))
    (custom : Option (CustomRange Double)) (widthDots : Option Int) (page : Option (PageSize Double))
    (media : Option String) : Prop where
  papers : paperSizes ppd = .ok sizes
  range : customSizeRange ppd = .ok custom
  dots : escposWidthDots (ppdText ppd) sizes custom = .ok widthDots
  box : pdfPageSize pdf = .ok page
  chosen : chosenMedia sizes custom page = .ok media

theorem papers_eq_ok {widthDots : Option Int} {media : Option String} :
    papers ppd pdf = .ok (widthDots, media) ↔ ∃ sizes custom page, Finds ppd pdf sizes custom widthDots page media := by
  constructor
  · intro h
    obtain ⟨sizes, hsizes, h⟩ := bind_eq_ok.mp h
    obtain ⟨custom, hcustom, h⟩ := bind_eq_ok.mp h
    obtain ⟨widthDots, hdots, h⟩ := bind_eq_ok.mp h
    obtain ⟨page, hpage, h⟩ := bind_eq_ok.mp h
    obtain ⟨media, hmedia, h⟩ := bind_eq_ok.mp h
    cases h
    exact ⟨sizes, custom, page, hsizes, hcustom, hdots, hpage, hmedia⟩
  · rintro ⟨sizes, custom, page, h⟩
    refine bind_eq_ok.mpr ⟨sizes, h.papers, bind_eq_ok.mpr ⟨custom, h.range, ?_⟩⟩
    refine bind_eq_ok.mpr ⟨widthDots, h.dots, bind_eq_ok.mpr ⟨page, h.box, ?_⟩⟩
    exact bind_eq_ok.mpr ⟨media, h.chosen, rfl⟩

theorem exists_papers : (∃ found, papers ppd pdf = .ok found) ↔
    ∃ sizes custom widthDots page media, Finds ppd pdf sizes custom widthDots page media := by
  constructor
  · rintro ⟨⟨widthDots, media⟩, h⟩
    obtain ⟨sizes, custom, page, h⟩ := papers_eq_ok.mp h
    exact ⟨sizes, custom, widthDots, page, media, h⟩
  · rintro ⟨sizes, custom, widthDots, page, media, h⟩
    exact ⟨_, papers_eq_ok.mpr ⟨sizes, custom, page, h⟩⟩

theorem papers_ok : (∃ found, papers ppd pdf = .ok found) ↔ WellFormed ppd pdf := by
  have hmedia : (∃ media, chosenMedia (readSizes ppd) (readCustom ppd) (readPage pdf) = .ok media) ↔ _ :=
    chosenMedia_ok (fun c => isRange_readCustom) fun p => isHeight_readPage
  rw [exists_papers]
  constructor
  · rintro ⟨sizes, custom, widthDots, page, media, h⟩
    have hsizes := paperSizes_ok.mp ⟨sizes, h.papers⟩
    have hcustom := customSizeRange_ok.mp ⟨custom, h.range⟩
    have hpage := pdfPageSize_ok.mp ⟨page, h.box⟩
    obtain rfl := Except.ok.inj (h.papers.symm.trans (paperSizes_eq hsizes))
    obtain rfl := Except.ok.inj (h.range.symm.trans (customSizeRange_eq hcustom))
    obtain rfl := Except.ok.inj (h.box.symm.trans (pdfPageSize_eq hpage))
    exact ⟨hsizes, hcustom, escposWidthDots_ok.mp ⟨widthDots, h.dots⟩, hpage, hmedia.mp ⟨media, h.chosen⟩⟩
  · intro h
    obtain ⟨widthDots, hdots⟩ := escposWidthDots_ok.mpr h.resolution
    obtain ⟨media, hchosen⟩ := hmedia.mpr h.media
    exact ⟨_, _, widthDots, _, media, paperSizes_eq h.sizes, customSizeRange_eq h.custom, hdots,
      pdfPageSize_eq h.page, hchosen⟩

end Printer

/-! ## a call of `print` -/

section Call
open MacPrinterManager Raise
variable {w : World}

/-- once the PPD is read, the PDF and the paper are left -/
theorem exists_papers_iff {sizes : List (PaperSize Double)} {custom : Option (CustomRange Double)}
    {widthDots : Option Int} (hsizes : paperSizes w.ppd = .ok sizes) (hcustom : customSizeRange w.ppd = .ok custom)
    (hdots : escposWidthDots (ppdText w.ppd) sizes custom = .ok widthDots) :
    (∃ found, papers w.ppd w.pdf = .ok found) ↔ ∃ media, paperFor w sizes custom = .ok media := by
  rw [exists_papers]
  constructor
  · rintro ⟨sizes', custom', widthDots', page, media, h⟩
    obtain rfl := Except.ok.inj (h.papers.symm.trans hsizes)
    obtain rfl := Except.ok.inj (h.range.symm.trans hcustom)
    exact ⟨media, bind_eq_ok.mpr ⟨page, h.box, h.chosen⟩⟩
  · rintro ⟨media, h⟩
    obtain ⟨page, hpage, hmedia⟩ := bind_eq_ok.mp h
    exact ⟨sizes, custom, widthDots, page, media, hsizes, hcustom, hdots, hpage, hmedia⟩

/-- `print` comes to a run of `lp`, unless it raises where it reads the PPD or the PDF -/
theorem call_reaches_lp (w : World) (localPrinterId filePath : String) (copies : Int) :
    (call w localPrinterId filePath copies).2 ≠ [] ↔
      RawSubmitted w ∨ ∃ found, papers w.ppd w.pdf = .ok found := by
  have hstops : ∀ e, ¬ RawSubmitted w → (¬ ∃ found, papers w.ppd w.pdf = .ok found) →
      (((.error e, []) : Except PrintError PUnit × List Submission).2 ≠ [] ↔
        RawSubmitted w ∨ ∃ found, papers w.ppd w.pdf = .ok found) :=
    fun e hraw hpapers => iff_of_false (fun h => h rfl) fun h => h.elim hraw hpapers
  rw [call, print]
  cases hsizes : (paperSizes w.ppd : Except ArithError (List (PaperSize Double))) with
  | error e =>
    rw [bind_of_error (liftArith_of_error rfl)]
    refine hstops _ ?_ fun hpapers => ?_
    · rintro ⟨_, _, h, _⟩
      rw [receiptWidth, hsizes] at h
      cases h
    · obtain ⟨_, _, _, _, _, h⟩ := exists_papers.mp hpapers
      cases hsizes.symm.trans h.papers
  | ok sizes =>
    rw [bind_of_ok (liftArith_of_ok rfl)]
    cases hcustom : (customSizeRange w.ppd : Except ArithError (Option (CustomRange Double))) with
    | error e =>
      rw [bind_of_error (liftArith_of_error rfl)]
      refine hstops _ ?_ fun hpapers => ?_
      · rintro ⟨_, _, h, _⟩
        rw [receiptWidth, hsizes, hcustom] at h
        cases h
      · obtain ⟨_, _, _, _, _, h⟩ := exists_papers.mp hpapers
        cases hcustom.symm.trans h.range
    | ok custom =>
      rw [bind_of_ok (liftArith_of_ok rfl)]
      have hwidth : receiptWidth w.ppd = escposWidthDots (ppdText w.ppd) sizes custom := by
        rw [receiptWidth, hsizes, hcustom]
        rfl
      cases hdots : escposWidthDots (ppdText w.ppd) sizes custom with
      | error e =>
        rw [bind_of_error (liftArith_of_error rfl)]
        refine hstops _ ?_ fun hpapers => ?_
        · rintro ⟨_, _, h, _⟩
          rw [hwidth, hdots] at h
          cases h
        · obtain ⟨_, _, _, _, _, h⟩ := exists_papers.mp hpapers
          obtain rfl := Except.ok.inj (h.papers.symm.trans hsizes)
          obtain rfl := Except.ok.inj (h.range.symm.trans hcustom)
          cases hdots.symm.trans h.dots
      | ok width =>
        rw [bind_of_ok (liftArith_of_ok rfl), exists_papers_iff hsizes hcustom hdots]
        have hraw : RawSubmitted w ↔ ∃ widthDots data, width = some widthDots ∧ RawFile w widthDots data := by
          rw [RawSubmitted, hwidth, hdots]
          simp only [Except.ok.injEq]
        rcases tryRaw_run w (lpArgs localPrinterId copies) filePath width [] with
          ⟨hyes, b, sub, hrun, _⟩ | ⟨hno, hrun⟩
        · rw [bind_of_ok hrun]
          refine iff_of_true ?_ (.inl (hraw.mpr hyes))
          cases b with
          | true => exact List.cons_ne_nil sub []
          | false =>
            show ((printDriver w (lpArgs localPrinterId copies) filePath sizes custom).run.run ([] ++ [sub])).2 ≠ []
            rcases printDriver_run w (lpArgs localPrinterId copies) filePath sizes custom ([] ++ [sub]) with
              ⟨_, r, sub', hrun', _⟩ | ⟨_, e, hrun'⟩
            · rw [hrun']
              exact List.cons_ne_nil sub [sub']
            · rw [hrun']
              exact List.cons_ne_nil sub []
        · rw [bind_of_ok hrun]
          show ((printDriver w (lpArgs localPrinterId copies) filePath sizes custom).run.run []).2 ≠ [] ↔ _
          rcases printDriver_run w (lpArgs localPrinterId copies) filePath sizes custom [] with
            ⟨hmedia, r, sub, hrun', _⟩ | ⟨hmedia, e, hrun'⟩
          · rw [hrun']
            exact iff_of_true (List.cons_ne_nil sub []) (.inr hmedia)
          · rw [hrun']
            exact iff_of_false (fun h => h rfl) fun h => h.elim (fun hyes => hno (hraw.mp hyes)) hmedia

end Call

/-! ## all printers -/

theorem discover_ok (u : Unicode) (w : Cups) (ppd : Str → Option (List UInt8)) :
    (∃ printers, discover u w ppd = .ok printers) ↔ ∀ name ∈ printerNames w, SizesReadable (ppd name) := by
  constructor
  · rintro ⟨printers, h⟩ name hname
    obtain ⟨printer, hprinter⟩ := ok_of_mapM h hname
    obtain ⟨sizes, hsizes, _⟩ := bind_eq_ok.mp hprinter
    exact paperSizes_ok.mp ⟨sizes, hsizes⟩
  · intro h
    refine exists_mapM fun name hname => ?_
    exact ⟨_, bind_eq_ok.mpr ⟨_, paperSizes_eq (h name hname), rfl⟩⟩

/-- nothing raises that reads the PPDs and the PDF, neither in `discover` nor in `print` -/
structure Harmless (u : Unicode) (w : Cups) (ppd : Str → Option (List UInt8)) (pdf : Option (List UInt8)) : Prop where
  discovered : ∃ printers, discover u w ppd = .ok printers
  found : ∀ name ∈ printerNames w, ∃ found, papers (ppd name) pdf = .ok found
  printed : ∀ name ∈ printerNames w, ∀ world : MacPrinterManager.World, world.ppd = ppd name → world.pdf = pdf →
    ∀ localPrinterId filePath copies, (MacPrinterManager.call world localPrinterId filePath copies).2 ≠ []

/-- so it is exactly if they are all well-formed; `discover` asks less -/
theorem odd_ppds_harmless (u : Unicode) (w : Cups) (ppd : Str → Option (List UInt8)) (pdf : Option (List UInt8)) :
    (Harmless u w ppd pdf ↔ ∀ name ∈ printerNames w, WellFormed (ppd name) pdf) ∧
      ((∃ printers, discover u w ppd = .ok printers) ↔ ∀ name ∈ printerNames w, SizesReadable (ppd name)) := by
  refine ⟨⟨fun h name hname => papers_ok.mp (h.found name hname), fun h => ?_⟩, discover_ok u w ppd⟩
  refine ⟨(discover_ok u w ppd).mpr fun name hname => (h name hname).sizes,
    fun name hname => papers_ok.mpr (h name hname), ?_⟩
  intro name hname world hppd hpdf localPrinterId filePath copies
  refine (call_reaches_lp world localPrinterId filePath copies).mpr (.inr ?_)
  rw [hppd, hpdf]
  exact papers_ok.mpr (h name hname)

/-! ## the inputs that raise -/

def twoQueues : Cups where
  queues := some (Str.ofString "A\nB\n")
  destination := []
  details _ := []
  device _ := []
  usbDevices := some []

def fileOf (text : String) : List UInt8 := text.toList.map fun c => UInt8.ofNat c.toNat

/-- the width of a paper of `A` is not a number -/
def oddPpd (name : Str) : Option (List UInt8) :=
  if name = Str.ofString "A" then some (fileOf "*PaperDimension R: \"1.2.3 4\"") else none

def narrowPpd : List UInt8 :=
  fileOf "*CustomPageSize True\n*ParamCustomPageSize Width: 1 points 0 0\n*ParamCustomPageSize Height: 2 points 0 0\n"

def narrowWorld : MacPrinterManager.World :=
  { MacPrinterManager.slowQueue with ppd := some narrowPpd, pdf := some (fileOf "/MediaBox [0 0 227 338]") }

/-- `B` is not discovered because of the PPD of `A`; a page is not printed because of the division by its width -/
theorem odd_ppd_raises :
    (¬ ∃ printers, discover .ascii twoQueues oddPpd = .ok printers) ∧
      (papers (some narrowPpd) narrowWorld.pdf).toOption.isNone = true ∧
      (MacPrinterManager.call narrowWorld "A" "receipt.pdf" 1).2.isEmpty = true := by
  refine ⟨?_, by decide +kernel, by decide +kernel⟩
  rintro ⟨printers, h⟩
  have hno : (discover .ascii twoQueues oddPpd).toOption.isSome = false := by decide +kernel
  rw [h] at hno
  cases hno

end PrintAgent
