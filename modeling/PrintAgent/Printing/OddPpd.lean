import PrintAgent.Printing.Ppd

/-!
# Odd PPDs and PDFs

What the texts of a PPD and of a PDF have to be, so that nothing raises that reads them.

* `readSizes`, `readCustom`, `readPage`   the numbers as they are read, where a text that is no number is zero;
* `SizesReadable`, `CustomReadable`, `PageReadable`   all texts that have to be numbers are;
* `ResolutionFits`, `MediaFits`           the numbers go together;
* `paperSizes_ok`, ..., `chosenMedia_ok`  each function returns exactly then.
-/

namespace PrintAgent

open FloatArith Regex

/-! ## the numbers -/

/-- these groups are numbers for `float` -/
def AreNumbers (m : Match Char) (groups : List Nat) : Prop := ∀ i ∈ groups, (decimal (m.group i)).isSome = true

instance (m : Match Char) (groups : List Nat) : Decidable (AreNumbers m groups) :=
  inferInstanceAs (Decidable (∀ i ∈ groups, _))

def number (text : List Char) : Double := .nearest ((decimal text).getD 0)

theorem floatOf_eq {text : List Char} (h : (decimal text).isSome = true) : floatOf text = .ok (number text) := by
  obtain ⟨q, hq⟩ := Option.isSome_iff_exists.mp h
  rw [floatOf, number, hq]
  rfl

theorem floatOf_ok {text : List Char} :
    (∃ x : Double, floatOf text = .ok x) ↔ (decimal text).isSome = true := by
  refine ⟨fun ⟨x, hx⟩ => ?_, fun h => ⟨_, floatOf_eq h⟩⟩
  rw [floatOf] at hx
  cases hq : decimal text with
  | some q => rfl
  | none =>
    rw [hq] at hx
    cases hx

theorem unsignedDecimal_nonneg {text : List Char} {q : ℚ} (h : unsignedDecimal text = some q) : 0 ≤ q := by
  unfold unsignedDecimal at h
  dsimp only at h
  split at h
  · split at h
    · cases h
    · cases h
      exact Nat.cast_nonneg _
  · split at h
    · cases h
      positivity
    · cases h

/-- a text without a minus sign is no negative number -/
theorem isSize_number {text : List Char} (h : ∀ c ∈ text, isDecimalChar c = true) : (number text).IsSize := by
  have hunsigned : decimal text = unsignedDecimal text := by
    unfold decimal
    split
    · exact absurd (h '-' List.mem_cons_self) (by decide)
    · rfl
  refine Double.isSize_nearest ?_
  cases hq : decimal text with
  | none => exact le_refl 0
  | some q => exact unsignedDecimal_nonneg (hunsigned ▸ hq)

/-! ## the papers -/

def readSizes (ppd : Option (List UInt8)) : List (PaperSize Double) :=
  (paperDimension.findAll (ppdText ppd)).map fun m =>
    ⟨String.ofList (m.group 1), number (m.group 2), number (m.group 3)⟩

def SizesReadable (ppd : Option (List UInt8)) : Prop :=
  ∀ m ∈ paperDimension.findAll (ppdText ppd), AreNumbers m [2, 3]

theorem paperSizes_eq_mapM (ppd : Option (List UInt8)) :
    (paperSizes ppd : Except ArithError (List (PaperSize Double))) =
    (paperDimension.findAll (ppdText ppd)).mapM fun m => do
      return ⟨String.ofList (m.group 1), ← floatOf (m.group 2), ← floatOf (m.group 3)⟩ := by
  cases ppd with
  | none => rfl
  | some bytes => rfl

theorem paperSizes_eq {ppd : Option (List UInt8)} (h : SizesReadable ppd) : paperSizes ppd = .ok (readSizes ppd) := by
  rw [paperSizes_eq_mapM, readSizes]
  refine mapM_ok fun m hm => ?_
  rw [floatOf_eq (h m hm 2 (by decide)), floatOf_eq (h m hm 3 (by decide))]
  rfl

theorem paperSizes_ok {ppd : Option (List UInt8)} :
    (∃ sizes : List (PaperSize Double), paperSizes ppd = .ok sizes) ↔ SizesReadable ppd := by
  refine ⟨fun ⟨sizes, h⟩ m hm => ?_, fun h => ⟨_, paperSizes_eq h⟩⟩
  rw [paperSizes_eq_mapM] at h
  obtain ⟨size, hsize⟩ := ok_of_mapM h hm
  obtain ⟨width, hwidth, hsize⟩ := bind_eq_ok.mp hsize
  obtain ⟨height, hheight, _⟩ := bind_eq_ok.mp hsize
  intro i hi
  rcases List.mem_pair.mp hi with rfl | rfl
  · exact floatOf_ok.mp ⟨width, hwidth⟩
  · exact floatOf_ok.mp ⟨height, hheight⟩

/-! ## the custom sizes -/

/-- the lines of the greatest width and of the range of the height -/
def customLines (text : List Char) : Option (Match Char × Match Char) :=
  if (customPageSize.search text).isNone then none
  else
    match (paramCustomPageSize "Width").search text, (paramCustomPageSize "Height").search text with
    | some width, some height => some (width, height)
    | _, _ => none

def readCustom (ppd : Option (List UInt8)) : Option (CustomRange Double) :=
  (customLines (ppdText ppd)).map fun (width, height) =>
    ⟨number (width.group 2), number (height.group 1), number (height.group 2)⟩

def CustomReadable (ppd : Option (List UInt8)) : Prop :=
  ∀ lines ∈ customLines (ppdText ppd), AreNumbers lines.1 [2] ∧ AreNumbers lines.2 [1, 2]

def rangeOf (lines : Match Char × Match Char) : Except ArithError (Option (CustomRange Double)) := do
  return some ⟨← floatOf (lines.1.group 2), ← floatOf (lines.2.group 1), ← floatOf (lines.2.group 2)⟩

theorem customSizeRange_eq_rangeOf (ppd : Option (List UInt8)) :
    customSizeRange ppd = (customLines (ppdText ppd)).elim (.ok none) rangeOf := by
  cases ppd with
  | none => rfl
  | some bytes =>
    show customSizeRange (some bytes) = (customLines (readText bytes)).elim _ _
    rw [customSizeRange, customLines]
    by_cases hcustom : (customPageSize.search (readText bytes)).isNone = true
    · rw [if_pos hcustom, if_pos hcustom]
      rfl
    · rw [if_neg hcustom, if_neg hcustom]
      cases (paramCustomPageSize "Width").search (readText bytes) with
      | none => rfl
      | some width =>
        cases (paramCustomPageSize "Height").search (readText bytes) with
        | none => rfl
        | some height => rfl

theorem customSizeRange_eq {ppd : Option (List UInt8)} (h : CustomReadable ppd) :
    customSizeRange ppd = .ok (readCustom ppd) := by
  rw [customSizeRange_eq_rangeOf, readCustom]
  cases hlines : customLines (ppdText ppd) with
  | none => rfl
  | some lines =>
    obtain ⟨hwidth, hheight⟩ := h lines hlines
    show rangeOf lines = _
    rw [rangeOf, floatOf_eq (hwidth 2 (by decide)), floatOf_eq (hheight 1 (by decide)),
      floatOf_eq (hheight 2 (by decide))]
    rfl

theorem customSizeRange_ok {ppd : Option (List UInt8)} :
    (∃ custom : Option (CustomRange Double), customSizeRange ppd = .ok custom) ↔ CustomReadable ppd := by
  refine ⟨fun ⟨custom, h⟩ lines hlines => ?_, fun h => ⟨_, customSizeRange_eq h⟩⟩
  rw [customSizeRange_eq_rangeOf, hlines] at h
  obtain ⟨maxWidth, hmaxWidth, h⟩ := bind_eq_ok.mp h
  obtain ⟨minHeight, hminHeight, h⟩ := bind_eq_ok.mp h
  obtain ⟨maxHeight, hmaxHeight, _⟩ := bind_eq_ok.mp h
  constructor
  · intro i hi
    rw [List.mem_singleton.mp hi]
    exact floatOf_ok.mp ⟨maxWidth, hmaxWidth⟩
  · intro i hi
    rcases List.mem_pair.mp hi with rfl | rfl
    · exact floatOf_ok.mp ⟨minHeight, hminHeight⟩
    · exact floatOf_ok.mp ⟨maxHeight, hmaxHeight⟩

theorem captures_paramCustomPageSize (name : String) :
    (paramCustomPageSize name).captures = [plus isDecimalChar, plus isDecimalChar] := by
  rw [paramCustomPageSize, captures_cat]
  simp only [List.flatMap_cons, List.flatMap_nil, captures_literal]
  rfl

theorem isSize_param {name : String} {text : List Char} {m : Match Char}
    (h : (paramCustomPageSize name).search text = some m) {i : Nat} (hi : i < 2) :
    (number (m.group (i + 1))).IsSize := by
  obtain ⟨previous, after, hrun⟩ := run_of_search h
  have hcapture : (paramCustomPageSize name).captures[i]? = some (plus isDecimalChar) := by
    rw [captures_paramCustomPageSize]
    match i, hi with
    | 0, _ => rfl
    | 1, _ => rfl
  exact isSize_number (reads_plus (reads_group hrun hcapture)).2

structure IsRange (custom : CustomRange Double) : Prop where
  maxWidth : custom.maxWidth.IsSize
  minHeight : custom.minHeight.IsSize
  maxHeight : custom.maxHeight.IsSize

theorem isRange_readCustom {ppd : Option (List UInt8)} {custom : CustomRange Double}
    (h : readCustom ppd = some custom) : IsRange custom := by
  obtain ⟨lines, hlines, rfl⟩ := Option.map_eq_some_iff.mp h
  rw [customLines] at hlines
  split at hlines
  · cases hlines
  · split at hlines
    · rename_i width height hwidth hheight
      cases hlines
      exact ⟨isSize_param hwidth (i := 1) (by decide), isSize_param hheight (i := 0) (by decide),
        isSize_param hheight (i := 1) (by decide)⟩
    · cases hlines

/-! ## the page -/

def pageBox (pdf : Option (List UInt8)) : Option (Match Char) :=
  pdf.bind fun bytes => mediaBox.search ((bytes.take (2 * 1024 * 1024)).map latin1)

def readPage (pdf : Option (List UInt8)) : Option (PageSize Double) :=
  (pageBox pdf).map fun m =>
    ⟨.abs (sub (number (m.group 3)) (number (m.group 1))), .abs (sub (number (m.group 4)) (number (m.group 2)))⟩

def PageReadable (pdf : Option (List UInt8)) : Prop := ∀ m ∈ pageBox pdf, AreNumbers m [1, 2, 3, 4]

def pageOf (m : Match Char) : Except ArithError (Option (PageSize Double)) := do
  let x₀ ← floatOf (m.group 1)
  let y₀ ← floatOf (m.group 2)
  let x₁ ← floatOf (m.group 3)
  let y₁ ← floatOf (m.group 4)
  return some ⟨.abs (sub x₁ x₀), .abs (sub y₁ y₀)⟩

theorem pdfPageSize_eq_pageOf (pdf : Option (List UInt8)) :
    pdfPageSize pdf = (pageBox pdf).elim (.ok none) pageOf := by
  cases pdf with
  | none => rfl
  | some bytes =>
    rw [pdfPageSize]
    show _ = (mediaBox.search ((bytes.take (2 * 1024 * 1024)).map latin1)).elim _ _
    cases mediaBox.search ((bytes.take (2 * 1024 * 1024)).map latin1) with
    | none => rfl
    | some m => rfl

theorem pdfPageSize_eq {pdf : Option (List UInt8)} (h : PageReadable pdf) : pdfPageSize pdf = .ok (readPage pdf) := by
  rw [pdfPageSize_eq_pageOf, readPage]
  cases hbox : pageBox pdf with
  | none => rfl
  | some m =>
    have hnumbers := h m hbox
    show pageOf m = _
    rw [pageOf, floatOf_eq (hnumbers 1 (by decide)), floatOf_eq (hnumbers 2 (by decide)),
      floatOf_eq (hnumbers 3 (by decide)), floatOf_eq (hnumbers 4 (by decide))]
    rfl

theorem pdfPageSize_ok {pdf : Option (List UInt8)} :
    (∃ page : Option (PageSize Double), pdfPageSize pdf = .ok page) ↔ PageReadable pdf := by
  refine ⟨fun ⟨page, h⟩ m hm => ?_, fun h => ⟨_, pdfPageSize_eq h⟩⟩
  rw [pdfPageSize_eq_pageOf, hm] at h
  obtain ⟨x₀, hx₀, h⟩ := bind_eq_ok.mp h
  obtain ⟨y₀, hy₀, h⟩ := bind_eq_ok.mp h
  obtain ⟨x₁, hx₁, h⟩ := bind_eq_ok.mp h
  obtain ⟨y₁, hy₁, _⟩ := bind_eq_ok.mp h
  intro i hi
  simp only [List.mem_cons, List.not_mem_nil, or_false] at hi
  rcases hi with rfl | rfl | rfl | rfl
  · exact floatOf_ok.mp ⟨x₀, hx₀⟩
  · exact floatOf_ok.mp ⟨y₀, hy₀⟩
  · exact floatOf_ok.mp ⟨x₁, hx₁⟩
  · exact floatOf_ok.mp ⟨y₁, hy₁⟩

/-! ## the resolution -/

/-- the width of the widest roll of a receipt printer -/
def receiptRollWidth (ppdText : List Char) (sizes : List (PaperSize Double)) (custom : Option (CustomRange Double)) :
    Option Double :=
  if ppdText.isEmpty then none
  else if (notEscpos.search ([' '].intercalate ((headerLine.findAll ppdText).map (·.group 1)))).isSome then none
  else
    match receiptRolls sizes custom with
    | [] => none
    | roll :: rolls =>
      if lt maxReceiptWidthPt (rolls.foldl maxOf roll) then none else some (rolls.foldl maxOf roll)

def resolutionDigits (ppdText : List Char) : List Char :=
  ((defaultResolution.search ppdText).map (·.group 1)).getD "203".toList

def widthBytes (widthPt dpi : Double) : Double := div (mul (div widthPt (ofRat 72)) dpi) (ofRat 8)

/-- the resolution of a receipt printer can be read, and so many bytes can be counted -/
def ResolutionFits (ppdText : List Char) (sizes : List (PaperSize Double)) (custom : Option (CustomRange Double)) :
    Prop :=
  ∀ widthPt ∈ receiptRollWidth ppdText sizes custom, (resolutionDigits ppdText).length ≤ 4300 ∧
    (widthBytes widthPt (.nearest (digitsValue (resolutionDigits ppdText)))).isFinite = true

theorem dpiOf_eq_intOf (ppdText : List Char) : dpiOf ppdText = intOf (resolutionDigits ppdText) := by
  rw [dpiOf, resolutionDigits]
  cases defaultResolution.search ppdText with
  | some m => rfl
  | none => rfl

def dotsFor (ppdText : List Char) (widthPt : Double) : Except ArithError (Option ℤ) := do
  let dpi : Double ← ofInt (← dpiOf ppdText)
  let bytes ← roundInt (widthBytes widthPt dpi)
  return some (max 8 (bytes * 8))

theorem escposWidthDots_eq_dotsFor (ppdText : List Char) (sizes : List (PaperSize Double))
    (custom : Option (CustomRange Double)) :
    escposWidthDots ppdText sizes custom =
      (receiptRollWidth ppdText sizes custom).elim (.ok none) (dotsFor ppdText) := by
  rw [escposWidthDots, receiptRollWidth]
  by_cases hempty : ppdText.isEmpty = true
  · rw [if_pos hempty, if_pos hempty]
    rfl
  rw [if_neg hempty, if_neg hempty]
  by_cases hheader :
      (notEscpos.search ([' '].intercalate ((headerLine.findAll ppdText).map (·.group 1)))).isSome = true
  · rw [if_pos hheader, if_pos hheader]
    rfl
  rw [if_neg hheader, if_neg hheader]
  cases receiptRolls sizes custom with
  | nil => rfl
  | cons roll rolls =>
    dsimp only
    by_cases hwide : lt maxReceiptWidthPt (rolls.foldl maxOf roll) = true
    · rw [if_pos hwide, if_pos hwide]
      rfl
    · rw [if_neg hwide, if_neg hwide]
      rfl

theorem dotsFor_ok {ppdText : List Char} {widthPt : Double} :
    (∃ dots, dotsFor ppdText widthPt = .ok dots) ↔ (resolutionDigits ppdText).length ≤ 4300 ∧
      (widthBytes widthPt (.nearest (digitsValue (resolutionDigits ppdText)))).isFinite = true := by
  rw [dotsFor, dpiOf_eq_intOf, intOf]
  by_cases hlength : 4300 < (resolutionDigits ppdText).length
  · rw [if_pos hlength]
    exact iff_of_false (fun ⟨_, h⟩ => by cases h) fun h => absurd h.1 (not_le.mpr hlength)
  rw [if_neg hlength, and_iff_right (not_lt.mp hlength)]
  generalize digitsValue (resolutionDigits ppdText) = dpi
  have hcast : ((dpi : ℤ) : ℚ) = dpi := Int.cast_natCast dpi
  constructor
  · rintro ⟨dots, h⟩
    obtain ⟨n, hn, h⟩ := bind_eq_ok.mp h
    cases hn
    obtain ⟨x, hx, h⟩ := bind_eq_ok.mp h
    obtain ⟨bytes, hbytes, _⟩ := bind_eq_ok.mp h
    have hx : Double.ofInt dpi = .ok x := hx
    rw [Double.ofInt_eq, hcast] at hx
    split at hx
    · cases hx
      exact Double.roundInt_ok.mp ⟨bytes, hbytes⟩
    · cases hx
  · intro h
    have hfinite : (Double.nearest dpi).isFinite = true := Double.isFinite_of_mul (Double.isFinite_of_div h)
    have hx : (ofInt (dpi : ℤ) : Except ArithError Double) = .ok (.nearest dpi) := by
      show Double.ofInt dpi = _
      rw [Double.ofInt_eq, hcast, if_pos hfinite]
    obtain ⟨bytes, hbytes⟩ := Double.roundInt_ok.mpr h
    have hbytes : roundInt (widthBytes widthPt (.nearest dpi)) = .ok bytes := hbytes
    exact ⟨_, bind_eq_ok.mpr ⟨dpi, rfl, bind_eq_ok.mpr ⟨_, hx, bind_eq_ok.mpr ⟨bytes, hbytes, rfl⟩⟩⟩⟩

theorem escposWidthDots_ok {ppdText : List Char} {sizes : List (PaperSize Double)}
    {custom : Option (CustomRange Double)} :
    (∃ dots, escposWidthDots ppdText sizes custom = .ok dots) ↔ ResolutionFits ppdText sizes custom := by
  rw [escposWidthDots_eq_dotsFor, ResolutionFits]
  cases receiptRollWidth ppdText sizes custom with
  | none => exact iff_of_true ⟨none, rfl⟩ fun widthPt h => by cases h
  | some widthPt =>
    refine dotsFor_ok.trans ⟨fun h w hw => ?_, fun h => h widthPt rfl⟩
    rw [← Option.some.inj hw]
    exact h

/-! ## the paper that is chosen -/

/-- a custom size can be made for the page, if it is for a roll -/
structure RangeFits (sizes : List (PaperSize Double)) (custom : CustomRange Double) (page : PageSize Double) :
    Prop where
  divisor : sizes.any PaperSize.isRoll = true ∨ custom.maxWidth ≠ .finite 0
  finite : sizes.any PaperSize.isRoll = true ∨ le rollRatio (div custom.maxHeight custom.maxWidth) = true →
    custom.maxWidth.isFinite = true ∧ custom.minHeight.isFinite = true ∧
      (custom.maxHeight.isFinite = true ∨ page.height.isFinite = true)

def MediaFits (sizes : List (PaperSize Double)) (custom : Option (CustomRange Double))
    (page : Option (PageSize Double)) : Prop :=
  ∀ c ∈ custom, ∀ p ∈ page, le p.width (ofRat 0) = false → RangeFits sizes c p

structure IsHeight (x : Double) : Prop where
  rounded : x.IsRounded
  notNegative : x ≠ .infinity true

theorem isHeight_readPage {pdf : Option (List UInt8)} {page : PageSize Double} (h : readPage pdf = some page) :
    IsHeight page.height := by
  obtain ⟨m, _, rfl⟩ := Option.map_eq_some_iff.mp h
  generalize number (m.group 2) = y₀
  generalize number (m.group 4) = y₁
  have hrounded : (Double.add y₁ y₀.neg).IsRounded := Double.isRounded_add y₁ y₀.neg
  refine ⟨hrounded.abs, ?_⟩
  show (Double.add y₁ y₀.neg).abs ≠ _
  cases Double.add y₁ y₀.neg with
  | finite q =>
    unfold Double.abs
    split <;> exact Double.noConfusion
  | infinity negative => cases negative <;> exact fun h => by cases h
  | nan => exact Double.noConfusion

section Media
variable {sizes : List (PaperSize Double)} {custom : CustomRange Double} {page : PageSize Double}

theorem isFinite_lengthFor (hrange : IsRange custom) (hheight : IsHeight page.height)
    (hpage : le page.width (ofRat 0) = false) (hwidth : custom.maxWidth.isFinite = true) :
    (custom.lengthFor page).isFinite = true ↔
      custom.minHeight.isFinite = true ∧ (custom.maxHeight.isFinite = true ∨ page.height.isFinite = true) := by
  have hscaled : (page.scaledHeight custom.maxWidth).isFinite = page.height.isFinite ∧
      page.scaledHeight custom.maxWidth ≠ .infinity true := by
    have hzero : (ofRat 0 : Double) = .finite 0 := Double.nearest_zero
    have hone : (ofRat 1 : Double) = .finite 1 := Double.nearest_one
    have hsize := hrange.maxWidth
    rw [hzero] at hpage
    cases hw : custom.maxWidth with
    | infinity negative =>
      rw [hw] at hwidth
      cases hwidth
    | nan =>
      rw [hw] at hwidth
      cases hwidth
    | finite w =>
      rw [hw] at hsize
      obtain ⟨f, hf, hle, hfactor⟩ := Double.exists_minOf_div hsize hpage
      have hmul : page.scaledHeight (.finite w) = Double.mul page.height (.finite f) := by
        rw [PageSize.scaledHeight, hone]
        exact congrArg (Double.mul page.height) hfactor
      rw [hmul]
      refine ⟨Double.isFinite_mul hheight.rounded hf hle, ?_⟩
      have hnegative := hheight.notNegative
      cases hh : page.height with
      | finite a =>
        have hprod := Double.isFinite_mul (x := page.height) hheight.rounded hf hle
        rw [hh] at hprod
        intro h
        rw [h] at hprod
        cases hprod
      | infinity negative =>
        rw [hh] at hnegative
        cases negative with
        | true => exact absurd rfl hnegative
        | false =>
          show (if f = 0 then Double.nan else .infinity (xor false (f < 0))) ≠ _
          rw [decide_eq_false (not_lt.mpr hf)]
          split <;> exact fun h => by cases h
      | nan => exact Double.noConfusion
  rw [CustomRange.lengthFor, Double.isFinite_clamp hrange.minHeight hrange.maxHeight hscaled.2, hscaled.1]

theorem isZero_iff {x : Double} (h : x.IsSize) :
    (le x (ofRat 0) && le (ofRat 0) x) = true ↔ x = .finite 0 := by
  have hzero : (ofRat 0 : Double) = .finite 0 := Double.nearest_zero
  rw [hzero]
  cases x with
  | nan => exact h.elim
  | infinity negative =>
    obtain rfl : negative = false := h
    exact iff_of_false Bool.false_ne_true fun h => by cases h
  | finite q =>
    have hq : (0 : ℚ) ≤ q := h
    show (!decide (0 < q) && !decide (q < 0)) = true ↔ _
    rw [Double.finite.injEq, decide_eq_false (not_lt.mpr hq), Bool.not_false, Bool.and_true, Bool.not_eq_true',
      decide_eq_false_iff_not, not_lt]
    exact ⟨fun hle => le_antisymm hle hq, fun h => h.le⟩

/-- `is_roll` divides by the greatest width only if there is no fixed roll -/
theorem isRollPrinter_of_divisor (hrange : IsRange custom)
    (hdivisor : sizes.any PaperSize.isRoll = true ∨ custom.maxWidth ≠ .finite 0) :
    ∃ b, isRollPrinter sizes custom = .ok b ∧
      (b = true ↔ sizes.any PaperSize.isRoll = true ∨ le rollRatio (div custom.maxHeight custom.maxWidth) = true) := by
  rw [isRollPrinter]
  by_cases hany : sizes.any PaperSize.isRoll = true
  · rw [if_pos hany]
    exact ⟨true, rfl, iff_of_true rfl (.inl hany)⟩
  · have hwidth := hdivisor.resolve_left hany
    rw [if_neg hany, CustomRange.isRoll, if_neg fun h => hwidth ((isZero_iff hrange.maxWidth).mp h)]
    exact ⟨_, rfl, (or_iff_right hany).symm⟩

theorem isRollPrinter_of_zero (hrange : IsRange custom)
    (hdivisor : ¬ (sizes.any PaperSize.isRoll = true ∨ custom.maxWidth ≠ .finite 0)) :
    isRollPrinter sizes custom = .error .zeroDivisionError := by
  obtain ⟨hany, hwidth⟩ := not_or.mp hdivisor
  rw [isRollPrinter, if_neg hany, CustomRange.isRoll,
    if_pos ((isZero_iff hrange.maxWidth).mpr (not_not.mp hwidth))]

/-- the custom size, once the page is known to have a width -/
def rollSize (sizes : List (PaperSize Double)) (custom : CustomRange Double) (page : PageSize Double) :
    Except ArithError (Option CustomSize) := do
  if !(← isRollPrinter sizes custom) then return none
  let width ← roundInt custom.maxWidth
  let height ← ceilInt (custom.lengthFor page)
  return some ⟨width, height⟩

theorem rollSize_ok (hrange : IsRange custom) (hheight : IsHeight page.height)
    (hpage : le page.width (ofRat 0) = false) :
    (∃ size, rollSize sizes custom page = .ok size) ↔ RangeFits sizes custom page := by
  rw [rollSize]
  by_cases hdivisor : sizes.any PaperSize.isRoll = true ∨ custom.maxWidth ≠ .finite 0
  · obtain ⟨b, hb, hroll⟩ := isRollPrinter_of_divisor hrange hdivisor
    rw [hb]
    cases b with
    | false =>
      refine iff_of_true ⟨none, rfl⟩ ⟨hdivisor, fun h => ?_⟩
      cases hroll.mpr h
    | true =>
      constructor
      · rintro ⟨size, h⟩
        obtain ⟨_, hb', h⟩ := bind_eq_ok.mp h
        cases hb'
        rw [if_neg (by decide)] at h
        obtain ⟨width, hwidth, h⟩ := bind_eq_ok.mp h
        obtain ⟨height, hheight', _⟩ := bind_eq_ok.mp h
        have hfinite : custom.maxWidth.isFinite = true := Double.roundInt_ok.mp ⟨width, hwidth⟩
        refine ⟨hdivisor, fun _ => ⟨hfinite, ?_⟩⟩
        exact (isFinite_lengthFor hrange hheight hpage hfinite).mp (Double.ceilInt_ok.mp ⟨height, hheight'⟩)
      · intro h
        obtain ⟨hfinite, hlength⟩ := h.finite (hroll.mp rfl)
        obtain ⟨width, hwidth⟩ := Double.roundInt_ok.mpr hfinite
        obtain ⟨height, hheight'⟩ :=
          Double.ceilInt_ok.mpr ((isFinite_lengthFor hrange hheight hpage hfinite).mpr hlength)
        refine ⟨some ⟨width, height⟩, bind_eq_ok.mpr ⟨true, rfl, (if_neg (by decide)).trans ?_⟩⟩
        exact bind_eq_ok.mpr ⟨width, hwidth, bind_eq_ok.mpr ⟨height, hheight', rfl⟩⟩
  · rw [isRollPrinter_of_zero hrange hdivisor]
    exact iff_of_false (fun ⟨_, h⟩ => by cases h) fun h => hdivisor h.divisor

end Media

theorem customRollSize_ok {sizes : List (PaperSize Double)} {custom : Option (CustomRange Double)}
    {page : Option (PageSize Double)} (hrange : ∀ c, custom = some c → IsRange c)
    (hheight : ∀ p, page = some p → IsHeight p.height) :
    (∃ size, customRollSize sizes custom page = .ok size) ↔ MediaFits sizes custom page := by
  cases custom with
  | none => exact iff_of_true ⟨none, rfl⟩ fun c hc => by cases hc
  | some c =>
    cases page with
    | none => exact iff_of_true ⟨none, rfl⟩ fun c' hc p hp => by cases hp
    | some p =>
      cases hpage : le p.width (ofRat 0) with
      | true =>
        have hnone : customRollSize sizes (some c) (some p) = .ok none := if_pos hpage
        refine iff_of_true ⟨none, hnone⟩ fun c' _ p' hp' hpos => ?_
        cases hp'
        cases hpage.symm.trans hpos
      | false =>
        have hsize : customRollSize sizes (some c) (some p) = rollSize sizes c p := by
          rw [customRollSize, hpage]
          rfl
        rw [hsize, rollSize_ok (hrange c rfl) (hheight p rfl) hpage]
        refine ⟨fun h c' hc' p' hp' _ => ?_, fun h => h c rfl p rfl hpage⟩
        cases hc'
        cases hp'
        exact h

theorem chosenMedia_ok {sizes : List (PaperSize Double)} {custom : Option (CustomRange Double)}
    {page : Option (PageSize Double)} (hrange : ∀ c, custom = some c → IsRange c)
    (hheight : ∀ p, page = some p → IsHeight p.height) :
    (∃ media, chosenMedia sizes custom page = .ok media) ↔ MediaFits sizes custom page := by
  rw [← customRollSize_ok hrange hheight, chosenMedia, customRollMedia]
  cases customRollSize sizes custom page with
  | error e =>
    refine iff_of_false ?_ ?_
    · rintro ⟨_, h⟩
      cases h
    · rintro ⟨_, h⟩
      cases h
  | ok size => exact iff_of_true ⟨_, rfl⟩ ⟨size, rfl⟩

end PrintAgent
