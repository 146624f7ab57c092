import PrintAgent.Lib.FirstFit
import PrintAgent.Printing.Media

/-!
# Which paper a receipt is printed on

`roll_media_for` and `custom_roll_media` in exact arithmetic.

* `roll_media_is_shortest`   the roll is the shortest one that holds the page;
* `custom_size_in_range`     a custom size is one that the driver takes;
* `chosen_paper_holds`       the paper that is chosen holds the page, if any paper does.

A custom size is in whole points, so the last two hold only where the rounding is on the right side.
-/

namespace PrintAgent

open FloatArith

/-! ## rolls -/

section Rolls
variable {sizes : List (PaperSize ℚ)} {page : Option (PageSize ℚ)} {size r : PaperSize ℚ} {p : PageSize ℚ}

theorem isRoll_iff : size.isRoll = true ↔ 0 < size.width ∧ 3 ≤ size.height / size.width := by
  simp [PaperSize.isRoll, rollRatio]

theorem scaledHeight_exact (page : PageSize ℚ) (width : ℚ) :
    page.scaledHeight width = page.height * min 1 (width / page.width) := by
  simp [PageSize.scaledHeight]

theorem holds_iff : size.holds p = true ↔ p.scaledHeight size.width ≤ size.height := by
  simp [PaperSize.holds]

theorem sortedRolls_pairwise (sizes : List (PaperSize ℚ)) :
    (sortedRolls sizes).Pairwise fun a b => a.height ≤ b.height :=
  pairwise_mergeSort_key PaperSize.height (sizes.filter PaperSize.isRoll)

def PageUnknown (page : Option (PageSize ℚ)) : Prop := ∀ p, page = some p → p.width ≤ 0

theorem rollSizeFor_unknown (h : PageUnknown page) : rollSizeFor sizes page = (sortedRolls sizes).head? := by
  unfold rollSizeFor
  cases page with
  | none => rfl
  | some p => exact if_pos (decide_eq_true (h p rfl))

theorem rollSizeFor_known (h : 0 < p.width) :
    rollSizeFor sizes (some p) = ((sortedRolls sizes).find? (·.holds p)).or (sortedRolls sizes).getLast? :=
  if_neg fun hno => absurd (of_decide_eq_true hno) (not_le.mpr h)

/-- no page to hold: the shortest roll -/
theorem rollSizeFor_least (h : rollSizeFor sizes page = some r) (hpage : PageUnknown page) :
    ∀ size ∈ sizes, size.isRoll = true → r.height ≤ size.height := by
  rw [rollSizeFor_unknown hpage] at h
  intro size hs hroll
  exact head?_least (sortedRolls_pairwise sizes) h size (mem_sortedRolls.mpr ⟨hs, hroll⟩)

/-- a roll holds the page: the shortest one that does -/
theorem rollSizeFor_fits (h : rollSizeFor sizes (some p) = some r) (hp : 0 < p.width)
    (hfit : ∃ size ∈ sizes, size.isRoll = true ∧ size.holds p = true) :
    r.holds p = true ∧
      ∀ size ∈ sizes, size.isRoll = true → size.holds p = true → r.height ≤ size.height := by
  rw [rollSizeFor_known hp] at h
  obtain ⟨fit, hmem, hroll, hholds⟩ := hfit
  rcases Option.or_eq_some_iff.mp h with h | ⟨hnone, _⟩
  · have hr : r.holds p = true := List.find?_some (p := fun size : PaperSize ℚ => size.holds p) h
    refine ⟨hr, fun size hs hroll hholds => ?_⟩
    exact find?_least (sortedRolls_pairwise sizes) h size (mem_sortedRolls.mpr ⟨hs, hroll⟩) hholds
  · exact absurd hholds (List.find?_eq_none.mp hnone fit (mem_sortedRolls.mpr ⟨hmem, hroll⟩))

/-- none does: the longest -/
theorem rollSizeFor_greatest (h : rollSizeFor sizes (some p) = some r) (hp : 0 < p.width)
    (hno : ¬ ∃ size ∈ sizes, size.isRoll = true ∧ size.holds p = true) :
    ∀ size ∈ sizes, size.isRoll = true → size.height ≤ r.height := by
  rw [rollSizeFor_known hp] at h
  rcases Option.or_eq_some_iff.mp h with h | ⟨_, h⟩
  · obtain ⟨hmem, hroll⟩ := mem_sortedRolls.mp (List.mem_of_find?_eq_some h)
    have hr : r.holds p = true := List.find?_some (p := fun size : PaperSize ℚ => size.holds p) h
    exact absurd ⟨r, hmem, hroll, hr⟩ hno
  · intro size hs hroll
    exact getLast?_greatest (sortedRolls_pairwise sizes) h size (mem_sortedRolls.mpr ⟨hs, hroll⟩)

end Rolls

/-- **The roll is the shortest one that holds the page.** -/
theorem roll_media_is_shortest (sizes : List (PaperSize ℚ)) (page : Option (PageSize ℚ)) :
    (rollMediaFor sizes page = none ↔ ¬ ∃ s ∈ sizes, 0 < s.width ∧ 3 ≤ s.height / s.width) ∧
      ∀ choice, rollMediaFor sizes page = some choice → ∃ r ∈ sizes, r.choice = choice ∧
        (0 < r.width ∧ 3 ≤ r.height / r.width) ∧
        ((page = none ∨ ∃ p, page = some p ∧ p.width ≤ 0) →
          ∀ s ∈ sizes, 0 < s.width ∧ 3 ≤ s.height / s.width → r.height ≤ s.height) ∧
        ∀ p, page = some p → 0 < p.width →
          ((∃ s ∈ sizes, (0 < s.width ∧ 3 ≤ s.height / s.width) ∧
              p.height * min 1 (s.width / p.width) ≤ s.height) →
            p.height * min 1 (r.width / p.width) ≤ r.height ∧
              ∀ s ∈ sizes, 0 < s.width ∧ 3 ≤ s.height / s.width →
                p.height * min 1 (s.width / p.width) ≤ s.height → r.height ≤ s.height) ∧
          ((¬ ∃ s ∈ sizes, (0 < s.width ∧ 3 ≤ s.height / s.width) ∧
              p.height * min 1 (s.width / p.width) ≤ s.height) →
            ∀ s ∈ sizes, 0 < s.width ∧ 3 ≤ s.height / s.width → s.height ≤ r.height) := by
  simp only [← scaledHeight_exact, ← isRoll_iff, ← holds_iff]
  constructor
  · rw [rollMediaFor, Option.map_eq_none_iff, rollSizeFor_eq_none]
    simp
  · intro choice hc
    obtain ⟨r, hr, rfl⟩ := Option.map_eq_some_iff.mp hc
    obtain ⟨hmem, hroll⟩ := rollSizeFor_mem hr
    refine ⟨r, hmem, rfl, hroll, fun hunknown => rollSizeFor_least hr fun p hp => ?_, fun p hp hwidth => ?_⟩
    · rcases hunknown with hnone | ⟨p', hp', hle⟩
      · rw [hnone] at hp
        cases hp
      · rw [hp] at hp'
        rwa [Option.some.inj hp']
    · subst hp
      exact ⟨rollSizeFor_fits hr hwidth, rollSizeFor_greatest hr hwidth⟩

/-! ## custom sizes -/

section Custom
variable {sizes : List (PaperSize ℚ)} {custom : CustomRange ℚ} {p : PageSize ℚ}

/-- the printer has rolls: a fixed one, or a custom size can be one -/
def HasRolls (sizes : List (PaperSize ℚ)) (custom : CustomRange ℚ) : Prop :=
  (∃ s ∈ sizes, 0 < s.width ∧ 3 ≤ s.height / s.width) ∨ 3 ≤ custom.maxHeight / custom.maxWidth

instance : Decidable (HasRolls sizes custom) := by
  unfold HasRolls
  infer_instance

theorem lengthFor_exact (custom : CustomRange ℚ) (p : PageSize ℚ) :
    custom.lengthFor p =
      max custom.minHeight (min custom.maxHeight (p.scaledHeight custom.maxWidth)) := by
  simp [CustomRange.lengthFor]

theorem isRollPrinter_eq (hw : 0 < custom.maxWidth) :
    isRollPrinter sizes custom = .ok (decide (HasRolls sizes custom)) := by
  have hzero : (le custom.maxWidth (ofRat 0) : Bool) = false := decide_eq_false (not_le.mpr hw)
  have hdiv : custom.isRoll = .ok (decide (3 ≤ custom.maxHeight / custom.maxWidth)) := by
    rw [CustomRange.isRoll, hzero]
    rfl
  have hany : sizes.any PaperSize.isRoll = true ↔ ∃ s ∈ sizes, 0 < s.width ∧ 3 ≤ s.height / s.width := by
    simp only [List.any_eq_true, isRoll_iff]
  rw [isRollPrinter, hdiv]
  by_cases hfixed : sizes.any PaperSize.isRoll = true
  · have hrolls : HasRolls sizes custom := .inl (hany.mp hfixed)
    rw [if_pos hfixed, decide_eq_true hrolls]
  · rw [if_neg hfixed]
    congr 1
    rw [decide_eq_decide, HasRolls, or_iff_right fun h => hfixed (hany.mpr h)]

theorem customRollSize_eq (hw : 0 < custom.maxWidth) (hp : 0 < p.width) :
    customRollSize sizes (some custom) (some p) =
      .ok (if HasRolls sizes custom then some ⟨roundEven custom.maxWidth, ⌈custom.lengthFor p⌉⟩ else none) := by
  have hwidth : (le p.width (ofRat 0) : Bool) = false := decide_eq_false (not_le.mpr hp)
  rw [customRollSize, hwidth, isRollPrinter_eq hw]
  by_cases hrolls : HasRolls sizes custom
  · rw [if_pos hrolls, decide_eq_true hrolls]
    rfl
  · rw [if_neg hrolls, decide_eq_false hrolls]
    rfl

theorem ceil_le_iff_of_clamp {lo hi x : ℚ} :
    (⌈max lo (min hi x)⌉ : ℚ) ≤ hi ↔ lo ≤ ⌊hi⌋ ∧ (hi = ⌊hi⌋ ∨ x ≤ ⌊hi⌋) := by
  rw [← Int.le_floor, Int.ceil_le, max_le_iff, min_le_iff]
  refine and_congr_right fun _ => or_congr_left ⟨fun h => ?_, fun h => h.le⟩
  exact le_antisymm h (Int.floor_le hi)

end Custom

/-- **A custom size is in the driver's range exactly where its rounding stays there.** -/
theorem custom_size_in_range {sizes : List (PaperSize ℚ)} {custom : CustomRange ℚ} {page : PageSize ℚ}
    (hw : 0 < custom.maxWidth) (hpage : 0 < page.width) :
    (customRollMedia sizes (some custom) (some page) =
        (customRollSize sizes (some custom) (some page)).map (·.map CustomSize.choice)) ∧
      ((∀ size, customRollSize sizes (some custom) (some page) = .ok (some size) →
          (size.width : ℚ) ≤ custom.maxWidth ∧ custom.minHeight ≤ size.height ∧
          (size.height : ℚ) ≤ custom.maxHeight ∧
          (page.height * min 1 (custom.maxWidth / page.width) ≤ custom.maxHeight →
            page.height * min 1 (custom.maxWidth / page.width) ≤ size.height ∧
            (size.height : ℚ) <
              max custom.minHeight (page.height * min 1 (custom.maxWidth / page.width)) + 1)) ↔
        (HasRolls sizes custom →
          (Int.fract custom.maxWidth < 1 / 2 ∨
            Int.fract custom.maxWidth = 1 / 2 ∧ ⌊custom.maxWidth⌋ % 2 = 0) ∧
          custom.minHeight ≤ ⌊custom.maxHeight⌋ ∧
          (custom.maxHeight = ⌊custom.maxHeight⌋ ∨
            page.height * min 1 (custom.maxWidth / page.width) ≤ ⌊custom.maxHeight⌋))) := by
  refine ⟨?_, ?_⟩
  · unfold customRollMedia
    cases customRollSize sizes (some custom) (some page) <;> rfl
  · rw [customRollSize_eq hw hpage, ← scaledHeight_exact, ← roundEven_le, ← ceil_le_iff_of_clamp]
    by_cases hrolls : HasRolls sizes custom
    · rw [if_pos hrolls, lengthFor_exact]
      generalize page.scaledHeight custom.maxWidth = scaled
      constructor
      · intro h _
        obtain ⟨hwidth, _, hheight, _⟩ := h _ rfl
        exact ⟨hwidth, hheight⟩
      · intro h size hsize
        obtain ⟨hwidth, hheight⟩ := h hrolls
        obtain rfl := Option.some.inj (Except.ok.inj hsize)
        have hceil := Int.le_ceil (max custom.minHeight (min custom.maxHeight scaled))
        refine ⟨hwidth, le_trans (le_max_left _ _) hceil, hheight, fun hle => ?_⟩
        show scaled ≤ (⌈max custom.minHeight (min custom.maxHeight scaled)⌉ : ℚ) ∧ _
        rw [min_eq_right hle] at hceil ⊢
        exact ⟨le_trans (le_max_right _ _) hceil, Int.ceil_lt_add_one _⟩
    · rw [if_neg hrolls]
      exact iff_of_true (fun size hsize => by cases hsize) fun h => absurd h hrolls

def receiptPage : PageSize ℚ := ⟨227, 338⟩

def wholeRange : CustomRange ℚ := ⟨136, 48, 9282⟩

theorem custom_size_in_range_whole :
    customRollMedia [] (some wholeRange) (some receiptPage) =
        (customRollSize [] (some wholeRange) (some receiptPage)).map (·.map CustomSize.choice) ∧
      ∃ size, customRollSize [] (some wholeRange) (some receiptPage) = .ok (some size) ∧
        (size.width : ℚ) ≤ 136 ∧ 48 ≤ (size.height : ℚ) ∧ (size.height : ℚ) ≤ 9282 := by
  have hw : 0 < wholeRange.maxWidth := by norm_num [wholeRange]
  have hp : 0 < receiptPage.width := by norm_num [receiptPage]
  have hrolls : HasRolls [] wholeRange := .inr (by norm_num [wholeRange])
  obtain ⟨hmedia, hrange⟩ := @custom_size_in_range [] wholeRange receiptPage hw hp
  have hfract : Int.fract wholeRange.maxWidth = 0 := Int.fract_intCast 136
  have hfloor : ⌊wholeRange.maxHeight⌋ = 9282 := Int.floor_intCast 9282
  have hwhole : ∀ size, customRollSize [] (some wholeRange) (some receiptPage) = .ok (some size) → _ :=
    hrange.mpr fun _ => ⟨.inl (by rw [hfract]; norm_num), by rw [hfloor]; norm_num [wholeRange],
      .inl (by rw [hfloor]; norm_num [wholeRange])⟩
  have hsize := @customRollSize_eq [] wholeRange receiptPage hw hp
  rw [if_pos hrolls] at hsize
  obtain ⟨hwidth, hlow, hhigh, -⟩ := hwhole _ hsize
  exact ⟨hmedia, _, hsize, hwidth, hlow, hhigh⟩

def wideRange : CustomRange ℚ := ⟨1366 / 10, 48, 9282⟩

theorem hasRolls_wideRange : HasRolls [] wideRange := .inr (by norm_num [wideRange])

/-- the driver takes 136.6 points, and gets 137 -/
theorem custom_size_too_wide :
    ∃ size, customRollSize [] (some wideRange) (some receiptPage) = .ok (some size) ∧
      ¬ (size.width : ℚ) ≤ wideRange.maxWidth := by
  refine ⟨⟨roundEven wideRange.maxWidth, ⌈wideRange.lengthFor receiptPage⌉⟩, ?_, ?_⟩
  · rw [customRollSize_eq (by norm_num [wideRange]) (by norm_num [receiptPage]), if_pos hasRolls_wideRange]
  · have hfract : Int.fract wideRange.maxWidth = 6 / 10 := by norm_num [wideRange, Int.fract]
    rw [roundEven_le, hfract]
    norm_num

/-! ## the paper that is chosen -/

section Chosen
variable {sizes : List (PaperSize ℚ)} {custom : Option (CustomRange ℚ)} {p : PageSize ℚ}

/-- some paper of the printer holds the page: a roll, or a custom length in the range -/
def SomePaperHolds (sizes : List (PaperSize ℚ)) (custom : Option (CustomRange ℚ)) (p : PageSize ℚ) : Prop :=
  (∃ s ∈ sizes, (0 < s.width ∧ 3 ≤ s.height / s.width) ∧ p.scaledHeight s.width ≤ s.height) ∨
    ∃ c, custom = some c ∧ HasRolls sizes c ∧
      ∃ length, c.minHeight ≤ length ∧ length ≤ c.maxHeight ∧ p.scaledHeight c.maxWidth ≤ length

theorem ceil_clamp {lo hi x : ℚ} : ⌈max lo (min hi x)⌉ = max ⌈lo⌉ (min ⌈hi⌉ ⌈x⌉) := by
  rw [Int.ceil_mono.map_max, Int.ceil_mono.map_min]

/-- the custom size holds the page, at its own width -/
theorem le_customLength_iff {c : CustomRange ℚ} {length : ℚ} :
    length ≤ (⌈c.lengthFor p⌉ : ℚ) ↔
      length ≤ ⌈c.minHeight⌉ ∨ length ≤ ⌈c.maxHeight⌉ ∧ length ≤ ⌈p.scaledHeight c.maxWidth⌉ := by
  rw [lengthFor_exact, ceil_clamp, Int.cast_max, Int.cast_min, le_max_iff, le_min_iff]

theorem chosenPaper_custom {c : CustomRange ℚ} (hw : 0 < c.maxWidth) (hp : 0 < p.width)
    (hrolls : HasRolls sizes c) :
    ∃ choice, chosenPaper sizes (some c) (some p) =
      .ok (some ⟨choice, roundEven c.maxWidth, ⌈c.lengthFor p⌉⟩) := by
  rw [chosenPaper, customRollSize_eq hw hp, if_pos hrolls]
  exact ⟨_, rfl⟩

theorem chosenPaper_fixed (hcustom : ∀ c, custom = some c → 0 < c.maxWidth) (hp : 0 < p.width)
    (hno : ∀ c, custom = some c → ¬ HasRolls sizes c) :
    chosenPaper sizes custom (some p) = .ok (rollSizeFor sizes (some p)) := by
  rw [chosenPaper]
  cases custom with
  | none => rfl
  | some c =>
    rw [customRollSize_eq (hcustom c rfl) hp, if_neg (hno c rfl)]
    rfl

theorem rollSizeFor_holds (hp : 0 < p.width)
    (h : ∃ s ∈ sizes, (0 < s.width ∧ 3 ≤ s.height / s.width) ∧ p.scaledHeight s.width ≤ s.height) :
    ∃ r, rollSizeFor sizes (some p) = some r ∧ p.scaledHeight r.width ≤ r.height := by
  simp only [← isRoll_iff, ← holds_iff] at h ⊢
  obtain ⟨s, hs, hroll, hholds⟩ := h
  cases hr : rollSizeFor sizes (some p) with
  | none =>
    rw [rollSizeFor_eq_none.mp hr s hs] at hroll
    cases hroll
  | some r => exact ⟨r, rfl, (rollSizeFor_fits hr hp ⟨s, hs, hroll, hholds⟩).1⟩

end Chosen

/-- **The paper that is chosen holds the page if any paper does, exactly where the custom size is long enough
for its rounded width.** -/
theorem chosen_paper_holds {sizes : List (PaperSize ℚ)} {custom : Option (CustomRange ℚ)} {page : PageSize ℚ}
    (hcustom : ∀ c, custom = some c → 0 < c.maxWidth) (hpage : 0 < page.width) :
    (SomePaperHolds sizes custom page → ∃ paper, chosenPaper sizes custom (some page) = .ok (some paper) ∧
        chosenMedia sizes custom (some page) = .ok (some paper.choice) ∧
        page.scaledHeight paper.width ≤ paper.height) ↔
      (SomePaperHolds sizes custom page → ∀ c, custom = some c → HasRolls sizes c →
        page.scaledHeight (roundEven c.maxWidth) ≤ ⌈c.minHeight⌉ ∨
          page.scaledHeight (roundEven c.maxWidth) ≤ ⌈c.maxHeight⌉ ∧
            page.scaledHeight (roundEven c.maxWidth) ≤ ⌈page.scaledHeight c.maxWidth⌉) := by
  refine imp_congr_right fun hholds => ?_
  simp only [← le_customLength_iff]
  by_cases happlies : ∃ c, custom = some c ∧ HasRolls sizes c
  · obtain ⟨c, rfl, hrolls⟩ := happlies
    obtain ⟨choice, hchosen⟩ := chosenPaper_custom (hcustom c rfl) hpage hrolls
    rw [chosenMedia_eq, hchosen]
    constructor
    · rintro ⟨paper, hpaper, _, hlong⟩ c' hc' _
      obtain rfl := Option.some.inj hc'
      obtain rfl := Option.some.inj (Except.ok.inj hpaper)
      exact hlong
    · intro h
      exact ⟨_, rfl, rfl, h c rfl hrolls⟩
  · have hno : ∀ c, custom = some c → ¬ HasRolls sizes c := fun c hc hrolls => happlies ⟨c, hc, hrolls⟩
    refine iff_of_true ?_ fun c hc hrolls => absurd hrolls (hno c hc)
    rcases hholds with hfixed | ⟨c, hc, hrolls, _⟩
    · obtain ⟨r, hr, hlong⟩ := rollSizeFor_holds hpage hfixed
      rw [chosenMedia_eq, chosenPaper_fixed hcustom hpage hno, hr]
      exact ⟨r, rfl, rfl, hlong⟩
    · exact absurd hrolls (hno c hc)

/-- a printer with a long roll, and custom sizes up to 1000 points -/
def longRoll : List (PaperSize ℚ) := [⟨"X48MMY3276MM", 136, 9282⟩]

def shortRange : CustomRange ℚ := ⟨136, 48, 1000⟩

def longPage : PageSize ℚ := ⟨136, 2000⟩

theorem somePaperHolds_longRoll (custom : Option (CustomRange ℚ)) : SomePaperHolds longRoll custom longPage := by
  refine .inl ⟨_, List.mem_singleton_self _, ?_, ?_⟩
  · constructor <;> norm_num
  · rw [scaledHeight_exact]
    norm_num [longPage]

/-- with custom sizes that are long enough the paper holds the page -/
theorem chosen_paper_holds_longRoll :
    ∃ paper, chosenPaper longRoll (some wholeRange) (some longPage) = .ok (some paper) ∧
      chosenMedia longRoll (some wholeRange) (some longPage) = .ok (some paper.choice) ∧
      longPage.scaledHeight paper.width ≤ paper.height := by
  have hp : 0 < longPage.width := by norm_num [longPage]
  have hcustom : ∀ c, some wholeRange = some c → 0 < c.maxWidth := by
    rintro c ⟨⟩
    norm_num [wholeRange]
  have hwidth : roundEven wholeRange.maxWidth = 136 := roundEven_intCast 136
  have hscaled : longPage.scaledHeight 136 = 2000 := by
    rw [scaledHeight_exact]
    norm_num [longPage]
  refine (chosen_paper_holds hcustom hp).mpr (fun _ c hc _ => ?_) (somePaperHolds_longRoll _)
  cases hc
  refine .inr ⟨?_, ?_⟩
  · rw [hwidth]
    exact hscaled.le.trans ((by norm_num [wholeRange] : (2000 : ℚ) ≤ wholeRange.maxHeight).trans (Int.le_ceil _))
  · rw [hwidth]
    exact hscaled.le.trans (hscaled.ge.trans (Int.le_ceil _))

/-- the roll holds the page, and a custom length that does not is chosen -/
theorem chosen_paper_too_short :
    SomePaperHolds longRoll (some shortRange) longPage ∧
      ∃ paper, chosenPaper longRoll (some shortRange) (some longPage) = .ok (some paper) ∧
        paper.height = 1000 ∧ longPage.scaledHeight paper.width = 2000 := by
  have hw : 0 < shortRange.maxWidth := by norm_num [shortRange]
  have hp : 0 < longPage.width := by norm_num [longPage]
  have hrolls : HasRolls longRoll shortRange := .inr (by norm_num [shortRange])
  obtain ⟨choice, hchosen⟩ := chosenPaper_custom hw hp hrolls
  have hwidth : roundEven shortRange.maxWidth = 136 := roundEven_intCast 136
  refine ⟨somePaperHolds_longRoll _, _, hchosen, ?_, ?_⟩
  · rw [lengthFor_exact, scaledHeight_exact]
    norm_num [shortRange, longPage]
  · rw [hwidth, scaledHeight_exact]
    norm_num [longPage]

end PrintAgent
