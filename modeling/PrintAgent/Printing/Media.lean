import PrintAgent.Lib.FloatArith

/-!
# The paper of a receipt

`custom_roll_media` and `roll_media_for` of `printing/macos.py`, in any arithmetic.

`rollSizeFor` and `customRollSize` are these functions before they name the paper that they chose.
-/

namespace PrintAgent

open FloatArith

/-- a PageSize choice with its width and height, in points -/
structure PaperSize (F : Type) where
  choice : String
  width : F
  height : F

/-- what `*CustomPageSize` allows, in points -/
structure CustomRange (F : Type) where
  maxWidth : F
  minHeight : F
  maxHeight : F

structure PageSize (F : Type) where
  width : F
  height : F

section Media
variable {F : Type} [FloatArith F]

def rollRatio : F := ofRat 3

/-- `width > 0 and height / width >= _ROLL_RATIO` -/
def PaperSize.isRoll (size : PaperSize F) : Bool :=
  lt (ofRat 0) size.width && le rollRatio (div size.height size.width)

/-- `page[1] * min(1.0, width / page[0])` -/
def PageSize.scaledHeight (page : PageSize F) (width : F) : F :=
  mul page.height (minOf (ofRat 1) (div width page.width))

def sortedRolls (sizes : List (PaperSize F)) : List (PaperSize F) :=
  (sizes.filter PaperSize.isRoll).mergeSort fun a b => le a.height b.height

/-- the page, scaled to the width of the roll, is not longer than the roll -/
def PaperSize.holds (size : PaperSize F) (page : PageSize F) : Bool :=
  le (page.scaledHeight size.width) size.height

def rollSizeFor (sizes : List (PaperSize F)) (page : Option (PageSize F)) : Option (PaperSize F) :=
  match page with
  | none => (sortedRolls sizes).head?
  | some page =>
    if le page.width (ofRat 0) then (sortedRolls sizes).head?
    else ((sortedRolls sizes).find? (·.holds page)).or (sortedRolls sizes).getLast?

section Rolls
variable {sizes : List (PaperSize F)} {page : Option (PageSize F)} {size r : PaperSize F}

theorem mem_sortedRolls : size ∈ sortedRolls sizes ↔ size ∈ sizes ∧ size.isRoll = true := by
  rw [sortedRolls, List.mem_mergeSort, List.mem_filter]

theorem sortedRolls_eq_nil : sortedRolls sizes = [] ↔ ∀ size ∈ sizes, size.isRoll = false := by
  rw [List.eq_nil_iff_forall_not_mem]
  constructor
  · intro h size hs
    rw [Bool.eq_false_iff]
    exact fun hroll => h size (mem_sortedRolls.mpr ⟨hs, hroll⟩)
  · intro h size hs
    obtain ⟨hmem, hroll⟩ := mem_sortedRolls.mp hs
    rw [h size hmem] at hroll
    cases hroll

theorem rollSizeFor_eq_none : rollSizeFor sizes page = none ↔ ∀ size ∈ sizes, size.isRoll = false := by
  rw [← sortedRolls_eq_nil]
  unfold rollSizeFor
  constructor
  · intro h
    cases page with
    | none => exact List.head?_eq_none_iff.mp h
    | some p =>
      simp only at h
      split at h
      · exact List.head?_eq_none_iff.mp h
      · exact List.getLast?_eq_none_iff.mp (Option.or_eq_none_iff.mp h).2
  · intro h
    rw [h]
    cases page with
    | none => rfl
    | some p => exact ite_self _

theorem rollSizeFor_mem (h : rollSizeFor sizes page = some r) : r ∈ sizes ∧ r.isRoll = true := by
  rw [← mem_sortedRolls]
  unfold rollSizeFor at h
  cases page with
  | none => exact List.mem_of_head? h
  | some p =>
    simp only at h
    split at h
    · exact List.mem_of_head? h
    · rcases Option.or_eq_some_iff.mp h with h | ⟨_, h⟩
      · exact List.mem_of_find?_eq_some h
      · exact List.mem_of_getLast? h

end Rolls

def rollMediaFor (sizes : List (PaperSize F)) (page : Option (PageSize F)) : Option String :=
  (rollSizeFor sizes page).map (·.choice)

structure CustomSize where
  width : Int
  height : Int
  deriving DecidableEq, Repr

/-- `custom[2] / custom[0] >= _ROLL_RATIO` -/
def CustomRange.isRoll (custom : CustomRange F) : Except ArithError Bool :=
  if le custom.maxWidth (ofRat 0) && le (ofRat 0) custom.maxWidth then .error .zeroDivisionError
  else .ok (le rollRatio (div custom.maxHeight custom.maxWidth))

/-- `is_roll` -/
def isRollPrinter (sizes : List (PaperSize F)) (custom : CustomRange F) : Except ArithError Bool :=
  if sizes.any PaperSize.isRoll then .ok true else custom.isRoll

/-- the length of the page at the greatest width, within the range -/
def CustomRange.lengthFor (custom : CustomRange F) (page : PageSize F) : F :=
  maxOf custom.minHeight (minOf custom.maxHeight (page.scaledHeight custom.maxWidth))

def customRollSize (sizes : List (PaperSize F)) (custom : Option (CustomRange F))
    (page : Option (PageSize F)) : Except ArithError (Option CustomSize) :=
  match custom, page with
  | some custom, some page => do
    if le page.width (ofRat 0) then return none
    if !(← isRollPrinter sizes custom) then return none
    let width ← roundInt custom.maxWidth
    let height ← ceilInt (custom.lengthFor page)
    return some ⟨width, height⟩
  | _, _ => .ok none

/-- `f"Custom.{width}x{height}"` -/
def CustomSize.choice (size : CustomSize) : String := s!"Custom.{size.width}x{size.height}"

def customRollMedia (sizes : List (PaperSize F)) (custom : Option (CustomRange F))
    (page : Option (PageSize F)) : Except ArithError (Option String) := do
  return (← customRollSize sizes custom page).map (·.choice)

/-- `custom_roll_media(...) or roll_media_for(...)` -/
def chosenMedia (sizes : List (PaperSize F)) (custom : Option (CustomRange F))
    (page : Option (PageSize F)) : Except ArithError (Option String) := do
  return (← customRollMedia sizes custom page).or (rollMediaFor sizes page)

end Media

/-- the paper of `chosenMedia`, with its size -/
def chosenPaper (sizes : List (PaperSize ℚ)) (custom : Option (CustomRange ℚ)) (page : Option (PageSize ℚ)) :
    Except ArithError (Option (PaperSize ℚ)) := do
  match ← customRollSize sizes custom page with
  | some size => return some ⟨size.choice, size.width, size.height⟩
  | none => return rollSizeFor sizes page

theorem chosenMedia_eq (sizes : List (PaperSize ℚ)) (custom : Option (CustomRange ℚ))
    (page : Option (PageSize ℚ)) :
    chosenMedia sizes custom page = (chosenPaper sizes custom page).map (·.map (·.choice)) := by
  rw [chosenMedia, customRollMedia, chosenPaper]
  cases customRollSize sizes custom page with
  | error e => rfl
  | ok size =>
    cases size with
    | none => rfl
    | some size => rfl

end PrintAgent
