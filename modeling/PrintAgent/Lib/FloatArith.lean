import PrintAgent.Lib.Round

/-!
# Arithmetic as a program computes with it

`FloatArith F` has the operations that a program uses on its floats, and the errors that come up where a
float has no integer.  There are two such arithmetics:

* `ℚ`        exact, and without errors;
* `Double`   binary floating point with infinities and a NaN: the result of an operation is rounded, and a
             comparison with the NaN is false.

The sign of a zero is not there; nothing depends on it but the sign of another zero.
-/

inductive ArithError where
  | valueError
  | overflowError
  | zeroDivisionError
  deriving DecidableEq, Repr

class FloatArith (F : Type) where
  /-- the float nearest to a number -/
  ofRat : ℚ → F
  /-- the same for an integer, which has to be in the range -/
  ofInt : ℤ → Except ArithError F
  lt : F → F → Bool
  le : F → F → Bool
  sub : F → F → F
  mul : F → F → F
  /-- the quotient; a zero divisor is for the program to find -/
  div : F → F → F
  abs : F → F
  /-- `int(round(x))` -/
  roundInt : F → Except ArithError ℤ
  /-- `int(-(-x // 1))` -/
  ceilInt : F → Except ArithError ℤ

namespace FloatArith

section Ops
variable {F : Type} [FloatArith F]

/-- `min(a, b)` -/
def minOf (a b : F) : F := if lt b a then b else a

/-- `max(a, b)` -/
def maxOf (a b : F) : F := if lt a b then b else a

end Ops

/-! ## exact arithmetic -/

instance : FloatArith ℚ where
  ofRat q := q
  ofInt n := .ok n
  lt a b := a < b
  le a b := a ≤ b
  sub a b := a - b
  mul a b := a * b
  div a b := a / b
  abs a := |a|
  roundInt a := .ok (roundEven a)
  ceilInt a := .ok ⌈a⌉

section Exact
variable {a b : ℚ}

@[simp] theorem ofRat_exact (a : ℚ) : (ofRat a : ℚ) = a := rfl
@[simp] theorem lt_exact : lt a b = decide (a < b) := rfl
@[simp] theorem le_exact : le a b = decide (a ≤ b) := rfl
@[simp] theorem mul_exact : mul a b = a * b := rfl
@[simp] theorem div_exact : div a b = a / b := rfl
@[simp] theorem roundInt_exact : roundInt a = .ok (roundEven a) := rfl
@[simp] theorem ceilInt_exact : ceilInt a = .ok ⌈a⌉ := rfl

@[simp] theorem minOf_exact : minOf a b = min a b := by
  rw [minOf, lt_exact]
  by_cases h : b < a
  · rw [decide_eq_true h, if_pos rfl, min_eq_right h.le]
  · rw [decide_eq_false h, if_neg (by decide), min_eq_left (not_lt.mp h)]

@[simp] theorem maxOf_exact : maxOf a b = max a b := by
  rw [maxOf, lt_exact]
  by_cases h : a < b
  · rw [decide_eq_true h, if_pos rfl, max_eq_right h.le]
  · rw [decide_eq_false h, if_neg (by decide), max_eq_left (not_lt.mp h)]

end Exact

end FloatArith

/-! ## binary floating point -/

inductive Double where
  | finite (q : ℚ)
  | infinity (negative : Bool)
  | nan
  deriving DecidableEq

namespace Double

/-- from here on a number is rounded to an infinity -/
def bound : ℚ := (2 ^ 128) ^ 8

def nearest (q : ℚ) : Double := if bound ≤ |double q| then infinity (q < 0) else finite (double q)

def isNegative : Double → Bool
  | finite q => q < 0
  | infinity negative => negative
  | nan => false

def neg : Double → Double
  | finite q => finite (-q)
  | infinity negative => infinity (!negative)
  | nan => nan

def lt : Double → Double → Bool
  | nan, _ => false
  | _, nan => false
  | finite a, finite b => a < b
  | finite _, infinity negative => !negative
  | infinity negative, finite _ => negative
  | infinity a, infinity b => a && !b

def le : Double → Double → Bool
  | nan, _ => false
  | _, nan => false
  | a, b => !lt b a

def add : Double → Double → Double
  | nan, _ => nan
  | _, nan => nan
  | finite a, finite b => nearest (a + b)
  | finite _, infinity negative => infinity negative
  | infinity negative, finite _ => infinity negative
  | infinity a, infinity b => if a = b then infinity a else nan

def mul : Double → Double → Double
  | nan, _ => nan
  | _, nan => nan
  | finite a, finite b => nearest (a * b)
  | finite a, infinity negative => if a = 0 then nan else infinity (xor (a < 0) negative)
  | infinity negative, finite b => if b = 0 then nan else infinity (xor negative (b < 0))
  | infinity a, infinity b => infinity (xor a b)

def div : Double → Double → Double
  | nan, _ => nan
  | _, nan => nan
  | finite a, finite b => nearest (a / b)
  | finite _, infinity _ => finite 0
  | infinity negative, finite b => infinity (xor negative (b < 0))
  | infinity _, infinity _ => nan

def abs (a : Double) : Double := if a.isNegative then a.neg else a

/-- an integer that is rounded to an infinity has no float -/
def ofInt (n : ℤ) : Except ArithError Double :=
  match nearest n with
  | infinity _ => .error .overflowError
  | x => .ok x

def roundInt : Double → Except ArithError ℤ
  | finite q => .ok (roundEven q)
  | infinity _ => .error .overflowError
  | nan => .error .valueError

/-- an infinity has no quotient by one, but the NaN -/
def ceilInt : Double → Except ArithError ℤ
  | finite q => .ok ⌈q⌉
  | infinity _ => .error .valueError
  | nan => .error .valueError

instance : FloatArith Double where
  ofRat := nearest
  ofInt := ofInt
  lt := lt
  le := le
  sub a b := a.add b.neg
  mul := mul
  div := div
  abs := abs
  roundInt := roundInt
  ceilInt := ceilInt

/-! ### finite floats -/

def isFinite : Double → Bool
  | finite _ => true
  | _ => false

/-- a finite one is not beyond the greatest one -/
def IsRounded : Double → Prop
  | finite q => |q| ≤ greatestDouble
  | _ => True

def IsSize : Double → Prop
  | finite q => 0 ≤ q
  | infinity negative => negative = false
  | nan => False

theorem bound_eq : bound = 2 ^ (1024 : ℤ) := by
  rw [bound, ← pow_mul, ← zpow_natCast]
  rfl

theorem isRounded_nearest (q : ℚ) : (nearest q).IsRounded := by
  unfold nearest
  split
  · trivial
  · rename_i h
    rw [bound_eq] at h
    exact abs_double_le_of_lt (not_le.mp h)

theorem nearest_of_le {q : ℚ} (h : |q| ≤ 2 ^ (971 : ℤ)) : nearest q = finite (double q) := by
  have hgreatest : (2 : ℚ) ^ (971 : ℤ) ≤ greatestDouble := by
    have hone : (1 : ℚ) ≤ ((2 ^ 53 - 1 : ℤ) : ℚ) := by norm_num
    exact le_mul_of_one_le_left (zpow_nonneg two_pos.le _) hone
  have hfinite : ¬ bound ≤ |double q| := by
    rw [bound_eq]
    exact not_le.mpr ((abs_double_le_greatest (h.trans hgreatest)).trans_lt greatestDouble_lt)
  rw [nearest, if_neg hfinite]

theorem isSize_nearest {q : ℚ} (h : 0 ≤ q) : (nearest q).IsSize := by
  unfold nearest
  split
  · exact decide_eq_false (not_lt.mpr h)
  · exact double_nonneg h

theorem IsRounded.abs {x : Double} (h : x.IsRounded) : x.abs.IsRounded := by
  unfold Double.abs
  split
  · cases x with
    | finite q =>
      show |-q| ≤ greatestDouble
      rw [abs_neg]
      exact h
    | infinity negative => trivial
    | nan => trivial
  · exact h

theorem isRounded_add (a b : Double) : (a.add b).IsRounded := by
  unfold add
  split <;> try trivial
  · exact isRounded_nearest _
  · split <;> trivial

/-- a product with a factor of at most one has the sign of the size, and is finite if the size is -/
theorem isFinite_mul {x : Double} {f : ℚ} (hx : x.IsRounded) (hf : 0 ≤ f) (hle : f ≤ 1) :
    (x.mul (finite f)).isFinite = x.isFinite := by
  cases x with
  | finite a =>
    have hprod : |a * f| ≤ greatestDouble := by
      rw [abs_mul, abs_of_nonneg hf]
      exact (mul_le_of_le_one_right (abs_nonneg a) hle).trans hx
    have hnear : ¬ bound ≤ |double (a * f)| := by
      rw [bound_eq]
      exact not_le.mpr ((abs_double_le_greatest hprod).trans_lt greatestDouble_lt)
    show (nearest (a * f)).isFinite = true
    rw [nearest, if_neg hnear]
    rfl
  | infinity negative =>
    show (if f = 0 then nan else infinity _).isFinite = false
    split <;> rfl
  | nan => rfl

theorem isFinite_of_div {x y : Double} (h : (x.div y).isFinite = true) : x.isFinite = true := by
  cases x with
  | finite q => rfl
  | infinity negative => cases y <;> cases h
  | nan => cases h

theorem isFinite_of_mul {x y : Double} (h : (x.mul y).isFinite = true) : y.isFinite = true := by
  cases y with
  | finite q => rfl
  | infinity negative =>
    cases x with
    | finite a =>
      change (if a = 0 then nan else infinity _).isFinite = true at h
      split at h <;> cases h
    | infinity _ => cases h
    | nan => cases h
  | nan => cases x <;> cases h

theorem nearest_ne_nan (q : ℚ) : nearest q ≠ nan := by
  unfold nearest
  split <;> exact Double.noConfusion

theorem ofInt_eq (n : ℤ) :
    ofInt n = if (nearest n).isFinite then .ok (nearest n) else .error .overflowError := by
  have hne := nearest_ne_nan n
  unfold ofInt
  cases hnearest : nearest n with
  | finite q => rfl
  | infinity negative => rfl
  | nan => exact absurd hnearest hne

theorem roundInt_ok {x : Double} : (∃ n, roundInt x = .ok n) ↔ x.isFinite = true := by
  cases x with
  | finite q => exact iff_of_true ⟨_, rfl⟩ rfl
  | infinity negative => exact iff_of_false (fun ⟨_, h⟩ => by cases h) Bool.false_ne_true
  | nan => exact iff_of_false (fun ⟨_, h⟩ => by cases h) Bool.false_ne_true

theorem ceilInt_ok {x : Double} : (∃ n, ceilInt x = .ok n) ↔ x.isFinite = true := by
  cases x with
  | finite q => exact iff_of_true ⟨_, rfl⟩ rfl
  | infinity negative => exact iff_of_false (fun ⟨_, h⟩ => by cases h) Bool.false_ne_true
  | nan => exact iff_of_false (fun ⟨_, h⟩ => by cases h) Bool.false_ne_true

theorem nearest_zero : nearest 0 = finite 0 := by decide +kernel

theorem nearest_one : nearest 1 = finite 1 := by decide +kernel

/-- a number within two bounds is finite if it has to be: the lower bound is, and the number or the upper one -/
theorem isFinite_clamp {lo hi x : Double} (hlo : lo.IsSize) (hhi : hi.IsSize) (hx : x ≠ infinity true) :
    (FloatArith.maxOf lo (FloatArith.minOf hi x)).isFinite = true ↔
      lo.isFinite = true ∧ (hi.isFinite = true ∨ x.isFinite = true) := by
  have hmax : ∀ y, y = infinity false ∨ y.isFinite = true →
      ((FloatArith.maxOf lo y).isFinite = true ↔ lo.isFinite = true ∧ y.isFinite = true) := by
    intro y hy
    show (if lt lo y then y else lo).isFinite = true ↔ _
    cases lo with
    | nan => exact hlo.elim
    | infinity negative =>
      obtain rfl : negative = false := hlo
      rcases hy with rfl | hy
      · exact iff_of_false Bool.false_ne_true fun h => Bool.false_ne_true h.1
      · cases y with
        | finite q => exact iff_of_false Bool.false_ne_true fun h => Bool.false_ne_true h.1
        | infinity _ => cases hy
        | nan => cases hy
    | finite q =>
      refine Iff.trans ?_ (and_iff_right (rfl : (finite q).isFinite = true)).symm
      rcases hy with rfl | hy
      · exact Iff.rfl
      · refine iff_of_true ?_ hy
        split
        · exact hy
        · rfl
  have hmin : (FloatArith.minOf hi x = infinity false ∧ hi.isFinite = false ∧ x.isFinite = false) ∨
      ((FloatArith.minOf hi x).isFinite = true ∧ (hi.isFinite = true ∨ x.isFinite = true)) := by
    show ((if lt x hi then x else hi) = _ ∧ _) ∨ ((if lt x hi then x else hi).isFinite = true ∧ _)
    cases hi with
    | nan => exact hhi.elim
    | infinity negative =>
      obtain rfl : negative = false := hhi
      cases x with
      | finite q => exact .inr ⟨rfl, .inr rfl⟩
      | infinity negative =>
        cases negative with
        | false => exact .inl ⟨rfl, rfl, rfl⟩
        | true => exact absurd rfl hx
      | nan => exact .inl ⟨rfl, rfl, rfl⟩
    | finite b =>
      refine .inr ⟨?_, .inl rfl⟩
      split
      · rename_i hlt
        cases x with
        | finite q => rfl
        | infinity negative =>
          cases negative with
          | false => cases hlt
          | true => exact absurd rfl hx
        | nan => cases hlt
      · rfl
  rcases hmin with ⟨hy, hhi', hx'⟩ | ⟨hy, hone⟩
  · rw [hmax _ (.inl hy), hy, hhi', hx']
    exact and_congr_right fun _ => by decide
  · rw [hmax _ (.inr hy)]
    exact and_congr_right fun _ => iff_of_true hy hone

/-- a finite size over a divisor that is not known to be at most zero, cut at one -/
theorem exists_minOf_div {w : ℚ} {y : Double} (hw : 0 ≤ w) (hy : le y (finite 0) = false) :
    ∃ f, 0 ≤ f ∧ f ≤ 1 ∧ FloatArith.minOf (finite 1) ((finite w).div y) = finite f := by
  have hmin : ∀ r : Double, r.IsSize ∨ r = nan → ∃ f, 0 ≤ f ∧ f ≤ 1 ∧ FloatArith.minOf (finite 1) r = finite f := by
    intro r hr
    show ∃ f, 0 ≤ f ∧ f ≤ 1 ∧ (if lt r (finite 1) then r else finite 1) = finite f
    split
    · rename_i hlt
      cases r with
      | finite q => exact ⟨q, hr.elim id Double.noConfusion, (of_decide_eq_true hlt).le, rfl⟩
      | infinity negative =>
        obtain rfl : negative = false := hr.elim id Double.noConfusion
        cases hlt
      | nan => cases hlt
    · exact ⟨1, zero_le_one, le_refl 1, rfl⟩
  refine hmin _ ?_
  cases y with
  | finite b =>
    have hb : 0 < b := by
      change (!decide (0 < b)) = false at hy
      simpa using hy
    exact .inl (isSize_nearest (div_nonneg hw hb.le))
  | infinity negative => exact .inl (le_refl (0 : ℚ))
  | nan => exact .inr rfl

end Double
