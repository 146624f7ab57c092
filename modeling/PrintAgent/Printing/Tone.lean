import Mathlib.Algebra.BigOperators.Intervals
import Mathlib.Algebra.BigOperators.Ring.Finset
import PrintAgent.Printing.Dither

/-!
# The tone of a dithered page

`gray_to_rows` in exact arithmetic, threshold 128.

* `Near w g v`   the value `v` of a pixel that was `g` and has got at most `w` sixteenths of errors;
* `RowTone`      the values of a row and of the next one, after `k` pixels: a pixel gets `9` sixteenths from
                 the row above and `7` from its left neighbour, so every value stays near;
* `RowSum`       the sum of the values after `k` pixels: what is not there yet is printed, or dropped at an
                 edge.
-/

namespace PrintAgent

open Finset

def grayAt (gray : List UInt8) (width y x : Nat) : ℚ := (gray.getD (y * width + x) 0).toNat

theorem grayAt_nonneg (gray : List UInt8) (width y x : Nat) : 0 ≤ grayAt gray width y x := Nat.cast_nonneg _

theorem grayAt_le (gray : List UInt8) (width y x : Nat) : grayAt gray width y x ≤ 255 := by
  have hle : (gray.getD (y * width + x) 0).toNat ≤ 255 := Nat.le_of_lt_succ (UInt8.toNat_lt _)
  rw [grayAt]
  exact_mod_cast hle

/-! ## one value -/

/-- a value that was `g`, after at most `w` sixteenths of errors -/
structure Near (w : Nat) (g v : ℚ) : Prop where
  low : g - 127 * w / 16 ≤ v
  high : v ≤ g + 128 * w / 16
  strict : 0 < w → v < g + 128 * w / 16

section Near
variable {w w' : Nat} {g v e : ℚ}

theorem Near.refl (g : ℚ) : Near 0 g g where
  low := by simp
  high := by simp
  strict h := absurd h (Nat.lt_irrefl 0)

theorem Near.mono (h : Near w g v) (hw : w ≤ w') : Near w' g v := by
  have hcast : (w : ℚ) ≤ w' := by exact_mod_cast hw
  refine ⟨?_, ?_, fun hpos => ?_⟩
  · linarith [h.low]
  · linarith [h.high]
  · by_cases hw0 : 0 < w
    · linarith [h.strict hw0]
    · have hzero : (w : ℚ) = 0 := by exact_mod_cast Nat.eq_zero_of_not_pos hw0
      have hpos' : (0 : ℚ) < w' := by exact_mod_cast hpos
      have hhigh := h.high
      rw [hzero] at hhigh
      linarith

theorem Near.share (h : Near w g v) (hlow : -127 ≤ e) (hhigh : e < 128) (n : Nat) :
    Near (w + n) g (v + e * n / 16) := by
  by_cases hn : n = 0
  · rw [hn]
    simpa using h
  · have hpos : (0 : ℚ) < n := by exact_mod_cast Nat.pos_of_ne_zero hn
    have hup : e * n < 128 * n := mul_lt_mul_of_pos_right hhigh hpos
    have hdown : -127 * n ≤ e * n := mul_le_mul_of_nonneg_right hlow hpos.le
    refine ⟨?_, ?_, fun _ => ?_⟩
    · push_cast
      linarith [h.low]
    · push_cast
      linarith [h.high]
    · push_cast
      linarith [h.high]

theorem Near.bounds (h : Near 16 g v) (h0 : 0 ≤ g) (h255 : g ≤ 255) : -127 ≤ v ∧ v < 383 := by
  have hlow := h.low
  have hstrict := h.strict (by decide)
  push_cast at hlow hstrict
  constructor <;> linarith

/-- what is left of a value once it is printed black or white -/
theorem error_bounds (hlow : -127 ≤ v) (hhigh : v < 383) :
    -127 ≤ v - quantised 128 v ∧ v - quantised 128 v < 128 := by
  unfold quantised
  split
  · rename_i hblack
    constructor <;> linarith
  · rename_i hwhite
    constructor <;> linarith

end Near

/-! ## one pixel -/

section Pixel
variable {width k : Nat} {d d' : Dither}

theorem spread_id (error : ℚ) (weight : Nat) (v : ℚ) : spread id error weight v = v + error * weight / 16 := by
  by_cases hw : weight = 0
  · simp [spread, hw]
  · simp [spread, hw]

/-- the error of a pixel in exact arithmetic -/
theorem errorAt_id (d : Dither) (x : Nat) :
    d.errorAt id 128 x = d.current.getD x 0 - quantised 128 (d.current.getD x 0) := rfl

theorem shares_of_pixel (hd : d.Sized width) (hk : k < width) (hok : ditherPixel id 128 width d k = .ok d') :
    d.Spreads id width k (d.errorAt id 128 k) d' := by
  obtain ⟨d'', hok', _, _, _, hzero, hspread⟩ := ditherPixel_ok id 128 hd hk
  obtain rfl : d' = d'' := Except.ok.inj (hok.symm.trans hok')
  by_cases he : d.errorAt id 128 k = 0
  · obtain ⟨hcur, hfol⟩ := hzero he
    rw [he]
    refine ⟨fun j _ => ?_, fun hn => hfol.trans hn, fun values hv => ⟨values, hfol.trans hv, fun j _ => ?_⟩⟩
    · rw [hcur, spread_id]
      simp
    · rw [spread_id]
      simp
  · exact hspread he

end Pixel

/-! ## the values -/

/-- the sixteenths that the pixel `j` of the next row got from the first `k` pixels -/
def received (k j : Nat) : Nat :=
  (if 0 < j ∧ j ≤ k then 1 else 0) + (if j < k then 5 else 0) + if j + 1 < k then 3 else 0

theorem received_succ (k j : Nat) : received (k + 1) j = received k j + weightBelow k j := by
  unfold received weightBelow
  split_ifs <;> omega

theorem received_le (k j : Nat) : received k j ≤ 9 := by
  unfold received
  split_ifs <;> omega

/-- the row `y` after `k` pixels -/
structure RowTone (gray : List UInt8) (width y k : Nat) (d : Dither) : Prop where
  ahead : ∀ j < width, k < j → Near 9 (grayAt gray width y j) (d.current.getD j 0)
  current : ∀ j < width, Near 16 (grayAt gray width y j) (d.current.getD j 0)
  following : ∀ values, d.following = some values →
    ∀ j < width, Near (received k j) (grayAt gray width (y + 1) j) (values.getD j 0)

/-- the page before the row `y` -/
structure PageTone (gray : List UInt8) (width height y : Nat) (s : Raster) : Prop where
  current : y < height → ∀ j < width, Near 9 (grayAt gray width y j) (s.current.getD j 0)
  length : s.errors.length = y
  errors : ∀ i < y, ∀ j < width, -127 ≤ (s.errors.getD i []).getD j 0 ∧ (s.errors.getD i []).getD j 0 < 128

section Tone
variable {gray : List UInt8} {width height y k : Nat} {s : Raster} {d d' : Dither}

theorem received_zero (j : Nat) : received 0 j = 0 := by
  unfold received
  rw [if_neg (by omega), if_neg (by omega), if_neg (by omega)]

theorem RowTone.start (h : PageTone gray width height y s) (hy : y < height) :
    RowTone gray width y 0 (startRow gray width height s y) where
  ahead j hj _ := h.current hy j hj
  current j hj := (h.current hy j hj).mono (by decide)
  following values hv j hj := by
    unfold startRow at hv
    simp only at hv
    split at hv
    · cases hv
      rw [getD_grayRow hj, received_zero]
      exact Near.refl _
    · cases hv

theorem RowTone.bounds (h : RowTone gray width y k d) {j : Nat} (hj : j < width) :
    -127 ≤ d.current.getD j 0 ∧ d.current.getD j 0 < 383 :=
  (h.current j hj).bounds (grayAt_nonneg ..) (grayAt_le ..)

theorem RowTone.error (h : RowTone gray width y k d) {j : Nat} (hj : j < width) :
    -127 ≤ d.errorAt id 128 j ∧ d.errorAt id 128 j < 128 :=
  error_bounds (h.bounds hj).1 (h.bounds hj).2

theorem rowTone_step (h : RowTone gray width y k d) (hd : d.Sized width) (hk : k < width)
    (hok : ditherPixel id 128 width d k = .ok d') : RowTone gray width y (k + 1) d' := by
  obtain ⟨hlow, hhigh⟩ := h.error hk
  have hshares := shares_of_pixel hd hk hok
  refine ⟨fun j hj hkj => ?_, fun j hj => ?_, fun values' hv' j hj => ?_⟩
  · rw [hshares.current j hj, weightRight, if_neg (by omega), spread, if_pos rfl]
    exact h.ahead j hj (by omega)
  · rw [hshares.current j hj, spread_id]
    by_cases hjk : j = k + 1
    · -- the next pixel has nine sixteenths from above, and now seven from its left
      rw [weightRight, if_pos hjk]
      exact (h.ahead j hj (by omega)).share hlow hhigh 7
    · rw [weightRight, if_neg hjk]
      simpa using h.current j hj
  · cases hv : d.following with
    | none =>
      rw [hshares.none hv] at hv'
      cases hv'
    | some values =>
      obtain ⟨values'', hv'', hget⟩ := hshares.some values hv
      obtain rfl : values'' = values' := Option.some.inj (hv''.symm.trans hv')
      rw [hget j hj, spread_id, received_succ]
      exact (h.following values hv j hj).share hlow hhigh _

theorem pageTone_next (h : PageTone gray width height y s)
    (hd : RowInv id 128 width (startRow gray width height s y) width d)
    (ht : RowTone gray width y width d) : PageTone gray width height (y + 1) (s.add d) where
  current hy j hj := by
    obtain ⟨values, hv, _⟩ := following_of_rowInv hy hd
    show Near 9 _ ((d.following.getD d.current).getD j 0)
    rw [hv]
    exact (ht.following values hv j hj).mono (received_le width j)
  length := by
    rw [Raster.add, List.length_append, h.length]
    rfl
  errors i hi j hj := by
    rw [Raster.add, getD_concat h.length _ _ (by omega)]
    split
    · rw [hd.errors j hj]
      exact ht.error hj
    · exact h.errors i (by omega) j hj

end Tone

/-! ## the sum of the values -/

/-- the values of a row, from the pixel `k` on -/
def sumFrom (width k : Nat) (values : List ℚ) : ℚ := ∑ j ∈ Ico k width, values.getD j 0

def sumBelow (width : Nat) (following : Option (List ℚ)) : ℚ := (following.map (sumFrom width 0)).getD 0

/-- the sixteenths of the error of a pixel that fall off the page: on the right, below, and below on the left
and on the right -/
def dropped (width height y x : Nat) : Nat :=
  (if x + 1 < width then 0 else 7) +
    if y + 1 < height then (if 0 < x then 0 else 3) + (if x + 1 < width then 0 else 1) else 9

section Sum
variable {gray : List UInt8} {width height y k : Nat} {s d d' : Dither}

theorem sum_weightRight :
    ∑ j ∈ Ico (k + 1) width, weightRight k j = if k + 1 < width then 7 else 0 := by
  unfold weightRight
  rw [sum_ite_eq' (Ico (k + 1) width) (k + 1) fun _ => 7]
  simp

theorem sum_weightBelow (hk : k < width) :
    ∑ j ∈ Ico 0 width, weightBelow k j = (if 0 < k then 3 else 0) + 5 + if k + 1 < width then 1 else 0 := by
  have hsplit : ∀ j, weightBelow k j =
      (if j + 1 = k then 3 else 0) + (if j = k then 5 else 0) + if j = k + 1 then 1 else 0 := by
    intro j
    unfold weightBelow
    split_ifs <;> omega
  have hleft : ∑ j ∈ Ico 0 width, (if j + 1 = k then 3 else 0) = if 0 < k then 3 else 0 := by
    cases k with
    | zero => simp
    | succ k =>
      simp only [Nat.add_right_cancel_iff]
      rw [sum_ite_eq' (Ico 0 width) k fun _ => 3, if_pos (mem_Ico.mpr (by omega)), if_pos (Nat.succ_pos k)]
  simp only [hsplit, sum_add_distrib, hleft]
  rw [sum_ite_eq' (Ico 0 width) k fun _ => 5, if_pos (mem_Ico.mpr (by omega)),
    sum_ite_eq' (Ico 0 width) (k + 1) fun _ => 1]
  simp

variable (height y) in
/-- **The shares of an error are all of it**, with what is dropped. -/
theorem weights_add_dropped (hk : k < width) :
    ∑ j ∈ Ico (k + 1) width, weightRight k j +
      (if y + 1 < height then ∑ j ∈ Ico 0 width, weightBelow k j else 0) + dropped width height y k = 16 := by
  rw [sum_weightRight, sum_weightBelow hk, dropped]
  split_ifs <;> rfl

theorem sum_spread {values values' : List ℚ} {error : ℚ} {weight : Nat → Nat} (n : Nat)
    (h : ∀ j < width, values'.getD j 0 = spread id error (weight j) (values.getD j 0)) :
    sumFrom width n values' = sumFrom width n values + error * (∑ j ∈ Ico n width, weight j : Nat) / 16 := by
  have hterm : ∀ j ∈ Ico n width, values'.getD j 0 = values.getD j 0 + error / 16 * weight j := by
    intro j hj
    rw [h j (mem_Ico.mp hj).2, spread_id]
    ring
  rw [sumFrom, sum_congr rfl hterm, sum_add_distrib, ← mul_sum, sumFrom]
  push_cast
  ring

/-- a row that began as `s`, after `k` pixels: what is not in the values any more is printed or dropped -/
def RowSum (width height y : Nat) (s : Dither) (k : Nat) (d : Dither) : Prop :=
  sumFrom width 0 s.current + sumBelow width s.following =
    sumFrom width k d.current + sumBelow width d.following +
      ∑ j ∈ range k, quantised 128 (d.current.getD j 0) +
      ∑ j ∈ range k, d.errorAt id 128 j * dropped width height y j / 16

theorem rowSum_start : RowSum width height y s 0 s := by simp [RowSum]

theorem sumBelow_step {error : ℚ} (hsome : d.following.isSome = decide (y + 1 < height))
    (h : d.Spreads id width k error d') :
    sumBelow width d'.following = sumBelow width d.following +
      error * (if y + 1 < height then ∑ j ∈ Ico 0 width, weightBelow k j else 0 : Nat) / 16 := by
  cases hv : d.following with
  | none =>
    rw [hv] at hsome
    rw [h.none hv, if_neg (of_decide_eq_false hsome.symm)]
    simp
  | some values =>
    rw [hv] at hsome
    obtain ⟨values', hv', hget⟩ := h.some values hv
    rw [hv', if_pos (of_decide_eq_true hsome.symm)]
    exact sum_spread 0 hget

theorem rowSum_step (hsome : s.following.isSome = decide (y + 1 < height))
    (hd : RowInv id 128 width s k d) (h : RowSum width height y s k d) (hk : k < width)
    (hok : ditherPixel id 128 width d k = .ok d') : RowSum width height y s (k + 1) d' := by
  have hshares := shares_of_pixel hd.sized hk hok
  have hkept : ∀ j ∈ range (k + 1), d'.current.getD j 0 = d.current.getD j 0 := fun j hj =>
    current_of_pixel hd.sized hk hok (Nat.le_of_lt_succ (mem_range.mp hj))
  have hquantised : ∑ j ∈ range (k + 1), quantised 128 (d'.current.getD j 0) =
      ∑ j ∈ range k, quantised 128 (d.current.getD j 0) + quantised 128 (d.current.getD k 0) := by
    rw [sum_congr rfl fun j hj => by rw [hkept j hj], sum_range_succ]
  have hdropped : ∑ j ∈ range (k + 1), d'.errorAt id 128 j * dropped width height y j / 16 =
      ∑ j ∈ range k, d.errorAt id 128 j * dropped width height y j / 16 +
        d.errorAt id 128 k * dropped width height y k / 16 := by
    rw [sum_congr rfl fun j hj => by rw [errorAt_id, hkept j hj, ← errorAt_id], sum_range_succ]
  have hright := sum_spread (k + 1) hshares.current
  have hbelow := sumBelow_step (hd.isSome.trans hsome) hshares
  have hfirst : sumFrom width k d.current = d.current.getD k 0 + sumFrom width (k + 1) d.current :=
    sum_eq_sum_Ico_succ_bot hk _
  have herror := errorAt_id d k
  have hall := congrArg (fun n : Nat => d.errorAt id 128 k * n) (weights_add_dropped height y hk)
  simp only [Nat.cast_add, mul_add] at hall
  rw [RowSum, hquantised, hdropped, hright, hbelow]
  rw [RowSum, hfirst] at h
  push_cast at hall ⊢
  linarith

/-- a printed row: white is what is not inked -/
theorem sum_quantised (hd : RowInv id 128 width s width d) :
    ∑ j ∈ range width, quantised 128 (d.current.getD j 0) =
      255 * ((range width).filter fun x => pixel d.row x = false).card := by
  have hterm : ∀ j ∈ range width, quantised 128 (d.current.getD j 0) = if pixel d.row j = false then 255 else 0 := by
    intro j hj
    have hbit := hd.bits j
    rw [and_iff_right (mem_range.mp hj)] at hbit
    unfold quantised
    by_cases hlt : d.current.getD j 0 < 128
    · rw [if_pos hlt, if_neg (by rw [hbit.mpr hlt]; decide)]
    · rw [if_neg hlt, if_pos (Bool.eq_false_iff.mpr fun hb => hlt (hbit.mp hb))]
  rw [sum_congr rfl hterm, ← sum_filter, sum_const, nsmul_eq_mul, mul_comm]

end Sum

/-! ## the page -/

/-- the pixels of the first `n` rows that are not inked -/
def unInked (width n : Nat) (rows : List (List UInt8)) : Nat :=
  ∑ y ∈ range n, ((range width).filter fun x => pixel (rows.getD y []) x = false).card

def Raster.errorAt (s : Raster) (y x : Nat) : ℚ := (s.errors.getD y []).getD x 0

/-- what the edges drop of the errors of the first `n` rows -/
def Raster.droppedSum (width height n : Nat) (s : Raster) : ℚ :=
  ∑ y ∈ range n, ∑ x ∈ range width, s.errorAt y x * dropped width height y x / 16

/-- the gray values of the first `n` rows -/
def graySum (gray : List UInt8) (width n : Nat) : ℚ := ∑ y ∈ range n, ∑ x ∈ range width, grayAt gray width y x

/-- the page before the row `y`: the gray values that came in are still there, printed, or dropped -/
structure PageSum (gray : List UInt8) (width height y : Nat) (s : Raster) : Prop where
  tone : PageTone gray width height y s
  sum : graySum gray width (min (y + 1) height) =
    (if y < height then sumFrom width 0 s.current else 0) + 255 * unInked width y s.rows +
      s.droppedSum width height y

section Page
variable {gray : List UInt8} {width height y : Nat} {s : Raster} {d : Dither}

theorem sumFrom_grayRow : sumFrom width 0 (grayRow gray width y) = ∑ x ∈ range width, grayAt gray width y x := by
  rw [sumFrom, ← range_eq_Ico]
  exact sum_congr rfl fun x hx => getD_grayRow (mem_range.mp hx)

theorem pageSum_start : PageSum gray width height 0 ⟨grayRow gray width 0, [], []⟩ where
  tone := {
    current := fun _ j hj => by
      rw [getD_grayRow hj]
      exact (Near.refl _).mono (Nat.zero_le 9)
    length := rfl
    errors := fun i hi => absurd hi (Nat.not_lt_zero i) }
  sum := by
    rw [unInked, Raster.droppedSum, sumFrom_grayRow, graySum]
    by_cases hh : 0 < height
    · rw [Nat.min_eq_left hh, if_pos hh]
      simp
    · rw [Nat.min_eq_right (by omega), if_neg hh, Nat.eq_zero_of_not_pos hh]
      simp

theorem graySum_next (hy : y < height) :
    graySum gray width (min (y + 2) height) = graySum gray width (min (y + 1) height) +
      sumBelow width (startRow gray width height s y).following := by
  rw [startRow, Nat.min_eq_left hy]
  by_cases hy' : y + 1 < height
  · rw [Nat.min_eq_left hy', if_pos hy', graySum, sum_range_succ, ← sumFrom_grayRow]
    rfl
  · rw [Nat.min_eq_right (by omega), if_neg hy', show height = y + 1 by omega]
    simp [sumBelow]

theorem unInked_add (hlen : s.rows.length = y) :
    unInked width (y + 1) (s.add d).rows =
      unInked width y s.rows + ((range width).filter fun x => pixel d.row x = false).card := by
  have hget : ∀ i ≤ y, (s.add d).rows.getD i [] = if i = y then d.row else s.rows.getD i [] := fun i hi =>
    getD_concat hlen _ _ hi
  rw [unInked, sum_range_succ, hget y (Nat.le_refl y), if_pos rfl, unInked]
  congr 1
  refine sum_congr rfl fun i hi => ?_
  have hlt := mem_range.mp hi
  rw [hget i hlt.le, if_neg hlt.ne]

theorem droppedSum_add (hlen : s.errors.length = y) (hd : ∀ j < width, d.errors.getD j 0 = d.errorAt id 128 j) :
    (s.add d).droppedSum width height (y + 1) = s.droppedSum width height y +
      ∑ j ∈ range width, d.errorAt id 128 j * dropped width height y j / 16 := by
  have hget : ∀ i ≤ y, (s.add d).errors.getD i [] = if i = y then d.errors else s.errors.getD i [] := fun i hi =>
    getD_concat hlen _ _ hi
  rw [Raster.droppedSum, sum_range_succ, Raster.droppedSum]
  congr 1
  · refine sum_congr rfl fun i hi => sum_congr rfl fun j _ => ?_
    have hlt := mem_range.mp hi
    rw [Raster.errorAt, hget i hlt.le, if_neg hlt.ne, Raster.errorAt]
  · refine sum_congr rfl fun j hj => ?_
    rw [Raster.errorAt, hget y (Nat.le_refl y), if_pos rfl, hd j (mem_range.mp hj)]

theorem pageSum_next (h : PageSum gray width height y s) (hs : PageInv width height y s) (hy : y < height)
    (hd : RowInv id 128 width (startRow gray width height s y) width d)
    (ht : RowTone gray width y width d)
    (hsum : RowSum width height y (startRow gray width height s y) width d) :
    PageSum gray width height (y + 1) (s.add d) where
  tone := pageTone_next h.tone hd ht
  sum := by
    have hcurrent : (if y + 1 < height then sumFrom width 0 (s.add d).current else 0) =
        sumBelow width d.following := by
      by_cases hy' : y + 1 < height
      · obtain ⟨values, hv, _⟩ := following_of_rowInv hy' hd
        rw [if_pos hy', Raster.add, hv]
        rfl
      · have hnone : d.following = none := by
          have hsome := hd.isSome
          rw [startRow, if_neg hy'] at hsome
          simpa using hsome
        rw [if_neg hy', hnone]
        rfl
    have hbefore := h.sum
    rw [if_pos hy] at hbefore
    rw [RowSum, sum_quantised hd] at hsum
    rw [graySum_next (s := s) hy, hcurrent, unInked_add hs.length, droppedSum_add h.tone.length hd.errors, hbefore]
    have hnothing : sumFrom width width d.current = 0 := by simp [sumFrom]
    have hstart : (startRow gray width height s y).current = s.current := rfl
    rw [hnothing, hstart] at hsum
    push_cast
    linarith

theorem ditherRows_tone (hgray : gray.length = width * height) {n : Nat} (hn : n ≤ height) :
    ∃ s, ditherRows id gray width height 128 n = .ok s ∧ PageInv width height n s ∧
      PageSum gray width height n s := by
  refine ditherRows_invariant id 128 (J := fun y s k d => RowTone gray width y k d ∧
    RowSum width height y (startRow gray width height s y) k d) hgray pageSum_start ?_ ?_ ?_ hn
  · intro y hy s _ hI
    exact ⟨RowTone.start hI.tone hy, rowSum_start⟩
  · intro y _ s _ _ k hk d d' hd hJ hok
    have hsome : (startRow gray width height s y).following.isSome = decide (y + 1 < height) := by
      rw [startRow]
      by_cases hy : y + 1 < height <;> simp [hy]
    exact ⟨rowTone_step hJ.1 hd.sized hk hok, rowSum_step hsome hd hJ.2 hk hok⟩
  · intro y hy s hs hI d hd hJ
    exact pageSum_next hI hs hy hd hJ.1 hJ.2

theorem bounds_of_near {values : List ℚ} {i : Nat} (hn : values.length = width)
    (h : ∀ j < width, ∃ w ≤ 16, Near w (grayAt gray width i j) (values.getD j 0)) {v : ℚ} (hv : v ∈ values) :
    -127 ≤ v ∧ v < 383 := by
  obtain ⟨j, hj, rfl⟩ := List.mem_iff_getElem.mp hv
  obtain ⟨w, hw, hnear⟩ := h j (by omega)
  rw [List.getD_eq_getElem _ _ hj] at hnear
  exact (hnear.mono hw).bounds (grayAt_nonneg ..) (grayAt_le ..)

/-- after any number of pixels of any row -/
theorem ditherRow_bounds (hgray : gray.length = width * height) (hy : y < height)
    (hs : ditherRows id gray width height 128 y = .ok s) {k : Nat} (hk : k ≤ width)
    (hd : ditherRow id 128 width k (startRow gray width height s y) = .ok d) :
    ∀ v ∈ d.current ++ d.following.getD [], -127 ≤ v ∧ v < 383 := by
  obtain ⟨s', hs', hinv, hpage⟩ := ditherRows_tone hgray (Nat.le_of_lt hy)
  obtain rfl : s = s' := Except.ok.inj (hs.symm.trans hs')
  obtain ⟨d', hd', hrow, htone⟩ := ditherRow_invariant id 128 (I := RowTone gray width y)
    (sized_startRow hgray (hinv.current hy)) rfl rfl (RowTone.start hpage.tone hy)
    (fun k hk d d' hd ht hok => rowTone_step ht hd.sized hk hok) hk
  obtain rfl : d = d' := Except.ok.inj (hd.symm.trans hd')
  intro v hv
  rcases List.mem_append.mp hv with hv | hv
  · exact bounds_of_near hrow.sized.current (fun j hj => ⟨16, Nat.le_refl 16, htone.current j hj⟩) hv
  · cases hf : d.following with
    | none =>
      rw [hf] at hv
      cases hv
    | some values =>
      rw [hf] at hv
      have hnine : ∀ j, received k j ≤ 16 := fun j => Nat.le_trans (received_le k j) (by decide)
      exact bounds_of_near (hrow.sized.following values hf)
        (fun j hj => ⟨received k j, hnine j, htone.following values hf j hj⟩) hv

end Page

/-- **Dithering keeps its errors bounded, and the tone of the page but for what the edges drop.** -/
theorem gray_to_rows_tone {gray : List UInt8} {width height : Nat} (hgray : gray.length = width * height) :
    ∃ page, ditherRows id gray width height 128 height = .ok page ∧
      grayToRows id gray width height = .ok page.rows ∧
      (∀ y < height, ∀ x < width, -127 ≤ page.errorAt y x ∧ page.errorAt y x < 128) ∧
      (∀ y < height, ∀ k ≤ width, ∀ s d, ditherRows id gray width height 128 y = .ok s →
        ditherRow id 128 width k (startRow gray width height s y) = .ok d →
        ∀ v ∈ d.current ++ d.following.getD [], -127 ≤ v ∧ v < 383) ∧
      ∑ y ∈ range height, ∑ x ∈ range width, grayAt gray width y x - 255 * unInked width height page.rows =
        ∑ y ∈ range height, ∑ x ∈ range width, page.errorAt y x * dropped width height y x / 16 := by
  obtain ⟨page, hok, _, hpage⟩ := ditherRows_tone hgray (Nat.le_refl height)
  refine ⟨page, hok, by rw [grayToRows, hok]; rfl, hpage.tone.errors, ?_, ?_⟩
  · intro y hy k hk s d hs hd
    exact ditherRow_bounds hgray hy hs hk hd
  · have hsum := hpage.sum
    rw [Nat.min_eq_right (Nat.le_succ height), if_neg (Nat.lt_irrefl height), zero_add] at hsum
    exact sub_eq_iff_eq_add'.mpr hsum

/-- three gray pixels -/
theorem gray_to_rows_tone_three :
    ∃ page, ditherRows id [100, 200, 50] 3 1 128 1 = .ok page ∧ page.errorAt 0 2 < 128 := by
  have hgray : ([100, 200, 50] : List UInt8).length = 3 * 1 := rfl
  obtain ⟨page, hok, _, herrors, _⟩ := gray_to_rows_tone hgray
  exact ⟨page, hok, (herrors 0 (by decide) 2 (by decide)).2⟩

end PrintAgent
