import PrintAgent.Lib.FloatArith

/-!
# The agent's own resource use

`metrics.py`: `UsageSampler` remembers the clock and the CPU seconds of its last sample, and gives for the time
since then the percentage of one core, rounded to two digits.  The clocks are finite floats, and what is computed
from them is rounded.

* `usage_adds_up`   over any run of samples the percentages, each for its own time, add up to the CPU seconds that
                    the agent used: a sample starts where the last one ended.
-/

namespace PrintAgent

open Double (finite)

/-- `round(x, digits)`: the float nearest to the decimal nearest to `x` -/
def roundTo (digits : Nat) : Double → Double
  | finite q => Double.nearest (roundEven (q * 10 ^ digits) / 10 ^ digits)
  | x => x

/-- `time.monotonic()` and `_cpu_seconds()` -/
structure Reading where
  wall : ℚ
  cpu : ℚ
  deriving DecidableEq, Repr

structure AgentUsage where
  cpuPercent : Option Double
  memoryMb : Option Double
  deriving DecidableEq

/-- `_last` -/
structure UsageSampler where
  last : Reading
  deriving DecidableEq, Repr

namespace UsageSampler

/-- `sample`, with what the clocks and `memory_mb` say -/
def sample (sampler : UsageSampler) (now : Reading) (memory : Option Double) : AgentUsage × UsageSampler :=
  let elapsed := FloatArith.sub (finite now.wall) (finite sampler.last.wall)
  let used := FloatArith.sub (finite now.cpu) (finite sampler.last.cpu)
  let cpuPercent := if FloatArith.lt (finite 0) elapsed then
      some (FloatArith.maxOf (finite 0) (FloatArith.mul (FloatArith.div used elapsed) (finite 100)))
    else none
  (⟨cpuPercent.map (roundTo 2), memory.map (roundTo 1)⟩, ⟨now⟩)

def samples (sampler : UsageSampler) : List (Reading × Option Double) → List AgentUsage × UsageSampler
  | [] => ([], sampler)
  | (now, memory) :: readings =>
    let first := sampler.sample now memory
    let rest := first.2.samples readings
    (first.1 :: rest.1, rest.2)

end UsageSampler

/-- the CPU seconds that the percentages stand for, each for the time since the reading before -/
def charged : Reading → List (Reading × Option Double) → List ℚ → ℚ
  | last, (now, _) :: readings, percent :: percents =>
    percent / 100 * (now.wall - last.wall) + charged now readings percents
  | _, _, _ => 0

/-- the clock goes on, by more than a part of a nanosecond, and the CPU seconds do not go back; the system counts both
in 64 bits -/
structure Later (a b : Reading) : Prop where
  wall : a.wall + 1 / 2 ^ 40 ≤ b.wall
  cpu : a.cpu ≤ b.cpu
  wall_le : b.wall ≤ a.wall + 2 ^ 64
  cpu_le : b.cpu ≤ a.cpu + 2 ^ 64

/-- what the CPU seconds may be off by: half a digit of the percentage, and the errors of the floats -/
def tolerance (a b : Reading) : ℚ :=
  (b.wall - a.wall) / 20000 + ((b.wall - a.wall) + (b.cpu - a.cpu)) / 2 ^ 48

/-! ## one sample -/

theorem nearest_eq_double {q : ℚ} (hq : 0 ≤ q) (h : q ≤ 2 ^ 200) : Double.nearest q = finite (double q) := by
  refine Double.nearest_of_le ?_
  rw [abs_of_nonneg hq]
  have hle : (2 : ℚ) ^ (200 : ℤ) ≤ 2 ^ (971 : ℤ) := zpow_le_zpow_right₀ one_le_two (by decide)
  exact h.trans hle

theorem tiny_le : (2 : ℚ) ^ (-1075 : ℤ) ≤ 1 / 2 ^ 200 := by
  have hle : (2 : ℚ) ^ (-1075 : ℤ) ≤ 2 ^ (-200 : ℤ) := zpow_le_zpow_right₀ one_le_two (by decide)
  refine hle.trans (le_of_eq ?_)
  rw [zpow_neg, one_div]
  rfl

/-- a rounded number, for a time of `k` seconds -/
theorem double_mul_near {q k : ℚ} (hq : 0 ≤ q) (hk : 0 ≤ k) :
    double q * k ≤ q * k + q * k / 2 ^ 53 + k / 2 ^ 200 ∧ q * k - q * k / 2 ^ 53 - k / 2 ^ 200 ≤ double q * k := by
  have hoff := abs_le.mp (abs_double_mul_sub_le hq hk)
  have htiny : (2 : ℚ) ^ (-1075 : ℤ) * k ≤ 1 / 2 ^ 200 * k := mul_le_mul_of_nonneg_right tiny_le hk
  rw [one_div_mul_eq_div] at htiny
  constructor <;> linarith

section
variable {e u : ℚ}

theorem elapsed_near (he : 1 / 2 ^ 40 ≤ e) : e - e / 2 ^ 52 ≤ double e ∧ double e ≤ e + e / 2 ^ 52 := by
  have hpos : (0 : ℚ) < 1 / 2 ^ 40 := by positivity
  obtain ⟨hhigh, hlow⟩ := double_mul_near (q := e) (k := 1) (hpos.le.trans he) zero_le_one
  rw [mul_one, mul_one] at hhigh hlow
  have htiny : (1 : ℚ) / 2 ^ 200 ≤ e / 2 ^ 53 := by
    have hsmall : (1 : ℚ) / 2 ^ 200 ≤ 1 / 2 ^ 40 / 2 ^ 53 := by norm_num
    exact hsmall.trans (div_le_div_of_nonneg_right he (by positivity))
  constructor <;> linarith

/-- the share of a core, for the time between the readings -/
theorem share_near (he : 1 / 2 ^ 40 ≤ e) (hu : 0 ≤ u) :
    double u / double e * e ≤ u + u / 2 ^ 50 + e / 2 ^ 100 ∧
    u - u / 2 ^ 50 - e / 2 ^ 100 ≤ double u / double e * e := by
  have hpos : (0 : ℚ) < 1 / 2 ^ 40 := by positivity
  have hepos : 0 < e := hpos.trans_le he
  obtain ⟨hlow, hhigh⟩ := elapsed_near he
  have hread : 0 < double e := by linarith
  obtain ⟨huhigh, hulow⟩ := double_mul_near hu (zero_le_one (α := ℚ))
  rw [mul_one, mul_one] at huhigh hulow
  have husize : 0 ≤ double u := double_nonneg hu
  have hratio : e / double e ≤ 1 + 1 / 2 ^ 51 ∧ 1 - 1 / 2 ^ 51 ≤ e / double e := by
    rw [div_le_iff₀ hread, le_div_iff₀ hread]
    constructor <;> linarith
  have hcomm : double u / double e * e = double u * (e / double e) := by ring
  have hupper := mul_le_mul_of_nonneg_left hratio.1 husize
  have hlower := mul_le_mul_of_nonneg_left hratio.2 husize
  have htiny : (1 : ℚ) / 2 ^ 200 ≤ e / 2 ^ 160 := by
    have hsmall : (1 : ℚ) / 2 ^ 200 ≤ 1 / 2 ^ 40 / 2 ^ 160 := by norm_num
    exact hsmall.trans (div_le_div_of_nonneg_right he (by positivity))
  rw [hcomm]
  constructor <;> linarith

/-- `elapsed` and `used` are read, divided, taken times 100 and rounded -/
def share (e u : ℚ) : ℚ := double (double u / double e)

def percentage (e u : ℚ) : ℚ := double (share e u * 100)

def roundedPercentage (e u : ℚ) : ℚ := double (roundEven (percentage e u * 10 ^ 2) / 10 ^ 2)

theorem share_nonneg (he : 0 ≤ e) (hu : 0 ≤ u) : 0 ≤ share e u :=
  double_nonneg (div_nonneg (double_nonneg hu) (double_nonneg he))

theorem percentage_nonneg (he : 0 ≤ e) (hu : 0 ≤ u) : 0 ≤ percentage e u :=
  double_nonneg (mul_nonneg (share_nonneg he hu) (by norm_num))

theorem digits_near {q k : ℚ} (hk : 0 ≤ k) :
    (roundEven (q * 10 ^ 2) : ℚ) / 10 ^ 2 * k ≤ q * k + k / 200 ∧
    q * k - k / 200 ≤ (roundEven (q * 10 ^ 2) : ℚ) / 10 ^ 2 * k := by
  obtain ⟨hlow, hhigh⟩ := abs_le.mp (abs_roundEven_sub_le (q * 10 ^ 2))
  have hupper : (roundEven (q * 10 ^ 2) : ℚ) / 10 ^ 2 ≤ q + 1 / 200 := by
    rw [div_le_iff₀ (by norm_num)]
    linarith
  have hlower : q - 1 / 200 ≤ (roundEven (q * 10 ^ 2) : ℚ) / 10 ^ 2 := by
    rw [le_div_iff₀ (by norm_num)]
    linarith
  have hup := mul_le_mul_of_nonneg_right hupper hk
  have hdown := mul_le_mul_of_nonneg_right hlower hk
  constructor <;> linarith

theorem digits_nonneg {q : ℚ} (hq : 0 ≤ q) : (0 : ℚ) ≤ (roundEven (q * 10 ^ 2) : ℚ) / 10 ^ 2 := by
  have hsize : ((0 : ℤ) : ℚ) ≤ q * 10 ^ 2 := by
    rw [Int.cast_zero]
    exact mul_nonneg hq (by norm_num)
  exact div_nonneg (Int.cast_nonneg (le_roundEven_of_le hsize)) (by norm_num)

/-- **What one percentage stands for** is the CPU seconds used, but for the last digit and the errors of the floats. -/
theorem rounded_near (he : 1 / 2 ^ 40 ≤ e) (hu : 0 ≤ u) :
    |roundedPercentage e u / 100 * e - u| ≤ e / 20000 + (e + u) / 2 ^ 48 := by
  have hpos : (0 : ℚ) < 1 / 2 ^ 40 := by positivity
  have hnonneg : 0 ≤ e := (hpos.trans_le he).le
  have hpart : 0 ≤ e / 100 := by positivity
  obtain ⟨hshareHigh, hshareLow⟩ := share_near he hu
  obtain ⟨hdivHigh, hdivLow⟩ :=
    double_mul_near (div_nonneg (double_nonneg hu) (double_nonneg hnonneg)) hnonneg
  obtain ⟨hmulHigh, hmulLow⟩ :=
    double_mul_near (mul_nonneg (share_nonneg hnonneg hu) (by norm_num : (0 : ℚ) ≤ 100)) hpart
  obtain ⟨hdigitsHigh, hdigitsLow⟩ := digits_near (q := percentage e u) hpart
  obtain ⟨hlastHigh, hlastLow⟩ := double_mul_near (digits_nonneg (percentage_nonneg hnonneg hu)) hpart
  have hcancel : share e u * 100 * (e / 100) = share e u * e := by ring
  have hlast : roundedPercentage e u / 100 * e = roundedPercentage e u * (e / 100) := by ring
  change share e u * e ≤ _ at hdivHigh
  change _ ≤ share e u * e at hdivLow
  rw [hcancel] at hmulHigh hmulLow
  change percentage e u * (e / 100) ≤ _ at hmulHigh
  change _ ≤ percentage e u * (e / 100) at hmulLow
  rw [hlast, abs_le]
  change roundedPercentage e u * (e / 100) ≤ _ at hlastHigh
  change _ ≤ roundedPercentage e u * (e / 100) at hlastLow
  constructor <;> linarith

theorem double_le {q b : ℚ} (hq : 0 ≤ q) (h : q ≤ b) : double q ≤ 2 * b + 1 := by
  obtain ⟨hhigh, -⟩ := double_mul_near hq (zero_le_one (α := ℚ))
  rw [mul_one, mul_one] at hhigh
  linarith

/-- nothing in a sample is too large for a float -/
theorem steps_finite (he : 1 / 2 ^ 40 ≤ e) (heLe : e ≤ 2 ^ 64) (hu : 0 ≤ u) (huLe : u ≤ 2 ^ 64) :
    Double.nearest e = finite (double e) ∧ Double.nearest u = finite (double u) ∧
    Double.nearest (double u / double e) = finite (share e u) ∧
    Double.nearest (share e u * 100) = finite (percentage e u) ∧
    Double.nearest (roundEven (percentage e u * 10 ^ 2) / 10 ^ 2) = finite (roundedPercentage e u) := by
  have hpos : (0 : ℚ) < 1 / 2 ^ 40 := by positivity
  have hnonneg : 0 ≤ e := (hpos.trans_le he).le
  obtain ⟨hlow, -⟩ := elapsed_near he
  have hread : 1 / 2 ^ 41 ≤ double e := by linarith
  have hquotNonneg : 0 ≤ double u / double e := div_nonneg (double_nonneg hu) (double_nonneg hnonneg)
  have hquot : double u / double e ≤ 2 ^ 107 := by
    have hused := double_le hu huLe
    rw [div_le_iff₀ (by linarith)]
    linarith
  have hshareNonneg := share_nonneg hnonneg hu
  have hshare : share e u ≤ 2 ^ 109 := (double_le hquotNonneg hquot).trans (by norm_num)
  have hpercentNonneg := percentage_nonneg hnonneg hu
  have hpercent : percentage e u ≤ 2 ^ 118 :=
    (double_le (mul_nonneg hshareNonneg (by norm_num)) (b := 2 ^ 116) (by linarith)).trans (by norm_num)
  obtain ⟨hdigits, -⟩ := digits_near (q := percentage e u) (zero_le_one (α := ℚ))
  rw [mul_one, mul_one] at hdigits
  have hdigitsNonneg : (0 : ℚ) ≤ (roundEven (percentage e u * 10 ^ 2) : ℚ) / 10 ^ 2 := digits_nonneg hpercentNonneg
  refine ⟨nearest_eq_double hnonneg (by linarith), nearest_eq_double hu (by linarith),
    nearest_eq_double hquotNonneg (by linarith),
    nearest_eq_double (mul_nonneg hshareNonneg (by norm_num)) (by linarith),
    nearest_eq_double hdigitsNonneg (by linarith)⟩

end

section
variable {sampler : UsageSampler} {now : Reading}

theorem cpuPercent_sample (memory : Option Double) (h : Later sampler.last now) :
    (sampler.sample now memory).1.cpuPercent =
      some (finite (roundedPercentage (now.wall - sampler.last.wall) (now.cpu - sampler.last.cpu))) := by
  have hwall := h.wall
  have hcpu := h.cpu
  have hwallLe := h.wall_le
  have hcpuLe := h.cpu_le
  have he : 1 / 2 ^ 40 ≤ now.wall - sampler.last.wall := by linarith
  have hpos : (0 : ℚ) < 1 / 2 ^ 40 := by positivity
  obtain ⟨hlow, -⟩ := elapsed_near he
  have hread : 0 < double (now.wall - sampler.last.wall) := by linarith
  obtain ⟨helapsed, hused, hshare, hpercent, hrounded⟩ :=
    steps_finite he (by linarith) (u := now.cpu - sampler.last.cpu) (by linarith) (by linarith)
  have helapsed' : FloatArith.sub (finite now.wall) (finite sampler.last.wall)
      = finite (double (now.wall - sampler.last.wall)) := by
    show Double.nearest (now.wall + -sampler.last.wall) = _
    rw [← sub_eq_add_neg, helapsed]
  have hused' : FloatArith.sub (finite now.cpu) (finite sampler.last.cpu)
      = finite (double (now.cpu - sampler.last.cpu)) := by
    show Double.nearest (now.cpu + -sampler.last.cpu) = _
    rw [← sub_eq_add_neg, hused]
  have hdiv : FloatArith.mul (FloatArith.div (finite (double (now.cpu - sampler.last.cpu)))
      (finite (double (now.wall - sampler.last.wall)))) (finite 100)
      = finite (percentage (now.wall - sampler.last.wall) (now.cpu - sampler.last.cpu)) := by
    show Double.mul (Double.nearest _) (finite 100) = _
    rw [hshare]
    exact hpercent
  have hmax : FloatArith.maxOf (finite 0)
      (finite (percentage (now.wall - sampler.last.wall) (now.cpu - sampler.last.cpu)))
      = finite (percentage (now.wall - sampler.last.wall) (now.cpu - sampler.last.cpu)) := by
    have hsize := percentage_nonneg (hpos.trans_le he).le (u := now.cpu - sampler.last.cpu) (by linarith)
    show (if decide (_ < _) = true then _ else _) = _
    split
    · rfl
    · rename_i hle
      rw [decide_eq_true_eq] at hle
      exact congrArg finite (le_antisymm hsize (not_lt.mp hle))
  have hlater : FloatArith.lt (finite 0) (finite (double (now.wall - sampler.last.wall))) = true :=
    decide_eq_true hread
  show Option.map _ (if _ then _ else none) = _
  rw [helapsed', hused', hdiv, hmax, if_pos hlater]
  exact congrArg some hrounded

theorem sample_charges (memory : Option Double) (h : Later sampler.last now) :
    ∃ percent, (sampler.sample now memory).1.cpuPercent = some (finite percent) ∧
      |percent / 100 * (now.wall - sampler.last.wall) - (now.cpu - sampler.last.cpu)| ≤ tolerance sampler.last now := by
  have hwall := h.wall
  have hcpu := h.cpu
  exact ⟨_, cpuPercent_sample memory h, rounded_near (by linarith) (by linarith)⟩

end

/-- **No CPU second is lost or charged twice.**  Over any run of samples, whatever the memory readings are, each has a
percentage, and the percentages add up to the CPU seconds used, but for their last digits and the errors of the
floats. -/
theorem usage_adds_up (sampler : UsageSampler) (readings : List (Reading × Option Double))
    (h : List.IsChain Later (sampler.last :: readings.map Prod.fst)) :
    ∃ percents : List ℚ,
      (sampler.samples readings).1.map AgentUsage.cpuPercent = percents.map (fun percent => some (finite percent)) ∧
      |charged sampler.last readings percents - ((sampler.samples readings).2.last.cpu - sampler.last.cpu)|
        ≤ tolerance sampler.last (sampler.samples readings).2.last := by
  induction readings generalizing sampler with
  | nil =>
    refine ⟨[], rfl, ?_⟩
    show |(0 : ℚ) - (sampler.last.cpu - sampler.last.cpu)| ≤ tolerance sampler.last sampler.last
    simp [tolerance]
  | cons reading readings ih =>
    obtain ⟨now, memory⟩ := reading
    obtain ⟨hfirst, hrest⟩ := List.isChain_cons_cons.mp h
    obtain ⟨percent, hpercent, hone⟩ := sample_charges memory hfirst
    obtain ⟨percents, hpercents, hmore⟩ := ih ⟨now⟩ hrest
    refine ⟨percent :: percents, ?_, ?_⟩
    · show (sampler.sample now memory).1.cpuPercent :: _ = _
      rw [hpercent]
      exact congrArg _ hpercents
    · show |percent / 100 * (now.wall - sampler.last.wall) + charged now readings percents
          - (((⟨now⟩ : UsageSampler).samples readings).2.last.cpu - sampler.last.cpu)|
          ≤ tolerance sampler.last ((⟨now⟩ : UsageSampler).samples readings).2.last
      change |charged now readings percents - (((⟨now⟩ : UsageSampler).samples readings).2.last.cpu - now.cpu)|
          ≤ tolerance now ((⟨now⟩ : UsageSampler).samples readings).2.last at hmore
      unfold tolerance at hone hmore ⊢
      rw [abs_le] at hone hmore ⊢
      constructor <;> linarith

/-- three samples of a third of a core -/
theorem usage_adds_up_thirds : ∃ percents : List ℚ,
    ((⟨⟨0, 0⟩⟩ : UsageSampler).samples [(⟨60, 20⟩, none), (⟨120, 40⟩, none), (⟨180, 60⟩, some (finite 45))]).1.map
      AgentUsage.cpuPercent = percents.map (fun percent => some (finite percent)) ∧
    |charged ⟨0, 0⟩ [(⟨60, 20⟩, none), (⟨120, 40⟩, none), (⟨180, 60⟩, some (finite 45))] percents - 60|
      ≤ 180 / 20000 + (180 + 60) / 2 ^ 48 := by
  obtain ⟨percents, hpercents, hall⟩ := usage_adds_up ⟨⟨0, 0⟩⟩
    [(⟨60, 20⟩, none), (⟨120, 40⟩, none), (⟨180, 60⟩, some (finite 45))]
    (.cons_cons ⟨by norm_num, by norm_num, by norm_num, by norm_num⟩
      (.cons_cons ⟨by norm_num, by norm_num, by norm_num, by norm_num⟩
        (.cons_cons ⟨by norm_num, by norm_num, by norm_num, by norm_num⟩ (.singleton _))))
  refine ⟨percents, hpercents, ?_⟩
  have hthirds : |charged ⟨0, 0⟩ [(⟨60, 20⟩, none), (⟨120, 40⟩, none), (⟨180, 60⟩, some (finite 45))] percents
      - (60 - 0)| ≤ (180 - 0) / 20000 + ((180 - 0) + (60 - 0)) / 2 ^ 48 := hall
  rwa [sub_zero, sub_zero] at hthirds

/-- the float for 2.675 is below it -/
example : ((⟨⟨0, 0⟩⟩ : UsageSampler).sample ⟨1000, 26.75⟩ none).1.cpuPercent = some (Double.nearest 2.67) := by
  decide +kernel

end PrintAgent
