import RefractContracts.Host.Outcome

/-! The premium curve of the backstop. Utilization in basis points is mapped to a premium
multiplier: a line with one kink, clamped to the bounds of the curve. The line is summed
up before the clamp, and validation bounds every parameter but the base. -/

namespace RefractContracts.Backstop

open Host

/-- A multiplier of 1.0. -/
def one : ℤ := 10000000

def maxUtilizationBps : ℤ := 10000

def maxMultiplier : ℤ := 10 * one

structure PremiumCurve where
  kinkBps : ℤ
  base : ℤ
  slopeLow : ℤ
  slopeHigh : ℤ
  minMultiplier : ℤ
  maxMultiplier : ℤ
  deriving DecidableEq, Repr

/-- Arithmetic that answers or traps. -/
abbrev Arith (α : Type) := Outcome Empty α

/-- `i128::clamp`. -/
def clamp (x lo hi : ℤ) : Arith ℤ := do
  demand (lo ≤ hi)
  pure (if x < lo then lo else if hi < x then hi else x)

namespace PremiumCurve

/-- A curve that leaves the premium share as it is. -/
def flat : PremiumCurve := ⟨0, one, 0, 0, one, one⟩

/-- Whether the parameters are inside the hard bounds. -/
def isValid (curve : PremiumCurve) : Bool :=
  (0 ≤ curve.kinkBps ∧ curve.kinkBps ≤ maxUtilizationBps) ∧
    (0 ≤ curve.slopeLow ∧ curve.slopeLow ≤ one) ∧
    (0 ≤ curve.slopeHigh ∧ curve.slopeHigh ≤ one) ∧
    0 ≤ curve.base ∧
    (0 ≤ curve.minMultiplier ∧ curve.minMultiplier ≤ Backstop.maxMultiplier) ∧
    (0 ≤ curve.maxMultiplier ∧ curve.maxMultiplier ≤ Backstop.maxMultiplier) ∧
    curve.minMultiplier ≤ curve.maxMultiplier

def multiplier (curve : PremiumCurve) (utilizationBps : ℤ) : Arith ℤ := do
  let utilization ← clamp utilizationBps 0 maxUtilizationBps
  let belowKink := min utilization curve.kinkBps
  let aboveKink := max (← i128 (utilization - curve.kinkBps)) 0
  let low ← i128 (curve.base + (← i128 (curve.slopeLow * belowKink)))
  let raw ← i128 (low + (← i128 (curve.slopeHigh * aboveKink)))
  clamp raw curve.minMultiplier curve.maxMultiplier

end PremiumCurve

/-- Utilization in basis points, capped at full. -/
def utilizationBps (exposure totalCapital : ℤ) : ℤ :=
  if exposure ≤ 0 then 0
  else if totalCapital ≤ 0 then maxUtilizationBps
  else
    let scaled := i128SaturatingMul exposure maxUtilizationBps
    min ((i128CheckedDiv scaled totalCapital).getD maxUtilizationBps) maxUtilizationBps

/-! ### The line -/

theorem clamp_eq {lo hi : ℤ} (h : lo ≤ hi) (x : ℤ) : clamp x lo hi = .ok (max lo (min x hi)) := by
  rw [clamp, demand, if_pos h, ok_bind]
  congr 1
  split_ifs <;> omega

namespace PremiumCurve

variable {curve : PremiumCurve} {u v : ℤ}

/-- How far the line is above its base. -/
def rise (curve : PremiumCurve) (u : ℤ) : ℤ :=
  let utilization := max 0 (min u maxUtilizationBps)
  curve.slopeLow * min utilization curve.kinkBps +
    curve.slopeHigh * max (utilization - curve.kinkBps) 0

/-- The line never falls, as both slopes are nonnegative. -/
theorem rise_mono (hlow : 0 ≤ curve.slopeLow) (hhigh : 0 ≤ curve.slopeHigh) :
    Monotone curve.rise := by
  intro u v huv
  have hclamp : max 0 (min u maxUtilizationBps) ≤ max 0 (min v maxUtilizationBps) := by gcongr
  have hlower := mul_le_mul_of_nonneg_left (min_le_min_right curve.kinkBps hclamp) hlow
  have habove := sub_le_sub_right hclamp curve.kinkBps
  exact add_le_add hlower (mul_le_mul_of_nonneg_left (max_le_max_right 0 habove) hhigh)

/-- At full utilization the line has risen over both parts. -/
theorem rise_full (hkink : 0 ≤ curve.kinkBps ∧ curve.kinkBps ≤ maxUtilizationBps) :
    curve.rise maxUtilizationBps =
      curve.slopeLow * curve.kinkBps + curve.slopeHigh * (maxUtilizationBps - curve.kinkBps) := by
  have hmax : (0 : ℤ) ≤ maxUtilizationBps := by decide
  simp only [rise, min_self, max_eq_right hmax, min_eq_right hkink.2,
    max_eq_left (sub_nonneg.mpr hkink.2)]

theorem rise_le_full (hlow : 0 ≤ curve.slopeLow) (hhigh : 0 ≤ curve.slopeHigh) (u : ℤ) :
    curve.rise u ≤ curve.rise maxUtilizationBps := by
  have hcut : curve.rise u = curve.rise (min u maxUtilizationBps) := by
    unfold rise
    rw [min_assoc, min_self]
  rw [hcut]
  exact rise_mono hlow hhigh (min_le_right _ _)

/-- A part of the line rises by no more than the steepest one. -/
theorem part_bounds {slope run : ℤ} (hslope : 0 ≤ slope ∧ slope ≤ one)
    (hrun : 0 ≤ run ∧ run ≤ maxUtilizationBps) : 0 ≤ slope * run ∧ slope * run ≤ maxI128 := by
  refine ⟨mul_nonneg hslope.1 hrun.1, ?_⟩
  calc slope * run ≤ one * maxUtilizationBps := mul_le_mul hslope.2 hrun.2 hrun.1 (by decide)
    _ ≤ maxI128 := by decide

/-- The sum of the line and the clamp: both parts fit, so the sums fit if the last does. -/
theorem line_eq {base low high lo hi : ℤ} (hbase : 0 ≤ base) (hlow : 0 ≤ low ∧ low ≤ maxI128)
    (hhigh : 0 ≤ high ∧ high ≤ maxI128) (hbounds : lo ≤ hi) : (do
      let lower ← i128 (base + (← i128 low))
      let raw ← i128 (lower + (← i128 high))
      clamp raw lo hi : Arith ℤ) =
    if base + (low + high) ≤ maxI128 then .ok (max lo (min (base + (low + high)) hi))
    else .error .trap := by
  rw [i128_of_nonneg hlow.1 hlow.2, ok_bind]
  by_cases hfits : base + (low + high) ≤ maxI128
  · rw [i128_of_nonneg (x := base + low) (by omega) (by omega), ok_bind,
      i128_of_nonneg hhigh.1 hhigh.2, ok_bind,
      i128_of_nonneg (x := base + low + high) (by omega) (by omega), ok_bind, clamp_eq hbounds,
      if_pos hfits, add_assoc]
  · rw [if_neg hfits, i128]
    split_ifs
    · rw [ok_bind, i128_of_nonneg hhigh.1 hhigh.2, ok_bind, i128, if_neg (by omega)]
      rfl
    · rfl

/-- The multiplier is the clamped line, where the line fits. -/
theorem multiplier_eq (valid : curve.isValid = true) (u : ℤ) : curve.multiplier u =
    if curve.base + curve.rise u ≤ maxI128 then
      .ok (max curve.minMultiplier (min (curve.base + curve.rise u) curve.maxMultiplier))
    else .error .trap := by
  simp only [isValid, decide_eq_true_eq] at valid
  obtain ⟨hkink, hlow, hhigh, hbase, -, -, hbounds⟩ := valid
  simp only [multiplier, rise]
  rw [clamp_eq (by decide), ok_bind]
  have hmax : maxUtilizationBps = 10000 := rfl
  have hI := maxI128_eq
  have hi := minI128_eq
  rw [(i128_eq_ok _ _).mpr ⟨⟨by omega, by omega⟩, rfl⟩, ok_bind]
  exact line_eq hbase (part_bounds hlow (by omega)) (part_bounds hhigh (by omega)) hbounds

/-- For two utilizations the multiplier answers, does not decrease and stays between the
bounds of the curve. -/
def Lawful (curve : PremiumCurve) (u v : ℤ) : Prop :=
  ∃ m n, curve.multiplier u = .ok m ∧ curve.multiplier v = .ok n ∧ m ≤ n ∧
    (curve.minMultiplier ≤ m ∧ m ≤ curve.maxMultiplier) ∧
    (curve.minMultiplier ≤ n ∧ n ≤ curve.maxMultiplier)

/-- The curve is lawful up to a utilization where its line fits, and for all utilizations
if it fits at full utilization: the base is not bounded. -/
theorem lawful_iff (curve : PremiumCurve) (valid : curve.isValid = true) :
    (∀ u v, u ≤ v → (curve.Lawful u v ↔ curve.base + curve.rise v ≤ maxI128)) ∧
      ((∀ u v, u ≤ v → curve.Lawful u v) ↔
        curve.base + (curve.slopeLow * curve.kinkBps +
          curve.slopeHigh * (maxUtilizationBps - curve.kinkBps)) ≤ maxI128) := by
  have hmultiplier := multiplier_eq valid
  simp only [isValid, decide_eq_true_eq] at valid
  obtain ⟨hkink, ⟨hlow, -⟩, ⟨hhigh, -⟩, -, -, -, hbounds⟩ := valid
  have hmono := rise_mono hlow hhigh
  have hiff : ∀ u v, u ≤ v → (curve.Lawful u v ↔ curve.base + curve.rise v ≤ maxI128) := by
    intro u v huv
    have hrise := hmono huv
    constructor
    · rintro ⟨-, n, -, hn, -⟩
      rw [hmultiplier] at hn
      split_ifs at hn with hfits
      exact hfits
    · intro hfits
      refine ⟨_, _, (hmultiplier u).trans (if_pos (by omega)), (hmultiplier v).trans (if_pos hfits),
        ?_, ⟨le_max_left _ _, by omega⟩, ⟨le_max_left _ _, by omega⟩⟩
      gcongr
  refine ⟨hiff, ?_⟩
  rw [← rise_full hkink]
  constructor
  · intro h
    exact (hiff _ _ le_rfl).mp (h maxUtilizationBps maxUtilizationBps le_rfl)
  · intro hfull u v huv
    have hle := rise_le_full hlow hhigh v
    exact (hiff u v huv).mpr (by omega)

/-- The flat curve leaves the premium share as it is at every utilization. -/
theorem flat_multiplier (u : ℤ) : flat.multiplier u = .ok one := by
  have hrise : flat.rise u = 0 := by simp [rise, flat]
  rw [multiplier_eq (by decide), hrise, if_pos (by decide)]
  rfl

/-- A curve inside the hard bounds with the largest base and a line that rises. -/
def unbounded : PremiumCurve := ⟨5000, maxI128, 1, 0, one, Backstop.maxMultiplier⟩

theorem unbounded_unlawful : unbounded.isValid = true ∧ unbounded.multiplier 1 = .error .trap ∧
    ¬ unbounded.Lawful 0 1 := by
  have htrap : unbounded.multiplier 1 = .error .trap := by decide
  refine ⟨by decide, htrap, ?_⟩
  rintro ⟨-, n, -, hn, -⟩
  rw [htrap] at hn
  cases hn

/-- A curve with a kink at half utilization. -/
def kinked : PremiumCurve := ⟨5000, one, 10000, 40000, one, Backstop.maxMultiplier⟩

theorem lawful_iff_kinked : kinked.isValid = true ∧ kinked.Lawful 5000 6000 :=
  ⟨by decide, ((kinked.lawful_iff (by decide)).1 5000 6000 (by decide)).mpr (by decide)⟩

end PremiumCurve

/-! ### Utilization -/

/-- A quotient of a value that is cut off is exact as long as the largest multiple of the
divisor in the value is not cut off. -/
theorem min_ediv_eq_iff {x bound t : ℤ} (ht : 0 < t) :
    min x bound / t = x / t ↔ x - x % t ≤ bound := by
  have hmultiple : x / t * t = x - x % t := by
    have hdiv := Int.mul_ediv_add_emod x t
    rw [mul_comm] at hdiv
    omega
  rw [← hmultiple]
  constructor
  · intro h
    rw [← h]
    exact (Int.ediv_mul_le _ ht.ne').trans (min_le_right _ _)
  · intro h
    apply le_antisymm (Int.ediv_le_ediv ht (min_le_left _ _))
    exact (Int.le_ediv_iff_mul_le ht).mpr (le_min (Int.ediv_mul_le x ht.ne') h)

/-- The scaled exposure saturates before it is divided. -/
theorem utilizationBps_eq {exposure totalCapital : ℤ} (he : 0 < exposure) (ht : 0 < totalCapital) :
    utilizationBps exposure totalCapital =
      min (min (exposure * maxUtilizationBps) maxI128 / totalCapital) maxUtilizationBps := by
  have hmin := minI128_le_zero
  have hscaled : 0 ≤ min (exposure * maxUtilizationBps) maxI128 :=
    le_min (mul_nonneg he.le (by decide)) zero_le_maxI128
  have hquot : min (exposure * maxUtilizationBps) maxI128 / totalCapital ≤ maxI128 :=
    (Int.ediv_le_self _ hscaled).trans (min_le_right _ _)
  have hquot' := Int.ediv_nonneg hscaled ht.le
  have hdiv : i128CheckedDiv (min (exposure * maxUtilizationBps) maxI128) totalCapital =
      some (min (exposure * maxUtilizationBps) maxI128 / totalCapital) := by
    rw [i128CheckedDiv, if_neg ht.ne', Int.tdiv_eq_ediv_of_nonneg hscaled]
    exact i128Option_of_nonneg hquot' hquot
  simp only [utilizationBps, if_neg he.not_ge, if_neg ht.not_ge, i128SaturatingMul,
    max_eq_right (hmin.trans hscaled), hdiv, Option.getD_some]

/-- Utilization is the capped quotient of the integers exactly when the quotient of the
largest value is capped, or the exposure is scaled without losing a multiple of the capital. -/
theorem utilizationBps_exact_iff {exposure totalCapital : ℤ} (he : 0 < exposure)
    (ht : 0 < totalCapital) :
    utilizationBps exposure totalCapital =
        min maxUtilizationBps (exposure * maxUtilizationBps / totalCapital) ↔
      totalCapital * maxUtilizationBps ≤ maxI128 ∨
        exposure * maxUtilizationBps - exposure * maxUtilizationBps % totalCapital ≤ maxI128 := by
  rw [utilizationBps_eq he ht, ← min_ediv_eq_iff ht, min_comm]
  have hle : min (exposure * maxUtilizationBps) maxI128 / totalCapital ≤
      exposure * maxUtilizationBps / totalCapital := Int.ediv_le_ediv ht (min_le_left _ _)
  have hcapped : maxUtilizationBps ≤ maxI128 / totalCapital ↔
      totalCapital * maxUtilizationBps ≤ maxI128 := by
    rw [Int.le_ediv_iff_mul_le ht, mul_comm]
  rw [← hcapped]
  rcases le_total (exposure * maxUtilizationBps) maxI128 with hfits | hcut
  · rw [min_eq_left hfits]
    simp
  · rw [min_eq_right hcut] at hle ⊢
    omega

/-- The largest exposure to as much capital is one basis point. -/
theorem full_utilization_misread : utilizationBps maxI128 maxI128 = 1 ∧
    utilizationBps maxI128 maxI128 ≠
      min maxUtilizationBps (maxI128 * maxUtilizationBps / maxI128) := by
  decide

theorem utilizationBps_exact_iff_half : utilizationBps 500 1000 =
    min maxUtilizationBps (500 * maxUtilizationBps / 1000) :=
  (utilizationBps_exact_iff (by decide) (by decide)).mpr (.inl (by decide))

end RefractContracts.Backstop
