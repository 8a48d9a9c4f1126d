import RefractContracts.Host.Outcome

/-! The payout fee: the gross amount splits into a floored fee and the net rest,
computed from the whole units and the remainder apart so that no product is larger
than the fee needs. -/

namespace RefractContracts.Math

open Host

def maxFeeBps : ℕ := 1000

def bpsDenominator : ℤ := 10000

/-- The net amount and the fee, or `none` for a negative amount or a rate over the cap. -/
def assessFee (gross : ℤ) (feeBps : ℕ) : Option (ℤ × ℤ) :=
  if gross < 0 ∨ maxFeeBps < feeBps then none
  else do
    let whole ← i128Option (gross.tdiv bpsDenominator * feeBps)
    let part ← i128Option (gross.tmod bpsDenominator * feeBps)
    let fee ← i128Option (whole + part.tdiv bpsDenominator)
    let net ← i128Option (gross - fee)
    some (net, fee)

/-! ### The fee -/

section Exact
variable {gross net fee : ℤ} {feeBps : ℕ}

/-- The fees on the whole units and on the remainder add up to the floored product. -/
theorem fee_split (feeBps : ℕ) (hgross : 0 ≤ gross) : gross.tdiv bpsDenominator * feeBps +
    (gross.tmod bpsDenominator * feeBps).tdiv bpsDenominator = gross * feeBps / bpsDenominator := by
  have hB : (0 : ℤ) < bpsDenominator := by decide
  have hmod : 0 ≤ gross.tmod bpsDenominator * feeBps :=
    mul_nonneg (Int.tmod_nonneg _ hgross) (by positivity)
  have hsplit := Int.mul_tdiv_add_tmod gross bpsDenominator
  have hprod : gross * feeBps = gross.tmod bpsDenominator * feeBps +
      bpsDenominator * (gross.tdiv bpsDenominator * feeBps) := by
    rw [← mul_assoc, ← add_mul, add_comm, hsplit]
  rw [hprod, Int.add_mul_ediv_left _ _ hB.ne', Int.tdiv_eq_ediv_of_nonneg hmod, add_comm]

/-- The fee is never larger than the amount it is taken from. -/
theorem fee_bounds (hgross : 0 ≤ gross) (hrate : feeBps ≤ maxFeeBps) :
    0 ≤ gross * feeBps / bpsDenominator ∧ gross * feeBps / bpsDenominator ≤ gross := by
  have hB : (0 : ℤ) < bpsDenominator := by decide
  have hcap : (feeBps : ℤ) ≤ 10000 := by exact_mod_cast hrate.trans (by decide)
  exact ⟨Int.ediv_nonneg (by positivity) hB.le,
    Int.ediv_le_of_le_mul hB (mul_le_mul_of_nonneg_left hcap hgross)⟩

/-- The fee is the floored product, and the net amount what it leaves. -/
theorem assessFee_some (h : assessFee gross feeBps = some (net, fee)) :
    fee = gross * feeBps / bpsDenominator ∧ net + fee = gross ∧ 0 ≤ fee ∧ 0 ≤ net := by
  unfold assessFee at h
  split_ifs at h with hguard
  simp only [Option.bind_eq_bind, Option.bind_eq_some_iff, i128Option_eq_some, Option.some.injEq,
    Prod.mk.injEq] at h
  obtain ⟨_, ⟨-, rfl⟩, _, ⟨-, rfl⟩, _, ⟨-, rfl⟩, _, ⟨-, rfl⟩, rfl, rfl⟩ := h
  obtain ⟨hgross, hrate⟩ : 0 ≤ gross ∧ feeBps ≤ maxFeeBps := by simpa [not_or] using hguard
  obtain ⟨hfee, hle⟩ := fee_bounds hgross hrate
  rw [fee_split feeBps hgross]
  exact ⟨rfl, by ring, hfee, by omega⟩

/-- No step of the assessment leaves the range. -/
theorem assessFee_eq_some (hgross : 0 ≤ gross) (hmax : gross ≤ maxI128)
    (hrate : feeBps ≤ maxFeeBps) : assessFee gross feeBps =
      some (gross - gross * feeBps / bpsDenominator, gross * feeBps / bpsDenominator) := by
  obtain ⟨hfee, hle⟩ := fee_bounds hgross hrate
  have hsplit := fee_split feeBps hgross
  have hwhole : 0 ≤ gross.tdiv bpsDenominator * feeBps :=
    mul_nonneg (Int.tdiv_nonneg hgross (by decide)) (by positivity)
  have hmod : 0 ≤ gross.tmod bpsDenominator * feeBps :=
    mul_nonneg (Int.tmod_nonneg _ hgross) (by positivity)
  have hpart := Int.tdiv_nonneg hmod (by decide : 0 ≤ bpsDenominator)
  have hrest : gross.tmod bpsDenominator * feeBps ≤ maxI128 :=
    calc gross.tmod bpsDenominator * feeBps
        ≤ bpsDenominator * maxFeeBps := mul_le_mul (Int.tmod_lt_of_pos _ (by decide)).le
          (by exact_mod_cast hrate) (by positivity) (by decide)
      _ ≤ maxI128 := by decide
  have hguard : ¬(gross < 0 ∨ maxFeeBps < feeBps) := by omega
  rw [assessFee, if_neg hguard, i128Option_of_nonneg hwhole (by omega),
    i128Option_of_nonneg hmod hrest]
  simp only [Option.bind_eq_bind, Option.bind_some, hsplit]
  rw [i128Option_of_nonneg hfee (by omega), Option.bind_some,
    i128Option_of_nonneg (by omega) (by omega), Option.bind_some]

/-- Every amount and every rate up to the cap are assessed, exactly, and a larger amount or
rate has no smaller fee. -/
theorem assessFee_exact (gross : I128) (hgross : 0 ≤ gross.1) (hrate : feeBps ≤ maxFeeBps) :
    ∃ net fee, assessFee gross feeBps = some (net, fee) ∧
      fee = gross * feeBps / bpsDenominator ∧ net + fee = gross ∧
      ∀ (gross' : I128) (feeBps' : ℕ), gross.1 ≤ gross' → feeBps ≤ feeBps' →
        ∀ net' fee', assessFee gross' feeBps' = some (net', fee') → fee ≤ fee' := by
  refine ⟨_, _, assessFee_eq_some hgross gross.2.2 hrate, rfl, by ring, ?_⟩
  intro gross' feeBps' hle hle' net' fee' hassess
  rw [(assessFee_some hassess).1]
  have hrate' : (feeBps : ℤ) ≤ feeBps' := by exact_mod_cast hle'
  exact Int.ediv_le_ediv (by decide) (mul_le_mul hle hrate' (by positivity) (hgross.trans hle))

theorem assessFee_exact_max : ∃ net fee, assessFee maxI128 1000 = some (net, fee) ∧
    net + fee = maxI128 := by
  obtain ⟨net, fee, hassess, -, hsum, -⟩ :=
    assessFee_exact ⟨maxI128, by decide⟩ (by decide) (show 1000 ≤ maxFeeBps by decide)
  exact ⟨net, fee, hassess, hsum⟩

end Exact

/-- Without a rate nothing is kept back. -/
theorem assessFee_zero {gross : ℤ} (h : 0 ≤ gross) (hmax : gross ≤ maxI128) :
    assessFee gross 0 = some (gross, 0) := by
  rw [assessFee_eq_some h hmax (Nat.zero_le _)]
  simp

end RefractContracts.Math
