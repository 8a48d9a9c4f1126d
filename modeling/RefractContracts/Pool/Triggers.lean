import RefractContracts.Pool.Policies

/-! Parametric triggers against loss events. The buyer chooses the threshold and
the claim compares it with the reading by a formula of the coverage type. The
comparison stands for a loss exactly when the threshold is not negative, or is so
far negative that the comparison itself overflows. -/

namespace RefractContracts.Pool

open Host

/-- The readings that mean a loss: below the peg, a fall, an exploit, a delay. -/
def LossEvent : CoverageType → ℤ → Prop
  | .stablecoinDepeg, value => value < precision
  | .marketCrash, value => value < 0
  | .liquidationShield, value => 0 < value
  | .smartContractRisk, value => 0 < value
  | .flightDelay, value => 0 < value

/-- The thresholds for which the trigger is a loss event. -/
def ThresholdSound : CoverageType → ℤ → Prop
  | .stablecoinDepeg, threshold => 0 ≤ threshold ∨ threshold * precision < minI128
  | .marketCrash, threshold => 0 ≤ threshold ∨ maxI128 < -threshold
  | .flightDelay, threshold => 0 ≤ threshold
  | .liquidationShield, _ => True
  | .smartContractRisk, _ => True

variable {Address : Type} {policy : Policy Address} {value : ℤ}

theorem triggered_loss (hs : ThresholdSound policy.coverageType policy.triggerThreshold)
    (h : triggeredValue policy value = .ok true) : LossEvent policy.coverageType value := by
  unfold triggeredValue at h
  cases ht : policy.coverageType with
    simp only [ht, bind_eq_ok, i128_eq_ok, pure_eq_ok, decide_eq_true_eq] at h hs
  | stablecoinDepeg =>
    obtain ⟨_, ⟨hmin, rfl⟩, _, ⟨-, rfl⟩, h⟩ := h
    have hpos : 0 ≤ policy.triggerThreshold := hs.resolve_right (not_lt.mpr hmin.1)
    have hq : 0 ≤ (policy.triggerThreshold * precision).tdiv bps :=
      Int.tdiv_nonneg (mul_nonneg hpos (by decide)) (by decide)
    change value < precision
    omega
  | marketCrash =>
    obtain ⟨_, ⟨hmax, rfl⟩, h⟩ := h
    have hpos : 0 ≤ policy.triggerThreshold := hs.resolve_right (not_lt.mpr hmax.2)
    change value < 0
    omega
  | liquidationShield => exact h
  | smartContractRisk => exact h
  | flightDelay =>
    change 0 ≤ policy.triggerThreshold at hs
    change 0 < value
    omega

/-- The reading at the edge of the loss events. -/
def noLoss : CoverageType → ℤ
  | .stablecoinDepeg => precision
  | _ => 0

/-- An unsound threshold is met by a reading that is no loss. -/
theorem triggered_noLoss (policy : Policy Address)
    (hs : ¬ ThresholdSound policy.coverageType policy.triggerThreshold) :
    triggeredValue policy (noLoss policy.coverageType) = .ok true ∧
      ¬ LossEvent policy.coverageType (noLoss policy.coverageType) := by
  unfold triggeredValue
  cases ht : policy.coverageType with
    simp only [ht, ThresholdSound, not_or, not_lt, not_le, not_true_eq_false] at hs
  | stablecoinDepeg =>
    have hq : (policy.triggerThreshold * precision).tdiv bps = policy.triggerThreshold * 1000 := by
      rw [show precision = 1000 * bps from rfl, ← mul_assoc]
      exact Int.mul_tdiv_cancel _ (by decide)
    have hscaled : policy.triggerThreshold * precision = policy.triggerThreshold * 10000000 := rfl
    have hmin : minI128 = -2 ^ 127 := rfl
    have hmax : maxI128 = 2 ^ 127 - 1 := rfl
    have hprec : precision = 10000000 := rfl
    have hv : noLoss .stablecoinDepeg = precision := rfl
    simp only [bind_eq_ok, i128_eq_ok, pure_eq_ok, decide_eq_true_eq]
    refine ⟨⟨_, ⟨by omega, rfl⟩, _, ⟨?_, rfl⟩, ?_⟩, lt_irrefl _⟩ <;> rw [hq] <;> omega
  | marketCrash =>
    have hmin : minI128 = -2 ^ 127 := rfl
    have hv : noLoss .marketCrash = 0 := rfl
    simp only [bind_eq_ok, i128_eq_ok, pure_eq_ok, decide_eq_true_eq]
    exact ⟨⟨_, ⟨by omega, rfl⟩, by omega⟩, lt_irrefl _⟩
  | flightDelay =>
    simp only [pure_eq_ok, decide_eq_true_eq]
    exact ⟨hs, lt_irrefl _⟩

/-- Policies of this type and threshold are paid only on a loss, in every run. -/
def PaysOnlyOnLoss (coverageType : CoverageType) (threshold : ℤ) : Prop :=
  ∀ (Address : Type) [DecidableEq Address] (riskMultiplier : CoverageType → ℤ) (self : Address)
    (now : ℕ) (ledger : Token Address) (calls : List (Transaction Address)),
    ∀ x ∈ (run (step riskMultiplier self) (deployed now ledger) calls).2,
      ∀ id policy data, x.call.op = .processClaim id → x.pre.policyEntry id = some policy →
        policy.coverageType = coverageType → policy.triggerThreshold = threshold →
        x.pre.oracleEntry coverageType = some data → LossEvent coverageType data.value

/-- A policy is bought and claimed on a reading. -/
def buyAndClaim (coverageType : CoverageType) (threshold value : ℤ) : List (Transaction ℕ) :=
  [⟨[1], .initializeContract 1 8 9⟩, ⟨[1], .setPoolConfig 1 ⟨0, 10000, 0, 1000, 0⟩⟩,
    ⟨[2], .provideCapital 2 100⟩,
    ⟨[3], .buyPolicy 3 ⟨50, coverageType, 1, threshold⟩ ⟨true, true, true⟩⟩,
    ⟨[1], .updateOracle 1 coverageType value⟩, ⟨[], .processClaim 0⟩]

def oneProvider : Token ℕ := Token.empty.mint 2 100

def boughtPolicy (coverageType : CoverageType) (threshold : ℤ) : Policy ℕ :=
  ⟨0, 3, coverageType, 50, 0, threshold, 0, 86400, .active, none⟩

/-- The claim is accepted whenever the reading meets the trigger. -/
theorem buyAndClaim_pays {t : CoverageType} {threshold value : ℤ}
    (h : triggeredValue (boughtPolicy t threshold) value = .ok true) :
    ∃ x ∈ (run (step (fun _ => 100) 0) (deployed 0 oneProvider) (buyAndClaim t threshold value)).2,
      x.call.op = .processClaim 0 ∧ x.pre.policyEntry 0 = some (boughtPolicy t threshold) ∧
        x.pre.oracleEntry t = some ⟨value, 0⟩ := by
  rw [boughtPolicy] at h
  simp [buyAndClaim, oneProvider, boughtPolicy, run, commit, step, initializeContract,
    setPoolConfig, provideCapital, buyPolicy, updateOracle, processClaim, h, requireAdmin,
    requireAuth, demand, bail, okOr, assertInitialized, deployed, calcShares, accounting, config,
    sharesOf, i128, u64, uSub, minI128_eq, maxI128_eq, maxU64_eq, Token.transfer, Token.move,
    Token.mint, Token.empty, checkCoverageCapacity, calcPremium, bps, precision,
    u64SaturatingMul, u64SaturatingAdd, setPolicy, bind, Except.bind, pure, Except.pure]

/-- The trigger stands for a loss, in every run, exactly at the sound thresholds. -/
theorem paysOnlyOnLoss_iff (coverageType : CoverageType) (threshold : ℤ) :
    PaysOnlyOnLoss coverageType threshold ↔ ThresholdSound coverageType threshold := by
  constructor
  · intro h
    by_contra hs
    obtain ⟨htrig, hno⟩ := triggered_noLoss (boughtPolicy coverageType threshold) hs
    obtain ⟨x, hx, hop, hpolicy, horacle⟩ := buyAndClaim_pays htrig
    exact hno (h ℕ (fun _ => 100) 0 0 oneProvider _ x hx 0 _ _ hop hpolicy rfl rfl horacle)
  · intro hs Address _ riskMultiplier self now ledger calls x hx id policy data hop hp rfl rfl hdata
    obtain ⟨hfresh, hstep⟩ := run_receipt
      (fun y hy hf => (step_effect hf hy).2) (fresh_deployed now ledger) hx
    have he := (step_effect hfresh hstep).1
    generalize x.out = out at he
    rw [hop] at he
    cases he with
    | claimed e =>
      obtain rfl : policy = _ := Option.some.inj (hp.symm.trans e.stored)
      obtain ⟨data', hdata', htrig⟩ := e.triggered
      obtain rfl : data = data' := Option.some.inj (hdata.symm.trans hdata')
      exact triggered_loss hs htrig
    | quiet e => exact absurd trivial e.unbooked

/-- A crash policy with a negative threshold is paid although nothing fell. -/
theorem marketCrash_paid_without_fall :
    (run (step (fun _ => 100) 0) (deployed 0 oneProvider)
      (buyAndClaim .marketCrash (-3000) 0)).1.ledger.balance 3 = 50 ∧
    ¬ LossEvent .marketCrash 0 ∧ ¬ PaysOnlyOnLoss .marketCrash (-3000) := by
  have htrig : triggeredValue (boughtPolicy .marketCrash (-3000)) 0 = .ok true := by
    simp [triggeredValue, boughtPolicy, i128, minI128_eq, maxI128_eq, bind, Except.bind, pure,
      Except.pure]
  have hno : ¬ LossEvent .marketCrash 0 := lt_irrefl 0
  refine ⟨by decide +kernel, hno, fun h => hno ?_⟩
  obtain ⟨x, hx, hop, hpolicy, horacle⟩ := buyAndClaim_pays htrig
  exact h ℕ (fun _ => 100) 0 0 oneProvider _ x hx 0 _ _ hop hpolicy rfl rfl horacle

end RefractContracts.Pool
