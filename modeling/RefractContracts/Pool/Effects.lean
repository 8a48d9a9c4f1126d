import RefractContracts.Host.Storage
import RefractContracts.Pool.Contract

/-! What an accepted transaction of the pool does to its books. Every later
property of runs is a case analysis on these effects; the entry points are
unfolded here and nowhere else. -/

namespace RefractContracts.Pool

open Host

variable {Address : Type}

/-- Nothing is booked before `initialize`. -/
def Fresh (w : World Address) : Prop :=
  w.isInitialized = false → accounting w = ⟨0, 0, 0, 0, 0⟩ ∧ ∀ id, w.policyEntry id = none

variable [DecidableEq Address]

structure Provided (pool : Address) (w w' : World Address) (provider : Address)
    (amount shares : ℤ) : Prop where
  live : w'.isInitialized = true
  outsider : provider ≠ pool
  pos : 0 < amount
  priced : calcShares w amount = .ok shares
  books : accounting w' = { accounting w with
    totalCapital := (accounting w).totalCapital + amount
    totalShares := (accounting w).totalShares + shares }
  shares : sharesOf w' = Function.update (sharesOf w) provider (sharesOf w provider + shares)
  policies : w'.policyEntry = w.policyEntry
  config : config w' = config w
  moved : w.ledger.Moved w'.ledger provider pool amount

structure Withdrawn (pool : Address) (w w' : World Address) (provider : Address)
    (shares out : ℤ) : Prop where
  live : w'.isInitialized = true
  outsider : provider ≠ pool
  pos : 0 < shares
  held : shares ≤ sharesOf w provider
  priced : quoteWithdrawal w shares = .ok out
  books : accounting w' = { accounting w with
    totalCapital := (accounting w).totalCapital - out
    totalShares := (accounting w).totalShares - shares }
  shares : sharesOf w' = Function.update (sharesOf w) provider (sharesOf w provider - shares)
  policies : w'.policyEntry = w.policyEntry
  config : config w' = config w
  moved : w.ledger.Moved w'.ledger pool provider out

structure Bought (riskMultiplier : CoverageType → ℤ) (pool : Address) (w w' : World Address)
    (holder : Address) (params : PolicyParams) (premium : ℤ) (policy : Policy Address) :
    Prop where
  live : w'.isInitialized = true
  outsider : holder ≠ pool
  capacity : checkCoverageCapacity w params.coverageAmount =
    .ok ((accounting w).totalCoverage + params.coverageAmount)
  priced : calcPremium riskMultiplier (config w) params = .ok premium
  policy_eq : policy =
    ⟨(accounting w).nextPolicyId, holder, params.coverageType, params.coverageAmount, premium,
      params.triggerThreshold, w.now,
      u64SaturatingAdd w.now (u64SaturatingMul params.durationDays 86400), .active, none⟩
  books : accounting w' =
    { totalCapital := (accounting w).totalCapital + premium
      totalCoverage := (accounting w).totalCoverage + params.coverageAmount
      totalPremiums := (accounting w).totalPremiums + premium
      totalShares := (accounting w).totalShares
      nextPolicyId := (accounting w).nextPolicyId + 1 }
  shares : sharesOf w' = sharesOf w
  policies : w'.policyEntry =
    Function.update w.policyEntry (accounting w).nextPolicyId (some policy)
  config : config w' = config w
  moved : w.ledger.Moved w'.ledger holder pool premium

structure Claimed (pool : Address) (w w' : World Address) (id : ℕ) (policy : Policy Address) :
    Prop where
  flag : w'.isInitialized = w.isInitialized
  stored : w.policyEntry id = some policy
  active : policy.status = .active
  inTime : w.now ≤ policy.endTime
  triggered : ∃ data, w.oracleEntry policy.coverageType = some data ∧
    triggeredValue policy data.value = .ok true
  books : accounting w' = { accounting w with
    totalCapital := max ((accounting w).totalCapital - policy.coverageAmount) 0
    totalCoverage := max ((accounting w).totalCoverage - policy.coverageAmount) 0 }
  shares : sharesOf w' = sharesOf w
  policies : w'.policyEntry =
    Function.update w.policyEntry id
      (some { policy with status := .claimed, payoutAt := some w.now })
  config : config w' = config w
  moved : w.ledger.Moved w'.ledger pool policy.holder policy.coverageAmount

structure Expired (w w' : World Address) (id : ℕ) (policy : Policy Address) : Prop where
  flag : w'.isInitialized = w.isInitialized
  stored : w.policyEntry id = some policy
  active : policy.status = .active
  lapsed : policy.endTime < w.now
  books : accounting w' = { accounting w with
    totalCoverage := max ((accounting w).totalCoverage - policy.coverageAmount) 0 }
  shares : sharesOf w' = sharesOf w
  policies : w'.policyEntry =
    Function.update w.policyEntry id (some { policy with status := .expired })
  config : config w' = config w
  ledger : w'.ledger = w.ledger

/-- The operations that move capital, shares, coverage or policies. -/
def Op.Books : Op Address → Prop
  | .provideCapital .. | .withdrawCapital .. | .buyPolicy .. | .processClaim _ | .expirePolicy _ =>
    True
  | _ => False

/-- The configuration after an administrative operation. -/
def configAfter (w : World Address) : Op Address → PoolConfig
  | .initializeContract .. =>
    if w.isInitialized then config w else ⟨300, 8000, 100000000, 50000000000, 7⟩
  | .setPoolConfig _ cfg => cfg
  | _ => config w

/-- An operation that books nothing. -/
structure Quiet (pool : Address) (w w' : World Address) (op : Op Address) : Prop where
  unbooked : ¬ op.Books
  flag : w.isInitialized = true → w'.isInitialized = true
  books : accounting w' = accounting w
  shares : sharesOf w' = sharesOf w
  policies : w'.policyEntry = w.policyEntry
  config : config w' = configAfter w op
  ledger : w'.ledger = w.ledger ∨ ∃ src dst amount, op = .transfer src dst amount ∧ src ≠ pool ∧
    w.ledger.Moved w'.ledger src dst amount

inductive Effect (riskMultiplier : CoverageType → ℤ) (pool : Address) (w w' : World Address) :
    Op Address → ℤ → Prop
  | provided {provider amount shares} (e : Provided pool w w' provider amount shares) :
      Effect riskMultiplier pool w w' (.provideCapital provider amount) shares
  | withdrawn {provider shares out} (e : Withdrawn pool w w' provider shares out) :
      Effect riskMultiplier pool w w' (.withdrawCapital provider shares) out
  | bought {holder params answers premium policy}
      (e : Bought riskMultiplier pool w w' holder params premium policy) :
      Effect riskMultiplier pool w w' (.buyPolicy holder params answers) policy.id
  | claimed {id policy} (e : Claimed pool w w' id policy) :
      Effect riskMultiplier pool w w' (.processClaim id) policy.coverageAmount
  | expired {id policy} (e : Expired w w' id policy) :
      Effect riskMultiplier pool w w' (.expirePolicy id) 0
  | quiet {op} (e : Quiet pool w w' op) : Effect riskMultiplier pool w w' op 0

variable {riskMultiplier : CoverageType → ℤ} {self : Address} {signers : List Address}
  {w w' : World Address} {a : Address} {amount shares out : ℤ}

omit [DecidableEq Address] in
@[simp] theorem assertInitialized_eq_ok (u : Unit) :
    assertInitialized w = .ok u ↔ w.isInitialized = true := by
  simp [assertInitialized]

theorem sharesOf_update (n : ℤ) :
    (fun b => (Function.update w.sharesEntry a (some n) b).getD 0) =
      Function.update (sharesOf w) a n := by
  funext b
  by_cases hb : b = a <;> simp [sharesOf, hb]

theorem provideCapital_effect (hself : self ∉ signers)
    (h : provideCapital self signers w a amount = .ok (w', shares)) :
    Provided self w w' a amount shares := by
  simp only [provideCapital, bind_eq_ok, requireAuth_eq_ok, assertInitialized_eq_ok, bail_eq_ok,
    i128_eq_ok, pure_eq_ok, Prod.mk.injEq] at h
  obtain ⟨_, hsig, _, hlive, _, hpos, _, -, sh, hsh, us, ⟨-, rfl⟩, cap, ⟨-, rfl⟩, tot, ⟨-, rfl⟩,
    ledger, hmove, rfl, rfl⟩ := h
  exact ⟨hlive, fun he => hself (he ▸ hsig), not_le.mp hpos, hsh, rfl, sharesOf_update _, rfl, rfl,
    Token.transfer_ok hmove⟩

theorem withdrawCapital_effect (hself : self ∉ signers)
    (h : withdrawCapital self signers w a shares = .ok (w', out)) :
    Withdrawn self w w' a shares out := by
  simp only [withdrawCapital, bind_eq_ok, requireAuth_eq_ok, assertInitialized_eq_ok, bail_eq_ok,
    i128_eq_ok, pure_eq_ok, Prod.mk.injEq] at h
  obtain ⟨_, hsig, _, hlive, _, hpos, _, hheld, _, -, usdc, hout, cap, ⟨-, rfl⟩, tot, ⟨-, rfl⟩,
    us, ⟨-, rfl⟩, _, -, ledger, hmove, rfl, rfl⟩ := h
  exact ⟨hlive, fun he => hself (he ▸ hsig), not_le.mp hpos, not_lt.mp hheld, hout, rfl,
    sharesOf_update _, rfl, rfl, Token.transfer_ok hmove⟩

omit [DecidableEq Address] in
theorem checkCoverageCapacity_value {n : ℤ} (h : checkCoverageCapacity w amount = .ok n) :
    n = (accounting w).totalCoverage + amount := by
  simp only [checkCoverageCapacity, bind_eq_ok, i128_eq_ok, pure_eq_ok] at h
  obtain ⟨-, -, _, ⟨-, rfl⟩, -, -, -, -, rfl⟩ := h
  rfl

theorem buyPolicy_effect {params : PolicyParams} {answers : Answers} {id : ℕ}
    (hself : self ∉ signers)
    (h : buyPolicy riskMultiplier self signers w a params answers = .ok (w', id)) :
    ∃ premium policy, policy.id = id ∧ Bought riskMultiplier self w w' a params premium policy := by
  simp only [buyPolicy, bind_eq_ok, requireAuth_eq_ok, assertInitialized_eq_ok, bail_eq_ok,
    i128_eq_ok, u64_eq_ok, pure_eq_ok, Prod.mk.injEq] at h
  obtain ⟨_, hsig, _, hlive, cov, hcov, _, -, premium, hprem, _, -, _, -, cap, ⟨-, rfl⟩, prem,
    ⟨-, rfl⟩, nid, ⟨-, rfl⟩, ledger, hmove, _, -, _, -, rfl, rfl⟩ := h
  obtain rfl := checkCoverageCapacity_value hcov
  exact ⟨premium, _, rfl, hlive, fun he => hself (he ▸ hsig), hcov, hprem, rfl, rfl, rfl, rfl, rfl,
    Token.transfer_ok hmove⟩

theorem processClaim_effect {id : ℕ} (h : processClaim self w id = .ok (w', out)) :
    ∃ policy, policy.coverageAmount = out ∧ Claimed self w w' id policy := by
  simp only [processClaim, bind_eq_ok, okOr_eq_ok, bail_eq_ok, i128_eq_ok, pure_eq_ok,
    Prod.mk.injEq, not_not] at h
  obtain ⟨policy, hstored, _, hactive, _, htime, triggered, htrig, _, htrue, cap, ⟨-, rfl⟩, cov,
    ⟨-, rfl⟩, _, -, ledger, hmove, rfl, rfl⟩ := h
  refine ⟨policy, rfl, rfl, hstored, hactive, not_lt.mp htime, ?_, rfl, rfl, rfl, rfl,
    Token.transfer_ok hmove⟩
  split at htrig
  · obtain rfl := (pure_eq_ok _ _).mp htrig
    exact absurd htrue (by simp)
  · next data hdata =>
    simp only [bind_eq_ok, pure_eq_ok] at htrig
    obtain ⟨age, -, met, hmet, rfl⟩ := htrig
    rw [Bool.and_eq_true] at htrue
    exact ⟨data, hdata, htrue.2 ▸ hmet⟩

omit [DecidableEq Address] in
theorem expirePolicy_effect {id : ℕ} (h : expirePolicy w id = .ok w') :
    ∃ policy, Expired w w' id policy := by
  simp only [expirePolicy, bind_eq_ok, okOr_eq_ok, bail_eq_ok, i128_eq_ok, pure_eq_ok,
    not_not] at h
  obtain ⟨policy, hstored, _, hactive, _, htime, cov, ⟨-, rfl⟩, rfl⟩ := h
  exact ⟨policy, rfl, hstored, hactive, not_le.mp htime, rfl, rfl, rfl, rfl, rfl⟩

/-- Every accepted transaction has one of the effects. -/
theorem step_effect {tx : Transaction Address} (hf : Fresh w)
    (h : step riskMultiplier self w tx = .ok (w', out)) :
    Effect riskMultiplier self w w' tx.op out ∧ Fresh w' := by
  obtain ⟨signers, op⟩ := tx
  have hself : self ∉ signers.filter (· ≠ self) := by simp
  cases op with simp only [step, bind_eq_ok, pure_eq_ok, Prod.mk.injEq] at h
  | provideCapital provider amount =>
    have e := provideCapital_effect hself h
    exact ⟨.provided e, fun hn => by simp [e.live] at hn⟩
  | withdrawCapital provider shares =>
    have e := withdrawCapital_effect hself h
    exact ⟨.withdrawn e, fun hn => by simp [e.live] at hn⟩
  | buyPolicy holder params answers =>
    obtain ⟨⟨_, id⟩, h, rfl, rfl⟩ := h
    obtain ⟨premium, policy, rfl, e⟩ := buyPolicy_effect hself h
    exact ⟨.bought e, fun hn => by simp [e.live] at hn⟩
  | processClaim id =>
    obtain ⟨policy, rfl, e⟩ := processClaim_effect h
    exact ⟨.claimed e, fun hn => absurd ((hf (e.flag ▸ hn)).2 id) (by simp [e.stored])⟩
  | expirePolicy id =>
    obtain ⟨_, h, rfl, rfl⟩ := h
    obtain ⟨policy, e⟩ := expirePolicy_effect h
    exact ⟨.expired e, fun hn => absurd ((hf (e.flag ▸ hn)).2 id) (by simp [e.stored])⟩
  | initializeContract admin usdcToken policyRegistry =>
    obtain ⟨_, h, rfl, rfl⟩ := h
    simp only [initializeContract, bind_eq_ok, bail_eq_ok, pure_eq_ok, Bool.not_eq_true] at h
    obtain ⟨_, hnew, _, -, rfl⟩ := h
    exact ⟨.quiet ⟨id, fun _ => rfl, (hf hnew).1.symm, rfl, rfl,
      by simp [configAfter, hnew, config], .inl rfl⟩, fun hn => absurd hn (by simp)⟩
  | setBackstop caller backstop =>
    obtain ⟨_, h, rfl, rfl⟩ := h
    simp only [setBackstop, bind_eq_ok, pure_eq_ok] at h
    obtain ⟨_, -, rfl⟩ := h
    exact ⟨.quiet ⟨id, id, rfl, rfl, rfl, rfl, .inl rfl⟩, hf⟩
  | setPolicyRegistry caller policyRegistry =>
    obtain ⟨_, h, rfl, rfl⟩ := h
    simp only [setPolicyRegistry, bind_eq_ok, pure_eq_ok] at h
    obtain ⟨_, -, rfl⟩ := h
    exact ⟨.quiet ⟨id, id, rfl, rfl, rfl, rfl, .inl rfl⟩, hf⟩
  | setAdmin caller newAdmin =>
    obtain ⟨_, h, rfl, rfl⟩ := h
    simp only [setAdmin, bind_eq_ok, pure_eq_ok] at h
    obtain ⟨_, -, rfl⟩ := h
    exact ⟨.quiet ⟨id, id, rfl, rfl, rfl, rfl, .inl rfl⟩, hf⟩
  | setPoolConfig caller cfg =>
    obtain ⟨_, h, rfl, rfl⟩ := h
    simp only [setPoolConfig, bind_eq_ok, pure_eq_ok] at h
    obtain ⟨_, -, rfl⟩ := h
    exact ⟨.quiet ⟨id, id, rfl, rfl, rfl, rfl, .inl rfl⟩, hf⟩
  | updateOracle caller coverageType value =>
    obtain ⟨_, h, rfl, rfl⟩ := h
    simp only [updateOracle, bind_eq_ok, pure_eq_ok] at h
    obtain ⟨_, -, rfl⟩ := h
    exact ⟨.quiet ⟨id, id, rfl, rfl, rfl, rfl, .inl rfl⟩, hf⟩
  | advance seconds =>
    obtain ⟨_, -, rfl, rfl⟩ := h
    exact ⟨.quiet ⟨id, id, rfl, rfl, rfl, rfl, .inl rfl⟩, hf⟩
  | transfer src dst amount =>
    obtain ⟨_, hsig, _, h, rfl, rfl⟩ := h
    have hsrc : src ∈ signers.filter (· ≠ self) := (requireAuth_eq_ok _ _ _).mp hsig
    have hne : src ≠ self := fun he => hself (he ▸ hsrc)
    exact ⟨.quiet ⟨id, id, rfl, rfl, rfl, rfl,
      .inr ⟨src, dst, amount, rfl, hne, Token.transfer_ok h⟩⟩, hf⟩

/-! ### Runs -/

abbrev Entry (Address : Type) := Receipt (World Address) (Transaction Address) ℤ

omit [DecidableEq Address] in
theorem fresh_deployed (now : ℕ) (ledger : Token Address) : Fresh (deployed now ledger) :=
  fun _ => ⟨rfl, fun _ => rfl⟩

/-- A property of the history and the state holds of a run when every effect keeps it. -/
theorem effects_history {s t : World Address} {h : List (Entry Address)}
    {I : List (Entry Address) → World Address → Prop} {P : Entry Address → Prop}
    (tr : Trace (step riskMultiplier self) s h t) (hf : Fresh s)
    (keeps : ∀ g x, P x → Effect riskMultiplier self x.pre x.post x.call.op x.out →
      I g x.pre → I (g ++ [x]) x.post)
    (hP : ∀ x ∈ h, P x) (init : I [] s) : Fresh t ∧ I h t :=
  tr.history_of (I := fun g w => Fresh w ∧ I g w)
    (fun g x hx hstep hi =>
      have he := step_effect hi.1 hstep
      ⟨he.2, keeps g x hx he.1 hi.2⟩) hP ⟨hf, init⟩

end RefractContracts.Pool
