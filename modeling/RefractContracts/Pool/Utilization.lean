import RefractContracts.Pool.Shares

/-! The utilization bound. Purchases compare the coverage with a floored capacity
and keep the bound. A withdrawal compares a floored ratio with the limit, and
compares nothing when no capital is left: it keeps the bound exactly when the
ratio is below the limit or was not rounded, and nothing is covered by nothing. -/

namespace RefractContracts.Pool

open Host

variable {Address : Type} {w w' : World Address}

/-- INV-3: the coverage stays within the configured part of the capital. -/
def Utilized (w : World Address) : Prop :=
  (accounting w).totalCoverage * bps ≤ (accounting w).totalCapital * (config w).maxUtilizationBps

instance (w : World Address) : Decidable (Utilized w) := inferInstanceAs (Decidable (_ ≤ _))

/-- The capital a withdrawal of `shares` leaves. -/
def capitalLeft (w : World Address) (shares : ℤ) : ℤ :=
  (vault w).assets - (vault w).redeem shares

/-- The floored ratio decides the bound: it is below the limit or exact, and a pool
drained of capital covers nothing. -/
def ExactWithdrawal (w : World Address) (shares : ℤ) : Prop :=
  let covered := (accounting w).totalCoverage * bps
  let left := capitalLeft w shares
  (left = 0 → (accounting w).totalCoverage = 0) ∧
    (left ≠ 0 → covered / left < (config w).maxUtilizationBps ∨ left ∣ covered)

/-- The condition on an operation under which it keeps the bound. -/
def Exact (w : World Address) : Op Address → Prop
  | .withdrawCapital _ shares => ExactWithdrawal w shares
  | .buyPolicy _ params _ => 0 ≤ params.coverageAmount
  | _ => True

/-- The coverage asked for is not negative. -/
def NonnegPurchase : Op Address → Prop
  | .buyPolicy _ params _ => 0 ≤ params.coverageAmount
  | _ => True

instance (w : World Address) (shares : ℤ) : Decidable (ExactWithdrawal w shares) :=
  inferInstanceAs (Decidable ((_ = _ → _ = _) ∧ (_ ≠ _ → _ < _ ∨ _ ∣ _)))

instance (w : World Address) : (op : Op Address) → Decidable (Exact w op)
  | .withdrawCapital _ shares => inferInstanceAs (Decidable (ExactWithdrawal w shares))
  | .buyPolicy _ params _ => inferInstanceAs (Decidable (0 ≤ params.coverageAmount))
  | .initializeContract .. | .provideCapital .. | .processClaim _ | .expirePolicy _
  | .setBackstop ..
  | .setPolicyRegistry .. | .setAdmin .. | .setPoolConfig .. | .updateOracle .. | .advance _
  | .transfer .. => inferInstanceAs (Decidable True)

instance : (op : Op Address) → Decidable (NonnegPurchase op)
  | .buyPolicy _ params _ => inferInstanceAs (Decidable (0 ≤ params.coverageAmount))
  | .withdrawCapital .. | .initializeContract .. | .provideCapital .. | .processClaim _
  | .expirePolicy _ | .setBackstop .. | .setPolicyRegistry .. | .setAdmin .. | .setPoolConfig ..
  | .updateOracle .. | .advance _
  | .transfer .. => inferInstanceAs (Decidable True)

/-- The configuration is not replaced. -/
def FixesConfig (tx : Transaction Address) : Prop :=
  match tx.op with
  | .setPoolConfig .. => False
  | _ => True

/-- A pool that was initialized and then configured. -/
def opened (now : ℕ) (ledger : Token Address) (admin usdcToken policyRegistry : Address)
    (cfg : PoolConfig) : World Address :=
  { deployed now ledger with
    isInitialized := true
    adminEntry := some admin
    usdcTokenEntry := some usdcToken
    policyRegistryEntry := some policyRegistry
    accountingEntry := some ⟨0, 0, 0, 0, 0⟩
    configEntry := some cfg }

/-- A floored quotient within the limit bounds the dividend exactly when it is below
the limit or exact. -/
theorem floor_le_bound_iff {n d m : ℤ} (hd : 0 < d) (h : n / d ≤ m) :
    n ≤ d * m ↔ n / d < m ∨ d ∣ n := by
  have hlow : n / d * d ≤ n := Int.ediv_mul_le n hd.ne'
  constructor
  · intro hn
    refine h.lt_or_eq.imp_right fun he => ?_
    rw [he, mul_comm] at hlow
    exact ⟨m, le_antisymm hn hlow⟩
  · rintro (hlt | ⟨k, rfl⟩)
    · calc n ≤ d * (n / d + 1) := (Int.lt_mul_ediv_self_add hd).le.trans (by linarith)
        _ ≤ d * m := mul_le_mul_of_nonneg_left hlt hd.le
    · rw [Int.mul_ediv_cancel_left _ hd.ne'] at h
      exact mul_le_mul_of_nonneg_left h hd.le

structure Bound (cfg : PoolConfig) (w : World Address) : Prop where
  live : w.isInitialized = true
  config_eq : config w = cfg
  coverage : 0 ≤ (accounting w).totalCoverage
  policies : ∀ id policy, w.policyEntry id = some policy → 0 ≤ policy.coverageAmount
  utilized : Utilized w

namespace Bound

variable {cfg : PoolConfig}

theorem capital_nonneg (b : Bound cfg w) (hmu : 1 ≤ cfg.maxUtilizationBps) :
    0 ≤ (accounting w).totalCapital := by
  have h := b.utilized
  rw [Utilized, b.config_eq] at h
  have hc : 0 ≤ (accounting w).totalCoverage * bps := mul_nonneg b.coverage (by decide)
  exact nonneg_of_mul_nonneg_left (hc.trans h) (by exact_mod_cast hmu)

end Bound

variable [DecidableEq Address] {riskMultiplier : CoverageType → ℤ} {self a : Address}
  {cfg : PoolConfig} {shares out amount : ℤ}

/-- An accepted withdrawal keeps the bound exactly when it is exact. -/
theorem Withdrawn.utilized_iff (e : Withdrawn self w w' a shares out)
    (hmu : 1 ≤ cfg.maxUtilizationBps) (b : Bound cfg w) :
    Utilized w' ↔ ExactWithdrawal w shares := by
  have hcap : 0 ≤ (vault w).assets := b.capital_nonneg hmu
  obtain ⟨hle, hout, hutil⟩ := quoteWithdrawal_ok hcap e.pos e.priced
  have hpos := e.pos
  have hcov := b.coverage
  have hv : (vault w).Sound := ⟨hcap, by omega, by omega⟩
  have hleft : 0 ≤ capitalLeft w shares := sub_nonneg.mpr (Vault.redeem_le hv (by omega) hle)
  have hpost : Utilized w' ↔ (accounting w).totalCoverage * bps ≤
      capitalLeft w shares * (Pool.config w).maxUtilizationBps := by
    rw [Utilized, e.config, e.books, hout]
    rfl
  rw [hpost]
  simp only [ExactWithdrawal]
  rw [hout] at hutil
  change (0 < capitalLeft w shares → _ ≤ _) at hutil
  rcases hleft.lt_or_eq with hl | hl
  · have hq := hutil hl
    rw [show (vault w).assets - (vault w).redeem shares = capitalLeft w shares from rfl,
      Int.tdiv_eq_ediv_of_nonneg (mul_nonneg hcov (by decide))] at hq
    rw [floor_le_bound_iff hl hq]
    exact ⟨fun h => ⟨fun hz => absurd hz hl.ne', fun _ => h⟩, fun h => h.2 hl.ne'⟩
  · rw [← hl, zero_mul]
    have hzero : (accounting w).totalCoverage * bps ≤ 0 → (accounting w).totalCoverage = 0 :=
      fun h => le_antisymm (nonpos_of_mul_nonpos_left h (by decide)) hcov
    exact ⟨fun h => ⟨fun _ => hzero h, fun hz => absurd rfl hz⟩, fun h => by rw [h.1 rfl, zero_mul]⟩

omit [DecidableEq Address] in
theorem configAfter_fixed {tx : Transaction Address} (hl : w.isInitialized = true)
    (hfix : FixesConfig tx) : configAfter w tx.op = config w := by
  obtain ⟨signers, op⟩ := tx
  cases op with
  | initializeContract => exact if_pos hl
  | setPoolConfig => exact hfix.elim
  | _ => rfl

/-- A payout takes the same amount off both sides, and the limit is at most one. -/
theorem claim_keeps_bound {cov cap pay mu : ℤ} (hpay : 0 ≤ pay) (hcap : 0 ≤ cap)
    (hmu : 0 ≤ mu) (hmax : mu ≤ 10000) (h : cov * bps ≤ cap * mu) :
    max (cov - pay) 0 * bps ≤ max (cap - pay) 0 * mu := by
  have hpos : 0 < bps := by decide
  rcases le_total cov pay with hle | hle
  · rw [max_eq_right (sub_nonpos.mpr hle), zero_mul]
    exact mul_nonneg (le_max_right _ _) hmu
  · have hcapped : cov ≤ cap :=
      le_of_mul_le_mul_right (h.trans (mul_le_mul_of_nonneg_left hmax hcap)) hpos
    rw [max_eq_left (sub_nonneg.mpr hle), max_eq_left (sub_nonneg.mpr (hle.trans hcapped)), sub_mul,
      sub_mul]
    exact sub_le_sub h (mul_le_mul_of_nonneg_left hmax hpay)

namespace Bound

theorem provide (b : Bound cfg w) (e : Provided self w w' a amount shares) : Bound cfg w' := by
  have hutil := b.utilized
  refine ⟨e.live, e.config ▸ b.config_eq, ?_, e.policies ▸ b.policies, ?_⟩
  · rw [e.books]
    exact b.coverage
  · rw [Utilized, e.config, e.books]
    refine hutil.trans (mul_le_mul_of_nonneg_right ?_ (by positivity))
    simpa using e.pos.le

theorem withdraw (b : Bound cfg w) (hmu : 1 ≤ cfg.maxUtilizationBps)
    (e : Withdrawn self w w' a shares out) (hex : ExactWithdrawal w shares) : Bound cfg w' := by
  refine ⟨e.live, e.config ▸ b.config_eq, ?_, e.policies ▸ b.policies,
    (e.utilized_iff hmu b).mpr hex⟩
  rw [e.books]
  exact b.coverage

/-- A purchase passes the capacity check, and its premium only adds to the capital. -/
theorem buy {params : PolicyParams} {premium : ℤ} {policy : Policy Address} (b : Bound cfg w)
    (hmu : 1 ≤ cfg.maxUtilizationBps)
    (e : Bought riskMultiplier self w w' a params premium policy)
    (hex : 0 ≤ params.coverageAmount) : Bound cfg w' := by
  have hcap := b.capital_nonneg hmu
  have hprem := e.moved.nonneg
  refine ⟨e.live, e.config ▸ b.config_eq, ?_, ?_, ?_⟩
  · rw [e.books]
    exact add_nonneg b.coverage hex
  · exact forall_update b.policies e.policies (by rw [e.policy_eq]; exact hex)
  · have hle := checkCoverageCapacity_le e.capacity
    rw [Int.tdiv_eq_ediv_of_nonneg (mul_nonneg hcap (by positivity))] at hle
    rw [Utilized, e.config, e.books]
    calc _ ≤ (accounting w).totalCapital * (Pool.config w).maxUtilizationBps / bps * bps :=
          mul_le_mul_of_nonneg_right hle (by decide)
      _ ≤ (accounting w).totalCapital * (Pool.config w).maxUtilizationBps :=
          Int.ediv_mul_le _ (by decide)
      _ ≤ _ := mul_le_mul_of_nonneg_right (le_add_of_nonneg_right hprem) (by positivity)

theorem claim {id : ℕ} {policy : Policy Address} (b : Bound cfg w)
    (hmu : 1 ≤ cfg.maxUtilizationBps) (hmax : cfg.maxUtilizationBps ≤ 10000)
    (e : Claimed self w w' id policy) : Bound cfg w' := by
  have hcap := b.capital_nonneg hmu
  have hutil := b.utilized
  have hamt := b.policies _ _ e.stored
  refine ⟨e.flag ▸ b.live, e.config ▸ b.config_eq, ?_, ?_, ?_⟩
  · rw [e.books]
    exact le_max_right _ _
  · exact forall_update b.policies e.policies hamt
  · rw [Utilized, e.config, e.books]
    rw [Utilized] at hutil
    exact claim_keeps_bound hamt hcap (by positivity)
      (by rw [b.config_eq]; exact_mod_cast hmax) hutil

omit [DecidableEq Address] in
theorem expire {id : ℕ} {policy : Policy Address} (b : Bound cfg w) (e : Expired w w' id policy) :
    Bound cfg w' := by
  have hutil := b.utilized
  have hamt := b.policies _ _ e.stored
  refine ⟨e.flag ▸ b.live, e.config ▸ b.config_eq, ?_, ?_, ?_⟩
  · rw [e.books]
    exact le_max_right _ _
  · exact forall_update b.policies e.policies hamt
  · rw [Utilized, e.config, e.books]
    refine le_trans (mul_le_mul_of_nonneg_right (max_le ?_ b.coverage) (by decide)) hutil
    simpa using hamt

theorem quiet {tx : Transaction Address} (b : Bound cfg w) (e : Quiet self w w' tx.op)
    (hfix : FixesConfig tx) : Bound cfg w' := by
  have hconfig : config w' = config w := e.config.trans (configAfter_fixed b.live hfix)
  refine ⟨e.flag b.live, hconfig ▸ b.config_eq, ?_, e.policies ▸ b.policies, ?_⟩
  · rw [e.books]
    exact b.coverage
  · rw [Utilized, hconfig, e.books]
    exact b.utilized

end Bound

/-- An operation that meets its condition keeps the bound. -/
theorem bound_step {x : Entry Address} (hmu : 1 ≤ cfg.maxUtilizationBps)
    (hmax : cfg.maxUtilizationBps ≤ 10000) (hfix : FixesConfig x.call)
    (hex : Exact x.pre x.call.op) (he : Effect riskMultiplier self x.pre x.post x.call.op x.out)
    (b : Bound cfg x.pre) : Bound cfg x.post := by
  generalize hop : x.call.op = op at he hex
  generalize x.out = out at he
  cases he with
  | provided e => exact b.provide e
  | withdrawn e => exact b.withdraw hmu e hex
  | bought e => exact b.buy hmu e hex
  | claimed e => exact b.claim hmu hmax e
  | expired e => exact b.expire e
  | quiet e =>
    subst hop
    exact b.quiet e hfix

/-- Where purchases are nonnegative, only exact withdrawals keep the bound. -/
theorem exact_of_utilized {x : Entry Address} (hmu : 1 ≤ cfg.maxUtilizationBps)
    (hp : NonnegPurchase x.call.op) (hu : Utilized x.post)
    (he : Effect riskMultiplier self x.pre x.post x.call.op x.out) (b : Bound cfg x.pre) :
    Exact x.pre x.call.op := by
  generalize hop : x.call.op = op at he hp
  generalize x.out = out at he
  cases he with
  | provided e => trivial
  | withdrawn e => exact (e.utilized_iff hmu b).mp hu
  | bought e => exact hp
  | claimed e => trivial
  | expired e => trivial
  | quiet e => cases op with
    | withdrawCapital => exact absurd trivial e.unbooked
    | buyPolicy => exact absurd trivial e.unbooked
    | _ => trivial

omit [DecidableEq Address] in
theorem bound_opened (now : ℕ) (ledger : Token Address) (admin usdcToken policyRegistry : Address)
    (cfg : PoolConfig) : Bound cfg (opened now ledger admin usdcToken policyRegistry cfg) where
  live := rfl
  config_eq := rfl
  coverage := le_rfl
  policies := by simp [opened, deployed]
  utilized := by simp [Utilized, opened, accounting]

/-- `opened` is what `initialize` and one configuration leave. -/
theorem opened_eq_run (now : ℕ) (ledger : Token Address) {admin : Address}
    (usdcToken policyRegistry : Address) (cfg : PoolConfig) (hne : admin ≠ self) :
    (run (step riskMultiplier self) (deployed now ledger)
      [⟨[admin], .initializeContract admin usdcToken policyRegistry⟩,
        ⟨[admin], .setPoolConfig admin cfg⟩]).1 =
      opened now ledger admin usdcToken policyRegistry cfg := by
  simp [run, commit, step, initializeContract, setPoolConfig, requireAdmin, requireAuth, demand,
    bail, okOr, hne, deployed, opened, bind, Except.bind, pure, Except.pure]

/-- In every run under a fixed configuration, the bound holds when every purchase is
nonnegative and every withdrawal exact; and where purchases are nonnegative, it
holds after every transaction only if every withdrawal is exact. -/
theorem utilization_bound (riskMultiplier : CoverageType → ℤ) (self : Address) (now : ℕ)
    (ledger : Token Address) (admin usdcToken policyRegistry : Address) (cfg : PoolConfig)
    (calls : List (Transaction Address)) (hmu : 1 ≤ cfg.maxUtilizationBps)
    (hmax : cfg.maxUtilizationBps ≤ 10000) (hfix : ∀ tx ∈ calls, FixesConfig tx) :
    let r := run (step riskMultiplier self)
      (opened now ledger admin usdcToken policyRegistry cfg) calls
    ((∀ x ∈ r.2, Exact x.pre x.call.op) → Utilized r.1) ∧
      ((∀ x ∈ r.2, NonnegPurchase x.call.op) → (∀ x ∈ r.2, Utilized x.post) →
        ∀ x ∈ r.2, Exact x.pre x.call.op) := by
  intro r
  have tr := run_trace (step riskMultiplier self)
    (opened now ledger admin usdcToken policyRegistry cfg) calls
  have hfresh : Fresh (opened now ledger admin usdcToken policyRegistry cfg) :=
    fun hn => by simp [opened] at hn
  have hcall : ∀ x ∈ r.2, FixesConfig x.call := fun x hx => hfix _ (mem_run_call hx)
  have hopen := bound_opened now ledger admin usdcToken policyRegistry cfg
  constructor
  · intro hex
    have hb : Fresh r.1 ∧ Bound cfg r.1 := effects_history (I := fun _ w => Bound cfg w)
      (P := fun x => FixesConfig x.call ∧ Exact x.pre x.call.op) tr hfresh
      (fun g x hx he b => bound_step hmu hmax hx.1 hx.2 he b)
      (fun x hx => ⟨hcall x hx, hex x hx⟩) hopen
    exact hb.2.utilized
  · intro hp hu
    have hb : Fresh r.1 ∧ Bound cfg r.1 ∧ ∀ x ∈ r.2, Exact x.pre x.call.op := by
      refine effects_history (I := fun h w => Bound cfg w ∧ ∀ x ∈ h, Exact x.pre x.call.op)
        (P := fun x => FixesConfig x.call ∧ NonnegPurchase x.call.op ∧ Utilized x.post) tr hfresh
        (fun g x hx he hi => ?_) (fun x hx => ⟨hcall x hx, hp x hx, hu x hx⟩) ⟨hopen, by simp⟩
      have hex := exact_of_utilized hmu hx.2.1 hx.2.2 he hi.1
      exact ⟨bound_step hmu hmax hx.1 hex he hi.1, forall_mem_snoc hi.2 hex⟩
    exact hb.2.2

/-- The limit is eighty percent; after the withdrawal the ratio is 80.0067 percent. -/
def roundedWithdrawal : List (Transaction ℕ) :=
  [⟨[2], .provideCapital 2 20000⟩,
    ⟨[3], .buyPolicy 3 ⟨12001, .marketCrash, 1, 0⟩ ⟨true, true, true⟩⟩,
    ⟨[2], .withdrawCapital 2 5000⟩]

def openedPool : World ℕ := opened 0 (Token.empty.mint 2 20000) 1 8 9 ⟨0, 8000, 0, 20000, 0⟩

theorem withdrawal_breaks_bound :
    let r := run (step (fun _ => 100) 0) openedPool roundedWithdrawal
    r.2.length = 3 ∧ (accounting r.1).totalCoverage = 12001 ∧
      (accounting r.1).totalCapital = 15000 ∧ ¬ Utilized r.1 := by
  decide +kernel

/-- The withdrawal leaves the pool at eighty percent. -/
def wholeWithdrawal : List (Transaction ℕ) :=
  [⟨[2], .provideCapital 2 20000⟩,
    ⟨[3], .buyPolicy 3 ⟨12000, .marketCrash, 1, 0⟩ ⟨true, true, true⟩⟩,
    ⟨[2], .withdrawCapital 2 5000⟩]

theorem utilization_bound_openedPool :
    let r := run (step (fun _ => 100) 0) openedPool wholeWithdrawal
    (accounting r.1).totalCapital = 15000 ∧ Utilized r.1 ∧ ∀ x ∈ r.2, Exact x.pre x.call.op := by
  intro r
  obtain ⟨hkept, hexact⟩ := utilization_bound (fun _ => 100) 0 0 (Token.empty.mint 2 20000) 1 8 9
    ⟨0, 8000, 0, 20000, 0⟩ wholeWithdrawal (by decide) (by decide)
    (by simp [wholeWithdrawal, FixesConfig])
  exact ⟨by decide +kernel, hkept (by decide +kernel),
    hexact (by decide +kernel) (by decide +kernel)⟩

end RefractContracts.Pool
