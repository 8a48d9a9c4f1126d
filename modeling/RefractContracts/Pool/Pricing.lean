import RefractContracts.Host.History
import RefractContracts.Pool.Policies

/-! The price of cover. The premium is rounded down in four divisions and a purchase is
accepted at any duration, so a policy may cost nothing; a premium is charged exactly
when the product of base and duration reaches one weighted unit. A policy without a
duration can be claimed in the ledger it was bought in. -/

namespace RefractContracts.Pool

open Host

variable {Address : Type} {riskMultiplier : CoverageType → ℤ} {cfg : PoolConfig}
  {params : PolicyParams}

/-- The least base premium that a risk multiplier does not round to zero. -/
def leastWeighted (multiplier : ℤ) : ℤ := (multiplier + 99) / multiplier

/-- The coverage, its duration and the rate amount to a premium. -/
def Charges (multiplier : ℤ) (cfg : PoolConfig) (params : PolicyParams) : Prop :=
  leastWeighted multiplier * precision ≤
    (params.coverageAmount * cfg.basePremiumRateBps).tdiv bps *
      (params.durationDays * precision).tdiv 365

instance (multiplier : ℤ) (cfg : PoolConfig) (params : PolicyParams) :
    Decidable (Charges multiplier cfg params) := by
  unfold Charges
  infer_instance

/-- The purchase of the policy `id`. -/
def Buys (id : ℕ) (params : PolicyParams) (x : Entry Address) : Prop :=
  ∃ holder answers, x.call.op = .buyPolicy holder params answers ∧ x.out = id

/-- The policy paid by a claim was bought for a premium. -/
def PaidFor (x : Entry Address) : Prop :=
  ∀ id policy, Pays id x → x.pre.policyEntry id = some policy → 0 < policy.premiumPaid

/-- In the history `h` every policy that a claim pays was bought at terms that charge. -/
def BoughtAtCharge (riskMultiplier : CoverageType → ℤ) (h : List (Entry Address)) : Prop :=
  ∀ g x l id, h = g ++ x :: l → Pays id x → ∃ y ∈ g, ∃ params, Buys id params y ∧
    Charges (riskMultiplier params.coverageType) (config y.pre) params

/-! ### The premium -/

/-- Rounding towards zero keeps what reaches a positive bound. -/
theorem le_tdiv_iff {a b k : ℤ} (hb : 0 < b) (hk : 0 < k) : k ≤ a.tdiv b ↔ k * b ≤ a := by
  refine ⟨fun h => ?_, Int.le_tdiv_of_mul_le hb⟩
  rcases le_or_gt 0 a with ha | ha
  · rw [Int.tdiv_eq_ediv_of_nonneg ha] at h
    exact (Int.le_ediv_iff_mul_le hb).mp h
  · have hneg : 0 ≤ (-a).tdiv b := Int.tdiv_nonneg (by omega) hb.le
    rw [Int.neg_tdiv] at hneg
    omega

theorem leastWeighted_le_iff {multiplier x : ℤ} (hm : 0 < multiplier) :
    leastWeighted multiplier ≤ x ↔ 100 ≤ x * multiplier := by
  rw [leastWeighted, ← Int.lt_add_one_iff, Int.ediv_lt_iff_lt_mul hm, add_one_mul]
  constructor <;> intro h <;> omega

theorem leastWeighted_pos {multiplier : ℤ} (hm : 0 < multiplier) :
    0 < leastWeighted multiplier := by
  by_contra hle
  have h := (leastWeighted_le_iff hm).mp (not_lt.mp hle)
  rw [zero_mul] at h
  omega

/-- A premium is positive exactly when the terms charge. -/
theorem calcPremium_pos_iff (hrisk : 0 < riskMultiplier params.coverageType) {premium : ℤ}
    (h : calcPremium riskMultiplier cfg params = .ok premium) :
    0 < premium ↔ Charges (riskMultiplier params.coverageType) cfg params := by
  simp only [calcPremium, bind_eq_ok, i128_eq_ok, pure_eq_ok] at h
  obtain ⟨_, ⟨-, rfl⟩, _, ⟨-, rfl⟩, _, ⟨-, rfl⟩, _, ⟨-, rfl⟩, rfl⟩ := h
  rw [← Int.add_one_le_iff, zero_add, le_tdiv_iff (by decide) one_pos, one_mul,
    ← leastWeighted_le_iff hrisk, le_tdiv_iff (by decide) (leastWeighted_pos hrisk), Charges]

/-- At the initial rate and bounds, terms charge exactly when they have a duration. -/
theorem charges_initial_iff {multiplier : ℤ} (hm : 0 < multiplier)
    (hcoverage : 100000000 ≤ params.coverageAmount) :
    Charges multiplier ⟨300, 8000, 100000000, 50000000000, 7⟩ params ↔
      1 ≤ params.durationDays := by
  have hpos := leastWeighted_pos hm
  have hle : leastWeighted multiplier ≤ 100 := (leastWeighted_le_iff hm).mpr (by omega)
  unfold Charges
  constructor
  · intro h
    by_contra hdays
    obtain hzero : params.durationDays = 0 := by omega
    rw [hzero, Nat.cast_zero, zero_mul, Int.zero_tdiv, mul_zero] at h
    unfold precision at h
    omega
  · intro hdays
    have hbase : 3000000 ≤ (params.coverageAmount * (300 : ℕ)).tdiv bps :=
      (le_tdiv_iff (by decide) (by decide)).mpr (by unfold bps; push_cast; omega)
    have hduration : 27397 ≤ (params.durationDays * precision).tdiv 365 :=
      (le_tdiv_iff (by decide) (by decide)).mpr (by unfold precision; omega)
    calc leastWeighted multiplier * precision ≤ 100 * precision :=
          mul_le_mul_of_nonneg_right hle (by decide)
      _ ≤ 3000000 * 27397 := by decide
      _ ≤ _ := mul_le_mul hbase hduration (by decide) (by omega)

/-! ### Purchases and claims -/

/-- Every policy has one purchase in the history `h`, which set its premium. -/
structure Purchased (riskMultiplier : CoverageType → ℤ) (h : List (Entry Address))
    (w : World Address) : Prop where
  bought : ∀ id policy, w.policyEntry id = some policy → ∃ y ∈ h, ∃ params, Buys id params y
  premium : ∀ y ∈ h, ∀ id params, Buys id params y → ∃ policy, w.policyEntry id = some policy ∧
    calcPremium riskMultiplier (config y.pre) params = .ok policy.premiumPaid
  unused : ∀ id, (accounting w).nextPolicyId ≤ id → w.policyEntry id = none

variable {self : Address} {h : List (Entry Address)} {w : World Address} {x : Entry Address}

theorem pays_iff {id : ℕ} : Pays id x ↔ x.call.op = .processClaim id := by
  unfold Pays
  split
  · next hop => rw [hop, Op.processClaim.injEq]
  · next hop => exact ⟨False.elim, fun h => hop id h⟩

namespace Purchased

/-- Transactions that leave the policies alone. -/
theorem still (p : Purchased riskMultiplier h x.pre)
    (hp : x.post.policyEntry = x.pre.policyEntry)
    (hn : (accounting x.post).nextPolicyId = (accounting x.pre).nextPolicyId)
    (hx : ∀ id params, ¬ Buys id params x) : Purchased riskMultiplier (h ++ [x]) x.post where
  bought id policy hpolicy := by
    obtain ⟨y, hy, hbuys⟩ := p.bought id policy (hp ▸ hpolicy)
    exact ⟨y, List.mem_append_left _ hy, hbuys⟩
  premium := by
    rw [hp]
    exact forall_mem_snoc p.premium fun id params hb => absurd hb (hx id params)
  unused := by
    rw [hp, hn]
    exact p.unused

/-- A policy is rewritten with its premium. -/
theorem rewritten (p : Purchased riskMultiplier h x.pre) {id : ℕ} {policy policy' : Policy Address}
    (stored : x.pre.policyEntry id = some policy)
    (hp : x.post.policyEntry = Function.update x.pre.policyEntry id (some policy'))
    (hpremium : policy'.premiumPaid = policy.premiumPaid)
    (hn : (accounting x.post).nextPolicyId = (accounting x.pre).nextPolicyId)
    (hx : ∀ id params, ¬ Buys id params x) : Purchased riskMultiplier (h ++ [x]) x.post where
  bought k other hother := by
    have hold : ∃ old, x.pre.policyEntry k = some old := by
      rw [hp] at hother
      rcases update_eq_some hother with ⟨rfl, -⟩ | ⟨-, hother⟩
      · exact ⟨policy, stored⟩
      · exact ⟨other, hother⟩
    obtain ⟨old, hold⟩ := hold
    obtain ⟨y, hy, hbuys⟩ := p.bought k old hold
    exact ⟨y, List.mem_append_left _ hy, hbuys⟩
  premium := by
    rw [hp]
    refine forall_mem_snoc (fun y hy k params hb => ?_) fun k params hb => absurd hb (hx k params)
    obtain ⟨old, hold, hprice⟩ := p.premium y hy k params hb
    rcases stored_update hold stored policy' with ⟨-, rfl, h⟩ | ⟨-, h⟩
    · exact ⟨policy', h, hpremium ▸ hprice⟩
    · exact ⟨old, h, hprice⟩
  unused k hk := by
    rw [hp]
    exact absent_update (p.unused k (hn ▸ hk)) stored

theorem buy [DecidableEq Address] (p : Purchased riskMultiplier h x.pre) {holder : Address}
    {answers : Answers} {premium : ℤ} {policy : Policy Address}
    (e : Bought riskMultiplier self x.pre x.post holder params premium policy)
    (hop : x.call.op = .buyPolicy holder params answers) (hout : x.out = policy.id) :
    Purchased riskMultiplier (h ++ [x]) x.post := by
  have hid : policy.id = (accounting x.pre).nextPolicyId := by rw [e.policy_eq]
  have hfree := p.unused policy.id hid.ge
  have hentry : x.post.policyEntry =
      Function.update x.pre.policyEntry policy.id (some policy) := by rw [e.policies, hid]
  have hbuys : Buys policy.id params x := ⟨holder, answers, hop, hout⟩
  have hpremium : policy.premiumPaid = premium := by rw [e.policy_eq]
  refine ⟨fun k other hother => ?_, ?_, fun k hk => ?_⟩
  · rw [hentry] at hother
    rcases update_eq_some hother with ⟨rfl, -⟩ | ⟨-, hother⟩
    · exact ⟨x, by simp, params, hbuys⟩
    · obtain ⟨y, hy, hold⟩ := p.bought k other hother
      exact ⟨y, List.mem_append_left _ hy, hold⟩
  · rw [hentry]
    refine forall_mem_snoc (fun y hy k params' hb => ?_) fun k params' hb => ?_
    · obtain ⟨old, hold, hprice⟩ := p.premium y hy k params' hb
      exact ⟨old, (Function.update_of_ne (ne_of_absent hfree hold) _ _).trans hold, hprice⟩
    · obtain ⟨holder', answers', hop', hout'⟩ := hb
      obtain ⟨-, rfl, -⟩ := Op.buyPolicy.inj (hop.symm.trans hop')
      obtain rfl : policy.id = k := by exact_mod_cast hout.symm.trans hout'
      exact ⟨policy, Function.update_self _ _ _, hpremium ▸ e.priced⟩
  · rw [e.books] at hk
    simp only at hk
    rw [e.policies, Function.update_of_ne (by omega)]
    exact p.unused k (by omega)

end Purchased

theorem purchased_step [DecidableEq Address]
    (he : Effect riskMultiplier self x.pre x.post x.call.op x.out)
    (p : Purchased riskMultiplier h x.pre) : Purchased riskMultiplier (h ++ [x]) x.post := by
  have hother : (∀ holder params answers, x.call.op ≠ .buyPolicy holder params answers) →
      ∀ id params, ¬ Buys id params x :=
    fun hne id params ⟨holder, answers, hop, _⟩ => hne holder params answers hop
  generalize hop : x.call.op = op at he hother
  generalize hout : x.out = out at he
  cases he with
  | provided e =>
    exact p.still e.policies (by rw [e.books]) (hother fun _ _ _ => nofun)
  | withdrawn e =>
    exact p.still e.policies (by rw [e.books]) (hother fun _ _ _ => nofun)
  | bought e => exact p.buy e hop hout
  | claimed e =>
    exact p.rewritten e.stored e.policies rfl (by rw [e.books]) (hother fun _ _ _ => nofun)
  | expired e =>
    exact p.rewritten e.stored e.policies rfl (by rw [e.books]) (hother fun _ _ _ => nofun)
  | quiet e =>
    refine p.still e.policies (by rw [e.books]) (hother ?_)
    rintro holder params answers rfl
    exact e.unbooked trivial

/-! ### Runs -/

variable [DecidableEq Address]

/-- The state in which a claim of a run is made, with the purchases before it. -/
theorem purchased_at {calls : List (Transaction Address)} {now : ℕ} {ledger : Token Address}
    {g l : List (Entry Address)}
    (hr : (run (step riskMultiplier self) (deployed now ledger) calls).2 = g ++ x :: l) :
    Purchased riskMultiplier g x.pre ∧ Effect riskMultiplier self x.pre x.post x.call.op x.out := by
  have tr := run_trace (step riskMultiplier self) (deployed now ledger) calls
  rw [hr] at tr
  obtain ⟨before, accepted, -⟩ := tr.at_receipt
  have hinit : Purchased riskMultiplier [] (deployed now ledger) :=
    ⟨fun _ _ stored => absurd stored (Option.some_ne_none _).symm, List.forall_mem_nil _,
      fun _ _ => rfl⟩
  obtain ⟨hfresh, p⟩ := effects_history (P := fun _ => True) (I := Purchased riskMultiplier) before
    (fresh_deployed now ledger) (fun _ _ _ he p => purchased_step he p) (fun _ _ => trivial) hinit
  exact ⟨p, (step_effect hfresh accepted).1⟩

/-- In every run the policies that claims pay were bought for a premium exactly when
they were bought at terms that charge. -/
theorem paidFor_iff (riskMultiplier : CoverageType → ℤ) (hrisk : ∀ t, 0 < riskMultiplier t)
    (self : Address) (now : ℕ) (ledger : Token Address) (calls : List (Transaction Address)) :
    let r := run (step riskMultiplier self) (deployed now ledger) calls
    (∀ x ∈ r.2, PaidFor x) ↔ BoughtAtCharge riskMultiplier r.2 := by
  intro r
  constructor
  · intro hpaid g x l id hsplit hpays
    obtain ⟨p, e⟩ := purchased_at hsplit
    have hx : x ∈ r.2 := hsplit ▸ (by simp)
    obtain ⟨policy, hpolicy⟩ : ∃ policy, x.pre.policyEntry id = some policy := by
      rw [pays_iff.mp hpays] at e
      generalize x.out = out at e
      cases e with
      | claimed e => exact ⟨_, e.stored⟩
      | quiet e => exact absurd trivial e.unbooked
    obtain ⟨y, hy, params, hbuys⟩ := p.bought id policy hpolicy
    obtain ⟨policy', hpolicy', hprice⟩ := p.premium y hy id params hbuys
    obtain rfl := Option.some.inj (hpolicy.symm.trans hpolicy')
    exact ⟨y, hy, params, hbuys,
      (calcPremium_pos_iff (hrisk _) hprice).mp (hpaid x hx id policy hpays hpolicy)⟩
  · intro hcharged x hx id policy hpays hpolicy
    obtain ⟨g, l, hsplit⟩ := List.append_of_mem hx
    obtain ⟨p, -⟩ := purchased_at hsplit
    obtain ⟨y, hy, params, hbuys, hcharges⟩ := hcharged g x l id hsplit hpays
    obtain ⟨policy', hpolicy', hprice⟩ := p.premium y hy id params hbuys
    obtain rfl := Option.some.inj (hpolicy.symm.trans hpolicy')
    exact (calcPremium_pos_iff (hrisk _) hprice).mpr hcharges

/-- A policy without a duration, bought and claimed after a reading of the same ledger. -/
def coverForNothing : List (Transaction ℕ) :=
  [⟨[1], .initializeContract 1 8 9⟩, ⟨[2], .provideCapital 2 1000000000⟩,
    ⟨[1], .updateOracle 1 .flightDelay 90⟩,
    ⟨[3], .buyPolicy 3 ⟨200000000, .flightDelay, 0, 60⟩ ⟨true, true, true⟩⟩,
    ⟨[], .processClaim 0⟩]

/-- The holder is paid the coverage without having paid for it. -/
theorem coverForNothing_paid :
    let r := run (step (fun _ => 100) 0) (deployed 1000 poolAccounts) coverForNothing
    ¬ (∀ x ∈ r.2, PaidFor x) ∧ r.1.ledger.balance 3 = poolAccounts.balance 3 + 200000000 := by
  intro r
  refine ⟨fun h => ?_, by decide +kernel⟩
  have hfree : ∃ x ∈ r.2, Pays 0 x ∧
      ∃ policy ∈ x.pre.policyEntry 0, policy.premiumPaid = 0 := by decide +kernel
  obtain ⟨x, hx, hpays, policy, hpolicy, hzero⟩ := hfree
  have hpos := h x hx 0 policy hpays hpolicy
  omega

theorem paidFor_iff_claimAndLapse :
    let r := run (step (fun _ => 100) 0) (deployed 1000 poolAccounts) claimAndLapse
    (∀ x ∈ r.2, PaidFor x) ↔ BoughtAtCharge (fun _ => 100) r.2 :=
  paidFor_iff (fun _ => 100) (fun _ => by decide) 0 1000 poolAccounts claimAndLapse

end RefractContracts.Pool
