import RefractContracts.Pool.Effects

/-! The policy ledger. The coverage total is the sum over the active policies, so
a claim or an expiry never takes more from it than it holds. A policy leaves the
active state once, in time for a claim and after its end for an expiry. -/

namespace RefractContracts.Pool

open Host

variable {Address : Type}

/-- The coverage a policy holds while it is active. -/
def activeCoverage (w : World Address) (id : ℕ) : ℤ :=
  match w.policyEntry id with
  | some policy => if policy.status = .active then policy.coverageAmount else 0
  | none => 0

def statusOf (w : World Address) (id : ℕ) : Option PolicyStatus := (w.policyEntry id).map (·.status)

/-- The configured coverage bounds are not negative. -/
def NonnegBounds (tx : Transaction Address) : Prop :=
  match tx.op with
  | .setPoolConfig _ cfg => 0 ≤ cfg.minCoverage ∧ 0 ≤ cfg.maxCoverage
  | _ => True

/-- The transaction takes the policy out of the active state. -/
def LeavesActive (id : ℕ) (x : Entry Address) : Prop :=
  statusOf x.pre id = some .active ∧ statusOf x.post id ≠ some .active

instance (id : ℕ) (x : Entry Address) : Decidable (LeavesActive id x) :=
  inferInstanceAs (Decidable (_ ∧ _))

/-- The transaction is a payout of the policy. -/
def Pays (id : ℕ) (x : Entry Address) : Prop :=
  match x.call.op with
  | .processClaim i => i = id
  | _ => False

instance (id : ℕ) (x : Entry Address) : Decidable (Pays id x) := by
  unfold Pays
  split <;> infer_instance

/-- How often the policy left the active state, and how often it was paid. -/
def departures (id : ℕ) (h : List (Entry Address)) : ℕ := h.countP (fun x => LeavesActive id x)

def payouts (id : ℕ) (h : List (Entry Address)) : ℕ := h.countP (fun x => Pays id x)

/-- Leaving the active state is a claim in time or an expiry after the end. -/
def LeavesInTime (x : Entry Address) : Prop :=
  ∀ id policy, x.pre.policyEntry id = some policy → LeavesActive id x →
    (statusOf x.post id = some .claimed ∧ x.pre.now ≤ policy.endTime) ∨
      (statusOf x.post id = some .expired ∧ policy.endTime < x.pre.now)

/-- The coverage taken off the total was on it. -/
def Unclamped (x : Entry Address) : Prop :=
  match x.call.op with
  | .processClaim id | .expirePolicy id => ∃ policy, x.pre.policyEntry id = some policy ∧
      policy.coverageAmount ≤ (accounting x.pre).totalCoverage ∧
      (accounting x.post).totalCoverage =
        (accounting x.pre).totalCoverage - policy.coverageAmount
  | _ => True

/-- The ledger of policies after the history `h`. -/
structure PolicyLedger (h : List (Entry Address)) (w : World Address) : Prop where
  total : HasTotal (activeCoverage w) (accounting w).totalCoverage
  nonneg : ∀ id policy, w.policyEntry id = some policy → 0 ≤ policy.coverageAmount
  unused : ∀ id, (accounting w).nextPolicyId ≤ id → w.policyEntry id = none
  minCoverage : 0 ≤ (config w).minCoverage
  left : ∀ id, departures id h =
    if statusOf w id = some .claimed ∨ statusOf w id = some .expired then 1 else 0
  paid : ∀ id, payouts id h = if statusOf w id = some .claimed then 1 else 0
  inTime : ∀ x ∈ h, LeavesInTime x
  unclamped : ∀ x ∈ h, Unclamped x

variable {riskMultiplier : CoverageType → ℤ} {self : Address} {w w' : World Address}

theorem checkCoverageCapacity_bounds {amount n : ℤ} (h : checkCoverageCapacity w amount = .ok n) :
    (config w).minCoverage ≤ amount := by
  simp only [checkCoverageCapacity, bind_eq_ok, bail_eq_ok, not_or, not_lt] at h
  obtain ⟨_, hb, -⟩ := h
  exact hb.1

/-- An operation within the bounds keeps the smallest coverage nonnegative. -/
theorem minCoverage_configAfter {tx : Transaction Address} (h : 0 ≤ (config w).minCoverage)
    (hb : NonnegBounds tx) : 0 ≤ (configAfter w tx.op).minCoverage := by
  unfold configAfter NonnegBounds at *
  split
  · split_ifs
    · exact h
    · decide
  · next hop =>
    rw [hop] at hb
    exact hb.1
  · exact h

theorem activeCoverage_nonneg (hn : ∀ id policy, w.policyEntry id = some policy →
    0 ≤ policy.coverageAmount) (id : ℕ) : 0 ≤ activeCoverage w id := by
  unfold activeCoverage
  split
  · next policy hp =>
    split_ifs
    · exact hn id policy hp
    · exact le_rfl
  · exact le_rfl

theorem activeCoverage_of_active {id : ℕ} {policy : Policy Address}
    (hp : w.policyEntry id = some policy) (ha : policy.status = .active) :
    activeCoverage w id = policy.coverageAmount := by
  simp [activeCoverage, hp, ha]

/-- Replacing one policy changes only its own coverage. -/
theorem activeCoverage_update {id : ℕ} {policy : Policy Address}
    (hw : w'.policyEntry = Function.update w.policyEntry id (some policy)) {j : ℕ} (hj : j ≠ id) :
    activeCoverage w' j = activeCoverage w j := by
  simp [activeCoverage, hw, hj]

theorem statusOf_update {id : ℕ} {policy : Policy Address}
    (hw : w'.policyEntry = Function.update w.policyEntry id (some policy)) :
    statusOf w' = Function.update (statusOf w) id (some policy.status) := by
  funext j
  by_cases hj : j = id
  · simp [statusOf, hw, hj]
  · simp [statusOf, hw, hj]

/-- Settling a policy takes it, and no other, out of the active state. -/
theorem leavesActive_of_settled {x : Entry Address} {id : ℕ} {policy policy' : Policy Address}
    (hp : x.pre.policyEntry id = some policy) (ha : policy.status = .active)
    (hp' : x.post.policyEntry = Function.update x.pre.policyEntry id (some policy'))
    (hne : policy'.status ≠ .active) (j : ℕ) : LeavesActive j x ↔ j = id := by
  unfold LeavesActive
  rw [statusOf_update hp']
  constructor
  · rintro ⟨hpre, hpost⟩
    by_contra hj
    rw [Function.update_of_ne hj] at hpost
    exact hpost hpre
  · rintro rfl
    rw [Function.update_self]
    exact ⟨by simp [statusOf, hp, ha], by simpa using hne⟩

theorem departures_snoc (id : ℕ) (h : List (Entry Address)) (x : Entry Address) :
    departures id (h ++ [x]) = departures id h + if LeavesActive id x then 1 else 0 := by
  simp [departures, List.countP_append, List.countP_cons]

theorem payouts_snoc (id : ℕ) (h : List (Entry Address)) (x : Entry Address) :
    payouts id (h ++ [x]) = payouts id h + if Pays id x then 1 else 0 := by
  simp [payouts, List.countP_append, List.countP_cons]

namespace PolicyLedger

variable {h : List (Entry Address)}

/-- An active policy's coverage is part of the total. -/
theorem coverage_le (l : PolicyLedger h w) {id : ℕ} {policy : Policy Address}
    (hp : w.policyEntry id = some policy) (ha : policy.status = .active) :
    policy.coverageAmount ≤ (accounting w).totalCoverage := by
  rw [← activeCoverage_of_active hp ha]
  exact l.total.single_le (activeCoverage_nonneg l.nonneg) id

/-- Transactions that leave the policies alone. -/
theorem still {x : Entry Address} (l : PolicyLedger h x.pre)
    (hp : x.post.policyEntry = x.pre.policyEntry)
    (hc : (accounting x.post).totalCoverage = (accounting x.pre).totalCoverage)
    (hn : (accounting x.post).nextPolicyId = (accounting x.pre).nextPolicyId)
    (hm : 0 ≤ (config x.post).minCoverage) (hpays : ∀ id, ¬ Pays id x) (hu : Unclamped x) :
    PolicyLedger (h ++ [x]) x.post := by
  have hs : statusOf x.post = statusOf x.pre := by
    funext id
    simp [statusOf, hp]
  have hl : ∀ id, ¬ LeavesActive id x := fun id hl => hl.2 (hs ▸ hl.1)
  refine ⟨?_, by rw [hp]; exact l.nonneg, by rw [hp, hn]; exact l.unused, hm, fun id => ?_,
    fun id => ?_, ?_, ?_⟩
  · rw [hc]
    exact l.total.congr (fun id => by simp [activeCoverage, hp]) rfl
  · rw [departures_snoc, l.left, if_neg (hl id), hs, add_zero]
  · rw [payouts_snoc, l.paid, if_neg (hpays id), hs, add_zero]
  · exact forall_mem_snoc l.inTime fun id _ _ hleave => absurd hleave (hl id)
  · exact forall_mem_snoc l.unclamped hu

/-- An active policy is settled: claimed in time or expired after its end. -/
theorem settle {x : Entry Address} (l : PolicyLedger h x.pre) {id : ℕ}
    {policy policy' : Policy Address} (hp : x.pre.policyEntry id = some policy)
    (ha : policy.status = .active)
    (hp' : x.post.policyEntry = Function.update x.pre.policyEntry id (some policy'))
    (hamt : policy'.coverageAmount = policy.coverageAmount)
    (hc : (accounting x.post).totalCoverage =
      max ((accounting x.pre).totalCoverage - policy.coverageAmount) 0)
    (hn : (accounting x.post).nextPolicyId = (accounting x.pre).nextPolicyId)
    (hm : config x.post = config x.pre)
    (hset : (policy'.status = .claimed ∧ x.pre.now ≤ policy.endTime ∧
        x.call.op = .processClaim id) ∨
      (policy'.status = .expired ∧ policy.endTime < x.pre.now ∧ x.call.op = .expirePolicy id)) :
    PolicyLedger (h ++ [x]) x.post := by
  have hle := l.coverage_le hp ha
  have hc' : (accounting x.post).totalCoverage =
      (accounting x.pre).totalCoverage - policy.coverageAmount := by
    rw [hc]
    exact max_eq_left (by omega)
  have hne : policy'.status ≠ .active := by
    rcases hset with ⟨hs, -⟩ | ⟨hs, -⟩ <;> simp [hs]
  have hother : ∀ j, j ≠ id → statusOf x.post j = statusOf x.pre j := fun j hj => by
    rw [statusOf_update hp', Function.update_of_ne hj]
  have hself : statusOf x.post id = some policy'.status := by
    rw [statusOf_update hp', Function.update_self]
  have hpre : statusOf x.pre id = some .active := by simp [statusOf, hp, ha]
  have hl := leavesActive_of_settled hp ha hp' hne
  refine ⟨?_, fun j p hj => ?_, fun j hj => ?_, hm ▸ l.minCoverage, fun j => ?_, fun j => ?_,
    ?_, ?_⟩
  · refine (l.total.change id fun j hj => activeCoverage_update hp' hj).congr (fun _ => rfl) ?_
    rw [hc', activeCoverage_of_active hp ha, show activeCoverage x.post id = 0 by
      simp [activeCoverage, hp', hne], add_zero]
  · have hnew : 0 ≤ policy'.coverageAmount := hamt ▸ l.nonneg id policy hp
    exact forall_update l.nonneg hp' hnew j p hj
  · rw [hp']
    exact absent_update (l.unused j (hn ▸ hj)) hp
  · rw [departures_snoc, l.left]
    by_cases he : j = id
    · rw [he, if_pos ((hl id).mpr rfl), hpre, hself]
      rcases hset with ⟨hs, -⟩ | ⟨hs, -⟩ <;> simp [hs]
    · rw [if_neg (fun hj => he ((hl j).mp hj)), hother j he, add_zero]
  · rw [payouts_snoc, l.paid]
    by_cases he : j = id
    · rw [he, hpre, hself]
      rcases hset with ⟨hs, -, hop⟩ | ⟨hs, -, hop⟩ <;> simp [hs, Pays, hop]
    · have hnp : ¬ Pays j x := by
        rcases hset with ⟨-, -, hop⟩ | ⟨-, -, hop⟩ <;> simp [Pays, hop, Ne.symm he]
      rw [if_neg hnp, hother j he, add_zero]
  · refine forall_mem_snoc l.inTime fun j p hj hleave => ?_
    obtain rfl := (hl j).mp hleave
    obtain rfl : policy = p := by simpa [hp] using hj
    rw [hself]
    rcases hset with ⟨hs, ht, -⟩ | ⟨hs, ht, -⟩
    · exact .inl ⟨by rw [hs], ht⟩
    · exact .inr ⟨by rw [hs], ht⟩
  · refine forall_mem_snoc l.unclamped ?_
    rcases hset with ⟨-, -, hop⟩ | ⟨-, -, hop⟩ <;>
      simp only [Unclamped, hop] <;> exact ⟨policy, hp, hle, hc'⟩

/-- A purchase adds one active policy under an unused id. -/
theorem buy [DecidableEq Address] {x : Entry Address} {holder : Address} {params : PolicyParams}
    {answers : Answers} {premium : ℤ} {policy : Policy Address} (l : PolicyLedger h x.pre)
    (e : Bought riskMultiplier self x.pre x.post holder params premium policy)
    (hop : x.call.op = .buyPolicy holder params answers) : PolicyLedger (h ++ [x]) x.post := by
  set id := (accounting x.pre).nextPolicyId with hid
  have hnone : x.pre.policyEntry id = none := l.unused id le_rfl
  have hpost := e.policies
  have hamt : policy.coverageAmount = params.coverageAmount := by rw [e.policy_eq]
  have hact : policy.status = .active := by rw [e.policy_eq]
  have hnonneg : 0 ≤ params.coverageAmount :=
    l.minCoverage.trans (checkCoverageCapacity_bounds e.capacity)
  have hother : ∀ j, j ≠ id → statusOf x.post j = statusOf x.pre j := fun j hj => by
    rw [statusOf_update hpost, Function.update_of_ne hj]
  have hpre : statusOf x.pre id = none := by simp [statusOf, hnone]
  have hself : statusOf x.post id = some .active := by
    rw [statusOf_update hpost, Function.update_self, hact]
  have hl : ∀ j, ¬ LeavesActive j x := fun j hl => by
    by_cases hj : j = id
    · simp [LeavesActive, hj, hpre] at hl
    · exact hl.2 (hother j hj ▸ hl.1)
  refine ⟨?_, fun j p hj => ?_, fun j hj => ?_, e.config ▸ l.minCoverage, fun j => ?_, fun j => ?_,
    ?_, ?_⟩
  · refine (l.total.change id fun j hj => activeCoverage_update hpost hj).congr (fun _ => rfl) ?_
    have hzero : activeCoverage x.pre id = 0 := by simp [activeCoverage, hnone]
    have hnew : activeCoverage x.post id = params.coverageAmount := by
      rw [activeCoverage_of_active (by rw [hpost, Function.update_self]) hact, hamt]
    rw [e.books, hzero, hnew, sub_zero]
  · exact forall_update l.nonneg hpost (hamt ▸ hnonneg) j p hj
  · rw [e.books] at hj
    simp only [← hid] at hj
    rw [hpost, Function.update_of_ne (by omega)]
    exact l.unused j (by omega)
  · rw [departures_snoc, l.left, if_neg (hl j), add_zero]
    by_cases he : j = id
    · simp [he, hpre, hself]
    · rw [hother j he]
  · have hnp : ¬ Pays j x := by simp [Pays, hop]
    rw [payouts_snoc, l.paid, if_neg hnp, add_zero]
    by_cases he : j = id
    · simp [he, hpre, hself]
    · rw [hother j he]
  · exact forall_mem_snoc l.inTime fun j _ _ hleave => absurd hleave (hl j)
  · exact forall_mem_snoc l.unclamped (by simp only [Unclamped, hop])

end PolicyLedger

theorem policyLedger_step [DecidableEq Address] {h : List (Entry Address)} {x : Entry Address}
    (hb : NonnegBounds x.call) (he : Effect riskMultiplier self x.pre x.post x.call.op x.out)
    (l : PolicyLedger h x.pre) : PolicyLedger (h ++ [x]) x.post := by
  generalize hop : x.call.op = op at he
  generalize hout : x.out = out at he
  cases he with
  | provided e =>
    exact l.still e.policies (by rw [e.books]) (by rw [e.books]) (e.config ▸ l.minCoverage)
      (by simp [Pays, hop]) (by simp [Unclamped, hop])
  | withdrawn e =>
    exact l.still e.policies (by rw [e.books]) (by rw [e.books]) (e.config ▸ l.minCoverage)
      (by simp [Pays, hop]) (by simp [Unclamped, hop])
  | bought e => exact l.buy e hop
  | claimed e =>
    exact l.settle e.stored e.active e.policies rfl (by rw [e.books]) (by rw [e.books]) e.config
      (.inl ⟨rfl, e.inTime, hop⟩)
  | expired e =>
    exact l.settle e.stored e.active e.policies rfl (by rw [e.books]) (by rw [e.books]) e.config
      (.inr ⟨rfl, e.lapsed, hop⟩)
  | quiet e =>
    subst hop
    have hmin : 0 ≤ (config x.post).minCoverage := by
      rw [e.config]
      exact minCoverage_configAfter l.minCoverage hb
    refine l.still e.policies (by rw [e.books]) (by rw [e.books]) hmin (fun id hp => ?_) ?_
    · unfold Pays at hp
      split at hp
      · next hop => exact e.unbooked (by simp [hop, Op.Books])
      · exact hp
    · unfold Unclamped
      split
      · next hop => exact absurd (by simp [hop, Op.Books]) e.unbooked
      · next hop => exact absurd (by simp [hop, Op.Books]) e.unbooked
      · trivial

theorem policyLedger_deployed (now : ℕ) (ledger : Token Address) :
    PolicyLedger [] (deployed now ledger) where
  total := .zero
  nonneg _ _ h := by simp [deployed] at h
  unused _ _ := rfl
  minCoverage := by simp [config, deployed, precision]
  left _ := rfl
  paid _ := rfl
  inTime := by simp
  unclamped := by simp

/-- In every run the coverage total is the active coverage, a policy leaves the
active state at most once and in time, it is paid at most once, and no clamp acts. -/
theorem policies_ledgered [DecidableEq Address] (riskMultiplier : CoverageType → ℤ)
    (self : Address) (now : ℕ) (ledger : Token Address) (calls : List (Transaction Address))
    (hb : ∀ tx ∈ calls, NonnegBounds tx) :
    let r := run (step riskMultiplier self) (deployed now ledger) calls
    HasTotal (activeCoverage r.1) (accounting r.1).totalCoverage ∧
      (∀ id, departures id r.2 ≤ 1) ∧ (∀ x ∈ r.2, LeavesInTime x) ∧
      (∀ id, payouts id r.2 ≤ 1) ∧ ∀ x ∈ r.2, Unclamped x := by
  intro r
  have l : PolicyLedger r.2 r.1 := (effects_history (run_trace (step riskMultiplier self) _ calls)
    (fresh_deployed now ledger) (fun g x hx he l => policyLedger_step hx he l)
    (fun x hx => hb _ (mem_run_call hx)) (policyLedger_deployed now ledger)).2
  refine ⟨l.total, fun id => ?_, l.inTime, fun id => ?_, l.unclamped⟩
  · rw [l.left]
    split_ifs <;> omega
  · rw [l.paid]
    split_ifs <;> omega

/-- A purchase that is claimed after a reading, and one that lapses. -/
def claimAndLapse : List (Transaction ℕ) :=
  [⟨[1], .initializeContract 1 8 9⟩, ⟨[2], .provideCapital 2 1000000000⟩,
    ⟨[3], .buyPolicy 3 ⟨200000000, .flightDelay, 30, 60⟩ ⟨true, true, true⟩⟩,
    ⟨[3], .buyPolicy 3 ⟨100000000, .marketCrash, 1, 3000⟩ ⟨true, true, true⟩⟩,
    ⟨[1], .updateOracle 1 .flightDelay 90⟩, ⟨[], .processClaim 0⟩, ⟨[], .advance 90000⟩,
    ⟨[], .expirePolicy 1⟩]

def poolAccounts : Token ℕ := (Token.empty.mint 2 10000000000).mint 3 10000000000

theorem policies_ledgered_claimAndLapse :
    let r := run (step (fun _ => 100) 0) (deployed 1000 poolAccounts) claimAndLapse
    HasTotal (activeCoverage r.1) (accounting r.1).totalCoverage ∧
      (∀ id, departures id r.2 ≤ 1) ∧ (∀ x ∈ r.2, LeavesInTime x) ∧
      (∀ id, payouts id r.2 ≤ 1) ∧ ∀ x ∈ r.2, Unclamped x :=
  policies_ledgered (fun _ => 100) 0 1000 poolAccounts claimAndLapse
    (by simp [claimAndLapse, NonnegBounds])

end RefractContracts.Pool
