import RefractContracts.PolicyRegistry.Effects
import RefractContracts.Pool.Policies

/-! The pool next to its policy registry. A purchase registers the policy and fails with
the registration; a claim and an expiry deactivate the record and do not depend on it.
While the pool writes to one registry that trusts it, and nobody else writes there, the
registry's records are the pool's policies. -/

namespace RefractContracts.Pool

open Host

variable {Address : Type}

/-- The pool and the registry. -/
structure System (Address : Type) where
  pool : World Address
  registry : PolicyRegistry.World Address

/-- The contracts before their calls of `initialize`. -/
def System.deployed (now : ℕ) (ledger : Token Address) : System Address where
  pool := Pool.deployed now ledger
  registry := PolicyRegistry.deployed Address now

/-- The registry at the pool's time. -/
def System.clocked (s : System Address) : PolicyRegistry.World Address :=
  { s.registry with now := s.pool.now }

/-- The private functions without a body in the file: the risk multiplier, the registry's
name of a coverage type, and what the deactivation of a policy makes of the registry. -/
structure Helpers (Address : Type) where
  riskMultiplier : CoverageType → ℤ
  toRegistryCoverageType : CoverageType → PolicyRegistry.CoverageType
  deactivateInRegistry : World Address → PolicyRegistry.World Address → ℕ →
    PolicyRegistry.World Address

variable (H : Helpers Address)

/-- What `buy_policy` sends to the registry about the policy. -/
def registration (policy : Policy Address) : PolicyRegistry.PolicyRegistration Address where
  policyId := policy.id
  holder := policy.holder
  coverageType := H.toRegistryCoverageType policy.coverageType
  coverageAmount := policy.coverageAmount
  premium := policy.premiumPaid
  expiresAt := policy.endTime

/-- The policy that an operation settles. -/
def Op.settles : Op Address → Option ℕ
  | .processClaim id | .expirePolicy id => some id
  | _ => none

/-- The pool is in state `w` after `op`, and the registry in the state that a settlement
leaves it in. -/
def System.settle (s : System Address) (w : World Address) (op : Op Address) : System Address where
  pool := w
  registry := match op.settles with
    | some id => H.deactivateInRegistry w s.clocked id
    | none => s.registry

inductive SystemOp (Address : Type) where
  | pool (op : Op Address)
  | registry (op : PolicyRegistry.Op Address)

structure SystemTransaction (Address : Type) where
  signers : List Address
  op : SystemOp Address

inductive SystemError where
  | pool (e : PoolError)
  | registry (e : PolicyRegistry.RegistryError)
  deriving DecidableEq, Repr

variable [DecidableEq Address]

/-- A purchase by the pool, which indexes its policies in the registry. The exposure is
recorded at the backstop once the policy is registered. -/
def buyIndexed (pool : Address) (signers : List Address) (s : System Address) (holder : Address)
    (params : PolicyParams) (answers : Answers) : Outcome SystemError (System Address × ℤ) := do
  let (w, id) ← embed .pool (buyPolicy H.riskMultiplier pool (signers.filter (· ≠ pool)) s.pool
    holder params { answers with registered := true, recorded := true })
  let policy ← okOr (w.policyEntry id) (.pool .policyNotFound)
  let (registry, _) ← invoke
    (PolicyRegistry.registerPolicy (pool :: signers) s.clocked pool (registration H policy))
  bail (s.pool.backstopEntry.isSome ∧ ¬ answers.recorded) (.pool .feedCapExceeded)
  pure (⟨w, registry⟩, id)

/-- One transaction of the pool or of the registry, at the addresses `pool` and `registry`.
The pool calls the registry it has stored, which may be another one. -/
def systemStep (pool registry : Address) :
    Contract (System Address) (SystemTransaction Address) ℤ SystemError := fun s tx =>
  match tx.op with
  | .pool (.buyPolicy holder params answers) =>
    if s.pool.policyRegistryEntry = some registry then
      buyIndexed H pool tx.signers s holder params answers
    else do
      let (w, out) ← embed .pool (step H.riskMultiplier pool s.pool
        ⟨tx.signers, .buyPolicy holder params answers⟩)
      pure ({ s with pool := w }, out)
  | .pool op => do
    let (w, out) ← embed .pool (step H.riskMultiplier pool s.pool ⟨tx.signers, op⟩)
    pure (s.settle H w op, out)
  | .registry op => do
    let (r, out) ← embed .registry
      (PolicyRegistry.step s.clocked ⟨tx.signers.filter (· ≠ pool), op⟩)
    pure ({ s with registry := r }, (out : ℤ))

abbrev SystemEvent (Address : Type) :=
  Receipt (System Address) (SystemTransaction Address) ℤ

/-- The deactivation calls `deactivate_policy` of the registry as the pool; where the call
is refused the registry stays as it is. -/
def Helpers.Deactivates (pool registry : Address) : Prop :=
  ∀ w r id, w.policyRegistryEntry = some registry → H.deactivateInRegistry w r id =
    after PolicyRegistry.step r ⟨[pool], .deactivatePolicy pool id⟩

/-- The registry's record of a policy. -/
def mirror (policy : Policy Address) : PolicyRegistry.PolicyRecord Address where
  policyId := policy.id
  holder := policy.holder
  coverageType := H.toRegistryCoverageType policy.coverageType
  coverageAmount := policy.coverageAmount
  premium := policy.premiumPaid
  expiresAt := policy.endTime
  isActive := policy.status = .active
  createdAt := policy.startTime

/-! ### Who writes -/

/-- The operations of the pool that write to the registry. -/
def Op.Indexes : Op Address → Prop
  | .buyPolicy .. | .processClaim _ | .expirePolicy _ => True
  | _ => False

/-- The pool indexes its policies in this registry, which trusts the pool. -/
structure Linked (pool registry : Address) (s : System Address) : Prop where
  indexed : s.pool.policyRegistryEntry = some registry
  trusted : PolicyRegistry.Trusted s.registry pool

/-- The registry trusts the pool when the pool writes to it, and nobody else writes. -/
def Exclusive (pool registry : Address) (x : SystemEvent Address) : Prop :=
  match x.call.op with
  | .pool op => op.Indexes → Linked pool registry x.pre
  | .registry (.registerPolicy ..) | .registry (.deactivatePolicy ..) => False
  | .registry _ => True

instance (op : Op Address) : Decidable op.Indexes := by
  unfold Op.Indexes
  split <;> infer_instance

instance (pool registry : Address) (s : System Address) : Decidable (Linked pool registry s) :=
  decidable_of_iff (s.pool.policyRegistryEntry = some registry ∧
      (s.registry.adminEntry = some pool ∨ s.registry.poolContractEntry = some pool))
    ⟨fun h => ⟨h.1, h.2⟩, fun h => ⟨h.indexed, h.trusted⟩⟩

instance (pool registry : Address) (x : SystemEvent Address) :
    Decidable (Exclusive pool registry x) := by
  unfold Exclusive
  split <;> infer_instance

/-! ### One transaction -/

/-- The registry's records are the pool's policies, which have the ids assigned so far. -/
structure Mirrored (s : System Address) : Prop where
  fresh : Fresh s.pool
  assigned : ∀ id, (s.pool.policyEntry id).isSome ↔ id < (accounting s.pool).nextPolicyId
  records : Mirrors (mirror H) s.pool.policyEntry s.registry.policyEntry
  managed : ∀ id record, s.registry.policyEntry id = some record → s.registry.adminEntry.isSome

variable {H} {pool registry : Address} {s s' : System Address} {w : World Address}
  {r : PolicyRegistry.World Address} {signers : List Address} {out : ℤ}

omit [DecidableEq Address] in
theorem Op.settles_eq_none {op : Op Address} (h : ¬ op.Books) : op.settles = none := by
  cases op with
  | processClaim | expirePolicy => exact absurd trivial h
  | _ => rfl

theorem policyRegistryEntry_of_settles {op : Op Address} {id : ℕ} (kind : op.settles = some id)
    (h : step H.riskMultiplier pool s.pool ⟨signers, op⟩ = .ok (w, out)) :
    w.policyRegistryEntry = s.pool.policyRegistryEntry := by
  cases op with
  | processClaim =>
    simp only [step, processClaim, bind_eq_ok, pure_eq_ok, Prod.mk.injEq] at h
    obtain ⟨-, -, -, -, -, -, -, -, -, -, -, -, -, -, -, -, -, -, rfl, -⟩ := h
    rfl
  | expirePolicy =>
    simp only [step, expirePolicy, bind_eq_ok, pure_eq_ok, Prod.mk.injEq] at h
    obtain ⟨_, ⟨-, -, -, -, -, -, -, -, rfl⟩, rfl, -⟩ := h
    rfl
  | _ => cases kind

/-- A transaction of the pool other than a purchase is made by the pool alone, and settled. -/
theorem systemStep_pool {op : Op Address}
    (hop : ∀ holder params answers, op ≠ .buyPolicy holder params answers)
    (h : systemStep H pool registry s ⟨signers, .pool op⟩ = .ok (s', out)) :
    ∃ w, step H.riskMultiplier pool s.pool ⟨signers, op⟩ = .ok (w, out) ∧ s' = s.settle H w op := by
  cases op with
  | buyPolicy holder params answers => exact absurd rfl (hop holder params answers)
  | _ =>
    simp only [systemStep, bind_eq_ok, embed_eq_ok, pure_eq_ok, Prod.mk.injEq] at h
    obtain ⟨⟨w, _⟩, h, rfl, rfl⟩ := h
    exact ⟨w, h, rfl⟩

omit [DecidableEq Address] in
theorem mirror_settled {policy policy' : Policy Address} (hstatus : policy'.status ≠ .active)
    (hkept : { policy' with status := policy.status, payoutAt := policy.payoutAt } = policy) :
    { mirror H policy with isActive := false } = mirror H policy' := by
  rw [← hkept]
  simp [mirror, hstatus]

/-- The trusted pool's deactivation of an active record is accepted. -/
theorem deactivatePolicy_accepted {id : ℕ} {record : PolicyRegistry.PolicyRecord Address}
    (trusted : PolicyRegistry.Trusted r pool) (managed : r.adminEntry.isSome)
    (stored : r.policyEntry id = some record) (active : record.isActive = true) :
    after PolicyRegistry.step r ⟨[pool], .deactivatePolicy pool id⟩ = r.deactivate id record := by
  have haccess : PolicyRegistry.requirePoolOrAdmin [pool] r pool = .ok () := by
    obtain ⟨admin, hadmin⟩ := Option.isSome_iff_exists.mp managed
    simp only [PolicyRegistry.requirePoolOrAdmin, bind_eq_ok, requireAuth_eq_ok, okOr_eq_ok]
    refine ⟨(), List.mem_singleton_self pool, admin, hadmin, ?_⟩
    split_ifs with hcaller
    · rfl
    · have hpool : r.poolContractEntry = some pool :=
        trusted.resolve_left fun h => hcaller (Option.some.inj (hadmin.symm.trans h))
      simp [hpool]
  refine after_ok (o := 0) ?_
  simp only [PolicyRegistry.step, PolicyRegistry.deactivatePolicy, haccess, bind_eq_ok, okOr_eq_ok,
    pure_eq_ok]
  refine ⟨_, ⟨(), trivial, record, stored, ?_⟩, rfl⟩
  rw [if_pos active]
  rfl

namespace Mirrored

omit [DecidableEq Address] in
theorem deployed (H : Helpers Address) (now : ℕ) (ledger : Token Address) :
    Mirrored H (.deployed now ledger) :=
  ⟨fresh_deployed now ledger, fun id => by simp [System.deployed, Pool.deployed, accounting],
    fun _ => rfl, nofun⟩

omit [DecidableEq Address] in
/-- A change of the pool that leaves the policies. -/
theorem kept (m : Mirrored H s) (fresh : Fresh w) (policies : w.policyEntry = s.pool.policyEntry)
    (next : (accounting w).nextPolicyId = (accounting s.pool).nextPolicyId) :
    Mirrored H { s with pool := w } := by
  refine ⟨fresh, fun id => ?_, ?_, m.managed⟩
  · dsimp only
    rw [policies, next]
    exact m.assigned id
  · dsimp only
    rw [policies]
    exact m.records

/-- A purchase and its registration. -/
theorem bought {holder : Address} {params : PolicyParams} {premium : ℤ} {policy : Policy Address}
    (m : Mirrored H s) (fresh : Fresh w)
    (e : Bought H.riskMultiplier pool s.pool w holder params premium policy) {out : ℕ}
    (er : PolicyRegistry.Effect s.clocked r (.registerPolicy pool (registration H policy)) out) :
    Mirrored H ⟨w, r⟩ := by
  have hid : policy.id = (accounting s.pool).nextPolicyId := by rw [e.policy_eq]
  have hnext : (accounting w).nextPolicyId = (accounting s.pool).nextPolicyId + 1 := by
    rw [e.books]
  cases er with
  | registered managed trusted unused =>
    refine ⟨fresh, fun id => ?_, ?_, fun _ _ _ => managed⟩
    · dsimp only
      rw [e.policies, hnext]
      by_cases hid' : id = (accounting s.pool).nextPolicyId
      · simp [hid']
      · rw [Function.update_of_ne hid', m.assigned id]
        omega
    · have hrecord : (registration H policy).record s.clocked.now = mirror H policy := by
        rw [e.policy_eq]
        rfl
      change Mirrors (mirror H) w.policyEntry (Function.update s.registry.policyEntry policy.id
        (some ((registration H policy).record s.clocked.now)))
      rw [e.policies, hrecord, hid]
      exact m.records.write _ policy

  | administered kind => exact absurd kind id

/-- A settlement, which deactivates the record. -/
theorem settled {id : ℕ} {policy policy' : Policy Address} (m : Mirrored H s) (fresh : Fresh w)
    (hH : H.Deactivates pool registry) (indexed : w.policyRegistryEntry = some registry)
    (trusted : PolicyRegistry.Trusted s.registry pool)
    (stored : s.pool.policyEntry id = some policy) (active : policy.status = .active)
    (policies : w.policyEntry = Function.update s.pool.policyEntry id (some policy'))
    (next : (accounting w).nextPolicyId = (accounting s.pool).nextPolicyId)
    (hrecord : { mirror H policy with isActive := false } = mirror H policy') :
    Mirrored H ⟨w, H.deactivateInRegistry w s.clocked id⟩ := by
  have hstored : s.clocked.policyEntry id = some (mirror H policy) := m.records.stored stored
  have hmanaged : s.clocked.adminEntry.isSome := m.managed id _ hstored
  have hactive : (mirror H policy).isActive = true := decide_eq_true active
  have htrusted : PolicyRegistry.Trusted s.clocked pool := trusted
  rw [hH w s.clocked id indexed, deactivatePolicy_accepted htrusted hmanaged hstored hactive]
  refine ⟨fresh, fun j => ?_, ?_, fun _ _ _ => hmanaged⟩
  · dsimp only
    rw [policies, next]
    by_cases hj : j = id
    · have hassigned := (m.assigned id).mp (by rw [stored]; rfl)
      rw [hj, Function.update_self]
      exact iff_of_true rfl hassigned
    · rw [Function.update_of_ne hj]
      exact m.assigned j
  · change Mirrors (mirror H) w.policyEntry (Function.update s.registry.policyEntry id
      (some { mirror H policy with isActive := false }))
    rw [policies, hrecord]
    exact m.records.write id policy'

/-- A transaction of the pool other than a purchase. -/
theorem pool_step {op : Op Address} (m : Mirrored H s) (hH : H.Deactivates pool registry)
    (linked : op.Indexes → Linked pool registry s)
    (hop : ∀ holder params answers, op ≠ .buyPolicy holder params answers)
    (h : step H.riskMultiplier pool s.pool ⟨signers, op⟩ = .ok (w, out)) :
    Mirrored H (s.settle H w op) := by
  obtain ⟨he, fresh⟩ := step_effect m.fresh h
  have e : Effect H.riskMultiplier pool s.pool w op out := he
  cases e with
  | provided e | withdrawn e => exact m.kept fresh e.policies (by rw [e.books])
  | bought e => exact absurd rfl (hop _ _ _)
  | @claimed id policy e =>
    obtain ⟨indexed, trusted⟩ := linked trivial
    have hentry := (policyRegistryEntry_of_settles rfl h).trans indexed
    exact m.settled fresh hH hentry trusted e.stored e.active e.policies (by rw [e.books])
      (mirror_settled nofun rfl)
  | @expired id policy e =>
    obtain ⟨indexed, trusted⟩ := linked trivial
    have hentry := (policyRegistryEntry_of_settles rfl h).trans indexed
    exact m.settled fresh hH hentry trusted e.stored e.active e.policies (by rw [e.books])
      (mirror_settled nofun rfl)
  | quiet e =>
    unfold System.settle
    rw [Op.settles_eq_none e.unbooked]
    exact m.kept fresh e.policies (by rw [e.books])

/-- A transaction of the registry that writes no record. -/
theorem registry_step {op : PolicyRegistry.Op Address} {out : ℕ} (m : Mirrored H s)
    (e : PolicyRegistry.Effect s.clocked r op out)
    (hregister : ∀ caller reg, op ≠ .registerPolicy caller reg)
    (hdeactivate : ∀ caller id, op ≠ .deactivatePolicy caller id) :
    Mirrored H { s with registry := r } := by
  cases e with
  | registered => exact absurd rfl (hregister _ _)
  | deactivated | idle => exact absurd rfl (hdeactivate _ _)
  | initialized => exact ⟨m.fresh, m.assigned, m.records, fun _ _ _ => rfl⟩
  | administered kind managed => exact ⟨m.fresh, m.assigned, m.records, fun _ _ _ => managed⟩
  | _ => exact ⟨m.fresh, m.assigned, m.records, m.managed⟩

/-- A purchase that is registered here. -/
theorem purchase {holder : Address} {params : PolicyParams} {answers : Answers} (m : Mirrored H s)
    (h : buyIndexed H pool signers s holder params answers = .ok (s', out)) : Mirrored H s' := by
  simp only [buyIndexed, bind_eq_ok, embed_eq_ok, invoke_eq_ok, okOr_eq_ok, pure_eq_ok,
    Prod.mk.injEq] at h
  obtain ⟨⟨w, id⟩, hbuy, stored, hstored, ⟨r, out⟩, hregister, -, -, rfl, -⟩ := h
  have hself : pool ∉ signers.filter (· ≠ pool) := by simp
  obtain ⟨premium, policy, rfl, e⟩ := buyPolicy_effect hself hbuy
  have hpolicy : stored = policy := by
    rw [e.policies, e.policy_eq, Function.update_self] at hstored
    rw [e.policy_eq]
    exact (Option.some.inj hstored).symm
  rw [hpolicy] at hregister
  have fresh : Fresh w := fun hn => by simp [e.live] at hn
  exact m.bought fresh e (PolicyRegistry.registerPolicy_ok hregister)

theorem step {x : SystemEvent Address} (m : Mirrored H x.pre) (hH : H.Deactivates pool registry)
    (exclusive : Exclusive pool registry x)
    (accepted : systemStep H pool registry x.pre x.call = .ok (x.post, x.out)) :
    Mirrored H x.post := by
  obtain ⟨s, ⟨signers, op⟩, out, s'⟩ := x
  cases op with
  | pool op =>
    by_cases hop : ∀ holder params answers, op ≠ .buyPolicy holder params answers
    · obtain ⟨w, h, hpost⟩ := systemStep_pool hop accepted
      have linked : op.Indexes → Linked pool registry s := exclusive
      obtain rfl : s' = s.settle H w op := hpost
      exact m.pool_step hH linked hop h
    · push Not at hop
      obtain ⟨holder, params, answers, rfl⟩ := hop
      have linked : Linked pool registry s := exclusive trivial
      simp only [systemStep, linked.indexed, if_true] at accepted
      exact m.purchase accepted
  | registry op =>
    simp only [systemStep, bind_eq_ok, embed_eq_ok, pure_eq_ok, Prod.mk.injEq] at accepted
    obtain ⟨⟨r, out⟩, h, rfl, -⟩ := accepted
    have e := PolicyRegistry.step_effect h
    refine m.registry_step e ?_ ?_
    · rintro caller reg rfl
      exact exclusive
    · rintro caller id rfl
      exact exclusive

end Mirrored

/-! ### Runs -/

/-- In every run in which the pool writes to this registry only, which trusts the pool then,
and nobody else writes there, the registry has a record exactly for the ids the pool has
assigned: that of the pool's policy, active while the policy is. -/
theorem registry_mirrors (H : Helpers Address) (pool registry : Address) (now : ℕ)
    (ledger : Token Address) (calls : List (SystemTransaction Address))
    (hH : H.Deactivates pool registry)
    (exclusive : ∀ x ∈ (run (systemStep H pool registry) (.deployed now ledger) calls).2,
      Exclusive pool registry x) :
    let s := (run (systemStep H pool registry) (.deployed now ledger) calls).1
    (∀ id, (s.registry.policyEntry id).isSome ↔ id < (accounting s.pool).nextPolicyId) ∧
      ∀ id record, s.registry.policyEntry id = some record →
        ∃ policy, s.pool.policyEntry id = some policy ∧ record.holder = policy.holder ∧
          record.coverageAmount = policy.coverageAmount ∧ record.premium = policy.premiumPaid ∧
          record.expiresAt = policy.endTime ∧
          (record.isActive = true ↔ policy.status = .active) := by
  intro s
  have m : Mirrored H s := (run_trace _ _ calls).invariant_of
    (fun x hx accepted m => m.step hH hx accepted) exclusive (.deployed H now ledger)
  refine ⟨fun id => ?_, fun id record hrecord => ?_⟩
  · rw [m.records.isSome, m.assigned]
  · rw [m.records id, Option.map_eq_some_iff] at hrecord
    obtain ⟨policy, hpolicy, rfl⟩ := hrecord
    exact ⟨policy, hpolicy, rfl, rfl, rfl, rfl, decide_eq_true_iff⟩

/-- Helpers whose deactivation calls the registry at the address 9. -/
def callingHelpers : Helpers ℕ where
  riskMultiplier _ := 100
  toRegistryCoverageType
    | .stablecoinDepeg => .stablecoinDepeg
    | .marketCrash => .marketCrash
    | .liquidationShield => .liquidationShield
    | .smartContractRisk => .smartContractRisk
    | .flightDelay => .flightDelay
  deactivateInRegistry w r id :=
    if w.policyRegistryEntry = some 9 then
      after PolicyRegistry.step r ⟨[0], .deactivatePolicy 0 id⟩
    else r

/-- Two policies, of which one is claimed and one expires. -/
def mirroredCalls : List (SystemTransaction ℕ) :=
  ⟨[], .registry (.initializeContract 1 0)⟩ ::
    claimAndLapse.map fun tx => ⟨tx.signers, .pool tx.op⟩

theorem registry_mirrors_claimAndLapse :
    let s := (run (systemStep callingHelpers 0 9) (.deployed 1000 poolAccounts) mirroredCalls).1
    (∀ id, (s.registry.policyEntry id).isSome ↔ id < (accounting s.pool).nextPolicyId) ∧
      ∀ id record, s.registry.policyEntry id = some record →
        ∃ policy, s.pool.policyEntry id = some policy ∧ record.holder = policy.holder ∧
          record.coverageAmount = policy.coverageAmount ∧ record.premium = policy.premiumPaid ∧
          record.expiresAt = policy.endTime ∧
          (record.isActive = true ↔ policy.status = .active) :=
  registry_mirrors callingHelpers 0 9 1000 poolAccounts mirroredCalls (fun _ _ _ h => if_pos h)
    (by decide +kernel)

end RefractContracts.Pool
