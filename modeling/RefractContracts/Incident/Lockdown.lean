import RefractContracts.Host.Handover
import RefractContracts.Host.History
import RefractContracts.Incident.Contract

/-! Who holds the contracts in an emergency. A lockdown goes through only for a caller that is at
once the admin of the pool and of the registry, so a guardian that is neither cannot do anything,
however the transactions are ordered. After a lockdown the pool is the new admin's at once, and the
registry and the oracle once the new admin has accepted, which works as long as the old admin has
not proposed another one; from then on nothing changes hands without the new admin's signature. -/

namespace RefractContracts.Incident

open Host

variable {Address : Type}

abbrev Event (Address : Type) := Receipt (System Address) (Transaction Address) ℤ

/-! ### Admins of the three contracts -/

section Admins
variable [DecidableEq Address]

/-- The admin of the pool, and whether it is initialized. -/
def poolAdmin (w : Pool.World Address) : Option Address × Bool := (w.adminEntry, w.isInitialized)

/-- The admin of the registry, and the proposed one. -/
def registryAdmin (r : PolicyRegistry.World Address) : Option Address × Option Address :=
  (r.adminEntry, r.pendingAdminEntry)

def oracleAdmin (o : Oracle.World Address) : Option Address × Option Address :=
  (o.adminEntry, o.pendingAdminEntry)

section Pool
variable {riskMultiplier : Pool.CoverageType → ℤ} {self : Address} {signers : List Address}
  {w w' : Pool.World Address} {out : ℤ}

theorem buyPolicy_admin {holder : Address} {params : Pool.PolicyParams} {answers : Pool.Answers} :
    Ensures (Pool.buyPolicy riskMultiplier self signers w holder params answers)
      fun r => poolAdmin r.1 = poolAdmin w := by
  unfold Pool.buyPolicy
  repeat' refine ensures_bind fun _ _ => ?_
  exact ensures_pure rfl

theorem provideCapital_admin {provider : Address} {amount : ℤ} :
    Ensures (Pool.provideCapital self signers w provider amount)
      fun r => poolAdmin r.1 = poolAdmin w := by
  unfold Pool.provideCapital
  repeat' refine ensures_bind fun _ _ => ?_
  exact ensures_pure rfl

theorem withdrawCapital_admin {provider : Address} {shares : ℤ} :
    Ensures (Pool.withdrawCapital self signers w provider shares)
      fun r => poolAdmin r.1 = poolAdmin w := by
  unfold Pool.withdrawCapital
  repeat' refine ensures_bind fun _ _ => ?_
  exact ensures_pure rfl

theorem processClaim_admin {policyId : ℕ} :
    Ensures (Pool.processClaim self w policyId) fun r => poolAdmin r.1 = poolAdmin w := by
  unfold Pool.processClaim
  repeat' refine ensures_bind fun _ _ => ?_
  exact ensures_pure rfl

omit [DecidableEq Address] in
theorem expirePolicy_admin {policyId : ℕ} :
    Ensures (Pool.expirePolicy w policyId) fun w' => poolAdmin w' = poolAdmin w := by
  unfold Pool.expirePolicy
  repeat' refine ensures_bind fun _ _ => ?_
  exact ensures_pure rfl

/-- The admin of the pool changes by `initialize`, and by the admin's `set_admin`. -/
theorem pool_admin {op : Pool.Op Address}
    (h : Pool.step riskMultiplier self w ⟨signers, op⟩ = .ok (w', out)) :
    poolAdmin w' = poolAdmin w ∨ (w.isInitialized = false ∧ w'.isInitialized = true) ∨
      ∃ caller ∈ signers, w.adminEntry = some caller ∧ w'.isInitialized = w.isInitialized := by
  cases op with simp only [Pool.step] at h
  | initializeContract admin usdcToken policyRegistry =>
    simp only [Pool.initializeContract, bind_eq_ok, bail_eq_ok, pure_eq_ok, Prod.mk.injEq] at h
    obtain ⟨_, ⟨_, hfresh, _, -, rfl⟩, rfl, -⟩ := h
    exact .inr (.inl ⟨Bool.eq_false_of_not_eq_true hfresh, rfl⟩)
  | setAdmin caller newAdmin =>
    simp only [Pool.setAdmin, Pool.requireAdmin, bind_eq_ok, requireAuth_eq_ok, okOr_eq_ok,
      bail_eq_ok, not_not, pure_eq_ok, Prod.mk.injEq] at h
    obtain ⟨_, ⟨_, ⟨_, hsigned, _, hadmin, rfl⟩, rfl⟩, rfl, -⟩ := h
    exact .inr (.inr ⟨_, List.mem_of_mem_filter hsigned, hadmin, rfl⟩)
  | provideCapital provider amount => exact .inl (provideCapital_admin _ h)
  | withdrawCapital provider shares => exact .inl (withdrawCapital_admin _ h)
  | processClaim policyId => exact .inl (processClaim_admin _ h)
  | buyPolicy holder params answers =>
    obtain ⟨r, hr, h⟩ := (bind_eq_ok _ _ _).mp h
    cases h
    exact .inl (buyPolicy_admin _ hr)
  | expirePolicy policyId =>
    obtain ⟨r, hr, h⟩ := (bind_eq_ok _ _ _).mp h
    cases h
    exact .inl (expirePolicy_admin _ hr)
  | setBackstop caller backstop =>
    simp only [Pool.setBackstop, bind_eq_ok] at h
    obtain ⟨_, ⟨_, -, h'⟩, h⟩ := h
    cases h'
    cases h
    exact .inl rfl
  | setPolicyRegistry caller policyRegistry =>
    simp only [Pool.setPolicyRegistry, bind_eq_ok] at h
    obtain ⟨_, ⟨_, -, h'⟩, h⟩ := h
    cases h'
    cases h
    exact .inl rfl
  | setPoolConfig caller cfg =>
    simp only [Pool.setPoolConfig, bind_eq_ok] at h
    obtain ⟨_, ⟨_, -, h'⟩, h⟩ := h
    cases h'
    cases h
    exact .inl rfl
  | updateOracle caller coverageType value =>
    simp only [Pool.updateOracle, bind_eq_ok] at h
    obtain ⟨_, ⟨_, -, h'⟩, h⟩ := h
    cases h'
    cases h
    exact .inl rfl
  | advance seconds =>
    obtain ⟨_, -, h⟩ := (bind_eq_ok _ _ _).mp h
    cases h
    exact .inl rfl
  | transfer src dst amount =>
    simp only [bind_eq_ok] at h
    obtain ⟨_, -, _, -, h⟩ := h
    cases h
    exact .inl rfl

end Pool

section Registry
variable {signers : List Address} {r r' : PolicyRegistry.World Address}

theorem registryAdmin_registered {caller : Address}
    {reg : PolicyRegistry.PolicyRegistration Address} {out : ℕ}
    (h : PolicyRegistry.registerPolicy signers r caller reg = .ok (r', out)) :
    registryAdmin r' = registryAdmin r := by
  cases PolicyRegistry.registerPolicy_ok h with
  | registered => rfl
  | administered kind => exact absurd kind id

/-- The admin of the registry changes where the proposed one accepts, and the admin proposes. -/
theorem registry_passes {op : PolicyRegistry.Op Address} {out : ℕ}
    (h : PolicyRegistry.step r ⟨signers, op⟩ = .ok (r', out)) :
    Passes (fun a => a ∈ signers ∧ ∀ b, op ≠ .acceptAdmin b) (registryAdmin r)
      (registryAdmin r') := by
  cases op with
  | proposeAdmin caller newAdmin =>
    simp only [PolicyRegistry.step, PolicyRegistry.proposeAdmin, PolicyRegistry.requireAdmin,
      bind_eq_ok, requireAuth_eq_ok, okOr_eq_ok, bail_eq_ok, not_not, pure_eq_ok] at h
    obtain ⟨_, ⟨_, ⟨_, hsigned, admin, hadmin, rfl⟩, rfl⟩, h⟩ := h
    cases h
    simp only [registryAdmin, hadmin]
    exact .proposed ⟨hsigned, nofun⟩
  | acceptAdmin caller =>
    simp only [PolicyRegistry.step, PolicyRegistry.acceptAdmin, bind_eq_ok, requireAuth_eq_ok,
      okOr_eq_ok, bail_eq_ok, not_not, pure_eq_ok] at h
    obtain ⟨_, ⟨_, hsigned, pending, hpending, _, rfl, rfl⟩, h⟩ := h
    cases h
    simp only [registryAdmin, hpending]
    exact .accepted
  | initializeContract admin poolContract =>
    cases PolicyRegistry.step_effect h with
    | initialized first =>
      simp only [registryAdmin, first]
      exact .appointed
    | administered kind => exact absurd kind id
  | _ =>
    cases PolicyRegistry.step_effect h with
    | administered kind => exact absurd kind id
    | _ => exact .kept

end Registry

section Oracle
variable {signers : List Address} {o o' : Oracle.World Address}

/-- The admin of the oracle changes in the same way; the threshold and the metadata of a feed are
set without a change of it. -/
theorem oracle_passes {op : Oracle.Op Address} {out : Unit}
    (h : Oracle.step o ⟨signers, op⟩ = .ok (o', out)) :
    Passes (fun a => a ∈ signers ∧ ∀ b, op ≠ .acceptAdmin b) (oracleAdmin o) (oracleAdmin o') := by
  cases op with
  | proposeAdmin newAdmin =>
    simp only [Oracle.step, Oracle.proposeAdmin, Oracle.requireAdmin, bind_eq_ok,
      requireAuth_eq_ok, okOr_eq_ok, pure_eq_ok] at h
    obtain ⟨_, ⟨_, ⟨admin, hadmin, hsigned⟩, rfl⟩, h⟩ := h
    cases h
    simp only [oracleAdmin, hadmin]
    refine .proposed ⟨hsigned, ?_⟩
    rintro b ⟨⟩
  | acceptAdmin caller =>
    simp only [Oracle.step, Oracle.acceptAdmin, bind_eq_ok, requireAuth_eq_ok, okOr_eq_ok,
      bail_eq_ok, not_not, pure_eq_ok] at h
    obtain ⟨_, ⟨_, hsigned, pending, hpending, _, rfl, rfl⟩, h⟩ := h
    cases h
    simp only [oracleAdmin, hpending]
    exact .accepted
  | setThreshold feedId threshold =>
    simp only [Oracle.step, Oracle.setThreshold, bind_eq_ok, pure_eq_ok] at h
    obtain ⟨_, ⟨_, -, rfl⟩, h⟩ := h
    cases h
    exact .kept
  | setFeedMetadata feedId metadata =>
    simp only [Oracle.step, Oracle.setFeedMetadata, bind_eq_ok, pure_eq_ok] at h
    obtain ⟨_, ⟨_, -, rfl⟩, h⟩ := h
    cases h
    exact .kept
  | initializeContract admin =>
    cases Oracle.step_effect h with
    | initialized first =>
      simp only [oracleAdmin, first]
      exact .appointed
    | administered kind => exact absurd kind id
  | _ =>
    cases Oracle.step_effect h with
    | administered kind => exact absurd kind id
    | _ => exact .kept

end Oracle

end Admins

/-! ### One transaction -/

/-- What the pool's call of a registry does: the deactivation, and nothing to another one. -/
structure Settles (H : Pool.Helpers Address) (sites : Sites Address) [DecidableEq Address] :
    Prop where
  deactivates : H.Deactivates sites.pool sites.registry
  elsewhere : ∀ w r id, w.policyRegistryEntry ≠ some sites.registry →
    H.deactivateInRegistry w r id = r

/-- The operations that only take what has been offered. -/
def Op.Accepts : Op Address → Prop
  | .contracts (.registry (.acceptAdmin _)) | .oracle (.acceptAdmin _) => True
  | _ => False

instance (op : Op Address) : Decidable op.Accepts := by
  unfold Op.Accepts
  split <;> infer_instance

theorem not_accepts_contracts {op : Pool.SystemOp Address}
    (hop : ∀ b, op ≠ .registry (.acceptAdmin b)) : ¬ (Op.contracts op).Accepts := by
  intro hacc
  unfold Op.Accepts at hacc
  split at hacc
  · next b heq => exact hop b (Op.contracts.inj heq)
  · next heq => cases heq
  · exact hacc

theorem not_accepts_oracle {op : Oracle.Op Address} (hop : ∀ b, op ≠ .acceptAdmin b) :
    ¬ (Op.oracle op).Accepts := by
  intro hacc
  unfold Op.Accepts at hacc
  split at hacc
  · next heq => cases heq
  · next b heq => exact hop b (Op.oracle.inj heq)
  · exact hacc

section Step
variable [DecidableEq Address] {H : Pool.Helpers Address} {sites : Sites Address}
  {s s' : System Address} {tx : Transaction Address} {out : ℤ} {a : Address}

/-- The transaction is authorised by `a` and does more than accept. -/
def Transaction.Acts (sites : Sites Address) (tx : Transaction Address) (a : Address) : Prop :=
  a ∈ tx.authorities sites ∧ ¬ tx.op.Accepts

theorem deactivateInRegistry_admin (hH : Settles H sites) (w : Pool.World Address)
    (r : PolicyRegistry.World Address) (id : ℕ) :
    registryAdmin (H.deactivateInRegistry w r id) = registryAdmin r := by
  by_cases hentry : w.policyRegistryEntry = some sites.registry
  · rw [hH.deactivates w r id hentry]
    cases hstep : PolicyRegistry.step r ⟨[sites.pool], .deactivatePolicy sites.pool id⟩ with
    | error e => rw [after_error hstep]
    | ok t =>
      obtain ⟨r', out⟩ := t
      rw [after_ok hstep]
      cases PolicyRegistry.step_effect hstep with
      | deactivated | idle => rfl
      | administered kind => exact kind.elim
  · rw [hH.elsewhere w r id hentry]

section Calls
variable {foreign : Address → Bool} {signers : List Address} {caller newAdmin : Address}

theorem requireResponder_signed {c : Coordinator Address} {u : Unit}
    (h : requireResponder signers c caller = .ok u) : caller ∈ signers := by
  simp only [requireResponder, bind_eq_ok, requireAuth_eq_ok] at h
  exact h.choose_spec.1

theorem callOther_ok {contract : Address} (h : callOther sites foreign contract s = .ok s') :
    s' = s := by
  simp only [callOther, bind_eq_ok, pure_eq_ok] at h
  exact h.choose_spec.2.symm

theorem rotatePoolAdmin_ok {pool : Address}
    (h : rotatePoolAdmin sites foreign signers s pool caller newAdmin = .ok s') :
    (pool = sites.pool ∧ s.contracts.pool.adminEntry = some caller ∧
      s' = { s with contracts := { s.contracts with
        pool := { s.contracts.pool with adminEntry := some newAdmin } } }) ∨
    (pool ≠ sites.pool ∧ s' = s) := by
  unfold rotatePoolAdmin at h
  split_ifs at h with hsite
  · simp only [Pool.setAdmin, Pool.requireAdmin, bind_eq_ok, invoke_eq_ok, requireAuth_eq_ok,
      okOr_eq_ok, bail_eq_ok, not_not, pure_eq_ok] at h
    obtain ⟨_, ⟨_, ⟨_, -, admin, hadmin, rfl⟩, rfl⟩, rfl⟩ := h
    exact .inl ⟨hsite, hadmin, rfl⟩
  · exact .inr ⟨hsite, callOther_ok h⟩

theorem proposeRegistryAdmin_ok {registry : Address}
    (h : proposeRegistryAdmin sites foreign signers s registry caller newAdmin = .ok s') :
    (registry = sites.registry ∧ s.contracts.registry.adminEntry = some caller ∧
      s' = { s with contracts := { s.contracts with
        registry := { s.contracts.clocked with pendingAdminEntry := some newAdmin } } }) ∨
    (registry ≠ sites.registry ∧ s' = s) := by
  unfold proposeRegistryAdmin at h
  split_ifs at h with hsite
  · simp only [PolicyRegistry.proposeAdmin, PolicyRegistry.requireAdmin, bind_eq_ok, invoke_eq_ok,
      requireAuth_eq_ok, okOr_eq_ok, bail_eq_ok, not_not, pure_eq_ok] at h
    obtain ⟨_, ⟨_, ⟨_, -, admin, hadmin, rfl⟩, rfl⟩, rfl⟩ := h
    exact .inl ⟨hsite, hadmin, rfl⟩
  · exact .inr ⟨hsite, callOther_ok h⟩

theorem proposeOracleAdmin_ok {oracle : Address}
    (h : proposeOracleAdmin sites foreign signers s oracle newAdmin = .ok s') :
    (oracle = sites.oracle ∧ ∃ admin, s.oracle.adminEntry = some admin ∧
      admin ∈ sites.coordinator :: signers ∧
      s' = { s with oracle := { s.clocked with pendingAdminEntry := some newAdmin } }) ∨
    (oracle ≠ sites.oracle ∧ s' = s) := by
  unfold proposeOracleAdmin at h
  split_ifs at h with hsite
  · simp only [Oracle.proposeAdmin, Oracle.requireAdmin, bind_eq_ok, invoke_eq_ok,
      requireAuth_eq_ok, okOr_eq_ok, pure_eq_ok] at h
    obtain ⟨_, ⟨_, ⟨admin, hadmin, hsigned⟩, rfl⟩, rfl⟩ := h
    exact .inl ⟨hsite, admin, hadmin, hsigned, rfl⟩
  · exact .inr ⟨hsite, callOther_ok h⟩

end Calls

theorem step_lockdown {signers : List Address} {foreign : Address → Bool}
    {caller pool registry oracle newAdmin : Address}
    (h : emergencyLockdown sites foreign signers s caller pool registry oracle newAdmin = .ok s') :
    caller ∈ signers ∧
      (pool = sites.pool ∧ s.contracts.pool.adminEntry = some caller ∧
          s'.contracts.pool = { s.contracts.pool with adminEntry := some newAdmin } ∨
        pool ≠ sites.pool ∧ s'.contracts.pool = s.contracts.pool) ∧
      (registry = sites.registry ∧ s.contracts.registry.adminEntry = some caller ∧
          registryAdmin s'.contracts.registry = (some caller, some newAdmin) ∨
        registry ≠ sites.registry ∧ s'.contracts.registry = s.contracts.registry) ∧
      (oracle = sites.oracle ∧ (∃ admin, s.oracle.adminEntry = some admin ∧
          admin ∈ sites.coordinator :: signers ∧
          oracleAdmin s'.oracle = (some admin, some newAdmin)) ∨
        oracle ≠ sites.oracle ∧ s'.oracle = s.oracle) := by
  simp only [emergencyLockdown, bind_eq_ok] at h
  obtain ⟨_, hresponder, s₁, hpool, s₂, hregistry, horacle⟩ := h
  refine ⟨requireResponder_signed hresponder, ?_, ?_, ?_⟩
  · have hkept : s'.contracts.pool = s₁.contracts.pool := by
      rcases proposeRegistryAdmin_ok hregistry with ⟨-, -, rfl⟩ | ⟨-, rfl⟩ <;>
        rcases proposeOracleAdmin_ok horacle with ⟨-, -, -, -, rfl⟩ | ⟨-, rfl⟩ <;> rfl
    rw [hkept]
    rcases rotatePoolAdmin_ok hpool with ⟨hsite, hadmin, rfl⟩ | ⟨hsite, rfl⟩
    · exact .inl ⟨hsite, hadmin, rfl⟩
    · exact .inr ⟨hsite, rfl⟩
  · have hkept : s'.contracts.registry = s₂.contracts.registry := by
      rcases proposeOracleAdmin_ok horacle with ⟨-, -, -, -, rfl⟩ | ⟨-, rfl⟩ <;> rfl
    have hbefore : s₁.contracts.registry = s.contracts.registry := by
      rcases rotatePoolAdmin_ok hpool with ⟨-, -, rfl⟩ | ⟨-, rfl⟩ <;> rfl
    rw [hkept, ← hbefore]
    rcases proposeRegistryAdmin_ok hregistry with ⟨hsite, hadmin, rfl⟩ | ⟨hsite, rfl⟩
    · exact .inl ⟨hsite, hadmin, Prod.ext hadmin rfl⟩
    · exact .inr ⟨hsite, rfl⟩
  · have hbefore : s₂.oracle = s.oracle := by
      rcases proposeRegistryAdmin_ok hregistry with ⟨-, -, rfl⟩ | ⟨-, rfl⟩ <;>
        rcases rotatePoolAdmin_ok hpool with ⟨-, -, rfl⟩ | ⟨-, rfl⟩ <;> rfl
    rw [← hbefore]
    rcases proposeOracleAdmin_ok horacle with ⟨hsite, admin, hadmin, hsigned, rfl⟩ | ⟨hsite, rfl⟩
    · exact .inl ⟨hsite, admin, hadmin, hsigned, Prod.ext hadmin rfl⟩
    · exact .inr ⟨hsite, rfl⟩

theorem migratePool_ok {signers : List Address} {foreign : Address → Bool}
    {caller registry newPool : Address}
    (h : migratePool sites foreign signers s caller registry newPool = .ok s') :
    caller ∈ signers ∧ s'.contracts.pool = s.contracts.pool ∧ s'.oracle = s.oracle ∧
      registryAdmin s'.contracts.registry = registryAdmin s.contracts.registry ∧
      (registry = sites.registry → s.contracts.registry.adminEntry = some caller) := by
  simp only [migratePool, bind_eq_ok] at h
  obtain ⟨_, hresponder, h⟩ := h
  refine ⟨requireResponder_signed hresponder, ?_⟩
  split_ifs at h with hsite
  · simp only [PolicyRegistry.proposePoolContract, PolicyRegistry.requireAdmin, bind_eq_ok,
      invoke_eq_ok, requireAuth_eq_ok, okOr_eq_ok, bail_eq_ok, not_not, pure_eq_ok] at h
    obtain ⟨_, ⟨_, ⟨_, -, admin, hadmin, rfl⟩, _, -, rfl⟩, rfl⟩ := h
    exact ⟨rfl, rfl, rfl, fun _ => hadmin⟩
  · obtain rfl := callOther_ok h
    exact ⟨rfl, rfl, rfl, fun hregistry => absurd hregistry hsite⟩

/-- The pool and the registry behind the pool's transactions. -/
theorem systemStep_admins {signers : List Address} {c c' : Pool.System Address}
    {op : Pool.SystemOp Address} (hH : Settles H sites)
    (h : Pool.systemStep H sites.pool sites.registry c ⟨signers, op⟩ = .ok (c', out)) :
    (poolAdmin c'.pool = poolAdmin c.pool ∨
      (c.pool.isInitialized = false ∧ c'.pool.isInitialized = true) ∨
      ∃ caller ∈ signers, c.pool.adminEntry = some caller ∧
        c'.pool.isInitialized = c.pool.isInitialized ∧ ∀ b, op ≠ .registry (.acceptAdmin b)) ∧
    Passes (fun a => a ∈ signers ∧ ∀ b, op ≠ .registry (.acceptAdmin b))
      (registryAdmin c.registry) (registryAdmin c'.registry) := by
  cases op with
  | registry op =>
    simp only [Pool.systemStep, bind_eq_ok, embed_eq_ok, pure_eq_ok, Prod.mk.injEq] at h
    obtain ⟨⟨r, n⟩, hr, rfl, -⟩ := h
    refine ⟨.inl rfl, (registry_passes hr).mono ?_⟩
    rintro a ⟨hsigned, hop⟩
    exact ⟨List.mem_of_mem_filter hsigned, fun b hb => hop b (Pool.SystemOp.registry.inj hb)⟩
  | pool op =>
    have hpool {w : Pool.World Address}
        (hw : Pool.step H.riskMultiplier sites.pool c.pool ⟨signers, op⟩ = .ok (w, out)) :
        poolAdmin w = poolAdmin c.pool ∨
          (c.pool.isInitialized = false ∧ w.isInitialized = true) ∨
          ∃ caller ∈ signers, c.pool.adminEntry = some caller ∧
            w.isInitialized = c.pool.isInitialized ∧
            ∀ b, Pool.SystemOp.pool op ≠ .registry (.acceptAdmin b) := by
      rcases pool_admin hw with hkept | hfresh | ⟨caller, hsigned, hadmin, hinit⟩
      · exact .inl hkept
      · exact .inr (.inl hfresh)
      · refine .inr (.inr ⟨caller, hsigned, hadmin, hinit, ?_⟩)
        rintro b ⟨⟩
    cases op with
    | buyPolicy holder params answers =>
      simp only [Pool.systemStep] at h
      split_ifs at h
      · simp only [Pool.buyIndexed, bind_eq_ok, embed_eq_ok, invoke_eq_ok, pure_eq_ok,
          Prod.mk.injEq] at h
        obtain ⟨⟨w, id⟩, hbought, _, -, ⟨r, n⟩, hregistered, _, -, rfl, -⟩ := h
        have hr := registryAdmin_registered hregistered
        refine ⟨.inl (buyPolicy_admin _ hbought), ?_⟩
        rw [show registryAdmin r = registryAdmin c.registry from hr]
        exact .kept
      · simp only [bind_eq_ok, embed_eq_ok, pure_eq_ok, Prod.mk.injEq] at h
        obtain ⟨⟨w, id⟩, hw, rfl, rfl⟩ := h
        exact ⟨hpool hw, .kept⟩
    | _ =>
      obtain ⟨w, hw, rfl⟩ := Pool.systemStep_pool (by rintro _ _ _ ⟨⟩) h
      refine ⟨hpool hw, ?_⟩
      simp only [Pool.System.settle, Pool.Op.settles]
      first
      | exact .kept
      | rw [deactivateInRegistry_admin hH]
        exact .kept

/-- The pool keeps its admin unless it is initialized or the admin acts. -/
theorem step_pool (hH : Settles H sites) (h : step H sites s tx = .ok (s', out)) :
    poolAdmin s'.contracts.pool = poolAdmin s.contracts.pool ∨
      (s.contracts.pool.isInitialized = false ∧ s'.contracts.pool.isInitialized = true) ∨
      ∃ caller, tx.Acts sites caller ∧ s.contracts.pool.adminEntry = some caller ∧
        s'.contracts.pool.isInitialized = s.contracts.pool.isInitialized := by
  obtain ⟨signers, foreign, op⟩ := tx
  cases op with simp only [step, bind_eq_ok, embed_eq_ok, pure_eq_ok, Prod.mk.injEq] at h
  | initializeContract admin guardian =>
    obtain ⟨_, -, rfl, -⟩ := h
    exact .inl rfl
  | setGuardian caller newGuardian =>
    obtain ⟨_, -, rfl, -⟩ := h
    exact .inl rfl
  | emergencyLockdown caller pool registry oracle newAdmin =>
    obtain ⟨_, h, rfl, -⟩ := h
    obtain ⟨hsigned, ⟨-, hcaller, hnew⟩ | ⟨-, hkept⟩, -⟩ := step_lockdown h
    · exact .inr (.inr ⟨caller, ⟨hsigned, id⟩, hcaller, by rw [hnew]⟩)
    · exact .inl (by rw [hkept])
  | migratePool caller registry newPool =>
    obtain ⟨_, h, rfl, -⟩ := h
    exact .inl (by rw [(migratePool_ok h).2.1])
  | contracts op =>
    obtain ⟨⟨c, n⟩, h, rfl, rfl⟩ := h
    rcases (systemStep_admins hH h).1 with hkept | hfresh | ⟨caller, hsigned, hcaller, hinit, hop⟩
    · exact .inl hkept
    · exact .inr (.inl hfresh)
    · have hacts := not_accepts_contracts hop
      exact .inr (.inr ⟨caller, ⟨hsigned, hacts⟩, hcaller, hinit⟩)
  | oracle op =>
    obtain ⟨_, -, rfl, -⟩ := h
    exact .inl rfl

theorem step_registry (hH : Settles H sites) (h : step H sites s tx = .ok (s', out)) :
    Passes (tx.Acts sites) (registryAdmin s.contracts.registry)
      (registryAdmin s'.contracts.registry) := by
  obtain ⟨signers, foreign, op⟩ := tx
  cases op with simp only [step, bind_eq_ok, embed_eq_ok, pure_eq_ok, Prod.mk.injEq] at h
  | initializeContract admin guardian =>
    obtain ⟨_, -, rfl, -⟩ := h
    exact .kept
  | setGuardian caller newGuardian =>
    obtain ⟨_, -, rfl, -⟩ := h
    exact .kept
  | emergencyLockdown caller pool registry oracle newAdmin =>
    obtain ⟨_, h, rfl, -⟩ := h
    obtain ⟨hsigned, -, ⟨-, hcaller, hnew⟩ | ⟨-, hkept⟩, -⟩ := step_lockdown h
    · rw [hnew, registryAdmin, hcaller]
      exact .proposed ⟨hsigned, id⟩
    · rw [hkept]
      exact .kept
  | migratePool caller registry newPool =>
    obtain ⟨_, h, rfl, -⟩ := h
    rw [(migratePool_ok h).2.2.2.1]
    exact .kept
  | contracts op =>
    obtain ⟨⟨c, n⟩, h, rfl, rfl⟩ := h
    refine (systemStep_admins hH h).2.mono ?_
    rintro a ⟨hsigned, hop⟩
    exact ⟨hsigned, not_accepts_contracts hop⟩
  | oracle op =>
    obtain ⟨_, -, rfl, -⟩ := h
    exact .kept

/-- The coordinator can be the oracle's admin, and a lockdown by anybody then proposes for it. -/
theorem step_oracle (h : step H sites s tx = .ok (s', out)) :
    Passes (fun a => a ∈ sites.coordinator :: tx.authorities sites ∧ ¬ tx.op.Accepts)
      (oracleAdmin s.oracle) (oracleAdmin s'.oracle) := by
  obtain ⟨signers, foreign, op⟩ := tx
  cases op with simp only [step, bind_eq_ok, embed_eq_ok, pure_eq_ok, Prod.mk.injEq] at h
  | initializeContract admin guardian =>
    obtain ⟨_, -, rfl, -⟩ := h
    exact .kept
  | setGuardian caller newGuardian =>
    obtain ⟨_, -, rfl, -⟩ := h
    exact .kept
  | emergencyLockdown caller pool registry oracle newAdmin =>
    obtain ⟨_, h, rfl, -⟩ := h
    obtain ⟨-, -, -, ⟨-, admin, hadmin, hsigned, hnew⟩ | ⟨-, hkept⟩⟩ := step_lockdown h
    · rw [hnew, oracleAdmin, hadmin]
      exact .proposed ⟨hsigned, id⟩
    · rw [hkept]
      exact .kept
  | migratePool caller registry newPool =>
    obtain ⟨_, h, rfl, -⟩ := h
    rw [(migratePool_ok h).2.2.1]
    exact .kept
  | contracts op =>
    obtain ⟨_, -, rfl, -⟩ := h
    exact .kept
  | oracle op =>
    obtain ⟨⟨o, u⟩, h, rfl, -⟩ := h
    refine (oracle_passes h).mono ?_
    rintro a ⟨hsigned, hop⟩
    exact ⟨List.mem_cons_of_mem _ hsigned, not_accepts_oracle hop⟩

end Step

/-! ### Runs -/

section Runs
variable [DecidableEq Address] {H : Pool.Helpers Address} {sites : Sites Address}
  {s s' : System Address} {tx : Transaction Address} {out : ℤ} {a b o : Address}

/-- Who signs only to accept does not act. -/
theorem not_acts (hcalm : a ∈ tx.signers → tx.op.Accepts) : ¬ tx.Acts sites a :=
  fun hacts => hacts.2 (hcalm (List.mem_of_mem_filter hacts.1))

/-- Who does not act makes no offer to the oracle, unless it is the coordinator. -/
theorem not_offers (ha : a ∉ sites.all) (hacts : ¬ tx.Acts sites a) :
    ¬ (a ∈ sites.coordinator :: tx.authorities sites ∧ ¬ tx.op.Accepts) := by
  rintro ⟨hmem, hop⟩
  rcases List.mem_cons.mp hmem with rfl | hmem
  · simp [Sites.all] at ha
  · exact hacts ⟨hmem, hop⟩

/-- The pool has an admin only once it is initialized. -/
def Opened (s : System Address) : Prop :=
  s.contracts.pool.adminEntry.isSome → s.contracts.pool.isInitialized = true

theorem opened_step (hH : Settles H sites) (h : step H sites s tx = .ok (s', out))
    (hs : Opened s) : Opened s' := by
  intro hsome
  rcases step_pool hH h with hkept | ⟨-, hinit⟩ | ⟨caller, -, hcaller, hinit⟩
  · obtain ⟨hadmin, hinit⟩ := Prod.mk.inj hkept
    rw [hinit]
    exact hs (hadmin ▸ hsome)
  · exact hinit
  · rw [hinit]
    exact hs (by rw [hcaller]; rfl)

/-- The initialized pool is `a`'s. -/
def Held (a : Address) (s : System Address) : Prop := poolAdmin s.contracts.pool = (some a, true)

theorem held_step (hH : Settles H sites) (h : step H sites s tx = .ok (s', out))
    (ha : ¬ tx.Acts sites a) (hs : Held a s) : Held a s' := by
  obtain ⟨hadmin, hinit⟩ := Prod.mk.inj hs
  rcases step_pool hH h with hkept | ⟨hfresh, -⟩ | ⟨caller, hacts, hcaller, -⟩
  · exact hkept.trans hs
  · rw [hinit] at hfresh
    cases hfresh
  · rw [hadmin, Option.some.injEq] at hcaller
    exact absurd (hcaller ▸ hacts) ha

/-- The registry on the way from `b` to `a`, and the oracle from `o` to `a`. -/
def Moving (b o a : Address) (s : System Address) : Prop :=
  Heading b a (registryAdmin s.contracts.registry) ∧ Heading o a (oracleAdmin s.oracle)

theorem moving_step (hH : Settles H sites) (h : step H sites s tx = .ok (s', out))
    (other : a ∉ sites.all ∧ o ∉ sites.all) (ha : ¬ tx.Acts sites a) (hb : ¬ tx.Acts sites b)
    (ho : ¬ tx.Acts sites o) (hs : Moving b o a s) : Moving b o a s' := by
  refine ⟨(step_registry hH h).heading hs.1 hb ha, ?_⟩
  exact (step_oracle h).heading hs.2 (not_offers other.2 ho) (not_offers other.1 ha)

/-- The registry and the oracle are `a`'s, with nobody proposed. -/
def Taken (a : Address) (s : System Address) : Prop :=
  registryAdmin s.contracts.registry = (some a, none) ∧ oracleAdmin s.oracle = (some a, none)

theorem taken_step (hH : Settles H sites) (h : step H sites s tx = .ok (s', out))
    (other : a ∉ sites.all) (ha : ¬ tx.Acts sites a) (hs : Taken a s) : Taken a s' := by
  have hregistry := step_registry hH h
  have horacle := step_oracle h
  rw [hs.1] at hregistry
  rw [hs.2] at horacle
  exact ⟨hregistry.taken ha, horacle.taken (not_offers other ha)⟩

/-- The new admin accepts the registry, and then the oracle. -/
def acceptances (a : Address) : List (Transaction Address) :=
  [⟨[a], fun _ => false, .contracts (.registry (.acceptAdmin a))⟩,
    ⟨[a], fun _ => false, .oracle (.acceptAdmin a)⟩]

theorem after_acceptRegistry (hH : Settles H sites) (ha : a ∉ sites.all)
    (hs : Heading b a (registryAdmin s.contracts.registry)) (foreign : Address → Bool) :
    let t := after (step H sites) s ⟨[a], foreign, .contracts (.registry (.acceptAdmin a))⟩
    registryAdmin t.contracts.registry = (some a, none) ∧ t.oracle = s.oracle := by
  rcases hs with hs | hs
  · have hpending : s.contracts.registry.pendingAdminEntry = some a := (Prod.mk.inj hs).2
    have hpool : a ≠ sites.pool := fun h => ha (by simp [Sites.all, h])
    have hok : step H sites s ⟨[a], foreign, .contracts (.registry (.acceptAdmin a))⟩ =
        .ok ({ s with contracts := { s.contracts with registry :=
          { s.contracts.clocked with adminEntry := some a, pendingAdminEntry := none } } }, 0) := by
      simp [step, Transaction.authorities, ha, Pool.systemStep, PolicyRegistry.step,
        PolicyRegistry.acceptAdmin, hpool, hpending, Pool.System.clocked]
    rw [after_ok hok]
    exact ⟨rfl, rfl⟩
  · cases hstep : step H sites s ⟨[a], foreign, .contracts (.registry (.acceptAdmin a))⟩ with
    | error e =>
      rw [after_error hstep]
      exact ⟨hs, rfl⟩
    | ok r =>
      obtain ⟨t, out⟩ := r
      rw [after_ok hstep]
      have hpasses := step_registry hH hstep
      rw [hs] at hpasses
      refine ⟨hpasses.taken fun h => h.2 trivial, ?_⟩
      simp only [step, bind_eq_ok, pure_eq_ok, Prod.mk.injEq] at hstep
      obtain ⟨_, -, rfl, -⟩ := hstep
      rfl

theorem after_acceptOracle (ha : a ∉ sites.all) (hs : Heading o a (oracleAdmin s.oracle))
    (foreign : Address → Bool) :
    let t := after (step H sites) s ⟨[a], foreign, .oracle (.acceptAdmin a)⟩
    oracleAdmin t.oracle = (some a, none) ∧ t.contracts = s.contracts := by
  rcases hs with hs | hs
  · have hpending : s.oracle.pendingAdminEntry = some a := (Prod.mk.inj hs).2
    have hok : step H sites s ⟨[a], foreign, .oracle (.acceptAdmin a)⟩ =
        .ok ({ s with oracle :=
          { s.clocked with adminEntry := some a, pendingAdminEntry := none } }, 0) := by
      simp [step, Transaction.authorities, ha, Oracle.step, Oracle.acceptAdmin, hpending,
        System.clocked]
    rw [after_ok hok]
    exact ⟨rfl, rfl⟩
  · cases hstep : step H sites s ⟨[a], foreign, .oracle (.acceptAdmin a)⟩ with
    | error e =>
      rw [after_error hstep]
      exact ⟨hs, rfl⟩
    | ok r =>
      obtain ⟨t, out⟩ := r
      rw [after_ok hstep]
      have hpasses := step_oracle hstep
      rw [hs] at hpasses
      refine ⟨hpasses.taken fun h => h.2 trivial, ?_⟩
      simp only [step, bind_eq_ok, pure_eq_ok, Prod.mk.injEq] at hstep
      obtain ⟨_, -, rfl, -⟩ := hstep
      rfl

/-- Once both have been accepted, the new admin has the registry and the oracle. -/
theorem moving_accepted (hH : Settles H sites) (ha : a ∉ sites.all) (hs : Moving b o a s) :
    Taken a (run (step H sites) s (acceptances a)).1 := by
  obtain ⟨hregistry, horacle⟩ := after_acceptRegistry hH ha hs.1 fun _ => false
  rw [acceptances, run_cons, run_cons]
  obtain ⟨htaken, hcontracts⟩ := after_acceptOracle (H := H) ha (horacle ▸ hs.2) fun _ => false
  exact ⟨hcontracts ▸ hregistry, htaken⟩

variable {now : ℕ} {ledger : Token Address}

theorem opened_run (hH : Settles H sites) (now : ℕ) (ledger : Token Address)
    (txs : List (Transaction Address)) :
    Opened (run (step H sites) (deployed now ledger) txs).1 :=
  run_invariant (I := Opened) (fun _ hok hpre => opened_step hH hok hpre) (fun h => by cases h) txs

theorem held_run (hH : Settles H sites) {txs : List (Transaction Address)}
    (ha : ∀ tx ∈ txs, ¬ tx.Acts sites a) (hs : Held a s) :
    Held a (run (step H sites) s txs).1 ∧ ∀ x ∈ (run (step H sites) s txs).2, Held a x.post := by
  have tr := run_trace (step H sites) s txs
  have hstep (x : Event Address) (hx : ¬ x.call.Acts sites a)
      (hok : step H sites x.pre x.call = .ok (x.post, x.out)) (hpre : Held a x.pre) :
      Held a x.post := held_step hH hok hx hpre
  have hcalls : ∀ x ∈ (run (step H sites) s txs).2, ¬ x.call.Acts sites a :=
    fun x hx => ha x.call (mem_run_call hx)
  exact ⟨tr.invariant_of hstep hcalls hs, tr.posts_of hstep hcalls hs⟩

theorem moving_run (hH : Settles H sites) (txs : List (Transaction Address))
    (other : a ∉ sites.all ∧ o ∉ sites.all)
    (quiet : ∀ tx ∈ txs, ¬ tx.Acts sites a ∧ ¬ tx.Acts sites b ∧ ¬ tx.Acts sites o)
    (hs : Moving b o a s) : Moving b o a (run (step H sites) s txs).1 := by
  refine (run_trace (step H sites) s txs).invariant_of
    (P := fun x => ¬ x.call.Acts sites a ∧ ¬ x.call.Acts sites b ∧ ¬ x.call.Acts sites o) ?_ ?_ hs
  · exact fun x hx hok hpre => moving_step hH hok other hx.1 hx.2.1 hx.2.2 hpre
  · exact fun x hx => quiet x.call (mem_run_call hx)

theorem taken_run (hH : Settles H sites) (txs : List (Transaction Address)) (other : a ∉ sites.all)
    (ha : ∀ tx ∈ txs, ¬ tx.Acts sites a) (hs : Taken a s) :
    Taken a (run (step H sites) s txs).1 := by
  refine (run_trace (step H sites) s txs).invariant_of
    (P := fun x => ¬ x.call.Acts sites a) ?_ ?_ hs
  · exact fun x hx hok hpre => taken_step hH hok other hx hpre
  · exact fun x hx => ha x.call (mem_run_call hx)

/-- The admins of the three contracts: the pool's, and those of the registry and of the oracle
with the proposed ones. -/
def admins (s : System Address) :
    Option Address × (Option Address × Option Address) × (Option Address × Option Address) :=
  (s.contracts.pool.adminEntry, registryAdmin s.contracts.registry, oracleAdmin s.oracle)

/-- A lockdown of the three contracts makes the pool `a`'s and proposes `a` for the others. -/
theorem locked {signers : List Address} {foreign : Address → Bool} {caller : Address}
    (hs : Opened s) (ho : s.oracle.adminEntry = some o) (h : step H sites s ⟨signers, foreign,
      .emergencyLockdown caller sites.pool sites.registry sites.oracle a⟩ = .ok (s', out)) :
    Held a s' ∧ Moving caller o a s' := by
  simp only [step, bind_eq_ok, embed_eq_ok, pure_eq_ok, Prod.mk.injEq] at h
  obtain ⟨_, h, rfl, -⟩ := h
  obtain ⟨-, hpool, hregistry, horacle⟩ := step_lockdown h
  obtain ⟨-, hadmin, hpool⟩ := hpool.resolve_right fun h => h.1 rfl
  obtain ⟨-, -, hregistry⟩ := hregistry.resolve_right fun h => h.1 rfl
  obtain ⟨-, admin, hadmin', -, horacle⟩ := horacle.resolve_right fun h => h.1 rfl
  obtain rfl := Option.some.inj (hadmin'.symm.trans ho)
  refine ⟨?_, .inl hregistry, .inl horacle⟩
  have hinit := hs (by rw [hadmin]; rfl)
  rw [Held, hpool]
  exact Prod.ext rfl hinit

/-- After a lockdown the pool is the new admin's, whoever signs what, until the new admin does
more than accept. If the admins before make no further proposal until the new one has accepted, the
registry and the oracle are the new admin's from then on, whoever signs what. -/
theorem lockdown_secures (hH : Settles H sites) (now : ℕ) (ledger : Token Address)
    (before : List (Transaction Address)) {caller a o : Address} {signers : List Address}
    {foreign : Address → Bool} {s₁ : System Address} {out : ℤ} (ha : a ∉ sites.all)
    (ho : o ∉ sites.all)
    (horacle : (run (step H sites) (deployed now ledger) before).1.oracle.adminEntry = some o)
    (hlock : step H sites (run (step H sites) (deployed now ledger) before).1 ⟨signers, foreign,
      .emergencyLockdown caller sites.pool sites.registry sites.oracle a⟩ = .ok (s₁, out)) :
    (∀ txs : List (Transaction Address), (∀ tx ∈ txs, a ∈ tx.signers → tx.op.Accepts) →
      ∀ x ∈ (run (step H sites) s₁ txs).2, x.post.contracts.pool.adminEntry = some a) ∧
    ∀ early late : List (Transaction Address),
      (∀ tx ∈ early, caller ∉ tx.signers ∧ o ∉ tx.signers) →
      (∀ tx ∈ early ++ late, a ∈ tx.signers → tx.op.Accepts) →
      admins (run (step H sites) s₁ (early ++ acceptances a ++ late)).1 =
        (some a, (some a, none), (some a, none)) := by
  obtain ⟨hheld, hmoving⟩ := locked (opened_run hH now ledger before) horacle hlock
  constructor
  · intro txs hcalm x hx
    have hquiet : ∀ tx ∈ txs, ¬ tx.Acts sites a := fun tx htx => not_acts (hcalm tx htx)
    exact congrArg Prod.fst ((held_run hH hquiet hheld).2 x hx)
  · intro early late hearly hcalm
    rw [List.forall_mem_append] at hcalm
    have hquiet : ∀ tx ∈ early ++ acceptances a ++ late, ¬ tx.Acts sites a := by
      simp only [List.forall_mem_append]
      refine ⟨⟨fun tx htx => not_acts (hcalm.1 tx htx), ?_⟩,
        fun tx htx => not_acts (hcalm.2 tx htx)⟩
      simp [acceptances, Transaction.Acts, Op.Accepts]
    have hpool : (run (step H sites) s₁
        (early ++ acceptances a ++ late)).1.contracts.pool.adminEntry = some a :=
      congrArg Prod.fst (held_run hH hquiet hheld).1
    have hmoved := moving_run hH early ⟨ha, ho⟩ (fun tx htx =>
      ⟨not_acts (hcalm.1 tx htx), not_acts fun h => absurd h (hearly tx htx).1,
        not_acts fun h => absurd h (hearly tx htx).2⟩) hmoving
    have htaken := taken_run hH late ha (fun tx htx => not_acts (hcalm.2 tx htx))
      (moving_accepted hH ha hmoved)
    have hend : Taken a (run (step H sites) s₁ (early ++ acceptances a ++ late)).1 := by
      rw [List.append_assoc, run_concat, run_concat]
      exact htaken
    exact Prod.ext hpool (Prod.ext hend.1 hend.2)

section Drill

/-- The contracts of a drill. -/
def drillSites : Sites ℕ := ⟨20, 0, 9, 21⟩

theorem drill_settles : Settles Pool.callingHelpers drillSites where
  deactivates _ _ _ hentry := if_pos hentry
  elsewhere _ _ _ hentry := if_neg hentry

/-- Admin 10 and guardian 12 set the contracts up. -/
def drillSetup : List (Transaction ℕ) :=
  [⟨[10], fun _ => false, .initializeContract 10 12⟩,
    ⟨[10], fun _ => false, .contracts (.registry (.initializeContract 10 0))⟩,
    ⟨[10], fun _ => false, .contracts (.pool (.initializeContract 10 30 9))⟩,
    ⟨[10], fun _ => false, .oracle (.initializeContract 10)⟩]

def drillReady : System ℕ :=
  (run (step Pool.callingHelpers drillSites) (deployed 0 .empty) drillSetup).1

def drillLockdown : Transaction ℕ :=
  ⟨[10], fun _ => false, .emergencyLockdown 10 0 9 21 11⟩

/-- The old admin's key is used again once the new admin has accepted. -/
def drillAttack : List (Transaction ℕ) :=
  [⟨[10], fun _ => false, .contracts (.registry (.proposeAdmin 10 13))⟩,
    ⟨[10], fun _ => false, .oracle (.proposeAdmin 13)⟩,
    ⟨[10], fun _ => false, .emergencyLockdown 10 0 9 21 13⟩]

theorem drill_secured :
    admins (run (step Pool.callingHelpers drillSites)
      (after (step Pool.callingHelpers drillSites) drillReady drillLockdown)
      ([⟨[12], fun _ => false, .setGuardian 12 14⟩] ++ acceptances 11 ++ drillAttack)).1 =
        (some 11, (some 11, none), (some 11, none)) := by
  have hlock : step Pool.callingHelpers drillSites drillReady drillLockdown =
      .ok (after (step Pool.callingHelpers drillSites) drillReady drillLockdown, 0) := rfl
  exact (lockdown_secures drill_settles 0 .empty drillSetup (by decide) (o := 10) (by decide) rfl
    hlock).2 _ _ (by decide) (by decide)

end Drill

/-- The pool is `a`'s and the registry `b`'s, with nobody proposed. -/
def Guarded (a b : Address) (s : System Address) : Prop :=
  Held a s ∧ registryAdmin s.contracts.registry = (some b, none)

theorem guarded_step (hH : Settles H sites) (h : step H sites s tx = .ok (s', out))
    (ha : ¬ tx.Acts sites a) (hb : ¬ tx.Acts sites b) (hs : Guarded a b s) : Guarded a b s' := by
  have hregistry := step_registry hH h
  rw [hs.2] at hregistry
  exact ⟨held_step hH h ha hs.1, hregistry.taken hb⟩

/-- A lockdown needs the pool's admin and the registry's, a migration the registry's. -/
theorem Guarded.refused (hs : Guarded a b s) (h : step H sites s tx = .ok (s', out))
    (ha : a ∉ tx.signers) (hb : b ∉ tx.signers) :
    (∀ caller pool registry oracle newAdmin,
      tx.op = .emergencyLockdown caller pool registry oracle newAdmin →
        pool ≠ sites.pool ∧ registry ≠ sites.registry) ∧
    ∀ caller registry newPool, tx.op = .migratePool caller registry newPool →
      registry ≠ sites.registry := by
  obtain ⟨signers, foreign, op⟩ := tx
  have hpool : s.contracts.pool.adminEntry = some a := congrArg Prod.fst hs.1
  have hregistry : s.contracts.registry.adminEntry = some b := congrArg Prod.fst hs.2
  constructor
  · rintro caller pool registry oracle newAdmin rfl
    simp only [step, bind_eq_ok, embed_eq_ok, pure_eq_ok, Prod.mk.injEq] at h
    obtain ⟨_, h, -, -⟩ := h
    obtain ⟨hsigned, hp, hr, -⟩ := step_lockdown h
    have hsigned := List.mem_of_mem_filter hsigned
    refine ⟨hp.elim (fun h => ?_) And.left, hr.elim (fun h => ?_) And.left⟩
    · obtain rfl := Option.some.inj (h.2.1.symm.trans hpool)
      exact absurd hsigned ha
    · obtain rfl := Option.some.inj (h.2.1.symm.trans hregistry)
      exact absurd hsigned hb
  · rintro caller registry newPool rfl hsite
    simp only [step, bind_eq_ok, embed_eq_ok, pure_eq_ok, Prod.mk.injEq] at h
    obtain ⟨_, h, -, -⟩ := h
    obtain ⟨hsigned, -, -, -, hadmin⟩ := migratePool_ok h
    obtain rfl := Option.some.inj ((hadmin hsite).symm.trans hregistry)
    exact hb (List.mem_of_mem_filter hsigned)

/-- While neither the pool's admin nor the registry's signs, no guardian and no admin of the
coordinator can lock the two down or repoint the registry, and both admins stay. -/
theorem guardian_alone (hH : Settles H sites) (now : ℕ) (ledger : Token Address)
    (before txs : List (Transaction Address)) {a b : Address}
    (hpool : (run (step H sites) (deployed now ledger) before).1.contracts.pool.adminEntry = some a)
    (hregistry :
      registryAdmin (run (step H sites) (deployed now ledger) before).1.contracts.registry
      = (some b, none))
    (quiet : ∀ tx ∈ txs, a ∉ tx.signers ∧ b ∉ tx.signers) :
    let r := run (step H sites) (run (step H sites) (deployed now ledger) before).1 txs
    Guarded a b r.1 ∧ ∀ x ∈ r.2,
      (∀ caller pool registry oracle newAdmin,
        x.call.op = .emergencyLockdown caller pool registry oracle newAdmin →
          pool ≠ sites.pool ∧ registry ≠ sites.registry) ∧
      ∀ caller registry newPool, x.call.op = .migratePool caller registry newPool →
        registry ≠ sites.registry := by
  intro r
  have hinit := opened_run hH now ledger before (by rw [hpool]; rfl)
  have hs : Guarded a b (run (step H sites) (deployed now ledger) before).1 :=
    ⟨Prod.ext hpool hinit, hregistry⟩
  have hstep (x : Event Address) (hx : a ∉ x.call.signers ∧ b ∉ x.call.signers)
      (hok : step H sites x.pre x.call = .ok (x.post, x.out)) (hpre : Guarded a b x.pre) :
      Guarded a b x.post :=
    guarded_step hH hok (not_acts fun h => absurd h hx.1) (not_acts fun h => absurd h hx.2) hpre
  refine ⟨?_, fun x hx => ?_⟩
  · exact (run_trace (step H sites) _ txs).invariant_of hstep
      (fun x hx => quiet x.call (mem_run_call hx)) hs
  · obtain ⟨hattempt, hok⟩ := mem_run.mp hx
    have hpre := attempt_invariant_of (P := fun tx : Transaction Address =>
      a ∉ tx.signers ∧ b ∉ tx.signers) hstep hs quiet hattempt
    have hsigned := quiet x.call (mem_run_call hx)
    exact hpre.refused hok hsigned.1 hsigned.2

/-- The guardian 12 signs everything, to no effect. -/
theorem drill_guarded : Guarded 10 10 (run (step Pool.callingHelpers drillSites) drillReady
    [⟨[12], fun _ => false, .emergencyLockdown 12 0 9 21 12⟩,
      ⟨[12], fun _ => false, .migratePool 12 9 5⟩]).1 :=
  (guardian_alone drill_settles 0 .empty drillSetup _ rfl rfl (by decide)).1

end Runs

end RefractContracts.Incident
