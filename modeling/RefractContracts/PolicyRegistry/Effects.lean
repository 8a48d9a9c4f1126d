import RefractContracts.Host.Storage
import RefractContracts.PolicyRegistry.Contract

/-! What an accepted call of the policy registry changes. -/

namespace RefractContracts.PolicyRegistry

open Host

variable {Address : Type}

def PolicyRegistration.record (reg : PolicyRegistration Address) (now : ℕ) :
    PolicyRecord Address :=
  ⟨reg.policyId, reg.holder, reg.coverageType, reg.coverageAmount, reg.premium, reg.expiresAt,
    true, now⟩

/-- The operations of the administrator on the administrator. -/
def Op.Handover : Op Address → Prop
  | .proposeAdmin .. | .acceptAdmin _ => True
  | _ => False

/-- The caller is the administrator or the trusted pool. -/
def Trusted (w : World Address) (caller : Address) : Prop :=
  w.adminEntry = some caller ∨ w.poolContractEntry = some caller

variable [DecidableEq Address]

/-- The state with one more record. -/
def World.register (w : World Address) (reg : PolicyRegistration Address) : World Address :=
  { w with
    policyEntry := Function.update w.policyEntry reg.policyId (some (reg.record w.now))
    holderPoliciesEntry := Function.update w.holderPoliciesEntry reg.holder
      (some (getHolderPolicyIds w reg.holder ++ [reg.policyId]))
    totalPoliciesEntry := some (totalPolicies w + 1)
    totalPremiumEntry := some (totalPremium w + reg.premium)
    activePoliciesEntry := some (activePolicies w + 1) }

omit [DecidableEq Address] in
def World.deactivate (w : World Address) (policyId : ℕ) (record : PolicyRecord Address) :
    World Address :=
  { w with
    policyEntry := Function.update w.policyEntry policyId (some { record with isActive := false })
    activePoliciesEntry := some (activePolicies w - 1) }

inductive Effect (w : World Address) : World Address → Op Address → ℕ → Prop
  | initialized {admin poolContract} (first : w.adminEntry = none) :
      Effect w { w with
        adminEntry := some admin
        poolContractEntry := some poolContract
        totalPoliciesEntry := some 0
        totalPremiumEntry := some 0
        activePoliciesEntry := some 0 } (.initializeContract admin poolContract) 0
  | registered {caller reg} (managed : w.adminEntry.isSome) (trusted : Trusted w caller)
      (fresh : w.policyEntry reg.policyId = none) :
      Effect w (w.register reg) (.registerPolicy caller reg) reg.policyId
  | deactivated {caller policyId record} (trusted : Trusted w caller)
      (stored : w.policyEntry policyId = some record) (active : record.isActive = true) :
      Effect w (w.deactivate policyId record) (.deactivatePolicy caller policyId) 0
  | idle {caller policyId record} (stored : w.policyEntry policyId = some record)
      (inactive : record.isActive = false) : Effect w w (.deactivatePolicy caller policyId) 0
  | delayed {caller delay} :
      Effect w { w with poolContractChangeDelayEntry := some delay }
        (.setPoolContractChangeDelay caller delay) 0
  | proposed {caller poolContract} :
      Effect w { w with
        pendingPoolContractEntry := some ⟨poolContract, w.now + poolContractChangeDelay w⟩ }
        (.proposePoolContract caller poolContract) 0
  | confirmed {caller pending} (stored : w.pendingPoolContractEntry = some pending)
      (ready : pending.executableAt ≤ w.now) :
      Effect w { w with
        poolContractEntry := some pending.poolContract
        pendingPoolContractEntry := none } (.confirmPoolContract caller) 0
  | cancelled {caller} :
      Effect w { w with pendingPoolContractEntry := none } (.cancelPoolContract caller) 0
  | administered {op admin pending} (kind : op.Handover) (managed : admin.isSome) :
      Effect w { w with adminEntry := admin, pendingAdminEntry := pending } op 0
  | advanced {seconds} : Effect w { w with now := w.now + seconds } (.advance seconds) 0

variable {w w' : World Address} {signers : List Address} {caller : Address} {out : ℕ}

theorem requireAdmin_ok {u : Unit} (h : requireAdmin signers w caller = .ok u) :
    w.adminEntry.isSome := by
  simp only [requireAdmin, bind_eq_ok, okOr_eq_ok] at h
  obtain ⟨-, -, admin, hadmin, -⟩ := h
  simp [hadmin]

theorem requirePoolOrAdmin_ok {u : Unit} (h : requirePoolOrAdmin signers w caller = .ok u) :
    w.adminEntry.isSome ∧ Trusted w caller := by
  simp only [requirePoolOrAdmin, bind_eq_ok, okOr_eq_ok] at h
  obtain ⟨-, -, admin, hadmin, h⟩ := h
  refine ⟨by simp [hadmin], ?_⟩
  split at h
  · next hcaller => exact .inl (hcaller ▸ hadmin)
  · simp only [bind_eq_ok, okOr_eq_ok, bail_eq_ok, not_not] at h
    obtain ⟨pool, hpool, rfl⟩ := h
    exact .inr hpool

theorem registerPolicy_ok {reg : PolicyRegistration Address}
    (h : registerPolicy signers w caller reg = .ok (w', out)) :
    Effect w w' (.registerPolicy caller reg) out := by
  simp only [registerPolicy, bind_eq_ok, bail_eq_ok, u64_eq_ok, i128_eq_ok, pure_eq_ok,
    Prod.mk.injEq, Option.not_isSome_iff_eq_none] at h
  obtain ⟨_, hcaller, _, hfresh, _, ⟨-, rfl⟩, _, ⟨-, rfl⟩, _, ⟨-, rfl⟩, rfl, rfl⟩ := h
  have htrusted := requirePoolOrAdmin_ok hcaller
  exact .registered htrusted.1 htrusted.2 hfresh

theorem deactivatePolicy_ok {policyId : ℕ}
    (h : deactivatePolicy signers w caller policyId = .ok w') :
    Effect w w' (.deactivatePolicy caller policyId) 0 := by
  simp only [deactivatePolicy, bind_eq_ok, okOr_eq_ok] at h
  obtain ⟨_, hcaller, record, hstored, h⟩ := h
  split at h
  · next hactive =>
    obtain rfl := (pure_eq_ok _ _).mp h
    exact .deactivated (requirePoolOrAdmin_ok hcaller).2 hstored hactive
  · next hactive =>
    obtain rfl := (pure_eq_ok _ _).mp h
    exact .idle hstored (by simpa using hactive)

/-- An accepted transaction has the effect of its entry point. -/
theorem step_effect {tx : Transaction Address} (h : step w tx = .ok (w', out)) :
    Effect w w' tx.op out := by
  obtain ⟨signers, op⟩ := tx
  cases op with simp only [step, bind_eq_ok, pure_eq_ok, Prod.mk.injEq] at h
  | initializeContract admin poolContract =>
    simp only [initializeContract, bind_eq_ok, bail_eq_ok, pure_eq_ok,
      Option.not_isSome_iff_eq_none] at h
    obtain ⟨_, ⟨-, hfirst, rfl⟩, rfl, rfl⟩ := h
    exact .initialized hfirst
  | registerPolicy caller reg => exact registerPolicy_ok h
  | deactivatePolicy caller policyId =>
    obtain ⟨_, h, rfl, rfl⟩ := h
    exact deactivatePolicy_ok h
  | setPoolContractChangeDelay caller delay =>
    simp only [setPoolContractChangeDelay, bind_eq_ok, pure_eq_ok] at h
    obtain ⟨_, ⟨-, -, rfl⟩, rfl, rfl⟩ := h
    exact .delayed
  | proposePoolContract caller poolContract =>
    simp only [proposePoolContract, bind_eq_ok, u64_eq_ok, pure_eq_ok] at h
    obtain ⟨_, ⟨-, -, _, ⟨-, rfl⟩, rfl⟩, rfl, rfl⟩ := h
    exact .proposed
  | confirmPoolContract caller =>
    simp only [confirmPoolContract, bind_eq_ok, okOr_eq_ok, bail_eq_ok, pure_eq_ok, not_lt] at h
    obtain ⟨_, ⟨-, -, pending, hstored, -, hready, rfl⟩, rfl, rfl⟩ := h
    exact .confirmed hstored hready
  | cancelPoolContract caller =>
    simp only [cancelPoolContract, bind_eq_ok, pure_eq_ok] at h
    obtain ⟨_, ⟨-, -, -, -, rfl⟩, rfl, rfl⟩ := h
    exact .cancelled
  | proposeAdmin caller newAdmin =>
    simp only [proposeAdmin, bind_eq_ok, pure_eq_ok] at h
    obtain ⟨_, ⟨_, hadmin, rfl⟩, rfl, rfl⟩ := h
    exact .administered trivial (requireAdmin_ok hadmin)
  | acceptAdmin caller =>
    simp only [acceptAdmin, bind_eq_ok, pure_eq_ok] at h
    obtain ⟨_, ⟨-, -, -, -, -, -, rfl⟩, rfl, rfl⟩ := h
    exact .administered trivial rfl
  | advance seconds =>
    simp only [u64_eq_ok] at h
    obtain ⟨_, ⟨-, rfl⟩, rfl, rfl⟩ := h
    exact .advanced

abbrev Event (Address : Type) := Receipt (World Address) (Transaction Address) ℕ

end RefractContracts.PolicyRegistry
