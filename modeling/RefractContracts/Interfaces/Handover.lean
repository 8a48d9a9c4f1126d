import RefractContracts.Host.History
import RefractContracts.Interfaces.Access

/-! Access control over a run. Once a contract is initialized it has one administrator,
who changes only by accepting the latest proposal of the one before; a role is held
exactly when its last change was a grant, and while the contract is paused no role but
the pauser's changes. -/

namespace RefractContracts.Interfaces.Access

open Host

variable {Address : Type}

abbrev Event (Address : Type) := Receipt (Access Address) (Transaction Address) Unit

def Initializes (x : Event Address) : Prop := ∃ admin, x.call.op = .init admin

def Proposes (x : Event Address) : Prop :=
  ∃ caller newAdmin, x.call.op = .proposeAdmin caller newAdmin

def Accepts (x : Event Address) : Prop := ∃ caller, x.call.op = .acceptAdmin caller

/-- The administrator `a` made the latest proposal, of `b`, and it is not yet accepted. -/
def Proposed (h : List (Event Address)) (a b : Address) : Prop :=
  ∃ x l, Latest Proposes h x l ∧ x.call.op = .proposeAdmin a b ∧ x.pre.adminEntry = some a ∧
    ∀ y ∈ l, ¬ Accepts y

variable {self : Address} {h : List (Event Address)} {x : Event Address} {a b : Address}

theorem Proposed.snoc (hp : Proposed h a b) (hprop : ¬ Proposes x) (hacc : ¬ Accepts x) :
    Proposed (h ++ [x]) a b := by
  rcases hp with ⟨y, l, hlatest, hcall, hadmin, hnone⟩
  exact ⟨y, l ++ [x], hlatest.snoc hprop, hcall, hadmin, forall_mem_snoc hnone hacc⟩

/-- The administrator and the handover after the operations `h`. -/
structure Controlled (own : Address) (h : List (Event Address)) (c : Access Address) : Prop where
  initialized : ∀ x ∈ h, Initializes x → ∃ admin, c.adminEntry = some admin
  admin_ne : ∀ admin, c.adminEntry = some admin → admin ≠ own
  pending : ∀ b, c.pendingAdminEntry = some b →
    b ≠ own ∧ ∃ a, c.adminEntry = some a ∧ Proposed h a b

theorem deployed_controlled : Controlled self [] (deployed Address) :=
  ⟨List.forall_mem_nil _, nofun, nofun⟩

/-- An operation that concerns neither the administrator nor the handover. -/
theorem Controlled.keep {c c' : Access Address} (k : Controlled self h c)
    (hinit : ¬ Initializes x) (hprop : ¬ Proposes x) (hacc : ¬ Accepts x)
    (hadmin : c'.adminEntry = c.adminEntry)
    (hpending : c'.pendingAdminEntry = c.pendingAdminEntry) : Controlled self (h ++ [x]) c' where
  initialized := by
    rw [hadmin]
    exact forall_mem_snoc k.initialized fun hx => absurd hx hinit
  admin_ne := by
    rw [hadmin]
    exact k.admin_ne
  pending b hb := by
    rw [hpending] at hb
    rw [hadmin]
    rcases k.pending b hb with ⟨hne, a, ha, hp⟩
    exact ⟨hne, a, ha, hp.snoc hprop hacc⟩

variable [DecidableEq Address]

theorem controlled_step (h : List (Event Address)) (x : Event Address)
    (accepted : contract self x.pre x.call = .ok (x.post, x.out))
    (k : Controlled self h x.pre) : Controlled self (h ++ [x]) x.post := by
  have e := contract_effect accepted
  obtain ⟨pre, ⟨signers, op⟩, out, post⟩ := x
  simp only at e k ⊢
  cases e with
  | @initialized admin fresh other =>
    refine ⟨fun _ _ _ => ⟨admin, rfl⟩, ?_, fun b hb => ?_⟩
    · rintro _ ⟨⟩
      exact other
    · -- nothing is pending before there is an administrator
      rcases k.pending b hb with ⟨-, a, ha, -⟩
      rw [fresh] at ha
      cases ha
  | @proposed caller newAdmin authority other =>
    refine ⟨?_, k.admin_ne, ?_⟩
    · exact fun _ _ _ => ⟨caller, authority⟩
    · rintro _ ⟨⟩
      refine ⟨other, caller, authority, _, [], Latest.of_snoc h ⟨caller, newAdmin, rfl⟩, rfl,
        authority, ?_⟩
      exact List.forall_mem_nil _
  | @accepted caller signed pending =>
    refine ⟨fun _ _ _ => ⟨caller, rfl⟩, ?_, nofun⟩
    rintro _ ⟨⟩
    exact (k.pending caller pending).1
  | granted _ _ _ => exact k.keep nofun nofun nofun rfl rfl
  | revoked _ _ _ => exact k.keep nofun nofun nofun rfl rfl
  | paused => exact k.keep nofun nofun nofun rfl rfl
  | unpaused => exact k.keep nofun nofun nofun rfl rfl

/-- The administrator changes only where the address of the latest proposal accepts. -/
theorem Controlled.handover {g : List (Event Address)} (k : Controlled self g x.pre)
    (accepted : contract self x.pre x.call = .ok (x.post, x.out)) (ha : x.pre.adminEntry = some a)
    (hchange : x.post.adminEntry ≠ some a) :
    ∃ b, x.call.op = .acceptAdmin b ∧ b ∈ x.call.signers ∧ x.post.adminEntry = some b ∧
      Proposed g a b := by
  have e := contract_effect accepted
  obtain ⟨pre, ⟨signers, op⟩, out, post⟩ := x
  simp only at e k ha hchange ⊢
  cases e with
  | @accepted caller signed pending =>
    rcases k.pending caller pending with ⟨-, a', ha', hp⟩
    rw [ha, Option.some.injEq] at ha'
    rw [← ha'] at hp
    exact ⟨caller, rfl, signed, rfl, hp⟩
  | initialized fresh _ =>
    rw [fresh] at ha
    cases ha
  | _ => exact absurd ha hchange

/-! ### Roles -/

/-- What a grant or a revocation makes of a role entry. -/
def roleWrite (tx : Transaction Address) (k : Role × Address) : Option Bool :=
  match tx.op with
  | .grantRole _ role account => if (role, account) = k then some true else none
  | .revokeRole _ role account => if (role, account) = k then some false else none
  | _ => none

theorem role_written (x : Event Address)
    (accepted : contract self x.pre x.call = .ok (x.post, x.out)) (k : Role × Address) :
    x.post.roleEntry k = (roleWrite x.call k).getD (x.pre.roleEntry k) := by
  have e := contract_effect accepted
  obtain ⟨pre, ⟨signers, op⟩, out, post⟩ := x
  simp only at e ⊢
  cases e with
  | @granted caller role account _ _ _ =>
    show Function.update pre.roleEntry (role, account) true k =
      (if (role, account) = k then some true else none).getD (pre.roleEntry k)
    split_ifs with hk
    · rw [hk, Function.update_self, Option.getD_some]
    · rw [Function.update_of_ne (Ne.symm hk), Option.getD_none]
  | @revoked caller role account _ _ _ =>
    show Function.update pre.roleEntry (role, account) false k =
      (if (role, account) = k then some false else none).getD (pre.roleEntry k)
    split_ifs with hk
    · rw [hk, Function.update_self, Option.getD_some]
    · rw [Function.update_of_ne (Ne.symm hk), Option.getD_none]
  | _ => rfl

/-- The administrator's role has no entry. -/
theorem admin_ungranted {c : Access Address} (tr : Trace (contract self) (deployed Address) h c)
    (a : Address) : c.roleEntry (.admin, a) = false := by
  apply tr.invariant (I := fun c => c.roleEntry (.admin, a) = false)
  · intro x accepted hpre
    have e := contract_effect accepted
    obtain ⟨pre, ⟨signers, op⟩, out, post⟩ := x
    simp only at e hpre ⊢
    cases e with
    | @granted _ role account _ ordinary _ | @revoked _ role account _ ordinary _ =>
      have hne : (Role.admin, a) ≠ (role, account) := fun heq => ordinary (Prod.mk.inj heq).1.symm
      exact (Function.update_of_ne hne _ _).trans hpre
    | _ => exact hpre
  · rfl

/-- A role has an entry when its last change was a grant. -/
theorem roleEntry_iff {c : Access Address} (tr : Trace (contract self) (deployed Address) h c)
    (k : Role × Address) : c.roleEntry k = true ↔ lastWrite roleWrite h k = some true := by
  rw [tr.read_lastWrite role_written k]
  cases lastWrite roleWrite h k <;> simp [deployed]

/-- Roles are granted once there is an administrator. -/
theorem granted_admin {c : Access Address} (tr : Trace (contract self) (deployed Address) h c)
    {k : Role × Address} (hk : c.roleEntry k = true) : ∃ admin, c.adminEntry = some admin := by
  revert hk
  apply tr.invariant (I := fun c => c.roleEntry k = true → ∃ admin, c.adminEntry = some admin)
  · intro x accepted hpre
    have e := contract_effect accepted
    obtain ⟨pre, ⟨signers, op⟩, out, post⟩ := x
    simp only at e hpre ⊢
    cases e with
    | @initialized admin _ _ => exact fun _ => ⟨admin, rfl⟩
    | @granted caller _ _ authority _ _ => exact fun _ => ⟨caller, authority⟩
    | @revoked caller _ _ authority _ _ => exact fun _ => ⟨caller, authority⟩
    | @accepted caller _ _ => exact fun _ => ⟨caller, rfl⟩
    | _ => exact hpre
  · nofun

theorem hasRole_iff {c : Access Address} (tr : Trace (contract self) (deployed Address) h c)
    (role : Role) (a : Address) : c.hasRole role a = true ↔
      (role = .admin ∧ c.adminEntry = some a) ∨ lastWrite roleWrite h (role, a) = some true := by
  rw [← roleEntry_iff tr, hasRole]
  split_ifs with hrole
  · simp [hrole, admin_ungranted tr a]
  · simp [hrole]

/-- A role check passes for those who authorise it and are the administrator or whose
role was granted last. -/
theorem requireRole_iff {c : Access Address} (tr : Trace (contract self) (deployed Address) h c)
    (signers : List Address) (role : Role) (a : Address) :
    requireRole signers c role a = .ok () ↔
      a ∈ signers ∧ (c.adminEntry = some a ∨ lastWrite roleWrite h (role, a) = some true) := by
  simp only [requireRole, bind_eq_ok, requireAuth_eq_ok, admin_eq_ok, bail_eq_ok, not_not,
    hasRole_iff tr]
  constructor
  · rintro ⟨_, hsigned, admin, hadmin, rfl | ⟨-, ha⟩ | hgrant⟩
    · exact ⟨hsigned, .inl hadmin⟩
    · exact ⟨hsigned, .inl ha⟩
    · exact ⟨hsigned, .inr hgrant⟩
  · rintro ⟨hsigned, ha | hgrant⟩
    · exact ⟨(), hsigned, a, ha, .inl rfl⟩
    · rcases granted_admin tr ((roleEntry_iff tr _).mpr hgrant) with ⟨admin, hadmin⟩
      exact ⟨(), hsigned, admin, hadmin, .inr (.inr hgrant)⟩

/-- While the contract is paused no role but the pauser's is changed. -/
theorem paused_roles {role : Role} (accepted : contract self x.pre x.call = .ok (x.post, x.out))
    (hpaused : x.pre.isPaused = true) (hrole : role ≠ .pauser) (a : Address) :
    roleWrite x.call (role, a) = none := by
  have e := contract_effect accepted
  obtain ⟨pre, ⟨signers, op⟩, out, post⟩ := x
  simp only at e hpaused ⊢
  cases e with
  | granted _ _ running | revoked _ _ running =>
    apply if_neg
    intro heq
    rw [← (Prod.mk.inj heq).1] at hrole
    exact hrole (running hpaused)
  | _ => rfl

/-- Access control over every run of a contract at the address `self`. Once it is
initialized one account is the administrator, and it is not the contract; the
administrator changes only where the address of the latest proposal of the one before,
not yet accepted, accepts; a role check passes exactly for those who authorise it and
are the administrator or whose role was granted last; and while the contract is paused
no role but the pauser's is granted or revoked. -/
theorem access_controlled (self : Address) (txs : List (Transaction Address)) :
    let r := run (contract self) (deployed Address) txs
    ((∃ x ∈ r.2, Initializes x) → ∃ a, r.1.adminEntry = some a ∧ a ≠ self ∧
      ∀ b, r.1.hasRole .admin b = true ↔ b = a) ∧
    (∀ g x l a, r.2 = g ++ x :: l → x.pre.adminEntry = some a → x.post.adminEntry ≠ some a →
      ∃ b, x.call.op = .acceptAdmin b ∧ b ∈ x.call.signers ∧ x.post.adminEntry = some b ∧
        Proposed g a b) ∧
    (∀ signers role a, requireRole signers r.1 role a = .ok () ↔
      a ∈ signers ∧ (r.1.adminEntry = some a ∨ lastWrite roleWrite r.2 (role, a) = some true)) ∧
    ∀ x ∈ r.2, x.pre.isPaused = true → ∀ role ≠ .pauser, ∀ a,
      roleWrite x.call (role, a) = none ∧
        x.post.roleEntry (role, a) = x.pre.roleEntry (role, a) := by
  intro r
  have tr : Trace (contract self) (deployed Address) r.2 r.1 := run_trace _ _ txs
  refine ⟨?_, ?_, requireRole_iff tr, ?_⟩
  · rintro ⟨x, hx, hinit⟩
    have k := tr.history controlled_step deployed_controlled
    rcases k.initialized x hx hinit with ⟨a, ha⟩
    refine ⟨a, ha, k.admin_ne a ha, fun b => ?_⟩
    rw [hasRole, if_pos rfl, ha, decide_eq_true_iff, Option.some.injEq]
    exact eq_comm
  · intro g x l a hsplit ha hchange
    rw [hsplit] at tr
    obtain ⟨hist, accepted, -⟩ := tr.at_receipt
    exact (hist.history controlled_step deployed_controlled).handover accepted ha hchange
  · intro x hx hpaused role hrole a
    have accepted := (mem_run.mp hx).2
    have hnone := paused_roles accepted hpaused hrole a
    refine ⟨hnone, ?_⟩
    rw [role_written x accepted, hnone, Option.getD_none]

end RefractContracts.Interfaces.Access
