import RefractContracts.Host.Run

/-! The access control that the contracts share. One address is the administrator and
passes every role check; it hands over in two steps, a proposal and its acceptance.
The other roles are granted and revoked by the administrator, and while the contract is
paused only the role of the pauser changes hands. -/

namespace RefractContracts.Interfaces

open Host

inductive Role where
  | admin
  | operator
  | approver
  | pauser
  | upgrader
  deriving DecidableEq, Repr

inductive RefractError where
  | alreadyInitialized
  | notInitialized
  | unauthorized
  | notFound
  | paused
  | noPendingAdmin
  | invalidArgument
  | alreadyExists
  deriving DecidableEq, Repr

/-- The entries of access control; a role entry counts by its presence. -/
structure Access (Address : Type) where
  adminEntry : Option Address
  pendingAdminEntry : Option Address
  roleEntry : Role × Address → Bool
  pausedEntry : Option Bool

namespace Access

variable {Address : Type}

/-- A deployed contract before the call of `init`. -/
def deployed (Address : Type) : Access Address := ⟨none, none, fun _ => false, none⟩

abbrev Call (α : Type) := Outcome RefractError α

def admin (c : Access Address) : Call Address := okOr c.adminEntry .notInitialized

def isPaused (c : Access Address) : Bool := c.pausedEntry.getD false

variable [DecidableEq Address]

def hasRole (c : Access Address) (role : Role) (account : Address) : Bool :=
  if role = .admin then c.adminEntry = some account else c.roleEntry (role, account)

section Entry
variable (self : Address) (signers : List Address)

def requireAdmin (c : Access Address) (caller : Address) : Call Unit := do
  requireAuth signers caller
  let admin ← c.admin
  bail (admin ≠ caller) .unauthorized

/-- The caller has authorised the call, and holds the role or is the administrator. -/
def requireRole (c : Access Address) (role : Role) (caller : Address) : Call Unit := do
  requireAuth signers caller
  let admin ← c.admin
  bail (¬ (admin = caller ∨ c.hasRole role caller)) .unauthorized

/-- Set the first administrator. -/
def init (c : Access Address) (admin : Address) : Call (Access Address) := do
  bail c.adminEntry.isSome .alreadyInitialized
  bail (admin = self) .invalidArgument
  pure { c with adminEntry := some admin }

def checkRoleChange (c : Access Address) (role : Role) (account : Address) : Call Unit := do
  bail (role = .admin ∨ account = self) .invalidArgument
  bail (c.isPaused ∧ role ≠ .pauser) .paused

def grantRole (c : Access Address) (caller : Address) (role : Role) (account : Address) :
    Call (Access Address) := do
  requireAdmin signers c caller
  checkRoleChange self c role account
  bail (c.roleEntry (role, account)) .alreadyExists
  pure { c with roleEntry := Function.update c.roleEntry (role, account) true }

def revokeRole (c : Access Address) (caller : Address) (role : Role) (account : Address) :
    Call (Access Address) := do
  requireAdmin signers c caller
  checkRoleChange self c role account
  bail (¬ c.roleEntry (role, account)) .notFound
  pure { c with roleEntry := Function.update c.roleEntry (role, account) false }

/-- Record a new administrator as pending; proposing again replaces it. -/
def proposeAdmin (c : Access Address) (caller newAdmin : Address) : Call (Access Address) := do
  requireAdmin signers c caller
  bail (newAdmin = self ∨ newAdmin = caller) .invalidArgument
  pure { c with pendingAdminEntry := some newAdmin }

def acceptAdmin (c : Access Address) (caller : Address) : Call (Access Address) := do
  requireAuth signers caller
  let pending ← okOr c.pendingAdminEntry .noPendingAdmin
  bail (pending ≠ caller) .unauthorized
  let _ ← c.admin
  pure { c with adminEntry := some caller, pendingAdminEntry := none }

def pause (c : Access Address) (caller : Address) : Call (Access Address) := do
  requireRole signers c .pauser caller
  pure { c with pausedEntry := some true }

def unpause (c : Access Address) (caller : Address) : Call (Access Address) := do
  requireRole signers c .pauser caller
  pure { c with pausedEntry := some false }

end Entry

/-! ### Transactions -/

inductive Op (Address : Type) where
  | init (admin : Address)
  | grantRole (caller : Address) (role : Role) (account : Address)
  | revokeRole (caller : Address) (role : Role) (account : Address)
  | proposeAdmin (caller newAdmin : Address)
  | acceptAdmin (caller : Address)
  | pause (caller : Address)
  | unpause (caller : Address)

/-- An operation and the addresses that authorised it. -/
structure Transaction (Address : Type) where
  signers : List Address
  op : Op Address

def perform (self : Address) (signers : List Address) (c : Access Address) :
    Op Address → Call (Access Address)
  | .init admin => init self c admin
  | .grantRole caller role account => grantRole self signers c caller role account
  | .revokeRole caller role account => revokeRole self signers c caller role account
  | .proposeAdmin caller newAdmin => proposeAdmin self signers c caller newAdmin
  | .acceptAdmin caller => acceptAdmin signers c caller
  | .pause caller => pause signers c caller
  | .unpause caller => unpause signers c caller

/-- A contract at the address `self` with access control. -/
def contract (self : Address) : Contract (Access Address) (Transaction Address) Unit RefractError :=
  fun c tx => do return (← perform self tx.signers c tx.op, ())

/-! ### Effects -/

/-- What an accepted operation does, and what it found. -/
inductive Effect (self : Address) (signers : List Address) (c : Access Address) :
    Access Address → Op Address → Prop
  | initialized {admin} (fresh : c.adminEntry = none) (other : admin ≠ self) :
      Effect self signers c { c with adminEntry := some admin } (.init admin)
  | granted {caller role account} (authority : c.adminEntry = some caller)
      (ordinary : role ≠ .admin) (running : c.isPaused → role = .pauser) :
      Effect self signers c { c with roleEntry := Function.update c.roleEntry (role, account) true }
        (.grantRole caller role account)
  | revoked {caller role account} (authority : c.adminEntry = some caller)
      (ordinary : role ≠ .admin) (running : c.isPaused → role = .pauser) :
      Effect self signers c
        { c with roleEntry := Function.update c.roleEntry (role, account) false }
        (.revokeRole caller role account)
  | proposed {caller newAdmin} (authority : c.adminEntry = some caller) (other : newAdmin ≠ self) :
      Effect self signers c { c with pendingAdminEntry := some newAdmin }
        (.proposeAdmin caller newAdmin)
  | accepted {caller} (signed : caller ∈ signers) (pending : c.pendingAdminEntry = some caller) :
      Effect self signers c { c with adminEntry := some caller, pendingAdminEntry := none }
        (.acceptAdmin caller)
  | paused {caller} : Effect self signers c { c with pausedEntry := some true } (.pause caller)
  | unpaused {caller} : Effect self signers c { c with pausedEntry := some false } (.unpause caller)

variable {self : Address} {signers : List Address} {c c' : Access Address} {caller : Address}
  {role : Role} {account : Address} {u : Unit} {op : Op Address}

omit [DecidableEq Address] in
@[simp] theorem admin_eq_ok {a : Address} : c.admin = .ok a ↔ c.adminEntry = some a := by
  rw [admin, okOr_eq_ok]

@[simp] theorem requireAdmin_eq_ok :
    requireAdmin signers c caller = .ok u ↔ caller ∈ signers ∧ c.adminEntry = some caller := by
  simp only [requireAdmin, bind_eq_ok, requireAuth_eq_ok, admin_eq_ok, bail_eq_ok, not_not]
  constructor
  · rintro ⟨_, hsigned, _, hadmin, rfl⟩
    exact ⟨hsigned, hadmin⟩
  · rintro ⟨hsigned, hadmin⟩
    exact ⟨(), hsigned, caller, hadmin, rfl⟩

@[simp] theorem checkRoleChange_eq_ok : checkRoleChange self c role account = .ok u ↔
    (role ≠ .admin ∧ account ≠ self) ∧ (c.isPaused → role = .pauser) := by
  simp only [checkRoleChange, bind_eq_ok, bail_eq_ok, not_or, not_and, not_not]
  constructor
  · rintro ⟨_, hargs, hrunning⟩
    exact ⟨hargs, hrunning⟩
  · rintro ⟨hargs, hrunning⟩
    exact ⟨(), hargs, hrunning⟩

/-- An accepted operation has its effect. -/
theorem perform_effect (h : perform self signers c op = .ok c') : Effect self signers c c' op := by
  cases op with
  | init admin =>
    simp only [perform, init, bind_eq_ok, bail_eq_ok, Bool.not_eq_true, Option.isSome_eq_false_iff,
      Option.isNone_iff_eq_none, pure_eq_ok] at h
    obtain ⟨_, fresh, _, other, rfl⟩ := h
    exact .initialized fresh other
  | grantRole caller role account =>
    simp only [perform, grantRole, bind_eq_ok, requireAdmin_eq_ok, checkRoleChange_eq_ok,
      pure_eq_ok] at h
    obtain ⟨_, ⟨-, authority⟩, _, ⟨⟨ordinary, -⟩, running⟩, _, -, rfl⟩ := h
    exact .granted authority ordinary running
  | revokeRole caller role account =>
    simp only [perform, revokeRole, bind_eq_ok, requireAdmin_eq_ok, checkRoleChange_eq_ok,
      pure_eq_ok] at h
    obtain ⟨_, ⟨-, authority⟩, _, ⟨⟨ordinary, -⟩, running⟩, _, -, rfl⟩ := h
    exact .revoked authority ordinary running
  | proposeAdmin caller newAdmin =>
    simp only [perform, proposeAdmin, bind_eq_ok, requireAdmin_eq_ok, bail_eq_ok, not_or,
      pure_eq_ok] at h
    obtain ⟨_, ⟨-, authority⟩, _, ⟨other, -⟩, rfl⟩ := h
    exact .proposed authority other
  | acceptAdmin caller =>
    simp only [perform, acceptAdmin, bind_eq_ok, requireAuth_eq_ok, okOr_eq_ok, bail_eq_ok, not_not,
      admin_eq_ok, pure_eq_ok] at h
    obtain ⟨_, signed, _, pending, _, rfl, _, -, rfl⟩ := h
    exact .accepted signed pending
  | pause caller =>
    simp only [perform, pause, bind_eq_ok, pure_eq_ok] at h
    obtain ⟨_, -, rfl⟩ := h
    exact .paused
  | unpause caller =>
    simp only [perform, unpause, bind_eq_ok, pure_eq_ok] at h
    obtain ⟨_, -, rfl⟩ := h
    exact .unpaused

theorem contract_effect {tx : Transaction Address} (h : contract self c tx = .ok (c', u)) :
    Effect self tx.signers c c' tx.op := by
  simp only [contract, bind_eq_ok, pure_eq_ok, Prod.mk.injEq] at h
  obtain ⟨_, h, rfl, -⟩ := h
  exact perform_effect h

end Access

end RefractContracts.Interfaces
