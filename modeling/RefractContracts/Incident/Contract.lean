import RefractContracts.Oracle.Effects
import RefractContracts.Pool.Mirror

/-! `RefractIncidentResponse`, the coordinator of an emergency, next to the contracts it works on:
the pool with its policy registry, and the oracle. A lockdown calls each of the three as the
coordinator, with what the signers of the transaction have authorised; where one of the calls
fails, none has happened. -/

namespace RefractContracts.Incident

open Host

inductive IncidentError where
  | alreadyInitialized
  | notInitialized
  | unauthorized
  deriving DecidableEq, Repr

/-- The coordinator's storage. -/
structure Coordinator (Address : Type) where
  adminEntry : Option Address
  guardianEntry : Option Address

/-- The addresses of the four contracts. -/
structure Sites (Address : Type) where
  coordinator : Address
  pool : Address
  registry : Address
  oracle : Address

def Sites.all {Address : Type} (sites : Sites Address) : List Address :=
  [sites.coordinator, sites.pool, sites.registry, sites.oracle]

/-- The coordinator, the pool with its registry, and the oracle. -/
structure System (Address : Type) where
  coordinator : Coordinator Address
  contracts : Pool.System Address
  oracle : Oracle.World Address

/-- The oracle at the time of the other contracts. -/
def System.clocked {Address : Type} (s : System Address) : Oracle.World Address :=
  { s.oracle with now := s.contracts.pool.now }

abbrev Call (α : Type) := Outcome IncidentError α

/-- The contracts before their calls of `initialize`. -/
def deployed {Address : Type} (now : ℕ) (ledger : Token Address) : System Address where
  coordinator := ⟨none, none⟩
  contracts := .deployed now ledger
  oracle := Oracle.deployed Address now

variable {Address : Type}

def initializeContract (c : Coordinator Address) (admin guardian : Address) :
    Call (Coordinator Address) := do
  bail c.guardianEntry.isSome .alreadyInitialized
  pure ⟨some admin, some guardian⟩

variable [DecidableEq Address]

/-- The caller is the guardian or the admin of the coordinator. -/
def requireResponder (signers : List Address) (c : Coordinator Address) (caller : Address) :
    Call Unit := do
  requireAuth signers caller
  let currentAdmin ← okOr c.adminEntry .notInitialized
  let currentGuardian ← okOr c.guardianEntry .notInitialized
  bail (caller ≠ currentAdmin ∧ caller ≠ currentGuardian) .unauthorized

def setGuardian (signers : List Address) (c : Coordinator Address) (caller newGuardian : Address) :
    Call (Coordinator Address) := do
  requireResponder signers c caller
  pure { c with guardianEntry := some newGuardian }

/-! ### Calls of the other contracts -/

section Calls
variable (sites : Sites Address) (foreign : Address → Bool) (signers : List Address)

/-- Another contract answers the call, if it does; one of the four has no such function. -/
def callOther (contract : Address) (s : System Address) : Call (System Address) := do
  demand (contract ∉ sites.all ∧ foreign contract = true)
  pure s

/-- `set_admin(caller, new_admin)` of the contract at `pool`. -/
def rotatePoolAdmin (s : System Address) (pool caller newAdmin : Address) :
    Call (System Address) :=
  if pool = sites.pool then do
    let w ← invoke
      (Pool.setAdmin (sites.coordinator :: signers) s.contracts.pool caller newAdmin)
    pure { s with contracts := { s.contracts with pool := w } }
  else callOther sites foreign pool s

/-- `propose_admin(caller, new_admin)` of the contract at `registry`. -/
def proposeRegistryAdmin (s : System Address) (registry caller newAdmin : Address) :
    Call (System Address) :=
  if registry = sites.registry then do
    let r ← invoke (PolicyRegistry.proposeAdmin (sites.coordinator :: signers)
      s.contracts.clocked caller newAdmin)
    pure { s with contracts := { s.contracts with registry := r } }
  else callOther sites foreign registry s

/-- `propose_admin(new_admin)` of the contract at `oracle`. -/
def proposeOracleAdmin (s : System Address) (oracle newAdmin : Address) :
    Call (System Address) :=
  if oracle = sites.oracle then do
    let o ← invoke (Oracle.proposeAdmin (sites.coordinator :: signers) s.clocked newAdmin)
    pure { s with oracle := o }
  else callOther sites foreign oracle s

/-- Rotate the pool's admin and propose the new one to the registry and to the oracle. -/
def emergencyLockdown (s : System Address) (caller pool registry oracle newAdmin : Address) :
    Call (System Address) := do
  requireResponder signers s.coordinator caller
  let s ← rotatePoolAdmin sites foreign signers s pool caller newAdmin
  let s ← proposeRegistryAdmin sites foreign signers s registry caller newAdmin
  proposeOracleAdmin sites foreign signers s oracle newAdmin

/-- Propose to the registry that it trust a patched pool. -/
def migratePool (s : System Address) (caller registry newPool : Address) :
    Call (System Address) := do
  requireResponder signers s.coordinator caller
  if registry = sites.registry then do
    let r ← invoke (PolicyRegistry.proposePoolContract (sites.coordinator :: signers)
      s.contracts.clocked caller newPool)
    pure { s with contracts := { s.contracts with registry := r } }
  else callOther sites foreign registry s

end Calls

/-! ### Transactions -/

inductive Op (Address : Type) where
  | initializeContract (admin guardian : Address)
  | setGuardian (caller newGuardian : Address)
  | emergencyLockdown (caller pool registry oracle newAdmin : Address)
  | migratePool (caller registry newPool : Address)
  | contracts (op : Pool.SystemOp Address)
  | oracle (op : Oracle.Op Address)

/-- `foreign` says which of the other contracts answer a call in the transaction. -/
structure Transaction (Address : Type) where
  signers : List Address
  foreign : Address → Bool
  op : Op Address

inductive SystemError where
  | incident (e : IncidentError)
  | contracts (e : Pool.SystemError)
  | oracle (e : Oracle.OracleError)

/-- The addresses that authorise a transaction; a contract does not sign. -/
def Transaction.authorities (sites : Sites Address) (tx : Transaction Address) : List Address :=
  tx.signers.filter (· ∉ sites.all)

/-- One transaction of the coordinator or of another of the contracts. -/
def step (H : Pool.Helpers Address) (sites : Sites Address) :
    Contract (System Address) (Transaction Address) ℤ SystemError := fun s tx =>
  let signers := tx.authorities sites
  match tx.op with
  | .initializeContract admin guardian => do
    let c ← embed .incident (initializeContract s.coordinator admin guardian)
    pure ({ s with coordinator := c }, 0)
  | .setGuardian caller newGuardian => do
    let c ← embed .incident (setGuardian signers s.coordinator caller newGuardian)
    pure ({ s with coordinator := c }, 0)
  | .emergencyLockdown caller pool registry oracle newAdmin => do
    let s ← embed .incident
      (emergencyLockdown sites tx.foreign signers s caller pool registry oracle newAdmin)
    pure (s, 0)
  | .migratePool caller registry newPool => do
    let s ← embed .incident (migratePool sites tx.foreign signers s caller registry newPool)
    pure (s, 0)
  | .contracts op => do
    let (contracts, out) ← embed .contracts
      (Pool.systemStep H sites.pool sites.registry s.contracts ⟨signers, op⟩)
    pure ({ s with contracts }, out)
  | .oracle op => do
    let (oracle, _) ← embed .oracle (Oracle.step s.clocked ⟨signers, op⟩)
    pure ({ s with oracle }, 0)

end RefractContracts.Incident
