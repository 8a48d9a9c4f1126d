import RefractContracts.Host.Run
import RefractContracts.Host.Value

/-! `RefractPolicyRegistry`: the index of the policies that the pool created. The pool
or the administrator registers a policy under the id the pool assigned and deactivates
it later. The pool that is trusted is replaced by a proposal of the administrator,
confirmed after a delay. -/

namespace RefractContracts.PolicyRegistry

open Host

inductive CoverageType where
  | stablecoinDepeg
  | marketCrash
  | liquidationShield
  | smartContractRisk
  | flightDelay
  deriving DecidableEq, Repr

inductive RegistryError where
  | alreadyInitialized
  | notInitialized
  | unauthorized
  | policyNotFound
  | policyAlreadyExists
  | noPendingPoolContract
  | poolContractChangeNotReady
  | noPendingAdmin
  deriving DecidableEq, Repr

structure PolicyRegistration (Address : Type) where
  policyId : ℕ
  holder : Address
  coverageType : CoverageType
  coverageAmount : ℤ
  premium : ℤ
  expiresAt : ℕ

@[ext] structure PolicyRecord (Address : Type) where
  policyId : ℕ
  holder : Address
  coverageType : CoverageType
  coverageAmount : ℤ
  premium : ℤ
  expiresAt : ℕ
  isActive : Bool
  createdAt : ℕ

structure PendingPoolContract (Address : Type) where
  poolContract : Address
  executableAt : ℕ

/-- The contract's storage and the ledger's time. -/
structure World (Address : Type) where
  now : ℕ
  adminEntry : Option Address
  pendingAdminEntry : Option Address
  poolContractEntry : Option Address
  pendingPoolContractEntry : Option (PendingPoolContract Address)
  poolContractChangeDelayEntry : Option ℕ
  policyEntry : ℕ → Option (PolicyRecord Address)
  holderPoliciesEntry : Address → Option (List ℕ)
  totalPoliciesEntry : Option ℕ
  totalPremiumEntry : Option ℤ
  activePoliciesEntry : Option ℕ

/-- A deployed contract before the call of `initialize`. -/
def deployed (Address : Type) (now : ℕ) : World Address where
  now
  adminEntry := none
  pendingAdminEntry := none
  poolContractEntry := none
  pendingPoolContractEntry := none
  poolContractChangeDelayEntry := none
  policyEntry _ := none
  holderPoliciesEntry _ := none
  totalPoliciesEntry := none
  totalPremiumEntry := none
  activePoliciesEntry := none

abbrev Call (α : Type) := Outcome RegistryError α

variable {Address : Type}

/-! ### Queries -/

def getPolicy (w : World Address) (policyId : ℕ) : Call (PolicyRecord Address) :=
  okOr (w.policyEntry policyId) .policyNotFound

def getHolderPolicyIds (w : World Address) (holder : Address) : List ℕ :=
  (w.holderPoliciesEntry holder).getD []

/-- The holder's ids whose record is active. -/
def getHolderActivePolicyIds (w : World Address) (holder : Address) : List ℕ :=
  (getHolderPolicyIds w holder).filter fun id =>
    match w.policyEntry id with
    | some record => record.isActive
    | none => false

def totalPolicies (w : World Address) : ℕ := w.totalPoliciesEntry.getD 0

def totalPremium (w : World Address) : ℤ := w.totalPremiumEntry.getD 0

def activePolicies (w : World Address) : ℕ := w.activePoliciesEntry.getD 0

def getStats (w : World Address) : List (Symbol × ℤ) :=
  [("active_policies", activePolicies w), ("total_policies", totalPolicies w),
    ("total_premium", totalPremium w)]

def poolContractChangeDelay (w : World Address) : ℕ := w.poolContractChangeDelayEntry.getD 0

/-! ### Entry points -/

section Entry
variable [DecidableEq Address] (signers : List Address)

def requireAdmin (w : World Address) (caller : Address) : Call Unit := do
  requireAuth signers caller
  let admin ← okOr w.adminEntry .notInitialized
  bail (admin ≠ caller) .unauthorized

def requirePoolOrAdmin (w : World Address) (caller : Address) : Call Unit := do
  requireAuth signers caller
  let admin ← okOr w.adminEntry .notInitialized
  if admin = caller then pure ()
  else do
    let pool ← okOr w.poolContractEntry .notInitialized
    bail (pool ≠ caller) .unauthorized

omit [DecidableEq Address] in
def initializeContract (w : World Address) (admin poolContract : Address) :
    Call (World Address) := do
  bail w.adminEntry.isSome .alreadyInitialized
  pure { w with
    adminEntry := some admin
    poolContractEntry := some poolContract
    totalPoliciesEntry := some 0
    totalPremiumEntry := some 0
    activePoliciesEntry := some 0 }

/-- Index a policy under the id it comes with. -/
def registerPolicy (w : World Address) (caller : Address) (reg : PolicyRegistration Address) :
    Call (World Address × ℕ) := do
  requirePoolOrAdmin signers w caller
  bail (w.policyEntry reg.policyId).isSome .policyAlreadyExists
  let record : PolicyRecord Address :=
    { policyId := reg.policyId
      holder := reg.holder
      coverageType := reg.coverageType
      coverageAmount := reg.coverageAmount
      premium := reg.premium
      expiresAt := reg.expiresAt
      isActive := true
      createdAt := w.now }
  let holderPolicies := getHolderPolicyIds w reg.holder ++ [reg.policyId]
  let total ← u64 (totalPolicies w + 1)
  let premium ← i128 (totalPremium w + reg.premium)
  let active ← u64 (activePolicies w + 1)
  pure ({ w with
    policyEntry := Function.update w.policyEntry reg.policyId (some record)
    holderPoliciesEntry := Function.update w.holderPoliciesEntry reg.holder (some holderPolicies)
    totalPoliciesEntry := some total
    totalPremiumEntry := some premium
    activePoliciesEntry := some active }, reg.policyId)

/-- Mark a policy as settled; the counter of active policies saturates at zero. -/
def deactivatePolicy (w : World Address) (caller : Address) (policyId : ℕ) :
    Call (World Address) := do
  requirePoolOrAdmin signers w caller
  let record ← okOr (w.policyEntry policyId) .policyNotFound
  if record.isActive then
    pure { w with
      policyEntry := Function.update w.policyEntry policyId (some { record with isActive := false })
      activePoliciesEntry := some (activePolicies w - 1) }
  else pure w

def setPoolContractChangeDelay (w : World Address) (caller : Address) (delay : ℕ) :
    Call (World Address) := do
  requireAdmin signers w caller
  pure { w with poolContractChangeDelayEntry := some delay }

/-- Propose the pool to trust; a pending proposal is overwritten. -/
def proposePoolContract (w : World Address) (caller poolContract : Address) :
    Call (World Address) := do
  requireAdmin signers w caller
  let executableAt ← u64 (w.now + poolContractChangeDelay w)
  pure { w with pendingPoolContractEntry := some ⟨poolContract, executableAt⟩ }

def confirmPoolContract (w : World Address) (caller : Address) : Call (World Address) := do
  requireAdmin signers w caller
  let pending ← okOr w.pendingPoolContractEntry .noPendingPoolContract
  bail (w.now < pending.executableAt) .poolContractChangeNotReady
  pure { w with
    poolContractEntry := some pending.poolContract
    pendingPoolContractEntry := none }

def cancelPoolContract (w : World Address) (caller : Address) : Call (World Address) := do
  requireAdmin signers w caller
  bail (w.pendingPoolContractEntry.isSome = false) .noPendingPoolContract
  pure { w with pendingPoolContractEntry := none }

def proposeAdmin (w : World Address) (caller newAdmin : Address) : Call (World Address) := do
  requireAdmin signers w caller
  pure { w with pendingAdminEntry := some newAdmin }

def acceptAdmin (w : World Address) (caller : Address) : Call (World Address) := do
  requireAuth signers caller
  let pending ← okOr w.pendingAdminEntry .noPendingAdmin
  bail (pending ≠ caller) .unauthorized
  pure { w with adminEntry := some caller, pendingAdminEntry := none }

end Entry

/-! ### Transactions -/

/-- The entry points and the passing of ledger time. -/
inductive Op (Address : Type) where
  | initializeContract (admin poolContract : Address)
  | registerPolicy (caller : Address) (reg : PolicyRegistration Address)
  | deactivatePolicy (caller : Address) (policyId : ℕ)
  | setPoolContractChangeDelay (caller : Address) (delay : ℕ)
  | proposePoolContract (caller poolContract : Address)
  | confirmPoolContract (caller : Address)
  | cancelPoolContract (caller : Address)
  | proposeAdmin (caller newAdmin : Address)
  | acceptAdmin (caller : Address)
  | advance (seconds : ℕ)

/-- `signers` are the addresses that authorise the call: those that signed, and for a
call made by a contract the contract itself. -/
structure Transaction (Address : Type) where
  signers : List Address
  op : Op Address

variable [DecidableEq Address]

def step : Contract (World Address) (Transaction Address) ℕ RegistryError := fun w tx =>
  match tx.op with
  | .initializeContract admin poolContract => do
    return (← initializeContract w admin poolContract, 0)
  | .registerPolicy caller reg => registerPolicy tx.signers w caller reg
  | .deactivatePolicy caller policyId => do
    return (← deactivatePolicy tx.signers w caller policyId, 0)
  | .setPoolContractChangeDelay caller delay => do
    return (← setPoolContractChangeDelay tx.signers w caller delay, 0)
  | .proposePoolContract caller poolContract => do
    return (← proposePoolContract tx.signers w caller poolContract, 0)
  | .confirmPoolContract caller => do return (← confirmPoolContract tx.signers w caller, 0)
  | .cancelPoolContract caller => do return (← cancelPoolContract tx.signers w caller, 0)
  | .proposeAdmin caller newAdmin => do return (← proposeAdmin tx.signers w caller newAdmin, 0)
  | .acceptAdmin caller => do return (← acceptAdmin tx.signers w caller, 0)
  | .advance seconds => do return ({ w with now := ← u64 (w.now + seconds) }, 0)

end RefractContracts.PolicyRegistry
