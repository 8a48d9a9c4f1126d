import RefractContracts.Host.Run
import RefractContracts.Host.Value

/-! `RefractMultisig`: owners propose calls and approve them, and anyone forwards
a proposal once its approvals reach the threshold. Owners and threshold change
only by calls of the contract to itself, which `execute` delivers. -/

namespace RefractContracts.Multisig

open Host

inductive MultisigError where
  | alreadyInitialized
  | notInitialized
  | unauthorized
  | notOwner
  | proposalNotFound
  | proposalNotPending
  | thresholdAlreadyMet
  | invalidThreshold
  | cannotRemoveLastOwner
  deriving DecidableEq, Repr

inductive ProposalStatus where
  | pending
  | executed
  | cancelled
  deriving DecidableEq, Repr

/-- A cross-contract call awaiting threshold approvals. -/
structure Proposal (Address : Type) where
  target : Address
  function : Symbol
  args : List (Val Address)
  approvals : List Address
  status : ProposalStatus

/-- A proposal as it was forwarded: the owners and the threshold of that moment,
and the proposals then stored. -/
structure Forwarded (Address : Type) where
  id : ℕ
  proposal : Proposal Address
  owners : List Address
  threshold : ℕ
  stored : ℕ → Option (Proposal Address)

/-- The contract's storage. `sent` is the history of the proposals forwarded, in
their order; the contract does not read it. -/
structure World (Address : Type) where
  ownersEntry : Option (List Address)
  thresholdEntry : Option ℕ
  nextIdEntry : Option ℕ
  proposalEntry : ℕ → Option (Proposal Address)
  sent : List (Forwarded Address)

/-- A deployed contract before the call of `initialize`. -/
def deployed (Address : Type) : World Address where
  ownersEntry := none
  thresholdEntry := none
  nextIdEntry := none
  proposalEntry _ := none
  sent := []

variable {Address : Type}

abbrev Call (α : Type) := Outcome MultisigError α

def owners (w : World Address) : List Address := w.ownersEntry.getD []

def threshold (w : World Address) : ℕ := w.thresholdEntry.getD 0

def nextId (w : World Address) : ℕ := w.nextIdEntry.getD 0

def setProposal (w : World Address) (id : ℕ) (p : Proposal Address) : World Address :=
  { w with proposalEntry := Function.update w.proposalEntry id (some p) }

variable [DecidableEq Address]

def requireOwner (w : World Address) (caller : Address) : Call Unit := do
  let owners ← okOr w.ownersEntry .notInitialized
  bail (caller ∉ owners) .notOwner

omit [DecidableEq Address] in
def initializeContract (w : World Address) (owners : List Address) (threshold : ℕ) :
    Call (World Address) := do
  bail w.ownersEntry.isSome .alreadyInitialized
  bail (owners.isEmpty ∨ threshold = 0 ∨ owners.length < threshold) .invalidThreshold
  pure { w with
    ownersEntry := some owners, thresholdEntry := some threshold, nextIdEntry := some 0 }

section Entry
variable (self : Address) (signers : List Address)

/-! ### Proposals -/

/-- Create a proposal, approved by its proposer. -/
def propose (w : World Address) (proposer target : Address) (function : Symbol)
    (args : List (Val Address)) : Call (World Address × ℕ) := do
  requireAuth signers proposer
  requireOwner w proposer
  let id := nextId w
  let next ← u64 (id + 1)
  pure ({ setProposal w id ⟨target, function, args, [proposer], .pending⟩ with
    nextIdEntry := some next }, id)

/-- Approve a pending proposal; a second approval changes nothing. -/
def approve (w : World Address) (caller : Address) (id : ℕ) : Call (World Address) := do
  requireAuth signers caller
  requireOwner w caller
  let proposal ← okOr (w.proposalEntry id) .proposalNotFound
  bail (proposal.status ≠ .pending) .proposalNotPending
  if caller ∈ proposal.approvals then pure w
  else pure (setProposal w id { proposal with approvals := proposal.approvals ++ [caller] })

omit [DecidableEq Address] in
/-- `execute` up to the forwarded call: the proposal is marked `Executed`. -/
def release (w : World Address) (id : ℕ) : Call (World Address × Proposal Address) := do
  let proposal ← okOr (w.proposalEntry id) .proposalNotFound
  bail (proposal.status ≠ .pending) .proposalNotPending
  bail (proposal.approvals.length < threshold w) .unauthorized
  let w := setProposal w id { proposal with status := .executed }
  pure ({ w with sent := w.sent ++ [⟨id, proposal, owners w, threshold w, w.proposalEntry⟩] },
    proposal)

/-! ### Owner management -/

def addOwner (w : World Address) (newOwner : Address) : Call (World Address) := do
  requireAuth signers self
  if newOwner ∈ owners w then pure w
  else pure { w with ownersEntry := some (owners w ++ [newOwner]) }

/-- Remove an owner and lower the threshold to the number of owners left. -/
def removeOwner (w : World Address) (owner : Address) : Call (World Address) := do
  requireAuth signers self
  bail ((owners w).length ≤ 1) .cannotRemoveLastOwner
  let newOwners := (owners w).filter (· ≠ owner)
  let clamped := min (w.thresholdEntry.getD 1) newOwners.length
  pure { w with ownersEntry := some newOwners, thresholdEntry := some clamped }

def changeThreshold (w : World Address) (newThreshold : ℕ) : Call (World Address) := do
  requireAuth signers self
  bail (newThreshold = 0 ∨ (owners w).length < newThreshold) .invalidThreshold
  pure { w with thresholdEntry := some newThreshold }

end Entry

/-! ### Transactions -/

/-- The entry points; `view` stands for those that only read. -/
inductive Op (Address : Type) where
  | initializeContract (owners : List Address) (threshold : ℕ)
  | propose (proposer target : Address) (function : Symbol) (args : List (Val Address))
  | approve (caller : Address) (id : ℕ)
  | execute (id : ℕ)
  | addOwner (newOwner : Address)
  | removeOwner (owner : Address)
  | changeThreshold (newThreshold : ℕ)
  | view

omit [DecidableEq Address] in
def decodeAddress : Val Address → Option Address
  | .address a => some a
  | _ => none

omit [DecidableEq Address] in
/-- The entry point that a forwarded call to the contract itself reaches. -/
def decode (p : Proposal Address) : Option (Op Address) :=
  match p.function, p.args with
  | "initialize", [.vec owners, .u32 threshold] =>
    (owners.mapM decodeAddress).map (.initializeContract · threshold)
  | "propose", [.address proposer, .address target, .symbol function, .vec args] =>
    some (.propose proposer target function args)
  | "approve", [.address caller, .u64 id] => some (.approve caller id)
  | "execute", [.u64 id] => some (.execute id)
  | "add_owner", [.address newOwner] => some (.addOwner newOwner)
  | "remove_owner", [.address owner] => some (.removeOwner owner)
  | "change_threshold", [.u32 newThreshold] => some (.changeThreshold newThreshold)
  | "owners", [] | "threshold", [] | "get_proposal", [.u64 _] => some .view
  | _, _ => none

inductive Answer where
  | unit
  | id (n : ℕ)

/-- One call, given what delivers a forwarded call to the contract itself. Any
other target returns or traps as `returns` says for the proposal. -/
def entry (self : Address) (returns : ℕ → Bool)
    (deliver : World Address → Op Address → Call (World Address)) (signers : List Address)
    (w : World Address) : Op Address → Call (World Address × Answer)
  | .initializeContract owners threshold => do
    return (← initializeContract w owners threshold, .unit)
  | .propose proposer target function args => do
    let (w, id) ← propose signers w proposer target function args
    return (w, .id id)
  | .approve caller id => do return (← approve signers w caller id, .unit)
  | .execute id => do
    let (w, proposal) ← release w id
    if proposal.target = self then
      match decode proposal with
      | some op => do return (← deliver w op, .unit)
      | none => throw .trap
    else do
      demand (returns id = true)
      return (w, .unit)
  | .addOwner newOwner => do return (← addOwner self signers w newOwner, .unit)
  | .removeOwner owner => do return (← removeOwner self signers w owner, .unit)
  | .changeThreshold newThreshold => do
    return (← changeThreshold self signers w newThreshold, .unit)
  | .view => pure (w, .unit)

/-- A call whose forwarded calls to the contract itself are delivered, with the
contract as their invoker, to at most `depth` levels. -/
def call (self : Address) (returns : ℕ → Bool) :
    ℕ → List Address → World Address → Op Address → Call (World Address × Answer)
  | 0, signers => entry self returns (fun _ _ => throw .trap) signers
  | depth + 1, signers =>
    entry self returns
      (fun w op => do
        let (w, _) ← call self returns depth (self :: signers) w op
        pure w)
      signers

/-- A call with the addresses that authorise it and the answers of the targets it
may reach. -/
structure Transaction (Address : Type) where
  signers : List Address
  op : Op Address
  returns : ℕ → Bool

/-- One transaction, with the host's limit on nested calls. A contract address
does not sign, so `self` authorises only the calls that `execute` delivers. -/
def step (self : Address) (depth : ℕ) :
    Contract (World Address) (Transaction Address) Answer MultisigError :=
  fun w tx => call self tx.returns depth (tx.signers.filter (· ≠ self)) w tx.op

end RefractContracts.Multisig
