import RefractContracts.Host.Agree
import RefractContracts.Math.Split
import RefractContracts.Grants.Schedule

/-! `GrantsModel`: the dependency-free grants administrator. Its operations work in
place: a batch is staged on a copy, and everything else keeps what it wrote
before it failed. `checkGrant` is the check of a restored grant. -/

namespace RefractContracts.Grants

open Host

inductive GrantsError where
  | unauthorized
  | grantNotFound
  | noMilestones
  | milestoneSumMismatch
  | invalidMilestoneAmount
  | invalidTotalAmount
  | invalidMilestoneIndex
  | milestoneAlreadyConfirmed
  | milestoneOutOfOrder
  | notRecipient
  | nothingToClaim
  | noExcessFunds
  | invalidRescueAmount
  | batchTooLarge
  | batchFailed (index : ℕ) (error : GrantsError)
  deriving DecidableEq, Repr

/-- The operations of a batch. -/
inductive GrantsOp (Address : Type) where
  | create (recipient : Address) (totalAmount : ℤ) (milestones : List ℤ)
  | confirm (grantId milestoneIndex : ℕ)

structure Milestone where
  amount : ℤ
  confirmed : Bool
  claimed : Bool
  deriving DecidableEq, Repr

structure Grant (Address : Type) where
  recipient : Address
  totalAmount : ℤ
  milestones : List Milestone
  claimable : ℤ

structure GrantsModel (Address : Type) where
  governance : Address
  nextGrantId : ℕ
  grants : ℕ → Option (Grant Address)

abbrev ModelCall (α : Type) := Outcome GrantsError α

/-- Add the amounts up; each must be positive. -/
def sumMilestones (milestones : List ℤ) : ModelCall ℤ :=
  milestones.foldlM (fun sum amount => do
    bail (amount ≤ 0) .invalidMilestoneAmount
    i128Checked (sum + amount) .milestoneSumMismatch) 0

variable {Address : Type}

namespace GrantsModel

def new (governance : Address) : GrantsModel Address := ⟨governance, 0, fun _ => none⟩

def setGrant (m : GrantsModel Address) (id : ℕ) (grant : Grant Address) : GrantsModel Address :=
  { m with grants := Function.update m.grants id (some grant) }

/-- An operation that writes last, and so leaves the model as it is when it fails. -/
def writing {α : Type} (m : GrantsModel Address) (x : ModelCall (GrantsModel Address × α)) :
    GrantsModel Address × ModelCall α :=
  match x with
  | .ok (next, a) => (next, .ok a)
  | .error e => (m, .error e)

theorem writing_cases {α : Type} (m : GrantsModel Address)
    (x : ModelCall (GrantsModel Address × α)) :
    (∃ e, x = .error e ∧ m.writing x = (m, .error e)) ∨
      ∃ next a, x = .ok (next, a) ∧ m.writing x = (next, .ok a) := by
  cases x with
  | error e => exact .inl ⟨e, rfl, rfl⟩
  | ok p => exact .inr ⟨p.1, p.2, rfl, rfl⟩

variable [DecidableEq Address]

def requireGovernance (m : GrantsModel Address) (caller : Address) : ModelCall Unit :=
  bail (caller ≠ m.governance) .unauthorized

/-- Approve a grant, split into milestones. -/
def createGrant (m : GrantsModel Address) (caller recipient : Address) (totalAmount : ℤ)
    (milestones : List ℤ) : GrantsModel Address × ModelCall ℕ :=
  m.writing do
    m.requireGovernance caller
    bail (totalAmount ≤ 0) .invalidTotalAmount
    bail (milestones = []) .noMilestones
    let sum ← sumMilestones milestones
    bail (sum ≠ totalAmount) .milestoneSumMismatch
    let grantId := m.nextGrantId
    let nextGrantId ← u64 (grantId + 1)
    let stored := milestones.map (⟨·, false, false⟩)
    pure ({ m.setGrant grantId ⟨recipient, totalAmount, stored, 0⟩ with nextGrantId }, grantId)

/-- The grant and its next milestone, if `milestoneIndex` is the next one. -/
def nextMilestone (m : GrantsModel Address) (caller : Address) (grantId milestoneIndex : ℕ) :
    ModelCall (Grant Address × Milestone) := do
  m.requireGovernance caller
  let grant ← okOr (m.grants grantId) .grantNotFound
  bail (grant.milestones.length ≤ milestoneIndex) .invalidMilestoneIndex
  bail (∃ earlier ∈ grant.milestones.take milestoneIndex, earlier.confirmed = false)
    .milestoneOutOfOrder
  let milestone ← okOr grant.milestones[milestoneIndex]? .invalidMilestoneIndex
  bail (milestone.confirmed = true) .milestoneAlreadyConfirmed
  pure (grant, milestone)

/-- Confirm the next milestone. The flag is set before the sum is checked. -/
def confirmMilestone (m : GrantsModel Address) (caller : Address) (grantId milestoneIndex : ℕ) :
    GrantsModel Address × ModelCall Unit :=
  match m.nextMilestone caller grantId milestoneIndex with
  | .error e => (m, .error e)
  | .ok (grant, milestone) =>
    let milestones := grant.milestones.set milestoneIndex { milestone with confirmed := true }
    match (mapErr (Math.checkedAdd grant.claimable milestone.amount) .milestoneSumMismatch :
      ModelCall ℤ) with
    | .error e => (m.setGrant grantId { grant with milestones }, .error e)
    | .ok claimable => (m.setGrant grantId { grant with milestones, claimable }, .ok ())

/-- Release what is confirmed and unclaimed to the recipient. -/
def claim (m : GrantsModel Address) (recipient : Address) (grantId : ℕ) :
    GrantsModel Address × ModelCall ℤ :=
  m.writing do
    let grant ← okOr (m.grants grantId) .grantNotFound
    bail (grant.recipient ≠ recipient) .notRecipient
    let amount := grant.claimable
    bail (amount ≤ 0) .nothingToClaim
    let milestones := grant.milestones.map fun milestone =>
      if milestone.confirmed then { milestone with claimed := true } else milestone
    pure (m.setGrant grantId { grant with claimable := 0, milestones }, amount)

def maxBatchOps : ℕ := 16

def apply (m : GrantsModel Address) (caller : Address) :
    GrantsOp Address → GrantsModel Address × ModelCall Unit
  | .create recipient totalAmount milestones =>
    let (m, result) := m.createGrant caller recipient totalAmount milestones
    (m, Functor.map (fun _ => ()) result)
  | .confirm grantId milestoneIndex => m.confirmMilestone caller grantId milestoneIndex

/-- Run the operations of a batch in order, up to the first that fails. -/
def stage (caller : Address) (staged : GrantsModel Address) (index : ℕ) :
    List (GrantsOp Address) → ModelCall (GrantsModel Address)
  | [] => .ok staged
  | operation :: operations =>
    match staged.apply caller operation with
    | (staged, .ok ()) => stage caller staged (index + 1) operations
    | (_, .error (.error e)) => .error (.error (.batchFailed index e))
    | (_, .error .trap) => .error .trap

/-- Apply a bounded list of operations to a copy, which is kept if all succeed. -/
def batch (m : GrantsModel Address) (caller : Address) (operations : List (GrantsOp Address)) :
    GrantsModel Address × ModelCall Unit :=
  m.writing do
    m.requireGovernance caller
    bail (maxBatchOps < operations.length) .batchTooLarge
    let staged ← stage caller m 0 operations
    pure (staged, ())

end GrantsModel

/-! ### Rescue -/

namespace GrantsModel

/-- The stored grants in the order of their ids, all below the next one. -/
def values (m : GrantsModel Address) : List (Grant Address) :=
  (List.range m.nextGrantId).filterMap m.grants

/-- What all grants still owe, confirmed or not. -/
def accountedLiabilities (m : GrantsModel Address) : ℤ :=
  m.values.foldl (fun acc grant =>
    let grantOwed := (grant.milestones.filter fun milestone => !milestone.claimed).foldl
      (fun mAcc milestone => i128SaturatingAdd mAcc milestone.amount) 0
    i128SaturatingAdd acc grantOwed) 0

/-- Check a rescue to governance against the excess balance; what would remain is answered. -/
def rescue [DecidableEq Address] (m : GrantsModel Address) (caller _token to_ : Address)
    (amount liveBalance : ℤ) : ModelCall ℤ := do
  m.requireGovernance caller
  bail (to_ ≠ m.governance) .unauthorized
  bail (amount ≤ 0) .invalidRescueAmount
  let excess := i128SaturatingSub liveBalance m.accountedLiabilities
  bail (excess < amount) .noExcessFunds
  mapErr (Math.checkedSub excess amount) .noExcessFunds

end GrantsModel

/-! ### Calls -/

/-- A call of the model. -/
inductive GrantsCall (Address : Type) where
  | createGrant (caller recipient : Address) (totalAmount : ℤ) (milestones : List ℤ)
  | confirmMilestone (caller : Address) (grantId milestoneIndex : ℕ)
  | claim (recipient : Address) (grantId : ℕ)
  | batch (caller : Address) (operations : List (GrantsOp Address))

/-- The model as a machine; it answers a grant's id or an amount. -/
def GrantsModel.machine [DecidableEq Address] :
    Machine (GrantsModel Address) (GrantsCall Address) ℤ GrantsError := fun m call =>
  match call with
  | .createGrant caller recipient totalAmount milestones =>
    let (m, result) := m.createGrant caller recipient totalAmount milestones
    (m, Functor.map (fun id : ℕ => (id : ℤ)) result)
  | .confirmMilestone caller grantId milestoneIndex =>
    let (m, result) := m.confirmMilestone caller grantId milestoneIndex
    (m, Functor.map (fun _ => 0) result)
  | .claim recipient grantId => m.claim recipient grantId
  | .batch caller operations =>
    let (m, result) := m.batch caller operations
    (m, Functor.map (fun _ => 0) result)

/-! ### The check of a grant -/

inductive Inconsistency where
  | milestoneSumMismatch
  | outOfOrderConfirmation
  | claimedWithoutConfirmation
  | claimableMismatch
  deriving DecidableEq, Repr

/-- One round of the check: whether an unconfirmed milestone was seen, and the
unclaimed amount. -/
def checkMilestone (seen : Bool × ℤ) (milestone : Milestone) :
    Except Inconsistency (Bool × ℤ) :=
  let (seenUnconfirmed, unclaimed) := seen
  if milestone.claimed ∧ ¬ milestone.confirmed then .error .claimedWithoutConfirmation
  else if milestone.confirmed then
    if seenUnconfirmed then .error .outOfOrderConfirmation
    else if milestone.claimed then .ok (seenUnconfirmed, unclaimed)
    else .ok (seenUnconfirmed, i128SaturatingAdd unclaimed milestone.amount)
  else .ok (true, unclaimed)

/-- Check a grant; the first broken invariant is returned. -/
def checkGrant (grant : Grant Address) : Except Inconsistency Unit := do
  let sum := grant.milestones.foldlM (fun sum milestone => i128Option (sum + milestone.amount)) 0
  if sum ≠ some grant.totalAmount then throw .milestoneSumMismatch
  let (_, unclaimed) ← grant.milestones.foldlM checkMilestone (false, 0)
  if unclaimed ≠ grant.claimable then throw .claimableMismatch

end RefractContracts.Grants
