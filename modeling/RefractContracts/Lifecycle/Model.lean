import Mathlib.Data.List.AList
import RefractContracts.Host.InPlace
import RefractContracts.Math.Split

/-! The reference model of the grants: their schedules, the requests to change them, and
the reviewers. A milestone is confirmed, and then claimed; a request to amend, extend or
terminate a grant is filed, approved and executed; and what a change takes from the
grantee is pending until the treasury has received it. -/

namespace RefractContracts.Lifecycle

open Host Method Math

/-- Most amendments and extensions of a grant. -/
def maxAmendments : ℕ := 8

/-- Highest review score. -/
def maxScore : ℕ := 100

abbrev Hash := Vector UInt8 32

inductive GrantStatus where
  | funded
  | amendmentRequested
  | amended
  | extensionRequested
  | extended
  | terminationRequested
  | terminated
  | closed
  deriving DecidableEq, Repr

/-- A new request may be filed. -/
def GrantStatus.acceptsRequests : GrantStatus → Bool
  | .funded | .amended | .extended => true
  | _ => false

/-- A milestone of a schedule; `due = 0` is no deadline. -/
structure MilestoneTerm where
  amount : ℤ
  due : ℕ
  deriving DecidableEq

inductive RequestKind where
  | amendment (newPending : List MilestoneTerm)
  | extension (newDueDates : List ℕ)
  | termination (earnedBps : ℤ)

inductive GrantsError where
  | unauthorized
  | grantNotFound
  | noMilestones
  | milestoneSumMismatch
  | invalidMilestoneAmount
  | invalidTotalAmount
  | invalidMilestoneIndex
  | milestoneAlreadyConfirmed
  | milestoneOutOfOrder
  | notRecipient
  | nothingToClaim
  | invalidState
  | requestNotFound
  | requestNotApproved
  | requestAlreadyApproved
  | staleRequest
  | amendmentAfterFinalMilestone
  | tooManyAmendments
  | invalidSchedule
  | amendmentExceedsAward
  | invalidExtension
  | invalidEarnedShare
  | nothingEscrowed
  | refundInProgress
  | nothingToRefund
  | refundFailed
  | reviewerAlreadyRegistered
  | reviewerNotFound
  | reviewerInactive
  | reviewerAlreadyAssigned
  | reviewerNotAssigned
  | reviewerConflicted
  | selfReview
  | invalidScore
  | reviewAlreadySubmitted
  | conflictAlreadyDeclared
  | conflictNotFound
  | reviewQuorumNotMet
  deriving DecidableEq, Repr

structure Milestone where
  amount : ℤ
  due : ℕ
  confirmed : Bool
  claimed : Bool
  deriving DecidableEq

structure Grant (Address : Type) where
  recipient : Address
  totalAmount : ℤ
  milestones : List Milestone
  claimable : ℤ
  status : GrantStatus
  openRequest : Option ℕ
  amendments : ℕ
  pendingRefund : ℤ
  refunded : ℤ

structure LifecycleRequest (Address : Type) where
  id : ℕ
  grantId : ℕ
  kind : RequestKind
  requester : Address
  reasonHash : Hash
  oldSchedule : List MilestoneTerm
  confirmedAtRequest : ℕ
  approvedBy : Option Address
  previousStatus : GrantStatus
  isOpen : Bool

/-- The history entry of an executed request. -/
structure AmendmentRecord (Address : Type) where
  requestId : ℕ
  kind : RequestKind
  requester : Address
  approver : Address
  reasonHash : Hash
  oldSchedule : List MilestoneTerm
  newSchedule : List MilestoneTerm
  refund : ℤ

inductive ReviewerRole where
  | reviewer
  | leadReviewer
  deriving DecidableEq, Repr

structure ReviewerInfo where
  role : ReviewerRole
  active : Bool

inductive ConflictKind where
  | financial
  | employment
  | personal
  | other
  deriving DecidableEq, Repr

structure ConflictRecord where
  kind : ConflictKind
  evidenceHash : Option Hash
  flaggedByGovernance : Bool
  late : Bool
  waived : Bool

/-- A submitted review, until a conflict invalidates it. -/
structure Review where
  score : ℕ
  approve : Bool
  valid : Bool

/-- The grants with their requests and reviewers; pairs are of a grant and a reviewer. -/
structure RefractGrants (Address : Type) where
  governance : Address
  nextGrantId : ℕ
  grants : ℕ → Option (Grant Address)
  nextRequestId : ℕ
  requests : ℕ → Option (LifecycleRequest Address)
  history : ℕ → List (AmendmentRecord Address)
  refundsInFlight : Finset ℕ
  reviewers : Address → Option ReviewerInfo
  assignments : Finset (ℕ × Address)
  reviews : AList fun _ : ℕ × Address => Review
  conflicts : ℕ × Address → Option ConflictRecord
  reviewQuorum : ℕ

variable {Address : Type}

def RefractGrants.new (governance : Address) : RefractGrants Address where
  governance
  nextGrantId := 0
  grants _ := none
  nextRequestId := 0
  requests _ := none
  history _ := []
  refundsInFlight := ∅
  reviewers _ := none
  assignments := ∅
  reviews := ∅
  conflicts _ := none
  reviewQuorum := 0

/-! ### Milestones -/

def total (milestones : List Milestone) : ℤ := (milestones.map Milestone.amount).sum

/-- `.iter().sum::<i128>()`. -/
def sumI128 (amounts : List ℤ) : Outcome GrantsError ℤ :=
  amounts.foldlM (fun sum amount => i128 (sum + amount)) 0

/-- No deadline is before the one before it, nor before the floor; `0` is no deadline. -/
def datesOrdered (floor : ℕ) : List ℕ → Bool
  | [] => true
  | d :: dates => if d ≠ 0 ∧ d < floor then false else datesOrdered (max floor d) dates

/-- One round of the loop that checks the amounts of a schedule and adds them up. -/
def checkedAdd (overflow : GrantsError) (sum amount : ℤ) : Outcome GrantsError ℤ := do
  bail (amount ≤ 0) .invalidMilestoneAmount
  i128Checked (sum + amount) overflow

def checkedTotal (overflow : GrantsError) (amounts : List ℤ) : Outcome GrantsError ℤ :=
  amounts.foldlM (checkedAdd overflow) 0

namespace Grant

def confirmedCount (g : Grant Address) : ℕ := (g.milestones.takeWhile Milestone.confirmed).length

def unconfirmedAmount (g : Grant Address) : ℤ := total (g.milestones.filter (! ·.confirmed))

/-- What the grant still holds. -/
def escrowed (g : Grant Address) : ℤ := g.claimable + g.unconfirmedAmount + g.pendingRefund

def schedule (g : Grant Address) : List MilestoneTerm :=
  g.milestones.map fun m => ⟨m.amount, m.due⟩

/-- Nothing is left to claim or refund, and the status lets the grant close. -/
def closable (g : Grant Address) : Bool :=
  let allPaid := g.milestones.all fun m => m.confirmed && m.claimed
  let settled := g.claimable = 0 && g.pendingRefund = 0
  match g.status with
  | .terminated => settled
  | .funded | .amended | .extended => settled && allPaid
  | _ => false

def closeIfSettled (g : Grant Address) : Grant Address :=
  if g.closable then { g with status := .closed } else g

def lastConfirmedDue (g : Grant Address) : ℕ :=
  ((g.milestones.filter Milestone.confirmed).map Milestone.due).foldl max 0

/-- Is `kind` a valid change of the grant as it is now? -/
def validateChange (g : Grant Address) : RequestKind → Outcome GrantsError Unit
  | .amendment newPending => do
    bail (g.milestones.filter (! ·.confirmed)).isEmpty .amendmentAfterFinalMilestone
    bail (maxAmendments ≤ g.amendments) .tooManyAmendments
    bail newPending.isEmpty .invalidSchedule
    let sum ← checkedTotal .amendmentExceedsAward (newPending.map MilestoneTerm.amount)
    bail (g.unconfirmedAmount < sum) .amendmentExceedsAward
    bail (¬ datesOrdered g.lastConfirmedDue (newPending.map MilestoneTerm.due)) .invalidSchedule
  | .extension newDueDates => do
    let pending := g.milestones.filter (! ·.confirmed)
    bail pending.isEmpty .amendmentAfterFinalMilestone
    bail (maxAmendments ≤ g.amendments) .tooManyAmendments
    bail (newDueDates.length ≠ pending.length) .invalidExtension
    -- adding a deadline where there was none tightens it
    bail ((pending.zip newDueDates).any fun (m, due) => due < m.due || (m.due = 0 && due ≠ 0))
      .invalidExtension
    let later := (pending.zip newDueDates).any fun (m, due) => m.due < due
    bail (¬ later ∨ ¬ datesOrdered g.lastConfirmedDue newDueDates) .invalidExtension
  | .termination earnedBps => do
    bail (¬ (0 ≤ earnedBps ∧ earnedBps ≤ bpsDenom)) .invalidEarnedShare
    bail ((g.milestones.filter (! ·.confirmed)).isEmpty ∨ g.escrowed ≤ 0) .nothingEscrowed

end Grant

end RefractContracts.Lifecycle
