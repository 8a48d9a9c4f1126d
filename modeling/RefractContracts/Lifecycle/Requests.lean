import RefractContracts.Lifecycle.Review

/-! The operations on a grant. Governance creates a grant and confirms its milestones in
order, and the grantee claims what is confirmed. A change of the rest is requested,
approved and executed; a refund is recorded before the treasury is called, and taken
back when the treasury refuses it. -/

namespace RefractContracts.Lifecycle

open Host Method Math

variable {Address : Type}

/-! ### One grant -/

namespace Grant

abbrev Edit (Address α : Type) := Method (Grant Address) GrantsError α

/-- Confirm a milestone, once every earlier one is. -/
def confirm (index : ℕ) : Edit Address Unit := do
  let g ← get
  let milestone ← check (okOr g.milestones[index]? .invalidMilestoneIndex)
  check (bail ((g.milestones.take index).any (! ·.confirmed)) .milestoneOutOfOrder)
  check (bail milestone.confirmed .milestoneAlreadyConfirmed)
  modify fun g =>
    { g with milestones := g.milestones.set index { milestone with confirmed := true } }
  let claimable ← check (i128Checked (g.claimable + milestone.amount) .milestoneSumMismatch)
  modify fun g => { g with claimable }

/-- Release what is confirmed and not yet claimed. -/
def claim : Edit Address ℤ := do
  let g ← get
  let amount := g.claimable
  check (bail (amount ≤ 0) .nothingToClaim)
  modify fun g => { g with claimable := 0 }
  modify fun g =>
    { g with
      milestones := g.milestones.map fun m =>
        if m.confirmed then { m with claimed := true } else m }
  pure amount

/-- Replace the unconfirmed milestones; the answer is what is taken from the grantee. -/
def amend (newPending : List MilestoneTerm) : Edit Address (ℤ × GrantStatus) := do
  let g ← get
  let confirmed := g.confirmedCount
  let newTotal ← check (sumI128 (newPending.map MilestoneTerm.amount))
  let refund ← check (i128 (g.unconfirmedAmount - newTotal))
  modify fun g => { g with milestones := g.milestones.take confirmed }
  modify fun g =>
    { g with milestones := g.milestones ++ newPending.map fun t => ⟨t.amount, t.due, false, false⟩ }
  let amendments ← check (u32 (g.amendments + 1))
  modify fun g => { g with amendments }
  pure (refund, .amended)

/-- Move the deadlines of the unconfirmed milestones. -/
def extend (newDueDates : List ℕ) : Edit Address (ℤ × GrantStatus) := do
  let g ← get
  let confirmed := g.confirmedCount
  modify fun g =>
    { g with
      milestones := g.milestones.take confirmed ++
        (List.zipWith (fun m due => { m with due }) (g.milestones.drop confirmed) newDueDates ++
          (g.milestones.drop confirmed).drop newDueDates.length) }
  let amendments ← check (u32 (g.amendments + 1))
  modify fun g => { g with amendments }
  pure (0, .extended)

/-- What is earned of the next milestone, and what is refunded of it and the others. -/
def partialCredit (pending : List Milestone) (earnedBps : ℤ) : Outcome GrantsError (ℤ × ℤ) :=
  match pending with
  | [] => pure (0, 0)
  | m :: rest => do
    let split ← mapErr (splitBps m.amount earnedBps) .invalidEarnedShare
    let refund ← sumI128 (split.rest :: rest.map Milestone.amount)
    pure (split.cut, refund)

/-- Credit partial work on the next milestone, and drop what is unconfirmed. -/
def terminate (earnedBps : ℤ) : Edit Address (ℤ × GrantStatus) := do
  let g ← get
  let confirmed := g.confirmedCount
  let (earned, refund) ← check (partialCredit (g.milestones.drop confirmed) earnedBps)
  let due := (g.milestones[confirmed]?.map Milestone.due).getD 0
  modify fun g => { g with milestones := g.milestones.take confirmed }
  if 0 < earned then do
    modify fun g => { g with milestones := g.milestones ++ [⟨earned, due, true, false⟩] }
    let claimable ← check (i128 (g.claimable + earned))
    modify fun g => { g with claimable }
    pure (refund, .terminated)
  else pure (refund, .terminated)

def change : RequestKind → Edit Address (ℤ × GrantStatus)
  | .amendment newPending => amend newPending
  | .extension newDueDates => extend newDueDates
  | .termination earnedBps => terminate earnedBps

/-- Make a change, and record what it takes from the grantee as pending. -/
def applyChange (kind : RequestKind) : Edit Address (ℤ × GrantStatus) := do
  let (refund, nextStatus) ← change kind
  let g ← get
  let pendingRefund ← check (i128 (g.pendingRefund + refund))
  modify fun g => { g with pendingRefund }
  pure (refund, nextStatus)

/-- Count the pending refund as refunded. -/
def beginRefund : Edit Address ℤ := do
  let g ← get
  let amount := g.pendingRefund
  check (bail (amount ≤ 0) .nothingToRefund)
  modify fun g => { g with pendingRefund := 0 }
  let refunded ← check (i128 (g.refunded + amount))
  modify fun g => { g with refunded }
  pure amount

end Grant

def RequestKind.requestedStatus : RequestKind → GrantStatus
  | .amendment _ => .amendmentRequested
  | .extension _ => .extensionRequested
  | .termination _ => .terminationRequested

def RequestKind.isTermination : RequestKind → Bool
  | .termination _ => true
  | _ => false

/-! ### The grants -/

namespace RefractGrants

def setGrant (grantId : ℕ) (s : RefractGrants Address) (g : Grant Address) :
    RefractGrants Address :=
  { s with grants := Function.update s.grants grantId (some g) }

/-- `if let Some(g) = self.grants.get_mut(&grant_id) { .. }`. -/
def mapGrant (grantId : ℕ) (f : Grant Address → Grant Address) (s : RefractGrants Address) :
    RefractGrants Address :=
  { s with grants := Function.update s.grants grantId ((s.grants grantId).map f) }

def mapRequest (requestId : ℕ) (f : LifecycleRequest Address → LifecycleRequest Address)
    (s : RefractGrants Address) : RefractGrants Address :=
  { s with requests := Function.update s.requests requestId ((s.requests requestId).map f) }

/-- A method on a stored grant. -/
def onGrant {α : Type} (grantId : ℕ) (x : Grant.Edit Address α) : Update Address α :=
  within (fun s => s.grants grantId) (setGrant grantId) .grantNotFound x

def currentSchedule (s : RefractGrants Address) (grantId : ℕ) : Option (List MilestoneTerm) :=
  (s.grants grantId).map Grant.schedule

def openRequest (s : RefractGrants Address) (requestId : ℕ) :
    Outcome GrantsError (LifecycleRequest Address) :=
  match s.requests requestId with
  | some request => if request.isOpen then .ok request else .error (.error .invalidState)
  | none => .error (.error .requestNotFound)

def finishRequest (requestId grantId : ℕ) (status : GrantStatus) : Update Address Unit := do
  modify (mapRequest requestId fun r => { r with isOpen := false })
  modify (mapGrant grantId fun g => { g with status, openRequest := none })

def closeIfSettled (grantId : ℕ) : Update Address Unit :=
  modify (mapGrant grantId Grant.closeIfSettled)

variable [DecidableEq Address]

/-- Approve a new grant with its milestones. -/
def createGrant (caller recipient : Address) (totalAmount : ℤ) (milestones : List MilestoneTerm) :
    Update Address ℕ := do
  let s ← get
  check (s.requireGovernance caller)
  check (bail (totalAmount ≤ 0) .invalidTotalAmount)
  check (bail milestones.isEmpty .noMilestones)
  let sum ← check (checkedTotal .milestoneSumMismatch (milestones.map MilestoneTerm.amount))
  check (bail (sum ≠ totalAmount) .milestoneSumMismatch)
  let grantId := s.nextGrantId
  let nextGrantId ← check (u64 (grantId + 1))
  modify fun s => { s with nextGrantId }
  modify (setGrant grantId ·
    { recipient
      totalAmount
      milestones := milestones.map fun t => ⟨t.amount, t.due, false, false⟩
      claimable := 0
      status := .funded
      openRequest := none
      amendments := 0
      pendingRefund := 0
      refunded := 0 })
  pure grantId

/-- Confirm a milestone of a grant that is not over, when enough reviewers approve. -/
def confirmMilestone (caller : Address) (grantId index : ℕ) : Update Address Unit := do
  let s ← get
  check (s.requireGovernance caller)
  let grant ← check (okOr (s.grants grantId) .grantNotFound)
  check (bail (grant.status = .terminated ∨ grant.status = .closed) .invalidState)
  check (bail (¬ s.hasReviewQuorum grantId) .reviewQuorumNotMet)
  onGrant grantId (Grant.confirm index)

def claim (recipient : Address) (grantId : ℕ) : Update Address ℤ := do
  let s ← get
  let grant ← check (okOr (s.grants grantId) .grantNotFound)
  check (bail (grant.recipient ≠ recipient) .notRecipient)
  let amount ← onGrant grantId Grant.claim
  closeIfSettled grantId
  pure amount

/-- File a request to change a grant. -/
def requestChange (caller : Address) (grantId : ℕ) (kind : RequestKind) (reasonHash : Hash) :
    Update Address ℕ := do
  let s ← get
  let grant ← check (okOr (s.grants grantId) .grantNotFound)
  check (bail (caller ≠ grant.recipient ∧ caller ≠ s.governance) .unauthorized)
  check (bail (¬ grant.status.acceptsRequests) .invalidState)
  check (grant.validateChange kind)
  let requestId := s.nextRequestId
  let nextRequestId ← check (u64 (requestId + 1))
  modify fun s => { s with nextRequestId }
  modify fun s =>
    { s with
      requests := Function.update s.requests requestId
        (some
          { id := requestId
            grantId
            kind
            requester := caller
            reasonHash
            oldSchedule := grant.schedule
            confirmedAtRequest := grant.confirmedCount
            approvedBy := none
            previousStatus := grant.status
            isOpen := true }) }
  modify (mapGrant grantId fun g =>
    { g with status := kind.requestedStatus, openRequest := some requestId })
  pure requestId

/-- Approve an open request: governance any, an eligible reviewer all but terminations. -/
def approveRequest (caller : Address) (requestId : ℕ) : Update Address Unit := do
  let s ← get
  let request ← check (s.openRequest requestId)
  check (bail request.approvedBy.isSome .requestAlreadyApproved)
  check (if caller = s.governance then pure () else do
    bail request.kind.isTermination .unauthorized
    bail (caller = request.requester) .selfReview
    s.requireEligibleReviewer caller request.grantId)
  modify (mapRequest requestId fun r => { r with approvedBy := some caller })

/-- Reject or withdraw an open request; the grant returns to the state before it. -/
def closeRequest (caller : Address) (requestId : ℕ) : Update Address Unit := do
  let s ← get
  let request ← check (s.openRequest requestId)
  check (bail (caller ≠ s.governance ∧ caller ≠ request.requester) .unauthorized)
  finishRequest requestId request.grantId request.previousStatus

/-- Execute an approved request, unless the grant has changed since it was filed. -/
def executeRequest (caller : Address) (requestId : ℕ) : Update Address Unit := do
  let s ← get
  check (s.requireGovernance caller)
  let request ← check (s.openRequest requestId)
  let approver ← check (okOr request.approvedBy .requestNotApproved)
  let grantId := request.grantId
  let grant ← check (okOr (s.grants grantId) .grantNotFound)
  check (bail (grant.confirmedCount ≠ request.confirmedAtRequest ∨
    s.currentSchedule grantId ≠ some request.oldSchedule) .staleRequest)
  check (grant.validateChange request.kind)
  let (refund, nextStatus) ← onGrant grantId (Grant.applyChange request.kind)
  modify fun s =>
    { s with
      history := Function.update s.history grantId (s.history grantId ++
        [{ requestId
           kind := request.kind
           requester := request.requester
           approver
           reasonHash := request.reasonHash
           oldSchedule := request.oldSchedule
           newSchedule := (s.currentSchedule grantId).getD []
           refund }]) }
  finishRequest requestId grantId nextStatus
  closeIfSettled grantId

/-- Return the pending refund to the treasury, which accepts or refuses it. -/
def executeRefund (caller : Address) (grantId : ℕ) (accepts : Bool) : Update Address ℤ := do
  let s ← get
  check (s.requireGovernance caller)
  check (bail (grantId ∈ s.refundsInFlight) .refundInProgress)
  let amount ← onGrant grantId Grant.beginRefund
  modify fun s => { s with refundsInFlight := insert grantId s.refundsInFlight }
  -- here the treasury is called
  modify fun s => { s with refundsInFlight := s.refundsInFlight.erase grantId }
  if accepts then do
    closeIfSettled grantId
    pure amount
  else do
    modify (mapGrant grantId fun g =>
      { g with pendingRefund := amount, refunded := g.refunded - amount })
    check (.error (.error .refundFailed))

end RefractGrants

end RefractContracts.Lifecycle
