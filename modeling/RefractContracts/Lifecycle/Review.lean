import RefractContracts.Lifecycle.Model

/-! The reviewers of the grants. Governance registers reviewers and assigns them; a
reviewer with a conflict on a grant is recused from it, which invalidates what was
submitted, until governance waives the conflict. Every path that scores or approves
makes the same check of eligibility. -/

namespace RefractContracts.Lifecycle

open Host Method

abbrev Update (Address α : Type) := Method (RefractGrants Address) GrantsError α

namespace RefractGrants

variable {Address : Type} [DecidableEq Address]

def requireGovernance (s : RefractGrants Address) (caller : Address) : Outcome GrantsError Unit :=
  bail (caller ≠ s.governance) .unauthorized

/-- The reviewer has a conflict on the grant that is not waived. -/
def hasConflict (s : RefractGrants Address) (grantId : ℕ) (reviewer : Address) : Bool :=
  (s.conflicts (grantId, reviewer)).any (! ·.waived)

/-- Registered, active, not the grantee, and without a conflict. -/
def requireUnconflicted (s : RefractGrants Address) (reviewer : Address) (grantId : ℕ) :
    Outcome GrantsError Unit := do
  let info ← okOr (s.reviewers reviewer) .reviewerNotFound
  bail (¬ info.active) .reviewerInactive
  let grant ← okOr (s.grants grantId) .grantNotFound
  bail (grant.recipient = reviewer) .selfReview
  bail (s.hasConflict grantId reviewer) .reviewerConflicted

def requireEligibleReviewer (s : RefractGrants Address) (reviewer : Address) (grantId : ℕ) :
    Outcome GrantsError Unit := do
  s.requireUnconflicted reviewer grantId
  bail ((grantId, reviewer) ∉ s.assignments) .reviewerNotAssigned

/-- Valid approving reviews of the grant by reviewers who are still eligible. -/
def approvals (s : RefractGrants Address) (grantId : ℕ) :
    List (Sigma fun _ : ℕ × Address => Review) :=
  s.reviews.entries.filter fun e =>
    e.1.1 = grantId && e.2.valid && e.2.approve &&
      (s.requireEligibleReviewer e.1.2 grantId).isOk

/-- Their number, as a `u32`. -/
def approvalCount (s : RefractGrants Address) (grantId : ℕ) : ℕ :=
  (s.approvals grantId).length % 2 ^ 32

def hasReviewQuorum (s : RefractGrants Address) (grantId : ℕ) : Bool :=
  s.reviewQuorum ≤ s.approvalCount grantId

/-! ### Governance -/

def registerReviewer (caller reviewer : Address) (role : ReviewerRole) : Update Address Unit := do
  let s ← get
  check (s.requireGovernance caller)
  check (bail (s.reviewers reviewer).isSome .reviewerAlreadyRegistered)
  modify fun s => { s with reviewers := Function.update s.reviewers reviewer (some ⟨role, true⟩) }

def setReviewerActive (caller reviewer : Address) (active : Bool) : Update Address Unit := do
  let s ← get
  check (s.requireGovernance caller)
  let info ← check (okOr (s.reviewers reviewer) .reviewerNotFound)
  modify fun s =>
    { s with reviewers := Function.update s.reviewers reviewer (some { info with active }) }

def setReviewQuorum (caller : Address) (quorum : ℕ) : Update Address Unit := do
  let s ← get
  check (s.requireGovernance caller)
  modify fun s => { s with reviewQuorum := quorum }

def assignReviewer (caller : Address) (grantId : ℕ) (reviewer : Address) : Update Address Unit := do
  let s ← get
  check (s.requireGovernance caller)
  check (bail ((grantId, reviewer) ∈ s.assignments) .reviewerAlreadyAssigned)
  check (s.requireUnconflicted reviewer grantId)
  modify fun s => { s with assignments := insert (grantId, reviewer) s.assignments }

/-! ### Reviews and conflicts -/

/-- Submit a review; one that a conflict invalidated may be replaced. -/
def submitReview (reviewer : Address) (grantId score : ℕ) (approve : Bool) :
    Update Address Unit := do
  let s ← get
  check (s.requireEligibleReviewer reviewer grantId)
  check (bail (maxScore < score) .invalidScore)
  check (bail ((s.reviews.lookup (grantId, reviewer)).any Review.valid) .reviewAlreadySubmitted)
  modify fun s => { s with reviews := s.reviews.insert (grantId, reviewer) ⟨score, approve, true⟩ }

def recordConflict (reviewer : Address) (grantId : ℕ) (kind : ConflictKind)
    (evidenceHash : Option Hash) (flaggedByGovernance : Bool) : Update Address Unit := do
  let s ← get
  check (bail (s.grants grantId = none) .grantNotFound)
  check (bail (s.hasConflict grantId reviewer) .conflictAlreadyDeclared)
  let late := (s.reviews.lookup (grantId, reviewer)).any Review.valid
  modify fun s =>
    { s with
      conflicts := Function.update s.conflicts (grantId, reviewer)
        (some ⟨kind, evidenceHash, flaggedByGovernance, late, false⟩) }

/-- The reviews with the one of `key`, if any, invalidated. -/
def invalidate (key : ℕ × Address) (reviews : AList fun _ : ℕ × Address => Review) :
    AList fun _ : ℕ × Address => Review :=
  match reviews.lookup key with
  | some review => reviews.insert key { review with valid := false }
  | none => reviews

/-- Unassign a conflicted reviewer and invalidate their review, if any. -/
def recuse (reviewer : Address) (grantId : ℕ) : Update Address Unit := do
  modify fun s => { s with assignments := s.assignments.erase (grantId, reviewer) }
  modify fun s => { s with reviews := invalidate (grantId, reviewer) s.reviews }

/-- A reviewer declares a conflict, before or after reviewing. -/
def declareConflict (reviewer : Address) (grantId : ℕ) (kind : ConflictKind)
    (evidenceHash : Option Hash) : Update Address Unit := do
  let s ← get
  check (bail (s.reviewers reviewer = none) .reviewerNotFound)
  recordConflict reviewer grantId kind evidenceHash false
  recuse reviewer grantId

/-- Governance records a conflict that was not disclosed. -/
def flagConflict (caller : Address) (grantId : ℕ) (reviewer : Address) (kind : ConflictKind)
    (evidenceHash : Option Hash) : Update Address Unit := do
  let s ← get
  check (s.requireGovernance caller)
  check (bail (s.reviewers reviewer = none) .reviewerNotFound)
  recordConflict reviewer grantId kind evidenceHash true
  recuse reviewer grantId

/-- Governance waives a conflict; reviews that it invalidated stay so. -/
def waiveConflict (caller : Address) (grantId : ℕ) (reviewer : Address) : Update Address Unit := do
  let s ← get
  check (s.requireGovernance caller)
  let record ← check
    (okOr ((s.conflicts (grantId, reviewer)).filter (! ·.waived)) .conflictNotFound)
  modify fun s =>
    { s with
      conflicts := Function.update s.conflicts (grantId, reviewer)
        (some { record with waived := true }) }

end RefractGrants

end RefractContracts.Lifecycle
