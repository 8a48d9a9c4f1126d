import RefractContracts.Host.Run

/-! Appeals of rejected grant applications. The applicant appeals within a window, a
panel that governance assigns votes, and the timelock decides what the panel or a
timeout has escalated, or overrides it. An application has one record, each appeal round
has one, and each vote is stored under its round and the version of its panel. -/

namespace RefractContracts.Appeals

open Host

/-- Time after a rejection during which it may be appealed (14 days). -/
def appealWindowSecs : ℕ := 14 * 24 * 60 * 60

/-- Time an appeal may wait for a panel, or a panel may take (21 days). -/
def rereviewTimeoutSecs : ℕ := 21 * 24 * 60 * 60

abbrev Hash := Vector UInt8 32

inductive ApplicationStatus where
  | pending
  | approved
  | rejected
  | appealSubmitted
  | underReReview
  | escalated
  | upheld
  | overturned
  | funded
  | withdrawn
  deriving DecidableEq, Repr

inductive GrantsError where
  | unauthorized
  | applicationNotFound
  | invalidState
  | appealLimitReached
  | appealWindowClosed
  | invalidPanel
  | ineligibleReviewer
  | notAssigned
  | alreadyVoted
  | notStalled
  deriving DecidableEq, Repr

/-- What the appeals read and write of an application. -/
structure Application (Address : Type) where
  applicant : Address
  reviewers : List Address
  status : ApplicationStatus
  decidedAt : ℕ
  appealsUsed : ℕ
  appealsAllowed : ℕ
  finalized : Bool

inductive AppealVote where
  | uphold
  | overturn
  | escalate
  deriving DecidableEq, Repr

inductive AppealOutcome where
  | opened
  | upheld
  | overturned
  | escalated
  deriving DecidableEq, Repr

/-- One appeal round. -/
structure Appeal (Address : Type) where
  round : ℕ
  evidenceHash : Hash
  submittedAt : ℕ
  panel : List Address
  panelVersion : ℕ
  panelAssignedAt : ℕ
  uphold : ℕ
  overturn : ℕ
  escalate : ℕ
  outcome : AppealOutcome
  resolvedAt : ℕ
  finalized : Bool
  finalReasonHash : Hash

structure AppealVoteRecord where
  vote : AppealVote
  reviewHash : Hash
  votedAt : ℕ

/-- A vote belongs to an application, a round, a version of its panel and a member. -/
structure VoteKey (Address : Type) where
  appId : ℕ
  round : ℕ
  panelVersion : ℕ
  member : Address
  deriving DecidableEq

/-- The records of the contract that appeals use. -/
structure RefractGrants (Address : Type) where
  applications : ℕ → Option (Application Address)
  appeals : ℕ × ℕ → Option (Appeal Address)
  votes : VoteKey Address → Option AppealVoteRecord

/-- What a transaction brings along: who signed it, its time, and the answers of the
registry's roles, which are kept in another contract. -/
structure Env (Address : Type) where
  signers : List Address
  now : ℕ
  requireGovernance : Address → Outcome GrantsError Unit
  requireTimelock : Address → Outcome GrantsError Unit

variable {Address : Type}

namespace Appeal

def new (round : ℕ) (evidenceHash : Hash) (now : ℕ) : Appeal Address where
  round
  evidenceHash
  submittedAt := now
  panel := []
  panelVersion := 0
  panelAssignedAt := 0
  uphold := 0
  overturn := 0
  escalate := 0
  outcome := .opened
  resolvedAt := 0
  finalized := false
  finalReasonHash := .replicate 32 0

/-- Count one more vote. -/
def count (appeal : Appeal Address) : AppealVote → Outcome GrantsError (Appeal Address)
  | .uphold => do
    let uphold ← u32 (appeal.uphold + 1)
    pure { appeal with uphold }
  | .overturn => do
    let overturn ← u32 (appeal.overturn + 1)
    pure { appeal with overturn }
  | .escalate => do
    let escalate ← u32 (appeal.escalate + 1)
    pure { appeal with escalate }

/-- `appeal.uphold + appeal.overturn + appeal.escalate`. -/
def voteCount (appeal : Appeal Address) : Outcome GrantsError ℕ := do
  let decided ← u32 (appeal.uphold + appeal.overturn)
  u32 (decided + appeal.escalate)

/-- What a panel that has voted decides. -/
def panelOutcome (appeal : Appeal Address) :
    Outcome GrantsError (AppealOutcome × ApplicationStatus) := do
  let n := appeal.panel.length
  let overturn ← u32 (appeal.overturn * 2)
  if n < overturn then pure (.overturned, .overturned)
  else do
    let uphold ← u32 (appeal.uphold * 2)
    if n < uphold then pure (.upheld, .upheld)
    else pure (.escalated, .escalated)

end Appeal

namespace RefractGrants

/-- Applications as the initial review left them, before any appeal. -/
def new (applications : ℕ → Option (Application Address)) : RefractGrants Address where
  applications id := (applications id).map fun app => { app with appealsUsed := 0 }
  appeals _ := none
  votes _ := none

def readApp (s : RefractGrants Address) (appId : ℕ) : Outcome GrantsError (Application Address) :=
  okOr (s.applications appId) .applicationNotFound

def readAppeal (s : RefractGrants Address) (appId round : ℕ) :
    Outcome GrantsError (Appeal Address) :=
  okOr (s.appeals (appId, round)) .invalidState

def writeApp (s : RefractGrants Address) (appId : ℕ) (app : Application Address) :
    RefractGrants Address :=
  { s with applications := Function.update s.applications appId (some app) }

def putAppeal (s : RefractGrants Address) (appId round : ℕ) (appeal : Appeal Address) :
    RefractGrants Address :=
  { s with appeals := Function.update s.appeals (appId, round) (some appeal) }

/-- Since when an appeal has waited for a panel, or for its votes. -/
def waitingSince (app : Application Address) (appeal : Appeal Address) : Outcome GrantsError ℕ :=
  match app.status with
  | .appealSubmitted => pure appeal.submittedAt
  | .underReReview => pure appeal.panelAssignedAt
  | _ => .error (.error .invalidState)

/-- Escalate an appeal that has waited for longer than the timeout. -/
def escalateStalled (env : Env Address) (s : RefractGrants Address) (appId : ℕ) :
    Outcome GrantsError (RefractGrants Address) := do
  let app ← s.readApp appId
  let round := app.appealsUsed
  let appeal ← s.readAppeal appId round
  let since ← waitingSince app appeal
  bail (env.now ≤ u64SaturatingAdd since rereviewTimeoutSecs) .notStalled
  let s := s.putAppeal appId round { appeal with outcome := .escalated, resolvedAt := env.now }
  pure (s.writeApp appId { app with status := .escalated })

/-- Decide an appeal, or override the decision of the panel; for the timelock only. -/
def finalDecision (env : Env Address) (s : RefractGrants Address) (caller : Address) (appId : ℕ)
    (overturn : Bool) (reasonHash : Hash) :
    Outcome GrantsError (RefractGrants Address × ApplicationStatus) := do
  env.requireTimelock caller
  let app ← s.readApp appId
  bail (app.status ≠ .escalated ∧ app.status ≠ .upheld ∧ app.status ≠ .overturned) .invalidState
  let round := app.appealsUsed
  let appeal ← s.readAppeal appId round
  let (outcome, status) := if overturn then
    (AppealOutcome.overturned, ApplicationStatus.overturned) else (.upheld, .upheld)
  let s := s.putAppeal appId round
    { appeal with
      outcome
      resolvedAt := env.now
      finalized := true
      finalReasonHash := reasonHash }
  pure (s.writeApp appId { app with status, finalized := true }, status)

/-- Allow one more appeal of an upheld rejection; for the timelock only. -/
def reopenAppeal (env : Env Address) (s : RefractGrants Address) (caller : Address) (appId : ℕ) :
    Outcome GrantsError (RefractGrants Address) := do
  env.requireTimelock caller
  let app ← s.readApp appId
  bail (app.status ≠ .upheld) .invalidState
  let appealsAllowed ← u32 (app.appealsAllowed + 1)
  pure (s.writeApp appId
    { app with
      appealsAllowed
      status := .rejected
      decidedAt := env.now
      finalized := false })

/-- An application is funded, in whatever state funding allows it. -/
def fundApplication (s : RefractGrants Address) (appId : ℕ) :
    Outcome GrantsError (RefractGrants Address) := do
  let app ← s.readApp appId
  pure (s.writeApp appId { app with status := .funded })

variable [DecidableEq Address]

def putVote (s : RefractGrants Address) (key : VoteKey Address) (record : AppealVoteRecord) :
    RefractGrants Address :=
  { s with votes := Function.update s.votes key (some record) }

/-- Appeal a rejection; the answer is the round. -/
def submitAppeal (env : Env Address) (s : RefractGrants Address) (applicant : Address) (appId : ℕ)
    (evidenceHash : Hash) : Outcome GrantsError (RefractGrants Address × ℕ) := do
  requireAuth env.signers applicant
  let app ← s.readApp appId
  bail (app.applicant ≠ applicant) .unauthorized
  bail (app.status ≠ .rejected) .invalidState
  bail (app.appealsAllowed ≤ app.appealsUsed) .appealLimitReached
  bail (u64SaturatingAdd app.decidedAt appealWindowSecs < env.now) .appealWindowClosed
  let round ← u32 (app.appealsUsed + 1)
  let s := s.putAppeal appId round (.new round evidenceHash env.now)
  pure (s.writeApp appId { app with appealsUsed := round, status := .appealSubmitted }, round)

/-- Assign or replace the panel, without the applicant and the original reviewers. -/
def assignAppealPanel (validatePanel : List Address → Outcome GrantsError Unit) (env : Env Address)
    (s : RefractGrants Address) (caller : Address) (appId : ℕ) (panel : List Address) :
    Outcome GrantsError (RefractGrants Address) := do
  env.requireGovernance caller
  let app ← s.readApp appId
  bail (app.status ≠ .appealSubmitted ∧ app.status ≠ .underReReview) .invalidState
  validatePanel panel
  bail (∃ member ∈ panel, member = app.applicant ∨ member ∈ app.reviewers) .ineligibleReviewer
  let round := app.appealsUsed
  let appeal ← s.readAppeal appId round
  let panelVersion ← u32 (appeal.panelVersion + 1)
  let s := s.putAppeal appId round
    { appeal with
      panel
      panelVersion
      panelAssignedAt := env.now
      uphold := 0
      overturn := 0
      escalate := 0 }
  pure (s.writeApp appId { app with status := .underReReview })

/-- Cast a vote of the panel; the last vote applies the outcome. -/
def submitAppealReview (env : Env Address) (s : RefractGrants Address) (member : Address)
    (appId : ℕ) (vote : AppealVote) (reviewHash : Hash) :
    Outcome GrantsError (RefractGrants Address × ApplicationStatus) := do
  requireAuth env.signers member
  let app ← s.readApp appId
  bail (app.status ≠ .underReReview) .invalidState
  let round := app.appealsUsed
  let appeal ← s.readAppeal appId round
  bail (member ∉ appeal.panel) .notAssigned
  let key := ⟨appId, round, appeal.panelVersion, member⟩
  bail (s.votes key).isSome .alreadyVoted
  let s := s.putVote key ⟨vote, reviewHash, env.now⟩
  let appeal ← appeal.count vote
  let voted ← appeal.voteCount
  if voted = appeal.panel.length then do
    let (outcome, status) ← appeal.panelOutcome
    let s := s.writeApp appId { app with status }
    pure (s.putAppeal appId round { appeal with outcome, resolvedAt := env.now }, status)
  else pure (s.putAppeal appId round appeal, app.status)

end RefractGrants

/-! ### Transactions -/

inductive Call (Address : Type) where
  | submitAppeal (applicant : Address) (appId : ℕ) (evidenceHash : Hash)
  | assignAppealPanel (caller : Address) (appId : ℕ) (panel : List Address)
  | submitAppealReview (member : Address) (appId : ℕ) (vote : AppealVote) (reviewHash : Hash)
  | escalateStalled (appId : ℕ)
  | finalDecision (caller : Address) (appId : ℕ) (overturn : Bool) (reasonHash : Hash)
  | reopenAppeal (caller : Address) (appId : ℕ)
  | fundApplication (appId : ℕ)

inductive Answer where
  | done
  | round (n : ℕ)
  | status (status : ApplicationStatus)
  deriving DecidableEq, Repr

structure Transaction (Address : Type) where
  env : Env Address
  call : Call Address

open RefractGrants in
/-- One transaction. -/
def step [DecidableEq Address] (validatePanel : List Address → Outcome GrantsError Unit) :
    Contract (RefractGrants Address) (Transaction Address) Answer GrantsError := fun s tx =>
  match tx.call with
  | .submitAppeal applicant appId evidenceHash => do
    let (s, round) ← submitAppeal tx.env s applicant appId evidenceHash
    pure (s, .round round)
  | .assignAppealPanel caller appId panel => do
    return (← assignAppealPanel validatePanel tx.env s caller appId panel, .done)
  | .submitAppealReview member appId vote reviewHash => do
    let (s, status) ← submitAppealReview tx.env s member appId vote reviewHash
    pure (s, .status status)
  | .escalateStalled appId => do return (← escalateStalled tx.env s appId, .done)
  | .finalDecision caller appId overturn reasonHash => do
    let (s, status) ← finalDecision tx.env s caller appId overturn reasonHash
    pure (s, .status status)
  | .reopenAppeal caller appId => do return (← reopenAppeal tx.env s caller appId, .done)
  | .fundApplication appId => do return (← fundApplication s appId, .done)

end RefractContracts.Appeals
