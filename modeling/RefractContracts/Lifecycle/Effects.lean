import RefractContracts.Lifecycle.Changes

/-! The calls of the reference model and what they do. An accepted call has an effect,
which says what it found and what it left; a refused call leaves everything as it was,
as long as the awards of the grants are accounted for. -/

namespace RefractContracts.Lifecycle

open Host Method

variable {Address : Type}

/-- Calls of the reviewers' part. -/
inductive ReviewCall (Address : Type) where
  | registerReviewer (caller reviewer : Address) (role : ReviewerRole)
  | setReviewerActive (caller reviewer : Address) (active : Bool)
  | setReviewQuorum (caller : Address) (quorum : ℕ)
  | assignReviewer (caller : Address) (grantId : ℕ) (reviewer : Address)
  | submitReview (reviewer : Address) (grantId score : ℕ) (approve : Bool)
  | declareConflict (reviewer : Address) (grantId : ℕ) (kind : ConflictKind)
    (evidenceHash : Option Hash)
  | flagConflict (caller : Address) (grantId : ℕ) (reviewer : Address) (kind : ConflictKind)
    (evidenceHash : Option Hash)
  | waiveConflict (caller : Address) (grantId : ℕ) (reviewer : Address)

inductive Call (Address : Type) where
  | createGrant (caller recipient : Address) (totalAmount : ℤ) (milestones : List MilestoneTerm)
  | confirmMilestone (caller : Address) (grantId index : ℕ)
  | claim (recipient : Address) (grantId : ℕ)
  | requestChange (caller : Address) (grantId : ℕ) (kind : RequestKind) (reasonHash : Hash)
  | approveRequest (caller : Address) (requestId : ℕ)
  | closeRequest (caller : Address) (requestId : ℕ)
  | executeRequest (caller : Address) (requestId : ℕ)
  | executeRefund (caller : Address) (grantId : ℕ) (accepts : Bool)
  | review (call : ReviewCall Address)

inductive Answer where
  | done
  | created (grantId : ℕ)
  | paid (amount : ℤ)
  | requested (requestId : ℕ)
  | refunded (amount : ℤ)
  deriving DecidableEq, Repr

namespace RefractGrants

/-- The grant that `createGrant` stores. -/
def freshGrant (recipient : Address) (totalAmount : ℤ) (milestones : List MilestoneTerm) :
    Grant Address where
  recipient
  totalAmount
  milestones := milestones.map fun t => ⟨t.amount, t.due, false, false⟩
  claimable := 0
  status := .funded
  openRequest := none
  amendments := 0
  pendingRefund := 0
  refunded := 0

/-- The request that `requestChange` stores. -/
def filedRequest (id grantId : ℕ) (g : Grant Address) (requester : Address) (kind : RequestKind)
    (reasonHash : Hash) : LifecycleRequest Address where
  id
  grantId
  kind
  requester
  reasonHash
  oldSchedule := g.schedule
  confirmedAtRequest := g.confirmedCount
  approvedBy := none
  previousStatus := g.status
  isOpen := true

def setRequest (s : RefractGrants Address) (requestId : ℕ) (request : LifecycleRequest Address) :
    RefractGrants Address :=
  { s with requests := Function.update s.requests requestId (some request) }

variable [DecidableEq Address]

def handleReview : ReviewCall Address → Update Address Unit
  | .registerReviewer caller reviewer role => registerReviewer caller reviewer role
  | .setReviewerActive caller reviewer active => setReviewerActive caller reviewer active
  | .setReviewQuorum caller quorum => setReviewQuorum caller quorum
  | .assignReviewer caller grantId reviewer => assignReviewer caller grantId reviewer
  | .submitReview reviewer grantId score approve => submitReview reviewer grantId score approve
  | .declareConflict reviewer grantId kind evidenceHash =>
    declareConflict reviewer grantId kind evidenceHash
  | .flagConflict caller grantId reviewer kind evidenceHash =>
    flagConflict caller grantId reviewer kind evidenceHash
  | .waiveConflict caller grantId reviewer => waiveConflict caller grantId reviewer

def handle : Call Address → Update Address Answer
  | .createGrant caller recipient totalAmount milestones => do
    return .created (← createGrant caller recipient totalAmount milestones)
  | .confirmMilestone caller grantId index => do
    confirmMilestone caller grantId index
    pure .done
  | .claim recipient grantId => do return .paid (← claim recipient grantId)
  | .requestChange caller grantId kind reasonHash => do
    return .requested (← requestChange caller grantId kind reasonHash)
  | .approveRequest caller requestId => do
    approveRequest caller requestId
    pure .done
  | .closeRequest caller requestId => do
    closeRequest caller requestId
    pure .done
  | .executeRequest caller requestId => do
    executeRequest caller requestId
    pure .done
  | .executeRefund caller grantId accepts => do
    return .refunded (← executeRefund caller grantId accepts)
  | .review call => do
    handleReview call
    pure .done

def machine : Machine (RefractGrants Address) (Call Address) Answer GrantsError :=
  fun s call => handle call s

/-! ### Effects -/

/-- What an accepted call of the reviewers' part does, and what it found. -/
inductive ReviewEffect (s : RefractGrants Address) :
    RefractGrants Address → ReviewCall Address → Prop
  | registered {reviewer role} :
      ReviewEffect s
        { s with reviewers := Function.update s.reviewers reviewer (some ⟨role, true⟩) }
        (.registerReviewer s.governance reviewer role)
  | activated {reviewer info active} (stored : s.reviewers reviewer = some info) :
      ReviewEffect s
        { s with reviewers := Function.update s.reviewers reviewer (some { info with active }) }
        (.setReviewerActive s.governance reviewer active)
  | quorumSet {quorum} :
      ReviewEffect s { s with reviewQuorum := quorum } (.setReviewQuorum s.governance quorum)
  | assigned {grantId reviewer} (unconflicted : s.requireUnconflicted reviewer grantId = .ok ()) :
      ReviewEffect s { s with assignments := insert (grantId, reviewer) s.assignments }
        (.assignReviewer s.governance grantId reviewer)
  | submitted {reviewer grantId score approve}
      (eligible : s.requireEligibleReviewer reviewer grantId = .ok ()) :
      ReviewEffect s
        { s with reviews := s.reviews.insert (grantId, reviewer) ⟨score, approve, true⟩ }
        (.submitReview reviewer grantId score approve)
  | declared {reviewer grantId kind evidenceHash late} :
      ReviewEffect s
        { s with
          conflicts := Function.update s.conflicts (grantId, reviewer)
            (some ⟨kind, evidenceHash, false, late, false⟩)
          assignments := s.assignments.erase (grantId, reviewer)
          reviews := invalidate (grantId, reviewer) s.reviews }
        (.declareConflict reviewer grantId kind evidenceHash)
  | flagged {reviewer grantId kind evidenceHash late} :
      ReviewEffect s
        { s with
          conflicts := Function.update s.conflicts (grantId, reviewer)
            (some ⟨kind, evidenceHash, true, late, false⟩)
          assignments := s.assignments.erase (grantId, reviewer)
          reviews := invalidate (grantId, reviewer) s.reviews }
        (.flagConflict s.governance grantId reviewer kind evidenceHash)
  | waived {grantId reviewer record} (stored : s.conflicts (grantId, reviewer) = some record) :
      ReviewEffect s
        { s with
          conflicts := Function.update s.conflicts (grantId, reviewer)
            (some { record with waived := true }) }
        (.waiveConflict s.governance grantId reviewer)

/-- The history entry that `executeRequest` appends. -/
def amendmentRecord (requestId : ℕ) (r : LifecycleRequest Address) (approver : Address)
    (g : Grant Address) (refund : ℤ) : AmendmentRecord Address where
  requestId
  kind := r.kind
  requester := r.requester
  approver
  reasonHash := r.reasonHash
  oldSchedule := r.oldSchedule
  newSchedule := g.schedule
  refund

def appendHistory (s : RefractGrants Address) (grantId : ℕ) (record : AmendmentRecord Address) :
    RefractGrants Address :=
  { s with history := Function.update s.history grantId (s.history grantId ++ [record]) }

/-- What an accepted call does, and what it found. -/
inductive Effect (s : RefractGrants Address) :
    RefractGrants Address → Call Address → Answer → Prop
  | created {recipient totalAmount milestones} (nonempty : milestones ≠ [])
      (positive : ∀ t ∈ milestones, 0 < t.amount)
      (sum_eq : (milestones.map MilestoneTerm.amount).sum = totalAmount)
      (fits : totalAmount ≤ maxI128) :
      Effect s
        (setGrant s.nextGrantId { s with nextGrantId := s.nextGrantId + 1 }
          (freshGrant recipient totalAmount milestones))
        (.createGrant s.governance recipient totalAmount milestones) (.created s.nextGrantId)
  | confirmed {grantId index g m} (stored : s.grants grantId = some g)
      (running : g.status ≠ .terminated ∧ g.status ≠ .closed)
      (found : g.milestones[index]? = some m)
      (before : ∀ m' ∈ g.milestones.take index, m'.confirmed = true)
      (pending : m.confirmed = false) :
      Effect s (s.setGrant grantId (g.confirmedAt index m))
        (.confirmMilestone s.governance grantId index) .done
  | claimed {grantId g} (stored : s.grants grantId = some g) (earned : 0 < g.claimable) :
      Effect s (s.setGrant grantId g.paidOut.closeIfSettled) (.claim g.recipient grantId)
        (.paid g.claimable)
  | requested {caller grantId kind reasonHash g} (stored : s.grants grantId = some g)
      (accepts : g.status.acceptsRequests = true) (valid : g.validateChange kind = .ok ()) :
      Effect s
        (setGrant grantId
          (setRequest { s with nextRequestId := s.nextRequestId + 1 } s.nextRequestId
            (filedRequest s.nextRequestId grantId g caller kind reasonHash))
          { g with status := kind.requestedStatus, openRequest := some s.nextRequestId })
        (.requestChange caller grantId kind reasonHash) (.requested s.nextRequestId)
  | approved {caller requestId r} (stored : s.requests requestId = some r)
      (isOpen : r.isOpen = true)
      (allowed : caller = s.governance ∨
        r.kind.isTermination = false ∧ s.requireEligibleReviewer caller r.grantId = .ok ()) :
      Effect s (s.setRequest requestId { r with approvedBy := some caller })
        (.approveRequest caller requestId) .done
  | closed {caller requestId r} (stored : s.requests requestId = some r) (isOpen : r.isOpen = true)
      (allowed : caller = s.governance ∨ caller = r.requester) :
      Effect s
        ((s.setRequest requestId { r with isOpen := false }).mapGrant r.grantId fun g =>
          { g with status := r.previousStatus, openRequest := none })
        (.closeRequest caller requestId) .done
  | executed {requestId r approver g g' refund status} (stored : s.requests requestId = some r)
      (isOpen : r.isOpen = true) (approval : r.approvedBy = some approver)
      (found : s.grants r.grantId = some g) (count_eq : g.confirmedCount = r.confirmedAtRequest)
      (schedule_eq : g.schedule = r.oldSchedule) (valid : g.validateChange r.kind = .ok ())
      (changed : g.Changed r.kind g' refund status) :
      Effect s
        (setGrant r.grantId
          ((s.appendHistory r.grantId (amendmentRecord requestId r approver g' refund)).setRequest
            requestId { r with isOpen := false })
          (Grant.closeIfSettled { g' with status, openRequest := none }))
        (.executeRequest s.governance requestId) .done
  | refunded {grantId g} (idle : grantId ∉ s.refundsInFlight) (stored : s.grants grantId = some g)
      (due : 0 < g.pendingRefund) :
      Effect s (s.setGrant grantId g.refundedOut.closeIfSettled)
        (.executeRefund s.governance grantId true) (.refunded g.pendingRefund)
  | reviewed {s' call} (effect : ReviewEffect s s' call) : Effect s s' (.review call) .done

variable {s s' : RefractGrants Address} {u : Unit} {call : Call Address} {out : Answer}
  {rcall : ReviewCall Address}

theorem recordConflict_recuse_ok {reviewer : Address} {grantId : ℕ} {kind : ConflictKind}
    {evidenceHash : Option Hash} {flagged : Bool}
    (h : (do
      recordConflict reviewer grantId kind evidenceHash flagged
      recuse reviewer grantId : Update Address Unit) s = (s', .ok u)) :
    ∃ late, s' =
      { s with
        conflicts := Function.update s.conflicts (grantId, reviewer)
          (some ⟨kind, evidenceHash, flagged, late, false⟩)
        assignments := s.assignments.erase (grantId, reviewer)
        reviews := invalidate (grantId, reviewer) s.reviews } := by
  rw [bind_ok] at h
  obtain ⟨m, _, hrecord, h⟩ := h
  simp only [recordConflict, get_bind, check_bind_ok, modify_ok] at hrecord
  obtain ⟨_, -, _, -, rfl⟩ := hrecord
  rw [recuse, modify_bind, modify_ok] at h
  exact ⟨_, h.symm⟩

theorem review_effect (h : handleReview rcall s = (s', .ok u)) : ReviewEffect s s' rcall := by
  cases rcall with
  | registerReviewer caller reviewer role =>
    simp only [handleReview, registerReviewer, requireGovernance, get_bind, check_bind_ok,
      bail_eq_ok, not_not, modify_ok] at h
    obtain ⟨_, rfl, _, -, rfl⟩ := h
    exact .registered
  | setReviewerActive caller reviewer active =>
    simp only [handleReview, setReviewerActive, requireGovernance, get_bind, check_bind_ok,
      bail_eq_ok, okOr_eq_ok, not_not, modify_ok] at h
    obtain ⟨_, rfl, info, stored, rfl⟩ := h
    exact .activated stored
  | setReviewQuorum caller quorum =>
    simp only [handleReview, setReviewQuorum, requireGovernance, get_bind, check_bind_ok,
      bail_eq_ok, not_not, modify_ok] at h
    obtain ⟨_, rfl, rfl⟩ := h
    exact .quorumSet
  | assignReviewer caller grantId reviewer =>
    simp only [handleReview, assignReviewer, requireGovernance, get_bind, check_bind_ok,
      bail_eq_ok, not_not, modify_ok] at h
    obtain ⟨_, rfl, _, -, _, unconflicted, rfl⟩ := h
    exact .assigned unconflicted
  | submitReview reviewer grantId score approve =>
    simp only [handleReview, submitReview, get_bind, check_bind_ok, modify_ok] at h
    obtain ⟨_, eligible, _, -, _, -, rfl⟩ := h
    exact .submitted eligible
  | declareConflict reviewer grantId kind evidenceHash =>
    simp only [handleReview, declareConflict, get_bind, check_bind_ok] at h
    obtain ⟨_, -, h⟩ := h
    obtain ⟨late, rfl⟩ := recordConflict_recuse_ok h
    exact .declared
  | flagConflict caller grantId reviewer kind evidenceHash =>
    simp only [handleReview, flagConflict, requireGovernance, get_bind, check_bind_ok, bail_eq_ok,
      not_not] at h
    obtain ⟨_, rfl, _, -, h⟩ := h
    obtain ⟨late, rfl⟩ := recordConflict_recuse_ok h
    exact .flagged
  | waiveConflict caller grantId reviewer =>
    simp only [handleReview, waiveConflict, requireGovernance, get_bind, check_bind_ok, bail_eq_ok,
      okOr_eq_ok, not_not, modify_ok] at h
    obtain ⟨_, rfl, record, stored, rfl⟩ := h
    exact .waived (Option.filter_eq_some_iff.mp stored).1

/-- The reviewers' part leaves the grants and the requests. -/
theorem ReviewEffect.frame (h : ReviewEffect s s' rcall) :
    s'.governance = s.governance ∧ s'.nextGrantId = s.nextGrantId ∧ s'.grants = s.grants ∧
      s'.nextRequestId = s.nextRequestId ∧ s'.requests = s.requests ∧
      s'.refundsInFlight = s.refundsInFlight := by
  cases h <;> exact ⟨rfl, rfl, rfl, rfl, rfl, rfl⟩

/-! ### Writes -/

section Writes
variable {g : Grant Address} {r : LifecycleRequest Address} {grantId requestId : ℕ}

omit [DecidableEq Address] in
theorem mapGrant_stored (stored : s.grants grantId = some g) (f : Grant Address → Grant Address) :
    s.mapGrant grantId f = s.setGrant grantId (f g) := by
  rw [mapGrant, stored]
  rfl

omit [DecidableEq Address] in
theorem mapRequest_stored (stored : s.requests requestId = some r)
    (f : LifecycleRequest Address → LifecycleRequest Address) :
    s.mapRequest requestId f = s.setRequest requestId (f r) := by
  rw [mapRequest, stored]
  rfl

omit [DecidableEq Address] in
@[simp] theorem setGrant_grants (s : RefractGrants Address) (grantId : ℕ) (g : Grant Address) :
    (s.setGrant grantId g).grants = Function.update s.grants grantId (some g) := rfl

omit [DecidableEq Address] in
@[simp] theorem mapGrant_setGrant (f : Grant Address → Grant Address) :
    (s.setGrant grantId g).mapGrant grantId f = s.setGrant grantId (f g) := by
  rw [mapGrant_stored (g := g) (by simp)]
  simp [setGrant]

omit [DecidableEq Address] in
theorem openRequest_ok (h : s.openRequest requestId = .ok r) :
    s.requests requestId = some r ∧ r.isOpen = true := by
  unfold openRequest at h
  split at h
  · next r' stored =>
    split at h
    · next isOpen =>
      cases h
      exact ⟨stored, isOpen⟩
    · cases h
  · cases h

end Writes

/-! ### Accepted calls -/

section Accepted
variable {caller recipient : Address} {grantId requestId index : ℕ} {amount totalAmount : ℤ}
  {kind : RequestKind} {reasonHash : Hash} {milestones : List MilestoneTerm} {id : ℕ}

theorem createGrant_ok (h : createGrant caller recipient totalAmount milestones s = (s', .ok id)) :
    Effect s s' (.createGrant caller recipient totalAmount milestones) (.created id) := by
  simp only [createGrant, requireGovernance, get_bind, check_bind_ok, modify_bind, bail_eq_ok,
    not_not, List.isEmpty_iff, u64_eq_ok, pure_ok] at h
  obtain ⟨_, rfl, _, -, _, nonempty, sum, hsum, _, rfl, _, ⟨-, rfl⟩, rfl, rfl⟩ := h
  obtain ⟨hsum, hpos, fits⟩ := checkedTotal_ok hsum
  exact .created nonempty (fun t ht => hpos _ (List.mem_map_of_mem ht)) hsum.symm fits

theorem confirmMilestone_ok (h : confirmMilestone caller grantId index s = (s', .ok u)) :
    Effect s s' (.confirmMilestone caller grantId index) .done := by
  simp only [confirmMilestone, requireGovernance, get_bind, check_bind_ok, bail_eq_ok, okOr_eq_ok,
    not_not, not_or] at h
  obtain ⟨_, rfl, g, stored, _, running, _, -, h⟩ := h
  obtain ⟨g₀, g', stored', hconfirm, rfl⟩ := within_ok.mp h
  obtain rfl : g = g₀ := Option.some.inj (stored.symm.trans stored')
  obtain ⟨m, found, before, pending, rfl⟩ := Grant.confirm_ok hconfirm
  exact .confirmed stored running found before pending

theorem claim_ok (h : claim recipient grantId s = (s', .ok amount)) :
    Effect s s' (.claim recipient grantId) (.paid amount) := by
  simp only [claim, get_bind, check_bind_ok, bail_eq_ok, okOr_eq_ok, not_not] at h
  obtain ⟨g, stored, _, rfl, h⟩ := h
  obtain ⟨m, paid, hclaim, h⟩ := bind_ok.mp h
  obtain ⟨g₀, g', stored', hclaim, rfl⟩ := within_ok.mp hclaim
  obtain rfl : g = g₀ := Option.some.inj (stored.symm.trans stored')
  obtain ⟨earned, rfl, rfl⟩ := Grant.claim_ok hclaim
  rw [closeIfSettled, modify_bind, mapGrant_setGrant, pure_ok] at h
  obtain ⟨rfl, rfl⟩ := h
  exact .claimed stored earned

theorem requestChange_ok (h : requestChange caller grantId kind reasonHash s = (s', .ok id)) :
    Effect s s' (.requestChange caller grantId kind reasonHash) (.requested id) := by
  simp only [requestChange, get_bind, check_bind_ok, modify_bind, bail_eq_ok, okOr_eq_ok, not_not,
    u64_eq_ok, pure_ok] at h
  obtain ⟨g, stored, _, -, _, accepts, _, valid, _, ⟨-, rfl⟩, rfl, rfl⟩ := h
  rw [mapGrant_stored (g := g) (by exact stored)]
  exact .requested stored accepts valid

theorem approveRequest_ok (h : approveRequest caller requestId s = (s', .ok u)) :
    Effect s s' (.approveRequest caller requestId) .done := by
  simp only [approveRequest, get_bind, check_bind_ok, modify_ok] at h
  obtain ⟨r, hopen, _, -, _, hallowed, rfl⟩ := h
  obtain ⟨stored, isOpen⟩ := openRequest_ok hopen
  rw [mapRequest_stored stored]
  apply Effect.approved stored isOpen
  split at hallowed
  · next hcaller => exact .inl hcaller
  · simp only [bind_eq_ok, bail_eq_ok, Bool.not_eq_true] at hallowed
    obtain ⟨_, hkind, _, -, eligible⟩ := hallowed
    exact .inr ⟨hkind, eligible⟩

theorem closeRequest_ok (h : closeRequest caller requestId s = (s', .ok u)) :
    Effect s s' (.closeRequest caller requestId) .done := by
  simp only [closeRequest, finishRequest, get_bind, check_bind_ok, modify_bind, modify_ok,
    bail_eq_ok, not_and_or, not_not] at h
  obtain ⟨r, hopen, _, allowed, rfl⟩ := h
  obtain ⟨stored, isOpen⟩ := openRequest_ok hopen
  rw [mapRequest_stored stored]
  exact .closed stored isOpen allowed

theorem executeRequest_ok (h : executeRequest caller requestId s = (s', .ok u)) :
    Effect s s' (.executeRequest caller requestId) .done := by
  simp only [executeRequest, requireGovernance, get_bind, check_bind_ok, bail_eq_ok, okOr_eq_ok,
    not_not, not_or] at h
  obtain ⟨_, rfl, r, hopen, approver, approval, g, found, _, ⟨count_eq, schedule_eq⟩, _, valid,
    h⟩ := h
  obtain ⟨stored, isOpen⟩ := openRequest_ok hopen
  obtain ⟨m, ⟨refund, status⟩, happly, h⟩ := bind_ok.mp h
  obtain ⟨g₀, g', found', happly, rfl⟩ := within_ok.mp happly
  obtain rfl : g = g₀ := Option.some.inj (found.symm.trans found')
  have changed := Grant.applyChange_ok happly
  rw [currentSchedule, found, Option.map_some, Option.some.injEq] at schedule_eq
  rw [modify_bind, bind_ok] at h
  obtain ⟨_, _, hfinish, h⟩ := h
  rw [finishRequest, modify_bind, modify_ok] at hfinish
  rw [closeIfSettled, modify_ok] at h
  subst hfinish h
  rw [mapRequest_stored (r := r) (by exact stored)]
  have heffect := Effect.executed stored isOpen approval found count_eq schedule_eq valid changed
  simpa [mapGrant, setGrant, setRequest, appendHistory, amendmentRecord, currentSchedule]
    using heffect

theorem executeRefund_ok {accepts : Bool}
    (h : executeRefund caller grantId accepts s = (s', .ok amount)) :
    Effect s s' (.executeRefund caller grantId accepts) (.refunded amount) := by
  simp only [executeRefund, requireGovernance, get_bind, check_bind_ok, bail_eq_ok, not_not] at h
  obtain ⟨_, rfl, _, idle, h⟩ := h
  obtain ⟨m, paid, hwithin, h⟩ := bind_ok.mp h
  obtain ⟨g, g', stored, hbegin, rfl⟩ := within_ok.mp hwithin
  obtain ⟨due, rfl, rfl⟩ := Grant.beginRefund_ok hbegin
  simp only [modify_bind] at h
  cases accepts with
  | true =>
    rw [if_pos rfl, closeIfSettled, modify_bind, pure_ok] at h
    obtain ⟨rfl, rfl⟩ := h
    rw [mapGrant_stored (g := g.refundedOut) (by simp)]
    have heffect := Effect.refunded idle stored due
    simpa [setGrant, Finset.erase_insert idle] using heffect
  | false =>
    -- the treasury refused
    rw [if_neg (by decide), modify_bind] at h
    cases h

/-- An accepted call has its effect. -/
theorem machine_effect (h : machine s call = (s', .ok out)) : Effect s s' call out := by
  cases call with
    simp only [machine, handle, bind_ok, pure_ok] at h
  | createGrant caller recipient totalAmount milestones =>
    obtain ⟨_, _, h, rfl, rfl⟩ := h
    exact createGrant_ok h
  | confirmMilestone caller grantId index =>
    obtain ⟨_, _, h, rfl, rfl⟩ := h
    exact confirmMilestone_ok h
  | claim recipient grantId =>
    obtain ⟨_, _, h, rfl, rfl⟩ := h
    exact claim_ok h
  | requestChange caller grantId kind reasonHash =>
    obtain ⟨_, _, h, rfl, rfl⟩ := h
    exact requestChange_ok h
  | approveRequest caller requestId =>
    obtain ⟨_, _, h, rfl, rfl⟩ := h
    exact approveRequest_ok h
  | closeRequest caller requestId =>
    obtain ⟨_, _, h, rfl, rfl⟩ := h
    exact closeRequest_ok h
  | executeRequest caller requestId =>
    obtain ⟨_, _, h, rfl, rfl⟩ := h
    exact executeRequest_ok h
  | executeRefund caller grantId accepts =>
    obtain ⟨_, _, h, rfl, rfl⟩ := h
    exact executeRefund_ok h
  | review call =>
    obtain ⟨_, _, h, rfl, rfl⟩ := h
    exact .reviewed (review_effect h)

end Accepted

/-! ### Refused calls -/

/-- The award of every grant is accounted for. -/
def Accounted (s : RefractGrants Address) : Prop :=
  ∀ grantId g, s.grants grantId = some g → ∃ paid earned pending, g.Parts paid earned pending

section Refused
variable {caller recipient reviewer : Address} {grantId requestId index : ℕ}
  {kind : RequestKind} {reasonHash : Hash} {e : Fault GrantsError} {g : Grant Address}

omit [DecidableEq Address] in
theorem setGrant_stored (stored : s.grants grantId = some g) : s.setGrant grantId g = s := by
  rw [setGrant, ← stored, Function.update_eq_self]

omit [DecidableEq Address] in
/-- A method that fails on a grant it leaves as it was leaves all of them. -/
theorem onGrant_refused {α : Type} {x : Grant.Edit Address α}
    (hx : ∀ g, s.grants grantId = some g → FailsTo x g g) : FailsTo (onGrant grantId x) s s :=
  .within hx fun _ => setGrant_stored

theorem createGrant_atomic {totalAmount : ℤ} {milestones : List MilestoneTerm} :
    Atomic (createGrant caller recipient totalAmount milestones) := by
  apply atomic_get_bind fun s => ?_
  apply atomic_check_bind fun _ => ?_
  apply atomic_check_bind fun _ => ?_
  apply atomic_check_bind fun _ => ?_
  apply atomic_check_bind fun _ => ?_
  apply atomic_check_bind fun _ => ?_
  apply atomic_check_bind fun _ => ?_
  apply Answers.atomic
  exact (answers_modify _).bind fun _ => (answers_modify _).bind fun _ => answers_pure _

theorem confirmMilestone_refused (acc : s.Accounted) :
    FailsTo (confirmMilestone caller grantId index) s s := by
  apply failsTo_get_bind
  refine failsTo_check_bind fun _ _ => ?_
  refine failsTo_check_bind fun _ _ => ?_
  refine failsTo_check_bind fun _ _ => ?_
  refine failsTo_check_bind fun _ _ => ?_
  apply onGrant_refused
  intro g stored
  obtain ⟨paid, earned, pending, p⟩ := acc grantId g stored
  exact Grant.confirm_refused p

theorem claim_atomic : Atomic (claim recipient grantId) := by
  apply atomic_get_bind fun s => ?_
  apply atomic_check_bind fun _ => ?_
  apply atomic_check_bind fun _ => ?_
  apply Atomic.bind
  · exact fun s => onGrant_refused fun g _ => Grant.claim_atomic.failsTo g
  · exact fun _ => (answers_modify _).bind fun _ => answers_pure _

theorem requestChange_atomic : Atomic (requestChange caller grantId kind reasonHash) := by
  apply atomic_get_bind fun s => ?_
  apply atomic_check_bind fun _ => ?_
  apply atomic_check_bind fun _ => ?_
  apply atomic_check_bind fun _ => ?_
  apply atomic_check_bind fun _ => ?_
  apply atomic_check_bind fun _ => ?_
  apply Answers.atomic
  exact (answers_modify _).bind fun _ => (answers_modify _).bind fun _ =>
    (answers_modify _).bind fun _ => answers_pure _

theorem approveRequest_atomic : Atomic (approveRequest caller requestId) := by
  apply atomic_get_bind fun s => ?_
  apply atomic_check_bind fun _ => ?_
  apply atomic_check_bind fun _ => ?_
  apply atomic_check_bind fun _ => ?_
  exact (answers_modify _).atomic

theorem closeRequest_atomic : Atomic (closeRequest caller requestId) := by
  apply atomic_get_bind fun s => ?_
  apply atomic_check_bind fun _ => ?_
  apply atomic_check_bind fun _ => ?_
  exact ((answers_modify _).bind fun _ => answers_modify _).atomic

theorem executeRequest_refused (acc : s.Accounted) :
    FailsTo (executeRequest caller requestId) s s := by
  apply failsTo_get_bind
  refine failsTo_check_bind fun _ _ => ?_
  refine failsTo_check_bind fun request _ => ?_
  refine failsTo_check_bind fun approver _ => ?_
  refine failsTo_check_bind fun grant found => ?_
  refine failsTo_check_bind fun _ _ => ?_
  refine failsTo_check_bind fun _ valid => ?_
  apply FailsTo.bind
  · apply onGrant_refused
    intro g stored
    rw [okOr_eq_ok, stored] at found
    obtain rfl := Option.some.inj found
    obtain ⟨paid, earned, pending, p⟩ := acc _ g stored
    exact Grant.applyChange_refused p valid
  · -- after the change nothing can fail
    rintro m ⟨refund, status⟩ -
    apply Answers.failsTo
    apply (answers_modify _).bind fun _ => ?_
    exact ((answers_modify _).bind fun _ => answers_modify _).bind fun _ => answers_modify _

/-- When the treasury refuses, the refund is pending again. -/
theorem executeRefund_refused {accepts : Bool} (acc : s.Accounted) :
    FailsTo (executeRefund caller grantId accepts) s s := by
  apply failsTo_get_bind
  refine failsTo_check_bind fun _ _ => ?_
  refine failsTo_check_bind fun _ idle => ?_
  rw [bail_eq_ok] at idle
  apply FailsTo.bind
  · apply onGrant_refused
    intro g stored
    obtain ⟨paid, earned, pending, p⟩ := acc grantId g stored
    exact Grant.beginRefund_refused p
  intro m paid hwithin
  obtain ⟨g, g', stored, hbegin, rfl⟩ := within_ok.mp hwithin
  obtain ⟨-, rfl, rfl⟩ := Grant.beginRefund_ok hbegin
  apply failsTo_modify_bind
  apply failsTo_modify_bind
  cases accepts with
  | true => exact ((answers_modify _).bind fun _ => answers_pure _).failsTo _ _
  | false =>
    apply failsTo_modify_bind
    intro s' e h
    obtain ⟨hs, -⟩ := Prod.mk.inj h
    have hback : { g.refundedOut with
        pendingRefund := g.pendingRefund
        refunded := g.refundedOut.refunded - g.pendingRefund } = g := by
      simp [Grant.refundedOut]
    rw [mapGrant_stored (g := g.refundedOut) (by simp), hback] at hs
    rw [← hs]
    simp [setGrant, Finset.erase_insert idle, ← stored]

theorem recordConflict_atomic {conflict : ConflictKind} {evidenceHash : Option Hash}
    {flagged : Bool} : Atomic (recordConflict reviewer grantId conflict evidenceHash flagged) := by
  apply atomic_get_bind fun s => ?_
  apply atomic_check_bind fun _ => ?_
  apply atomic_check_bind fun _ => ?_
  exact (answers_modify _).atomic

theorem recuse_answers : Answers (recuse reviewer grantId) :=
  (answers_modify _).bind fun _ => answers_modify _

theorem review_atomic (call : ReviewCall Address) : Atomic (handleReview call) := by
  cases call with
  | registerReviewer caller reviewer role =>
    apply atomic_get_bind fun s => ?_
    apply atomic_check_bind fun _ => ?_
    apply atomic_check_bind fun _ => ?_
    exact (answers_modify _).atomic
  | setReviewerActive caller reviewer active =>
    apply atomic_get_bind fun s => ?_
    apply atomic_check_bind fun _ => ?_
    apply atomic_check_bind fun _ => ?_
    exact (answers_modify _).atomic
  | setReviewQuorum caller quorum =>
    apply atomic_get_bind fun s => ?_
    apply atomic_check_bind fun _ => ?_
    exact (answers_modify _).atomic
  | assignReviewer caller grantId reviewer =>
    apply atomic_get_bind fun s => ?_
    apply atomic_check_bind fun _ => ?_
    apply atomic_check_bind fun _ => ?_
    apply atomic_check_bind fun _ => ?_
    exact (answers_modify _).atomic
  | submitReview reviewer grantId score approve =>
    apply atomic_get_bind fun s => ?_
    apply atomic_check_bind fun _ => ?_
    apply atomic_check_bind fun _ => ?_
    apply atomic_check_bind fun _ => ?_
    exact (answers_modify _).atomic
  | declareConflict reviewer grantId conflict evidenceHash =>
    apply atomic_get_bind fun s => ?_
    apply atomic_check_bind fun _ => ?_
    exact recordConflict_atomic.bind fun _ => recuse_answers
  | flagConflict caller grantId reviewer conflict evidenceHash =>
    apply atomic_get_bind fun s => ?_
    apply atomic_check_bind fun _ => ?_
    apply atomic_check_bind fun _ => ?_
    exact recordConflict_atomic.bind fun _ => recuse_answers
  | waiveConflict caller grantId reviewer =>
    apply atomic_get_bind fun s => ?_
    apply atomic_check_bind fun _ => ?_
    apply atomic_check_bind fun _ => ?_
    exact (answers_modify _).atomic

theorem handle_refused (acc : s.Accounted) (call : Call Address) : FailsTo (handle call) s s := by
  cases call with
  | createGrant caller recipient totalAmount milestones =>
    exact (createGrant_atomic.bind fun _ => answers_pure _).failsTo s
  | confirmMilestone caller grantId index =>
    exact (confirmMilestone_refused acc).bind_answers fun _ => answers_pure _
  | claim recipient grantId => exact (claim_atomic.bind fun _ => answers_pure _).failsTo s
  | requestChange caller grantId kind reasonHash =>
    exact (requestChange_atomic.bind fun _ => answers_pure _).failsTo s
  | approveRequest caller requestId =>
    exact (approveRequest_atomic.bind fun _ => answers_pure _).failsTo s
  | closeRequest caller requestId =>
    exact (closeRequest_atomic.bind fun _ => answers_pure _).failsTo s
  | executeRequest caller requestId =>
    exact (executeRequest_refused acc).bind_answers fun _ => answers_pure _
  | executeRefund caller grantId accepts =>
    exact (executeRefund_refused acc).bind_answers fun _ => answers_pure _
  | review call => exact ((review_atomic call).bind fun _ => answers_pure _).failsTo s

/-- A refused call leaves everything as it was. -/
theorem machine_refused (acc : s.Accounted) (h : machine s call = (s', .error e)) : s' = s :=
  handle_refused acc call s' e h

end Refused

end RefractGrants

end RefractContracts.Lifecycle
