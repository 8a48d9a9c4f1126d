import Mathlib.Data.Finset.Card
import RefractContracts.Lifecycle.Conservation

/-! Who counts. The approvals of a grant are counted from four maps that change one by
one, and only eligible reviewers count; the same check stands before an approval of a
request, which governance may give too. A review is void once a conflict is recorded,
whatever happens to the conflict, until the reviewer submits another. -/

namespace RefractContracts.Lifecycle

open Host Method

variable {Address : Type}

namespace RefractGrants

/-- Registered, active, assigned, not the grantee, and without a conflict that counts. -/
structure Eligible (s : RefractGrants Address) (grantId : ℕ) (reviewer : Address) : Prop where
  registered : ∃ info, s.reviewers reviewer = some info ∧ info.active = true
  notGrantee : ∃ g, s.grants grantId = some g ∧ g.recipient ≠ reviewer
  unconflicted : ∀ record, s.conflicts (grantId, reviewer) = some record → record.waived = true
  assigned : (grantId, reviewer) ∈ s.assignments

theorem hasConflict_eq_false {s : RefractGrants Address} {grantId : ℕ} {reviewer : Address} :
    s.hasConflict grantId reviewer = false ↔
      ∀ record, s.conflicts (grantId, reviewer) = some record → record.waived = true := by
  unfold hasConflict
  cases s.conflicts (grantId, reviewer) with
  | none => simp
  | some record => simp

variable [DecidableEq Address] {s s' : RefractGrants Address} {call : Call Address} {out : Answer}
  {rcall : ReviewCall Address} {grantId : ℕ} {reviewer : Address}

theorem requireEligibleReviewer_eq_ok :
    s.requireEligibleReviewer reviewer grantId = .ok () ↔ s.Eligible grantId reviewer := by
  simp only [requireEligibleReviewer, requireUnconflicted, bind_eq_ok, okOr_eq_ok, bail_eq_ok,
    not_not, Bool.not_eq_true (s.hasConflict _ _), hasConflict_eq_false]
  constructor
  · rintro ⟨_, ⟨info, hinfo, _, hactive, g, hg, _, hgrantee, hconflict⟩, hassigned⟩
    exact ⟨⟨info, hinfo, hactive⟩, ⟨g, hg, hgrantee⟩, hconflict, hassigned⟩
  · rintro ⟨⟨info, hinfo, hactive⟩, ⟨g, hg, hgrantee⟩, hconflict, hassigned⟩
    exact ⟨(), ⟨info, hinfo, (), hactive, g, hg, (), hgrantee, hconflict⟩, hassigned⟩

/-! ### The count -/

/-- An eligible reviewer with a valid approving review. -/
def Counts (s : RefractGrants Address) (grantId : ℕ) (reviewer : Address) : Prop :=
  s.Eligible grantId reviewer ∧ ∃ review, s.reviews.lookup (grantId, reviewer) = some review ∧
    review.valid = true ∧ review.approve = true

/-- The reviewers that the count counts. -/
def counted (s : RefractGrants Address) (grantId : ℕ) : Finset Address :=
  ((s.approvals grantId).map fun e => e.1.2).toFinset

theorem mem_approvals {e : Sigma fun _ : ℕ × Address => Review} :
    e ∈ s.approvals grantId ↔ e ∈ s.reviews.entries ∧ e.1.1 = grantId ∧ e.2.valid = true ∧
      e.2.approve = true ∧ s.Eligible grantId e.1.2 := by
  have hok : (s.requireEligibleReviewer e.1.2 grantId).isOk = true ↔
      s.Eligible grantId e.1.2 := by
    rw [← requireEligibleReviewer_eq_ok]
    cases s.requireEligibleReviewer e.1.2 grantId <;> simp [Except.isOk, Except.toBool]
  simp [approvals, hok, and_assoc]

theorem reviewers_nodup (s : RefractGrants Address) (grantId : ℕ) :
    ((s.approvals grantId).map fun e => e.1.2).Nodup := by
  have hkeys : (s.approvals grantId).NodupKeys :=
    s.reviews.nodupKeys.sublist List.filter_sublist
  unfold List.Nodup
  rw [List.pairwise_map]
  apply List.Pairwise.imp_of_mem _ hkeys.pairwise_ne
  intro e e' he he' hne heq
  apply hne
  exact Prod.ext ((mem_approvals.mp he).2.1.trans (mem_approvals.mp he').2.1.symm) heq

theorem mem_counted : reviewer ∈ s.counted grantId ↔ s.Counts grantId reviewer := by
  rw [counted, List.mem_toFinset, List.mem_map]
  constructor
  · rintro ⟨⟨⟨_, _⟩, review⟩, he, rfl⟩
    obtain ⟨hentry, rfl, hvalid, happrove, eligible⟩ := mem_approvals.mp he
    exact ⟨eligible, review, AList.mem_lookup_iff.mpr hentry, hvalid, happrove⟩
  · rintro ⟨eligible, review, hlookup, hvalid, happrove⟩
    refine ⟨⟨(grantId, reviewer), review⟩, mem_approvals.mpr ?_, rfl⟩
    exact ⟨AList.mem_lookup_iff.mp hlookup, rfl, hvalid, happrove, eligible⟩

/-- The count is the number of the reviewers that it counts, as a `u32`. -/
theorem approvalCount_eq_card (s : RefractGrants Address) (grantId : ℕ) :
    s.approvalCount grantId = (s.counted grantId).card % 2 ^ 32 := by
  rw [approvalCount, counted, List.toFinset_card_of_nodup (reviewers_nodup s grantId),
    List.length_map]

/-! ### Recusal -/

/-- No review of the reviewer is valid. -/
def Void (s : RefractGrants Address) (grantId : ℕ) (reviewer : Address) : Prop :=
  ∀ review, s.reviews.lookup (grantId, reviewer) = some review → review.valid = false

theorem Void.not_counts (v : s.Void grantId reviewer) : ¬ s.Counts grantId reviewer := by
  rintro ⟨-, review, hlookup, hvalid, -⟩
  rw [v review hlookup] at hvalid
  cases hvalid

section Invalidate
variable {key key' : ℕ × Address} {reviews : AList fun _ : ℕ × Address => Review}

theorem lookup_invalidate_self (key : ℕ × Address) (reviews : AList fun _ : ℕ × Address => Review)
    (review : Review) (h : (invalidate key reviews).lookup key = some review) :
    review.valid = false := by
  unfold invalidate at h
  split at h
  · next old hold =>
    rw [AList.lookup_insert, Option.some.injEq] at h
    rw [← h]
  · next hnone =>
    rw [hnone] at h
    cases h

theorem lookup_invalidate_ne (h : key' ≠ key) :
    (invalidate key reviews).lookup key' = reviews.lookup key' := by
  unfold invalidate
  split
  · exact AList.lookup_insert_ne h
  · rfl

end Invalidate

/-- The call records a conflict of the reviewer. -/
def RecordsConflict (call : Call Address) (grantId : ℕ) (reviewer : Address) : Prop :=
  ∃ kind evidenceHash, call = .review (.declareConflict reviewer grantId kind evidenceHash) ∨
    ∃ caller, call = .review (.flagConflict caller grantId reviewer kind evidenceHash)

/-- The call submits a review of the reviewer. -/
def Submits (call : Call Address) (grantId : ℕ) (reviewer : Address) : Prop :=
  ∃ score approve, call = .review (.submitReview reviewer grantId score approve)

/-- Calls outside the reviewers' part leave the reviews. -/
theorem Effect.reviews_eq (h : Effect s s' call out)
    (hcall : ∀ rcall, call ≠ .review rcall) : s'.reviews = s.reviews := by
  cases h with
  | reviewed effect => exact absurd rfl (hcall _)
  | _ => rfl

theorem Effect.void_of_records (h : Effect s s' call out)
    (hrecords : RecordsConflict call grantId reviewer) : s'.Void grantId reviewer := by
  obtain ⟨kind, evidenceHash, rfl | ⟨caller, rfl⟩⟩ := hrecords
  · cases h with
    | reviewed effect =>
      cases effect
      exact lookup_invalidate_self _ _
  · cases h with
    | reviewed effect =>
      cases effect
      exact lookup_invalidate_self _ _

theorem ReviewEffect.void (v : s.Void grantId reviewer) (h : ReviewEffect s s' rcall)
    (hsubmits : ¬ Submits (.review rcall) grantId reviewer) : s'.Void grantId reviewer := by
  have hinvalidate : ∀ key review,
      (invalidate key s.reviews).lookup (grantId, reviewer) = some review →
        review.valid = false := by
    intro key review hreview
    by_cases heq : (grantId, reviewer) = key
    · subst heq
      exact lookup_invalidate_self _ _ review hreview
    · rw [lookup_invalidate_ne heq] at hreview
      exact v review hreview
  cases h with
  | @submitted reviewer' grantId' score approve eligible =>
    intro review hreview
    have hne : (grantId, reviewer) ≠ (grantId', reviewer') := by
      rintro ⟨⟩
      exact hsubmits ⟨score, approve, rfl⟩
    exact v review ((AList.lookup_insert_ne hne).symm.trans hreview)
  | declared => exact hinvalidate _
  | flagged => exact hinvalidate _
  | _ => exact v

theorem Effect.void (v : s.Void grantId reviewer) (h : Effect s s' call out)
    (hsubmits : ¬ Submits call grantId reviewer) : s'.Void grantId reviewer := by
  cases hcall : call with
  | review rcall =>
    subst hcall
    cases h with
    | reviewed effect => exact effect.void v hsubmits
  | _ =>
    unfold Void
    rw [h.reviews_eq (by simp [hcall])]
    exact v

/-- An event of a run that does not submit a review leaves it void. -/
theorem void_step (x : Event Address) (acc : x.pre.Accounted)
    (hsubmits : ∀ out, x.out = .ok out → ¬ Submits x.call grantId reviewer)
    (answered : machine x.pre x.call = (x.post, x.out)) (v : x.pre.Void grantId reviewer) :
    x.post.Void grantId reviewer := by
  obtain ⟨pre, call, out, post⟩ := x
  cases out with
  | error e =>
    rw [machine_refused acc answered]
    exact v
  | ok out => exact (machine_effect answered).void v (hsubmits out rfl)

theorem approve_eligible {caller : Address} {id : ℕ}
    (h : Effect s s' (.approveRequest caller id) out) :
    ∃ request, s.requests id = some request ∧ (caller = s.governance ∨
      request.kind.isTermination = false ∧ s.Eligible request.grantId caller) := by
  cases h with
  | approved stored isOpen allowed =>
    rw [requireEligibleReviewer_eq_ok] at allowed
    exact ⟨_, stored, allowed⟩

/-- In every state that a run reaches the count of a grant is the number of its eligible
reviewers with a valid approving review; whoever approves a request is governance, which
alone approves a termination, or eligible; and once a conflict of a reviewer is recorded,
that reviewer does not count until they submit another review. -/
theorem conflicted_never_count (governance : Address) (calls : List (Call Address)) :
    let r := run machine.answering (RefractGrants.new governance) calls
    (∀ grantId, ∃ reviewers : Finset Address,
      r.1.approvalCount grantId = reviewers.card % 2 ^ 32 ∧
      ∀ reviewer, reviewer ∈ reviewers ↔ r.1.Counts grantId reviewer) ∧
      (∀ x ∈ r.2, ∀ caller id out, x.call = .approveRequest caller id → x.out = .ok out →
        ∃ request, x.pre.requests id = some request ∧ (caller = x.pre.governance ∨
          request.kind.isTermination = false ∧ x.pre.Eligible request.grantId caller)) ∧
      ∀ h x l, r.2 = h ++ x :: l → ∀ grantId reviewer, (∃ out, x.out = .ok out) →
        RecordsConflict x.call grantId reviewer →
        (∀ y ∈ l, ∀ out, y.out = .ok out → ¬ Submits y.call grantId reviewer) →
        ¬ r.1.Counts grantId reviewer := by
  intro r
  refine ⟨fun grantId => ?_, ?_, ?_⟩
  · exact ⟨_, approvalCount_eq_card r.1 grantId, fun reviewer => mem_counted⟩
  · rintro ⟨pre, call, out, post⟩ hx caller id out' rfl rfl
    have answered : machine pre (.approveRequest caller id) = (post, .ok out') := (run_mem hx).2
    exact approve_eligible (machine_effect answered)
  · rintro h x l hr grantId reviewer ⟨out, hout⟩ hrecords hsubmits
    have htrace : Trace machine.answering (RefractGrants.new governance) (h ++ x :: l) r.1 := by
      rw [← hr]
      exact run_trace _ _ calls
    obtain ⟨-, hx, htail⟩ := htrace.at_receipt
    have hmem : ∀ y ∈ x :: l, y ∈ r.2 := by
      intro y hy
      rw [hr]
      exact List.mem_append_right h hy
    rw [Machine.answering_eq_ok, hout] at hx
    have hvoid := (machine_effect hx).void_of_records hrecords
    apply Void.not_counts
    apply htail.invariant_of (I := fun s => s.Void grantId reviewer)
      (P := fun y => y.pre.Accounted ∧
        ∀ out, y.out = .ok out → ¬ Submits y.call grantId reviewer) ?_ ?_ hvoid
    · intro y hy answered
      exact void_step y hy.1 hy.2 (Machine.answering_eq_ok.mp answered)
    · intro y hy
      exact ⟨(run_mem (hmem y (List.mem_cons_of_mem x hy))).1.1, hsubmits y hy⟩

/-- The grantee requests an extension, and governance, which is no reviewer, approves it. -/
def approvedByGovernance : List (Call ℕ) :=
  [.createGrant 0 1 100 [⟨100, 1000⟩], .requestChange 1 0 (.extension [2000]) (.replicate 32 0),
    .approveRequest 0 0]

theorem approvedByGovernance_ineligible :
    let r := run machine.answering (RefractGrants.new 0) approvedByGovernance
    ¬ ∀ x ∈ r.2, ∀ caller id out request, x.call = .approveRequest caller id → x.out = .ok out →
      x.pre.requests id = some request → request.kind.isTermination = false →
      x.pre.Eligible request.grantId caller := by
  intro r h
  have hlast : ∃ x request, r.2[2]? = some x ∧ x.call = .approveRequest 0 0 ∧ x.out = .ok .done ∧
      x.pre.requests 0 = some request ∧ request.kind.isTermination = false ∧
      x.pre.reviewers 0 = none := ⟨_, _, rfl, rfl, rfl, rfl, rfl, rfl⟩
  obtain ⟨x, request, hx, hcall, hout, hrequest, hkind, hreviewer⟩ := hlast
  have eligible := h x (List.mem_of_getElem? hx) 0 0 .done request hcall hout hrequest hkind
  obtain ⟨info, hinfo, -⟩ := eligible.registered
  rw [hreviewer] at hinfo
  cases hinfo

end RefractGrants

end RefractContracts.Lifecycle
