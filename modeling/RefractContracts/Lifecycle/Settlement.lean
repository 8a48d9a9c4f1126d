import RefractContracts.Lifecycle.Conservation

/-! The closing of settled grants. A grant with all milestones confirmed and claimed,
nothing pending and no open request is closed by whichever call settles it, unless that
call rejects or withdraws a request: this one does not look whether the grant may close. -/

namespace RefractContracts.Lifecycle

open Host Method

variable {Address : Type}

namespace Grant

variable {g g' : Grant Address} {paid earned pending : List Milestone}

/-- Everything is confirmed and claimed, and nothing is to be refunded. -/
def PaidUp (g : Grant Address) : Prop :=
  (∀ m ∈ g.milestones, m.confirmed = true ∧ m.claimed = true) ∧ g.pendingRefund = 0

def Settled (g : Grant Address) : Prop := g.PaidUp ∧ g.openRequest = none

theorem Parts.of_paidUp (p : Parts g paid earned pending) (h : g.PaidUp) :
    earned = [] ∧ pending = [] := by
  constructor
  · apply List.eq_nil_iff_forall_not_mem.mpr
    intro m hm
    have hclaimed := (h.1 m (by simp [p.milestones_eq, hm])).2
    rw [(p.earned_mem m hm).2] at hclaimed
    cases hclaimed
  · apply List.eq_nil_iff_forall_not_mem.mpr
    intro m hm
    have hconfirmed := (h.1 m (by simp [p.milestones_eq, hm])).1
    rw [(p.pending_mem m hm).1] at hconfirmed
    cases hconfirmed

theorem Parts.claimable_of_paidUp (p : Parts g paid earned pending) (h : g.PaidUp) :
    g.claimable = 0 := by
  rw [p.claimable_eq, (p.of_paidUp h).1, total_nil]

/-- A grant with a milestone that was just confirmed is not paid up. -/
theorem Parts.not_paidUp_confirmedAt {m : Milestone} (p : Parts g paid earned (m :: pending)) :
    ¬ (g.confirmedAt (paid ++ earned).length m).PaidUp := by
  intro h
  have hnil := (p.confirmedAt.of_paidUp h).1
  simp at hnil

theorem settled_closeIfSettled : g.closeIfSettled.Settled ↔ g.Settled := by
  rcases closeIfSettled_eq_or g with h | h <;> rw [h]
  rfl

/-- A settled grant closes, where it is looked at. -/
theorem Parts.closes (p : Parts g paid earned pending) (h : g.Settled)
    (idle : ∀ kind : RequestKind, g.status ≠ kind.requestedStatus) :
    g.closeIfSettled.status = .closed := by
  have hpaid : g.milestones.all (fun m => m.confirmed && m.claimed) = true := by
    rw [List.all_eq_true]
    intro m hm
    simp [h.1.1 m hm]
  have hsettled : (g.claimable = 0 && g.pendingRefund = 0) = true := by
    simp [p.claimable_of_paidUp h.1, h.1.2]
  have hclosable : g.closable = true ∨ g.status = .closed := by
    unfold closable
    cases hstatus : g.status with
    | funded | amended | extended => simp [hsettled, hpaid]
    | terminated => exact .inl hsettled
    | closed => exact .inr rfl
    | amendmentRequested => exact absurd hstatus (idle (.amendment []))
    | extensionRequested => exact absurd hstatus (idle (.extension []))
    | terminationRequested => exact absurd hstatus (idle (.termination 0))
  rcases hclosable with hclosable | hclosed
  · rw [closeIfSettled, if_pos hclosable]
  · rcases closeIfSettled_eq_or g with h | h <;> rw [h]
    exact hclosed

end Grant

namespace RefractGrants

/-- Every settled grant is closed. -/
def SettledClosed (s : RefractGrants Address) : Prop :=
  ∀ id g, s.grants id = some g → g.Settled → g.status = .closed

/-- The call rejects or withdraws a request on a grant that is otherwise settled. -/
def Strands (s : RefractGrants Address) (call : Call Address) : Prop :=
  ∃ caller id r g, call = .closeRequest caller id ∧ s.requests id = some r ∧ r.isOpen = true ∧
    (caller = s.governance ∨ caller = r.requester) ∧ s.grants r.grantId = some g ∧ g.PaidUp

variable [DecidableEq Address] {s s' : RefractGrants Address} {call : Call Address} {out : Answer}

theorem SettledClosed.of_effect (c : SettledClosed s) (acc : s.Accounted) (l : Linked s)
    (hno : ¬ Strands s call) (h : Effect s s' call out) : SettledClosed s' := by
  cases h with
  | created nonempty positive sum_eq fits =>
    apply forall_update c rfl
    intro hsettled
    have hpending := ((parts_freshGrant positive sum_eq fits).of_paidUp hsettled.1).2
    exact absurd (List.map_eq_nil_iff.mp hpending) nonempty
  | @confirmed grantId index g m stored running found before pending =>
    apply forall_update c rfl
    intro hsettled
    obtain ⟨paid, earned, rest, p⟩ := acc grantId g stored
    obtain ⟨rfl, rest, rfl⟩ := p.next found before pending
    exact absurd hsettled.1 p.not_paidUp_confirmedAt
  | @claimed grantId g stored earned =>
    apply forall_update c rfl
    intro hsettled
    rw [Grant.settled_closeIfSettled] at hsettled
    obtain ⟨paid, earned, pending, p⟩ := acc grantId g stored
    exact p.paidOut.closes hsettled (l.idle grantId g stored hsettled.2)
  | @requested caller grantId kind reasonHash g stored accepts valid =>
    apply forall_update c rfl
    intro hsettled
    cases hsettled.2
  | approved stored isOpen allowed => exact c
  | @closed caller requestId r stored isOpen allowed =>
    obtain ⟨g, hg, -⟩ := l.opened requestId r stored isOpen
    rw [mapGrant_stored (g := g) (by exact hg)]
    apply forall_update c rfl
    intro hsettled
    exact absurd ⟨caller, requestId, r, g, rfl, stored, isOpen, allowed, hg, hsettled.1⟩ hno
  | @executed requestId r approver g g' refund status stored isOpen approval found count_eq
      schedule_eq valid changed =>
    apply forall_update c rfl
    intro hsettled
    rw [Grant.settled_closeIfSettled] at hsettled
    obtain ⟨paid, earned, pending, p⟩ := acc r.grantId g found
    obtain ⟨earned', pending', p', -⟩ := p.changed valid changed
    exact (p'.restatus status none).closes hsettled changed.idle
  | @refunded grantId g idle stored due =>
    apply forall_update c rfl
    intro hsettled
    rw [Grant.settled_closeIfSettled] at hsettled
    obtain ⟨paid, earned, pending, p⟩ := acc grantId g stored
    exact p.refundedOut.closes hsettled (l.idle grantId g stored hsettled.2)
  | reviewed effect =>
    intro id g stored
    rw [effect.frame.2.2.1] at stored
    exact c id g stored

theorem closeRequest_answers {caller : Address} {id : ℕ} {r : LifecycleRequest Address}
    (stored : s.requests id = some r) (isOpen : r.isOpen = true)
    (allowed : caller = s.governance ∨ caller = r.requester) :
    closeRequest caller id s =
      ((s.mapRequest id fun r => { r with isOpen := false }).mapGrant r.grantId fun g =>
        { g with status := r.previousStatus, openRequest := none }, .ok ()) := by
  rw [closeRequest, get_bind, check_bind_ok]
  refine ⟨r, by simp [openRequest, stored, isOpen], ?_⟩
  rw [check_bind_ok]
  refine ⟨(), ?_, rfl⟩
  rw [bail_eq_ok, not_and_or, not_not, not_not]
  exact allowed

/-- A call that strands a grant is accepted, and leaves it settled but not closed. -/
theorem Strands.accepted (l : Linked s) (h : Strands s call) :
    ∃ s', machine s call = (s', .ok .done) ∧ ¬ SettledClosed s' := by
  obtain ⟨caller, id, r, g, rfl, stored, isOpen, allowed, hg, hpaid⟩ := h
  refine ⟨_, bind_ok.mpr ⟨_, (), closeRequest_answers stored isOpen allowed, rfl⟩, ?_⟩
  intro hclosed
  have hpost := hclosed r.grantId { g with status := r.previousStatus, openRequest := none }
    (by simp [mapGrant, mapRequest, hg]) ⟨hpaid, rfl⟩
  have haccepts := l.previous id r stored
  rw [show r.previousStatus = .closed from hpost] at haccepts
  cases haccepts

theorem settledClosed_step (x : Event Address) (b : x.pre.Accounted ∧ Linked x.pre)
    (hno : ¬ Strands x.pre x.call)
    (answered : machine.answering x.pre x.call = .ok (x.post, x.out)) (c : SettledClosed x.pre) :
    SettledClosed x.post := by
  rw [Machine.answering_eq_ok] at answered
  obtain ⟨pre, call, out, post⟩ := x
  cases out with
  | error e =>
    rw [machine_refused b.1 answered]
    exact c
  | ok out => exact c.of_effect b.1 b.2 hno (machine_effect answered)

/-- The accepted calls of a run leave every settled grant closed exactly if none of them
rejects or withdraws a request on a grant that is otherwise settled. -/
theorem settled_closed_iff (governance : Address) (calls : List (Call Address)) :
    let r := run machine.answering (RefractGrants.new governance) calls
    (∀ x ∈ r.2, ∀ out, x.out = .ok out → SettledClosed x.post) ↔
      ∀ x ∈ r.2, ¬ Strands x.pre x.call := by
  intro r
  constructor
  · rintro hclosed ⟨pre, call, out, post⟩ hx hstrands
    obtain ⟨⟨-, linked⟩, answered⟩ := run_mem hx
    obtain ⟨s', haccepted, hopen⟩ := hstrands.accepted linked
    obtain ⟨rfl, rfl⟩ := Prod.mk.inj (answered.symm.trans haccepted)
    exact hopen (hclosed _ hx .done rfl)
  · intro hno x hx out _
    apply (run_trace machine.answering (RefractGrants.new governance) calls).posts_of
      (P := fun y => (y.pre.Accounted ∧ Linked y.pre) ∧ ¬ Strands y.pre y.call)
      (fun y hy => settledClosed_step y hy.1 hy.2)
    · exact fun y hy => ⟨(run_mem hy).1, hno y hy⟩
    · exact nofun
    · exact hx

/-- An extension is requested, then the only milestone is confirmed and claimed, and the
request is withdrawn. -/
def withdrawnLate : List (Call ℕ) :=
  [.createGrant 0 1 100 [⟨100, 1000⟩], .requestChange 1 0 (.extension [2000]) (.replicate 32 0),
    .confirmMilestone 0 0 0, .claim 1 0, .closeRequest 1 0]

theorem withdrawnLate_not_closed :
    let r := run machine.answering (RefractGrants.new 0) withdrawnLate
    ¬ ∀ x ∈ r.2, ∀ out, x.out = .ok out → SettledClosed x.post := by
  intro r h
  have hlast : ∃ x, r.2[4]? = some x ∧ x.out = .ok .done ∧ x.post.grants 0 =
      some ⟨1, 100, [⟨100, 1000, true, true⟩], 0, .funded, none, 0, 0, 0⟩ := ⟨_, rfl, rfl, rfl⟩
  obtain ⟨x, hx, hout, hgrant⟩ := hlast
  have hclosed := h x (List.mem_of_getElem? hx) .done hout 0 _ hgrant
    ⟨⟨by simp, rfl⟩, rfl⟩
  cases hclosed

end RefractGrants

end RefractContracts.Lifecycle
