import RefractContracts.Host.Storage
import RefractContracts.Lifecycle.Effects

/-! Open requests. A request is open exactly while its grant waits for it, so a grant has
at most one, and nothing but its execution rewrites the schedule meanwhile. Confirmations
go on, and a request that is executed found as many milestones confirmed as when it was
filed: the grant has not changed since. -/

namespace RefractContracts.Lifecycle

open Host Method

variable {Address : Type}

/-! ### Settling -/

namespace Grant

variable {g : Grant Address} {paid earned pending : List Milestone} {m : Milestone} {index : ℕ}

theorem closeIfSettled_eq_or (g : Grant Address) :
    g.closeIfSettled = { g with status := .closed } ∨ g.closeIfSettled = g := by
  unfold closeIfSettled
  split
  · exact .inl rfl
  · exact .inr rfl

@[simp] theorem closeIfSettled_milestones (g : Grant Address) :
    g.closeIfSettled.milestones = g.milestones := by
  rcases closeIfSettled_eq_or g with h | h <;> rw [h]

@[simp] theorem closeIfSettled_openRequest (g : Grant Address) :
    g.closeIfSettled.openRequest = g.openRequest := by
  rcases closeIfSettled_eq_or g with h | h <;> rw [h]

@[simp] theorem closeIfSettled_totalAmount (g : Grant Address) :
    g.closeIfSettled.totalAmount = g.totalAmount := by
  rcases closeIfSettled_eq_or g with h | h <;> rw [h]

@[simp] theorem closeIfSettled_schedule (g : Grant Address) :
    g.closeIfSettled.schedule = g.schedule := by
  rw [schedule, closeIfSettled_milestones, schedule]

@[simp] theorem closeIfSettled_confirmedCount (g : Grant Address) :
    g.closeIfSettled.confirmedCount = g.confirmedCount := by
  rw [confirmedCount, closeIfSettled_milestones, confirmedCount]

/-- A grant that waits for a request does not close. -/
theorem closeIfSettled_waiting {kind : RequestKind} (h : g.status = kind.requestedStatus) :
    g.closeIfSettled = g := by
  have hopen : g.closable = false := by
    unfold closable
    rw [h]
    cases kind <;> rfl
  rw [closeIfSettled, if_neg (by simp [hopen])]

/-- Closing does not make a grant wait. -/
theorem closeIfSettled_idle (h : ∀ kind : RequestKind, g.status ≠ kind.requestedStatus)
    (kind : RequestKind) : g.closeIfSettled.status ≠ kind.requestedStatus := by
  rcases closeIfSettled_eq_or g with hg | hg
  · rw [hg]
    cases kind <;> nofun
  · rw [hg]
    exact h kind

theorem Changed.idle {g' : Grant Address} {refund : ℤ} {status : GrantStatus}
    {kind : RequestKind} (h : g.Changed kind g' refund status) (kind' : RequestKind) :
    status ≠ kind'.requestedStatus := by
  cases h <;> cases kind' <;> nofun

/-- The schedule stays, and no confirmation is taken back. -/
structure Steady (g g' : Grant Address) : Prop where
  schedule_eq : g'.schedule = g.schedule
  count_le : g.confirmedCount ≤ g'.confirmedCount

theorem Steady.refl (g : Grant Address) : Steady g g := ⟨rfl, le_rfl⟩

/-- A write of one grant, seen at every grant. -/
theorem Steady.write {g' : Grant Address} {f : ℕ → Option (Grant Address)} {k : ℕ}
    (h : Steady g g') (stored : f k = some g) (j : ℕ) (g₀ : Grant Address) (hj : f j = some g₀) :
    ∃ g₁, Function.update f k (some g') j = some g₁ ∧ g₀.Steady g₁ := by
  rcases stored_update hj stored g' with ⟨-, rfl, h'⟩ | ⟨-, h'⟩
  · exact ⟨g', h', h⟩
  · exact ⟨g₀, h', .refl g₀⟩

theorem Steady.settled {g' : Grant Address} (h : Steady g g') : Steady g g'.closeIfSettled :=
  ⟨g'.closeIfSettled_schedule.trans h.schedule_eq,
    h.count_le.trans_eq g'.closeIfSettled_confirmedCount.symm⟩

theorem schedule_confirmedAt (hget : g.milestones[index]? = some m) :
    (g.confirmedAt index m).schedule = g.schedule := by
  obtain ⟨hlt, hm⟩ := List.getElem?_eq_some_iff.mp hget
  have hset : (g.confirmedAt index m).milestones =
      g.milestones.set index { m with confirmed := true } := rfl
  rw [schedule, hset, List.map_set, ← hm]
  apply List.ext_getElem
  · simp [schedule]
  · intro i hi hi'
    rw [List.getElem_set]
    split
    · next heq =>
      subst heq
      simp [schedule]
    · rfl

theorem schedule_paidOut (g : Grant Address) : g.paidOut.schedule = g.schedule := by
  show (g.milestones.map _).map _ = g.milestones.map _
  rw [List.map_map]
  apply List.map_congr_left
  intro m _
  show MilestoneTerm.mk (if m.confirmed then _ else m).amount _ = _
  split <;> simp [*]

theorem Parts.steady_confirmedAt (p : Parts g paid earned pending)
    (hget : g.milestones[index]? = some m)
    (hbefore : ∀ m' ∈ g.milestones.take index, m'.confirmed = true) (hm : m.confirmed = false) :
    Steady g (g.confirmedAt index m) := by
  refine ⟨schedule_confirmedAt hget, ?_⟩
  obtain ⟨rfl, rest, rfl⟩ := p.next hget hbefore hm
  rw [p.confirmedAt.confirmedCount_eq, p.confirmedCount_eq]
  simp only [List.length_append, List.length_singleton]
  omega

theorem Parts.steady_paidOut (p : Parts g paid earned pending) : Steady g g.paidOut := by
  refine ⟨schedule_paidOut g, ?_⟩
  rw [p.paidOut.confirmedCount_eq, p.confirmedCount_eq]
  simp

end Grant

theorem acceptsRequests_ne_requested {status : GrantStatus} (h : status.acceptsRequests = true)
    (kind : RequestKind) : status ≠ kind.requestedStatus := by
  rintro rfl
  cases kind <;> cases h

/-! ### Requests and their grants -/

namespace RefractGrants

/-- Open requests and the grants that wait for them. -/
structure Linked (s : RefractGrants Address) : Prop where
  fresh : ∀ grantId, s.nextGrantId ≤ grantId → s.grants grantId = none
  opened : ∀ id r, s.requests id = some r → r.isOpen = true → ∃ g, s.grants r.grantId = some g ∧
    g.openRequest = some id ∧ g.status = r.kind.requestedStatus
  previous : ∀ id r, s.requests id = some r → r.previousStatus.acceptsRequests = true
  idle : ∀ grantId g, s.grants grantId = some g → g.openRequest = none →
    ∀ kind : RequestKind, g.status ≠ kind.requestedStatus

namespace Linked

variable {s s' : RefractGrants Address} {g g' : Grant Address} {r r' : LifecycleRequest Address}
  {grantId id : ℕ}

theorem new (governance : Address) : Linked (RefractGrants.new governance) :=
  ⟨fun _ _ => rfl, nofun, nofun, nofun⟩

/-- A write of a grant that leaves it waiting, or idle, as it was. -/
theorem write (l : Linked s) (stored : s.grants grantId = some g)
    (same : g'.openRequest = g.openRequest)
    (waiting : ∀ kind : RequestKind, g.status = kind.requestedStatus →
      g'.status = kind.requestedStatus)
    (idle : g'.openRequest = none → ∀ kind : RequestKind, g'.status ≠ kind.requestedStatus) :
    Linked (s.setGrant grantId g') where
  fresh j hj := absent_update (l.fresh j hj) stored
  opened id r hr hopen := by
    obtain ⟨g₀, hg₀, hid, hstatus⟩ := l.opened id r hr hopen
    rcases stored_update hg₀ stored g' with ⟨-, rfl, h⟩ | ⟨-, h⟩
    · exact ⟨g', h, same.trans hid, waiting _ hstatus⟩
    · exact ⟨g₀, h, hid, hstatus⟩
  previous := l.previous
  idle := forall_update l.idle rfl idle

/-- A write that closes the grant if it is settled. -/
theorem settle (l : Linked s) (stored : s.grants grantId = some g)
    (same : g'.openRequest = g.openRequest) (status : g'.status = g.status) :
    Linked (s.setGrant grantId g'.closeIfSettled) := by
  apply l.write stored
  · rw [Grant.closeIfSettled_openRequest, same]
  · intro kind h
    rw [Grant.closeIfSettled_waiting (status.trans h)]
    exact status.trans h
  · intro hnone
    rw [Grant.closeIfSettled_openRequest, same] at hnone
    apply Grant.closeIfSettled_idle
    rw [status]
    exact l.idle grantId g stored hnone

/-- No other open request is about the same grant. -/
theorem only (l : Linked s) (stored : s.requests id = some r) (isOpen : r.isOpen = true) {j : ℕ}
    (hj : s.requests j = some r') (hopen : r'.isOpen = true) (heq : r'.grantId = r.grantId) :
    j = id := by
  obtain ⟨g, hg, hid, -⟩ := l.opened id r stored isOpen
  obtain ⟨g', hg', hj, -⟩ := l.opened j r' hj hopen
  rw [heq, hg, Option.some.injEq] at hg'
  subst hg'
  exact Option.some.inj (hj.symm.trans hid)

/-- The end of a request, which leaves its grant idle. -/
theorem finish (l : Linked s) (stored : s.requests id = some r) (isOpen : r.isOpen = true)
    (idle : ∀ kind : RequestKind, g'.status ≠ kind.requestedStatus) :
    Linked (setGrant r.grantId (s.setRequest id { r with isOpen := false }) g') where
  fresh j hj := by
    obtain ⟨g, hg, -⟩ := l.opened id r stored isOpen
    exact absent_update (l.fresh j hj) hg
  opened j r' hr' hopen := by
    rcases update_eq_some hr' with ⟨rfl, rfl⟩ | ⟨hne, hr'⟩
    · cases hopen
    obtain ⟨g, hg, hj, hstatus⟩ := l.opened j r' hr' hopen
    have hother : r'.grantId ≠ r.grantId := fun heq => hne (l.only stored isOpen hr' hopen heq)
    exact ⟨g, (Function.update_of_ne hother _ _).trans hg, hj, hstatus⟩
  previous := forall_update l.previous rfl (l.previous id r stored)
  idle := forall_update l.idle rfl fun _ => idle

/-- A new grant, which no request is about. -/
theorem create (l : Linked s) (idle : ∀ kind : RequestKind, g.status ≠ kind.requestedStatus) :
    Linked (setGrant s.nextGrantId { s with nextGrantId := s.nextGrantId + 1 } g) where
  fresh j hj := by
    have hlt : s.nextGrantId + 1 ≤ j := hj
    exact (Function.update_of_ne (by omega) _ _).trans (l.fresh j (by omega))
  opened id r hr hopen := by
    obtain ⟨g₀, hg₀, hid, hstatus⟩ := l.opened id r hr hopen
    have hne := ne_of_absent (l.fresh s.nextGrantId le_rfl) hg₀
    exact ⟨g₀, (Function.update_of_ne hne _ _).trans hg₀, hid, hstatus⟩
  previous := l.previous
  idle := forall_update l.idle rfl fun _ => idle

/-- A new request, for which its grant waits. -/
theorem file (l : Linked s) (stored : s.grants grantId = some g)
    (accepts : g.status.acceptsRequests = true) (caller : Address) (kind : RequestKind)
    (reasonHash : Hash) :
    Linked (setGrant grantId
      (setRequest { s with nextRequestId := s.nextRequestId + 1 } s.nextRequestId
        (filedRequest s.nextRequestId grantId g caller kind reasonHash))
      { g with status := kind.requestedStatus, openRequest := some s.nextRequestId }) where
  fresh j hj := absent_update (l.fresh j hj) stored
  opened id r hr hopen := by
    rcases update_eq_some hr with ⟨rfl, rfl⟩ | ⟨hne, hr⟩
    · exact ⟨_, Function.update_self _ _ _, rfl, rfl⟩
    obtain ⟨g₀, hg₀, hid, hstatus⟩ := l.opened id r hr hopen
    rcases stored_update hg₀ stored { g with
      status := kind.requestedStatus, openRequest := some s.nextRequestId } with
      ⟨-, rfl, -⟩ | ⟨-, h⟩
    · exact absurd hstatus (acceptsRequests_ne_requested accepts r.kind)
    · exact ⟨g₀, h, hid, hstatus⟩
  previous := forall_update l.previous rfl accepts
  idle := forall_update l.idle rfl nofun

end Linked

section Steps
variable [DecidableEq Address] {s s' : RefractGrants Address} {call : Call Address} {out : Answer}

theorem Linked.of_effect (l : Linked s) (h : Effect s s' call out) : Linked s' := by
  cases h with
  | created nonempty positive sum_eq fits =>
    apply l.create
    rintro (_ | _ | _) <;> nofun
  | @confirmed grantId index g m stored running found before pending =>
    exact l.write stored rfl (fun _ => id) (l.idle grantId g stored)
  | @claimed grantId g stored earned => exact l.settle stored rfl rfl
  | requested stored accepts valid => exact l.file stored accepts _ _ _
  | @approved caller requestId r stored isOpen allowed =>
    refine ⟨l.fresh, ?_, forall_update l.previous rfl (l.previous requestId r stored), l.idle⟩
    exact forall_update l.opened rfl (l.opened requestId r stored)
  | @closed caller requestId r stored isOpen allowed =>
    obtain ⟨g, hg, -⟩ := l.opened requestId r stored isOpen
    rw [mapGrant_stored (g := g) (by exact hg)]
    apply l.finish stored isOpen
    exact acceptsRequests_ne_requested (l.previous requestId r stored)
  | @executed requestId r approver g g' refund status stored isOpen approval found count_eq
      schedule_eq valid changed =>
    have hfinish := l.finish stored isOpen
      (Grant.closeIfSettled_idle (g := { g' with status, openRequest := none }) changed.idle)
    exact ⟨hfinish.fresh, hfinish.opened, hfinish.previous, hfinish.idle⟩
  | @refunded grantId g idle stored due => exact l.settle stored rfl rfl
  | reviewed effect =>
    obtain ⟨-, hnext, hgrants, -, hrequests, -⟩ := effect.frame
    exact ⟨by rw [hnext, hgrants]; exact l.fresh, by rw [hrequests, hgrants]; exact l.opened,
      by rw [hrequests]; exact l.previous, by rw [hgrants]; exact l.idle⟩

/-- The request `r` was open before, up to its approval, and its grant is steady. -/
structure Kept (s s' : RefractGrants Address) (id : ℕ) (r : LifecycleRequest Address) : Prop where
  stored : ∃ r₀, s.requests id = some r₀ ∧ r₀.isOpen = true ∧
    r = { r₀ with approvedBy := r.approvedBy }
  steady : ∀ g, s.grants r.grantId = some g → ∃ g', s'.grants r.grantId = some g' ∧ g.Steady g'

/-- A request that is open after a call was filed by it, or kept. -/
theorem Effect.filed_or_kept (acc : s.Accounted) (l : Linked s) (h : Effect s s' call out) {id : ℕ}
    {r : LifecycleRequest Address} (stored : s'.requests id = some r) (isOpen : r.isOpen = true) :
    (out = .requested id ∧ call = .requestChange r.requester r.grantId r.kind r.reasonHash ∧
      ∃ g, s'.grants r.grantId = some g ∧ g.schedule = r.oldSchedule ∧
        g.confirmedCount = r.confirmedAtRequest) ∨
      (out ≠ .requested id ∧ Kept s s' id r) := by
  cases h with
  | created nonempty positive sum_eq fits =>
    refine .inr ⟨nofun, ⟨r, stored, isOpen, rfl⟩, fun g hg => ⟨g, ?_, .refl g⟩⟩
    have hne := ne_of_absent (l.fresh s.nextGrantId le_rfl) hg
    exact (Function.update_of_ne hne _ _).trans hg
  | @confirmed grantId index g m hg running found before pending =>
    obtain ⟨paid, earned, rest, p⟩ := acc grantId g hg
    exact .inr ⟨nofun, ⟨r, stored, isOpen, rfl⟩,
      (p.steady_confirmedAt found before pending).write hg r.grantId⟩
  | @claimed grantId g hg earned =>
    obtain ⟨paid, earned, rest, p⟩ := acc grantId g hg
    exact .inr ⟨nofun, ⟨r, stored, isOpen, rfl⟩, p.steady_paidOut.settled.write hg r.grantId⟩
  | @requested caller grantId kind reasonHash g hg accepts valid =>
    rcases update_eq_some stored with ⟨rfl, rfl⟩ | ⟨hne, stored⟩
    · exact .inl ⟨rfl, rfl, _, Function.update_self _ _ _, rfl, rfl⟩
    · refine .inr ⟨fun heq => hne (Answer.requested.inj heq).symm, ⟨r, stored, isOpen, rfl⟩, ?_⟩
      have steady : g.Steady { g with
        status := kind.requestedStatus, openRequest := some s.nextRequestId } := ⟨rfl, le_rfl⟩
      exact steady.write hg r.grantId
  | @approved caller requestId r₀ hr₀ hopen allowed =>
    refine .inr ⟨nofun, ?_, fun g hg => ⟨g, hg, .refl g⟩⟩
    rcases update_eq_some stored with ⟨rfl, rfl⟩ | ⟨hne, stored⟩
    · exact ⟨r₀, hr₀, hopen, rfl⟩
    · exact ⟨r, stored, isOpen, rfl⟩
  | @closed caller requestId r₀ hr₀ hopen allowed =>
    rcases update_eq_some stored with ⟨rfl, rfl⟩ | ⟨hne, stored⟩
    · cases isOpen
    obtain ⟨g, hg, -⟩ := l.opened requestId r₀ hr₀ hopen
    rw [mapGrant_stored (g := g) (by exact hg)]
    refine .inr ⟨nofun, ⟨r, stored, isOpen, rfl⟩, ?_⟩
    have steady : g.Steady { g with status := r₀.previousStatus, openRequest := none } :=
      ⟨rfl, le_rfl⟩
    exact steady.write hg r.grantId
  | @executed requestId r₀ approver g g' refund status hr₀ hopen approval found count_eq
      schedule_eq valid changed =>
    rcases update_eq_some stored with ⟨rfl, rfl⟩ | ⟨hne, stored⟩
    · cases isOpen
    refine .inr ⟨nofun, ⟨r, stored, isOpen, rfl⟩, fun g₀ hg₀ => ⟨g₀, ?_, .refl g₀⟩⟩
    -- the changed grant waits for the executed request only
    have hother : r.grantId ≠ r₀.grantId := fun heq => hne (l.only hr₀ hopen stored isOpen heq)
    exact (Function.update_of_ne hother _ _).trans hg₀
  | @refunded grantId g idle hg due =>
    have steady : g.Steady g.refundedOut := ⟨rfl, le_rfl⟩
    exact .inr ⟨nofun, ⟨r, stored, isOpen, rfl⟩, steady.settled.write hg r.grantId⟩
  | reviewed effect =>
    obtain ⟨-, -, hgrants, -, hrequests, -⟩ := effect.frame
    rw [hrequests] at stored
    refine .inr ⟨nofun, ⟨r, stored, isOpen, rfl⟩, fun g hg => ⟨g, ?_, .refl g⟩⟩
    rw [hgrants, hg]

end Steps

/-! ### Filings -/

section Filings

abbrev Event (Address : Type) := Answered (RefractGrants Address) (Call Address) Answer GrantsError

/-- The grant has not been revised since the request was filed, confirmations apart. -/
def Unrevised (r : LifecycleRequest Address) (g : Grant Address) : Prop :=
  g.schedule = r.oldSchedule ∧ r.confirmedAtRequest ≤ g.confirmedCount

theorem Unrevised.steady {r : LifecycleRequest Address} {g g' : Grant Address}
    (h : Unrevised r g) (steady : g.Steady g') : Unrevised r g' :=
  ⟨steady.schedule_eq.trans h.1, h.2.trans steady.count_le⟩

/-- `y` filed the request `r`, and after each event from then on its grant was unrevised. -/
structure FiledBy (h : List (Event Address)) (s : RefractGrants Address) (id : ℕ)
    (r : LifecycleRequest Address) (y : Event Address) (since : List (Event Address)) : Prop where
  latest : Latest (fun x => x.out = .ok (.requested id)) h y since
  call_eq : y.call = .requestChange r.requester r.grantId r.kind r.reasonHash
  found : ∃ g, s.grants r.grantId = some g ∧ Unrevised r g ∧ ∀ x ∈ y :: since,
    ∃ g₀, x.post.grants r.grantId = some g₀ ∧ Unrevised r g₀ ∧ g₀.confirmedCount ≤ g.confirmedCount

def Filed (h : List (Event Address)) (s : RefractGrants Address) : Prop :=
  ∀ id r, s.requests id = some r → r.isOpen = true → ∃ y since, FiledBy h s id r y since

variable {s s' : RefractGrants Address} {call : Call Address} {out : Answer}
  {h : List (Event Address)} {x y : Event Address} {since : List (Event Address)}
  {r : LifecycleRequest Address} {id : ℕ}

theorem filed_nil (governance : Address) : Filed [] (RefractGrants.new governance) := nofun

theorem FiledBy.snoc (f : FiledBy h x.pre id r y since) (hout : x.out ≠ .ok (.requested id))
    (steady : ∀ g, x.pre.grants r.grantId = some g →
      ∃ g', x.post.grants r.grantId = some g' ∧ g.Steady g') :
    FiledBy (h ++ [x]) x.post id r y (since ++ [x]) := by
  obtain ⟨g, hg, hrev, hsince⟩ := f.found
  obtain ⟨g', hg', hsteady⟩ := steady g hg
  refine ⟨f.latest.snoc hout, f.call_eq, g', hg', hrev.steady hsteady, ?_⟩
  rw [← List.cons_append]
  apply forall_mem_snoc
  · intro z hz
    obtain ⟨g₀, hg₀, hrev₀, hle⟩ := hsince z hz
    exact ⟨g₀, hg₀, hrev₀, hle.trans hsteady.count_le⟩
  · exact ⟨g', hg', hrev.steady hsteady, le_rfl⟩

/-- The approval of a request is no part of its filing. -/
theorem FiledBy.approval (f : FiledBy h s id r y since)
    (approvedBy : Option Address) : FiledBy h s id { r with approvedBy } y since :=
  ⟨f.latest, f.call_eq, f.found⟩

theorem Filed.of_effect [DecidableEq Address] (f : Filed h s) (acc : s.Accounted) (l : Linked s)
    (heffect : Effect s s' call out) : Filed (h ++ [⟨s, call, .ok out, s'⟩]) s' := by
  intro id r stored isOpen
  rcases heffect.filed_or_kept acc l stored isOpen with
    ⟨rfl, rfl, g, hg, hschedule, hcount⟩ | ⟨hout, kept⟩
  · refine ⟨_, [], .of_snoc h rfl, rfl, g, hg, ⟨hschedule, hcount.ge⟩, ?_⟩
    rw [List.forall_mem_singleton]
    exact ⟨g, hg, ⟨hschedule, hcount.ge⟩, le_rfl⟩
  · obtain ⟨r₀, hr₀, hopen, heq⟩ := kept.stored
    obtain ⟨y, since, hfiled⟩ := f id r₀ hr₀ hopen
    have hfiled := hfiled.approval r.approvedBy
    rw [← heq] at hfiled
    exact ⟨y, _, hfiled.snoc (x := ⟨s, call, .ok out, s'⟩) (by simpa using hout) kept.steady⟩

theorem Filed.of_refused (f : Filed h s) {e : Fault GrantsError} :
    Filed (h ++ [⟨s, call, .error e, s⟩]) s := by
  intro id r stored isOpen
  obtain ⟨y, since, hfiled⟩ := f id r stored isOpen
  exact ⟨y, _, hfiled.snoc (x := ⟨s, call, .error e, s⟩) nofun fun g hg => ⟨g, hg, .refl g⟩⟩

/-- A request that finds as many milestones confirmed as when it was filed finds the
schedule and the count that its grant has had all along. -/
theorem FiledBy.unchanged (f : FiledBy h s id r y since) {g : Grant Address}
    (found : s.grants r.grantId = some g) (count_eq : g.confirmedCount = r.confirmedAtRequest) :
    ∀ x ∈ y :: since, ∃ g₀, x.post.grants r.grantId = some g₀ ∧ g₀.schedule = g.schedule ∧
      g₀.confirmedCount = g.confirmedCount := by
  obtain ⟨g', hg', hrev, hsince⟩ := f.found
  obtain rfl : g = g' := Option.some.inj (found.symm.trans hg')
  intro x hx
  obtain ⟨g₀, hg₀, ⟨hschedule, hge⟩, hle⟩ := hsince x hx
  exact ⟨g₀, hg₀, hschedule.trans hrev.1.symm, by omega⟩

end Filings

end RefractGrants

end RefractContracts.Lifecycle
