import RefractContracts.Lifecycle.Filing

/-! The award of a grant over a run. What was claimed, what is claimable, what is still
unconfirmed and what is or was refunded add up to the award that the grant was created
with. A change that is executed keeps what is confirmed, an extension only postpones, and
the grant is still the one that the request was filed about. -/

namespace RefractContracts.Lifecycle

open Host Method

variable {Address : Type}

/-! ### Moves of an award -/

namespace Grant

variable {g g' : Grant Address} {paid earned pending : List Milestone} {m : Milestone} {index : ℕ}
  {n refund : ℤ} {status : GrantStatus} {kind : RequestKind} {u : Unit}

theorem Parts.balance (p : Parts g paid earned pending) :
    total paid + g.claimable + g.unconfirmedAmount + g.pendingRefund + g.refunded =
      g.totalAmount := by
  rw [p.claimable_eq, p.unconfirmedAmount_eq]
  exact p.conserved

/-- The award stays, and `n` of it is paid. -/
structure Moves (g g' : Grant Address) (n : ℤ) : Prop where
  parts : ∀ paid earned pending, Parts g paid earned pending →
    ∃ paid' earned' pending', Parts g' paid' earned' pending' ∧ total paid' = total paid + n
  totalAmount_eq : g'.totalAmount = g.totalAmount

theorem Moves.restatus (g : Grant Address) (status : GrantStatus) (openRequest : Option ℕ) :
    Moves g { g with status, openRequest } 0 :=
  ⟨fun _ _ _ p => ⟨_, _, _, p.restatus status openRequest, (add_zero _).symm⟩, rfl⟩

theorem Moves.settled (h : Moves g g' n) : Moves g g'.closeIfSettled n := by
  refine ⟨fun paid earned pending p => ?_, g'.closeIfSettled_totalAmount.trans h.totalAmount_eq⟩
  obtain ⟨paid', earned', pending', p', hpaid⟩ := h.parts paid earned pending p
  exact ⟨paid', earned', pending', p'.closed, hpaid⟩

theorem Moves.then_restatus (h : Moves g g' n) (status : GrantStatus) (openRequest : Option ℕ) :
    Moves g { g' with status, openRequest } n := by
  refine ⟨fun paid earned pending p => ?_, h.totalAmount_eq⟩
  obtain ⟨paid', earned', pending', p', hpaid⟩ := h.parts paid earned pending p
  exact ⟨paid', earned', pending', p'.restatus status openRequest, hpaid⟩

theorem Moves.confirmed (hget : g.milestones[index]? = some m)
    (hbefore : ∀ m' ∈ g.milestones.take index, m'.confirmed = true) (hm : m.confirmed = false) :
    Moves g (g.confirmedAt index m) 0 := by
  refine ⟨fun paid earned pending p => ?_, rfl⟩
  obtain ⟨rfl, rest, rfl⟩ := p.next hget hbefore hm
  exact ⟨_, _, _, p.confirmedAt, (add_zero _).symm⟩

theorem Moves.claimed (g : Grant Address) : Moves g g.paidOut g.claimable := by
  refine ⟨fun paid earned pending p => ⟨_, _, _, p.paidOut, ?_⟩, rfl⟩
  rw [total_append, total_map (f := fun m => { m with claimed := true }) fun _ => rfl,
    p.claimable_eq]

theorem Moves.refunded (g : Grant Address) : Moves g g.refundedOut 0 :=
  ⟨fun _ _ _ p => ⟨_, _, _, p.refundedOut, (add_zero _).symm⟩, rfl⟩

/-- What was confirmed before a change comes first after it. -/
theorem Parts.confirmed_prefix (p : Parts g paid earned pending)
    (hvalid : g.validateChange kind = .ok u) (hchanged : g.Changed kind g' refund status) :
    g.milestones.filter Milestone.confirmed <+: g'.milestones.filter Milestone.confirmed := by
  obtain ⟨earned', pending', p', hprefix, -⟩ := p.changed hvalid hchanged
  rw [p.confirmed_eq, p'.confirmed_eq]
  exact (List.prefix_append_right_inj paid).mpr hprefix

theorem Parts.postponed (p : Parts g paid earned pending) {newDueDates : List ℕ}
    (hvalid : g.validateChange (.extension newDueDates) = .ok u)
    (hchanged : g.Changed (.extension newDueDates) g' refund status) :
    List.Forall₂ Postponed g.milestones g'.milestones := by
  cases hchanged
  obtain ⟨pending', hpost, p'⟩ := p.extended hvalid
  rw [p.milestones_eq, p'.milestones_eq]
  apply List.rel_append _ hpost
  exact List.forall₂_same.mpr fun m _ => Postponed.refl m

theorem Moves.changed (hvalid : g.validateChange kind = .ok u)
    (hchanged : g.Changed kind g' refund status) : Moves g g' 0 := by
  refine ⟨fun paid earned pending p => ?_, ?_⟩
  · obtain ⟨earned', pending', p', -⟩ := p.changed hvalid hchanged
    exact ⟨paid, earned', pending', p', (add_zero _).symm⟩
  · cases hchanged <;> rfl

end Grant

namespace RefractGrants

theorem parts_freshGrant {recipient : Address} {totalAmount : ℤ} {milestones : List MilestoneTerm}
    (positive : ∀ t ∈ milestones, 0 < t.amount)
    (sum_eq : (milestones.map MilestoneTerm.amount).sum = totalAmount)
    (fits : totalAmount ≤ maxI128) :
    (freshGrant recipient totalAmount milestones).Parts [] []
      (milestones.map fun t => ⟨t.amount, t.due, false, false⟩) where
  milestones_eq := rfl
  paid_mem := nofun
  earned_mem := nofun
  pending_mem m hm := by
    rcases List.mem_map.mp hm with ⟨t, -, rfl⟩
    exact ⟨rfl, rfl⟩
  positive m hm := by
    rcases List.mem_map.mp hm with ⟨t, ht, rfl⟩
    exact positive t ht
  claimable_eq := rfl
  pendingRefund_nonneg := le_rfl
  refunded_nonneg := le_rfl
  conserved := by
    show 0 + 0 + total (milestones.map _) + 0 + 0 = totalAmount
    simp [total, Function.comp_def, ← sum_eq]
  bounded := fits
  amendments_le := Nat.zero_le _

/-! ### Accounts -/

/-- What an event pays out of a grant. -/
def claimedBy (x : Event Address) : Option (ℕ × ℤ) :=
  match x.call, x.out with
  | .claim _ grantId, .ok (.paid amount) => some (grantId, amount)
  | _, _ => none

/-- The award with which an event creates the grant. -/
def awardIn (x : Event Address) (grantId : ℕ) : Option ℤ :=
  match x.call, x.out with
  | .createGrant _ _ award _, .ok (.created id) => if id = grantId then some award else none
  | _, _ => none

/-- What a call does to the entry of a grant: the award it creates, and what it pays. -/
inductive Entry : Option (Grant Address) → Option (Grant Address) → Option ℤ → ℤ → Prop
  | absent : Entry none none none 0
  | moved {g g' n} (moves : Grant.Moves g g' n) : Entry (some g) (some g') none n
  | opened {g pending} (p : g.Parts [] [] pending) : Entry none (some g) (some g.totalAmount) 0

theorem Entry.same (o : Option (Grant Address)) : Entry o o none 0 := by
  cases o with
  | none => exact .absent
  | some g => exact .moved (.restatus g g.status g.openRequest)

section Write
variable {f : ℕ → Option (Grant Address)} {g g' : Grant Address} {k : ℕ} {n : ℤ}

theorem Entry.write (stored : f k = some g) (moves : g.Moves g' n) (id : ℕ) :
    Entry (f id) (Function.update f k (some g') id) none (booked (some (k, n)) id) := by
  by_cases h : id = k
  · subst h
    rw [Function.update_self, booked_self, stored]
    exact .moved moves
  · rw [Function.update_of_ne h, booked_of_ne h]
    exact .same _

theorem Entry.unpaid (stored : f k = some g) (moves : g.Moves g' 0) (id : ℕ) :
    Entry (f id) (Function.update f k (some g') id) none 0 := by
  have hwrite := Entry.write stored moves id
  rwa [show booked (some (k, 0)) id = (0 : ℤ) from ite_self 0] at hwrite

end Write

/-- The events `h` account for a grant, or there is none. -/
inductive Account (h : List (Event Address)) (id : ℕ) : Option (Grant Address) → Prop
  | absent (unclaimed : tally claimedBy h id = 0) (unawarded : ∀ x ∈ h, awardIn x id = none) :
      Account h id none
  | stored {g paid earned pending} (p : g.Parts paid earned pending)
      (claimed : total paid = tally claimedBy h id)
      (source : ∃ x ∈ h, awardIn x id = some g.totalAmount)
      (award : ∀ x ∈ h, ∀ n, awardIn x id = some n → n = g.totalAmount) : Account h id (some g)

theorem Account.snoc {h : List (Event Address)} {x : Event Address} {id : ℕ}
    {o o' : Option (Grant Address)} (a : Account h id o)
    (e : Entry o o' (awardIn x id) (booked (claimedBy x) id)) : Account (h ++ [x]) id o' := by
  generalize haward : awardIn x id = created at e
  generalize hpaid : booked (claimedBy x) id = n at e
  cases e with
  | absent =>
    cases a with
    | absent unclaimed unawarded =>
      apply Account.absent
      · rw [tally_snoc, unclaimed, hpaid, add_zero]
      · exact forall_mem_snoc unawarded haward
  | moved moves =>
    cases a with
    | stored p claimed source award =>
      obtain ⟨paid', earned', pending', p', hsum⟩ := moves.parts _ _ _ p
      obtain ⟨y, hy, hsource⟩ := source
      refine .stored p' ?_ ⟨y, List.mem_append_left _ hy, ?_⟩ ?_
      · rw [hsum, claimed, tally_snoc, hpaid]
      · rw [hsource, moves.totalAmount_eq]
      · rw [moves.totalAmount_eq]
        apply forall_mem_snoc award
        rw [haward]
        nofun
  | opened p =>
    cases a with
    | absent unclaimed unawarded =>
      refine .stored p ?_ ⟨x, List.mem_append_right _ List.mem_cons_self, haward⟩ ?_
      · rw [tally_snoc, unclaimed, hpaid]
        rfl
      · apply forall_mem_snoc
        · intro y hy n hn
          rw [unawarded y hy] at hn
          cases hn
        · intro n hn
          rw [haward] at hn
          exact (Option.some.inj hn).symm

variable [DecidableEq Address] {s s' : RefractGrants Address} {call : Call Address} {out : Answer}

theorem Effect.entry (l : Linked s) (h : Effect s s' call out) (id : ℕ) :
    Entry (s.grants id) (s'.grants id) (awardIn ⟨s, call, .ok out, s'⟩ id)
      (booked (claimedBy ⟨s, call, .ok out, s'⟩) id) := by
  cases h with
  | @created recipient totalAmount milestones nonempty positive sum_eq fits =>
    show Entry (s.grants id) (Function.update s.grants s.nextGrantId _ id)
      (if s.nextGrantId = id then some totalAmount else none) 0
    by_cases hid : s.nextGrantId = id
    · subst hid
      rw [l.fresh _ le_rfl, Function.update_self, if_pos rfl]
      exact .opened (parts_freshGrant positive sum_eq fits)
    · rw [Function.update_of_ne (Ne.symm hid), if_neg hid]
      exact .same _
  | @confirmed grantId index g m stored running found before pending =>
    exact .unpaid stored (.confirmed found before pending) id
  | @claimed grantId g stored earned =>
    exact .write stored (Grant.Moves.claimed g).settled id
  | @requested caller grantId kind reasonHash g stored accepts valid =>
    exact .unpaid stored (.restatus g _ _) id
  | approved stored isOpen allowed => exact .same _
  | @closed caller requestId r stored isOpen allowed =>
    obtain ⟨g, hg, -⟩ := l.opened requestId r stored isOpen
    rw [mapGrant_stored (g := g) (by exact hg)]
    exact .unpaid hg (.restatus g _ _) id
  | @executed requestId r approver g g' refund status stored isOpen approval found count_eq
      schedule_eq valid changed =>
    exact .unpaid found ((Grant.Moves.changed valid changed).then_restatus _ _).settled id
  | @refunded grantId g idle stored due =>
    exact .unpaid stored (Grant.Moves.refunded g).settled id
  | reviewed effect =>
    rw [effect.frame.2.2.1]
    exact .same _

/-! ### Runs -/

/-- The grants after the events `h`. -/
structure Books (h : List (Event Address)) (s : RefractGrants Address) : Prop where
  linked : Linked s
  filed : Filed h s
  account : ∀ id, Account h id (s.grants id)

variable {h : List (Event Address)}

omit [DecidableEq Address] in
theorem new_books (governance : Address) : Books [] (RefractGrants.new governance) :=
  ⟨.new governance, filed_nil governance, fun _ => .absent rfl (List.forall_mem_nil _)⟩

omit [DecidableEq Address] in
theorem Books.accounted (b : Books h s) : s.Accounted := by
  intro id g stored
  have haccount := b.account id
  rw [stored] at haccount
  cases haccount with
  | stored p => exact ⟨_, _, _, p⟩

theorem books_step (h : List (Event Address)) (x : Event Address)
    (answered : machine.answering x.pre x.call = .ok (x.post, x.out)) (b : Books h x.pre) :
    Books (h ++ [x]) x.post := by
  rw [Machine.answering_eq_ok] at answered
  obtain ⟨pre, call, out, post⟩ := x
  simp only at answered b ⊢
  cases out with
  | error e =>
    rw [machine_refused b.accounted answered]
    refine ⟨b.linked, b.filed.of_refused, fun id => (b.account id).snoc ?_⟩
    simpa [awardIn, claimedBy] using Entry.same (pre.grants id)
  | ok out =>
    have heffect := machine_effect answered
    exact ⟨b.linked.of_effect heffect, b.filed.of_effect b.accounted b.linked heffect,
      fun id => (b.account id).snoc (heffect.entry b.linked id)⟩

theorem run_books (governance : Address) (calls : List (Call Address)) :
    let r := run machine.answering (RefractGrants.new governance) calls
    Books r.2 r.1 :=
  have tr := run_trace machine.answering (RefractGrants.new governance) calls
  tr.history books_step (new_books governance)

/-- What holds where a call of a run is made, and what it leaves. -/
theorem run_event {governance : Address} {calls : List (Call Address)} {x : Event Address}
    {l : List (Event Address)}
    (hr : (run machine.answering (RefractGrants.new governance) calls).2 = h ++ x :: l) :
    Books h x.pre ∧ machine x.pre x.call = (x.post, x.out) := by
  obtain ⟨before, -, -, hbefore, answered⟩ := run_split hr
  have hbooks := run_books governance before
  rw [hbefore] at hbooks
  exact ⟨hbooks, Machine.answering_eq_ok.mp answered⟩

theorem run_mem {governance : Address} {calls : List (Call Address)} {x : Event Address}
    (hx : x ∈ (run machine.answering (RefractGrants.new governance) calls).2) :
    (x.pre.Accounted ∧ Linked x.pre) ∧ machine x.pre x.call = (x.post, x.out) := by
  obtain ⟨h, l, hr⟩ := List.append_of_mem hx
  obtain ⟨hb, answered⟩ := run_event hr
  exact ⟨⟨hb.accounted, hb.linked⟩, answered⟩

/-- The execution `x` of the request `r`, after the events `h`: what is confirmed is kept,
an extension only postpones, and since it was filed the grant has had the schedule and
the confirmed milestones that it had before `x`. -/
structure Executed (h : List (Event Address)) (x : Event Address) (id : ℕ)
    (r : LifecycleRequest Address) (g g' : Grant Address) : Prop where
  stored : x.pre.requests id = some r
  before : x.pre.grants r.grantId = some g
  after : x.post.grants r.grantId = some g'
  confirmed_kept :
    g.milestones.filter Milestone.confirmed <+: g'.milestones.filter Milestone.confirmed
  postponed : ∀ dates, r.kind = .extension dates →
    List.Forall₂ Grant.Postponed g.milestones g'.milestones
  unchanged : ∃ y since, Latest (fun x => x.out = .ok (.requested id)) h y since ∧
    y.call = .requestChange r.requester r.grantId r.kind r.reasonHash ∧
    ∀ z ∈ y :: since, ∃ g₀, z.post.grants r.grantId = some g₀ ∧ g₀.schedule = g.schedule ∧
      g₀.confirmedCount = g.confirmedCount

theorem Books.executed (b : Books h s) {caller : Address} {id : ℕ}
    (heffect : Effect s s' (.executeRequest caller id) out) :
    ∃ r g g', Executed h ⟨s, .executeRequest caller id, .ok out, s'⟩ id r g g' := by
  cases heffect with
  | @executed _ r approver g g' refund status stored isOpen approval found count_eq schedule_eq
      valid changed =>
    obtain ⟨paid, earned, pending, p⟩ := b.accounted r.grantId g found
    obtain ⟨y, since, hfiled⟩ := b.filed id r stored isOpen
    refine ⟨r, g, _, stored, found, Function.update_self _ _ _, ?_, ?_, ?_⟩
    · rw [Grant.closeIfSettled_milestones]
      show _ <+: g'.milestones.filter _
      exact p.confirmed_prefix valid changed
    · intro dates hkind
      rw [hkind] at valid changed
      rw [Grant.closeIfSettled_milestones]
      show List.Forall₂ _ _ g'.milestones
      exact p.postponed valid changed
    · exact ⟨y, since, hfiled.latest, hfiled.call_eq, hfiled.unchanged found count_eq⟩

/-- Over every run the award of each grant is conserved: what was claimed, what is
claimable, unconfirmed and pending, and what was refunded add up to the award it was
created with. An executed change keeps the confirmed milestones, an extension only
postpones, nothing has changed since an executed request was filed, and a refused call
leaves everything as it was. -/
theorem award_conserved (governance : Address) (calls : List (Call Address)) :
    let r := run machine.answering (RefractGrants.new governance) calls
    (∀ x ∈ r.2, ∀ id award, awardIn x id = some award → ∃ g, r.1.grants id = some g ∧
      tally claimedBy r.2 id + g.claimable + g.unconfirmedAmount + g.pendingRefund + g.refunded =
        award) ∧
      (∀ id g, r.1.grants id = some g → ∃ x ∈ r.2, ∃ award, awardIn x id = some award) ∧
      (∀ h x l, r.2 = h ++ x :: l → ∀ caller id out, x.call = .executeRequest caller id →
        x.out = .ok out → ∃ request g g', Executed h x id request g g') ∧
      ∀ x ∈ r.2, ∀ e, x.out = .error e → x.post = x.pre := by
  intro r
  have b : Books r.2 r.1 := run_books governance calls
  refine ⟨?_, ?_, ?_, ?_⟩
  · intro x hx id award haward
    have haccount := b.account id
    generalize hg : r.1.grants id = o at haccount
    cases haccount with
    | absent unclaimed unawarded =>
      rw [unawarded x hx] at haward
      cases haward
    | @stored g _ _ _ p claimed source hawards =>
      exact ⟨g, rfl, by rw [← claimed, p.balance, hawards x hx award haward]⟩
  · intro id g stored
    have haccount := b.account id
    rw [stored] at haccount
    cases haccount with
    | stored p claimed source =>
      obtain ⟨x, hx, haward⟩ := source
      exact ⟨x, hx, _, haward⟩
  · rintro h ⟨pre, call, out, post⟩ l hr caller id out' rfl rfl
    obtain ⟨hb, answered⟩ := run_event hr
    exact hb.executed (machine_effect answered)
  · rintro ⟨pre, call, out, post⟩ hx e rfl
    obtain ⟨⟨accounted, -⟩, answered⟩ := run_mem hx
    exact machine_refused accounted answered

end RefractGrants

end RefractContracts.Lifecycle
