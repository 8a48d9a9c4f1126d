import RefractContracts.Lifecycle.Award

/-! Changes and refunds of a grant. An amendment replaces the pending milestones, an
extension moves their deadlines, and a termination drops them for a partial credit; what
is taken from the grantee is pending until it is refunded. A change that was validated
leaves the confirmed milestones and the award as they were, and does not overflow. -/

namespace RefractContracts.Lifecycle.Grant

open Host Method Math

variable {Address : Type} {g g' : Grant Address} {paid earned pending : List Milestone}
  {amount refund : ℤ} {status : GrantStatus} {kind : RequestKind} {e : Fault GrantsError} {u : Unit}

/-! ### Refunds -/

/-- The grant with its pending refund counted as refunded. -/
def refundedOut (g : Grant Address) : Grant Address :=
  { g with pendingRefund := 0, refunded := g.refunded + g.pendingRefund }

theorem beginRefund_ok (h : beginRefund g = (g', .ok amount)) :
    0 < g.pendingRefund ∧ amount = g.pendingRefund ∧ g' = g.refundedOut := by
  simp only [beginRefund, get_bind, check_bind_ok, modify_bind, bail_eq_ok, not_le, i128_eq_ok,
    pure_ok] at h
  obtain ⟨_, hpos, _, ⟨-, rfl⟩, rfl, rfl⟩ := h
  exact ⟨hpos, rfl, rfl⟩

theorem Parts.refundedOut (p : Parts g paid earned pending) :
    Parts g.refundedOut paid earned pending where
  milestones_eq := p.milestones_eq
  paid_mem := p.paid_mem
  earned_mem := p.earned_mem
  pending_mem := p.pending_mem
  positive := p.positive
  claimable_eq := p.claimable_eq
  pendingRefund_nonneg := le_rfl
  refunded_nonneg := add_nonneg p.refunded_nonneg p.pendingRefund_nonneg
  conserved := by
    have := p.conserved
    show total paid + total earned + total pending + 0 + (g.refunded + g.pendingRefund) =
      g.totalAmount
    omega
  bounded := p.bounded
  amendments_le := p.amendments_le

theorem beginRefund_refused (p : Parts g paid earned pending) :
    FailsTo (beginRefund : Edit Address ℤ) g g := by
  apply failsTo_get_bind
  refine failsTo_check_bind fun _ hpos => ?_
  apply failsTo_modify_bind
  have hfits : minI128 ≤ g.refunded + g.pendingRefund ∧
      g.refunded + g.pendingRefund ≤ maxI128 := by
    rw [bail_eq_ok] at hpos
    have hb := p.bounds
    have := p.refunded_nonneg
    have hmin := minI128_le_zero
    constructor <;> omega
  exact failsTo_ok_bind ((i128_eq_ok _ _).mpr ⟨hfits, rfl⟩)
    (((answers_modify _).bind fun _ => answers_pure _).failsTo _ _)

/-! ### Changes -/

/-- The milestones after an extension. -/
def redated (g : Grant Address) (newDueDates : List ℕ) : List Milestone :=
  g.milestones.take g.confirmedCount ++
    (List.zipWith (fun m due => { m with due }) (g.milestones.drop g.confirmedCount) newDueDates ++
      (g.milestones.drop g.confirmedCount).drop newDueDates.length)

/-- The milestone for partial work, if any was earned. -/
def credit (g : Grant Address) (earned : ℤ) : List Milestone :=
  if 0 < earned then
    [⟨earned, (g.milestones[g.confirmedCount]?.map Milestone.due).getD 0, true, false⟩]
  else []

/-- The grant after an amendment. -/
def amended (g : Grant Address) (newPending : List MilestoneTerm) : Grant Address :=
  { g with
    milestones := g.milestones.take g.confirmedCount ++
      newPending.map fun t => ⟨t.amount, t.due, false, false⟩
    amendments := g.amendments + 1
    pendingRefund := g.pendingRefund +
      (g.unconfirmedAmount - (newPending.map MilestoneTerm.amount).sum) }

/-- The grant after an extension. -/
def extended (g : Grant Address) (newDueDates : List ℕ) : Grant Address :=
  { g with
    milestones := g.redated newDueDates
    amendments := g.amendments + 1
    pendingRefund := g.pendingRefund + 0 }

/-- The grant after a termination with a credit and a refund. -/
def terminated (g : Grant Address) (earned refund : ℤ) : Grant Address :=
  { g with
    milestones := g.milestones.take g.confirmedCount ++ g.credit earned
    claimable := if 0 < earned then g.claimable + earned else g.claimable
    pendingRefund := g.pendingRefund + refund }

/-- What a change makes of a grant, what it refunds, and the status it leads to. -/
inductive Changed (g : Grant Address) : RequestKind → Grant Address → ℤ → GrantStatus → Prop
  | amended {newPending} :
      Changed g (.amendment newPending) (g.amended newPending)
        (g.unconfirmedAmount - (newPending.map MilestoneTerm.amount).sum) .amended
  | extended {newDueDates} :
      Changed g (.extension newDueDates) (g.extended newDueDates) 0 .extended
  | terminated {earnedBps earned refund}
      (credited : partialCredit (g.milestones.drop g.confirmedCount) earnedBps =
        .ok (earned, refund)) :
      Changed g (.termination earnedBps) (g.terminated earned refund) refund .terminated

/-- A change before what it refunds is recorded. -/
def Unrecorded (g : Grant Address) (kind : RequestKind) (g' : Grant Address) (refund : ℤ)
    (status : GrantStatus) : Prop :=
  Changed g kind { g' with pendingRefund := g'.pendingRefund + refund } refund status

theorem amend_ok {newPending : List MilestoneTerm}
    (h : amend newPending g = (g', .ok (refund, status))) :
    Unrecorded g (.amendment newPending) g' refund status := by
  simp only [amend, get_bind, check_bind_ok, modify_bind, i128_eq_ok, u32_eq_ok, pure_ok,
    Prod.mk.injEq] at h
  obtain ⟨newTotal, hsum, _, ⟨-, rfl⟩, _, ⟨-, rfl⟩, rfl, rfl, rfl⟩ := h
  rw [sumI128_ok hsum]
  exact .amended

theorem extend_ok {newDueDates : List ℕ} (h : extend newDueDates g = (g', .ok (refund, status))) :
    Unrecorded g (.extension newDueDates) g' refund status := by
  simp only [extend, get_bind, check_bind_ok, modify_bind, u32_eq_ok, pure_ok, Prod.mk.injEq] at h
  obtain ⟨_, ⟨-, rfl⟩, rfl, rfl, rfl⟩ := h
  exact .extended

theorem terminate_ok {earnedBps : ℤ} (h : terminate earnedBps g = (g', .ok (refund, status))) :
    Unrecorded g (.termination earnedBps) g' refund status := by
  simp only [terminate, get_bind, check_bind_ok, modify_bind] at h
  obtain ⟨⟨earned, rest⟩, credited, h⟩ := h
  have hchanged := Changed.terminated credited
  rw [Grant.terminated, credit] at hchanged
  split at h
  · next hpos =>
    simp only [modify_bind, check_bind_ok, i128_eq_ok, pure_ok, Prod.mk.injEq] at h
    obtain ⟨_, ⟨-, rfl⟩, rfl, rfl, rfl⟩ := h
    rw [if_pos hpos, if_pos hpos] at hchanged
    exact hchanged
  · next hzero =>
    simp only [pure_ok, Prod.mk.injEq] at h
    obtain ⟨rfl, rfl, rfl⟩ := h
    rw [if_neg hzero, if_neg hzero, List.append_nil] at hchanged
    exact hchanged

theorem change_ok (h : change kind g = (g', .ok (refund, status))) :
    Unrecorded g kind g' refund status := by
  cases kind with
  | amendment newPending => exact amend_ok h
  | extension newDueDates => exact extend_ok h
  | termination earnedBps => exact terminate_ok h

theorem applyChange_ok (h : applyChange kind g = (g', .ok (refund, status))) :
    Changed g kind g' refund status := by
  rw [applyChange, bind_ok] at h
  obtain ⟨g₁, ⟨refund', status'⟩, hchange, h⟩ := h
  simp only [get_bind, check_bind_ok, modify_bind, i128_eq_ok, pure_ok, Prod.mk.injEq] at h
  obtain ⟨_, ⟨-, rfl⟩, rfl, rfl, rfl⟩ := h
  exact change_ok hchange

/-! ### Validated changes -/

theorem amendment_valid {newPending : List MilestoneTerm}
    (h : g.validateChange (.amendment newPending) = .ok u) :
    g.amendments < maxAmendments ∧ newPending ≠ [] ∧ (∀ t ∈ newPending, 0 < t.amount) ∧
      (newPending.map MilestoneTerm.amount).sum ≤ g.unconfirmedAmount := by
  simp only [validateChange, bind_eq_ok, bail_eq_ok, not_le, not_lt, List.isEmpty_iff] at h
  obtain ⟨_, -, _, hcount, _, hne, sum, hsum, _, hle, -⟩ := h
  obtain ⟨rfl, hpos, -⟩ := checkedTotal_ok hsum
  exact ⟨hcount, hne, fun t ht => hpos _ (List.mem_map_of_mem ht), hle⟩

/-- The milestone `m'` is `m` with a deadline that is not earlier; `0` is no deadline. -/
structure Postponed (m m' : Milestone) : Prop where
  amount_eq : m'.amount = m.amount
  later : m.due ≤ m'.due ∧ (m.due = 0 → m'.due = 0)
  confirmed_eq : m'.confirmed = m.confirmed
  claimed_eq : m'.claimed = m.claimed

theorem Postponed.refl (m : Milestone) : Postponed m m := ⟨rfl, ⟨le_rfl, id⟩, rfl, rfl⟩

theorem postponed_zipWith {l : List Milestone} {dates : List ℕ} (hlen : dates.length = l.length)
    (hlater : ∀ p ∈ l.zip dates, p.1.due ≤ p.2 ∧ (p.1.due = 0 → p.2 = 0)) :
    List.Forall₂ Postponed l (List.zipWith (fun m due => { m with due }) l dates) := by
  induction l generalizing dates with
  | nil => exact .nil
  | cons m l ih =>
    cases dates with
    | nil => simp at hlen
    | cons due dates =>
      have hfirst := hlater (m, due) (by simp)
      refine .cons ⟨rfl, hfirst, rfl, rfl⟩ (ih (by simpa using hlen) fun p hp => ?_)
      exact hlater p (List.mem_cons_of_mem _ hp)

theorem postponed_total {l l' : List Milestone} (h : List.Forall₂ Postponed l l') :
    total l' = total l := by
  induction h with
  | nil => rfl
  | cons hm _ ih => rw [total_cons, total_cons, ih, hm.amount_eq]

theorem postponed_mem {P : Milestone → Prop} {l l' : List Milestone}
    (h : List.Forall₂ Postponed l l') (hl : ∀ m ∈ l, P m)
    (hP : ∀ m m', Postponed m m' → P m → P m') : ∀ m' ∈ l', P m' := by
  induction h with
  | nil => exact nofun
  | cons hm _ ih =>
    rw [List.forall_mem_cons] at hl ⊢
    exact ⟨hP _ _ hm hl.1, ih hl.2⟩

theorem extension_valid {newDueDates : List ℕ}
    (h : g.validateChange (.extension newDueDates) = .ok u) :
    g.milestones.filter (! ·.confirmed) ≠ [] ∧ g.amendments < maxAmendments ∧
      newDueDates.length = (g.milestones.filter (! ·.confirmed)).length ∧
      ∀ p ∈ (g.milestones.filter (! ·.confirmed)).zip newDueDates,
        p.1.due ≤ p.2 ∧ (p.1.due = 0 → p.2 = 0) := by
  simp only [validateChange, bind_eq_ok, bail_eq_ok, not_le, not_not, Bool.not_eq_true,
    List.any_eq_false, Bool.or_eq_false_iff, Bool.and_eq_false_iff] at h
  obtain ⟨_, hne, _, hcount, _, hlen, _, hlater, -⟩ := h
  refine ⟨by simpa using hne, hcount, hlen, fun p hp => ?_⟩
  have hdue : p.1.due ≤ p.2 ∧ (¬ p.1.due = 0 ∨ p.2 = 0) := by simpa using hlater p hp
  exact ⟨hdue.1, fun h => hdue.2.resolve_left fun hn => hn h⟩

/-- The credit and the refund of a termination are what was pending. -/
theorem partialCredit_ok {earnedBps credit : ℤ} (hpos : ∀ m ∈ pending, 0 < m.amount)
    (hmax : total pending ≤ maxI128) (h : partialCredit pending earnedBps = .ok (credit, refund)) :
    0 ≤ credit ∧ 0 ≤ refund ∧ credit + refund = total pending := by
  cases pending with
  | nil =>
    obtain ⟨rfl, rfl⟩ := Prod.mk.inj ((pure_eq_ok _ _).mp h)
    exact ⟨le_rfl, le_rfl, rfl⟩
  | cons m rest =>
    have hm := hpos m (by simp)
    have hrest := total_nonneg fun m' hm' => hpos m' (List.mem_cons_of_mem m hm')
    rw [total_cons] at hmax ⊢
    simp only [partialCredit, bind_eq_ok, mapErr_eq_ok, pure_eq_ok, Prod.mk.injEq] at h
    obtain ⟨split, hsplit, sum, hsum, rfl, rfl⟩ := h
    obtain ⟨hcut, hrem, hadd⟩ := splitBps_ok (by omega) hsplit
    have hsum : sum = split.rest + total rest := by
      rw [sumI128_ok hsum, List.sum_cons]
      rfl
    exact ⟨hcut, by omega, by omega⟩

theorem Parts.amended (p : Parts g paid earned pending) {newPending : List MilestoneTerm}
    (hvalid : g.validateChange (.amendment newPending) = .ok u) :
    Parts (g.amended newPending) paid earned
      (newPending.map fun t => ⟨t.amount, t.due, false, false⟩) := by
  obtain ⟨hcount, -, hpos, hle⟩ := amendment_valid hvalid
  have hmilestones : (g.amended newPending).milestones =
      (paid ++ earned) ++ newPending.map fun t => ⟨t.amount, t.due, false, false⟩ := by
    rw [Grant.amended, p.take_eq]
  have hsum : total (newPending.map fun t => ⟨t.amount, t.due, false, false⟩) =
      (newPending.map MilestoneTerm.amount).sum := by
    simp [total, Function.comp_def]
  rw [p.unconfirmedAmount_eq] at hle
  refine ⟨hmilestones, p.paid_mem, p.earned_mem, ?_, ?_, p.claimable_eq, ?_, p.refunded_nonneg, ?_,
    p.bounded, hcount⟩
  · intro m hm
    rcases List.mem_map.mp hm with ⟨t, -, rfl⟩
    exact ⟨rfl, rfl⟩
  · intro m hm
    rw [hmilestones] at hm
    rcases List.mem_append.mp hm with hm | hm
    · exact p.positive m (p.milestones_eq ▸ List.mem_append_left _ hm)
    · rcases List.mem_map.mp hm with ⟨t, ht, rfl⟩
      exact hpos t ht
  · have := p.pendingRefund_nonneg
    rw [Grant.amended, p.unconfirmedAmount_eq]
    show 0 ≤ g.pendingRefund + (_ - _)
    omega
  · have := p.conserved
    rw [Grant.amended, p.unconfirmedAmount_eq, hsum]
    show total paid + total earned + _ + (g.pendingRefund + (_ - _)) + g.refunded = g.totalAmount
    omega

/-- The pending milestones of an extended grant are the old ones, postponed. -/
theorem Parts.redated_eq (p : Parts g paid earned pending) {newDueDates : List ℕ}
    (hvalid : g.validateChange (.extension newDueDates) = .ok u) :
    ∃ pending', g.redated newDueDates = (paid ++ earned) ++ pending' ∧
      List.Forall₂ Postponed pending pending' := by
  obtain ⟨-, -, hlen, hlater⟩ := extension_valid hvalid
  rw [p.unconfirmed_eq] at hlen hlater
  refine ⟨_, ?_, postponed_zipWith hlen hlater⟩
  rw [redated, p.take_eq, p.drop_eq, List.drop_eq_nil_of_le hlen.ge, List.append_nil]

theorem Parts.extended (p : Parts g paid earned pending) {newDueDates : List ℕ}
    (hvalid : g.validateChange (.extension newDueDates) = .ok u) :
    ∃ pending', List.Forall₂ Postponed pending pending' ∧
      Parts (g.extended newDueDates) paid earned pending' := by
  obtain ⟨pending', hredated, hpost⟩ := p.redated_eq hvalid
  refine ⟨pending', hpost, hredated, p.paid_mem, p.earned_mem, ?_, ?_, p.claimable_eq, ?_,
    p.refunded_nonneg, ?_, p.bounded, (extension_valid hvalid).2.1⟩
  · apply postponed_mem hpost p.pending_mem
    intro m m' hm h
    rwa [hm.confirmed_eq, hm.claimed_eq]
  · have hpos : ∀ m ∈ pending', 0 < m.amount := by
      apply postponed_mem hpost p.positive_pending
      intro m m' hm h
      rwa [hm.amount_eq]
    intro m hm
    rw [show (g.extended newDueDates).milestones = _ from hredated] at hm
    rcases List.mem_append.mp hm with hm | hm
    · exact p.positive m (p.milestones_eq ▸ List.mem_append_left _ hm)
    · exact hpos m hm
  · have := p.pendingRefund_nonneg
    show 0 ≤ g.pendingRefund + 0
    omega
  · have := p.conserved
    rw [postponed_total hpost]
    show _ + (g.pendingRefund + 0) + g.refunded = g.totalAmount
    omega

theorem credit_mem {earned : ℤ} : ∀ m ∈ g.credit earned,
    0 < m.amount ∧ m.confirmed = true ∧ m.claimed = false := by
  intro m hm
  rw [credit] at hm
  split at hm
  · next hpos =>
    rw [List.mem_singleton.mp hm]
    exact ⟨hpos, rfl, rfl⟩
  · simp at hm

theorem total_credit {earned : ℤ} (h : 0 ≤ earned) : total (g.credit earned) = earned := by
  rw [credit]
  split
  · simp
  · simp
    omega

theorem Parts.terminated (p : Parts g paid earned pending) {earnedBps credited : ℤ}
    (hcredit : partialCredit (g.milestones.drop g.confirmedCount) earnedBps =
      .ok (credited, refund)) :
    Parts (g.terminated credited refund) paid (earned ++ g.credit credited) [] := by
  rw [p.drop_eq] at hcredit
  have hb := p.bounds
  have hpr := p.pendingRefund_nonneg
  have hrefunded := p.refunded_nonneg
  have hconserved := p.conserved
  obtain ⟨hcredited, hrefund, hsum⟩ := partialCredit_ok p.positive_pending (by omega) hcredit
  have hmilestones : (g.terminated credited refund).milestones =
      (paid ++ (earned ++ g.credit credited)) ++ [] := by
    rw [Grant.terminated, p.take_eq, List.append_nil, List.append_assoc]
  refine ⟨hmilestones, p.paid_mem, ?_, nofun, ?_, ?_, ?_, p.refunded_nonneg, ?_, p.bounded,
    p.amendments_le⟩
  · rw [List.forall_mem_append]
    exact ⟨p.earned_mem, fun m hm => (credit_mem m hm).2⟩
  · intro m hm
    rw [hmilestones, List.append_nil, ← List.append_assoc] at hm
    rcases List.mem_append.mp hm with hm | hm
    · exact p.positive m (p.milestones_eq ▸ List.mem_append_left _ hm)
    · exact (credit_mem m hm).1
  · rw [total_append, total_credit hcredited, ← p.claimable_eq]
    show (if 0 < credited then g.claimable + credited else g.claimable) = _
    split
    · rfl
    · omega
  · show 0 ≤ g.pendingRefund + refund
    omega
  · rw [total_append, total_credit hcredited, total_nil]
    show _ + (g.pendingRefund + refund) + g.refunded = g.totalAmount
    omega

/-- A validated change leaves what is paid and earned, and some milestone pending unless
the grant is terminated. -/
theorem Parts.changed (p : Parts g paid earned pending) (hvalid : g.validateChange kind = .ok u)
    (hchanged : Changed g kind g' refund status) :
    ∃ earned' pending', Parts g' paid earned' pending' ∧ earned <+: earned' ∧
      (status = .terminated ∨ pending' ≠ []) := by
  cases hchanged with
  | @amended newPending =>
    refine ⟨earned, _, p.amended hvalid, List.prefix_refl _, .inr ?_⟩
    rw [ne_eq, List.map_eq_nil_iff]
    exact (amendment_valid hvalid).2.1
  | @extended newDueDates =>
    obtain ⟨pending', hpost, p'⟩ := p.extended hvalid
    refine ⟨earned, pending', p', List.prefix_refl _, .inr ?_⟩
    rintro rfl
    rw [List.forall₂_nil_right_iff] at hpost
    apply (extension_valid hvalid).1
    rw [p.unconfirmed_eq, hpost]
  | terminated credited =>
    exact ⟨_, [], p.terminated credited, List.prefix_append _ _, .inl rfl⟩

/-! ### Changes that fail -/

/-- One more change is counted, and after it nothing can fail. -/
theorem amendments_fit {n : ℕ} (hcount : n < maxAmendments) :
    (u32 (n + 1) : Outcome GrantsError ℕ) = .ok (n + 1) := by
  have hmax : maxAmendments ≤ maxU32 := by decide
  rw [u32_eq_ok]
  exact ⟨by omega, rfl⟩

theorem amend_refused {newPending : List MilestoneTerm} (hcount : g.amendments < maxAmendments) :
    FailsTo (amend newPending) g g := by
  apply failsTo_get_bind
  refine failsTo_check_bind fun newTotal _ => ?_
  refine failsTo_check_bind fun refund _ => ?_
  apply failsTo_modify_bind
  apply failsTo_modify_bind
  exact failsTo_ok_bind (amendments_fit hcount)
    (((answers_modify _).bind fun _ => answers_pure _).failsTo _ _)

theorem extend_refused {newDueDates : List ℕ} (hcount : g.amendments < maxAmendments) :
    FailsTo (extend newDueDates) g g := by
  apply failsTo_get_bind
  apply failsTo_modify_bind
  exact failsTo_ok_bind (amendments_fit hcount)
    (((answers_modify _).bind fun _ => answers_pure _).failsTo _ _)

theorem terminate_refused (p : Parts g paid earned pending) {earnedBps : ℤ} :
    FailsTo (terminate earnedBps) g g := by
  apply failsTo_get_bind
  refine failsTo_check_bind fun (credited, refund) hcredit => ?_
  apply failsTo_modify_bind
  -- the credit is part of what was pending
  have hfits : minI128 ≤ g.claimable + credited ∧ g.claimable + credited ≤ maxI128 := by
    have hb := p.bounds
    have hpr := p.pendingRefund_nonneg
    have hrefunded := p.refunded_nonneg
    rw [p.drop_eq] at hcredit
    obtain ⟨hcredited, hrefund, hsum⟩ := partialCredit_ok p.positive_pending (by omega) hcredit
    have hmin := minI128_le_zero
    rw [p.claimable_eq]
    constructor <;> omega
  split
  · apply failsTo_modify_bind
    exact failsTo_ok_bind ((i128_eq_ok _ _).mpr ⟨hfits, rfl⟩)
      (((answers_modify _).bind fun _ => answers_pure _).failsTo _ _)
  · exact (answers_pure _).failsTo _ _

theorem change_refused (p : Parts g paid earned pending) (hvalid : g.validateChange kind = .ok u) :
    FailsTo (change kind) g g := by
  cases kind with
  | amendment newPending => exact amend_refused (amendment_valid hvalid).1
  | extension newDueDates => exact extend_refused (extension_valid hvalid).2.1
  | termination earnedBps => exact terminate_refused p

/-- A validated change fails, if at all, before anything was written. -/
theorem applyChange_refused (p : Parts g paid earned pending)
    (hvalid : g.validateChange kind = .ok u) : FailsTo (applyChange kind) g g := by
  apply (change_refused p hvalid).bind
  rintro g₁ ⟨refund, status⟩ hchange
  apply failsTo_get_bind
  have hfits : minI128 ≤ g₁.pendingRefund + refund ∧ g₁.pendingRefund + refund ≤ maxI128 := by
    obtain ⟨earned', pending', p', -⟩ := p.changed hvalid (change_ok hchange)
    have hb := p'.bounds
    have hpr := p'.pendingRefund_nonneg
    have hrefunded := p'.refunded_nonneg
    have hmin := minI128_le_zero
    simp only at hb hpr hrefunded
    constructor <;> omega
  exact failsTo_ok_bind ((i128_eq_ok _ _).mpr ⟨hfits, rfl⟩)
    (((answers_modify _).bind fun _ => answers_pure _).failsTo _ _)

end RefractContracts.Lifecycle.Grant
