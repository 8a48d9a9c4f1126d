import RefractContracts.Lifecycle.Requests

/-! The parts of an award. The milestones of a grant are paid, earned or pending, in this
order; what is earned is claimable, and the parts with what is to be refunded and what
was refunded add up to the award. Each operation on a grant moves milestones from one
part to the next, so none of its additions can overflow, and where it fails nothing was
written. -/

namespace RefractContracts.Lifecycle

open Host Method Math

variable {Address : Type}

/-! ### Sums -/

@[simp] theorem total_nil : total [] = 0 := rfl

@[simp] theorem total_cons (m : Milestone) (l : List Milestone) :
    total (m :: l) = m.amount + total l := by
  simp [total]

@[simp] theorem total_append (l l' : List Milestone) : total (l ++ l') = total l + total l' := by
  simp [total]

theorem total_nonneg {l : List Milestone} (h : ∀ m ∈ l, 0 < m.amount) : 0 ≤ total l := by
  apply List.sum_nonneg
  intro a ha
  rcases List.mem_map.mp ha with ⟨m, hm, rfl⟩
  exact (h m hm).le

theorem total_map {l : List Milestone} {f : Milestone → Milestone}
    (hf : ∀ m, (f m).amount = m.amount) : total (l.map f) = total l := by
  simp [total, Function.comp_def, hf]

theorem foldlM_i128_ok {l : List ℤ} {acc n : ℤ}
    (h : l.foldlM (fun sum amount => (i128 (sum + amount) : Outcome GrantsError ℤ)) acc = .ok n) :
    n = acc + l.sum := by
  induction l generalizing acc with
  | nil =>
    rw [List.foldlM_nil, pure_eq_ok] at h
    rw [← h, List.sum_nil, add_zero]
  | cons a l ih =>
    rw [List.foldlM_cons, bind_eq_ok] at h
    obtain ⟨b, hb, h⟩ := h
    rw [i128_eq_ok] at hb
    rw [ih h, ← hb.2, List.sum_cons]
    omega

theorem sumI128_ok {l : List ℤ} {n : ℤ} (h : sumI128 l = .ok n) : n = l.sum := by
  rw [foldlM_i128_ok h, zero_add]

theorem foldlM_checkedAdd_ok {e : GrantsError} {l : List ℤ} {acc n : ℤ} (hacc : acc ≤ maxI128)
    (h : l.foldlM (checkedAdd e) acc = .ok n) :
    n = acc + l.sum ∧ (∀ a ∈ l, 0 < a) ∧ n ≤ maxI128 := by
  induction l generalizing acc with
  | nil =>
    rw [List.foldlM_nil, pure_eq_ok] at h
    rw [← h]
    exact ⟨by simp, by simp, hacc⟩
  | cons a l ih =>
    simp only [List.foldlM_cons, checkedAdd, bind_eq_ok, bail_eq_ok, not_le,
      i128Checked_eq_ok] at h
    obtain ⟨b, ⟨_, hpos, ⟨-, hmax⟩, rfl⟩, h⟩ := h
    obtain ⟨hn, hall, hle⟩ := ih hmax h
    refine ⟨by rw [hn, List.sum_cons, add_assoc], ?_, hle⟩
    exact List.forall_mem_cons.mpr ⟨hpos, hall⟩

/-- The loop over the amounts adds them up, and accepts positive amounts only. -/
theorem checkedTotal_ok {e : GrantsError} {l : List ℤ} {n : ℤ} (h : checkedTotal e l = .ok n) :
    n = l.sum ∧ (∀ a ∈ l, 0 < a) ∧ n ≤ maxI128 := by
  have hloop := foldlM_checkedAdd_ok zero_le_maxI128 h
  rwa [zero_add] at hloop

/-! ### Parts -/

namespace Grant

/-- The milestones are `paid`, then `earned`, then `pending`, and the award is accounted for. -/
structure Parts (g : Grant Address) (paid earned pending : List Milestone) : Prop where
  milestones_eq : g.milestones = (paid ++ earned) ++ pending
  paid_mem : ∀ m ∈ paid, m.confirmed = true ∧ m.claimed = true
  earned_mem : ∀ m ∈ earned, m.confirmed = true ∧ m.claimed = false
  pending_mem : ∀ m ∈ pending, m.confirmed = false ∧ m.claimed = false
  positive : ∀ m ∈ g.milestones, 0 < m.amount
  claimable_eq : g.claimable = total earned
  pendingRefund_nonneg : 0 ≤ g.pendingRefund
  refunded_nonneg : 0 ≤ g.refunded
  conserved : total paid + total earned + total pending + g.pendingRefund + g.refunded =
    g.totalAmount
  bounded : g.totalAmount ≤ maxI128
  amendments_le : g.amendments ≤ maxAmendments

namespace Parts

variable {g : Grant Address} {paid earned pending : List Milestone}

theorem positive_paid (p : Parts g paid earned pending) : ∀ m ∈ paid, 0 < m.amount :=
  fun m hm => p.positive m (by simp [p.milestones_eq, hm])

theorem positive_earned (p : Parts g paid earned pending) : ∀ m ∈ earned, 0 < m.amount :=
  fun m hm => p.positive m (by simp [p.milestones_eq, hm])

theorem positive_pending (p : Parts g paid earned pending) : ∀ m ∈ pending, 0 < m.amount :=
  fun m hm => p.positive m (by simp [p.milestones_eq, hm])

theorem confirmed_mem (p : Parts g paid earned pending) :
    ∀ m ∈ paid ++ earned, m.confirmed = true := by
  intro m hm
  rcases List.mem_append.mp hm with hm | hm
  · exact (p.paid_mem m hm).1
  · exact (p.earned_mem m hm).1

theorem confirmedCount_eq (p : Parts g paid earned pending) :
    g.confirmedCount = (paid ++ earned).length := by
  rw [confirmedCount, p.milestones_eq, List.takeWhile_append_of_pos p.confirmed_mem]
  cases pending with
  | nil => simp
  | cons m pending => simp [(p.pending_mem m (by simp)).1]

theorem take_eq (p : Parts g paid earned pending) :
    g.milestones.take g.confirmedCount = paid ++ earned := by
  rw [p.confirmedCount_eq, p.milestones_eq, List.take_left]

theorem drop_eq (p : Parts g paid earned pending) :
    g.milestones.drop g.confirmedCount = pending := by
  rw [p.confirmedCount_eq, p.milestones_eq, List.drop_left]

theorem unconfirmed_eq (p : Parts g paid earned pending) :
    g.milestones.filter (! ·.confirmed) = pending := by
  have hnone : (paid ++ earned).filter (! ·.confirmed) = [] := by
    apply List.filter_eq_nil_iff.mpr
    intro m hm
    simp [p.confirmed_mem m hm]
  have hall : pending.filter (! ·.confirmed) = pending := by
    apply List.filter_eq_self.mpr
    intro m hm
    simp [(p.pending_mem m hm).1]
  rw [p.milestones_eq, List.filter_append, hnone, hall, List.nil_append]

theorem confirmed_eq (p : Parts g paid earned pending) :
    g.milestones.filter Milestone.confirmed = paid ++ earned := by
  have hall : (paid ++ earned).filter Milestone.confirmed = paid ++ earned :=
    List.filter_eq_self.mpr p.confirmed_mem
  have hnone : pending.filter Milestone.confirmed = [] := by
    apply List.filter_eq_nil_iff.mpr
    intro m hm
    simp [(p.pending_mem m hm).1]
  rw [p.milestones_eq, List.filter_append, hall, hnone, List.append_nil]

theorem unconfirmedAmount_eq (p : Parts g paid earned pending) :
    g.unconfirmedAmount = total pending := by
  rw [unconfirmedAmount, p.unconfirmed_eq]

/-- Every part of the award is between zero and the largest amount. -/
theorem bounds (p : Parts g paid earned pending) :
    0 ≤ total paid ∧ 0 ≤ total earned ∧ 0 ≤ total pending ∧
      total paid + total earned + total pending + g.pendingRefund + g.refunded ≤ maxI128 := by
  have := p.conserved
  have := p.bounded
  refine ⟨total_nonneg p.positive_paid, total_nonneg p.positive_earned,
    total_nonneg p.positive_pending, by omega⟩

/-- The status and the open request are no part of the award. -/
theorem restatus (p : Parts g paid earned pending) (status : GrantStatus) (openRequest : Option ℕ) :
    Parts { g with status, openRequest } paid earned pending :=
  ⟨p.milestones_eq, p.paid_mem, p.earned_mem, p.pending_mem, p.positive, p.claimable_eq,
    p.pendingRefund_nonneg, p.refunded_nonneg, p.conserved, p.bounded, p.amendments_le⟩

theorem closed (p : Parts g paid earned pending) : Parts g.closeIfSettled paid earned pending := by
  unfold closeIfSettled
  split
  · exact p.restatus .closed g.openRequest
  · exact p

end Parts

/-! ### Confirmations -/

variable {g g' : Grant Address} {paid earned pending : List Milestone} {m : Milestone} {index : ℕ}
  {u : Unit} {amount : ℤ} {e : Fault GrantsError}

/-- The grant with the milestone `m` at `index` confirmed. -/
def confirmedAt (g : Grant Address) (index : ℕ) (m : Milestone) : Grant Address :=
  { g with
    milestones := g.milestones.set index { m with confirmed := true }
    claimable := g.claimable + m.amount }

theorem confirm_ok (h : confirm index g = (g', .ok u)) :
    ∃ m, g.milestones[index]? = some m ∧ (∀ m' ∈ g.milestones.take index, m'.confirmed = true) ∧
      m.confirmed = false ∧ g' = g.confirmedAt index m := by
  simp only [confirm, get_bind, check_bind_ok, modify_bind, bail_eq_ok, okOr_eq_ok,
    Bool.not_eq_true, List.any_eq_false, Bool.not_eq_true', Bool.not_eq_false,
    i128Checked_eq_ok, modify_ok] at h
  obtain ⟨m, hget, _, hbefore, _, hpending, _, ⟨-, rfl⟩, rfl⟩ := h
  exact ⟨m, hget, hbefore, hpending, rfl⟩

/-- The milestone that can be confirmed is the first pending one. -/
theorem Parts.next (p : Parts g paid earned pending) (hget : g.milestones[index]? = some m)
    (hbefore : ∀ m' ∈ g.milestones.take index, m'.confirmed = true) (hm : m.confirmed = false) :
    index = (paid ++ earned).length ∧ ∃ rest, pending = m :: rest := by
  rw [p.milestones_eq] at hget hbefore
  have hle : (paid ++ earned).length ≤ index := by
    by_contra hlt
    rw [List.getElem?_append_left (not_le.mp hlt)] at hget
    have := p.confirmed_mem m (List.mem_of_getElem? hget)
    rw [hm] at this
    cases this
  rw [List.getElem?_append_right hle] at hget
  cases pending with
  | nil => simp at hget
  | cons first rest =>
    by_cases heq : index = (paid ++ earned).length
    · rw [heq, Nat.sub_self, List.getElem?_cons_zero, Option.some.injEq] at hget
      exact ⟨heq, rest, by rw [hget]⟩
    · -- a later milestone comes after one that is not confirmed
      have hfirst : first ∈ ((paid ++ earned) ++ first :: rest).take index := by
        rw [List.take_append, List.mem_append]
        right
        obtain ⟨k, hk⟩ : ∃ k, index - (paid ++ earned).length = k + 1 :=
          ⟨index - (paid ++ earned).length - 1, by omega⟩
        rw [hk, List.take_succ_cons]
        exact List.mem_cons_self
      have := hbefore first hfirst
      rw [(p.pending_mem first (by simp)).1] at this
      cases this

theorem Parts.confirmedAt (p : Parts g paid earned (m :: pending)) :
    Parts (g.confirmedAt (paid ++ earned).length m) paid (earned ++ [{ m with confirmed := true }])
      pending where
  milestones_eq := by
    show g.milestones.set _ _ = _
    rw [p.milestones_eq, List.set_append_right _ _ le_rfl, Nat.sub_self]
    simp
  paid_mem := p.paid_mem
  earned_mem := by
    apply forall_mem_snoc p.earned_mem
    exact ⟨rfl, (p.pending_mem m (by simp)).2⟩
  pending_mem m' hm' := p.pending_mem m' (List.mem_cons_of_mem m hm')
  positive m' hm' := by
    rcases List.mem_or_eq_of_mem_set hm' with hm' | rfl
    · exact p.positive m' hm'
    · exact p.positive_pending m (by simp)
  claimable_eq := by
    show g.claimable + m.amount = _
    simp [p.claimable_eq]
  pendingRefund_nonneg := p.pendingRefund_nonneg
  refunded_nonneg := p.refunded_nonneg
  conserved := by
    have := p.conserved
    rw [total_cons] at this
    show total paid + total (earned ++ [_]) + total pending + g.pendingRefund + g.refunded =
      g.totalAmount
    simp only [total_append, total_cons, total_nil]
    omega
  bounded := p.bounded
  amendments_le := p.amendments_le

/-- A confirmation cannot overflow, so where it is refused nothing was written. -/
theorem confirm_refused (p : Parts g paid earned pending) : FailsTo (confirm index) g g := by
  apply failsTo_get_bind
  refine failsTo_check_bind fun m hget => ?_
  refine failsTo_check_bind fun _ hbefore => ?_
  refine failsTo_check_bind fun _ hm => ?_
  apply failsTo_modify_bind
  have hfits : minI128 ≤ g.claimable + m.amount ∧ g.claimable + m.amount ≤ maxI128 := by
    simp only [okOr_eq_ok, bail_eq_ok, Bool.not_eq_true, List.any_eq_false, Bool.not_eq_true',
      Bool.not_eq_false] at hget hbefore hm
    obtain ⟨-, rest, rfl⟩ := p.next hget hbefore hm
    have hb := p.bounds
    have hpos := p.positive_pending m (by simp)
    have hrest := total_nonneg fun m' hm' => p.positive_pending m' (List.mem_cons_of_mem m hm')
    have hmin := minI128_le_zero
    have := p.pendingRefund_nonneg
    have := p.refunded_nonneg
    rw [total_cons] at hb
    rw [p.claimable_eq]
    constructor <;> omega
  exact failsTo_ok_bind ((i128Checked_eq_ok _ _ _).mpr ⟨hfits, rfl⟩)
    ((answers_modify _).failsTo _ _)

/-! ### Claims -/

/-- The grant with everything earned claimed. -/
def paidOut (g : Grant Address) : Grant Address :=
  { g with
    claimable := 0
    milestones := g.milestones.map fun m => if m.confirmed then { m with claimed := true } else m }

theorem claim_ok (h : claim g = (g', .ok amount)) :
    0 < g.claimable ∧ amount = g.claimable ∧ g' = g.paidOut := by
  simp only [claim, get_bind, check_bind_ok, modify_bind, bail_eq_ok, not_le, pure_ok] at h
  obtain ⟨_, hpos, rfl, rfl⟩ := h
  exact ⟨hpos, rfl, rfl⟩

theorem claim_atomic : Atomic (claim : Edit Address ℤ) := by
  apply atomic_get_bind fun g => ?_
  apply atomic_check_bind fun _ => ?_
  apply Answers.atomic
  exact (answers_modify _).bind fun _ => (answers_modify _).bind fun _ => answers_pure _

/-- A claim leaves what is paid, pays what is earned, and leaves what is pending. -/
theorem Parts.paidOut_milestones (p : Parts g paid earned pending) :
    g.paidOut.milestones =
      (paid ++ earned.map fun m => { m with claimed := true }) ++ [] ++ pending := by
  have hpaid :
      paid.map (fun m => if m.confirmed then { m with claimed := true } else m) = paid := by
    apply (List.map_congr_left fun m hm => ?_).trans (List.map_id paid)
    obtain ⟨hconfirmed, hclaimed⟩ := p.paid_mem m hm
    rw [if_pos hconfirmed, ← hclaimed]
    rfl
  have hearned : earned.map (fun m => if m.confirmed then { m with claimed := true } else m) =
      earned.map fun m => { m with claimed := true } := by
    apply List.map_congr_left
    intro m hm
    rw [if_pos (p.earned_mem m hm).1]
  have hpending : pending.map (fun m => if m.confirmed then { m with claimed := true } else m) =
      pending := by
    apply (List.map_congr_left fun m hm => ?_).trans (List.map_id pending)
    rw [if_neg (by simp [(p.pending_mem m hm).1])]
    rfl
  show g.milestones.map _ = _
  rw [p.milestones_eq, List.map_append, List.map_append, hpaid, hearned, hpending, List.append_nil]

theorem Parts.paidOut (p : Parts g paid earned pending) :
    Parts g.paidOut (paid ++ earned.map fun m => { m with claimed := true }) [] pending where
  milestones_eq := p.paidOut_milestones
  paid_mem := by
    rw [List.forall_mem_append]
    refine ⟨p.paid_mem, fun m' hm' => ?_⟩
    rcases List.mem_map.mp hm' with ⟨m, hm, rfl⟩
    exact ⟨(p.earned_mem m hm).1, rfl⟩
  earned_mem := nofun
  pending_mem := p.pending_mem
  positive m' hm' := by
    rcases List.mem_map.mp hm' with ⟨m, hm, rfl⟩
    split
    · exact p.positive m hm
    · exact p.positive m hm
  claimable_eq := rfl
  pendingRefund_nonneg := p.pendingRefund_nonneg
  refunded_nonneg := p.refunded_nonneg
  conserved := by
    have := p.conserved
    show total (paid ++ earned.map _) + total [] + total pending + g.pendingRefund + g.refunded =
      g.totalAmount
    rw [total_append, total_map (f := fun m => { m with claimed := true }) fun _ => rfl, total_nil]
    omega
  bounded := p.bounded
  amendments_le := p.amendments_le

end Grant

end RefractContracts.Lifecycle
