import RefractContracts.Grants.Model
import RefractContracts.Host.Storage

/-! The model's grants are schedules. Every operation either fails and writes
nothing, or starts a schedule, confirms its next amount or settles it; the sum
that `confirmMilestone` checks last never overflows. A grant that is a schedule
passes the check. -/

namespace RefractContracts.Grants

open Host Math

variable {Address : Type}

/-- The grant that stores a schedule. -/
def Grant.ofSchedule (recipient : Address) (s : Schedule) : Grant Address :=
  ⟨recipient, s.amounts.sum, s.marks .mk, s.due.sum⟩

/-- Every stored grant is a schedule. -/
def GrantsModel.Scheduled (m : GrantsModel Address) : Prop :=
  ∀ id grant, m.grants id = some grant → ∃ recipient s, grant = .ofSchedule recipient s

theorem foldl_amounts {ε : Type} {bad mismatch : ε} {l : List ℤ} {acc n : ℤ}
    (h : l.foldlM (fun sum amount => do
      bail (amount ≤ 0) bad
      i128Checked (sum + amount) mismatch : ℤ → ℤ → Outcome ε ℤ) acc = .ok n) :
    (∀ x ∈ l, 0 < x) ∧ n = acc + l.sum ∧ (acc ≤ maxI128 → n ≤ maxI128) := by
  induction l generalizing acc with
  | nil =>
    obtain rfl : acc = n := (pure_eq_ok _ _).mp h
    simp
  | cons a l ih =>
    simp only [List.foldlM_cons, bind_eq_ok, bail_eq_ok, not_le, i128Checked_eq_ok] at h
    obtain ⟨_, ⟨-, hpos, hfits, rfl⟩, h⟩ := h
    obtain ⟨hl, rfl, hmax⟩ := ih h
    exact ⟨List.forall_mem_cons.mpr ⟨hpos, hl⟩, by simp [add_assoc], fun _ => hmax hfits.2⟩

theorem sumMilestones_ok {l : List ℤ} {n : ℤ} (h : sumMilestones l = .ok n) :
    (∀ x ∈ l, 0 < x) ∧ l.sum = n ∧ l.sum ≤ maxI128 := by
  obtain ⟨hpos, hn, hmax⟩ := foldl_amounts h
  rw [zero_add] at hn
  exact ⟨hpos, hn.symm, hn ▸ hmax zero_le_maxI128⟩

namespace GrantsModel

variable {m m' : GrantsModel Address} {id : ℕ}

variable [DecidableEq Address] {caller recipient : Address}

theorem createGrant_cases (m : GrantsModel Address) (caller recipient : Address) (total : ℤ)
    (milestones : List ℤ) :
    (∃ e, m.createGrant caller recipient total milestones = (m, .error e)) ∨
      ∃ hp hf, m.createGrant caller recipient total milestones =
        ({ m.setGrant m.nextGrantId (.ofSchedule recipient (.start milestones hp hf)) with
          nextGrantId := m.nextGrantId + 1 }, .ok m.nextGrantId) := by
  unfold createGrant
  rcases m.writing_cases _ with ⟨e, -, h⟩ | ⟨next, a, hx, h⟩
  · exact .inl ⟨e, h⟩
  · simp only [bind_eq_ok, bail_eq_ok, not_not, u64_eq_ok, pure_eq_ok, Prod.mk.injEq] at hx
    obtain ⟨-, -, -, -, -, -, sum, hsum, -, rfl, _, ⟨-, rfl⟩, rfl, rfl⟩ := hx
    obtain ⟨hp, rfl, hf⟩ := sumMilestones_ok hsum
    refine .inr ⟨hp, hf, h.trans ?_⟩
    rw [Grant.ofSchedule, Schedule.marks_start, Schedule.amounts_start]
    rfl

/-- The next milestone of a schedule is its first amount ahead. -/
theorem nextMilestone_ofSchedule {s : Schedule} {index : ℕ} {grant : Grant Address}
    {milestone : Milestone} (hm : m.grants id = some (.ofSchedule recipient s))
    (h : m.nextMilestone caller id index = .ok (grant, milestone)) :
    ∃ a rest, ∃ hs : s.ahead = a :: rest, grant = .ofSchedule recipient s ∧
      milestone = ⟨a, false, false⟩ ∧
      (s.marks Milestone.mk).set index ⟨a, true, false⟩ = (s.confirm hs).marks Milestone.mk := by
  simp only [nextMilestone, bind_eq_ok, okOr_eq_ok, bail_eq_ok, pure_eq_ok, Prod.mk.injEq] at h
  obtain ⟨-, -, _, hgrant, -, -, -, hbefore, _, hindex, -, hun, rfl, rfl⟩ := h
  obtain rfl := Option.some.inj (hgrant.symm.trans hm)
  have hconf : ∀ x ∈ (s.marks Milestone.mk).take index, x.confirmed = true := by
    intro x hx
    by_contra hc
    exact hbefore ⟨x, hx, by simpa using hc⟩
  obtain ⟨a, rest, hs, rfl, hset⟩ :=
    s.next_of_confirmed (fun _ _ _ => rfl) hindex (by simpa using hun) hconf
  exact ⟨a, rest, hs, rfl, rfl, hset⟩

theorem nextMilestone_stored {index : ℕ} {grant : Grant Address} {milestone : Milestone}
    (h : m.nextMilestone caller id index = .ok (grant, milestone)) : m.grants id = some grant := by
  simp only [nextMilestone, bind_eq_ok, okOr_eq_ok, pure_eq_ok, Prod.mk.injEq] at h
  obtain ⟨-, -, _, hgrant, -, -, -, -, _, -, -, -, rfl, -⟩ := h
  exact hgrant

/-- The sum that a confirmation checks is of amounts that are not negative, and fits. -/
theorem Scheduled.confirm_fits {index : ℕ} {grant : Grant Address} {milestone : Milestone}
    (hm : m.Scheduled) (h : m.nextMilestone caller id index = .ok (grant, milestone)) :
    0 ≤ grant.claimable ∧ 0 ≤ milestone.amount ∧ grant.claimable + milestone.amount ≤ maxI128 := by
  obtain ⟨recipient, s, rfl⟩ := hm id grant (nextMilestone_stored h)
  obtain ⟨a, rest, hs, -, rfl, -⟩ := nextMilestone_ofSchedule (nextMilestone_stored h) h
  have hpos : 0 < a := s.positive a (by simp [hs])
  exact ⟨s.due_nonneg, hpos.le, s.due_confirm_le hs⟩

theorem confirmMilestone_cases (hm : m.Scheduled) (caller : Address) (id index : ℕ) :
    (∃ e, m.confirmMilestone caller id index = (m, .error e)) ∨
      ∃ recipient s a rest, ∃ hs : s.ahead = a :: rest,
        m.grants id = some (.ofSchedule recipient s) ∧
        m.confirmMilestone caller id index =
          (m.setGrant id (.ofSchedule recipient (s.confirm hs)), .ok ()) := by
  unfold confirmMilestone
  split
  · next e he => exact .inl ⟨e, rfl⟩
  · next grant milestone hnext =>
    have hstored := nextMilestone_stored hnext
    have hfits := hm.confirm_fits hnext
    obtain ⟨recipient, s, rfl⟩ := hm id grant hstored
    obtain ⟨a, rest, hs, -, rfl, hset⟩ := nextMilestone_ofSchedule hstored hnext
    refine .inr ⟨recipient, s, a, rest, hs, hstored, ?_⟩
    dsimp only [Grant.ofSchedule] at hfits ⊢
    rw [checkedAdd_eq hfits.1 hfits.2.1 hfits.2.2, hset, Schedule.amounts_confirm]
    simp [Schedule.confirm, mapErr]

theorem claim_cases (hm : m.Scheduled) (recipient : Address) (id : ℕ) :
    (∃ e, m.claim recipient id = (m, .error e)) ∨
      ∃ s, m.grants id = some (.ofSchedule recipient s) ∧
        m.claim recipient id = (m.setGrant id (.ofSchedule recipient s.settle), .ok s.due.sum) := by
  unfold claim
  rcases m.writing_cases _ with ⟨e, -, h⟩ | ⟨next, a, hx, h⟩
  · exact .inl ⟨e, h⟩
  · simp only [bind_eq_ok, okOr_eq_ok, bail_eq_ok, not_not, pure_eq_ok, Prod.mk.injEq] at hx
    obtain ⟨grant, hgrant, -, rfl, -, -, rfl, rfl⟩ := hx
    obtain ⟨r, s, rfl⟩ := hm id grant hgrant
    refine .inr ⟨s, hgrant, h.trans ?_⟩
    dsimp only [Grant.ofSchedule]
    rw [s.marks_settle Milestone.mk (by simp) (by simp), Schedule.amounts_settle]
    simp [Schedule.settle]

/-! ### Runs -/

/-- What an operation does to the grants: a schedule starts under the next id, or a
stored one goes on. -/
inductive Move (m : GrantsModel Address) : GrantsModel Address → Prop
  | started {recipient : Address} {amounts : List ℤ} {hp hf} :
      Move m { m.setGrant m.nextGrantId (.ofSchedule recipient (.start amounts hp hf)) with
        nextGrantId := m.nextGrantId + 1 }
  | confirmed {id : ℕ} {recipient : Address} {s : Schedule} {a : ℤ} {rest : List ℤ}
      {hs : s.ahead = a :: rest} (stored : m.grants id = some (.ofSchedule recipient s)) :
      Move m (m.setGrant id (.ofSchedule recipient (s.confirm hs)))
  | settled {id : ℕ} {recipient : Address} {s : Schedule}
      (stored : m.grants id = some (.ofSchedule recipient s)) :
      Move m (m.setGrant id (.ofSchedule recipient s.settle))

abbrev Moves : GrantsModel Address → GrantsModel Address → Prop := Relation.ReflTransGen Move

omit [DecidableEq Address] in
theorem Move.scheduled (mv : Move m m') (hm : m.Scheduled) : m'.Scheduled := by
  cases mv with
  | started => exact forall_update hm rfl ⟨_, _, rfl⟩
  | confirmed => exact forall_update hm rfl ⟨_, _, rfl⟩
  | settled => exact forall_update hm rfl ⟨_, _, rfl⟩

omit [DecidableEq Address] in
/-- What every move keeps holds after any moves. -/
theorem Moves.keep {I : GrantsModel Address → Prop} (step : ∀ {m m'}, Move m m' → I m → I m')
    (mv : Moves m m') (init : I m) : I m' := by
  induction mv with
  | refl => exact init
  | tail _ mv ih => exact step mv ih

omit [DecidableEq Address] in
theorem Moves.scheduled (mv : Moves m m') (hm : m.Scheduled) : m'.Scheduled :=
  mv.keep Move.scheduled hm

theorem createGrant_moves (m : GrantsModel Address) (caller recipient : Address) (total : ℤ)
    (milestones : List ℤ) : Moves m (m.createGrant caller recipient total milestones).1 := by
  rcases m.createGrant_cases caller recipient total milestones with ⟨e, h⟩ | ⟨hp, hf, h⟩
  · rw [h]
  · rw [h]
    exact .single .started

theorem confirmMilestone_moves (hm : m.Scheduled) (caller : Address) (id index : ℕ) :
    Moves m (m.confirmMilestone caller id index).1 := by
  rcases confirmMilestone_cases hm caller id index with ⟨e, h⟩ | ⟨r, s, a, rest, hs, stored, h⟩
  · rw [h]
  · rw [h]
    exact .single (.confirmed stored)

theorem claim_moves (hm : m.Scheduled) (recipient : Address) (id : ℕ) :
    Moves m (m.claim recipient id).1 := by
  rcases claim_cases hm recipient id with ⟨e, h⟩ | ⟨s, stored, h⟩
  · rw [h]
  · rw [h]
    exact .single (.settled stored)

theorem apply_moves (hm : m.Scheduled) (caller : Address) (operation : GrantsOp Address) :
    Moves m (m.apply caller operation).1 := by
  cases operation with
  | create recipient total milestones => exact m.createGrant_moves caller recipient total milestones
  | confirm id index => exact confirmMilestone_moves hm caller id index

theorem stage_moves {operations : List (GrantsOp Address)} {index : ℕ} (hm : m.Scheduled)
    (h : stage caller m index operations = .ok m') : Moves m m' := by
  induction operations generalizing m index with
  | nil =>
    obtain rfl : m = m' := Except.ok.inj h
    exact .refl
  | cons operation operations ih =>
    have hnext := apply_moves hm caller operation
    rw [GrantsModel.stage] at h
    split at h
    · next staged happly =>
      rw [happly] at hnext
      exact hnext.trans (ih (hnext.scheduled hm) h)
    · cases h
    · cases h

theorem batch_moves (hm : m.Scheduled) (caller : Address) (operations : List (GrantsOp Address)) :
    Moves m (m.batch caller operations).1 := by
  unfold GrantsModel.batch
  rcases m.writing_cases _ with ⟨e, -, h⟩ | ⟨next, a, hx, h⟩
  · rw [h]
  · rw [h]
    simp only [bind_eq_ok, pure_eq_ok, Prod.mk.injEq] at hx
    obtain ⟨-, -, -, -, staged, hstage, rfl, -⟩ := hx
    exact stage_moves hm hstage

theorem machine_moves (hm : m.Scheduled) (call : GrantsCall Address) :
    Moves m (GrantsModel.machine m call).1 := by
  cases call with
  | createGrant caller recipient total milestones =>
    exact m.createGrant_moves caller recipient total milestones
  | confirmMilestone caller id index => exact confirmMilestone_moves hm caller id index
  | claim recipient id => exact claim_moves hm recipient id
  | batch caller operations => exact batch_moves hm caller operations

theorem run_moves (hm : m.Scheduled) (calls : List (GrantsCall Address)) :
    Moves m (GrantsModel.machine.run m calls).1 := by
  induction calls generalizing m with
  | nil => exact .refl
  | cons call calls ih =>
    have hcall := machine_moves hm call
    exact hcall.trans (ih (hcall.scheduled hm))

omit [DecidableEq Address] in
theorem scheduled_new (governance : Address) : (new governance).Scheduled := by
  intro id grant h
  cases h

end GrantsModel

/-! ### The check -/

/-- What the check stands for. -/
structure Consistent (grant : Grant Address) : Prop where
  total : (grant.milestones.map (·.amount)).sum = grant.totalAmount
  ordered : grant.milestones.Pairwise fun earlier later =>
    later.confirmed = true → earlier.confirmed = true
  claimed : ∀ milestone ∈ grant.milestones, milestone.claimed = true → milestone.confirmed = true
  claimable : ((grant.milestones.filter fun milestone =>
    milestone.confirmed && !milestone.claimed).map (·.amount)).sum = grant.claimable

theorem consistent_ofSchedule (recipient : Address) (s : Schedule) :
    Consistent (.ofSchedule recipient s) where
  total := by simp [Grant.ofSchedule, Schedule.marks, Schedule.amounts, Function.comp_def]
  ordered := by
    simp only [Grant.ofSchedule, Schedule.marks, List.pairwise_append, List.pairwise_map,
      List.mem_append, List.mem_map]
    refine ⟨List.pairwise_of_forall fun _ _ _ => trivial,
      ⟨List.pairwise_of_forall fun _ _ _ => trivial, List.pairwise_of_forall fun _ _ => ?_, ?_⟩, ?_⟩
    · rintro ⟨⟩
    · rintro _ ⟨x, -, rfl⟩ _ ⟨y, -, rfl⟩ -
      rfl
    · rintro _ ⟨x, -, rfl⟩ _ - -
      rfl
  claimed := by
    simp only [Grant.ofSchedule, Schedule.marks, List.mem_append, List.mem_map]
    rintro _ (⟨x, -, rfl⟩ | ⟨x, -, rfl⟩ | ⟨x, -, rfl⟩) <;> simp
  claimable := by
    simp [Grant.ofSchedule, Schedule.marks, List.filter_append, List.filter_map, Function.comp_def]

/-- The sum of nonnegative amounts is not cut off while it fits. -/
theorem sum_fold {l : List Milestone} {acc : ℤ} (hacc : 0 ≤ acc) (hl : ∀ x ∈ l, 0 ≤ x.amount)
    (hfits : acc + (l.map (·.amount)).sum ≤ maxI128) :
    l.foldlM (fun sum milestone => i128Option (sum + milestone.amount)) acc =
      some (acc + (l.map (·.amount)).sum) := by
  induction l generalizing acc with
  | nil => simp
  | cons x l ih =>
    rw [List.forall_mem_cons] at hl
    have hrest : 0 ≤ (l.map (·.amount)).sum := List.sum_nonneg (by simpa using hl.2)
    simp only [List.map_cons, List.sum_cons] at hfits ⊢
    have hstep : i128Option (acc + x.amount) = some (acc + x.amount) :=
      i128Option_of_nonneg (by omega) (by omega)
    rw [List.foldlM_cons, hstep, Option.bind_eq_bind, Option.bind_some,
      ih (by omega) hl.2 (by omega), add_assoc]

section Rounds
variable {b : Bool} {unclaimed : ℤ} {amounts : List ℤ}

theorem check_paid : (amounts.map (Milestone.mk · true true)).foldlM checkMilestone
    (false, unclaimed) = .ok (false, unclaimed) := by
  induction amounts with
  | nil => rfl
  | cons a amounts ih => exact ih

theorem check_due (hu : 0 ≤ unclaimed) (ha : ∀ x ∈ amounts, 0 ≤ x)
    (hfits : unclaimed + amounts.sum ≤ maxI128) :
    (amounts.map (Milestone.mk · true false)).foldlM checkMilestone (false, unclaimed) =
      .ok (false, unclaimed + amounts.sum) := by
  induction amounts generalizing unclaimed with
  | nil => simp [pure, Except.pure]
  | cons a amounts ih =>
    rw [List.forall_mem_cons] at ha
    have hrest := List.sum_nonneg ha.2
    have hmin := minI128_le_zero
    rw [List.sum_cons] at hfits ⊢
    have hround : checkMilestone (false, unclaimed) ⟨a, true, false⟩ =
        .ok (false, unclaimed + a) := by
      simp [checkMilestone, i128SaturatingAdd_eq (a := unclaimed) (b := a) (by omega) (by omega)]
    rw [List.map_cons, List.foldlM_cons, hround]
    exact (ih (by omega) ha.2 (by omega)).trans (by rw [add_assoc])

theorem check_ahead : ∃ seen, (amounts.map (Milestone.mk · false false)).foldlM checkMilestone
    (b, unclaimed) = .ok (seen, unclaimed) := by
  induction amounts generalizing b with
  | nil => exact ⟨b, rfl⟩
  | cons a amounts ih => exact ih (b := true)

end Rounds

theorem checkGrant_ofSchedule (recipient : Address) (s : Schedule) :
    checkGrant (.ofSchedule recipient s) = .ok () := by
  have hpos : ∀ x ∈ s.amounts, 0 ≤ x := fun x hx => (s.positive x hx).le
  have hmap : (s.marks Milestone.mk).map (·.amount) = s.amounts := by
    simp [Schedule.marks, Schedule.amounts, Function.comp_def]
  have hsum := sum_fold (l := s.marks Milestone.mk) le_rfl
    (fun x hx => hpos _ (hmap ▸ List.mem_map_of_mem hx)) (by rw [zero_add, hmap]; exact s.fits)
  rw [hmap, zero_add] at hsum
  have hrounds : ∃ seen, (s.marks Milestone.mk).foldlM checkMilestone (false, 0) =
      .ok (seen, s.due.sum) := by
    obtain ⟨seen, hahead⟩ : ∃ seen, (s.ahead.map (Milestone.mk · false false)).foldlM checkMilestone
        (false, s.due.sum) = .ok (seen, s.due.sum) := check_ahead
    refine ⟨seen, ?_⟩
    rw [Schedule.marks, List.foldlM_append, check_paid]
    change List.foldlM _ _ (_ ++ _) = _
    rw [List.foldlM_append, check_due le_rfl (fun x hx => hpos x (by simp [Schedule.amounts, hx]))
      (by rw [zero_add]; exact s.due_le), zero_add]
    exact hahead
  obtain ⟨seen, hrounds⟩ := hrounds
  simp [checkGrant, Grant.ofSchedule, hsum, hrounds, bind, Except.bind, pure, Except.pure]

/-- In every state the model reaches, every grant passes the check and is what the
check stands for. -/
theorem checkGrant_run [DecidableEq Address] (governance : Address)
    (calls : List (GrantsCall Address)) (id : ℕ) (grant : Grant Address)
    (h : (GrantsModel.machine.run (.new governance) calls).1.grants id = some grant) :
    checkGrant grant = .ok () ∧ Consistent grant := by
  have hnew := GrantsModel.scheduled_new governance
  obtain ⟨recipient, s, rfl⟩ := (GrantsModel.run_moves hnew calls).scheduled hnew id grant h
  exact ⟨checkGrant_ofSchedule recipient s, consistent_ofSchedule recipient s⟩

/-- A grant of two milestones, the first of which is confirmed and claimed. -/
def firstClaimed : List (GrantsCall ℕ) :=
  [.createGrant 1 2 300 [100, 200], .confirmMilestone 1 0 0, .claim 2 0]

theorem checkGrant_run_firstClaimed :
    let grant : Grant ℕ := ⟨2, 300, [⟨100, true, true⟩, ⟨200, false, false⟩], 0⟩
    checkGrant grant = .ok () ∧ Consistent grant :=
  checkGrant_run 1 firstClaimed 0 _ rfl

end RefractContracts.Grants
