import RefractContracts.Grants.Consistency
import RefractContracts.Host.Total

/-! What a rescue may take. All grants are stored under ids below the next one, and each owes
its unclaimed amounts. The model adds them up with saturation, so its liabilities are the
exact sum cut off at the largest amount, and a rescue can succeed only where nothing was cut
off: no live balance exceeds that bound. -/

namespace RefractContracts.Grants

open Host

variable {Address : Type}

/-- The amounts of a grant that are not claimed yet. -/
def Grant.unclaimed (grant : Grant Address) : List ℤ :=
  (grant.milestones.filter fun milestone => !milestone.claimed).map (·.amount)

def Grant.owed (grant : Grant Address) : ℤ := grant.unclaimed.sum

namespace GrantsModel

variable {m m' : GrantsModel Address}

/-- Ids are taken in order. -/
def Numbered (m : GrantsModel Address) : Prop :=
  ∀ id grant, m.grants id = some grant → id < m.nextGrantId

theorem Move.numbered (mv : Move m m') (hm : m.Numbered) : m'.Numbered := by
  have hset {id bound : ℕ} {grant : Grant Address} (hid : id < bound)
      (hle : m.nextGrantId ≤ bound) :
      ∀ id' grant', (m.setGrant id grant).grants id' = some grant' → id' < bound :=
    forall_update (P := fun id _ => id < bound)
      (fun id' grant' h => (hm id' grant' h).trans_le hle) rfl hid
  cases mv with
  | started => exact hset (Nat.lt_succ_self _) (Nat.le_succ _)
  | confirmed stored => exact hset (hm _ _ stored) le_rfl
  | settled stored => exact hset (hm _ _ stored) le_rfl

theorem Moves.numbered (mv : Moves m m') (hm : m.Numbered) : m'.Numbered :=
  mv.keep Move.numbered hm

theorem numbered_new (governance : Address) : (new governance).Numbered := nofun

/-- The unclaimed amounts of a schedule are positive, and their sum fits. -/
theorem owed_ofSchedule (recipient : Address) (s : Schedule) :
    (∀ x ∈ (Grant.ofSchedule recipient s).unclaimed, 0 ≤ x) ∧
      (Grant.ofSchedule recipient s).owed ≤ maxI128 := by
  have hunclaimed : (Grant.ofSchedule recipient s).unclaimed = s.due ++ s.ahead := by
    simp [Grant.unclaimed, Grant.ofSchedule, Schedule.marks, List.filter_append, List.filter_map,
      Function.comp_def]
  have hpositive := s.positive
  rw [Grant.owed, hunclaimed]
  constructor
  · intro x hx
    rw [List.append_assoc] at hpositive
    exact (hpositive x (List.mem_append_right _ hx)).le
  · have hfits : s.amounts.sum ≤ maxI128 := s.fits
    have hpaid := s.paid_nonneg
    rw [s.sum_amounts] at hfits
    rw [List.sum_append]
    omega

/-- The accounted liabilities are what is owed, cut off at the largest amount. -/
theorem accountedLiabilities_eq (hm : m.Scheduled) (hn : m.Numbered) :
    ∃ total, HasTotal (valueAt m.grants Grant.owed) total ∧
      m.accountedLiabilities = min total maxI128 := by
  have hvalues : ∀ grant ∈ m.values, ∃ recipient s, grant = .ofSchedule recipient s := by
    intro grant hgrant
    obtain ⟨id, -, hid⟩ := List.mem_filterMap.mp hgrant
    exact hm id grant hid
  have hgrant : ∀ grant ∈ m.values,
      (grant.milestones.filter fun milestone => !milestone.claimed).foldl
        (fun mAcc milestone => i128SaturatingAdd mAcc milestone.amount) 0 = grant.owed := by
    intro grant hgrant
    obtain ⟨recipient, s, rfl⟩ := hvalues grant hgrant
    obtain ⟨hnonneg, hfits⟩ := owed_ofSchedule recipient s
    have hfold := foldl_i128SaturatingAdd_zero hnonneg
    rwa [Grant.unclaimed, List.foldl_map, ← Grant.unclaimed, ← Grant.owed,
      min_eq_left hfits] at hfold
  have hnonneg : ∀ x ∈ m.values.map Grant.owed, 0 ≤ x := by
    intro x hx
    obtain ⟨grant, hgrant, rfl⟩ := List.mem_map.mp hx
    obtain ⟨recipient, s, rfl⟩ := hvalues grant hgrant
    exact List.sum_nonneg (owed_ofSchedule recipient s).1
  refine ⟨(m.values.map Grant.owed).sum, hasTotal_filterMap_range hn, ?_⟩
  rw [← foldl_i128SaturatingAdd_zero hnonneg, List.foldl_map]
  exact List.foldl_ext _ _ 0 fun acc grant h => congrArg (i128SaturatingAdd acc) (hgrant grant h)

variable [DecidableEq Address]

/-- A rescue leaves at least what all grants of a reachable model owe, and answers with no
more than what remains above that. -/
theorem rescue_safe (governance : Address) (calls : List (GrantsCall Address))
    (caller token to_ : Address) (amount liveBalance : I128) {left : ℤ}
    (h : (machine.run (.new governance) calls).1.rescue caller token to_ amount liveBalance =
      .ok left) :
    ∃ total, HasTotal (valueAt (machine.run (.new governance) calls).1.grants Grant.owed) total ∧
      total ≤ liveBalance - amount ∧ left ≤ liveBalance - amount - total := by
  have hmoves := run_moves (scheduled_new governance) calls
  obtain ⟨total, htotal, hliabilities⟩ := accountedLiabilities_eq
    (hmoves.scheduled (scheduled_new governance)) (hmoves.numbered (numbered_new governance))
  refine ⟨total, htotal, ?_⟩
  simp only [rescue, bind_eq_ok, bail_eq_ok, mapErr_eq_ok, Math.checkedSub_eq_ok, not_le,
    not_lt] at h
  obtain ⟨-, -, -, -, -, hamount, -, -, -, hexcess, rfl⟩ := h
  have hlive := liveBalance.2.2
  have hmin := minI128_le_zero
  rw [hliabilities, i128SaturatingSub] at hexcess ⊢
  omega

/-- One grant of two amounts, of which the first is confirmed and claimed. -/
theorem rescue_safe_claimed : ∃ total,
    HasTotal (valueAt (machine.run (.new 1) [.createGrant 1 2 30 [10, 20], .confirmMilestone 1 0 0,
      .claim 2 0]).1.grants Grant.owed) total ∧ total ≤ 25 - 5 ∧ 0 ≤ 25 - 5 - total :=
  rescue_safe 1 _ 1 7 1 ⟨5, by decide⟩ ⟨25, by decide⟩ (by decide)

end GrantsModel

end RefractContracts.Grants
