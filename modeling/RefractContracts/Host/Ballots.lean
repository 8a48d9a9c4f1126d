import Mathlib.Algebra.BigOperators.Group.Finset.Basic
import Mathlib.Data.Finset.Card
import Mathlib.Data.Fintype.Basic

/-! Votes of a panel. Each member votes once or not at all, so the members who cast one
kind of vote are disjoint from those who cast another, and a first vote adds one to its
own kind. All kinds together number the members who voted; when they number as many as
the panel has members, everyone has voted. -/

namespace RefractContracts.Host

open Finset

variable {M V : Type*} [DecidableEq V] {panel : Finset M} {votes : M → Option V}
  {m : M}

/-- The members who voted `v`. -/
def voters (panel : Finset M) (votes : M → Option V) (v : V) : Finset M :=
  panel.filter fun m => votes m = some v

@[simp] theorem mem_voters {v : V} : m ∈ voters panel votes v ↔ m ∈ panel ∧ votes m = some v :=
  mem_filter

theorem voters_eq_empty (h : ∀ m ∈ panel, votes m = none) (v : V) : voters panel votes v = ∅ := by
  apply filter_eq_empty_iff.mpr
  intro m hm hv
  rw [h m hm] at hv
  cases hv

/-- The kinds of votes together are the members who voted. -/
theorem sum_card_voters [Fintype V] (panel : Finset M) (votes : M → Option V) :
    ∑ v, (voters panel votes v).card = (panel.filter fun m => (votes m).isSome).card := by
  classical
  have hunion : (panel.filter fun m => (votes m).isSome) = univ.biUnion (voters panel votes) := by
    ext m
    simp [Option.isSome_iff_exists]
  rw [hunion, card_biUnion]
  intro v _ w _ hvw
  apply disjoint_filter.mpr
  intro m _ hv hw
  exact hvw (Option.some.inj (hv.symm.trans hw))

theorem sum_card_voters_le [Fintype V] (panel : Finset M) (votes : M → Option V) :
    ∑ v, (voters panel votes v).card ≤ panel.card := by
  rw [sum_card_voters]
  exact card_filter_le _ _

/-- Everyone has voted exactly when there are as many votes as members. -/
theorem forall_voted_iff [Fintype V] :
    (∀ m ∈ panel, (votes m).isSome) ↔ ∑ v, (voters panel votes v).card = panel.card := by
  rw [sum_card_voters, card_filter_eq_iff]

variable [DecidableEq M]

/-- A member who votes first counts for that vote, and for no other. -/
theorem card_voters_update (hm : m ∈ panel) (first : votes m = none) (v w : V) :
    (voters panel (Function.update votes m (some v)) w).card =
      (voters panel votes w).card + if v = w then 1 else 0 := by
  have hnew : m ∉ voters panel votes w := by simp [first]
  by_cases hvw : v = w
  · subst hvw
    have hinsert : voters panel (Function.update votes m (some v)) v =
        insert m (voters panel votes v) := by
      ext m'
      by_cases h : m' = m
      · simp [h, hm]
      · simp [h]
    rw [hinsert, card_insert_of_notMem hnew, if_pos rfl]
  · have hsame : voters panel (Function.update votes m (some v)) w = voters panel votes w := by
      ext m'
      by_cases h : m' = m
      · simp [h, hvw, first]
      · simp [h]
    rw [hsame, if_neg hvw, add_zero]

end RefractContracts.Host
