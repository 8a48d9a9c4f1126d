import Mathlib.Algebra.BigOperators.Group.Finset.Basic
import Mathlib.Algebra.Order.BigOperators.Group.Finset
import Mathlib.Tactic

/-! Totals of maps over an unbounded key space. A contract keeps one entry for
each address or id ever used, so a map has finitely many nonzero values and a
total. Updating one key moves the total by the change at that key. -/

namespace RefractContracts.Host

/-- `f` is zero outside a finite set of keys, over which it sums to `n`. -/
def HasTotal {κ : Type*} (f : κ → ℤ) (n : ℤ) : Prop :=
  ∃ S : Finset κ, (∀ k ∉ S, f k = 0) ∧ ∑ k ∈ S, f k = n

namespace HasTotal

variable {κ : Type*} {f g : κ → ℤ} {n m : ℤ}

theorem zero : HasTotal (fun _ : κ => 0) 0 := ⟨∅, by simp, by simp⟩

/-- The total over any finite set of keys that covers the support. -/
theorem sum_eq (h : HasTotal f n) {S : Finset κ} (hS : ∀ k ∉ S, f k = 0) : ∑ k ∈ S, f k = n := by
  classical
  obtain ⟨T, hT, rfl⟩ := h
  calc ∑ k ∈ S, f k = ∑ k ∈ S ∪ T, f k :=
        Finset.sum_subset Finset.subset_union_left (fun k _ hk => hS k hk)
    _ = ∑ k ∈ T, f k :=
        (Finset.sum_subset Finset.subset_union_right (fun k _ hk => hT k hk)).symm

/-- Two totals are taken over the same keys. -/
theorem common_keys (h : HasTotal f n) (h' : HasTotal g m) :
    ∃ S : Finset κ, (∀ k ∉ S, f k = 0 ∧ g k = 0) ∧ ∑ k ∈ S, f k = n ∧ ∑ k ∈ S, g k = m := by
  classical
  obtain ⟨S, hS, -⟩ := id h
  obtain ⟨T, hT, -⟩ := id h'
  have cover : ∀ k ∉ S ∪ T, f k = 0 ∧ g k = 0 := by
    intro k hk
    rw [Finset.notMem_union] at hk
    exact ⟨hS k hk.1, hT k hk.2⟩
  exact ⟨S ∪ T, cover, h.sum_eq fun k hk => (cover k hk).1, h'.sum_eq fun k hk => (cover k hk).2⟩

theorem congr (h : HasTotal f n) (hfg : ∀ k, f k = g k) (hnm : n = m) : HasTotal g m := by
  obtain rfl : f = g := funext hfg
  rwa [← hnm]

theorem add (h : HasTotal f n) (h' : HasTotal g m) : HasTotal (fun k => f k + g k) (n + m) := by
  obtain ⟨S, hS, hf, hg⟩ := h.common_keys h'
  refine ⟨S, fun k hk => ?_, ?_⟩
  · simp only [hS k hk, add_zero]
  · rw [Finset.sum_add_distrib, hf, hg]

theorem mul_right (h : HasTotal f n) (c : ℤ) : HasTotal (fun k => f k * c) (n * c) := by
  obtain ⟨S, hS, rfl⟩ := h
  exact ⟨S, fun k hk => by simp only [hS k hk, zero_mul], (Finset.sum_mul _ _ _).symm⟩

/-- Changing the value at one key moves the total by the change. -/
theorem update [DecidableEq κ] (h : HasTotal f n) (k : κ) (v : ℤ) :
    HasTotal (Function.update f k v) (n - f k + v) := by
  obtain ⟨S, hS, rfl⟩ := h
  refine ⟨insert k S, fun j hj => ?_, ?_⟩
  · rw [Finset.mem_insert, not_or] at hj
    rw [Function.update_of_ne hj.1, hS j hj.2]
  · have hf : ∑ j ∈ insert k S, f j = ∑ j ∈ S, f j := by
      refine (Finset.sum_subset (Finset.subset_insert k S) (fun j _ hj => hS j hj)).symm
    have hk := Finset.mem_insert_self k S
    rw [← hf, ← Finset.add_sum_erase _ _ hk, ← Finset.add_sum_erase _ f hk, Function.update_self,
      Finset.sum_congr rfl fun j hj => Function.update_of_ne (Finset.ne_of_mem_erase hj) _ _]
    ring

/-- The same for a map that is known to agree with the old one outside `k`. -/
theorem change [DecidableEq κ] (h : HasTotal f n) (k : κ) (hg : ∀ j, j ≠ k → g j = f j) :
    HasTotal g (n - f k + g k) := by
  refine (h.update k (g k)).congr (fun j => ?_) rfl
  by_cases hj : j = k
  · rw [hj, Function.update_self]
  · rw [Function.update_of_ne hj, hg j hj]

/-- A total over two kinds of keys is the sum of the totals over each. -/
theorem of_sum {ι : Type*} {f : κ ⊕ ι → ℤ} (h : HasTotal f n) :
    ∃ a b, HasTotal (fun k => f (.inl k)) a ∧ HasTotal (fun i => f (.inr i)) b ∧ n = a + b := by
  obtain ⟨S, hS, rfl⟩ := h
  refine ⟨∑ k ∈ S.toLeft, f (.inl k), ∑ i ∈ S.toRight, f (.inr i),
    ⟨S.toLeft, fun k hk => hS _ ?_, rfl⟩, ⟨S.toRight, fun i hi => hS _ ?_, rfl⟩, ?_⟩
  · simpa using hk
  · simpa using hi
  · rw [← Finset.sum_disjSum, Finset.toLeft_disjSum_toRight]

theorem mono (h : HasTotal f n) (h' : HasTotal g m) (hfg : ∀ k, f k ≤ g k) : n ≤ m := by
  obtain ⟨S, -, rfl, rfl⟩ := h.common_keys h'
  exact Finset.sum_le_sum fun k _ => hfg k

theorem nonneg (h : HasTotal f n) (hf : ∀ k, 0 ≤ f k) : 0 ≤ n :=
  zero.mono h hf

/-- Finitely many keys hold at most the total of a nonnegative map. -/
theorem sum_le (h : HasTotal f n) (hf : ∀ k, 0 ≤ f k) (S : Finset κ) : ∑ k ∈ S, f k ≤ n := by
  classical
  obtain ⟨T, hT, -⟩ := id h
  calc ∑ k ∈ S, f k ≤ ∑ k ∈ S ∪ T, f k :=
        Finset.sum_le_sum_of_subset_of_nonneg Finset.subset_union_left (fun k _ _ => hf k)
    _ = n := h.sum_eq fun k hk => hT k (mt (Finset.mem_union_right S) hk)

theorem single_le (h : HasTotal f n) (hf : ∀ k, 0 ≤ f k) (k : κ) : f k ≤ n := by
  simpa using h.sum_le hf {k}

/-- A map that vanishes wherever one with a total does has a total as well. -/
theorem exists_of_support (h : HasTotal f n) (hg : ∀ k, f k = 0 → g k = 0) : ∃ m, HasTotal g m := by
  obtain ⟨S, hS, -⟩ := h
  exact ⟨_, S, fun k hk => hg k (hS k hk), rfl⟩

end HasTotal

/-! ### Stored entries -/

section Stored
variable {κ α : Type*} {g : κ → Option α} {f : α → ℤ} {k : κ} {a b : α} {n : ℤ}

/-- What the entry of `k` counts for. -/
def valueAt (g : κ → Option α) (f : α → ℤ) (k : κ) : ℤ := ((g k).map f).getD 0

theorem valueAt_some (h : g k = some a) : valueAt g f k = f a := by
  simp [valueAt, h]

theorem valueAt_none (h : g k = none) : valueAt g f k = 0 := by
  simp [valueAt, h]

theorem valueAt_nonneg (h : ∀ k a, g k = some a → 0 ≤ f a) (k : κ) : 0 ≤ valueAt g f k := by
  cases hk : g k with
  | none => rw [valueAt_none hk]
  | some a =>
    rw [valueAt_some hk]
    exact h k a hk

/-- Writing one entry moves the total by what it counts for. -/
theorem HasTotal.write [DecidableEq κ] (h : HasTotal (valueAt g f) n) (k : κ) (b : α) :
    HasTotal (valueAt (Function.update g k (some b)) f) (n - valueAt g f k + f b) := by
  refine (h.change (g := valueAt (Function.update g k (some b)) f) k fun j hj => ?_).congr
    (fun _ => rfl) ?_
  · rw [valueAt, Function.update_of_ne hj]
    rfl
  · rw [valueAt_some (Function.update_self k (some b) g)]

/-- The entries under numbers below `n` add up to the total if there are no others. -/
theorem hasTotal_filterMap_range {g : ℕ → Option α} {n : ℕ} (h : ∀ k a, g k = some a → k < n) :
    HasTotal (valueAt g f) (((List.range n).filterMap g).map f).sum := by
  have hsum (l : List ℕ) : ((l.filterMap g).map f).sum = (l.map (valueAt g f)).sum := by
    induction l with
    | nil => rfl
    | cons k l ih =>
      rw [List.map_cons, List.sum_cons, ← ih]
      cases hk : g k with
      | none => rw [List.filterMap_cons_none hk, valueAt_none hk, zero_add]
      | some a => rw [List.filterMap_cons_some hk, valueAt_some hk, List.map_cons, List.sum_cons]
  refine ⟨Finset.range n, fun k hk => ?_, ?_⟩
  · cases hk' : g k with
    | none => exact valueAt_none hk'
    | some a => exact absurd (Finset.mem_range.mpr (h k a hk')) hk
  · rw [hsum]
    rfl

theorem HasTotal.insert [DecidableEq κ] (h : HasTotal (valueAt g f) n) (fresh : g k = none)
    (b : α) : HasTotal (valueAt (Function.update g k (some b)) f) (n + f b) := by
  refine (h.write k b).congr (fun _ => rfl) ?_
  rw [valueAt_none fresh, sub_zero]

theorem HasTotal.replace [DecidableEq κ] (h : HasTotal (valueAt g f) n) (stored : g k = some a)
    (b : α) : HasTotal (valueAt (Function.update g k (some b)) f) (n - f a + f b) := by
  refine (h.write k b).congr (fun _ => rfl) ?_
  rw [valueAt_some stored]

end Stored

end RefractContracts.Host
