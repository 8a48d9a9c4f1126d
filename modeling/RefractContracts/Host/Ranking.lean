import Mathlib.Data.List.Sort
import Mathlib.Order.Lattice
import Mathlib.Tactic

/-! Rankings and weighted averages. Entries sorted by a key that no two of them share are in
the only order by it, and the entries taken from the front rank before all others. A weighted
average of scores, rounded down, lies between the lowest and the highest score. -/

namespace RefractContracts.Host

universe u v

/-! ### Sorted entries -/

section Sorted
variable {α : Type u} {β : Type v} [LinearOrder β] {f : α → β} {r : α → α → Prop} [DecidableRel r]

theorem pairwise_sortOn (hr : ∀ a b, r a b ↔ f a ≤ f b) (l : List α) :
    (l.insertionSort r).Pairwise fun a b => f a ≤ f b := by
  have : Std.Total r := ⟨fun a b => by simpa only [hr] using le_total (f a) (f b)⟩
  have : IsTrans α r := ⟨fun a b c => by simpa only [hr] using le_trans⟩
  exact (List.pairwise_insertionSort r l).imp fun h => (hr _ _).mp h

/-- Sorted by a key that no two entries share. -/
theorem pairwise_sortOn_lt (hr : ∀ a b, r a b ↔ f a ≤ f b) {l : List α} (hl : (l.map f).Nodup) :
    (l.insertionSort r).Pairwise fun a b => f a < f b := by
  have hperm : ((l.insertionSort r).map f).Perm (l.map f) := (List.perm_insertionSort r l).map f
  have hne := List.pairwise_map.mp (hperm.nodup_iff.mpr hl)
  exact ((pairwise_sortOn hr l).and hne).imp fun h => lt_of_le_of_ne h.1 h.2

variable {l m : List α}

/-- Two lists of the same entries, both sorted. -/
theorem eq_of_perm_of_sorted (hp : l.Perm m) (hl : l.Pairwise fun a b => f a < f b)
    (hm : m.Pairwise fun a b => f a < f b) : l = m :=
  hp.eq_of_pairwise (fun _ _ _ _ hab hba => absurd hba hab.asymm) hl hm

end Sorted

/-- What is taken from the front comes before everything that is not. -/
theorem rel_of_mem_take {α : Type u} {R : α → α → Prop} {l : List α} {k : ℕ} {a b : α}
    (hl : l.Pairwise R) (ha : a ∈ l.take k) (hb : b ∈ l) (hrest : b ∉ l.take k) : R a b := by
  rw [← List.take_append_drop k l] at hl hb
  have hdrop : b ∈ l.drop k := (List.mem_append.mp hb).resolve_left hrest
  exact (List.pairwise_append.mp hl).2.2 a ha b hdrop

/-! ### Weighted averages -/

section Average
variable {ι : Type u} {score score' weight : ι → ℕ} {l : List ι} {n : ℕ}

theorem weighted_mono (weight : ι → ℕ) (h : ∀ i ∈ l, score i ≤ score' i) :
    (l.map fun i => score i * weight i).sum ≤ (l.map fun i => score' i * weight i).sum :=
  List.sum_le_sum fun i hi => Nat.mul_le_mul_right _ (h i hi)

theorem sum_mul_weight (n : ℕ) (weight : ι → ℕ) (l : List ι) :
    (l.map fun i => n * weight i).sum = n * (l.map weight).sum :=
  List.sum_map_mul_left ..

theorem average_le (weight : ι → ℕ) (hn : ∀ i ∈ l, score i ≤ n) :
    (l.map fun i => score i * weight i).sum ≤ n * (l.map weight).sum := by
  rw [← sum_mul_weight]
  exact weighted_mono weight hn

/-- Some score is at most the average, rounded down. -/
theorem exists_le_average (score : ι → ℕ) (hpos : 0 < (l.map weight).sum) :
    ∃ i ∈ l, score i ≤ (l.map fun i => score i * weight i).sum / (l.map weight).sum := by
  by_contra hall
  push Not at hall
  -- else every score is above it by one, and so would their average be
  have hle := weighted_mono weight hall
  rw [sum_mul_weight, ← Nat.le_div_iff_mul_le hpos] at hle
  exact absurd hle (Nat.not_succ_le_self _)

/-- Some score is at least the average. -/
theorem exists_average_le (score : ι → ℕ) (hpos : 0 < (l.map weight).sum) :
    ∃ i ∈ l, (l.map fun i => score i * weight i).sum / (l.map weight).sum ≤ score i := by
  by_contra hall
  push Not at hall
  have hle := average_le weight fun i hi => Nat.succ_le_of_lt (hall i hi)
  simp only [Nat.succ_mul, List.sum_map_add] at hle
  have hdiv := Nat.div_mul_le_self (l.map fun i => score i * weight i).sum (l.map weight).sum
  omega

end Average

end RefractContracts.Host
