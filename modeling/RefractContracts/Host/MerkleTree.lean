import Mathlib.Data.Nat.Bitwise
import Mathlib.Tactic

/-! Merkle trees over unordered pairs. A level combines its neighbours two by two, and one
left over at its end is carried up as it is; a proof names the siblings on the way up, but
not on which side they are. The way up from an entry therefore leads to the root for any
commutative combination. The other way around, a proof may name any siblings: what it
climbs from is an entry of the tree if a combination that occurs in the tree occurs for its
own two parts only. -/

namespace RefractContracts.Host

namespace MerkleTree

variable {δ : Type*} (node : δ → δ → δ)

/-- The level above. -/
def parents : List δ → List δ
  | [] => []
  | [a] => [a]
  | a :: b :: l => node a b :: parents l

/-- The neighbours that are combined. -/
def pairs : List δ → List (δ × δ)
  | [] => []
  | [_] => []
  | a :: b :: l => (a, b) :: pairs l

/-- The levels from `cur` up to one with a single entry. -/
def levelsFrom : ℕ → List δ → List (List δ)
  | 0, cur => [cur]
  | fuel + 1, cur => if cur.length ≤ 1 then [cur] else cur :: levelsFrom fuel (parents node cur)

/-- The siblings on the way up from the entry `idx` through the levels. -/
def siblings : ℕ → List (List δ) → List δ
  | _, [] => []
  | idx, level :: levels => level[idx ^^^ 1]?.toList ++ siblings (idx / 2) levels

/-- The steps of a proof: where it is, and what it combines that with. -/
def steps : δ → List δ → List (δ × δ)
  | _, [] => []
  | x, s :: proof => (x, s) :: steps (node x s) proof

variable {node} {cur : List δ} {i : ℕ} {x y : δ}

/-! ### The way up -/

theorem length_parents (cur : List δ) : (parents node cur).length = (cur.length + 1) / 2 := by
  induction cur using parents.induct with
  | case1 => simp [parents]
  | case2 a => simp [parents]
  | case3 a b l ih =>
    rw [parents, List.length_cons, List.length_cons, List.length_cons, ih]
    omega

theorem add_two_xor_one (i : ℕ) : (i + 2) ^^^ 1 = (i ^^^ 1) + 2 := by
  rcases Nat.even_or_odd i with h | h
  · rw [Nat.xor_one_of_even h, Nat.xor_one_of_even (h.add even_two)]
  · have hpos := h.pos
    rw [Nat.xor_one_of_odd h, Nat.xor_one_of_odd (h.add_even even_two)]
    omega

/-- The parent of an entry is the entry combined with its sibling, if it has one. -/
theorem getElem?_parents (hcomm : ∀ a b, node a b = node b a) (h : cur[i]? = some x) :
    (parents node cur)[i / 2]? = some ((cur[i ^^^ 1]?.toList).foldl node x) := by
  induction cur using parents.induct generalizing i with
  | case1 => cases h
  | case2 a =>
    cases i with
    | zero =>
      obtain rfl := Option.some.inj h
      rfl
    | succ i => cases h
  | case3 a b l ih =>
    match i with
    | 0 =>
      obtain rfl := Option.some.inj h
      rfl
    | 1 =>
      obtain rfl := Option.some.inj h
      exact congrArg some (hcomm a b)
    | i + 2 =>
      rw [add_two_xor_one, Nat.add_div_right i two_pos]
      exact ih h

theorem parents_ne_nil (h : cur ≠ []) : parents node cur ≠ [] := by
  rw [← List.length_pos_iff] at h ⊢
  rw [length_parents]
  omega

theorem levelsFrom_ne_nil (fuel : ℕ) (cur : List δ) : levelsFrom node fuel cur ≠ [] := by
  cases fuel with
  | zero => exact List.cons_ne_nil _ _
  | succ fuel =>
    rw [levelsFrom]
    split_ifs <;> exact List.cons_ne_nil _ _

theorem head?_levelsFrom (fuel : ℕ) (cur : List δ) :
    (levelsFrom node fuel cur).head? = some cur := by
  cases fuel with
  | zero => rfl
  | succ fuel =>
    rw [levelsFrom]
    split_ifs <;> rfl

/-- A level with a single entry is a root. -/
theorem exists_root (hne : cur ≠ []) (h : cur.length ≤ 1) :
    ∃ root, cur = [root] ∧ ∀ (i : ℕ) (x : δ), cur[i]? = some x → x = root := by
  obtain ⟨root, rfl⟩ := List.length_eq_one_iff.mp (h.antisymm (List.length_pos_iff.mpr hne))
  exact ⟨root, rfl, fun i x hi => List.mem_singleton.mp (List.mem_of_getElem? hi)⟩

/-- The levels end in a root, to which the siblings of every entry lead. -/
theorem levelsFrom_complete (hcomm : ∀ a b, node a b = node b a) (fuel : ℕ) (hne : cur ≠ [])
    (hfuel : cur.length ≤ fuel + 1) : ∃ root, (levelsFrom node fuel cur).getLast? = some [root] ∧
      ∀ (i : ℕ) (x : δ), cur[i]? = some x →
        (siblings i (levelsFrom node fuel cur).dropLast).foldl node x = root := by
  induction fuel generalizing cur with
  | zero =>
    obtain ⟨root, rfl, hroot⟩ := exists_root hne hfuel
    exact ⟨root, rfl, fun i x hi => hroot i x hi⟩
  | succ fuel ih =>
    rw [levelsFrom]
    split_ifs with hone
    · obtain ⟨root, rfl, hroot⟩ := exists_root hne hone
      exact ⟨root, rfl, fun i x hi => hroot i x hi⟩
    · have hup : parents node cur ≠ [] := parents_ne_nil hne
      have hlen : (parents node cur).length = (cur.length + 1) / 2 := length_parents cur
      obtain ⟨root, hlast, hroot⟩ := ih hup (by omega)
      have hlevels : levelsFrom node fuel (parents node cur) ≠ [] := levelsFrom_ne_nil fuel _
      refine ⟨root, ?_, fun i x hi => ?_⟩
      · rw [List.getLast?_cons_of_ne_nil hlevels, hlast]
      · rw [List.dropLast_cons_of_ne_nil hlevels, siblings, List.foldl_append]
        exact hroot _ _ (getElem?_parents hcomm hi)

/-! ### The way down -/

theorem mem_parents (h : x ∈ parents node cur) :
    x ∈ cur ∨ ∃ p ∈ pairs cur, x = node p.1 p.2 := by
  induction cur using parents.induct with
  | case1 => cases h
  | case2 a => exact .inl h
  | case3 a b l ih =>
    rw [parents, List.mem_cons] at h
    rcases h with rfl | h
    · exact .inr ⟨(a, b), List.mem_cons_self, rfl⟩
    · rcases ih h with h | ⟨p, hp, rfl⟩
      · exact .inl (List.mem_cons_of_mem _ (List.mem_cons_of_mem _ h))
      · exact .inr ⟨p, List.mem_cons_of_mem _ hp, rfl⟩

theorem mem_of_pairs {p : δ × δ} (h : p ∈ pairs cur) : p.1 ∈ cur ∧ p.2 ∈ cur := by
  induction cur using pairs.induct with
  | case1 => cases h
  | case2 a => cases h
  | case3 a b l ih =>
    rcases List.mem_cons.mp h with rfl | h
    · exact ⟨List.mem_cons_self, List.mem_cons_of_mem _ List.mem_cons_self⟩
    · obtain ⟨h₁, h₂⟩ := ih h
      exact ⟨List.mem_cons_of_mem _ (List.mem_cons_of_mem _ h₁),
        List.mem_cons_of_mem _ (List.mem_cons_of_mem _ h₂)⟩

/-- The pairs that are combined below the root. -/
def combined (levels : List (List δ)) : List (δ × δ) := levels.dropLast.flatMap pairs

theorem mem_of_combined {levels : List (List δ)} {p : δ × δ} (h : p ∈ combined levels) :
    p.1 ∈ levels.flatten ∧ p.2 ∈ levels.flatten := by
  obtain ⟨level, hlevel, hp⟩ := List.mem_flatMap.mp h
  obtain ⟨h₁, h₂⟩ := mem_of_pairs hp
  have hmem := List.mem_of_mem_dropLast hlevel
  exact ⟨List.mem_flatten.mpr ⟨level, hmem, h₁⟩, List.mem_flatten.mpr ⟨level, hmem, h₂⟩⟩

/-- An entry of a tree is one of its leaves, or the combination of two neighbours. -/
theorem mem_levelsFrom (fuel : ℕ) (cur : List δ) (h : x ∈ (levelsFrom node fuel cur).flatten) :
    x ∈ cur ∨ ∃ p ∈ combined (levelsFrom node fuel cur), x = node p.1 p.2 := by
  induction fuel generalizing cur with
  | zero =>
    rw [levelsFrom, List.flatten_singleton] at h
    exact .inl h
  | succ fuel ih =>
    rw [levelsFrom] at h ⊢
    split_ifs at h ⊢ with hone
    · rw [List.flatten_singleton] at h
      exact .inl h
    · have hcombined : combined (cur :: levelsFrom node fuel (parents node cur)) =
          pairs cur ++ combined (levelsFrom node fuel (parents node cur)) := by
        rw [combined, List.dropLast_cons_of_ne_nil (levelsFrom_ne_nil _ _), List.flatMap_cons]
        rfl
      rw [List.flatten_cons, List.mem_append] at h
      rw [hcombined]
      rcases h with h | h
      · exact .inl h
      · rcases ih _ h with h | ⟨p, hp, rfl⟩
        · rcases mem_parents h with h | ⟨p, hp, rfl⟩
          · exact .inl h
          · exact .inr ⟨p, List.mem_append_left _ hp, rfl⟩
        · exact .inr ⟨p, List.mem_append_right _ hp, rfl⟩

/-- Down a proof: where a step ends in the tree, it starts there. -/
theorem mem_of_fold {tree : List δ} {proof : List δ}
    (h : ∀ p ∈ steps node x proof, node p.1 p.2 ∈ tree → p.1 ∈ tree)
    (hend : proof.foldl node x ∈ tree) : x ∈ tree := by
  induction proof generalizing x with
  | nil => exact hend
  | cons s proof ih =>
    refine h (x, s) List.mem_cons_self (ih (fun p hp => ?_) hend)
    exact h p (List.mem_cons_of_mem _ hp)

end MerkleTree

end RefractContracts.Host
