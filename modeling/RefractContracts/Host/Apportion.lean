import Mathlib.Data.List.GetD
import Mathlib.Data.List.Sort
import Mathlib.Tactic

/-! Apportionment by largest remainders. A total is shared over weights by quotas that are
rounded down, and the units that are left go one each to the entries with the largest
remainders, the lower index first among equals. There are fewer such units than positive
remainders, so every unit finds its entry and an entry gets at most one. -/

namespace RefractContracts.Host

/-- The order in which entries `(remainder, index)` get their units. -/
def Precedes (a b : ℕ × ℕ) : Prop := b.1 < a.1 ∨ a.1 = b.1 ∧ a.2 ≤ b.2

instance : DecidableRel Precedes := fun _ _ => inferInstanceAs (Decidable (_ ∨ _))

instance : Std.Total Precedes := ⟨fun a b => by unfold Precedes; omega⟩

instance : IsTrans (ℕ × ℕ) Precedes := ⟨fun a b c => by unfold Precedes; omega⟩

/-- Add a unit to entry `i`. -/
def bump (xs : List ℕ) (i : ℕ) : List ℕ := xs.set i (xs.getD i 0 + 1)

namespace Apportion

variable (total : ℕ) (weights : List ℕ)

def quota (w : ℕ) : ℕ := total * w / weights.sum

def remainder (w : ℕ) : ℕ := total * w % weights.sum

/-- The units the quotas leave. -/
def leftover : ℕ := total - (weights.map (quota total weights)).sum

/-- The positive remainders, each with its index. -/
def remainders : List (ℕ × ℕ) :=
  (weights.zipIdx.map fun p => (remainder total weights p.1, p.2)).filter (0 < ·.1)

/-- The entries that get a unit. -/
def raised : List ℕ :=
  (((remainders total weights).insertionSort Precedes).take (leftover total weights)).map Prod.snd

def shares : List ℕ := (raised total weights).foldl bump (weights.map (quota total weights))

end Apportion

/-- `out` shares `total` over `weights`: the quotas, and a unit more for the entries with
the largest remainders. -/
structure Apportioned (total : ℕ) (weights out : List ℕ) : Prop where
  length : out.length = weights.length
  sum : out.sum = total
  quota : ∀ i, out.getD i 0 = total * weights.getD i 0 / weights.sum ∨
    out.getD i 0 = total * weights.getD i 0 / weights.sum + 1
  unweighted : ∀ i, weights.getD i 0 = 0 → out.getD i 0 = 0
  ranked : ∀ i j, i < weights.length → j < weights.length →
    out.getD i 0 = total * weights.getD i 0 / weights.sum + 1 →
    out.getD j 0 = total * weights.getD j 0 / weights.sum →
    total * weights.getD j 0 % weights.sum < total * weights.getD i 0 % weights.sum ∨
      total * weights.getD j 0 % weights.sum = total * weights.getD i 0 % weights.sum ∧ i < j

/-! ### Units -/

section Units
variable {xs is : List ℕ} {i : ℕ}

@[simp] theorem length_bump (xs : List ℕ) (i : ℕ) : (bump xs i).length = xs.length :=
  List.length_set

/-- Places in range stay in range. -/
theorem lt_length_bump (his : ∀ k ∈ is, k < xs.length) (i : ℕ) :
    ∀ k ∈ is, k < (bump xs i).length := by
  rw [length_bump]
  exact his

theorem getD_bump (hi : i < xs.length) (j : ℕ) :
    (bump xs i).getD j 0 = xs.getD j 0 + if i = j then 1 else 0 := by
  simp only [bump, List.getD_eq_getElem?_getD, List.getElem?_set]
  split_ifs with hij
  · subst hij
    rfl
  · rfl

theorem sum_bump (hi : i < xs.length) : (bump xs i).sum = xs.sum + 1 := by
  have hsplit : xs.sum = (xs.take i).sum + (xs[i] + (xs.drop (i + 1)).sum) := by
    rw [← List.sum_cons, List.getElem_cons_drop, ← List.sum_append, List.take_append_drop]
  rw [bump, List.set_eq_take_append_cons_drop, if_pos hi, List.sum_append, List.sum_cons,
    List.getD_eq_getElem _ _ hi, hsplit]
  ring

@[simp] theorem length_bumps (is xs : List ℕ) : (is.foldl bump xs).length = xs.length := by
  induction is generalizing xs with
  | nil => rfl
  | cons i is ih => rw [List.foldl_cons, ih, length_bump]

theorem getD_bumps (his : ∀ i ∈ is, i < xs.length) (j : ℕ) :
    (is.foldl bump xs).getD j 0 = xs.getD j 0 + is.count j := by
  induction is generalizing xs with
  | nil => rfl
  | cons i is ih =>
    rw [List.forall_mem_cons] at his
    rw [List.foldl_cons, ih (lt_length_bump his.2 i), getD_bump his.1, List.count_cons]
    simp only [beq_iff_eq]
    ring

theorem sum_bumps (his : ∀ i ∈ is, i < xs.length) :
    (is.foldl bump xs).sum = xs.sum + is.length := by
  induction is generalizing xs with
  | nil => rfl
  | cons i is ih =>
    rw [List.forall_mem_cons] at his
    rw [List.foldl_cons, ih (lt_length_bump his.2 i), sum_bump his.1, List.length_cons]
    ring

end Units

/-! ### The units that are left -/

namespace Apportion

variable {total : ℕ} {weights : List ℕ}

/-- Quotas and remainders over the weights `ws`. -/
theorem sum_quota_remainder (total : ℕ) (weights ws : List ℕ) :
    (ws.map (quota total weights)).sum * weights.sum + (ws.map (remainder total weights)).sum =
      total * ws.sum := by
  induction ws with
  | nil => simp
  | cons w ws ih =>
    have hw : quota total weights w * weights.sum + remainder total weights w = total * w :=
      Nat.div_add_mod' _ _
    simp only [List.map_cons, List.sum_cons]
    calc _ = (quota total weights w * weights.sum + remainder total weights w) +
          ((ws.map (quota total weights)).sum * weights.sum +
            (ws.map (remainder total weights)).sum) := by ring
      _ = total * (w + ws.sum) := by rw [hw, ih]; ring

theorem sum_quota_le (total : ℕ) (hW : 0 < weights.sum) :
    (weights.map (quota total weights)).sum ≤ total := by
  have h := sum_quota_remainder total weights weights
  exact Nat.le_of_mul_le_mul_right (by omega) hW

/-- The remainders make up whole units. -/
theorem leftover_mul :
    leftover total weights * weights.sum = (weights.map (remainder total weights)).sum := by
  have h := sum_quota_remainder total weights weights
  rw [leftover, Nat.sub_mul, ← h]
  omega

theorem mem_remainders {p : ℕ × ℕ} : p ∈ remainders total weights ↔
    p.2 < weights.length ∧ p.1 = remainder total weights (weights.getD p.2 0) ∧ 0 < p.1 := by
  obtain ⟨r, i⟩ := p
  simp only [remainders, List.mem_filter, List.mem_map, Prod.mk.injEq, Prod.exists,
    List.mem_zipIdx_iff_getElem?, decide_eq_true_eq]
  constructor
  · rintro ⟨⟨w, _, hw, rfl, rfl⟩, hpos⟩
    obtain ⟨hi, rfl⟩ := List.getElem?_eq_some_iff.mp hw
    exact ⟨hi, by rw [List.getD_eq_getElem _ _ hi], hpos⟩
  · rintro ⟨hi, rfl, hpos⟩
    exact ⟨⟨_, i, List.getElem?_eq_getElem hi, by rw [List.getD_eq_getElem _ _ hi], rfl⟩, hpos⟩

theorem remainders_distinct : ((remainders total weights).map Prod.snd).Nodup := by
  refine List.Nodup.sublist (List.filter_sublist.map Prod.snd) ?_
  rw [List.map_map]
  change (weights.zipIdx.map Prod.snd).Nodup
  rw [List.zipIdx_map_snd]
  exact List.nodup_range'

theorem sum_remainders : ((remainders total weights).map Prod.fst).sum =
    (weights.map (remainder total weights)).sum := by
  have hkeep : ∀ ps : List (ℕ × ℕ), ((ps.filter (0 < ·.1)).map Prod.fst).sum =
      (ps.map Prod.fst).sum := by
    intro ps
    induction ps with
    | nil => rfl
    | cons p ps ih =>
      by_cases hp : 0 < p.1
      · simp [hp, ih]
      · simp [Nat.eq_zero_of_not_pos hp, ih]
  rw [remainders, hkeep, List.map_map]
  change (weights.zipIdx.map (remainder total weights ∘ Prod.fst)).sum = _
  rw [← List.map_map, List.zipIdx_map_fst]

/-- There is a positive remainder for every unit that is left. -/
theorem leftover_le (hW : 0 < weights.sum) :
    leftover total weights ≤ (remainders total weights).length := by
  have hsum : ((remainders total weights).map Prod.fst).sum ≤
      ((remainders total weights).map Prod.fst).length • weights.sum := by
    refine List.sum_le_card_nsmul _ _ fun r hr => ?_
    obtain ⟨p, hp, rfl⟩ := List.mem_map.mp hr
    rw [(mem_remainders.mp hp).2.1]
    exact (Nat.mod_lt _ hW).le
  rw [List.length_map, sum_remainders, ← leftover_mul, smul_eq_mul] at hsum
  exact Nat.le_of_mul_le_mul_right hsum hW

theorem length_raised (hW : 0 < weights.sum) :
    (raised total weights).length = leftover total weights := by
  rw [raised, List.length_map, List.length_take, List.length_insertionSort]
  exact min_eq_left (leftover_le hW)

theorem leftover_le_length (hW : 0 < weights.sum) : leftover total weights ≤ weights.length := by
  refine (leftover_le hW).trans ((List.length_filter_le _ _).trans ?_)
  rw [List.length_map, List.length_zipIdx]

/-- An entry that gets a unit has room for it. -/
theorem quota_lt_of_raised {i : ℕ} (hW : 0 < weights.sum) (hi : i ∈ raised total weights) :
    (weights.map (quota total weights)).getD i 0 < total := by
  have hleft : 0 < leftover total weights := by
    rw [← length_raised hW]
    exact List.length_pos_of_mem hi
  have hle : (weights.map (quota total weights)).getD i 0 ≤
      (weights.map (quota total weights)).sum := by
    rcases Nat.lt_or_ge i (weights.map (quota total weights)).length with hlt | hge
    · rw [List.getD_eq_getElem _ _ hlt]
      exact List.single_le_sum (fun _ _ => Nat.zero_le _) _ (List.getElem_mem hlt)
    · rw [List.getD_eq_default _ _ hge]
      exact Nat.zero_le _
  unfold leftover at hleft
  omega

theorem raised_distinct : (raised total weights).Nodup := by
  refine List.Nodup.sublist ((List.take_sublist _ _).map Prod.snd) ?_
  exact (((List.perm_insertionSort Precedes _).map Prod.snd).nodup_iff).mpr remainders_distinct

theorem of_mem_raised {i : ℕ} (hi : i ∈ raised total weights) :
    i < weights.length ∧ 0 < remainder total weights (weights.getD i 0) := by
  obtain ⟨p, hp, rfl⟩ := List.mem_map.mp hi
  obtain ⟨hlt, hr, hpos⟩ := mem_remainders.mp
    ((List.mem_insertionSort Precedes).mp (List.mem_of_mem_take hp))
  exact ⟨hlt, hr ▸ hpos⟩

/-- An entry that gets a unit comes before one that gets none. -/
theorem raised_first {i j : ℕ} (hi : i ∈ raised total weights) (hj : j ∉ raised total weights)
    (hlt : j < weights.length) :
    remainder total weights (weights.getD j 0) < remainder total weights (weights.getD i 0) ∨
      remainder total weights (weights.getD j 0) = remainder total weights (weights.getD i 0) ∧
        i < j := by
  have hpos := (of_mem_raised hi).2
  rcases Nat.eq_zero_or_pos (remainder total weights (weights.getD j 0)) with hzero | hposj
  · exact .inl (hzero.trans_lt hpos)
  have hne : i ≠ j := fun h => hj (h ▸ hi)
  obtain ⟨p, hp, rfl⟩ := List.mem_map.mp hi
  obtain ⟨-, hr, -⟩ := mem_remainders.mp
    ((List.mem_insertionSort Precedes).mp (List.mem_of_mem_take hp))
  set ranked := (remainders total weights).insertionSort Precedes with hranked
  have hmem : (remainder total weights (weights.getD j 0), j) ∈ ranked :=
    (List.mem_insertionSort Precedes).mpr (mem_remainders.mpr ⟨hlt, rfl, hposj⟩)
  rw [← List.take_append_drop (leftover total weights) ranked, List.mem_append] at hmem
  have hdrop := hmem.resolve_left fun htake => hj (List.mem_map.mpr ⟨_, htake, rfl⟩)
  have hsorted : (ranked.take (leftover total weights) ++
      ranked.drop (leftover total weights)).Pairwise Precedes := by
    rw [List.take_append_drop]
    exact List.pairwise_insertionSort Precedes _
  have hfirst := (List.pairwise_append.mp hsorted).2.2 _ hp _ hdrop
  rw [← hr]
  unfold Precedes at hfirst
  omega

/-- Nothing is apportioned in shares of zero. -/
theorem apportioned_zero (weights : List ℕ) :
    Apportioned 0 weights (List.replicate weights.length 0) := by
  have hnone : ∀ i, (List.replicate weights.length 0).getD i 0 = 0 := fun i => by
    rw [List.getD_eq_getElem?_getD, List.getElem?_getD_replicate_default_eq]
  refine ⟨by simp, by simp, fun i => .inl (by rw [hnone, zero_mul, Nat.zero_div]),
    fun i _ => hnone i, fun i j _ _ hup => ?_⟩
  rw [hnone, zero_mul, Nat.zero_div] at hup
  cases hup

/-- The shares are the apportionment. -/
theorem shares_apportioned (total : ℕ) (hW : 0 < weights.sum) :
    Apportioned total weights (shares total weights) := by
  have hlt : ∀ i ∈ raised total weights, i < (weights.map (quota total weights)).length :=
    fun i hi => (of_mem_raised hi).1.trans_eq (List.length_map _).symm
  have hquota : ∀ i, (weights.map (quota total weights)).getD i 0 =
      total * weights.getD i 0 / weights.sum := by
    intro i
    have hmap := List.getD_map (l := weights) (d := 0) (n := i) (quota total weights)
    rwa [show quota total weights 0 = 0 by simp [quota]] at hmap
  have hshare : ∀ i, (shares total weights).getD i 0 =
      total * weights.getD i 0 / weights.sum + (raised total weights).count i := by
    intro i
    rw [shares, getD_bumps hlt, hquota]
  have hraised : ∀ i, i ∈ raised total weights → (raised total weights).count i = 1 :=
    fun i hi => List.count_eq_one_of_mem raised_distinct hi
  have hkept : ∀ i, i ∉ raised total weights → (raised total weights).count i = 0 :=
    fun i hi => List.count_eq_zero_of_not_mem hi
  refine ⟨by simp [shares], ?_, fun i => ?_, fun i hi => ?_, fun i j hi hj hup hdown => ?_⟩
  · rw [shares, sum_bumps hlt, length_raised hW, leftover]
    exact Nat.add_sub_cancel' (sum_quota_le total hW)
  · rw [hshare]
    by_cases hi : i ∈ raised total weights
    · exact .inr (by rw [hraised i hi])
    · exact .inl (by rw [hkept i hi, add_zero])
  · have hnot : i ∉ raised total weights := fun h => by
      have hpos := (of_mem_raised h).2
      simp only [hi, remainder, mul_zero, Nat.zero_mod, lt_self_iff_false] at hpos
    rw [hshare, hkept i hnot, hi, mul_zero, Nat.zero_div]
  · rw [hshare] at hup hdown
    refine raised_first ?_ ?_ hj
    · by_contra h
      rw [hkept i h] at hup
      omega
    · intro h
      rw [hraised j h] at hdown
      omega

end Apportion

end RefractContracts.Host
