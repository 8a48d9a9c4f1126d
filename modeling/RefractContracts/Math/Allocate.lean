import RefractContracts.Host.Apportion
import RefractContracts.Math.Split

/-! `allocate` splits a total over weights by largest remainders. It is an apportionment:
the quotas fit their words, a unit that is left finds a positive remainder, and an entry
that gets one stays within the total, so no step of the loops overflows. -/

namespace RefractContracts.Math

open Host

/-- `x as i128` on `u128`. -/
def asI128 (x : ℕ) : ℤ := if (x : ℤ) ≤ maxI128 then x else x - 2 ^ 128

/-- `w as u128` on `i128`. -/
def asU128 (w : ℤ) : ℕ := if 0 ≤ w then w.toNat else (w + 2 ^ 128).toNat

def addWeight (weightSum : ℕ) (w : ℤ) : Call ℕ := do
  bail (w < 0) .negative
  bail (maxU128 < weightSum + asU128 w) .overflow
  pure (weightSum + asU128 w)

/-- What the loop over the weights has filled in: the floored shares, their sum, and the
positive remainders with their indices. -/
structure Floors where
  out : List ℤ
  assigned : ℕ
  remainders : List (ℕ × ℕ)

def floorOne (total weightSum : ℕ) (s : Floors) (w : ℤ × ℕ) : Call Floors := do
  let (q, r) ← mulDivRem total (asU128 w.1) weightSum
  let out := s.out ++ [asI128 q]
  let assigned ← u128 (s.assigned + q)
  let remainders := if 0 < r then s.remainders ++ [(r, w.2)] else s.remainders
  pure { out, assigned, remainders }

/-- `out[i] += 1`. -/
def bumpOne (out : List ℤ) (i : ℕ) : Call (List ℤ) := do
  demand (i < out.length)
  let x ← i128 (out.getD i 0 + 1)
  pure (out.set i x)

/-- Split `total` over `weights` by largest remainders, where `usizeMax` is the largest
`usize`. The last assertion is compiled into debug builds only. -/
def allocate (usizeMax : ℕ) (total : ℤ) (weights : List ℤ) : Call (List ℤ) := do
  bail (total < 0) .negative
  let weightSum ← weights.foldlM addWeight 0
  if total = 0 then pure (List.replicate weights.length 0)
  else do
    bail (weightSum = 0) .noRecipients
    let s ← weights.zipIdx.foldlM (floorOne (asU128 total) weightSum) ⟨[], 0, []⟩
    let remainders := s.remainders.insertionSort Precedes
    let leftover ← uSub (asU128 total) s.assigned
    let out ← ((remainders.take (leftover % (usizeMax + 1))).map Prod.snd).foldlM bumpOne s.out
    let sum ← out.foldlM (fun sum x => i128 (sum + x)) 0
    demand (sum = total)
    pure out

/-! ### The loops -/

theorem asU128_eq {w : ℤ} (hw : 0 ≤ w) : asU128 w = w.toNat := if_pos hw

/-- The sum of the weights, unless one is negative or the sum leaves the word. -/
theorem addWeights_ok {weights : List ℤ} {sum : ℕ} (hw : ∀ w ∈ weights, 0 ≤ w)
    (hfits : sum + (weights.map Int.toNat).sum ≤ maxU128) :
    weights.foldlM addWeight sum = .ok (sum + (weights.map Int.toNat).sum) := by
  induction weights generalizing sum with
  | nil => rfl
  | cons w weights ih =>
    rw [List.forall_mem_cons] at hw
    rw [List.map_cons, List.sum_cons, ← add_assoc] at hfits ⊢
    have hone : addWeight sum w = .ok (sum + w.toNat) := by
      rw [addWeight, bail_of_not (not_lt.mpr hw.1), ok_bind, asU128_eq hw.1,
        bail_of_not (by omega)]
      rfl
    rw [List.foldlM_cons, hone, ok_bind, ih hw.2 hfits]

theorem addWeights_refused {weights : List ℤ} {sum : ℕ}
    (h : (∃ w ∈ weights, w < 0) ∨ maxU128 < sum + (weights.map Int.toNat).sum)
    (hsum : sum ≤ maxU128) :
    ∃ e, weights.foldlM addWeight sum = .error (.error e) := by
  induction weights generalizing sum with
  | nil =>
    rcases h with ⟨w, hw, -⟩ | h
    · cases hw
    · exact absurd hsum (not_le.mpr h)
  | cons w weights ih =>
    rw [List.foldlM_cons, addWeight]
    by_cases hneg : w < 0
    · exact ⟨_, by rw [bail_of hneg]; rfl⟩
    rw [bail_of_not hneg, ok_bind, asU128_eq (not_lt.mp hneg)]
    by_cases hover : maxU128 < sum + w.toNat
    · exact ⟨_, by rw [bail_of hover]; rfl⟩
    rw [bail_of_not hover, ok_bind]
    refine ih ?_ (not_lt.mp hover)
    rcases h with ⟨v, hv, hvneg⟩ | h
    · rcases List.mem_cons.mp hv with rfl | hv
      · exact absurd hvneg hneg
      · exact .inl ⟨v, hv, hvneg⟩
    · rw [List.map_cons, List.sum_cons, ← add_assoc] at h
      exact .inr h

/-- The floors of the entries `ws`, where the quotas sum to at most the total. -/
theorem floorOnes_ok {total W : ℕ} (ht : (total : ℤ) ≤ maxI128) (hW : 0 < W) (hW' : W ≤ maxU128)
    {ws : List (ℤ × ℕ)} (hw : ∀ w ∈ ws, 0 ≤ w.1 ∧ w.1.toNat ≤ W) (s : Floors)
    (hsum : s.assigned + (ws.map fun w => total * w.1.toNat / W).sum ≤ total) :
    ws.foldlM (floorOne total W) s = .ok
      { out := s.out ++ ws.map fun w => ((total * w.1.toNat / W : ℕ) : ℤ)
        assigned := s.assigned + (ws.map fun w => total * w.1.toNat / W).sum
        remainders := s.remainders ++
          (ws.map fun w => (total * w.1.toNat % W, w.2)).filter (0 < ·.1) } := by
  have hmax : maxI128 < maxU128 := by decide
  have hword : maxU128 + 1 = 2 ^ 128 := rfl
  induction ws generalizing s with
  | nil => simp [pure, Except.pure]
  | cons w ws ih =>
    rw [List.forall_mem_cons] at hw
    rw [List.map_cons, List.sum_cons, ← add_assoc] at hsum
    have hq : total * w.1.toNat / W ≤ total := by omega
    have hdiv := mulDivRem_eq (a := total) (b := w.1.toNat) (c := W) (by omega) (by omega)
      (by omega) hW
    rw [if_pos (by omega)] at hdiv
    have hone : floorOne total W s w = .ok
        { out := s.out ++ [((total * w.1.toNat / W : ℕ) : ℤ)]
          assigned := s.assigned + total * w.1.toNat / W
          remainders := s.remainders ++
            [(total * w.1.toNat % W, w.2)].filter (0 < ·.1) } := by
      rw [floorOne, asU128_eq hw.1.1, hdiv, ok_bind]
      simp only [(u128_eq_ok _ _).mpr
          ⟨show s.assigned + total * w.1.toNat / W ≤ maxU128 by omega, rfl⟩,
        ok_bind, asI128, if_pos (show ((total * w.1.toNat / W : ℕ) : ℤ) ≤ maxI128 by omega)]
      split_ifs with hr <;> simp [hr, pure, Except.pure]
    rw [List.foldlM_cons, hone, ok_bind, ih hw.2 _ hsum]
    simp only [List.map_cons, List.sum_cons, List.append_assoc, List.singleton_append, add_assoc,
      List.filter_cons, List.filter_nil]
    split_ifs <;> simp

/-- The loop over the weights finds the quotas and the remainders of the apportionment. -/
theorem floors_ok (total : ℕ) (weights : List ℤ) (ht : (total : ℤ) ≤ maxI128)
    (hW : 0 < (weights.map Int.toNat).sum) (hW' : (weights.map Int.toNat).sum ≤ maxU128)
    (hw : ∀ w ∈ weights, 0 ≤ w) :
    weights.zipIdx.foldlM (floorOne total (weights.map Int.toNat).sum) ⟨[], 0, []⟩ = .ok
      { out := ((weights.map Int.toNat).map
          (Apportion.quota total (weights.map Int.toNat))).map (↑)
        assigned := ((weights.map Int.toNat).map
          (Apportion.quota total (weights.map Int.toNat))).sum
        remainders := Apportion.remainders total (weights.map Int.toNat) } := by
  have hle := Apportion.sum_quota_le total hW
  have hquotas : (weights.map Int.toNat).map (Apportion.quota total (weights.map Int.toNat)) =
      weights.zipIdx.map fun w => total * w.1.toNat / (weights.map Int.toNat).sum := by
    conv_lhs => rw [List.map_map, ← List.zipIdx_map_fst 0 weights, List.map_map]
    rw [List.zipIdx_map_fst]
    rfl
  have hrests : Apportion.remainders total (weights.map Int.toNat) =
      (weights.zipIdx.map fun w => (total * w.1.toNat % (weights.map Int.toNat).sum, w.2)).filter
        (0 < ·.1) := by
    rw [Apportion.remainders, List.zipIdx_map, List.map_map]
    rfl
  rw [hquotas] at hle ⊢
  rw [hrests, floorOnes_ok ht hW hW' (fun w hmem => ?_) _ (by simpa using hle)]
  · simp
  · have hmem' := List.fst_mem_of_mem_zipIdx hmem
    exact ⟨hw _ hmem', List.single_le_sum (fun _ _ => Nat.zero_le _) _ (List.mem_map_of_mem hmem')⟩

/-- Each entry that is raised leaves room for the unit. -/
theorem bumpOnes_ok {is xs : List ℕ} (hdistinct : is.Nodup)
    (his : ∀ i ∈ is, i < xs.length ∧ (xs.getD i 0 : ℤ) + 1 ≤ maxI128) :
    is.foldlM bumpOne (xs.map (↑)) = .ok ((is.foldl bump xs).map (↑)) := by
  have hmin := minI128_le_zero
  induction is generalizing xs with
  | nil => rfl
  | cons i is ih =>
    rw [List.forall_mem_cons] at his
    obtain ⟨hnew, hdistinct⟩ := List.nodup_cons.mp hdistinct
    obtain ⟨⟨hi, hroom⟩, his⟩ := his
    have hget : (xs.map ((↑) : ℕ → ℤ)).getD i 0 = (xs.getD i 0 : ℕ) :=
      List.getD_map (l := xs) (d := 0) (n := i) ((↑) : ℕ → ℤ)
    have hone : bumpOne (xs.map (↑)) i = .ok ((bump xs i).map (↑)) := by
      simp only [bumpOne, hget, bind_eq_ok, demand_eq_ok, i128_eq_ok, pure_eq_ok]
      refine ⟨(), by rwa [List.length_map], _, ⟨⟨by omega, hroom⟩, rfl⟩, ?_⟩
      rw [bump, List.map_set]
      push_cast
      rfl
    rw [List.foldlM_cons, hone, ok_bind, List.foldl_cons]
    refine ih hdistinct fun j hj => ?_
    obtain ⟨hlt, hroom'⟩ := his j hj
    have hne : i ≠ j := fun h => hnew (h ▸ hj)
    rw [length_bump, getD_bump hi, if_neg hne, add_zero]
    exact ⟨hlt, hroom'⟩

/-- Summing up shares of a total stays in range. -/
theorem sum_i128_ok (xs : List ℕ) (sum : ℕ) (hsum : ((sum + xs.sum : ℕ) : ℤ) ≤ maxI128) :
    (xs.map ((↑) : ℕ → ℤ)).foldlM (fun sum x => i128 (sum + x) : ℤ → ℤ → Call ℤ) ↑sum =
      .ok ((sum + xs.sum : ℕ) : ℤ) := by
  have hmin := minI128_le_zero
  induction xs generalizing sum with
  | nil => rfl
  | cons x xs ih =>
    rw [List.sum_cons, ← add_assoc] at hsum ⊢
    have hone : (i128 (sum + x) : Call ℤ) = .ok ((sum + x : ℕ) : ℤ) :=
      (i128_eq_ok _ _).mpr ⟨⟨by omega, by omega⟩, (Nat.cast_add _ _).symm⟩
    rw [List.map_cons, List.foldlM_cons, hone, ok_bind, ih _ hsum]

/-! ### The allocation -/

/-- The inputs that are refused. -/
def Refuses (total : ℤ) (weights : List ℤ) : Prop :=
  total < 0 ∨ (∃ w ∈ weights, w < 0) ∨ maxU128 < weights.sum ∨ 0 < total ∧ weights.sum = 0

theorem sum_toNat {weights : List ℤ} (hw : ∀ w ∈ weights, 0 ≤ w) :
    ((weights.map Int.toNat).sum : ℤ) = weights.sum := by
  induction weights with
  | nil => rfl
  | cons w weights ih =>
    rw [List.forall_mem_cons] at hw
    rw [List.map_cons, List.sum_cons, List.sum_cons, Nat.cast_add, ih hw.2,
      Int.toNat_of_nonneg hw.1]

section Allocation
variable {usizeMax : ℕ} {total : ℤ} {weights : List ℤ}

theorem allocate_refused (h : Refuses total weights) :
    ∃ e, allocate usizeMax total weights = .error (.error e) := by
  unfold allocate
  by_cases ht : total < 0
  · exact ⟨_, by rw [bail_of ht]; rfl⟩
  rw [bail_of_not ht, ok_bind]
  by_cases hsum : (∃ w ∈ weights, w < 0) ∨ maxU128 < 0 + (weights.map Int.toNat).sum
  · obtain ⟨e, he⟩ := addWeights_refused hsum (Nat.zero_le _)
    exact ⟨e, by rw [he]; rfl⟩
  · rw [not_or] at hsum
    have hw : ∀ w ∈ weights, 0 ≤ w := fun w hw => not_lt.mp fun hneg => hsum.1 ⟨w, hw, hneg⟩
    have hcast := sum_toNat hw
    have hzero : 0 < total ∧ weights.sum = 0 := by
      rcases h with h | h | h | h
      · exact absurd h ht
      · exact absurd h hsum.1
      · omega
      · exact h
    rw [addWeights_ok hw (not_lt.mp hsum.2), ok_bind, if_neg hzero.1.ne', bail_of (by omega)]
    exact ⟨_, rfl⟩

/-- Whatever is not refused is apportioned. -/
theorem allocate_shares (ht : total ≤ maxI128) (hlen : weights.length ≤ usizeMax)
    (h : ¬ Refuses total weights) : ∃ shares : List ℕ,
      allocate usizeMax total weights = .ok (shares.map (↑)) ∧
        Apportioned total.toNat (weights.map Int.toNat) shares := by
  simp only [Refuses, not_or, not_and, not_exists, not_lt] at h
  obtain ⟨hnonneg, hw, hfits, hpos⟩ := h
  have htotal : (total.toNat : ℤ) = total := Int.toNat_of_nonneg hnonneg
  have hcast := sum_toNat hw
  have hsum : weights.foldlM addWeight 0 = .ok (weights.map Int.toNat).sum := by
    rw [addWeights_ok hw (by omega), zero_add]
  have hfloors := floors_ok total.toNat weights (by omega)
  have hlength : (weights.map Int.toNat).length = weights.length := List.length_map _
  generalize weights.map Int.toNat = ws at *
  unfold allocate
  rw [bail_of_not (not_lt.mpr hnonneg), ok_bind, hsum, ok_bind]
  by_cases hzero : total = 0
  · refine ⟨List.replicate weights.length 0, by rw [if_pos hzero, List.map_replicate]; rfl, ?_⟩
    rw [hzero, Int.toNat_zero, ← hlength]
    exact Apportion.apportioned_zero ws
  · have hW : 0 < ws.sum := by
      have hne := hpos (by omega)
      omega
    have hle := Apportion.sum_quota_le total.toNat hW
    have hroom : Apportion.leftover total.toNat ws < usizeMax + 1 :=
      Nat.lt_succ_of_le ((Apportion.leftover_le_length hW).trans (hlength.trans_le hlen))
    have hraised : ∀ i ∈ Apportion.raised total.toNat ws,
        i < (ws.map (Apportion.quota total.toNat ws)).length ∧
          ((ws.map (Apportion.quota total.toNat ws)).getD i 0 : ℤ) + 1 ≤ maxI128 := by
      intro i hi
      have hquota := Apportion.quota_lt_of_raised hW hi
      rw [List.length_map]
      exact ⟨(Apportion.of_mem_raised hi).1, by omega⟩
    have happ := Apportion.shares_apportioned total.toNat hW
    refine ⟨Apportion.shares total.toNat ws, ?_, happ⟩
    have hleft : (uSub total.toNat (ws.map (Apportion.quota total.toNat ws)).sum : Call ℕ) =
        .ok (Apportion.leftover total.toNat ws) := (uSub_eq_ok _ _ _).mpr ⟨hle, rfl⟩
    have hbumps := bumpOnes_ok Apportion.raised_distinct hraised
    have hassert := sum_i128_ok (Apportion.shares total.toNat ws) 0 (by rw [happ.sum]; omega)
    rw [zero_add, happ.sum, htotal] at hassert
    rw [if_neg hzero, bail_of_not hW.ne', ok_bind, asU128_eq hnonneg, hfloors hW (by omega) hw,
      ok_bind, hleft, ok_bind, Nat.mod_eq_of_lt hroom]
    change ((Apportion.raised total.toNat ws).foldlM bumpOne _ >>= _) = _
    rw [hbumps, ok_bind]
    change ((Apportion.shares total.toNat ws).map ((↑) : ℕ → ℤ)).foldlM _ _ >>= _ = _
    rw [← Nat.cast_zero, hassert, ok_bind, demand, if_pos rfl]
    rfl

/-- The allocation is refused on the inputs that are invalid, and on every other input it
is the apportionment by largest remainders: it neither traps nor overflows. -/
theorem allocate_exact (usizeMax : ℕ) (total : ℤ) (weights : List ℤ) (ht : total ≤ maxI128)
    (hlen : weights.length ≤ usizeMax) :
    ((∃ e, allocate usizeMax total weights = .error (.error e)) ↔ Refuses total weights) ∧
      (¬ Refuses total weights → ∃ shares : List ℕ,
        allocate usizeMax total weights = .ok (shares.map (↑)) ∧
          Apportioned total.toNat (weights.map Int.toNat) shares ∧
          (total = 0 → shares = List.replicate weights.length 0)) := by
  refine ⟨⟨fun ⟨e, he⟩ => ?_, allocate_refused⟩, fun h => ?_⟩
  · by_contra h
    obtain ⟨shares, hok, -⟩ := allocate_shares ht hlen h
    rw [hok] at he
    cases he
  · obtain ⟨shares, hok, happ⟩ := allocate_shares ht hlen h
    refine ⟨shares, hok, happ, fun hzero => ?_⟩
    have hsum : shares.sum = 0 := by rw [happ.sum, hzero, Int.toNat_zero]
    refine List.eq_replicate_iff.mpr ⟨happ.length.trans (List.length_map _), fun x hx => ?_⟩
    exact Nat.le_zero.mp (hsum ▸ List.single_le_sum (fun _ _ => Nat.zero_le _) _ hx)

/-- A total of 7 over the weights 1, 0, 1 and 1 leaves one unit, for the first of three
equal remainders. -/
theorem allocate_exact_tie :
    allocate (2 ^ 32 - 1) 7 [1, 0, 1, 1] = .ok [3, 0, 2, 2] ∧ ¬ Refuses 7 [1, 0, 1, 1] ∧
      ∃ shares : List ℕ, allocate (2 ^ 32 - 1) 7 [1, 0, 1, 1] = .ok (shares.map (↑)) ∧
        Apportioned 7 [1, 0, 1, 1] shares := by
  have hvalid : ¬ Refuses 7 [1, 0, 1, 1] := by
    simp [Refuses, maxU128]
  obtain ⟨shares, hok, happ, -⟩ :=
    (allocate_exact (2 ^ 32 - 1) 7 [1, 0, 1, 1] (by decide) (by decide)).2 hvalid
  exact ⟨by decide +kernel, hvalid, shares, hok, happ⟩

end Allocation

end RefractContracts.Math
