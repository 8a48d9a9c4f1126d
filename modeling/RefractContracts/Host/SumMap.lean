import RefractContracts.Host.History

/-! Checked sums by key. A map holds a sum for each key that an amount was added under, and
traps when a sum leaves the range. What is kept of a map is that it sums up the bookings of
the entries so far. -/

namespace RefractContracts.Host

variable {ε α J K : Type}

/-! ### Sums of bookings -/

section Bookings
variable [DecidableEq K] {f g : α → Option (K × ℤ)} {h h' : List α} {x : α} {k : K}

theorem tally_perm (hp : h.Perm h') (k : K) : tally f h k = tally f h' k :=
  (hp.map _).sum_eq

theorem tally_nonneg (hf : ∀ x ∈ h, 0 ≤ booked (f x) k) : 0 ≤ tally f h k :=
  List.sum_nonneg (by simpa using hf)

theorem tally_le_tally (hfg : ∀ x ∈ h, booked (f x) k ≤ booked (g x) k) :
    tally f h k ≤ tally g h k :=
  List.sum_le_sum hfg

/-- Fewer entries book no more. -/
theorem tally_le_of_sublist (hs : h.Sublist h') (hf : ∀ x ∈ h', 0 ≤ booked (f x) k) :
    tally f h k ≤ tally f h' k :=
  (hs.map _).sum_le_sum (by simpa using hf)

theorem booked_zero (j k : K) : booked (some (j, 0)) k = 0 := ite_self 0

theorem booked_nonneg {n : ℤ} (hn : 0 ≤ n) (j k : K) : 0 ≤ booked (some (j, n)) k := by
  rw [booked]
  split
  · exact hn
  · exact le_rfl

/-- The sums of the bookings are amounts. -/
def InRange (f : α → Option (K × ℤ)) (h : List α) : Prop :=
  ∀ k, 0 ≤ tally f h k ∧ tally f h k ≤ maxI128

/-- `look` gives for each key what the entries of `h` book under it, and no sum is too large. -/
structure SumsUp (f : α → Option (K × ℤ)) (h : List α) (look : K → ℤ) : Prop where
  eq : ∀ k, look k = tally f h k
  le : ∀ k, look k ≤ maxI128

theorem SumsUp.of_zero {look : K → ℤ} (hl : ∀ k, look k = 0) : SumsUp f [] look where
  eq := hl
  le k := (hl k).trans_le zero_le_maxI128

/-- An entry that books nothing leaves the sums as they are. -/
theorem SumsUp.skip {look : K → ℤ} (hs : SumsUp f h look) (hx : ∀ k, booked (f x) k = 0) :
    SumsUp f (h ++ [x]) look where
  eq k := by rw [tally_snoc, hx, add_zero, hs.eq]
  le := hs.le

end Bookings

/-! ### The maps -/

section Maps
variable [Ord J] [Ord K]

/-- `*sums.entry(k).or_default() += n`. -/
def addAt (sums : Std.TreeMap K ℤ) (k : K) (n : ℤ) : Outcome ε (Std.TreeMap K ℤ) := do
  let sum ← i128 (sums.getD k 0 + n)
  pure (sums.insert k sum)

/-- `*sums.entry(j).or_default().entry(k).or_default() += n`. -/
def addUnder (sums : Std.TreeMap J (Std.TreeMap K ℤ)) (j : J) (k : K) (n : ℤ) :
    Outcome ε (Std.TreeMap J (Std.TreeMap K ℤ)) := do
  let row ← addAt (sums.getD j ∅) k n
  pure (sums.insert j row)

/-- The sum at a key, zero where nothing was added. -/
def sumAt (sums : Std.TreeMap K ℤ) (k : K) : ℤ := sums.getD k 0

/-- The sum at a pair of keys. -/
def sumUnder (sums : Std.TreeMap J (Std.TreeMap K ℤ)) (k : J × K) : ℤ :=
  sumAt (sums.getD k.1 ∅) k.2

variable {sums sums' : Std.TreeMap K ℤ} {table table' : Std.TreeMap J (Std.TreeMap K ℤ)}
  {j : J} {k : K} {n : ℤ}

@[simp] theorem addAt_eq_ok : (addAt sums k n : Outcome ε _) = .ok sums' ↔
    (minI128 ≤ sumAt sums k + n ∧ sumAt sums k + n ≤ maxI128) ∧
      sums.insert k (sumAt sums k + n) = sums' := by
  simp [addAt, sumAt, and_assoc]

section Empty
variable [Std.TransOrd J] [Std.TransOrd K]

@[simp] theorem sumAt_empty (k : K) : sumAt (∅ : Std.TreeMap K ℤ) k = 0 := Std.TreeMap.getD_emptyc

@[simp] theorem sumUnder_empty (k : J × K) :
    sumUnder (∅ : Std.TreeMap J (Std.TreeMap K ℤ)) k = 0 := by
  rw [sumUnder, Std.TreeMap.getD_emptyc, sumAt_empty]

end Empty

section Insert
variable [Std.TransOrd K] [Std.LawfulEqOrd K] [DecidableEq K]

theorem sumAt_insert (sums : Std.TreeMap K ℤ) (k : K) (n : ℤ) (i : K) :
    sumAt (sums.insert k n) i = if k = i then n else sumAt sums i := by
  simp only [sumAt, Std.TreeMap.getD_insert, Std.LawfulEqCmp.compare_eq_iff_eq]

/-- What an addition does to the sum at a key. -/
theorem sumAt_addAt (h : (addAt sums k n : Outcome ε _) = .ok sums') (i : K) :
    sumAt sums' i = sumAt sums i + booked (some (k, n)) i := by
  obtain ⟨_, rfl⟩ := addAt_eq_ok.mp h
  rw [sumAt_insert, booked]
  split
  · next hi => rw [hi]
  · rw [add_zero]

theorem sumAt_addAt_le (h : (addAt sums k n : Outcome ε _) = .ok sums')
    (hle : ∀ i, sumAt sums i ≤ maxI128) (i : K) : sumAt sums' i ≤ maxI128 := by
  obtain ⟨hfit, rfl⟩ := addAt_eq_ok.mp h
  rw [sumAt_insert]
  split
  · exact hfit.2
  · exact hle i

variable [Std.TransOrd J]

theorem sumUnder_addUnder_le (h : (addUnder table j k n : Outcome ε _) = .ok table')
    (hle : ∀ i, sumUnder table i ≤ maxI128) (i : J × K) : sumUnder table' i ≤ maxI128 := by
  simp only [addUnder, bind_eq_ok, pure_eq_ok] at h
  obtain ⟨row, hrow, rfl⟩ := h
  rw [sumUnder, Std.TreeMap.getD_insert]
  split
  · exact sumAt_addAt_le hrow (fun k' => hle (j, k')) i.2
  · exact hle i

variable [Std.LawfulEqOrd J] [DecidableEq J]

theorem sumUnder_addUnder (h : (addUnder table j k n : Outcome ε _) = .ok table') (i : J × K) :
    sumUnder table' i = sumUnder table i + booked (some ((j, k), n)) i := by
  simp only [addUnder, bind_eq_ok, pure_eq_ok] at h
  obtain ⟨row, hrow, rfl⟩ := h
  obtain ⟨i, i'⟩ := i
  by_cases hi : j = i
  · subst hi
    rw [sumUnder, Std.TreeMap.getD_insert_self, sumAt_addAt hrow, sumUnder]
    simp only [booked, Prod.mk.injEq, true_and]
  · rw [sumUnder, Std.TreeMap.getD_insert, if_neg (by simpa using hi), booked_of_ne, add_zero,
      sumUnder]
    exact fun h => hi (congrArg Prod.fst h).symm

end Insert

/-! ### The maps sum up bookings -/

section Sums
variable [DecidableEq J] [DecidableEq K] {f : α → Option (K × ℤ)} {g : α → Option ((J × K) × ℤ)}
  {h : List α} {x : α}

/-- An amount can be added when the sum with it is in range. -/
theorem SumsUp.exists_addAt (hs : SumsUp f h (sumAt sums)) (hx : f x = some (k, n))
    (hr : InRange f (h ++ [x])) : ∃ sums', (Host.addAt sums k n : Outcome ε _) = .ok sums' := by
  obtain ⟨h0, hle⟩ := hr k
  have hsum : sumAt sums k + n = tally f (h ++ [x]) k := by
    rw [tally_snoc, hx, booked_self, hs.eq]
  have hmin := minI128_le_zero
  exact ⟨_, addAt_eq_ok.mpr ⟨⟨by omega, by omega⟩, rfl⟩⟩

theorem SumsUp.exists_addUnder (hs : SumsUp g h (sumUnder table)) (hx : g x = some ((j, k), n))
    (hr : InRange g (h ++ [x])) :
    ∃ table', (Host.addUnder table j k n : Outcome ε _) = .ok table' := by
  obtain ⟨h0, hle⟩ := hr (j, k)
  have hsum : sumAt (table.getD j ∅) k + n = tally g (h ++ [x]) (j, k) := by
    rw [tally_snoc, hx, booked_self, ← hs.eq, sumUnder]
  have hmin := minI128_le_zero
  have hrow : (Host.addAt (table.getD j ∅) k n : Outcome ε _) = .ok _ :=
    addAt_eq_ok.mpr ⟨⟨by omega, by omega⟩, rfl⟩
  exact ⟨_, by rw [Host.addUnder, hrow]; rfl⟩

variable [Std.TransOrd K] [Std.LawfulEqOrd K]

theorem SumsUp.addAt (hs : SumsUp f h (sumAt sums)) (hx : f x = some (k, n))
    (hadd : (addAt sums k n : Outcome ε _) = .ok sums') : SumsUp f (h ++ [x]) (sumAt sums') where
  eq i := by rw [sumAt_addAt hadd, hs.eq, tally_snoc, hx]
  le := sumAt_addAt_le hadd hs.le

theorem SumsUp.addUnder [Std.TransOrd J] [Std.LawfulEqOrd J] (hs : SumsUp g h (sumUnder table))
    (hx : g x = some ((j, k), n)) (hadd : (addUnder table j k n : Outcome ε _) = .ok table') :
    SumsUp g (h ++ [x]) (sumUnder table') where
  eq i := by rw [sumUnder_addUnder hadd, hs.eq, tally_snoc, hx]
  le := sumUnder_addUnder_le hadd hs.le

end Sums

/-! ### The entries of a map of positive sums -/

section Positive
variable [Std.TransOrd K]

/-- No sum is there without an amount. -/
def AllPositive (sums : Std.TreeMap K ℤ) : Prop := ∀ (k : K) (n : ℤ), sums[k]? = some n → 0 < n

theorem AllPositive.empty : AllPositive (∅ : Std.TreeMap K ℤ) := by
  intro k n h
  rw [Std.TreeMap.getElem?_emptyc] at h
  cases h

theorem AllPositive.sumAt_nonneg (hp : AllPositive sums) (k : K) : 0 ≤ sumAt sums k := by
  rw [sumAt, Std.TreeMap.getD_eq_getD_getElem?]
  cases hk : sums[k]? with
  | none => exact le_rfl
  | some m => exact (hp k m hk).le

theorem AllPositive.addAt (hp : AllPositive sums) (hn : 0 < n)
    (hadd : (addAt sums k n : Outcome ε _) = .ok sums') : AllPositive sums' := by
  obtain ⟨_, rfl⟩ := addAt_eq_ok.mp hadd
  have hold := hp.sumAt_nonneg k
  intro i m hi
  rw [Std.TreeMap.getElem?_insert] at hi
  split at hi
  · obtain rfl := Option.some.inj hi
    omega
  · exact hp i m hi

/-- The entries of the map are the keys with a positive sum. -/
theorem AllPositive.mem_toList [Std.LawfulEqOrd K] (hp : AllPositive sums) :
    (k, n) ∈ sums.toList ↔ sumAt sums k = n ∧ 0 < n := by
  rw [Std.TreeMap.mem_toList_iff_getElem?_eq_some, sumAt, Std.TreeMap.getD_eq_getD_getElem?]
  cases hk : sums[k]? with
  | none =>
    simp only [reduceCtorEq, Option.getD_none, false_iff]
    omega
  | some m =>
    have hm := hp k m hk
    simp only [Option.some.injEq, Option.getD_some]
    constructor
    · rintro rfl
      exact ⟨rfl, hm⟩
    · exact And.left

end Positive

end Maps

end RefractContracts.Host
