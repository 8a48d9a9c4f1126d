import RefractContracts.Host.History
import RefractContracts.Host.Storage
import RefractContracts.Host.Total

/-! Books by key. What is booked under each key adds up to what is booked in all, so
accounts that hold what came in less what went out hold together the difference of
the two volumes. An account is opened empty by the first entry under its key. -/

namespace RefractContracts.Host

section Volume
variable {α K : Type*} [DecidableEq K] {f i o : α → Option (K × ℤ)} {a b : K → ℤ}
variable {h : List α} {x : α}

/-- What the entries of `h` book in all. -/
def volume (f : α → Option (K × ℤ)) (h : List α) : ℤ :=
  (h.map fun x => ((f x).map Prod.snd).getD 0).sum

theorem booked_neg (k j : K) (n : ℤ) : booked (some (k, -n)) j = -booked (some (k, n)) j := by
  by_cases hj : j = k
  · rw [hj, booked_self, booked_self]
  · rw [booked_of_ne hj, booked_of_ne hj, neg_zero]

theorem hasTotal_booked (e : Option (K × ℤ)) : HasTotal (booked e) ((e.map Prod.snd).getD 0) := by
  cases e with
  | none => exact .zero
  | some e =>
    refine ⟨{e.1}, fun k hk => ?_, ?_⟩
    · apply booked_of_ne
      simpa using hk
    · rw [Finset.sum_singleton, Option.map_some, Option.getD_some]
      exact booked_self e.1 e.2

theorem hasTotal_tally (f : α → Option (K × ℤ)) (h : List α) :
    HasTotal (tally f h) (volume f h) := by
  induction h using List.reverseRecOn with
  | nil => exact .zero
  | append_singleton h x ih =>
    apply (ih.add (hasTotal_booked (f x))).congr
    · exact fun k => (tally_snoc f h x k).symm
    · simp [volume]

/-- Every account holds what `i` booked in less what `o` booked out. -/
def Balanced (i o : α → Option (K × ℤ)) (h : List α) (a : K → ℤ) : Prop :=
  ∀ k, a k = tally i h k - tally o h k

theorem Balanced.nil : Balanced i o [] fun _ => 0 := fun _ => rfl

theorem Balanced.snoc (hb : Balanced i o h a)
    (hx : ∀ k, b k = a k + booked (i x) k - booked (o x) k) : Balanced i o (h ++ [x]) b := by
  intro k
  rw [hx k, hb k, tally_snoc, tally_snoc]
  ring

theorem Balanced.total (hb : Balanced i o h a) : HasTotal a (volume i h - volume o h) := by
  apply ((hasTotal_tally i h).add ((hasTotal_tally o h).mul_right (-1))).congr
  · intro k
    rw [hb k]
    ring
  · ring

end Volume

/-! ### Accounts -/

section Entry
variable {κ α : Type*} [DecidableEq κ] {f : κ → Option α} {k : κ} {a b : α}

/-- `map.entry(k).or_insert(a)`. -/
def orInsert (f : κ → Option α) (k : κ) (a : α) : κ → Option α :=
  Function.update f k (some ((f k).getD a))

theorem orInsert_stored (h : f k = some b) (a : α) : orInsert f k a = f := by
  rw [orInsert, h, Option.getD_some, ← h, Function.update_eq_self]

@[simp] theorem update_orInsert (f : κ → Option α) (k : κ) (a : α) (v : Option α) :
    Function.update (orInsert f k a) k v = Function.update f k v :=
  Function.update_idem _ _ f

/-- What the accounts hold after one of them was written. -/
theorem getD_update (f : κ → Option ℤ) (k j : κ) (v : Option ℤ) :
    ((Function.update f k v) j).getD 0 =
      (f j).getD 0 + booked (some (k, v.getD 0 - (f k).getD 0)) j := by
  by_cases hj : j = k
  · subst hj
    simp
  · rw [Function.update_of_ne hj, booked_of_ne hj, add_zero]

end Entry

end RefractContracts.Host
