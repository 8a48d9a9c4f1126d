import Mathlib.Data.List.Nodup
import Mathlib.Logic.Function.Basic

/-! Maps of stored entries. A contract's write replaces the entry of one key; a
property of all entries is kept if the new entry has it, and a key without an
entry is none of the stored ones. A list may enumerate the keys that have an entry,
and a second map may mirror the entries of a first. -/

namespace RefractContracts.Host

variable {κ α : Type*} {f g : κ → Option α} {i j : κ} {a : α}

theorem ne_of_absent (hi : f i = none) (hj : f j = some a) : j ≠ i := by
  rintro rfl
  rw [hi] at hj
  cases hj

/-- An entry after a write is the new one, or was there before. -/
theorem update_eq_some [DecidableEq κ] {b : α} (h : Function.update f j (some a) i = some b) :
    (i = j ∧ b = a) ∨ (i ≠ j ∧ f i = some b) := by
  by_cases hij : i = j
  · subst hij
    rw [Function.update_self, Option.some.injEq] at h
    exact .inl ⟨rfl, h.symm⟩
  · rw [Function.update_of_ne hij] at h
    exact .inr ⟨hij, h⟩

/-- A write of one stored entry, seen at another: it is the entry written, or it stays. -/
theorem stored_update [DecidableEq κ] {b : α} (hi : f i = some a) (hj : f j = some b) (c : α) :
    (i = j ∧ a = b ∧ Function.update f j (some c) i = some c) ∨
      (i ≠ j ∧ Function.update f j (some c) i = some a) := by
  by_cases hij : i = j
  · subst hij
    exact .inl ⟨rfl, Option.some.inj (hi.symm.trans hj), Function.update_self _ _ _⟩
  · exact .inr ⟨hij, (Function.update_of_ne hij _ _).trans hi⟩

/-- What every entry and the new one have, every entry has after the write. -/
theorem forall_update [DecidableEq κ] {P : κ → α → Prop} (h : ∀ k b, f k = some b → P k b)
    (hg : g = Function.update f i (some a)) (ha : P i a) : ∀ k b, g k = some b → P k b := by
  intro k b hk
  rw [hg] at hk
  rcases update_eq_some hk with ⟨rfl, rfl⟩ | ⟨-, hk⟩
  · exact ha
  · exact h k b hk

/-- A key that is absent stays absent when a stored entry is written. -/
theorem absent_update [DecidableEq κ] {b : α} (hi : f i = none) (hj : f j = some a) :
    Function.update f j (some b) i = none := by
  rw [Function.update_of_ne (ne_of_absent hi hj).symm, hi]

/-- The entries after a change of one of them, if there is one. -/
def written [DecidableEq κ] (f : κ → Option α) : Option (κ × Option α) → κ → Option α
  | some (k, entry) => Function.update f k entry
  | none => f

/-! ### Enumerated entries -/

/-- The list holds each key that has an entry, once. -/
structure Enumerates (l : List κ) (f : κ → Option α) : Prop where
  distinct : l.Nodup
  mem : ∀ k, k ∈ l ↔ (f k).isSome

namespace Enumerates

variable {l : List κ}

theorem empty : Enumerates ([] : List κ) fun _ => (none : Option α) :=
  ⟨List.nodup_nil, by simp⟩

theorem insert [DecidableEq κ] (e : Enumerates l f) (hi : f i = none) (a : α) :
    Enumerates (l ++ [i]) (Function.update f i (some a)) where
  distinct := by
    have hnew : i ∉ l := fun hmem => by simpa [hi] using (e.mem i).mp hmem
    rw [← List.concat_eq_append]
    exact e.distinct.concat hnew
  mem k := by
    rw [List.mem_append, List.mem_singleton]
    by_cases hk : k = i
    · simp [hk]
    · rw [Function.update_of_ne hk, e.mem k]
      exact or_iff_left hk

theorem remove [DecidableEq κ] (e : Enumerates l f) (i : κ) :
    Enumerates (l.filter (· ≠ i)) (Function.update f i none) where
  distinct := e.distinct.filter _
  mem k := by
    rw [List.mem_filter, decide_eq_true_iff]
    by_cases hk : k = i
    · simp [hk]
    · rw [Function.update_of_ne hk, e.mem k]
      exact and_iff_left hk

end Enumerates

/-! ### Mirrored entries -/

section Mirror
variable {β : Type*} {m : α → β} {e : κ → Option β}

/-- The entries `e` are the images of the entries `f`, under the same keys. -/
def Mirrors (m : α → β) (f : κ → Option α) (e : κ → Option β) : Prop := ∀ k, e k = (f k).map m

theorem Mirrors.write [DecidableEq κ] (h : Mirrors m f e) (i : κ) (a : α) :
    Mirrors m (Function.update f i (some a)) (Function.update e i (some (m a))) := by
  intro k
  by_cases hk : k = i
  · rw [hk, Function.update_self, Function.update_self, Option.map_some]
  · rw [Function.update_of_ne hk, Function.update_of_ne hk, h k]

theorem Mirrors.stored (h : Mirrors m f e) (hi : f i = some a) : e i = some (m a) := by
  rw [h i, hi, Option.map_some]

theorem Mirrors.isSome (h : Mirrors m f e) (k : κ) : (e k).isSome = (f k).isSome := by
  rw [h k, Option.isSome_map]

end Mirror

end RefractContracts.Host
