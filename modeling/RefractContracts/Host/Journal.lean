import Mathlib.Data.List.Nodup
import RefractContracts.Host.Total

/-! Append-only journals. An entry has a reference of its own, and recording a
reference again changes nothing. The entries under one key form a page, in the order
they were recorded; an entry is found at its place in its page, and stays there. -/

namespace RefractContracts.Host

/-- Entries with distinct references. -/
structure Journal {α ρ : Type*} (ref : α → ρ) where
  entries : List α
  distinct : (entries.map ref).Nodup

namespace Journal

variable {α κ ρ : Type*} {ref : α → ρ} {j : Journal ref} {x : α}

def empty (ref : α → ρ) : Journal ref := ⟨[], List.nodup_nil⟩

/-- Add an entry with a reference that is not in the journal. -/
def add (j : Journal ref) (x : α) (fresh : ref x ∉ j.entries.map ref) : Journal ref where
  entries := j.entries ++ [x]
  distinct := by
    rw [List.map_append, List.map_singleton]
    exact j.distinct.append (List.nodup_singleton _)
      (List.disjoint_singleton.mpr fresh)

/-- Record an entry, unless its reference is there already. -/
def record [DecidableEq ρ] (j : Journal ref) (x : α) : Journal ref :=
  if fresh : ref x ∉ j.entries.map ref then j.add x fresh else j

theorem record_fresh [DecidableEq ρ] (fresh : ref x ∉ j.entries.map ref) :
    (j.record x).entries = j.entries ++ [x] := by
  rw [record, dif_pos fresh]
  rfl

theorem record_known [DecidableEq ρ] (known : ref x ∈ j.entries.map ref) : j.record x = j :=
  dif_neg (not_not.mpr known)

/-! ### Pages -/

section Pages
variable [DecidableEq κ] {key : α → κ} {l : List α} {k : κ} {i : ℕ}

/-- The entries under `k`, in their order. -/
def page (key : α → κ) (l : List α) (k : κ) : List α := l.filter (key · = k)

theorem page_snoc (key : α → κ) (l : List α) (x : α) :
    page key (l ++ [x]) = Function.update (page key l) (key x) (page key l (key x) ++ [x]) := by
  funext k
  by_cases hk : k = key x
  · subst hk
    simp [page]
  · rw [Function.update_of_ne hk]
    simp [page, Ne.symm hk]

theorem place_snoc (l : List α) (x : α) (i : ℕ) :
    (l ++ [x])[i]? = if i = l.length then some x else l[i]? := by
  rcases lt_trichotomy i l.length with hi | rfl | hi
  · rw [List.getElem?_append_left hi, if_neg hi.ne]
  · rw [List.getElem?_concat_length, if_pos rfl]
  · rw [List.getElem?_eq_none (by simp; omega), List.getElem?_eq_none hi.le, if_neg hi.ne']

theorem key_of_place (h : (page key l k)[i]? = some x) : key x = k := by
  simpa using (List.mem_filter.mp (List.mem_of_getElem? h)).2

theorem mem_of_place (h : (page key l k)[i]? = some x) : x ∈ l :=
  List.mem_of_mem_filter (List.mem_of_getElem? h)

theorem exists_place (key : α → κ) (h : x ∈ l) : ∃ i : ℕ, (page key l (key x))[i]? = some x :=
  List.mem_iff_getElem?.mp (List.mem_filter.mpr ⟨h, by simp⟩)

/-- The pages hold every entry once. -/
theorem total_length (key : α → κ) (l : List α) :
    HasTotal (fun k => ((page key l k).length : ℤ)) l.length := by
  induction l using List.reverseRecOn with
  | nil => exact .zero
  | append_singleton l x ih =>
    refine (ih.change (key x) fun k hk => ?_).congr (fun _ => rfl) ?_
    · rw [page_snoc, Function.update_of_ne hk]
    · rw [page_snoc, Function.update_self]
      simp only [List.length_append, List.length_singleton]
      push_cast
      ring

/-- What the entries of a page add up to, by their places. -/
theorem total_places (l : List α) (f : α → ℤ) :
    HasTotal (fun i : ℕ => (l[i]?.map f).getD 0) (l.map f).sum := by
  induction l using List.reverseRecOn with
  | nil => exact .zero
  | append_singleton l x ih =>
    refine (ih.change l.length fun i hi => ?_).congr (fun _ => rfl) ?_
    · rw [place_snoc, if_neg hi]
    · simp

end Pages

end Journal

end RefractContracts.Host
