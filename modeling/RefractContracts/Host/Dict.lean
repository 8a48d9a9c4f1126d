import Mathlib.Data.List.Nodup
import Mathlib.Data.List.Perm.Subperm
import Mathlib.Tactic

/-! Dictionaries. A dictionary has its entries in a row, one for each key: a write replaces the
entry of its key or adds one at the end. Built from pairs, it has the keys of the pairs and for each
the value of its last pair, so it has as many entries as there are pairs exactly if no key comes
twice. -/

namespace RefractContracts.Host

universe u v

variable {κ : Type u} {α : Type v}

/-- The entry of `k` replaced by `a`, or added. -/
def putEntry [DecidableEq κ] (k : κ) (a : α) : List (κ × α) → List (κ × α)
  | [] => [(k, a)]
  | e :: l => if e.1 = k then (k, a) :: l else e :: putEntry k a l

section Put
variable [DecidableEq κ] {k k' : κ} {a : α} {l : List (κ × α)}

theorem mem_keys_putEntry : k' ∈ (putEntry k a l).map Prod.fst ↔ k' = k ∨ k' ∈ l.map Prod.fst := by
  induction l with
  | nil => simp [putEntry]
  | cons e l ih =>
    rw [putEntry]
    split_ifs with he
    · subst he
      simp
    · rw [List.map_cons, List.mem_cons, ih, List.map_cons, List.mem_cons]
      exact or_left_comm

theorem nodup_keys_putEntry (h : (l.map Prod.fst).Nodup) :
    ((putEntry k a l).map Prod.fst).Nodup := by
  induction l with
  | nil => exact List.nodup_singleton k
  | cons e l ih =>
    obtain ⟨hnew, hl⟩ := List.nodup_cons.mp h
    rw [putEntry]
    split_ifs with he
    · subst he
      exact h
    · refine List.nodup_cons.mpr ⟨fun hmem => ?_, ih hl⟩
      exact (mem_keys_putEntry.mp hmem).elim he hnew

/-- A new key comes last. -/
theorem putEntry_of_notMem (h : k ∉ l.map Prod.fst) : putEntry k a l = l ++ [(k, a)] := by
  induction l with
  | nil => rfl
  | cons e l ih =>
    rw [List.map_cons, List.mem_cons, not_or] at h
    rw [putEntry, if_neg (Ne.symm h.1), ih h.2, List.cons_append]

theorem mem_putEntry {e : κ × α} (h : e ∈ putEntry k a l) : e = (k, a) ∨ e ∈ l := by
  induction l with
  | nil => exact .inl (List.mem_singleton.mp h)
  | cons e' l ih =>
    rw [putEntry] at h
    split_ifs at h with he
    · exact (List.mem_cons.mp h).imp_right (List.mem_cons_of_mem _)
    · rcases List.mem_cons.mp h with rfl | h
      · exact .inr List.mem_cons_self
      · exact (ih h).imp_right (List.mem_cons_of_mem _)

theorem lookup_cons_eq_ite {e : κ × α} :
    (e :: l).lookup k' = if k' = e.1 then some e.2 else l.lookup k' := by
  rw [List.lookup_cons]
  by_cases hk : k' = e.1
  · have hbeq : (k' == e.1) = true := beq_iff_eq.mpr hk
    rw [hbeq, if_pos hk]
  · have hbeq : (k' == e.1) = false := beq_eq_false_iff_ne.mpr hk
    rw [hbeq, if_neg hk]

end Put

/-- Entries with distinct keys. -/
structure Dict (κ : Type u) (α : Type v) where
  entries : List (κ × α)
  distinct : (entries.map Prod.fst).Nodup
  deriving DecidableEq

namespace Dict

def empty : Dict κ α := ⟨[], List.nodup_nil⟩

section Operations
variable [DecidableEq κ] {d : Dict κ α} {k k' : κ} {a : α} {l : List (κ × α)}

/-- `d.get(k)`. -/
def get? (d : Dict κ α) (k : κ) : Option α := d.entries.lookup k

/-- `d[k] = a`. -/
def insert (d : Dict κ α) (k : κ) (a : α) : Dict κ α :=
  ⟨putEntry k a d.entries, nodup_keys_putEntry d.distinct⟩

/-- `del d[k]`. -/
def erase (d : Dict κ α) (k : κ) : Dict κ α :=
  ⟨d.entries.filter fun e => e.1 ≠ k, (List.filter_sublist.map Prod.fst).nodup d.distinct⟩

/-- The pairs written one after the other. -/
def insertAll (d : Dict κ α) (l : List (κ × α)) : Dict κ α :=
  l.foldl (fun d e => d.insert e.1 e.2) d

def ofList (l : List (κ × α)) : Dict κ α := empty.insertAll l

/-- The same keys, with what is made of the values. -/
def mapValues {β : Type v} (d : Dict κ α) (f : α → β) : Dict κ β :=
  ⟨d.entries.map fun e => (e.1, f e.2), by rw [List.map_map]; exact d.distinct⟩

theorem get?_mapValues {β : Type v} (f : α → β) : (d.mapValues f).get? k = (d.get? k).map f := by
  obtain ⟨entries, hd⟩ := d
  show (entries.map fun e => (e.1, f e.2)).lookup k = (entries.lookup k).map f
  clear hd
  induction entries with
  | nil => rfl
  | cons e l ih =>
    rw [List.map_cons, lookup_cons_eq_ite, lookup_cons_eq_ite, ih]
    split_ifs <;> rfl

/-- The entries are what is found under the keys. -/
theorem mem_entries : (k, a) ∈ d.entries ↔ d.get? k = some a := by
  obtain ⟨entries, hd⟩ := d
  rw [get?]
  induction entries with
  | nil => simp
  | cons e l ih =>
    obtain ⟨hnew, hl⟩ := List.nodup_cons.mp hd
    rw [List.mem_cons, lookup_cons_eq_ite]
    by_cases hk : k = e.1
    · have hrest : (k, a) ∉ l := fun hmem => hnew (hk ▸ List.mem_map_of_mem hmem)
      rw [if_pos hk, or_iff_left hrest, Option.some.injEq, Prod.ext_iff, and_iff_right hk]
      exact eq_comm
    · have hhead : (k, a) ≠ e := fun he => hk (congrArg Prod.fst he)
      rw [if_neg hk, or_iff_right hhead]
      exact ih hl

theorem lookup_putEntry {l : List (κ × α)} :
    (putEntry k a l).lookup k' = if k' = k then some a else l.lookup k' := by
  induction l with
  | nil =>
    rw [putEntry, lookup_cons_eq_ite]
  | cons e l ih =>
    rw [putEntry]
    split_ifs with he hk hk
    · rw [lookup_cons_eq_ite, if_pos hk]
    · rw [lookup_cons_eq_ite, if_neg hk, lookup_cons_eq_ite, if_neg (he ▸ hk)]
    · rw [lookup_cons_eq_ite, ih, if_pos hk, if_neg fun h => he (h.symm.trans hk)]
    · rw [lookup_cons_eq_ite, ih, if_neg hk, lookup_cons_eq_ite]

theorem get?_insert : (d.insert k a).get? k' = if k' = k then some a else d.get? k' :=
  lookup_putEntry

theorem putEntry_of_lookup {l : List (κ × α)} (h : l.lookup k = some a) : putEntry k a l = l := by
  induction l with
  | nil => cases h
  | cons e l ih =>
    rw [lookup_cons_eq_ite] at h
    rw [putEntry]
    split_ifs at h with hk
    · obtain rfl := Option.some.inj h
      rw [if_pos hk.symm, hk]
    · rw [if_neg (Ne.symm hk), ih h]

/-- What is there already is not written again. -/
theorem insert_of_get? (h : d.get? k = some a) : d.insert k a = d := by
  obtain ⟨entries, hd⟩ := d
  have hput : putEntry k a entries = entries := putEntry_of_lookup h
  simp only [insert, hput]

theorem lookup_filter_ne {l : List (κ × α)} :
    (l.filter fun e => e.1 ≠ k).lookup k' = if k' = k then none else l.lookup k' := by
  induction l with
  | nil => exact (ite_self _).symm
  | cons e l ih =>
    by_cases he : e.1 = k
    · rw [List.filter_cons_of_neg (by simpa using he), ih, lookup_cons_eq_ite, he]
      split_ifs <;> rfl
    · rw [List.filter_cons_of_pos (by simpa using he), lookup_cons_eq_ite, lookup_cons_eq_ite, ih]
      split_ifs with hk hk' <;> first | rfl | exact absurd (hk.symm.trans hk') he

theorem get?_erase : (d.erase k).get? k' = if k' = k then none else d.get? k' := lookup_filter_ne

theorem insertAll_cons (e : κ × α) : d.insertAll (e :: l) = (d.insert e.1 e.2).insertAll l := rfl

theorem insertAll_of_get? (h : ∀ e ∈ l, d.get? e.1 = some e.2) : d.insertAll l = d := by
  induction l with
  | nil => rfl
  | cons e l ih =>
    rw [List.forall_mem_cons] at h
    rw [insertAll_cons, insert_of_get? h.1, ih h.2]

theorem get?_insertAll (h : (l.map Prod.fst).Nodup) :
    (d.insertAll l).get? k = (l.lookup k).or (d.get? k) := by
  induction l generalizing d with
  | nil => rfl
  | cons e l ih =>
    obtain ⟨hnew, hl⟩ := List.nodup_cons.mp h
    rw [insertAll_cons, ih hl, get?_insert, lookup_cons_eq_ite]
    split_ifs with hk
    · have hnone : l.lookup k = none := by
        rw [List.lookup_eq_none_iff]
        intro p hp
        have hne : k ≠ p.1 := fun hkp => hnew (hk ▸ hkp ▸ List.mem_map_of_mem hp)
        simpa using hne
      rw [hnone]
      rfl
    · rfl

theorem mem_keys_insertAll : k ∈ (d.insertAll l).entries.map Prod.fst ↔
    k ∈ d.entries.map Prod.fst ∨ k ∈ l.map Prod.fst := by
  induction l generalizing d with
  | nil => simp [insertAll]
  | cons e l ih =>
    rw [insertAll_cons, ih, insert, mem_keys_putEntry, List.map_cons, List.mem_cons]
    tauto

theorem mem_insertAll {e : κ × α} (h : e ∈ (d.insertAll l).entries) : e ∈ d.entries ∨ e ∈ l := by
  induction l generalizing d with
  | nil => exact .inl h
  | cons e' l ih =>
    rw [insertAll_cons] at h
    rcases ih h with hput | hl
    · rcases mem_putEntry hput with rfl | hd
      · exact .inr List.mem_cons_self
      · exact .inl hd
    · exact .inr (List.mem_cons_of_mem _ hl)

/-- What is found is the value of a pair. -/
theorem mem_of_get?_ofList (h : (ofList l).get? k = some a) : (k, a) ∈ l :=
  (mem_insertAll (mem_entries.mpr h)).resolve_left List.not_mem_nil

/-- Something is found under the key of a pair. -/
theorem exists_get?_ofList (h : k ∈ l.map Prod.fst) : ∃ a, (ofList l).get? k = some a := by
  obtain ⟨⟨_, a⟩, he, rfl⟩ := List.mem_map.mp (mem_keys_insertAll.mpr (.inr h) :
    k ∈ (empty.insertAll l).entries.map Prod.fst)
  exact ⟨a, mem_entries.mp he⟩

/-- Pairs with new keys that are all distinct are the entries that are added. -/
theorem entries_insertAll (h : ((d.entries ++ l).map Prod.fst).Nodup) :
    (d.insertAll l).entries = d.entries ++ l := by
  induction l generalizing d with
  | nil => exact (List.append_nil _).symm
  | cons e l ih =>
    have hnew : e.1 ∉ d.entries.map Prod.fst := by
      rw [List.map_append, List.map_cons] at h
      exact fun hmem => (List.disjoint_of_nodup_append h) hmem List.mem_cons_self
    have hput : (d.insert e.1 e.2).entries = d.entries ++ [e] := putEntry_of_notMem hnew
    rw [insertAll_cons, ih (by rwa [hput, List.append_assoc]), hput, List.append_assoc]
    rfl

/-- There is an entry for each pair if and only if no key comes twice. -/
theorem length_ofList_iff : (ofList l).entries.length = l.length ↔ (l.map Prod.fst).Nodup := by
  constructor
  · intro hlength
    have hsubset : (ofList l).entries.map Prod.fst ⊆ l.map Prod.fst := by
      intro k hk
      exact (mem_keys_insertAll.mp hk).resolve_left List.not_mem_nil
    have hperm : ((ofList l).entries.map Prod.fst).Perm (l.map Prod.fst) := by
      refine ((ofList l).distinct.subperm hsubset).perm_of_length_le ?_
      rw [List.length_map, List.length_map, hlength]
    exact hperm.nodup_iff.mp (ofList l).distinct
  · intro hl
    rw [ofList, entries_insertAll hl]
    rfl

theorem entries_ofList (h : (l.map Prod.fst).Nodup) : (ofList l).entries = l := entries_insertAll h

end Operations

end Dict

end RefractContracts.Host
