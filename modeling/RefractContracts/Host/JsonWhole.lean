import RefractContracts.Host.JsonRead

/-! Texts that break off. What is read of a text before something else is read of every text that
goes on after it, and an object ends with its bracket; so a part of the text of an object is read as
that object or not at all. -/

namespace RefractContracts.Host.JsonText

/-! ### Texts that go on -/

section Extends
variable {α : Type} {item item' : List Char → Option (α × List Char)} {n m : ℕ}
  {s r t : List Char}

/-- What is read before something else is read before whatever follows that. -/
structure Extends (item item' : List Char → Option (α × List Char)) : Prop where
  empty : item [] = none
  append : ∀ {s a r}, item s = some (a, r) → r ≠ [] → ∀ t, item' (s ++ t) = some (a, r ++ t)

theorem map_append {β : Type} {x y : Option (α × List Char)} {f : α → β} {b : β}
    (h : x.map (fun p => (f p.1, p.2)) = some (b, r))
    (hxy : ∀ a, x = some (a, r) → y = some (a, r ++ t)) :
    y.map (fun p => (f p.1, p.2)) = some (b, r ++ t) := by
  obtain ⟨⟨a, r'⟩, hx, heq⟩ := Option.map_eq_some_iff.mp h
  obtain ⟨rfl, rfl⟩ := Prod.mk.inj heq
  rw [hxy a hx, Option.map_some]

theorem readHex4_append {u : ℕ} (h : readHex4 s = some (u, r)) (t : List Char) :
    readHex4 (s ++ t) = some (u, r ++ t) := by
  rcases s with _ | ⟨a, _ | ⟨b, _ | ⟨c, _ | ⟨d, s⟩⟩⟩⟩
  · cases h
  · cases h
  · cases h
  · cases h
  · simp only [readHex4, Option.bind_eq_bind, Option.bind_eq_some_iff, List.cons_append,
      Option.some.injEq, Prod.mk.injEq] at h ⊢
    obtain ⟨a, ha, b, hb, c, hc, d, hd, hu, rfl⟩ := h
    exact ⟨a, ha, b, hb, c, hc, d, hd, hu, rfl⟩

theorem readUnit_append {u : ℕ} (h : readUnit s = some (u, r)) (t : List Char) :
    readUnit (s ++ t) = some (u, r ++ t) := by
  cases s with
  | nil => cases h
  | cons c s =>
    rw [List.cons_append]
    simp only [readUnit] at h ⊢
    split_ifs at h with hcontrol hslash
    · obtain ⟨rfl, rfl⟩ := Prod.mk.inj (Option.some.inj h)
      rw [if_neg hcontrol, if_pos hslash]
    · rw [if_neg hcontrol, if_neg hslash]
      cases s with
      | nil => cases h
      | cons d s =>
        rw [List.cons_append]
        simp only at h ⊢
        split_ifs at h ⊢ with hu
        · exact readHex4_append h t
        · obtain ⟨v, hv, heq⟩ := Option.map_eq_some_iff.mp h
          obtain ⟨rfl, rfl⟩ := Prod.mk.inj heq
          rw [hv, Option.map_some]

theorem readUnits_append {us : List ℕ} (h : readUnits n s = some (us, r)) (hnm : n ≤ m)
    (t : List Char) : readUnits m (s ++ t) = some (us, r ++ t) := by
  induction n generalizing s us m with
  | zero => cases h
  | succ n ih =>
    obtain ⟨m, rfl⟩ := Nat.exists_eq_add_of_le' (Nat.le_of_add_left_le hnm)
    cases s with
    | nil => cases h
    | cons c s =>
      rw [List.cons_append]
      simp only [readUnits] at h ⊢
      split_ifs at h ⊢ with hquote
      · obtain ⟨rfl, rfl⟩ := Prod.mk.inj (Option.some.inj h)
        rfl
      · simp only [Option.bind_eq_bind, Option.bind_eq_some_iff, Prod.exists, Option.some.injEq,
          Prod.mk.injEq] at h ⊢
        obtain ⟨u, s', hu, us', s'', hus, rfl, rfl⟩ := h
        exact ⟨u, s' ++ t, readUnit_append hu t, us', s'' ++ t,
          ih hus (Nat.le_of_succ_le_succ hnm), rfl, rfl⟩

theorem readString_append {k : String} (h : readString s = some (k, r)) (t : List Char) :
    readString (s ++ t) = some (k, r ++ t) := by
  obtain ⟨⟨us, s'⟩, hus, heq⟩ := Option.map_eq_some_iff.mp h
  obtain ⟨rfl, rfl⟩ := Prod.mk.inj heq
  have hle : s.length ≤ (s ++ t).length := by
    rw [List.length_append]
    exact Nat.le_add_right _ _
  rw [readString, readUnits_append hus hle t, Option.map_some]

theorem skip_append (h : skip s ≠ []) (t : List Char) : skip (s ++ t) = skip s ++ t := by
  rw [skip, List.dropWhile_append, if_neg (by rwa [List.isEmpty_iff])]
  rfl

theorem ne_nil_of_skip (h : skip s ≠ []) : s ≠ [] := by
  rintro rfl
  exact h rfl

/-- What is read after blanks is read before whatever follows that. -/
theorem Extends.after_skip (hitem : Extends item item') {a : α} (h : item (skip s) = some (a, r))
    (hr : r ≠ []) (t : List Char) : item' (skip (s ++ t)) = some (a, r ++ t) := by
  have hne : skip s ≠ [] := by
    intro hnil
    rw [hnil, hitem.empty] at h
    cases h
  rw [skip_append hne, hitem.append h hr]

theorem expect_append {c : Char} (h : expect c s = some r) (t : List Char) :
    expect c (s ++ t) = some (r ++ t) := by
  cases s with
  | nil => cases h
  | cons d s =>
    simp only [List.cons_append, expect] at h ⊢
    split_ifs at h ⊢ with hd
    rw [Option.some.inj h]

theorem readItems_nil {last : Char} (hitem : item [] = none) : readItems last item n [] = none := by
  cases n with
  | zero => rfl
  | succ n => rw [readItems, hitem, Option.bind_eq_bind, Option.bind_none]

theorem readItems_append {last : Char} {as : List α} (hitem : Extends item item')
    (h : readItems last item n s = some (as, r)) (hnm : n ≤ m) (t : List Char) :
    readItems last item' m (s ++ t) = some (as, r ++ t) := by
  induction n generalizing s as m with
  | zero => cases h
  | succ n ih =>
    obtain ⟨m, rfl⟩ := Nat.exists_eq_add_of_le' (Nat.le_of_add_left_le hnm)
    simp only [readItems, Option.bind_eq_bind, Option.bind_eq_some_iff, Prod.exists] at h ⊢
    obtain ⟨a, s', ha, h⟩ := h
    have hne : skip s' ≠ [] := by
      intro hnil
      rw [hnil] at h
      cases h
    refine ⟨a, s' ++ t, hitem.append ha (ne_nil_of_skip hne) t, ?_⟩
    obtain ⟨c, s'', hskip⟩ := List.exists_cons_of_ne_nil hne
    rw [skip_append hne, hskip, List.cons_append]
    rw [hskip] at h
    simp only at h ⊢
    split_ifs at h ⊢ with hlast hcomma
    · obtain ⟨rfl, rfl⟩ := Prod.mk.inj (Option.some.inj h)
      rfl
    · simp only [Option.bind_eq_some_iff, Prod.exists, Option.some.injEq, Prod.mk.injEq] at h ⊢
      obtain ⟨as', s₃, has, rfl, rfl⟩ := h
      have hnext : skip s'' ≠ [] := by
        intro hnil
        rw [hnil, readItems_nil hitem.empty] at has
        cases has
      refine ⟨as', s₃ ++ t, ?_, rfl, rfl⟩
      rw [skip_append hnext]
      exact ih has (Nat.le_of_succ_le_succ hnm)

theorem readList_append {last : Char} {as : List α} (hitem : Extends item item')
    (h : readList last item s = some (as, r)) (t : List Char) :
    readList last item' (s ++ t) = some (as, r ++ t) := by
  rw [readList] at h
  have hne : skip s ≠ [] := by
    intro hnil
    rw [hnil] at h
    cases h
  obtain ⟨c, s', hskip⟩ := List.exists_cons_of_ne_nil hne
  rw [readList, skip_append hne, hskip, List.cons_append]
  rw [hskip] at h
  simp only at h ⊢
  split_ifs at h ⊢ with hlast
  · obtain ⟨rfl, rfl⟩ := Prod.mk.inj (Option.some.inj h)
    rfl
  · refine readItems_append hitem h ?_ t
    rw [List.length_append]
    omega

theorem extends_member {value value' : List Char → Option (Value × List Char)}
    (hvalue : Extends value value') : Extends (readMember value) (readMember value') := by
  refine ⟨rfl, fun {s a r} h hr t => ?_⟩
  simp only [readMember, Option.bind_eq_bind, Option.bind_eq_some_iff, Prod.exists,
    Option.some.injEq, Prod.mk.injEq] at h ⊢
  obtain ⟨s₁, hquote, k, s₂, hk, s₃, hcolon, v, s₄, hv, rfl, rfl⟩ := h
  have hne : skip s₂ ≠ [] := by
    intro hnil
    rw [hnil] at hcolon
    cases hcolon
  refine ⟨s₁ ++ t, expect_append hquote t, k, s₂ ++ t, readString_append hk t, s₃ ++ t, ?_, v,
    s₄ ++ t, hvalue.after_skip hv hr t, rfl, rfl⟩
  rw [skip_append hne]
  exact expect_append hcolon t

theorem readNat_append {k : ℕ} (h : readNat s = some (k, r)) (hr : r ≠ []) (t : List Char) :
    readNat (s ++ t) = some (k, r ++ t) := by
  rw [readNat] at h
  split_ifs at h with hbad
  obtain ⟨rfl, rfl⟩ := Prod.mk.inj (Option.some.inj h)
  have hdrop : (s ++ t).dropWhile Char.isDigit = s.dropWhile Char.isDigit ++ t := by
    rw [List.dropWhile_append, if_neg (by rwa [List.isEmpty_iff])]
  have htake : (s ++ t).takeWhile Char.isDigit = s.takeWhile Char.isDigit := by
    have hparts := List.takeWhile_append_dropWhile (p := Char.isDigit) (l := s ++ t)
    have hparts' := List.takeWhile_append_dropWhile (p := Char.isDigit) (l := s)
    rw [hdrop, ← List.append_assoc] at hparts
    exact List.append_cancel_right ((List.append_cancel_right hparts).trans hparts'.symm)
  rw [readNat, htake, hdrop, List.head?_append_of_ne_nil _ hr, if_neg hbad]

theorem readInt_append {k : ℤ} (h : readInt s = some (k, r)) (hr : r ≠ []) (t : List Char) :
    readInt (s ++ t) = some (k, r ++ t) := by
  cases s with
  | nil => cases h
  | cons c s =>
    rw [List.cons_append]
    simp only [readInt] at h ⊢
    split_ifs at h ⊢
    · exact map_append (f := fun k : ℕ => -(k : ℤ)) h fun k hk => readNat_append hk hr t
    · exact map_append h fun k hk => readNat_append hk hr t

theorem readWord_append {word : String} {v w : Value} (h : readWord word v s = some (w, r))
    (t : List Char) : readWord word v (s ++ t) = some (w, r ++ t) := by
  rw [readWord] at h
  split_ifs at h with hword
  obtain ⟨rest, rfl⟩ := List.isPrefixOf_iff_prefix.mp hword
  obtain ⟨rfl, rfl⟩ := Prod.mk.inj (Option.some.inj h)
  rw [readWord, List.append_assoc, if_pos (List.isPrefixOf_iff_prefix.mpr ⟨rest ++ t, rfl⟩),
    List.drop_left, List.drop_left]

theorem extends_read (hnm : n ≤ m) : Extends (read n) (read m) := by
  induction n generalizing m with
  | zero => exact ⟨rfl, fun h => by cases h⟩
  | succ n ih =>
    obtain ⟨m, rfl⟩ := Nat.exists_eq_add_of_le' (Nat.le_of_add_left_le hnm)
    have hread := ih (Nat.le_of_succ_le_succ hnm)
    refine ⟨rfl, fun {s v r} h hr t => ?_⟩
    cases s with
    | nil => cases h
    | cons c s =>
      rw [List.cons_append]
      simp only [read] at h ⊢
      cases hkind : kindOf c with
      | none =>
        rw [hkind] at h
        cases h
      | some kind =>
        rw [hkind] at h
        cases kind with
        | null => exact readWord_append h t
        | true => exact readWord_append h t
        | false => exact readWord_append h t
        | int => exact map_append h fun k hk => readInt_append hk hr t
        | str => exact map_append h fun k hk => readString_append hk t
        | arr => exact map_append h fun items hitems => readList_append hread hitems t
        | obj =>
          exact map_append h fun members hmembers =>
            readList_append (extends_member hread) hmembers t

/-- An object ends with its bracket, whatever follows. -/
theorem read_object_append {v : Value} (h : read n ('{' :: s) = some (v, r)) (hnm : n ≤ m)
    (t : List Char) : read m ('{' :: (s ++ t)) = some (v, r ++ t) := by
  cases n with
  | zero => cases h
  | succ n =>
    obtain ⟨m, rfl⟩ := Nat.exists_eq_add_of_le' (Nat.le_of_add_left_le hnm)
    exact map_append h fun members hmembers =>
      readList_append (extends_member (extends_read (Nat.le_of_succ_le_succ hnm))) hmembers t

end Extends

/-! ### Whole texts -/

section Whole
variable {l : Layout} {s : List Char}

theorem loads_eq_some {v : Value} :
    loads s = some v ↔ ∃ r, read s.length (skip s) = some (v, r) ∧ skip r = [] := by
  simp only [loads, Option.bind_eq_bind, Option.bind_eq_some_iff, Prod.exists,
    Option.ite_none_right_eq_some, Option.some.injEq]
  constructor
  · rintro ⟨w, r, hread, hr, rfl⟩
    exact ⟨r, hread, hr⟩
  · rintro ⟨r, hread, hr⟩
    exact ⟨v, r, hread, hr, rfl⟩

theorem closed_of_blank (hs : ∀ c ∈ s, isBlank c = true) : Closed s := fun c hc =>
  goesOn_of_blank (hs c (List.mem_of_mem_head? hc))

/-- Blanks after a value do not matter. -/
theorem loads_dumps (v : Value) (hs : ∀ c ∈ s, isBlank c = true) :
    loads (l.dumps 0 v ++ s) = some v := by
  have hlength : (l.dumps 0 v).length ≤ (l.dumps 0 v ++ s).length := by
    rw [List.length_append]
    exact Nat.le_add_right _ _
  have hreads := reads_dumps v hlength
  refine loads_eq_some.mpr ⟨s, ?_, List.dropWhile_eq_nil_iff.mpr hs⟩
  rw [hreads.skip, hreads.read s (closed_of_blank hs)]

theorem dumps_injective : Function.Injective (l.dumps 0) := by
  intro v w h
  have hread := loads_dumps (l := l) (s := []) v (by simp)
  rw [h, loads_dumps w (by simp)] at hread
  exact (Option.some.inj hread).symm

/-- The text of an object that breaks off is that of no other value. -/
theorem loads_take (members : List (String × Value)) (hs : ∀ c ∈ s, isBlank c = true) {n : ℕ}
    {v : Value} (h : loads ((l.dumps 0 (.obj members) ++ s).take n) = some v) :
    v = .obj members := by
  obtain ⟨inner, htext⟩ : ∃ inner, l.dumps 0 (.obj members) = '{' :: inner := by
    rw [Layout.dumps]
    cases l.dumpsMembers (0 + 1) members <;> exact ⟨_, rfl⟩
  rw [htext, List.cons_append] at h
  cases n with
  | zero => cases h
  | succ n =>
    have hskip : skip ('{' :: (inner ++ s).take n) = '{' :: (inner ++ s).take n := skip_cons rfl
    obtain ⟨r, hpart, -⟩ := loads_eq_some.mp h
    rw [List.take_succ_cons, hskip] at hpart
    have hle : ('{' :: (inner ++ s).take n).length ≤ ('{' :: (inner ++ s)).length := by
      rw [List.length_cons, List.length_cons, List.length_take]
      omega
    have hread := read_object_append hpart hle ((inner ++ s).drop n)
    have hlength : (l.dumps 0 (.obj members)).length ≤ ('{' :: (inner ++ s)).length := by
      rw [htext, ← List.cons_append, List.length_append]
      exact Nat.le_add_right _ _
    have hwhole := (reads_dumps (.obj members) hlength).read s (closed_of_blank hs)
    rw [htext, List.cons_append] at hwhole
    rw [List.take_append_drop, hwhole] at hread
    exact (Prod.mk.inj (Option.some.inj hread)).1.symm

end Whole

end RefractContracts.Host.JsonText
