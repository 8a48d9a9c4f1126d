import RefractContracts.Host.Codec

/-! Values one after the other in a stream. A local reader looks at no more of its input than what
it takes, up to padding that the end of the input may cut off. Read to the end, a stream of values
falls into parts, one for each value, and each part read alone gives its value. -/

namespace RefractContracts.Host.Reader

variable {σ ε α β : Type}

/-- Take up to `n` elements, and no error if there are fewer. -/
def skip (n : ℕ) : Reader σ ε Unit := fun s => .ok ((), s.drop n)

/-- A value and the part of the input that it was read from. -/
def captured (p : Reader σ ε α) : Reader σ ε (α × List σ) := fun s => do
  let (a, rest) ← p s
  .ok ((a, s.take (s.length - rest.length)), rest)

/-- Values up to the end of the input; a reader that takes nothing would go on for ever. -/
def untilEnd (p : Reader σ ε α) : ℕ → List σ → Outcome ε (List α)
  | _, [] => .ok []
  | 0, _ :: _ => .error .trap
  | n + 1, x :: s => do
    let (a, rest) ← p (x :: s)
    let as ← untilEnd p n rest
    .ok (a :: as)

/-- All values of the input. -/
def all (p : Reader σ ε α) (s : List σ) : Outcome ε (List α) := untilEnd p s.length s

/-! ### Local readers -/

/-- What the reader takes is the same whatever is left of the rest of the input. -/
def Local (p : Reader σ ε α) : Prop := ∀ s a rest, p s = .ok (a, rest) →
  ∃ part, s = part ++ rest ∧ ∀ t, t <+: rest → p (part ++ t) = .ok (a, t)

section Local
variable {p : Reader σ ε α} {f : α → Reader σ ε β}

theorem Local.shrinks (hp : Local p) : Shrinks p := by
  intro s a rest h
  obtain ⟨part, rfl, -⟩ := hp s a rest h
  rw [List.length_append]
  exact Nat.le_add_left _ _

theorem Local.pure (a : α) : Local (pure a : Reader σ ε α) := by
  rintro s _ _ ⟨⟩
  exact ⟨[], rfl, fun _ _ => rfl⟩

theorem Local.fail (e : ε) : Local (fail e : Reader σ ε α) := nofun

theorem Local.trap : Local (fun _ => .error .trap : Reader σ ε α) := nofun

theorem local_take (n : ℕ) (e : ε) : Local (take n e : Reader σ ε (List σ)) := by
  intro s a rest h
  obtain ⟨hle, rfl, rfl⟩ := take_eq_ok.mp h
  refine ⟨s.take n, (List.take_append_drop n s).symm, fun t _ => ?_⟩
  have hlength : (s.take n).length = n := List.length_take_of_le hle
  have hread := reads_take (s.take n) e t
  rwa [hlength] at hread

/-- Padding that is cut off is followed by nothing. -/
theorem local_skip (n : ℕ) : Local (skip n : Reader σ ε Unit) := by
  rintro s _ _ ⟨⟩
  refine ⟨s.take n, (List.take_append_drop n s).symm, fun t ht => ?_⟩
  rcases le_total n s.length with hle | hle
  · have hlength : (s.take n).length = n := List.length_take_of_le hle
    rw [skip, List.drop_left' hlength]
  · rw [List.drop_eq_nil_of_le hle, List.prefix_nil] at ht
    rw [ht, skip, List.append_nil, List.drop_eq_nil_of_le (List.length_take_le n s)]

theorem Local.bind (hp : Local p) (hf : ∀ a, Local (f a)) : Local (p >>= f) := by
  intro s b rest h
  obtain ⟨a, mid, hmid, hrest⟩ := bind_eq_ok.mp h
  obtain ⟨part, rfl, hpart⟩ := hp s a mid hmid
  obtain ⟨part', rfl, hpart'⟩ := hf a mid b rest hrest
  refine ⟨part ++ part', (List.append_assoc _ _ _).symm, fun t ht => ?_⟩
  obtain ⟨u, rfl⟩ := ht
  rw [List.append_assoc, bind_apply, hpart (part' ++ t) ⟨u, by simp⟩]
  exact hpart' t ⟨u, rfl⟩

theorem Local.map {g : α → β} (hp : Local p) : Local (p >>= fun a => Pure.pure (g a)) :=
  hp.bind fun a => .pure (g a)

theorem Local.times (hp : Local p) (n : ℕ) : Local (times p n) := by
  induction n with
  | zero => exact .pure []
  | succ n ih => exact hp.bind fun a => ih.map

theorem Local.captured (hp : Local p) : Local (captured p) := by
  intro s b rest h
  simp only [Reader.captured, Host.bind_eq_ok, Prod.exists, Except.ok.injEq, Prod.mk.injEq] at h
  obtain ⟨a, rest', hread, rfl, rfl⟩ := h
  obtain ⟨part, rfl, hpart⟩ := hp s a rest' hread
  refine ⟨part, rfl, fun t ht => ?_⟩
  simp [Reader.captured, hpart t ht]

/-- What is captured is what was taken. -/
theorem captured_part {s part rest : List σ} {a : α}
    (h : captured p s = .ok ((a, part), rest)) : p s = .ok (a, rest) ∧
      part = s.take (s.length - rest.length) := by
  simp only [Reader.captured, Host.bind_eq_ok, Prod.exists, Except.ok.injEq, Prod.mk.injEq] at h
  obtain ⟨a', rest', hread, ⟨rfl, rfl⟩, rfl⟩ := h
  exact ⟨hread, rfl⟩

/-- A local reader that calls itself. -/
theorem Guarded.local {e : ε} {body : Reader σ ε α → Reader σ ε α} (h : Guarded e body)
    (hbody : ∀ p, Local p → Local (body p)) : Local (recursive e body) := by
  have hfuelled (n : ℕ) : Local (fuelled e body n) := by
    induction n with
    | zero => exact .fail e
    | succ n ih => exact hbody _ ih
  intro s a rest hs
  obtain ⟨part, hsplit, hpart⟩ := hfuelled s.length s a rest hs
  refine ⟨part, hsplit, fun t ht => ?_⟩
  have hlength : (part ++ t).length ≤ s.length := by
    rw [hsplit, List.length_append, List.length_append]
    exact Nat.add_le_add_left ht.length_le _
  rw [← h.agree_recursive s.length (part ++ t) hlength]
  exact hpart t ht

end Local

/-! ### Reading to the end -/

section All
variable {p : Reader σ ε α} {s : List σ} {as : List α}

theorem untilEnd_nil (n : ℕ) : untilEnd p n [] = .ok [] := by
  cases n <;> rfl

/-- One value, and then those of the rest. -/
theorem untilEnd_of_ok {n : ℕ} {a : α} {rest : List σ} (h : p s = .ok (a, rest)) (hs : s ≠ []) :
    untilEnd p (n + 1) s = (untilEnd p n rest >>= fun as => .ok (a :: as)) := by
  cases s with
  | nil => exact absurd rfl hs
  | cons x s => rw [untilEnd, h]; rfl

theorem untilEnd_eq_ok {n : ℕ} (h : untilEnd p n s = .ok as) : s = [] ∧ as = [] ∨
    ∃ m a rest bs, n = m + 1 ∧ p s = .ok (a, rest) ∧ untilEnd p m rest = .ok bs ∧ as = a :: bs := by
  cases s with
  | nil =>
    rw [untilEnd_nil] at h
    exact .inl ⟨rfl, (Except.ok.inj h).symm⟩
  | cons x s =>
    cases n with
    | zero => cases h
    | succ n =>
      simp only [untilEnd, Host.bind_eq_ok, Prod.exists, Except.ok.injEq] at h
      obtain ⟨a, rest, hread, bs, hrest, rfl⟩ := h
      exact .inr ⟨n, a, rest, bs, rfl, hread, hrest, rfl⟩

/-- Read with parts, a stream is its parts in their order, and each part alone gives its value. -/
theorem untilEnd_captured {n : ℕ} {as : List (α × List σ)} (hp : Local p) (hconsumes : Consumes p)
    (h : untilEnd (captured p) n s = .ok as) :
    s = (as.map Prod.snd).flatten ∧ ∀ x ∈ as, all (captured p) x.2 = .ok [x] := by
  induction n generalizing s as with
  | zero =>
    rcases untilEnd_eq_ok h with ⟨rfl, rfl⟩ | ⟨m, _, _, _, hm, -⟩
    · exact ⟨rfl, nofun⟩
    · cases hm
  | succ n ih =>
    rcases untilEnd_eq_ok h with ⟨rfl, rfl⟩ | ⟨m, ⟨a, part⟩, rest, bs, hm, hread, hrest, rfl⟩
    · exact ⟨rfl, nofun⟩
    obtain rfl := Nat.succ.inj hm
    obtain ⟨hs, hparts⟩ := ih hrest
    obtain ⟨hread, hpart⟩ := captured_part hread
    obtain ⟨part', rfl, hlocal⟩ := hp s a rest hread
    obtain rfl : part = part' := by simpa using hpart
    refine ⟨?_, List.forall_mem_cons.mpr ⟨?_, hparts⟩⟩
    · rw [List.map_cons, List.flatten_cons, ← hs]
    · have hne : part ≠ [] := by
        rintro rfl
        exact absurd (hconsumes _ a rest hread) (lt_irrefl _)
      obtain ⟨k, hk⟩ := Nat.exists_eq_succ_of_ne_zero (List.length_pos_iff.mpr hne).ne'
      have hsingle : p part = .ok (a, []) := by simpa using hlocal [] List.nil_prefix
      have hcaptured : captured p part = .ok ((a, part), []) := by simp [captured, hsingle]
      rw [all, hk, untilEnd_of_ok hcaptured hne, untilEnd_nil]
      rfl

/-- Written one after the other, the values are read. -/
theorem all_reads {chunks : List (List σ)} (h : List.Forall₂ (Reads p) chunks as)
    (hne : ∀ c ∈ chunks, c ≠ []) {n : ℕ} (hn : chunks.flatten.length ≤ n) :
    untilEnd p n chunks.flatten = .ok as := by
  induction h generalizing n with
  | nil => exact untilEnd_nil n
  | @cons chunk a chunks as hread _ ih =>
    rw [List.forall_mem_cons] at hne
    have hpos : 0 < chunk.length := List.length_pos_iff.mpr hne.1
    rw [List.flatten_cons, List.length_append] at hn
    obtain ⟨m, rfl⟩ := Nat.exists_eq_add_of_le' (show 1 ≤ n by omega)
    have hfirst : p (chunk ++ chunks.flatten) = .ok (a, chunks.flatten) := hread _
    rw [List.flatten_cons, untilEnd_of_ok hfirst (List.append_ne_nil_of_left_ne_nil hne.1 _),
      ih hne.2 (by omega)]
    rfl

end All

/-! ### Readers of images -/

section Map

theorem fuelled_map {f : α → β} {e : ε} {body : Reader σ ε α → Reader σ ε α}
    {body' : Reader σ ε β → Reader σ ε β} (h : ∀ p, body' (f <$> p) = f <$> body p) (n : ℕ) :
    fuelled e body' n = f <$> fuelled e body n := by
  induction n with
  | zero => rfl
  | succ n ih => rw [fuelled, ih, h, fuelled]

theorem recursive_map {f : α → β} {e : ε} {body : Reader σ ε α → Reader σ ε α}
    {body' : Reader σ ε β → Reader σ ε β} (h : ∀ p, body' (f <$> p) = f <$> body p) :
    recursive e body' = f <$> recursive e body := by
  funext s
  rw [recursive, fuelled_map h]
  rfl

theorem times_map (f : α → β) (p : Reader σ ε α) (n : ℕ) :
    times (f <$> p) n = List.map f <$> times p n := by
  induction n with
  | zero => rfl
  | succ n ih =>
    rw [times, times, ih]
    simp only [map_bind, map_pure, bind_map_left, List.map_cons]

theorem captured_map (f : α → β) (p : Reader σ ε α) :
    captured (f <$> p) = Prod.map f id <$> captured p := by
  funext s
  show (do let (a, rest) ← (p s >>= fun r => pure (f r.1, r.2)); _) =
    (captured p s >>= fun r => pure (Prod.map f id r.1, r.2))
  rw [captured]
  simp only [bind_assoc, pure_bind]
  rfl

theorem untilEnd_map (f : α → β) (p : Reader σ ε α) (n : ℕ) (s : List σ) :
    untilEnd (f <$> p) n s = List.map f <$> untilEnd p n s := by
  induction n generalizing s with
  | zero => cases s <;> rfl
  | succ n ih =>
    cases s with
    | nil => rfl
    | cons x s =>
      rw [untilEnd, untilEnd]
      show (do let (a, rest) ← (p (x :: s) >>= fun r => pure (f r.1, r.2)); _) = _
      simp only [bind_assoc, pure_bind, map_bind, ih, bind_map_left]
      rfl

theorem all_map (f : α → β) (p : Reader σ ε α) (s : List σ) :
    all (f <$> p) s = List.map f <$> all p s := untilEnd_map f p s.length s

end Map

end RefractContracts.Host.Reader
