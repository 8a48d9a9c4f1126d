import RefractContracts.Host.Outcome

/-! Readers of encoded values. A reader takes a value from the front of its input or fails, and
it reads a value from an encoding if it does so whatever follows; encodings one after the other
are read one after the other. A reader that calls itself is a fixed point: if it takes something
from the input before each call, a call for each element of the input is as good as any number. -/

namespace RefractContracts.Host

variable {σ ε α β : Type}

abbrev Reader (σ ε α : Type) := StateT (List σ) (Outcome ε) α

namespace Reader

/-- Take the first `n` elements, or fail with `e`. -/
def take (n : ℕ) (e : ε) : Reader σ ε (List σ) := fun s =>
  if n ≤ s.length then .ok (s.take n, s.drop n) else .error (.error e)

/-- Stop with an error. -/
def fail (e : ε) : Reader σ ε α := fun _ => .error (.error e)

/-- One value after the other. -/
def times (p : Reader σ ε α) : ℕ → Reader σ ε (List α)
  | 0 => pure []
  | n + 1 => do
    let a ← p
    let as ← times p n
    pure (a :: as)

theorem bind_apply (p : Reader σ ε α) (f : α → Reader σ ε β) (s : List σ) :
    (p >>= f) s = (p s >>= fun r => f r.1 r.2) := rfl

theorem bind_eq_ok {p : Reader σ ε α} {f : α → Reader σ ε β} {s rest : List σ} {b : β} :
    (p >>= f) s = .ok (b, rest) ↔ ∃ a mid, p s = .ok (a, mid) ∧ f a mid = .ok (b, rest) := by
  rw [bind_apply, Host.bind_eq_ok, Prod.exists]

/-! ### Reading what was written -/

section Reads
variable {p : Reader σ ε α} {f : α → Reader σ ε β} {s t : List σ} {a : α} {b : β}

/-- The reader takes `a` from the encoding `s`, whatever follows. -/
def Reads (p : Reader σ ε α) (s : List σ) (a : α) : Prop := ∀ rest, p (s ++ rest) = .ok (a, rest)

theorem Reads.pure (a : α) : Reads (pure a : Reader σ ε α) [] a := fun _ => rfl

/-- What was read is gone, and the rest is for what comes next. -/
theorem Reads.then (hp : Reads p s a) (f : α → Reader σ ε β) (rest : List σ) :
    (p >>= f) (s ++ rest) = f a rest := by
  rw [bind_apply, hp]
  rfl

theorem Reads.bind (hp : Reads p s a) (hf : Reads (f a) t b) : Reads (p >>= f) (s ++ t) b := by
  intro rest
  rw [List.append_assoc, hp.then f, hf]

/-- What is read is all that is returned. -/
theorem Reads.map {g : α → β} (hp : Reads p s a) :
    Reads (p >>= fun a => Pure.pure (g a)) s (g a) := by
  have h := hp.bind (f := fun a => Pure.pure (g a)) (.pure (g a))
  rwa [List.append_nil] at h

theorem reads_take (s : List σ) (e : ε) : Reads (take s.length e) s s := by
  intro rest
  rw [take, if_pos (by rw [List.length_append]; exact Nat.le_add_right _ _), List.take_left,
    List.drop_left]

theorem Reads.times {chunks : List (List σ)} {as : List α} (h : List.Forall₂ (Reads p) chunks as) :
    Reads (times p as.length) chunks.flatten as := by
  induction h with
  | nil => exact .pure []
  | cons hfirst _ ih => exact hfirst.bind (ih.map)

end Reads

/-! ### What is left of the input -/

section Left
variable {p q : Reader σ ε α} {f g : α → Reader σ ε β} {k n : ℕ}

/-- What is left is no longer than the input. -/
def Shrinks (p : Reader σ ε α) : Prop := ∀ s a rest, p s = .ok (a, rest) → rest.length ≤ s.length

/-- What is left is shorter than the input. -/
def Consumes (p : Reader σ ε α) : Prop := ∀ s a rest, p s = .ok (a, rest) → rest.length < s.length

/-- The readers do the same with inputs of up to `k` elements. -/
def AgreeUpTo (k : ℕ) (p q : Reader σ ε α) : Prop := ∀ s, s.length ≤ k → p s = q s

theorem Consumes.shrinks (hp : Consumes p) : Shrinks p := fun s a rest h => (hp s a rest h).le

theorem Shrinks.pure (a : α) : Shrinks (pure a : Reader σ ε α) := by
  rintro s _ _ ⟨⟩
  exact le_rfl

theorem Shrinks.fail (e : ε) : Shrinks (fail e : Reader σ ε α) := nofun

theorem Shrinks.bind (hp : Shrinks p) (hf : ∀ a, Shrinks (f a)) : Shrinks (p >>= f) := by
  intro s b rest h
  obtain ⟨a, mid, hmid, hrest⟩ := bind_eq_ok.mp h
  exact (hf a mid b rest hrest).trans (hp s a mid hmid)

theorem Consumes.bind (hp : Consumes p) (hf : ∀ a, Shrinks (f a)) : Consumes (p >>= f) := by
  intro s b rest h
  obtain ⟨a, mid, hmid, hrest⟩ := bind_eq_ok.mp h
  exact (hf a mid b rest hrest).trans_lt (hp s a mid hmid)

theorem take_eq_ok {e : ε} {s a rest : List σ} :
    take n e s = .ok (a, rest) ↔ n ≤ s.length ∧ s.take n = a ∧ s.drop n = rest := by
  unfold take
  split_ifs with h <;> simp [h]

theorem shrinks_take (n : ℕ) (e : ε) : Shrinks (take n e : Reader σ ε (List σ)) := by
  intro s a rest h
  obtain ⟨-, -, rfl⟩ := take_eq_ok.mp h
  rw [List.length_drop]
  exact Nat.sub_le _ _

theorem consumes_take (hn : 0 < n) (e : ε) : Consumes (take n e : Reader σ ε (List σ)) := by
  intro s a rest h
  obtain ⟨hle, -, rfl⟩ := take_eq_ok.mp h
  rw [List.length_drop]
  omega

theorem AgreeUpTo.refl (k : ℕ) (p : Reader σ ε α) : AgreeUpTo k p p := fun _ _ => rfl

theorem AgreeUpTo.mono (h : AgreeUpTo n p q) (hk : k ≤ n) : AgreeUpTo k p q :=
  fun s hs => h s (hs.trans hk)

/-- After something was taken, the readers need to agree on shorter inputs only. -/
theorem AgreeUpTo.bind_of_consumes (hp : Consumes p) (hfg : ∀ a, AgreeUpTo k (f a) (g a)) :
    AgreeUpTo (k + 1) (p >>= f) (p >>= g) := by
  intro s hs
  rw [bind_apply, bind_apply]
  cases h : p s with
  | error e => rfl
  | ok r =>
    refine hfg r.1 r.2 ?_
    have := hp s r.1 r.2 h
    omega

/-- The readers agree on inputs of up to `k` elements and leave no more than they were given. -/
structure Alike (k : ℕ) (p q : Reader σ ε α) : Prop where
  shrinks : Shrinks p
  agree : AgreeUpTo k p q

namespace Alike

theorem refl (hp : Shrinks p) : Alike k p p := ⟨hp, .refl k p⟩

theorem pure (a : α) : Alike k (pure a : Reader σ ε α) (pure a) := .refl (.pure a)

theorem bind (hp : Alike k p q) (hfg : ∀ a, Alike k (f a) (g a)) : Alike k (p >>= f) (q >>= g) := by
  refine ⟨hp.shrinks.bind fun a => (hfg a).shrinks, fun s hs => ?_⟩
  rw [bind_apply, bind_apply, ← hp.agree s hs]
  cases h : p s with
  | error e => rfl
  | ok r => exact (hfg r.1).agree r.2 ((hp.shrinks s r.1 r.2 h).trans hs)

theorem map {g : α → β} (hp : Alike k p q) :
    Alike k (p >>= fun a => Pure.pure (g a)) (q >>= fun a => Pure.pure (g a)) :=
  hp.bind fun a => .pure (g a)

theorem times (hp : Alike k p q) (n : ℕ) : Alike k (times p n) (times q n) := by
  induction n with
  | zero => exact .pure []
  | succ n ih => exact hp.bind fun a => ih.map

end Alike

end Left

/-! ### Readers that call themselves -/

section Recursive
variable (e : ε) (body : Reader σ ε α → Reader σ ε α)

/-- The reader with calls up to a depth; below it the input has run out. -/
def fuelled : ℕ → Reader σ ε α
  | 0 => fail e
  | n + 1 => body (fuelled n)

/-- The reader that calls itself in `body`. -/
def recursive : Reader σ ε α := fun s => fuelled e body s.length s

variable {e body}

/-- The body fails on an empty input and takes something before it calls the reader. -/
structure Guarded (e : ε) (body : Reader σ ε α → Reader σ ε α) : Prop where
  empty : ∀ p, body p [] = .error (.error e)
  consumes : ∀ p, Shrinks p → Consumes (body p)
  agree : ∀ k p q, Alike k p q → AgreeUpTo (k + 1) (body p) (body q)

namespace Guarded

theorem shrinks_fuelled (h : Guarded e body) (n : ℕ) : Shrinks (fuelled e body n) := by
  induction n with
  | zero => exact .fail e
  | succ n ih => exact (h.consumes _ ih).shrinks

theorem agree_succ (h : Guarded e body) (n : ℕ) :
    AgreeUpTo n (fuelled e body n) (fuelled e body (n + 1)) := by
  induction n with
  | zero =>
    intro s hs
    obtain rfl := List.length_eq_zero_iff.mp (Nat.le_zero.mp hs)
    exact (h.empty _).symm
  | succ n ih => exact h.agree n _ _ ⟨h.shrinks_fuelled n, ih⟩

theorem agree_add (h : Guarded e body) (n m : ℕ) :
    AgreeUpTo n (fuelled e body n) (fuelled e body (n + m)) := by
  induction m with
  | zero => exact .refl n _
  | succ m ih =>
    intro s hs
    rw [ih s hs]
    exact (h.agree_succ (n + m)).mono (Nat.le_add_right n m) s hs

/-- No input needs a greater depth than its length. -/
theorem agree_recursive (h : Guarded e body) (n : ℕ) :
    AgreeUpTo n (fuelled e body n) (recursive e body) := by
  intro s hs
  obtain ⟨m, rfl⟩ := Nat.exists_eq_add_of_le hs
  exact (h.agree_add s.length m s le_rfl).symm

theorem recursive_eq (h : Guarded e body) : recursive e body = body (recursive e body) := by
  funext s
  cases hs : s.length with
  | zero =>
    obtain rfl := List.length_eq_zero_iff.mp hs
    exact (h.empty _).symm
  | succ n =>
    rw [recursive, hs]
    exact h.agree n _ _ ⟨h.shrinks_fuelled n, h.agree_recursive n⟩ s hs.le

end Guarded

end Recursive

end Reader

end RefractContracts.Host
