import RefractContracts.Host.Agree
import RefractContracts.Host.History

/-! Methods that work in place. A method on `&mut self` leaves a state whether it
answers or fails, and what it wrote before it failed stays written. So that a failure
changes nothing is a property of a method: it holds of reads, and of a method that
writes only where nothing can fail any more. A machine of such methods answers every
call, if only by a refusal; as a contract it has a receipt for each of them. -/

namespace RefractContracts.Host

/-- A method on `&mut self`: the state it leaves, and its answer. -/
def Method (σ ε α : Type) := σ → σ × Outcome ε α

namespace Method

variable {σ τ ε α β : Type} {s t m : σ} {a a' : α} {b : β} {e : Fault ε} {x : Method σ ε α}
  {f : α → Method σ ε β}

instance : Monad (Method σ ε) where
  pure a := fun s => (s, .ok a)
  bind x f := fun s =>
    match x s with
    | (t, .ok a) => f a t
    | (t, .error e) => (t, .error e)

instance : MonadStateOf σ (Method σ ε) where
  get := fun s => (s, .ok s)
  set t := fun _ => (t, .ok ())
  modifyGet f := fun s => ((f s).2, .ok (f s).1)

/-- A check or a computation that does not touch the state. -/
def check (y : Outcome ε α) : Method σ ε α := fun s => (s, y)

theorem bind_apply (x : Method σ ε α) (f : α → Method σ ε β) (s : σ) : (x >>= f) s =
    match x s with
    | (t, .ok a) => f a t
    | (t, .error e) => (t, .error e) := rfl

/-! ### What a method leaves when it answers -/

@[simp] theorem pure_ok : (pure a : Method σ ε α) s = (t, .ok a') ↔ s = t ∧ a = a' := by
  show (s, Except.ok a) = _ ↔ _
  simp

@[simp] theorem modify_ok (g : σ → σ) (u : PUnit) :
    (modify g : Method σ ε PUnit) s = (t, .ok u) ↔ g s = t := by
  show (g s, Except.ok _) = _ ↔ _
  simp

theorem bind_ok :
    (x >>= f) s = (t, .ok b) ↔ ∃ m a, x s = (m, .ok a) ∧ f a m = (t, .ok b) := by
  rw [bind_apply]
  rcases x s with ⟨m, e | a⟩ <;> simp

@[simp] theorem check_bind_ok (y : Outcome ε α) :
    (check y >>= f) s = (t, .ok b) ↔ ∃ a, y = .ok a ∧ f a s = (t, .ok b) := by
  rw [bind_ok]
  simp [check]

@[simp] theorem get_bind (f : σ → Method σ ε β) : (get >>= f) s = f s s := rfl

@[simp] theorem modify_bind (g : σ → σ) (f : PUnit → Method σ ε β) :
    (modify g >>= f) s = f ⟨⟩ (g s) := rfl

theorem ok_check_bind {y : Outcome ε α} (hy : y = .ok a) : (check y >>= f) s = f a s := by
  rw [hy]
  rfl

theorem error_check_bind {y : Outcome ε α} (hy : y = .error e) :
    (check y >>= f) s = (s, .error e) := by
  rw [hy]
  rfl

/-! ### What a method leaves when it fails -/

theorem bind_error : (x >>= f) s = (t, .error e) ↔
    x s = (t, .error e) ∨ ∃ m a, x s = (m, .ok a) ∧ f a m = (t, .error e) := by
  rw [bind_apply]
  rcases x s with ⟨m, e' | a⟩ <;> simp

/-- The method always answers. -/
def Answers (x : Method σ ε α) : Prop := ∀ s t e, x s ≠ (t, .error e)

/-- A failure leaves the state as it was. -/
def Atomic (x : Method σ ε α) : Prop := ∀ s t e, x s = (t, .error e) → t = s

theorem Answers.atomic (h : Answers x) : Atomic x := fun s t e hx => absurd hx (h s t e)

theorem answers_pure (a : α) : Answers (pure a : Method σ ε α) := nofun

theorem answers_modify (g : σ → σ) : Answers (modify g : Method σ ε PUnit) := nofun

theorem Answers.bind (hx : Answers x) (hf : ∀ a, Answers (f a)) : Answers (x >>= f) := by
  intro s t e h
  rcases bind_error.mp h with h | ⟨m, a, -, h⟩
  · exact hx s t e h
  · exact hf a m t e h

/-- A failure of the method started in `s` leaves `t`. -/
def FailsTo (x : Method σ ε α) (s t : σ) : Prop := ∀ t' e, x s = (t', .error e) → t' = t

theorem Atomic.failsTo (h : Atomic x) (s : σ) : FailsTo x s s := h s

theorem Answers.failsTo (h : Answers x) (s t : σ) : FailsTo x s t :=
  fun t' e hx => absurd hx (h s t' e)

theorem FailsTo.bind (hx : FailsTo x s t)
    (hf : ∀ m a, x s = (m, .ok a) → FailsTo (f a) m t) : FailsTo (x >>= f) s t := by
  intro t' e h
  rcases bind_error.mp h with h | ⟨m, a, hm, h⟩
  · exact hx t' e h
  · exact hf m a hm t' e h

theorem FailsTo.bind_answers (hx : FailsTo x s t) (hf : ∀ a, Answers (f a)) :
    FailsTo (x >>= f) s t :=
  hx.bind fun m a _ => (hf a).failsTo m t

theorem failsTo_get_bind {f : σ → Method σ ε β} (hf : FailsTo (f s) s t) :
    FailsTo (get >>= f) s t := hf

theorem failsTo_modify_bind {g : σ → σ} {f : PUnit → Method σ ε β}
    (hf : FailsTo (f ⟨⟩) (g s) t) : FailsTo (modify g >>= f) s t := hf

/-- A check after a write fails only where the write changed nothing. -/
theorem failsTo_check_bind_of {y : Outcome ε α} (he : ∀ e, y = .error e → s = t)
    (hf : ∀ a, y = .ok a → FailsTo (f a) s t) : FailsTo (check y >>= f) s t := by
  apply FailsTo.bind
  · intro t' e h
    obtain ⟨rfl, hy⟩ := Prod.mk.inj h
    exact he e hy
  · intro m a h
    obtain ⟨rfl, hy⟩ := Prod.mk.inj h
    exact hf a hy

/-- Before anything is written a check may fail. -/
theorem failsTo_check_bind {y : Outcome ε α} (hf : ∀ a, y = .ok a → FailsTo (f a) s s) :
    FailsTo (check y >>= f) s s :=
  failsTo_check_bind_of (fun _ _ => rfl) hf

/-- After a write a check has to succeed. -/
theorem failsTo_ok_bind {y : Outcome ε α} (hy : y = .ok a) (hf : FailsTo (f a) s t) :
    FailsTo (check y >>= f) s t := by
  subst hy
  exact hf

theorem Atomic.bind (hx : Atomic x) (hf : ∀ a, Answers (f a)) : Atomic (x >>= f) :=
  fun s => (hx.failsTo s).bind_answers hf

theorem atomic_check_bind {y : Outcome ε α} (hf : ∀ a, Atomic (f a)) :
    Atomic (check y >>= f) :=
  fun s => failsTo_check_bind fun a _ => (hf a).failsTo s

theorem atomic_get_bind {f : σ → Method σ ε β} (hf : ∀ s, Atomic (f s)) : Atomic (get >>= f) :=
  fun s => failsTo_get_bind ((hf s).failsTo s)

/-! ### Methods on one entry -/

section Within
variable {read : σ → Option τ} {write : σ → τ → σ} {absent : ε} {y : Method τ ε α}

/-- A method on an entry of the state: `get_mut(..).ok_or(absent)?`, then `y`. -/
def within (read : σ → Option τ) (write : σ → τ → σ) (absent : ε) (y : Method τ ε α) :
    Method σ ε α := fun s =>
  match read s with
  | some v => (write s (y v).1, (y v).2)
  | none => (s, .error (.error absent))

theorem within_ok : within read write absent y s = (t, .ok a) ↔
    ∃ v w, read s = some v ∧ y v = (w, .ok a) ∧ write s w = t := by
  unfold within
  cases read s with
  | none => simp
  | some v => simp [Prod.ext_iff, and_comm]

theorem within_error : within read write absent y s = (t, .error e) ↔
    (read s = none ∧ s = t ∧ .error absent = e) ∨
      ∃ v w, read s = some v ∧ y v = (w, .error e) ∧ write s w = t := by
  unfold within
  cases read s with
  | none => simp
  | some v => simp [Prod.ext_iff, and_comm]

theorem FailsTo.within (hy : ∀ v, read s = some v → FailsTo y v v)
    (hw : ∀ v, read s = some v → write s v = s) : FailsTo (within read write absent y) s s := by
  intro t e h
  rcases within_error.mp h with ⟨-, rfl, -⟩ | ⟨v, w, hv, hfail, rfl⟩
  · rfl
  · rw [hy v hv w e hfail, hw v hv]

end Within

end Method

/-! ### Loops in place -/

section Each
variable {α β ε : Type} {f : α → Outcome ε (α × Option β)} {g : α → α} {b : α → Option β}
  {xs front back : List α} {x : α} {e : Fault ε}

/-- `for x in xs.iter_mut() { .. }`: an element is rewritten and may yield a result. A
failure ends the loop, and what was rewritten by then stays so. -/
def updateEach (f : α → Outcome ε (α × Option β)) : List α → List α × Outcome ε (List β)
  | [] => ([], .ok [])
  | x :: xs =>
    match f x with
    | .error e => (x :: xs, .error e)
    | .ok (y, b) => (y :: (updateEach f xs).1, (b.toList ++ ·) <$> (updateEach f xs).2)

theorem updateEach_cons (hx : f x = .ok (g x, b x)) : updateEach f (x :: xs) =
    (g x :: (updateEach f xs).1, ((b x).toList ++ ·) <$> (updateEach f xs).2) := by
  rw [updateEach, hx]

theorem updateEach_ok (h : ∀ x ∈ xs, f x = .ok (g x, b x)) :
    updateEach f xs = (xs.map g, .ok (xs.filterMap b)) := by
  induction xs with
  | nil => rfl
  | cons x xs ih =>
    rw [List.forall_mem_cons] at h
    rw [updateEach_cons h.1, ih h.2]
    cases hb : b x with
    | none => rw [List.filterMap_cons_none hb]; rfl
    | some y => rw [List.filterMap_cons_some hb]; rfl

/-- The elements before the first that fails are rewritten. -/
theorem updateEach_error (h : ∀ x ∈ front, f x = .ok (g x, b x)) (hx : f x = .error e) :
    updateEach f (front ++ x :: back) = (front.map g ++ x :: back, .error e) := by
  induction front with
  | nil => simp [updateEach, hx]
  | cons y front ih =>
    rw [List.forall_mem_cons] at h
    rw [List.cons_append, updateEach_cons h.1, ih h.2]
    rfl

/-- A list where not all elements have `p` splits at the first that has not. -/
theorem split_first {p : α → Bool} (h : ¬ ∀ x ∈ xs, p x = true) :
    ∃ x back, xs = xs.takeWhile p ++ x :: back ∧ p x = false := by
  induction xs with
  | nil => exact absurd (List.forall_mem_nil _) h
  | cons y xs ih =>
    by_cases hy : p y = true
    · rw [List.forall_mem_cons, not_and] at h
      obtain ⟨x, back, hsplit, hx⟩ := ih (h hy)
      refine ⟨x, back, ?_, hx⟩
      rw [List.takeWhile_cons_of_pos hy, List.cons_append, ← hsplit]
    · refine ⟨y, xs, ?_, by simpa using hy⟩
      rw [List.takeWhile_cons_of_neg hy, List.nil_append]

/-- Rewritten or not, every element is related to what it was. -/
theorem updateEach_forall₂ {R : α → α → Prop} (hrefl : ∀ x ∈ xs, R x x)
    (h : ∀ x ∈ xs, ∀ y b, f x = .ok (y, b) → R x y) :
    List.Forall₂ R xs (updateEach f xs).1 := by
  induction xs with
  | nil => exact .nil
  | cons x xs ih =>
    rw [List.forall_mem_cons] at hrefl h
    rw [updateEach]
    split
    · exact .cons hrefl.1 (List.forall₂_same.mpr hrefl.2)
    · next y b hy => exact .cons (h.1 y b hy) (ih hrefl.2 h.2)

end Each

/-! ### Machines of methods -/

section Answering
variable {σ κ ρ ε : Type}

/-- A machine as a contract: every call is answered, a refusal is an answer too. -/
def Machine.answering (M : Machine σ κ ρ ε) : Contract σ κ (Outcome ε ρ) Empty :=
  fun s k => .ok (M s k)

/-- One call of a machine: the state it was made in, its answer and the state it left. -/
abbrev Answered (σ κ ρ ε : Type) := Receipt σ κ (Outcome ε ρ)

variable {M : Machine σ κ ρ ε} {s t : σ} {k : κ} {o : Outcome ε ρ}

@[simp] theorem Machine.answering_eq_ok : M.answering s k = .ok (t, o) ↔ M s k = (t, o) := by
  simp [Machine.answering]

/-- A run has a receipt for every call. -/
theorem run_answering_calls (M : Machine σ κ ρ ε) (s : σ) (calls : List κ) :
    (run M.answering s calls).2.map (·.call) = calls := by
  induction calls using List.reverseRecOn with
  | nil => rfl
  | append_singleton calls k ih =>
    rw [run_snoc]
    simp [commit, Machine.answering, ih]

end Answering

end RefractContracts.Host
