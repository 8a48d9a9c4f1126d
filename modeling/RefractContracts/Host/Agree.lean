import RefractContracts.Host.Run

/-! Two programs for one task. Fallible computations agree if both return related
values or both refuse with related errors; a trap of the first is compared with
nothing. Agreement of steps carries to runs of a contract, whose failed calls are
rolled back, against a plain machine that keeps what a failed call wrote. -/

namespace RefractContracts.Host

universe u v w

/-- `x` returns, refuses or traps, and `y` follows it unless it traps. -/
inductive Agree {ε ε' α β : Type*} (S : ε → ε' → Prop) (R : α → β → Prop) :
    Outcome ε α → Outcome ε' β → Prop
  | ok {a b} (h : R a b) : Agree S R (.ok a) (.ok b)
  | refused {e e'} (h : S e e') : Agree S R (.error (.error e)) (.error (.error e'))
  | trapped (y) : Agree S R (.error .trap) y

namespace Agree

variable {ε ε' : Type*} {α γ : Type u} {β δ : Type v} {S : ε → ε' → Prop} {R R' : α → β → Prop}
  {Q : γ → δ → Prop} {e : ε} {e' : ε'}

theorem mono {x : Outcome ε α} {y : Outcome ε' β} (h : Agree S R x y)
    (hR : ∀ a b, R a b → R' a b) : Agree S R' x y := by
  cases h with
  | ok h => exact .ok (hR _ _ h)
  | refused h => exact .refused h
  | trapped => exact .trapped _

theorem bind {x : Outcome ε α} {y : Outcome ε' β} {f : α → Outcome ε γ} {g : β → Outcome ε' δ}
    (h : Agree S R x y) (hf : ∀ a b, R a b → Agree S Q (f a) (g b)) :
    Agree S Q (x >>= f) (y >>= g) := by
  cases h with
  | ok h => exact hf _ _ h
  | refused h => exact .refused h
  | trapped => exact .trapped _

/-- A step that only the first program makes, and that succeeds or traps. -/
theorem bind_demand {γ : Type} {Q : γ → δ → Prop} {p : Prop} [Decidable p]
    {f : Unit → Outcome ε γ} {y : Outcome ε' δ} (hf : p → Agree S Q (f ()) y) :
    Agree S Q (demand p >>= f) y := by
  unfold demand
  split_ifs with hp
  · exact hf hp
  · exact .trapped _

/-- A computation that only the first program makes, and that never refuses. -/
theorem bind_left {x : Outcome ε α} {f : α → Outcome ε γ} {y : Outcome ε' δ}
    (hx : ∀ e, x ≠ .error (.error e)) (hf : ∀ a, x = .ok a → Agree S Q (f a) y) :
    Agree S Q (x >>= f) y := by
  rcases x with (e | _) | a
  · exact absurd rfl (hx e)
  · exact .trapped _
  · exact hf a rfl

/-- The first program goes on to a value of its own. -/
theorem map_left {x : Outcome ε α} {y : Outcome ε' δ} {f : α → γ} {R : α → δ → Prop}
    (h : Agree S R x y) (hf : ∀ a b, R a b → Q (f a) b) :
    Agree S Q (x >>= fun a => pure (f a)) y := by
  cases h with
  | ok h => exact .ok (hf _ _ h)
  | refused h => exact .refused h
  | trapped => exact .trapped _

/-- Related values are the values that were returned. -/
theorem with_ok {x : Outcome ε α} {y : Outcome ε' β} (h : Agree S R x y) :
    Agree S (fun a b => R a b ∧ x = .ok a ∧ y = .ok b) x y := by
  cases h with
  | ok h => exact .ok ⟨h, rfl, rfl⟩
  | refused h => exact .refused h
  | trapped => exact .trapped _

theorem of_ok {x : Outcome ε α} {y : Outcome ε' β} {a : α} (h : Agree S R x y) (hx : x = .ok a) :
    ∃ b, y = .ok b ∧ R a b := by
  subst hx
  cases h with
  | ok h => exact ⟨_, rfl, h⟩

theorem bail {p q : Prop} [Decidable p] [Decidable q] (hpq : p ↔ q) (hS : S e e') :
    Agree S (fun _ _ => ¬ p) (Host.bail p e) (Host.bail q e') := by
  unfold Host.bail
  by_cases hp : p
  · rw [if_pos hp, if_pos (hpq.mp hp)]
    exact .refused hS
  · rw [if_neg hp, if_neg (fun hq => hp (hpq.mpr hq))]
    exact .ok hp

/-- One guard in both programs. -/
theorem bail_bind {γ δ : Type} {Q : γ → δ → Prop} {p q : Prop} [Decidable p] [Decidable q]
    {f : Unit → Outcome ε γ} {g : Unit → Outcome ε' δ} (hpq : p ↔ q) (hS : S e e')
    (hf : ¬ p → Agree S Q (f ()) (g ())) :
    Agree S Q (Host.bail p e >>= f) (Host.bail q e' >>= g) :=
  (Agree.bail hpq hS).bind fun _ _ h => hf h

/-- A guard of the first program that lets every call through. -/
theorem bail_left {γ : Type} {Q : γ → δ → Prop} {p : Prop} [Decidable p]
    {f : Unit → Outcome ε γ} {y : Outcome ε' δ} (hp : ¬ p) (hf : Agree S Q (f ()) y) :
    Agree S Q (Host.bail p e >>= f) y := by
  unfold Host.bail
  rw [if_neg hp]
  exact hf

/-- One lookup in both programs, of entries and of what they stand for. -/
theorem okOr_map_bind {o : Option α} {F : α → β} {f : α → Outcome ε γ} {g : β → Outcome ε' δ}
    (hS : S e e') (hf : ∀ a, o = some a → Agree S Q (f a) (g (F a))) :
    Agree S Q (Host.okOr o e >>= f) (Host.okOr (o.map F) e' >>= g) := by
  cases o with
  | some a => exact hf a rfl
  | none => exact .refused hS

/-- Checked operations on the same exact value. -/
theorem i128Checked (x : ℤ) (hS : S e e') :
    Agree S (fun a b => a = x ∧ b = x) (Host.i128Checked x e) (Host.i128Checked x e') := by
  unfold Host.i128Checked
  split_ifs
  · exact .ok ⟨rfl, rfl⟩
  · exact .refused hS

/-- Two loops over one list, with related accumulators. -/
theorem foldlM {ι : Type*} {f : α → ι → Outcome ε α} {g : β → ι → Outcome ε' β}
    (hf : ∀ a b i, R a b → Agree S R (f a i) (g b i)) (l : List ι) {a : α} {b : β} (h : R a b) :
    Agree S R (l.foldlM f a) (l.foldlM g b) := by
  induction l generalizing a b with
  | nil => exact .ok h
  | cons i l ih =>
    simp only [List.foldlM_cons]
    exact (hf a b i h).bind fun _ _ h' => ih h'

end Agree

/-! ### Runs -/

/-- A machine answers every call and keeps the state it has then. -/
abbrev Machine (σ : Type*) (κ : Type*) (ρ : Type*) (ε : Type*) := σ → κ → σ × Outcome ε ρ

variable {σ ρ : Type u} {σ' ρ' : Type v} {κ κ' : Type*} {ε ε' : Type*}

/-- The final state and every call with its answer. -/
def Machine.run {σ κ ρ ε : Type*} (M : Machine σ κ ρ ε) (s : σ) :
    List κ → σ × List (κ × Outcome ε ρ)
  | [] => (s, [])
  | k :: calls =>
    let next := Machine.run M (M s k).1 calls
    (next.1, (k, (M s k).2) :: next.2)

/-- A contract as a machine: the host rolls a failed call back. -/
def machine (C : σ → κ → Outcome ε (σ × ρ)) : Machine σ κ ρ ε := fun s k =>
  match C s k with
  | .ok (t, o) => (t, .ok o)
  | .error e => (s, .error e)

def trapped {ε α : Type*} : Outcome ε α → Bool
  | .error .trap => true
  | _ => false

/-- The calls that were answered, with the answers. -/
def answered {κ ε ρ : Type*} (j : List (κ × Outcome ε ρ)) : List (κ × Outcome ε ρ) :=
  j.filter fun x => !trapped x.2

/-- `M` follows the contract `C` on calls that meet `P`: it agrees with every answer,
and a refusal leaves it in a related state too. -/
structure Follows (C : σ → κ → Outcome ε (σ × ρ)) (M : Machine σ' κ' ρ' ε') (f : κ → κ')
    (S : ε → ε' → Prop) (A : ρ → ρ' → Prop) (Rel : σ → σ' → Prop) (P : σ → κ → Prop) : Prop where
  agree : ∀ {s t k}, Rel s t → P s k →
    Agree S (fun p b => A p.2 b ∧ Rel p.1 (M t (f k)).1) (C s k) (M t (f k)).2
  kept : ∀ {s t k e}, Rel s t → P s k → (M t (f k)).2 = .error e → Rel s (M t (f k)).1

/-- The machine gives the answered calls of a run the same answers, and ends in a
related state. -/
theorem Follows.run {C : σ → κ → Outcome ε (σ × ρ)} {M : Machine σ' κ' ρ' ε'} {f : κ → κ'}
    {S : ε → ε' → Prop} {A : ρ → ρ' → Prop} {Rel : σ → σ' → Prop} {P : σ → κ → Prop}
    (F : Follows C M f S A Rel P) (calls : List κ) {s : σ} {t : σ'} (h : Rel s t)
    (hP : ∀ g k l, calls = g ++ k :: l → P ((machine C).run s g).1 k) :
    let c := (machine C).run s calls
    let m := M.run t ((answered c.2).map fun x => f x.1)
    List.Forall₂ (fun x y => Agree S A x.2 y.2) (answered c.2) m.2 ∧ Rel c.1 m.1 := by
  induction calls generalizing s t with
  | nil => exact ⟨.nil, h⟩
  | cons k calls ih =>
    have hPk : P s k := hP [] k calls rfl
    have hnext : ∀ g k' l, calls = g ++ k' :: l → P ((machine C).run (machine C s k).1 g).1 k' :=
      fun g k' l hg => hP (k :: g) k' l (by rw [hg]; rfl)
    have hag := F.agree h hPk
    simp only [Machine.run]
    generalize hC : C s k = x at hag
    generalize hM : (M t (f k)).2 = y at hag
    cases hag with
    | @ok p b hok =>
      have hstep : machine C s k = (p.1, .ok p.2) := by simp [machine, hC]
      rw [hstep] at hnext ⊢
      obtain ⟨hans, hrel⟩ := ih hok.2 hnext
      refine ⟨?_, hrel⟩
      simp only [answered, trapped, List.filter_cons, Bool.not_false, if_true, List.map_cons,
        Machine.run]
      exact .cons (hM ▸ .ok hok.1) hans
    | @refused e e' he =>
      have hstep : machine C s k = (s, .error (.error e)) := by simp [machine, hC]
      rw [hstep] at hnext ⊢
      obtain ⟨hans, hrel⟩ := ih (F.kept h hPk hM) hnext
      refine ⟨?_, hrel⟩
      simp only [answered, trapped, List.filter_cons, Bool.not_false, if_true, List.map_cons,
        Machine.run]
      exact .cons (hM ▸ .refused he) hans
    | trapped =>
      have hstep : machine C s k = (s, .error .trap) := by simp [machine, hC]
      rw [hstep] at hnext ⊢
      exact ih h hnext

/-! ### Views -/

/-- Calls that do not touch a view can be left out of a run: calls that only depend on the
view get the same answers. -/
theorem Machine.run_filter {σ κ ρ ε V : Type*} {M : Machine σ κ ρ ε} {p : κ → Bool} (view : σ → V)
    (hidden : ∀ s k, p k = false → view (M s k).1 = view s)
    (seen : ∀ s t k, p k = true → view s = view t →
      view (M s k).1 = view (M t k).1 ∧ (M s k).2 = (M t k).2)
    (calls : List κ) {s t : σ} (h : view s = view t) :
    (M.run s calls).2.filter (fun x => p x.1) = (M.run t (calls.filter p)).2 := by
  induction calls generalizing s t with
  | nil => rfl
  | cons k calls ih =>
    cases hk : p k with
    | false =>
      rw [List.filter_cons_of_neg (by simp [hk]), Machine.run,
        List.filter_cons_of_neg (by simp [hk])]
      exact ih ((hidden s k hk).trans h)
    | true =>
      obtain ⟨hview, hanswer⟩ := seen s t k hk h
      rw [List.filter_cons_of_pos hk, Machine.run, Machine.run,
        List.filter_cons_of_pos (by simp [hk]), hanswer, ih hview]

end RefractContracts.Host
