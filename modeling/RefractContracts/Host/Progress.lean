import Mathlib.Order.Monotone.Basic
import RefractContracts.Host.Outcome

/-! Calls that only add to a state. The states are ordered by what is in them, and a call attains a
fact if it leads to a later state where the fact holds of what it returns. A fact that later states
keep is attained by a sequence or a loop when it is attained by one of the calls in it. -/

namespace RefractContracts.Host

variable {σ ε α β ι : Type}

abbrev Progress (σ ε α : Type) := StateT σ (Outcome ε) α

/-! ### The values of a loop -/

/-- Every item has a value that `P` holds of, and every value an item. -/
structure Matched (P : ι → α → Prop) (l : List ι) (as : List α) : Prop where
  value : ∀ i ∈ l, ∃ a ∈ as, P i a
  item : ∀ a ∈ as, ∃ i ∈ l, P i a

section Matched
variable {P Q : ι → α → Prop} {l : List ι} {as : List α} {i : ι} {a : α}

theorem Matched.nil : Matched P [] [] := ⟨List.forall_mem_nil _, List.forall_mem_nil _⟩

theorem Matched.cons (h : Matched P l as) (ha : P i a) : Matched P (i :: l) (a :: as) where
  value := List.forall_mem_cons.mpr ⟨⟨a, List.mem_cons_self, ha⟩, fun j hj =>
    (h.value j hj).imp fun _ hb => ⟨List.mem_cons_of_mem _ hb.1, hb.2⟩⟩
  item := List.forall_mem_cons.mpr ⟨⟨i, List.mem_cons_self, ha⟩, fun b hb =>
    (h.item b hb).imp fun _ hj => ⟨List.mem_cons_of_mem _ hj.1, hj.2⟩⟩

theorem Matched.imp (h : Matched P l as) (hPQ : ∀ i a, P i a → Q i a) : Matched Q l as where
  value j hj := (h.value j hj).imp fun _ hb => ⟨hb.1, hPQ _ _ hb.2⟩
  item b hb := (h.item b hb).imp fun _ hj => ⟨hj.1, hPQ _ _ hj.2⟩

theorem mapM_matched {f : ι → Outcome ε α} (h : l.mapM f = .ok as) :
    Matched (fun i a => f i = .ok a) l as := by
  induction l generalizing as with
  | nil =>
    obtain rfl := (pure_eq_ok _ _).mp h
    exact .nil
  | cons i l ih =>
    simp only [List.mapM_cons, bind_eq_ok, pure_eq_ok] at h
    obtain ⟨a, ha, rest, hrest, rfl⟩ := h
    exact (ih hrest).cons ha

end Matched

namespace Progress

/-- Stop with an error. -/
def fail (e : ε) : Progress σ ε α := fun _ => .error (.error e)

theorem bind_eq_ok {x : Progress σ ε α} {f : α → Progress σ ε β} {s t : σ} {b : β} :
    (x >>= f) s = .ok (b, t) ↔ ∃ a mid, x s = .ok (a, mid) ∧ f a mid = .ok (b, t) := by
  have hbind : (x >>= f) s = (x s >>= fun r => f r.1 r.2) := rfl
  rw [hbind, Host.bind_eq_ok, Prod.exists]

theorem lift_eq_ok {x : Outcome ε α} {s t : σ} {a : α} :
    (liftM x : Progress σ ε α) s = .ok (a, t) ↔ x = .ok a ∧ t = s := by
  have hlift : (liftM x : Progress σ ε α) s = (x >>= fun a => pure (a, s)) := rfl
  rw [hlift, Host.bind_eq_ok]
  constructor
  · rintro ⟨_, hx, hret⟩
    cases hret
    exact ⟨hx, rfl⟩
  · rintro ⟨hx, rfl⟩
    exact ⟨a, hx, rfl⟩

variable [Preorder σ]

/-- A call that returns leads to a later state, and `P` holds there of what it returns. -/
def Attains (x : Progress σ ε α) (P : α → σ → Prop) : Prop :=
  ∀ s a t, x s = .ok (a, t) → s ≤ t ∧ P a t

/-- What is attained is attained for good. -/
def Lasting (P : α → σ → Prop) : Prop := ∀ a, Monotone (P a)

section Rules
variable {x : Progress σ ε α} {f : α → Progress σ ε β} {P : α → σ → Prop} {Q : β → σ → Prop}

theorem Attains.mono {P' : α → σ → Prop} (hx : Attains x P) (h : ∀ a t, P a t → P' a t) :
    Attains x P' :=
  fun s a t hs => ⟨(hx s a t hs).1, h a t (hx s a t hs).2⟩

theorem attains_pure {a : α} (h : ∀ s, P a s) : Attains (pure a : Progress σ ε α) P := by
  intro s b t hs
  cases hs
  exact ⟨le_rfl, h s⟩

theorem attains_fail (e : ε) : Attains (fail e : Progress σ ε α) P := nofun

theorem attains_modify {g : σ → σ} {P : σ → Prop} (hle : ∀ s, s ≤ g s) (h : ∀ s, P (g s)) :
    Attains (modify g : Progress σ ε Unit) fun _ => P := by
  intro s u t hs
  cases hs
  exact ⟨hle s, h s⟩

/-- What the outcome is gives what comes next. -/
theorem attains_lift_bind {y : Outcome ε α} (h : ∀ a, y = .ok a → Attains (f a) Q) :
    Attains ((liftM y : Progress σ ε α) >>= f) Q := by
  intro s b t hs
  obtain ⟨a, mid, hlift, hf⟩ := bind_eq_ok.mp hs
  obtain ⟨hy, rfl⟩ := lift_eq_ok.mp hlift
  exact h a hy _ b t hf

theorem attains_lift {y : Outcome ε α} (h : ∀ a s, y = .ok a → P a s) :
    Attains (liftM y : Progress σ ε α) P := by
  intro s a t hs
  obtain ⟨hy, rfl⟩ := lift_eq_ok.mp hs
  exact ⟨le_rfl, h a _ hy⟩

/-- The first call attains what lasts, and the second one adds to it. -/
theorem Attains.bind {R : α → β → σ → Prop} (hx : Attains x P) (hP : Lasting P)
    (hf : ∀ a, Attains (f a) (R a)) (h : ∀ a b t, P a t → R a b t → Q b t) :
    Attains (x >>= f) Q := by
  intro s b t hs
  obtain ⟨a, mid, hmid, hlast⟩ := bind_eq_ok.mp hs
  obtain ⟨hle, hPmid⟩ := hx s a mid hmid
  obtain ⟨hle', hR⟩ := hf a mid b t hlast
  exact ⟨hle.trans hle', h a b t (hP a hle' hPmid) hR⟩

end Rules

section Loops
variable {f : ι → Progress σ ε α} {P : ι → α → σ → Prop} {l : List ι}

theorem lasting_matched (hP : ∀ i, Lasting (P i)) (l : List ι) :
    Lasting fun as t => Matched (fun i a => P i a t) l as :=
  fun _ _ _ hle hall => hall.imp fun i a => hP i a hle

/-- The values of a loop, each with what its call attains. -/
theorem attains_mapM (hf : ∀ i ∈ l, Attains (f i) (P i)) (hP : ∀ i, Lasting (P i)) :
    Attains (l.mapM f) fun as t => Matched (fun i a => P i a t) l as := by
  induction l with
  | nil => exact attains_pure fun _ => .nil
  | cons i l ih =>
    obtain ⟨hi, hl⟩ := List.forall_mem_cons.mp hf
    rw [List.mapM_cons]
    refine hi.bind (hP i) (R := fun a as t => ∃ rest, as = a :: rest ∧
      Matched (fun i a => P i a t) l rest) (fun a => ?_) ?_
    · refine (ih hl).bind (lasting_matched hP l) (R := fun rest as _ => as = a :: rest)
        (fun _ => ?_) ?_
      · exact attains_pure fun _ => rfl
      · exact fun rest as t hall has => ⟨rest, has, hall⟩
    · rintro a _ t hPa ⟨rest, rfl, hall⟩
      exact hall.cons hPa

/-- A loop attains what each of its calls attains. -/
theorem attains_forM {f : ι → Progress σ ε PUnit} {P : ι → σ → Prop}
    (hf : ∀ i ∈ l, Attains (f i) fun _ => P i) (hP : ∀ i, Monotone (P i)) :
    Attains (l.forM f) fun _ t => ∀ i ∈ l, P i t := by
  induction l with
  | nil => exact attains_pure fun _ => List.forall_mem_nil _
  | cons i l ih =>
    obtain ⟨hi, hl⟩ := List.forall_mem_cons.mp hf
    exact hi.bind (fun _ => hP i) (fun _ => ih hl) fun _ _ t hPi hall =>
      List.forall_mem_cons.mpr ⟨hPi, hall⟩

end Loops

end Progress

end RefractContracts.Host
