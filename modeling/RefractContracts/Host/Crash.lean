import RefractContracts.Host.InPlace

/-! Scripts that may be cut off. A script works on a world that outlives it, with one write after
the other, and may be interrupted before any of its writes or within one, which then leaves its
place torn. What a script guarantees is stated for all its ends: for the world it returns in, and
for the world in which it stops, by an error of its own or by an interruption. A guarantee that
every run of a script keeps holds after any number of them, wherever they were cut off. -/

namespace RefractContracts.Host

/-- The world of a script, and when it is cut off: after how many more writes, and whether within
the next one. -/
structure Powered (σ : Type) where
  world : σ
  cut : Option (ℕ × Bool)

/-- An interruption is a trap; the errors are those the script ends in by itself. -/
abbrev Script (σ ε α : Type) := Method (Powered σ) ε α

namespace Script

open Method

variable {σ ε α β ι κ : Type}

/-- Look at the world. -/
def look (f : σ → Outcome ε α) : Script σ ε α := fun m => (m, f m.world)

/-- One write, which may be refused; `torn` is what an interruption within it leaves. -/
def write (f : σ → σ × Outcome ε α) (torn : σ → σ) : Script σ ε α := fun m =>
  match m.cut with
  | some (0, tears) => (⟨if tears then torn m.world else m.world, m.cut⟩, .error .trap)
  | some (n + 1, tears) => (⟨(f m.world).1, some (n, tears)⟩, (f m.world).2)
  | none => (⟨(f m.world).1, none⟩, (f m.world).2)

/-! ### All ends of a script -/

/-- A script that returns leaves a world with `Q`, one that stops a world with `R`. -/
def Ends (Q : α → σ → Prop) (R : Fault ε → σ → Prop) : Powered σ × Outcome ε α → Prop
  | (m, .ok a) => Q a m.world
  | (m, .error e) => R e m.world

/-- Started in a world with `P`, and wherever it is cut off. -/
def Triple (P : σ → Prop) (x : Script σ ε α) (Q : α → σ → Prop) (R : Fault ε → σ → Prop) : Prop :=
  ∀ m, P m.world → Ends Q R (x m)

section Triple
variable {P P' : σ → Prop} {Q Q' : α → σ → Prop} {R R' : Fault ε → σ → Prop} {S : β → σ → Prop}
  {x : Script σ ε α} {f : α → Script σ ε β}

theorem Triple.mono (h : Triple P x Q R) (hP : ∀ s, P' s → P s) (hQ : ∀ a s, Q a s → Q' a s)
    (hR : ∀ e s, R e s → R' e s) : Triple P' x Q' R' := by
  intro m hm
  have hend := h m (hP _ hm)
  rcases hx : x m with ⟨m', e | a⟩
  · rw [hx] at hend
    exact hR e _ hend
  · rw [hx] at hend
    exact hQ a _ hend

theorem Triple.pre (h : Triple P x Q R) (hP : ∀ s, P' s → P s) : Triple P' x Q R :=
  h.mono hP (fun _ _ hq => hq) fun _ _ hr => hr

theorem triple_pure {a : α} (h : ∀ s, P s → Q a s) : Triple P (pure a : Script σ ε α) Q R :=
  fun m hm => h m.world hm

theorem triple_check {y : Outcome ε α} (hok : ∀ a s, y = .ok a → P s → Q a s)
    (herr : ∀ e s, y = .error e → P s → R e s) : Triple P (check y : Script σ ε α) Q R := by
  intro m hm
  show Ends Q R (m, y)
  cases hy : y with
  | ok a => exact hok a _ hy hm
  | error e => exact herr e _ hy hm

theorem triple_look {g : σ → Outcome ε α} (hok : ∀ a s, g s = .ok a → P s → Q a s)
    (herr : ∀ e s, g s = .error e → P s → R e s) : Triple P (look g : Script σ ε α) Q R := by
  intro m hm
  show Ends Q R (m, g m.world)
  cases hy : g m.world with
  | ok a => exact hok a _ hy hm
  | error e => exact herr e _ hy hm

/-- A write is made, or cut off before or within. -/
theorem triple_write {g : σ → σ × Outcome ε α} {torn : σ → σ}
    (hok : ∀ a s t, g s = (t, .ok a) → P s → Q a t)
    (herr : ∀ e s t, g s = (t, .error e) → P s → R e t)
    (hcut : ∀ s, P s → R .trap s ∧ R .trap (torn s)) :
    Triple P (write g torn : Script σ ε α) Q R := by
  have hmade : ∀ s cut, P s → Ends Q R (⟨(g s).1, cut⟩, (g s).2) := by
    intro s cut hs
    rcases hg : g s with ⟨t, e | a⟩
    · exact herr e s t hg hs
    · exact hok a s t hg hs
  rintro ⟨s, cut⟩ hs
  match cut with
  | none => exact hmade s none hs
  | some (n + 1, tears) => exact hmade s (some (n, tears)) hs
  | some (0, true) => exact (hcut s hs).2
  | some (0, false) => exact (hcut s hs).1

theorem Triple.bind (hx : Triple P x Q R) (hf : ∀ a, Triple (Q a) (f a) S R) :
    Triple P (x >>= f) S R := by
  intro m hm
  have hend := hx m hm
  rw [bind_apply]
  rcases h : x m with ⟨m', e | a⟩
  · rw [h] at hend
    exact hend
  · rw [h] at hend
    exact hf a m' hend

/-- A check does not touch the world, which is then also a world to stop in. -/
theorem triple_check_bind {y : Outcome ε α} (hR : ∀ e s, P s → R e s)
    (hf : ∀ a, y = .ok a → Triple P (f a) S R) : Triple P (check y >>= f) S R := by
  cases hy : y with
  | ok a => exact hf a hy
  | error e => exact fun m hm => hR e m.world hm

theorem triple_look_bind {g : σ → Outcome ε α} (hR : ∀ e s, P s → R e s)
    (hf : ∀ a, Triple (fun s => g s = .ok a ∧ P s) (f a) S R) :
    Triple P (look g >>= f) S R :=
  (triple_look (fun _ _ hg hs => ⟨hg, hs⟩) fun e s _ hs => hR e s hs).bind hf

theorem triple_of_pure {p : Prop} (h : p → Triple P x Q R) :
    Triple (fun s => p ∧ P s) x Q R := fun m hm => h hm.1 m hm.2

/-- A loop keeps the invariant of its rounds. -/
theorem triple_foldlM {f : β → ι → Script σ ε β} {l : List ι} {I : β → σ → Prop}
    (h : ∀ b, ∀ i ∈ l, Triple (I b) (f b i) I R) (b : β) : Triple (I b) (l.foldlM f b) I R := by
  induction l generalizing b with
  | nil => exact triple_pure fun _ hs => hs
  | cons i l ih =>
    rw [List.foldlM_cons]
    refine (h b i List.mem_cons_self).bind fun b' => ?_
    exact ih (fun b j hj => h b j (List.mem_cons_of_mem i hj)) b'

/-- A loop does not get past a round that does not return. -/
theorem triple_foldlM_blocked {f : β → ι → Script σ ε β} {l : List ι} {i : ι}
    {I : β → σ → Prop} (h : ∀ b, ∀ j ∈ l, j ≠ i → Triple (I b) (f b j) I R)
    (hblocked : ∀ b, Triple (I b) (f b i) (fun _ _ => False) R) (hi : i ∈ l) (b : β) :
    Triple (I b) (l.foldlM f b) (fun _ _ => False) R := by
  induction l generalizing b with
  | nil => cases hi
  | cons j l ih =>
    rw [List.foldlM_cons]
    by_cases hj : j = i
    · subst hj
      exact (hblocked b).bind fun _ _ hm => hm.elim
    · refine (h b j List.mem_cons_self hj).bind fun b' => ?_
      exact ih (fun b k hk => h b k (List.mem_cons_of_mem j hk))
        ((List.mem_cons.mp hi).resolve_left (Ne.symm hj)) b'

/-- Both of two guarantees. -/
theorem Triple.and {P₂ : σ → Prop} {Q₂ : α → σ → Prop} {R₂ : Fault ε → σ → Prop}
    (h : Triple P x Q R) (h₂ : Triple P₂ x Q₂ R₂) :
    Triple (fun s => P s ∧ P₂ s) x (fun a s => Q a s ∧ Q₂ a s) fun e s => R e s ∧ R₂ e s := by
  intro m hm
  have hend := h m hm.1
  have hend₂ := h₂ m hm.2
  rcases hx : x m with ⟨m', e | a⟩
  · rw [hx] at hend hend₂
    exact ⟨hend, hend₂⟩
  · rw [hx] at hend hend₂
    exact ⟨hend, hend₂⟩

end Triple

/-! ### Scripts that only read -/

/-- Whatever holds of the world still holds at the end. -/
def Reads (x : Script σ ε α) : Prop := ∀ P : σ → Prop, Triple P x (fun _ => P) fun _ => P

section Reads
variable {x : Script σ ε α} {f : α → Script σ ε β}

theorem reads_pure (a : α) : Reads (pure a : Script σ ε α) := fun _ => triple_pure fun _ h => h

theorem reads_check (y : Outcome ε α) : Reads (check y : Script σ ε α) :=
  fun _ => triple_check (fun _ _ _ h => h) fun _ _ _ h => h

theorem reads_look (g : σ → Outcome ε α) : Reads (look g) :=
  fun _ => triple_look (fun _ _ _ h => h) fun _ _ _ h => h

theorem Reads.bind (hx : Reads x) (hf : ∀ a, Reads (f a)) : Reads (x >>= f) :=
  fun P => (hx P).bind fun a => hf a P

theorem reads_foldlM {f : β → ι → Script σ ε β} {l : List ι} (h : ∀ b i, Reads (f b i)) (b : β) :
    Reads (l.foldlM f b) :=
  fun P => triple_foldlM (fun b i _ => h b i P) b

end Reads

/-! ### Scripts that are not cut off -/

/-- Started in the world `s` and not cut off, the script returns. -/
def Finishes (s : σ) (x : Script σ ε α) (Q : α → σ → Prop) : Prop :=
  ∃ a t, x ⟨s, none⟩ = (⟨t, none⟩, .ok a) ∧ Q a t

section Finishes
variable {s t : σ} {a : α} {P : σ → Prop} {Q Q' : α → σ → Prop} {R : Fault ε → σ → Prop}
  {S : β → σ → Prop} {x : Script σ ε α} {f : α → Script σ ε β}

theorem Finishes.mono (h : Finishes s x Q) (hQ : ∀ a t, Q a t → Q' a t) : Finishes s x Q' := by
  obtain ⟨a, t, hx, ha⟩ := h
  exact ⟨a, t, hx, hQ a t ha⟩

theorem finishes_pure (h : Q a s) : Finishes s (pure a : Script σ ε α) Q := ⟨a, s, rfl, h⟩

theorem finishes_check_bind {y : Outcome ε α} (hy : y = .ok a) (h : Finishes s (f a) S) :
    Finishes s (check y >>= f) S := by
  subst hy
  exact h

theorem finishes_look_bind {g : σ → Outcome ε α} (hg : g s = .ok a) (h : Finishes s (f a) S) :
    Finishes s (look g >>= f) S := by
  obtain ⟨b, t, hf, hb⟩ := h
  refine ⟨b, t, ?_, hb⟩
  rw [bind_apply, look]
  simp only [hg]
  exact hf

theorem finishes_write {g : σ → σ × Outcome ε α} {torn : σ → σ} (hg : g s = (t, .ok a))
    (h : Q a t) : Finishes s (write g torn) Q :=
  ⟨a, t, by simp [write, hg], h⟩

theorem Finishes.bind (hx : Finishes s x Q) (hf : ∀ a t, Q a t → Finishes t (f a) S) :
    Finishes s (x >>= f) S := by
  obtain ⟨a, t, hxs, ha⟩ := hx
  obtain ⟨b, u, hfa, hb⟩ := hf a t ha
  exact ⟨b, u, by rw [bind_apply, hxs]; exact hfa, hb⟩

/-- What a script that returns guarantees. -/
theorem Finishes.and (h : Finishes s x Q) (hx : Triple P x Q' R) (hs : P s) :
    Finishes s x fun a t => Q' a t ∧ Q a t := by
  obtain ⟨a, t, hrun, ha⟩ := h
  have hend := hx ⟨s, none⟩ hs
  rw [hrun] at hend
  exact ⟨a, t, hrun, hend, ha⟩

/-- A loop goes through all its rounds; `I` knows of those that are behind it. -/
theorem finishes_foldlM {f : β → ι → Script σ ε β} {l : List ι} {I : List ι → β → σ → Prop}
    (h : ∀ front i back b s, l = front ++ i :: back → I front b s →
      Finishes s (f b i) (I (front ++ [i]))) {b : β} (hs : I [] b s) :
    Finishes s (l.foldlM f b) (I l) := by
  suffices hrest : ∀ front back b s, l = front ++ back → I front b s →
      Finishes s (back.foldlM f b) (I l) from hrest [] l b s rfl hs
  intro front back
  induction back generalizing front with
  | nil =>
    rintro b s rfl hb
    rw [List.append_nil]
    exact finishes_pure hb
  | cons i back ih =>
    intro b s hl hb
    rw [List.foldlM_cons]
    refine (h front i back b s hl hb).bind fun b' t hb' => ?_
    exact ih (front ++ [i]) b' t (by rw [hl, List.append_assoc]; rfl) hb'

end Finishes

/-! ### One run after the other -/

section Runs
variable {run : κ → Script σ ε α}

/-- The world a run leaves, wherever it was cut off. -/
def leaves (run : κ → Script σ ε α) (s : σ) (k : κ × Option (ℕ × Bool)) : σ :=
  (run k.1 ⟨s, k.2⟩).1.world

/-- Whether a run was cut off, or ended by an exception. -/
def stopped (run : κ → Script σ ε α) (s : σ) (k : κ × Option (ℕ × Bool)) : Bool :=
  trapped (run k.1 ⟨s, k.2⟩).2

/-- The world after runs one after the other, and how many of them were stopped. -/
def session (run : κ → Script σ ε α) (s : σ) : List (κ × Option (ℕ × Bool)) → σ × ℕ
  | [] => (s, 0)
  | k :: ks =>
    let rest := session run (leaves run s k) ks
    (rest.1, rest.2 + (stopped run s k).toNat)

theorem session_cons (run : κ → Script σ ε α) (s : σ) (k : κ × Option (ℕ × Bool))
    (ks : List (κ × Option (ℕ × Bool))) :
    (session run s (k :: ks)).1 = (session run (leaves run s k) ks).1 := rfl

/-- Where a run ends that counts if it is stopped. -/
def Counting (I : ℕ → σ → Prop) (n : ℕ) : Fault ε → σ → Prop
  | .error _ => I n
  | .trap => I (n + 1)

/-- What every run keeps, if a run that is stopped counts, is kept by any number of runs. -/
theorem session_invariant {I : ℕ → σ → Prop} (ok : κ → Prop)
    (h : ∀ k n, ok k → Triple (I n) (run k) (fun _ => I n) (Counting I n))
    {ks : List (κ × Option (ℕ × Bool))} (hks : ∀ k ∈ ks, ok k.1) {n : ℕ} {s : σ} (hs : I n s) :
    I (n + (session run s ks).2) (session run s ks).1 := by
  induction ks generalizing n s with
  | nil => exact hs
  | cons k ks ih =>
    rw [List.forall_mem_cons] at hks
    have hrun : I (n + (stopped run s k).toNat) (leaves run s k) := by
      have hend := h k.1 n hks.1 ⟨s, k.2⟩ hs
      rw [stopped, leaves]
      rcases hr : run k.1 ⟨s, k.2⟩ with ⟨m, e | a⟩
      · rw [hr] at hend
        cases e with
        | error e => exact hend
        | trap => exact hend
      · rw [hr] at hend
        exact hend
    have hrest := ih hks.2 hrun
    rwa [Nat.add_assoc, Nat.add_comm (Bool.toNat _)] at hrest

end Runs

end Script

end RefractContracts.Host
