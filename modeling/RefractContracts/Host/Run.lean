import RefractContracts.Host.Outcome

/-! Runs of a contract. The host applies one call at a time and discards every
write of a call that fails, so a run is determined by its calls: `run` gives the
state they lead to and a receipt for each call that was accepted. `Trace` is the
same history as a relation, which splits at any receipt; the invariant rules are
stated for it. -/

namespace RefractContracts.Host

universe u v w

/-- A contract answers a call in a state with the next state and a value. -/
abbrev Contract (σ : Type u) (κ : Type v) (ρ : Type u) (ε : Type w) := σ → κ → Outcome ε (σ × ρ)

/-- One accepted call: the state it ran in, its value, and the state it left. -/
structure Receipt (σ : Type u) (κ : Type v) (ρ : Type u) where
  pre : σ
  call : κ
  out : ρ
  post : σ

variable {σ ρ : Type u} {κ : Type v} {ε : Type w}

/-- The host's rule for one call: commit on success, roll back otherwise. -/
def commit (C : Contract σ κ ρ ε) (r : σ × List (Receipt σ κ ρ)) (k : κ) :
    σ × List (Receipt σ κ ρ) :=
  match C r.1 k with
  | .ok (t, o) => (t, r.2 ++ [⟨r.1, k, o, t⟩])
  | .error _ => r

def run (C : Contract σ κ ρ ε) (s : σ) (calls : List κ) : σ × List (Receipt σ κ ρ) :=
  calls.foldl (commit C) (s, [])

/-- `Trace C s h t`: the accepted calls `h` lead from `s` to `t`. -/
inductive Trace (C : Contract σ κ ρ ε) : σ → List (Receipt σ κ ρ) → σ → Prop
  | nil (s : σ) : Trace C s [] s
  | snoc {s : σ} {h : List (Receipt σ κ ρ)} (x : Receipt σ κ ρ) (hist : Trace C s h x.pre)
      (accepted : C x.pre x.call = .ok (x.post, x.out)) : Trace C s (h ++ [x]) x.post

variable {C : Contract σ κ ρ ε} {s t : σ} {h h' : List (Receipt σ κ ρ)}

theorem run_snoc (s : σ) (calls : List κ) (k : κ) :
    run C s (calls ++ [k]) = commit C (run C s calls) k := by
  simp [run]

/-- A fact about the receipts of a history and one about the next. -/
theorem forall_mem_snoc {α : Type*} {P : α → Prop} {h : List α} {x : α} (hh : ∀ y ∈ h, P y)
    (hx : P x) : ∀ y ∈ h ++ [x], P y :=
  List.forall_mem_append.mpr ⟨hh, List.forall_mem_singleton.mpr hx⟩

/-- Every run is a trace of its accepted calls. -/
theorem run_trace (C : Contract σ κ ρ ε) (s : σ) (calls : List κ) :
    Trace C s (run C s calls).2 (run C s calls).1 := by
  induction calls using List.reverseRecOn with
  | nil => exact .nil s
  | append_singleton calls k ih =>
    rw [run_snoc]
    unfold commit
    split
    · next t o hk => exact .snoc ⟨_, k, o, t⟩ ih hk
    · exact ih

/-- The state after one call, accepted or not. -/
def after (C : Contract σ κ ρ ε) (s : σ) (k : κ) : σ := (commit C (s, []) k).1

theorem after_ok {k : κ} {o : ρ} (hk : C s k = .ok (t, o)) : after C s k = t := by
  simp [after, commit, hk]

theorem after_error {k : κ} {e : Fault ε} (hk : C s k = .error e) : after C s k = s := by
  simp [after, commit, hk]

/-- Every call of a run with the state it is made in. -/
def attempts (C : Contract σ κ ρ ε) (s : σ) : List κ → List (σ × κ)
  | [] => []
  | k :: calls => (s, k) :: attempts C (after C s k) calls

theorem run_append (s : σ) (calls : List κ) : ∀ r : List (Receipt σ κ ρ),
    calls.foldl (commit C) (s, r) = ((run C s calls).1, r ++ (run C s calls).2) := by
  induction calls using List.reverseRecOn with
  | nil => simp [run]
  | append_singleton calls k ih =>
    intro r
    rw [run_snoc, List.foldl_append, ih r]
    simp only [List.foldl_cons, List.foldl_nil, commit]
    split <;> simp

theorem run_cons (s : σ) (k : κ) (calls : List κ) :
    run C s (k :: calls) = ((run C (after C s k) calls).1,
      (commit C (s, []) k).2 ++ (run C (after C s k) calls).2) :=
  run_append (after C s k) calls _

/-- An attempt is a call of the run, in the state the calls before it lead to. -/
theorem mem_attempts {calls : List κ} {p : σ × κ} :
    p ∈ attempts C s calls ↔ ∃ g l, calls = g ++ p.2 :: l ∧ p.1 = (run C s g).1 := by
  induction calls generalizing s with
  | nil => simp [attempts]
  | cons k calls ih =>
    rw [attempts, List.mem_cons, ih]
    constructor
    · rintro (rfl | ⟨g, l, rfl, hp⟩)
      · exact ⟨[], calls, rfl, rfl⟩
      · exact ⟨k :: g, l, rfl, by rw [hp, run_cons]⟩
    · rintro ⟨_ | ⟨k', g⟩, l, hsplit, hp⟩
      · exact .inl (Prod.ext hp (List.cons.inj hsplit).1.symm)
      · obtain ⟨rfl, rfl⟩ := List.cons.inj hsplit
        exact .inr ⟨g, l, rfl, by rw [hp, run_cons]⟩

/-- The receipt of a call, if it is accepted. -/
def receipt (C : Contract σ κ ρ ε) (p : σ × κ) : Option (Receipt σ κ ρ) :=
  match C p.1 p.2 with
  | .ok (t, o) => some ⟨p.1, p.2, o, t⟩
  | .error _ => none

theorem receipt_eq_some {p : σ × κ} {x : Receipt σ κ ρ} : receipt C p = some x ↔
    p = (x.pre, x.call) ∧ C x.pre x.call = .ok (x.post, x.out) := by
  obtain ⟨pre, call, out, post⟩ := x
  obtain ⟨s, k⟩ := p
  unfold receipt
  constructor
  · intro hx
    split at hx
    · next t o hk =>
      obtain ⟨rfl, rfl, rfl, rfl⟩ := Receipt.mk.inj (Option.some.inj hx)
      exact ⟨rfl, hk⟩
    · cases hx
  · rintro ⟨hp, hk⟩
    obtain ⟨rfl, rfl⟩ := Prod.mk.inj hp
    simp only [hk]

/-- The receipts of a run are those of its attempts. -/
theorem run_receipts (s : σ) (calls : List κ) :
    (run C s calls).2 = (attempts C s calls).filterMap (receipt C) := by
  induction calls generalizing s with
  | nil => rfl
  | cons k calls ih =>
    rw [run_cons, ih, attempts]
    unfold commit receipt
    cases hk : C s k with
    | ok r => simp [hk]
    | error e => simp [hk]

theorem mem_run {calls : List κ} {x : Receipt σ κ ρ} : x ∈ (run C s calls).2 ↔
    (x.pre, x.call) ∈ attempts C s calls ∧ C x.pre x.call = .ok (x.post, x.out) := by
  rw [run_receipts, List.mem_filterMap]
  constructor
  · rintro ⟨p, hp, hx⟩
    obtain ⟨rfl, hok⟩ := receipt_eq_some.mp hx
    exact ⟨hp, hok⟩
  · rintro ⟨hp, hok⟩
    exact ⟨_, hp, receipt_eq_some.mpr ⟨rfl, hok⟩⟩

/-- A call that is accepted has its receipt in the run. -/
theorem mem_run_of_accepted {g l : List κ} {k : κ} {o : ρ}
    (h : C (run C s g).1 k = .ok (t, o)) :
    ⟨(run C s g).1, k, o, t⟩ ∈ (run C s (g ++ k :: l)).2 :=
  mem_run.mpr ⟨mem_attempts.mpr ⟨g, l, rfl, rfl⟩, h⟩

/-- A call with a receipt is one of the calls of the run. -/
theorem mem_run_call {calls : List κ} {x : Receipt σ κ ρ} (hx : x ∈ (run C s calls).2) :
    x.call ∈ calls := by
  obtain ⟨g, l, hsplit, -⟩ := mem_attempts.mp (mem_run.mp hx).1
  rw [hsplit]
  simp

namespace Trace

/-- A trace splits wherever its history does. -/
theorem split (tr : Trace C s (h ++ h') t) : ∃ m, Trace C s h m ∧ Trace C m h' t := by
  induction h' using List.reverseRecOn generalizing t with
  | nil => exact ⟨t, by simpa using tr, .nil t⟩
  | append_singleton h' x ih =>
    rw [← List.append_assoc] at tr
    generalize hg : h ++ h' ++ [x] = g at tr
    cases tr with
    | nil => simp at hg
    | snoc y hist hy =>
      obtain ⟨rfl, he⟩ := List.append_inj' hg rfl
      obtain rfl : x = y := by simpa using he
      obtain ⟨m, h₁, h₂⟩ := ih hist
      exact ⟨m, h₁, .snoc x h₂ hy⟩

/-- Around one receipt, a trace is a trace to its state, the call, and a trace from there. -/
theorem at_receipt {x : Receipt σ κ ρ} (tr : Trace C s (h ++ x :: h') t) :
    Trace C s h x.pre ∧ C x.pre x.call = .ok (x.post, x.out) ∧ Trace C x.post h' t := by
  rw [show h ++ x :: h' = h ++ [x] ++ h' by simp] at tr
  obtain ⟨m, h₁, h₂⟩ := tr.split
  generalize hg : h ++ [x] = g at h₁
  cases h₁ with
  | nil => simp at hg
  | snoc y hist hy =>
    obtain ⟨rfl, he⟩ := List.append_inj' hg rfl
    obtain rfl : x = y := by simpa using he
    exact ⟨hist, hy, h₂⟩

/-- What accepted calls keep, provided they satisfy `P`, holds after any history of such calls. -/
theorem invariant_of {I : σ → Prop} {P : Receipt σ κ ρ → Prop} (tr : Trace C s h t)
    (step : ∀ x, P x → C x.pre x.call = .ok (x.post, x.out) → I x.pre → I x.post)
    (hP : ∀ x ∈ h, P x) (init : I s) : I t := by
  induction tr with
  | nil => exact init
  | snoc x _ hx ih =>
    exact step x (hP x (by simp)) hx (ih (fun y hy => hP y (List.mem_append_left _ hy)))

/-- The same after each of these calls. -/
theorem posts_of {I : σ → Prop} {P : Receipt σ κ ρ → Prop} (tr : Trace C s h t)
    (step : ∀ x, P x → C x.pre x.call = .ok (x.post, x.out) → I x.pre → I x.post)
    (hP : ∀ x ∈ h, P x) (init : I s) : ∀ x ∈ h, I x.post := by
  induction tr with
  | nil => exact nofun
  | snoc x hist hx ih =>
    have hbefore : ∀ y ∈ _, P y := fun y hy => hP y (List.mem_append_left _ hy)
    apply forall_mem_snoc (ih hbefore)
    exact step x (hP x (by simp)) hx (hist.invariant_of step hbefore init)

theorem invariant {I : σ → Prop} (tr : Trace C s h t)
    (step : ∀ x : Receipt σ κ ρ, C x.pre x.call = .ok (x.post, x.out) → I x.pre → I x.post)
    (init : I s) : I t :=
  tr.invariant_of (P := fun _ => True) (fun x _ => step x) (fun _ _ => trivial) init

/-- A property of a state and of the history that led to it. -/
theorem history_of {I : List (Receipt σ κ ρ) → σ → Prop} {P : Receipt σ κ ρ → Prop}
    (tr : Trace C s h t)
    (step : ∀ g x, P x → C x.pre x.call = .ok (x.post, x.out) → I g x.pre → I (g ++ [x]) x.post)
    (hP : ∀ x ∈ h, P x) (init : I [] s) : I h t := by
  induction tr with
  | nil => exact init
  | snoc x _ hx ih =>
    exact step _ x (hP x (by simp)) hx (ih (fun y hy => hP y (List.mem_append_left _ hy)))

theorem history {I : List (Receipt σ κ ρ) → σ → Prop} (tr : Trace C s h t)
    (step : ∀ g x, C x.pre x.call = .ok (x.post, x.out) → I g x.pre → I (g ++ [x]) x.post)
    (init : I [] s) : I h t :=
  tr.history_of (P := fun _ => True) (fun g x _ => step g x) (fun _ _ => trivial) init

end Trace

/-- What accepted calls keep holds in every state a run reaches. -/
theorem run_invariant {I : σ → Prop}
    (step : ∀ x : Receipt σ κ ρ, C x.pre x.call = .ok (x.post, x.out) → I x.pre → I x.post)
    (init : I s) (calls : List κ) : I (run C s calls).1 :=
  (run_trace C s calls).invariant step init

/-- Every call of a run is made in a state with the invariant, which the calls
may have to satisfy `P` to keep. -/
theorem attempt_invariant_of {I : σ → Prop} {P : κ → Prop}
    (step : ∀ x : Receipt σ κ ρ, P x.call → C x.pre x.call = .ok (x.post, x.out) → I x.pre →
      I x.post)
    (init : I s) {calls : List κ} (hP : ∀ k ∈ calls, P k) {p : σ × κ}
    (hp : p ∈ attempts C s calls) : I p.1 := by
  obtain ⟨g, l, rfl, hpre⟩ := mem_attempts.mp hp
  rw [hpre]
  refine (run_trace C s g).invariant_of (P := fun x => P x.call) step (fun x hx => ?_) init
  exact hP _ (List.mem_append_left _ (mem_run_call hx))

theorem attempt_invariant {I : σ → Prop}
    (step : ∀ x : Receipt σ κ ρ, C x.pre x.call = .ok (x.post, x.out) → I x.pre → I x.post)
    (init : I s) {calls : List κ} {p : σ × κ} (hp : p ∈ attempts C s calls) : I p.1 :=
  attempt_invariant_of (P := fun _ => True) (fun x _ => step x) init (fun _ _ => trivial) hp

/-- Every receipt of a run was issued in a state with the invariant. -/
theorem run_receipt {I : σ → Prop}
    (step : ∀ x : Receipt σ κ ρ, C x.pre x.call = .ok (x.post, x.out) → I x.pre → I x.post)
    (init : I s) {calls : List κ} {x : Receipt σ κ ρ} (hx : x ∈ (run C s calls).2) :
    I x.pre ∧ C x.pre x.call = .ok (x.post, x.out) :=
  ⟨attempt_invariant step init (mem_run.mp hx).1, (mem_run.mp hx).2⟩

/-! ### Registers -/

section Registers
variable {K V : Type*} {read : σ → K → V} {write : κ → K → Option V}

/-- What the last of the calls that wrote to `k` put there. -/
def lastWrite (write : κ → K → Option V) (h : List (Receipt σ κ ρ)) (k : K) : Option V :=
  (h.filterMap (fun x => write x.call k)).getLast?

/-- A register that only its writes change reads what the last of them put there. -/
theorem Trace.read_lastWrite (tr : Trace C s h t)
    (law : ∀ x : Receipt σ κ ρ, C x.pre x.call = .ok (x.post, x.out) →
      ∀ k, read x.post k = (write x.call k).getD (read x.pre k)) (k : K) :
    read t k = (lastWrite write h k).getD (read s k) := by
  induction tr with
  | nil => rfl
  | @snoc h x _ accepted ih =>
    rw [law x accepted k, ih]
    unfold lastWrite
    rw [List.filterMap_append, List.getLast?_append]
    cases hwrite : write x.call k <;> simp [hwrite]

end Registers

end RefractContracts.Host
