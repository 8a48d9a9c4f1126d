import Mathlib.Algebra.BigOperators.Group.List.Basic
import Mathlib.Data.List.Nodup
import Mathlib.Order.Basic
import RefractContracts.Host.Run

/-! Histories of accepted calls. A run splits at each of its receipts, a refused call
leaves no trace in it, and a quantity that no call lowers orders its states. The
latest entry of a kind stays the latest until the next of that kind, keys that are
settled when they are open are settled once, and amounts are added up by key. -/

namespace RefractContracts.Host

universe u v w

section Runs
variable {σ ρ : Type u} {κ : Type v} {ε : Type w} {C : Contract σ κ ρ ε} {s t : σ}
  {h h' : List (Receipt σ κ ρ)} {x : Receipt σ κ ρ}

/-- A run goes on where the calls before it lead. -/
theorem run_concat (s : σ) (g l : List κ) :
    run C s (g ++ l) = ((run C (run C s g).1 l).1, (run C s g).2 ++ (run C (run C s g).1 l).2) := by
  rw [← run_append]
  exact List.foldl_append

/-- A receipt of a run is that of a call made where the calls before it lead. -/
theorem run_split {calls : List κ} (hr : (run C s calls).2 = h ++ x :: h') :
    ∃ g l, calls = g ++ x.call :: l ∧ run C s g = (x.pre, h) ∧
      C x.pre x.call = .ok (x.post, x.out) := by
  induction calls using List.reverseRecOn generalizing h' with
  | nil => simp [run] at hr
  | append_singleton calls k ih =>
    rw [run_snoc] at hr
    unfold commit at hr
    split at hr
    · next t o hk =>
      rcases List.eq_nil_or_concat h' with rfl | ⟨l, y, rfl⟩
      · obtain ⟨hh, hx⟩ := List.append_inj' hr rfl
        obtain rfl := (List.cons.inj hx).1
        exact ⟨calls, [], rfl, Prod.ext rfl hh, hk⟩
      · rw [List.concat_eq_append, ← List.cons_append, ← List.append_assoc] at hr
        obtain ⟨g, l', rfl, hg, hx⟩ := ih (List.append_inj' hr rfl).1
        exact ⟨g, l' ++ [k], by simp, hg, hx⟩
    · obtain ⟨g, l, rfl, hg, hx⟩ := ih hr
      exact ⟨g, l ++ [k], by simp, hg, hx⟩

/-- Around an accepted call, a run is the run before it, its receipt, and the run after it. -/
theorem run_accepted {g l : List κ} {k : κ} {o : ρ} (hk : C (run C s g).1 k = .ok (t, o)) :
    run C s (g ++ k :: l) =
      ((run C t l).1, (run C s g).2 ++ ⟨(run C s g).1, k, o, t⟩ :: (run C t l).2) := by
  rw [run_concat, run_cons, after_ok hk]
  simp [commit, hk]

/-- A refused call can be left out. -/
theorem run_refused {g l : List κ} {k : κ} {e : Fault ε} (hk : C (run C s g).1 k = .error e) :
    run C s (g ++ k :: l) = run C s (g ++ l) := by
  have hskip : run C s (g ++ [k]) = run C s g := by
    rw [run_snoc]
    simp [commit, hk]
  rw [show g ++ k :: l = g ++ [k] ++ l by simp, run_concat, hskip, ← run_concat]

/-- The calls of a trace, made again, are accepted and leave the same receipts. -/
theorem Trace.run_eq (tr : Trace C s h t) : run C s (h.map Receipt.call) = (t, h) := by
  induction tr with
  | nil => rfl
  | snoc x _ hx ih =>
    rw [List.map_append, List.map_singleton, run_snoc, ih]
    simp [commit, hx]

theorem Trace.append {m : σ} (tr : Trace C s h m) (tr' : Trace C m h' t) :
    Trace C s (h ++ h') t := by
  induction tr' with
  | nil => rwa [List.append_nil]
  | snoc x _ hx ih =>
    rw [← List.append_assoc]
    exact .snoc x ih hx

theorem Trace.cons {k : κ} {m : σ} {o : ρ} (hk : C s k = .ok (m, o)) (tr : Trace C m h t) :
    Trace C s (⟨s, k, o, m⟩ :: h) t :=
  Trace.append (.snoc ⟨s, k, o, m⟩ (.nil s) hk) tr

/-- What no accepted call lowers is highest at the end. -/
theorem Trace.le_end {α : Type*} [Preorder α] {f : σ → α} (tr : Trace C s h t)
    (step : ∀ x : Receipt σ κ ρ, C x.pre x.call = .ok (x.post, x.out) → f x.pre ≤ f x.post) :
    f s ≤ f t ∧ ∀ x ∈ h, f x.pre ≤ f t := by
  induction tr with
  | nil => exact ⟨le_rfl, nofun⟩
  | snoc x _ hx ih =>
    exact ⟨ih.1.trans (step x hx),
      forall_mem_snoc (fun y hy => (ih.2 y hy).trans (step x hx)) (step x hx)⟩

/-- What lasts once it holds is reached at most once. -/
theorem Trace.countP_reached {P : σ → Prop} [DecidablePred P] (tr : Trace C s h t)
    (stays : ∀ x ∈ h, P x.pre → P x.post) (init : ¬ P s) :
    h.countP (fun x => ¬ P x.pre ∧ P x.post) = if P t then 1 else 0 := by
  induction tr with
  | nil => rw [List.countP_nil, if_neg init]
  | snoc x _ _ ih =>
    have hlast := stays x (by simp)
    rw [List.countP_append, ih fun y hy => stays y (List.mem_append_left _ hy),
      List.countP_singleton]
    by_cases hpre : P x.pre
    · simp [hpre, hlast hpre]
    · by_cases hpost : P x.post <;> simp [hpre, hpost]

end Runs

/-- A relation of earlier entries to later ones, after one more entry. -/
theorem pairwise_snoc {α : Type*} {R : α → α → Prop} {h : List α} {x : α} (hh : h.Pairwise R)
    (hx : ∀ y ∈ h, R y x) : (h ++ [x]).Pairwise R :=
  List.pairwise_append.mpr ⟨hh, List.pairwise_singleton R x, by simpa using hx⟩

/-- Every entry of `h` has `P` with the entries before it. -/
def Throughout {α : Type*} (P : List α → α → Prop) (h : List α) : Prop :=
  ∀ i (hi : i < h.length), P (h.take i) h[i]

instance {α : Type*} {P : List α → α → Prop} [∀ g x, Decidable (P g x)] (h : List α) :
    Decidable (Throughout P h) :=
  inferInstanceAs (Decidable (∀ i (hi : i < h.length), P (h.take i) h[i]))

theorem throughout_nil {α : Type*} (P : List α → α → Prop) : Throughout P [] := nofun

theorem throughout_snoc {α : Type*} {P : List α → α → Prop} {h : List α} {x : α} :
    Throughout P (h ++ [x]) ↔ Throughout P h ∧ P h x := by
  have hbefore {i : ℕ} (hi : i < h.length) :
      P ((h ++ [x]).take i) ((h ++ [x]).get ⟨i, by simp; omega⟩) ↔ P (h.take i) h[i] := by
    rw [List.take_append_of_le_length hi.le, List.get_eq_getElem, List.getElem_append_left hi]
  constructor
  · intro hall
    refine ⟨fun i hi => (hbefore hi).mp (hall i (by simp; omega)), ?_⟩
    have hlast := hall h.length (by simp)
    rwa [List.take_left, List.getElem_concat_length rfl] at hlast
  · rintro ⟨hall, hx⟩ i hi
    rw [List.length_append, List.length_singleton] at hi
    rcases Nat.lt_succ_iff_lt_or_eq.mp hi with hlt | rfl
    · exact (hbefore hlt).mpr (hall i hlt)
    · rwa [List.take_left, List.getElem_concat_length rfl]

/-! ### The latest entry of a kind -/

section Latest
variable {α : Type*} {P : α → Prop} {h l : List α} {x y : α}

/-- `x` is the last entry of `h` with `P`, and `l` is what follows it. -/
structure Latest (P : α → Prop) (h : List α) (x : α) (l : List α) : Prop where
  holds : P x
  none_since : ∀ y ∈ l, ¬ P y
  split : ∃ g, h = g ++ x :: l

theorem Latest.of_snoc (h : List α) (hy : P y) : Latest P (h ++ [y]) y [] :=
  ⟨hy, List.forall_mem_nil _, h, rfl⟩

theorem Latest.snoc (hx : Latest P h x l) (hy : ¬ P y) : Latest P (h ++ [y]) x (l ++ [y]) where
  holds := hx.holds
  none_since := forall_mem_snoc hx.none_since hy
  split := by
    obtain ⟨g, rfl⟩ := hx.split
    exact ⟨g, by simp⟩

theorem Latest.mem (hx : Latest P h x l) : x ∈ h := by
  obtain ⟨g, rfl⟩ := hx.split
  simp

end Latest

/-! ### Keys that are settled once -/

section Once
variable {α K : Type*} {f : α → Option K} {S S' : K → Prop} {h : List α} {x : α}

/-- The keys that the entries of `h` settle are distinct and have `S`. -/
structure Once (f : α → Option K) (S : K → Prop) (h : List α) : Prop where
  nodup : (h.filterMap f).Nodup
  settled : ∀ k ∈ h.filterMap f, S k

theorem Once.nil : Once f S [] := ⟨List.nodup_nil, List.forall_mem_nil _⟩

/-- An entry settles a key that was open, and what is settled stays so. -/
theorem Once.snoc (m : Once f S h) (stays : ∀ k, S k → S' k)
    (settles : ∀ k, f x = some k → ¬ S k ∧ S' k) : Once f S' (h ++ [x]) := by
  have hlast : (h ++ [x]).filterMap f = h.filterMap f ++ (f x).toList := by
    rw [List.filterMap_append]
    cases hx : f x <;> simp [hx]
  refine ⟨?_, ?_⟩
  · rw [hlast]
    refine m.nodup.append (Option.toList_nodup _) fun k hk hx => ?_
    exact (settles k (Option.mem_toList.mp hx)).1 (m.settled k hk)
  · rw [hlast, List.forall_mem_append]
    exact ⟨fun k hk => stays k (m.settled k hk),
      fun k hk => (settles k (Option.mem_toList.mp hk)).2⟩

end Once

/-! ### Amounts by key -/

section Tally
variable {α K : Type*} [DecidableEq K]

/-- What an entry books under `k`. -/
def booked : Option (K × ℤ) → K → ℤ
  | some (j, n), k => if j = k then n else 0
  | none, _ => 0

@[simp] theorem booked_none (k : K) : booked none k = 0 := rfl

@[simp] theorem booked_self (k : K) (n : ℤ) : booked (some (k, n)) k = n := if_pos rfl

theorem booked_of_ne {j k : K} (h : k ≠ j) (n : ℤ) : booked (some (j, n)) k = 0 := if_neg h.symm

/-- What the entries of `h` book under `k`, in all. -/
def tally (f : α → Option (K × ℤ)) (h : List α) (k : K) : ℤ := (h.map fun x => booked (f x) k).sum

theorem tally_snoc (f : α → Option (K × ℤ)) (h : List α) (x : α) (k : K) :
    tally f (h ++ [x]) k = tally f h k + booked (f x) k := by
  simp [tally]

theorem tally_eq_zero {f : α → Option (K × ℤ)} {h : List α} {k : K}
    (hf : ∀ x ∈ h, booked (f x) k = 0) : tally f h k = 0 :=
  List.sum_eq_zero (by simpa using hf)

/-- Under distinct keys each entry books what it holds. -/
theorem tally_of_nodup {key : α → K} {n : α → ℤ} {h : List α} {x : α} (hd : (h.map key).Nodup)
    (hx : x ∈ h) : tally (fun x => some (key x, n x)) h (key x) = n x := by
  induction h with
  | nil => cases hx
  | cons y h ih =>
    rw [List.map_cons, List.nodup_cons] at hd
    have hcons (k : K) : tally (fun x => some (key x, n x)) (y :: h) k =
        booked (some (key y, n y)) k + tally (fun x => some (key x, n x)) h k := by
      simp [tally]
    rcases List.mem_cons.mp hx with rfl | hx
    · have hrest : tally (fun x => some (key x, n x)) h (key x) = 0 := by
        apply tally_eq_zero
        intro y hy
        apply booked_of_ne
        rintro heq
        exact hd.1 (heq ▸ List.mem_map_of_mem hy)
      rw [hcons, booked_self, hrest, add_zero]
    · have hne : key x ≠ key y := fun heq => hd.1 (heq ▸ List.mem_map_of_mem hx)
      rw [hcons, booked_of_ne hne, zero_add, ih hd.2 hx]

end Tally

end RefractContracts.Host
