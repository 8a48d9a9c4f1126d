import Mathlib.Data.List.Basic
import Mathlib.Tactic

/-! Hash chains. A record names the digest of the record before it, the first one a
genesis value, and is checked at its place. Replaying a chain finds the first record
that breaks it. As long as digests do not collide the digest of the last record fixes
the whole chain: records are told apart from the end on, and a chain that ran out would
have the genesis value for a digest. -/

namespace RefractContracts.Host

universe u v

/-- How records are chained, and when a record is right at its place. -/
structure HashChain (ρ : Type u) (δ : Type v) where
  prev : ρ → δ
  digest : ρ → δ
  genesis : δ
  sound : ℕ → ρ → Prop

namespace HashChain

variable {ρ : Type u} {δ : Type v} (C : HashChain ρ δ) {l l' : List ρ} {r : ρ} {i : ℕ}

/-- The digest of the newest record. -/
def head (l : List ρ) : δ := (l.getLast?.map C.digest).getD C.genesis

@[simp] theorem head_nil : C.head [] = C.genesis := rfl

@[simp] theorem head_snoc (l : List ρ) (r : ρ) : C.head (l ++ [r]) = C.digest r := by
  simp [head]

/-- The record at `i` is wrong at its place, or does not name the record before. -/
def Broken (l : List ρ) (i : ℕ) : Prop :=
  ∃ r, l[i]? = some r ∧ ¬ (C.sound i r ∧ C.prev r = C.head (l.take i))

/-- No record is broken. -/
inductive Chained : List ρ → Prop
  | nil : Chained []
  | snoc {l : List ρ} {r : ρ} (init : Chained l) (sound : C.sound l.length r)
      (link : C.prev r = C.head l) : Chained (l ++ [r])

variable {C}

theorem Chained.of_snoc (h : C.Chained (l ++ [r])) :
    C.Chained l ∧ C.sound l.length r ∧ C.prev r = C.head l := by
  generalize hg : l ++ [r] = g at h
  cases h with
  | nil => simp at hg
  | snoc init sound link =>
    obtain ⟨rfl, hr⟩ := List.append_inj' hg rfl
    obtain rfl := (List.cons.inj hr).1
    exact ⟨init, sound, link⟩

theorem Chained.sound_of_mem (h : C.Chained l) : ∀ r ∈ l, ∃ i, C.sound i r := by
  induction h with
  | nil => exact nofun
  | @snoc l r _ sound _ ih =>
    intro s hs
    rcases List.mem_append.mp hs with hs | hs
    · exact ih s hs
    · rw [List.mem_singleton.mp hs]
      exact ⟨l.length, sound⟩

/-! ### The last record -/

theorem broken_snoc_of_lt (hi : i < l.length) : C.Broken (l ++ [r]) i ↔ C.Broken l i := by
  rw [Broken, Broken, List.getElem?_append_left hi, List.take_append_of_le_length hi.le]

theorem broken_snoc_last :
    C.Broken (l ++ [r]) l.length ↔ ¬ (C.sound l.length r ∧ C.prev r = C.head l) := by
  simp [Broken]

theorem Broken.lt (h : C.Broken l i) : i < l.length := by
  rcases h with ⟨r, hr, -⟩
  exact (List.getElem?_eq_some_iff.mp hr).1

theorem Chained.not_broken (h : C.Chained l) (i : ℕ) : ¬ C.Broken l i := by
  induction h with
  | nil => exact fun hb => absurd hb.lt (Nat.not_lt_zero i)
  | @snoc l r _ sound link ih =>
    intro hb
    have hlt := hb.lt
    rw [List.length_append, List.length_singleton] at hlt
    by_cases hi : i < l.length
    · exact ih ((broken_snoc_of_lt hi).mp hb)
    · obtain rfl : i = l.length := by omega
      exact broken_snoc_last.mp hb ⟨sound, link⟩

/-! ### Replaying -/

section Replay
variable [DecidableEq δ] [∀ i r, Decidable (C.sound i r)]

/-- Replay a chain of which `index` records, the last with the digest `prev`, are behind. -/
def replayFrom (C : HashChain ρ δ) [∀ i r, Decidable (C.sound i r)] (prev : δ) (index : ℕ) :
    List ρ → Except ℕ Unit
  | [] => .ok ()
  | r :: l =>
    if C.sound index r ∧ C.prev r = prev then replayFrom C (C.digest r) (index + 1) l
    else .error index

def replay (C : HashChain ρ δ) [∀ i r, Decidable (C.sound i r)] (l : List ρ) : Except ℕ Unit :=
  C.replayFrom C.genesis 0 l

theorem replayFrom_snoc (prev : δ) (index : ℕ) (l : List ρ) (r : ρ) :
    C.replayFrom prev index (l ++ [r]) =
      (do
        C.replayFrom prev index l
        if C.sound (index + l.length) r ∧ C.prev r = (l.getLast?.map C.digest).getD prev then
          pure ()
        else throw (index + l.length)) := by
  induction l generalizing prev index with
  | nil =>
    show (if _ then _ else _) = _
    rfl
  | cons s l ih =>
    rw [List.cons_append, replayFrom, replayFrom]
    split
    · rw [ih]
      have hlen : index + 1 + l.length = index + (s :: l).length := by
        rw [List.length_cons]
        omega
      have hlast : (l.getLast?.map C.digest).getD (C.digest s) =
          ((s :: l).getLast?.map C.digest).getD prev := by
        rw [List.getLast?_cons]
        cases l.getLast? <;> rfl
      rw [hlen, hlast]
    · rfl

theorem replay_snoc (l : List ρ) (r : ρ) : C.replay (l ++ [r]) =
    (do
      C.replay l
      if C.sound l.length r ∧ C.prev r = C.head l then pure () else throw l.length) := by
  rw [replay, replayFrom_snoc, Nat.zero_add]
  rfl

/-- A replay succeeds on a chain. -/
theorem replay_ok_iff : C.replay l = .ok () ↔ C.Chained l := by
  induction l using List.reverseRecOn with
  | nil => exact ⟨fun _ => .nil, fun _ => rfl⟩
  | append_singleton l r ih =>
    rw [replay_snoc]
    constructor
    · intro h
      cases hl : C.replay l with
      | error i =>
        rw [hl] at h
        cases h
      | ok u =>
        rw [hl] at h
        by_cases hr : C.sound l.length r ∧ C.prev r = C.head l
        · exact .snoc (ih.mp hl) hr.1 hr.2
        · rw [if_neg hr] at h
          cases h
    · intro h
      rw [ih.mpr h.of_snoc.1, if_pos h.of_snoc.2]
      rfl

/-- It fails at the first broken record. -/
theorem replay_error_iff :
    C.replay l = .error i ↔ C.Broken l i ∧ ∀ j < i, ¬ C.Broken l j := by
  induction l using List.reverseRecOn generalizing i with
  | nil =>
    constructor
    · exact nofun
    · rintro ⟨h, -⟩
      exact absurd h.lt (Nat.not_lt_zero i)
  | append_singleton l r ih =>
    rw [replay_snoc]
    cases hl : C.replay l with
    | error k =>
      -- the first broken record is among the earlier ones
      obtain ⟨hbroken, hfirst⟩ := ih.mp hl
      show Except.error k = Except.error i ↔ _
      rw [Except.error.injEq]
      constructor
      · rintro rfl
        refine ⟨(broken_snoc_of_lt hbroken.lt).mpr hbroken, fun j hj hb => hfirst j hj ?_⟩
        exact (broken_snoc_of_lt (hj.trans hbroken.lt)).mp hb
      · rintro ⟨hb, hnone⟩
        have hik : i ≤ k := not_lt.mp fun hlt =>
          hnone k hlt ((broken_snoc_of_lt hbroken.lt).mpr hbroken)
        have hki : k ≤ i := not_lt.mp fun hlt =>
          hfirst i hlt ((broken_snoc_of_lt (hlt.trans hbroken.lt)).mp hb)
        omega
    | ok u =>
      have hchained := replay_ok_iff.mp hl
      by_cases hr : C.sound l.length r ∧ C.prev r = C.head l
      · rw [if_pos hr]
        constructor
        · exact nofun
        · rintro ⟨hb, -⟩
          exact absurd hb ((hchained.snoc hr.1 hr.2).not_broken i)
      · rw [if_neg hr]
        show Except.error l.length = Except.error i ↔ _
        rw [Except.error.injEq]
        constructor
        · rintro rfl
          refine ⟨broken_snoc_last.mpr hr, fun j hj hb => ?_⟩
          exact hchained.not_broken j ((broken_snoc_of_lt hj).mp hb)
        · rintro ⟨hb, -⟩
          have hlt := hb.lt
          rw [List.length_append, List.length_singleton] at hlt
          have hle : l.length ≤ i := not_lt.mp fun hi =>
            hchained.not_broken i ((broken_snoc_of_lt hi).mp hb)
          omega

end Replay

/-! ### The head fixes the chain -/

/-- Two chains whose records have no colliding digests, and none the genesis value,
are the same if their heads are. -/
theorem Chained.unique (h : C.Chained l) (h' : C.Chained l') (hhead : C.head l = C.head l')
    (hinj : ∀ r ∈ l, ∀ r' ∈ l', C.digest r = C.digest r' → r = r')
    (hgen : ∀ r ∈ l ++ l', C.digest r ≠ C.genesis) : l = l' := by
  induction h generalizing l' with
  | nil =>
    cases h' with
    | nil => rfl
    | @snoc l' r' =>
      rw [head_nil, head_snoc] at hhead
      exact absurd hhead.symm (hgen r' (by simp))
  | @snoc l r _ _ link ih =>
    cases h' with
    | nil =>
      rw [head_nil, head_snoc] at hhead
      exact absurd hhead (hgen r (by simp))
    | @snoc l' r' init' _ link' =>
      rw [head_snoc, head_snoc] at hhead
      -- the last records agree, so they name the same record before
      obtain rfl := hinj r (by simp) r' (by simp) hhead
      have hinit : l = l' := by
        apply ih init' (link.symm.trans link')
        · exact fun s hs s' hs' => hinj s (List.mem_append_left _ hs) s'
            (List.mem_append_left _ hs')
        · intro s hs
          apply hgen
          rcases List.mem_append.mp hs with hs | hs
          · simp [hs]
          · simp [hs]
      rw [hinit]

end HashChain

end RefractContracts.Host
