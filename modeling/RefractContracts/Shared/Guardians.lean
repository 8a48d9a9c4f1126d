import Mathlib.Data.Finset.Card
import RefractContracts.Host.InPlace

/-! Guardian sets. An action is approved by a threshold of distinct guardians. Every
change is validated before it is applied, so the threshold stays between one and the
number of guardians, and a refused change leaves the set as it was. -/

namespace RefractContracts.Shared

open Host Method

inductive GuardianError where
  | alreadyGuardian
  | notAGuardian
  | invalidThreshold
  deriving DecidableEq, Repr

/-- Guardians, and how many of them approve an action. -/
structure GuardianSet (Guardian : Type) where
  guardians : Finset Guardian
  threshold : ℕ

def validate (guardians threshold : ℕ) : Outcome GuardianError Unit :=
  bail (threshold = 0 ∨ guardians < threshold) .invalidThreshold

namespace GuardianSet

variable {Guardian : Type} [DecidableEq Guardian]

/-- A set of the given guardians; duplicates count once. -/
def new (guardians : List Guardian) (threshold : ℕ) :
    Outcome GuardianError (GuardianSet Guardian) := do
  validate guardians.toFinset.card threshold
  pure ⟨guardians.toFinset, threshold⟩

abbrev Update (Guardian α : Type) := Method (GuardianSet Guardian) GuardianError α

def add (guardian : Guardian) : Update Guardian Unit := do
  let s ← get
  check (bail (guardian ∈ s.guardians) .alreadyGuardian)
  modify fun s => { s with guardians := insert guardian s.guardians }

/-- Remove a guardian, unless the threshold could no longer be reached. -/
def remove (guardian : Guardian) : Update Guardian Unit := do
  let s ← get
  check (bail (guardian ∉ s.guardians) .notAGuardian)
  let left ← check (uSub s.guardians.card 1)
  check (validate left s.threshold)
  modify fun s => { s with guardians := s.guardians.erase guardian }

/-- Replace a guardian by a new one. -/
def rotate (old new : Guardian) : Update Guardian Unit := do
  let s ← get
  check (bail (old ∉ s.guardians) .notAGuardian)
  check (bail (new ∈ s.guardians) .alreadyGuardian)
  modify fun s => { s with guardians := s.guardians.erase old }
  modify fun s => { s with guardians := insert new s.guardians }

def setThreshold (threshold : ℕ) : Update Guardian Unit := do
  let s ← get
  check (validate s.guardians.card threshold)
  modify fun s => { s with threshold }

/-- At least a threshold of distinct guardians is among the signers. -/
def approves (s : GuardianSet Guardian) (signers : List Guardian) : Prop :=
  s.threshold ≤ (signers.filter (· ∈ s.guardians)).toFinset.card

instance (s : GuardianSet Guardian) (signers : List Guardian) : Decidable (s.approves signers) :=
  inferInstanceAs (Decidable (_ ≤ _))

/-! ### Changes -/

inductive Change (Guardian : Type) where
  | add (guardian : Guardian)
  | remove (guardian : Guardian)
  | rotate (old new : Guardian)
  | setThreshold (threshold : ℕ)

def handle : Change Guardian → Update Guardian Unit
  | .add guardian => add guardian
  | .remove guardian => remove guardian
  | .rotate old new => rotate old new
  | .setThreshold threshold => setThreshold threshold

def machine : Machine (GuardianSet Guardian) (Change Guardian) Unit GuardianError :=
  fun s change => handle change s

/-- The threshold can be reached, and is not empty. -/
def Valid (s : GuardianSet Guardian) : Prop := 1 ≤ s.threshold ∧ s.threshold ≤ s.guardians.card

variable {s s' : GuardianSet Guardian} {change : Change Guardian} {u : Unit}

omit [DecidableEq Guardian] in
theorem validate_eq_ok {guardians threshold : ℕ} :
    validate guardians threshold = .ok u ↔ 1 ≤ threshold ∧ threshold ≤ guardians := by
  rw [validate, bail_eq_ok]
  omega

theorem new_valid {guardians : List Guardian} {threshold : ℕ}
    (h : GuardianSet.new guardians threshold = .ok s) : s.Valid := by
  simp only [GuardianSet.new, bind_eq_ok, validate_eq_ok, pure_eq_ok] at h
  obtain ⟨_, hvalid, rfl⟩ := h
  exact hvalid

theorem add_valid {guardian : Guardian} (hs : s.Valid) (h : add guardian s = (s', .ok u)) :
    s'.Valid := by
  simp only [add, get_bind, check_bind_ok, modify_ok] at h
  obtain ⟨_, -, rfl⟩ := h
  have hcard := Finset.card_le_card (Finset.subset_insert guardian s.guardians)
  exact ⟨hs.1, hs.2.trans hcard⟩

theorem remove_valid {guardian : Guardian} (h : remove guardian s = (s', .ok u)) : s'.Valid := by
  simp only [remove, get_bind, check_bind_ok, bail_eq_ok, not_not, uSub_eq_ok, validate_eq_ok,
    modify_ok] at h
  obtain ⟨_, hmem, _, ⟨-, rfl⟩, _, hvalid, rfl⟩ := h
  refine ⟨hvalid.1, ?_⟩
  show s.threshold ≤ (s.guardians.erase guardian).card
  rw [Finset.card_erase_of_mem hmem]
  exact hvalid.2

theorem rotate_valid {old new : Guardian} (hs : s.Valid) (h : rotate old new s = (s', .ok u)) :
    s'.Valid := by
  simp only [rotate, get_bind, check_bind_ok, bail_eq_ok, not_not, modify_bind, modify_ok] at h
  obtain ⟨_, hold, _, hnew, rfl⟩ := h
  refine ⟨hs.1, ?_⟩
  show s.threshold ≤ (insert new (s.guardians.erase old)).card
  have hne : new ∉ s.guardians.erase old := fun hmem => hnew (Finset.mem_of_mem_erase hmem)
  have hcard := Finset.card_erase_add_one hold
  rw [Finset.card_insert_of_notMem hne, hcard]
  exact hs.2

omit [DecidableEq Guardian] in
theorem setThreshold_valid {threshold : ℕ} (h : setThreshold threshold s = (s', .ok u)) :
    s'.Valid := by
  simp only [setThreshold, get_bind, check_bind_ok, validate_eq_ok, modify_ok] at h
  obtain ⟨_, hvalid, rfl⟩ := h
  exact hvalid

theorem machine_valid (hs : s.Valid) (h : machine s change = (s', .ok u)) : s'.Valid := by
  cases change with
  | add guardian => exact add_valid hs h
  | remove guardian => exact remove_valid h
  | rotate old new => exact rotate_valid hs h
  | setThreshold threshold => exact setThreshold_valid h

/-- Every change is validated before it is applied. -/
theorem handle_atomic (change : Change Guardian) : Atomic (handle change) := by
  cases change with
  | add guardian =>
    apply atomic_get_bind fun s => ?_
    exact atomic_check_bind fun _ => (answers_modify _).atomic
  | remove guardian =>
    apply atomic_get_bind fun s => ?_
    apply atomic_check_bind fun _ => ?_
    apply atomic_check_bind fun left => ?_
    exact atomic_check_bind fun _ => (answers_modify _).atomic
  | rotate old new =>
    apply atomic_get_bind fun s => ?_
    apply atomic_check_bind fun _ => ?_
    apply atomic_check_bind fun _ => ?_
    exact ((answers_modify _).bind fun _ => answers_modify _).atomic
  | setThreshold threshold =>
    apply atomic_get_bind fun s => ?_
    exact atomic_check_bind fun _ => (answers_modify _).atomic

/-- A change, accepted or refused, keeps the set valid. -/
theorem change_valid (x : Answered (GuardianSet Guardian) (Change Guardian) Unit GuardianError)
    (answered : machine.answering x.pre x.call = .ok (x.post, x.out)) (hs : x.pre.Valid) :
    x.post.Valid := by
  rw [Machine.answering_eq_ok] at answered
  obtain ⟨pre, change, out, post⟩ := x
  cases out with
  | error e =>
    rw [handle_atomic change pre post e answered]
    exact hs
  | ok u => exact machine_valid hs answered

/-- The set that a run of changes leaves. -/
def changed (s : GuardianSet Guardian) (changes : List (Change Guardian)) : GuardianSet Guardian :=
  (run machine.answering s changes).1

theorem changed_valid (hs : s.Valid) (changes : List (Change Guardian)) :
    (s.changed changes).Valid :=
  run_invariant change_valid hs changes

end GuardianSet

end RefractContracts.Shared
