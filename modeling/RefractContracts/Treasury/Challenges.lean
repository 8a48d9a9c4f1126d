import Mathlib.Data.Finset.Insert
import RefractContracts.Host.InPlace

/-! The challenge period of high-value treasury withdrawals. Governance approves a
withdrawal; one at or above the threshold has a window in which a stakeholder may
challenge it. A challenge holds the withdrawal until governance resolves it, and
a withdrawal that nothing holds is finalized once its window is over. -/

namespace RefractContracts.Treasury

open Host Method

/-- An approved withdrawal; without a window it ends at the time of approval. -/
structure Withdrawal (Address : Type) where
  amount : ℤ
  windowEndsAt : ℕ
  challengedBy : Option Address
  cancelled : Bool
  finalized : Bool

inductive ChallengeError where
  | unauthorized
  | notAStakeholder
  | notFound
  | windowOpen
  | windowClosed
  | challenged
  | notChallenged
  | settled
  deriving DecidableEq, Repr

structure Challenges (Address : Type) where
  governance : Address
  threshold : ℤ
  window : ℕ
  stakeholders : Finset Address
  nextId : ℕ
  withdrawals : ℕ → Option (Withdrawal Address)

namespace Challenges

variable {Address : Type}

def new (governance : Address) (threshold : ℤ) (window : ℕ) : Challenges Address :=
  ⟨governance, threshold, window, ∅, 0, fun _ => none⟩

abbrev Update (Address α : Type) := Method (Challenges Address) ChallengeError α

/-- The registry with a withdrawal written under its id. -/
def setWithdrawal (c : Challenges Address) (id : ℕ) (withdrawal : Withdrawal Address) :
    Challenges Address :=
  { c with withdrawals := Function.update c.withdrawals id (some withdrawal) }

def withdrawalMut (c : Challenges Address) (id : ℕ) :
    Outcome ChallengeError (Withdrawal Address) :=
  okOr (c.withdrawals id) .notFound

variable [DecidableEq Address]

def requireGovernance (c : Challenges Address) (caller : Address) : Outcome ChallengeError Unit :=
  bail (caller ≠ c.governance) .unauthorized

def addStakeholder (caller stakeholder : Address) : Update Address Unit := do
  let c ← get
  check (c.requireGovernance caller)
  modify fun c => { c with stakeholders := insert stakeholder c.stakeholders }

/-- Record an approved withdrawal. -/
def approve (caller : Address) (amount : ℤ) (now : ℕ) : Update Address ℕ := do
  let c ← get
  check (c.requireGovernance caller)
  let window := if c.threshold ≤ amount then c.window else 0
  let id := c.nextId
  let nextId ← check (u64 (id + 1))
  modify fun c => { c with nextId }
  modify (setWithdrawal · id
    { amount
      windowEndsAt := u64SaturatingAdd now window
      challengedBy := none
      cancelled := false
      finalized := false })
  pure id

/-- Hold a withdrawal while its window is open. -/
def challenge (stakeholder : Address) (id now : ℕ) : Update Address Unit := do
  let c ← get
  check (bail (stakeholder ∉ c.stakeholders) .notAStakeholder)
  let withdrawal ← check (c.withdrawalMut id)
  check (bail (withdrawal.cancelled ∨ withdrawal.finalized) .settled)
  check (bail withdrawal.challengedBy.isSome .challenged)
  check (bail (withdrawal.windowEndsAt ≤ now) .windowClosed)
  modify (setWithdrawal · id { withdrawal with challengedBy := some stakeholder })

/-- Clear a challenge, or cancel the withdrawal. -/
def resolve (caller : Address) (id : ℕ) (uphold : Bool) : Update Address Unit := do
  let c ← get
  check (c.requireGovernance caller)
  let withdrawal ← check (c.withdrawalMut id)
  check (bail (withdrawal.challengedBy = none) .notChallenged)
  if uphold then
    modify (setWithdrawal · id { withdrawal with challengedBy := none })
  else
    modify (setWithdrawal · id { withdrawal with cancelled := true })

/-- Finalize a withdrawal that nothing holds; the answer is the amount to pay out. -/
def finalize (id now : ℕ) : Update Address ℤ := do
  let c ← get
  let withdrawal ← check (c.withdrawalMut id)
  check (bail (withdrawal.cancelled ∨ withdrawal.finalized) .settled)
  check (bail withdrawal.challengedBy.isSome .challenged)
  check (bail (now < withdrawal.windowEndsAt) .windowOpen)
  modify (setWithdrawal · id { withdrawal with finalized := true })
  pure withdrawal.amount

/-! ### Calls -/

inductive Call (Address : Type) where
  | addStakeholder (caller stakeholder : Address)
  | approve (caller : Address) (amount : ℤ) (now : ℕ)
  | challenge (stakeholder : Address) (id now : ℕ)
  | resolve (caller : Address) (id : ℕ) (uphold : Bool)
  | finalize (id now : ℕ)

inductive Answer where
  | done
  | approved (id : ℕ)
  | paid (amount : ℤ)
  deriving DecidableEq, Repr

def handle : Call Address → Update Address Answer
  | .addStakeholder caller stakeholder => do
    addStakeholder caller stakeholder
    pure .done
  | .approve caller amount now => do return .approved (← approve caller amount now)
  | .challenge stakeholder id now => do
    challenge stakeholder id now
    pure .done
  | .resolve caller id uphold => do
    resolve caller id uphold
    pure .done
  | .finalize id now => do return .paid (← finalize id now)

def machine : Machine (Challenges Address) (Call Address) Answer ChallengeError :=
  fun c call => handle call c

/-! ### Effects -/

/-- What an answered call does, and what it found. -/
inductive Effect (c : Challenges Address) :
    Challenges Address → Call Address → Answer → Prop
  | registered {stakeholder} :
      Effect c { c with stakeholders := insert stakeholder c.stakeholders }
        (.addStakeholder c.governance stakeholder) .done
  | approved {amount now} :
      Effect c ({ c with nextId := c.nextId + 1 }.setWithdrawal c.nextId
        ⟨amount, u64SaturatingAdd now (if c.threshold ≤ amount then c.window else 0), none, false,
          false⟩)
        (.approve c.governance amount now) (.approved c.nextId)
  | challenged {stakeholder id now withdrawal} (registered : stakeholder ∈ c.stakeholders)
      (stored : c.withdrawals id = some withdrawal) (open_ : now < withdrawal.windowEndsAt) :
      Effect c (c.setWithdrawal id { withdrawal with challengedBy := some stakeholder })
        (.challenge stakeholder id now) .done
  | upheld {id withdrawal} (stored : c.withdrawals id = some withdrawal) :
      Effect c (c.setWithdrawal id { withdrawal with challengedBy := none })
        (.resolve c.governance id true) .done
  | cancelled {id withdrawal} (stored : c.withdrawals id = some withdrawal)
      (held : withdrawal.challengedBy ≠ none) :
      Effect c (c.setWithdrawal id { withdrawal with cancelled := true })
        (.resolve c.governance id false) .done
  | finalized {id now withdrawal} (stored : c.withdrawals id = some withdrawal)
      (standing : withdrawal.cancelled = false) (unpaid : withdrawal.finalized = false)
      (free : withdrawal.challengedBy = none) (elapsed : withdrawal.windowEndsAt ≤ now) :
      Effect c (c.setWithdrawal id { withdrawal with finalized := true })
        (.finalize id now) (.paid withdrawal.amount)

variable {c c' : Challenges Address} {caller stakeholder : Address} {id now : ℕ} {amount : ℤ}
  {uphold : Bool} {u : Unit} {call : Call Address} {out : Answer}

theorem addStakeholder_ok (h : addStakeholder caller stakeholder c = (c', .ok u)) :
    Effect c c' (.addStakeholder caller stakeholder) .done := by
  simp only [addStakeholder, requireGovernance, get_bind, check_bind_ok, bail_eq_ok, not_not,
    modify_ok] at h
  obtain ⟨_, rfl, rfl⟩ := h
  exact .registered

theorem approve_ok (h : approve caller amount now c = (c', .ok id)) :
    Effect c c' (.approve caller amount now) (.approved id) := by
  simp only [approve, requireGovernance, get_bind, check_bind_ok, modify_bind, bail_eq_ok, not_not,
    u64_eq_ok, pure_ok] at h
  obtain ⟨_, rfl, _, ⟨-, rfl⟩, rfl, rfl⟩ := h
  exact .approved

theorem challenge_ok (h : challenge stakeholder id now c = (c', .ok u)) :
    Effect c c' (.challenge stakeholder id now) .done := by
  simp only [challenge, withdrawalMut, get_bind, check_bind_ok, bail_eq_ok, okOr_eq_ok, not_not,
    not_le, modify_ok] at h
  obtain ⟨_, registered, withdrawal, stored, _, -, _, -, _, open_, rfl⟩ := h
  exact .challenged registered stored open_

theorem resolve_ok (h : resolve caller id uphold c = (c', .ok u)) :
    Effect c c' (.resolve caller id uphold) .done := by
  simp only [resolve, requireGovernance, withdrawalMut, get_bind, check_bind_ok, bail_eq_ok,
    okOr_eq_ok, not_not] at h
  obtain ⟨_, rfl, withdrawal, stored, _, held, h⟩ := h
  cases uphold with
  | true =>
    rw [if_pos rfl, modify_ok] at h
    rw [← h]
    exact .upheld stored
  | false =>
    rw [if_neg Bool.false_ne_true, modify_ok] at h
    rw [← h]
    exact .cancelled stored held

theorem finalize_ok (h : finalize id now c = (c', .ok amount)) :
    Effect c c' (.finalize id now) (.paid amount) := by
  simp only [finalize, withdrawalMut, get_bind, check_bind_ok, modify_bind, bail_eq_ok, okOr_eq_ok,
    not_or, Bool.not_eq_true, Option.isSome_eq_false_iff, Option.isNone_iff_eq_none, not_lt,
    pure_ok] at h
  obtain ⟨withdrawal, stored, _, ⟨standing, unpaid⟩, _, free, _, elapsed, rfl, rfl⟩ := h
  exact .finalized stored standing unpaid free elapsed

/-- An answered call has its effect. -/
theorem machine_effect (h : machine c call = (c', .ok out)) : Effect c c' call out := by
  cases call with
    simp only [machine, handle, bind_ok, pure_ok] at h
  | addStakeholder caller stakeholder =>
    obtain ⟨_, _, h, rfl, rfl⟩ := h
    exact addStakeholder_ok h
  | approve caller amount now =>
    obtain ⟨_, _, h, rfl, rfl⟩ := h
    exact approve_ok h
  | challenge stakeholder id now =>
    obtain ⟨_, _, h, rfl, rfl⟩ := h
    exact challenge_ok h
  | resolve caller id uphold =>
    obtain ⟨_, _, h, rfl, rfl⟩ := h
    exact resolve_ok h
  | finalize id now =>
    obtain ⟨_, _, h, rfl, rfl⟩ := h
    exact finalize_ok h

/-- Nothing is written before the last check, so a refused call changes nothing. -/
theorem handle_atomic (call : Call Address) : Atomic (handle call) := by
  cases call with
  | addStakeholder caller stakeholder =>
    apply Atomic.bind
    · apply atomic_get_bind fun c => ?_
      exact atomic_check_bind fun _ => (answers_modify _).atomic
    · exact fun _ => answers_pure _
  | approve caller amount now =>
    apply Atomic.bind
    · apply atomic_get_bind fun c => ?_
      apply atomic_check_bind fun _ => ?_
      apply atomic_check_bind fun _ => ?_
      apply Answers.atomic
      exact (answers_modify _).bind fun _ => (answers_modify _).bind fun _ => answers_pure _
    · exact fun _ => answers_pure _
  | challenge stakeholder id now =>
    apply Atomic.bind
    · apply atomic_get_bind fun c => ?_
      apply atomic_check_bind fun _ => ?_
      apply atomic_check_bind fun withdrawal => ?_
      apply atomic_check_bind fun _ => ?_
      apply atomic_check_bind fun _ => ?_
      exact atomic_check_bind fun _ => (answers_modify _).atomic
    · exact fun _ => answers_pure _
  | resolve caller id uphold =>
    apply Atomic.bind
    · apply atomic_get_bind fun c => ?_
      apply atomic_check_bind fun _ => ?_
      apply atomic_check_bind fun withdrawal => ?_
      apply atomic_check_bind fun _ => ?_
      cases uphold <;> exact (answers_modify _).atomic
    · exact fun _ => answers_pure _
  | finalize id now =>
    apply Atomic.bind
    · apply atomic_get_bind fun c => ?_
      apply atomic_check_bind fun withdrawal => ?_
      apply atomic_check_bind fun _ => ?_
      apply atomic_check_bind fun _ => ?_
      apply atomic_check_bind fun _ => ?_
      exact ((answers_modify _).bind fun _ => answers_pure _).atomic
    · exact fun _ => answers_pure _

end Challenges

end RefractContracts.Treasury
