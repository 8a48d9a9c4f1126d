import Mathlib.Data.List.Sort
import RefractContracts.Host.History
import RefractContracts.Host.Storage
import RefractContracts.Shared.Guardians

/-! Loss events. Backstop capital is drawn against an event that was declared, that a
threshold of guardians attested, and that waited out a delay. Over a run the attesters
of an event are those of its accepted attestations, and its clock starts with the one
that first completes the threshold. -/

namespace RefractContracts.Shared

open Host Method

abbrev EvidenceHash := Vector UInt8 32

/-- A declared event, its attesters in order, and when they first met the threshold. -/
structure LossEvent (Guardian : Type) where
  declaredAt : ℕ
  evidence : EvidenceHash
  amount : ℤ
  attesters : List Guardian
  attestedAt : Option ℕ

inductive LossError where
  | invalidAmount
  | notFound
  | notAGuardian
  | notAttested
  | delayNotElapsed
  | exceedsDeclaredAmount
  | overflow
  deriving DecidableEq, Repr

structure LossEvents (Guardian : Type) where
  guardians : GuardianSet Guardian
  delay : ℕ
  nextId : ℕ
  events : ℕ → Option (LossEvent Guardian)

namespace LossEvents

variable {Guardian : Type}

def new (guardians : GuardianSet Guardian) (delay : ℕ) : LossEvents Guardian :=
  ⟨guardians, delay, 0, fun _ => none⟩

abbrev Update (Guardian α : Type) := Method (LossEvents Guardian) LossError α

def setEvent (c : LossEvents Guardian) (id : ℕ) (event : LossEvent Guardian) :
    LossEvents Guardian :=
  { c with events := Function.update c.events id (some event) }

/-- Declare an event that justifies drawing up to `amount`. -/
def declare (amount : ℤ) (evidence : EvidenceHash) (now : ℕ) : Update Guardian ℕ := do
  let c ← get
  check (bail (amount ≤ 0) .invalidAmount)
  let id := c.nextId
  check (bail (maxU64 < id + 1) .overflow)
  modify fun c => { c with nextId := id + 1 }
  modify (setEvent · id
    { declaredAt := now
      evidence
      amount
      attesters := []
      attestedAt := none })
  pure id

/-- May `amount` be drawn against the event? -/
def authorizeDrawdown (c : LossEvents Guardian) (id : ℕ) (amount : ℤ) (now : ℕ) :
    Outcome LossError Unit := do
  bail (amount ≤ 0) .invalidAmount
  let event ← okOr (c.events id) .notFound
  let attestedAt ← okOr event.attestedAt .notAttested
  bail (now < u64SaturatingAdd attestedAt c.delay) .delayNotElapsed
  bail (event.amount < amount) .exceedsDeclaredAmount

variable [LinearOrder Guardian]

/-- `BTreeSet::insert`, on the members in order. -/
def insertAttester (guardian : Guardian) (attesters : List Guardian) : List Guardian :=
  if guardian ∈ attesters then attesters else attesters.orderedInsert (· ≤ ·) guardian

/-- Record a guardian's attestation; the first to meet the threshold starts the clock. -/
def attest (id : ℕ) (guardian : Guardian) (now : ℕ) : Update Guardian Unit := do
  let c ← get
  check (bail (guardian ∉ c.guardians.guardians) .notAGuardian)
  let event ← check (okOr (c.events id) .notFound)
  let attesters := insertAttester guardian event.attesters
  modify (setEvent · id { event with attesters })
  if event.attestedAt = none ∧ c.guardians.approves attesters then
    modify (setEvent · id { event with attesters, attestedAt := some now })

/-! ### Calls -/

inductive Call (Guardian : Type) where
  | declare (amount : ℤ) (evidence : EvidenceHash) (now : ℕ)
  | attest (id : ℕ) (guardian : Guardian) (now : ℕ)

inductive Answer where
  | done
  | declared (id : ℕ)
  deriving DecidableEq, Repr

def handle : Call Guardian → Update Guardian Answer
  | .declare amount evidence now => do return .declared (← declare amount evidence now)
  | .attest id guardian now => do
    attest id guardian now
    pure .done

def machine : Machine (LossEvents Guardian) (Call Guardian) Answer LossError :=
  fun c call => handle call c

/-! ### Effects -/

/-- The event with one more attestation. -/
def attestation (s : GuardianSet Guardian) (event : LossEvent Guardian) (guardian : Guardian)
    (now : ℕ) : LossEvent Guardian :=
  { event with
    attesters := insertAttester guardian event.attesters
    attestedAt :=
      if event.attestedAt = none ∧ s.approves (insertAttester guardian event.attesters) then
        some now
      else event.attestedAt }

/-- What an answered call does, and what it found. -/
inductive Effect (c : LossEvents Guardian) :
    LossEvents Guardian → Call Guardian → Answer → Prop
  | declared {amount evidence now} :
      Effect c ({ c with nextId := c.nextId + 1 }.setEvent c.nextId
        ⟨now, evidence, amount, [], none⟩)
        (.declare amount evidence now) (.declared c.nextId)
  | attested {id guardian now event} (member : guardian ∈ c.guardians.guardians)
      (stored : c.events id = some event) :
      Effect c (c.setEvent id (attestation c.guardians event guardian now))
        (.attest id guardian now) .done

variable {c c' : LossEvents Guardian} {id now : ℕ} {amount : ℤ} {evidence : EvidenceHash}
  {guardian : Guardian} {u : Unit} {call : Call Guardian} {out : Answer}

theorem toFinset_insertAttester (guardian : Guardian) (attesters : List Guardian) :
    (insertAttester guardian attesters).toFinset = insert guardian attesters.toFinset := by
  unfold insertAttester
  split
  · next hmem => rw [Finset.insert_eq_of_mem (List.mem_toFinset.mpr hmem)]
  · ext g
    simp

theorem declare_ok (h : declare amount evidence now c = (c', .ok id)) :
    Effect c c' (.declare amount evidence now) (.declared id) := by
  simp only [declare, get_bind, check_bind_ok, modify_bind, pure_ok] at h
  obtain ⟨_, -, _, -, rfl, rfl⟩ := h
  exact .declared

omit [LinearOrder Guardian] in
theorem setEvent_setEvent (c : LossEvents Guardian) (id : ℕ) (a b : LossEvent Guardian) :
    (c.setEvent id a).setEvent id b = c.setEvent id b := by
  simp [setEvent]

theorem attest_ok (h : attest id guardian now c = (c', .ok u)) :
    Effect c c' (.attest id guardian now) .done := by
  simp only [attest, get_bind, check_bind_ok, modify_bind, bail_eq_ok, okOr_eq_ok, not_not] at h
  obtain ⟨_, member, event, stored, h⟩ := h
  have heffect : Effect c _ (.attest id guardian now) .done := .attested member stored
  rw [attestation] at heffect
  split at h
  · next reached =>
    rw [if_pos reached] at heffect
    rw [modify_ok, setEvent_setEvent] at h
    rwa [← h]
  · next reached =>
    rw [if_neg reached] at heffect
    rw [pure_ok] at h
    rwa [← h.1]

/-- An answered call has its effect. -/
theorem machine_effect (h : machine c call = (c', .ok out)) : Effect c c' call out := by
  cases call with
    simp only [machine, handle, bind_ok, pure_ok] at h
  | declare amount evidence now =>
    obtain ⟨_, _, h, rfl, rfl⟩ := h
    exact declare_ok h
  | attest id guardian now =>
    obtain ⟨_, _, h, rfl, rfl⟩ := h
    exact attest_ok h

theorem handle_atomic (call : Call Guardian) : Atomic (handle call) := by
  cases call with
  | declare amount evidence now =>
    apply Atomic.bind
    · apply atomic_get_bind fun c => ?_
      apply atomic_check_bind fun _ => ?_
      apply atomic_check_bind fun _ => ?_
      apply Answers.atomic
      exact (answers_modify _).bind fun _ => (answers_modify _).bind fun _ => answers_pure _
    · exact fun _ => answers_pure _
  | attest id guardian now =>
    apply Atomic.bind
    · apply atomic_get_bind fun c => ?_
      apply atomic_check_bind fun _ => ?_
      apply atomic_check_bind fun event => ?_
      apply Answers.atomic
      apply (answers_modify _).bind fun _ => ?_
      split
      · exact answers_modify _
      · exact answers_pure _
    · exact fun _ => answers_pure _

end LossEvents

end RefractContracts.Shared
