import RefractContracts.Grants.Model

/-! Batches are atomic. The operations of a batch are run on a copy, in order, and the copy
is kept if all succeed: then the model is where the same operations lead as calls of their
own. If one fails, the batch names the first that does, and the model is as it was. -/

namespace RefractContracts.Grants

open Host

variable {Address : Type}

/-- An operation of a batch as a call of its own. -/
def GrantsOp.call (caller : Address) : GrantsOp Address → GrantsCall Address
  | .create recipient totalAmount milestones =>
    .createGrant caller recipient totalAmount milestones
  | .confirm grantId milestoneIndex => .confirmMilestone caller grantId milestoneIndex

namespace GrantsModel

variable [DecidableEq Address] {m m' : GrantsModel Address} {caller : Address}
  {operations : List (GrantsOp Address)} {index : ℕ} {e : GrantsError}

/-- The operations as calls, one after another. -/
def applyEach (m : GrantsModel Address) (caller : Address) (operations : List (GrantsOp Address)) :
    GrantsModel Address × List (GrantsCall Address × ModelCall ℤ) :=
  machine.run m (operations.map (·.call caller))

/-- Every call was answered with a value. -/
def Succeed (answers : List (GrantsCall Address × ModelCall ℤ)) : Prop :=
  ∀ x ∈ answers, ∃ value, x.2 = .ok value

/-- Applied to the copy, an operation does what its call does. -/
theorem apply_eq_machine (m : GrantsModel Address) (caller : Address)
    (operation : GrantsOp Address) : m.apply caller operation =
      ((machine m (operation.call caller)).1,
        Functor.map (fun _ => ()) (machine m (operation.call caller)).2) := by
  cases operation with
  | create recipient total milestones =>
    simp only [GrantsModel.apply, GrantsOp.call, machine]
    rcases m.createGrant caller recipient total milestones with ⟨next, _ | _⟩ <;> rfl
  | confirm id milestone =>
    simp only [GrantsModel.apply, GrantsOp.call, machine]
    rcases m.confirmMilestone caller id milestone with ⟨next, _ | _⟩ <;> rfl

theorem stage_cons (operation : GrantsOp Address) : stage caller m index (operation :: operations) =
    match (machine m (operation.call caller)).2 with
    | .ok _ => stage caller (machine m (operation.call caller)).1 (index + 1) operations
    | .error (.error e) => .error (.error (.batchFailed index e))
    | .error .trap => .error .trap := by
  rw [stage, apply_eq_machine]
  rcases (machine m (operation.call caller)).2 with (e | _) | _ <;> rfl

/-- A stage that ends well ends where the calls do, and all of them succeed. -/
theorem stage_ok (h : stage caller m index operations = .ok m') :
    (m.applyEach caller operations).1 = m' ∧ Succeed (m.applyEach caller operations).2 := by
  induction operations generalizing m index with
  | nil =>
    obtain rfl : m = m' := Except.ok.inj h
    exact ⟨rfl, nofun⟩
  | cons operation operations ih =>
    rw [stage_cons] at h
    split at h
    · next value hvalue =>
      obtain ⟨hstate, hanswers⟩ := ih h
      exact ⟨hstate, List.forall_mem_cons.mpr ⟨⟨value, hvalue⟩, hanswers⟩⟩
    · cases h
    · cases h

/-- A stage that is refused names the first call that fails. -/
theorem stage_refused (h : stage caller m index operations = .error (.error e)) :
    ∃ before call error after, e = .batchFailed (index + before.length) error ∧
      (m.applyEach caller operations).2 = before ++ (call, .error (.error error)) :: after ∧
      Succeed before := by
  induction operations generalizing m index with
  | nil => cases h
  | cons operation operations ih =>
    rw [stage_cons] at h
    split at h
    · next value hvalue =>
      obtain ⟨before, call, error, after, rfl, hanswers, hbefore⟩ := ih h
      refine ⟨(operation.call caller, .ok value) :: before, call, error, after, ?_, ?_, ?_⟩
      · rw [List.length_cons, add_assoc, add_comm 1]
      · rw [List.cons_append, ← hanswers, ← hvalue]
        rfl
      · exact List.forall_mem_cons.mpr ⟨⟨value, rfl⟩, hbefore⟩
    · next error herror =>
      obtain rfl := Fault.error.inj (Except.error.inj h)
      refine ⟨[], operation.call caller, error,
        ((machine m (operation.call caller)).1.applyEach caller operations).2, rfl, ?_, nofun⟩
      rw [List.nil_append, ← herror]
      rfl
    · cases h

/-- A batch answers only if the calls would, and then leaves the model where they lead; if
an operation fails it names the first that does; and no error changes the model. -/
theorem batch_atomic (m : GrantsModel Address) (caller : Address)
    (operations : List (GrantsOp Address)) :
    let each := m.applyEach caller operations
    (∀ m', m.batch caller operations = (m', .ok ()) → m' = each.1 ∧ Succeed each.2) ∧
      (∀ m' index error,
        m.batch caller operations = (m', .error (.error (.batchFailed index error))) →
        ∃ before call after, each.2 = before ++ (call, .error (.error error)) :: after ∧
          before.length = index ∧ Succeed before) ∧
      (∀ m' fault, m.batch caller operations = (m', .error fault) → m' = m) := by
  intro each
  unfold batch
  rcases m.writing_cases _ with ⟨fault, hfails, hwriting⟩ | ⟨staged, u, hstages, hwriting⟩
  · rw [hwriting]
    refine ⟨?_, ?_, ?_⟩
    · rintro _ ⟨⟩
    · rintro _ index error ⟨⟩
      rcases bind_eq_error.mp hfails with hcaller | ⟨_, -, hfails⟩
      · cases (bail_eq_error.mp hcaller).2
      rcases bind_eq_error.mp hfails with hsize | ⟨_, -, hfails⟩
      · cases (bail_eq_error.mp hsize).2
      rcases bind_eq_error.mp hfails with hstage | ⟨_, -, hfails⟩
      · obtain ⟨before, call, error, after, hnames, hanswers, hbefore⟩ := stage_refused hstage
        rw [zero_add] at hnames
        obtain ⟨rfl, rfl⟩ := GrantsError.batchFailed.inj hnames
        exact ⟨before, call, after, hanswers, rfl, hbefore⟩
      · cases hfails
    · rintro _ _ ⟨⟩
      rfl
  · rw [hwriting]
    simp only [bind_eq_ok, pure_eq_ok, Prod.mk.injEq] at hstages
    obtain ⟨-, -, -, -, staged, hstage, rfl, -⟩ := hstages
    obtain ⟨hstate, hanswers⟩ := stage_ok hstage
    refine ⟨?_, ?_, ?_⟩
    · rintro _ ⟨⟩
      exact ⟨hstate.symm, hanswers⟩
    · rintro _ _ _ ⟨⟩
    · rintro _ _ ⟨⟩

end GrantsModel

end RefractContracts.Grants
