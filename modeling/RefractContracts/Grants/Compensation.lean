import RefractContracts.Host.Books
import RefractContracts.Host.InPlace

/-! Reviewer compensation. Governance funds the review budget of a program; a completed
review moves its fee from the budget to what the reviewer is owed, and the reviewer
claims what is owed. Over a run every budget is what was given less what was spent, and
every reviewer is owed what was earned less what was claimed, so the funds are conserved. -/

namespace RefractContracts.Grants

open Host Method

inductive CompensationError where
  | invalidAmount
  | unauthorized
  | unknownProgram
  | insufficientBudget
  | recused
  | nothingOwed
  | overflow
  deriving DecidableEq, Repr

/-- Review budgets per program and what each reviewer is owed. -/
structure Compensation (Program Reviewer : Type) where
  governance : Reviewer
  budgets : Program → Option ℤ
  owed : Reviewer → Option ℤ

namespace Compensation

variable {Program Reviewer : Type}

def new (governance : Reviewer) : Compensation Program Reviewer :=
  ⟨governance, fun _ => none, fun _ => none⟩

abbrev Update (Program Reviewer α : Type) :=
  Method (Compensation Program Reviewer) CompensationError α

/-- What a reviewer is owed and has not claimed. -/
def owedTo (c : Compensation Program Reviewer) (reviewer : Reviewer) : ℤ :=
  (c.owed reviewer).getD 0

variable [DecidableEq Program] [DecidableEq Reviewer]

def requireGovernance (c : Compensation Program Reviewer) (caller : Reviewer) :
    Outcome CompensationError Unit :=
  bail (caller ≠ c.governance) .unauthorized

/-- Add to a program's review budget. -/
def fundProgram (caller : Reviewer) (program : Program) (amount : I128) :
    Update Program Reviewer Unit := do
  let c ← get
  check (c.requireGovernance caller)
  check (bail (amount.1 ≤ 0) .invalidAmount)
  modify fun c => { c with budgets := orInsert c.budgets program 0 }
  -- what the entry held before it was opened is 0
  let budget ← check (i128Checked ((c.budgets program).getD 0 + amount) .overflow)
  modify fun c => { c with budgets := Function.update c.budgets program (some budget) }

/-- Record a completed review: the fee moves from the program's budget to the reviewer. -/
def recordReview (caller : Reviewer) (program : Program) (reviewer : Reviewer) (fee : I128)
    (recused : Bool) : Update Program Reviewer Unit := do
  let c ← get
  check (c.requireGovernance caller)
  check (bail (fee.1 ≤ 0) .invalidAmount)
  check (bail recused .recused)
  let budget ← check (okOr (c.budgets program) .unknownProgram)
  check (bail (budget < fee) .insufficientBudget)
  modify fun c => { c with owed := orInsert c.owed reviewer 0 }
  let owed ← check (i128Checked ((c.owed reviewer).getD 0 + fee) .overflow)
  modify fun c => { c with owed := Function.update c.owed reviewer (some owed) }
  let budget ← check (i128 (budget - fee))
  modify fun c => { c with budgets := Function.update c.budgets program (some budget) }

/-- Take everything owed to a reviewer. -/
def claim (reviewer : Reviewer) : Update Program Reviewer ℤ := do
  let c ← get
  let owed := (c.owed reviewer).getD 0
  modify fun c => { c with owed := Function.update c.owed reviewer none }
  check (bail (owed = 0) .nothingOwed)
  pure owed

/-! ### Calls -/

inductive Call (Program Reviewer : Type) where
  | fundProgram (caller : Reviewer) (program : Program) (amount : I128)
  | recordReview (caller : Reviewer) (program : Program) (reviewer : Reviewer) (fee : I128)
    (recused : Bool)
  | claim (reviewer : Reviewer)

inductive Answer where
  | done
  | claimed (amount : ℤ)
  deriving DecidableEq, Repr

def handle : Call Program Reviewer → Update Program Reviewer Answer
  | .fundProgram caller program amount => do
    fundProgram caller program amount
    pure .done
  | .recordReview caller program reviewer fee recused => do
    recordReview caller program reviewer fee recused
    pure .done
  | .claim reviewer => do return .claimed (← claim reviewer)

def machine : Machine (Compensation Program Reviewer) (Call Program Reviewer) Answer
    CompensationError :=
  fun c call => handle call c

/-! ### Effects -/

/-- What an answered call does, and what it found. -/
inductive Effect (c : Compensation Program Reviewer) :
    Compensation Program Reviewer → Call Program Reviewer → Answer → Prop
  | funded {program} {amount : I128} (positive : 0 < amount.1)
      (fits : (c.budgets program).getD 0 + amount ≤ maxI128) :
      Effect c
        { c with
          budgets := Function.update c.budgets program
            (some ((c.budgets program).getD 0 + amount)) }
        (.fundProgram c.governance program amount) .done
  | reviewed {program reviewer} {fee : I128} {budget} (stored : c.budgets program = some budget)
      (positive : 0 < fee.1) (covered : fee.1 ≤ budget)
      (fits : (c.owed reviewer).getD 0 + fee ≤ maxI128) :
      Effect c
        { c with
          owed := Function.update c.owed reviewer (some ((c.owed reviewer).getD 0 + fee))
          budgets := Function.update c.budgets program (some (budget - fee)) }
        (.recordReview c.governance program reviewer fee false) .done
  | claimed {reviewer} :
      Effect c { c with owed := Function.update c.owed reviewer none } (.claim reviewer)
        (.claimed ((c.owed reviewer).getD 0))

variable {c c' : Compensation Program Reviewer} {caller reviewer : Reviewer} {program : Program}
  {amount fee : I128} {recused : Bool} {paid : ℤ} {u : Unit} {call : Call Program Reviewer}
  {out : Answer} {e : Fault CompensationError}

theorem fundProgram_ok (h : fundProgram caller program amount c = (c', .ok u)) :
    Effect c c' (.fundProgram caller program amount) .done := by
  simp only [fundProgram, requireGovernance, get_bind, check_bind_ok, modify_bind, bail_eq_ok,
    not_not, not_le, i128Checked_eq_ok, modify_ok, update_orInsert] at h
  obtain ⟨_, rfl, _, positive, _, ⟨⟨-, fits⟩, rfl⟩, rfl⟩ := h
  exact .funded positive fits

theorem recordReview_ok (h : recordReview caller program reviewer fee recused c = (c', .ok u)) :
    Effect c c' (.recordReview caller program reviewer fee recused) .done := by
  simp only [recordReview, requireGovernance, get_bind, check_bind_ok, modify_bind, bail_eq_ok,
    okOr_eq_ok, not_not, not_le, not_lt, Bool.not_eq_true, i128Checked_eq_ok, i128_eq_ok,
    modify_ok, update_orInsert] at h
  obtain ⟨_, rfl, _, positive, _, rfl, budget, stored, _, covered, _, ⟨⟨-, fits⟩, rfl⟩, _, ⟨-, rfl⟩,
    rfl⟩ := h
  exact .reviewed stored positive covered fits

theorem claim_ok (h : claim reviewer c = (c', .ok paid)) :
    Effect c c' (.claim reviewer) (.claimed paid) := by
  simp only [claim, get_bind, modify_bind, check_bind_ok, pure_ok] at h
  obtain ⟨_, -, rfl, rfl⟩ := h
  exact .claimed

/-- An answered call has its effect. -/
theorem machine_effect (h : machine c call = (c', .ok out)) : Effect c c' call out := by
  cases call with
    simp only [machine, handle, bind_ok, pure_ok] at h
  | fundProgram caller program amount =>
    obtain ⟨_, _, h, rfl, rfl⟩ := h
    exact fundProgram_ok h
  | recordReview caller program reviewer fee recused =>
    obtain ⟨_, _, h, rfl, rfl⟩ := h
    exact recordReview_ok h
  | claim reviewer =>
    obtain ⟨_, _, h, rfl, rfl⟩ := h
    exact claim_ok h

/-! ### Refused calls -/

/-- Budgets and debts are `i128` values, and a debt that is kept is not empty. -/
structure Sound (c : Compensation Program Reviewer) : Prop where
  budget : ∀ p n, c.budgets p = some n → 0 ≤ n ∧ n ≤ maxI128
  owed : ∀ r n, c.owed r = some n → 0 < n ∧ n ≤ maxI128

theorem Sound.of_effect (s : Sound c) (h : Effect c c' call out) : Sound c' := by
  cases h with
  | @funded program amount positive fits =>
    refine ⟨forall_update s.budget rfl ⟨?_, fits⟩, s.owed⟩
    cases hp : c.budgets program with
    | none =>
      rw [Option.getD_none]
      omega
    | some n =>
      have := (s.budget program n hp).1
      rw [Option.getD_some]
      omega
  | @reviewed program reviewer fee budget stored positive covered fits =>
    refine ⟨forall_update s.budget rfl ?_, forall_update s.owed rfl ⟨?_, fits⟩⟩
    · have := (s.budget program budget stored).2
      omega
    · cases hr : c.owed reviewer with
      | none =>
        rw [Option.getD_none]
        omega
      | some n =>
        have := (s.owed reviewer n hr).1
        rw [Option.getD_some]
        omega
  | @claimed reviewer =>
    refine ⟨s.budget, fun r n hr => ?_⟩
    by_cases h : r = reviewer
    · subst h
      simp at hr
    · exact s.owed r n ((Function.update_of_ne h _ _).symm.trans hr)

/-- An addition overflows only where an entry was open, so a refusal opens none. -/
theorem orInsert_of_overflow {κ : Type} [DecidableEq κ] {f : κ → Option ℤ} {k : κ} {n : I128}
    {e : CompensationError} {fault : Fault CompensationError}
    (h : i128Checked ((f k).getD 0 + n) e = .error fault) : orInsert f k 0 = f := by
  cases hk : f k with
  | none =>
    rw [hk, Option.getD_none, zero_add, i128Checked, if_pos n.2] at h
    cases h
  | some b => exact orInsert_stored hk 0

theorem fundProgram_refused (c : Compensation Program Reviewer) :
    FailsTo (fundProgram caller program amount) c c := by
  apply failsTo_get_bind
  refine failsTo_check_bind fun _ _ => ?_
  refine failsTo_check_bind fun _ _ => ?_
  apply failsTo_modify_bind
  apply failsTo_check_bind_of
  · intro e overflow
    rw [orInsert_of_overflow overflow]
  · exact fun _ _ => (answers_modify _).failsTo _ _

theorem recordReview_refused (s : Sound c) :
    FailsTo (recordReview caller program reviewer fee recused) c c := by
  apply failsTo_get_bind
  refine failsTo_check_bind fun _ _ => ?_
  refine failsTo_check_bind fun _ positive => ?_
  refine failsTo_check_bind fun _ _ => ?_
  refine failsTo_check_bind fun budget stored => ?_
  refine failsTo_check_bind fun _ covered => ?_
  apply failsTo_modify_bind
  apply failsTo_check_bind_of
  · intro e overflow
    rw [orInsert_of_overflow overflow]
  intro owed _
  apply failsTo_modify_bind
  -- the budget covers the fee, so the subtraction stays in range
  have hfits : minI128 ≤ budget - fee.1 ∧ budget - fee.1 ≤ maxI128 := by
    rw [okOr_eq_ok] at stored
    rw [bail_eq_ok] at positive covered
    have hmax := (s.budget program budget stored).2
    have hmin := minI128_le_zero
    constructor <;> omega
  exact failsTo_ok_bind ((i128_eq_ok _ _).mpr ⟨hfits, rfl⟩) ((answers_modify _).failsTo _ _)

omit [DecidableEq Program] in
theorem claim_refused (s : Sound c) : FailsTo (claim reviewer) c c := by
  apply failsTo_get_bind
  apply failsTo_modify_bind
  apply failsTo_check_bind_of
  · -- a kept debt is not empty, so there was no entry to remove
    intro e nothing
    have hnone : c.owed reviewer = none := by
      cases hr : c.owed reviewer with
      | none => rfl
      | some n =>
        have := (s.owed reviewer n hr).1
        rw [hr, Option.getD_some, bail, if_neg (by omega)] at nothing
        cases nothing
    rw [← hnone, Function.update_eq_self]
  · exact fun _ _ => (answers_pure _).failsTo _ _

theorem handle_refused (s : Sound c) (call : Call Program Reviewer) :
    FailsTo (handle call) c c := by
  cases call with
  | fundProgram caller program amount =>
    exact (fundProgram_refused c).bind_answers fun _ => answers_pure _
  | recordReview caller program reviewer fee recused =>
    exact (recordReview_refused s).bind_answers fun _ => answers_pure _
  | claim reviewer => exact (claim_refused s).bind_answers fun _ => answers_pure _

theorem machine_refused (s : Sound c) (h : machine c call = (c', .error e)) : c' = c :=
  handle_refused s call c' e h

/-! ### Books -/

abbrev Event (Program Reviewer : Type) :=
  Answered (Compensation Program Reviewer) (Call Program Reviewer) Answer CompensationError

/-- What an event adds to the budget of a program. -/
def fundedBy (x : Event Program Reviewer) : Option (Program × ℤ) :=
  match x.call, x.out with
  | .fundProgram _ program amount, .ok _ => some (program, amount)
  | _, _ => none

/-- What an event spends from the budget of a program. -/
def spentBy (x : Event Program Reviewer) : Option (Program × ℤ) :=
  match x.call, x.out with
  | .recordReview _ program _ fee _, .ok _ => some (program, fee)
  | _, _ => none

/-- What a reviewer earns by an event. -/
def earnedBy (x : Event Program Reviewer) : Option (Reviewer × ℤ) :=
  match x.call, x.out with
  | .recordReview _ _ reviewer fee _, .ok _ => some (reviewer, fee)
  | _, _ => none

/-- What a reviewer claims by an event. -/
def claimedBy (x : Event Program Reviewer) : Option (Reviewer × ℤ) :=
  match x.call, x.out with
  | .claim reviewer, .ok (.claimed amount) => some (reviewer, amount)
  | _, _ => none

omit [DecidableEq Program] [DecidableEq Reviewer] in
/-- What is spent is earned. -/
theorem volume_spent (h : List (Event Program Reviewer)) :
    volume spentBy h = volume earnedBy h := by
  apply congrArg List.sum
  apply List.map_congr_left
  rintro ⟨pre, call, out, post⟩ -
  cases call <;> cases out <;> rfl

theorem Effect.budgets (h : Effect c c' call out) (p : Program) :
    (c'.budgets p).getD 0 = (c.budgets p).getD 0 + booked (fundedBy ⟨c, call, .ok out, c'⟩) p -
      booked (spentBy ⟨c, call, .ok out, c'⟩) p := by
  cases h with
  | @funded program amount positive fits =>
    show ((Function.update c.budgets program _) p).getD 0 =
      _ + booked (some (program, amount.1)) p - 0
    rw [getD_update, Option.getD_some, add_sub_cancel_left, sub_zero]
  | @reviewed program reviewer fee budget stored positive covered fits =>
    show ((Function.update c.budgets program _) p).getD 0 = _ + 0 - booked (some (program, fee.1)) p
    rw [getD_update, stored, Option.getD_some, Option.getD_some, sub_sub_cancel_left, booked_neg,
      add_zero, sub_eq_add_neg]
  | claimed => exact (sub_zero _).symm.trans (congrArg (· - 0) (add_zero _).symm)

theorem Effect.owed (h : Effect c c' call out) (r : Reviewer) :
    c'.owedTo r = c.owedTo r + booked (earnedBy ⟨c, call, .ok out, c'⟩) r -
      booked (claimedBy ⟨c, call, .ok out, c'⟩) r := by
  cases h with
  | funded positive fits => exact (sub_zero _).symm.trans (congrArg (· - 0) (add_zero _).symm)
  | @reviewed program reviewer fee budget stored positive covered fits =>
    show ((Function.update c.owed reviewer _) r).getD 0 = _ + booked (some (reviewer, fee.1)) r - 0
    rw [getD_update, Option.getD_some, add_sub_cancel_left, sub_zero, owedTo]
  | @claimed reviewer =>
    show ((Function.update c.owed reviewer none) r).getD 0 = _ + 0 - booked (some (reviewer, _)) r
    rw [getD_update, Option.getD_none, zero_sub, booked_neg, add_zero, sub_eq_add_neg, owedTo]

/-- The ledger after the events `h`. -/
structure Books (h : List (Event Program Reviewer)) (c : Compensation Program Reviewer) : Prop where
  sound : Sound c
  budgets : Balanced fundedBy spentBy h fun p => (c.budgets p).getD 0
  owed : Balanced earnedBy claimedBy h c.owedTo

variable {h : List (Event Program Reviewer)} {x : Event Program Reviewer}

theorem sound_step (x : Event Program Reviewer)
    (answered : machine.answering x.pre x.call = .ok (x.post, x.out)) (s : Sound x.pre) :
    Sound x.post := by
  rw [Machine.answering_eq_ok] at answered
  obtain ⟨pre, call, out, post⟩ := x
  cases out with
  | error e =>
    rw [machine_refused s answered]
    exact s
  | ok out => exact s.of_effect (machine_effect answered)

theorem books_step (h : List (Event Program Reviewer)) (x : Event Program Reviewer)
    (answered : machine.answering x.pre x.call = .ok (x.post, x.out)) (b : Books h x.pre) :
    Books (h ++ [x]) x.post := by
  have hsound := sound_step x answered b.sound
  rw [Machine.answering_eq_ok] at answered
  obtain ⟨pre, call, out, post⟩ := x
  simp only at answered hsound b ⊢
  cases out with
  | error e =>
    rw [machine_refused b.sound answered]
    refine ⟨b.sound, b.budgets.snoc fun p => ?_, b.owed.snoc fun r => ?_⟩
    · simp [fundedBy, spentBy]
    · simp [earnedBy, claimedBy]
  | ok out =>
    have heffect := machine_effect answered
    exact ⟨hsound, b.budgets.snoc heffect.budgets, b.owed.snoc heffect.owed⟩

omit [DecidableEq Program] [DecidableEq Reviewer] in
theorem new_sound (governance : Reviewer) :
    Sound (Compensation.new governance : Compensation Program Reviewer) :=
  ⟨nofun, nofun⟩

theorem new_books (governance : Reviewer) :
    Books [] (Compensation.new governance : Compensation Program Reviewer) :=
  ⟨new_sound governance, .nil, .nil⟩

omit [DecidableEq Program] [DecidableEq Reviewer] in
theorem Sound.owed_nonneg (s : Sound c) (r : Reviewer) : 0 ≤ c.owedTo r := by
  rw [owedTo]
  cases hr : c.owed r with
  | none => exact le_rfl
  | some n => exact (s.owed r n hr).1.le

/-- A program spends at most what it was given. -/
theorem Books.spent_le (b : Books h c) (p : Program) : tally spentBy h p ≤ tally fundedBy h p := by
  have hbudget : (c.budgets p).getD 0 = tally fundedBy h p - tally spentBy h p := b.budgets p
  cases hp : c.budgets p with
  | none =>
    rw [hp, Option.getD_none] at hbudget
    omega
  | some n =>
    have := (b.sound.budget p n hp).1
    rw [hp, Option.getD_some] at hbudget
    omega

/-- Over every run of the compensation ledger the funds are conserved: what was funded
is what the budgets hold, what the reviewers are owed and what they claimed. No budget
and no debt is negative, no program spends more than it was given, and a refused call
changes nothing. -/
theorem funds_conserved (governance : Reviewer) (calls : List (Call Program Reviewer)) :
    let r := run machine.answering (Compensation.new governance) calls
    (∃ budgets owed, HasTotal (fun p => (r.1.budgets p).getD 0) budgets ∧
      HasTotal r.1.owedTo owed ∧
      volume fundedBy r.2 = budgets + owed + volume claimedBy r.2) ∧
      (∀ p n, r.1.budgets p = some n → 0 ≤ n) ∧ (∀ reviewer, 0 ≤ r.1.owedTo reviewer) ∧
      (∀ p, tally spentBy r.2 p ≤ tally fundedBy r.2 p) ∧
      ∀ x ∈ r.2, ∀ e, x.out = .error e → x.post = x.pre := by
  intro r
  have b : Books r.2 r.1 := (run_trace _ _ calls).history books_step (new_books governance)
  refine ⟨⟨_, _, b.budgets.total, b.owed.total, ?_⟩, ?_, b.sound.owed_nonneg, b.spent_le, ?_⟩
  · have hspent := volume_spent r.2
    omega
  · intro p n hp
    exact (b.sound.budget p n hp).1
  · intro x hx e hout
    obtain ⟨s, answered⟩ := run_receipt sound_step (new_sound governance) hx
    rw [Machine.answering_eq_ok, hout] at answered
    exact machine_refused s answered

end Compensation

end RefractContracts.Grants
