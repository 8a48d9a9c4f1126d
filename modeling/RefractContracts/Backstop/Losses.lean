import RefractContracts.Backstop.Contract

/-! The backstop with its loss entry points next to the others. `cover_shortfall`
numbers a loss and `absorb_loss` is told its number; both hand it to `_apply_loss`,
whose body is outside the source file and is one more parameter. Neither looks at
claim ids. -/

namespace RefractContracts.Backstop.Losses

open Host

/-- The backstop's storage and the counter that numbers its losses. -/
structure World (Address : Type) where
  backstop : Backstop.World Address
  nextLossIdEntry : Option ℕ

def deployed {Address : Type} (now sequence : ℕ) (ledger : Token Address) : World Address where
  backstop := Backstop.deployed now sequence ledger
  nextLossIdEntry := none

/-- The missing helpers, with the junior-first waterfall. -/
structure Helpers (Address : Type) extends Backstop.Helpers Address where
  applyLoss : World Address → ℕ → ℤ → Call (World Address × ℤ)

variable {Address : Type}

def clearPendingLoss (w : World Address) : World Address :=
  { w with backstop.pendingLossEntry := some false }

variable [DecidableEq Address]

/-- `token.transfer(&env.current_contract_address(), &config.pool, &amount)`. -/
def payPool (vault : Address) (w : World Address) (config : BackstopConfig Address) (amount : ℤ) :
    Call (World Address) := do
  let ledger ← w.backstop.ledger.transfer vault config.pool amount
  pure { w with backstop.ledger := ledger }

section Entry
variable (H : Helpers Address) (vault : Address) (signers : List Address)

/-- Cover at most `amount` of a shortfall under a fresh loss id. -/
def coverShortfall (w : World Address) (caller : Address) (amount : ℤ) :
    Call (World Address × ℤ) := do
  requireAuth signers caller
  let config ← getConfig w.backstop
  bail (caller ≠ config.pool ∧ caller ≠ config.admin) .unauthorized
  bail (amount ≤ 0) .invalidAmount
  let (synced, _) ← H.syncMatured w.backstop
  let state ← getState synced
  let covered := if state.totalCapital < amount then state.totalCapital else amount
  let lossId := w.nextLossIdEntry.getD 1
  let nextLossId ← u64 (lossId + 1)
  let (w, covered) ← H.applyLoss ⟨synced, some nextLossId⟩ lossId covered
  if covered ≤ 0 then
    pure (clearPendingLoss w, 0)
  else
    pure (← payPool vault w config covered, covered)

/-- Apply a loss that the pool identifies. -/
def absorbLoss (w : World Address) (caller : Address) (lossId : ℕ) (amount : ℤ) :
    Call (World Address × ℤ) := do
  requireAuth signers caller
  let config ← getConfig w.backstop
  bail (caller ≠ config.pool ∧ caller ≠ config.admin) .unauthorized
  bail (amount ≤ 0) .invalidAmount
  let (synced, _) ← H.syncMatured w.backstop
  let (w, covered) ← H.applyLoss { w with backstop := synced } lossId amount
  let w := clearPendingLoss w
  if 0 < covered then
    pure (← payPool vault w config covered, covered)
  else
    pure (w, covered)

end Entry

/-! ### Transactions -/

inductive Op (Address : Type) where
  | entry (op : Backstop.Op Address)
  | coverShortfall (caller : Address) (amount : ℤ)
  | absorbLoss (caller : Address) (lossId : ℕ) (amount : ℤ)

structure Transaction (Address : Type) where
  signers : List Address
  op : Op Address

/-- `initialize` starts the loss ids at one; the other entry points leave them. -/
def nextLossId (w : World Address) : Backstop.Op Address → Option ℕ
  | .initializeContract .. => some 1
  | _ => w.nextLossIdEntry

def step (H : Helpers Address) (vault : Address) :
    Contract (World Address) (Transaction Address) ℤ BackstopError := fun w tx =>
  let signers := tx.signers.filter (· ≠ vault)
  match tx.op with
  | .entry op => do
    let (backstop, out) ← Backstop.step H.toHelpers vault w.backstop ⟨tx.signers, op⟩
    return (⟨backstop, nextLossId w op⟩, out)
  | .coverShortfall caller amount => coverShortfall H vault signers w caller amount
  | .absorbLoss caller lossId amount => absorbLoss H vault signers w caller lossId amount

end RefractContracts.Backstop.Losses
