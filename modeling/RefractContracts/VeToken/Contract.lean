import RefractContracts.Host.Run
import RefractContracts.Host.Token

/-! `RefractVeToken`: governance tokens are locked for voting power that decays
linearly to zero at expiry, and protocol fees are shared by an accumulator of
fees per unit of recorded power. Recorded power is refreshed only when an
account's lock changes; claims use live power. -/

namespace RefractContracts.VeToken

open Host

/-- Maximum lock duration in seconds (4 years), the decay denominator. -/
def maxLockTime : ℕ := 4 * 365 * 24 * 60 * 60

/-- Scale of the fees-per-power accumulator. -/
def feeScale : ℤ := 1000000000

structure LockInfo where
  amount : ℤ
  unlockAt : ℕ

structure FeeCheckpoint where
  accFeePerPower : ℤ
  totalPower : ℤ

structure FeeAccount where
  rewardPerPowerPaid : ℤ
  pending : ℤ
  recordedPower : ℤ

inductive VeTokenError where
  | alreadyInitialized
  | notInitialized
  | invalidAmount
  | invalidDuration
  | noLock
  | lockNotExpired
  | cannotShortenLock
  | nothingToClaim
  | noVotingPower
  deriving DecidableEq, Repr

/-- The contract's storage, the ledger time, and the balances of the locked token. -/
structure World (Address : Type) where
  now : ℕ
  ledger : Token Address
  tokenEntry : Option Address
  treasuryEntry : Option Address
  lockEntry : Address → Option LockInfo
  feeAccountEntry : Address → Option FeeAccount
  feeCheckpointEntry : Option FeeCheckpoint

/-- A deployed contract before the call of `initialize`. -/
def deployed {Address : Type} (now : ℕ) (ledger : Token Address) : World Address where
  now
  ledger
  tokenEntry := none
  treasuryEntry := none
  lockEntry _ := none
  feeAccountEntry _ := none
  feeCheckpointEntry := none

variable {Address : Type}

abbrev Call (α : Type) := Outcome VeTokenError α

/-! ### Internal helpers -/

def token (w : World Address) : Call Address := okOr w.tokenEntry .notInitialized

def treasury (w : World Address) : Call Address := okOr w.treasuryEntry .notInitialized

def getLock (w : World Address) (a : Address) : LockInfo := (w.lockEntry a).getD ⟨0, 0⟩

def feeCheckpoint (w : World Address) : FeeCheckpoint := w.feeCheckpointEntry.getD ⟨0, 0⟩

def feeAccount (w : World Address) (a : Address) : FeeAccount :=
  (w.feeAccountEntry a).getD ⟨0, 0, 0⟩

variable [DecidableEq Address]

def setLock (w : World Address) (a : Address) (l : Option LockInfo) : World Address :=
  { w with lockEntry := Function.update w.lockEntry a l }

def setFeeAccount (w : World Address) (a : Address) (acc : FeeAccount) : World Address :=
  { w with feeAccountEntry := Function.update w.feeAccountEntry a (some acc) }

def setFeeCheckpoint (w : World Address) (c : FeeCheckpoint) : World Address :=
  { w with feeCheckpointEntry := some c }

/-- `amount * remaining_lock_time / max_lock_time`, zero from expiry on. -/
def votingPower (w : World Address) (a : Address) : Call ℤ :=
  let lock := getLock w a
  if lock.amount ≤ 0 then pure 0
  else if lock.unlockAt ≤ w.now then pure 0
  else do
    let scaled ← i128 (lock.amount * ↑(lock.unlockAt - w.now))
    pure (scaled.tdiv maxLockTime)

/-- Accrue newly distributed fees into the account's pending balance. -/
def settleFeeAccount (w : World Address) (a : Address) : Call (World Address × ℤ) := do
  let checkpoint := feeCheckpoint w
  let account := feeAccount w a
  let power ← votingPower w a
  let delta ← i128 (checkpoint.accFeePerPower - account.rewardPerPowerPaid)
  let pending ← (if 0 < delta then do
      let share ← i128 (power * delta)
      i128 (account.pending + share.tdiv feeScale)
    else pure account.pending : Call ℤ)
  pure (setFeeAccount w a
    { account with pending, rewardPerPowerPaid := checkpoint.accFeePerPower }, pending)

/-- Update the fee-distribution denominator after the account's lock changed. -/
def refreshTotalPower (w : World Address) (a : Address) : Call (World Address) := do
  let checkpoint := feeCheckpoint w
  let account := feeAccount w a
  let power ← votingPower w a
  let rest ← i128 (checkpoint.totalPower - account.recordedPower)
  let totalPower ← i128 (rest + power)
  pure (setFeeAccount (setFeeCheckpoint w { checkpoint with totalPower }) a
    { account with recordedPower := power })

/-! ### Entry points -/

def initializeContract (w : World Address) (token treasury : Address) : Call (World Address) := do
  bail w.tokenEntry.isSome .alreadyInitialized
  pure (setFeeCheckpoint { w with tokenEntry := some token, treasuryEntry := some treasury } ⟨0, 0⟩)

section Entry
variable (self : Address) (signers : List Address)

/-- Lock `amount` for `duration` seconds; an existing lock is never shortened. -/
def lock (w : World Address) (caller : Address) (amount : ℤ) (duration : ℕ) :
    Call (World Address) := do
  requireAuth signers caller
  bail (amount ≤ 0) .invalidAmount
  bail (duration = 0 ∨ maxLockTime < duration) .invalidDuration
  let _ ← token w
  let unlockAt ← u64 (w.now + duration)
  let (w, _) ← settleFeeAccount w caller
  let existing := getLock w caller
  let newAmount ← i128 (existing.amount + amount)
  let newUnlockAt := if unlockAt < existing.unlockAt then existing.unlockAt else unlockAt
  let ledger ← w.ledger.transfer caller self amount
  refreshTotalPower (setLock { w with ledger } caller (some ⟨newAmount, newUnlockAt⟩)) caller

def extendLock (w : World Address) (caller : Address) (duration : ℕ) : Call (World Address) := do
  requireAuth signers caller
  bail (duration = 0) .invalidDuration
  let lock := getLock w caller
  bail (lock.amount ≤ 0) .noLock
  let base := if w.now < lock.unlockAt then lock.unlockAt else w.now
  let proposed ← u64 (base + duration)
  bail (proposed ≤ lock.unlockAt) .cannotShortenLock
  let span ← uSub proposed w.now
  bail (maxLockTime < span) .invalidDuration
  let (w, _) ← settleFeeAccount w caller
  refreshTotalPower (setLock w caller (some { lock with unlockAt := proposed })) caller

/-- Withdraw the locked tokens once the lock has expired. -/
def withdraw (w : World Address) (caller : Address) : Call (World Address × ℤ) := do
  requireAuth signers caller
  let lock := getLock w caller
  bail (lock.amount ≤ 0) .noLock
  bail (w.now < lock.unlockAt) .lockNotExpired
  let (w, _) ← settleFeeAccount w caller
  let w := setLock w caller none
  let _ ← token w
  let ledger ← w.ledger.transfer self caller lock.amount
  let w ← refreshTotalPower { w with ledger } caller
  pure (w, lock.amount)

/-- Route `amount` from the treasury into the accumulator. -/
def distributeFees (w : World Address) (amount : ℤ) : Call (World Address) := do
  bail (amount ≤ 0) .invalidAmount
  let treasury ← treasury w
  requireAuth signers treasury
  let checkpoint := feeCheckpoint w
  bail (checkpoint.totalPower ≤ 0) .noVotingPower
  let _ ← token w
  let ledger ← w.ledger.transfer treasury self amount
  let scaled ← i128 (amount * feeScale)
  let accFeePerPower ← i128 (checkpoint.accFeePerPower + scaled.tdiv checkpoint.totalPower)
  pure (setFeeCheckpoint { w with ledger } { checkpoint with accFeePerPower })

def claimFees (w : World Address) (caller : Address) : Call (World Address × ℤ) := do
  requireAuth signers caller
  let (w, pending) ← settleFeeAccount w caller
  bail (pending ≤ 0) .nothingToClaim
  let w := setFeeAccount w caller { feeAccount w caller with pending := 0 }
  let _ ← token w
  let ledger ← w.ledger.transfer self caller pending
  pure ({ w with ledger }, pending)

end Entry

/-- View of the account's claimable fees. -/
def claimableFees (w : World Address) (a : Address) : Call ℤ := do
  let checkpoint := feeCheckpoint w
  let account := feeAccount w a
  let power ← votingPower w a
  let delta ← i128 (checkpoint.accFeePerPower - account.rewardPerPowerPaid)
  if delta ≤ 0 then pure account.pending
  else do
    let share ← i128 (power * delta)
    i128 (account.pending + share.tdiv feeScale)

/-! ### Transactions -/

/-- The entry points, the passing of ledger time, and transfers of the token
that do not go through the contract. -/
inductive Op (Address : Type) where
  | initializeContract (token treasury : Address)
  | lock (caller : Address) (amount : ℤ) (duration : ℕ)
  | extendLock (caller : Address) (duration : ℕ)
  | withdraw (caller : Address)
  | distributeFees (amount : ℤ)
  | claimFees (caller : Address)
  | advance (seconds : ℕ)
  | transfer (src dst : Address) (amount : ℤ)

structure Transaction (Address : Type) where
  signers : List Address
  op : Op Address

/-- One transaction. A contract address does not sign, so `self` authorises nothing. -/
def step (self : Address) : Contract (World Address) (Transaction Address) ℤ VeTokenError :=
  fun w tx =>
    let signers := tx.signers.filter (· ≠ self)
    match tx.op with
    | .initializeContract token treasury => do return (← initializeContract w token treasury, 0)
    | .lock caller amount duration => do return (← lock self signers w caller amount duration, 0)
    | .extendLock caller duration => do return (← extendLock signers w caller duration, 0)
    | .withdraw caller => withdraw self signers w caller
    | .distributeFees amount => do return (← distributeFees self signers w amount, 0)
    | .claimFees caller => claimFees self signers w caller
    | .advance seconds => do return ({ w with now := ← u64 (w.now + seconds) }, 0)
    | .transfer src dst amount => do
      requireAuth signers src
      return ({ w with ledger := ← w.ledger.transfer src dst amount }, 0)

end RefractContracts.VeToken
