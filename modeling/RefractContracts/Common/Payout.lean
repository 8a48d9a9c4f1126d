import RefractContracts.Host.Run

/-! Payouts that do not revert, and the ledger of those that failed. A payout whose
transfer fails is recorded and its amount stays earmarked as a liability of the token.
A record is retried, redirected, or reclaimed after a timeout; how a token answers a
transfer is an input of each call. -/

namespace RefractContracts.Common

open Host

/-- 30 days. -/
def reclaimTimeoutSecs : ℕ := 30 * 24 * 60 * 60

/-- Maximum number of records of one listing. -/
def maxListLimit : ℕ := 50

def sacUnauthorized : ℕ := 4
def sacAuthentication : ℕ := 5
def sacAccountMissing : ℕ := 6
def sacBalance : ℕ := 10
def sacBalanceDeauthorized : ℕ := 11
def sacTrustlineMissing : ℕ := 13

inductive TransferOutcome where
  | success
  | frozen
  | blocked
  | missingTrustline
  | insufficientBalance
  | unauthorized
  deriving DecidableEq, Repr

inductive PayoutStatus where
  | pending
  | paid
  | failed
  | reclaimed
  deriving DecidableEq, Repr

/-- A payout that failed at least once. -/
structure PayoutRecord (Address : Type) where
  id : ℕ
  token : Address
  recipient : Address
  amount : ℤ
  status : PayoutStatus
  reason : TransferOutcome
  attempts : ℕ
  firstFailedAt : ℕ
  lastAttemptAt : ℕ
  context : ℕ

structure PayoutResult where
  outcome : TransferOutcome
  payoutId : Option ℕ
  deriving DecidableEq, Repr

inductive PayoutError where
  | notFound
  | notFailed
  | reclaimTooEarly
  | sameRecipient
  deriving DecidableEq, Repr

/-- The host's kinds of errors. -/
inductive ScErrorType where
  | contract
  | wasmVm
  | context
  | storage
  | object
  | crypto
  | events
  | budget
  | value
  | auth
  deriving DecidableEq, Repr

/-- What `try_transfer` of a token client returns. -/
inductive TransferAnswer where
  | ok
  | notUnit
  | error (type : ScErrorType) (code : ℕ)
  | contract (code : ℕ)
  | abort
  deriving DecidableEq, Repr

/-- How each token answers a transfer of an amount from one address to another. -/
abbrev Tokens (Address : Type) := Address → Address → Address → ℤ → TransferAnswer

/-- The entries of the ledger in the host contract's storage, and the ledger time. -/
structure World (Address : Type) where
  now : ℕ
  nextIdEntry : Option ℕ
  recordEntry : ℕ → Option (PayoutRecord Address)
  liabilityEntry : Address → Option ℤ

def deployed (Address : Type) (now : ℕ) : World Address where
  now
  nextIdEntry := none
  recordEntry _ := none
  liabilityEntry _ := none

abbrev Call (α : Type) := Outcome PayoutError α

variable {Address : Type}

/-! ### Transfers -/

def classifyContractCode (code : ℕ) : TransferOutcome :=
  if code = sacBalanceDeauthorized then .frozen
  else if code = sacTrustlineMissing ∨ code = sacAccountMissing then .missingTrustline
  else if code = sacBalance then .insufficientBalance
  else if code = sacUnauthorized ∨ code = sacAuthentication then .unauthorized
  else .blocked

def classifyError (type : ScErrorType) (code : ℕ) : TransferOutcome :=
  if type = .contract then classifyContractCode code
  else if type = .auth then .unauthorized
  else .blocked

/-- Attempt a transfer; a failure is an outcome and no trap. -/
def tryTransfer (tokens : Tokens Address) (token src dst : Address) (amount : ℤ) :
    TransferOutcome :=
  if amount ≤ 0 then .success
  else
    match tokens token src dst amount with
    | .ok => .success
    | .notUnit => .blocked
    | .error type code => classifyError type code
    | .contract code => classifyContractCode code
    | .abort => .blocked

/-! ### The ledger of failed payouts -/

def get (w : World Address) (id : ℕ) : Option (PayoutRecord Address) := w.recordEntry id

/-- Number of records ever created. -/
def count (w : World Address) : ℕ := w.nextIdEntry.getD 0

def liability (w : World Address) (token : Address) : ℤ := (w.liabilityEntry token).getD 0

def writeRecord (w : World Address) (record : PayoutRecord Address) : World Address :=
  { w with recordEntry := Function.update w.recordEntry record.id (some record) }

/-- The loop of `list_failed`, with what is left of its budget. -/
def listFailedLoop (w : World Address) (limit : ℕ) :
    ℕ → ℕ → List (PayoutRecord Address) → List (PayoutRecord Address)
  | 0, _, out => out
  | budget + 1, id, out =>
    if id < count w ∧ out.length < limit then
      listFailedLoop w limit budget (id + 1)
        (out ++ (get w id).toList.filter (·.status = .failed))
    else out

def listFailed (w : World Address) (startId limit : ℕ) : List (PayoutRecord Address) :=
  let limit := min limit maxListLimit
  listFailedLoop w limit (u64SaturatingMul limit 4) startId []

section Entry
variable [DecidableEq Address] (tokens : Tokens Address) (self : Address)

def addLiability (w : World Address) (token : Address) (amount : ℤ) : World Address :=
  { w with
    liabilityEntry := Function.update w.liabilityEntry token
      (some (i128SaturatingAdd (liability w token) amount)) }

def subLiability (w : World Address) (token : Address) (amount : ℤ) : World Address :=
  { w with
    liabilityEntry := Function.update w.liabilityEntry token
      (some (max (i128SaturatingSub (liability w token) amount) 0)) }

/-- Pay from the host contract; a failed transfer becomes a record. -/
def pay (w : World Address) (token recipient : Address) (amount : ℤ) (context : ℕ) :
    Call (World Address × PayoutResult) := do
  let outcome := tryTransfer tokens token self recipient amount
  if outcome = .success then pure (w, ⟨outcome, none⟩)
  else do
    let id := count w
    let nextId ← u64 (id + 1)
    let record : PayoutRecord Address :=
      { id, token, recipient, amount
        status := .failed
        reason := outcome
        attempts := 1
        firstFailedAt := w.now
        lastAttemptAt := w.now
        context }
    let w := writeRecord { w with nextIdEntry := some nextId } record
    pure (addLiability w token amount, ⟨outcome, some id⟩)

def retry (w : World Address) (id : ℕ) : Call (World Address × TransferOutcome) := do
  let record ← okOr (get w id) .notFound
  bail (record.status ≠ .failed) .notFailed
  let outcome := tryTransfer tokens record.token self record.recipient record.amount
  let record := { record with
    attempts := u32SaturatingAdd record.attempts 1
    lastAttemptAt := w.now }
  if outcome = .success then
    let w := writeRecord w { record with status := .paid }
    pure (subLiability w record.token record.amount, outcome)
  else pure (writeRecord w { record with reason := outcome }, outcome)

def updateRecipient (w : World Address) (id : ℕ) (newRecipient : Address) :
    Call (World Address × PayoutRecord Address) := do
  let record ← okOr (get w id) .notFound
  bail (record.status ≠ .failed) .notFailed
  bail (record.recipient = newRecipient) .sameRecipient
  let record := { record with recipient := newRecipient }
  pure (writeRecord w record, record)

/-- Give a failed payout up once the timeout since its first failure is over. -/
def reclaim (w : World Address) (id : ℕ) : Call (World Address × PayoutRecord Address) := do
  let record ← okOr (get w id) .notFound
  bail (record.status ≠ .failed) .notFailed
  bail (w.now < u64SaturatingAdd record.firstFailedAt reclaimTimeoutSecs) .reclaimTooEarly
  let record := { record with status := .reclaimed }
  pure (subLiability (writeRecord w record) record.token record.amount, record)

end Entry

/-! ### Transactions -/

inductive Op (Address : Type) where
  | pay (token recipient : Address) (amount : ℤ) (context : ℕ)
  | retry (id : ℕ)
  | updateRecipient (id : ℕ) (newRecipient : Address)
  | reclaim (id : ℕ)
  | advance (seconds : ℕ)

/-- `tokens` are the answers of the tokens while the call runs. -/
structure Transaction (Address : Type) where
  tokens : Tokens Address
  op : Op Address

inductive Answer (Address : Type) where
  | result (r : PayoutResult)
  | outcome (o : TransferOutcome)
  | record (record : PayoutRecord Address)
  | unit

variable [DecidableEq Address]

/-- One call of the host contract `self` into the ledger. -/
def step (self : Address) :
    Contract (World Address) (Transaction Address) (Answer Address) PayoutError := fun w tx =>
  match tx.op with
  | .pay token recipient amount context => do
    let (w, r) ← pay tx.tokens self w token recipient amount context
    return (w, .result r)
  | .retry id => do
    let (w, o) ← retry tx.tokens self w id
    return (w, .outcome o)
  | .updateRecipient id newRecipient => do
    let (w, record) ← updateRecipient w id newRecipient
    return (w, .record record)
  | .reclaim id => do
    let (w, record) ← reclaim w id
    return (w, .record record)
  | .advance seconds => do return ({ w with now := ← u64 (w.now + seconds) }, .unit)

end RefractContracts.Common
