import RefractContracts.Host.Run
import RefractContracts.Host.Value

/-! `RefractPayoutRegistry`: registered writers record the payouts they made, and the
registry indexes them by recipient, by asset and by reference. A reference that is
known is a replay, which answers the index of the record that is there. -/

namespace RefractContracts.PayoutRegistry

open Host

/-- Maximum number of records a query returns. -/
def maxPageSize : ℕ := 50

inductive PayoutRegistryError where
  | alreadyInitialized
  | notInitialized
  | unauthorized
  | invalidAmount
  | payoutNotFound
  | noPendingAdmin
  deriving DecidableEq, Repr

abbrev Reference := BitVec 256

structure PayoutRecord (Address : Type) where
  recipient : Address
  source : Symbol
  amount : ℤ
  asset : Address
  referenceId : Reference
  ledger : ℕ
  timestamp : ℕ

structure PayoutRequest (Address : Type) where
  recipient : Address
  source : Symbol
  amount : ℤ
  asset : Address
  referenceId : Reference

/-- The contract's storage and the ledger's time and sequence number. -/
structure World (Address : Type) where
  now : ℕ
  sequence : ℕ
  adminEntry : Option Address
  pendingAdminEntry : Option Address
  writerEntry : Address → Option Bool
  recipientPayoutCountEntry : Address → Option ℕ
  recipientPayoutEntry : Address × ℕ → Option (PayoutRecord Address)
  referenceEntry : Reference → Option (Address × ℕ)
  recipientAssetTotalEntry : Address × Address → Option ℤ
  totalPayoutsEntry : Option ℕ

/-- A deployed contract before the call of `initialize`. -/
def deployed (Address : Type) (now sequence : ℕ) : World Address where
  now
  sequence
  adminEntry := none
  pendingAdminEntry := none
  writerEntry _ := none
  recipientPayoutCountEntry _ := none
  recipientPayoutEntry _ := none
  referenceEntry _ := none
  recipientAssetTotalEntry _ := none
  totalPayoutsEntry := none

abbrev Call (α : Type) := Outcome PayoutRegistryError α

variable {Address : Type}

/-! ### Views -/

def isWriter (w : World Address) (writer : Address) : Bool := (w.writerEntry writer).getD false

def getRecipientPayoutCount (w : World Address) (recipient : Address) : ℕ :=
  (w.recipientPayoutCountEntry recipient).getD 0

def getTotalByAsset (w : World Address) (recipient asset : Address) : ℤ :=
  (w.recipientAssetTotalEntry (recipient, asset)).getD 0

def getTotalPayouts (w : World Address) : ℕ := w.totalPayoutsEntry.getD 0

def getPayoutByReference (w : World Address) (referenceId : Reference) :
    Call (PayoutRecord Address) := do
  let place ← okOr (w.referenceEntry referenceId) .payoutNotFound
  okOr (w.recipientPayoutEntry place) .payoutNotFound

/-- The records from index `start` on, at most `limit` and at most a page. -/
def getPayoutHistory (w : World Address) (recipient : Address) (start limit : ℕ) :
    List (PayoutRecord Address) :=
  let effectiveLimit := min limit maxPageSize
  let totalCount := getRecipientPayoutCount w recipient
  if limit = 0 then []
  else if totalCount ≤ start then []
  else
    let stop := min (u32SaturatingAdd start effectiveLimit) totalCount
    (List.range' start (stop - start)).filterMap fun idx => w.recipientPayoutEntry (recipient, idx)

/-! ### Entry points -/

section Entry
variable [DecidableEq Address] (signers : List Address)

def requireAdmin (w : World Address) (caller : Address) : Call Unit := do
  requireAuth signers caller
  let admin ← okOr w.adminEntry .notInitialized
  bail (admin ≠ caller) .unauthorized

omit [DecidableEq Address] in
def initializeContract (w : World Address) (admin : Address) : Call (World Address) := do
  bail w.adminEntry.isSome .alreadyInitialized
  pure { w with adminEntry := some admin, totalPayoutsEntry := some 0 }

def proposeAdmin (w : World Address) (caller newAdmin : Address) : Call (World Address) := do
  requireAdmin signers w caller
  pure { w with pendingAdminEntry := some newAdmin }

def acceptAdmin (w : World Address) (caller : Address) : Call (World Address) := do
  requireAuth signers caller
  let pending ← okOr w.pendingAdminEntry .noPendingAdmin
  bail (pending ≠ caller) .unauthorized
  pure { w with adminEntry := some caller, pendingAdminEntry := none }

/-- The administrator sets the flag of a writer. -/
def setWriter (w : World Address) (caller writer : Address) (flag : Bool) :
    Call (World Address) := do
  requireAdmin signers w caller
  pure { w with writerEntry := Function.update w.writerEntry writer (some flag) }

def registerWriter (w : World Address) (caller writer : Address) : Call (World Address) :=
  setWriter signers w caller writer true

def deregisterWriter (w : World Address) (caller writer : Address) : Call (World Address) :=
  setWriter signers w caller writer false

omit [DecidableEq Address] in
/-- The host extends the lifetime of four entries, and traps if one is missing. -/
def extendRecordTtl (w : World Address) (recipient : Address) (idx : ℕ) (referenceId : Reference)
    (asset : Address) : Call Unit := do
  demand (w.recipientPayoutEntry (recipient, idx)).isSome
  demand (w.recipientPayoutCountEntry recipient).isSome
  demand (w.referenceEntry referenceId).isSome
  demand (w.recipientAssetTotalEntry (recipient, asset)).isSome

/-- Append a record and update the indexes, or answer the place of a known reference. -/
def recordPayoutInternal (w : World Address) (caller recipient : Address) (source : Symbol)
    (amount : ℤ) (asset : Address) (referenceId : Reference) (ledger : ℕ) :
    Call (World Address × ℕ) := do
  requireAuth signers caller
  bail (isWriter w caller = false) .unauthorized
  bail (amount ≤ 0) .invalidAmount
  match w.referenceEntry referenceId with
  | some (existingRecipient, existingIdx) => do
    extendRecordTtl w existingRecipient existingIdx referenceId asset
    pure (w, existingIdx)
  | none => do
    let count := getRecipientPayoutCount w recipient
    let record : PayoutRecord Address :=
      { recipient, source, amount, asset, referenceId, ledger, timestamp := w.now }
    bail (maxU32 < count + 1) .invalidAmount
    let newAssetTotal ← i128Checked (getTotalByAsset w recipient asset + amount) .invalidAmount
    let totalPayouts ← u64 (getTotalPayouts w + 1)
    let w := { w with
      recipientPayoutEntry :=
        Function.update w.recipientPayoutEntry (recipient, count) (some record)
      recipientPayoutCountEntry :=
        Function.update w.recipientPayoutCountEntry recipient (some (count + 1))
      referenceEntry := Function.update w.referenceEntry referenceId (some (recipient, count))
      recipientAssetTotalEntry :=
        Function.update w.recipientAssetTotalEntry (recipient, asset) (some newAssetTotal)
      totalPayoutsEntry := some totalPayouts }
    extendRecordTtl w recipient count referenceId asset
    pure (w, count)

def recordPayout (w : World Address) (caller recipient : Address) (source : Symbol) (amount : ℤ)
    (asset : Address) (referenceId : Reference) : Call (World Address × ℕ) :=
  recordPayoutInternal signers w caller recipient source amount asset referenceId w.sequence

def recordPayoutWithLedger (w : World Address) (caller recipient : Address) (source : Symbol)
    (amount : ℤ) (asset : Address) (referenceId : Reference) (ledger : ℕ) :
    Call (World Address × ℕ) :=
  recordPayoutInternal signers w caller recipient source amount asset referenceId ledger

def registerPayout (w : World Address) (caller : Address) (req : PayoutRequest Address) :
    Call (World Address × ℕ) :=
  recordPayoutInternal signers w caller req.recipient req.source req.amount req.asset
    req.referenceId w.sequence

end Entry

/-! ### Transactions -/

/-- The entry points and the closing of ledgers. -/
inductive Op (Address : Type) where
  | initializeContract (admin : Address)
  | proposeAdmin (caller newAdmin : Address)
  | acceptAdmin (caller : Address)
  | registerWriter (caller writer : Address)
  | deregisterWriter (caller writer : Address)
  | recordPayout (caller recipient : Address) (source : Symbol) (amount : ℤ) (asset : Address)
      (referenceId : Reference)
  | recordPayoutWithLedger (caller recipient : Address) (source : Symbol) (amount : ℤ)
      (asset : Address) (referenceId : Reference) (ledger : ℕ)
  | registerPayout (caller : Address) (req : PayoutRequest Address)
  | advance (seconds ledgers : ℕ)

/-- `signers` are the addresses that authorise the call: those that signed, and for a
call made by a contract the contract itself. -/
structure Transaction (Address : Type) where
  signers : List Address
  op : Op Address

variable [DecidableEq Address]

def step : Contract (World Address) (Transaction Address) ℕ PayoutRegistryError := fun w tx =>
  match tx.op with
  | .initializeContract admin => do return (← initializeContract w admin, 0)
  | .proposeAdmin caller newAdmin => do return (← proposeAdmin tx.signers w caller newAdmin, 0)
  | .acceptAdmin caller => do return (← acceptAdmin tx.signers w caller, 0)
  | .registerWriter caller writer => do return (← registerWriter tx.signers w caller writer, 0)
  | .deregisterWriter caller writer => do return (← deregisterWriter tx.signers w caller writer, 0)
  | .recordPayout caller recipient source amount asset referenceId =>
    recordPayout tx.signers w caller recipient source amount asset referenceId
  | .recordPayoutWithLedger caller recipient source amount asset referenceId ledger =>
    recordPayoutWithLedger tx.signers w caller recipient source amount asset referenceId ledger
  | .registerPayout caller req => registerPayout tx.signers w caller req
  | .advance seconds ledgers => do
    return ({ w with now := ← u64 (w.now + seconds), sequence := w.sequence + ledgers }, 0)

end RefractContracts.PayoutRegistry
