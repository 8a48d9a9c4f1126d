import RefractContracts.Host.Run
import RefractContracts.Host.Token

/-! `RefractBountyEscrow`: a reward pool from which governance pays researchers,
at once (`award`), by a payout the recipient claims, or against a commitment whose
preimage the reporter reveals to be paid at a bound address. The accessors that
the source leaves out are parameters. -/

namespace RefractContracts.Bounty

open Host

/-- Default lifetime of a payout-address binding (30 days). -/
def defaultBindingTtlSecs : ℕ := 30 * 24 * 60 * 60

inductive ScreeningStatus where
  | allowed
  | blocked
  deriving DecidableEq, Repr

/-- Record that a specific disclosure was rewarded. -/
structure AwardRecord (Address Hash : Type) where
  researcher : Address
  amount : ℤ
  reportHash : Hash
  timestamp : ℕ

inductive PayoutStatus where
  | pending
  | claimed
  | swept
  deriving DecidableEq, Repr

/-- Per-recipient escrow record for a pull-based payout. -/
structure PayoutRecord (Address : Type) where
  recipient : Address
  token : Address
  amount : ℤ
  deadline : ℕ
  status : PayoutStatus

inductive CommitmentAwardStatus where
  | awarded
  | claimed
  deriving DecidableEq, Repr

/-- Binding between a commitment and a rotatable payout address. -/
structure PayoutBindingRecord (Address : Type) where
  owner : Address
  payoutAddress : Address
  registeredAt : ℕ
  expiresAt : ℕ

/-- Escrow record for a reward adjudicated against a commitment. -/
structure CommitmentAwardRecord (Hash : Type) where
  reportHash : Hash
  commitment : Hash
  amount : ℤ
  awardedAt : ℕ
  status : CommitmentAwardStatus

inductive BountyError where
  | alreadyInitialized
  | notInitialized
  | invalidAmount
  | insufficientBalance
  | unauthorized
  | duplicateReport
  | payoutNotFound
  | notRecipient
  | payoutAlreadySettled
  | deadlineNotReached
  | invalidDeadline
  | recipientNotAllowed
  | commitmentAlreadyUsed
  | bindingNotFound
  | bindingExpired
  | notBindingOwner
  | invalidPreimage
  | addressFrozen
  | commitmentMismatch
  deriving DecidableEq, Repr

/-- A payment for a report. -/
structure Reward (Address Hash : Type) where
  reportHash : Hash
  payee : Address
  amount : ℤ

/-- The contract's storage, the ledger time and the balances of every token
contract. `rewards` is the history of the payments for reports, in their order;
the contract does not read it. -/
structure World (Address Hash : Type) where
  now : ℕ
  tokens : Address → Token Address
  governanceEntry : Option Address
  tokenEntry : Option Address
  balanceEntry : Option ℤ
  reservedEntry : Option ℤ
  nextPayoutIdEntry : Option ℕ
  awardEntry : Hash → Option (AwardRecord Address Hash)
  payoutEntry : ℕ → Option (PayoutRecord Address)
  recipientStatusEntry : Address → Option ScreeningStatus
  payoutBindingEntry : Hash → Option (PayoutBindingRecord Address)
  disclosureCommitmentEntry : Hash → Option Hash
  commitmentAwardEntry : Hash → Option (CommitmentAwardRecord Hash)
  usedCommitmentEntry : Hash → Option Bool
  frozenAddressEntry : Address → Option Bool
  rewards : List (Reward Address Hash)

/-- A deployed contract before the call of `initialize`. -/
def deployed {Address : Type} (Hash : Type) (now : ℕ) (tokens : Address → Token Address) :
    World Address Hash where
  now
  tokens
  governanceEntry := none
  tokenEntry := none
  balanceEntry := none
  reservedEntry := none
  nextPayoutIdEntry := none
  awardEntry _ := none
  payoutEntry _ := none
  recipientStatusEntry _ := none
  payoutBindingEntry _ := none
  disclosureCommitmentEntry _ := none
  commitmentAwardEntry _ := none
  usedCommitmentEntry _ := none
  frozenAddressEntry _ := none
  rewards := []

abbrev Call (α : Type) := Outcome BountyError α

/-- The functions whose bodies the source leaves out. -/
structure Helpers (Address Hash : Type) where
  governanceAddr : World Address Hash → Call Address
  tokenAddr : World Address Hash → Call Address
  rawBalance : World Address Hash → Call ℤ
  rawReserved : World Address Hash → Call ℤ
  availableBalanceInner : World Address Hash → Call ℤ
  isRecipientAllowedInner : World Address Hash → Address → Bool
  isAddressFrozen : World Address Hash → Address → Bool
  hashPreimage : Hash → Hash

variable {Address Hash : Type}

/-- The accessors that read the stored values. -/
def storedHelpers (sha256 : Hash → Hash) : Helpers Address Hash where
  governanceAddr w := okOr w.governanceEntry .notInitialized
  tokenAddr w := okOr w.tokenEntry .notInitialized
  rawBalance w := okOr w.balanceEntry .notInitialized
  rawReserved w := okOr w.reservedEntry .notInitialized
  availableBalanceInner w := do
    let balance ← okOr w.balanceEntry .notInitialized
    let reserved ← okOr w.reservedEntry .notInitialized
    i128 (balance - reserved)
  isRecipientAllowedInner w a := w.recipientStatusEntry a = some .allowed
  isAddressFrozen w a := (w.frozenAddressEntry a).getD false
  hashPreimage := sha256

def setPayout (w : World Address Hash) (id : ℕ) (p : PayoutRecord Address) : World Address Hash :=
  { w with payoutEntry := Function.update w.payoutEntry id (some p) }

section Storage
variable [DecidableEq Hash]

def setAward (w : World Address Hash) (reportHash : Hash) (r : AwardRecord Address Hash) :
    World Address Hash :=
  { w with awardEntry := Function.update w.awardEntry reportHash (some r) }

def setBinding (w : World Address Hash) (commitment : Hash) (b : PayoutBindingRecord Address) :
    World Address Hash :=
  { w with payoutBindingEntry := Function.update w.payoutBindingEntry commitment (some b) }

def setCommitmentAward (w : World Address Hash) (commitment : Hash)
    (a : CommitmentAwardRecord Hash) : World Address Hash :=
  { w with commitmentAwardEntry := Function.update w.commitmentAwardEntry commitment (some a) }

/-- Bind a disclosure to a commitment and mark the commitment as used. -/
def bindDisclosure (w : World Address Hash) (reportHash commitment : Hash) : World Address Hash :=
  { w with
    disclosureCommitmentEntry :=
      Function.update w.disclosureCommitmentEntry reportHash (some commitment)
    usedCommitmentEntry := Function.update w.usedCommitmentEntry commitment (some true) }

end Storage

variable [DecidableEq Address]

/-- `token::Client::new(&env, &token).transfer(..)`. -/
def transferToken (w : World Address Hash) (token src dst : Address) (amount : ℤ) :
    Call (World Address Hash) := do
  let ledger ← (w.tokens token).transfer src dst amount
  pure { w with tokens := Function.update w.tokens token ledger }

section Entry
variable (H : Helpers Address Hash) (self : Address) (signers : List Address)

def requireGovernance (w : World Address Hash) (caller : Address) : Call Unit := do
  requireAuth signers caller
  let governance ← H.governanceAddr w
  bail (caller ≠ governance) .unauthorized

omit [DecidableEq Address] in
def initializeContract (w : World Address Hash) (governance token : Address) :
    Call (World Address Hash) := do
  bail w.governanceEntry.isSome .alreadyInitialized
  pure { w with
    governanceEntry := some governance, tokenEntry := some token, balanceEntry := some 0
    reservedEntry := some 0, nextPayoutIdEntry := some 0 }

def setGovernance (w : World Address Hash) (caller newGovernance : Address) :
    Call (World Address Hash) := do
  requireGovernance H signers w caller
  pure { w with governanceEntry := some newGovernance }

/-- Top up the reward pool. -/
def fund (w : World Address Hash) (src : Address) (amount : ℤ) : Call (World Address Hash) := do
  requireAuth signers src
  bail (amount ≤ 0) .invalidAmount
  let token ← H.tokenAddr w
  let balance ← H.rawBalance w
  let newBalance ← i128Checked (balance + amount) .invalidAmount
  let w ← transferToken w token src self amount
  pure { w with balanceEntry := some newBalance }

/-! ### Push payout -/

/-- Award a bounty to a researcher immediately. -/
def award [DecidableEq Hash] (w : World Address Hash) (caller researcher : Address) (amount : ℤ)
    (reportHash : Hash) : Call (World Address Hash) := do
  requireGovernance H signers w caller
  bail (amount ≤ 0) .invalidAmount
  bail (w.awardEntry reportHash).isSome .duplicateReport
  bail (H.isRecipientAllowedInner w researcher = false) .recipientNotAllowed
  let available ← H.availableBalanceInner w
  bail (available < amount) .insufficientBalance
  let balance ← H.rawBalance w
  let newBalance ← i128Checked (balance - amount) .insufficientBalance
  let token ← H.tokenAddr w
  let w ← transferToken w token self researcher amount
  let w := { w with balanceEntry := some newBalance }
  let w := setAward w reportHash ⟨researcher, amount, reportHash, w.now⟩
  pure { w with rewards := w.rewards ++ [⟨reportHash, researcher, amount⟩] }

/-! ### Pull payout -/

/-- Reserve `amount` for a recipient, who may claim it. -/
def createPayout (w : World Address Hash) (caller recipient : Address) (amount : ℤ)
    (deadline : ℕ) : Call (World Address Hash × ℕ) := do
  requireGovernance H signers w caller
  bail (amount ≤ 0) .invalidAmount
  bail (deadline ≤ w.now) .invalidDeadline
  bail (H.isRecipientAllowedInner w recipient = false) .recipientNotAllowed
  let available ← H.availableBalanceInner w
  bail (available < amount) .insufficientBalance
  let reserved ← H.rawReserved w
  let newReserved ← i128Checked (reserved + amount) .invalidAmount
  let w := { w with reservedEntry := some newReserved }
  let payoutId := w.nextPayoutIdEntry.getD 0
  let next ← u64 (payoutId + 1)
  let w := { w with nextPayoutIdEntry := some next }
  let token ← H.tokenAddr w
  pure (setPayout w payoutId ⟨recipient, token, amount, deadline, .pending⟩, payoutId)

/-- Settle a pending payout with the given status and pay it to `dst`. -/
def settlePayout (w : World Address Hash) (payoutId : ℕ) (record : PayoutRecord Address)
    (status : PayoutStatus) (dst : Address) : Call (World Address Hash × ℤ) := do
  let w := setPayout w payoutId { record with status }
  let reserved ← H.rawReserved w
  let newReserved ← i128Checked (reserved - record.amount) .insufficientBalance
  let w := { w with reservedEntry := some newReserved }
  let balance ← H.rawBalance w
  let newBalance ← i128Checked (balance - record.amount) .insufficientBalance
  let w := { w with balanceEntry := some newBalance }
  let w ← transferToken w record.token self dst record.amount
  pure (w, record.amount)

/-- Claim a payout as its recorded recipient. -/
def claim (w : World Address Hash) (recipient : Address) (payoutId : ℕ) :
    Call (World Address Hash × ℤ) := do
  requireAuth signers recipient
  let record ← okOr (w.payoutEntry payoutId) .payoutNotFound
  bail (record.recipient ≠ recipient) .notRecipient
  bail (record.status ≠ .pending) .payoutAlreadySettled
  settlePayout H self w payoutId record .claimed recipient

/-- Sweep an expired payout back to governance. -/
def sweepExpired (w : World Address Hash) (payoutId : ℕ) : Call (World Address Hash × ℤ) := do
  let record ← okOr (w.payoutEntry payoutId) .payoutNotFound
  bail (w.now < record.deadline) .deadlineNotReached
  bail (record.status ≠ .pending) .payoutAlreadySettled
  let governance ← H.governanceAddr w
  settlePayout H self w payoutId record .swept governance

/-! ### Payout-address indirection -/

variable [DecidableEq Hash]

/-- File a disclosure bound to a payout commitment. -/
def submitDisclosure (w : World Address Hash) (submitter : Address) (reportHash commitment : Hash) :
    Call (World Address Hash) := do
  requireAuth signers submitter
  let _ ← H.governanceAddr w
  bail ((w.disclosureCommitmentEntry reportHash).isSome ∨ (w.awardEntry reportHash).isSome)
    .duplicateReport
  bail (w.usedCommitmentEntry commitment).isSome .commitmentAlreadyUsed
  pure (bindDisclosure w reportHash commitment)

/-- Bind the commitment of `preimage` to a payout address. -/
def registerPayoutAddress (w : World Address Hash) (owner : Address) (preimage : Hash)
    (payoutAddress : Address) : Call (World Address Hash) := do
  requireAuth signers owner
  let _ ← H.governanceAddr w
  bail (H.isAddressFrozen w payoutAddress = true) .addressFrozen
  let commitment := H.hashPreimage preimage
  bail (w.payoutBindingEntry commitment).isSome .commitmentAlreadyUsed
  pure (setBinding w commitment
    ⟨owner, payoutAddress, w.now, u64SaturatingAdd w.now defaultBindingTtlSecs⟩)

/-- Replace the bound payout address before the award is claimed. -/
def rotatePayoutAddress (w : World Address Hash) (owner : Address) (preimage : Hash)
    (newPayoutAddress : Address) : Call (World Address Hash) := do
  requireAuth signers owner
  let _ ← H.governanceAddr w
  bail (H.isAddressFrozen w newPayoutAddress = true) .addressFrozen
  let commitment := H.hashPreimage preimage
  let binding ← okOr (w.payoutBindingEntry commitment) .bindingNotFound
  bail (binding.expiresAt < w.now) .bindingExpired
  bail (binding.owner ≠ owner) .notBindingOwner
  bail ((w.commitmentAwardEntry commitment).any (·.status ≠ .awarded)) .payoutAlreadySettled
  pure (setBinding w commitment
    { binding with
      payoutAddress := newPayoutAddress, registeredAt := w.now
      expiresAt := u64SaturatingAdd w.now defaultBindingTtlSecs })

omit [DecidableEq Address] in
/-- The commitment of an awarded report is the one of its disclosure, or is bound now. -/
def adjudicate (w : World Address Hash) (reportHash commitment : Hash) :
    Call (World Address Hash) :=
  match w.disclosureCommitmentEntry reportHash with
  | some recorded => do
    bail (recorded ≠ commitment) .commitmentMismatch
    pure w
  | none => do
    bail (w.usedCommitmentEntry commitment).isSome .commitmentAlreadyUsed
    pure (bindDisclosure w reportHash commitment)

/-- Reserve `amount` for the holder of the commitment's preimage. -/
def awardCommitment (w : World Address Hash) (caller : Address) (reportHash commitment : Hash)
    (amount : ℤ) : Call (World Address Hash) := do
  requireGovernance H signers w caller
  bail (amount ≤ 0) .invalidAmount
  bail (w.awardEntry reportHash).isSome .duplicateReport
  bail (w.commitmentAwardEntry commitment).isSome .duplicateReport
  let w ← adjudicate w reportHash commitment
  let available ← H.availableBalanceInner w
  bail (available < amount) .insufficientBalance
  let reserved ← H.rawReserved w
  let newReserved ← i128 (reserved + amount)
  let w := { w with reservedEntry := some newReserved }
  pure (setCommitmentAward w commitment ⟨reportHash, commitment, amount, w.now, .awarded⟩)

/-- Reveal the preimage of an awarded commitment; the bound address is paid. -/
def claimByCommitment (w : World Address Hash) (caller : Address) (preimage : Hash) :
    Call (World Address Hash × ℤ) := do
  requireAuth signers caller
  let _ ← H.governanceAddr w
  let commitment := H.hashPreimage preimage
  let award ← okOr (w.commitmentAwardEntry commitment) .invalidPreimage
  bail (award.status ≠ .awarded) .payoutAlreadySettled
  let binding ← okOr (w.payoutBindingEntry commitment) .bindingNotFound
  bail (binding.expiresAt < w.now) .bindingExpired
  bail (caller ≠ binding.owner ∧ caller ≠ binding.payoutAddress) .unauthorized
  bail (H.isAddressFrozen w binding.payoutAddress = true) .addressFrozen
  let w := setCommitmentAward w commitment { award with status := .claimed }
  let reserved ← H.rawReserved w
  let newReserved ← i128 (reserved - award.amount)
  let w := { w with reservedEntry := some newReserved }
  let balance ← H.rawBalance w
  let newBalance ← i128 (balance - award.amount)
  let w := { w with balanceEntry := some newBalance }
  let w := setAward w award.reportHash
    ⟨binding.payoutAddress, award.amount, award.reportHash, w.now⟩
  let token ← H.tokenAddr w
  let w ← transferToken w token self binding.payoutAddress award.amount
  pure ({ w with
    rewards := w.rewards ++ [⟨award.reportHash, binding.payoutAddress, award.amount⟩] },
    award.amount)

omit [DecidableEq Hash] in
/-- Freeze or unfreeze a payout address. -/
def freezePayoutAddress (w : World Address Hash) (caller address : Address) (frozen : Bool) :
    Call (World Address Hash) := do
  requireGovernance H signers w caller
  pure { w with frozenAddressEntry := Function.update w.frozenAddressEntry address (some frozen) }

end Entry

/-! ### Transactions -/

/-- The entry points, any change of a recipient's screening status, the passing
of ledger time, and token transfers that do not go through the contract. -/
inductive Op (Address Hash : Type) where
  | initializeContract (governance token : Address)
  | setGovernance (caller newGovernance : Address)
  | fund (src : Address) (amount : ℤ)
  | award (caller researcher : Address) (amount : ℤ) (reportHash : Hash)
  | createPayout (caller recipient : Address) (amount : ℤ) (deadline : ℕ)
  | claim (recipient : Address) (payoutId : ℕ)
  | sweepExpired (payoutId : ℕ)
  | submitDisclosure (submitter : Address) (reportHash commitment : Hash)
  | registerPayoutAddress (owner : Address) (preimage : Hash) (payoutAddress : Address)
  | rotatePayoutAddress (owner : Address) (preimage : Hash) (newPayoutAddress : Address)
  | awardCommitment (caller : Address) (reportHash commitment : Hash) (amount : ℤ)
  | claimByCommitment (caller : Address) (preimage : Hash)
  | freezePayoutAddress (caller address : Address) (frozen : Bool)
  | screen (address : Address) (status : Option ScreeningStatus)
  | advance (seconds : ℕ)
  | transfer (token src dst : Address) (amount : ℤ)

structure Transaction (Address Hash : Type) where
  signers : List Address
  op : Op Address Hash

/-- One transaction; it answers the payout id or the amount paid. A contract
address does not sign, so `self` authorises nothing. -/
def step [DecidableEq Hash] (H : Helpers Address Hash) (self : Address) :
    Contract (World Address Hash) (Transaction Address Hash) ℤ BountyError :=
  fun w tx =>
    let signers := tx.signers.filter (· ≠ self)
    match tx.op with
    | .initializeContract governance token => do return (← initializeContract w governance token, 0)
    | .setGovernance caller newGovernance => do
      return (← setGovernance H signers w caller newGovernance, 0)
    | .fund src amount => do return (← fund H self signers w src amount, 0)
    | .award caller researcher amount reportHash => do
      return (← award H self signers w caller researcher amount reportHash, 0)
    | .createPayout caller recipient amount deadline => do
      let (w, payoutId) ← createPayout H signers w caller recipient amount deadline
      return (w, payoutId)
    | .claim recipient payoutId => claim H self signers w recipient payoutId
    | .sweepExpired payoutId => sweepExpired H self w payoutId
    | .submitDisclosure submitter reportHash commitment => do
      return (← submitDisclosure H signers w submitter reportHash commitment, 0)
    | .registerPayoutAddress owner preimage payoutAddress => do
      return (← registerPayoutAddress H signers w owner preimage payoutAddress, 0)
    | .rotatePayoutAddress owner preimage newPayoutAddress => do
      return (← rotatePayoutAddress H signers w owner preimage newPayoutAddress, 0)
    | .awardCommitment caller reportHash commitment amount => do
      return (← awardCommitment H signers w caller reportHash commitment amount, 0)
    | .claimByCommitment caller preimage => claimByCommitment H self signers w caller preimage
    | .freezePayoutAddress caller address frozen => do
      return (← freezePayoutAddress H signers w caller address frozen, 0)
    | .screen address status =>
      pure ({ w with
        recipientStatusEntry := Function.update w.recipientStatusEntry address status }, 0)
    | .advance seconds => do return ({ w with now := ← u64 (w.now + seconds) }, 0)
    | .transfer token src dst amount => do
      requireAuth signers src
      return (← transferToken w token src dst amount, 0)

end RefractContracts.Bounty
