import RefractContracts.Host.Run
import RefractContracts.Host.Token
import RefractContracts.Math.Fee

/-! `RefractGrants`: governance creates grants for screened recipients and confirms
their milestones in order; a recipient claims what is confirmed. A fee at the rate
of the parameter registry is kept back from each claim and swept to the treasury.
The registry's answers are state of the environment. -/

namespace RefractContracts.Grants

open Host Math

inductive ScreeningStatus where
  | allowed
  | blocked
  deriving DecidableEq, Repr

structure OnchainMilestone where
  amount : ℤ
  confirmed : Bool
  claimed : Bool
  deriving DecidableEq, Repr

structure OnchainGrant (Address : Type) where
  recipient : Address
  totalAmount : ℤ
  milestones : List OnchainMilestone
  claimable : ℤ

structure PayoutQuote where
  gross : ℤ
  net : ℤ
  fee : ℤ

inductive ContractGrantsError where
  | alreadyInitialized
  | notInitialized
  | unauthorized
  | grantNotFound
  | noMilestones
  | milestoneSumMismatch
  | invalidMilestoneAmount
  | invalidTotalAmount
  | invalidMilestoneIndex
  | milestoneAlreadyConfirmed
  | milestoneOutOfOrder
  | notRecipient
  | nothingToClaim
  | invalidFeeBps
  | invalidToken
  | treasuryNotConfigured
  | arithmeticError
  | batchTooLarge
  | keyNotBumpable
  | recipientNotAllowed
  | reentrancyDetected
  deriving DecidableEq, Repr

/-- The contract's storage, the balances of every token contract, and the rate that
the contract at each address answers to `fee_bps`, if it answers. -/
structure World (Address : Type) where
  tokens : Address → Token Address
  feeRates : Address → Option ℕ
  governanceEntry : Option Address
  tokenEntry : Option Address
  nextGrantIdEntry : Option ℕ
  parameterRegistryEntry : Option Address
  treasuryEntry : Option Address
  grantEntry : ℕ → Option (OnchainGrant Address)
  accruedFeesEntry : Address → Option ℤ
  recipientStatusEntry : Address → Option ScreeningStatus

/-- A deployed contract before the call of `initialize`. -/
def deployed {Address : Type} (tokens : Address → Token Address)
    (feeRates : Address → Option ℕ) : World Address where
  tokens
  feeRates
  governanceEntry := none
  tokenEntry := none
  nextGrantIdEntry := none
  parameterRegistryEntry := none
  treasuryEntry := none
  grantEntry _ := none
  accruedFeesEntry _ := none
  recipientStatusEntry _ := none

abbrev Call (α : Type) := Outcome ContractGrantsError α

variable {Address : Type}

/-! ### Internal helpers -/

def governance (w : World Address) : Call Address := okOr w.governanceEntry .notInitialized

def token (w : World Address) : Call Address := okOr w.tokenEntry .notInitialized

def nextGrantId (w : World Address) : ℕ := w.nextGrantIdEntry.getD 0

def accruedFees (w : World Address) (token : Address) : ℤ := (w.accruedFeesEntry token).getD 0

def grant (w : World Address) (id : ℕ) : Call (OnchainGrant Address) :=
  okOr (w.grantEntry id) .grantNotFound

def setGrant (w : World Address) (id : ℕ) (grant : OnchainGrant Address) : World Address :=
  { w with grantEntry := Function.update w.grantEntry id (some grant) }

def isRecipientAllowedInner (w : World Address) (recipient : Address) : Bool :=
  w.recipientStatusEntry recipient = some .allowed

/-- No fee without a registry; a rate over the cap is refused. -/
def feeBps (w : World Address) : Call ℕ :=
  match w.parameterRegistryEntry with
  | none => pure 0
  | some registry =>
    match w.feeRates registry with
    | none => throw .trap
    | some rate => do
      bail (maxFeeBps < rate) .invalidFeeBps
      pure rate

def quotePayout (w : World Address) (gross : ℤ) : Call PayoutQuote := do
  bail (gross < 0) .invalidTotalAmount
  let rate ← feeBps w
  let (net, fee) ← okOr (assessFee gross rate) .arithmeticError
  pure ⟨gross, net, fee⟩

variable [DecidableEq Address]

def setAccruedFees (w : World Address) (token : Address) (fees : ℤ) : World Address :=
  { w with accruedFeesEntry := Function.update w.accruedFeesEntry token (some fees) }

/-- `token::Client::new(&env, &token).transfer(..)`. -/
def transferToken (w : World Address) (token src dst : Address) (amount : ℤ) :
    Call (World Address) := do
  let ledger ← (w.tokens token).transfer src dst amount
  pure { w with tokens := Function.update w.tokens token ledger }

section Entry
variable (self : Address) (signers : List Address)

def requireGovernance (w : World Address) (caller : Address) : Call Unit := do
  requireAuth signers caller
  let governance ← governance w
  bail (caller ≠ governance) .unauthorized

def initializeContract (w : World Address) (governance token : Address) : Call (World Address) := do
  bail w.governanceEntry.isSome .alreadyInitialized
  requireAuth signers governance
  pure (setAccruedFees { w with
    governanceEntry := some governance, tokenEntry := some token, nextGrantIdEntry := some 0 }
    token 0)

def setFeeConfig (w : World Address) (caller treasury parameterRegistry : Address) :
    Call (World Address) := do
  requireGovernance signers w caller
  pure { w with
    treasuryEntry := some treasury, parameterRegistryEntry := some parameterRegistry }

/-! ### Grants -/

/-- Add the amounts up and lay out the milestones; each amount must be positive. -/
def layMilestones (milestoneAmounts : List ℤ) : Call (ℤ × List OnchainMilestone) :=
  milestoneAmounts.foldlM (fun laid amount => do
    bail (amount ≤ 0) .invalidMilestoneAmount
    let sum ← i128Checked (laid.1 + amount) .milestoneSumMismatch
    pure (sum, laid.2 ++ [⟨amount, false, false⟩])) (0, [])

def createGrant (w : World Address) (caller recipient : Address) (totalAmount : ℤ)
    (milestoneAmounts : List ℤ) : Call (World Address × ℕ) := do
  requireGovernance signers w caller
  bail (totalAmount ≤ 0) .invalidTotalAmount
  bail (milestoneAmounts = []) .noMilestones
  bail (isRecipientAllowedInner w recipient = false) .recipientNotAllowed
  let (sum, milestones) ← layMilestones milestoneAmounts
  bail (sum ≠ totalAmount) .milestoneSumMismatch
  let grantId := nextGrantId w
  bail (maxU64 < grantId + 1) .arithmeticError
  let w := { w with nextGrantIdEntry := some (grantId + 1) }
  pure (setGrant w grantId ⟨recipient, totalAmount, milestones, 0⟩, grantId)

/-- Every milestone before the index is confirmed. -/
def confirmedBefore (milestones : List OnchainMilestone) (milestoneIndex : ℕ) : Call Unit :=
  (List.range milestoneIndex).foldlM (fun _ index => do
    let milestone ← okOr milestones[index]? .invalidMilestoneIndex
    bail (milestone.confirmed = false) .milestoneOutOfOrder) ()

/-- The grant and its next milestone, if `milestoneIndex` is the next one. -/
def nextMilestone (w : World Address) (caller : Address) (grantId milestoneIndex : ℕ) :
    Call (OnchainGrant Address × OnchainMilestone) := do
  requireGovernance signers w caller
  let grant ← grant w grantId
  bail (grant.milestones.length ≤ milestoneIndex) .invalidMilestoneIndex
  confirmedBefore grant.milestones milestoneIndex
  let milestone ← okOr grant.milestones[milestoneIndex]? .invalidMilestoneIndex
  bail (milestone.confirmed = true) .milestoneAlreadyConfirmed
  pure (grant, milestone)

/-- Confirm the next milestone, which makes its amount claimable. -/
def confirmMilestone (w : World Address) (caller : Address) (grantId milestoneIndex : ℕ) :
    Call (World Address) := do
  let (grant, milestone) ← nextMilestone signers w caller grantId milestoneIndex
  let claimable ← i128Checked (grant.claimable + milestone.amount) .arithmeticError
  let milestones := grant.milestones.set milestoneIndex { milestone with confirmed := true }
  pure (setGrant w grantId { grant with claimable, milestones })

/-- Pay what is confirmed and unclaimed, less the fee, to the recipient. -/
def claim (w : World Address) (recipient : Address) (grantId : ℕ) : Call (World Address × ℤ) := do
  requireAuth signers recipient
  let grant ← grant w grantId
  bail (grant.recipient ≠ recipient) .notRecipient
  let gross := grant.claimable
  bail (gross ≤ 0) .nothingToClaim
  let quote ← quotePayout w gross
  let tokenAddress ← token w
  let w ← (if 0 < quote.fee then do
      let updated ← i128Checked (accruedFees w tokenAddress + quote.fee) .arithmeticError
      pure (setAccruedFees w tokenAddress updated)
    else pure w : Call (World Address))
  let milestones := grant.milestones.map fun milestone =>
    if milestone.confirmed then { milestone with claimed := true } else milestone
  let w := setGrant w grantId { grant with claimable := 0, milestones }
  let w ← (if 0 < quote.net then transferToken w tokenAddress self recipient quote.net
    else pure w : Call (World Address))
  pure (w, quote.net)

/-- Send the accrued fees to the treasury. -/
def sweepFees (w : World Address) (tokenAddress : Address) : Call (World Address × ℤ) := do
  let expectedToken ← token w
  bail (tokenAddress ≠ expectedToken) .invalidToken
  let fees := accruedFees w tokenAddress
  if fees = 0 then pure (w, 0)
  else do
    let treasury ← okOr w.treasuryEntry .treasuryNotConfigured
    let w := setAccruedFees w tokenAddress 0
    let w ← transferToken w tokenAddress self treasury fees
    pure (w, fees)

/-! ### Recipient allowlist -/

/-- Governance records a screening status, or removes the record. -/
def screenRecipient (w : World Address) (caller recipient : Address)
    (status : Option ScreeningStatus) : Call (World Address) := do
  requireGovernance signers w caller
  pure { w with
    recipientStatusEntry := Function.update w.recipientStatusEntry recipient status }

def allowRecipient (w : World Address) (caller recipient : Address) : Call (World Address) :=
  screenRecipient signers w caller recipient (some .allowed)

def blockRecipient (w : World Address) (caller recipient : Address) : Call (World Address) :=
  screenRecipient signers w caller recipient (some .blocked)

def removeRecipient (w : World Address) (caller recipient : Address) : Call (World Address) :=
  screenRecipient signers w caller recipient none

end Entry

/-! ### Transactions -/

/-- The entry points, a change of the rate some registry answers, and token
transfers that do not go through the contract. -/
inductive Op (Address : Type) where
  | initializeContract (governance token : Address)
  | setFeeConfig (caller treasury parameterRegistry : Address)
  | createGrant (caller recipient : Address) (totalAmount : ℤ) (milestoneAmounts : List ℤ)
  | confirmMilestone (caller : Address) (grantId milestoneIndex : ℕ)
  | claim (recipient : Address) (grantId : ℕ)
  | sweepFees (token : Address)
  | allowRecipient (caller recipient : Address)
  | blockRecipient (caller recipient : Address)
  | removeRecipient (caller recipient : Address)
  | setFeeRate (registry : Address) (rate : Option ℕ)
  | transfer (token src dst : Address) (amount : ℤ)

structure Transaction (Address : Type) where
  signers : List Address
  op : Op Address

/-- One transaction; it answers a grant's id or the amount paid out. A contract
address does not sign, so `self` authorises nothing. -/
def step (self : Address) :
    Contract (World Address) (Transaction Address) ℤ ContractGrantsError := fun w tx =>
  let signers := tx.signers.filter (· ≠ self)
  match tx.op with
  | .initializeContract governance token => do
    return (← initializeContract signers w governance token, 0)
  | .setFeeConfig caller treasury parameterRegistry => do
    return (← setFeeConfig signers w caller treasury parameterRegistry, 0)
  | .createGrant caller recipient totalAmount milestoneAmounts => do
    let (w, id) ← createGrant signers w caller recipient totalAmount milestoneAmounts
    return (w, id)
  | .confirmMilestone caller grantId milestoneIndex => do
    return (← confirmMilestone signers w caller grantId milestoneIndex, 0)
  | .claim recipient grantId => claim self signers w recipient grantId
  | .sweepFees token => sweepFees self w token
  | .allowRecipient caller recipient => do
    return (← allowRecipient signers w caller recipient, 0)
  | .blockRecipient caller recipient => do
    return (← blockRecipient signers w caller recipient, 0)
  | .removeRecipient caller recipient => do
    return (← removeRecipient signers w caller recipient, 0)
  | .setFeeRate registry rate =>
    pure ({ w with feeRates := Function.update w.feeRates registry rate }, 0)
  | .transfer token src dst amount => do
    requireAuth signers src
    return (← transferToken w token src dst amount, 0)

end RefractContracts.Grants
