import RefractContracts.Host.Run
import RefractContracts.Host.Token
import RefractContracts.Host.Value

/-! `RefractTreasury`: the administrator withdraws to screened recipients, seeds the
backstop and recalls the seed, and pays requests that others submit. The value of
the tracked assets is stored in snapshots, at the prices an oracle answers. The
source declares `TreasuryError` twice, for the contract and for the requests; the
two are one type here. -/

namespace RefractContracts.Treasury

open Host

/-- Fixed-point scale for price feeds. -/
def priceScale : ℤ := 10000000

inductive TreasuryError where
  | alreadyInitialized
  | notInitialized
  | unauthorized
  | invalidAmount
  | insufficientBalance
  | recipientNotAllowed
  | oracleNotConfigured
  | feedNotRegistered
  | stalePriceData
  | overflow
  | backstopNotConfigured
  | recallExceedsSeed
  | feedAlreadyRegistered
  | requestNotFound
  | invalidState
  | selfApproval
  | notRequester
  | notAdmin
  | reentrancyDetected
  deriving DecidableEq, Repr

inductive ScreeningStatus where
  | allowed
  | blocked
  deriving DecidableEq, Repr

/-- NAV contribution from a single asset. -/
structure AssetNav (Address : Type) where
  token : Address
  balance : ℤ
  price : ℤ
  nav : ℤ
  priceTimestamp : ℕ

structure NavSnapshot (Address : Type) where
  ledger : ℕ
  timestamp : ℕ
  totalNav : ℤ
  assets : List (AssetNav Address)

/-- Lifecycle of a payment request. -/
inductive PaymentStatus where
  | submitted
  | approved
  | rejected
  | cancelled
  | executed
  deriving DecidableEq, Repr

/-- One payment request; of the purpose only the hash is kept. -/
structure PaymentRequest (Address : Type) where
  id : ℕ
  requester : Address
  payee : Address
  token : Address
  amount : ℤ
  purposeHash : BitVec 256
  status : PaymentStatus
  approver : Option Address
  createdAt : ℕ

/-- The contract's storage, the ledger, the balances of every token contract, and
the price and its time that the oracle at each address answers, if it answers. -/
structure World (Address : Type) where
  now : ℕ
  sequence : ℕ
  tokens : Address → Token Address
  prices : Address → Symbol → Option (ℤ × ℕ)
  adminEntry : Option Address
  oracleEntry : Option Address
  backstopEntry : Option Address
  seededCapitalEntry : Option ℤ
  latestSnapshotEntry : Option (NavSnapshot Address)
  recipientStatusEntry : Address → Option ScreeningStatus
  assetFeedEntry : Address → Option Symbol
  trackedAssetsEntry : Option (List Address)
  nextRequestIdEntry : Option ℕ
  requestEntry : ℕ → Option (PaymentRequest Address)
  reentrancyLock : Bool

/-- A deployed contract before the call of `initialize`. -/
def deployed {Address : Type} (now sequence : ℕ) (tokens : Address → Token Address)
    (prices : Address → Symbol → Option (ℤ × ℕ)) : World Address where
  now
  sequence
  tokens
  prices
  adminEntry := none
  oracleEntry := none
  backstopEntry := none
  seededCapitalEntry := none
  latestSnapshotEntry := none
  recipientStatusEntry _ := none
  assetFeedEntry _ := none
  trackedAssetsEntry := none
  nextRequestIdEntry := none
  requestEntry _ := none
  reentrancyLock := false

abbrev Call (α : Type) := Outcome TreasuryError α

variable {Address : Type}

/-! ### Private helpers -/

def acquireReentrancyGuard (w : World Address) : Call (World Address) := do
  bail (w.reentrancyLock = true) .reentrancyDetected
  pure { w with reentrancyLock := true }

def releaseReentrancyGuard (w : World Address) : World Address :=
  { w with reentrancyLock := false }

def isAllowedInner (w : World Address) (recipient : Address) : Bool :=
  w.recipientStatusEntry recipient = some .allowed

def loadRequest (w : World Address) (id : ℕ) : Call (PaymentRequest Address) :=
  okOr (w.requestEntry id) .requestNotFound

def saveRequest (w : World Address) (request : PaymentRequest Address) : World Address :=
  { w with requestEntry := Function.update w.requestEntry request.id (some request) }

def seededCapital (w : World Address) : ℤ := w.seededCapitalEntry.getD 0

def trackedAssets (w : World Address) : List Address := w.trackedAssetsEntry.getD []

variable [DecidableEq Address]

/-- `token::Client::new(&env, &token).transfer(..)`. -/
def transferToken (w : World Address) (token src dst : Address) (amount : ℤ) :
    Call (World Address) := do
  let ledger ← (w.tokens token).transfer src dst amount
  pure { w with tokens := Function.update w.tokens token ledger }

section Entry
variable (contract : Address) (signers : List Address)

omit [DecidableEq Address] in
def tokenBalance (w : World Address) (token : Address) : ℤ := (w.tokens token).balance contract

/-- Some callers demand the authority of the caller themselves as well; one demand stands
for both. -/
def requireAdmin (w : World Address) (caller : Address) : Call Unit := do
  requireAuth signers caller
  let admin ← okOr w.adminEntry .notInitialized
  bail (caller ≠ admin) .unauthorized

def initializeContract (w : World Address) (admin : Address) : Call (World Address) := do
  bail w.adminEntry.isSome .alreadyInitialized
  requireAuth signers admin
  pure { w with
    adminEntry := some admin, seededCapitalEntry := some 0, trackedAssetsEntry := some [] }

def setOracle (w : World Address) (caller oracle : Address) : Call (World Address) := do
  requireAdmin signers w caller
  pure { w with oracleEntry := some oracle }

def setBackstop (w : World Address) (caller backstop : Address) : Call (World Address) := do
  requireAdmin signers w caller
  pure { w with backstopEntry := some backstop }

/-! ### Withdrawals and the recipient allowlist -/

/-- Transfer `amount` of `token` to a screened recipient. -/
def withdraw (w : World Address) (caller token : Address) (amount : ℤ) (dst : Address) :
    Call (World Address) := do
  requireAdmin signers w caller
  bail (amount ≤ 0) .invalidAmount
  bail (isAllowedInner w dst = false) .recipientNotAllowed
  bail (tokenBalance contract w token < amount) .insufficientBalance
  transferToken w token contract dst amount

/-- The administrator records a screening status, or removes the record. -/
def screenRecipient (w : World Address) (caller recipient : Address)
    (status : Option ScreeningStatus) : Call (World Address) := do
  requireAdmin signers w caller
  pure { w with
    recipientStatusEntry := Function.update w.recipientStatusEntry recipient status }

def allowRecipient (w : World Address) (caller recipient : Address) : Call (World Address) :=
  screenRecipient signers w caller recipient (some .allowed)

def blockRecipient (w : World Address) (caller recipient : Address) : Call (World Address) :=
  screenRecipient signers w caller recipient (some .blocked)

def removeRecipient (w : World Address) (caller recipient : Address) : Call (World Address) :=
  screenRecipient signers w caller recipient none

/-! ### Snapshots -/

/-- Register a price feed and track the token. -/
def registerAssetFeed (w : World Address) (caller token : Address) (feedId : Symbol) :
    Call (World Address) := do
  requireAdmin signers w caller
  bail (w.assetFeedEntry token).isSome .feedAlreadyRegistered
  let w := { w with assetFeedEntry := Function.update w.assetFeedEntry token (some feedId) }
  if token ∈ trackedAssets w then pure w
  else pure { w with trackedAssetsEntry := some (trackedAssets w ++ [token]) }

/-- Remove a price feed and track the token no longer. -/
def deregisterAssetFeed (w : World Address) (caller token : Address) : Call (World Address) := do
  requireAdmin signers w caller
  pure { w with
    assetFeedEntry := Function.update w.assetFeedEntry token none
    trackedAssetsEntry := some ((trackedAssets w).filter (· ≠ token)) }

omit [DecidableEq Address] in
/-- The value of the treasury's balance of one token; a price the oracle does not
answer is 0. -/
def assetNav (w : World Address) (oracle token : Address) : Call (AssetNav Address) := do
  let feedId ← okOr (w.assetFeedEntry token) .feedNotRegistered
  let balance := tokenBalance contract w token
  let (price, priceTimestamp) := (w.prices oracle feedId).getD (0, 0)
  let nav ← (if price = 0 ∨ balance = 0 then pure 0
    else do
      let value ← i128Checked (balance * price) .overflow
      pure (value.tdiv priceScale) : Call ℤ)
  pure ⟨token, balance, price, nav, priceTimestamp⟩

omit [DecidableEq Address] in
def takeNavSnapshot (w : World Address) : Call (World Address × ℤ) := do
  let oracle ← okOr w.oracleEntry .oracleNotConfigured
  let (totalNav, assets) ← (trackedAssets w).foldlM (fun acc token => do
    let asset ← assetNav contract w oracle token
    let total ← i128Checked (acc.1 + asset.nav) .overflow
    pure (total, acc.2 ++ [asset])) ((0 : ℤ), ([] : List (AssetNav Address)))
  pure ({ w with latestSnapshotEntry := some ⟨w.sequence, w.now, totalNav, assets⟩ }, totalNav)

/-! ### Backstop seeding -/

/-- Send `amount` to the backstop and add it to the seeded capital. -/
def seedBackstop (w : World Address) (caller token : Address) (amount : ℤ) :
    Call (World Address) := do
  requireAdmin signers w caller
  bail (amount ≤ 0) .invalidAmount
  let backstop ← okOr w.backstopEntry .backstopNotConfigured
  bail (tokenBalance contract w token < amount) .insufficientBalance
  let w ← transferToken w token contract backstop amount
  let seeded ← i128 (seededCapital w + amount)
  pure { w with seededCapitalEntry := some seeded }

/-- Take `amount` back from the backstop, which has to authorise the transfer. -/
def recallSeed (w : World Address) (caller token : Address) (amount : ℤ) :
    Call (World Address) := do
  requireAdmin signers w caller
  bail (amount ≤ 0) .invalidAmount
  bail (seededCapital w < amount) .recallExceedsSeed
  let backstop ← okOr w.backstopEntry .backstopNotConfigured
  requireAuth signers backstop
  let w ← transferToken w token backstop contract amount
  let seeded ← i128 (seededCapital w - amount)
  pure { w with seededCapitalEntry := some seeded }

/-! ### Payment requests -/

def submitPaymentRequest (w : World Address) (requester payee token : Address) (amount : ℤ)
    (purposeHash : BitVec 256) : Call (World Address × ℕ) := do
  requireAuth signers requester
  bail (amount ≤ 0) .invalidAmount
  let id := w.nextRequestIdEntry.getD 0
  let request : PaymentRequest Address :=
    { id, requester, payee, token, amount, purposeHash, status := .submitted
      approver := none, createdAt := w.now }
  let next ← u64 (id + 1)
  pure ({ saveRequest w request with nextRequestIdEntry := some next }, id)

/-- Approve a submitted request, but not one's own. -/
def approvePaymentRequest (w : World Address) (approver : Address) (id : ℕ) :
    Call (World Address) := do
  requireAdmin signers w approver
  let request ← loadRequest w id
  bail (request.requester = approver) .selfApproval
  bail (request.status ≠ .submitted) .invalidState
  pure (saveRequest w { request with status := .approved, approver := some approver })

def rejectPaymentRequest (w : World Address) (approver : Address) (id : ℕ) :
    Call (World Address) := do
  requireAdmin signers w approver
  let request ← loadRequest w id
  bail (request.status ≠ .submitted) .invalidState
  pure (saveRequest w { request with status := .rejected })

def cancelPaymentRequest (w : World Address) (requester : Address) (id : ℕ) :
    Call (World Address) := do
  requireAuth signers requester
  let request ← loadRequest w id
  bail (request.requester ≠ requester) .notRequester
  bail (request.status ≠ .submitted) .invalidState
  pure (saveRequest w { request with status := .cancelled })

/-- Pay an approved request, but not one's own. -/
def executePaymentRequest (w : World Address) (caller : Address) (id : ℕ) :
    Call (World Address) := do
  requireAdmin signers w caller
  let w ← acquireReentrancyGuard w
  let request ← loadRequest w id
  bail (request.requester = caller) .selfApproval
  bail (request.status ≠ .approved) .invalidState
  let w := saveRequest w { request with status := .executed }
  let w ← transferToken w request.token contract request.payee request.amount
  pure (releaseReentrancyGuard w)

end Entry

/-! ### Transactions -/

/-- The entry points, the closing of ledgers, a change of the price some oracle
answers, and token transfers that do not go through the contract. -/
inductive Op (Address : Type) where
  | initializeContract (admin : Address)
  | setOracle (caller oracle : Address)
  | setBackstop (caller backstop : Address)
  | withdraw (caller token : Address) (amount : ℤ) (dst : Address)
  | allowRecipient (caller recipient : Address)
  | blockRecipient (caller recipient : Address)
  | removeRecipient (caller recipient : Address)
  | registerAssetFeed (caller token : Address) (feedId : Symbol)
  | deregisterAssetFeed (caller token : Address)
  | takeNavSnapshot
  | seedBackstop (caller token : Address) (amount : ℤ)
  | recallSeed (caller token : Address) (amount : ℤ)
  | submitPaymentRequest (requester payee token : Address) (amount : ℤ) (purposeHash : BitVec 256)
  | approvePaymentRequest (approver : Address) (id : ℕ)
  | rejectPaymentRequest (approver : Address) (id : ℕ)
  | cancelPaymentRequest (requester : Address) (id : ℕ)
  | executePaymentRequest (caller : Address) (id : ℕ)
  | advance (seconds ledgers : ℕ)
  | setPrice (oracle : Address) (feedId : Symbol) (answer : Option (ℤ × ℕ))
  | transfer (token src dst : Address) (amount : ℤ)

structure Transaction (Address : Type) where
  signers : List Address
  op : Op Address

/-- One transaction; it answers a request's id or the value of a snapshot. A contract
address does not sign, so `contract` authorises nothing. -/
def step (contract : Address) :
    Contract (World Address) (Transaction Address) ℤ TreasuryError := fun w tx =>
  let signers := tx.signers.filter (· ≠ contract)
  match tx.op with
  | .initializeContract admin => do return (← initializeContract signers w admin, 0)
  | .setOracle caller oracle => do return (← setOracle signers w caller oracle, 0)
  | .setBackstop caller backstop => do return (← setBackstop signers w caller backstop, 0)
  | .withdraw caller token amount dst => do
    return (← withdraw contract signers w caller token amount dst, 0)
  | .allowRecipient caller recipient => do
    return (← allowRecipient signers w caller recipient, 0)
  | .blockRecipient caller recipient => do
    return (← blockRecipient signers w caller recipient, 0)
  | .removeRecipient caller recipient => do
    return (← removeRecipient signers w caller recipient, 0)
  | .registerAssetFeed caller token feedId => do
    return (← registerAssetFeed signers w caller token feedId, 0)
  | .deregisterAssetFeed caller token => do
    return (← deregisterAssetFeed signers w caller token, 0)
  | .takeNavSnapshot => takeNavSnapshot contract w
  | .seedBackstop caller token amount => do
    return (← seedBackstop contract signers w caller token amount, 0)
  | .recallSeed caller token amount => do
    return (← recallSeed contract signers w caller token amount, 0)
  | .submitPaymentRequest requester payee token amount purposeHash => do
    let (w, id) ← submitPaymentRequest signers w requester payee token amount purposeHash
    return (w, id)
  | .approvePaymentRequest approver id => do
    return (← approvePaymentRequest signers w approver id, 0)
  | .rejectPaymentRequest approver id => do
    return (← rejectPaymentRequest signers w approver id, 0)
  | .cancelPaymentRequest requester id => do
    return (← cancelPaymentRequest signers w requester id, 0)
  | .executePaymentRequest caller id => do
    return (← executePaymentRequest contract signers w caller id, 0)
  | .advance seconds ledgers => do
    return ({ w with now := ← u64 (w.now + seconds), sequence := w.sequence + ledgers }, 0)
  | .setPrice oracle feedId answer =>
    pure ({ w with
      prices := Function.update w.prices oracle
        (Function.update (w.prices oracle) feedId answer) }, 0)
  | .transfer token src dst amount => do
    requireAuth signers src
    return (← transferToken w token src dst amount, 0)

end RefractContracts.Treasury
