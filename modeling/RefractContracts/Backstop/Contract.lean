import RefractContracts.Host.Run
import RefractContracts.Host.Token
import RefractContracts.Math.Split

/-! `RefractBackstop`: second-loss capital in a junior and a senior tranche.
Stakers hold shares of a tranche's assets; the pool draws on the total capital.
The bodies of `_sync_matured`, `_credit_mature_premium`, `calc_shares` and
`quote_withdrawal` are outside the source file and are parameters. -/

namespace RefractContracts.Backstop

open Host Math

/-- Scale of the loss index. -/
def lossIndexScale : ℤ := 100000000000000

inductive BackstopError where
  | alreadyInitialized
  | notInitialized
  | unauthorized
  | invalidAmount
  | paused
  | noActiveShares
  | noCoolingShares
  | notPool
  | insufficientCapital
  | overflow
  | insufficientShares
  | invalidPremiumShare
  | pendingLossFreeze
  | invalidPremiumSplit
  deriving DecidableEq, Repr

abbrev Call (α : Type) := Outcome BackstopError α

inductive Tranche where
  | junior
  | senior
  deriving DecidableEq, Repr

/-- Contract-wide running totals. -/
structure BackstopState where
  totalShares : ℤ
  totalCapital : ℤ
  premiumIncome : ℤ
  totalDrawdowns : ℤ
  lossIndex : ℤ

structure BackstopConfig (Address : Type) where
  pool : Address
  admin : Address
  token : Address
  premiumShareBps : ℤ
  cooldownSecs : ℕ

structure TrancheState where
  totalShares : ℤ
  totalAssets : ℤ
  matureShares : ℤ
  matureAssets : ℤ
  highWaterMark : ℕ

structure StakerPosition where
  activeShares : ℤ
  coolingShares : ℤ
  lossIndexSnapshot : ℤ
  unlockAt : ℕ

structure DepositLot (Address : Type) where
  lotId : ℕ
  staker : Address
  tranche : Tranche
  shares : ℤ
  principal : ℤ
  maturesAt : ℕ
  matured : Bool

/-- The contract's storage, the ledger's time and sequence, and the balances of
the reserve token. -/
structure World (Address : Type) where
  now : ℕ
  sequence : ℕ
  ledger : Token Address
  configEntry : Option (BackstopConfig Address)
  stateEntry : Option BackstopState
  pausedEntry : Option Bool
  positionEntry : Address → Option StakerPosition
  trancheEntry : Tranche → Option TrancheState
  sharesEntry : Address → Tranche → Bool → Option ℤ
  lotEntry : ℕ → Option (DepositLot Address)
  lotsEntry : Address → Tranche → Option (List ℕ)
  allLotsEntry : Option (List ℕ)
  nextLotIdEntry : Option ℕ
  lockupLedgersEntry : Option ℕ
  juniorPremiumBpsEntry : Option ℤ
  pendingLossEntry : Option Bool

/-- A deployed contract before the call of `initialize`. -/
def deployed {Address : Type} (now sequence : ℕ) (ledger : Token Address) : World Address where
  now
  sequence
  ledger
  configEntry := none
  stateEntry := none
  pausedEntry := none
  positionEntry _ := none
  trancheEntry _ := none
  sharesEntry _ _ _ := none
  lotEntry _ := none
  lotsEntry _ _ := none
  allLotsEntry := none
  nextLotIdEntry := none
  lockupLedgersEntry := none
  juniorPremiumBpsEntry := none
  pendingLossEntry := none

/-- The functions whose bodies the source leaves out. -/
structure Helpers (Address : Type) where
  syncMatured : World Address → Call (World Address × ℕ)
  creditMaturePremium : World Address → Tranche → ℤ → Call (World Address × ℤ)
  calcShares : ℤ → ℤ → ℤ → Call ℤ
  quoteWithdrawal : ℤ → ℤ → ℤ → Call ℤ

variable {Address : Type}

/-! ### Internal helpers -/

def getConfig (w : World Address) : Call (BackstopConfig Address) :=
  okOr w.configEntry .notInitialized

def getState (w : World Address) : Call BackstopState := okOr w.stateEntry .notInitialized

def trancheState (w : World Address) (tranche : Tranche) : Call TrancheState :=
  okOr (w.trancheEntry tranche) .notInitialized

def requireNotPaused (w : World Address) : Call Unit := bail (w.pausedEntry.getD false) .paused

def pendingLoss (w : World Address) : Bool := w.pendingLossEntry.getD false

def sharesOf (w : World Address) (staker : Address) (tranche : Tranche) (mature : Bool) : ℤ :=
  (w.sharesEntry staker tranche mature).getD 0

def position (w : World Address) (staker : Address) : StakerPosition :=
  (w.positionEntry staker).getD ⟨0, 0, 0, 0⟩

def setState (w : World Address) (s : BackstopState) : World Address :=
  { w with stateEntry := some s }

def saveTrancheState (w : World Address) (tranche : Tranche) (t : TrancheState) : World Address :=
  { w with trancheEntry := Function.update w.trancheEntry tranche (some t) }

variable [DecidableEq Address]

def setShares (w : World Address) (staker : Address) (tranche : Tranche) (mature : Bool) (n : ℤ) :
    World Address :=
  { w with sharesEntry := fun a t m =>
      if a = staker ∧ t = tranche ∧ m = mature then some n else w.sharesEntry a t m }

def setPosition (w : World Address) (staker : Address) (pos : StakerPosition) : World Address :=
  { w with positionEntry := Function.update w.positionEntry staker (some pos) }

/-- Record a new deposit lot under its id, its staker and the list of all lots. -/
def pushLot (w : World Address) (lot : DepositLot Address) (nextLotId : ℕ) : World Address :=
  { w with
    lotEntry := Function.update w.lotEntry lot.lotId (some lot)
    allLotsEntry := some (w.allLotsEntry.getD [] ++ [lot.lotId])
    lotsEntry := fun a t =>
      if a = lot.staker ∧ t = lot.tranche then some ((w.lotsEntry a t).getD [] ++ [lot.lotId])
      else w.lotsEntry a t
    nextLotIdEntry := some nextLotId }

/-! ### Entry points -/

section Entry
variable (H : Helpers Address) (self : Address) (signers : List Address)

def initializeContract (w : World Address) (pool admin token : Address) (premiumShareBps : ℤ) :
    Call (World Address) := do
  bail w.configEntry.isSome .alreadyInitialized
  bail (¬ (0 ≤ premiumShareBps ∧ premiumShareBps ≤ bpsDenom)) .invalidPremiumShare
  requireAuth signers admin
  pure { w with
    configEntry := some ⟨pool, admin, token, premiumShareBps, 7 * 24 * 3600⟩
    stateEntry := some ⟨0, 0, 0, 0, 0⟩
    pausedEntry := some false
    lockupLedgersEntry := some 0
    juniorPremiumBpsEntry := some (bpsDenom / 2)
    pendingLossEntry := some false
    nextLotIdEntry := some 1
    allLotsEntry := some []
    trancheEntry := fun _ => some ⟨0, 0, 0, 0, 0⟩ }

/-- Deposit into a tranche; the new shares are immature until their lot matures. -/
def depositTranche (w : World Address) (staker : Address) (tranche : Tranche) (amount : ℤ) :
    Call (World Address × ℤ) := do
  requireAuth signers staker
  requireNotPaused w
  bail (amount ≤ 0) .invalidAmount
  let (w, _) ← H.syncMatured w
  bail (pendingLoss w) .pendingLossFreeze
  let _ ← getConfig w
  let state ← getState w
  let tstate ← trancheState w tranche
  let shares ← H.calcShares amount tstate.totalShares tstate.totalAssets
  bail (shares ≤ 0) .invalidAmount
  let held ← i128 (sharesOf w staker tranche false + shares)
  let trancheShares ← i128 (tstate.totalShares + shares)
  let totalAssets ← i128 (tstate.totalAssets + amount)
  let totalCapital ← i128 (state.totalCapital + amount)
  let totalShares ← i128 (state.totalShares + shares)
  let lotId := w.nextLotIdEntry.getD 1
  let lockup := w.lockupLedgersEntry.getD 100
  let lot : DepositLot Address :=
    ⟨lotId, staker, tranche, shares, amount, u32SaturatingAdd w.sequence lockup, false⟩
  let nextLotId ← u64 (lotId + 1)
  let w := pushLot (setShares w staker tranche false held) lot nextLotId
  let w := setState w { state with totalCapital, totalShares }
  let w := saveTrancheState w tranche { tstate with totalShares := trancheShares, totalAssets }
  let ledger ← w.ledger.transfer staker self amount
  pure ({ w with ledger }, shares)

def deposit (w : World Address) (staker : Address) (amount : ℤ) : Call (World Address × ℤ) :=
  depositTranche H self signers w staker .junior amount

/-- Move `shares` into the unstake cooldown. -/
def requestUnstake (w : World Address) (staker : Address) (shares : ℤ) :
    Call (World Address × ℕ) := do
  requireAuth signers staker
  requireNotPaused w
  bail (shares ≤ 0) .invalidAmount
  let cfg ← getConfig w
  let pos := position w staker
  bail (pos.activeShares < shares) .noActiveShares
  let activeShares ← i128 (pos.activeShares - shares)
  let coolingShares ← i128Checked (pos.coolingShares + shares) .overflow
  let unlockAt ← u64 (w.now + cfg.cooldownSecs)
  pure (setPosition w staker { pos with activeShares, coolingShares, unlockAt }, unlockAt)

/-- Move every cooling share back to active. -/
def cancelUnstake (w : World Address) (staker : Address) : Call (World Address × ℤ) := do
  requireAuth signers staker
  let pos := position w staker
  bail (pos.coolingShares = 0) .noCoolingShares
  let activeShares ← i128Checked (pos.activeShares + pos.coolingShares) .overflow
  pure (setPosition w staker { pos with activeShares, coolingShares := 0, unlockAt := 0 },
    pos.coolingShares)

/-- Withdraw matured shares of a tranche. -/
def withdrawTranche (w : World Address) (staker : Address) (tranche : Tranche) (shares : ℤ) :
    Call (World Address × ℤ) := do
  requireAuth signers staker
  bail (shares ≤ 0) .invalidAmount
  let (w, _) ← H.syncMatured w
  let _ ← getConfig w
  let state ← getState w
  let tstate ← trancheState w tranche
  let held := sharesOf w staker tranche true
  bail (held < shares) .insufficientShares
  let amount ← H.quoteWithdrawal shares tstate.matureShares tstate.matureAssets
  bail (state.totalCapital < amount) .insufficientCapital
  let left ← i128 (held - shares)
  let trancheShares ← i128 (tstate.totalShares - shares)
  let matureShares ← i128 (tstate.matureShares - shares)
  let totalAssets ← i128 (tstate.totalAssets - amount)
  let matureAssets ← i128 (tstate.matureAssets - amount)
  let totalShares ← i128 (state.totalShares - shares)
  let totalCapital ← i128 (state.totalCapital - amount)
  let w := setState (setShares w staker tranche true left) { state with totalShares, totalCapital }
  let w := saveTrancheState w tranche
    { tstate with totalShares := trancheShares, matureShares, totalAssets, matureAssets }
  let ledger ← (if 0 < amount then w.ledger.transfer self staker amount
    else pure w.ledger : Call (Token Address))
  pure ({ w with ledger }, amount)

def withdraw (w : World Address) (staker : Address) (shares : ℤ) : Call (World Address × ℤ) :=
  withdrawTranche H self signers w staker .junior shares

/-- Pay `amount` to the pool. The claim id only labels the event. -/
def drawDown (w : World Address) (caller : Address) (_claimId : ℕ) (amount : ℤ) :
    Call (World Address × ℤ) := do
  requireAuth signers caller
  requireNotPaused w
  let cfg ← getConfig w
  bail (caller ≠ cfg.pool) .notPool
  let state ← getState w
  bail (state.totalCapital < amount) .insufficientCapital
  let totalCapital ← i128 (state.totalCapital - amount)
  let totalDrawdowns ← i128Checked (state.totalDrawdowns + amount) .overflow
  let lossIndex ← (if 0 < state.totalShares then do
      let scaled ← i128Checked (amount * lossIndexScale) .overflow
      i128Checked (state.lossIndex + scaled.tdiv state.totalShares) .overflow
    else pure state.lossIndex : Call ℤ)
  let ledger ← w.ledger.transfer self cfg.pool amount
  pure (setState { w with ledger } { state with totalCapital, totalDrawdowns, lossIndex }, amount)

/-- Freeze or unfreeze deposits while a loss event is pending. -/
def setPendingLoss (w : World Address) (caller : Address) (pending : Bool) :
    Call (World Address) := do
  requireAuth signers caller
  let config ← getConfig w
  bail (caller ≠ config.pool ∧ caller ≠ config.admin) .unauthorized
  pure { w with pendingLossEntry := some pending }

def setParameters (w : World Address) (caller : Address) (lockupLedgers : ℕ)
    (juniorPremiumBps : ℤ) : Call (World Address) := do
  requireAuth signers caller
  let config ← getConfig w
  bail (caller ≠ config.admin) .unauthorized
  bail (¬ (0 ≤ juniorPremiumBps ∧ juniorPremiumBps ≤ bpsDenom)) .invalidPremiumSplit
  pure { w with
    lockupLedgersEntry := some lockupLedgers
    juniorPremiumBpsEntry := some juniorPremiumBps }

/-- Pull the stakers' cut of a premium and credit it to the tranches. -/
def receivePremium (w : World Address) (source : Address) (amount : ℤ) :
    Call (World Address × ℤ) := do
  requireAuth signers source
  bail (amount ≤ 0) .invalidAmount
  let config ← getConfig w
  let state ← getState w
  let split ← mapErr (splitBps amount config.premiumShareBps) .invalidPremiumShare
  let juniorBps := w.juniorPremiumBpsEntry.getD (bpsDenom / 2)
  let trancheSplit ← mapErr (splitBps split.cut juniorBps) .invalidPremiumSplit
  let (w, juniorCredit) ← H.creditMaturePremium w .junior trancheSplit.cut
  let (w, seniorCredit) ← H.creditMaturePremium w .senior trancheSplit.rest
  let credited := i128SaturatingAdd juniorCredit seniorCredit
  let w := setState w { state with
    premiumIncome := i128SaturatingAdd state.premiumIncome credited
    totalCapital := i128SaturatingAdd state.totalCapital credited }
  let ledger ← (if 0 < split.cut then w.ledger.transfer source self split.cut
    else pure w.ledger : Call (Token Address))
  pure ({ w with ledger }, split.cut)

end Entry

/-! ### Transactions -/

inductive Op (Address : Type) where
  | initializeContract (pool admin token : Address) (premiumShareBps : ℤ)
  | deposit (staker : Address) (amount : ℤ)
  | depositTranche (staker : Address) (tranche : Tranche) (amount : ℤ)
  | requestUnstake (staker : Address) (shares : ℤ)
  | cancelUnstake (staker : Address)
  | withdraw (staker : Address) (shares : ℤ)
  | withdrawTranche (staker : Address) (tranche : Tranche) (shares : ℤ)
  | drawDown (caller : Address) (claimId : ℕ) (amount : ℤ)
  | setPendingLoss (caller : Address) (pending : Bool)
  | setParameters (caller : Address) (lockupLedgers : ℕ) (juniorPremiumBps : ℤ)
  | syncMatured
  | receivePremium (source : Address) (amount : I128)
  | advance (seconds ledgers : ℕ)
  | transfer (src dst : Address) (amount : ℤ)

structure Transaction (Address : Type) where
  signers : List Address
  op : Op Address

/-- One transaction. A contract address does not sign, so `self` authorises nothing. -/
def step (H : Helpers Address) (self : Address) :
    Contract (World Address) (Transaction Address) ℤ BackstopError := fun w tx =>
  let signers := tx.signers.filter (· ≠ self)
  match tx.op with
  | .initializeContract pool admin token premiumShareBps => do
    return (← initializeContract signers w pool admin token premiumShareBps, 0)
  | .deposit staker amount => deposit H self signers w staker amount
  | .depositTranche staker tranche amount => depositTranche H self signers w staker tranche amount
  | .requestUnstake staker shares => do
    let (w, unlockAt) ← requestUnstake signers w staker shares
    return (w, unlockAt)
  | .cancelUnstake staker => cancelUnstake signers w staker
  | .withdraw staker shares => withdraw H self signers w staker shares
  | .withdrawTranche staker tranche shares => withdrawTranche H self signers w staker tranche shares
  | .drawDown caller claimId amount => drawDown self signers w caller claimId amount
  | .setPendingLoss caller pending => do return (← setPendingLoss signers w caller pending, 0)
  | .setParameters caller lockupLedgers juniorPremiumBps => do
    return (← setParameters signers w caller lockupLedgers juniorPremiumBps, 0)
  | .syncMatured => do
    let (w, n) ← H.syncMatured w
    return (w, n)
  | .receivePremium source amount => receivePremium H self signers w source amount
  | .advance seconds ledgers => do
    let now ← u64 (w.now + seconds)
    return ({ w with now, sequence := u32SaturatingAdd w.sequence ledgers }, 0)
  | .transfer src dst amount => do
    requireAuth signers src
    return ({ w with ledger := ← w.ledger.transfer src dst amount }, 0)

end RefractContracts.Backstop
