import RefractContracts.Host.Run
import RefractContracts.Host.Token

/-! `RefractPool`: liquidity providers hold shares of the pool's capital, and
policyholders buy parametric coverage that pays when an oracle reading crosses
the policy's threshold. The pricing helpers are those of the pool's formal
specification; the risk multiplier of a coverage type is a parameter. Answers of
the backstop and of the policy registry come with the purchase. -/

namespace RefractContracts.Pool

open Host

def precision : ℤ := 10000000

def bps : ℤ := 10000

inductive CoverageType where
  | stablecoinDepeg
  | marketCrash
  | liquidationShield
  | smartContractRisk
  | flightDelay
  deriving DecidableEq, Repr

inductive PoolError where
  | alreadyInitialized
  | notInitialized
  | unauthorized
  | insufficientCapacity
  | policyNotFound
  | policyExpired
  | policyNotTriggered
  | alreadyClaimed
  | zeroAmount
  | insufficientShares
  | capitalLocked
  | policyNotYetExpired
  | lockupActive
  | feedCapExceeded
  deriving DecidableEq, Repr

abbrev Call (α : Type) := Outcome PoolError α

structure PoolAccounting where
  totalCapital : ℤ
  totalCoverage : ℤ
  totalPremiums : ℤ
  totalShares : ℤ
  nextPolicyId : ℕ

structure PolicyParams where
  coverageAmount : ℤ
  coverageType : CoverageType
  durationDays : ℕ
  triggerThreshold : ℤ

inductive PolicyStatus where
  | active
  | claimed
  | expired
  deriving DecidableEq, Repr

structure Policy (Address : Type) where
  id : ℕ
  holder : Address
  coverageType : CoverageType
  coverageAmount : ℤ
  premiumPaid : ℤ
  triggerThreshold : ℤ
  startTime : ℕ
  endTime : ℕ
  status : PolicyStatus
  payoutAt : Option ℕ

structure PoolConfig where
  basePremiumRateBps : ℕ
  maxUtilizationBps : ℕ
  minCoverage : ℤ
  maxCoverage : ℤ
  lockupDays : ℕ

structure OracleData where
  value : ℤ
  updatedAt : ℕ

/-- How the contracts called by `buyPolicy` answer: the backstop's exposure check
and record, and the registry's registration. -/
structure Answers where
  withinCaps : Bool
  registered : Bool
  recorded : Bool

/-- The contract's storage, the ledger time, and the USDC balances. -/
structure World (Address : Type) where
  now : ℕ
  ledger : Token Address
  isInitialized : Bool
  adminEntry : Option Address
  usdcTokenEntry : Option Address
  policyRegistryEntry : Option Address
  backstopEntry : Option Address
  accountingEntry : Option PoolAccounting
  configEntry : Option PoolConfig
  sharesEntry : Address → Option ℤ
  lastDepositEntry : Address → Option ℕ
  policyEntry : ℕ → Option (Policy Address)
  userPoliciesEntry : Address → Option (List ℕ)
  oracleEntry : CoverageType → Option OracleData

/-- A deployed contract before the call of `initialize`. -/
def deployed {Address : Type} (now : ℕ) (ledger : Token Address) : World Address where
  now
  ledger
  isInitialized := false
  adminEntry := none
  usdcTokenEntry := none
  policyRegistryEntry := none
  backstopEntry := none
  accountingEntry := none
  configEntry := none
  sharesEntry _ := none
  lastDepositEntry _ := none
  policyEntry _ := none
  userPoliciesEntry _ := none
  oracleEntry _ := none

variable {Address : Type}

/-! ### State and pricing -/

def accounting (w : World Address) : PoolAccounting := w.accountingEntry.getD ⟨0, 0, 0, 0, 0⟩

/-- The configuration as `PoolState::load` reads it. -/
def config (w : World Address) : PoolConfig :=
  w.configEntry.getD ⟨300, 8000, 100 * precision, 50000 * precision, 7⟩

def sharesOf (w : World Address) (provider : Address) : ℤ := (w.sharesEntry provider).getD 0

def assertInitialized (w : World Address) : Call Unit := bail (¬ w.isInitialized) .notInitialized

/-- Shares minted by a deposit. -/
def calcShares (w : World Address) (amount : ℤ) : Call ℤ := do
  let acc := accounting w
  if acc.totalShares = 0 ∨ acc.totalCapital = 0 then pure amount
  else do
    let scaled ← i128 (amount * acc.totalShares)
    i128 (scaled.tdiv acc.totalCapital)

/-- What burning `shares` returns; refused when the coverage in force would weigh
more on the capital left than the configured utilization. -/
def quoteWithdrawal (w : World Address) (shares : ℤ) : Call ℤ := do
  let acc := accounting w
  bail (acc.totalShares < shares) .insufficientShares
  let scaled ← i128 (shares * acc.totalCapital)
  let out ← i128 (scaled.tdiv acc.totalShares)
  let newCapital ← i128 (acc.totalCapital - out)
  if 0 < newCapital then do
    let covered ← i128 (acc.totalCoverage * bps)
    bail ((config w).maxUtilizationBps < covered.tdiv newCapital) .capitalLocked
    pure out
  else pure out

/-- The coverage in force after a purchase, within the coverage bounds and the
utilization cap. -/
def checkCoverageCapacity (w : World Address) (coverageAmount : ℤ) : Call ℤ := do
  let acc := accounting w
  let cfg := config w
  bail (coverageAmount < cfg.minCoverage ∨ cfg.maxCoverage < coverageAmount) .insufficientCapacity
  let newCoverage ← i128 (acc.totalCoverage + coverageAmount)
  let capacity ← i128 (acc.totalCapital * cfg.maxUtilizationBps)
  bail (capacity.tdiv bps < newCoverage) .insufficientCapacity
  pure newCoverage

def calcPremium (riskMultiplier : CoverageType → ℤ) (cfg : PoolConfig) (params : PolicyParams) :
    Call ℤ := do
  let base ← i128 (params.coverageAmount * cfg.basePremiumRateBps)
  let base := base.tdiv bps
  let durationFactor ← i128 (params.durationDays * precision)
  let durationFactor := durationFactor.tdiv 365
  let scaled ← i128 (base * durationFactor)
  let weighted ← i128 (scaled.tdiv precision * riskMultiplier params.coverageType)
  pure (weighted.tdiv 100)

/-- Whether a reading meets the policy's trigger. -/
def triggeredValue (policy : Policy Address) (value : ℤ) : Call Bool :=
  match policy.coverageType with
  | .stablecoinDepeg => do
    let scaled ← i128 (policy.triggerThreshold * precision)
    let floor ← i128 (precision - scaled.tdiv bps)
    pure (value < floor)
  | .marketCrash => do
    let drop ← i128 (-policy.triggerThreshold)
    pure (value < drop)
  | .liquidationShield => pure (0 < value)
  | .smartContractRisk => pure (0 < value)
  | .flightDelay => pure (policy.triggerThreshold < value)

variable [DecidableEq Address]

def requireAdmin (signers : List Address) (w : World Address) (caller : Address) : Call Unit := do
  requireAuth signers caller
  let admin ← okOr w.adminEntry .notInitialized
  bail (caller ≠ admin) .unauthorized

def setPolicy (w : World Address) (id : ℕ) (policy : Policy Address) : World Address :=
  { w with policyEntry := Function.update w.policyEntry id (some policy) }

/-! ### Entry points -/

section Entry
variable (riskMultiplier : CoverageType → ℤ) (self : Address) (signers : List Address)

def initializeContract (w : World Address) (admin usdcToken policyRegistry : Address) :
    Call (World Address) := do
  bail w.isInitialized .alreadyInitialized
  requireAuth signers admin
  pure { w with
    adminEntry := some admin
    usdcTokenEntry := some usdcToken
    policyRegistryEntry := some policyRegistry
    accountingEntry := some ⟨0, 0, 0, 0, 0⟩
    configEntry := some ⟨300, 8000, 100000000, 50000000000, 7⟩
    isInitialized := true }

/-- Deposit USDC as risk capital and receive shares. -/
def provideCapital (w : World Address) (provider : Address) (amount : ℤ) :
    Call (World Address × ℤ) := do
  requireAuth signers provider
  assertInitialized w
  bail (amount ≤ 0) .zeroAmount
  let _ ← okOr w.usdcTokenEntry .notInitialized
  let shares ← calcShares w amount
  let userShares ← i128 (sharesOf w provider + shares)
  let acc := accounting w
  let totalCapital ← i128 (acc.totalCapital + amount)
  let totalShares ← i128 (acc.totalShares + shares)
  let ledger ← w.ledger.transfer provider self amount
  pure ({ w with
    accountingEntry := some { acc with totalCapital, totalShares }
    sharesEntry := Function.update w.sharesEntry provider (some userShares)
    lastDepositEntry := Function.update w.lastDepositEntry provider (some w.now)
    ledger }, shares)

/-- Burn shares and return their part of the capital, once the lockup is over. -/
def withdrawCapital (w : World Address) (provider : Address) (shares : ℤ) :
    Call (World Address × ℤ) := do
  requireAuth signers provider
  assertInitialized w
  bail (shares ≤ 0) .zeroAmount
  bail (sharesOf w provider < shares) .insufficientShares
  let lockupSecs := u64SaturatingMul (config w).lockupDays 86400
  bail (∃ t ∈ w.lastDepositEntry provider, w.now < u64SaturatingAdd t lockupSecs) .lockupActive
  let usdcOut ← quoteWithdrawal w shares
  let acc := accounting w
  let totalCapital ← i128 (acc.totalCapital - usdcOut)
  let totalShares ← i128 (acc.totalShares - shares)
  let userShares ← i128 (sharesOf w provider - shares)
  let _ ← okOr w.usdcTokenEntry .notInitialized
  let ledger ← w.ledger.transfer self provider usdcOut
  pure ({ w with
    accountingEntry := some { acc with totalCapital, totalShares }
    sharesEntry := Function.update w.sharesEntry provider (some userShares)
    ledger }, usdcOut)

/-- Buy a policy; the premium is paid upfront and joins the capital. -/
def buyPolicy (w : World Address) (holder : Address) (params : PolicyParams) (answers : Answers) :
    Call (World Address × ℕ) := do
  requireAuth signers holder
  assertInitialized w
  let newCoverage ← checkCoverageCapacity w params.coverageAmount
  bail (w.backstopEntry.isSome ∧ ¬ answers.withinCaps) .feedCapExceeded
  let premium ← calcPremium riskMultiplier (config w) params
  let endTime := u64SaturatingAdd w.now (u64SaturatingMul params.durationDays 86400)
  let _ ← okOr w.usdcTokenEntry .notInitialized
  let _ ← okOr w.policyRegistryEntry .notInitialized
  let acc := accounting w
  let id := acc.nextPolicyId
  let totalCapital ← i128 (acc.totalCapital + premium)
  let totalPremiums ← i128 (acc.totalPremiums + premium)
  let nextPolicyId ← u64 (id + 1)
  let policy : Policy Address :=
    { id, holder
      coverageType := params.coverageType
      coverageAmount := params.coverageAmount
      premiumPaid := premium
      triggerThreshold := params.triggerThreshold
      startTime := w.now
      endTime
      status := .active
      payoutAt := none }
  let userPolicies := (w.userPoliciesEntry holder).getD [] ++ [id]
  let ledger ← w.ledger.transfer holder self premium
  demand answers.registered
  bail (w.backstopEntry.isSome ∧ ¬ answers.recorded) .feedCapExceeded
  pure (setPolicy { w with
    accountingEntry := some
      { totalCapital, totalCoverage := newCoverage, totalPremiums,
        totalShares := acc.totalShares, nextPolicyId }
    userPoliciesEntry := Function.update w.userPoliciesEntry holder (some userPolicies)
    ledger } id policy, id)

/-- Pay a policy whose trigger the oracle confirms. Anyone may call. -/
def processClaim (w : World Address) (policyId : ℕ) : Call (World Address × ℤ) := do
  let policy ← okOr (w.policyEntry policyId) .policyNotFound
  bail (policy.status ≠ .active) .alreadyClaimed
  bail (policy.endTime < w.now) .policyExpired
  let triggered ← (match w.oracleEntry policy.coverageType with
    | none => pure false
    | some data => do
      let age ← uSub w.now data.updatedAt
      let triggeredValue ← triggeredValue policy data.value
      pure (age < 1800 && triggeredValue) : Call Bool)
  bail (¬ triggered) .policyNotTriggered
  let payout := policy.coverageAmount
  let acc := accounting w
  let capital ← i128 (acc.totalCapital - payout)
  let coverage ← i128 (acc.totalCoverage - payout)
  let _ ← okOr w.usdcTokenEntry .notInitialized
  let ledger ← w.ledger.transfer self policy.holder payout
  pure (setPolicy { w with
    accountingEntry := some { acc with
      totalCapital := max capital 0
      totalCoverage := max coverage 0 }
    ledger } policyId { policy with status := .claimed, payoutAt := some w.now }, payout)

/-- Sweep a lapsed policy and free the coverage it held. -/
def expirePolicy (w : World Address) (policyId : ℕ) : Call (World Address) := do
  let policy ← okOr (w.policyEntry policyId) .policyNotFound
  bail (policy.status ≠ .active) .alreadyClaimed
  bail (w.now ≤ policy.endTime) .policyNotYetExpired
  let acc := accounting w
  let coverage ← i128 (acc.totalCoverage - policy.coverageAmount)
  pure (setPolicy { w with
    accountingEntry := some { acc with totalCoverage := max coverage 0 } }
    policyId { policy with status := .expired })

def setBackstop (w : World Address) (caller backstop : Address) : Call (World Address) := do
  requireAdmin signers w caller
  pure { w with backstopEntry := some backstop }

def setPolicyRegistry (w : World Address) (caller policyRegistry : Address) :
    Call (World Address) := do
  requireAdmin signers w caller
  pure { w with policyRegistryEntry := some policyRegistry }

def setAdmin (w : World Address) (caller newAdmin : Address) : Call (World Address) := do
  requireAdmin signers w caller
  pure { w with adminEntry := some newAdmin }

def setPoolConfig (w : World Address) (caller : Address) (cfg : PoolConfig) :
    Call (World Address) := do
  requireAdmin signers w caller
  pure { w with configEntry := some cfg }

def updateOracle (w : World Address) (caller : Address) (coverageType : CoverageType) (value : ℤ) :
    Call (World Address) := do
  requireAdmin signers w caller
  pure { w with
    oracleEntry := Function.update w.oracleEntry coverageType (some ⟨value, w.now⟩) }

end Entry

/-! ### Transactions -/

inductive Op (Address : Type) where
  | initializeContract (admin usdcToken policyRegistry : Address)
  | provideCapital (provider : Address) (amount : ℤ)
  | withdrawCapital (provider : Address) (shares : ℤ)
  | buyPolicy (holder : Address) (params : PolicyParams) (answers : Answers)
  | processClaim (policyId : ℕ)
  | expirePolicy (policyId : ℕ)
  | setBackstop (caller backstop : Address)
  | setPolicyRegistry (caller policyRegistry : Address)
  | setAdmin (caller newAdmin : Address)
  | setPoolConfig (caller : Address) (cfg : PoolConfig)
  | updateOracle (caller : Address) (coverageType : CoverageType) (value : ℤ)
  | advance (seconds : ℕ)
  | transfer (src dst : Address) (amount : ℤ)

structure Transaction (Address : Type) where
  signers : List Address
  op : Op Address

/-- One transaction. A contract address does not sign, so `self` authorises nothing. -/
def step (riskMultiplier : CoverageType → ℤ) (self : Address) :
    Contract (World Address) (Transaction Address) ℤ PoolError := fun w tx =>
  let signers := tx.signers.filter (· ≠ self)
  match tx.op with
  | .initializeContract admin usdcToken policyRegistry => do
    return (← initializeContract signers w admin usdcToken policyRegistry, 0)
  | .provideCapital provider amount => provideCapital self signers w provider amount
  | .withdrawCapital provider shares => withdrawCapital self signers w provider shares
  | .buyPolicy holder params answers => do
    let (w, id) ← buyPolicy riskMultiplier self signers w holder params answers
    return (w, id)
  | .processClaim policyId => processClaim self w policyId
  | .expirePolicy policyId => do return (← expirePolicy w policyId, 0)
  | .setBackstop caller backstop => do return (← setBackstop signers w caller backstop, 0)
  | .setPolicyRegistry caller policyRegistry => do
    return (← setPolicyRegistry signers w caller policyRegistry, 0)
  | .setAdmin caller newAdmin => do return (← setAdmin signers w caller newAdmin, 0)
  | .setPoolConfig caller cfg => do return (← setPoolConfig signers w caller cfg, 0)
  | .updateOracle caller coverageType value => do
    return (← updateOracle signers w caller coverageType value, 0)
  | .advance seconds => do return ({ w with now := ← u64 (w.now + seconds) }, 0)
  | .transfer src dst amount => do
    requireAuth signers src
    return ({ w with ledger := ← w.ledger.transfer src dst amount }, 0)

end RefractContracts.Pool
