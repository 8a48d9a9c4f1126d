import Mathlib.Data.Prod.Basic
import RefractContracts.Host.Run
import RefractContracts.Host.Value

/-! `RefractOracle`: readings of feeds, submitted by relayers. The administrator queues
a relayer, anyone activates it after a notice period, and the administrator removes
it at once. A submission is refused when its relayer is not active, when its
timestamp lies in the future, is stale or older than the stored one, and when the
same relayer wrote to the same feed too recently. -/

namespace RefractContracts.Oracle

open Host

/-- Maximum staleness of a reading (30 minutes). -/
def maxStalenessSecs : ℕ := 1800

/-- Delay between `add_relayer` and `activate_relayer` (48 hours). -/
def minAdditionNoticePeriodSecs : ℕ := 48 * 60 * 60

/-- Interval between submissions of one relayer to one feed. -/
def minSubmissionIntervalSecs : ℕ := 60

def reputationInitial : ℤ := 100

def reputationFloor : ℤ := 1

def reputationCeiling : ℤ := 1000

inductive OracleError where
  | alreadyInitialized
  | notInitialized
  | unauthorized
  | feedNotFound
  | staleReading
  | unknownCoverageType
  | futureTimestamp
  | staleSubmission
  | noPendingAdmin
  | submittedTooSoon
  | insufficientBond
  | relayerNotBonded
  | invalidSlashAmount
  | relayerNotPending
  | noticePeriodNotElapsed
  deriving DecidableEq, Repr

structure OracleReading where
  value : ℤ
  timestamp : ℕ
  source : Symbol
  deriving DecidableEq, Repr

structure FeedMetadata where
  decimals : ℕ
  sourceName : Symbol
  expectedCadenceSecs : ℕ
  deriving DecidableEq, Repr

/-- The contract's storage and the ledger time. -/
structure World (Address : Type) where
  now : ℕ
  adminEntry : Option Address
  pendingAdminEntry : Option Address
  relayersEntry : Option (List Address)
  pendingRelayerEntry : Address → Option ℕ
  relayerReputationEntry : Address → Option ℤ
  readingEntry : Symbol → Option OracleReading
  lastSubmissionAtEntry : Address × Symbol → Option ℕ
  thresholdEntry : Symbol → Option ℤ
  feedMetadataEntry : Symbol → Option FeedMetadata

/-- A deployed contract before the call of `initialize`. -/
def deployed (Address : Type) (now : ℕ) : World Address where
  now
  adminEntry := none
  pendingAdminEntry := none
  relayersEntry := none
  pendingRelayerEntry _ := none
  relayerReputationEntry _ := none
  readingEntry _ := none
  lastSubmissionAtEntry _ := none
  thresholdEntry _ := none
  feedMetadataEntry _ := none

abbrev Call (α : Type) := Outcome OracleError α

variable {Address : Type}

def relayers (w : World Address) : List Address := w.relayersEntry.getD []

variable [DecidableEq Address]

section Entry
variable (signers : List Address)

def requireAdmin (w : World Address) : Call Unit := do
  let admin ← okOr w.adminEntry .notInitialized
  requireAuth signers admin

def requireRelayer (w : World Address) (relayer : Address) : Call Unit :=
  bail (relayer ∉ relayers w) .unauthorized

omit [DecidableEq Address] in
def initializeContract (w : World Address) (admin : Address) : Call (World Address) := do
  bail w.adminEntry.isSome .alreadyInitialized
  pure { w with adminEntry := some admin, relayersEntry := some [] }

/-! ### Relayers -/

/-- Queue a relayer; an active one stays as it is. -/
def addRelayer (w : World Address) (relayer : Address) : Call (World Address) := do
  requireAdmin signers w
  if relayer ∈ relayers w then pure w
  else pure { w with
    pendingRelayerEntry := Function.update w.pendingRelayerEntry relayer (some w.now) }

/-- Make a queued relayer active once the notice period has elapsed. -/
def activateRelayer (w : World Address) (relayer : Address) : Call (World Address) := do
  let queuedAt ← okOr (w.pendingRelayerEntry relayer) .relayerNotPending
  bail (w.now < u64SaturatingAdd queuedAt minAdditionNoticePeriodSecs) .noticePeriodNotElapsed
  let w := if relayer ∈ relayers w then w
    else { w with
      relayersEntry := some (relayers w ++ [relayer])
      relayerReputationEntry :=
        Function.update w.relayerReputationEntry relayer (some reputationInitial) }
  pure { w with pendingRelayerEntry := Function.update w.pendingRelayerEntry relayer none }

/-- Remove a relayer, active or queued. -/
def removeRelayer (w : World Address) (relayer : Address) : Call (World Address) := do
  requireAdmin signers w
  pure { w with
    relayersEntry := some ((relayers w).filter (· ≠ relayer))
    pendingRelayerEntry := Function.update w.pendingRelayerEntry relayer none }

/-- Move a relayer's score by `delta`, within its bounds. -/
def updateReputation (w : World Address) (relayer : Address) (delta : ℤ) :
    Call (World Address) := do
  requireAdmin signers w
  let current := (w.relayerReputationEntry relayer).getD reputationInitial
  let moved ← i128 (current + delta)
  let updated := min (max moved reputationFloor) reputationCeiling
  pure { w with
    relayerReputationEntry := Function.update w.relayerReputationEntry relayer (some updated) }

/-! ### Administration -/

def proposeAdmin (w : World Address) (newAdmin : Address) : Call (World Address) := do
  requireAdmin signers w
  pure { w with pendingAdminEntry := some newAdmin }

def acceptAdmin (w : World Address) (caller : Address) : Call (World Address) := do
  requireAuth signers caller
  let pending ← okOr w.pendingAdminEntry .noPendingAdmin
  bail (pending ≠ caller) .unauthorized
  pure { w with adminEntry := some caller, pendingAdminEntry := none }

def setThreshold (w : World Address) (feedId : Symbol) (threshold : ℤ) :
    Call (World Address) := do
  requireAdmin signers w
  pure { w with thresholdEntry := Function.update w.thresholdEntry feedId (some threshold) }

def setFeedMetadata (w : World Address) (feedId : Symbol) (metadata : FeedMetadata) :
    Call (World Address) := do
  requireAdmin signers w
  pure { w with feedMetadataEntry := Function.update w.feedMetadataEntry feedId (some metadata) }

/-! ### Readings -/

/-- Store a reading. The time of the submission is written before the stored
reading is compared, and is lost with every other write if that refuses. -/
def submit (w : World Address) (relayer : Address) (feedId : Symbol) (value : ℤ) (timestamp : ℕ)
    (source : Symbol) : Call (World Address) := do
  requireAuth signers relayer
  requireRelayer w relayer
  bail (w.now < timestamp) .futureTimestamp
  let age ← uSub w.now timestamp
  bail (maxStalenessSecs < age) .staleReading
  bail ((w.lastSubmissionAtEntry (relayer, feedId)).any
    fun lastAt => w.now - lastAt < minSubmissionIntervalSecs) .submittedTooSoon
  let w := { w with
    lastSubmissionAtEntry :=
      Function.update w.lastSubmissionAtEntry (relayer, feedId) (some w.now) }
  bail ((w.readingEntry feedId).any fun existing => timestamp < existing.timestamp)
    .staleSubmission
  pure { w with
    readingEntry := Function.update w.readingEntry feedId (some ⟨value, timestamp, source⟩) }

omit [DecidableEq Address] in
/-- The stored reading of a feed, unless it is stale. -/
def getReading (w : World Address) (feedId : Symbol) : Call OracleReading := do
  let reading ← okOr (w.readingEntry feedId) .feedNotFound
  bail (maxStalenessSecs < w.now - reading.timestamp) .staleReading
  pure reading

end Entry

/-! ### Transactions -/

/-- The entry points that write, and the passing of ledger time. -/
inductive Op (Address : Type) where
  | initializeContract (admin : Address)
  | addRelayer (relayer : Address)
  | activateRelayer (relayer : Address)
  | removeRelayer (relayer : Address)
  | updateReputation (relayer : Address) (delta : ℤ)
  | proposeAdmin (newAdmin : Address)
  | acceptAdmin (caller : Address)
  | setThreshold (feedId : Symbol) (threshold : ℤ)
  | setFeedMetadata (feedId : Symbol) (metadata : FeedMetadata)
  | submit (relayer : Address) (feedId : Symbol) (value : ℤ) (timestamp : ℕ) (source : Symbol)
  | advance (seconds : ℕ)
  deriving DecidableEq

structure Transaction (Address : Type) where
  signers : List Address
  op : Op Address

def step : Contract (World Address) (Transaction Address) Unit OracleError := fun w tx =>
  match tx.op with
  | .initializeContract admin => do return (← initializeContract w admin, ())
  | .addRelayer relayer => do return (← addRelayer tx.signers w relayer, ())
  | .activateRelayer relayer => do return (← activateRelayer w relayer, ())
  | .removeRelayer relayer => do return (← removeRelayer tx.signers w relayer, ())
  | .updateReputation relayer delta => do
    return (← updateReputation tx.signers w relayer delta, ())
  | .proposeAdmin newAdmin => do return (← proposeAdmin tx.signers w newAdmin, ())
  | .acceptAdmin caller => do return (← acceptAdmin tx.signers w caller, ())
  | .setThreshold feedId threshold => do return (← setThreshold tx.signers w feedId threshold, ())
  | .setFeedMetadata feedId metadata => do
    return (← setFeedMetadata tx.signers w feedId metadata, ())
  | .submit relayer feedId value timestamp source => do
    return (← submit tx.signers w relayer feedId value timestamp source, ())
  | .advance seconds => do return ({ w with now := ← u64 (w.now + seconds) }, ())

end RefractContracts.Oracle
