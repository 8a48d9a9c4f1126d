import Mathlib.Data.List.DropRight
import Mathlib.Data.String.Basic
import RefractContracts.Host.Outcome

/-! The input file of the legacy migration. It lists bounties and grants of the time before
the contracts, and is validated record by record: identifiers are unique over both lists,
assets are known, amounts are positive, and the milestones of a grant are numbered, add up to
its total, and are confirmed and claimed in order. -/

namespace RefractContracts.Xtask

open Host

def currentSchemaVersion : String := "1.0.0"

structure AssetConfig where
  symbol : String
  address : String

structure ContractsConfig where
  timelock : String
  treasury : String
  bountyEscrow : String
  grants : String

/-- A bounty award or disclosure commitment. -/
structure LegacyBountyRecord where
  legacyId : String
  researcher : String
  amount : ℤ
  asset : String
  reportHash : String
  paidOffchain : Bool
  deriving DecidableEq

structure LegacyGrantMilestone where
  index : ℕ
  amount : ℤ
  confirmed : Bool
  claimed : Bool
  deriving DecidableEq

structure LegacyGrantRecord where
  legacyId : String
  recipient : String
  asset : String
  totalAmount : ℤ
  milestones : List LegacyGrantMilestone
  deriving DecidableEq

structure LegacyInputFile where
  schemaVersion : String
  assets : List AssetConfig
  contracts : ContractsConfig
  /-- Contract name, then asset symbol. -/
  escrowBalances : Std.TreeMap String (Std.TreeMap String ℤ)
  bounties : List LegacyBountyRecord
  grants : List LegacyGrantRecord

inductive MigrationError where
  | unsupportedSchemaVersion (expected found : String)
  | duplicateLegacyId (id : String)
  | unknownAsset (asset legacyId : String)
  | invalidAmount (legacyId : String) (amount : ℤ)
  | emptyMilestones (legacyId : String)
  | milestoneSumMismatch (legacyId : String) (total sum : ℤ)
  | milestoneOutOfOrder (legacyId reason : String)
  | invalidReportHash (legacyId reason : String)
  | insufficientTreasuryFunds (asset : String) (required available : ℤ)
  | invalidContractAddress (field value : String)
  deriving DecidableEq

abbrev Call (α : Type) := Outcome MigrationError α

/-! ### Text -/

/-- `char::is_whitespace`, the Unicode property White_Space. -/
def isWhitespace (c : Char) : Bool :=
  let n := c.toNat
  (9 ≤ n ∧ n ≤ 13) ∨ n = 0x20 ∨ n = 0x85 ∨ n = 0xA0 ∨ n = 0x1680 ∨ (0x2000 ≤ n ∧ n ≤ 0x200A) ∨
    n = 0x2028 ∨ n = 0x2029 ∨ n = 0x202F ∨ n = 0x205F ∨ n = 0x3000

/-- `str::trim`. -/
def trim (s : String) : String :=
  .ofList ((s.toList.dropWhile isWhitespace).rdropWhile isWhitespace)

/-- `trim_start_matches("0x")`. -/
def trimStart0x : List Char → List Char
  | '0' :: 'x' :: s => trimStart0x s
  | s => s

def isHexDigit (c : Char) : Bool :=
  ('0' ≤ c ∧ c ≤ '9') ∨ ('a' ≤ c ∧ c ≤ 'f') ∨ ('A' ≤ c ∧ c ≤ 'F')

/-- `hex::decode(s).is_ok()`. -/
def hexDecodes (s : String) : Bool := s.utf8ByteSize % 2 = 0 ∧ s.toList.all isHexDigit

/-! ### Validation -/

/-- The loop variables of the milestones. -/
structure MilestoneScan where
  sum : ℤ
  sawUnconfirmed : Bool
  sawUnclaimed : Bool

/-- One round of the loop over the milestones. -/
def validateMilestone (grant : LegacyGrantRecord) (scan : MilestoneScan)
    (entry : LegacyGrantMilestone × ℕ) : Call MilestoneScan := do
  let (milestone, expectedIdx) := entry
  let outOfOrder (reason : String) : MigrationError := .milestoneOutOfOrder grant.legacyId reason
  bail (milestone.index ≠ expectedIdx)
    (outOfOrder s!"milestone index mismatch: expected {expectedIdx}, found {milestone.index}")
  bail (milestone.amount ≤ 0) (.invalidAmount grant.legacyId milestone.amount)
  let sum ← i128Checked (scan.sum + milestone.amount)
    (.milestoneSumMismatch grant.legacyId grant.totalAmount maxI128)
  bail (milestone.claimed ∧ ¬ milestone.confirmed)
    (outOfOrder s!"milestone {milestone.index} is marked claimed but not confirmed")
  bail (milestone.confirmed ∧ scan.sawUnconfirmed)
    (outOfOrder
      s!"milestone {milestone.index} is confirmed, but an earlier milestone is unconfirmed")
  bail (milestone.claimed ∧ scan.sawUnclaimed)
    (outOfOrder s!"milestone {milestone.index} is claimed, but an earlier milestone is unclaimed")
  pure ⟨sum, scan.sawUnconfirmed || !milestone.confirmed, scan.sawUnclaimed || !milestone.claimed⟩

section Records
variable (knownAssets : List String)

/-- The identifier of a record is new; `seen` are the trimmed ones before it. -/
def seeLegacyId (seen : List String) (legacyId : String) : Call (List String) := do
  let id := trim legacyId
  bail (id = "" ∨ id ∈ seen) (.duplicateLegacyId legacyId)
  pure (id :: seen)

/-- One round of the loop over the bounties. -/
def validateBounty (seen : List String) (bounty : LegacyBountyRecord) : Call (List String) := do
  let seen ← seeLegacyId seen bounty.legacyId
  bail (bounty.asset ∉ knownAssets) (.unknownAsset bounty.asset bounty.legacyId)
  bail (bounty.amount ≤ 0) (.invalidAmount bounty.legacyId bounty.amount)
  let cleanHash := String.ofList (trimStart0x bounty.reportHash.toList)
  bail (cleanHash.utf8ByteSize ≠ 64 ∨ ¬ hexDecodes cleanHash)
    (.invalidReportHash bounty.legacyId "must be a 32-byte hex-encoded string (64 characters)")
  pure seen

/-- One round of the loop over the grants. -/
def validateGrant (seen : List String) (grant : LegacyGrantRecord) : Call (List String) := do
  let seen ← seeLegacyId seen grant.legacyId
  bail (grant.asset ∉ knownAssets) (.unknownAsset grant.asset grant.legacyId)
  bail (grant.totalAmount ≤ 0) (.invalidAmount grant.legacyId grant.totalAmount)
  bail (grant.milestones = []) (.emptyMilestones grant.legacyId)
  let scan ← grant.milestones.zipIdx.foldlM (validateMilestone grant) ⟨0, false, false⟩
  bail (scan.sum ≠ grant.totalAmount)
    (.milestoneSumMismatch grant.legacyId grant.totalAmount scan.sum)
  pure seen

end Records

/-- Check the file against the schema and its consistency rules. -/
def LegacyInputFile.validate (input : LegacyInputFile) : Call Unit := do
  bail (input.schemaVersion ≠ currentSchemaVersion)
    (.unsupportedSchemaVersion currentSchemaVersion input.schemaVersion)
  let knownAssets := input.assets.map AssetConfig.symbol
  let seen ← input.bounties.foldlM (validateBounty knownAssets) []
  let _ ← input.grants.foldlM (validateGrant knownAssets) seen
  pure ()

end RefractContracts.Xtask
