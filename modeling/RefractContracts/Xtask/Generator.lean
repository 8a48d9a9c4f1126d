import Mathlib.Data.List.Sort
import RefractContracts.Host.SumMap
import RefractContracts.Xtask.Schema

/-! The generator of the legacy migration plan. One pass over the bounties and one over the
grants sum up what is owed, skipping the records already on chain. The plan funds the bounty
escrow where it falls short, then imports the pending bounties, then the pending grants. -/

namespace RefractContracts.Xtask

open Host

/-! ### Data -/

/-- What is read of the chain. -/
structure StateProvider where
  hasLegacyBounty : String → Bool
  hasLegacyGrant : String → Bool
  /-- Contract name, then asset symbol. -/
  getEscrowBalance : String → String → ℤ

/-- The part of `serde_json::Value` that arguments are built of. -/
inductive Json where
  | string (s : String)
  | number (n : ℤ)
  | bool (b : Bool)
  | array (items : List Json)
  | object (members : List (String × Json))

/-- The `i128` values that the JSON library has a number for. Between zero and one of them it
has them all. -/
structure JsonIntegers where
  represents : ℤ → Bool
  mono : ∀ x y : ℤ, 0 ≤ x → x ≤ y → represents y = true → represents x = true

structure ContractInvocation where
  step : ℕ
  program : String
  legacyId : Option String
  targetContract : String
  targetAddress : String
  function : String
  args : Json
  description : String

/-- Sums by program and asset. -/
abbrev ProgramSums : Type := Std.TreeMap String (Std.TreeMap String ℤ)

structure ProgramSummary where
  totalRecords : ℕ := 0
  alreadyMigratedCount : ℕ := 0
  plannedActionsCount : ℕ := 0
  bountyRecordsTotal : ℕ := 0
  bountyRecordsMigrated : ℕ := 0
  bountyRecordsPending : ℕ := 0
  grantRecordsTotal : ℕ := 0
  grantRecordsMigrated : ℕ := 0
  grantRecordsPending : ℕ := 0
  liabilitiesByProgram : ProgramSums := ∅
  historicalPaidByProgram : ProgramSums := ∅
  outstandingObligationsByProgram : ProgramSums := ∅
  totalOutstandingByAsset : Std.TreeMap String ℤ := ∅
  requiredTreasuryFunding : Std.TreeMap String ℤ := ∅

structure TimelockOperation where
  step : ℕ
  target : String
  function : String
  args : Json
  eta : ℕ
  description : String

structure TimelockBatchProposal where
  proposalType : String
  version : String
  generatedAt : ℕ
  eta : ℕ
  operations : List TimelockOperation

structure GovernanceProposal where
  title : String
  description : String
  targetTimelock : String
  batchProposal : TimelockBatchProposal

structure MigrationPlan where
  version : String
  generatedAt : ℕ
  eta : ℕ
  actions : List ContractInvocation
  alreadyMigrated : List String
  summary : ProgramSummary
  timelockProposal : TimelockBatchProposal
  governanceProposal : GovernanceProposal

structure GeneratorConfig where
  currentTimestamp : ℕ := 1700000000
  minDelay : ℕ := 86400

/-- The variables of the passes over the records. -/
structure Scan where
  summary : ProgramSummary
  alreadyMigrated : List String := []
  pendingBountyObligations : Std.TreeMap String ℤ := ∅
  pendingBounties : List LegacyBountyRecord := []
  pendingGrants : List LegacyGrantRecord := []

/-! ### The passes over the records -/

section Passes
variable (state : StateProvider)

/-- One round of the loop over the bounties. -/
def processBounty (scan : Scan) (bounty : LegacyBountyRecord) : Call Scan := do
  let summary := scan.summary
  if state.hasLegacyBounty bounty.legacyId then
    pure { scan with
      summary := { summary with
        alreadyMigratedCount := summary.alreadyMigratedCount + 1
        bountyRecordsMigrated := summary.bountyRecordsMigrated + 1 }
      alreadyMigrated := scan.alreadyMigrated ++ [bounty.legacyId] }
  else
    let liabilities ← addUnder summary.liabilitiesByProgram "bounty" bounty.asset bounty.amount
    let summary := { summary with
      bountyRecordsPending := summary.bountyRecordsPending + 1
      liabilitiesByProgram := liabilities }
    let scan := { scan with pendingBounties := scan.pendingBounties ++ [bounty] }
    if bounty.paidOffchain then
      let historical ←
        addUnder summary.historicalPaidByProgram "bounty" bounty.asset bounty.amount
      pure { scan with summary := { summary with historicalPaidByProgram := historical } }
    else
      let outstanding ←
        addUnder summary.outstandingObligationsByProgram "bounty" bounty.asset bounty.amount
      let total ← addAt summary.totalOutstandingByAsset bounty.asset bounty.amount
      let obligations ← addAt scan.pendingBountyObligations bounty.asset bounty.amount
      pure { scan with
        summary := { summary with
          outstandingObligationsByProgram := outstanding
          totalOutstandingByAsset := total }
        pendingBountyObligations := obligations }

/-- One round of the loop over a grant's milestones. -/
def addClaimed (claimed : ℤ) (milestone : LegacyGrantMilestone) : Call ℤ :=
  if milestone.claimed then i128 (claimed + milestone.amount) else pure claimed

/-- One round of the loop over the grants. -/
def processGrant (scan : Scan) (grant : LegacyGrantRecord) : Call Scan := do
  let summary := scan.summary
  if state.hasLegacyGrant grant.legacyId then
    pure { scan with
      summary := { summary with
        alreadyMigratedCount := summary.alreadyMigratedCount + 1
        grantRecordsMigrated := summary.grantRecordsMigrated + 1 }
      alreadyMigrated := scan.alreadyMigrated ++ [grant.legacyId] }
  else
    let claimed ← grant.milestones.foldlM addClaimed 0
    let due ← i128 (grant.totalAmount - claimed)
    let liabilities ← addUnder summary.liabilitiesByProgram "grants" grant.asset grant.totalAmount
    let historical ← addUnder summary.historicalPaidByProgram "grants" grant.asset claimed
    let outstanding ← addUnder summary.outstandingObligationsByProgram "grants" grant.asset due
    let total ← addAt summary.totalOutstandingByAsset grant.asset due
    pure { scan with
      summary := { summary with
        grantRecordsPending := summary.grantRecordsPending + 1
        liabilitiesByProgram := liabilities
        historicalPaidByProgram := historical
        outstandingObligationsByProgram := outstanding
        totalOutstandingByAsset := total }
      pendingGrants := scan.pendingGrants ++ [grant] }

end Passes

/-! ### The actions -/

section Actions
variable (integers : JsonIntegers) (input : LegacyInputFile) (state : StateProvider)

/-- `serde_json::to_value(n).unwrap()` of an `i128`. -/
def toJson (n : ℤ) : Call Json := do
  demand (integers.represents n = true)
  pure (.number n)

/-- The larger of the balance on chain and the balance declared in the file. -/
def escrowBalance (asset : String) : ℤ :=
  let currentEscrow := state.getEscrowBalance "bounty_escrow" asset
  let declaredEscrow := (input.escrowBalances["bounty_escrow"]?.bind (·[asset]?)).getD 0
  max currentEscrow declaredEscrow

/-- The address of an asset; of two entries for one symbol the later one counts. -/
def tokenAddress (asset : String) : String :=
  let addresses := input.assets.foldl (fun map (a : AssetConfig) => map.insert a.symbol a.address)
    (∅ : Std.TreeMap String String)
  addresses.getD asset ""

def fundingAction (asset : String) (shortfall : ℤ) (amount : Json) : ContractInvocation where
  step := 0
  program := "treasury"
  legacyId := none
  targetContract := "treasury"
  targetAddress := input.contracts.treasury
  function := "withdraw"
  args := .object [
    ("caller", .string input.contracts.timelock),
    ("token", .string (tokenAddress input asset)),
    ("amount", amount),
    ("to", .string input.contracts.bountyEscrow)]
  description :=
    s!"Fund bounty escrow with {shortfall} {asset} from treasury for outstanding obligations"

def bountyAction (bounty : LegacyBountyRecord) (amount : Json) : ContractInvocation where
  step := 0
  program := "bounty"
  legacyId := some bounty.legacyId
  targetContract := "bounty_escrow"
  targetAddress := input.contracts.bountyEscrow
  function := "import_legacy_award"
  args := .object [
    ("caller", .string input.contracts.timelock),
    ("legacy_id", .string bounty.legacyId),
    ("researcher", .string bounty.researcher),
    ("amount", amount),
    ("report_hash", .string bounty.reportHash),
    ("paid_offchain", .bool bounty.paidOffchain)]
  description :=
    s!"Import legacy bounty {bounty.legacyId} ({bounty.amount} {bounty.asset}, " ++
      s!"paid_offchain: {bounty.paidOffchain})"

def grantAction (grant : LegacyGrantRecord) (total : Json) (amounts : List Json) :
    ContractInvocation :=
  let confirmedCount := grant.milestones.countP LegacyGrantMilestone.confirmed
  let claimedCount := grant.milestones.countP LegacyGrantMilestone.claimed
  { step := 0
    program := "grants"
    legacyId := some grant.legacyId
    targetContract := "grants"
    targetAddress := input.contracts.grants
    function := "import_legacy_grant"
    args := .object [
      ("caller", .string input.contracts.timelock),
      ("legacy_id", .string grant.legacyId),
      ("recipient", .string grant.recipient),
      ("total_amount", total),
      ("milestones", .array amounts),
      ("confirmed_count", .number confirmedCount),
      ("claimed_count", .number claimedCount)]
    description :=
      s!"Import legacy grant {grant.legacyId} (total: {grant.totalAmount} {grant.asset}, " ++
        s!"{confirmedCount}/{grant.milestones.length} milestones confirmed, " ++
        s!"{claimedCount} claimed)" }

/-- The variables of the loop over the obligations. -/
structure Funding where
  required : Std.TreeMap String ℤ := ∅
  actions : List (String × ContractInvocation) := []

/-- One round of the loop over the obligations. -/
def fundAsset (funding : Funding) (entry : String × ℤ) : Call Funding := do
  let (asset, neededAmount) := entry
  let balance := escrowBalance input state asset
  if neededAmount > balance then
    let shortfall ← i128 (neededAmount - balance)
    let amount ← toJson integers shortfall
    pure {
      required := funding.required.insert asset shortfall
      actions := funding.actions ++ [(asset, fundingAction input asset shortfall amount)] }
  else
    pure funding

def planBounty (bounty : LegacyBountyRecord) : Call ContractInvocation := do
  let amount ← toJson integers bounty.amount
  pure (bountyAction input bounty amount)

def planGrant (grant : LegacyGrantRecord) : Call ContractInvocation := do
  let total ← toJson integers grant.totalAmount
  let amounts ← grant.milestones.mapM fun milestone => toJson integers milestone.amount
  pure (grantAction input grant total amounts)

/-- One round of the loops that number the actions. -/
def pushAction (acc : List ContractInvocation × ℕ) (action : ContractInvocation) :
    List ContractInvocation × ℕ :=
  (acc.1 ++ [{ action with step := acc.2 }], acc.2 + 1)

end Actions

section Generate
variable (integers : JsonIntegers) (input : LegacyInputFile) (state : StateProvider)
  (config : GeneratorConfig)

/-- Generate a plan from the records of the file and the state of the chain. -/
def generateMigrationPlan : Call MigrationPlan := do
  input.validate
  let summary : ProgramSummary := {
    totalRecords := input.bounties.length + input.grants.length
    bountyRecordsTotal := input.bounties.length
    grantRecordsTotal := input.grants.length }
  let scan ← input.bounties.foldlM (processBounty state) { summary := summary }
  let scan ← input.grants.foldlM (processGrant state) scan
  let funding ← scan.pendingBountyObligations.toList.foldlM (fundAsset integers input state) {}
  let fundingActions := funding.actions.insertionSort fun a b => a.1 ≤ b.1
  let bounties := scan.pendingBounties.insertionSort fun a b => a.legacyId ≤ b.legacyId
  let bountyActions ← bounties.mapM (planBounty integers input)
  let grants := scan.pendingGrants.insertionSort fun a b => a.legacyId ≤ b.legacyId
  let grantActions ← grants.mapM (planGrant integers input)
  let acc := fundingActions.foldl (fun acc action => pushAction acc action.2) ([], 1)
  let acc := bountyActions.foldl pushAction acc
  let (actions, _) := grantActions.foldl pushAction acc
  let summary := { scan.summary with
    requiredTreasuryFunding := funding.required
    plannedActionsCount := actions.length }
  let eta ← u64 (config.currentTimestamp + config.minDelay)
  let batch : TimelockBatchProposal := {
    proposalType := "legacy_migration_batch"
    version := input.schemaVersion
    generatedAt := config.currentTimestamp
    eta := eta
    operations := actions.map fun act =>
      ⟨act.step, act.targetAddress, act.function, act.args, eta, act.description⟩ }
  pure {
    version := input.schemaVersion
    generatedAt := config.currentTimestamp
    eta := eta
    actions := actions
    alreadyMigrated := scan.alreadyMigrated
    summary := summary
    timelockProposal := batch
    governanceProposal := {
      title := s!"Legacy Records Migration Batch (v{input.schemaVersion})"
      description :=
        s!"Execute import of {actions.length} legacy records into on-chain escrow contracts " ++
          "via timelock"
      targetTimelock := input.contracts.timelock
      batchProposal := batch } }

end Generate

end RefractContracts.Xtask
