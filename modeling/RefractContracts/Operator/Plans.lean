import RefractContracts.Operator.Commands

/-! Plans of operator commands. A command is resolved against the deployment files of its
network into the `stellar contract invoke` steps that carry it out; a plan is then printed or
its steps are run in order until one fails. -/

namespace RefractContracts.Operator

open Host
open Xtask (trim)

/-! ### Deployment files -/

/-- `serde_json::Value`; a number is kept as it is written. -/
inductive Value where
  | null
  | bool (b : Bool)
  | number (text : String)
  | string (s : String)
  | array (items : List Value)
  | object (members : List (String × Value))

namespace Value

/-- `value[key]`. -/
def get (value : Value) (key : String) : Value :=
  match value with
  | object members => (members.lookup key).getD null
  | _ => null

def asStr : Value → Option String
  | string s => some s
  | _ => none

/-- The members of `as_object`. -/
def members : Value → List (String × Value)
  | object members => members
  | _ => []

/-- `Serialize` of an `Option<String>`. -/
def ofOption (s : Option String) : Value :=
  match s with
  | some s => string s
  | none => null

/-- `Serialize` of an unsigned number. -/
def ofNat (n : ℕ) : Value := number (toString n)

end Value

/-- What reading and parsing a file gives. -/
inductive Document where
  | unreadable (e : String)
  | invalid (e : String)
  | value (doc : Value)

structure DeploymentsDir where
  /-- The path of a file as it is displayed. -/
  path : String → String
  file : String → Document

def Network.defaultRpcUrl : Network → String
  | .local => "http://localhost:8000/rpc"
  | .testnet => "https://soroban-testnet.stellar.org"
  | .mainnet => "https://mainnet.sorobanrpc.com"

def Network.defaultPassphrase : Network → String
  | .local => "Standalone Network ; February 2017"
  | .testnet => "Test SDF Network ; September 2015"
  | .mainnet => "Public Global Stellar Network ; September 2015"

/-- Resolved network and contract deployment metadata. -/
structure NetworkDeployment where
  network : Network
  rpcUrl : String
  networkPassphrase : String
  contracts : Std.TreeMap String String
  tokens : Std.TreeMap String String

/-- A setting of the manifest, or of `config.json` where the manifest has none, or the default. -/
def setting (declared configured : Option String) (default : String) : String :=
  let text := declared.getD ""
  let text := if text = "" then configured.getD text else text
  if text = "" then default else text

/-- Record a text that is not blank. -/
def insertTrimmed (map : Std.TreeMap String String) (name : String) (text : Option String) :
    Std.TreeMap String String :=
  match text with
  | some text => if trim text = "" then map else map.insert name (trim text)
  | none => map

namespace NetworkDeployment

/-- The deployment that a manifest and the entry of `config.json` describe. -/
def ofDocs (network : Network) (doc config : Value) : NetworkDeployment where
  network := network
  rpcUrl := setting (doc.get "rpc_url").asStr (config.get "rpc_url").asStr network.defaultRpcUrl
  networkPassphrase := setting (doc.get "network_passphrase").asStr
    (config.get "network_passphrase").asStr network.defaultPassphrase
  contracts := (doc.get "contracts").members.foldl (fun map entry =>
    insertTrimmed map entry.1 (entry.2.get "contract_id").asStr) ∅
  tokens := (doc.get "contracts").members.foldl (fun map entry =>
    insertTrimmed map entry.1 ((entry.2.get "init_args").get "token").asStr) ∅

def load (dir : DeploymentsDir) (network : Network) : Call NetworkDeployment :=
  let manifest := s!"{network.asStr}.json"
  match dir.file manifest with
  | .unreadable e => .error (.error (.manifestError s!"cannot read {dir.path manifest}: {e}"))
  | .invalid e => .error (.error (.manifestError s!"invalid JSON in {dir.path manifest}: {e}"))
  | .value doc =>
    match dir.file "config.json" with
    | .value config => pure (ofDocs network doc ((config.get "networks").get network.asStr))
    | _ => pure (ofDocs network doc .null)

def requireContract (d : NetworkDeployment) (contractKey : String) : Call String :=
  okOr d.contracts[contractKey]? (.contractNotDeployed d.network.asStr contractKey)

end NetworkDeployment

/-! ### Plans -/

/-- One `stellar contract invoke` invocation specification. -/
structure InvokeStep where
  description : String
  contractName : String
  contractId : String
  network : String
  rpcUrl : String
  networkPassphrase : String
  source : Option String
  readOnly : Bool
  function : String
  args : List (String × String)

/-- The argument vector passed to the `stellar` binary. -/
def InvokeStep.toStellarArgs (step : InvokeStep) : List String :=
  ["contract", "invoke", "--id", step.contractId, "--rpc-url", step.rpcUrl,
    "--network-passphrase", step.networkPassphrase] ++
  (match step.source with
    | some src => ["--source", src]
    | none => []) ++
  (if step.readOnly then ["--send=no"] else []) ++
  ["--", step.function] ++
  step.args.flatMap fun arg => ["--" ++ arg.1, arg.2]

/-- An argument as it is printed. -/
def shellPart (arg : String) : String :=
  if ' ' ∈ arg.toList ∨ ';' ∈ arg.toList then "\"" ++ arg ++ "\"" else arg

/-- The command line printed for a dry run. -/
def InvokeStep.toShellCommand (step : InvokeStep) : String :=
  " ".intercalate ("stellar" :: step.toStellarArgs.map shellPart)

/-- Complete execution plan produced by an operator command. -/
structure OperatorPlan where
  domain : String
  action : String
  network : Network
  dryRun : Bool
  mutating : Bool
  summary : Value
  steps : List InvokeStep

section Build
variable (network : Network) (deployment : NetworkDeployment)

/-- A step that sends a transaction of `source`. -/
def sendStep (description contractName contractId source function : String)
    (args : List (String × String)) : InvokeStep :=
  ⟨description, contractName, contractId, network.asStr, deployment.rpcUrl,
    deployment.networkPassphrase, some source, false, function, args⟩

/-- A step that only reads. -/
def queryStep (description contractName contractId function : String)
    (args : List (String × String)) : InvokeStep :=
  ⟨description, contractName, contractId, network.asStr, deployment.rpcUrl,
    deployment.networkPassphrase, none, true, function, args⟩

/-- A state-mutating operation on `mainnet` is to be confirmed. -/
def requireConfirmation (confirmMainnet : Bool) : Call Unit :=
  bail (network = .mainnet ∧ ¬ confirmMainnet) .mainnetConfirmationRequired

/-- The token that was given, or the default one of the deployment. -/
def tokenOr (token : Option String) : Call String :=
  match token with
  | some t => pure t
  | none => okOr (deployment.tokens["refract_backstop"]? <|> deployment.tokens["refract_bounty"]?)
      (.invalidArgument "no default token in deployment manifest; pass `--token <contract_id>`")

end Build

/-- The tranche argument of a call, and the function that takes one. -/
def trancheCall (function : String) (tranche : Option TrancheArg) (staker : String)
    (amount : String × String) : String × List (String × String) :=
  match tranche with
  | some t => (function ++ "_tranche",
      [("staker", staker), ("tranche", t.scvalSymbol), amount])
  | none => (function, [("staker", staker), amount])

def trancheName (tranche : Option TrancheArg) : Value :=
  .string ((tranche.map TrancheArg.scvalSymbol).getD "Junior")

/-- Build the plan of a command on the deployment of its network. -/
def planOn (deployment : NetworkDeployment) : OperatorCommand → Call OperatorPlan
  | .backstopStake network source staker tranche amount1e7 dryRun confirmMainnet => do
    requireConfirmation network confirmMainnet
    let cid ← deployment.requireContract "refract_backstop"
    let call := trancheCall "deposit" tranche staker ("amount", toString amount1e7)
    pure ⟨"backstop", "stake", network, dryRun, true,
      .object [("contract", .string "refract_backstop"), ("contract_id", .string cid),
        ("staker", .string staker), ("tranche", trancheName tranche),
        ("amount_1e7", .string (toString amount1e7)),
        ("amount_decimal", .string (formatAmount1e7 amount1e7))],
      [sendStep network deployment
        s!"Stake {formatAmount1e7 amount1e7} ({amount1e7} stroops) into refract_backstop"
        "refract_backstop" cid source call.1 call.2]⟩
  | .backstopUnstake network source staker tranche shares1e7 dryRun confirmMainnet => do
    requireConfirmation network confirmMainnet
    let cid ← deployment.requireContract "refract_backstop"
    let call := trancheCall "withdraw" tranche staker ("shares", toString shares1e7)
    pure ⟨"backstop", "unstake", network, dryRun, true,
      .object [("contract", .string "refract_backstop"), ("contract_id", .string cid),
        ("staker", .string staker), ("tranche", trancheName tranche),
        ("shares_1e7", .string (toString shares1e7)),
        ("shares_decimal", .string (formatAmount1e7 shares1e7))],
      [sendStep network deployment
        s!"Unstake {formatAmount1e7 shares1e7} shares ({shares1e7}) from refract_backstop"
        "refract_backstop" cid source call.1 call.2]⟩
  | .backstopStatus network staker dryRun => do
    let cid ← deployment.requireContract "refract_backstop"
    let query := queryStep network deployment
    pure ⟨"backstop", "status", network, dryRun, false,
      .object [("contract", .string "refract_backstop"), ("contract_id", .string cid),
        ("staker", .ofOption staker)],
      [query "Query backstop pool state" "refract_backstop" cid "state" [],
        query "Query backstop senior coverage ratio (bps)" "refract_backstop" cid
          "senior_coverage_ratio" []] ++
      staker.toList.map fun s =>
        query s!"Query backstop shares for staker {s}" "refract_backstop" cid "shares_of"
          [("staker", s)]⟩
  | .bountyFund network source sender amount1e7 dryRun confirmMainnet => do
    requireConfirmation network confirmMainnet
    let cid ← deployment.requireContract "refract_bounty"
    pure ⟨"bounty", "fund", network, dryRun, true,
      .object [("contract", .string "refract_bounty"), ("contract_id", .string cid),
        ("from", .string sender), ("amount_1e7", .string (toString amount1e7)),
        ("amount_decimal", .string (formatAmount1e7 amount1e7))],
      [sendStep network deployment
        s!"Fund refract_bounty escrow with {formatAmount1e7 amount1e7} ({amount1e7} stroops)"
        "refract_bounty" cid source "fund" [("from", sender), ("amount", toString amount1e7)]]⟩
  | .bountyCheckClaim network payoutId reportHash dryRun => do
    let cid ← deployment.requireContract "refract_bounty"
    let query := queryStep network deployment
    pure ⟨"bounty", "check-claim", network, dryRun, false,
      .object [("contract", .string "refract_bounty"), ("contract_id", .string cid),
        ("payout_id", (payoutId.map Value.ofNat).getD .null),
        ("report_hash", .ofOption reportHash)],
      (payoutId.toList.map fun pid =>
        query s!"Inspect pull-payout record #{pid}" "refract_bounty" cid "get_payout"
          [("payout_id", toString pid)]) ++
      reportHash.toList.map fun hash =>
        query s!"Inspect disclosure award record {hash}" "refract_bounty" cid "get_award"
          [("report_hash", hash)]⟩
  | .bountyStatus network dryRun => do
    let cid ← deployment.requireContract "refract_bounty"
    let query := queryStep network deployment
    pure ⟨"bounty", "status", network, dryRun, false,
      .object [("contract", .string "refract_bounty"), ("contract_id", .string cid)],
      [query "Query total bounty escrow balance" "refract_bounty" cid "balance" [],
        query "Query unreserved available bounty balance" "refract_bounty" cid
          "available_balance" []]⟩
  | .grantsApproveMilestone network source caller grantId milestoneIndex dryRun
      confirmMainnet => do
    requireConfirmation network confirmMainnet
    let cid ← deployment.requireContract "refract_grants"
    pure ⟨"grants", "approve-milestone", network, dryRun, true,
      .object [("contract", .string "refract_grants"), ("contract_id", .string cid),
        ("caller", .string caller), ("grant_id", .ofNat grantId),
        ("milestone_index", .ofNat milestoneIndex)],
      [sendStep network deployment s!"Confirm milestone #{milestoneIndex} for grant #{grantId}"
        "refract_grants" cid source "confirm_milestone"
        [("caller", caller), ("grant_id", toString grantId),
          ("milestone_index", toString milestoneIndex)]]⟩
  | .grantsStatus network grantId dryRun => do
    let cid ← deployment.requireContract "refract_grants"
    let query := queryStep network deployment
    pure ⟨"grants", "status", network, dryRun, false,
      .object [("contract", .string "refract_grants"), ("contract_id", .string cid),
        ("grant_id", (grantId.map Value.ofNat).getD .null)],
      [query "Query total accounted grant liabilities" "refract_grants" cid
          "accounted_liabilities" []] ++
      grantId.toList.map fun gid =>
        query s!"Query claimable balance for grant #{gid}" "refract_grants" cid "claimable"
          [("grant_id", toString gid)]⟩
  | .treasuryDeposit network source sender token amount1e7 dryRun confirmMainnet => do
    requireConfirmation network confirmMainnet
    let treasuryCid ← deployment.requireContract "refract_treasury"
    let tokenCid ← tokenOr deployment token
    pure ⟨"treasury", "deposit", network, dryRun, true,
      .object [("contract", .string "refract_treasury"),
        ("treasury_contract_id", .string treasuryCid), ("token_contract_id", .string tokenCid),
        ("from", .string sender), ("amount_1e7", .string (toString amount1e7)),
        ("amount_decimal", .string (formatAmount1e7 amount1e7))],
      [sendStep network deployment
        (s!"Deposit {formatAmount1e7 amount1e7} ({amount1e7} stroops) into refract_treasury " ++
          "via token transfer")
        "stellar_asset_token" tokenCid source "transfer"
        [("from", sender), ("to", treasuryCid), ("amount", toString amount1e7)]]⟩
  | .treasuryProposeWithdrawal network source requester payee token amount1e7 purposeHash dryRun
      confirmMainnet => do
    requireConfirmation network confirmMainnet
    let treasuryCid ← deployment.requireContract "refract_treasury"
    let tokenCid ← tokenOr deployment token
    pure ⟨"treasury", "propose-withdrawal", network, dryRun, true,
      .object [("contract", .string "refract_treasury"), ("contract_id", .string treasuryCid),
        ("requester", .string requester), ("payee", .string payee), ("token", .string tokenCid),
        ("amount_1e7", .string (toString amount1e7)),
        ("amount_decimal", .string (formatAmount1e7 amount1e7)),
        ("purpose_hash", .string purposeHash)],
      [sendStep network deployment
        (s!"Submit payment request for {formatAmount1e7 amount1e7} ({amount1e7} stroops) " ++
          s!"to {payee}")
        "refract_treasury" treasuryCid source "submit_payment_request"
        [("requester", requester), ("payee", payee), ("token", tokenCid),
          ("amount", toString amount1e7), ("purpose_hash", purposeHash)]]⟩
  | .treasuryStatus network requestId dryRun => do
    let cid ← deployment.requireContract "refract_treasury"
    let query := queryStep network deployment
    pure ⟨"treasury", "status", network, dryRun, false,
      .object [("contract", .string "refract_treasury"), ("contract_id", .string cid),
        ("request_id", (requestId.map Value.ofNat).getD .null)],
      [query "Query treasury admin/timelock address" "refract_treasury" cid "admin" []] ++
      requestId.toList.map fun rid =>
        query s!"Query payment request #{rid}" "refract_treasury" cid "get_payment_request"
          [("id", toString rid)]⟩

def buildPlan (cmd : OperatorCommand) (dir : DeploymentsDir) : Call OperatorPlan := do
  let deployment ← NetworkDeployment.load dir cmd.network
  planOn deployment cmd

/-! ### Execution -/

/-- What a program that ran leaves, decoded. -/
structure Output where
  success : Bool
  stdout : String
  stderr : String

structure StepResult where
  step : String
  function : String
  result : String

/-- Where plans are executed. What a program gives may depend on all that were run before. -/
structure Machine where
  /-- `STELLAR_BIN`. -/
  stellarBin : Option String
  run : List (List String) → List String → Except String Output
  /-- `serde_json::to_string_pretty`, or nothing. -/
  printPlan : OperatorPlan → String
  printResults : OperatorPlan → List StepResult → String

section Execute
variable (m : Machine) (bin : String)

/-- The loop over the steps, with the programs run and the results so far. -/
def runSteps : List InvokeStep → List (List String) → List StepResult →
    List (List String) × Call (List StepResult)
  | [], ran, results => (ran, pure results)
  | step :: steps, ran, results =>
    let argv := bin :: step.toStellarArgs
    match m.run ran argv with
    | .error e => (ran ++ [argv], .error (.error (.executionFailed
        s!"failed to invoke `{bin}` (pass `--dry-run` to preview commands): {e}")))
    | .ok output =>
      if output.success then
        runSteps steps (ran ++ [argv])
          (results ++ [⟨step.description, step.function, trim output.stdout⟩])
      else (ran ++ [argv], .error (.error (.executionFailed
        s!"`{step.function}` failed: {trim output.stderr}")))

end Execute

/-- The lines of a step in a dry run. -/
def dryRunLines (entry : InvokeStep × ℕ) : String :=
  s!"  {entry.2 + 1}. {entry.1.description}\n     $ {entry.1.toShellCommand}\n"

/-- Execute or dry-run a plan: the programs run, and what is printed. -/
def executePlan (m : Machine) (plan : OperatorPlan) (jsonOutput : Bool) :
    List (List String) × Call String :=
  if plan.dryRun then
    if jsonOutput then ([], pure (m.printPlan plan))
    else
      let heading := s!"[DRY RUN] {plan.domain} {plan.action} (network: {plan.network.asStr})\n"
      ([], pure (heading ++ String.join (plan.steps.zipIdx.map dryRunLines)))
  else
    let done := runSteps m (m.stellarBin.getD "stellar") plan.steps [] []
    (done.1, do
      let results ← done.2
      if jsonOutput then pure (m.printResults plan results)
      else
        let heading := s!"Executed {plan.domain} {plan.action} on {plan.network.asStr}:\n"
        pure (heading ++
          String.join (results.map fun item => s!"  - {item.step}: {item.result}\n")))

end RefractContracts.Operator
