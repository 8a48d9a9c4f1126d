import RefractContracts.Operator.Amounts

/-! The operator's command line. Options are `--key value`, `--key=value` or one of four
switches; a value given twice counts as given last. A subcommand takes the options it knows
and ignores the others. -/

namespace RefractContracts.Operator

open Host
open Xtask (trim hexDecodes)

inductive Network where
  | local
  | testnet
  | mainnet
  deriving DecidableEq, Repr

inductive TrancheArg where
  | junior
  | senior
  deriving DecidableEq, Repr

/-! ### Values -/

/-- `to_ascii_lowercase`. -/
def toAsciiLowercase (s : String) : String := .ofList (s.toList.map Char.toLower)

def Network.parse (raw : String) : Call Network :=
  let name := toAsciiLowercase (trim raw)
  if name = "local" ∨ name = "standalone" then pure .local
  else if name = "testnet" then pure .testnet
  else if name = "mainnet" ∨ name = "public" then pure .mainnet
  else .error (.error (.invalidArgument
    s!"unknown network `{name}` (expected `local`, `testnet`, or `mainnet`)"))

def Network.asStr : Network → String
  | .local => "local"
  | .testnet => "testnet"
  | .mainnet => "mainnet"

def TrancheArg.parse (raw : String) : Call TrancheArg :=
  let name := toAsciiLowercase (trim raw)
  if name = "junior" then pure .junior
  else if name = "senior" then pure .senior
  else .error (.error (.invalidArgument
    s!"invalid tranche `{name}` (expected `junior` or `senior`)"))

def TrancheArg.scvalSymbol : TrancheArg → String
  | .junior => "Junior"
  | .senior => "Senior"

/-- A byte of a secret seed: `A` to `Z` and `2` to `7`. -/
def isSeedChar (c : Char) : Bool := ('A' ≤ c ∧ c ≤ 'Z') ∨ ('2' ≤ c ∧ c ≤ '7')

/-- The source is a key alias or a public address rather than a raw secret seed. -/
def validateSourceIdentity (source : String) : Call Unit := do
  let trimmed := (trim source).toList
  bail (trimmed = []) (.invalidArgument "`--source` identity cannot be empty")
  bail (byteLength trimmed = 56 ∧ trimmed.head? = some 'S' ∧ trimmed.all isSeedChar)
    .rawSecretKeyRejected

/-- An address or an alias. -/
def validateAddress (label addr : String) : Call Unit := do
  let trimmed := (trim addr).toList
  bail (trimmed = []) (.invalidArgument s!"`{label}` cannot be empty")
  bail (byteLength trimmed = 56 ∧ trimmed.head? = some 'S') .rawSecretKeyRejected

/-- `strip_prefix("0x")`, or the text itself. -/
def strip0x : List Char → List Char
  | '0' :: 'x' :: s => s
  | s => s

/-- A hash of 64 hex digits, in lower case. -/
def parseHex32 (label raw : String) : Call String := do
  let trimmed := String.ofList (strip0x (trim raw).toList)
  bail (byteLength trimmed.toList ≠ 64 ∨ hexDecodes trimmed = false)
    (.invalidArgument s!"`{label}` must be a 64-character hex string (32 bytes)")
  pure (toAsciiLowercase trimmed)

/-! ### Options -/

/-- The options that take no value. -/
def switches : List String := ["dry-run", "confirm-mainnet", "json", "help"]

/-- `strip_prefix("--")`. -/
def stripDashes (tok : String) : Option (List Char) :=
  match tok.toList with
  | '-' :: '-' :: rest => some rest
  | _ => none

structure FlagParser where
  flags : Std.TreeMap String String := ∅
  bools : Std.TreeMap String Bool := ∅

namespace FlagParser

/-- The loop over the arguments. -/
def parseFrom (fp : FlagParser) : List String → Call FlagParser
  | [] => pure fp
  | tok :: args =>
    match stripDashes tok with
    | none => .error (.error (.invalidArgument
        s!"unexpected positional argument `{tok}` (all options must use `--flag <value>`)"))
    | some rest =>
      match splitOnce '=' rest with
      | some (k, v) =>
        parseFrom { fp with flags := fp.flags.insert (.ofList k) (.ofList v) } args
      | none =>
        let key := String.ofList rest
        if key ∈ switches then parseFrom { fp with bools := fp.bools.insert key true } args
        else
          match args with
          | [] => .error (.error (.invalidArgument s!"missing value for `--{key}`"))
          | val :: args => parseFrom { fp with flags := fp.flags.insert key val } args

def parse (args : List String) : Call FlagParser := parseFrom {} args

def require (fp : FlagParser) (key : String) : Call String :=
  okOr fp.flags[key]? (.invalidArgument s!"missing required flag `--{key}`")

def optional (fp : FlagParser) (key : String) : Option String := fp.flags[key]?

def hasBool (fp : FlagParser) (key : String) : Bool := fp.bools.getD key false

def network (fp : FlagParser) : Call Network :=
  match fp.optional "network" with
  | some n => Network.parse n
  | none => pure .local

/-- An optional value that is parsed if it is there. -/
def optionalWith {α : Type} (fp : FlagParser) (key : String) (parse : String → Call α) :
    Call (Option α) :=
  match fp.optional key with
  | some v => do return some (← parse v)
  | none => pure none

end FlagParser

/-! ### Subcommands -/

inductive OperatorCommand where
  | backstopStake (network : Network) (source staker : String) (tranche : Option TrancheArg)
      (amount1e7 : ℤ) (dryRun confirmMainnet : Bool)
  | backstopUnstake (network : Network) (source staker : String) (tranche : Option TrancheArg)
      (shares1e7 : ℤ) (dryRun confirmMainnet : Bool)
  | backstopStatus (network : Network) (staker : Option String) (dryRun : Bool)
  | bountyFund (network : Network) (source sender : String) (amount1e7 : ℤ)
      (dryRun confirmMainnet : Bool)
  | bountyCheckClaim (network : Network) (payoutId : Option ℕ) (reportHash : Option String)
      (dryRun : Bool)
  | bountyStatus (network : Network) (dryRun : Bool)
  | grantsApproveMilestone (network : Network) (source caller : String)
      (grantId milestoneIndex : ℕ) (dryRun confirmMainnet : Bool)
  | grantsStatus (network : Network) (grantId : Option ℕ) (dryRun : Bool)
  | treasuryDeposit (network : Network) (source sender : String) (token : Option String)
      (amount1e7 : ℤ) (dryRun confirmMainnet : Bool)
  | treasuryProposeWithdrawal (network : Network) (source requester payee : String)
      (token : Option String) (amount1e7 : ℤ) (purposeHash : String)
      (dryRun confirmMainnet : Bool)
  | treasuryStatus (network : Network) (requestId : Option ℕ) (dryRun : Bool)
  deriving DecidableEq

namespace OperatorCommand

def isMutating : OperatorCommand → Bool
  | backstopStake .. | backstopUnstake .. | bountyFund .. | grantsApproveMilestone ..
  | treasuryDeposit .. | treasuryProposeWithdrawal .. => true
  | _ => false

def network : OperatorCommand → Network
  | backstopStake n .. | backstopUnstake n .. | backstopStatus n .. | bountyFund n ..
  | bountyCheckClaim n .. | bountyStatus n .. | grantsApproveMilestone n .. | grantsStatus n ..
  | treasuryDeposit n .. | treasuryProposeWithdrawal n .. | treasuryStatus n .. => n

/-- The identity that signs, of the commands that send a transaction. -/
def source : OperatorCommand → Option String
  | backstopStake _ source .. | backstopUnstake _ source .. | bountyFund _ source ..
  | grantsApproveMilestone _ source .. | treasuryDeposit _ source ..
  | treasuryProposeWithdrawal _ source .. => some source
  | _ => none

def dryRun : OperatorCommand → Bool
  | backstopStake _ _ _ _ _ d _ | backstopUnstake _ _ _ _ _ d _ | backstopStatus _ _ d
  | bountyFund _ _ _ _ d _ | bountyCheckClaim _ _ _ d | bountyStatus _ d
  | grantsApproveMilestone _ _ _ _ _ d _ | grantsStatus _ _ d | treasuryDeposit _ _ _ _ _ d _
  | treasuryProposeWithdrawal _ _ _ _ _ _ _ d _ | treasuryStatus _ _ d => d

def confirmMainnet : OperatorCommand → Bool
  | backstopStake _ _ _ _ _ _ c | backstopUnstake _ _ _ _ _ _ c | bountyFund _ _ _ _ _ c
  | grantsApproveMilestone _ _ _ _ _ _ c | treasuryDeposit _ _ _ _ _ _ c
  | treasuryProposeWithdrawal _ _ _ _ _ _ _ _ c => c
  | _ => false

end OperatorCommand

section Parse
variable (fp : FlagParser)

/-- The identity that signs. -/
def requireSource : Call String := do
  let source ← fp.require "source"
  validateSourceIdentity source
  pure source

/-- The address of a role, the source where none is given. -/
def roleOr (key label source : String) : Call String := do
  let addr := (fp.optional key).getD source
  validateAddress label addr
  pure addr

/-- An optional address. -/
def optionalAddress (key label : String) : Call (Option String) :=
  fp.optionalWith key fun addr => do
    validateAddress label addr
    pure addr

/-- An optional `u64`. -/
def optionalId (key : String) : Call (Option ℕ) :=
  fp.optionalWith key fun v => okOr (parseUnsigned maxU64 v.toList)
    (.invalidArgument s!"invalid `--{key}` `{v}`")

/-- The subcommand of a domain and an action. -/
def parseSubcommand (domain action : String) (network : Network) (dryRun confirmMainnet : Bool) :
    Call OperatorCommand :=
  match domain, action with
  | "backstop", "stake" => do
    let source ← requireSource fp
    let staker ← roleOr fp "staker" "--staker" source
    let tranche ← fp.optionalWith "tranche" TrancheArg.parse
    let amount1e7 ← parseAmount1e7 (← fp.require "amount") true
    pure (.backstopStake network source staker tranche amount1e7 dryRun confirmMainnet)
  | "backstop", "unstake" => do
    let source ← requireSource fp
    let staker ← roleOr fp "staker" "--staker" source
    let tranche ← fp.optionalWith "tranche" TrancheArg.parse
    let shares1e7 ← parseAmount1e7 (← fp.require "shares") true
    pure (.backstopUnstake network source staker tranche shares1e7 dryRun confirmMainnet)
  | "backstop", "status" => do
    let staker ← optionalAddress fp "staker" "--staker"
    pure (.backstopStatus network staker dryRun)
  | "bounty", "fund" => do
    let source ← requireSource fp
    let sender ← roleOr fp "from" "--from" source
    let amount1e7 ← parseAmount1e7 (← fp.require "amount") true
    pure (.bountyFund network source sender amount1e7 dryRun confirmMainnet)
  | "bounty", "check-claim" => do
    let payoutId ← optionalId fp "payout-id"
    let reportHash ← fp.optionalWith "report-hash" (parseHex32 "--report-hash")
    bail (payoutId.isNone ∧ reportHash.isNone) (.invalidArgument
      "`bounty check-claim` requires `--payout-id <u64>` or `--report-hash <64-hex>`")
    pure (.bountyCheckClaim network payoutId reportHash dryRun)
  | "bounty", "status" => pure (.bountyStatus network dryRun)
  | "grants", "approve-milestone" => do
    let source ← requireSource fp
    let caller ← roleOr fp "caller" "--caller" source
    let grantId ← okOr (parseUnsigned maxU64 (← fp.require "grant-id").toList)
      (.invalidArgument "invalid `--grant-id`")
    let milestoneIndex ← okOr (parseUnsigned maxU32 (← fp.require "milestone-index").toList)
      (.invalidArgument "invalid `--milestone-index`")
    pure (.grantsApproveMilestone network source caller grantId milestoneIndex dryRun
      confirmMainnet)
  | "grants", "status" => do
    let grantId ← optionalId fp "grant-id"
    pure (.grantsStatus network grantId dryRun)
  | "treasury", "deposit" => do
    let source ← requireSource fp
    let sender ← roleOr fp "from" "--from" source
    let token ← optionalAddress fp "token" "--token"
    let amount1e7 ← parseAmount1e7 (← fp.require "amount") true
    pure (.treasuryDeposit network source sender token amount1e7 dryRun confirmMainnet)
  | "treasury", "propose-withdrawal" => do
    let source ← requireSource fp
    let requester ← roleOr fp "requester" "--requester" source
    let payee ← fp.require "payee"
    validateAddress "--payee" payee
    let token ← optionalAddress fp "token" "--token"
    let amount1e7 ← parseAmount1e7 (← fp.require "amount") true
    let purposeHash ← parseHex32 "--purpose-hash" (← fp.require "purpose-hash")
    pure (.treasuryProposeWithdrawal network source requester payee token amount1e7 purposeHash
      dryRun confirmMainnet)
  | "treasury", "status" => do
    let requestId ← optionalId fp "request-id"
    pure (.treasuryStatus network requestId dryRun)
  | _, _ => .error (.error (.invalidArgument s!"unknown operator subcommand `{domain} {action}`"))

end Parse

/-- The arguments without a leading `operator`. -/
def operatorSlice (args : List String) : List String :=
  if args.head? = some "operator" then args.tail else args

/-- Parse a command line into the command, the deployments directory and the output format. -/
def parseOperatorArgs (args : List String) : Call (OperatorCommand × Option String × Bool) :=
  match operatorSlice args with
  | domain :: action :: options => do
    let fp ← FlagParser.parse options
    let deploymentsDir := fp.optional "deployments-dir"
    let jsonOutput := fp.hasBool "json"
    let network ← fp.network
    let dryRun := fp.hasBool "dry-run"
    let confirmMainnet := fp.hasBool "confirm-mainnet"
    let cmd ← parseSubcommand fp domain action network dryRun confirmMainnet
    pure (cmd, deploymentsDir, jsonOutput)
  | _ => .error (.error (.invalidArgument
      "expected `<backstop|bounty|grants|treasury> <subcommand> [options]`"))

end RefractContracts.Operator
