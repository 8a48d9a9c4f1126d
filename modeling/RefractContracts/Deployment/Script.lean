import RefractContracts.Host.Crash
import RefractContracts.Scripts.Json
import RefractContracts.Scripts.Strkey

/-! The deployment script. A run deploys the contracts of a plan, initialises them and makes the
calls that wire them, and records each step in the registry file before it takes the next; then it
reads the file again and verifies it against the chain. A run works on the chain and on the file,
which outlive it, and may be cut off anywhere: then a transaction may be on the chain without a
record, and a file that was being written cannot be read. What the CLI answers is a parameter; what
is logged before an exit is an error, any other exception a trap. -/

namespace RefractContracts.Deployment

open Host Scripts Script Method

/-! ### Contract ids -/

def strkeyEncode (versionByte : ℕ) (payload : Bytes) : String :=
  let body := .ofNat versionByte :: payload
  .ofList (b32encode (body ++ packChecksum (crc16Xmodem body)))

/-- The payload of a strkey; `none` is an exception. -/
def strkeyDecode (key : String) : Option Bytes := do
  let raw ← b32decode key.toList
  let body := raw.take (raw.length - 2)
  if raw.length < 2 ∨ raw.drop (raw.length - 2) ≠ packChecksum (crc16Xmodem body) then none
  else some body.tail

section Ids
variable (sha256 : Bytes → Digest32)

def saltFor (name : String) : Bytes := (sha256 (encode ("refract:" ++ name))).toList

/-- What the network hashes to the id of a contract. -/
def idPreimage (account salt : Bytes) (passphrase : String) : Bytes :=
  beBytes 4 8 ++ (sha256 (encode passphrase)).toList ++ beBytes 4 0 ++ beBytes 4 0 ++ beBytes 4 0 ++
    account ++ salt

def contractIdFor (deployer : String) (salt : Bytes) (passphrase : String) : Option String := do
  let account ← strkeyDecode deployer
  some (strkeyEncode versionContract (sha256 (idPreimage sha256 account salt passphrase)).toList)

end Ids

/-! ### Plans -/

section Plans
variable (py : Python)

structure ContractConfig where
  name : String
  init : Json py
  checks : Json py

structure WiringConfig where
  id : String
  contract : String
  fn : String
  args : Json py

structure NetworkConfig where
  rpcUrl : String
  networkPassphrase : String
  params : Dict String (Json py)

structure Config where
  networks : Dict String (NetworkConfig py)
  contracts : List (ContractConfig py)
  wiring : List (WiringConfig py)
  selected : Option (List (ContractConfig py))

structure Resolver where
  params : Dict String (Json py)
  deployer : String
  ids : Dict String String

/-- What Python writes of a value: `json.dumps`, with `sort_keys`, and `repr`. -/
structure Writer where
  dumps : Json py → String
  dumpsSorted : Json py → String
  repr : Json py → String

end Plans

/-- A step that may exit with what it logged. -/
abbrev Exits (α : Type) := Outcome (List String) α

def die {α : Type} (msg : String) : Exits α := .error (.error [msg])

/-- A subscript, or any other expression that raises where there is no value. -/
def orRaise {α : Type} : Option α → Exits α
  | some a => .ok a
  | none => .error .trap

theorem orRaise_eq_ok {α : Type} {o : Option α} {a : α} : orRaise o = .ok a ↔ o = some a := by
  cases o <;> simp [orRaise]

variable {py : Python}

/-- `s[0] == c`, and the rest. -/
def afterSign (c : Char) (s : String) : Option String :=
  match s.toList with
  | d :: rest => if d = c then some (.ofList rest) else none
  | [] => none

/-- References are replaced by what they stand for; `frames` is what Python's stack has room for. -/
def Resolver.resolve (r : Resolver py) : ℕ → Json py → Exits (Json py)
  | 0, _ => .error .trap
  | frames + 1, .list items => Json.list <$> items.mapM (r.resolve frames)
  | frames + 1, .dict pairs =>
    Json.dict <$> (Dict.ofList pairs).entries.mapM fun e => (e.1, ·) <$> r.resolve frames e.2
  | frames + 1, .value (.str s) =>
    match afterSign '@' s with
    | some name =>
      match r.ids.get? name with
      | some id => .ok (.str id)
      | none => die ("unknown contract reference " ++ s)
    | none =>
      if s = "$deployer" then .ok (.str r.deployer)
      else
        match afterSign '$' s with
        | some param =>
          match r.params.get? param with
          | some v => r.resolve frames v
          | none => die ("unknown param " ++ s)
        | none => .ok (.str s)
  | _ + 1, v => .ok v

/-- A call of a function, with its arguments as the CLI takes them. -/
structure Call where
  contract : String
  fn : String
  args : List (String × String)
  deriving DecidableEq

section Arguments
variable (wr : Writer py)

def cliValue : Json py → String
  | .value v => v.text
  | v => wr.dumps v

/-- `args.items()` as options of the CLI. -/
def cliArgs (args : Json py) : Exits (List (String × String)) :=
  match args with
  | .dict pairs => .ok ((Dict.ofList pairs).entries.map fun e => ("--" ++ e.1, cliValue wr e.2))
  | _ => .error .trap

/-- The plan restricted to the contracts named in `only`. -/
def select (cfg : Config py) (only : Option String) : Exits (Config py) :=
  let names := ((only.getD "").toList.splitOn ',').map strip |>.filter (· ≠ [])
  if only.getD "" = "" then .ok cfg
  else
    let unknown := (names.map String.ofList).dedup.filter (· ∉ cfg.contracts.map (·.name))
    if unknown ≠ [] then
      die ("--only: unknown contracts " ++
        wr.repr (.list ((unknown.insertionSort (· ≤ ·)).map Json.str)))
    else
      .ok { cfg with
        selected := some (cfg.contracts.filter fun c => c.name.toList ∈ names)
        wiring := cfg.wiring.filter fun w => w.contract.toList ∈ names }

end Arguments

def Config.chosen (cfg : Config py) : List (ContractConfig py) := cfg.selected.getD cfg.contracts

def networkCfg (wr : Writer py) (cfg : Config py) (network : String) : Exits (NetworkConfig py) :=
  match cfg.networks.get? network with
  | some net => .ok net
  | none => die ("network " ++ wr.repr (.str network) ++ " not in config.json")

def buildPlan (sha256 : Bytes → Digest32) (cfg : Config py) (net : NetworkConfig py)
    (deployer nativeSac : String) : Exits (Resolver py) := do
  let ids ← cfg.contracts.mapM fun c => do
    let id ← orRaise (contractIdFor sha256 deployer (saltFor sha256 c.name) net.networkPassphrase)
    return (c.name, id)
  return { params := net.params.insert "native_sac" (.str nativeSac), deployer, ids := .ofList ids }

/-! ### The chain and the registry -/

/-- What the deployer and others have put on the chain: the code of a contract and the codes it had
before it was upgraded, how it was last initialised and whether by the deployer, and the other calls
that were accepted. -/
structure Chain where
  asset : Bool
  code : String → Option Bytes
  replaced : String → List Bytes
  inits : String → Option (List (String × String) × Bool)
  calls : List Call
  others : List Call

namespace Chain

def deployed (c : Chain) (id : String) (wasm : Bytes) : Chain :=
  { c with code := Function.update c.code id (some wasm) }

/-- A contract that there is gets other code. -/
def upgraded (c : Chain) (id : String) (wasm : Bytes) : Chain :=
  match c.code id with
  | some old => { c with
    code := Function.update c.code id (some wasm)
    replaced := Function.update c.replaced id (c.replaced id ++ [old]) }
  | none => c

/-- The code is that of the contract, or was until it was upgraded. -/
def Had (c : Chain) (id : String) (wasm : Bytes) : Prop :=
  c.code id = some wasm ∨ wasm ∈ c.replaced id

def initialized (c : Chain) (id : String) (args : List (String × String)) (ours : Bool) : Chain :=
  { c with inits := Function.update c.inits id (some (args, ours)) }

def called (c : Chain) (call : Call) : Chain := { c with calls := c.calls ++ [call] }

end Chain

/-- What the CLI prints, or its standard error if it fails. -/
abbrev Proc := Except String String

/-- The CLI under one identity and on one network. A contract that was deployed is named in the
last line of what is printed. -/
structure Stellar where
  address : Proc
  nativeSac : Proc
  deployAsset : Chain → Proc
  fetchesAsset : Chain → Bool
  fetch : Chain → String → Option Bytes
  deploy : Chain → Bytes → Bytes → Proc
  initialise : Chain → String → List (String × String) → Proc
  invoke : Chain → Call → Proc
  view : Chain → String → String → Proc

structure Entry (py : Python) where
  contractId : Option String
  wasmSha256 : Option String
  initialized : Bool
  initArgs : Option (Json py)

structure Registry (py : Python) where
  deployer : Option String
  contracts : Dict String (Entry py)
  wiringDone : List String

inductive File (py : Python) where
  | absent
  | torn
  | saved (reg : Registry py)

structure World (py : Python) where
  chain : Chain
  file : File py

abbrev Action (py : Python) (α : Type) := Script (World py) (List String) α

def Registry.empty : Registry py := ⟨none, .empty, []⟩

/-- What a run reads from the file: a file cut off while it was written is no JSON. -/
def File.registry? : File py → Option (Registry py)
  | .absent => some .empty
  | .torn => none
  | .saved reg => some reg

def loadRegistry : Action py (Registry py) := look fun w => orRaise w.file.registry?

def saveRegistry (reg : Registry py) : Action py Unit :=
  write (fun w => ({ w with file := .saved reg }, .ok ())) fun w => { w with file := .torn }

/-- A transaction, with what it does to the chain if it is accepted. If the script is interrupted
it may still have gone through. -/
def submit (answer : Chain → Proc) (effect : Chain → String → Chain) : Action py Proc :=
  write (fun w => match answer w.chain with
    | .ok out => ({ w with chain := effect w.chain out }, .ok (.ok out))
    | .error stderr => (w, .ok (.error stderr)))
    fun w => match answer w.chain with
    | .ok out => { w with chain := effect w.chain out }
    | .error _ => w

/-! ### Commands of the CLI -/

def stripped (s : String) : String := .ofList (strip s.toList)

/-- `proc.stdout` of a command that is checked. -/
def checked (command : String) : Proc → Exits String
  | .ok out => .ok out
  | .error stderr => die ("stellar " ++ command ++ " failed:\n" ++ stripped stderr)

/-- `t in s`. -/
def contains (s t : String) : Bool := t.toList <:+: s.toList

def alreadyInitialized (stderr : String) : Bool :=
  contains stderr "Error(Contract, #1)" ∨ contains stderr.toLower "already initialized"

namespace Stellar
variable (cli : Stellar)

def ensureNativeSac : Action py String := do
  let sac ← check (stripped <$> checked "contract id" cli.nativeSac)
  if ← look fun w => .ok (cli.fetchesAsset w.chain) then
    return sac
  let proc ← submit cli.deployAsset fun chain _ => { chain with asset := true }
  match proc with
  | .ok _ => return sac
  | .error stderr =>
    if ¬ contains stderr "ExistingValue" then
      check (die ("could not deploy native asset contract:\n" ++ stripped stderr))
    return sac

def fetchWasmSha256 (sha256 : Bytes → Digest32) (id : String) : Action py (Option String) :=
  look fun w => .ok ((cli.fetch w.chain id).map fun wasm => hexdigest (sha256 wasm))

def deployWasm (salt wasm : Bytes) : Action py String := do
  let proc ← submit (cli.deploy · salt wasm) fun chain id => chain.deployed id wasm
  check (checked "contract deploy" proc)

def initializeContract (id : String) (args : List (String × String)) : Action py Proc :=
  submit (cli.initialise · id args) fun chain _ => chain.initialized id args true

def invokeCall (call : Call) : Action py String := do
  let proc ← submit (cli.invoke · call) fun chain _ => chain.called call
  check (checked "contract invoke" proc)

end Stellar

/-! ### The commands of the script -/

/-- How the script is started: with what identity, on what network and with what build. -/
structure Args where
  cli : Stellar
  network : String
  only : Option String
  wasmDir : String
  manifest : Option (List (String × String))
  wasm : String → Option Bytes

def noneText : Option String → String
  | some s => s
  | none => "None"

section Commands
variable (sha256 : Bytes → Digest32) (wr : Writer py) (frames : ℕ) (args : Args)

def Registry.put (reg : Registry py) (name : String) (e : Entry py) : Registry py :=
  { reg with contracts := reg.contracts.insert name e }

/-- The entry of a contract, `{}` if it has none. -/
def Registry.entry (reg : Registry py) (name : String) : Entry py :=
  (reg.contracts.get? name).getD ⟨none, none, false, none⟩

/-- The hash of the code of a contract, which is deployed if there is none. -/
def ensureDeployed (name cid expected : String) : Action py String := do
  match ← args.cli.fetchWasmSha256 sha256 cid with
  | some onChain => return onChain
  | none =>
    let wasm ← check (orRaise (args.wasm (name ++ ".wasm")))
    let actual := hexdigest (sha256 wasm)
    if actual ≠ expected then
      check (die (name ++ ": " ++ args.wasmDir ++ "/" ++ name ++ ".wasm sha256 " ++ actual ++
        " != manifest " ++ expected))
    let got ← args.cli.deployWasm (saltFor sha256 name) wasm
    if got ≠ cid then
      check (die (name ++ ": deployed at " ++ got ++ ", expected " ++ cid))
    return expected

/-- 1. Deploy if absent. -/
def deployOne (plan : Resolver py) (manifest : Dict String String) (reg : Registry py)
    (c : ContractConfig py) : Action py (Registry py) := do
  let cid ← check (orRaise (plan.ids.get? c.name))
  let some expected := manifest.get? (c.name ++ ".wasm")
    | check (die (c.name ++ ".wasm is not in " ++ args.wasmDir ++ "/manifest.json"))
  let entry := reg.entry c.name
  if ¬ (entry.contractId = none ∨ entry.contractId = some cid) then
    check (die (c.name ++ ": registry id " ++ noneText entry.contractId ++
      " != deterministic id " ++ cid))
  let onChain ← ensureDeployed sha256 args c.name cid expected
  if onChain ≠ expected then
    check (die (c.name ++ ": on-chain wasm " ++ onChain ++ " != manifest " ++ expected ++
      "; refusing to configure"))
  let reg := reg.put c.name { entry with contractId := some cid, wasmSha256 := some expected }
  saveRegistry reg
  return reg

/-- 2. Initialise once. -/
def initializeOne (plan : Resolver py) (reg : Registry py) (c : ContractConfig py) :
    Action py (Registry py) := do
  let entry ← check (orRaise (reg.contracts.get? c.name))
  let initArgs ← check (plan.resolve frames c.init)
  if entry.initialized then
    return reg
  let cid ← check (orRaise (plan.ids.get? c.name))
  let options ← check (cliArgs wr initArgs)
  match ← args.cli.initializeContract cid options with
  | .ok _ => pure ()
  | .error stderr =>
    if ¬ alreadyInitialized stderr then
      check (die (c.name ++ ".initialize failed:\n" ++ stripped stderr))
  let reg := reg.put c.name { entry with initialized := true, initArgs := some initArgs }
  saveRegistry reg
  return reg

/-- The call that a wiring step makes. -/
def Resolver.callOf (plan : Resolver py) (w : WiringConfig py) : Exits Call := do
  let cid ← orRaise (plan.ids.get? w.contract)
  let value ← plan.resolve frames w.args
  let options ← cliArgs wr value
  return ⟨cid, w.fn, options⟩

/-- 3. Wire. -/
def wireOne (plan : Resolver py) (reg : Registry py) (w : WiringConfig py) :
    Action py (Registry py) := do
  if w.id ∈ reg.wiringDone then
    return reg
  let call ← check (plan.callOf wr frames w)
  discard (args.cli.invokeCall call)
  let reg := { reg with wiringDone := reg.wiringDone ++ [w.id] }
  saveRegistry reg
  return reg

/-- `_norm`. -/
def norm (v : Json py) : String :=
  match v with
  | .value v =>
    .ofList (((strip v.text.toList).dropWhile (· = '"')).rdropWhile (· = '"'))
  | v => wr.dumpsSorted v

/-- A view answers what the plan expects. -/
def checkView (plan : Resolver py) (name id : String) (view : String × Json py) :
    Action py (List String) := do
  let value ← check (plan.resolve frames view.2)
  let want := norm wr value
  let got ← look fun w => .ok (match args.cli.view w.chain id view.1 with
    | .ok out => norm wr (Json.str out : Json py)
    | .error stderr => "<error: " ++ .ofList ((strip stderr.toList).take 80) ++ ">")
  if got ≠ want then
    return [name ++ "." ++ view.1 ++ "() = " ++ got ++ ", expected " ++ want]
  return []

/-- `c.get("checks", {}).items()`. -/
def viewsOf (checks : Json py) : Exits (List (String × Json py)) :=
  match checks with
  | .dict pairs => .ok (Dict.ofList pairs).entries
  | _ => .error .trap

/-- What is wrong with a contract. -/
def verifyOne (plan : Resolver py) (reg : Registry py) (failures : List String)
    (c : ContractConfig py) : Action py (List String) := do
  match reg.contracts.get? c.name with
  | none => return failures ++ [c.name ++ ": missing from registry"]
  | some entry =>
    let failures := if entry.initialized then failures
      else failures ++ [c.name ++ ": not initialised"]
    let cid ← check (orRaise entry.contractId)
    let onChain ← args.cli.fetchWasmSha256 sha256 cid
    let failures := if onChain = entry.wasmSha256 then failures
      else failures ++ [c.name ++ ": on-chain wasm " ++ noneText onChain ++ " != registry " ++
        noneText entry.wasmSha256]
    let views ← check (viewsOf c.checks)
    views.foldlM (fun failures view => do
      let failed ← checkView wr frames args plan c.name cid view
      return failures ++ failed) failures

def cmdVerify (cfg : Config py) : Action py Unit := do
  let net ← check (networkCfg wr cfg args.network)
  let reg ← loadRegistry
  if reg.contracts.entries = [] then
    check (die (args.network ++ ".json has no contracts"))
  let deployer ← check (orRaise reg.deployer)
  let ids ← check (reg.contracts.entries.mapM fun e => (e.1, ·) <$> orRaise e.2.contractId)
  let nativeSac ← check (stripped <$> checked "contract id" args.cli.nativeSac)
  let resolver : Resolver py :=
    { params := net.params.insert "native_sac" (.str nativeSac), deployer, ids := .ofList ids }
  let failures ← cfg.chosen.foldlM (verifyOne sha256 wr frames args resolver reg) []
  let failures := failures ++
    (cfg.wiring.filter fun w => w.id ∉ reg.wiringDone).map fun w => "wiring " ++ w.id ++ " not done"
  if failures ≠ [] then
    check (.error (.error failures))

/-- The registry a run starts from. A sandbox of another deployer is a new one. -/
def adopt (deployer : String) (reg : Registry py) : Exits (Registry py) :=
  match reg.deployer with
  | none => .ok { reg with deployer := some deployer }
  | some other =>
    if other = deployer then .ok reg
    else if args.network = "local" then .ok { Registry.empty with deployer := some deployer }
    else die ("registry was deployed by " ++ other ++ ", current identity is " ++ deployer)

/-- The three phases, each over the registry that the one before has left. -/
def carryOut (plan : Resolver py) (manifest : Dict String String) (cfg : Config py)
    (reg : Registry py) : Action py (Registry py) := do
  let reg ← cfg.chosen.foldlM (deployOne sha256 args plan manifest) reg
  let reg ← cfg.chosen.foldlM (initializeOne wr frames args plan) reg
  cfg.wiring.foldlM (wireOne wr frames args plan) reg

def cmdDeploy (cfg : Config py) : Action py Unit := do
  let net ← check (networkCfg wr cfg args.network)
  let deployer ← check (stripped <$> checked "keys address" args.cli.address)
  let nativeSac ← args.cli.ensureNativeSac
  let plan ← check (buildPlan sha256 cfg net deployer nativeSac)
  let some manifest := args.manifest
    | check (die (args.wasmDir ++ "/manifest.json missing — run scripts/wasm_manifest.py collect" ++
        " first"))
  let reg ← loadRegistry
  let reg ← check (adopt args deployer reg)
  discard (carryOut sha256 wr frames args plan (.ofList manifest) cfg reg)
  cmdVerify sha256 wr frames args cfg

/-- `deploy.py deploy`. -/
def deploy (cfg : Config py) : Action py Unit := do
  let cfg ← check (select wr cfg args.only)
  cmdDeploy sha256 wr frames args cfg

/-- What `deploy.py plan` prints of the contracts and of the calls. -/
structure PlanText (py : Python) where
  contracts : List (String × String × Json py)
  wiring : List (String × String × String × Json py)

def cmdPlan (cfg : Config py) (network deployer nativeSac : String) : Exits (PlanText py) := do
  let net ← networkCfg wr cfg network
  let plan ← buildPlan sha256 cfg net deployer nativeSac
  let contracts ← cfg.chosen.mapM fun c => do
    let id ← orRaise (plan.ids.get? c.name)
    let init ← plan.resolve frames c.init
    return (c.name, id, init)
  let wiring ← cfg.wiring.mapM fun w => do
    let id ← orRaise (plan.ids.get? w.contract)
    let value ← plan.resolve frames w.args
    return (w.id, id, w.fn, value)
  return ⟨contracts, wiring⟩

end Commands

end RefractContracts.Deployment
