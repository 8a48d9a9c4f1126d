import RefractContracts.Scripts.Collectors

/-! Reconciling a snapshot of contract state. Each contract of the snapshot is looked at in turn:
its entries first, then its token balances, and if these have no problem, what its collector
checks. The report has a line for each finding; the first problem fails it, and it stays failed. -/

namespace RefractContracts.Scripts.ContractState

open Host

variable {py : Python}

/-! ### Reports -/

structure Report where
  lines : List String
  failed : Bool
  warnings : ℕ
  deriving DecidableEq

/-- Lines are added, and what failed stays failed. -/
instance : Preorder Report where
  le r s := r.lines ⊆ s.lines ∧ (r.failed → s.failed)
  le_refl r := ⟨List.Subset.refl r.lines, id⟩
  le_trans _ _ _ h h' := ⟨List.Subset.trans h.1 h'.1, h'.2 ∘ h.2⟩

abbrev Reporting (α : Type) := Progress Report String α

def say (line : String) : Reporting Unit := modify fun r => { r with lines := r.lines ++ [line] }

def sayFail (line : String) : Reporting Unit :=
  modify fun r => { r with lines := r.lines ++ [line], failed := true }

def sayWarn (line : String) : Reporting Unit :=
  modify fun r => { r with lines := r.lines ++ [line], warnings := r.warnings + 1 }

def okLine (head text : String) : String := "  ok    " ++ head ++ ": " ++ text

def noteLine (head text : String) : String := "  note  " ++ head ++ ": " ++ text

def warnLine (head text : String) : String := "  WARN  " ++ head ++ ": " ++ text

def failLine (head text : String) : String := "  FAIL  " ++ head ++ ": " ++ text

def zeroNote (head item : String) : String := noteLine head (item ++ " has no entry; treated as 0")

def balanceNote (head token : String) : String :=
  noteLine head ("no balance entry for " ++ token ++ "; treated as 0")

/-! ### One contract -/

section Contract
variable (repr : Json py → String) (c : Json py)

def instanceProblems : Outcome String (List String) := do
  let inst ← c.field "instance"
  let status ← inst.field "status"
  return if status.isText "live" then [] else ["instance entry is " ++ status.text repr]

def entryProblem (e : Json py) : Outcome String (Option String) := do
  let status ← e.field "status"
  if status.isText "archived" then
    let key ← e.field "key"
    let ledger ← e.field "live_until_ledger"
    return some
      ("entry " ++ key.text repr ++ " is archived (live until " ++ ledger.text repr ++ ")")
  else
    return none

/-- What is wrong with the entries. -/
def problems : Outcome String (List String) := do
  let inst ← instanceProblems repr c
  let entries ← entriesOf c
  let archived ← entries.mapM (entryProblem repr)
  return inst ++ archived.reduceOption

/-- A balance, or what is wrong with it. -/
def tokenRow (head : String) (token : String × Json py) : Reporting (String × (String ⊕ ℤ)) := do
  let status ← token.2.field "status"
  if status.isText "live" then
    let amount ← amountOf token.2
    return (token.1, .inr amount)
  else if status.isText "missing" then
    say (balanceNote head token.1)
    return (token.1, .inr 0)
  else
    return (token.1, .inl ("balance of " ++ token.1 ++ " is " ++ status.text repr))

/-- The token balances in the order of their tokens. -/
def tokensOf : Outcome String (List (String × Json py)) := do
  let balances ← c.field "token_balances"
  let balances ← balances.pairs
  return sortedByKey balances.entries

def balancesOf (rows : List (String × (String ⊕ ℤ))) : Dict String ℤ :=
  .ofList (rows.filterMap fun row => row.2.getRight?.map (row.1, ·))

def balanceProblems (rows : List (String × (String ⊕ ℤ))) : List String :=
  rows.filterMap fun row => row.2.getLeft?

def sayCheck (head : String) (chk : Check) : Reporting Unit :=
  if chk.ok then say (okLine head (chk.check ++ ": " ++ chk.detail))
  else if chk.severity = .warning then sayWarn (warnLine head (chk.check ++ ": " ++ chk.detail))
  else sayFail (failLine head (chk.check ++ ": " ++ chk.detail))

/-- What the collector finds. -/
def collect (collector : Collector py) (head : String) (balances : Dict String ℤ) :
    Reporting Unit := do
  match collector.views c with
  | .error (.error message) => sayFail (failLine head message)
  | .error .trap => liftM (.error .trap : Outcome String Unit)
  | .ok none => say (okLine head "not initialized (no state)")
  | .ok (some views) =>
    (collector.assumedZero views).forM fun item => say (zeroNote head item)
    let checks ← collector.checks views balances
    checks.forM (sayCheck head)

/-- The kind of the contract, which has to have a collector. -/
def kindOf : Outcome String Kind := do
  let kind ← c.field "kind"
  match kind with
  | .value (.str name) => okOr (Kind.ofText name) ("unknown contract kind " ++ repr kind)
  | .value _ => .error (.error ("unknown contract kind " ++ repr kind))
  | _ => .error .trap

def headOf (name : String) : Outcome String String := do
  let id ← c.field "id"
  return name ++ " [" ++ id.text repr ++ "]"

end Contract

def reconcileContract (repr : Json py → String) (contracts : Json py) (name : String) :
    Reporting Unit := do
  let c ← contracts.field name
  let kind ← kindOf repr c
  let head ← headOf repr c name
  let problems ← problems repr c
  let tokens ← tokensOf c
  let rows ← tokens.mapM (tokenRow repr head)
  let problems := problems ++ balanceProblems rows
  if problems = [] then
    collect c (collectors repr kind) head (balancesOf rows)
  else
    problems.forM fun p => sayFail (failLine head p)

/-! ### The snapshot -/

def schemaVersion : ℤ := 1

/-- The sorted names; an item of a list or of a text is no name of a contract. -/
def contractNames (contracts : Json py) : Outcome String (List String) :=
  match contracts with
  | .dict pairs => .ok ((sortedByKey (Dict.ofList pairs).entries).map Prod.fst)
  | .list [] => .ok []
  | .value (.str "") => .ok []
  | _ => .error .trap

/-- The schema version, or why there is none. -/
def versionOf (snap : Json py) : Outcome String (Json py) :=
  match snap with
  | .dict _ => do
    okOr (← snap.get "schema_version") "not a contract-state snapshot (no schema_version)"
  | _ => .error (.error "not a contract-state snapshot (no schema_version)")

def reconcile (repr : Json py → String) (snap : Json py) : Outcome String Report := do
  let version ← versionOf snap
  bail (¬ version.isInt schemaVersion) ("unsupported schema_version " ++ repr version ++
    " (this tool reads " ++ toString schemaVersion ++ ")")
  let contracts ← snap.field "contracts"
  let names ← contractNames contracts
  let (_, report) ← (names.forM (reconcileContract repr contracts)).run ⟨[], false, 0⟩
  return report

end RefractContracts.Scripts.ContractState
