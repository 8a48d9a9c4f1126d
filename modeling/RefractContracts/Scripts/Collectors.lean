import RefractContracts.Host.Progress
import RefractContracts.Scripts.Json

/-! Collectors of contract state. A collector makes the views of a contract from its snapshot, and
checks them against the token balances. A persistent counter without an entry counts as zero, and
its name is kept with the views. A `SnapshotError` is an error, any other exception a trap. -/

namespace RefractContracts.Scripts.ContractState

open Host

/-! ### Checks -/

inductive Severity where
  | error
  | warning
  deriving DecidableEq

structure Check where
  check : String
  ok : Bool
  detail : String
  severity : Severity := .error
  deriving DecidableEq

def intText : Option ℤ → String
  | some n => toString n
  | none => "None"

/-- Holdings cover liabilities; a surplus is a warning. -/
def covered (name : String) (owed held : Option ℤ) : Outcome String Check :=
  match held, owed with
  | none, owed =>
    .ok ⟨name, false, "token balance unavailable (owed " ++ intText owed ++ ")", .error⟩
  | some _, none => .error .trap
  | some held, some owed =>
    if held < owed then
      .ok ⟨name, false, s!"held {held} < owed {owed} (short {owed - held})", .error⟩
    else if held > owed then
      .ok ⟨name, false, s!"held {held} > owed {owed} (unaccounted {held - owed})", .warning⟩
    else .ok ⟨name, true, s!"held {held} == owed {owed}", .error⟩

def atMost (name : String) (lhs rhs : Option ℤ) : Check :=
  match lhs, rhs with
  | some lhs, some rhs =>
    ⟨name, lhs ≤ rhs,
      if lhs ≤ rhs then s!"{lhs} <= {rhs}" else s!"{lhs} > {rhs} (over by {lhs - rhs})", .error⟩
  | _, _ => ⟨name, false, "value unavailable", .error⟩

def equal (name : String) (lhs rhs : ℤ) : Check :=
  ⟨name, lhs = rhs,
    if lhs = rhs then s!"{lhs} == {rhs}" else s!"{lhs} != {rhs} (diff {lhs - rhs})", .error⟩

/-! ### Reading a contract -/

section Reading
variable {py : Python} (repr : Json py → String) (c : Json py)

/-- The instance storage, or `None` when the instance entry is not live. -/
def instanceStorage : Outcome String (Json py) := do
  let inst ← c.field "instance"
  let status ← inst.field "status"
  if ¬ status.isText "live" then
    return .null
  let value ← inst.field "value"
  value.field "storage"

/-- `storage is None or key not in storage`. -/
def lacks (storage : Json py) (key : String) : Outcome String Bool :=
  if storage.isNone then .ok true else (! ·) <$> storage.contains key

def entriesOf : Outcome String (List (Json py)) := do
  let entries ← c.field "entries"
  entries.items

/-- The first entry with the key. -/
def entry (name : String) : Outcome String (Option (Json py)) := do
  let entries ← entriesOf c
  entries.findM? fun e => do
    let key ← e.field "key"
    return key.isText name

/-- `name[n:-1]`. -/
def slice (n : ℕ) (name : String) : String := .ofList (name.toList.drop n).dropLast

/-- `name.startswith(start)`. -/
def startsWith (name start : String) : Bool := start.toList <+: name.toList

/-- `balances.get(token)`; a list or an object is no key. -/
def balanceOf (balances : Dict String ℤ) (token : Json py) : Outcome String (Option ℤ) :=
  match token with
  | .value (.str token) => .ok (balances.get? token)
  | .value _ => .ok none
  | _ => .error .trap

/-- `int(v["amount"])`. -/
def amountOf (v : Json py) : Outcome String ℤ := do
  let amount ← v.field "amount"
  amount.toInt

/-- The counters that count as zero. -/
structure Assumed where
  names : List String

instance : Preorder Assumed where
  le s t := s.names ⊆ t.names
  le_refl s := List.Subset.refl s.names
  le_trans _ _ _ := List.Subset.trans

abbrev Collecting (α : Type) := Progress Assumed String α

def assume (name : String) : Collecting Unit := modify fun s => ⟨s.names ++ [name]⟩

/-- The value of a persistent counter. -/
def counter (name : String) : Collecting ℤ := do
  match ← entry c name with
  | none =>
    assume name
    return 0
  | some e =>
    let status ← e.field "status"
    if status.isText "missing" then
      assume name
      return 0
    else if ¬ status.isText "live" then
      Progress.fail (name ++ " is " ++ status.text repr)
    else
      let value ← e.field "value"
      value.toInt

end Reading

/-- What a contract kind has of its own. -/
structure Collector (py : Python) where
  Views : Type
  /-- `None` when the contract is not initialized. -/
  views : Json py → Outcome String (Option Views)
  assumedZero : Views → List String
  checks : Views → Dict String ℤ → Outcome String (List Check)

variable {py : Python}

/-! ### Backstop -/

namespace Backstop

structure Views (py : Python) where
  token : Json py
  totalStaked : Json py
  totalShares : Json py
  premiumIncome : Json py
  capacity : Json py
  stakerShares : Dict String String
  assumedZero : List String

def sharesPrefix : String := "\"shares\"("

/-- The holder and the shares of an entry of shares. -/
def stakerRow (repr : Json py → String) (c e : Json py) : Collecting (Option (String × ℤ)) := do
  let key ← e.field "key"
  let key ← key.asText
  if startsWith key sharesPrefix then
    let shares ← counter repr c key
    return some (slice sharesPrefix.length key, shares)
  else
    return none

def defaultCapacity : Json py :=
  .dict [("deposit_cap", .str "0"), ("per_staker_cap", .str "0"), ("min_stake", .str "0")]

def views (repr : Json py → String) (c : Json py) : Outcome String (Option (Views py)) := do
  let storage ← instanceStorage c
  if ← lacks storage "\"config\"" then
    return none
  let entries ← entriesOf c
  let (rows, assumed) ← (entries.mapM (stakerRow repr c)).run ⟨[]⟩
  let stakers : Dict String ℤ := .ofList rows.reduceOption
  let state ← storage.field "\"state\""
  let capacity ← storage.get "\"capacity\""
  let config ← storage.field "\"config\""
  let token ← config.field "token"
  let totalStaked ← state.field "total_capital"
  let totalShares ← state.field "total_shares"
  let premiumIncome ← state.field "premium_income"
  return some {
    token, totalStaked, totalShares, premiumIncome
    capacity := (capacity.filter Json.truthy).getD defaultCapacity
    stakerShares := .ofList ((sortedByKey stakers.entries).map fun e => (e.1, toString e.2))
    assumedZero := assumed.names.insertionSort (· ≤ ·) }

def checks (v : Views py) (balances : Dict String ℤ) : Outcome String (List Check) := do
  let held ← balanceOf balances v.token
  let staked ← v.totalStaked.toInt
  let balance ← covered "token balance covers total_staked" (some staked) held
  let listed ← v.stakerShares.entries.mapM fun e => (Json.str e.2 : Json py).toInt
  let shares ← v.totalShares.toInt
  return [balance, atMost "listed staker shares <= total_shares" (some listed.sum) (some shares)]

end Backstop

/-! ### Bounty -/

namespace Bounty

structure Views (py : Python) where
  token : Json py
  governance : Option (Json py)
  escrowBalance : Option (Json py)
  reserved : Json py
  openBounties : Dict String (Json py)
  settledSplits : Dict String (Json py)
  assumedZero : List String

/-- The open and the settled splits, with those of one more entry. -/
def splitEntry (splits : Dict String (Json py) × Dict String (Json py)) (e : Json py) :
    Outcome String (Dict String (Json py) × Dict String (Json py)) := do
  let status ← e.field "status"
  if ¬ status.isText "live" then
    return splits
  let key ← e.field "key"
  let name ← key.asText
  if startsWith name "PendingSplit(" then
    let value ← e.field "value"
    return (splits.1.insert (slice "PendingSplit(".length name) value, splits.2)
  else if startsWith name "Split(" then
    let value ← e.field "value"
    return (splits.1, splits.2.insert (slice "Split(".length name) value)
  else
    return splits

def views (c : Json py) : Outcome String (Option (Views py)) := do
  let storage ← instanceStorage c
  if ← lacks storage "Token()" then
    return none
  let entries ← entriesOf c
  let splits ← entries.foldlM splitEntry (.empty, .empty)
  let token ← storage.field "Token()"
  let governance ← storage.get "Governance()"
  let escrowBalance ← storage.get "Balance()"
  let reserved ← storage.get "Reserved()"
  let known ← storage.contains "Reserved()"
  return some {
    token, governance, escrowBalance
    reserved := reserved.getD (.str "0")
    openBounties := splits.1
    settledSplits := splits.2
    assumedZero := if known then [] else ["Reserved()"] }

/-- `_int(value)`. -/
def toInt? (value : Option (Json py)) : Outcome String (Option ℤ) :=
  match value with
  | some v => if v.isNone then .ok none else some <$> v.toInt
  | none => .ok none

def splitCheck (split : String × Json py) : Outcome String Check := do
  let payouts ← split.2.field "payouts"
  let payouts ← payouts.items
  let paid ← payouts.mapM amountOf
  let amount ← amountOf split.2
  return equal ("split " ++ split.1 ++ " payouts sum to amount") paid.sum amount

def checks (v : Views py) (balances : Dict String ℤ) : Outcome String (List Check) := do
  let escrow ← toInt? v.escrowBalance
  let reserved ← v.reserved.toInt
  let held ← balanceOf balances v.token
  let balance ← covered "token balance covers escrow balance" escrow held
  let listed ← v.openBounties.entries.mapM fun split => amountOf split.2
  let splits ← (sortedByKey v.openBounties.entries).mapM splitCheck
  return [balance, atMost "reserved <= escrow balance" (some reserved) escrow,
    atMost "listed open splits <= reserved" (some listed.sum) (some reserved)] ++ splits

end Bounty

/-! ### Treasury -/

namespace Treasury

def treasurySources : List String :=
  ["ProtocolFees", "GrantFunding", "BountyTopUp", "ExternalDonation"]

def sourceTotal (asset : String) (code : ℕ) : String := s!"SourceTotal({asset}, {code})"

def sourceCap (asset : String) (code : ℕ) : String := s!"SourceCap({asset}, {code})"

def totalDeposits (asset : String) : String := s!"TotalDeposits({asset})"

def totalWithdrawn (asset : String) : String := s!"TotalWithdrawn({asset})"

/-- The counters of an asset. -/
def counters (asset : String) : List String :=
  (treasurySources.zipIdx.map fun source => sourceTotal asset source.2) ++
    [totalDeposits asset, totalWithdrawn asset]

structure AssetView (py : Python) where
  totalBySource : List (String × String)
  sourceCaps : List (String × Json py)
  totalDeposits : String
  totalWithdrawn : String

structure Views (py : Python) where
  admin : Json py
  paused : Json py
  assets : List (PyValue py × AssetView py)
  assumedZero : List String

section Views
variable (repr : Json py → String) (c : Json py)

def sourceRow (asset : String) (source : String × ℕ) : Collecting (String × String) := do
  let total ← counter repr c (sourceTotal asset source.2)
  return (source.1, toString total)

def capRow (asset : String) (source : String × ℕ) : Outcome String (Option (String × Json py)) := do
  match ← entry c (sourceCap asset source.2) with
  | none => return none
  | some e =>
    let status ← e.field "status"
    if status.isText "live" then
      let value ← e.field "value"
      return some (source.1, value)
    else
      return none

def sourceCaps (asset : String) : Outcome String (List (String × Json py)) := do
  let rows ← treasurySources.zipIdx.mapM (capRow c asset)
  return rows.reduceOption

/-- The view of an asset, which is a key. -/
def assetRow (asset : Json py) : Collecting (PyValue py × AssetView py) := do
  let label := asset.text repr
  let bySource ← treasurySources.zipIdx.mapM (sourceRow repr c label)
  let caps ← sourceCaps c label
  let deposits ← counter repr c (totalDeposits label)
  let withdrawn ← counter repr c (totalWithdrawn label)
  let key ← asset.asKey
  return (key, ⟨bySource, caps, toString deposits, toString withdrawn⟩)

def views : Outcome String (Option (Views py)) := do
  let storage ← instanceStorage c
  if ← lacks storage "Admin()" then
    return none
  let assets ← c.field "assets"
  let assets ← assets.items
  let (rows, assumed) ← (assets.mapM (assetRow repr c)).run ⟨[]⟩
  let admin ← storage.field "Admin()"
  let paused ← storage.get "Paused()"
  return some {
    admin
    paused := paused.getD (.value (.bool false))
    assets := dictOf rows
    assumedZero := assumed.names.insertionSort (· ≤ ·) }

end Views

/-- `int(s)`. -/
def ofText (py : Python) (s : String) : Outcome String ℤ := (Json.str s : Json py).toInt

/-- The checks of an asset; the balances are of texts only. -/
def assetChecks (balances : Dict String ℤ) (asset : PyValue py × AssetView py) :
    Outcome String (List Check) := do
  let bySource ← asset.2.totalBySource.mapM fun e => ofText py e.2
  let deposits ← ofText py asset.2.totalDeposits
  let label := asset.1.text
  let sums := equal (label ++ ": sum(total_by_source) == total_deposits") bySource.sum deposits
  let withdrawn ← ofText py asset.2.totalWithdrawn
  let held ← balanceOf balances (.value asset.1)
  let balance ← covered (label ++ ": token balance covers deposits - withdrawn")
    (some (deposits - withdrawn)) held
  return [sums, balance]

def checks (v : Views py) (balances : Dict String ℤ) : Outcome String (List Check) := do
  let assets ← sortedItems v.assets
  let checks ← assets.mapM (assetChecks balances)
  return checks.flatten

end Treasury

/-! ### Grants -/

namespace Grants

/-- Instance storage is dumped as it is, and is all there is to see. -/
def views (c : Json py) : Outcome String (Option Unit) := do
  let storage ← instanceStorage c
  return if storage.truthy then some () else none

end Grants

/-! ### The collectors -/

inductive Kind where
  | backstop
  | bounty
  | treasury
  | grants
  deriving DecidableEq

def Kind.ofText (kind : String) : Option Kind :=
  if kind = "backstop" then some .backstop
  else if kind = "bounty" then some .bounty
  else if kind = "treasury" then some .treasury
  else if kind = "grants" then some .grants
  else none

/-- `COLLECTORS`. -/
def collectors (repr : Json py → String) : Kind → Collector py
  | .backstop =>
    ⟨Backstop.Views py, Backstop.views repr, Backstop.Views.assumedZero, Backstop.checks⟩
  | .bounty => ⟨Bounty.Views py, Bounty.views, Bounty.Views.assumedZero, Bounty.checks⟩
  | .treasury =>
    ⟨Treasury.Views py, Treasury.views repr, Treasury.Views.assumedZero, Treasury.checks⟩
  | .grants => ⟨Unit, Grants.views, fun _ => [], fun _ _ => .ok []⟩

end RefractContracts.Scripts.ContractState
