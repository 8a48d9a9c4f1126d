import RefractContracts.Host.Run
import RefractContracts.Host.Value

/-! `RefractTimelock`: the administrator queues calls to other contracts, and
anyone forwards a queued call once its `eta` has passed, one at a time or in a
keeper's sweep over all of them. The call of an operation is made by
`try_invoke_contract`, whose result is the callee's. -/

namespace RefractContracts.Timelock

open Host

inductive TimelockError where
  | alreadyInitialized
  | notInitialized
  | unauthorized
  | etaTooSoon
  | notFound
  | notReady
  | alreadyDone
  | invalidKeeperConfig
  | keeperRewardExceeded
  | overflow
  | notFailed
  | retryTooSoon
  deriving DecidableEq, Repr

/-- Capped keeper incentive for `executeDue`. -/
structure KeeperConfig where
  rewardPerCall : ℤ
  capPerEpoch : ℤ
  epochLenSecs : ℕ
  epochStart : ℕ
  epochSpent : ℤ

inductive OperationStatus where
  | pending
  | executed
  | cancelled
  | failed
  | expired
  deriving DecidableEq, Repr

/-- A queued cross-contract call. -/
structure TimelockOperation (Address : Type) where
  target : Address
  function : Symbol
  args : List (Val Address)
  eta : ℕ
  status : OperationStatus
  failureCode : ℕ
  attemptCount : ℕ
  lastFailedAt : ℕ

/-- Why an invocation failed. -/
inductive InvokeError where
  | abort
  | contract (code : ℕ)
  deriving DecidableEq, Repr

/-- What `try_invoke_contract::<Val, InvokeError>` answers. Every error of a call converts to an
`InvokeError`, so the SDK gives `.error (.ok e)`; the type has room for one that does not. -/
abbrev CallResult := Except (Except InvokeError InvokeError) Unit

/-- What is taken for the code of a failure: that of an error which did not convert, else 0. -/
def codeOf : Except InvokeError InvokeError → ℕ
  | .error (.contract c) => c
  | _ => 0

/-- A target call that returned: of which operation, and when. -/
structure Sent where
  id : ℕ
  time : ℕ
  deriving DecidableEq, Repr

/-- The contract's storage and the ledger time. `sent` is the history of the
target calls that returned, in their order; the contract does not read it. -/
structure World (Address : Type) where
  now : ℕ
  adminEntry : Option Address
  minDelayEntry : Option ℕ
  nextIdEntry : Option ℕ
  operationEntry : ℕ → Option (TimelockOperation Address)
  keeperEntry : Option KeeperConfig
  sent : List Sent

/-- A deployed contract before the call of `initialize`. -/
def deployed (Address : Type) (now : ℕ) : World Address where
  now
  adminEntry := none
  minDelayEntry := none
  nextIdEntry := none
  operationEntry _ := none
  keeperEntry := none
  sent := []

variable {Address : Type}

abbrev Call (α : Type) := Outcome TimelockError α

def minDelay (w : World Address) : ℕ := w.minDelayEntry.getD 0

def nextId (w : World Address) : ℕ := w.nextIdEntry.getD 0

def setOperation (w : World Address) (id : ℕ) (op : TimelockOperation Address) : World Address :=
  { w with operationEntry := Function.update w.operationEntry id (some op) }

/-- The record of an operation whose call failed at time `now`. -/
def TimelockOperation.fail (op : TimelockOperation Address) (e : Except InvokeError InvokeError)
    (now : ℕ) : TimelockOperation Address :=
  { op with
    status := .failed
    failureCode := codeOf e
    attemptCount := u32SaturatingAdd op.attemptCount 1
    lastFailedAt := now }

/-- Mark the operation `Executed`, forward its call, and record a failure. The
flag tells whether the call returned. -/
def forward (w : World Address) (id : ℕ) (op : TimelockOperation Address) (result : CallResult) :
    World Address × Bool :=
  let w := setOperation w id { op with status := .executed }
  match result with
  | .ok () => ({ w with sent := w.sent ++ [⟨id, w.now⟩] }, true)
  | .error e => (setOperation w id (op.fail e w.now), false)

/-! ### Administration -/

section Entry
variable [DecidableEq Address] (signers : List Address)

def requireAdmin (w : World Address) : Call Unit := do
  let admin ← okOr w.adminEntry .notInitialized
  requireAuth signers admin

def initializeContract (w : World Address) (admin : Address) (minDelay : ℕ) :
    Call (World Address) := do
  bail w.adminEntry.isSome .alreadyInitialized
  requireAuth signers admin
  pure { w with adminEntry := some admin, minDelayEntry := some minDelay, nextIdEntry := some 0 }

/-- Queue a call for `eta`, at least `minDelay` from now. -/
def queue (w : World Address) (target : Address) (function : Symbol) (args : List (Val Address))
    (eta : ℕ) : Call (World Address × ℕ) := do
  requireAdmin signers w
  let earliest ← u64 (w.now + minDelay w)
  bail (eta < earliest) .etaTooSoon
  let id := nextId w
  let next ← u64 (id + 1)
  let op : TimelockOperation Address :=
    { target, function, args, eta, status := .pending
      failureCode := 0, attemptCount := 0, lastFailedAt := 0 }
  pure ({ setOperation w id op with nextIdEntry := some next }, id)

/-- The administrator's change of an operation's status: from `src`, or refuse
with `e`. -/
def retire (w : World Address) (id : ℕ) (src dst : OperationStatus) (e : TimelockError) :
    Call (World Address) := do
  requireAdmin signers w
  let op ← okOr (w.operationEntry id) .notFound
  bail (op.status ≠ src) e
  pure (setOperation w id { op with status := dst })

def cancel (w : World Address) (id : ℕ) : Call (World Address) :=
  retire signers w id .pending .cancelled .alreadyDone

def cancelFailed (w : World Address) (id : ℕ) : Call (World Address) :=
  retire signers w id .failed .cancelled .notFailed

/-- Mark a pending operation `Expired`. -/
def expire (w : World Address) (id : ℕ) : Call (World Address) :=
  retire signers w id .pending .expired .alreadyDone

def setKeeperConfig (w : World Address) (rewardPerCall capPerEpoch : ℤ) (epochLenSecs : ℕ) :
    Call (World Address) := do
  requireAdmin signers w
  bail (rewardPerCall < 0 ∨ capPerEpoch < 0 ∨ epochLenSecs = 0) .invalidKeeperConfig
  pure { w with keeperEntry := some ⟨rewardPerCall, capPerEpoch, epochLenSecs, w.now, 0⟩ }

end Entry

/-! ### Forwarding -/

/-- Forward an operation of status `src` whose `eta` has passed. A failed call
ends in an error, on which the host discards the recorded failure. -/
def forwardFrom (w : World Address) (id : ℕ) (src : OperationStatus) (wrong early : TimelockError)
    (result : CallResult) : Call (World Address) := do
  let op ← okOr (w.operationEntry id) .notFound
  bail (op.status ≠ src) wrong
  bail (w.now < op.eta) early
  let (w, returned) := forward w id op result
  bail (returned = false) .notFound
  pure w

def execute (w : World Address) (id : ℕ) (result : CallResult) : Call (World Address) :=
  forwardFrom w id .pending .alreadyDone .notReady result

def retry (w : World Address) (id : ℕ) (result : CallResult) : Call (World Address) :=
  forwardFrom w id .failed .notFailed .retryTooSoon result

def isDue (now : ℕ) (op : TimelockOperation Address) : Bool :=
  op.status = .pending ∧ op.eta ≤ now

/-- Number of due operations. -/
def dueCount (w : World Address) : ℕ :=
  (List.range (nextId w)).foldl (fun count id =>
    match w.operationEntry id with
    | some op => if isDue w.now op then count + 1 else count
    | none => count) 0

/-- One round of the sweep: the state and the counts of executed and failed calls. -/
def sweepOne (results : ℕ → CallResult) (acc : World Address × ℕ × ℕ) (id : ℕ) :
    World Address × ℕ × ℕ :=
  match acc with
  | (w, executed, failed) =>
    match w.operationEntry id with
    | some op =>
      if isDue w.now op then
        match forward w id op (results id) with
        | (w, true) => (w, executed + 1, failed)
        | (w, false) => (w, executed, failed + 1)
      else (w, executed, failed)
    | none => (w, executed, failed)

def sweep (w : World Address) (results : ℕ → CallResult) : World Address × ℕ × ℕ :=
  (List.range (nextId w)).foldl (sweepOne results) (w, 0, 0)

def keeperConfig (w : World Address) : KeeperConfig :=
  w.keeperEntry.getD ⟨0, 0, 86400, w.now, 0⟩

/-- A new epoch starts once the current one is over. -/
def KeeperConfig.roll (cfg : KeeperConfig) (now : ℕ) : KeeperConfig :=
  if cfg.epochStart + cfg.epochLenSecs ≤ now then { cfg with epochStart := now, epochSpent := 0 }
  else cfg

/-- Pay the keeper for `executed` calls what the cap of the epoch allows. -/
def settleKeeperEpoch (w : World Address) (executed : ℕ) : Call (World Address × ℤ) := do
  let _ ← u64 ((keeperConfig w).epochStart + (keeperConfig w).epochLenSecs)
  let cfg := (keeperConfig w).roll w.now
  if executed = 0 ∨ cfg.rewardPerCall ≤ 0 then pure ({ w with keeperEntry := some cfg }, 0)
  else do
    let product := executed * cfg.rewardPerCall
    let due := if minI128 ≤ product ∧ product ≤ maxI128 then product else maxI128
    let room ← i128 (cfg.capPerEpoch - cfg.epochSpent)
    let reward := if due < room then due else room
    let reward := if reward < 0 then 0 else reward
    let epochSpent ← i128 (cfg.epochSpent + reward)
    pure ({ w with keeperEntry := some { cfg with epochSpent } }, reward)

/-- Forward every due operation in the order of ids; `(executed, failed, reward)`. -/
def executeDue [DecidableEq Address] (signers : List Address) (w : World Address)
    (keeper : Address) (results : ℕ → CallResult) : Call (World Address × ℕ × ℕ × ℤ) := do
  requireAuth signers keeper
  let (w, executed, failed) := sweep w results
  let (w, reward) ← settleKeeperEpoch w executed
  pure (w, executed, failed, reward)

/-! ### Transactions -/

/-- The entry points, with the results of the target calls they make, and the
passing of ledger time. -/
inductive Op (Address : Type) where
  | initializeContract (admin : Address) (minDelay : ℕ)
  | queue (target : Address) (function : Symbol) (args : List (Val Address)) (eta : ℕ)
  | execute (id : ℕ) (result : CallResult)
  | cancel (id : ℕ)
  | retry (id : ℕ) (result : CallResult)
  | cancelFailed (id : ℕ)
  | expire (id : ℕ)
  | setKeeperConfig (rewardPerCall capPerEpoch : ℤ) (epochLenSecs : ℕ)
  | executeDue (keeper : Address) (results : ℕ → CallResult)
  | advance (seconds : ℕ)

inductive Answer where
  | unit
  | id (n : ℕ)
  | swept (executed failed : ℕ) (reward : ℤ)

/-- `signers` are the addresses that authorise the call: those that signed, and
for a call made by a contract the contract itself. A target cannot re-enter the
timelock, so what it does elsewhere is no part of the step. -/
structure Transaction (Address : Type) where
  signers : List Address
  op : Op Address

variable [DecidableEq Address]

def step : Contract (World Address) (Transaction Address) Answer TimelockError :=
  fun w tx =>
    match tx.op with
    | .initializeContract admin minDelay => do
      return (← initializeContract tx.signers w admin minDelay, .unit)
    | .queue target function args eta => do
      let (w, id) ← queue tx.signers w target function args eta
      return (w, .id id)
    | .execute id result => do return (← execute w id result, .unit)
    | .cancel id => do return (← cancel tx.signers w id, .unit)
    | .retry id result => do return (← retry w id result, .unit)
    | .cancelFailed id => do return (← cancelFailed tx.signers w id, .unit)
    | .expire id => do return (← expire tx.signers w id, .unit)
    | .setKeeperConfig rewardPerCall capPerEpoch epochLenSecs => do
      return (← setKeeperConfig tx.signers w rewardPerCall capPerEpoch epochLenSecs, .unit)
    | .executeDue keeper results => do
      let (w, executed, failed, reward) ← executeDue tx.signers w keeper results
      return (w, .swept executed failed reward)
    | .advance seconds => do return ({ w with now := ← u64 (w.now + seconds) }, .unit)

end RefractContracts.Timelock
