import RefractContracts.Timelock.Contract

/-! `RefractParams`, the registry of the protocol's parameters, behind its timelock. The registry
takes a value from the address it was initialized with and from nobody else; the timelock forwards
a `set` that was queued for it, alone or in a sweep, and the calls of a sweep see the writes of one
another. -/

namespace RefractContracts.Params

open Host

inductive ParamsError where
  | alreadyInitialized
  | notInitialized
  | unauthorized
  deriving DecidableEq, Repr

/-- The registry's storage. -/
structure World (Address : Type) where
  timelockEntry : Option Address
  paramEntry : Symbol → Option ℤ

/-- A deployed registry before the call of `initialize`. -/
def blank (Address : Type) : World Address := ⟨none, fun _ => none⟩

variable {Address : Type}

abbrev Call (α : Type) := Outcome ParamsError α

/-- The well-known keys and their defaults. -/
def defaults : List (Symbol × ℤ) :=
  [("premium_share_bps", 500), ("unstake_cooldown", 604800), ("loss_haircut_bps", 1000),
    ("bounty_critical", 100000000), ("bounty_high", 50000000), ("bounty_medium", 20000000),
    ("bounty_low", 5000000), ("bounty_approver_thr", 2), ("grants_approver_thr", 1),
    ("treasury_spend_cap", 500000000), ("paused", 0)]

def writeParam (entries : Symbol → Option ℤ) (write : Symbol × ℤ) : Symbol → Option ℤ :=
  Function.update entries write.1 (some write.2)

/-- What a list of writes makes of the entries. -/
def writeAll (entries : Symbol → Option ℤ) (writes : List (Symbol × ℤ)) : Symbol → Option ℤ :=
  writes.foldl writeParam entries

def initializeContract (w : World Address) (timelock : Address) : Call (World Address) := do
  bail w.timelockEntry.isSome .alreadyInitialized
  pure ⟨some timelock, writeAll w.paramEntry defaults⟩

def timelock (w : World Address) : Call Address := okOr w.timelockEntry .notInitialized

def get (w : World Address) (key : Symbol) : Option ℤ := w.paramEntry key

def getOrDefault (w : World Address) (key : Symbol) (fallback : ℤ) : ℤ :=
  (w.paramEntry key).getD fallback

section Entry
variable [DecidableEq Address] (signers : List Address)

def requireTimelock (w : World Address) (caller : Address) : Call Unit := do
  requireAuth signers caller
  let timelock ← okOr w.timelockEntry .notInitialized
  bail (caller ≠ timelock) .unauthorized

def setParam (w : World Address) (caller : Address) (key : Symbol) (value : ℤ) :
    Call (World Address) := do
  requireTimelock signers w caller
  pure { w with paramEntry := writeParam w.paramEntry (key, value) }

def setTimelock (w : World Address) (caller newTimelock : Address) : Call (World Address) := do
  requireTimelock signers w caller
  pure { w with timelockEntry := some newTimelock }

/-- The registry's entry points as another contract invokes them. -/
def receive (w : World Address) (function : Symbol) (args : List (Val Address)) :
    Call (World Address) :=
  match function, args with
  | "initialize", [.address timelock] => initializeContract w timelock
  | "set", [.address caller, .symbol key, .i128 value] => setParam signers w caller key value
  | "set_timelock", [.address caller, .address newTimelock] =>
    setTimelock signers w caller newTimelock
  | "get", [.symbol _] => pure w
  | "get_or_default", [.symbol _, .i128 _] => pure w
  | "timelock", [] => do
    let _ ← timelock w
    pure w
  | _, _ => .error .trap

end Entry

/-! ### Behind the timelock -/

/-- The timelock and the registry. -/
structure System (Address : Type) where
  timelock : Timelock.World Address
  params : World Address

/-- The contracts before their calls of `initialize`. -/
def deployed (Address : Type) (now : ℕ) : System Address :=
  ⟨Timelock.deployed Address now, blank Address⟩

/-- The addresses of the two. -/
structure Sites (Address : Type) where
  timelock : Address
  params : Address

/-- How the calls of a transaction answer: those of other contracts, and the form a refused call of
the registry takes. -/
structure Answers where
  others : ℕ → Timelock.CallResult
  refusal : Except Timelock.InvokeError Timelock.InvokeError

section Forward
variable [DecidableEq Address] (sites : Sites Address) (answers : Answers) (signers : List Address)

/-- The registry after the call of an operation, made by the timelock. -/
def forwarded (w : World Address) (op : Timelock.TimelockOperation Address) : World Address :=
  if op.target = sites.params then
    match receive (sites.timelock :: signers) w op.function op.args with
    | .ok w' => w'
    | .error _ => w
  else w

/-- What the call of the operation `id` answers. -/
def answer (w : World Address) (id : ℕ) (op : Timelock.TimelockOperation Address) :
    Timelock.CallResult :=
  if op.target = sites.params then
    match receive (sites.timelock :: signers) w op.function op.args with
    | .ok _ => .ok ()
    | .error _ => .error answers.refusal
  else answers.others id

/-- The answer to the call of the operation stored for `id`, if there is one. -/
def answerOf (t : Timelock.World Address) (w : World Address) (id : ℕ) : Timelock.CallResult :=
  match t.operationEntry id with
  | some op => answer sites answers signers w id op
  | none => answers.others id

def forwardedOf (t : Timelock.World Address) (w : World Address) (id : ℕ) : World Address :=
  match t.operationEntry id with
  | some op => forwarded sites signers w op
  | none => w

/-- The registry in a sweep, after the due operations below `id`. -/
def swept (t : Timelock.World Address) (w : World Address) : ℕ → World Address
  | 0 => w
  | id + 1 =>
    match t.operationEntry id with
    | some op =>
      if Timelock.isDue t.now op then forwarded sites signers (swept t w id) op else swept t w id
    | none => swept t w id

inductive Op (Address : Type) where
  | initializeContract (timelock : Address)
  | setParam (caller : Address) (key : Symbol) (value : ℤ)
  | setTimelock (caller newTimelock : Address)

/-- An operation of the timelock, with the answers of other contracts, or a call of the registry. -/
inductive SystemOp (Address : Type) where
  | timelock (op : Timelock.Op Address)
  | params (op : Op Address)

structure Transaction (Address : Type) where
  signers : List Address
  answers : Answers
  op : SystemOp Address

inductive SystemError where
  | timelock (e : Timelock.TimelockError)
  | params (e : ParamsError)

/-- The timelock's operation with what its calls answer, and the registry after them. -/
def resolve (s : System Address) : Timelock.Op Address → Timelock.Op Address × World Address
  | .execute id _ =>
    (.execute id (answerOf sites answers signers s.timelock s.params id),
      forwardedOf sites signers s.timelock s.params id)
  | .retry id _ =>
    (.retry id (answerOf sites answers signers s.timelock s.params id),
      forwardedOf sites signers s.timelock s.params id)
  | .executeDue keeper _ =>
    (.executeDue keeper fun id =>
        answerOf sites answers signers s.timelock (swept sites signers s.timelock s.params id) id,
      swept sites signers s.timelock s.params (Timelock.nextId s.timelock))
  | op => (op, s.params)

/-- The two contracts do not sign; the timelock calls the registry as itself. -/
def Transaction.authorities (tx : Transaction Address) : List Address :=
  tx.signers.filter fun a => a ≠ sites.timelock ∧ a ≠ sites.params

/-- One transaction of the timelock or of the registry. -/
def step : Contract (System Address) (Transaction Address) Timelock.Answer SystemError :=
  fun s tx =>
    let signers := tx.authorities sites
    match tx.op with
    | .timelock op => do
      let (op, params) := resolve sites tx.answers signers s op
      let (timelock, out) ← embed .timelock (Timelock.step s.timelock ⟨signers, op⟩)
      pure (⟨timelock, params⟩, out)
    | .params (.initializeContract timelock) => do
      let params ← embed .params (initializeContract s.params timelock)
      pure ({ s with params }, .unit)
    | .params (.setParam caller key value) => do
      let params ← embed .params (setParam signers s.params caller key value)
      pure ({ s with params }, .unit)
    | .params (.setTimelock caller newTimelock) => do
      let params ← embed .params (setTimelock signers s.params caller newTimelock)
      pure ({ s with params }, .unit)

end Forward

end RefractContracts.Params
