import RefractContracts.Host.Run
import RefractContracts.Host.Token
import RefractContracts.Host.Value

/-! `RefractGovernor`: token-weighted proposals. A proposal is voted on while
`Active`, tallied by `finalize`, forwarded to the timelock by `queue` when one is
configured, and forwarded to its target by `execute`. A proposal records the
ledger it was created in; the weight of a vote is the balance `cast_vote` reads. -/

namespace RefractContracts.Governance

open Host

inductive GovernanceError where
  | alreadyInitialized
  | notInitialized
  | unauthorized
  | belowProposalThreshold
  | proposalNotFound
  | wrongState
  | votingOpen
  | alreadyVoted
  | proposalDefeated
  | alreadyQueued
  | delegationChain
  deriving DecidableEq, Repr

inductive ProposalStatus where
  | active
  | defeated
  | succeeded
  | queued
  | executed
  deriving DecidableEq, Repr

structure ProposalState (Address : Type) where
  proposer : Address
  target : Address
  function : Symbol
  args : List (Val Address)
  description : Symbol
  voteStart : ℕ
  voteEnd : ℕ
  votesFor : ℤ
  votesAgainst : ℤ
  status : ProposalStatus
  voters : List Address
  /-- Ledger sequence at proposal creation. -/
  snapshotLedger : ℕ

structure GovernorConfig (Address : Type) where
  token : Address
  votingPeriod : ℕ
  quorumBps : ℕ
  proposalThreshold : ℤ
  totalSupply : ℤ

/-- The contract's storage, the ledger's time and sequence number, and the
balances of every token contract. -/
structure World (Address : Type) where
  now : ℕ
  sequence : ℕ
  tokens : Address → Token Address
  adminEntry : Option Address
  configEntry : Option (GovernorConfig Address)
  timelockEntry : Option Address
  nextIdEntry : Option ℕ
  proposalEntry : ℕ → Option (ProposalState Address)

/-- A deployed contract before the call of `initialize`. -/
def deployed {Address : Type} (now sequence : ℕ) (tokens : Address → Token Address) :
    World Address where
  now
  sequence
  tokens
  adminEntry := none
  configEntry := none
  timelockEntry := none
  nextIdEntry := none
  proposalEntry _ := none

variable {Address : Type}

abbrev Call (α : Type) := Outcome GovernanceError α

/-- `token::Client::new(&env, &config.token).balance(&a)`. -/
def liveBalance (w : World Address) (config : GovernorConfig Address) (a : Address) : ℤ :=
  (w.tokens config.token).balance a

def nextId (w : World Address) : ℕ := w.nextIdEntry.getD 0

def setProposal (w : World Address) (id : ℕ) (p : ProposalState Address) : World Address :=
  { w with proposalEntry := Function.update w.proposalEntry id (some p) }

variable [DecidableEq Address] (signers : List Address)

def requireAdmin (w : World Address) (caller : Address) : Call Unit := do
  requireAuth signers caller
  let admin ← okOr w.adminEntry .notInitialized
  bail (caller ≠ admin) .unauthorized

/-! ### Administration -/

def initializeContract (w : World Address) (admin : Address) (config : GovernorConfig Address) :
    Call (World Address) := do
  bail w.adminEntry.isSome .alreadyInitialized
  requireAuth signers admin
  pure { w with adminEntry := some admin, configEntry := some config, nextIdEntry := some 0 }

def setTimelock (w : World Address) (caller timelock : Address) : Call (World Address) := do
  requireAdmin signers w caller
  pure { w with timelockEntry := some timelock }

def setConfig (w : World Address) (caller : Address) (config : GovernorConfig Address) :
    Call (World Address) := do
  requireAdmin signers w caller
  pure { w with configEntry := some config }

/-! ### Proposals and votes -/

/-- Create a proposal; `proposer` must hold at least the threshold. -/
def propose (w : World Address) (proposer target : Address) (function : Symbol)
    (args : List (Val Address)) (description : Symbol) : Call (World Address × ℕ) := do
  requireAuth signers proposer
  let config ← okOr w.configEntry .notInitialized
  bail (liveBalance w config proposer < config.proposalThreshold) .belowProposalThreshold
  let id := nextId w
  let voteEnd ← u64 (w.now + config.votingPeriod)
  let proposal : ProposalState Address :=
    { proposer, target, function, args, description, voteStart := w.now, voteEnd
      votesFor := 0, votesAgainst := 0, status := .active, voters := []
      snapshotLedger := w.sequence }
  let next ← u64 (id + 1)
  pure ({ setProposal w id proposal with nextIdEntry := some next }, id)

/-- Vote on an active proposal with the voter's current balance. -/
def castVote (w : World Address) (voter : Address) (proposalId : ℕ) (support : Bool) :
    Call (World Address × ℤ) := do
  requireAuth signers voter
  let proposal ← okOr (w.proposalEntry proposalId) .proposalNotFound
  bail (proposal.status ≠ .active) .wrongState
  bail (proposal.voteEnd < w.now) .wrongState
  bail (voter ∈ proposal.voters) .alreadyVoted
  let config ← okOr w.configEntry .notInitialized
  let weight := liveBalance w config voter
  let proposal ← (if support then do
      let votesFor ← i128 (proposal.votesFor + weight)
      pure { proposal with votesFor }
    else do
      let votesAgainst ← i128 (proposal.votesAgainst + weight)
      pure { proposal with votesAgainst } : Call (ProposalState Address))
  let proposal := { proposal with voters := proposal.voters ++ [voter] }
  pure (setProposal w proposalId proposal, weight)

omit [DecidableEq Address] in
/-- Tally a proposal whose voting period is over. -/
def finalize (w : World Address) (proposalId : ℕ) : Call (World Address × ProposalStatus) := do
  let proposal ← okOr (w.proposalEntry proposalId) .proposalNotFound
  if proposal.status ≠ .active then pure (w, proposal.status)
  else do
    bail (w.now ≤ proposal.voteEnd) .votingOpen
    let config ← okOr w.configEntry .notInitialized
    let totalVotes ← i128 (proposal.votesFor + proposal.votesAgainst)
    let scaled ← i128 (config.totalSupply * config.quorumBps)
    let quorumRequired := scaled.tdiv 10000
    let quorumMet := quorumRequired ≤ totalVotes
    let majorityFor := proposal.votesAgainst < proposal.votesFor
    let status := if quorumMet ∧ majorityFor then .succeeded else .defeated
    pure (setProposal w proposalId { proposal with status }, status)

/-! ### Execution -/

omit [DecidableEq Address] in
/-- Mark a succeeded proposal `Queued`, and the call that hands it to the
timelock when one is set. -/
def queue (w : World Address) (proposalId eta : ℕ) :
    Call (World Address × Option (Invocation Address)) := do
  let proposal ← okOr (w.proposalEntry proposalId) .proposalNotFound
  bail (proposal.status ≠ .succeeded) .wrongState
  let w := setProposal w proposalId { proposal with status := .queued }
  pure (w, w.timelockEntry.map fun timelock =>
    { contract := timelock, function := "queue"
      args := [.address proposal.target, .symbol proposal.function, .vec proposal.args, .u64 eta] })

omit [DecidableEq Address] in
/-- Mark a queued proposal `Executed`, and the call to its target. -/
def execute (w : World Address) (proposalId : ℕ) : Call (World Address × Invocation Address) := do
  let proposal ← okOr (w.proposalEntry proposalId) .proposalNotFound
  bail (proposal.status ≠ .queued) .wrongState
  pure (setProposal w proposalId { proposal with status := .executed },
    { contract := proposal.target, function := proposal.function, args := proposal.args })

/-! ### Transactions -/

/-- The entry points, the passing of ledger time, and token transfers. A call
that the governor forwards carries the callee's answer: whether it returns. -/
inductive Op (Address : Type) where
  | initializeContract (admin : Address) (config : GovernorConfig Address)
  | setTimelock (caller timelock : Address)
  | setConfig (caller : Address) (config : GovernorConfig Address)
  | propose (proposer target : Address) (function : Symbol) (args : List (Val Address))
      (description : Symbol)
  | castVote (voter : Address) (proposalId : ℕ) (support : Bool)
  | finalize (proposalId : ℕ)
  | queue (proposalId eta : ℕ) (returns : Bool)
  | execute (proposalId : ℕ) (returns : Bool)
  | advance (seconds ledgers : ℕ)
  | transfer (token src dst : Address) (amount : ℤ)

/-- What an accepted call answers; for a forwarding call, the invocation it made. -/
inductive Answer (Address : Type) where
  | unit
  | id (n : ℕ)
  | weight (x : ℤ)
  | status (s : ProposalStatus)
  | invoked (call : Option (Invocation Address))

/-- `signers` are the addresses that authorise the call: those that signed, and
for a call made by a contract the contract itself. The governor writes nothing
after it forwards a call, so calls made within a forwarded one are transactions
that follow it. -/
structure Transaction (Address : Type) where
  signers : List Address
  op : Op Address

def step : Contract (World Address) (Transaction Address) (Answer Address) GovernanceError :=
  fun w tx =>
    match tx.op with
    | .initializeContract admin config => do
      return (← initializeContract tx.signers w admin config, .unit)
    | .setTimelock caller timelock => do return (← setTimelock tx.signers w caller timelock, .unit)
    | .setConfig caller config => do return (← setConfig tx.signers w caller config, .unit)
    | .propose proposer target function args description => do
      let (w, id) ← propose tx.signers w proposer target function args description
      return (w, .id id)
    | .castVote voter proposalId support => do
      let (w, weight) ← castVote tx.signers w voter proposalId support
      return (w, .weight weight)
    | .finalize proposalId => do
      let (w, status) ← finalize w proposalId
      return (w, .status status)
    | .queue proposalId eta returns => do
      let (w, call) ← queue w proposalId eta
      demand (call.isNone ∨ returns)
      return (w, .invoked call)
    | .execute proposalId returns => do
      let (w, call) ← execute w proposalId
      demand returns
      return (w, .invoked (some call))
    | .advance seconds ledgers => do
      return ({ w with now := ← u64 (w.now + seconds), sequence := w.sequence + ledgers }, .unit)
    | .transfer token src dst amount => do
      requireAuth tx.signers src
      let ledger ← (w.tokens token).transfer src dst amount
      return ({ w with tokens := Function.update w.tokens token ledger }, .unit)

end RefractContracts.Governance
