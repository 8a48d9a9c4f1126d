import RefractContracts.Governance.Contract
import RefractContracts.Host.Storage

/-! What an accepted transaction of the governor does. The entry points are
unfolded here; properties of runs are case analyses on these effects. -/

namespace RefractContracts.Governance

open Host

variable {Address : Type}

/-- The proposal after one more vote of the given weight. -/
def ProposalState.count (proposal : ProposalState Address) (voter : Address) (support : Bool)
    (weight : ℤ) : ProposalState Address :=
  { proposal with
    votesFor := proposal.votesFor + if support then weight else 0
    votesAgainst := proposal.votesAgainst + if support then 0 else weight
    voters := proposal.voters ++ [voter] }

/-- The tally of `finalize`. -/
def ProposalState.carried (proposal : ProposalState Address) (config : GovernorConfig Address) :
    Prop :=
  (config.totalSupply * config.quorumBps).tdiv 10000 ≤
      proposal.votesFor + proposal.votesAgainst ∧
    proposal.votesAgainst < proposal.votesFor

instance (proposal : ProposalState Address) (config : GovernorConfig Address) :
    Decidable (proposal.carried config) := inferInstanceAs (Decidable (_ ∧ _))

def ProposalState.invocation (proposal : ProposalState Address) : Invocation Address :=
  { contract := proposal.target, function := proposal.function, args := proposal.args }

/-- The call by which `queue` hands a proposal to the timelock. -/
def ProposalState.handover (proposal : ProposalState Address) (eta : ℕ) (timelock : Address) :
    Invocation Address :=
  { contract := timelock, function := "queue"
    args := [.address proposal.target, .symbol proposal.function, .vec proposal.args, .u64 eta] }

/-- An open proposal as `propose` stores it. -/
def openProposal (w : World Address) (config : GovernorConfig Address) (proposer target : Address)
    (function : Symbol) (args : List (Val Address)) (description : Symbol) :
    ProposalState Address :=
  { proposer, target, function, args, description, voteStart := w.now
    voteEnd := w.now + config.votingPeriod, votesFor := 0, votesAgainst := 0
    status := .active, voters := [], snapshotLedger := w.sequence }

@[simp] theorem proposalEntry_setProposal_self (w : World Address) (id : ℕ)
    (p : ProposalState Address) : (setProposal w id p).proposalEntry id = some p :=
  Function.update_self _ _ _

theorem proposalEntry_setProposal_of_ne (w : World Address) {id j : ℕ} (p : ProposalState Address)
    (h : j ≠ id) : (setProposal w id p).proposalEntry j = w.proposalEntry j :=
  Function.update_of_ne h _ _

variable [DecidableEq Address]

inductive Effect (w : World Address) : World Address → Op Address → Answer Address → Prop
  | initialized {admin config} (first : w.adminEntry = none) :
      Effect w
        { w with adminEntry := some admin, configEntry := some config, nextIdEntry := some 0 }
        (.initializeContract admin config) .unit
  | timelockSet {caller timelock} (admin : w.adminEntry = some caller) :
      Effect w { w with timelockEntry := some timelock } (.setTimelock caller timelock) .unit
  | configSet {caller config} (admin : w.adminEntry = some caller) :
      Effect w { w with configEntry := some config } (.setConfig caller config) .unit
  | proposed {proposer target function args description config}
      (stored : w.configEntry = some config)
      (holds : config.proposalThreshold ≤ liveBalance w config proposer) :
      Effect w { setProposal w (nextId w)
          (openProposal w config proposer target function args description) with
          nextIdEntry := some (nextId w + 1) }
        (.propose proposer target function args description) (.id (nextId w))
  | voted {voter id support proposal config} (found : w.proposalEntry id = some proposal)
      (active : proposal.status = .active) (inTime : w.now ≤ proposal.voteEnd)
      (first : voter ∉ proposal.voters) (stored : w.configEntry = some config) :
      Effect w (setProposal w id (proposal.count voter support (liveBalance w config voter)))
        (.castVote voter id support) (.weight (liveBalance w config voter))
  | alreadyFinal {id proposal} (found : w.proposalEntry id = some proposal)
      (final : proposal.status ≠ .active) :
      Effect w w (.finalize id) (.status proposal.status)
  | finalized {id proposal config status} (found : w.proposalEntry id = some proposal)
      (active : proposal.status = .active) (ended : proposal.voteEnd < w.now)
      (stored : w.configEntry = some config)
      (tally : status = if proposal.carried config then .succeeded else .defeated) :
      Effect w (setProposal w id { proposal with status }) (.finalize id) (.status status)
  | queued {id eta returns proposal} (found : w.proposalEntry id = some proposal)
      (succeeded : proposal.status = .succeeded)
      (delivered : w.timelockEntry = none ∨ returns = true) :
      Effect w (setProposal w id { proposal with status := .queued }) (.queue id eta returns)
        (.invoked (w.timelockEntry.map (proposal.handover eta)))
  | executed {id proposal} (found : w.proposalEntry id = some proposal)
      (queued : proposal.status = .queued) :
      Effect w (setProposal w id { proposal with status := .executed }) (.execute id true)
        (.invoked (some proposal.invocation))
  | advanced {seconds ledgers} :
      Effect w { w with now := w.now + seconds, sequence := w.sequence + ledgers }
        (.advance seconds ledgers) .unit
  | transferred {token src dst amount ledger}
      (moved : (w.tokens token).Moved ledger src dst amount) :
      Effect w { w with tokens := Function.update w.tokens token ledger }
        (.transfer token src dst amount) .unit

variable {w w' : World Address} {signers : List Address}

theorem requireAdmin_ok {caller : Address} {u : Unit}
    (h : requireAdmin signers w caller = .ok u) : w.adminEntry = some caller := by
  simp only [requireAdmin, bind_eq_ok, okOr_eq_ok, bail_eq_ok, not_not] at h
  obtain ⟨-, -, admin, hadmin, rfl⟩ := h
  exact hadmin

theorem castVote_ok {voter : Address} {id : ℕ} {support : Bool} {weight : ℤ}
    (h : castVote signers w voter id support = .ok (w', weight)) :
    Effect w w' (.castVote voter id support) (.weight weight) := by
  simp only [castVote, bind_eq_ok, okOr_eq_ok, bail_eq_ok, not_not, not_lt, pure_eq_ok,
    Prod.mk.injEq] at h
  obtain ⟨-, -, proposal, found, -, active, -, inTime, -, first, config, stored, counted, hcount,
    rfl, rfl⟩ := h
  have heq : { counted with voters := counted.voters ++ [voter] } =
      proposal.count voter support (liveBalance w config voter) := by
    cases support with
    | true =>
      simp only [if_true, bind_eq_ok, i128_eq_ok, pure_eq_ok] at hcount
      obtain ⟨_, ⟨-, rfl⟩, rfl⟩ := hcount
      simp [ProposalState.count]
    | false =>
      simp only [Bool.false_eq_true, if_false, bind_eq_ok, i128_eq_ok, pure_eq_ok] at hcount
      obtain ⟨_, ⟨-, rfl⟩, rfl⟩ := hcount
      simp [ProposalState.count]
  rw [heq]
  exact .voted found active inTime first stored

theorem finalize_ok {id : ℕ} {status : ProposalStatus} (h : finalize w id = .ok (w', status)) :
    Effect w w' (.finalize id) (.status status) := by
  simp only [finalize, bind_eq_ok, okOr_eq_ok] at h
  obtain ⟨proposal, found, h⟩ := h
  split_ifs at h with hs
  · simp only [pure_eq_ok, Prod.mk.injEq] at h
    obtain ⟨rfl, rfl⟩ := h
    exact .alreadyFinal found hs
  · simp only [bind_eq_ok, bail_eq_ok, okOr_eq_ok, i128_eq_ok, pure_eq_ok, Prod.mk.injEq,
      not_le] at h
    obtain ⟨-, ended, config, stored, _, ⟨-, rfl⟩, _, ⟨-, rfl⟩, rfl, rfl⟩ := h
    exact .finalized found (not_not.mp hs) ended stored rfl

omit [DecidableEq Address] in
theorem queue_ok {id eta : ℕ} {call : Option (Invocation Address)}
    (h : queue w id eta = .ok (w', call)) :
    ∃ proposal, w.proposalEntry id = some proposal ∧ proposal.status = .succeeded ∧
      w' = setProposal w id { proposal with status := .queued } ∧
      call = w.timelockEntry.map (proposal.handover eta) := by
  simp only [queue, bind_eq_ok, okOr_eq_ok, bail_eq_ok, not_not, pure_eq_ok, Prod.mk.injEq] at h
  obtain ⟨proposal, found, -, succeeded, rfl, rfl⟩ := h
  exact ⟨proposal, found, succeeded, rfl, rfl⟩

omit [DecidableEq Address] in
theorem execute_ok {id : ℕ} {call : Invocation Address} (h : execute w id = .ok (w', call)) :
    ∃ proposal, w.proposalEntry id = some proposal ∧ proposal.status = .queued ∧
      w' = setProposal w id { proposal with status := .executed } ∧
      call = proposal.invocation := by
  simp only [execute, bind_eq_ok, okOr_eq_ok, bail_eq_ok, not_not, pure_eq_ok, Prod.mk.injEq] at h
  obtain ⟨proposal, found, -, queued, rfl, rfl⟩ := h
  exact ⟨proposal, found, queued, rfl, rfl⟩

/-- Every accepted transaction has one of the effects. -/
theorem step_effect {tx : Transaction Address} {out : Answer Address}
    (h : step w tx = .ok (w', out)) : Effect w w' tx.op out := by
  obtain ⟨signers, op⟩ := tx
  cases op with
  | initializeContract admin config =>
    simp only [step, initializeContract, bind_eq_ok, bail_eq_ok, pure_eq_ok, Prod.mk.injEq,
      Option.not_isSome_iff_eq_none] at h
    obtain ⟨_, ⟨-, first, -, -, rfl⟩, rfl, rfl⟩ := h
    exact .initialized first
  | setTimelock caller timelock =>
    simp only [step, setTimelock, bind_eq_ok, pure_eq_ok, Prod.mk.injEq] at h
    obtain ⟨_, ⟨_, hadmin, rfl⟩, rfl, rfl⟩ := h
    exact .timelockSet (requireAdmin_ok hadmin)
  | setConfig caller config =>
    simp only [step, setConfig, bind_eq_ok, pure_eq_ok, Prod.mk.injEq] at h
    obtain ⟨_, ⟨_, hadmin, rfl⟩, rfl, rfl⟩ := h
    exact .configSet (requireAdmin_ok hadmin)
  | propose proposer target function args description =>
    simp only [step, propose, bind_eq_ok, okOr_eq_ok, bail_eq_ok, u64_eq_ok, pure_eq_ok,
      Prod.mk.injEq, not_lt, Prod.exists] at h
    obtain ⟨_, _, ⟨-, -, config, stored, -, holds, _, ⟨-, rfl⟩, _, ⟨-, rfl⟩, rfl, rfl⟩, rfl,
      rfl⟩ := h
    exact .proposed stored holds
  | castVote voter id support =>
    simp only [step, bind_eq_ok, pure_eq_ok, Prod.mk.injEq, Prod.exists] at h
    obtain ⟨_, weight, hvote, rfl, rfl⟩ := h
    exact castVote_ok hvote
  | finalize id =>
    simp only [step, bind_eq_ok, pure_eq_ok, Prod.mk.injEq, Prod.exists] at h
    obtain ⟨_, status, hfinal, rfl, rfl⟩ := h
    exact finalize_ok hfinal
  | queue id eta returns =>
    simp only [step, bind_eq_ok, demand_eq_ok, pure_eq_ok, Prod.mk.injEq, Prod.exists] at h
    obtain ⟨_, call, hqueue, -, delivered, rfl, rfl⟩ := h
    obtain ⟨proposal, found, succeeded, rfl, rfl⟩ := queue_ok hqueue
    exact .queued found succeeded (by simpa using delivered)
  | execute id returns =>
    simp only [step, bind_eq_ok, demand_eq_ok, pure_eq_ok, Prod.mk.injEq, Prod.exists] at h
    obtain ⟨_, call, hexec, -, rfl, rfl, rfl⟩ := h
    obtain ⟨proposal, found, queued, rfl, rfl⟩ := execute_ok hexec
    exact .executed found queued
  | advance seconds ledgers =>
    simp only [step, bind_eq_ok, u64_eq_ok, pure_eq_ok, Prod.mk.injEq] at h
    obtain ⟨_, ⟨-, rfl⟩, rfl, rfl⟩ := h
    exact .advanced
  | transfer token src dst amount =>
    simp only [step, bind_eq_ok, requireAuth_eq_ok, pure_eq_ok, Prod.mk.injEq] at h
    obtain ⟨-, -, ledger, hmove, rfl, rfl⟩ := h
    exact .transferred (Token.transfer_ok hmove)

/-! ### Ids -/

/-- Nothing is configured or proposed before `initialize`, and ids at or above
the counter are unused. -/
structure Numbered (w : World Address) : Prop where
  unconfigured : w.adminEntry = none → w.configEntry = none
  unused : w.adminEntry = none → ∀ id, w.proposalEntry id = none
  fresh : ∀ id, nextId w ≤ id → w.proposalEntry id = none

omit [DecidableEq Address] in
theorem numbered_deployed (now sequence : ℕ) (tokens : Address → Token Address) :
    Numbered (deployed now sequence tokens) :=
  ⟨fun _ => rfl, fun _ _ => rfl, fun _ _ => rfl⟩

omit [DecidableEq Address] in
/-- Rewriting a stored proposal keeps the numbering. -/
theorem Numbered.setProposal {id : ℕ} {p q : ProposalState Address} (n : Numbered w)
    (found : w.proposalEntry id = some p) : Numbered (setProposal w id q) where
  unconfigured := n.unconfigured
  unused hadmin := by
    rw [n.unused hadmin id] at found
    cases found
  fresh j hj := absent_update (n.fresh j hj) found

theorem Effect.numbered {op : Op Address} {out : Answer Address} (e : Effect w w' op out)
    (n : Numbered w) : Numbered w' := by
  cases e with
  | initialized first => exact ⟨nofun, nofun, fun id _ => n.unused first id⟩
  | timelockSet => exact ⟨n.unconfigured, n.unused, n.fresh⟩
  | configSet admin => exact ⟨by simp [admin], n.unused, n.fresh⟩
  | proposed stored =>
    have hadmin : w.adminEntry ≠ none := fun h => by simp [n.unconfigured h] at stored
    refine ⟨fun h => absurd h hadmin, fun h => absurd h hadmin, fun j hj => ?_⟩
    change nextId w + 1 ≤ j at hj
    have hne : j ≠ nextId w := by omega
    simpa [setProposal, hne] using n.fresh j (by omega)
  | voted found => exact n.setProposal found
  | alreadyFinal => exact n
  | finalized found => exact n.setProposal found
  | queued found => exact n.setProposal found
  | executed found => exact n.setProposal found
  | advanced => exact ⟨n.unconfigured, n.unused, n.fresh⟩
  | transferred => exact ⟨n.unconfigured, n.unused, n.fresh⟩

end RefractContracts.Governance
