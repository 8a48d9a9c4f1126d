import RefractContracts.Governance.Votes
import RefractContracts.Host.History

/-! The life of a proposal. Votes are accepted while it is active and its period runs,
once for each voter; the tally after the period decides it; what succeeded is queued
and what is queued is executed, and no status is entered twice. -/

namespace RefractContracts.Governance

open Host

variable {Address : Type} [DecidableEq Address] {w w' : World Address} {h : List (Event Address)}
  {x : Event Address} {id : ℕ} {p : ProposalState Address}

/-- A change of status that a proposal may go through in the state `w`. -/
inductive Advances (w : World Address) (p : ProposalState Address) : ProposalStatus → Prop
  | succeeded {config} (active : p.status = .active) (ended : p.voteEnd < w.now)
      (stored : w.configEntry = some config) (carried : p.carried config) : Advances w p .succeeded
  | defeated (active : p.status = .active) (ended : p.voteEnd < w.now) : Advances w p .defeated
  | queued (succeeded : p.status = .succeeded) : Advances w p .queued
  | executed (queued : p.status = .queued) : Advances w p .executed

/-- The proposal that the call executed. -/
def executed (x : Event Address) : Option ℕ :=
  match x.call.op with
  | .execute id _ => some id
  | _ => none

/-- The life of the proposals over a history. -/
structure Lifecycle (h : List (Event Address)) (w : World Address) : Prop where
  tally : ∀ id p, w.proposalEntry id = some p →
    p.votesFor + p.votesAgainst = ((ballots id h).map Prod.snd).sum
  once : ∀ id, ((ballots id h).map Prod.fst).Nodup
  voted : ∀ x ∈ h, ∀ voter id support, x.call.op = .castVote voter id support →
    ∃ p weight, x.pre.proposalEntry id = some p ∧ p.status = .active ∧ x.pre.now ≤ p.voteEnd ∧
      x.out = .weight weight
  created : ∀ x ∈ h, ∀ id p, x.pre.proposalEntry id = none → x.post.proposalEntry id = some p →
    p.status = .active
  advanced : ∀ x ∈ h, ∀ id p, x.pre.proposalEntry id = some p →
    ∃ q, x.post.proposalEntry id = some q ∧ q.voteEnd = p.voteEnd ∧
      (q.status = p.status ∨ Advances x.pre p q.status)
  executedOnce : (h.filterMap executed).Nodup

omit [DecidableEq Address] in
/-- Nothing follows the execution. -/
theorem Advances.not_executed {s : ProposalStatus} (m : Advances w p s) : p.status ≠ .executed := by
  intro hdone
  cases m with
  | succeeded active => cases hdone.symm.trans active
  | defeated active => cases hdone.symm.trans active
  | queued succeeded => cases hdone.symm.trans succeeded
  | executed queued => cases hdone.symm.trans queued

/-- A stored proposal stays stored, with its deadline, and advances or keeps its status. -/
theorem Effect.advances {op : Op Address} {out : Answer Address} (e : Effect w w' op out)
    (n : Numbered w) (found : w.proposalEntry id = some p) :
    ∃ q, w'.proposalEntry id = some q ∧ q.voteEnd = p.voteEnd ∧
      (q.status = p.status ∨ Advances w p q.status) := by
  cases e with
  | @proposed proposer target function args description config =>
    have hne := ne_of_absent (n.fresh (nextId w) le_rfl) found
    exact ⟨p, (Function.update_of_ne hne _ _).trans found, rfl, .inl rfl⟩
  | @voted voter j support proposal config stored =>
    rcases stored_update found stored (proposal.count voter support (liveBalance w config voter))
      with ⟨rfl, rfl, hnow⟩ | ⟨-, hnow⟩
    · exact ⟨_, hnow, rfl, .inl rfl⟩
    · exact ⟨p, hnow, rfl, .inl rfl⟩
  | @finalized j proposal config status stored active ended configured tally =>
    rcases stored_update found stored { proposal with status } with ⟨rfl, rfl, hnow⟩ | ⟨-, hnow⟩
    · refine ⟨_, hnow, rfl, .inr ?_⟩
      split_ifs at tally with hcarried
      · exact tally ▸ .succeeded active ended configured hcarried
      · exact tally ▸ .defeated active ended
    · exact ⟨p, hnow, rfl, .inl rfl⟩
  | @queued j eta returns proposal stored succeeded =>
    rcases stored_update found stored { proposal with status := .queued } with
      ⟨rfl, rfl, hnow⟩ | ⟨-, hnow⟩
    · exact ⟨_, hnow, rfl, .inr (.queued succeeded)⟩
    · exact ⟨p, hnow, rfl, .inl rfl⟩
  | @executed j proposal stored queued =>
    rcases stored_update found stored { proposal with status := .executed } with
      ⟨rfl, rfl, hnow⟩ | ⟨-, hnow⟩
    · exact ⟨_, hnow, rfl, .inr (.executed queued)⟩
    · exact ⟨p, hnow, rfl, .inl rfl⟩
  | _ => exact ⟨p, found, rfl, .inl rfl⟩

/-- A proposal that a call stores for the first time is active. -/
theorem Effect.created {op : Op Address} {out : Answer Address} (e : Effect w w' op out)
    (absent : w.proposalEntry id = none) (found : w'.proposalEntry id = some p) :
    p.status = .active := by
  have hother : ∀ {j q r}, w.proposalEntry j = some q →
      Function.update w.proposalEntry j (some r) id ≠ some p := fun stored hnow => by
    rw [absent_update absent stored] at hnow
    cases hnow
  cases e with
  | proposed =>
    rcases update_eq_some found with ⟨-, rfl⟩ | ⟨-, hold⟩
    · rfl
    · cases absent.symm.trans hold
  | voted stored => exact absurd found (hother stored)
  | finalized stored => exact absurd found (hother stored)
  | queued stored => exact absurd found (hother stored)
  | executed stored => exact absurd found (hother stored)
  | _ => cases absent.symm.trans found

/-- An executed proposal stays executed. -/
theorem Effect.executed_stays {op : Op Address} {out : Answer Address} (e : Effect w w' op out)
    (n : Numbered w) (hp : ∃ p, w.proposalEntry id = some p ∧ p.status = .executed) :
    ∃ p, w'.proposalEntry id = some p ∧ p.status = .executed := by
  obtain ⟨p, found, hstatus⟩ := hp
  obtain ⟨q, hq, -, hsame | hmove⟩ := e.advances n found
  · exact ⟨q, hq, hsame.trans hstatus⟩
  · exact absurd hstatus hmove.not_executed

/-- The executed proposals of a history are distinct and stored as executed. -/
structure Executed (h : List (Event Address)) (w : World Address) : Prop where
  numbered : Numbered w
  once : Once executed (fun id => ∃ p, w.proposalEntry id = some p ∧ p.status = .executed) h

theorem executed_step (h : List (Event Address)) (x : Event Address)
    (accepted : step x.pre x.call = .ok (x.post, x.out)) (i : Executed h x.pre) :
    Executed (h ++ [x]) x.post := by
  have e := step_effect accepted
  refine ⟨e.numbered i.numbered, i.once.snoc (fun _ => e.executed_stays i.numbered) ?_⟩
  intro id hx
  obtain ⟨pre, ⟨signers, op⟩, out, post⟩ := x
  simp only at e ⊢
  cases e with
  | @executed j proposal found queued =>
    obtain rfl : j = id := Option.some.inj hx
    refine ⟨?_, _, proposalEntry_setProposal_self _ _ _, rfl⟩
    rintro ⟨old, hold, hstatus⟩
    obtain rfl : proposal = old := Option.some.inj (found.symm.trans hold)
    cases queued.symm.trans hstatus
  | _ => cases hx

section Runs
variable {now sequence : ℕ} {tokens : Address → Token Address}

theorem executed_trace (tr : Trace step (deployed now sequence tokens) h w) : Executed h w :=
  tr.history executed_step ⟨numbered_deployed now sequence tokens, .nil⟩

omit [DecidableEq Address] in
/-- Distinct voters: the voters of a stored proposal are, and there are none without one. -/
theorem Tallied.ballots_nodup (i : Tallied h w) (id : ℕ) :
    ((ballots id h).map Prod.fst).Nodup := by
  cases hp : w.proposalEntry id with
  | none =>
    rw [i.unused id hp]
    exact List.nodup_nil
  | some p =>
    have c := i.counted id p hp
    exact c.voters ▸ c.nodup

/-- In every run the proposals are voted on, decided, queued and executed as their
life cycle has it. -/
theorem proposal_lifecycle (now sequence : ℕ) (tokens : Address → Token Address)
    (calls : List (Transaction Address)) :
    let r := run step (deployed now sequence tokens) calls
    Lifecycle r.2 r.1 := by
  intro r
  have tr : Trace step (deployed now sequence tokens) r.2 r.1 := run_trace step _ calls
  have hreceipt : ∀ x ∈ r.2, Numbered x.pre ∧ Effect x.pre x.post x.call.op x.out := by
    intro x hx
    obtain ⟨n, accepted⟩ := run_receipt (I := Numbered)
      (fun y hy n => (step_effect hy).numbered n) (numbered_deployed now sequence tokens) hx
    exact ⟨n, step_effect accepted⟩
  refine ⟨fun id p found => ((tallied_trace tr).counted id p found).tally,
    (tallied_trace tr).ballots_nodup, fun x hx voter id support hop => ?_,
    fun x hx id p => (hreceipt x hx).2.created, fun x hx id p found => ?_,
    (executed_trace tr).once.nodup⟩
  · obtain ⟨-, e⟩ := hreceipt x hx
    rw [hop] at e
    generalize x.out = out at e ⊢
    generalize x.post = post at e
    cases e with
    | voted found active inTime => exact ⟨_, _, found, active, inTime, rfl⟩
  · obtain ⟨n, e⟩ := hreceipt x hx
    exact e.advances n found

end Runs

end RefractContracts.Governance
