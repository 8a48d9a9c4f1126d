import RefractContracts.Governance.Effects
import RefractContracts.Timelock.Operations

/-! The governor with its timelocks. `queue` hands a proposal to the configured
timelock, which keeps an operation of its own for it; `execute` calls the target
itself, whether a timelock is configured or not. A proposal's call is made only
through the timelock, after its delay and once, exactly in the runs in which the
governor's `execute` is not used beside a timelock. -/

namespace RefractContracts.Governance

open Host

/-- A call of a proposal's target that returned: the timelock operation it came
through, if any, and whether the governor had a timelock then. -/
structure TargetCall (Address : Type) where
  proposal : ℕ
  route : Option (Address × ℕ)
  time : ℕ
  wired : Bool

/-- The governor, a timelock at every address, and the history that links them:
for which proposal an operation was queued, and the target calls that returned. -/
structure System (Address : Type) where
  governor : World Address
  timelocks : Address → Timelock.World Address
  origin : Address → ℕ → Option ℕ
  calls : List (TargetCall Address)

variable {Address : Type}

/-- The contracts before their calls of `initialize`. -/
def System.deployed (now sequence : ℕ) (tokens : Address → Token Address) : System Address where
  governor := Governance.deployed now sequence tokens
  timelocks _ := Timelock.deployed Address now
  origin _ _ := none
  calls := []

namespace System

/-- The timelock at `host` at the governor's time. -/
def clocked (s : System Address) (host : Address) : Timelock.World Address :=
  { s.timelocks host with now := s.governor.now }

/-- The call of an operation is the call of the proposal it was queued for. -/
def viaTimelock (host : Address) (c : Timelock.Sent) (proposal : ℕ) : TargetCall Address :=
  ⟨proposal, some (host, c.id), c.time, true⟩

/-- The target calls of proposals among the calls `sent` by the timelock at `host`. -/
def attributed (origin : Address → ℕ → Option ℕ) (host : Address) (sent : List Timelock.Sent) :
    List (TargetCall Address) :=
  sent.filterMap fun c => (origin host c.id).map (viaTimelock host c)

end System

def callsOf (calls : List (TargetCall Address)) (proposal : ℕ) : List (TargetCall Address) :=
  calls.filter (·.proposal = proposal)

theorem callsOf_append (calls more : List (TargetCall Address)) (proposal : ℕ) :
    callsOf (calls ++ more) proposal = callsOf calls proposal ++ callsOf more proposal :=
  List.filter_append _ _

/-- A transaction on the governor or on a timelock. -/
inductive SystemOp (Address : Type) where
  | governor (op : Op Address)
  | timelock (host : Address) (op : Timelock.Op Address)

structure SystemTransaction (Address : Type) where
  signers : List Address
  op : SystemOp Address

inductive SystemError where
  | governor (e : GovernanceError)
  | timelock (e : Timelock.TimelockError)
  deriving DecidableEq, Repr

variable [DecidableEq Address]

/-- The timelock's entry point `queue` as another contract invokes it. -/
def receiveQueue (signers : List Address) (w : Timelock.World Address) (call : Invocation Address) :
    Timelock.Call (Timelock.World Address × ℕ) :=
  match call.function, call.args with
  | "queue", [.address target, .symbol function, .vec args, .u64 eta] =>
    Timelock.queue signers w target function args eta
  | _, _ => throw .trap

/-- One transaction. The governor, at address `self`, is the invoker of the
timelock's `queue`. The target of a call is any contract; what it does to the
governor or to a timelock in turn is a transaction that follows. -/
def systemStep (self : Address) :
    Contract (System Address) (SystemTransaction Address) Unit SystemError :=
  fun s tx =>
    match tx.op with
    | .governor (.queue id eta _) => do
      let (governor, call) ← embed .governor (queue s.governor id eta)
      match call with
      | none => return ({ s with governor }, ())
      | some call => do
        let host := call.contract
        let (timelock, operation) ← invoke (receiveQueue (self :: tx.signers) (s.clocked host) call)
        return ({ s with
          governor
          timelocks := Function.update s.timelocks host timelock
          origin := Function.update s.origin host
            (Function.update (s.origin host) operation (some id)) }, ())
    | .governor (.execute id returns) => do
      let (governor, _) ← embed .governor (execute s.governor id)
      demand returns
      return ({ s with
        governor
        calls := s.calls ++ [⟨id, none, s.governor.now, s.governor.timelockEntry.isSome⟩] }, ())
    | .governor op => do
      let (governor, _) ← embed .governor (step s.governor ⟨tx.signers, op⟩)
      return ({ s with governor }, ())
    | .timelock host op => do
      let before := s.clocked host
      let (timelock, _) ← embed .timelock (Timelock.step before ⟨tx.signers, op⟩)
      return ({ s with
        timelocks := Function.update s.timelocks host timelock
        calls := s.calls ++
          System.attributed s.origin host (timelock.sent.drop before.sent.length) }, ())

/-! ### What a transaction does -/

abbrev SystemEvent (Address : Type) :=
  Receipt (System Address) (SystemTransaction Address) Unit

/-- An operation of the timelock carries the call of a proposal. -/
structure Carries (op : Timelock.TimelockOperation Address) (p : ProposalState Address) : Prop where
  target : op.target = p.target
  function : op.function = p.function
  args : op.args = p.args

inductive SystemEffect (s : System Address) : System Address → SystemOp Address → Prop
  | governed {op governor out} (e : Effect s.governor governor op out)
      (notQueue : ∀ id eta returns, op ≠ .queue id eta returns)
      (notExecute : ∀ id returns, op ≠ .execute id returns) :
      SystemEffect s { s with governor } (.governor op)
  | queuedAlone {id eta returns proposal} (found : s.governor.proposalEntry id = some proposal)
      (succeeded : proposal.status = .succeeded) (alone : s.governor.timelockEntry = none) :
      SystemEffect s { s with
          governor := setProposal s.governor id { proposal with status := .queued } }
        (.governor (.queue id eta returns))
  | handedOver {id eta returns proposal host timelock operation}
      (found : s.governor.proposalEntry id = some proposal)
      (succeeded : proposal.status = .succeeded) (wired : s.governor.timelockEntry = some host)
      (accepted : operation = Timelock.nextId (s.timelocks host) ∧
        Timelock.Moves (s.clocked host) timelock ∧ timelock.sent = (s.timelocks host).sent ∧
        timelock.operationEntry operation =
          some (Timelock.pendingOperation proposal.target proposal.function proposal.args eta)) :
      SystemEffect s { s with
          governor := setProposal s.governor id { proposal with status := .queued }
          timelocks := Function.update s.timelocks host timelock
          origin := Function.update s.origin host
            (Function.update (s.origin host) operation (some id)) }
        (.governor (.queue id eta returns))
  | executedDirectly {id proposal} (found : s.governor.proposalEntry id = some proposal)
      (queued : proposal.status = .queued) :
      SystemEffect s { s with
          governor := setProposal s.governor id { proposal with status := .executed }
          calls := s.calls ++ [⟨id, none, s.governor.now, s.governor.timelockEntry.isSome⟩] }
        (.governor (.execute id true))
  | timelocked {host op timelock sent} (moves : Timelock.Moves (s.clocked host) timelock)
      (grown : timelock.sent = (s.timelocks host).sent ++ sent) :
      SystemEffect s { s with
          timelocks := Function.update s.timelocks host timelock
          calls := s.calls ++ System.attributed s.origin host sent }
        (.timelock host op)

variable {s s' : System Address} {self : Address}

theorem systemStep_effect {tx : SystemTransaction Address} {out : Unit}
    (h : systemStep self s tx = .ok (s', out)) : SystemEffect s s' tx.op := by
  obtain ⟨signers, op⟩ := tx
  unfold systemStep at h
  split at h
  · next id eta returns hop =>
    simp only [bind_eq_ok, embed_eq_ok, Prod.exists] at h
    obtain ⟨governor, call, hq, h⟩ := h
    obtain ⟨proposal, found, succeeded, rfl, rfl⟩ := queue_ok hq
    cases hw : s.governor.timelockEntry with
    | none =>
      simp only [hw, Option.map_none, pure_eq_ok, Prod.mk.injEq] at h
      obtain ⟨rfl, -⟩ := h
      simp only at hop
      rw [hop]
      exact .queuedAlone found succeeded hw
    | some host =>
      simp only [hw, Option.map_some, ProposalState.handover, receiveQueue, bind_eq_ok,
        invoke_eq_ok, pure_eq_ok, Prod.mk.injEq, Prod.exists] at h
      obtain ⟨timelock, operation, htl, rfl, -⟩ := h
      simp only at hop
      rw [hop]
      obtain ⟨rfl, administered, delayed, rfl⟩ := Timelock.queue_ok htl
      refine .handedOver found succeeded hw ⟨rfl, ?_, rfl, ?_⟩
      · exact (Timelock.Move.queued administered delayed).moves
      · exact Function.update_self _ _ _
  · next id returns hop =>
    simp only [bind_eq_ok, embed_eq_ok, demand_eq_ok, pure_eq_ok, Prod.mk.injEq, Prod.exists] at h
    obtain ⟨governor, call, hx, -, rfl, rfl, -⟩ := h
    obtain ⟨proposal, found, queued, rfl, -⟩ := execute_ok hx
    simp only at hop
    rw [hop]
    exact .executedDirectly found queued
  · next op hq hx hop =>
    simp only [bind_eq_ok, embed_eq_ok, pure_eq_ok, Prod.mk.injEq, Prod.exists] at h
    obtain ⟨governor, _, hstep, rfl, -⟩ := h
    simp only at hop
    rw [hop]
    exact .governed (step_effect hstep) (fun _ _ _ => hq _ _ _) (fun _ _ => hx _ _)
  · next host op hop =>
    simp only [bind_eq_ok, embed_eq_ok, pure_eq_ok, Prod.mk.injEq, Prod.exists] at h
    obtain ⟨timelock, _, hstep, rfl, -⟩ := h
    simp only at hop
    rw [hop]
    have moves := Timelock.step_moves hstep
    obtain ⟨sent, hsent⟩ := moves.sent_prefix
    rw [← hsent, List.drop_left]
    exact .timelocked moves hsent.symm

/-! ### The joint invariant -/

/-- The two status machines together, in a run without direct calls beside a
timelock. An operation queued for a proposal belongs to it alone, and the calls
of the proposal are those the timelock has sent for the operation; a proposal
without an operation has been called at most by the governor. -/
structure Joint (s : System Address) : Prop where
  numbered : Numbered s.governor
  logged : ∀ host, Timelock.Logged (s.timelocks host)
  unwired : s.governor.timelockEntry = none → ∀ host i, s.origin host i = none
  handed : ∀ host i id, s.origin host i = some id → ∃ p op,
    s.governor.proposalEntry id = some p ∧ p.status = .queued ∧
    (s.timelocks host).operationEntry i = some op ∧ Carries op p
  injective : ∀ host i host' i' id, s.origin host i = some id → s.origin host' i' = some id →
    host = host' ∧ i = i'
  via : ∀ host i id, s.origin host i = some id → callsOf s.calls id =
    ((s.timelocks host).sent.filter (·.id = i)).map (System.viaTimelock host · id)
  direct : ∀ id, (∀ host i, s.origin host i ≠ some id) → callsOf s.calls id = [] ∨
    ∃ p time, s.governor.proposalEntry id = some p ∧ p.status = .executed ∧
      callsOf s.calls id = [⟨id, none, time, false⟩]

omit [DecidableEq Address] in
theorem joint_deployed (now sequence : ℕ) (tokens : Address → Token Address) :
    Joint (System.deployed now sequence tokens) where
  numbered := numbered_deployed now sequence tokens
  logged _ := Timelock.logged_deployed now
  unwired _ _ _ := rfl
  handed := nofun
  injective := nofun
  via := nofun
  direct _ _ := .inl rfl

/-- A proposal that is queued or executed is changed by no operation but these two. -/
theorem Effect.settled {w w' : World Address} {op : Op Address} {out : Answer Address} {id : ℕ}
    {p : ProposalState Address} (e : Effect w w' op out) (n : Numbered w)
    (hq : ∀ id eta returns, op ≠ .queue id eta returns)
    (hx : ∀ id returns, op ≠ .execute id returns)
    (found : w.proposalEntry id = some p) (settled : p.status = .queued ∨ p.status = .executed) :
    w'.proposalEntry id = some p := by
  cases e with
  | proposed =>
    have hid : id ≠ nextId w := ne_of_absent (n.fresh _ le_rfl) found
    simpa [setProposal, hid] using found
  | @voted _ j _ _ _ hj active | @finalized j _ _ _ hj active =>
    have hid : id ≠ j := by
      rintro rfl
      obtain rfl := Option.some.inj (found.symm.trans hj)
      simp [active] at settled
    simpa [setProposal, hid] using found
  | queued => exact absurd rfl (hq _ _ _)
  | executed => exact absurd rfl (hx _ _)
  | _ => exact found

/-- The timelock is never taken away. -/
theorem Effect.wired {w w' : World Address} {op : Op Address} {out : Answer Address}
    (e : Effect w w' op out) (h : w'.timelockEntry = none) : w.timelockEntry = none := by
  cases e with
  | timelockSet => cases h
  | _ => exact h

/-- Of the calls a timelock sends, those of one proposal are those of its operation. -/
theorem Joint.attributed_of_origin (j : Joint s) {host host' : Address} {i id : ℕ}
    (ho : s.origin host i = some id) (sent : List Timelock.Sent) :
    callsOf (System.attributed s.origin host' sent) id =
      if host' = host then (sent.filter (·.id = i)).map (System.viaTimelock host · id) else [] := by
  induction sent with
  | nil => simp [System.attributed, callsOf]
  | cons c sent ih =>
    unfold System.attributed callsOf at ih ⊢
    rw [List.filterMap_cons]
    cases hc : s.origin host' c.id with
    | none =>
      rw [Option.map_none, ih]
      by_cases hh : host' = host
      · subst hh
        have hi : c.id ≠ i := (ne_of_absent hc ho).symm
        simp [hi]
      · simp [hh]
    | some id' =>
      rw [Option.map_some, List.filter_cons, ih]
      by_cases he : id' = id
      · subst he
        obtain ⟨rfl, rfl⟩ := j.injective _ _ _ _ _ hc ho
        simp [System.viaTimelock]
      · by_cases hh : host' = host
        · subst hh
          have hi : c.id ≠ i := by
            rintro rfl
            exact he (Option.some.inj (hc.symm.trans ho))
          simp [System.viaTimelock, he, hi]
        · simp [System.viaTimelock, he, hh]

omit [DecidableEq Address] in
theorem attributed_of_no_origin {id : ℕ} (ho : ∀ host i, s.origin host i ≠ some id)
    (host : Address) (sent : List Timelock.Sent) :
    callsOf (System.attributed s.origin host sent) id = [] := by
  unfold callsOf
  rw [List.filter_eq_nil_iff]
  intro c hc
  obtain ⟨d, -, hd⟩ := List.mem_filterMap.mp hc
  obtain ⟨id', hid', rfl⟩ := Option.map_eq_some_iff.mp hd
  have hne : id' ≠ id := by
    rintro rfl
    exact ho host d.id hid'
  simp [System.viaTimelock, hne]

namespace Joint

variable {id : ℕ} {p : ProposalState Address}

omit [DecidableEq Address] in
theorem clocked (j : Joint s) (host : Address) : Timelock.Logged (s.clocked host) :=
  let l := j.logged host
  ⟨l.unused, l.fresh, l.executed, l.once⟩

omit [DecidableEq Address] in
/-- Only a queued proposal has an operation. -/
theorem no_origin (j : Joint s) (found : s.governor.proposalEntry id = some p)
    (hs : p.status ≠ .queued) (host : Address) (i : ℕ) : s.origin host i ≠ some id := by
  intro h
  obtain ⟨q, -, hq, hqueued, -⟩ := j.handed host i id h
  obtain rfl := Option.some.inj (found.symm.trans hq)
  exact hs hqueued

omit [DecidableEq Address] in
/-- A proposal that has neither an operation nor been executed has not been called. -/
theorem uncalled (j : Joint s) (ho : ∀ host i, s.origin host i ≠ some id)
    (found : s.governor.proposalEntry id = some p) (hs : p.status ≠ .executed) :
    callsOf s.calls id = [] := by
  rcases j.direct id ho with h | ⟨q, time, hq, hexecuted, -⟩
  · exact h
  · obtain rfl := Option.some.inj (found.symm.trans hq)
    exact absurd hexecuted hs

theorem governed (j : Joint s) {op : Op Address} {governor : World Address} {out : Answer Address}
    (e : Effect s.governor governor op out) (hq : ∀ id eta returns, op ≠ .queue id eta returns)
    (hx : ∀ id returns, op ≠ .execute id returns) : Joint { s with governor } where
  numbered := e.numbered j.numbered
  logged := j.logged
  unwired h := j.unwired (e.wired h)
  handed host i id h := by
    obtain ⟨p, op, hp, hs, ho, hc⟩ := j.handed host i id h
    exact ⟨p, op, e.settled j.numbered hq hx hp (.inl hs), hs, ho, hc⟩
  injective := j.injective
  via := j.via
  direct id h := by
    rcases j.direct id h with hnil | ⟨p, time, hp, hs, hcalls⟩
    · exact .inl hnil
    · exact .inr ⟨p, time, e.settled j.numbered hq hx hp (.inr hs), hs, hcalls⟩

omit [DecidableEq Address] in
theorem queuedAlone (j : Joint s) (found : s.governor.proposalEntry id = some p)
    (succeeded : p.status = .succeeded) (alone : s.governor.timelockEntry = none) :
    Joint { s with governor := setProposal s.governor id { p with status := .queued } } where
  numbered := j.numbered.setProposal found
  logged := j.logged
  unwired := j.unwired
  handed host i id' h := by
    rw [j.unwired alone] at h
    cases h
  injective := j.injective
  via := j.via
  direct id' h := by
    by_cases hid : id' = id
    · subst hid
      exact .inl (j.uncalled h found (by simp [succeeded]))
    · simpa only [proposalEntry_setProposal_of_ne _ _ hid] using j.direct id' h

omit [DecidableEq Address] in
theorem executedDirectly (j : Joint s) (found : s.governor.proposalEntry id = some p)
    (queued : p.status = .queued) (alone : s.governor.timelockEntry = none) :
    Joint { s with
      governor := setProposal s.governor id { p with status := .executed }
      calls := s.calls ++ [⟨id, none, s.governor.now, s.governor.timelockEntry.isSome⟩] } where
  numbered := j.numbered.setProposal found
  logged := j.logged
  unwired := j.unwired
  handed host i id' h := by
    rw [j.unwired alone] at h
    cases h
  injective := j.injective
  via host i id' h := by
    rw [j.unwired alone] at h
    cases h
  direct id' h := by
    rw [callsOf_append]
    by_cases hid : id' = id
    · subst hid
      rw [j.uncalled h found (by simp [queued])]
      exact .inr ⟨_, s.governor.now, proposalEntry_setProposal_self _ _ _, rfl,
        by simp [callsOf, alone]⟩
    · have hnone : callsOf [(⟨id, none, s.governor.now, s.governor.timelockEntry.isSome⟩ :
          TargetCall Address)] id' = [] := by
        simp [callsOf, Ne.symm hid]
      simpa only [proposalEntry_setProposal_of_ne _ _ hid, hnone, List.append_nil]
        using j.direct id' h

theorem timelocked (j : Joint s) {host : Address} {timelock : Timelock.World Address}
    {sent : List Timelock.Sent} (moves : Timelock.Moves (s.clocked host) timelock)
    (grown : timelock.sent = (s.timelocks host).sent ++ sent) :
    Joint { s with
      timelocks := Function.update s.timelocks host timelock
      calls := s.calls ++ System.attributed s.origin host sent } where
  numbered := j.numbered
  logged host' := by
    by_cases hh : host' = host
    · subst hh
      simpa using moves.logged (j.clocked host')
    · simpa [hh] using j.logged host'
  unwired := j.unwired
  handed host' i id h := by
    obtain ⟨p, op, hp, hs, ho, hc⟩ := j.handed host' i id h
    by_cases hh : host' = host
    · subst hh
      obtain ⟨op', ho', same⟩ := moves.kept (j.clocked host') ho
      exact ⟨p, op', hp, hs, by simpa using ho', same.target.trans hc.target,
        same.function.trans hc.function, same.args.trans hc.args⟩
    · exact ⟨p, op, hp, hs, by simpa [hh] using ho, hc⟩
  injective := j.injective
  via host' i id h := by
    have hold := j.via host' i id h
    rw [callsOf_append, hold, j.attributed_of_origin h]
    by_cases hh : host = host'
    · subst hh
      simp [grown]
    · simp [hh, Ne.symm hh]
  direct id h := by
    rw [callsOf_append, attributed_of_no_origin h, List.append_nil]
    exact j.direct id h

omit [DecidableEq Address] in
/-- The next operation of a timelock belongs to no proposal and has sent nothing. -/
theorem next_operation (j : Joint s) (host : Address) :
    (∀ id, s.origin host (Timelock.nextId (s.timelocks host)) ≠ some id) ∧
      (s.timelocks host).sent.filter (·.id = Timelock.nextId (s.timelocks host)) = [] := by
  have hfresh := (j.logged host).fresh _ le_rfl
  constructor
  · intro id h
    obtain ⟨_, op, -, -, ho, -⟩ := j.handed host _ id h
    rw [hfresh] at ho
    cases ho
  · rw [List.filter_eq_nil_iff]
    intro c hc
    obtain ⟨op, ho, -⟩ := (j.logged host).executed c hc
    have hne : c.id ≠ Timelock.nextId (s.timelocks host) := ne_of_absent hfresh ho
    simpa using hne

/-- An entry after the handover is the new one, or an old one of another proposal. -/
theorem origin_handedOver {origin : Address → ℕ → Option ℕ} {host host' : Address}
    {operation i id id' : ℕ} (hnone : ∀ host i, origin host i ≠ some id)
    (h : Function.update origin host (Function.update (origin host) operation (some id)) host' i =
      some id') :
    (host' = host ∧ i = operation ∧ id' = id) ∨ (origin host' i = some id' ∧ id' ≠ id) := by
  have hold : origin host' i = some id' → id' ≠ id := by
    rintro ho rfl
    exact hnone host' i ho
  by_cases hh : host' = host
  · subst hh
    by_cases hi : i = operation
    · exact .inl ⟨rfl, hi, by simpa [hi] using h.symm⟩
    · have ho : origin host' i = some id' := by simpa [hi] using h
      exact .inr ⟨ho, hold ho⟩
  · have ho : origin host' i = some id' := by simpa [hh] using h
    exact .inr ⟨ho, hold ho⟩

/-- A proposal without an entry after the handover had none before. -/
theorem no_origin_handedOver {origin : Address → ℕ → Option ℕ} {host : Address}
    {operation id id' : ℕ} (hfree : ∀ id, origin host operation ≠ some id)
    (h : ∀ host' i, Function.update origin host
      (Function.update (origin host) operation (some id)) host' i ≠ some id') :
    id' ≠ id ∧ ∀ host' i, origin host' i ≠ some id' := by
  constructor
  · rintro rfl
    exact h host operation (by simp)
  · intro host' i ho
    refine h host' i ?_
    by_cases hh : host' = host
    · subst hh
      have hi : i ≠ operation := by
        rintro rfl
        exact hfree id' ho
      simpa [hi] using ho
    · simpa [hh] using ho

theorem handedOver (j : Joint s) {eta operation : ℕ} {host : Address}
    {timelock : Timelock.World Address} (found : s.governor.proposalEntry id = some p)
    (succeeded : p.status = .succeeded) (wired : s.governor.timelockEntry = some host)
    (hop : operation = Timelock.nextId (s.timelocks host))
    (moves : Timelock.Moves (s.clocked host) timelock)
    (silent : timelock.sent = (s.timelocks host).sent)
    (stored : timelock.operationEntry operation =
      some (Timelock.pendingOperation p.target p.function p.args eta)) :
    Joint { s with
      governor := setProposal s.governor id { p with status := .queued }
      timelocks := Function.update s.timelocks host timelock
      origin := Function.update s.origin host
        (Function.update (s.origin host) operation (some id)) } := by
  have hnone := j.no_origin found (by simp [succeeded])
  obtain ⟨hfree, hsilent⟩ := j.next_operation host
  rw [← hop] at hfree hsilent
  constructor
  case numbered => exact j.numbered.setProposal found
  case logged =>
    intro host'
    by_cases hh : host' = host
    · subst hh
      simpa using moves.logged (j.clocked host')
    · simpa [hh] using j.logged host'
  case unwired =>
    intro h
    change s.governor.timelockEntry = none at h
    simp [wired] at h
  case handed =>
    intro host' i id' h
    rcases origin_handedOver hnone h with ⟨rfl, rfl, rfl⟩ | ⟨ho, hne⟩
    · exact ⟨_, _, proposalEntry_setProposal_self _ _ _, rfl, by simpa using stored,
        ⟨rfl, rfl, rfl⟩⟩
    · obtain ⟨q, op, hq, hs, hentry, hc⟩ := j.handed host' i id' ho
      refine ⟨q, ?_⟩
      rw [proposalEntry_setProposal_of_ne _ _ hne]
      by_cases hh : host' = host
      · subst hh
        obtain ⟨op', hentry', same⟩ := moves.kept (j.clocked host') hentry
        exact ⟨op', hq, hs, by simpa using hentry', same.target.trans hc.target,
          same.function.trans hc.function, same.args.trans hc.args⟩
      · exact ⟨op, hq, hs, by simpa [hh] using hentry, hc⟩
  case injective =>
    intro host₁ i₁ host₂ i₂ id' h₁ h₂
    rcases origin_handedOver hnone h₁ with ⟨rfl, rfl, rfl⟩ | ⟨ho₁, hne₁⟩
    · rcases origin_handedOver hnone h₂ with ⟨rfl, rfl, -⟩ | ⟨-, hne₂⟩
      · exact ⟨rfl, rfl⟩
      · exact absurd rfl hne₂
    · rcases origin_handedOver hnone h₂ with ⟨-, -, rfl⟩ | ⟨ho₂, -⟩
      · exact absurd rfl hne₁
      · exact j.injective _ _ _ _ _ ho₁ ho₂
  case via =>
    intro host' i id' h
    rcases origin_handedOver hnone h with ⟨rfl, rfl, rfl⟩ | ⟨ho, -⟩
    · rw [j.uncalled hnone found (by simp [succeeded])]
      simp [silent, hsilent]
    · rw [j.via host' i id' ho]
      by_cases hh : host' = host
      · subst hh
        simp [silent]
      · simp [hh]
  case direct =>
    intro id' h
    obtain ⟨hne, hold⟩ := no_origin_handedOver hfree h
    simpa only [proposalEntry_setProposal_of_ne _ _ hne] using j.direct id' hold

end Joint

/-! ### Only through the timelock -/

/-- Beside a timelock, the target call of a proposal is made only by an operation
of the timelock that carries it, not before the `eta` of the operation, and at
most once. -/
structure ThroughTimelock (s : System Address) : Prop where
  routed : ∀ c ∈ s.calls, c.wired = true → c.route.isSome
  delayed : ∀ c ∈ s.calls, ∀ host i, c.route = some (host, i) → ∃ p op,
    s.governor.proposalEntry c.proposal = some p ∧
    (s.timelocks host).operationEntry i = some op ∧ Carries op p ∧ op.eta ≤ c.time
  once : ∀ id, (callsOf s.calls id).length ≤ 1

/-- The governor's own `execute`, in a state with a timelock. -/
def DirectBesideTimelock (x : SystemEvent Address) : Prop :=
  ∃ id returns, x.call.op = .governor (.execute id returns) ∧
    x.pre.governor.timelockEntry.isSome

theorem joint_step {self : Address} (x : SystemEvent Address) (hd : ¬ DirectBesideTimelock x)
    (hx : systemStep self x.pre x.call = .ok (x.post, x.out)) (j : Joint x.pre) :
    Joint x.post := by
  have e := systemStep_effect hx
  obtain ⟨pre, ⟨signers, op⟩, out, post⟩ := x
  simp only at e j ⊢
  cases e with
  | governed e notQueue notExecute => exact j.governed e notQueue notExecute
  | queuedAlone found succeeded alone => exact j.queuedAlone found succeeded alone
  | handedOver found succeeded wired accepted =>
    exact j.handedOver found succeeded wired accepted.1 accepted.2.1 accepted.2.2.1 accepted.2.2.2
  | executedDirectly found queued =>
    have alone : pre.governor.timelockEntry = none := by
      by_contra h
      exact hd ⟨_, true, rfl, Option.isSome_iff_ne_none.mpr h⟩
    exact j.executedDirectly found queued alone
  | timelocked moves grown => exact j.timelocked moves grown

omit [DecidableEq Address] in
/-- What a call of a proposal is, under the joint invariant. -/
theorem Joint.call_cases (j : Joint s) {c : TargetCall Address} (hc : c ∈ s.calls) :
    (∃ host i, s.origin host i = some c.proposal ∧
      ∃ d ∈ (s.timelocks host).sent, d.id = i ∧ c = System.viaTimelock host d c.proposal) ∨
    (c.route = none ∧ c.wired = false) := by
  have hmem : c ∈ callsOf s.calls c.proposal := List.mem_filter.mpr ⟨hc, by simp⟩
  by_cases ho : ∃ host i, s.origin host i = some c.proposal
  · obtain ⟨host, i, ho⟩ := ho
    rw [j.via host i _ ho] at hmem
    obtain ⟨d, hd, heq⟩ := List.mem_map.mp hmem
    obtain ⟨hsent, hid⟩ := List.mem_filter.mp hd
    exact .inl ⟨host, i, ho, d, hsent, by simpa using hid, heq.symm⟩
  · push Not at ho
    rcases j.direct _ ho with hnil | ⟨p, time, -, -, hone⟩
    · rw [hnil] at hmem
      cases hmem
    · rw [hone, List.mem_singleton] at hmem
      rw [hmem]
      exact .inr ⟨rfl, rfl⟩

omit [DecidableEq Address] in
theorem Joint.throughTimelock (j : Joint s) : ThroughTimelock s where
  routed c hc hw := by
    rcases j.call_cases hc with ⟨host, i, -, d, -, -, heq⟩ | ⟨-, hf⟩
    · rw [heq]
      rfl
    · simp [hw] at hf
  delayed c hc host i hr := by
    rcases j.call_cases hc with ⟨host', i', ho, d, hd, rfl, heq⟩ | ⟨hnone, -⟩
    · obtain ⟨rfl, rfl⟩ : host' = host ∧ d.id = i := by
        rw [heq] at hr
        simpa [System.viaTimelock] using hr
      have htime : c.time = d.time := by rw [heq]; rfl
      obtain ⟨p, op, hp, -, hop, carries⟩ := j.handed _ _ _ ho
      obtain ⟨op', hop', -, heta⟩ := (j.logged host').executed d hd
      obtain rfl := Option.some.inj (hop.symm.trans hop')
      exact ⟨p, op, hp, hop, carries, htime ▸ heta⟩
    · rw [hnone] at hr
      cases hr
  once id := by
    by_cases ho : ∃ host i, s.origin host i = some id
    · obtain ⟨host, i, ho⟩ := ho
      have hcount : ((s.timelocks host).sent.map (·.id)).count i ≤ 1 :=
        List.nodup_iff_count_le_one.mp (j.logged host).once i
      rw [j.via host i id ho, List.length_map]
      rw [List.count, List.countP_map, List.countP_eq_length_filter] at hcount
      exact hcount
    · push Not at ho
      rcases j.direct id ho with hnil | ⟨p, time, -, -, hone⟩
      · simp [hnil]
      · simp [hone]

/-- The record of the calls made only grows. -/
theorem SystemEffect.calls_subset {op : SystemOp Address} (e : SystemEffect s s' op) :
    s.calls ⊆ s'.calls := by
  cases e with
  | executedDirectly => exact List.subset_append_left _ _
  | timelocked => exact List.subset_append_left _ _
  | _ => exact List.Subset.refl _

/-- A direct call beside a timelock stays on record. -/
theorem direct_recorded {self : Address} {h : List (SystemEvent Address)}
    (tr : Trace (systemStep self) s h s') {x : SystemEvent Address} (hx : x ∈ h)
    (hd : DirectBesideTimelock x) : ∃ c ∈ s'.calls, c.wired = true ∧ c.route = none := by
  obtain ⟨g, g', rfl⟩ := List.append_of_mem hx
  obtain ⟨-, hstep, tail⟩ := tr.at_receipt
  obtain ⟨id, returns, hop, hwired⟩ := hd
  refine tail.invariant (I := fun s => ∃ c ∈ s.calls, c.wired = true ∧ c.route = none) ?_ ?_
  · rintro y hy ⟨c, hc, hkind⟩
    exact ⟨c, (systemStep_effect hy).calls_subset hc, hkind⟩
  · have e := systemStep_effect hstep
    obtain ⟨pre, ⟨signers, op⟩, out, post⟩ := x
    simp only at e hop hwired ⊢
    subst hop
    cases e with
    | governed _ _ notExecute => exact absurd rfl (notExecute _ _)
    | executedDirectly => exact ⟨_, List.mem_append_right _ (List.mem_singleton_self _),
      hwired, rfl⟩

/-- A proposal's call comes only through the timelock, after its delay and at
most once, exactly in the runs without the governor's `execute` beside a timelock. -/
theorem throughTimelock_iff_no_direct (self : Address) (now sequence : ℕ)
    (tokens : Address → Token Address) (calls : List (SystemTransaction Address)) :
    ThroughTimelock (run (systemStep self) (System.deployed now sequence tokens) calls).1 ↔
      ∀ x ∈ (run (systemStep self) (System.deployed now sequence tokens) calls).2,
        ¬ DirectBesideTimelock x := by
  have tr := run_trace (systemStep self) (System.deployed now sequence tokens) calls
  constructor
  · intro t x hx hd
    obtain ⟨c, hc, hwired, hroute⟩ := direct_recorded tr hx hd
    have := t.routed c hc hwired
    simp [hroute] at this
  · intro hd
    exact (tr.invariant_of joint_step hd (joint_deployed now sequence tokens)).throughTimelock

/-- A proposal queued for time 2000 that the governor executes at once, and the
timelock after the delay. -/
def executedTwice : List (SystemTransaction ℕ) :=
  [⟨[5], .governor (.initializeContract 5 ⟨9, 100, 400, 1, 100⟩)⟩,
    ⟨[5], .timelock 8 (.initializeContract 5 1000)⟩,
    ⟨[5], .governor (.setTimelock 5 8)⟩,
    ⟨[1], .governor (.propose 1 7 "pause" [] "halt")⟩,
    ⟨[1], .governor (.castVote 1 0 true)⟩,
    ⟨[], .governor (.advance 101 20)⟩,
    ⟨[], .governor (.finalize 0)⟩,
    ⟨[5], .governor (.queue 0 2000 true)⟩,
    ⟨[], .governor (.execute 0 true)⟩,
    ⟨[], .governor (.advance 2000 400)⟩,
    ⟨[], .timelock 8 (.execute 0 (.ok ()))⟩]

/-- The target is called twice, the first time by the governor and before the `eta`. -/
theorem executedTwice_bypasses_timelock :
    let r := run (systemStep 0) (System.deployed 0 0 fun _ => Token.empty.mint 1 100) executedTwice
    r.1.calls.map (fun c => (c.proposal, c.route, c.time)) =
        [(0, none, 101), (0, some (8, 0), 2101)] ∧ ¬ ThroughTimelock r.1 := by
  intro r
  have hcalls : r.1.calls.map (fun c => (c.proposal, c.route, c.time)) =
      [(0, none, 101), (0, some (8, 0), 2101)] := by decide +kernel
  have htwo : (callsOf r.1.calls 0).length = 2 := by decide +kernel
  refine ⟨hcalls, fun t => ?_⟩
  have hone := t.once 0
  omega

end RefractContracts.Governance
