import RefractContracts.Host.History
import RefractContracts.Multisig.Authority

/-! The history of a proposal. A transaction whose `execute` forwards a call to the
contract itself makes several calls of entry points, nested to any depth. They are
laid out here in the order they begin, as a run of `ownStep`, and what holds of the
proposals is an induction over that run. -/

namespace RefractContracts.Multisig

open Host

variable {Address : Type}

/-- A call of an entry point. -/
structure Frame (Address : Type) where
  signers : List Address
  op : Op Address

/-- The proposal whose approvals an operation asks to forward on. -/
def Op.executes : Op Address → Option ℕ
  | .execute id => some id
  | _ => none

/-- The id of the proposal that an operation creates, when `next` is the next one. -/
def Op.creates (next : ℕ) : Op Address → Option ℕ
  | .propose .. => some next
  | _ => none

section Own
variable [DecidableEq Address] (self : Address)

/-- The call that an operation delivers to the contract itself, and its state. -/
def delivers (w : World Address) : Op Address → Option (World Address × Op Address)
  | .execute id =>
    match release w id with
    | .ok (w, p) => if p.target = self then (decode p).map (w, ·) else none
    | .error _ => none
  | _ => none

/-- What an entry point does itself: the call it forwards returns at once. -/
def ownStep : Contract (World Address) (Frame Address) Answer MultisigError :=
  fun w c => entry self (fun _ => true) (fun w _ => pure w) c.signers w c.op

/-- The calls that an accepted call consists of, in the order they begin. -/
def calls : ℕ → List Address → World Address → Op Address → List (Frame Address)
  | 0, signers, _, op => [⟨signers, op⟩]
  | depth + 1, signers, w, op =>
    ⟨signers, op⟩ ::
      match delivers self w op with
      | some (w, op) => calls depth (self :: signers) w op
      | none => []

/-- The calls that an accepted transaction consists of. -/
def callsOf (depth : ℕ) (x : Receipt (World Address) (Transaction Address) Answer) :
    List (Frame Address) :=
  calls self depth (x.call.signers.filter (· ≠ self)) x.pre x.call.op

end Own

/-- What one call does to the proposals. -/
inductive Act (w : World Address) : World Address → Frame Address → Prop
  | proposed {signers proposer target function args} (signed : proposer ∈ signers)
      (owner : proposer ∈ owners w) :
      Act w { setProposal w (nextId w) ⟨target, function, args, [proposer], .pending⟩ with
        nextIdEntry := some (nextId w + 1) } ⟨signers, .propose proposer target function args⟩
  | approved {signers caller id p} (signed : caller ∈ signers) (owner : caller ∈ owners w)
      (found : w.proposalEntry id = some p) (pending : p.status = .pending)
      (first : caller ∉ p.approvals) :
      Act w (setProposal w id { p with approvals := p.approvals ++ [caller] })
        ⟨signers, .approve caller id⟩
  | released {signers id p} (found : w.proposalEntry id = some p) (pending : p.status = .pending)
      (enough : threshold w ≤ p.approvals.length) : Act w (released w id p) ⟨signers, .execute id⟩
  | kept {w' signers op} (kind : op.executes = none ∧ ∀ n, op.creates n = none)
      (proposals : w'.proposalEntry = w.proposalEntry)
      (numbering : w.ownersEntry = none ∨ nextId w' = nextId w)
      (founded : w'.ownersEntry = none → w.ownersEntry = none) (sent : w'.sent = w.sent) :
      Act w w' ⟨signers, op⟩

abbrev Event (Address : Type) := Receipt (World Address) (Frame Address) Answer

variable [DecidableEq Address] {self : Address} {w w' : World Address} {signers : List Address}
  {op : Op Address} {out : Answer} {h : List (Event Address)} {x : Event Address}

/-- An accepted call is what its entry point does itself, and the call it delivers. -/
theorem entry_own {returns : ℕ → Bool}
    {deliver : World Address → Op Address → Call (World Address)}
    (accepted : entry self returns deliver signers w op = .ok (w', out)) :
    ∃ m out', ownStep self w ⟨signers, op⟩ = .ok (m, out') ∧
      ((delivers self w op = none ∧ m = w') ∨
        ∃ op', delivers self w op = some (m, op') ∧ deliver m op' = .ok w') := by
  cases op with
  | execute id =>
    simp only [entry, bind_eq_ok, Prod.exists] at accepted
    obtain ⟨m, p, hrel, accepted⟩ := accepted
    refine ⟨m, .unit, ?_⟩
    simp only [ownStep, entry, delivers, hrel, ok_bind]
    split_ifs at accepted ⊢ with htarget
    · cases hdec : decode p with
      | none => simp [hdec] at accepted
      | some op' =>
        simp only [hdec, bind_eq_ok, pure_eq_ok, Prod.mk.injEq] at accepted
        obtain ⟨_, hdel, rfl, -⟩ := accepted
        exact ⟨by simp, .inr ⟨op', rfl, hdel⟩⟩
    · simp only [bind_eq_ok, pure_eq_ok, Prod.mk.injEq] at accepted
      obtain ⟨_, -, rfl, -⟩ := accepted
      exact ⟨by simp [demand], .inl ⟨rfl, rfl⟩⟩
  | _ => exact ⟨w', out, accepted, .inl ⟨rfl, rfl⟩⟩

/-- An accepted call is a run of its calls. The induction is on the depth. -/
theorem call_trace {returns : ℕ → Bool} {depth : ℕ}
    (accepted : call self returns depth signers w op = .ok (w', out)) :
    ∃ h, Trace (ownStep self) w h w' ∧ h.map Receipt.call = calls self depth signers w op := by
  induction depth generalizing signers w w' op out with
  | zero =>
    obtain ⟨m, out', hown, ⟨-, rfl⟩ | ⟨op', -, hnone⟩⟩ := entry_own accepted
    · exact ⟨_, .cons hown (.nil _), rfl⟩
    · exact absurd hnone (throw_ne_ok _ _)
  | succ depth ih =>
    obtain ⟨m, out', hown, ⟨hdel, rfl⟩ | ⟨op', hdel, hcall⟩⟩ := entry_own accepted
    · exact ⟨_, .cons hown (.nil _), by simp [calls, hdel]⟩
    · simp only [bind_eq_ok, pure_eq_ok, Prod.exists] at hcall
      obtain ⟨_, _, hcall, rfl⟩ := hcall
      obtain ⟨h, tr, hcalls⟩ := ih hcall
      exact ⟨_, .cons hown tr, by simp [calls, hdel, hcalls]⟩

/-- An accepted history of transactions is a run of their calls. -/
theorem calls_trace {depth : ℕ} {r : List (Receipt (World Address) (Transaction Address) Answer)}
    (tr : Trace (step self depth) w r w') :
    ∃ h, Trace (ownStep self) w h w' ∧ h.map Receipt.call = r.flatMap (callsOf self depth) := by
  induction tr with
  | nil => exact ⟨[], .nil _, rfl⟩
  | snoc x _ accepted ih =>
    obtain ⟨h, before, hcalls⟩ := ih
    obtain ⟨h', own, hown⟩ := call_trace accepted
    refine ⟨h ++ h', before.append own, ?_⟩
    rw [List.map_append, hcalls, hown, List.flatMap_append, List.flatMap_singleton]
    rfl

/-! ### What one call does -/

theorem ownStep_act (accepted : ownStep self w ⟨signers, op⟩ = .ok (w', out)) :
    Act w w' ⟨signers, op⟩ := by
  cases op with
  | initializeContract os n =>
    simp only [ownStep, entry, initializeContract, bind_eq_ok, bail_eq_ok, pure_eq_ok,
      Option.not_isSome_iff_eq_none, Prod.mk.injEq] at accepted
    obtain ⟨_, ⟨-, first, -, -, rfl⟩, rfl, -⟩ := accepted
    exact .kept ⟨rfl, fun _ => rfl⟩ rfl (.inl first) (fun h => by cases h) rfl
  | propose proposer target function args =>
    simp only [ownStep, entry, propose, bind_eq_ok, requireAuth_eq_ok, u64_eq_ok, pure_eq_ok,
      Prod.mk.injEq, Prod.exists] at accepted
    obtain ⟨_, _, ⟨-, signed, _, howner, _, ⟨-, rfl⟩, rfl, -⟩, rfl, -⟩ := accepted
    exact .proposed signed (requireOwner_ok howner)
  | approve caller id =>
    simp only [ownStep, entry, approve, bind_eq_ok, requireAuth_eq_ok, okOr_eq_ok, bail_eq_ok,
      not_not, pure_eq_ok, Prod.mk.injEq] at accepted
    obtain ⟨_, ⟨-, signed, _, howner, p, found, -, pending, happ⟩, rfl, -⟩ := accepted
    split_ifs at happ with hfirst
    · obtain rfl := (pure_eq_ok _ _).mp happ
      exact .kept ⟨rfl, fun _ => rfl⟩ rfl (.inr rfl) (fun hnone => hnone) rfl
    · obtain rfl := (pure_eq_ok _ _).mp happ
      exact .approved signed (requireOwner_ok howner) found pending hfirst
  | execute id =>
    obtain ⟨m, p, hrel, accepted⟩ : ∃ m p, release w id = .ok (m, p) ∧ m = w' := by
      simp only [ownStep, entry, bind_eq_ok, Prod.exists] at accepted
      obtain ⟨m, p, hrel, accepted⟩ := accepted
      refine ⟨m, p, hrel, ?_⟩
      split_ifs at accepted
      · cases hdec : decode p <;> simp_all
      · simp_all
    subst accepted
    obtain ⟨found, pending, enough, rfl⟩ := release_ok hrel
    exact .released found pending enough
  | addOwner o =>
    simp only [ownStep, entry, addOwner, bind_eq_ok, pure_eq_ok, Prod.mk.injEq] at accepted
    obtain ⟨_, ⟨_, -, hadd⟩, rfl, -⟩ := accepted
    split_ifs at hadd
    · obtain rfl := (pure_eq_ok _ _).mp hadd
      exact .kept ⟨rfl, fun _ => rfl⟩ rfl (.inr rfl) id rfl
    · obtain rfl := (pure_eq_ok _ _).mp hadd
      exact .kept ⟨rfl, fun _ => rfl⟩ rfl (.inr rfl) (fun h => by cases h) rfl
  | removeOwner o =>
    simp only [ownStep, entry, removeOwner, bind_eq_ok, pure_eq_ok, Prod.mk.injEq] at accepted
    obtain ⟨_, ⟨_, -, _, -, rfl⟩, rfl, -⟩ := accepted
    exact .kept ⟨rfl, fun _ => rfl⟩ rfl (.inr rfl) (fun h => by cases h) rfl
  | changeThreshold n =>
    simp only [ownStep, entry, changeThreshold, bind_eq_ok, pure_eq_ok, Prod.mk.injEq] at accepted
    obtain ⟨_, ⟨_, -, _, -, rfl⟩, rfl, -⟩ := accepted
    exact .kept ⟨rfl, fun _ => rfl⟩ rfl (.inr rfl) id rfl
  | view =>
    obtain ⟨rfl, -⟩ := Prod.mk.inj ((pure_eq_ok _ _).mp accepted)
    exact .kept ⟨rfl, fun _ => rfl⟩ rfl (.inr rfl) id rfl

/-! ### The record of a proposal -/

/-- The id of the proposal that the call created. -/
def creates (x : Event Address) : Option ℕ := x.call.op.creates (nextId x.pre)

/-- The proposal that the call forwarded, with its id and the threshold of that moment. -/
def forwards (x : Event Address) : Option (ℕ × Proposal Address × ℕ) :=
  x.call.op.executes.bind fun id => (x.pre.proposalEntry id).map (id, ·, threshold x.pre)

def executes (x : Event Address) : Option ℕ := (forwards x).map Prod.fst

/-- The call adds the approval of `a`, an owner who signs for it. -/
def Approves (a : Address) (id : ℕ) (x : Event Address) : Prop :=
  a ∈ x.call.signers ∧ a ∈ owners x.pre ∧
    (x.call.op = .approve a id ∨
      ∃ target function args, x.call.op = .propose a target function args ∧ nextId x.pre = id)

/-- A proposal is as it was proposed, and approved by distinct addresses that were
owners when they approved. -/
structure Filed (h : List (Event Address)) (id : ℕ) (p : Proposal Address) : Prop where
  proposed : ∃ y ∈ h, ∃ proposer, y.call.op = .propose proposer p.target p.function p.args ∧
    nextId y.pre = id
  distinct : p.approvals.Nodup
  approved : ∀ a ∈ p.approvals, ∃ y ∈ h, Approves a id y

/-- What the stored proposals say about the history. -/
structure Ledger (h : List (Event Address)) (w : World Address) : Prop where
  filed : ∀ id p, w.proposalEntry id = some p → Filed h id p
  fresh : ∀ id, nextId w ≤ id → w.proposalEntry id = none
  blank : w.ownersEntry = none → ∀ id, w.proposalEntry id = none
  created : Once creates (fun id => w.proposalEntry id ≠ none) h
  executed : Once executes (fun id => ∃ p, w.proposalEntry id = some p ∧ p.status ≠ .pending) h
  sent : w.sent.map (fun f => (f.id, f.proposal, f.threshold)) = h.filterMap forwards

omit [DecidableEq Address] in
theorem Filed.snoc {id : ℕ} {p : Proposal Address} (f : Filed h id p) (x : Event Address) :
    Filed (h ++ [x]) id p where
  proposed := by
    obtain ⟨y, hy, hp⟩ := f.proposed
    exact ⟨y, List.mem_append_left _ hy, hp⟩
  distinct := f.distinct
  approved a ha := by
    obtain ⟨y, hy, hp⟩ := f.approved a ha
    exact ⟨y, List.mem_append_left _ hy, hp⟩

omit [DecidableEq Address] in
/-- A call that leaves the proposals. -/
theorem Ledger.keep (i : Ledger h w) (hcreates : creates x = none) (hforwards : forwards x = none)
    (proposals : w'.proposalEntry = w.proposalEntry)
    (numbering : w.ownersEntry = none ∨ nextId w' = nextId w)
    (founded : w'.ownersEntry = none → w.ownersEntry = none) (sent : w'.sent = w.sent) :
    Ledger (h ++ [x]) w' where
  filed id p hp := (i.filed id p (proposals ▸ hp)).snoc x
  fresh id hid := by
    rw [proposals]
    rcases numbering with hnone | hsame
    · exact i.blank hnone id
    · exact i.fresh id (hsame ▸ hid)
  blank hnone := proposals ▸ i.blank (founded hnone)
  created := by
    rw [proposals]
    exact i.created.snoc (fun _ hk => hk) (by simp [hcreates])
  executed := by
    rw [proposals]
    exact i.executed.snoc (fun _ hk => hk) (by simp [executes, hforwards])
  sent := by
    rw [sent, i.sent, List.filterMap_append]
    simp [hforwards]

omit [DecidableEq Address] in
/-- A call that rewrites a stored proposal. -/
theorem Ledger.rewrite {id : ℕ} {p q : Proposal Address} (i : Ledger h w)
    (found : w.proposalEntry id = some p) (pending : p.status = .pending)
    (filed : Filed (h ++ [x]) id q) (hcreates : creates x = none)
    (hexecutes : ∀ j, executes x = some j → j = id ∧ q.status ≠ .pending)
    (sent : w'.sent.map (fun f => (f.id, f.proposal, f.threshold)) =
      w.sent.map (fun f => (f.id, f.proposal, f.threshold)) ++ (forwards x).toList)
    (proposals : w'.proposalEntry = Function.update w.proposalEntry id (some q))
    (numbering : nextId w' = nextId w) (founded : w'.ownersEntry = w.ownersEntry) :
    Ledger (h ++ [x]) w' where
  filed := forall_update (fun j r hr => (i.filed j r hr).snoc x) proposals filed
  fresh j hj := by
    rw [proposals]
    exact absent_update (i.fresh j (numbering ▸ hj)) found
  blank hnone := absurd found (by simp [i.blank (founded ▸ hnone) id])
  created := by
    refine i.created.snoc (fun j hj hnone => ?_) (by simp [hcreates])
    rw [proposals] at hnone
    by_cases hid : j = id
    · subst hid
      simp at hnone
    · exact hj ((Function.update_of_ne hid _ _).symm.trans hnone)
  executed := by
    refine i.executed.snoc (fun j hj => ?_) fun j hj => ?_
    · obtain ⟨old, hold, hdone⟩ := hj
      rw [proposals]
      rcases stored_update hold found q with ⟨-, rfl, -⟩ | ⟨-, hnow⟩
      · exact absurd pending hdone
      · exact ⟨old, hnow, hdone⟩
    · obtain ⟨rfl, hq⟩ := hexecutes j hj
      refine ⟨?_, q, by rw [proposals, Function.update_self], hq⟩
      rintro ⟨old, hold, hdone⟩
      obtain rfl : p = old := Option.some.inj (found.symm.trans hold)
      exact hdone pending
  sent := by
    rw [sent, i.sent, List.filterMap_append]
    cases hx : forwards x <;> simp [hx]

theorem ledger_step (h : List (Event Address)) (x : Event Address)
    (accepted : ownStep self x.pre x.call = .ok (x.post, x.out)) (i : Ledger h x.pre) :
    Ledger (h ++ [x]) x.post := by
  obtain ⟨pre, ⟨signers, op⟩, out, post⟩ := x
  have a := ownStep_act accepted
  simp only at i a ⊢
  cases a with
  | @proposed _ proposer target function args signed owner =>
    have hnone := i.fresh _ le_rfl
    have hsome : ∀ id p, pre.proposalEntry id = some p → Function.update pre.proposalEntry
        (nextId pre) (some ⟨target, function, args, [proposer], .pending⟩) id = some p :=
      fun id p hp => (Function.update_of_ne (ne_of_absent hnone hp) _ _).trans hp
    refine ⟨forall_update (fun id p hp => (i.filed id p hp).snoc _) rfl ⟨?_, ?_, ?_⟩,
      fun id hid => ?_, fun hinit => ?_, i.created.snoc (fun id hid => ?_) fun id hid => ?_,
      i.executed.snoc ?_ (fun _ h => by cases h), ?_⟩
    · exact ⟨_, List.mem_concat_self, proposer, rfl, rfl⟩
    · exact List.nodup_singleton proposer
    · refine List.forall_mem_singleton.mpr ⟨_, List.mem_concat_self, signed, owner, ?_⟩
      exact .inr ⟨target, function, args, rfl, rfl⟩
    · change nextId pre + 1 ≤ id at hid
      exact (Function.update_of_ne (by omega) _ _).trans (i.fresh id (by omega))
    · change pre.ownersEntry = none at hinit
      simp [owners, hinit] at owner
    · obtain ⟨p, hp⟩ := Option.ne_none_iff_exists'.mp hid
      exact Option.ne_none_iff_exists'.mpr ⟨p, hsome id p hp⟩
    · obtain rfl : nextId pre = id := Option.some.inj hid
      exact ⟨not_not.mpr hnone, by simp [setProposal]⟩
    · rintro id ⟨p, hp, hdone⟩
      exact ⟨p, hsome id p hp, hdone⟩
    · rw [List.filterMap_append, ← i.sent]
      exact (List.append_nil _).symm
  | @approved _ caller id p signed owner found pending first =>
    have f := (i.filed id p found).snoc ⟨pre, ⟨signers, .approve caller id⟩, out,
      setProposal pre id { p with approvals := p.approvals ++ [caller] }⟩
    refine i.rewrite (q := { p with approvals := p.approvals ++ [caller] }) found pending
      ⟨f.proposed, ?_, ?_⟩ rfl (fun _ h => by cases h) (List.append_nil _).symm rfl rfl rfl
    · exact List.nodup_append'.mpr
        ⟨f.distinct, List.nodup_singleton caller, by simpa using first⟩
    · exact forall_mem_snoc f.approved ⟨_, List.mem_concat_self, signed, owner, .inl rfl⟩
  | @released _ id p found pending enough =>
    set x : Event Address := ⟨pre, ⟨signers, .execute id⟩, out, released pre id p⟩
    have f := (i.filed id p found).snoc x
    have hforwards : forwards x = some (id, p, threshold pre) := by
      simp [x, forwards, Op.executes, found]
    refine i.rewrite (q := { p with status := .executed }) found pending
      ⟨f.proposed, f.distinct, f.approved⟩ rfl (fun j hj => ?_) ?_ rfl rfl rfl
    · simp only [executes, hforwards, Option.map_some, Option.some.injEq] at hj
      exact ⟨hj.symm, fun h => by cases h⟩
    · rw [hforwards]
      exact List.map_append
  | kept kind proposals numbering founded sent =>
    exact i.keep (kind.2 _) (by simp [forwards, kind.1]) proposals numbering founded sent

/-! ### Runs -/

/-- In every run, proposals have distinct ids and are forwarded once, as they were
proposed, on as many approvals as the threshold then was, and the approvals of every
proposal are by distinct addresses that were owners when they approved. -/
theorem proposals_forwarded (self : Address) (depth : ℕ) (txs : List (Transaction Address)) :
    let r := run (step self depth) (deployed Address) txs
    let c := run (ownStep self) (deployed Address) (r.2.flatMap (callsOf self depth))
    c.1 = r.1 ∧ c.2.map Receipt.call = r.2.flatMap (callsOf self depth) ∧
      r.1.sent.map (fun f => (f.id, f.proposal, f.threshold)) = c.2.filterMap forwards ∧
      (r.1.sent.map Forwarded.id).Nodup ∧ (c.2.filterMap creates).Nodup ∧
      (∀ id p, r.1.proposalEntry id = some p → Filed c.2 id p) ∧
      ∀ g x l id p n, c.2 = g ++ x :: l → forwards x = some (id, p, n) →
        Filed g id p ∧ n ≤ p.approvals.length := by
  intro r c
  obtain ⟨h, tr, hcalls⟩ := calls_trace (run_trace (step self depth) (deployed Address) txs)
  have hc : c = (r.1, h) := by
    rw [← tr.run_eq, hcalls]
  have hledger : ∀ {h w}, Trace (ownStep self) (deployed Address) h w → Ledger h w := fun tr =>
    tr.history ledger_step ⟨nofun, fun _ _ => rfl, fun _ _ => rfl, .nil, .nil, rfl⟩
  have i := hledger tr
  rw [hc]
  refine ⟨rfl, hcalls, i.sent, ?_, i.created.nodup, i.filed, fun g x l id p n hsplit hx => ?_⟩
  · have hids : r.1.sent.map Forwarded.id = h.filterMap executes := by
      calc r.1.sent.map Forwarded.id
          = (r.1.sent.map (fun f => (f.id, f.proposal, f.threshold))).map Prod.fst := by simp
        _ = (h.filterMap forwards).map Prod.fst := by rw [i.sent]
        _ = h.filterMap executes := List.map_filterMap
    rw [hids]
    exact i.executed.nodup
  · rw [show h = g ++ x :: l from hsplit] at tr
    obtain ⟨before, accepted, -⟩ := tr.at_receipt
    obtain ⟨pre, ⟨signers, op⟩, out, post⟩ := x
    have a := ownStep_act accepted
    simp only at before a
    cases a with
    | released found pending enough =>
      simp only [forwards, Op.executes, Option.bind_some, found, Option.map_some,
        Option.some.injEq, Prod.mk.injEq] at hx
      obtain ⟨rfl, rfl, rfl⟩ := hx
      exact ⟨(hledger before).filed _ _ found, enough⟩
    | kept kind => simp [forwards, kind.1] at hx
    | _ => cases hx

end RefractContracts.Multisig
