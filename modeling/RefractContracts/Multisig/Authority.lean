import Mathlib.Data.Finset.Card
import Mathlib.Logic.Relation
import RefractContracts.Host.Storage
import RefractContracts.Multisig.Contract

/-! Whose approvals count. A proposal is forwarded on the number of addresses in
its approval list, and removing an owner leaves the lists as they are. As long as
no owner is removed who has approved a pending proposal, the approvals of pending
proposals are by owners and every forwarded proposal has the threshold of them. -/

namespace RefractContracts.Multisig

open Host

variable {Address : Type} [DecidableEq Address]

/-- The state after `release`: the proposal executed and on record. -/
def released (w : World Address) (id : ℕ) (p : Proposal Address) : World Address :=
  let w' := setProposal w id { p with status := .executed }
  { w' with sent := w.sent ++ [⟨id, p, owners w, threshold w, w'.proposalEntry⟩] }

/-- The last forwarded proposal is a call of the contract to itself, about to be
delivered as `op`. -/
structure Delivered (multisig : Address) (w : World Address) (op : Op Address)
    (f : Forwarded Address) : Prop where
  last : w.sent.getLast? = some f
  stored : f.stored = w.proposalEntry
  target : f.proposal.target = multisig
  decoded : decode f.proposal = some op

/-! ### Every call is a sequence of moves -/

inductive Move (self : Address) (w : World Address) : World Address → Prop
  | initialized {owners threshold} (first : w.ownersEntry = none) (some_owner : owners ≠ [])
      (pos : 0 < threshold) (le : threshold ≤ owners.length) :
      Move self w { w with
        ownersEntry := some owners, thresholdEntry := some threshold, nextIdEntry := some 0 }
  | proposed {proposer target function args} (owner : proposer ∈ owners w) :
      Move self w { setProposal w (nextId w) ⟨target, function, args, [proposer], .pending⟩ with
        nextIdEntry := some (nextId w + 1) }
  | approved {caller id p} (owner : caller ∈ owners w) (found : w.proposalEntry id = some p)
      (pending : p.status = .pending) (first : caller ∉ p.approvals) :
      Move self w (setProposal w id { p with approvals := p.approvals ++ [caller] })
  | forwarded {id p} (found : w.proposalEntry id = some p) (pending : p.status = .pending)
      (enough : threshold w ≤ p.approvals.length) : Move self w (released w id p)
  | ownerAdded {o f} (new : o ∉ owners w) (delivered : Delivered self w (.addOwner o) f) :
      Move self w { w with ownersEntry := some (owners w ++ [o]) }
  | ownerRemoved {o f} (several : 1 < (owners w).length)
      (delivered : Delivered self w (.removeOwner o) f) :
      Move self w { w with
        ownersEntry := some ((owners w).filter (· ≠ o))
        thresholdEntry := some (min (w.thresholdEntry.getD 1) ((owners w).filter (· ≠ o)).length) }
  | thresholdChanged {n f} (pos : 0 < n) (le : n ≤ (owners w).length)
      (delivered : Delivered self w (.changeThreshold n) f) :
      Move self w { w with thresholdEntry := some n }

abbrev Moves (self : Address) : World Address → World Address → Prop :=
  Relation.ReflTransGen (Move self)

variable {self : Address} {w w' : World Address} {id : ℕ} {p : Proposal Address}
  {signers : List Address}

theorem Move.moves (h : Move self w w') : Moves self w w' := .single h

theorem requireOwner_ok {caller : Address} {u : Unit} (h : requireOwner w caller = .ok u) :
    caller ∈ owners w := by
  simp only [requireOwner, bind_eq_ok, okOr_eq_ok, bail_eq_ok, not_not] at h
  obtain ⟨os, hos, howner⟩ := h
  simpa [owners, hos] using howner

theorem initializeContract_ok {os : List Address} {n : ℕ}
    (h : initializeContract w os n = .ok w') : Move self w w' := by
  simp only [initializeContract, bind_eq_ok, bail_eq_ok, pure_eq_ok, not_or, not_lt,
    Option.not_isSome_iff_eq_none] at h
  obtain ⟨-, first, -, ⟨hne, hpos, hle⟩, rfl⟩ := h
  exact .initialized first (by simpa using hne) (Nat.pos_of_ne_zero hpos) hle

theorem propose_ok {proposer target : Address} {function : Symbol} {args : List (Val Address)}
    (h : propose signers w proposer target function args = .ok (w', id)) : Move self w w' := by
  simp only [propose, bind_eq_ok, u64_eq_ok, pure_eq_ok, Prod.mk.injEq] at h
  obtain ⟨-, -, _, howner, _, ⟨-, rfl⟩, rfl, -⟩ := h
  exact .proposed (requireOwner_ok howner)

theorem approve_moves {caller : Address} (h : approve signers w caller id = .ok w') :
    Moves self w w' := by
  simp only [approve, bind_eq_ok, okOr_eq_ok, bail_eq_ok, not_not] at h
  obtain ⟨-, -, _, howner, p, found, -, pending, h⟩ := h
  split_ifs at h with ha
  · obtain rfl := (pure_eq_ok _ _).mp h
    exact .refl
  · obtain rfl := (pure_eq_ok _ _).mp h
    exact (Move.approved (requireOwner_ok howner) found pending ha).moves

omit [DecidableEq Address] in
theorem release_ok (h : release w id = .ok (w', p)) :
    w.proposalEntry id = some p ∧ p.status = .pending ∧ threshold w ≤ p.approvals.length ∧
      w' = released w id p := by
  simp only [release, bind_eq_ok, okOr_eq_ok, bail_eq_ok, not_not, not_lt, pure_eq_ok,
    Prod.mk.injEq] at h
  obtain ⟨_, found, -, pending, -, enough, rfl, rfl⟩ := h
  exact ⟨found, pending, enough, rfl⟩

theorem addOwner_moves {o : Address} (h : addOwner self signers w o = .ok w')
    (hd : self ∈ signers → ∃ f, Delivered self w (.addOwner o) f) : Moves self w w' := by
  simp only [addOwner, bind_eq_ok, requireAuth_eq_ok] at h
  obtain ⟨-, hauth, h⟩ := h
  obtain ⟨f, delivered⟩ := hd hauth
  split_ifs at h with ho
  · obtain rfl := (pure_eq_ok _ _).mp h
    exact .refl
  · obtain rfl := (pure_eq_ok _ _).mp h
    exact (Move.ownerAdded ho delivered).moves

theorem removeOwner_ok {o : Address} (h : removeOwner self signers w o = .ok w')
    (hd : self ∈ signers → ∃ f, Delivered self w (.removeOwner o) f) : Move self w w' := by
  simp only [removeOwner, bind_eq_ok, requireAuth_eq_ok, bail_eq_ok, not_le, pure_eq_ok] at h
  obtain ⟨-, hauth, -, several, rfl⟩ := h
  obtain ⟨f, delivered⟩ := hd hauth
  exact .ownerRemoved several delivered

theorem changeThreshold_ok {n : ℕ} (h : changeThreshold self signers w n = .ok w')
    (hd : self ∈ signers → ∃ f, Delivered self w (.changeThreshold n) f) : Move self w w' := by
  simp only [changeThreshold, bind_eq_ok, requireAuth_eq_ok, bail_eq_ok, not_or, not_lt,
    pure_eq_ok] at h
  obtain ⟨-, hauth, -, ⟨hpos, hle⟩, rfl⟩ := h
  obtain ⟨f, delivered⟩ := hd hauth
  exact .thresholdChanged (Nat.pos_of_ne_zero hpos) hle delivered

omit [DecidableEq Address] in
@[simp] theorem released_sent : (released w id p).sent.getLast? =
    some ⟨id, p, owners w, threshold w, (released w id p).proposalEntry⟩ :=
  List.getLast?_concat

/-- A call is a sequence of moves if the calls it delivers are. Only a delivered
call has the contract's own authority. -/
theorem entry_moves {returns : ℕ → Bool} {op : Op Address} {out : Answer}
    {deliver : World Address → Op Address → Call (World Address)}
    (hdeliver : ∀ {w w' op f}, Delivered self w op f → deliver w op = .ok w' → Moves self w w')
    (hd : self ∈ signers → ∃ f, Delivered self w op f)
    (h : entry self returns deliver signers w op = .ok (w', out)) : Moves self w w' := by
  cases op with
  | initializeContract os n =>
    simp only [entry, bind_eq_ok, pure_eq_ok, Prod.mk.injEq] at h
    obtain ⟨_, hinit, rfl, -⟩ := h
    exact (initializeContract_ok hinit).moves
  | propose proposer target function args =>
    simp only [entry, bind_eq_ok, pure_eq_ok, Prod.mk.injEq, Prod.exists] at h
    obtain ⟨_, _, hprop, rfl, -⟩ := h
    exact (propose_ok hprop).moves
  | approve caller id =>
    simp only [entry, bind_eq_ok, pure_eq_ok, Prod.mk.injEq] at h
    obtain ⟨_, happ, rfl, -⟩ := h
    exact approve_moves happ
  | execute id =>
    simp only [entry, bind_eq_ok, Prod.exists] at h
    obtain ⟨_, p, hrel, h⟩ := h
    obtain ⟨found, pending, enough, rfl⟩ := release_ok hrel
    have first : Moves self w (released w id p) := (Move.forwarded found pending enough).moves
    split_ifs at h with htarget
    · cases hdec : decode p with
      | none => simp [hdec] at h
      | some op =>
        simp only [hdec, bind_eq_ok, pure_eq_ok, Prod.mk.injEq] at h
        obtain ⟨_, hdel, rfl, -⟩ := h
        exact first.trans (hdeliver ⟨released_sent, rfl, htarget, hdec⟩ hdel)
    · simp only [bind_eq_ok, pure_eq_ok, Prod.mk.injEq] at h
      obtain ⟨_, -, rfl, -⟩ := h
      exact first
  | addOwner o =>
    simp only [entry, bind_eq_ok, pure_eq_ok, Prod.mk.injEq] at h
    obtain ⟨_, hadd, rfl, -⟩ := h
    exact addOwner_moves hadd hd
  | removeOwner o =>
    simp only [entry, bind_eq_ok, pure_eq_ok, Prod.mk.injEq] at h
    obtain ⟨_, hrem, rfl, -⟩ := h
    exact (removeOwner_ok hrem hd).moves
  | changeThreshold n =>
    simp only [entry, bind_eq_ok, pure_eq_ok, Prod.mk.injEq] at h
    obtain ⟨_, hch, rfl, -⟩ := h
    exact (changeThreshold_ok hch hd).moves
  | view =>
    obtain ⟨rfl, -⟩ := Prod.mk.inj ((pure_eq_ok _ _).mp h)
    exact .refl

/-- The induction is on the depth, through the calls `execute` delivers. -/
theorem call_moves {returns : ℕ → Bool} {depth : ℕ} {op : Op Address} {out : Answer}
    (hd : self ∈ signers → ∃ f, Delivered self w op f)
    (h : call self returns depth signers w op = .ok (w', out)) : Moves self w w' := by
  induction depth generalizing signers w w' op out with
  | zero => exact entry_moves (fun _ hnone => absurd hnone (throw_ne_ok _ _)) hd h
  | succ depth ih =>
    refine entry_moves (fun delivered hcall => ?_) hd h
    simp only [bind_eq_ok, pure_eq_ok, Prod.exists] at hcall
    obtain ⟨_, _, hcall, rfl⟩ := hcall
    exact ih (fun _ => ⟨_, delivered⟩) hcall

theorem step_moves {depth : ℕ} {tx : Transaction Address} {out : Answer}
    (h : step self depth w tx = .ok (w', out)) : Moves self w w' :=
  call_moves (fun hself => absurd hself (by simp)) h

/-! ### Approvals of pending proposals -/

/-- The approvals of a forwarded proposal that are by owners of that moment. -/
def Forwarded.standing (f : Forwarded Address) : Finset Address :=
  f.proposal.approvals.toFinset.filter (· ∈ f.owners)

/-- At least threshold of the approvals are by owners. -/
def Forwarded.Authorised (f : Forwarded Address) : Prop := f.threshold ≤ f.standing.card

/-- If the proposal is the removal of an owner, this owner has approved no
proposal that is still pending. -/
def Forwarded.RemovesUncounted (self : Address) (f : Forwarded Address) : Prop :=
  f.proposal.target = self → ∀ o, decode f.proposal = some (.removeOwner o) →
    ∀ id p, f.stored id = some p → p.status = .pending → o ∉ p.approvals

/-- The approvals of pending proposals are by distinct owners, and what has been
forwarded had the threshold of owners. -/
structure Current (w : World Address) : Prop where
  distinct : ∀ id p, w.proposalEntry id = some p → p.status = .pending → p.approvals.Nodup
  owned : ∀ id p, w.proposalEntry id = some p → p.status = .pending →
    ∀ a ∈ p.approvals, a ∈ owners w
  authorised : ∀ f ∈ w.sent, f.Authorised

theorem current_deployed : Current (deployed Address) := ⟨nofun, nofun, nofun⟩

/-- Storing a proposal that is not pending, or is approved by distinct owners. -/
theorem Current.setProposal (c : Current w)
    (h : p.status = .pending → p.approvals.Nodup ∧ ∀ a ∈ p.approvals, a ∈ owners w) :
    Current (setProposal w id p) where
  distinct := forall_update c.distinct rfl fun hs => (h hs).1
  owned := forall_update c.owned rfl fun hs => (h hs).2
  authorised := c.authorised

theorem Current.forwarded (c : Current w) (found : w.proposalEntry id = some p)
    (pending : p.status = .pending) (enough : threshold w ≤ p.approvals.length) :
    Current (released w id p) := by
  have c' : Current (Multisig.setProposal w id { p with status := .executed }) :=
    c.setProposal (fun h => nomatch h)
  refine ⟨c'.distinct, c'.owned, forall_mem_snoc c.authorised ?_⟩
  have hall : p.approvals.toFinset.filter (· ∈ owners w) = p.approvals.toFinset := by
    apply Finset.filter_true_of_mem
    intro a ha
    exact c.owned id p found pending a (List.mem_toFinset.mp ha)
  calc threshold w ≤ p.approvals.length := enough
    _ = p.approvals.toFinset.card :=
        (List.toFinset_card_of_nodup (c.distinct id p found pending)).symm
    _ = (p.approvals.toFinset.filter (· ∈ owners w)).card := by rw [hall]

theorem Move.current (m : Move self w w') (hr : ∀ f ∈ w'.sent, f.RemovesUncounted self)
    (c : Current w) : Current w' := by
  cases m with
  | initialized first =>
    refine ⟨c.distinct, fun id p found pending a ha => ?_, c.authorised⟩
    have hnone := c.owned id p found pending a ha
    simp [owners, first] at hnone
  | @proposed proposer target function args owner =>
    have c' : Current (setProposal w (nextId w) ⟨target, function, args, [proposer], .pending⟩) :=
      c.setProposal fun _ => ⟨List.nodup_singleton proposer, by simpa using owner⟩
    exact ⟨c'.distinct, c'.owned, c'.authorised⟩
  | @approved caller id p owner found pending first =>
    refine c.setProposal fun _ => ⟨?_, ?_⟩
    · exact List.nodup_append'.mpr
        ⟨c.distinct id p found pending, List.nodup_singleton caller, by simpa using first⟩
    · exact forall_mem_snoc (c.owned id p found pending) owner
  | forwarded found pending enough => exact c.forwarded found pending enough
  | ownerAdded =>
    refine ⟨c.distinct, fun id p found pending a ha => ?_, c.authorised⟩
    exact List.mem_append_left _ (c.owned id p found pending a ha)
  | @ownerRemoved o f several delivered =>
    refine ⟨c.distinct, fun id p found pending a ha => ?_, c.authorised⟩
    have hf : f ∈ w.sent := List.mem_of_getLast? delivered.last
    have hne : a ≠ o := by
      rintro rfl
      have uncounted := hr f hf delivered.target a delivered.decoded
      rw [delivered.stored] at uncounted
      exact uncounted id p found pending ha
    have ho : a ∈ owners w := c.owned id p found pending a ha
    change a ∈ (owners w).filter (· ≠ o)
    exact List.mem_filter.mpr ⟨ho, by simpa using hne⟩
  | thresholdChanged => exact ⟨c.distinct, c.owned, c.authorised⟩

theorem Move.sent_prefix (m : Move self w w') : w.sent <+: w'.sent := by
  cases m with
  | forwarded => exact List.prefix_append _ _
  | _ => exact List.prefix_rfl

theorem Moves.current (m : Moves self w w') (c : Current w)
    (hr : ∀ f ∈ w'.sent, f.RemovesUncounted self) : Current w' := by
  induction m with
  | refl => exact c
  | tail _ last ih =>
    exact last.current hr (ih fun f hf => hr f (last.sent_prefix.subset hf))

theorem run_moves (self : Address) (depth : ℕ) (calls : List (Transaction Address)) :
    Moves self (deployed Address) (run (step self depth) (deployed Address) calls).1 :=
  run_invariant (I := fun w => Moves self (deployed Address) w)
    (fun _ hx m => m.trans (step_moves hx)) .refl calls

/-- When no owner is removed whose approval is on a pending proposal, every
proposal is forwarded with the threshold of approvals by owners. -/
theorem forwarded_authorised (self : Address) (depth : ℕ) (calls : List (Transaction Address))
    (hr : ∀ f ∈ (run (step self depth) (deployed Address) calls).1.sent,
      f.RemovesUncounted self) :
    ∀ f ∈ (run (step self depth) (deployed Address) calls).1.sent, f.Authorised :=
  ((run_moves self depth calls).current current_deployed hr).authorised

/-- Two owners approve a payment, one of them is removed, and the payment is executed. -/
def removedSigner : List (Transaction ℕ) :=
  [⟨[], .initializeContract [1, 2, 3] 2, fun _ => true⟩,
    ⟨[1], .propose 1 7 "pay" [], fun _ => true⟩,
    ⟨[2], .approve 2 0, fun _ => true⟩,
    ⟨[2], .propose 2 0 "remove_owner" [.address 1], fun _ => true⟩,
    ⟨[3], .approve 3 1, fun _ => true⟩,
    ⟨[], .execute 1, fun _ => true⟩,
    ⟨[], .execute 0, fun _ => true⟩]

/-- The payment is forwarded with the approval of one owner at a threshold of two. -/
theorem removedSigner_counts :
    let r := run (step 0 1) (deployed ℕ) removedSigner
    r.1.sent.map (fun f => (f.id, f.threshold, f.standing.card)) = [(1, 2, 2), (0, 2, 1)] ∧
      ¬ ∀ f ∈ r.1.sent, f.Authorised := by
  intro r
  have hsent : r.1.sent.map (fun f => (f.id, f.threshold, f.standing.card)) =
      [(1, 2, 2), (0, 2, 1)] := by decide +kernel
  refine ⟨hsent, fun h => ?_⟩
  have hmem : (0, 2, 1) ∈ r.1.sent.map (fun f => (f.id, f.threshold, f.standing.card)) := by
    rw [hsent]
    decide
  obtain ⟨f, hf, heq⟩ := List.mem_map.mp hmem
  simp only [Prod.mk.injEq] at heq
  have := h f hf
  unfold Forwarded.Authorised at this
  omega

/-- Two owners approve a payment and the removal of the third; both are executed. -/
def removedBystander : List (Transaction ℕ) :=
  [⟨[], .initializeContract [1, 2, 3] 2, fun _ => true⟩,
    ⟨[2], .propose 2 7 "pay" [], fun _ => true⟩,
    ⟨[3], .approve 3 0, fun _ => true⟩,
    ⟨[2], .propose 2 0 "remove_owner" [.address 1], fun _ => true⟩,
    ⟨[3], .approve 3 1, fun _ => true⟩,
    ⟨[], .execute 1, fun _ => true⟩,
    ⟨[], .execute 0, fun _ => true⟩]

/-- The stored proposals when the removal is forwarded, and when the payment is. -/
def bystanderStored : (ℕ → Option (Proposal ℕ)) × (ℕ → Option (Proposal ℕ)) :=
  let proposed := Function.update (fun _ => none) 0 (some ⟨7, "pay", [], [2], .pending⟩)
  let approved := Function.update proposed 0 (some ⟨7, "pay", [], [2, 3], .pending⟩)
  let removal (approvals : List ℕ) (status : ProposalStatus) : Proposal ℕ :=
    ⟨0, "remove_owner", [.address 1], approvals, status⟩
  let removed := Function.update (Function.update (Function.update approved 1
    (some (removal [2] .pending))) 1 (some (removal [2, 3] .pending))) 1
    (some (removal [2, 3] .executed))
  (removed, Function.update removed 0 (some ⟨7, "pay", [], [2, 3], .executed⟩))

theorem forwarded_authorised_removal :
    let r := run (step 0 1) (deployed ℕ) removedBystander
    r.1.sent.map (fun f => (f.id, f.owners)) = [(1, [1, 2, 3]), (0, [2, 3])] ∧
      ∀ f ∈ r.1.sent, f.Authorised := by
  intro r
  have hsent : r.1.sent = [⟨1, ⟨0, "remove_owner", [.address 1], [2, 3], .pending⟩, [1, 2, 3], 2,
      bystanderStored.1⟩,
      ⟨0, ⟨7, "pay", [], [2, 3], .pending⟩, [2, 3], 2, bystanderStored.2⟩] := rfl
  have happrovals : ∀ id p, bystanderStored.1 id = some p → p.approvals = [2, 3] := by
    intro id p hp
    simp only [bystanderStored, Function.update_apply] at hp
    split_ifs at hp <;> obtain rfl := Option.some.inj hp <;> rfl
  refine ⟨by rw [hsent]; rfl, forwarded_authorised 0 1 _ (fun f hf htarget o ho id p hp _ => ?_)⟩
  change f ∈ r.1.sent at hf
  rw [hsent] at hf
  rcases List.mem_cons.mp hf with rfl | hf
  · obtain rfl : 1 = o := Op.removeOwner.inj (Option.some.inj ho)
    rw [happrovals id p hp]
    decide
  · obtain rfl := List.mem_singleton.mp hf
    exact absurd htarget (by decide)

end RefractContracts.Multisig
