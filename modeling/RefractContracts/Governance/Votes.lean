import RefractContracts.Governance.Effects

/-! Voting weight. `cast_vote` weighs a vote by the balance at the call, so a vote
carries the balance of the proposal's creation exactly when the voter's holding
has no net change in between. The tally is the sum of the weights of distinct
voters, so it is covered by the supply when every vote is of that kind. -/

namespace RefractContracts.Governance

open Host

variable {Address : Type} [DecidableEq Address]

abbrev Event (Address : Type) := Receipt (World Address) (Transaction Address) (Answer Address)

variable {w w' s t : World Address} {h k : List (Event Address)} {x y : Event Address} {id : ℕ}
  {a : Address}

/-! ### The creation of a proposal -/

/-- The call that created proposal `id`. -/
def created (id : ℕ) (x : Event Address) : Bool :=
  match x.call.op, x.out with
  | .propose .., .id n => n = id
  | _, _ => false

/-- The creation of proposal `id` and what was accepted since. -/
def since (id : ℕ) : List (Event Address) → Option (Event Address × List (Event Address))
  | [] => none
  | x :: h => if created id x then some (x, h) else since id h

omit [DecidableEq Address] in
theorem since_append (hs : since id h = some (x, k)) (g : List (Event Address)) :
    since id (h ++ g) = some (x, k ++ g) := by
  induction h with
  | nil => cases hs
  | cons y h ih =>
    simp only [since, List.cons_append] at hs ⊢
    split_ifs at hs ⊢ with hy
    · obtain ⟨rfl, rfl⟩ : y = x ∧ h = k := by simpa using hs
      rfl
    · exact ih hs

omit [DecidableEq Address] in
theorem since_snoc_none (hs : since id h = none) :
    since id (h ++ [x]) = if created id x then some (x, []) else none := by
  induction h with
  | nil => rfl
  | cons y h ih =>
    simp only [since, List.cons_append] at hs ⊢
    split_ifs at hs with hy
    rw [if_neg hy]
    exact ih hs

omit [DecidableEq Address] in
theorem since_split (hs : since id h = some (x, k)) : created id x ∧ ∃ g, h = g ++ x :: k := by
  induction h with
  | nil => cases hs
  | cons y h ih =>
    simp only [since] at hs
    split_ifs at hs with hy
    · obtain ⟨rfl, rfl⟩ : y = x ∧ h = k := by simpa using hs
      exact ⟨hy, [], rfl⟩
    · obtain ⟨hx, g, rfl⟩ := ih hs
      exact ⟨hx, y :: g, rfl⟩

/-! ### The flow of voting tokens -/

/-- The holding of the configured token. -/
def votingBalance (w : World Address) (a : Address) : ℤ :=
  match w.configEntry with
  | some config => liveBalance w config a
  | none => 0

/-- What a call changes in the holding of `a`: what a transfer of the configured
token brings and takes, and the difference of the holdings when the
configuration is replaced. -/
def flow (a : Address) (x : Event Address) : ℤ :=
  match x.call.op with
  | .transfer token src dst amount =>
    if x.pre.configEntry.map (·.token) = some token then
      (if dst = a then amount else 0) - (if src = a then amount else 0)
    else 0
  | .initializeContract _ config | .setConfig _ config =>
    liveBalance x.pre config a - votingBalance x.pre a
  | _ => 0

def netFlow (a : Address) (h : List (Event Address)) : ℤ := (h.map (flow a)).sum

theorem balance_moved {t t' : Token Address} {src dst : Address} {amount : ℤ}
    (hm : t.Moved t' src dst amount) (a : Address) :
    t'.balance a =
      t.balance a + ((if dst = a then amount else 0) - (if src = a then amount else 0)) := by
  rw [hm.balance]
  simp only [Token.move, Function.update_apply]
  split_ifs <;> grind

theorem votingBalance_step (hx : step x.pre x.call = .ok (x.post, x.out)) (a : Address) :
    votingBalance x.post a = votingBalance x.pre a + flow a x := by
  have e := step_effect hx
  obtain ⟨pre, ⟨signers, op⟩, out, post⟩ := x
  simp only at e
  cases e with
  | initialized => simp [votingBalance, flow, liveBalance]
  | configSet => simp [votingBalance, flow, liveBalance]
  | @transferred token src dst amount ledger moved =>
    simp only [votingBalance, flow]
    cases hc : pre.configEntry with
    | none => simp
    | some config =>
      by_cases ht : config.token = token
      · subst ht
        simpa [liveBalance] using balance_moved moved a
      · simp [liveBalance, ht]
  | _ => simp [votingBalance, flow, liveBalance, setProposal]

/-- Between two states of a run the holding changes by the net flow. -/
theorem votingBalance_trace (tr : Trace step s h t) (a : Address) :
    votingBalance t a = votingBalance s a + netFlow a h := by
  induction tr with
  | nil => simp [netFlow]
  | snoc x _ hx ih =>
    rw [votingBalance_step hx, ih]
    simp [netFlow, add_assoc]

/-- The holding after a run that created `id` is the one at its creation and the flow since. -/
theorem votingBalance_since (tr : Trace step s h t) (hs : since id h = some (x, k)) (a : Address) :
    votingBalance t a = votingBalance x.pre a + netFlow a k := by
  obtain ⟨hc, g, rfl⟩ := since_split hs
  obtain ⟨-, hx, tail⟩ := tr.at_receipt
  have hflow : flow a x = 0 := by
    unfold created at hc
    unfold flow
    split at hc
    · next hop _ => rw [hop]
    · cases hc
  rw [votingBalance_trace tail, votingBalance_step hx, hflow, add_zero]

/-! ### Ballots -/

/-- The accepted votes on proposal `id`: who voted and with what weight. -/
def ballots (id : ℕ) (h : List (Event Address)) : List (Address × ℤ) :=
  h.filterMap fun x =>
    match x.call.op, x.out with
    | .castVote voter i _, .weight n => if i = id then some (voter, n) else none
    | _, _ => none

omit [DecidableEq Address] in
theorem mem_ballots {b : Address × ℤ} (hb : b ∈ ballots id h) :
    ∃ g y l support, h = g ++ y :: l ∧ y.call.op = .castVote b.1 id support ∧
      y.out = .weight b.2 := by
  obtain ⟨y, hy, hmatch⟩ := List.mem_filterMap.mp hb
  obtain ⟨g, l, rfl⟩ := List.append_of_mem hy
  split at hmatch
  · next voter i support n hop hout =>
    split_ifs at hmatch with hi
    obtain rfl := Option.some.inj hmatch
    subst hi
    exact ⟨g, y, l, support, rfl, hop, hout⟩
  · cases hmatch

omit [DecidableEq Address] in
theorem ballots_snoc (id : ℕ) (h : List (Event Address)) (x : Event Address) :
    ballots id (h ++ [x]) = ballots id h ++ ballots id [x] := List.filterMap_append

/-- How the stored tally of proposal `id` comes from the history. -/
structure Counted (h : List (Event Address)) (id : ℕ) (p : ProposalState Address) : Prop where
  created : ∃ x k, since id h = some (x, k)
  tally : p.votesFor + p.votesAgainst = ((ballots id h).map Prod.snd).sum
  voters : p.voters = (ballots id h).map Prod.fst
  nodup : p.voters.Nodup

omit [DecidableEq Address] in
/-- A call that is no vote on `id` leaves the count of a record with the same tally. -/
theorem Counted.carry {p q : ProposalState Address} (c : Counted h id p)
    (hb : ballots id [x] = []) (htally : q.votesFor + q.votesAgainst = p.votesFor + p.votesAgainst)
    (hvoters : q.voters = p.voters) : Counted (h ++ [x]) id q where
  created := by
    obtain ⟨y, k, hs⟩ := c.created
    exact ⟨y, k ++ [x], since_append hs [x]⟩
  tally := by rw [ballots_snoc, hb, List.append_nil, htally, c.tally]
  voters := by rw [ballots_snoc, hb, List.append_nil, hvoters, c.voters]
  nodup := hvoters ▸ c.nodup

omit [DecidableEq Address] in
/-- A first vote extends the count by its weight. -/
theorem Counted.vote {p : ProposalState Address} {support : Bool} {n : ℤ} (c : Counted h id p)
    (hb : ballots id [x] = [(a, n)]) (first : a ∉ p.voters) :
    Counted (h ++ [x]) id (p.count a support n) where
  created := by
    obtain ⟨y, k, hs⟩ := c.created
    exact ⟨y, k ++ [x], since_append hs [x]⟩
  tally := by
    rw [ballots_snoc, hb, List.map_append, List.sum_append, ← c.tally]
    cases support <;> simp [ProposalState.count] <;> ring
  voters := by
    rw [ballots_snoc, hb, List.map_append, ← c.voters]
    rfl
  nodup := List.nodup_append'.mpr ⟨c.nodup, List.nodup_singleton a, by simpa using first⟩

/-- Every stored proposal is counted, and an unused id has no votes. -/
structure Tallied (h : List (Event Address)) (w : World Address) : Prop where
  numbered : Numbered w
  counted : ∀ id p, w.proposalEntry id = some p → Counted h id p
  unused : ∀ id, w.proposalEntry id = none → ballots id h = []

omit [DecidableEq Address] in
/-- A call that is no vote and changes no stored tally. -/
theorem Tallied.keep (i : Tallied h w) (n : Numbered w') (hb : ∀ id, ballots id [x] = [])
    (hp : w'.proposalEntry = w.proposalEntry) : Tallied (h ++ [x]) w' where
  numbered := n
  counted id p hid := (i.counted id p (hp ▸ hid)).carry (hb id) rfl rfl
  unused id hid := by rw [ballots_snoc, hb id, i.unused id (hp ▸ hid), List.append_nil]

omit [DecidableEq Address] in
/-- The call `x` rewrote the proposal `id` into a record that is counted. -/
theorem Tallied.rewrite {q : ProposalState Address} (i : Tallied h w) (n : Numbered w')
    (hb : ∀ j, j ≠ id → ballots j [x] = [])
    (hp : w'.proposalEntry = Function.update w.proposalEntry id (some q))
    (counted : Counted (h ++ [x]) id q) : Tallied (h ++ [x]) w' where
  numbered := n
  counted j r hj := by
    rw [hp, Function.update_apply] at hj
    split_ifs at hj with hid
    · obtain rfl := Option.some.inj hj
      exact hid ▸ counted
    · exact (i.counted j r hj).carry (hb j hid) rfl rfl
  unused j hj := by
    rw [hp, Function.update_apply] at hj
    split_ifs at hj with hid
    rw [ballots_snoc, hb j hid, i.unused j hj, List.append_nil]

theorem tallied_step (h : List (Event Address)) (x : Event Address)
    (hx : step x.pre x.call = .ok (x.post, x.out)) (i : Tallied h x.pre) :
    Tallied (h ++ [x]) x.post := by
  have e := step_effect hx
  have n := e.numbered i.numbered
  obtain ⟨pre, ⟨signers, op⟩, out, post⟩ := x
  simp only at e i n ⊢
  cases e with
  | initialized | timelockSet | configSet | advanced | transferred | alreadyFinal =>
    exact i.keep n (fun _ => rfl) rfl
  | proposed stored holds =>
    have hnone : pre.proposalEntry (nextId pre) = none := i.numbered.fresh _ le_rfl
    have hb : ballots (nextId pre) h = [] := i.unused _ hnone
    refine ⟨n, fun j r hj => ?_, fun j hj => ?_⟩
    · simp only [setProposal, Function.update_apply] at hj
      split_ifs at hj with hid
      · obtain rfl := Option.some.inj hj
        subst hid
        refine ⟨?_, ?_, ?_, List.nodup_nil⟩
        · cases hs : since (nextId pre) h with
          | none => exact ⟨_, [], (since_snoc_none hs).trans (if_pos (by simp [created]))⟩
          | some r => exact ⟨_, _, since_append hs _⟩
        all_goals
          rw [ballots_snoc, hb]
          rfl
      · exact (i.counted j r hj).carry rfl rfl rfl
    · simp only [setProposal, Function.update_apply] at hj
      split_ifs at hj
      rw [ballots_snoc, i.unused j hj]
      rfl
  | @voted voter id support p config found active inTime first stored =>
    have hb : ∀ j, ballots j [(⟨pre, ⟨signers, .castVote voter id support⟩,
        .weight (liveBalance pre config voter),
        setProposal pre id (p.count voter support (liveBalance pre config voter))⟩ :
          Event Address)] =
        if id = j then [(voter, liveBalance pre config voter)] else [] := by
      intro j
      by_cases hj : id = j <;> simp [ballots, hj]
    refine i.rewrite n (fun j hj => ?_) rfl ((i.counted id p found).vote ?_ first)
    · rw [hb, if_neg (Ne.symm hj)]
    · rw [hb, if_pos rfl]
  | finalized found | queued found | executed found =>
    exact i.rewrite n (fun _ _ => rfl) rfl ((i.counted _ _ found).carry rfl rfl rfl)

/-! ### Snapshot voting -/

/-- Every accepted vote weighs what its voter held when the proposal was created. -/
def SnapshotWeights (h : List (Event Address)) : Prop :=
  ∀ g y l voter id support, h = g ++ y :: l → y.call.op = .castVote voter id support →
    ∃ x k, since id g = some (x, k) ∧ y.out = .weight (votingBalance x.pre voter)

/-- What the snapshot is for: the weights are those of the creation, and no
proposal collects more than the supply of its token. -/
structure SnapshotVoting (supply : Address → ℤ) (h : List (Event Address)) (w : World Address) :
    Prop where
  weights : SnapshotWeights h
  covered : ∀ id p, w.proposalEntry id = some p → ∃ x k config, since id h = some (x, k) ∧
    x.pre.configEntry = some config ∧ p.votesFor + p.votesAgainst ≤ supply config.token

/-- No voter's holding has a net change between the creation of a proposal and
the vote on it. -/
def Untransferred (h : List (Event Address)) : Prop :=
  ∀ g y l voter id support x k, h = g ++ y :: l → y.call.op = .castVote voter id support →
    since id g = some (x, k) → netFlow voter k = 0

section Runs
variable {now sequence : ℕ} {tokens : Address → Token Address} {supply : Address → ℤ}

theorem tallied_trace (tr : Trace step (deployed now sequence tokens) h w) : Tallied h w :=
  tr.history tallied_step ⟨numbered_deployed now sequence tokens, nofun, fun _ _ => rfl⟩

/-- Transfers move no supply. -/
theorem supply_trace (tr : Trace step (deployed now sequence tokens) h w)
    (hs : ∀ token, HasTotal (tokens token).balance (supply token)) (token : Address) :
    HasTotal (w.tokens token).balance (supply token) := by
  refine tr.invariant (I := fun w => ∀ token, HasTotal (w.tokens token).balance (supply token))
    (fun x hx i token => ?_) hs token
  have e := step_effect hx
  obtain ⟨pre, ⟨signers, op⟩, out, post⟩ := x
  simp only at e i ⊢
  cases e with
  | @transferred moved _ _ _ ledger hm =>
    simp only [Function.update_apply]
    split_ifs with ht
    · subst ht
      exact hm.total (i token)
    · exact i token
  | _ => exact i token

/-- The weight of an accepted vote: the holding at the creation and the flow since. -/
theorem vote_weight {g l : List (Event Address)} {voter : Address} {support : Bool}
    (tr : Trace step (deployed now sequence tokens) (g ++ y :: l) t)
    (hop : y.call.op = .castVote voter id support) :
    ∃ x k, since id g = some (x, k) ∧
      y.out = .weight (votingBalance x.pre voter + netFlow voter k) := by
  obtain ⟨before, hy, -⟩ := tr.at_receipt
  have e := step_effect hy
  rw [hop] at e
  generalize hout : y.out = out at e
  generalize y.post = post at e
  cases e with
  | @voted _ _ _ proposal config found active inTime first stored =>
    obtain ⟨x, k, hs⟩ := ((tallied_trace before).counted id proposal found).created
    refine ⟨x, k, hs, ?_⟩
    rw [← votingBalance_since before hs voter]
    simp [votingBalance, stored]

/-- A proposal is created under a configuration. -/
theorem since_configured (tr : Trace step (deployed now sequence tokens) h t)
    (hs : since id h = some (x, k)) : ∃ config, x.pre.configEntry = some config := by
  obtain ⟨hc, g, rfl⟩ := since_split hs
  obtain ⟨-, hx, -⟩ := tr.at_receipt
  have e := step_effect hx
  obtain ⟨pre, ⟨signers, op⟩, out, post⟩ := x
  simp only at e
  cases e with
  | proposed stored => exact ⟨_, stored⟩
  | _ => simp [created] at hc

/-- Under snapshot weights the tally is what distinct voters held at the
creation, which the supply covers. -/
theorem tally_le_supply (tr : Trace step (deployed now sequence tokens) h t)
    (hs : ∀ token, HasTotal (tokens token).balance (supply token)) (hw : SnapshotWeights h)
    {p : ProposalState Address} (found : t.proposalEntry id = some p) :
    ∃ x k config, since id h = some (x, k) ∧ x.pre.configEntry = some config ∧
      p.votesFor + p.votesAgainst ≤ supply config.token := by
  obtain ⟨⟨x, k, hx⟩, tally, voters, nodup⟩ := (tallied_trace tr).counted id p found
  obtain ⟨config, hconfig⟩ := since_configured tr hx
  refine ⟨x, k, config, hx, hconfig, ?_⟩
  have weights : ∀ b ∈ ballots id h, b.2 = votingBalance x.pre b.1 := by
    intro b hb
    obtain ⟨g, y, l, support, rfl, hop, hout⟩ := mem_ballots hb
    obtain ⟨x', k', hx', hout'⟩ := hw g y l b.1 id support rfl hop
    obtain ⟨rfl, -⟩ : x' = x ∧ _ := by simpa [since_append hx'] using hx
    simpa [hout] using hout'
  have total : HasTotal (votingBalance x.pre) (supply config.token) := by
    obtain ⟨-, g, rfl⟩ := since_split hx
    obtain ⟨before, -, -⟩ := tr.at_receipt
    refine (supply_trace before hs config.token).congr (fun a => ?_) rfl
    simp [votingBalance, hconfig, liveBalance]
  have held : ∀ a, 0 ≤ votingBalance x.pre a := by
    intro a
    simpa [votingBalance, hconfig, liveBalance] using (x.pre.tokens config.token).nonneg a
  calc p.votesFor + p.votesAgainst = ((ballots id h).map Prod.snd).sum := tally
    _ = (((ballots id h).map Prod.fst).map (votingBalance x.pre)).sum := by
        rw [List.map_map]
        exact congrArg List.sum (List.map_congr_left weights)
    _ = ∑ a ∈ p.voters.toFinset, votingBalance x.pre a := by
        rw [List.sum_toFinset _ nodup, voters]
    _ ≤ supply config.token := total.sum_le held _

/-- Votes weigh as at the snapshot, and no tally exceeds the supply, in exactly
the runs in which no voter's holding changed on balance before the vote. -/
theorem snapshotVoting_iff_untransferred
    (hs : ∀ token, HasTotal (tokens token).balance (supply token))
    (calls : List (Transaction Address)) :
    SnapshotVoting supply (run step (deployed now sequence tokens) calls).2
        (run step (deployed now sequence tokens) calls).1 ↔
      Untransferred (run step (deployed now sequence tokens) calls).2 := by
  have tr := run_trace step (deployed now sequence tokens) calls
  generalize (run step (deployed now sequence tokens) calls).2 = h at tr ⊢
  constructor
  · intro v g y l voter id support x k hg hop hx
    subst hg
    obtain ⟨x', k', hx', hout⟩ := vote_weight tr hop
    obtain ⟨x'', k'', hx'', hout'⟩ := v.weights g y l voter id support rfl hop
    obtain ⟨rfl, rfl⟩ : x' = x ∧ k' = k := by simpa [hx'] using hx
    obtain ⟨rfl, rfl⟩ : x' = x'' ∧ k' = k'' := by simpa [hx'] using hx''
    rw [hout, Answer.weight.injEq] at hout'
    linarith
  · intro u
    have weights : SnapshotWeights h := by
      intro g y l voter id support hg hop
      subst hg
      obtain ⟨x, k, hx, hout⟩ := vote_weight tr hop
      refine ⟨x, k, hx, ?_⟩
      rw [hout, u g y l voter id support x k rfl hop hx, add_zero]
    exact ⟨weights, fun id p found => tally_le_supply tr hs weights found⟩

end Runs

/-- One account holds all hundred units of token 9. -/
def oneHolder (token : ℕ) : Token ℕ := if token = 9 then Token.empty.mint 1 100 else Token.empty

def oneHolderSupply (token : ℕ) : ℤ := if token = 9 then 100 else 0

/-- The holder votes and passes the tokens on to an account that votes as well. -/
def votedTwice : List (Transaction ℕ) :=
  [⟨[5], .initializeContract 5 ⟨9, 100, 400, 1, 100⟩⟩, ⟨[1], .propose 1 7 "pause" [] "halt"⟩,
    ⟨[1], .castVote 1 0 true⟩, ⟨[1], .transfer 9 1 2 100⟩, ⟨[2], .castVote 2 0 true⟩]

/-- The tally is twice the supply of the token. -/
theorem votedTwice_exceeds_supply :
    let r := run step (deployed 0 0 oneHolder) votedTwice
    (r.1.proposalEntry 0).map (·.votesFor) = some 200 ∧
      ¬ SnapshotVoting oneHolderSupply r.2 r.1 := by
  intro r
  have hfor : (r.1.proposalEntry 0).map (·.votesFor) = some 200 := by decide +kernel
  have hagainst : (r.1.proposalEntry 0).map (·.votesAgainst) = some 0 := by decide +kernel
  refine ⟨hfor, fun v => ?_⟩
  obtain ⟨p, found, hp⟩ := Option.map_eq_some_iff.mp hfor
  have hz : p.votesAgainst = 0 := by simpa [found] using hagainst
  obtain ⟨-, -, config, -, -, hle⟩ := v.covered 0 p found
  have hsupply : oneHolderSupply config.token ≤ 100 := by
    unfold oneHolderSupply
    split <;> decide
  omega

theorem snapshotVoting_iff_untransferred_oneHolder :
    let r := run step (deployed 0 0 oneHolder) votedTwice
    SnapshotVoting oneHolderSupply r.2 r.1 ↔ Untransferred r.2 := by
  refine snapshotVoting_iff_untransferred (fun token => ?_) votedTwice
  unfold oneHolder oneHolderSupply
  split
  · exact ((HasTotal.zero.update 1 100).congr (fun _ => rfl) (by norm_num))
  · exact HasTotal.zero

end RefractContracts.Governance
