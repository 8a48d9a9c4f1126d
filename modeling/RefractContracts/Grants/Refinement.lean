import RefractContracts.Grants.Effects

/-! The contract refines the model. On the calls that both have, and without a fee,
the model gives every answer the contract gives and keeps the state that
corresponds to the contract's. A call that traps for want of a signature or of
tokens is answered by nothing and skipped. -/

namespace RefractContracts.Grants

open Host Math

variable {Address : Type}

/-- The calls that the contract and the model share. -/
inductive GrantCall (Address : Type) where
  | createGrant (caller recipient : Address) (totalAmount : ℤ) (milestoneAmounts : List ℤ)
  | confirmMilestone (caller : Address) (grantId milestoneIndex : ℕ)
  | claim (recipient : Address) (grantId : ℕ)

def GrantCall.op : GrantCall Address → Op Address
  | .createGrant caller recipient totalAmount milestoneAmounts =>
    .createGrant caller recipient totalAmount milestoneAmounts
  | .confirmMilestone caller grantId milestoneIndex =>
    .confirmMilestone caller grantId milestoneIndex
  | .claim recipient grantId => .claim recipient grantId

def GrantCall.model : GrantCall Address → GrantsCall Address
  | .createGrant caller recipient totalAmount milestoneAmounts =>
    .createGrant caller recipient totalAmount milestoneAmounts
  | .confirmMilestone caller grantId milestoneIndex =>
    .confirmMilestone caller grantId milestoneIndex
  | .claim recipient grantId => .claim recipient grantId

structure SignedCall (Address : Type) where
  signers : List Address
  call : GrantCall Address

/-- The model's error of the same name. -/
def ContractGrantsError.model : ContractGrantsError → Option GrantsError
  | .unauthorized => some .unauthorized
  | .grantNotFound => some .grantNotFound
  | .noMilestones => some .noMilestones
  | .milestoneSumMismatch => some .milestoneSumMismatch
  | .invalidMilestoneAmount => some .invalidMilestoneAmount
  | .invalidTotalAmount => some .invalidTotalAmount
  | .invalidMilestoneIndex => some .invalidMilestoneIndex
  | .milestoneAlreadyConfirmed => some .milestoneAlreadyConfirmed
  | .milestoneOutOfOrder => some .milestoneOutOfOrder
  | .notRecipient => some .notRecipient
  | .nothingToClaim => some .nothingToClaim
  | .batchTooLarge => some .batchTooLarge
  | _ => none

/-- Two errors of one name. -/
def SameError (e : ContractGrantsError) (e' : GrantsError) : Prop := e.model = some e'

def OnchainMilestone.model (milestone : OnchainMilestone) : Milestone :=
  ⟨milestone.amount, milestone.confirmed, milestone.claimed⟩

def OnchainGrant.model (grant : OnchainGrant Address) : Grant Address :=
  ⟨grant.recipient, grant.totalAmount, grant.milestones.map (·.model), grant.claimable⟩

/-- The model holds what the contract stores. -/
structure Corresponds (w : World Address) (m : GrantsModel Address) : Prop where
  governance : w.governanceEntry = some m.governance
  nextGrantId : nextGrantId w = m.nextGrantId
  grants : ∀ id, m.grants id = (w.grantEntry id).map (·.model)

/-- A contract that is set up for grants without a fee and has none yet. -/
structure Opened (w : World Address) (governance token : Address) : Prop where
  governance : w.governanceEntry = some governance
  token : w.tokenEntry = some token
  nextGrantId : nextGrantId w = 0
  feeless : w.parameterRegistryEntry = none
  grants : ∀ id, w.grantEntry id = none

variable [DecidableEq Address]

/-- The recipient of a new grant is allowed, and its id is not the last one. -/
def Admissible (w : World Address) (k : SignedCall Address) : Prop :=
  match k.call with
  | .createGrant _ recipient _ _ =>
    isRecipientAllowedInner w recipient = true ∧ nextGrantId w < maxU64
  | _ => True

def signedStep (self : Address) :
    Contract (World Address) (SignedCall Address) ℤ ContractGrantsError := fun w k =>
  step self w ⟨k.signers, k.call.op⟩

variable {self : Address} {signers : List Address} {w : World Address} {m : GrantsModel Address}

omit [DecidableEq Address] in
theorem Corresponds.setGrant (h : Corresponds w m) (id : ℕ) (grant : OnchainGrant Address) :
    Corresponds (setGrant w id grant) (m.setGrant id grant.model) where
  governance := h.governance
  nextGrantId := h.nextGrantId
  grants j := by
    by_cases hj : j = id
    · subst hj
      simp [GrantsModel.setGrant, Grants.setGrant]
    · simp [GrantsModel.setGrant, Grants.setGrant, hj, h.grants]

omit [DecidableEq Address] in
theorem Corresponds.allocate (h : Corresponds w m) (next : ℕ) :
    Corresponds { w with nextGrantIdEntry := some next } { m with nextGrantId := next } where
  governance := h.governance
  nextGrantId := rfl
  grants := h.grants

omit [DecidableEq Address] in
theorem writing_agrees {α β : Type} {A : α → β → Prop} {x : Call (World Address × α)}
    {y : ModelCall (GrantsModel Address × β)}
    (h : Agree SameError (fun p q => A p.2 q.2 ∧ Corresponds p.1 q.1) x y) :
    Agree SameError (fun p b => A p.2 b ∧ Corresponds p.1 (m.writing y).1) x (m.writing y).2 := by
  cases h with
  | ok h => exact .ok h
  | refused h => exact .refused h
  | trapped => exact .trapped _

theorem requireGovernance_agrees (h : Corresponds w m) (caller : Address) :
    Agree SameError (fun _ _ => True) (requireGovernance signers w caller)
      (m.requireGovernance caller) := by
  unfold requireGovernance requireAuth governance GrantsModel.requireGovernance
  rw [h.governance]
  refine .bind_demand fun _ => ?_
  have hcaller : Agree SameError (fun _ _ => ¬ caller ≠ m.governance)
      (bail (caller ≠ m.governance) .unauthorized) (bail (caller ≠ m.governance) .unauthorized) :=
    .bail Iff.rfl rfl
  exact hcaller.mono fun _ _ _ => trivial

theorem createGrant_agrees (h : Corresponds w m) (signers : List Address) (caller : Address)
    {recipient : Address}
    (hallowed : isRecipientAllowedInner w recipient = true) (hroom : nextGrantId w < maxU64)
    (total : ℤ) (amounts : List ℤ) :
    Agree SameError
      (fun p id => p.2 = id ∧ Corresponds p.1 (m.createGrant caller recipient total amounts).1)
      (createGrant signers w caller recipient total amounts)
      (m.createGrant caller recipient total amounts).2 := by
  refine writing_agrees ?_
  refine (requireGovernance_agrees h caller).bind fun _ _ _ => ?_
  refine .bail_bind Iff.rfl rfl fun _ => .bail_bind Iff.rfl rfl fun _ => ?_
  refine .bail_left (by simp [hallowed]) ?_
  refine (layMilestones_agrees rfl rfl amounts).with_ok.bind fun laid sum hlaid => ?_
  obtain ⟨rfl, hlay, -⟩ := hlaid
  obtain ⟨-, hmilestones⟩ := layMilestones_ok hlay
  refine .bail_bind Iff.rfl rfl fun _ => .bail_left (by omega) ?_
  have hnext : (u64 (m.nextGrantId + 1) : ModelCall ℕ) = .ok (m.nextGrantId + 1) := by
    rw [u64_eq_ok, ← h.nextGrantId]
    exact ⟨by omega, rfl⟩
  have hgrant : (⟨recipient, total, amounts.map (⟨·, false, false⟩), 0⟩ : Grant Address) =
      (⟨recipient, total, laid.2, 0⟩ : OnchainGrant Address).model := by
    simp [OnchainGrant.model, OnchainMilestone.model, hmilestones]
  dsimp only
  rw [hnext, hgrant, h.nextGrantId]
  exact .ok ⟨rfl, (h.allocate (m.nextGrantId + 1)).setGrant m.nextGrantId _⟩

theorem nextMilestone_agrees (h : Corresponds w m) (signers : List Address) (caller : Address)
    (id index : ℕ) :
    Agree SameError (fun p q => q = (p.1.model, p.2.model))
      (nextMilestone signers w caller id index) (m.nextMilestone caller id index) := by
  refine (requireGovernance_agrees h caller).bind fun _ _ _ => ?_
  rw [h.grants, Grants.grant]
  refine .okOr_map_bind rfl fun grant _ => ?_
  refine .bail_bind (by simp [OnchainGrant.model]) rfl fun hlen => ?_
  rw [confirmedBefore_eq (by omega)]
  refine .bail_bind (by simp [OnchainGrant.model, ← List.map_take, OnchainMilestone.model]) rfl
    fun _ => ?_
  rw [show grant.model.milestones[index]? = grant.milestones[index]?.map (·.model) from
    List.getElem?_map ..]
  refine .okOr_map_bind rfl fun milestone _ => ?_
  exact .bail_bind Iff.rfl rfl fun _ => .ok rfl

theorem confirmMilestone_agrees (h : Corresponds w m) (hs : m.Scheduled) (signers : List Address)
    (caller : Address) (id index : ℕ) :
    Agree SameError (fun w' _ => Corresponds w' (m.confirmMilestone caller id index).1)
      (confirmMilestone signers w caller id index) (m.confirmMilestone caller id index).2 := by
  have hnext := nextMilestone_agrees h signers caller id index
  unfold confirmMilestone GrantsModel.confirmMilestone
  generalize nextMilestone signers w caller id index = x at hnext
  generalize hy : m.nextMilestone caller id index = y at hnext
  cases hnext with
  | @ok p q hpq =>
    subst hpq
    obtain ⟨hclaimable, hamount, hfits⟩ : 0 ≤ p.1.claimable ∧ 0 ≤ p.2.amount ∧
      p.1.claimable + p.2.amount ≤ maxI128 := hs.confirm_fits hy
    have hsum (e : ContractGrantsError) : i128Checked (p.1.claimable + p.2.amount) e =
        .ok (p.1.claimable + p.2.amount) :=
      i128Checked_of_nonneg (add_nonneg hclaimable hamount) hfits e
    have hmodel : checkedAdd p.1.model.claimable p.2.model.amount =
        .ok (p.1.claimable + p.2.amount) := checkedAdd_eq hclaimable hamount hfits
    have hgrant : { p.1.model with
        milestones := p.1.model.milestones.set index { p.2.model with confirmed := true }
        claimable := p.1.claimable + p.2.amount } = (p.1.confirmed index p.2).model := by
      simp [OnchainGrant.model, OnchainGrant.confirmed, OnchainMilestone.model, List.map_set]
    dsimp only [bind, Except.bind]
    rw [hsum, hmodel]
    dsimp only [mapErr]
    rw [hgrant]
    exact .ok (h.setGrant id _)
  | refused he => exact .refused he
  | trapped => exact .trapped _

omit [DecidableEq Address] in
theorem quotePayout_feeless (hfeeless : w.parameterRegistryEntry = none) {gross : ℤ}
    (h : 0 ≤ gross) (hmax : gross ≤ maxI128) : quotePayout w gross = .ok ⟨gross, gross, 0⟩ := by
  simp [quotePayout, feeBps, hfeeless, bail, not_lt.mpr h, assessFee_zero h hmax, okOr, bind,
    Except.bind, pure, Except.pure]

theorem transferToken_not_refused (token src dst : Address) (amount : ℤ) (e : ContractGrantsError) :
    transferToken w token src dst amount ≠ .error (.error e) := by
  unfold transferToken Token.transfer
  split_ifs <;> rintro ⟨⟩

theorem claim_agrees (h : Corresponds w m) (hs : m.Scheduled) {token : Address}
    (htoken : w.tokenEntry = some token) (hfeeless : w.parameterRegistryEntry = none)
    (recipient : Address) (id : ℕ) :
    Agree SameError (fun p amount => p.2 = amount ∧ Corresponds p.1 (m.claim recipient id).1)
      (claim self signers w recipient id) (m.claim recipient id).2 := by
  refine writing_agrees ?_
  unfold claim requireAuth
  rw [h.grants, Grants.grant]
  refine .bind_demand fun _ => .okOr_map_bind rfl fun grant hgrant => ?_
  refine .bail_bind Iff.rfl rfl fun _ => .bail_bind Iff.rfl rfl fun hdue => ?_
  obtain ⟨_, s, hmodel⟩ := hs id grant.model (by rw [h.grants, hgrant]; rfl)
  have hfits : grant.claimable ≤ maxI128 := by
    rw [show grant.claimable = s.due.sum from congrArg Grant.claimable hmodel]
    exact s.due_le
  have hpos : 0 < grant.claimable := by omega
  rw [quotePayout_feeless hfeeless hpos.le hfits, Grants.token, htoken]
  simp only [okOr, ok_bind, lt_irrefl, if_false, pure_bind, hpos, if_true]
  refine .bind_left (transferToken_not_refused _ _ _ _) fun paid hpaid => .ok ⟨rfl, ?_⟩
  obtain ⟨ledger, -, rfl⟩ := transferToken_ok hpaid
  have hsettled : grant.settled.model = { grant.model with
      claimable := 0
      milestones := grant.model.milestones.map fun milestone =>
        if milestone.confirmed then { milestone with claimed := true } else milestone } := by
    simp only [OnchainGrant.model, OnchainGrant.settled, List.map_map, Grant.mk.injEq, true_and,
      and_true]
    refine List.map_congr_left fun milestone _ => ?_
    simp only [Function.comp_apply, OnchainMilestone.model]
    split_ifs <;> rfl
  have hnext := h.setGrant id grant.settled
  rw [hsettled] at hnext
  exact ⟨hnext.governance, hnext.nextGrantId, hnext.grants⟩

/-! ### Runs -/

/-- The model keeps its state when it refuses one of the shared calls. -/
theorem model_kept (hs : m.Scheduled) {call : GrantCall Address} {e : Fault GrantsError}
    (h : (GrantsModel.machine m call.model).2 = .error e) :
    (GrantsModel.machine m call.model).1 = m := by
  cases call with
  | createGrant caller recipient total amounts =>
    simp only [GrantCall.model, GrantsModel.machine] at h ⊢
    rcases m.createGrant_cases caller recipient total amounts with ⟨_, hc⟩ | ⟨_, _, hc⟩
    · rw [hc]
    · rw [hc] at h
      cases h
  | confirmMilestone caller id index =>
    simp only [GrantCall.model, GrantsModel.machine] at h ⊢
    rcases GrantsModel.confirmMilestone_cases hs caller id index with
      ⟨_, hc⟩ | ⟨_, _, _, _, _, _, hc⟩
    · rw [hc]
    · rw [hc] at h
      cases h
  | claim recipient id =>
    simp only [GrantCall.model, GrantsModel.machine] at h ⊢
    rcases GrantsModel.claim_cases hs recipient id with ⟨_, hc⟩ | ⟨_, _, hc⟩
    · rw [hc]
    · rw [hc] at h
      cases h

theorem answer_agrees (self : Address) (h : Corresponds w m) (hs : m.Scheduled) {token : Address}
    (htoken : w.tokenEntry = some token) (hfeeless : w.parameterRegistryEntry = none)
    {k : SignedCall Address} (hk : Admissible w k) :
    Agree SameError
      (fun p answer => p.2 = answer ∧ Corresponds p.1 (GrantsModel.machine m k.call.model).1)
      (signedStep self w k) (GrantsModel.machine m k.call.model).2 := by
  obtain ⟨signers, call⟩ := k
  cases call with
  | createGrant caller recipient total amounts =>
    have hag := createGrant_agrees h (signers.filter (· ≠ self)) caller hk.1 hk.2 total amounts
    simp only [signedStep, step, GrantCall.op, GrantCall.model, GrantsModel.machine]
    generalize createGrant (signers.filter (· ≠ self)) w caller recipient total amounts = x at hag ⊢
    generalize (m.createGrant caller recipient total amounts).2 = y at hag ⊢
    cases hag with
    | ok hid => exact .ok ⟨congrArg _ hid.1, hid.2⟩
    | refused he => exact .refused he
    | trapped => exact .trapped _
  | confirmMilestone caller id index =>
    have hag := confirmMilestone_agrees h hs (signers.filter (· ≠ self)) caller id index
    simp only [signedStep, step, GrantCall.op, GrantCall.model, GrantsModel.machine]
    generalize confirmMilestone (signers.filter (· ≠ self)) w caller id index = x at hag ⊢
    generalize (m.confirmMilestone caller id index).2 = y at hag ⊢
    cases hag with
    | ok hnext => exact .ok ⟨rfl, hnext⟩
    | refused he => exact .refused he
    | trapped => exact .trapped _
  | claim recipient id => exact claim_agrees h hs htoken hfeeless recipient id

/-- What the refinement carries along besides the corresponding states. -/
structure Simulates (token : Address) (w : World Address) (m : GrantsModel Address) : Prop where
  corresponds : Corresponds w m
  scheduled : m.Scheduled
  token : w.tokenEntry = some token
  feeless : w.parameterRegistryEntry = none

theorem configured_kept {w' : World Address} {call : GrantCall Address} {out : ℤ}
    (e : Effect self w w' call.op out) : w'.tokenEntry = w.tokenEntry ∧
      w'.parameterRegistryEntry = w.parameterRegistryEntry := by
  cases call with
  | createGrant caller recipient total amounts =>
    cases e with
    | created => exact ⟨rfl, rfl⟩
    | screened kind => cases kind
  | confirmMilestone caller id index =>
    cases e with
    | confirmed => exact ⟨rfl, rfl⟩
    | screened kind => cases kind
  | claim recipient id =>
    cases e with
    | claimed => exact ⟨rfl, rfl⟩
    | screened kind => cases kind

theorem model_follows (self token : Address) :
    Follows (signedStep self) GrantsModel.machine (fun k => k.call.model) SameError Eq
      (Simulates token) Admissible where
  agree {w m k} h hk := by
    have hag := answer_agrees self h.corresponds h.scheduled h.token h.feeless hk
    refine hag.with_ok.mono fun p answer hp =>
      ⟨hp.1.1, hp.1.2, (GrantsModel.machine_moves h.scheduled _).scheduled h.scheduled, ?_, ?_⟩
    · rw [(configured_kept (step_effect hp.2.1)).1, h.token]
    · rw [(configured_kept (step_effect hp.2.1)).2, h.feeless]
  kept {w m k e} h _ he := by rwa [model_kept h.scheduled he]

/-- In a run of the contract on signed calls, the model gives each answered call the
same answer and ends in the corresponding state. -/
theorem model_refined (self governance token : Address) (w : World Address)
    (hopen : Opened w governance token) (calls : List (SignedCall Address))
    (hadmissible : ∀ g k l, calls = g ++ k :: l →
      Admissible ((machine (signedStep self)).run w g).1 k) :
    let c := (machine (signedStep self)).run w calls
    let m := GrantsModel.machine.run (.new governance)
      ((answered c.2).map fun x => x.1.call.model)
    List.Forall₂ (fun x y => Agree SameError Eq x.2 y.2) (answered c.2) m.2 ∧
      Corresponds c.1 m.1 := by
  have hstart : Simulates token w (.new governance) := by
    refine ⟨⟨hopen.governance, hopen.nextGrantId, fun id => ?_⟩, fun _ _ h => ?_, hopen.token,
      hopen.feeless⟩
    · rw [hopen.grants]
      rfl
    · cases h
  obtain ⟨hanswers, hsim⟩ := (model_follows self token).run calls hstart hadmissible
  exact ⟨hanswers, hsim.corresponds⟩

/-- The contract at 9 with 300 of token 5, governed by 1, which has allowed 2. -/
def fundedGrants : World ℕ :=
  { deployed (fun _ => Token.empty.mint 9 300) fun _ => none with
    governanceEntry := some 1
    tokenEntry := some 5
    nextGrantIdEntry := some 0
    recipientStatusEntry := fun _ => some .allowed }

/-- A grant of two milestones; the second is confirmed out of order, and the first is
claimed twice. -/
def claimedTwice : List (SignedCall ℕ) :=
  [⟨[1], .createGrant 1 2 300 [100, 200]⟩, ⟨[1], .confirmMilestone 1 0 1⟩,
    ⟨[1], .confirmMilestone 1 0 0⟩, ⟨[2], .claim 2 0⟩, ⟨[2], .claim 2 0⟩]

theorem model_refined_claimedTwice :
    let c := (machine (signedStep 9)).run fundedGrants claimedTwice
    let m := GrantsModel.machine.run (.new 1) ((answered c.2).map fun x => x.1.call.model)
    m.2.map (·.2) = [.ok 0, .error (.error .milestoneOutOfOrder), .ok 0, .ok 100,
      .error (.error .nothingToClaim)] ∧
      List.Forall₂ (fun x y => Agree SameError Eq x.2 y.2) (answered c.2) m.2 ∧
      Corresponds c.1 m.1 := by
  refine ⟨by decide, model_refined 9 1 5 fundedGrants ⟨rfl, rfl, rfl, rfl, fun _ => rfl⟩
    claimedTwice fun g k l hsplit => ?_⟩
  cases g with
  | nil =>
    obtain ⟨rfl, -⟩ := List.cons.inj hsplit
    exact ⟨rfl, by decide⟩
  | cons x g =>
    have hk : k ∈ claimedTwice.tail := by simp [hsplit]
    simp only [claimedTwice, List.tail_cons, List.mem_cons, List.not_mem_nil, or_false] at hk
    rcases hk with rfl | rfl | rfl | rfl <;> trivial

end RefractContracts.Grants
