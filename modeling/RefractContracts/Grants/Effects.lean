import RefractContracts.Grants.Consistency
import RefractContracts.Grants.Contract

/-! What an accepted transaction of `RefractGrants` does. The entry points are
unfolded here; properties of runs are case analyses on these effects. -/

namespace RefractContracts.Grants

open Host Math

variable {Address : Type}

/-- The grant after a claim. -/
def OnchainGrant.settled (grant : OnchainGrant Address) : OnchainGrant Address :=
  { grant with
    claimable := 0
    milestones := grant.milestones.map fun milestone =>
      if milestone.confirmed then { milestone with claimed := true } else milestone }

/-- The grant after the confirmation of the milestone with this index. -/
def OnchainGrant.confirmed (grant : OnchainGrant Address) (index : ℕ)
    (milestone : OnchainMilestone) : OnchainGrant Address :=
  { grant with
    claimable := grant.claimable + milestone.amount
    milestones := grant.milestones.set index { milestone with confirmed := true } }

/-- A grant as `createGrant` stores it. -/
def openGrant (recipient : Address) (totalAmount : ℤ) (milestoneAmounts : List ℤ) :
    OnchainGrant Address :=
  ⟨recipient, totalAmount, milestoneAmounts.map (⟨·, false, false⟩), 0⟩

/-- The address whose screening an operation changes, with the new record. -/
def Op.screens : Op Address → Option (Address × Option ScreeningStatus)
  | .allowRecipient _ recipient => some (recipient, some .allowed)
  | .blockRecipient _ recipient => some (recipient, some .blocked)
  | .removeRecipient _ recipient => some (recipient, none)
  | _ => none

variable [DecidableEq Address]

/-- The fee of a claim is added to what the token has accrued. -/
def accrue (w : World Address) (token : Address) (fee : ℤ) : World Address :=
  { w with
    accruedFeesEntry := if 0 < fee then
      Function.update w.accruedFeesEntry token (some (accruedFees w token + fee))
    else w.accruedFeesEntry }

theorem accruedFees_setAccruedFees (w : World Address) (token : Address) (fees : ℤ) :
    accruedFees (setAccruedFees w token fees) = Function.update (accruedFees w) token fees := by
  funext a
  by_cases ha : a = token
  · subst ha
    simp [accruedFees, setAccruedFees]
  · simp [accruedFees, setAccruedFees, ha]

theorem accruedFees_accrue (w : World Address) (token : Address) {fee : ℤ} (hfee : 0 ≤ fee) :
    accruedFees (accrue w token fee) =
      Function.update (accruedFees w) token (accruedFees w token + fee) := by
  by_cases h : 0 < fee
  · rw [← accruedFees_setAccruedFees]
    simp only [accrue, h, if_true]
    rfl
  · obtain rfl : fee = 0 := by omega
    rw [add_zero, Function.update_eq_self]
    rfl

/-- What is positive is transferred. -/
def Paid (tokens tokens' : Address → Token Address) (token src dst : Address) (amount : ℤ) :
    Prop :=
  (amount = 0 ∧ tokens' = tokens) ∨
    0 < amount ∧ ∃ ledger, (tokens token).Moved ledger src dst amount ∧
      tokens' = Function.update tokens token ledger

inductive Effect (self : Address) (w : World Address) : World Address → Op Address → ℤ → Prop
  | initialized {governance token} (first : w.governanceEntry = none) :
      Effect self w (setAccruedFees { w with
          governanceEntry := some governance, tokenEntry := some token
          nextGrantIdEntry := some 0 } token 0)
        (.initializeContract governance token) 0
  | feeConfigured {caller treasury registry} (governance : w.governanceEntry = some caller) :
      Effect self w { w with
          treasuryEntry := some treasury, parameterRegistryEntry := some registry }
        (.setFeeConfig caller treasury registry) 0
  | created {caller recipient total amounts} (governance : w.governanceEntry = some caller)
      (allowed : w.recipientStatusEntry recipient = some .allowed)
      (sum : sumMilestones amounts = .ok total) :
      Effect self w (setGrant { w with nextGrantIdEntry := some (nextGrantId w + 1) }
          (nextGrantId w) (openGrant recipient total amounts))
        (.createGrant caller recipient total amounts) (nextGrantId w)
  | confirmed {caller id index grant milestone} (governance : w.governanceEntry = some caller)
      (found : w.grantEntry id = some grant) (next : grant.milestones[index]? = some milestone)
      (before : ∀ x ∈ grant.milestones.take index, x.confirmed = true)
      (unconfirmed : milestone.confirmed = false) :
      Effect self w (setGrant w id (grant.confirmed index milestone))
        (.confirmMilestone caller id index) 0
  | claimed {recipient id grant token net fee tokens} (found : w.grantEntry id = some grant)
      (own : grant.recipient = recipient) (due : 0 < grant.claimable)
      (stored : w.tokenEntry = some token) (split : net + fee = grant.claimable)
      (fee_nonneg : 0 ≤ fee) (paid : Paid w.tokens tokens token self recipient net) :
      Effect self w { setGrant (accrue w token fee) id grant.settled with tokens }
        (.claim recipient id) net
  | nothingSwept {token} (stored : w.tokenEntry = some token) (none : accruedFees w token = 0) :
      Effect self w w (.sweepFees token) 0
  | swept {token treasury ledger} (stored : w.tokenEntry = some token)
      (configured : w.treasuryEntry = some treasury)
      (moved : (w.tokens token).Moved ledger self treasury (accruedFees w token)) :
      Effect self w { setAccruedFees w token 0 with
          tokens := Function.update w.tokens token ledger }
        (.sweepFees token) (accruedFees w token)
  | screened {op recipient status} (kind : op.screens = some (recipient, status)) :
      Effect self w { w with
          recipientStatusEntry := Function.update w.recipientStatusEntry recipient status } op 0
  | rated {registry rate} :
      Effect self w { w with feeRates := Function.update w.feeRates registry rate }
        (.setFeeRate registry rate) 0
  | transferred {token src dst amount ledger} (outside : src ≠ self)
      (moved : (w.tokens token).Moved ledger src dst amount) :
      Effect self w { w with tokens := Function.update w.tokens token ledger }
        (.transfer token src dst amount) 0

variable {self : Address} {signers : List Address} {w w' : World Address} {out : ℤ}

theorem requireGovernance_ok {caller : Address} {u : Unit}
    (h : requireGovernance signers w caller = .ok u) : w.governanceEntry = some caller := by
  simp only [requireGovernance, governance, bind_eq_ok, okOr_eq_ok, bail_eq_ok, not_not] at h
  obtain ⟨-, -, governance, hgovernance, rfl⟩ := h
  exact hgovernance

/-- The contract sums up as the model does. -/
theorem layMilestones_agrees {S : ContractGrantsError → GrantsError → Prop}
    (hamount : S .invalidMilestoneAmount .invalidMilestoneAmount)
    (hmismatch : S .milestoneSumMismatch .milestoneSumMismatch) (milestoneAmounts : List ℤ) :
    Agree S (fun laid sum => laid.1 = sum) (layMilestones milestoneAmounts)
      (sumMilestones milestoneAmounts) := by
  refine Agree.foldlM (fun laid sum amount hsum => ?_) _ rfl
  refine (Agree.bail Iff.rfl hamount).bind fun _ _ _ => ?_
  rw [hsum]
  exact (Agree.i128Checked _ hmismatch).map_left fun a b hab => hab.1.trans hab.2.symm

theorem foldl_laid {l : List ℤ} {acc laid : ℤ × List OnchainMilestone}
    (h : l.foldlM (fun laid amount => do
      bail (amount ≤ 0) .invalidMilestoneAmount
      let sum ← i128Checked (laid.1 + amount) .milestoneSumMismatch
      pure (sum, laid.2 ++ [⟨amount, false, false⟩])) acc = (.ok laid : Call _)) :
    laid.2 = acc.2 ++ l.map (⟨·, false, false⟩) := by
  induction l generalizing acc with
  | nil =>
    obtain rfl : acc = laid := (pure_eq_ok _ _).mp h
    simp
  | cons amount l ih =>
    simp only [List.foldlM_cons, bind_eq_ok, pure_eq_ok] at h
    obtain ⟨_, ⟨-, -, sum, -, rfl⟩, h⟩ := h
    simpa using ih h

theorem layMilestones_ok {milestoneAmounts : List ℤ} {sum : ℤ} {milestones : List OnchainMilestone}
    (h : layMilestones milestoneAmounts = .ok (sum, milestones)) :
    sumMilestones milestoneAmounts = .ok sum ∧
      milestones = milestoneAmounts.map (⟨·, false, false⟩) := by
  obtain ⟨_, hsum, rfl⟩ := (layMilestones_agrees (S := fun _ _ => True) trivial trivial
    milestoneAmounts).of_ok h
  exact ⟨hsum, foldl_laid h⟩

theorem createGrant_ok {caller recipient : Address} {total : ℤ} {amounts : List ℤ} {id : ℕ}
    (h : createGrant signers w caller recipient total amounts = .ok (w', id)) :
    Effect self w w' (.createGrant caller recipient total amounts) id := by
  simp only [createGrant, bind_eq_ok, bail_eq_ok, not_le, not_not, pure_eq_ok, Prod.mk.injEq,
    Prod.exists] at h
  obtain ⟨_, hgov, -, -, -, -, -, hallowed, sum, milestones, hlay, -, rfl, -, -, rfl, rfl⟩ := h
  obtain ⟨hsum, rfl⟩ := layMilestones_ok hlay
  exact .created (requireGovernance_ok hgov)
    (by simpa [isRecipientAllowedInner] using hallowed) hsum

/-- The loop over the earlier milestones looks for an unconfirmed one. -/
theorem confirmedBefore_eq {milestones : List OnchainMilestone} {index : ℕ}
    (h : index ≤ milestones.length) : confirmedBefore milestones index =
      bail (∃ x ∈ milestones.take index, x.confirmed = false) .milestoneOutOfOrder := by
  induction index with
  | zero => simp [confirmedBefore, bail, pure, Except.pure]
  | succ index ih =>
    have hlast := List.getElem?_eq_getElem (l := milestones) (i := index) (by omega)
    have hloop : confirmedBefore milestones (index + 1) =
        (confirmedBefore milestones index >>= fun _ =>
        okOr milestones[index]? .invalidMilestoneIndex >>= fun milestone =>
          bail (milestone.confirmed = false) .milestoneOutOfOrder) := by
      simp [confirmedBefore, List.range_succ, List.foldlM_append]
    have htake : (∃ x ∈ milestones.take (index + 1), x.confirmed = false) ↔
        (∃ x ∈ milestones.take index, x.confirmed = false) ∨
          milestones[index].confirmed = false := by
      rw [List.take_add_one, hlast]
      simp only [Option.toList_some, List.mem_append, List.mem_singleton, or_and_right, exists_or,
        exists_eq_left]
    rw [hloop, ih (by omega), hlast]
    simp only [bail, htake]
    by_cases hearlier : ∃ x ∈ milestones.take index, x.confirmed = false
    · simp [hearlier, bind, Except.bind]
    · simp [hearlier, okOr, bind, Except.bind]

theorem confirmMilestone_ok {caller : Address} {id index : ℕ}
    (h : confirmMilestone signers w caller id index = .ok w') :
    Effect self w w' (.confirmMilestone caller id index) 0 := by
  simp only [confirmMilestone, nextMilestone, grant, bind_eq_ok, bail_eq_ok, okOr_eq_ok, not_le,
    i128Checked_eq_ok, pure_eq_ok, Prod.exists, Prod.mk.injEq] at h
  obtain ⟨grant, milestone, ⟨_, hgov, _, hgrant, -, hlen, _, hbefore, _, hnext, -, hun, rfl, rfl⟩,
    _, ⟨-, rfl⟩, rfl⟩ := h
  rw [confirmedBefore_eq hlen.le, bail_eq_ok] at hbefore
  refine .confirmed (requireGovernance_ok hgov) hgrant hnext (fun x hx => ?_) (by simpa using hun)
  by_contra hc
  exact hbefore ⟨x, hx, by simpa using hc⟩

theorem transferToken_ok {token src dst : Address} {amount : ℤ}
    (h : transferToken w token src dst amount = .ok w') :
    ∃ ledger, (w.tokens token).Moved ledger src dst amount ∧
      w' = { w with tokens := Function.update w.tokens token ledger } := by
  simp only [transferToken, bind_eq_ok, pure_eq_ok] at h
  obtain ⟨ledger, hmoved, rfl⟩ := h
  exact ⟨ledger, Token.transfer_ok hmoved, rfl⟩

omit [DecidableEq Address] in
theorem quotePayout_ok {gross : ℤ} {quote : PayoutQuote} (h : quotePayout w gross = .ok quote) :
    quote.net + quote.fee = gross ∧ 0 ≤ quote.fee ∧ 0 ≤ quote.net := by
  simp only [quotePayout, bind_eq_ok, okOr_eq_ok, pure_eq_ok, Prod.exists] at h
  obtain ⟨-, -, rate, -, net, fee, hassess, rfl⟩ := h
  exact (assessFee_some hassess).2

theorem claim_ok {recipient : Address} {id : ℕ}
    (h : claim self signers w recipient id = .ok (w', out)) :
    Effect self w w' (.claim recipient id) out := by
  simp only [claim, grant, token, bind_eq_ok, bail_eq_ok, okOr_eq_ok, not_le, not_not, pure_eq_ok,
    Prod.mk.injEq] at h
  obtain ⟨-, -, grant, hgrant, -, hown, -, hdue, quote, hquote, token, htoken, wAccrued, haccrued,
    wPaid, hpaid, rfl, rfl⟩ := h
  obtain ⟨hsplit, hfee, hnet⟩ := quotePayout_ok hquote
  obtain rfl : accrue w token quote.fee = wAccrued := by
    unfold accrue
    split_ifs at haccrued ⊢ with hpos
    · simp only [bind_eq_ok, i128Checked_eq_ok, pure_eq_ok] at haccrued
      obtain ⟨_, ⟨-, rfl⟩, rfl⟩ := haccrued
      rfl
    · exact (pure_eq_ok _ _).mp haccrued
  split_ifs at hpaid with hpos
  · obtain ⟨ledger, hmoved, rfl⟩ := transferToken_ok hpaid
    exact .claimed hgrant hown hdue htoken hsplit hfee (.inr ⟨hpos, ledger, hmoved, rfl⟩)
  · obtain rfl := (pure_eq_ok _ _).mp hpaid
    have hzero : quote.net = 0 := by omega
    exact .claimed hgrant hown hdue htoken hsplit hfee (.inl ⟨hzero, rfl⟩)

theorem sweepFees_ok {token : Address} (h : sweepFees self w token = .ok (w', out)) :
    Effect self w w' (.sweepFees token) out := by
  simp only [sweepFees, Grants.token, bind_eq_ok, bail_eq_ok, okOr_eq_ok, not_not] at h
  obtain ⟨_, htoken, -, rfl, h⟩ := h
  split_ifs at h with hnone
  · simp only [pure_eq_ok, Prod.mk.injEq] at h
    obtain ⟨rfl, rfl⟩ := h
    exact .nothingSwept htoken hnone
  · simp only [bind_eq_ok, okOr_eq_ok, pure_eq_ok, Prod.mk.injEq] at h
    obtain ⟨treasury, htreasury, _, hpaid, rfl, rfl⟩ := h
    obtain ⟨ledger, hmoved, rfl⟩ := transferToken_ok hpaid
    exact .swept htoken htreasury hmoved

theorem screenRecipient_ok {caller recipient : Address} {status : Option ScreeningStatus}
    {op : Op Address} (h : screenRecipient signers w caller recipient status = .ok w')
    (kind : op.screens = some (recipient, status)) : Effect self w w' op 0 := by
  simp only [screenRecipient, bind_eq_ok, pure_eq_ok] at h
  obtain ⟨-, -, rfl⟩ := h
  exact .screened kind

/-- An accepted transaction has the effect of its entry point. -/
theorem step_effect {tx : Transaction Address} (h : step self w tx = .ok (w', out)) :
    Effect self w w' tx.op out := by
  obtain ⟨signers, op⟩ := tx
  cases op with
  | initializeContract governance token =>
    simp only [step, initializeContract, bind_eq_ok, bail_eq_ok, pure_eq_ok, Prod.mk.injEq] at h
    obtain ⟨_, ⟨-, hfirst, -, -, rfl⟩, rfl, rfl⟩ := h
    exact .initialized (by simpa using hfirst)
  | setFeeConfig caller treasury registry =>
    simp only [step, setFeeConfig, bind_eq_ok, pure_eq_ok, Prod.mk.injEq] at h
    obtain ⟨_, ⟨_, hgov, rfl⟩, rfl, rfl⟩ := h
    exact .feeConfigured (requireGovernance_ok hgov)
  | createGrant caller recipient total amounts =>
    simp only [step, bind_eq_ok, pure_eq_ok, Prod.exists, Prod.mk.injEq] at h
    obtain ⟨_, id, hcreate, rfl, rfl⟩ := h
    exact createGrant_ok hcreate
  | confirmMilestone caller id index =>
    simp only [step, bind_eq_ok, pure_eq_ok, Prod.mk.injEq] at h
    obtain ⟨_, hconfirm, rfl, rfl⟩ := h
    exact confirmMilestone_ok hconfirm
  | claim recipient id => exact claim_ok h
  | sweepFees token => exact sweepFees_ok h
  | allowRecipient caller recipient =>
    simp only [step, allowRecipient, bind_eq_ok, pure_eq_ok, Prod.mk.injEq] at h
    obtain ⟨_, hscreen, rfl, rfl⟩ := h
    exact screenRecipient_ok hscreen rfl
  | blockRecipient caller recipient =>
    simp only [step, blockRecipient, bind_eq_ok, pure_eq_ok, Prod.mk.injEq] at h
    obtain ⟨_, hscreen, rfl, rfl⟩ := h
    exact screenRecipient_ok hscreen rfl
  | removeRecipient caller recipient =>
    simp only [step, removeRecipient, bind_eq_ok, pure_eq_ok, Prod.mk.injEq] at h
    obtain ⟨_, hscreen, rfl, rfl⟩ := h
    exact screenRecipient_ok hscreen rfl
  | setFeeRate registry rate =>
    simp only [step, pure_eq_ok, Prod.mk.injEq] at h
    obtain ⟨rfl, rfl⟩ := h
    exact .rated
  | transfer token src dst amount =>
    simp only [step, bind_eq_ok, requireAuth_eq_ok, pure_eq_ok, Prod.mk.injEq] at h
    obtain ⟨-, hsigned, _, hpaid, rfl, rfl⟩ := h
    obtain ⟨ledger, hmoved, rfl⟩ := transferToken_ok hpaid
    exact .transferred (by simpa using (List.mem_filter.mp hsigned).2) hmoved

end RefractContracts.Grants
