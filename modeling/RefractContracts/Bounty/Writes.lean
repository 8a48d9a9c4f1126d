import RefractContracts.Bounty.Contract

/-! Which entries of the ledger a transaction of the escrow may write. A view of the
ledger that reads none of them is left as it was. -/

namespace RefractContracts.Bounty

open Host

variable {Address Hash : Type}

/-- The entries an operation may write, with any values; the others are kept. -/
inductive Wrote (w : World Address Hash) : Op Address Hash → World Address Hash → Prop
  | initializeContract {governance token governanceEntry tokenEntry balanceEntry reservedEntry
      nextPayoutIdEntry} :
      Wrote w (.initializeContract governance token)
        { w with governanceEntry, tokenEntry, balanceEntry, reservedEntry, nextPayoutIdEntry }
  | setGovernance {caller new governanceEntry} :
      Wrote w (.setGovernance caller new) { w with governanceEntry }
  | fund {src amount tokens balanceEntry} :
      Wrote w (.fund src amount) { w with tokens, balanceEntry }
  | award {caller researcher amount r tokens balanceEntry awardEntry rewards} :
      Wrote w (.award caller researcher amount r)
        { w with tokens, balanceEntry, awardEntry, rewards }
  | createPayout {caller recipient amount deadline reservedEntry nextPayoutIdEntry payoutEntry} :
      Wrote w (.createPayout caller recipient amount deadline)
        { w with reservedEntry, nextPayoutIdEntry, payoutEntry }
  | claim {recipient id tokens balanceEntry reservedEntry payoutEntry} :
      Wrote w (.claim recipient id) { w with tokens, balanceEntry, reservedEntry, payoutEntry }
  | sweepExpired {id tokens balanceEntry reservedEntry payoutEntry} :
      Wrote w (.sweepExpired id) { w with tokens, balanceEntry, reservedEntry, payoutEntry }
  | submitDisclosure {submitter r c disclosureCommitmentEntry usedCommitmentEntry} :
      Wrote w (.submitDisclosure submitter r c)
        { w with disclosureCommitmentEntry, usedCommitmentEntry }
  | registerPayoutAddress {owner preimage payee payoutBindingEntry} :
      Wrote w (.registerPayoutAddress owner preimage payee) { w with payoutBindingEntry }
  | rotatePayoutAddress {owner preimage payee payoutBindingEntry} :
      Wrote w (.rotatePayoutAddress owner preimage payee) { w with payoutBindingEntry }
  | awardCommitment {caller r c amount disclosureCommitmentEntry usedCommitmentEntry reservedEntry
      commitmentAwardEntry} :
      Wrote w (.awardCommitment caller r c amount) { w with
        disclosureCommitmentEntry, usedCommitmentEntry, reservedEntry, commitmentAwardEntry }
  | claimByCommitment {caller preimage tokens balanceEntry reservedEntry commitmentAwardEntry
      awardEntry rewards} :
      Wrote w (.claimByCommitment caller preimage) { w with
        tokens, balanceEntry, reservedEntry, commitmentAwardEntry, awardEntry, rewards }
  | freezePayoutAddress {caller address frozen frozenAddressEntry} :
      Wrote w (.freezePayoutAddress caller address frozen) { w with frozenAddressEntry }
  | screen {address status recipientStatusEntry} :
      Wrote w (.screen address status) { w with recipientStatusEntry }
  | advance {seconds now} : Wrote w (.advance seconds) { w with now }
  | transfer {token src dst amount tokens} :
      Wrote w (.transfer token src dst amount) { w with tokens }

section Entry
variable [DecidableEq Address] {H : Helpers Address Hash} {self : Address} {signers : List Address}
  {w w' : World Address Hash} {out : ℤ}

/-- A token transfer writes balances only. -/
theorem transferToken_ok {token src dst : Address} {amount : ℤ}
    (h : transferToken w token src dst amount = .ok w') :
    ∃ ledger, (w.tokens token).Moved ledger src dst amount ∧
      w' = { w with tokens := Function.update w.tokens token ledger } := by
  simp only [transferToken, bind_eq_ok, pure_eq_ok] at h
  obtain ⟨ledger, hm, rfl⟩ := h
  exact ⟨ledger, Token.transfer_ok hm, rfl⟩

/-- A settled payout writes its record, the two balances and the token. -/
theorem settlePayout_writes {id : ℕ} {record : PayoutRecord Address} {status : PayoutStatus}
    {dst : Address} (h : settlePayout H self w id record status dst = .ok (w', out)) :
    ∃ tokens balanceEntry reservedEntry,
      w' = { w with
        tokens, balanceEntry, reservedEntry
        payoutEntry := Function.update w.payoutEntry id (some { record with status }) } := by
  simp only [settlePayout, bind_eq_ok, pure_eq_ok, Prod.mk.injEq] at h
  obtain ⟨_, -, _, -, _, -, _, -, _, hpaid, rfl, -⟩ := h
  obtain ⟨ledger, -, rfl⟩ := transferToken_ok hpaid
  exact ⟨_, _, _, rfl⟩

variable [DecidableEq Hash]

omit [DecidableEq Address] in
theorem adjudicate_ok {r c : Hash} (h : adjudicate w r c = .ok w') :
    (w.disclosureCommitmentEntry r = some c ∧ w' = w) ∨
      (w.disclosureCommitmentEntry r = none ∧ w' = bindDisclosure w r c) := by
  unfold adjudicate at h
  split at h
  · next recorded hd =>
    simp only [bind_eq_ok, bail_eq_ok, not_not, pure_eq_ok] at h
    obtain ⟨-, rfl, rfl⟩ := h
    exact .inl ⟨hd, rfl⟩
  · next hd =>
    simp only [bind_eq_ok, pure_eq_ok] at h
    obtain ⟨-, -, rfl⟩ := h
    exact .inr ⟨hd, rfl⟩

theorem awardCommitment_wrote {caller : Address} {r c : Hash} {amount : ℤ}
    (h : awardCommitment H signers w caller r c amount = .ok w') :
    Wrote w (.awardCommitment caller r c amount) w' := by
  simp only [awardCommitment, bind_eq_ok, pure_eq_ok] at h
  obtain ⟨_, -, -, -, -, -, -, -, v, hv, _, -, -, -, _, -, _, -, rfl⟩ := h
  rcases adjudicate_ok hv with ⟨-, rfl⟩ | ⟨-, rfl⟩
  · exact .awardCommitment
  · exact .awardCommitment

/-- An accepted transaction writes the entries of its operation only. -/
theorem step_wrote {tx : Transaction Address Hash} (h : step H self w tx = .ok (w', out)) :
    Wrote w tx.op w' := by
  obtain ⟨signers, op⟩ := tx
  cases op with
  | initializeContract governance token =>
    simp only [step, initializeContract, bind_eq_ok, pure_eq_ok, Prod.mk.injEq] at h
    obtain ⟨_, ⟨-, -, rfl⟩, rfl, -⟩ := h
    exact .initializeContract
  | setGovernance caller newGovernance =>
    simp only [step, setGovernance, bind_eq_ok, pure_eq_ok, Prod.mk.injEq] at h
    obtain ⟨_, ⟨_, -, rfl⟩, rfl, -⟩ := h
    exact .setGovernance
  | fund src amount =>
    simp only [step, fund, bind_eq_ok, pure_eq_ok, Prod.mk.injEq] at h
    obtain ⟨_, ⟨-, -, -, -, _, -, _, -, _, -, _, hpaid, rfl⟩, rfl, -⟩ := h
    obtain ⟨ledger, -, rfl⟩ := transferToken_ok hpaid
    exact .fund
  | award caller researcher amount r =>
    simp only [step, award, bind_eq_ok, pure_eq_ok, Prod.mk.injEq] at h
    obtain ⟨_, ⟨_, -, -, -, -, -, -, -, _, -, -, -, _, -, _, -, _, -, _, hpaid, rfl⟩, rfl, -⟩ := h
    obtain ⟨ledger, -, rfl⟩ := transferToken_ok hpaid
    exact .award
  | createPayout caller recipient amount deadline =>
    simp only [step, createPayout, bind_eq_ok, pure_eq_ok, Prod.mk.injEq, Prod.exists] at h
    obtain ⟨_, _, ⟨_, -, -, -, -, -, -, -, _, -, -, -, _, -, _, -, _, -, _, -, rfl, -⟩, rfl, -⟩ := h
    exact .createPayout
  | claim recipient payoutId =>
    simp only [step, claim, bind_eq_ok] at h
    obtain ⟨-, -, _, -, -, -, -, -, hs⟩ := h
    obtain ⟨_, _, _, rfl⟩ := settlePayout_writes hs
    exact .claim
  | sweepExpired payoutId =>
    simp only [step, sweepExpired, bind_eq_ok] at h
    obtain ⟨_, -, -, -, -, -, _, -, hs⟩ := h
    obtain ⟨_, _, _, rfl⟩ := settlePayout_writes hs
    exact .sweepExpired
  | submitDisclosure submitter r c =>
    simp only [step, submitDisclosure, bind_eq_ok, pure_eq_ok, Prod.mk.injEq] at h
    obtain ⟨_, ⟨-, -, _, -, -, -, -, -, rfl⟩, rfl, -⟩ := h
    exact .submitDisclosure
  | registerPayoutAddress owner preimage payoutAddress =>
    simp only [step, registerPayoutAddress, bind_eq_ok, pure_eq_ok, Prod.mk.injEq] at h
    obtain ⟨_, ⟨-, -, _, -, -, -, -, -, rfl⟩, rfl, -⟩ := h
    exact .registerPayoutAddress
  | rotatePayoutAddress owner preimage newPayoutAddress =>
    simp only [step, rotatePayoutAddress, bind_eq_ok, pure_eq_ok, Prod.mk.injEq] at h
    obtain ⟨_, ⟨-, -, _, -, -, -, _, -, -, -, -, -, -, -, rfl⟩, rfl, -⟩ := h
    exact .rotatePayoutAddress
  | awardCommitment caller r c amount =>
    simp only [step, bind_eq_ok, pure_eq_ok, Prod.mk.injEq] at h
    obtain ⟨_, ha, rfl, -⟩ := h
    exact awardCommitment_wrote ha
  | claimByCommitment caller preimage =>
    simp only [step, claimByCommitment, bind_eq_ok, pure_eq_ok, Prod.mk.injEq] at h
    obtain ⟨-, -, _, -, _, -, -, -, _, -, -, -, -, -, -, -, _, -, _, -, _, -, _, -, _, -, _, hpaid,
      rfl, -⟩ := h
    obtain ⟨ledger, -, rfl⟩ := transferToken_ok hpaid
    exact .claimByCommitment
  | freezePayoutAddress caller address frozen =>
    simp only [step, freezePayoutAddress, bind_eq_ok, pure_eq_ok, Prod.mk.injEq] at h
    obtain ⟨_, ⟨_, -, rfl⟩, rfl, -⟩ := h
    exact .freezePayoutAddress
  | screen address status =>
    simp only [step, pure_eq_ok, Prod.mk.injEq] at h
    obtain ⟨rfl, -⟩ := h
    exact .screen
  | advance seconds =>
    simp only [step, bind_eq_ok, pure_eq_ok, Prod.mk.injEq] at h
    obtain ⟨_, -, rfl, -⟩ := h
    exact .advance
  | transfer token src dst amount =>
    simp only [step, bind_eq_ok, pure_eq_ok, Prod.mk.injEq] at h
    obtain ⟨-, -, _, hpaid, rfl, -⟩ := h
    obtain ⟨ledger, -, rfl⟩ := transferToken_ok hpaid
    exact .transfer

end Entry

end RefractContracts.Bounty
