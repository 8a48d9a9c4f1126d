import RefractContracts.Bounty.Rewards

/-! What an accepted transaction of the escrow does to its funds, given that the
accessors read the stored values. The entry points are unfolded here; properties of
runs are case analyses on these effects. -/

namespace RefractContracts.Bounty

open Host

variable {Address Hash : Type}

/-- The accessors of the token and of the two balances read what is stored. -/
structure Helpers.Reads (H : Helpers Address Hash) : Prop where
  token : ∀ {w token}, H.tokenAddr w = .ok token → w.tokenEntry = some token
  balance : ∀ {w n}, H.rawBalance w = .ok n → w.balanceEntry = some n
  reserved : ∀ {w n}, H.rawReserved w = .ok n → w.reservedEntry = some n
  available : ∀ {w n}, H.availableBalanceInner w = .ok n →
    ∃ balance reserved, w.balanceEntry = some balance ∧ w.reservedEntry = some reserved ∧
      n = balance - reserved

theorem storedHelpers_reads (sha256 : Hash → Hash) :
    (storedHelpers sha256 : Helpers Address Hash).Reads where
  token h := (okOr_eq_ok _ _ _).mp h
  balance h := (okOr_eq_ok _ _ _).mp h
  reserved h := (okOr_eq_ok _ _ _).mp h
  available h := by
    simp only [storedHelpers, bind_eq_ok, okOr_eq_ok, i128_eq_ok] at h
    obtain ⟨balance, hbalance, reserved, hreserved, -, rfl⟩ := h
    exact ⟨balance, reserved, hbalance, hreserved, rfl⟩

/-- What the escrow accounts with: its token, the two balances, the obligations and
the token balances. -/
structure Funds (Address Hash : Type) where
  opened : Bool
  token : Option Address
  balance : Option ℤ
  reserved : Option ℤ
  nextPayoutId : ℕ
  payouts : ℕ → Option (PayoutRecord Address)
  pledges : Hash → Option (CommitmentAwardRecord Hash)
  tokens : Address → Token Address

def funds (w : World Address Hash) : Funds Address Hash where
  opened := w.governanceEntry.isSome
  token := w.tokenEntry
  balance := w.balanceEntry
  reserved := w.reservedEntry
  nextPayoutId := w.nextPayoutIdEntry.getD 0
  payouts := w.payoutEntry
  pledges := w.commitmentAwardEntry
  tokens := w.tokens

/-- The operations that leave the funds as they are. -/
def Op.Idle : Op Address Hash → Prop
  | .submitDisclosure .. | .registerPayoutAddress .. | .rotatePayoutAddress ..
  | .freezePayoutAddress .. | .screen .. | .advance .. => True
  | _ => False

section Effects
variable [DecidableEq Address]

/-- The funds after a write of one token's balances. -/
def Funds.move (f : Funds Address Hash) (token : Address) (ledger : Token Address) :
    Funds Address Hash := { f with tokens := Function.update f.tokens token ledger }

variable [DecidableEq Hash]

/-- The effect of an operation that answers `out` on the funds. -/
inductive Effect (sha256 : Hash → Hash) (self : Address) (f : Funds Address Hash) :
    Funds Address Hash → Op Address Hash → ℤ → Prop
  | initialized {governance token} (closed : f.opened = false) :
      Effect sha256 self f { f with
          opened := true, token := some token, balance := some 0, reserved := some 0
          nextPayoutId := 0 }
        (.initializeContract governance token) 0
  | funded {src amount token balance ledger} (outside : src ≠ self) (pos : 0 < amount)
      (stored : f.token = some token) (held : f.balance = some balance)
      (moved : (f.tokens token).Moved ledger src self amount) :
      Effect sha256 self f { f.move token ledger with balance := some (balance + amount) }
        (.fund src amount) 0
  | awarded {caller researcher amount r token balance reserved ledger} (pos : 0 < amount)
      (stored : f.token = some token) (held : f.balance = some balance)
      (kept : f.reserved = some reserved) (free : amount ≤ balance - reserved)
      (moved : (f.tokens token).Moved ledger self researcher amount) :
      Effect sha256 self f { f.move token ledger with balance := some (balance - amount) }
        (.award caller researcher amount r) 0
  | reserved {caller recipient amount deadline token balance reserved} (pos : 0 < amount)
      (stored : f.token = some token) (held : f.balance = some balance)
      (kept : f.reserved = some reserved) (free : amount ≤ balance - reserved) :
      Effect sha256 self f { f with
          reserved := some (reserved + amount), nextPayoutId := f.nextPayoutId + 1
          payouts := Function.update f.payouts f.nextPayoutId
            (some ⟨recipient, token, amount, deadline, .pending⟩) }
        (.createPayout caller recipient amount deadline) f.nextPayoutId
  | settled {op id record status dst balance reserved ledger}
      (kind : (op = .claim record.recipient id ∧ status = .claimed ∧ dst = record.recipient) ∨
        op = .sweepExpired id ∧ status = .swept)
      (found : f.payouts id = some record) (pending : record.status = .pending)
      (held : f.balance = some balance) (kept : f.reserved = some reserved)
      (moved : (f.tokens record.token).Moved ledger self dst record.amount) :
      Effect sha256 self f { f.move record.token ledger with
          balance := some (balance - record.amount), reserved := some (reserved - record.amount)
          payouts := Function.update f.payouts id (some { record with status }) }
        op record.amount
  | pledged {caller r c amount time balance reserved} (pos : 0 < amount)
      (first : f.pledges c = none)
      (held : f.balance = some balance) (kept : f.reserved = some reserved)
      (free : amount ≤ balance - reserved) :
      Effect sha256 self f { f with
          reserved := some (reserved + amount)
          pledges := Function.update f.pledges c (some ⟨r, c, amount, time, .awarded⟩) }
        (.awardCommitment caller r c amount) 0
  | redeemed {caller preimage pledge payee token balance reserved ledger}
      (found : f.pledges (sha256 preimage) = some pledge) (awarded : pledge.status = .awarded)
      (stored : f.token = some token) (held : f.balance = some balance)
      (kept : f.reserved = some reserved)
      (moved : (f.tokens token).Moved ledger self payee pledge.amount) :
      Effect sha256 self f { f.move token ledger with
          balance := some (balance - pledge.amount), reserved := some (reserved - pledge.amount)
          pledges := Function.update f.pledges (sha256 preimage)
            (some { pledge with status := .claimed }) }
        (.claimByCommitment caller preimage) pledge.amount
  | governed {caller new} :
      Effect sha256 self f { f with opened := true } (.setGovernance caller new) 0
  | idle {op} (kind : op.Idle) : Effect sha256 self f f op 0
  | transferred {token src dst amount ledger} (outside : src ≠ self)
      (moved : (f.tokens token).Moved ledger src dst amount) :
      Effect sha256 self f (f.move token ledger) (.transfer token src dst amount) 0

variable {H : Helpers Address Hash} {self : Address} {signers : List Address}
  {w w' : World Address Hash} {out : ℤ}

theorem fund_ok (hH : H.Reads) {src : Address} {amount : ℤ} (outside : self ∉ signers)
    (h : fund H self signers w src amount = .ok w') :
    Effect H.hashPreimage self (funds w) (funds w') (.fund src amount) 0 := by
  simp only [fund, bind_eq_ok, requireAuth_eq_ok, bail_eq_ok, not_le, i128Checked_eq_ok,
    pure_eq_ok] at h
  obtain ⟨-, hsigned, -, hpos, token, htoken, balance, hbalance, _, ⟨-, rfl⟩, _, hpaid, rfl⟩ := h
  obtain ⟨ledger, hmoved, rfl⟩ := transferToken_ok hpaid
  exact .funded (fun hs => outside (hs ▸ hsigned)) hpos (hH.token htoken) (hH.balance hbalance)
    hmoved

theorem award_ok (hH : H.Reads) {caller researcher : Address} {amount : ℤ} {r : Hash}
    (h : award H self signers w caller researcher amount r = .ok w') :
    Effect H.hashPreimage self (funds w) (funds w') (.award caller researcher amount r) 0 := by
  simp only [award, bind_eq_ok, bail_eq_ok, not_le, not_lt, i128Checked_eq_ok, pure_eq_ok] at h
  obtain ⟨_, -, -, hpos, -, -, -, -, _, havail, -, hfree, balance, hbalance, _, ⟨-, rfl⟩, token,
    htoken, _, hpaid, rfl⟩ := h
  obtain ⟨ledger, hmoved, rfl⟩ := transferToken_ok hpaid
  obtain ⟨held, reserved, hheld, hreserved, rfl⟩ := hH.available havail
  obtain rfl : held = balance := Option.some.inj (hheld.symm.trans (hH.balance hbalance))
  exact .awarded hpos (hH.token htoken) hheld hreserved hfree hmoved

theorem createPayout_ok (hH : H.Reads) {caller recipient : Address} {amount : ℤ}
    {deadline id : ℕ}
    (h : createPayout H signers w caller recipient amount deadline = .ok (w', id)) :
    Effect H.hashPreimage self (funds w) (funds w')
      (.createPayout caller recipient amount deadline) id := by
  simp only [createPayout, bind_eq_ok, bail_eq_ok, not_le, not_lt, i128Checked_eq_ok, u64_eq_ok,
    pure_eq_ok, Prod.mk.injEq] at h
  obtain ⟨_, -, -, hpos, -, -, -, -, _, havail, -, hfree, reserved, hreserved, _, ⟨-, rfl⟩, _,
    ⟨-, rfl⟩, token, htoken, rfl, rfl⟩ := h
  obtain ⟨balance, kept, hheld, hkept, rfl⟩ := hH.available havail
  obtain rfl : kept = reserved := Option.some.inj (hkept.symm.trans (hH.reserved hreserved))
  have hstored := hH.token htoken
  exact .reserved hpos hstored hheld hkept hfree

theorem settlePayout_ok (hH : H.Reads) {id : ℕ} {record : PayoutRecord Address}
    {status : PayoutStatus} {dst : Address} {op : Op Address Hash}
    (kind : (op = .claim record.recipient id ∧ status = .claimed ∧ dst = record.recipient) ∨
      op = .sweepExpired id ∧ status = .swept)
    (found : w.payoutEntry id = some record) (pending : record.status = .pending)
    (h : settlePayout H self w id record status dst = .ok (w', out)) :
    Effect H.hashPreimage self (funds w) (funds w') op out := by
  simp only [settlePayout, bind_eq_ok, i128Checked_eq_ok, pure_eq_ok, Prod.mk.injEq] at h
  obtain ⟨reserved, hreserved, _, ⟨-, rfl⟩, balance, hbalance, _, ⟨-, rfl⟩, _, hpaid, rfl, rfl⟩ := h
  obtain ⟨ledger, hmoved, rfl⟩ := transferToken_ok hpaid
  have hheld := hH.balance hbalance
  have hkept := hH.reserved hreserved
  exact .settled kind found pending hheld hkept hmoved

theorem claim_ok (hH : H.Reads) {recipient : Address} {id : ℕ}
    (h : claim H self signers w recipient id = .ok (w', out)) :
    Effect H.hashPreimage self (funds w) (funds w') (.claim recipient id) out := by
  simp only [claim, bind_eq_ok, okOr_eq_ok, bail_eq_ok, not_not] at h
  obtain ⟨-, -, record, hfound, -, rfl, -, hpending, h⟩ := h
  exact settlePayout_ok hH (.inl ⟨rfl, rfl, rfl⟩) hfound hpending h

theorem sweepExpired_ok (hH : H.Reads) {id : ℕ} (h : sweepExpired H self w id = .ok (w', out)) :
    Effect H.hashPreimage self (funds w) (funds w') (.sweepExpired id) out := by
  simp only [sweepExpired, bind_eq_ok, okOr_eq_ok, bail_eq_ok, not_not] at h
  obtain ⟨record, hfound, -, -, -, hpending, governance, -, h⟩ := h
  exact settlePayout_ok hH (.inr ⟨rfl, rfl⟩) hfound hpending h

omit [DecidableEq Address] in
theorem funds_adjudicate {r c : Hash} (h : adjudicate w r c = .ok w') : funds w' = funds w := by
  rcases adjudicate_ok h with ⟨-, rfl⟩ | ⟨-, rfl⟩
  · rfl
  · rfl

theorem awardCommitment_ok (hH : H.Reads) {caller : Address} {r c : Hash} {amount : ℤ}
    (h : awardCommitment H signers w caller r c amount = .ok w') :
    Effect H.hashPreimage self (funds w) (funds w') (.awardCommitment caller r c amount) 0 := by
  simp only [awardCommitment, bind_eq_ok, bail_eq_ok, not_le, not_lt, i128_eq_ok, pure_eq_ok,
    Option.not_isSome_iff_eq_none] at h
  obtain ⟨_, -, -, hpos, -, -, -, hfirst, v, hv, _, havail, -, hfree, reserved, hreserved, _,
    ⟨-, rfl⟩, rfl⟩ := h
  obtain ⟨balance, kept, hheld, hkept, rfl⟩ := hH.available havail
  obtain rfl : kept = reserved := Option.some.inj (hkept.symm.trans (hH.reserved hreserved))
  rw [← funds_adjudicate hv]
  have hfirst' : v.commitmentAwardEntry c = none := by
    rw [← hfirst]
    exact congrFun (congrArg Funds.pledges (funds_adjudicate hv)) c
  exact .pledged hpos hfirst' hheld hkept hfree

theorem claimByCommitment_ok (hH : H.Reads) {caller : Address} {preimage : Hash}
    (h : claimByCommitment H self signers w caller preimage = .ok (w', out)) :
    Effect H.hashPreimage self (funds w) (funds w') (.claimByCommitment caller preimage) out := by
  simp only [claimByCommitment, bind_eq_ok, okOr_eq_ok, bail_eq_ok, not_not, i128_eq_ok, pure_eq_ok,
    Prod.mk.injEq] at h
  obtain ⟨-, -, _, -, pledge, hfound, -, hawarded, binding, -, -, -, -, -, -, -, reserved,
    hreserved, _, ⟨-, rfl⟩, balance, hbalance, _, ⟨-, rfl⟩, token, htoken, _, hpaid, rfl, rfl⟩ := h
  obtain ⟨ledger, hmoved, rfl⟩ := transferToken_ok hpaid
  have hstored := hH.token htoken
  have hheld := hH.balance hbalance
  have hkept := hH.reserved hreserved
  exact .redeemed hfound hawarded hstored hheld hkept hmoved

/-- An accepted transaction has its effect on the funds. -/
theorem step_effect (hH : H.Reads) {tx : Transaction Address Hash}
    (h : step H self w tx = .ok (w', out)) :
    Effect H.hashPreimage self (funds w) (funds w') tx.op out := by
  obtain ⟨signers, op⟩ := tx
  have outside : self ∉ signers.filter (· ≠ self) := by simp
  cases op with
  | initializeContract governance token =>
    simp only [step, initializeContract, bind_eq_ok, bail_eq_ok, pure_eq_ok, Prod.mk.injEq] at h
    obtain ⟨_, ⟨-, hfirst, rfl⟩, rfl, rfl⟩ := h
    exact .initialized (by simpa [funds] using hfirst)
  | setGovernance caller newGovernance =>
    simp only [step, setGovernance, bind_eq_ok, pure_eq_ok, Prod.mk.injEq] at h
    obtain ⟨_, ⟨_, -, rfl⟩, rfl, rfl⟩ := h
    exact .governed
  | fund src amount =>
    simp only [step, bind_eq_ok, pure_eq_ok, Prod.mk.injEq] at h
    obtain ⟨_, hf, rfl, rfl⟩ := h
    exact fund_ok hH outside hf
  | award caller researcher amount r =>
    simp only [step, bind_eq_ok, pure_eq_ok, Prod.mk.injEq] at h
    obtain ⟨_, ha, rfl, rfl⟩ := h
    exact award_ok hH ha
  | createPayout caller recipient amount deadline =>
    simp only [step, bind_eq_ok, pure_eq_ok, Prod.exists, Prod.mk.injEq] at h
    obtain ⟨_, id, hc, rfl, rfl⟩ := h
    exact createPayout_ok hH hc
  | claim recipient id => exact claim_ok hH h
  | sweepExpired id => exact sweepExpired_ok hH h
  | submitDisclosure submitter r c =>
    simp only [step, submitDisclosure, bind_eq_ok, pure_eq_ok, Prod.mk.injEq] at h
    obtain ⟨_, ⟨-, -, _, -, -, -, -, -, rfl⟩, rfl, rfl⟩ := h
    exact .idle trivial
  | registerPayoutAddress owner preimage payoutAddress =>
    simp only [step, registerPayoutAddress, bind_eq_ok, pure_eq_ok, Prod.mk.injEq] at h
    obtain ⟨_, ⟨-, -, _, -, -, -, -, -, rfl⟩, rfl, rfl⟩ := h
    exact .idle trivial
  | rotatePayoutAddress owner preimage newPayoutAddress =>
    simp only [step, rotatePayoutAddress, bind_eq_ok, pure_eq_ok, Prod.mk.injEq] at h
    obtain ⟨_, ⟨-, -, _, -, -, -, _, -, -, -, -, -, -, -, rfl⟩, rfl, rfl⟩ := h
    exact .idle trivial
  | awardCommitment caller r c amount =>
    simp only [step, bind_eq_ok, pure_eq_ok, Prod.mk.injEq] at h
    obtain ⟨_, ha, rfl, rfl⟩ := h
    exact awardCommitment_ok hH ha
  | claimByCommitment caller preimage => exact claimByCommitment_ok hH h
  | freezePayoutAddress caller address frozen =>
    simp only [step, freezePayoutAddress, bind_eq_ok, pure_eq_ok, Prod.mk.injEq] at h
    obtain ⟨_, ⟨_, -, rfl⟩, rfl, rfl⟩ := h
    exact .idle trivial
  | screen address status =>
    simp only [step, pure_eq_ok, Prod.mk.injEq] at h
    obtain ⟨rfl, rfl⟩ := h
    exact .idle trivial
  | advance seconds =>
    simp only [step, bind_eq_ok, pure_eq_ok, Prod.mk.injEq] at h
    obtain ⟨_, -, rfl, rfl⟩ := h
    exact .idle trivial
  | transfer token src dst amount =>
    simp only [step, bind_eq_ok, requireAuth_eq_ok, pure_eq_ok, Prod.mk.injEq] at h
    obtain ⟨-, hsigned, _, hpaid, rfl, rfl⟩ := h
    obtain ⟨ledger, hmoved, rfl⟩ := transferToken_ok hpaid
    exact .transferred (fun hs => outside (hs ▸ hsigned)) hmoved

end Effects

end RefractContracts.Bounty
