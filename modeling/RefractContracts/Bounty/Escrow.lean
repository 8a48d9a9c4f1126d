import RefractContracts.Bounty.Effects
import RefractContracts.Host.Escrow
import RefractContracts.Host.History

/-! The accounts of the escrow. Pending payouts and open commitment awards are the
obligations of one pool: every entry point makes a move of the pool or none, so the
reserve is their total and the recorded balance, which the token balance covers,
covers the reserve. An obligation is settled once. -/

namespace RefractContracts.Bounty

open Host

variable {Address Hash : Type}

def payoutOwed : Option (PayoutRecord Address) → ℤ
  | some record => if record.status = .pending then record.amount else 0
  | none => 0

def pledgeOwed : Option (CommitmentAwardRecord Hash) → ℤ
  | some pledge => if pledge.status = .awarded then pledge.amount else 0
  | none => 0

/-- The pool that the funds are for: an obligation for each pending payout and for
each open commitment award. -/
def Funds.escrow (f : Funds Address Hash) : Escrow (ℕ ⊕ Hash) where
  balance := f.balance.getD 0
  reserved := f.reserved.getD 0
  owed := Sum.elim (payoutOwed ∘ f.payouts) (pledgeOwed ∘ f.pledges)

structure Escrowed (contract : Address) (f : Funds Address Hash) : Prop where
  sound : f.escrow.Sound
  backed : ∀ token, f.token = some token →
    f.balance.getD 0 ≤ (f.tokens token).balance contract
  token : ∀ id record, f.payouts id = some record → f.token = some record.token
  unused : ∀ id, f.nextPayoutId ≤ id → f.payouts id = none
  closed : f.opened = false → f.token = none ∧ f.balance = none ∧ f.reserved = none

/-- What an operation adds to the pool. -/
def Op.funded : Op Address Hash → ℤ
  | .fund _ amount => amount
  | _ => 0

/-- What an operation with this answer pays out of the pool. -/
def Op.paid (op : Op Address Hash) (out : ℤ) : ℤ :=
  match op with
  | .award _ _ amount _ => amount
  | .claim .. | .sweepExpired .. | .claimByCommitment .. => out
  | _ => 0

/-- The payout or the commitment award that an operation settles. -/
def Op.settles (sha256 : Hash → Hash) : Op Address Hash → Option (ℕ ⊕ Hash)
  | .claim _ id => some (.inl id)
  | .sweepExpired id => some (.inl id)
  | .claimByCommitment _ preimage => some (.inr (sha256 preimage))
  | _ => none

def isSettled (f : Funds Address Hash) : ℕ ⊕ Hash → Prop
  | .inl id => ∃ record, f.payouts id = some record ∧ record.status ≠ .pending
  | .inr c => ∃ pledge, f.pledges c = some pledge ∧ pledge.status ≠ .awarded

theorem Op.Idle.plain {op : Op Address Hash} (h : op.Idle) (sha256 : Hash → Hash) :
    op.funded = 0 ∧ op.paid 0 = 0 ∧ op.settles sha256 = none := by
  cases op <;> first | exact ⟨rfl, rfl, rfl⟩ | cases h

section Steps
variable [DecidableEq Address] [DecidableEq Hash] {sha256 : Hash → Hash} {self : Address}
  {f f' : Funds Address Hash} {op : Op Address Hash} {out : ℤ}

omit [DecidableEq Address] in
theorem owed_payout (f : Funds Address Hash) (id : ℕ) (record : PayoutRecord Address) :
    Sum.elim (payoutOwed ∘ Function.update f.payouts id (some record)) (pledgeOwed ∘ f.pledges) =
      Function.update f.escrow.owed (.inl id) (payoutOwed (some record)) := by
  rw [Function.comp_update, ← Sum.update_elim_inl]
  rfl

omit [DecidableEq Address] in
theorem owed_pledge (f : Funds Address Hash) (c : Hash) (pledge : CommitmentAwardRecord Hash) :
    Sum.elim (payoutOwed ∘ f.payouts) (pledgeOwed ∘ Function.update f.pledges c (some pledge)) =
      Function.update f.escrow.owed (.inr c) (pledgeOwed (some pledge)) := by
  rw [Function.comp_update, ← Sum.update_elim_inr]
  rfl

/-- Every effect on the funds is a move of the pool. -/
theorem escrow_move (e : Effect sha256 self f f' op out) (h : Escrowed self f) :
    f.escrow.Move f'.escrow op.funded (op.paid out) := by
  cases e with
  | @initialized governance token closed =>
    obtain ⟨-, hbalance, hreserved⟩ := h.closed closed
    exact Escrow.Move.stay.congr (by simp [Funds.escrow, hbalance, hreserved])
  | @funded src amount token balance ledger outside pos stored held moved =>
    exact (Escrow.Move.fund pos.le).congr (by simp [Funds.escrow, Escrow.fund, held, Funds.move])
  | @awarded caller researcher amount r token balance reserved ledger pos stored held kept free =>
    have hfree : amount ≤ f.escrow.balance - f.escrow.reserved := by
      simpa [Funds.escrow, held, kept] using free
    exact (Escrow.Move.pay hfree).congr (by simp [Funds.escrow, Escrow.pay, held, Funds.move])
  | @reserved caller recipient amount deadline token balance reserved pos stored held kept free =>
    have hfresh : f.escrow.owed (.inl f.nextPayoutId) = 0 := by
      simp [Funds.escrow, payoutOwed, h.unused f.nextPayoutId le_rfl]
    have hfree : amount ≤ f.escrow.balance - f.escrow.reserved := by
      simpa [Funds.escrow, held, kept] using free
    refine (Escrow.Move.reserve hfresh pos.le hfree).congr (Escrow.ext rfl ?_ ?_)
    · exact congrArg (·.getD 0 + amount) kept.symm
    · exact owed_payout f _ ⟨recipient, token, amount, deadline, .pending⟩
  | @settled op id record status dst balance reserved ledger kind found pending held kept moved =>
    have howed : f.escrow.owed (.inl id) = record.amount := by
      simp [Funds.escrow, found, payoutOwed, pending]
    have hnow : payoutOwed (some { record with status }) = 0 := by
      rcases kind with ⟨-, rfl, -⟩ | ⟨-, rfl⟩ <;> rfl
    have hpaid : op.funded = 0 ∧ op.paid record.amount = record.amount := by
      rcases kind with ⟨rfl, -, -⟩ | ⟨rfl, -⟩ <;> exact ⟨rfl, rfl⟩
    rw [hpaid.1, hpaid.2]
    refine (Escrow.Move.settle howed).congr (Escrow.ext ?_ ?_ ?_)
    · exact congrArg₂ (·.getD 0 - ·) held.symm howed.symm
    · exact congrArg₂ (·.getD 0 - ·) kept.symm howed.symm
    · exact (owed_payout f id { record with status }).trans (by rw [hnow]; rfl)
  | @pledged caller r c amount time balance reserved pos first held kept free =>
    have hfresh : f.escrow.owed (.inr c) = 0 := by simp [Funds.escrow, pledgeOwed, first]
    have hfree : amount ≤ f.escrow.balance - f.escrow.reserved := by
      simpa [Funds.escrow, held, kept] using free
    refine (Escrow.Move.reserve hfresh pos.le hfree).congr (Escrow.ext rfl ?_ ?_)
    · exact congrArg (·.getD 0 + amount) kept.symm
    · exact owed_pledge f c ⟨r, c, amount, time, .awarded⟩
  | @redeemed caller preimage pledge payee token balance reserved ledger found awarded stored held
      kept moved =>
    have howed : f.escrow.owed (.inr (sha256 preimage)) = pledge.amount := by
      simp [Funds.escrow, found, pledgeOwed, awarded]
    refine (Escrow.Move.settle howed).congr (Escrow.ext ?_ ?_ ?_)
    · exact congrArg₂ (·.getD 0 - ·) held.symm howed.symm
    · exact congrArg₂ (·.getD 0 - ·) kept.symm howed.symm
    · exact owed_pledge f (sha256 preimage) { pledge with status := .claimed }
  | governed => exact .stay
  | @idle op kind =>
    obtain ⟨hfunded, hpaid, -⟩ := kind.plain sha256
    rw [hfunded, hpaid]
    exact .stay
  | transferred => exact .stay

omit [DecidableEq Hash] in
/-- The balance of the configured token after a write of it. -/
theorem backed_update {token : Address} {ledger : Token Address} {n : ℤ}
    (stored : f.token = some token) (hn : n ≤ ledger.balance self) :
    ∀ t, f.token = some t → n ≤ (Function.update f.tokens token ledger t).balance self := by
  intro t ht
  obtain rfl : token = t := Option.some.inj (stored.symm.trans ht)
  rwa [Function.update_self]

omit [DecidableEq Address] [DecidableEq Hash] in
theorem Escrowed.not_closed {balance : ℤ} (h : Escrowed self f) (held : f.balance = some balance) :
    ¬ f.opened = false := by
  intro closed
  rw [(h.closed closed).2.1] at held
  cases held

omit [DecidableEq Hash] in
/-- A payment out of the balance keeps the rest of it backed. -/
theorem Escrowed.backed_pay {token dst : Address} {ledger : Token Address} {balance amount : ℤ}
    (h : Escrowed self f) (stored : f.token = some token) (held : f.balance = some balance)
    (moved : (f.tokens token).Moved ledger self dst amount) :
    ∀ t, f.token = some t →
      balance - amount ≤ (Function.update f.tokens token ledger t).balance self := by
  have hbacked := h.backed token stored
  have hrest := moved.le_src_balance
  rw [held, Option.getD_some] at hbacked
  exact backed_update stored (by omega)

theorem Escrowed.step (h : Escrowed self f) (e : Effect sha256 self f f' op out) :
    Escrowed self f' := by
  have hsound := (escrow_move e h).sound h.sound
  cases e with
  | @initialized governance token closed =>
    have hnone : ∀ id, f.payouts id = none := by
      intro id
      by_contra hsome
      obtain ⟨record, hrecord⟩ := Option.ne_none_iff_exists'.mp hsome
      have htoken := h.token id record hrecord
      rw [(h.closed closed).1] at htoken
      cases htoken
    refine ⟨hsound, fun t _ => (f.tokens t).nonneg self, fun id record hrecord => ?_,
      fun id _ => hnone id, nofun⟩
    cases (hnone id).symm.trans hrecord
  | @funded src amount token balance ledger outside pos stored held moved =>
    have hbacked := h.backed token stored
    have hpaid := moved.dst_balance outside
    rw [held, Option.getD_some] at hbacked
    refine ⟨hsound, backed_update stored ?_, h.token, h.unused,
      fun hopen => absurd hopen (h.not_closed held)⟩
    rw [hpaid]
    exact Int.add_le_add_right hbacked amount
  | @awarded caller researcher amount r token balance reserved ledger pos stored held kept free
      moved =>
    exact ⟨hsound, h.backed_pay stored held moved, h.token, h.unused,
      fun hopen => absurd hopen (h.not_closed held)⟩
  | @reserved caller recipient amount deadline token balance reserved pos stored held =>
    refine ⟨hsound, h.backed, forall_update h.token rfl stored, fun id hid => ?_,
      fun hopen => absurd hopen (h.not_closed held)⟩
    have hlt : f.nextPayoutId + 1 ≤ id := hid
    exact (Function.update_of_ne (by omega) _ _).trans (h.unused id (by omega))
  | @settled op id record status dst balance reserved ledger kind found pending held kept moved =>
    exact ⟨hsound, h.backed_pay (h.token id record found) held moved,
      forall_update h.token rfl (h.token id record found),
      fun j hj => absent_update (h.unused j hj) found,
      fun hopen => absurd hopen (h.not_closed held)⟩
  | @pledged caller r c amount time balance reserved pos first held =>
    exact ⟨hsound, h.backed, h.token, h.unused, fun hopen => absurd hopen (h.not_closed held)⟩
  | @redeemed caller preimage pledge payee token balance reserved ledger found awarded stored held
      kept moved =>
    exact ⟨hsound, h.backed_pay stored held moved, h.token, h.unused,
      fun hopen => absurd hopen (h.not_closed held)⟩
  | governed => exact ⟨hsound, h.backed, h.token, h.unused, nofun⟩
  | idle => exact h
  | @transferred token src dst amount ledger outside moved =>
    refine ⟨hsound, fun t ht => (h.backed t ht).trans ?_, h.token, h.unused, h.closed⟩
    simp only [Funds.move]
    by_cases hte : t = token
    · subst hte
      rw [Function.update_self]
      exact moved.balance_le outside.symm
    · rw [Function.update_of_ne hte]

/-- What is settled stays settled. -/
theorem isSettled_step (h : Escrowed self f) (e : Effect sha256 self f f' op out) {k : ℕ ⊕ Hash}
    (hk : isSettled f k) : isSettled f' k := by
  cases e with
  | @reserved caller recipient amount deadline token balance reserved pos stored held =>
    cases k with
    | inl id =>
      obtain ⟨record, hrecord, hstatus⟩ := hk
      have hne := ne_of_absent (h.unused f.nextPayoutId le_rfl) hrecord
      exact ⟨record, (Function.update_of_ne hne _ _).trans hrecord, hstatus⟩
    | inr c => exact hk
  | @settled op id record status dst balance reserved ledger kind found pending =>
    cases k with
    | inl j =>
      obtain ⟨old, hold, hstatus⟩ := hk
      rcases stored_update hold found { record with status } with ⟨-, rfl, -⟩ | ⟨-, hkept⟩
      · exact absurd pending hstatus
      · exact ⟨old, hkept, hstatus⟩
    | inr c => exact hk
  | @pledged caller r c amount time balance reserved pos first =>
    cases k with
    | inl id => exact hk
    | inr d =>
      obtain ⟨pledge, hpledge, hstatus⟩ := hk
      have hne := ne_of_absent first hpledge
      exact ⟨pledge, (Function.update_of_ne hne _ _).trans hpledge, hstatus⟩
  | @redeemed caller preimage pledge payee token balance reserved ledger found awarded =>
    cases k with
    | inl id => exact hk
    | inr d =>
      obtain ⟨old, hold, hstatus⟩ := hk
      rcases stored_update hold found { pledge with status := .claimed } with
        ⟨-, rfl, -⟩ | ⟨-, hkept⟩
      · exact absurd awarded hstatus
      · exact ⟨old, hkept, hstatus⟩
  | _ => cases k <;> exact hk

/-- An operation settles what is open before it and settled after it. -/
theorem settles_step (e : Effect sha256 self f f' op out) {k : ℕ ⊕ Hash}
    (hk : op.settles sha256 = some k) : ¬ isSettled f k ∧ isSettled f' k := by
  cases e with
  | @settled op id record status dst balance reserved ledger kind found pending =>
    have hid : k = .inl id := by
      rcases kind with ⟨rfl, -⟩ | ⟨rfl, -⟩ <;> exact (Option.some.inj hk).symm
    subst hid
    refine ⟨?_, { record with status }, Function.update_self _ _ _, ?_⟩
    · rintro ⟨old, hold, hstatus⟩
      obtain rfl : record = old := Option.some.inj (found.symm.trans hold)
      exact hstatus pending
    · rcases kind with ⟨-, rfl, -⟩ | ⟨-, rfl⟩ <;> nofun
  | @redeemed caller preimage pledge payee token balance reserved ledger found awarded =>
    obtain rfl : .inr (sha256 preimage) = k := Option.some.inj hk
    refine ⟨?_, { pledge with status := .claimed }, Function.update_self _ _ _, nofun⟩
    rintro ⟨old, hold, hstatus⟩
    obtain rfl : pledge = old := Option.some.inj (found.symm.trans hold)
    exact hstatus awarded
  | @idle op kind =>
    rw [(kind.plain sha256).2.2] at hk
    cases hk
  | _ => cases hk

/-- The token moves what an operation funds or pays. -/
theorem moved_step (h : Escrowed self f) (e : Effect sha256 self f f' op out) :
    (op.funded ≠ 0 → ∃ token src, f.token = some token ∧
      (f.tokens token).Moved (f'.tokens token) src self op.funded) ∧
    (op.paid out ≠ 0 → ∃ token dst, f.token = some token ∧
      (f.tokens token).Moved (f'.tokens token) self dst (op.paid out)) := by
  cases e with
  | @funded src amount token balance ledger outside pos stored held moved =>
    refine ⟨fun _ => ⟨token, src, stored, ?_⟩, fun hne => absurd rfl hne⟩
    simpa [Funds.move, Op.funded] using moved
  | @awarded caller researcher amount r token balance reserved ledger pos stored held kept free
      moved =>
    refine ⟨fun hne => absurd rfl hne, fun _ => ⟨token, researcher, stored, ?_⟩⟩
    simpa [Funds.move, Op.paid] using moved
  | @settled op id record status dst balance reserved ledger kind found pending held kept moved =>
    have hpaid : op.funded = 0 ∧ op.paid record.amount = record.amount := by
      rcases kind with ⟨rfl, -, -⟩ | ⟨rfl, -⟩ <;> exact ⟨rfl, rfl⟩
    refine ⟨fun hne => absurd hpaid.1 hne,
      fun _ => ⟨record.token, dst, h.token id record found, ?_⟩⟩
    rw [hpaid.2]
    simpa [Funds.move] using moved
  | @redeemed caller preimage pledge payee token balance reserved ledger found awarded stored held
      kept moved =>
    refine ⟨fun hne => absurd rfl hne, fun _ => ⟨token, payee, stored, ?_⟩⟩
    simpa [Funds.move, Op.paid] using moved
  | @idle op kind =>
    obtain ⟨hfunded, hpaid, -⟩ := kind.plain sha256
    exact ⟨fun hne => absurd hfunded hne, fun hne => absurd hpaid hne⟩
  | _ => exact ⟨fun hne => absurd rfl hne, fun hne => absurd rfl hne⟩

end Steps

/-! ### Runs -/

abbrev BountyReceipt (Address Hash : Type) :=
  Receipt (World Address Hash) (Transaction Address Hash) ℤ

/-- The accounts after a history of accepted transactions. -/
structure Accounted [DecidableEq Address] (sha256 : Hash → Hash) (contract : Address)
    (h : List (BountyReceipt Address Hash)) (w : World Address Hash) : Prop where
  reserved : ∃ pending awarded, HasTotal (fun id => payoutOwed (w.payoutEntry id)) pending ∧
    HasTotal (fun c => pledgeOwed (w.commitmentAwardEntry c)) awarded ∧
    w.reservedEntry.getD 0 = pending + awarded
  nonneg : 0 ≤ w.reservedEntry.getD 0
  covered : w.reservedEntry.getD 0 ≤ w.balanceEntry.getD 0
  balance : w.balanceEntry.getD 0 =
    (h.map fun x => x.call.op.funded).sum - (h.map fun x => x.call.op.paid x.out).sum
  funded : ∀ x ∈ h, x.call.op.funded ≠ 0 → ∃ token src, x.pre.tokenEntry = some token ∧
    (x.pre.tokens token).Moved (x.post.tokens token) src contract x.call.op.funded
  paid : ∀ x ∈ h, x.call.op.paid x.out ≠ 0 → ∃ token dst, x.pre.tokenEntry = some token ∧
    (x.pre.tokens token).Moved (x.post.tokens token) contract dst (x.call.op.paid x.out)
  backed : ∀ token, w.tokenEntry = some token →
    w.balanceEntry.getD 0 ≤ (w.tokens token).balance contract
  once : (h.filterMap fun x => x.call.op.settles sha256).Nodup

section Runs
variable [DecidableEq Address] [DecidableEq Hash] {H : Helpers Address Hash} {self : Address}

/-- What a run keeps: sound funds, the balance of its flows, and settled obligations. -/
structure Books (sha256 : Hash → Hash) (contract : Address)
    (h : List (BountyReceipt Address Hash)) (w : World Address Hash) : Prop where
  escrowed : Escrowed contract (funds w)
  balance : (funds w).escrow.balance =
    (h.map fun x => x.call.op.funded).sum - (h.map fun x => x.call.op.paid x.out).sum
  once : (h.filterMap fun x => x.call.op.settles sha256).Nodup
  settled : ∀ k ∈ h.filterMap fun x => x.call.op.settles sha256, isSettled (funds w) k

omit [DecidableEq Address] [DecidableEq Hash] in
theorem books_deployed (sha256 : Hash → Hash) (now : ℕ) (tokens : Address → Token Address) :
    Books sha256 self [] (deployed Hash now tokens) where
  escrowed := by
    have hempty : (funds (deployed Hash now tokens)).escrow = .empty :=
      Escrow.ext rfl rfl (funext fun k => by cases k <;> rfl)
    refine ⟨hempty ▸ .empty, nofun, nofun, fun _ _ => rfl, fun _ => ⟨rfl, rfl, rfl⟩⟩
  balance := rfl
  once := List.nodup_nil
  settled := nofun

theorem books_step {h : List (BountyReceipt Address Hash)} {x : BountyReceipt Address Hash}
    (hH : H.Reads) (accepted : step H self x.pre x.call = .ok (x.post, x.out))
    (hb : Books H.hashPreimage self h x.pre) : Books H.hashPreimage self (h ++ [x]) x.post := by
  have e := step_effect hH accepted
  have honce : Once (fun y : BountyReceipt Address Hash => y.call.op.settles H.hashPreimage)
      (isSettled (funds x.post)) (h ++ [x]) :=
    Once.snoc ⟨hb.once, hb.settled⟩ (fun _ hk => isSettled_step hb.escrowed e hk)
      fun _ hk => settles_step e hk
  refine ⟨hb.escrowed.step e, ?_, honce.nodup, honce.settled⟩
  rw [(escrow_move e hb.escrowed).balance_eq, hb.balance]
  simp only [List.map_append, List.sum_append, List.map_cons, List.map_nil, List.sum_singleton]
  omega

/-- In every run the reserve is what is owed, the balance covers it and is what was
funded and not paid, the token balance covers that, and nothing is settled twice. -/
theorem escrow_accounted (hH : H.Reads) (now : ℕ) (tokens : Address → Token Address)
    (txs : List (Transaction Address Hash)) :
    let r := run (step H self) (deployed Hash now tokens) txs
    Accounted H.hashPreimage self r.2 r.1 := by
  intro r
  have hbooks : Books H.hashPreimage self r.2 r.1 :=
    (run_trace (step H self) _ txs).history (fun _ _ accepted => books_step hH accepted)
      (books_deployed _ now tokens)
  have hreceipt : ∀ x ∈ r.2, Escrowed self (funds x.pre) ∧
      step H self x.pre x.call = .ok (x.post, x.out) := fun x hx =>
    run_receipt (I := fun w => Escrowed self (funds w))
      (fun x accepted hx => hx.step (step_effect hH accepted))
      (books_deployed H.hashPreimage now tokens).escrowed hx
  have hsound := hbooks.escrowed.sound
  exact {
    reserved := hsound.total.of_sum
    nonneg := hsound.reserved_nonneg
    covered := hsound.covered
    balance := hbooks.balance
    funded := fun x hx =>
      (moved_step (hreceipt x hx).1 (step_effect hH (hreceipt x hx).2)).1
    paid := fun x hx =>
      (moved_step (hreceipt x hx).1 (step_effect hH (hreceipt x hx).2)).2
    backed := hbooks.escrowed.backed
    once := hbooks.once }

/-- 100 are funded, a payout of 30 is claimed twice, and an award of 40 is open. -/
def claimedTwice : List (Transaction ℕ ℕ) :=
  [⟨[1], .initializeContract 1 5⟩, ⟨[7], .fund 7 100⟩, ⟨[1], .screen 2 (some .allowed)⟩,
    ⟨[1], .createPayout 1 2 30 10⟩, ⟨[2], .claim 2 0⟩, ⟨[2], .claim 2 0⟩,
    ⟨[1], .awardCommitment 1 4 6 40⟩]

theorem escrow_accounted_claimedTwice :
    let r := run (step (storedHelpers id) 9) (deployed ℕ 0 fun _ => Token.empty.mint 7 100)
      claimedTwice
    r.1.balanceEntry = some 70 ∧ r.1.reservedEntry = some 40 ∧ r.2.length = 6 ∧
      Accounted id 9 r.2 r.1 :=
  ⟨by decide, by decide, by decide, escrow_accounted (storedHelpers_reads id) 0 _ claimedTwice⟩

end Runs

end RefractContracts.Bounty
