import RefractContracts.Bounty.Bindings
import RefractContracts.Bounty.Escrow

/-! Whether the owner of a binding can still get its award. While the binding has not
expired, a rotation and a claim pay the award to any unfrozen address that can be
credited. Once it has expired, every entry point refuses to renew it, so the award
stays where it is for ever. -/

namespace RefractContracts.Bounty

open Host

variable {Address Hash : Type}

/-- The accessors answer what is stored. -/
structure Helpers.Serves (H : Helpers Address Hash) : Prop where
  reads : H.Reads
  frozen : H.ReadsFrozen
  governance : ∀ {w a}, w.governanceEntry = some a → H.governanceAddr w = .ok a
  token : ∀ {w a}, w.tokenEntry = some a → H.tokenAddr w = .ok a
  balance : ∀ {w n}, w.balanceEntry = some n → H.rawBalance w = .ok n
  reserved : ∀ {w n}, w.reservedEntry = some n → H.rawReserved w = .ok n

theorem storedHelpers_serves (sha256 : Hash → Hash) :
    (storedHelpers sha256 : Helpers Address Hash).Serves where
  reads := storedHelpers_reads sha256
  frozen := storedHelpers_readsFrozen sha256
  governance h := (okOr_eq_ok _ _ _).mpr h
  token h := (okOr_eq_ok _ _ _).mpr h
  balance h := (okOr_eq_ok _ _ _).mpr h
  reserved h := (okOr_eq_ok _ _ _).mpr h

/-- A call of the owner about the commitment of the preimage. -/
def ByOwner (owner : Address) (preimage : Hash) (tx : Transaction Address Hash) : Prop :=
  tx.signers = [owner] ∧ ((∃ payee, tx.op = .registerPayoutAddress owner preimage payee ∨
    tx.op = .rotatePayoutAddress owner preimage payee) ∨ tx.op = .claimByCommitment owner preimage)

section Steps
variable [DecidableEq Address] [DecidableEq Hash]

/-- After some calls of the owner, a claim of the owner pays the amount to an unfrozen address. -/
def Recoverable (H : Helpers Address Hash) (self : Address) (w : World Address Hash)
    (owner : Address) (preimage : Hash) (amount : ℤ) : Prop :=
  ∃ calls, (∀ tx ∈ calls, ByOwner owner preimage tx) ∧ ∃ v' payee,
    step H self (run (step H self) w calls).1 ⟨[owner], .claimByCommitment owner preimage⟩ =
      .ok (v', amount) ∧
    isFrozen (run (step H self) w calls).1 payee = false ∧
    PaysTo self (run (step H self) w calls).1 v' payee amount

omit [DecidableEq Hash] in
/-- The address is not frozen, and the amount can be credited to it. -/
def Payable (self : Address) (w : World Address Hash) (a : Address) (amount : ℤ) : Prop :=
  isFrozen w a = false ∧
    ∀ token, w.tokenEntry = some token →
      Token.move (w.tokens token).balance self a amount a ≤ maxI128

variable {H : Helpers Address Hash} {self : Address} {w w' : World Address Hash} {preimage : Hash}
  {b : PayoutBindingRecord Address} {award : CommitmentAwardRecord Hash}
  {f f' : Funds Address Hash} {d d' : Register Address Hash} {op : Op Address Hash} {out : ℤ}
  {sha256 : Hash → Hash}

/-! ### What a claim relies on -/

/-- The funds of an initialized contract are stored, and awards are made of them. -/
structure Ready (f : Funds Address Hash) : Prop where
  stored : f.balance ≠ none → f.token ≠ none ∧ f.reserved ≠ none
  pledged : ∀ c pledge, f.pledges c = some pledge → f.balance ≠ none

theorem Ready.step (i : Ready f) (e : Effect sha256 self f f' op out) : Ready f' := by
  cases e with
  | initialized => exact ⟨fun _ => ⟨nofun, nofun⟩, fun _ _ _ => nofun⟩
  | funded outside pos stored held =>
    exact ⟨fun _ => i.stored (by simp [held]), fun _ _ _ => nofun⟩
  | awarded pos stored held =>
    exact ⟨fun _ => i.stored (by simp [held]), fun _ _ _ => nofun⟩
  | reserved pos stored held =>
    exact ⟨fun _ => ⟨by simp [stored], nofun⟩, i.pledged⟩
  | settled kind found pending held =>
    exact ⟨fun _ => ⟨(i.stored (by simp [held])).1, nofun⟩, fun _ _ _ => nofun⟩
  | pledged pos first held =>
    have hne : f.balance ≠ none := by simp [held]
    exact ⟨fun _ => ⟨(i.stored hne).1, nofun⟩, fun _ _ _ => hne⟩
  | redeemed found awarded stored held =>
    exact ⟨fun _ => ⟨(i.stored (by simp [held])).1, nofun⟩, fun _ _ _ => nofun⟩
  | governed => exact ⟨i.stored, i.pledged⟩
  | idle => exact i
  | transferred => exact ⟨i.stored, i.pledged⟩

/-- An accepted funding leaves a balance in the `i128` range. -/
theorem fund_le {signers : List Address} {src : Address} {amount : ℤ}
    (accepted : step H self w ⟨signers, .fund src amount⟩ = .ok (w', out)) :
    w'.balanceEntry.getD 0 ≤ maxI128 := by
  simp only [step, fund, bind_eq_ok, i128Checked_eq_ok, pure_eq_ok, Prod.mk.injEq] at accepted
  obtain ⟨_, ⟨_, -, _, -, _, -, _, -, _, ⟨hrange, rfl⟩, _, -, rfl⟩, rfl, rfl⟩ := accepted
  exact hrange.2

theorem balance_le_step (hH : H.Reads) (x : Event Address Hash)
    (accepted : step H self x.pre x.call = .ok (x.post, x.out))
    (hle : (funds x.pre).balance.getD 0 ≤ maxI128) : (funds x.post).balance.getD 0 ≤ maxI128 := by
  have e := step_effect hH accepted
  obtain ⟨pre, ⟨signers, op⟩, out, post⟩ := x
  simp only at e hle ⊢
  generalize hf : funds post = f at e ⊢
  cases e with
  | initialized => exact zero_le_maxI128
  | funded => exact hf ▸ fund_le accepted
  | awarded pos stored held =>
    rw [held] at hle
    exact (sub_le_self _ pos.le).trans hle
  | settled kind found pending held kept moved =>
    rw [held] at hle
    exact (sub_le_self _ moved.nonneg).trans hle
  | redeemed found awarded stored held kept moved =>
    rw [held] at hle
    exact (sub_le_self _ moved.nonneg).trans hle
  | _ => exact hle

/-- The owners of bindings sign for themselves, and the times are `u64`. -/
def Signable (self : Address) (d : Register Address Hash) : Prop :=
  ∀ c b, d.bindings c = some b → b.owner ≠ self ∧ b.expiresAt ≤ maxU64

theorem Signable.step {tx : Transaction Address Hash} (i : Signable self d)
    (t : Turn sha256 self d d' tx out) : Signable self d' := by
  cases t with
  | registered signed outside first => exact forall_update i rfl ⟨outside, min_le_right _ _⟩
  | rotated signed found fresh =>
    exact forall_update i rfl ⟨(i _ _ found).1, min_le_right _ _⟩
  | _ => exact i

/-- What a claim relies on. -/
structure Prepared (contract : Address) (w : World Address Hash) : Prop where
  escrowed : Escrowed contract (funds w)
  ready : Ready (funds w)
  balance_le : (funds w).balance.getD 0 ≤ maxI128
  signable : Signable contract (register w)

theorem prepared_run (hH : H.Reads) (now : ℕ) (tokens : Address → Token Address)
    (txs : List (Transaction Address Hash)) :
    Prepared self (run (step H self) (deployed Hash now tokens) txs).1 := by
  refine run_invariant (fun x accepted i => ?_) ?_ txs
  · have e := step_effect hH accepted
    exact ⟨i.escrowed.step e, i.ready.step e, balance_le_step hH x accepted i.balance_le,
      i.signable.step (step_turn accepted)⟩
  · exact ⟨(books_deployed H.hashPreimage now tokens).escrowed, ⟨(absurd rfl ·), nofun⟩,
      zero_le_maxI128, nofun⟩

/-! ### Before the expiry -/

omit [DecidableEq Address] [DecidableEq Hash] in
/-- The funds that an award is paid from. -/
theorem Prepared.award_funds (i : Prepared self w) {c : Hash}
    (found : w.commitmentAwardEntry c = some award) (awarded : award.status = .awarded) :
    ∃ governance token balance reserved, w.governanceEntry = some governance ∧
      w.tokenEntry = some token ∧ w.balanceEntry = some balance ∧
      w.reservedEntry = some reserved ∧ 0 ≤ award.amount ∧ award.amount ≤ reserved ∧
      reserved ≤ balance ∧ balance ≤ maxI128 ∧ balance ≤ (w.tokens token).balance self := by
  obtain ⟨balance, held⟩ := Option.ne_none_iff_exists'.mp (i.ready.pledged c award found)
  obtain ⟨htoken, hreserved⟩ := i.ready.stored (i.ready.pledged c award found)
  obtain ⟨token, stored⟩ := Option.ne_none_iff_exists'.mp htoken
  obtain ⟨reserved, kept⟩ := Option.ne_none_iff_exists'.mp hreserved
  have hopen : w.governanceEntry ≠ none := by simpa [funds] using i.escrowed.not_closed held
  obtain ⟨governance, hgov⟩ := Option.ne_none_iff_exists'.mp hopen
  have hsound := i.escrowed.sound
  have howed : (funds w).escrow.owed (.inr c) = award.amount := by
    simp [Funds.escrow, funds, found, pledgeOwed, awarded]
  have hnonneg := hsound.owed_nonneg (.inr c)
  have hsingle := hsound.total.single_le hsound.owed_nonneg (.inr c)
  have hcovered := hsound.covered
  have hle := i.balance_le
  have hbacked := i.escrowed.backed token stored
  rw [howed] at hnonneg hsingle
  simp only [Funds.escrow, held, kept, Option.getD_some] at hsingle hcovered hle hbacked
  exact ⟨governance, token, balance, reserved, hgov, stored, held, kept, hnonneg, hsingle, hcovered,
    hle, hbacked⟩

/-- The owner of a binding that has not expired rotates it to any unfrozen address. -/
theorem rotate_accepted (hH : H.Serves) {governance a : Address}
    (hgov : w.governanceEntry = some governance) (unfrozen : isFrozen w a = false)
    (bound : w.payoutBindingEntry (H.hashPreimage preimage) = some b)
    (outside : b.owner ≠ self) (fresh : w.now ≤ b.expiresAt)
    (found : w.commitmentAwardEntry (H.hashPreimage preimage) = some award)
    (awarded : award.status = .awarded) :
    step H self w ⟨[b.owner], .rotatePayoutAddress b.owner preimage a⟩ =
      .ok (setBinding w (H.hashPreimage preimage) ⟨b.owner, a, w.now, expiry w.now⟩, 0) := by
  have signed : b.owner ∈ [b.owner].filter (· ≠ self) := by simp [outside]
  have hopen : ¬ (w.commitmentAwardEntry (H.hashPreimage preimage)).any (·.status ≠ .awarded) := by
    simp [found, awarded]
  simp only [step, rotatePayoutAddress, bind_eq_ok, requireAuth_eq_ok, okOr_eq_ok, bail_eq_ok,
    pure_eq_ok, Prod.mk.injEq]
  exact ⟨_, ⟨(), signed, governance, hH.governance hgov, (), by simp [hH.frozen w a, unfrozen], b,
    bound, (), not_lt.mpr fresh, (), not_not.mpr rfl, (), hopen, rfl⟩, rfl, trivial⟩

/-- The owner of a binding that has not expired claims the award for its payout address. -/
theorem claim_accepted (hH : H.Serves) (i : Prepared self w)
    (bound : w.payoutBindingEntry (H.hashPreimage preimage) = some b)
    (outside : b.owner ≠ self) (fresh : w.now ≤ b.expiresAt)
    (found : w.commitmentAwardEntry (H.hashPreimage preimage) = some award)
    (awarded : award.status = .awarded) (payable : Payable self w b.payoutAddress award.amount) :
    ∃ v', step H self w ⟨[b.owner], .claimByCommitment b.owner preimage⟩ =
      .ok (v', award.amount) := by
  obtain ⟨governance, token, balance, reserved, hgov, stored, held, kept, hnonneg, hreserved,
    hcovered, hle, hbacked⟩ := i.award_funds found awarded
  have signed : b.owner ∈ [b.owner].filter (· ≠ self) := by simp [outside]
  have hmin := minI128_le_zero
  have paid : ∃ ledger, ((w.tokens token).transfer self b.payoutAddress award.amount :
      Call (Token Address)) = .ok ledger := by
    unfold Token.transfer
    rw [dif_pos ⟨hnonneg, by omega⟩, if_pos (payable.2 token stored)]
    exact ⟨_, rfl⟩
  obtain ⟨ledger, hledger⟩ := paid
  simp only [step, claimByCommitment, transferToken, bind_eq_ok, requireAuth_eq_ok, okOr_eq_ok,
    bail_eq_ok, i128_eq_ok, pure_eq_ok, Prod.mk.injEq]
  exact ⟨_, (), signed, governance, hH.governance hgov, award, found, (), not_not.mpr awarded, b,
    bound, (), not_lt.mpr fresh, (), fun h => h.1 rfl, (), by simp [hH.frozen w _, payable.1],
    reserved, hH.reserved kept, _, ⟨by omega, rfl⟩, balance, hH.balance held, _, ⟨by omega, rfl⟩,
    token, hH.token stored, _, ⟨ledger, hledger, rfl⟩, rfl, rfl⟩

/-- A rotation and a claim pay the award to an unfrozen address. -/
theorem recoverable_of_payable (hH : H.Serves) (i : Prepared self w)
    (bound : w.payoutBindingEntry (H.hashPreimage preimage) = some b) (fresh : w.now ≤ b.expiresAt)
    (found : w.commitmentAwardEntry (H.hashPreimage preimage) = some award)
    (awarded : award.status = .awarded) {a : Address} (payable : Payable self w a award.amount) :
    Recoverable H self w b.owner preimage award.amount := by
  obtain ⟨governance, -, -, -, hgov, -⟩ := i.award_funds found awarded
  obtain ⟨outside, htime⟩ := i.signable _ b bound
  have hrotate := rotate_accepted (a := a) hH hgov payable.1 bound outside fresh found awarded
  set v := setBinding w (H.hashPreimage preimage) ⟨b.owner, a, w.now, expiry w.now⟩
  have hrun :
      (run (step H self) w [⟨[b.owner], .rotatePayoutAddress b.owner preimage a⟩]).1 = v := by
    rw [run_cons, after_ok hrotate]
    rfl
  have hbound : v.payoutBindingEntry (H.hashPreimage preimage) =
      some ⟨b.owner, a, w.now, expiry w.now⟩ := Function.update_self _ _ _
  have hfresh : w.now ≤ expiry w.now := le_min (Nat.le_add_right _ _) (fresh.trans htime)
  have prepared : Prepared self v := ⟨i.escrowed, i.ready, i.balance_le,
    forall_update i.signable rfl ⟨outside, min_le_right _ _⟩⟩
  obtain ⟨v', accepted⟩ := claim_accepted hH prepared hbound outside hfresh found awarded payable
  refine ⟨[⟨[b.owner], .rotatePayoutAddress b.owner preimage a⟩],
    List.forall_mem_singleton.mpr ⟨rfl, .inl ⟨a, .inr rfl⟩⟩, v', a, ?_⟩
  rw [hrun]
  obtain ⟨_, binding, -, -, -, hbinding, -, unfrozen, paid⟩ :=
    claimByCommitment_pays hH.reads hH.frozen accepted
  obtain rfl := Option.some.inj (hbound.symm.trans hbinding)
  exact ⟨accepted, unfrozen, paid⟩

/-! ### After the expiry -/

/-- The binding of an award has expired. -/
structure Lapsed (c : Hash) (b : PayoutBindingRecord Address) (award : CommitmentAwardRecord Hash)
    (d : Register Address Hash) : Prop where
  bound : d.bindings c = some b
  late : b.expiresAt < d.now
  found : d.awards c = some award

theorem Lapsed.step {c : Hash} {tx : Transaction Address Hash} (i : Lapsed c b award d)
    (t : Turn sha256 self d d' tx out) :
    Lapsed c b award d' ∧ tx.op.redeems sha256 ≠ some c := by
  cases t with
  | registered signed outside first =>
    exact ⟨⟨(Function.update_of_ne (ne_of_absent first i.bound) _ _).trans i.bound, i.late,
      i.found⟩, nofun⟩
  | @rotated _ other payee binding signed found fresh =>
    have hne : c ≠ sha256 other := by
      rintro rfl
      obtain rfl := Option.some.inj (i.bound.symm.trans found)
      exact absurd i.late (not_lt.mpr fresh)
    exact ⟨⟨(Function.update_of_ne hne _ _).trans i.bound, i.late, i.found⟩, nofun⟩
  | pledged first =>
    exact ⟨⟨i.bound, i.late,
      (Function.update_of_ne (ne_of_absent first i.found) _ _).trans i.found⟩,
      nofun⟩
  | @redeemed _ caller other redeemed binding found awarded bound fresh =>
    have hne : c ≠ sha256 other := by
      rintro rfl
      obtain rfl := Option.some.inj (i.bound.symm.trans bound)
      exact absurd i.late (not_lt.mpr fresh)
    exact ⟨⟨i.bound, i.late, (Function.update_of_ne hne _ _).trans i.found⟩,
      fun h => hne (Option.some.inj h).symm⟩
  | froze => exact ⟨⟨i.bound, i.late, i.found⟩, nofun⟩
  | advanced => exact ⟨⟨i.bound, Nat.lt_add_right _ i.late, i.found⟩, nofun⟩
  | @idle signers op _ kind =>
    refine ⟨i, ?_⟩
    cases op <;> first | exact absurd trivial kind | exact nofun

/-- Once the binding of an award has expired, no calls by anyone pay the award. -/
theorem stranded {c : Hash} (i : Lapsed c b award (register w)) (hc : sha256 = H.hashPreimage)
    (txs : List (Transaction Address Hash)) :
    let r := run (step H self) w txs
    Lapsed c b award (register r.1) ∧ ∀ x ∈ r.2, x.call.op.redeems sha256 ≠ some c := by
  subst hc
  refine (run_trace (step H self) w txs).history (I := fun h v => Lapsed c b award (register v) ∧
    ∀ x ∈ h, x.call.op.redeems H.hashPreimage ≠ some c) (fun h x accepted k => ?_)
    ⟨i, List.forall_mem_nil _⟩
  obtain ⟨lapsed, hx⟩ := k.1.step (step_turn accepted)
  exact ⟨lapsed, forall_mem_snoc k.2 hx⟩

theorem Lapsed.not_recoverable {owner : Address} {amount : ℤ}
    (i : Lapsed (H.hashPreimage preimage) b award (register w)) :
    ¬ Recoverable H self w owner preimage amount := by
  rintro ⟨calls, -, v', payee, accepted, -⟩
  exact ((stranded i rfl calls).1.step (step_turn accepted)).2 rfl

/-! ### The calls of the owner -/

/-- While the award is open, the owner's calls leave it, the balances and the freeze flags. -/
structure Standing (w : World Address Hash) (c : Hash) (award : CommitmentAwardRecord Hash)
    (f : Funds Address Hash) (d : Register Address Hash) : Prop where
  token : f.token = w.tokenEntry
  frozen : d.frozen = w.frozenAddressEntry
  still : ∀ a, d.awards c = some a → a.status = .awarded → a = award ∧ f.tokens = w.tokens

theorem Standing.step {owner : Address} {tx : Transaction Address Hash}
    (i : Standing w (sha256 preimage) award f d) (hby : ByOwner owner preimage tx)
    (e : Effect sha256 self f f' tx.op out) (t : Turn sha256 self d d' tx out) :
    Standing w (sha256 preimage) award f' d' := by
  obtain ⟨signers, op⟩ := tx
  simp only [ByOwner] at hby
  obtain ⟨-, ⟨payee, rfl | rfl⟩ | rfl⟩ := hby
  · cases e with
    | idle =>
      cases t with
      | registered => exact ⟨i.token, i.frozen, i.still⟩
      | idle kind => exact absurd trivial kind
    | settled kind => rcases kind with ⟨h, -⟩ | ⟨h, -⟩ <;> cases h
  · cases e with
    | idle =>
      cases t with
      | rotated => exact ⟨i.token, i.frozen, i.still⟩
      | idle kind => exact absurd trivial kind
    | settled kind => rcases kind with ⟨h, -⟩ | ⟨h, -⟩ <;> cases h
  · have htoken : f'.token = f.token := by
      cases e with
      | redeemed => rfl
      | idle kind => cases kind
      | settled kind => rcases kind with ⟨h, -⟩ | ⟨h, -⟩ <;> cases h
    cases t with
    | redeemed =>
      refine ⟨htoken.trans i.token, i.frozen, fun a ha hawarded => ?_⟩
      rcases update_eq_some ha with ⟨-, rfl⟩ | ⟨hne, -⟩
      · cases hawarded
      · exact absurd rfl hne
    | idle kind => exact absurd trivial kind

/-- What the owner recovers, some address can be paid. -/
theorem Recoverable.payable (hH : H.Serves) {owner : Address}
    (found : w.commitmentAwardEntry (H.hashPreimage preimage) = some award)
    (q : Recoverable H self w owner preimage award.amount) :
    ∃ a, Payable self w a award.amount := by
  obtain ⟨calls, hcalls, v', payee, accepted, unfrozen, token, ledger, stored, moved, -⟩ := q
  have i : Standing w (H.hashPreimage preimage) award
      (funds (run (step H self) w calls).1) (register (run (step H self) w calls).1) :=
    (run_trace (step H self) w calls).invariant_of
      (I := fun v => Standing w (H.hashPreimage preimage) award (funds v) (register v))
      (P := fun x => ByOwner owner preimage x.call)
      (fun x hby hx i => i.step hby (step_effect hH.reads hx) (step_turn hx))
      (fun x hx => hcalls _ (mem_run_call hx))
      ⟨rfl, rfl, fun a ha _ => ⟨Option.some.inj (ha.symm.trans found), rfl⟩⟩
  set v := (run (step H self) w calls).1
  obtain ⟨current, -, hcurrent, hawarded, -⟩ := claimByCommitment_pays hH.reads hH.frozen accepted
  obtain ⟨-, htokens⟩ := i.still current hcurrent hawarded
  have hfrozen : isFrozen w payee = isFrozen v payee := by
    unfold isFrozen
    rw [← i.frozen]
    rfl
  have hfits := moved.fits
  rw [moved.balance, show v.tokens = w.tokens from htokens] at hfits
  refine ⟨payee, hfrozen.trans unfrozen, fun t ht => ?_⟩
  obtain rfl : t = token := Option.some.inj ((ht.symm.trans i.token.symm).trans stored)
  exact hfits

/-- In every state of every run, the owner of the binding of an open award can get it paid
exactly when the binding has not expired and some unfrozen address can be credited. -/
theorem recoverable_iff (hH : H.Serves) (now : ℕ) (tokens : Address → Token Address)
    (txs : List (Transaction Address Hash)) (preimage : Hash) :
    let w := (run (step H self) (deployed Hash now tokens) txs).1
    ∀ award b, w.commitmentAwardEntry (H.hashPreimage preimage) = some award →
      award.status = .awarded → w.payoutBindingEntry (H.hashPreimage preimage) = some b →
        (Recoverable H self w b.owner preimage award.amount ↔
          w.now ≤ b.expiresAt ∧ ∃ a, Payable self w a award.amount) := by
  intro w award b found awarded bound
  constructor
  · intro q
    refine ⟨not_lt.mp fun late => ?_, q.payable hH found⟩
    exact Lapsed.not_recoverable ⟨bound, late, found⟩ q
  · rintro ⟨fresh, a, payable⟩
    exact recoverable_of_payable hH (prepared_run hH.reads now tokens txs) bound fresh found awarded
      payable

/-- An award of 40 is bound by the owner 3 to the address 8. -/
def boundAward : List (Transaction ℕ ℕ) :=
  [⟨[1], .initializeContract 1 5⟩, ⟨[7], .fund 7 100⟩, ⟨[3], .registerPayoutAddress 3 6 8⟩,
    ⟨[1], .awardCommitment 1 4 6 40⟩]

theorem recoverable_iff_boundAward :
    Recoverable (storedHelpers id) 9 (run (step (storedHelpers id) 9)
      (deployed ℕ 0 fun _ => Token.empty.mint 7 100) boundAward).1 3 6 40 := by
  set w := (run (step (storedHelpers id) 9) (deployed ℕ 0 fun _ => Token.empty.mint 7 100)
    boundAward).1
  have hbound : (w.payoutBindingEntry 6).map (fun b => (b.owner, b.expiresAt)) =
      some (3, 2592000) := by decide +kernel
  have hawarded : (w.commitmentAwardEntry 6).map (fun a => (a.amount, a.status)) =
      some (40, .awarded) := by decide +kernel
  have htoken : w.tokenEntry = some 5 := by decide +kernel
  have hfits : Token.move (w.tokens 5).balance 9 8 40 8 ≤ maxI128 := by decide +kernel
  obtain ⟨b, bound, hb⟩ := Option.map_eq_some_iff.mp hbound
  obtain ⟨award, found, ha⟩ := Option.map_eq_some_iff.mp hawarded
  obtain ⟨howner, hexpires⟩ := Prod.mk.inj hb
  obtain ⟨hamount, hstatus⟩ := Prod.mk.inj ha
  have hfresh : w.now ≤ b.expiresAt := by
    rw [hexpires]
    decide +kernel
  have h := (recoverable_iff (storedHelpers_serves id) 0 _ boundAward 6 award b found hstatus
    bound).mpr ⟨hfresh, 8, by decide +kernel, fun t ht => ?_⟩
  · rwa [howner, hamount] at h
  · rw [hamount]
    obtain rfl : 5 = t := Option.some.inj (htoken.symm.trans ht)
    exact hfits

/-- The owner waits for 30 days and a second. -/
def lapsed : List (Transaction ℕ ℕ) := boundAward ++ [⟨[], .advance 2592001⟩]

/-- The award is open, its owner holds the key and the preimage, and nothing recovers it. -/
theorem lapsed_not_recoverable :
    let w := (run (step (storedHelpers id) 9) (deployed ℕ 0 fun _ => Token.empty.mint 7 100)
      lapsed).1
    (w.commitmentAwardEntry 6).map (fun a => (a.amount, a.status)) = some (40, .awarded) ∧
      (w.payoutBindingEntry 6).map (·.owner) = some 3 ∧ isFrozen w 8 = false ∧
      ¬ Recoverable (storedHelpers id) 9 w 3 6 40 := by
  intro w
  have hlate : (w.payoutBindingEntry 6).map (·.expiresAt) = some 2592000 ∧ w.now = 2592001 := by
    decide +kernel
  have hawarded : (w.commitmentAwardEntry 6).map (fun a => (a.amount, a.status)) =
      some (40, .awarded) := by decide +kernel
  refine ⟨hawarded, by decide +kernel, by decide +kernel, ?_⟩
  obtain ⟨b, bound, hexpires⟩ := Option.map_eq_some_iff.mp hlate.1
  obtain ⟨award, found, -⟩ := Option.map_eq_some_iff.mp hawarded
  have late : b.expiresAt < w.now := by
    rw [hexpires, hlate.2]
    decide
  exact Lapsed.not_recoverable ⟨bound, late, found⟩

end Steps

end RefractContracts.Bounty
