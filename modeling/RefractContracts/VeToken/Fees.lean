import RefractContracts.Host.Accumulator
import RefractContracts.VeToken.Contract

/-! Fee solvency of the vote escrow. The fee accounts form an accumulator whose
weights are the recorded powers. Live power never exceeds the recorded power, so
settling at live power keeps the accumulator backed by the fees received and not
yet paid; the token balance covers these fees on top of every lock. -/

namespace RefractContracts.VeToken

open Host

variable {Address : Type} {w w' : World Address} {a self : Address} {signers : List Address}

/-! ### Live power -/

/-- The value of `votingPower`, where it does not overflow. -/
def livePower (w : World Address) (a : Address) : ℤ :=
  if (getLock w a).amount ≤ 0 ∨ (getLock w a).unlockAt ≤ w.now then 0
  else ((getLock w a).amount * ↑((getLock w a).unlockAt - w.now)).tdiv maxLockTime

theorem votingPower_ok {p : ℤ} (h : votingPower w a = .ok p) : p = livePower w a := by
  unfold votingPower at h
  unfold livePower
  by_cases ha : (getLock w a).amount ≤ 0
  · simp only [ha, if_true, pure_eq_ok] at h
    simp [ha, ← h]
  by_cases hu : (getLock w a).unlockAt ≤ w.now
  · simp only [ha, hu, if_false, if_true, pure_eq_ok] at h
    simp [hu, ← h]
  · simp only [ha, hu, if_false, bind_eq_ok, i128_eq_ok, pure_eq_ok, or_self] at h ⊢
    obtain ⟨_, ⟨-, rfl⟩, rfl⟩ := h
    rfl

theorem livePower_eq_floor (ha : 0 < (getLock w a).amount) :
    livePower w a = (getLock w a).amount * ↑((getLock w a).unlockAt - w.now) / ↑maxLockTime := by
  unfold livePower
  split_ifs with hc
  · have hz : (getLock w a).unlockAt - w.now = 0 := by omega
    simp [hz]
  · exact Int.tdiv_eq_ediv_of_nonneg (mul_nonneg ha.le (by positivity))

theorem livePower_eq_zero (ha : (getLock w a).amount ≤ 0) : livePower w a = 0 := by
  simp [livePower, ha]

theorem livePower_nonneg (w : World Address) (a : Address) : 0 ≤ livePower w a := by
  rcases le_or_gt (getLock w a).amount 0 with ha | ha
  · rw [livePower_eq_zero ha]
  · rw [livePower_eq_floor ha]
    exact Int.ediv_nonneg (mul_nonneg ha.le (by positivity)) (by positivity)

/-- Power only decays while the lock stays as it is. -/
theorem livePower_decays (hl : getLock w' a = getLock w a) (ht : w.now ≤ w'.now) :
    livePower w' a ≤ livePower w a := by
  rcases le_or_gt (getLock w a).amount 0 with ha | ha
  · rw [livePower_eq_zero ha, livePower_eq_zero (hl ▸ ha)]
  · rw [livePower_eq_floor ha, livePower_eq_floor (hl ▸ ha), hl]
    have hsub : (getLock w a).unlockAt - w'.now ≤ (getLock w a).unlockAt - w.now := by omega
    exact Int.ediv_le_ediv (by decide) (mul_le_mul_of_nonneg_left (by exact_mod_cast hsub) ha.le)

/-! ### The fee accounts as an accumulator -/

def feeBook (w : World Address) : Accumulator Address where
  acc := (feeCheckpoint w).accFeePerPower
  weight a := (feeAccount w a).recordedPower
  paid a := (feeAccount w a).rewardPerPowerPaid
  pending a := (feeAccount w a).pending

@[simp] theorem feeAccount_setFeeCheckpoint (c : FeeCheckpoint) (b : Address) :
    feeAccount (setFeeCheckpoint w c) b = feeAccount w b := rfl

variable [DecidableEq Address]

theorem getLock_setLock (l : Option LockInfo) :
    getLock (setLock w a l) = Function.update (getLock w) a (l.getD ⟨0, 0⟩) := by
  funext b
  by_cases hb : b = a <;> simp [getLock, setLock, hb]

theorem feeAccount_setFeeAccount (acc : FeeAccount) :
    feeAccount (setFeeAccount w a acc) = Function.update (feeAccount w) a acc := by
  funext b
  by_cases hb : b = a <;> simp [feeAccount, setFeeAccount, hb]

/-- What settling an account did. -/
structure Settled (w w' : World Address) (a : Address) (p : ℤ) : Prop where
  writes : ∃ acc, w' = setFeeAccount w a acc
  book : feeBook w' = (feeBook w).settle feeScale a (livePower w a)
  pending : p = (feeBook w).claimable feeScale a (livePower w a)

theorem settleFeeAccount_ok {p : ℤ} (h : settleFeeAccount w a = .ok (w', p))
    (hle : (feeBook w).paid a ≤ (feeBook w).acc) : Settled w w' a p := by
  simp only [settleFeeAccount, bind_eq_ok, pure_eq_ok, Prod.mk.injEq] at h
  obtain ⟨power, hpower, delta, hdelta, pending, hpend, rfl, rfl⟩ := h
  obtain rfl := votingPower_ok hpower
  obtain ⟨-, rfl⟩ := (i128_eq_ok _ _).mp hdelta
  have hp : pending = (feeBook w).claimable feeScale a (livePower w a) := by
    unfold Accumulator.claimable
    split_ifs at hpend with hd
    · simp only [bind_eq_ok, i128_eq_ok] at hpend
      obtain ⟨_, ⟨-, rfl⟩, -, rfl⟩ := hpend
      rfl
    · have hz : (feeBook w).acc - (feeBook w).paid a = 0 :=
        le_antisymm (not_lt.mp hd) (sub_nonneg.mpr hle)
      simp only [pure_eq_ok] at hpend
      rw [hz, mul_zero, Int.zero_tdiv, add_zero]
      exact hpend.symm
  refine ⟨⟨_, rfl⟩, ?_, hp⟩
  subst hp
  ext1
  · rfl
  all_goals
    funext b
    by_cases hb : b = a <;>
      simp [feeBook, Accumulator.settle, feeAccount_setFeeAccount, hb]

namespace Settled

variable {p : ℤ}

theorem tokenEntry_eq (s : Settled w w' a p) : w'.tokenEntry = w.tokenEntry := by
  obtain ⟨acc, rfl⟩ := s.writes
  rfl

theorem getLock_eq (s : Settled w w' a p) (b : Address) : getLock w' b = getLock w b := by
  obtain ⟨acc, rfl⟩ := s.writes
  rfl

end Settled

/-- What refreshing the total power did. -/
structure Refreshed (w w' : World Address) (a : Address) : Prop where
  writes : ∃ c acc, w' = setFeeAccount (setFeeCheckpoint w c) a acc
  book : feeBook w' = (feeBook w).reweigh a (livePower w a)
  totalPower : (feeCheckpoint w').totalPower =
    (feeCheckpoint w).totalPower - (feeBook w).weight a + livePower w a

theorem refreshTotalPower_ok (h : refreshTotalPower w a = .ok w') : Refreshed w w' a := by
  simp only [refreshTotalPower, bind_eq_ok, pure_eq_ok] at h
  obtain ⟨power, hpower, rest, hrest, total, htotal, rfl⟩ := h
  obtain rfl := votingPower_ok hpower
  obtain ⟨-, rfl⟩ := (i128_eq_ok _ _).mp hrest
  obtain ⟨-, rfl⟩ := (i128_eq_ok _ _).mp htotal
  refine ⟨⟨_, _, rfl⟩, ?_, rfl⟩
  ext1
  · rfl
  all_goals
    funext b
    by_cases hb : b = a <;>
      simp [feeBook, Accumulator.reweigh, feeAccount_setFeeAccount, hb]

/-! ### Solvency -/

omit [DecidableEq Address] in
theorem token_ok {tok : Address} (h : token w = .ok tok) : w.tokenEntry ≠ none := by
  rw [token, okOr_eq_ok] at h
  simp [h]


/-- The books balance when `funds` are the fees received and not yet paid out. -/
structure Books (escrow : Address) (w : World Address) (funds : ℤ) : Prop where
  live_le : ∀ a, livePower w a ≤ (feeBook w).weight a
  backed : (feeBook w).Backed feeScale (feeCheckpoint w).totalPower funds
  lock_nonneg : ∀ a, 0 ≤ (getLock w a).amount
  funded : ∃ m, HasTotal (fun a => (getLock w a).amount) m ∧ m + funds ≤ w.ledger.balance escrow
  fresh : w.tokenEntry = none → feeCheckpoint w = ⟨0, 0⟩ ∧ ∀ a, (getLock w a).amount = 0

namespace Books

variable {funds amount p : ℤ} {ledger : Token Address}

/-- Settling writes one fee account and leaves the account paid up. -/
theorem settle (b : Books self w funds) (s : Settled w w' a p) :
    Books self w' funds ∧ (feeBook w').paid a = (feeBook w').acc ∧ (feeBook w').pending a = p := by
  have hback := b.backed.settle (k := a) (by decide) (livePower_nonneg w a) (b.live_le a)
  have hpaid : (feeBook w').paid a = (feeBook w').acc := by simp [s.book, Accumulator.settle]
  have hpend : (feeBook w').pending a = p := by simp [s.book, s.pending, Accumulator.settle]
  rw [← s.book] at hback
  have hw : (feeBook w').weight = (feeBook w).weight := by rw [s.book]; rfl
  obtain ⟨acc, rfl⟩ := s.writes
  exact ⟨⟨fun c => hw ▸ b.live_le c, hback, b.lock_nonneg, b.funded, b.fresh⟩, hpaid, hpend⟩

/-- Replacing the lock of a settled account and refreshing the total power, when
the balance follows the locked amount. -/
theorem relock (b : Books self w funds) (hpaid : (feeBook w).paid a = (feeBook w).acc)
    {l : Option LockInfo} (hl : 0 ≤ (l.getD ⟨0, 0⟩).amount)
    (hbal : w.ledger.balance self - (getLock w a).amount + (l.getD ⟨0, 0⟩).amount
      ≤ ledger.balance self)
    (htok : w.tokenEntry ≠ none) (h : Refreshed (setLock { w with ledger } a l) w' a) :
    Books self w' funds := by
  set v := setLock { w with ledger } a l with hv
  have hlock : getLock v = Function.update (getLock w) a (l.getD ⟨0, 0⟩) := getLock_setLock l
  have hback := b.backed.reweigh hpaid (livePower_nonneg v a)
  rw [← show feeBook v = feeBook w from rfl, ← h.book] at hback
  obtain ⟨m, hm, hfund⟩ := b.funded
  have hweight := congrArg Accumulator.weight h.book
  have htotal := h.totalPower
  obtain ⟨c, acc, rfl⟩ := h.writes
  refine ⟨fun d => ?_, ?_, fun d => ?_, ?_, fun hn => absurd hn htok⟩
  · rw [hweight]
    change livePower v d ≤ Function.update (feeBook w).weight a (livePower v a) d
    by_cases hd : d = a
    · rw [hd, Function.update_self]
    · rw [Function.update_of_ne hd]
      refine (b.live_le d).trans' (livePower_decays ?_ le_rfl)
      rw [hlock, Function.update_of_ne hd]
  · rw [htotal]
    exact hback
  · change 0 ≤ (getLock v d).amount
    rw [hlock]
    by_cases hd : d = a
    · simpa [hd] using hl
    · simpa [hd] using b.lock_nonneg d
  · refine ⟨_, hm.change (g := fun d => (getLock v d).amount) a fun d hd => ?_, ?_⟩
    · rw [hlock, Function.update_of_ne hd]
    · change _ ≤ ledger.balance self
      rw [hlock, Function.update_self]
      omega

omit [DecidableEq Address] in
/-- Token movements that do not lower the contract's balance. -/
theorem move (b : Books self w funds) (h : w.ledger.balance self ≤ ledger.balance self) :
    Books self { w with ledger } funds := by
  obtain ⟨m, hm, hfund⟩ := b.funded
  exact ⟨b.live_le, b.backed, b.lock_nonneg, ⟨m, hm, hfund.trans h⟩, b.fresh⟩

omit [DecidableEq Address] in
theorem advance (b : Books self w funds) {now : ℕ} (h : w.now ≤ now) :
    Books self { w with now } funds :=
  ⟨fun c => (b.live_le c).trans' (livePower_decays rfl h), b.backed, b.lock_nonneg, b.funded,
    b.fresh⟩

omit [DecidableEq Address] in
theorem initializeContract {tok trea : Address} (b : Books self w funds)
    (h : initializeContract w tok trea = .ok w') : Books self w' funds := by
  simp only [VeToken.initializeContract, bind_eq_ok, bail_eq_ok, pure_eq_ok] at h
  obtain ⟨-, hnone, rfl⟩ := h
  have hfresh := (b.fresh (by simpa using hnone)).1
  have hbook : feeBook (setFeeCheckpoint
      { w with tokenEntry := some tok, treasuryEntry := some trea } ⟨0, 0⟩) = feeBook w := by
    simp only [feeBook, feeAccount, hfresh]
    rfl
  have hback := b.backed
  rw [hfresh] at hback
  exact ⟨fun c => hbook ▸ b.live_le c, hbook ▸ hback, b.lock_nonneg, b.funded,
    fun hn => absurd hn (by simp [setFeeCheckpoint])⟩

theorem lock {duration : ℕ} (b : Books self w funds) (hself : self ∉ signers)
    (h : lock self signers w a amount duration = .ok w') : Books self w' funds := by
  simp only [VeToken.lock, bind_eq_ok, requireAuth_eq_ok, bail_eq_ok] at h
  obtain ⟨-, hsig, -, hamt, -, -, tok, htok, unlockAt, -, ⟨v, p⟩, hsettle, newAmount, hnew, ledger,
    hmove, hrefresh⟩ := h
  have s := settleFeeAccount_ok hsettle (b.backed.paid_le a)
  obtain ⟨bv, hpaid, -⟩ := b.settle s
  obtain ⟨-, rfl⟩ := (i128_eq_ok _ _).mp hnew
  have hne : a ≠ self := fun he => hself (he ▸ hsig)
  have hdst : ledger.balance self = v.ledger.balance self + amount :=
    (Token.transfer_ok hmove).dst_balance hne
  have hold := bv.lock_nonneg a
  refine bv.relock hpaid ?_ ?_ (s.tokenEntry_eq ▸ token_ok htok) (refreshTotalPower_ok hrefresh)
  · simp only [Option.getD_some]
    omega
  · simp only [Option.getD_some]
    omega

theorem extendLock {duration : ℕ} (b : Books self w funds)
    (h : extendLock signers w a duration = .ok w') : Books self w' funds := by
  simp only [VeToken.extendLock, bind_eq_ok, requireAuth_eq_ok, bail_eq_ok] at h
  obtain ⟨-, -, -, -, -, hpos, proposed, -, -, -, -, -, -, -, ⟨v, p⟩, hsettle, hrefresh⟩ := h
  have s := settleFeeAccount_ok hsettle (b.backed.paid_le a)
  obtain ⟨bv, hpaid, -⟩ := b.settle s
  have hlock := s.getLock_eq a
  have hr : Refreshed (setLock { v with ledger := v.ledger } a _) w' a :=
    refreshTotalPower_ok hrefresh
  refine bv.relock hpaid ?_ ?_ ?_ hr
  · simp only [Option.getD_some]
    omega
  · simp only [Option.getD_some, hlock]
    omega
  · rw [s.tokenEntry_eq]
    exact fun hn => hpos ((b.fresh hn).2 a).le

theorem withdraw (b : Books self w funds) (hself : self ∉ signers)
    (h : withdraw self signers w a = .ok (w', amount)) : Books self w' funds := by
  simp only [VeToken.withdraw, bind_eq_ok, requireAuth_eq_ok, bail_eq_ok, pure_eq_ok,
    Prod.mk.injEq] at h
  obtain ⟨-, hsig, -, hpos, -, -, ⟨v, p⟩, hsettle, tok, htok, ledger, hmove, w₁, hrefresh, rfl,
    rfl⟩ := h
  have s := settleFeeAccount_ok hsettle (b.backed.paid_le a)
  obtain ⟨bv, hpaid, -⟩ := b.settle s
  have hne : a ≠ self := fun he => hself (he ▸ hsig)
  have hsrc : ledger.balance self = v.ledger.balance self - (getLock w a).amount :=
    (Token.transfer_ok hmove).src_balance hne.symm
  have hlock := s.getLock_eq a
  refine bv.relock hpaid (l := none) ?_ ?_ (token_ok htok) (refreshTotalPower_ok hrefresh)
  · simp
  · simp only [Option.getD_none, hlock]
    omega

theorem distributeFees (b : Books self w funds) (hself : self ∉ signers)
    (h : distributeFees self signers w amount = .ok w') : Books self w' (funds + amount) := by
  simp only [VeToken.distributeFees, bind_eq_ok, requireAuth_eq_ok, bail_eq_ok, pure_eq_ok] at h
  obtain ⟨-, hamt, trea, -, -, hsig, -, hpow, tok, htok, ledger, hmove, scaled, hscaled, acc, hacc,
    rfl⟩ := h
  obtain ⟨-, rfl⟩ := (i128_eq_ok _ _).mp hscaled
  obtain ⟨-, rfl⟩ := (i128_eq_ok _ _).mp hacc
  have hne : trea ≠ self := fun he => hself (he ▸ hsig)
  have hdst := (Token.transfer_ok hmove).dst_balance hne
  obtain ⟨m, hm, hfund⟩ := b.funded
  have hback := b.backed.distribute (by decide) (not_le.mp hpow) (show 0 ≤ amount by omega)
  refine ⟨b.live_le, hback, b.lock_nonneg, ⟨m, hm, ?_⟩, fun hn => absurd hn (token_ok htok)⟩
  change _ ≤ ledger.balance self
  omega

theorem claimFees {paid : ℤ} (b : Books self w funds) (hself : self ∉ signers)
    (h : claimFees self signers w a = .ok (w', paid)) : Books self w' (funds - paid) := by
  simp only [VeToken.claimFees, bind_eq_ok, requireAuth_eq_ok, bail_eq_ok, pure_eq_ok,
    Prod.mk.injEq] at h
  obtain ⟨-, hsig, ⟨v, p⟩, hsettle, -, hpos, tok, htok, ledger, hmove, rfl, rfl⟩ := h
  have s := settleFeeAccount_ok hsettle (b.backed.paid_le a)
  obtain ⟨bv, -, rfl⟩ := b.settle s
  have hne : a ≠ self := fun he => hself (he ▸ hsig)
  have hsrc : ledger.balance self = v.ledger.balance self - (feeBook v).pending a :=
    (Token.transfer_ok hmove).src_balance hne.symm
  obtain ⟨m, hm, hfund⟩ := bv.funded
  have hbook : feeBook (setFeeAccount v a { feeAccount v a with pending := 0 })
      = (feeBook v).pay a := by
    ext1
    · rfl
    all_goals
      funext c
      by_cases hc : c = a <;>
        simp [feeBook, Accumulator.pay, feeAccount_setFeeAccount, hc]
  have hback := bv.backed.pay (k := a)
  rw [← hbook] at hback
  have hw : (feeBook (setFeeAccount v a { feeAccount v a with pending := 0 })).weight
      = (feeBook v).weight := by rw [hbook]; rfl
  refine ⟨fun c => ?_, hback, bv.lock_nonneg, ⟨m, hm, ?_⟩, bv.fresh⟩
  · exact (bv.live_le c).trans_eq (congrFun hw c).symm
  · change _ ≤ ledger.balance self
    omega

end Books

/-! ### Runs -/

/-- One accepted transaction and its reply. -/
abbrev Entry (Address : Type) := Receipt (World Address) (Transaction Address) ℤ

/-- The fees an accepted transaction brings in. -/
def feesIn (x : Entry Address) : ℤ :=
  match x.call.op with
  | .distributeFees amount => amount
  | _ => 0

/-- The fees an accepted transaction pays out. -/
def feesOut (x : Entry Address) : ℤ :=
  match x.call.op with
  | .claimFees _ => x.out
  | _ => 0

def distributed (h : List (Entry Address)) : ℤ := (h.map feesIn).sum

def paidOut (h : List (Entry Address)) : ℤ := (h.map feesOut).sum

theorem books_step (x : Entry Address) (h : step self x.pre x.call = .ok (x.post, x.out))
    {funds : ℤ} (b : Books self x.pre funds) :
    Books self x.post (funds + feesIn x - feesOut x) := by
  obtain ⟨w, ⟨signers, op⟩, out, w'⟩ := x
  have hself : self ∉ signers.filter (· ≠ self) := by simp
  cases op with simp only [step, feesIn, feesOut, bind_eq_ok, pure_eq_ok, Prod.mk.injEq] at h ⊢
  | initializeContract tok trea =>
    obtain ⟨_, h, rfl, -⟩ := h
    simpa using b.initializeContract h
  | lock caller amount duration =>
    obtain ⟨_, h, rfl, -⟩ := h
    simpa using b.lock hself h
  | extendLock caller duration =>
    obtain ⟨_, h, rfl, -⟩ := h
    simpa using b.extendLock h
  | withdraw caller => simpa using b.withdraw hself h
  | distributeFees amount =>
    obtain ⟨_, h, rfl, -⟩ := h
    simpa using b.distributeFees hself h
  | claimFees caller => simpa using b.claimFees hself h
  | advance seconds =>
    obtain ⟨_, h, rfl, -⟩ := h
    obtain ⟨-, rfl⟩ := (u64_eq_ok _ _).mp h
    simpa using b.advance (Nat.le_add_right _ _)
  | transfer src dst amount =>
    obtain ⟨_, hsig, _, h, rfl, -⟩ := h
    have hsrc : src ∈ signers.filter (· ≠ self) := (requireAuth_eq_ok _ _ _).mp hsig
    have hne : self ≠ src := fun he => hself (he ▸ hsrc)
    simpa using b.move ((Token.transfer_ok h).balance_le hne)

omit [DecidableEq Address] in
theorem books_deployed (now : ℕ) (ledger : Token Address) :
    Books self (deployed now ledger) 0 where
  live_le _ := le_rfl
  backed := ⟨fun _ => le_rfl, fun _ => le_rfl, fun _ => le_rfl, .zero, 0, .zero, by decide⟩
  lock_nonneg _ := le_rfl
  funded := ⟨0, .zero, by simpa [deployed] using ledger.nonneg self⟩
  fresh _ := ⟨rfl, fun _ => rfl⟩

/-- The funds of a run are the fees distributed less the fees paid out. -/
theorem books_run (self : Address) (now : ℕ) (ledger : Token Address)
    (calls : List (Transaction Address)) :
    let r := run (step self) (deployed now ledger) calls
    Books self r.1 (distributed r.2 - paidOut r.2) := by
  intro r
  refine (run_trace (step self) (deployed now ledger) calls).history
    (I := fun h w => Books self w (distributed h - paidOut h)) (fun g x hx b => ?_) ?_
  · have hb := books_step x hx b
    simp only [distributed, paidOut, List.map_append, List.sum_append, List.map_cons, List.map_nil,
      List.sum_singleton] at hb ⊢
    convert hb using 1
    ring
  · simpa [distributed, paidOut] using books_deployed now ledger

omit [DecidableEq Address] in
theorem claimableFees_ok {p : ℤ} (h : claimableFees w a = .ok p)
    (hle : (feeBook w).paid a ≤ (feeBook w).acc) :
    p = (feeBook w).claimable feeScale a (livePower w a) := by
  simp only [claimableFees, bind_eq_ok] at h
  obtain ⟨power, hpower, delta, hdelta, h⟩ := h
  obtain rfl := votingPower_ok hpower
  obtain ⟨-, rfl⟩ := (i128_eq_ok _ _).mp hdelta
  unfold Accumulator.claimable
  split_ifs at h with hd
  · have hz : (feeBook w).acc - (feeBook w).paid a = 0 := le_antisymm hd (sub_nonneg.mpr hle)
    rw [hz, mul_zero, Int.zero_tdiv, add_zero]
    exact ((pure_eq_ok _ _).mp h).symm
  · simp only [bind_eq_ok, i128_eq_ok] at h
    obtain ⟨_, ⟨-, rfl⟩, -, rfl⟩ := h
    rfl

/-- What `claimableFees` answers; an account whose view traps can claim nothing. -/
def claimable (w : World Address) (a : Address) : ℤ :=
  match claimableFees w a with
  | .ok p => p
  | .error _ => 0

/-- A claim pays what the view promised. -/
theorem claimFees_pays {p : ℤ} (h : claimFees self signers w a = .ok (w', p)) :
    p = claimable w a := by
  simp only [claimFees, bind_eq_ok, pure_eq_ok, Prod.mk.injEq] at h
  obtain ⟨-, -, ⟨v, q⟩, hsettle, -, -, -, -, -, -, -, rfl⟩ := h
  simp only [settleFeeAccount, bind_eq_ok, pure_eq_ok, Prod.mk.injEq] at hsettle
  obtain ⟨power, hpower, delta, hdelta, pending, hpend, -, rfl⟩ := hsettle
  have hview : claimableFees w a = .ok pending := by
    simp only [claimableFees, bind_eq_ok]
    refine ⟨power, hpower, delta, hdelta, ?_⟩
    by_cases hd : 0 < delta
    · rw [if_pos hd] at hpend
      rwa [if_neg (not_le.mpr hd)]
    · rw [if_neg hd] at hpend
      rwa [if_pos (not_lt.mp hd)]
  simp only [claimable, hview]

omit [DecidableEq Address] in
theorem claimable_le_owed {funds : ℤ} (b : Books self w funds) (a : Address) :
    0 ≤ claimable w a ∧ claimable w a * feeScale ≤ (feeBook w).owed feeScale a := by
  unfold claimable
  split
  · next p hp =>
    rw [claimableFees_ok hp (b.backed.paid_le a)]
    exact b.backed.claimable_le (by decide) (livePower_nonneg w a) (b.live_le a)
  · refine ⟨le_rfl, ?_⟩
    rw [zero_mul]
    exact add_nonneg (mul_nonneg (b.backed.pending_nonneg a) (by decide))
      (mul_nonneg (b.backed.weight_nonneg a) (sub_nonneg.mpr (b.backed.paid_le a)))

/-- In every run, the fees paid out and still claimable stay within the fees
distributed, and the contract holds every lock and every claimable fee. -/
theorem fees_solvent (self : Address) (now : ℕ) (ledger : Token Address)
    (calls : List (Transaction Address)) :
    let r := run (step self) (deployed now ledger) calls
    ∃ n m, HasTotal (claimable r.1) n ∧ HasTotal (fun a => (getLock r.1 a).amount) m ∧
      paidOut r.2 + n ≤ distributed r.2 ∧ m + n ≤ r.1.ledger.balance self := by
  intro r
  have b : Books self r.1 (distributed r.2 - paidOut r.2) := books_run self now ledger calls
  obtain ⟨n, hn, hle⟩ := b.backed.claimable_total (by decide) (claimable_le_owed b)
  obtain ⟨m, hm, hfund⟩ := b.funded
  exact ⟨n, m, hn, hm, by omega, by omega⟩

end RefractContracts.VeToken
