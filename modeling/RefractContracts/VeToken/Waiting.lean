import RefractContracts.VeToken.Power

/-! Claiming late. Fees accrue to an account by the live power it has when it is settled, not
by the power it had when they were distributed. While an account waits nobody else touches its
books, so what it can claim moves with two things only: distributions raise it, and the decay
of the power lowers it. -/

namespace RefractContracts.VeToken

open Host

variable {Address : Type} {w w' v : World Address} {a b self : Address} {out : ℤ}

/-- The calls that settle the fees of the account: its lock changes and its claims. -/
def Op.Settles (a : Address) : Op Address → Prop
  | .lock caller .. | .extendLock caller .. | .withdraw caller | .claimFees caller => caller = a
  | _ => False

/-- None of the accepted calls settles the fees of the account. -/
def Waits (a : Address) (h : List (Entry Address)) : Prop := ∀ x ∈ h, ¬ x.call.op.Settles a

/-- The account's lock and books at `v` are those of `w`; time passed, and fees came in. -/
structure Waited (w v : World Address) (a : Address) : Prop where
  lock : getLock v a = getLock w a
  later : w.now ≤ v.now
  pending : (feeBook v).pending a = (feeBook w).pending a
  paid : (feeBook v).paid a = (feeBook w).paid a
  grown : (feeBook w).acc ≤ (feeBook v).acc

namespace Waited

theorem refl : Waited w w a := ⟨rfl, le_rfl, rfl, rfl, le_rfl⟩

theorem trans (h : Waited w v a) (h' : Waited v w' a) : Waited w w' a :=
  ⟨h'.lock.trans h.lock, h.later.trans h'.later, h'.pending.trans h.pending, h'.paid.trans h.paid,
    h.grown.trans h'.grown⟩

variable [DecidableEq Address] {p : ℤ}

theorem of_settled (s : Settled w v b p) (hne : a ≠ b) : Waited w v a := by
  obtain ⟨acc, rfl⟩ := s.writes
  refine ⟨rfl, le_rfl, ?_, ?_, s.book ▸ le_rfl⟩ <;> rw [s.book] <;>
    exact Function.update_of_ne hne _ _

theorem of_setLock (ledger : Token Address) (l : Option LockInfo) (hne : a ≠ b) :
    Waited w (setLock { w with ledger } b l) a := by
  refine ⟨?_, le_rfl, rfl, rfl, le_rfl⟩
  have hlock : getLock (setLock { w with ledger } b l) = Function.update (getLock w) b _ :=
    getLock_setLock l
  rw [hlock, Function.update_of_ne hne]

theorem of_refreshed (r : Refreshed w v b) : Waited w v a := by
  obtain ⟨c, acc, rfl⟩ := r.writes
  refine ⟨rfl, le_rfl, ?_, ?_, ?_⟩ <;> rw [r.book] <;> rfl

theorem of_setFeeAccount (acc : FeeAccount) (hne : a ≠ b) : Waited w (setFeeAccount w b acc) a := by
  have hacc : feeAccount (setFeeAccount w b acc) a = feeAccount w a := by
    rw [feeAccount_setFeeAccount, Function.update_of_ne hne]
  exact ⟨rfl, le_rfl, congrArg FeeAccount.pending hacc, congrArg FeeAccount.rewardPerPowerPaid hacc,
    le_rfl⟩

end Waited

variable [DecidableEq Address] {funds : ℤ} {signers : List Address}

/-- A call that does not settle the account leaves it waiting. -/
theorem step_waited {tx : Transaction Address} (k : Books self w funds)
    (h : step self w tx = .ok (w', out)) (hs : ¬ tx.op.Settles a) : Waited w w' a := by
  obtain ⟨signers, op⟩ := tx
  cases op with simp only [step, bind_eq_ok, pure_eq_ok, Prod.mk.injEq] at h
  | initializeContract tok trea =>
    simp only [initializeContract, bind_eq_ok, bail_eq_ok, pure_eq_ok] at h
    obtain ⟨_, ⟨-, hnone, rfl⟩, rfl, -⟩ := h
    have hzero := (k.fresh (by simpa using hnone)).1
    exact ⟨rfl, le_rfl, rfl, rfl, (congrArg FeeCheckpoint.accFeePerPower hzero).le⟩
  | lock caller amount duration =>
    obtain ⟨_, h, rfl, -⟩ := h
    simp only [lock, bind_eq_ok] at h
    obtain ⟨-, -, -, -, -, -, -, -, _, -, ⟨v, p⟩, hsettle, _, -, ledger, -, hrefresh⟩ := h
    have s := settleFeeAccount_ok hsettle (k.backed.paid_le caller)
    exact ((Waited.of_settled s (Ne.symm hs)).trans (.of_setLock ledger _ (Ne.symm hs))).trans
      (.of_refreshed (refreshTotalPower_ok hrefresh))
  | extendLock caller duration =>
    obtain ⟨_, h, rfl, -⟩ := h
    simp only [extendLock, bind_eq_ok] at h
    obtain ⟨-, -, -, -, -, -, _, -, -, -, -, -, -, -, ⟨v, p⟩, hsettle, hrefresh⟩ := h
    have s := settleFeeAccount_ok hsettle (k.backed.paid_le caller)
    exact ((Waited.of_settled s (Ne.symm hs)).trans (.of_setLock v.ledger _ (Ne.symm hs))).trans
      (.of_refreshed (refreshTotalPower_ok hrefresh))
  | withdraw caller =>
    simp only [withdraw, bind_eq_ok, pure_eq_ok, Prod.mk.injEq] at h
    obtain ⟨-, -, -, -, -, -, ⟨v, p⟩, hsettle, -, -, ledger, -, _, hrefresh, rfl, -⟩ := h
    have s := settleFeeAccount_ok hsettle (k.backed.paid_le caller)
    exact ((Waited.of_settled s (Ne.symm hs)).trans (.of_setLock ledger none (Ne.symm hs))).trans
      (.of_refreshed (refreshTotalPower_ok hrefresh))
  | distributeFees amount =>
    obtain ⟨_, h, rfl, -⟩ := h
    simp only [distributeFees, bind_eq_ok, bail_eq_ok, i128_eq_ok, pure_eq_ok, not_le] at h
    obtain ⟨-, hpos, -, -, -, -, -, hpower, -, -, _, -, _, ⟨-, rfl⟩, _, ⟨-, rfl⟩, rfl⟩ := h
    refine ⟨rfl, le_rfl, rfl, rfl, le_add_of_nonneg_right (Int.tdiv_nonneg ?_ hpower.le)⟩
    exact mul_nonneg hpos.le (by decide)
  | claimFees caller =>
    simp only [claimFees, bind_eq_ok, pure_eq_ok, Prod.mk.injEq] at h
    obtain ⟨-, -, ⟨v, p⟩, hsettle, -, -, -, -, ledger, -, rfl, -⟩ := h
    have s := settleFeeAccount_ok hsettle (k.backed.paid_le caller)
    obtain ⟨hlock, hlater, hpending, hpaid, hgrown⟩ :=
      (Waited.of_settled s (Ne.symm hs)).trans (.of_setFeeAccount _ (Ne.symm hs))
    exact ⟨hlock, hlater, hpending, hpaid, hgrown⟩
  | advance seconds =>
    simp only [u64_eq_ok] at h
    obtain ⟨_, ⟨-, rfl⟩, rfl, -⟩ := h
    exact ⟨rfl, Nat.le_add_right _ _, rfl, rfl, le_rfl⟩
  | transfer src dst amount =>
    obtain ⟨_, -, ledger, -, rfl, -⟩ := h
    exact ⟨rfl, le_rfl, rfl, rfl, le_rfl⟩

theorem run_waited (k : Books self w funds) (calls : List (Transaction Address))
    (waits : Waits a (run (step self) w calls).2) :
    Waited w (run (step self) w calls).1 a ∧
      ∃ funds, Books self (run (step self) w calls).1 funds := by
  refine (run_trace (step self) w calls).invariant_of
    (I := fun v => Waited w v a ∧ ∃ funds, Books self v funds)
    (P := fun x : Entry Address => ¬ x.call.op.Settles a) ?_ waits ⟨.refl, _, k⟩
  rintro x hs accepted ⟨hwaited, _, k⟩
  exact ⟨hwaited.trans (step_waited k accepted hs), _, books_step x accepted k⟩

/-- A claim pays what has accrued at the power of its time, and leaves the account paid up. -/
theorem claimFees_settles {paid : ℤ} (k : Books self w funds)
    (h : claimFees self signers w a = .ok (w', paid)) :
    paid = (feeBook w).claimable feeScale a (livePower w a) ∧ getLock w' = getLock w ∧
      (feeBook w').pending a = 0 ∧ (feeBook w').paid a = (feeBook w).acc ∧
      (feeBook w').acc = (feeBook w).acc := by
  simp only [claimFees, bind_eq_ok, pure_eq_ok, Prod.mk.injEq] at h
  obtain ⟨-, -, ⟨v, p⟩, hsettle, -, -, -, -, ledger, -, rfl, rfl⟩ := h
  have s := settleFeeAccount_ok hsettle (k.backed.paid_le a)
  obtain ⟨-, hpaid, -⟩ := k.settle s
  have hacc : (feeBook v).acc = (feeBook w).acc := by rw [s.book]; rfl
  have hbook : feeAccount (setFeeAccount v a { feeAccount v a with pending := 0 }) a =
      { feeAccount v a with pending := 0 } := by
    rw [feeAccount_setFeeAccount, Function.update_self]
  refine ⟨s.pending, (settleFeeAccount_keeps hsettle).1, congrArg FeeAccount.pending hbook,
    ?_, hacc⟩
  exact ((congrArg FeeAccount.rewardPerPowerPaid hbook).trans hpaid).trans hacc

/-- A claim on the way costs no more than a unit of rounding: what can be claimed late is at
most what the early claim paid and what accrued after it. -/
theorem late_claim_le {v w₁ v₁ : World Address} {paid : ℤ} (k : Books self w funds)
    (hv : Waited w v a) (hclaim : claimFees self signers w a = .ok (w₁, paid))
    (hv₁ : Waited w₁ v₁ a) (hnow : v₁.now = v.now) (hacc : (feeBook v₁).acc = (feeBook v).acc) :
    (feeBook v).claimable feeScale a (livePower v a) ≤
      paid + (feeBook v₁).claimable feeScale a (livePower v₁ a) + 1 := by
  obtain ⟨hpaid, hlock, hpending, hsettled, -⟩ := claimFees_settles k hclaim
  have hdecay : livePower v a ≤ livePower w a := livePower_decays hv.lock hv.later
  have hsame : livePower v₁ a = livePower v a := by
    rw [livePower, livePower, hv₁.lock, hlock, hv.lock, hnow]
  have hsplit := Accumulator.accrued_split_le (show (0 : ℤ) < feeScale by decide)
    (livePower_nonneg v a) hdecay (k.backed.paid_le a) hv.grown
  rw [hpaid, Accumulator.claimable, Accumulator.claimable, Accumulator.claimable, hv.pending,
    hv.paid, hv₁.pending, hv₁.paid, hpending, hsettled, hsame, hacc]
  omega

/-! ### Waiting in a run -/

/-- What an account that could claim `p` at `w` and waited can claim at `v`. -/
structure Waiting (self : Address) (w v : World Address) (a : Address) (p q : ℤ) : Prop where
  accrued : q = (feeAccount w a).pending + livePower v a *
    ((feeCheckpoint v).accFeePerPower - (feeAccount w a).rewardPerPowerPaid) / feeScale
  settled : (feeAccount w a).pending ≤ q
  distributed : v.now = w.now → p ≤ q
  decayed : (feeCheckpoint v).accFeePerPower = (feeCheckpoint w).accFeePerPower → q ≤ p
  /-- An account that claims at `w`, and again after the same fees and time, gets no less. -/
  claimed : ∀ signers w₁ paid, step self w ⟨signers, .claimFees a⟩ = .ok (w₁, paid) →
    ∀ l, Waits a (run (step self) w₁ l).2 →
      (run (step self) w₁ l).1.now = v.now →
      (feeCheckpoint (run (step self) w₁ l).1).accFeePerPower = (feeCheckpoint v).accFeePerPower →
      ∀ q₁, claimableFees (run (step self) w₁ l).1 a = .ok q₁ → q ≤ paid + q₁ + 1

/-- In every run, an account that waits loses by the decay of its live power only: what it can
claim is never less for the fees distributed, nor less than what was settled, and a claim on
the way never costs it more than one unit of rounding. -/
theorem waiting_costs_decay (self : Address) (now : ℕ) (ledger : Token Address)
    (g l : List (Transaction Address)) (a : Address)
    (waits : Waits a (run (step self) (run (step self) (deployed now ledger) g).1 l).2) :
    let w := (run (step self) (deployed now ledger) g).1
    let v := (run (step self) w l).1
    livePower v a ≤ livePower w a ∧
      ∀ p q, claimableFees w a = .ok p → claimableFees v a = .ok q → Waiting self w v a p q := by
  intro w v
  have k : Books self w _ := books_run self now ledger g
  obtain ⟨hwaited, _, kv⟩ := run_waited k l waits
  change Waited w v a at hwaited
  have hdecay : livePower v a ≤ livePower w a := livePower_decays hwaited.lock hwaited.later
  refine ⟨hdecay, fun p q hp hq => ?_⟩
  have hscale : (0 : ℤ) < feeScale := by decide
  have hp := claimableFees_ok hp (k.backed.paid_le a)
  have hq := claimableFees_ok hq (kv.backed.paid_le a)
  have hpower := livePower_nonneg v a
  have hdelta := sub_nonneg.mpr (k.backed.paid_le a)
  have hgrown := sub_nonneg.mpr hwaited.grown
  have hx : 0 ≤ livePower v a * ((feeBook v).acc - (feeBook v).paid a) :=
    mul_nonneg hpower (sub_nonneg.mpr (kv.backed.paid_le a))
  refine ⟨?_, ?_, fun hnow => ?_, fun hacc => ?_,
    fun signers w₁ paid hclaim l₁ waits₁ hnow hacc q₁ hq₁ => ?_⟩
  · rw [hq, Accumulator.claimable, Int.tdiv_eq_ediv_of_nonneg hx, hwaited.pending, hwaited.paid]
    rfl
  · rw [hq, Accumulator.claimable, hwaited.pending]
    exact le_add_of_nonneg_right (Int.tdiv_nonneg hx hscale.le)
  · -- the power has not decayed, and the accumulator has grown
    have hsame : livePower v a = livePower w a := by
      rw [livePower, livePower, hwaited.lock, hnow]
    rw [hp, hq, ← hsame]
    refine Accumulator.claimable_mono hscale hwaited.pending.symm (mul_nonneg hpower hdelta) ?_
    refine mul_le_mul_of_nonneg_left ?_ hpower
    rw [hwaited.paid]
    omega
  · -- the accumulator is where it was, and the power may have decayed
    rw [hp, hq]
    refine Accumulator.claimable_mono hscale hwaited.pending hx ?_
    rw [hwaited.paid, show (feeBook v).acc = (feeBook w).acc from hacc]
    exact mul_le_mul_of_nonneg_right hdecay hdelta
  · simp only [step] at hclaim
    have k₁ : Books self w₁ _ := k.claimFees (by simp) hclaim
    obtain ⟨hwaited₁, _, kv₁⟩ := run_waited k₁ l₁ waits₁
    have hq₁ := claimableFees_ok hq₁ (kv₁.backed.paid_le a)
    rw [hq, hq₁]
    exact late_claim_le k hwaited hclaim hwaited₁ hnow hacc

/-- One account has locked 100 for the longest time, and 100 of fees are distributed. -/
def oneLocker : List (Transaction ℕ) :=
  [⟨[], .initializeContract 5 2⟩, ⟨[1], .lock 1 100 maxLockTime⟩, ⟨[2], .distributeFees 100⟩]

def lockerAndTreasury : Token ℕ := (Token.empty.mint 1 100).mint 2 200

/-- Half the lock time. -/
def wait : Transaction ℕ := ⟨[], .advance (maxLockTime / 2)⟩

def claim : Transaction ℕ := ⟨[1], .claimFees 1⟩

/-- The fees shrink while the account waits, and a late claim pays half of an early one. -/
theorem oneLocker_forfeits :
    (¬ ∀ l : List (Transaction ℕ), (∀ tx ∈ l, ¬ tx.op.Settles 1) → ∀ p q,
      claimableFees (run (step 9) (deployed 0 lockerAndTreasury) oneLocker).1 1 = .ok p →
      claimableFees (run (step 9) (deployed 0 lockerAndTreasury) (oneLocker ++ l)).1 1 = .ok q →
        p ≤ q) ∧
      paidOut (run (step 9) (deployed 0 lockerAndTreasury) (oneLocker ++ [claim, wait])).2 = 100 ∧
      paidOut (run (step 9) (deployed 0 lockerAndTreasury) (oneLocker ++ [wait, claim])).2 =
        50 := by
  refine ⟨fun h => ?_, by decide +kernel, by decide +kernel⟩
  have hle := h [wait] (List.forall_mem_singleton.mpr id) 100 50 (by decide +kernel)
    (by decide +kernel)
  exact absurd hle (by decide)

/-- Half the power has decayed, and as much again is distributed. -/
theorem waiting_costs_decay_half :
    let w := (run (step 9) (deployed 0 lockerAndTreasury) oneLocker).1
    let v := (run (step 9) w [wait, ⟨[2], .distributeFees 100⟩]).1
    livePower v 1 ≤ livePower w 1 ∧ Waiting 9 w v 1 100 100 := by
  have hcalls : ∀ tx ∈ [wait, ⟨[2], .distributeFees 100⟩], ¬ tx.op.Settles 1 :=
    List.forall_mem_cons.mpr ⟨id, List.forall_mem_singleton.mpr id⟩
  obtain ⟨hdecay, hwaiting⟩ := waiting_costs_decay 9 0 lockerAndTreasury oneLocker
    [wait, ⟨[2], .distributeFees 100⟩] 1 fun x hx => hcalls x.call (mem_run_call hx)
  exact ⟨hdecay, hwaiting 100 100 (by decide +kernel) (by decide +kernel)⟩

end RefractContracts.VeToken
