import RefractContracts.VeToken.Fees

/-! Voting power over a run. A lock is replaced by its owner's calls only and ends at most
the longest lock time ahead; the call that replaces it computes the power, so the power
that decays from there is computed without overflow and stays within the locked amount.
The recorded powers add up to the total, which covers the live powers. -/

namespace RefractContracts.VeToken

open Host

variable {Address : Type} {w w' v : World Address} {a self : Address} {signers : List Address}

/-- The product of the amount and the time left, which the power is computed from. -/
def LockInfo.scaled (l : LockInfo) (now : ℕ) : ℤ := l.amount * ↑(l.unlockAt - now)

/-- The lock ends within the longest lock time, and its power is computed without overflow. -/
structure LockInfo.Sound (l : LockInfo) (now : ℕ) : Prop where
  nonneg : 0 ≤ l.amount
  within : l.unlockAt ≤ now + maxLockTime
  fits : l.scaled now ≤ maxI128

/-- The operations that lock tokens or prolong a lock. -/
def Op.Locks : Op Address → Prop
  | .lock .. | .extendLock .. => True
  | _ => False

namespace LockInfo.Sound

variable {l : LockInfo} {now later : ℕ}

theorem none : (⟨0, 0⟩ : LockInfo).Sound now :=
  ⟨le_rfl, Nat.zero_le _, by simp [LockInfo.scaled, zero_le_maxI128]⟩

theorem advance (s : l.Sound now) (h : now ≤ later) : l.Sound later := by
  refine ⟨s.nonneg, ?_, ?_⟩
  · have hwithin := s.within
    omega
  · have hleft : l.unlockAt - later ≤ l.unlockAt - now := by omega
    exact (mul_le_mul_of_nonneg_left (by exact_mod_cast hleft) s.nonneg).trans s.fits

end LockInfo.Sound

theorem votingPower_fits {p : ℤ} (h : votingPower w a = .ok p) (ha : 0 ≤ (getLock w a).amount) :
    (getLock w a).scaled w.now ≤ maxI128 := by
  unfold votingPower at h
  unfold LockInfo.scaled
  rcases ha.eq_or_lt with hzero | hpos
  · rw [← hzero, zero_mul]
    exact zero_le_maxI128
  · by_cases hu : (getLock w a).unlockAt ≤ w.now
    · rw [Nat.sub_eq_zero_of_le hu, Nat.cast_zero, mul_zero]
      exact zero_le_maxI128
    · simp only [not_le.mpr hpos, hu, if_false, bind_eq_ok, i128_eq_ok] at h
      obtain ⟨_, ⟨hrange, -⟩, -⟩ := h
      exact hrange.2

/-- The view of a sound lock answers, with at most the locked amount. -/
theorem votingPower_of_sound (s : (getLock w a).Sound w.now) :
    votingPower w a = .ok (livePower w a) ∧ livePower w a ≤ (getLock w a).amount := by
  constructor
  · unfold votingPower livePower
    by_cases ha : (getLock w a).amount ≤ 0
    · simp [ha, pure, Except.pure]
    by_cases hu : (getLock w a).unlockAt ≤ w.now
    · simp [hu, pure, Except.pure]
    · have hrange : minI128 ≤ (getLock w a).amount * ↑((getLock w a).unlockAt - w.now) := by
        have hnonneg := mul_nonneg s.nonneg (Int.natCast_nonneg ((getLock w a).unlockAt - w.now))
        unfold minI128
        omega
      simp only [ha, hu, if_false, or_self, bind_eq_ok, i128_eq_ok, pure_eq_ok]
      exact ⟨_, ⟨⟨hrange, s.fits⟩, rfl⟩, rfl⟩
  · rcases s.nonneg.eq_or_lt with hzero | hpos
    · rw [livePower_eq_zero hzero.ge, ← hzero]
    · rw [livePower_eq_floor hpos]
      have hleft : (getLock w a).unlockAt - w.now ≤ maxLockTime := by
        have hwithin := s.within
        omega
      exact Int.ediv_le_of_le_mul (by decide)
        (mul_le_mul_of_nonneg_left (by exact_mod_cast hleft) hpos.le)

variable [DecidableEq Address]

/-- What a call does to the locks: nothing while time passes, or it replaces one. -/
inductive LockEffect (w w' : World Address) (op : Op Address) : Prop
  | kept (locks : getLock w' = getLock w) (later : w.now ≤ w'.now)
  | replaced (a : Address) (l : LockInfo) (locks : getLock w' = Function.update (getLock w) a l)
      (now : w'.now = w.now) (sound : (getLock w a).Sound w.now → l.Sound w.now)
      (ahead : op.Locks → (getLock w a).unlockAt ≤ l.unlockAt)

theorem settleFeeAccount_keeps {p : ℤ} (h : settleFeeAccount w a = .ok (w', p)) :
    getLock w' = getLock w ∧ w'.now = w.now := by
  simp only [settleFeeAccount, bind_eq_ok, pure_eq_ok, Prod.mk.injEq] at h
  obtain ⟨-, -, -, -, -, -, rfl, -⟩ := h
  exact ⟨rfl, rfl⟩

/-- A lock that is replaced has its power computed. -/
theorem refreshTotalPower_replaces {l : Option LockInfo} (ledger : Token Address)
    (h : refreshTotalPower (setLock { v with ledger } a l) a = .ok w') :
    getLock w' = Function.update (getLock v) a (l.getD ⟨0, 0⟩) ∧ w'.now = v.now ∧
      (0 ≤ (l.getD ⟨0, 0⟩).amount → (l.getD ⟨0, 0⟩).scaled v.now ≤ maxI128) := by
  have hlock : getLock (setLock { v with ledger } a l) =
      Function.update (getLock v) a (l.getD ⟨0, 0⟩) := getLock_setLock l
  simp only [refreshTotalPower, bind_eq_ok, pure_eq_ok] at h
  obtain ⟨power, hpower, -, -, -, -, rfl⟩ := h
  refine ⟨hlock, rfl, fun hnonneg => ?_⟩
  have hfits := votingPower_fits hpower
  rw [hlock, Function.update_self] at hfits
  exact hfits hnonneg

section Entry
variable {duration : ℕ} {amount : ℤ}

theorem lock_effect (h : lock self signers w a amount duration = .ok w') :
    LockEffect w w' (.lock a amount duration) := by
  simp only [lock, bind_eq_ok, requireAuth_eq_ok, bail_eq_ok, u64_eq_ok, not_or, not_le,
    not_lt] at h
  obtain ⟨-, -, -, hamt, -, hduration, -, -, _, ⟨-, rfl⟩, ⟨v, p⟩, hsettle, newAmount, hnew, ledger,
    -, hrefresh⟩ := h
  obtain ⟨-, rfl⟩ := (i128_eq_ok _ _).mp hnew
  obtain ⟨hlock, hnow⟩ := settleFeeAccount_keeps hsettle
  obtain ⟨hreplaced, hnow', hfits⟩ := refreshTotalPower_replaces ledger hrefresh
  simp only [hlock, hnow, Option.getD_some] at hreplaced hnow' hfits
  refine .replaced a _ hreplaced hnow' (fun s => ?_) fun _ => ?_
  · have hnonneg : 0 ≤ (getLock w a).amount + amount := add_nonneg s.nonneg hamt.le
    refine ⟨hnonneg, ?_, hfits hnonneg⟩
    have hwithin := s.within
    simp only
    split_ifs <;> omega
  · simp only
    split_ifs <;> omega

theorem extendLock_effect (h : extendLock signers w a duration = .ok w') :
    LockEffect w w' (.extendLock a duration) := by
  simp only [extendLock, bind_eq_ok, requireAuth_eq_ok, bail_eq_ok, uSub_eq_ok, not_le,
    not_lt] at h
  obtain ⟨-, -, -, -, -, hpos, proposed, -, -, hahead, _, ⟨hnow, rfl⟩, -, hspan, ⟨v, p⟩, hsettle,
    hrefresh⟩ := h
  obtain ⟨hlock, hnow'⟩ := settleFeeAccount_keeps hsettle
  obtain ⟨hreplaced, hnow'', hfits⟩ := refreshTotalPower_replaces v.ledger hrefresh
  simp only [hlock, hnow', Option.getD_some] at hreplaced hnow'' hfits
  refine .replaced a _ hreplaced hnow'' (fun s => ⟨s.nonneg, ?_, hfits s.nonneg⟩) fun _ => hahead.le
  simp only
  omega

theorem withdraw_effect (h : withdraw self signers w a = .ok (w', amount)) :
    LockEffect w w' (.withdraw a) := by
  simp only [withdraw, bind_eq_ok, requireAuth_eq_ok, bail_eq_ok, pure_eq_ok, Prod.mk.injEq] at h
  obtain ⟨-, -, -, -, -, -, ⟨v, p⟩, hsettle, -, -, ledger, -, _, hrefresh, rfl, rfl⟩ := h
  obtain ⟨hlock, hnow⟩ := settleFeeAccount_keeps hsettle
  obtain ⟨hreplaced, hnow', -⟩ := refreshTotalPower_replaces (l := none) ledger hrefresh
  simp only [hlock, hnow, Option.getD_none] at hreplaced hnow'
  exact .replaced a _ hreplaced hnow' (fun _ => .none) False.elim

theorem claimFees_keeps {paid : ℤ} (h : claimFees self signers w a = .ok (w', paid)) :
    getLock w' = getLock w ∧ w'.now = w.now := by
  simp only [claimFees, bind_eq_ok, pure_eq_ok, Prod.mk.injEq] at h
  obtain ⟨-, -, ⟨v, p⟩, hsettle, -, -, -, -, ledger, -, rfl, -⟩ := h
  obtain ⟨hlock, hnow⟩ := settleFeeAccount_keeps hsettle
  exact ⟨hlock, hnow⟩

theorem distributeFees_keeps (h : distributeFees self signers w amount = .ok w') :
    getLock w' = getLock w ∧ w'.now = w.now := by
  simp only [distributeFees, bind_eq_ok, pure_eq_ok] at h
  obtain ⟨-, -, -, -, -, -, -, -, -, -, -, -, -, -, -, -, rfl⟩ := h
  exact ⟨rfl, rfl⟩

end Entry

theorem step_lockEffect {tx : Transaction Address} {out : ℤ}
    (h : step self w tx = .ok (w', out)) : LockEffect w w' tx.op := by
  obtain ⟨signers, op⟩ := tx
  cases op with simp only [step, bind_eq_ok, pure_eq_ok, Prod.mk.injEq] at h
  | initializeContract tok trea =>
    simp only [initializeContract, bind_eq_ok, pure_eq_ok] at h
    obtain ⟨_, ⟨-, -, rfl⟩, rfl, -⟩ := h
    exact .kept rfl le_rfl
  | lock caller amount duration =>
    obtain ⟨_, h, rfl, -⟩ := h
    exact lock_effect h
  | extendLock caller duration =>
    obtain ⟨_, h, rfl, -⟩ := h
    exact extendLock_effect h
  | withdraw caller => exact withdraw_effect h
  | distributeFees amount =>
    obtain ⟨_, h, rfl, -⟩ := h
    obtain ⟨hlock, hnow⟩ := distributeFees_keeps h
    exact .kept hlock hnow.ge
  | claimFees caller =>
    obtain ⟨hlock, hnow⟩ := claimFees_keeps h
    exact .kept hlock hnow.ge
  | advance seconds =>
    simp only [u64_eq_ok] at h
    obtain ⟨_, ⟨-, rfl⟩, rfl, -⟩ := h
    exact .kept rfl (Nat.le_add_right _ _)
  | transfer src dst amount =>
    obtain ⟨_, -, ledger, -, rfl, -⟩ := h
    exact .kept rfl le_rfl

/-! ### Runs -/

theorem LockEffect.sound {op : Op Address} (e : LockEffect w w' op)
    (s : ∀ a, (getLock w a).Sound w.now) : ∀ a, (getLock w' a).Sound w'.now := by
  cases e with
  | kept locks later =>
    intro b
    rw [locks]
    exact (s b).advance later
  | replaced a l locks now sound ahead =>
    rw [locks, now]
    exact (Function.forall_update_iff _ fun _ (l : LockInfo) => l.Sound w.now).mpr
      ⟨sound (s a), fun b _ => s b⟩

theorem LockEffect.ahead {op : Op Address} (e : LockEffect w w' op) (h : op.Locks)
    (b : Address) : (getLock w b).unlockAt ≤ (getLock w' b).unlockAt := by
  cases e with
  | kept locks => rw [locks]
  | replaced a l locks now sound ahead =>
    rw [locks]
    by_cases hb : b = a
    · rw [hb, Function.update_self]
      exact ahead h
    · rw [Function.update_of_ne hb]

/-- In every run the total power is that of the recorded powers and at least that of the
live powers, an account's live power is at most what it locked, a lock ends at most the
longest lock time ahead, and locking or extending never brings its end forward. -/
theorem power_accounted (self : Address) (now : ℕ) (ledger : Token Address)
    (calls : List (Transaction Address)) :
    let r := run (step self) (deployed now ledger) calls
    HasTotal (fun a => (feeAccount r.1 a).recordedPower) (feeCheckpoint r.1).totalPower ∧
      (∃ power : Address → ℤ, (∀ a, votingPower r.1 a = .ok (power a) ∧
          0 ≤ power a ∧ power a ≤ (getLock r.1 a).amount) ∧
        ∃ n, HasTotal power n ∧ n ≤ (feeCheckpoint r.1).totalPower) ∧
      (∀ a, (getLock r.1 a).unlockAt ≤ r.1.now + maxLockTime) ∧
      ∀ x ∈ r.2, x.call.op.Locks →
        ∀ a, (getLock x.pre a).unlockAt ≤ (getLock x.post a).unlockAt := by
  intro r
  have b : Books self r.1 (distributed r.2 - paidOut r.2) := books_run self now ledger calls
  have hinit : ∀ a, (getLock (deployed now ledger) a).Sound now := fun _ => .none
  have hsound : ∀ a, (getLock r.1 a).Sound r.1.now :=
    run_invariant (I := fun w => ∀ a, (getLock w a).Sound w.now)
      (fun x accepted s => (step_lockEffect accepted).sound s) hinit calls
  refine ⟨b.backed.total, ⟨livePower r.1, fun a => ?_, ?_⟩, fun a => (hsound a).within,
    fun x hx hlocks a => ?_⟩
  · obtain ⟨hview, hle⟩ := votingPower_of_sound (hsound a)
    exact ⟨hview, livePower_nonneg r.1 a, hle⟩
  · -- what is not recorded is not live
    obtain ⟨n, hn⟩ := b.backed.total.exists_of_support fun a hzero =>
      le_antisymm ((b.live_le a).trans hzero.le) (livePower_nonneg r.1 a)
    exact ⟨n, hn, hn.mono b.backed.total b.live_le⟩
  · exact (step_lockEffect (mem_run.mp hx).2).ahead hlocks a

end RefractContracts.VeToken
