import RefractContracts.Timelock.Operations

/-! Failed target calls. A sweep commits the failure of each of its calls, while
`execute` and `retry` write the same record and then return an error, on which
the host discards it. The sweep itself is refused only where the end of the
keeper's epoch is no `u64`. The record of a contract's error lacks its code: the
SDK converts every error of a call and answers `.ok`, and only errors that could
not be converted are looked at. -/

namespace RefractContracts.Timelock

open Host

variable {Address : Type} {w w' : World Address} {id : ℕ} {op : TimelockOperation Address}
  {e : Except InvokeError InvokeError} {signers : List Address} {call : Op Address} {out : Answer}

/-! ### The keeper's epoch -/

/-- What the keeper spent in the epoch is within the cap, an `i128`. -/
structure KeeperConfig.Budgeted (cfg : KeeperConfig) : Prop where
  spent : 0 ≤ cfg.epochSpent
  capped : cfg.epochSpent ≤ cfg.capPerEpoch
  fits : cfg.capPerEpoch ≤ maxI128

theorem KeeperConfig.Budgeted.roll {cfg : KeeperConfig} (b : cfg.Budgeted) (now : ℕ) :
    (cfg.roll now).Budgeted := by
  unfold KeeperConfig.roll
  split_ifs
  · exact ⟨le_rfl, b.spent.trans b.capped, b.fits⟩
  · exact b

/-- The epoch ends at a time the ledger can show. -/
def EpochFits (w : World Address) : Prop :=
  (keeperConfig w).epochStart + (keeperConfig w).epochLenSecs ≤ maxU64

theorem reward_bounds (due : ℤ) {room : ℤ} (hroom : 0 ≤ room) :
    let paid := if due < room then due else room
    let reward := if paid < 0 then 0 else paid
    0 ≤ reward ∧ reward ≤ room := by
  intro paid reward
  have hpaid : paid ≤ room := by
    unfold paid
    split_ifs with h
    · exact h.le
    · exact le_rfl
  unfold reward
  split_ifs with h
  · exact ⟨le_rfl, hroom⟩
  · exact ⟨not_lt.mp h, hpaid⟩

/-- The settlement of an epoch that fits is accepted, and stays within the budget. -/
theorem settleKeeperEpoch_total (b : (keeperConfig w).Budgeted) (hfits : EpochFits w)
    (executed : ℕ) : ∃ keeper reward, keeper.Budgeted ∧
      settleKeeperEpoch w executed = .ok ({ w with keeperEntry := some keeper }, reward) := by
  obtain ⟨hspent, hcapped, hcap⟩ := b.roll w.now
  unfold settleKeeperEpoch
  rw [(u64_eq_ok _ _).mpr ⟨hfits, rfl⟩, ok_bind]
  dsimp only
  generalize (keeperConfig w).roll w.now = cfg at *
  by_cases hidle : executed = 0 ∨ cfg.rewardPerCall ≤ 0
  · rw [if_pos hidle]
    exact ⟨cfg, 0, ⟨hspent, hcapped, hcap⟩, rfl⟩
  · have hroom : 0 ≤ cfg.capPerEpoch - cfg.epochSpent := by omega
    rw [if_neg hidle, i128_of_nonneg hroom (by omega), ok_bind]
    generalize (if minI128 ≤ (executed : ℤ) * cfg.rewardPerCall ∧
      executed * cfg.rewardPerCall ≤ maxI128 then executed * cfg.rewardPerCall else maxI128) = due
    obtain ⟨hpos, hle⟩ := reward_bounds due hroom
    generalize (if (if due < cfg.capPerEpoch - cfg.epochSpent then due
      else cfg.capPerEpoch - cfg.epochSpent) < 0 then (0 : ℤ) else _) = reward at hpos hle ⊢
    rw [i128_of_nonneg (by omega) (by omega), ok_bind]
    exact ⟨{ cfg with epochSpent := cfg.epochSpent + reward }, reward,
      ⟨by dsimp only; omega, by dsimp only; omega, hcap⟩, rfl⟩

theorem settleKeeperEpoch_fits {executed : ℕ} {r : World Address × ℤ}
    (h : settleKeeperEpoch w executed = .ok r) : EpochFits w := by
  simp only [settleKeeperEpoch, bind_eq_ok, u64_eq_ok] at h
  obtain ⟨_, ⟨hfits, -⟩, -⟩ := h
  exact hfits

theorem sweep_keeperConfig (w : World Address) (results : ℕ → CallResult) :
    keeperConfig (sweep w results).1 = keeperConfig w := by
  unfold keeperConfig
  rw [sweep_eq]

/-! ### Reachable states -/

/-- The cap of a keeper configuration is an `i128`. -/
def Op.Typed : Op Address → Prop
  | .setKeeperConfig _ capPerEpoch _ => capPerEpoch ≤ maxI128
  | _ => True

/-- No pending operation has been tried. -/
def Untried (w : World Address) : Prop :=
  ∀ id op, w.operationEntry id = some op → op.status = .pending → op.attemptCount = 0

/-- A pending operation has not been tried, and the keeper keeps to the budget. -/
structure Steady (w : World Address) : Prop where
  logged : Logged w
  untried : Untried w
  budgeted : ∀ cfg, w.keeperEntry = some cfg → cfg.Budgeted

theorem steady_deployed (now : ℕ) : Steady (deployed Address now) :=
  ⟨logged_deployed now, nofun, nofun⟩

theorem Steady.keeperConfig (s : Steady w) : (keeperConfig w).Budgeted := by
  unfold Timelock.keeperConfig
  cases hcfg : w.keeperEntry with
  | none => exact ⟨le_rfl, le_rfl, zero_le_maxI128⟩
  | some cfg => exact s.budgeted cfg hcfg

theorem Retires.ne_pending {src dst : OperationStatus} (h : Retires src dst) : dst ≠ .pending := by
  rintro rfl
  cases h

/-- No move makes a stored operation pending. -/
theorem Move.untried (m : Move w w') (u : Untried w) : Untried w' := by
  cases m with
  | initialized | keeperSet | advanced => exact u
  | queued => exact forall_update u rfl fun _ => rfl
  | forwarded => exact forall_update u rfl nofun
  | failed => exact forall_update u rfl nofun
  | retired _ h => exact forall_update u rfl fun hdst => absurd hdst h.ne_pending

theorem Moves.untried (m : Moves w w') (u : Untried w) : Untried w' := by
  induction m with
  | refl => exact u
  | tail _ last ih => exact last.untried ih

theorem Effect.budgeted (ef : Effect signers w w' call out) (s : Steady w) (htyped : call.Typed) :
    ∀ cfg, w'.keeperEntry = some cfg → cfg.Budgeted := by
  cases ef with
  | keeperSet capped =>
    rintro cfg ⟨⟩
    exact ⟨le_rfl, capped, htyped⟩
  | @swept caller results keeper executed failed reward signed settled =>
    rintro cfg ⟨⟩
    have hcfg := sweep_keeperConfig w results
    obtain ⟨keeper', reward', b, h⟩ := settleKeeperEpoch_total (hcfg ▸ s.keeperConfig)
      (settleKeeperEpoch_fits settled) executed
    obtain ⟨hworld, -⟩ := Prod.mk.inj (Except.ok.inj (h.symm.trans settled))
    have hkeeper : some keeper' = some keeper := congrArg World.keeperEntry hworld
    exact Option.some.inj hkeeper ▸ b
  | _ => exact s.budgeted

/-! ### Failures on record -/

/-- The transaction makes the call of a stored operation that is due, and the
call fails with `e`. -/
inductive FailsDue (w : World Address) (id : ℕ) (op : TimelockOperation Address)
    (e : Except InvokeError InvokeError) : Transaction Address → Prop
  | execute {auths} (found : w.operationEntry id = some op) (pending : op.status = .pending)
      (ripe : op.eta ≤ w.now) : FailsDue w id op e ⟨auths, .execute id (.error e)⟩
  | retry {auths} (found : w.operationEntry id = some op) (failed : op.status = .failed)
      (ripe : op.eta ≤ w.now) : FailsDue w id op e ⟨auths, .retry id (.error e)⟩
  | sweep {auths keeper results} (signed : keeper ∈ auths)
      (found : w.operationEntry id = some op) (pending : op.status = .pending)
      (ripe : op.eta ≤ w.now) (hcall : results id = .error e) :
      FailsDue w id op e ⟨auths, .executeDue keeper results⟩

/-- The error of a failed call, converted or not. -/
def failure : Except InvokeError InvokeError → InvokeError
  | .ok e => e
  | .error e => e

/-- The code of a contract's error, 0 for an abort of the host. -/
def InvokeError.code : InvokeError → ℕ
  | .contract c => c
  | .abort => 0

/-- A contract's error with a code, in the form in which the SDK hands it on. -/
def Coded (e : Except InvokeError InvokeError) : Prop := ∃ c, e = .ok (.contract c) ∧ c ≠ 0

theorem codeOf_eq_iff : codeOf e = (failure e).code ↔ ¬ Coded e := by
  rcases e with (_ | c) | (_ | c)
  · exact iff_of_true rfl (by rintro ⟨_, ⟨⟩, -⟩)
  · exact iff_of_true rfl (by rintro ⟨_, ⟨⟩, -⟩)
  · exact iff_of_true rfl (by rintro ⟨_, ⟨⟩, -⟩)
  · constructor
    · rintro hcode ⟨_, ⟨⟩, hne⟩
      exact hne hcode.symm
    · intro hcoded
      by_contra hne
      exact hcoded ⟨c, rfl, Ne.symm hne⟩

/-- The sweep of a keeper whose epoch ends at a time the ledger can show. -/
def SweepsInEpoch (w : World Address) (tx : Transaction Address) : Prop :=
  (∃ keeper results, tx.op = .executeDue keeper results) ∧ EpochFits w

section Recorded
variable [DecidableEq Address]

/-- The state `w` records that the call failed at time `now` and with what code, and
the operation can be retried or cancelled as failed. -/
structure Recorded (w : World Address) (id : ℕ) (op : TimelockOperation Address)
    (e : Except InvokeError InvokeError) (now : ℕ) : Prop where
  stored : w.operationEntry id = some { op with
    status := .failed
    failureCode := (failure e).code
    attemptCount := op.attemptCount + 1
    lastFailedAt := now }
  retried : ∀ signers, ∃ w', step w ⟨signers, .retry id (.ok ())⟩ = .ok (w', .unit)
  cancelled : ∃ admin, w.adminEntry = some admin ∧
    ∀ signers, admin ∈ signers → ∃ w', step w ⟨signers, .cancelFailed id⟩ = .ok (w', .unit)

omit [DecidableEq Address] in
/-- Whatever a single call wrote about its failure is discarded with it. -/
theorem forwardFrom_fails (w : World Address) (id : ℕ) (src : OperationStatus)
    (wrong early : TimelockError) :
    ∃ err, forwardFrom w id src wrong early (.error e) = .error err := by
  cases h : forwardFrom w id src wrong early (.error e) with
  | error err => exact ⟨err, rfl⟩
  | ok w' =>
    simp only [forwardFrom, bind_eq_ok, okOr_eq_ok, bail_eq_ok] at h
    obtain ⟨op, -, -, -, -, -, -, returned, -⟩ := h
    exact absurd rfl returned

omit [DecidableEq Address] in
theorem forwardFrom_returns {src : OperationStatus} (wrong early : TimelockError)
    (found : w.operationEntry id = some op) (status : op.status = src) (ripe : op.eta ≤ w.now) :
    ∃ w', forwardFrom w id src wrong early (.ok ()) = .ok w' := by
  simp only [forwardFrom, bind_eq_ok, okOr_eq_ok, bail_eq_ok, pure_eq_ok, not_not, not_lt]
  refine ⟨_, op, found, (), status, (), ripe, (), ?_, rfl⟩
  rintro ⟨⟩

/-- A record of the failure is there to be retried and cancelled. -/
theorem recorded_of_stored {now : ℕ} (stored : w.operationEntry id = some { op with
      status := .failed
      failureCode := (failure e).code
      attemptCount := op.attemptCount + 1
      lastFailedAt := now })
    (ripe : op.eta ≤ w.now) (administered : w.adminEntry.isSome) : Recorded w id op e now := by
  obtain ⟨admin, hadmin⟩ := Option.isSome_iff_exists.mp administered
  refine ⟨stored, fun signers => ?_, admin, hadmin, fun signers signed => ?_⟩
  · obtain ⟨w', h⟩ := forwardFrom_returns .notFailed .retryTooSoon stored rfl ripe
    refine ⟨w', ?_⟩
    simp only [step, retry, bind_eq_ok, pure_eq_ok]
    exact ⟨w', h, rfl⟩
  · simp only [step, cancelFailed, retire, requireAdmin, bind_eq_ok, okOr_eq_ok, requireAuth_eq_ok,
      bail_eq_ok, pure_eq_ok]
    exact ⟨_, _, ⟨(), ⟨admin, hadmin, signed⟩, _, stored, (), not_not.mpr rfl, rfl⟩, rfl⟩

omit [DecidableEq Address] in
/-- The sweep stores the failure of a call that it makes. -/
theorem sweep_stored {results : ℕ → CallResult} (s : Steady w)
    (found : w.operationEntry id = some op) (pending : op.status = .pending) (ripe : op.eta ≤ w.now)
    (hcall : results id = .error e) : (sweep w results).1.operationEntry id = some { op with
      status := .failed
      failureCode := codeOf e
      attemptCount := op.attemptCount + 1
      lastFailedAt := w.now } := by
  have hid : id < nextId w := by
    by_contra hid
    cases (s.logged.fresh id (not_lt.mp hid)).symm.trans found
  have hfirst : u32SaturatingAdd op.attemptCount 1 = op.attemptCount + 1 := by
    rw [s.untried id op found pending]
    rfl
  rw [sweep_eq]
  simp [sweptEntry, found, hid, pending, ripe, hcall, TimelockOperation.driven,
    TimelockOperation.fail, hfirst]

theorem executeDue_total {keeper : Address} (results : ℕ → CallResult) (s : Steady w)
    (signed : keeper ∈ signers) (hfits : EpochFits w) : ∃ cfg answer,
      step w ⟨signers, .executeDue keeper results⟩ =
        .ok ({ (sweep w results).1 with keeperEntry := some cfg }, answer) := by
  have hcfg := sweep_keeperConfig w results
  have hfits' : EpochFits (sweep w results).1 := by
    unfold EpochFits
    rwa [hcfg]
  obtain ⟨cfg, reward, -, h⟩ := settleKeeperEpoch_total (hcfg ▸ s.keeperConfig) hfits'
    (sweep w results).2.1
  refine ⟨cfg, .swept (sweep w results).2.1 (sweep w results).2.2 reward, ?_⟩
  simp only [step, executeDue, bind_eq_ok, requireAuth_eq_ok, pure_eq_ok, Prod.exists]
  exact ⟨_, _, _, _, ⟨(), signed, _, _, h, rfl⟩, rfl⟩

theorem executeDue_fits {keeper : Address} {results : ℕ → CallResult}
    (h : step w ⟨signers, .executeDue keeper results⟩ = .ok (w', out)) : EpochFits w := by
  simp only [step, executeDue, bind_eq_ok, Prod.exists] at h
  obtain ⟨_, _, _, _, ⟨_, -, _, _, h, -⟩, -⟩ := h
  have hfits := settleKeeperEpoch_fits h
  unfold EpochFits at hfits
  rwa [sweep_keeperConfig] at hfits

/-- A failure is on record exactly if a sweep that fits its epoch made the call, and there
is no code to be lost. -/
theorem FailsDue.recorded_iff {tx : Transaction Address} (h : FailsDue w id op e tx)
    (s : Steady w) : Recorded (after step w tx) id op e w.now ↔ SweepsInEpoch w tx ∧ ¬ Coded e := by
  have single : ∀ {tx : Transaction Address}, (∃ err, step w tx = .error err) →
      w.operationEntry id = some op → ¬ Recorded (after step w tx) id op e w.now := by
    rintro tx ⟨err, herr⟩ found r
    rw [after_error herr] at r
    have hcount := congrArg (TimelockOperation.attemptCount)
      (Option.some.inj (found.symm.trans r.stored))
    exact absurd hcount (by simp)
  cases h with
  | @execute auths found pending ripe =>
    obtain ⟨err, herr⟩ := forwardFrom_fails (e := e) w id .pending .alreadyDone .notReady
    refine iff_of_false (single ⟨err, ?_⟩ found) (by rintro ⟨⟨⟨_, _, ⟨⟩⟩, -⟩, -⟩)
    simp only [step, Timelock.execute, herr]
    rfl
  | @retry auths found failed ripe =>
    obtain ⟨err, herr⟩ := forwardFrom_fails (e := e) w id .failed .notFailed .retryTooSoon
    refine iff_of_false (single ⟨err, ?_⟩ found) (by rintro ⟨⟨⟨_, _, ⟨⟩⟩, -⟩, -⟩)
    simp only [step, Timelock.retry, herr]
    rfl
  | @sweep auths keeper results signed found pending ripe hcall =>
    have hstored := sweep_stored s found pending ripe hcall
    constructor
    · intro r
      cases hstep : step w ⟨auths, .executeDue keeper results⟩ with
      | error err => exact absurd r (single ⟨err, hstep⟩ found)
      | ok wo =>
        have hfits := executeDue_fits hstep
        obtain ⟨cfg, answer, htotal⟩ := executeDue_total results s signed hfits
        rw [after_ok htotal] at r
        have hcode := congrArg TimelockOperation.failureCode
          (Option.some.inj (hstored.symm.trans r.stored))
        exact ⟨⟨⟨_, _, rfl⟩, hfits⟩, codeOf_eq_iff.mp hcode⟩
    · rintro ⟨hsweep, hcoded⟩
      obtain ⟨cfg, answer, hstep⟩ := executeDue_total results s signed hsweep.2
      rw [after_ok hstep]
      have hnow : (Timelock.sweep w results).1.now = w.now := by rw [sweep_eq]
      have hadmin : (Timelock.sweep w results).1.adminEntry = w.adminEntry := by rw [sweep_eq]
      rw [codeOf_eq_iff.mpr hcoded] at hstored
      refine recorded_of_stored hstored ?_ ?_
      · change op.eta ≤ (Timelock.sweep w results).1.now
        rwa [hnow]
      · change (Timelock.sweep w results).1.adminEntry.isSome
        rw [hadmin, Option.isSome_iff_ne_none]
        intro hnone
        cases (s.logged.unused hnone id).symm.trans found

/-! ### Runs -/

theorem steady_step {x : Receipt (World Address) (Transaction Address) Answer}
    (htyped : x.call.op.Typed) (accepted : step x.pre x.call = .ok (x.post, x.out))
    (s : Steady x.pre) : Steady x.post := by
  have ef := step_effect accepted
  exact ⟨ef.moves.logged s.logged, ef.moves.untried s.untried, ef.budgeted s htyped⟩

/-- In every run the failed call of a due operation is recorded as described exactly if a
keeper's sweep whose epoch fits the ledger made it and the failure is no contract error with
a code: a failed `execute` or `retry` leaves the operation as it was, and a sweep stores 0
for the code. -/
theorem recorded_iff_swept (now : ℕ) (txs : List (Transaction Address))
    (htyped : ∀ tx ∈ txs, tx.op.Typed) :
    ∀ p ∈ attempts step (deployed Address now) txs, ∀ id op e, FailsDue p.1 id op e p.2 →
      (Recorded (after step p.1 p.2) id op e p.1.now ↔ SweepsInEpoch p.1 p.2 ∧ ¬ Coded e) := by
  intro p hp id op e h
  have s : Steady p.1 := attempt_invariant_of (fun _ => steady_step) (steady_deployed now) htyped hp
  exact h.recorded_iff s

end Recorded

/-- A call queued by administrator 1 is due at time 10. -/
def queuedCall : List (Transaction ℕ) :=
  [⟨[1], .initializeContract 1 10⟩, ⟨[1], .queue 7 "pause" [] 10⟩, ⟨[], .advance 10⟩]

/-- The target refuses the call with its error 5. -/
def refusal : Except InvokeError InvokeError := .ok (.contract 5)

/-- The refused call is executed. -/
def failedCall : List (Transaction ℕ) := queuedCall ++ [⟨[], .execute 0 (.error refusal)⟩]

/-- The keeper 9 makes the refused call in a sweep. -/
def sweptCall : List (Transaction ℕ) := queuedCall ++ [⟨[9], .executeDue 9 fun _ => .error refusal⟩]

/-- After the failed `execute` the operation is pending and was never attempted; after the sweep
it is failed without the code 5. -/
theorem failedCall_unrecorded :
    ((run step (deployed ℕ 0) failedCall).1.operationEntry 0).map
        (fun op => (op.status, op.attemptCount)) = some (.pending, 0) ∧
      ((run step (deployed ℕ 0) sweptCall).1.operationEntry 0).map
        (fun op => (op.status, op.failureCode)) = some (.failed, 0) ∧
      (¬ ∀ p ∈ attempts step (deployed ℕ 0) failedCall, ∀ id op e, FailsDue p.1 id op e p.2 →
        Recorded (after step p.1 p.2) id op e p.1.now) ∧
      ¬ ∀ p ∈ attempts step (deployed ℕ 0) sweptCall, ∀ id op e, FailsDue p.1 id op e p.2 →
        Recorded (after step p.1 p.2) id op e p.1.now := by
  refine ⟨by decide, by decide, fun h => ?_, fun h => ?_⟩
  · let p := (attempts step (deployed ℕ 0) failedCall)[3]
    have hrecorded := h p (List.getElem_mem _) 0 (pendingOperation 7 "pause" [] 10) refusal
      (.execute rfl rfl (by decide))
    have hstatus := congrArg TimelockOperation.status (Option.some.inj hrecorded.stored)
    cases hstatus
  · have hrecorded := h (attempts step (deployed ℕ 0) sweptCall)[3] (List.getElem_mem _) 0
      (pendingOperation 7 "pause" [] 10) refusal (.sweep (by decide) rfl rfl (by decide) rfl)
    exact absurd (congrArg (Option.map TimelockOperation.failureCode) hrecorded.stored) (by decide)

/-- A sweep whose call aborts records it, and one whose call is refused with a code does not. -/
theorem recorded_iff_swept_sweptCall :
    let aborted := queuedCall ++ [⟨[9], .executeDue 9 fun _ => .error (.ok .abort)⟩]
    (∀ p ∈ attempts step (deployed ℕ 0) aborted, ∀ id op e, FailsDue p.1 id op e p.2 →
      (Recorded (after step p.1 p.2) id op e p.1.now ↔ SweepsInEpoch p.1 p.2 ∧ ¬ Coded e)) ∧
    ∀ p ∈ attempts step (deployed ℕ 0) sweptCall, ∀ id op e, FailsDue p.1 id op e p.2 →
      (Recorded (after step p.1 p.2) id op e p.1.now ↔ SweepsInEpoch p.1 p.2 ∧ ¬ Coded e) :=
  ⟨recorded_iff_swept 0 _ (by simp [queuedCall, Op.Typed]),
    recorded_iff_swept 0 _ (by simp [sweptCall, queuedCall, Op.Typed])⟩

end RefractContracts.Timelock
