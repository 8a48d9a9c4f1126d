import RefractContracts.Host.Storage
import RefractContracts.Timelock.Contract

/-! What an accepted transaction of the timelock does. A sweep drives each due
operation once, so it is described entry by entry; the entry points are unfolded
here, and properties of runs are case analyses on these effects. -/

namespace RefractContracts.Timelock

open Host

variable {Address : Type}

/-- The record `queue` stores. -/
def pendingOperation (target : Address) (function : Symbol) (args : List (Val Address)) (eta : ℕ) :
    TimelockOperation Address :=
  { target, function, args, eta, status := .pending
    failureCode := 0, attemptCount := 0, lastFailedAt := 0 }

/-- The record of an operation whose call was made at time `now`. -/
def TimelockOperation.driven (op : TimelockOperation Address) (result : CallResult) (now : ℕ) :
    TimelockOperation Address :=
  match result with
  | .ok () => { op with status := .executed }
  | .error e => op.fail e now

/-- The entry for `id` after the due operations among `ids` were driven. -/
def sweptEntry (w : World Address) (results : ℕ → CallResult) (ids : List ℕ) (id : ℕ) :
    Option (TimelockOperation Address) :=
  (w.operationEntry id).map fun op =>
    if id ∈ ids ∧ isDue w.now op = true then op.driven (results id) w.now else op

@[simp] theorem isDue_iff (now : ℕ) (op : TimelockOperation Address) :
    isDue now op = true ↔ op.status = .pending ∧ op.eta ≤ now := by
  simp [isDue]

variable {w w' : World Address} {id : ℕ} {op : TimelockOperation Address} {result : CallResult}

theorem forward_eq (w : World Address) (id : ℕ) (op : TimelockOperation Address)
    (result : CallResult) : (forward w id op result).1 =
      { setOperation w id (op.driven result w.now) with
        sent := (forward w id op result).1.sent } := by
  rcases result with e | ⟨⟩
  · simp [forward, setOperation, TimelockOperation.driven]
  · rfl

theorem forward_returned (h : forward w id op result = (w', true)) :
    result = .ok () ∧ w' = { setOperation w id { op with status := .executed } with
      sent := w.sent ++ [⟨id, w.now⟩] } := by
  unfold forward at h
  split at h
  · exact ⟨rfl, (congrArg Prod.fst h).symm⟩
  · cases congrArg Prod.snd h

/-! ### Sweeps -/

section Sweeps
variable {results : ℕ → CallResult} {ids : List ℕ}

theorem sweptEntry_absent (habsent : w.operationEntry id = none) :
    sweptEntry w results [id] = w.operationEntry := by
  funext j
  by_cases hj : j = id
  · subst hj
    simp [sweptEntry, habsent]
  · simp [sweptEntry, hj]

theorem sweptEntry_found (found : w.operationEntry id = some op) :
    sweptEntry w results [id] = Function.update w.operationEntry id
      (some (if isDue w.now op = true then op.driven (results id) w.now else op)) := by
  funext j
  by_cases hj : j = id
  · subst hj
    simp [sweptEntry, found]
  · simp [sweptEntry, hj]

/-- A round drives its operation if that is due. -/
theorem sweepOne_eq (results : ℕ → CallResult) (acc : World Address × ℕ × ℕ) (id : ℕ) :
    (sweepOne results acc id).1 = { acc.1 with
      operationEntry := sweptEntry acc.1 results [id]
      sent := (sweepOne results acc id).1.sent } := by
  obtain ⟨w, executed, failed⟩ := acc
  cases hop : w.operationEntry id with
  | none => simp [sweepOne, hop, sweptEntry_absent hop]
  | some op =>
    by_cases hdue : isDue w.now op = true
    · have hround : (sweepOne results (w, executed, failed) id).1 =
          (forward w id op (results id)).1 := by
        simp only [sweepOne, hop, hdue, if_true]
        split
        · next h => rw [h]
        · next h => rw [h]
      rw [hround, forward_eq, sweptEntry_found hop, if_pos hdue]
      rfl
    · have hsame : Function.update w.operationEntry id (some op) = w.operationEntry := by
        rw [← hop, Function.update_eq_self]
      rw [sweptEntry_found hop, if_neg hdue, hsame]
      simp [sweepOne, hop, hdue]

/-- Rounds for distinct ids do not meet. -/
theorem sweptEntry_cons (hid : id ∉ ids) (hnow : w'.now = w.now)
    (hentry : w'.operationEntry = sweptEntry w results [id]) :
    sweptEntry w' results ids = sweptEntry w results (id :: ids) := by
  funext j
  rw [sweptEntry, hentry, hnow]
  by_cases hj : j = id
  · subst hj
    cases hop : w.operationEntry j <;> simp [sweptEntry, hop, hid]
  · cases hop : w.operationEntry j <;> simp [sweptEntry, hop, hj]

/-- A sweep over distinct ids drives the due operations among them. -/
theorem foldl_sweepOne (results : ℕ → CallResult) (hids : ids.Nodup)
    (acc : World Address × ℕ × ℕ) :
    (ids.foldl (sweepOne results) acc).1 = { acc.1 with
      operationEntry := sweptEntry acc.1 results ids
      sent := (ids.foldl (sweepOne results) acc).1.sent } := by
  induction ids generalizing acc with
  | nil =>
    have hnone : sweptEntry acc.1 results [] = acc.1.operationEntry := by
      funext j
      simp [sweptEntry]
    rw [hnone]
    rfl
  | cons id ids ih =>
    obtain ⟨hid, hids⟩ := List.nodup_cons.mp hids
    have hround := sweepOne_eq results acc id
    have hcons : sweptEntry (sweepOne results acc id).1 results ids =
        sweptEntry acc.1 results (id :: ids) := by
      refine sweptEntry_cons hid ?_ ?_ <;> rw [hround]
    rw [List.foldl_cons, ih hids, hcons, hround]

theorem sweep_eq (w : World Address) (results : ℕ → CallResult) :
    (sweep w results).1 = { w with
      operationEntry := sweptEntry w results (List.range (nextId w))
      sent := (sweep w results).1.sent } :=
  foldl_sweepOne results List.nodup_range (w, 0, 0)

end Sweeps

/-! ### Effects -/

/-- The administrator's changes of status, each by its entry point. -/
def Op.retires : Op Address → Option (ℕ × OperationStatus × OperationStatus)
  | .cancel id => some (id, .pending, .cancelled)
  | .cancelFailed id => some (id, .failed, .cancelled)
  | .expire id => some (id, .pending, .expired)
  | _ => none

/-- The single calls, each with the status it starts from. -/
def Op.drives : Op Address → Option (ℕ × OperationStatus × CallResult)
  | .execute id result => some (id, .pending, result)
  | .retry id result => some (id, .failed, result)
  | _ => none

inductive Effect (signers : List Address) (w : World Address) :
    World Address → Op Address → Answer → Prop
  | initialized {admin minDelay} (first : w.adminEntry = none) :
      Effect signers w { w with
          adminEntry := some admin, minDelayEntry := some minDelay, nextIdEntry := some 0 }
        (.initializeContract admin minDelay) .unit
  | queued {target function args eta} (administered : w.adminEntry.isSome)
      (delayed : w.now + minDelay w ≤ eta) :
      Effect signers w { setOperation w (nextId w) (pendingOperation target function args eta) with
          nextIdEntry := some (nextId w + 1) }
        (.queue target function args eta) (.id (nextId w))
  | executed {call id src op} (kind : call.drives = some (id, src, .ok ()))
      (found : w.operationEntry id = some op) (status : op.status = src) (ripe : op.eta ≤ w.now) :
      Effect signers w { setOperation w id { op with status := .executed } with
          sent := w.sent ++ [⟨id, w.now⟩] } call .unit
  | retired {call id src dst op admin} (kind : call.retires = some (id, src, dst))
      (stored : w.adminEntry = some admin) (signed : admin ∈ signers)
      (found : w.operationEntry id = some op) (status : op.status = src) :
      Effect signers w (setOperation w id { op with status := dst }) call .unit
  | keeperSet {rewardPerCall capPerEpoch epochLenSecs} (capped : 0 ≤ capPerEpoch) :
      Effect signers w { w with
          keeperEntry := some ⟨rewardPerCall, capPerEpoch, epochLenSecs, w.now, 0⟩ }
        (.setKeeperConfig rewardPerCall capPerEpoch epochLenSecs) .unit
  | swept {caller results keeper executed failed reward} (signed : caller ∈ signers)
      (settled : settleKeeperEpoch (sweep w results).1 executed =
        .ok ({ (sweep w results).1 with keeperEntry := some keeper }, reward)) :
      Effect signers w { (sweep w results).1 with keeperEntry := some keeper }
        (.executeDue caller results) (.swept executed failed reward)
  | advanced {seconds} : Effect signers w { w with now := w.now + seconds } (.advance seconds) .unit

variable [DecidableEq Address] {signers : List Address} {out : Answer}

omit [DecidableEq Address] in
theorem forwardFrom_ok {src : OperationStatus} {wrong early : TimelockError} {call : Op Address}
    (kind : call.drives = some (id, src, result))
    (h : forwardFrom w id src wrong early result = .ok w') :
    Effect signers w w' call .unit := by
  simp only [forwardFrom, bind_eq_ok, okOr_eq_ok, bail_eq_ok, not_not, not_lt] at h
  obtain ⟨op, found, -, hstatus, -, ripe, -, returned, h⟩ := h
  have hw' : w' = (forward w id op result).1 := ((pure_eq_ok _ _).mp h).symm
  have hf : forward w id op result = (w', true) := Prod.ext hw'.symm (by simpa using returned)
  obtain ⟨rfl, rfl⟩ := forward_returned hf
  exact .executed kind found hstatus ripe

theorem queue_ok {target : Address} {function : Symbol} {args : List (Val Address)} {eta : ℕ}
    (h : queue signers w target function args eta = .ok (w', id)) :
    id = nextId w ∧ w.adminEntry.isSome ∧ w.now + minDelay w ≤ eta ∧
      w' = { setOperation w (nextId w) (pendingOperation target function args eta) with
        nextIdEntry := some (nextId w + 1) } := by
  simp only [queue, requireAdmin, bind_eq_ok, okOr_eq_ok, bail_eq_ok, u64_eq_ok, not_lt,
    pure_eq_ok, Prod.mk.injEq] at h
  obtain ⟨_, ⟨admin, hadmin, -⟩, _, ⟨-, rfl⟩, -, delayed, _, ⟨-, rfl⟩, rfl, rfl⟩ := h
  exact ⟨rfl, by simp [hadmin], delayed, rfl⟩

theorem retire_ok {src dst : OperationStatus} {e : TimelockError} {call : Op Address}
    (kind : call.retires = some (id, src, dst)) (h : retire signers w id src dst e = .ok w') :
    Effect signers w w' call .unit := by
  simp only [retire, requireAdmin, bind_eq_ok, okOr_eq_ok, requireAuth_eq_ok, bail_eq_ok, not_not,
    pure_eq_ok] at h
  obtain ⟨_, ⟨admin, hadmin, hsigned⟩, op, found, -, hstatus, rfl⟩ := h
  exact .retired kind hadmin hsigned found hstatus

omit [DecidableEq Address] in
theorem settleKeeperEpoch_ok {executed : ℕ} {reward : ℤ}
    (h : settleKeeperEpoch w executed = .ok (w', reward)) :
    ∃ keeper, w' = { w with keeperEntry := some keeper } := by
  simp only [settleKeeperEpoch, bind_eq_ok] at h
  obtain ⟨_, -, h⟩ := h
  split at h
  · obtain ⟨rfl, -⟩ := Prod.mk.inj ((pure_eq_ok _ _).mp h)
    exact ⟨_, rfl⟩
  · simp only [bind_eq_ok, pure_eq_ok] at h
    obtain ⟨_, -, _, -, h⟩ := h
    obtain ⟨rfl, -⟩ := Prod.mk.inj h
    exact ⟨_, rfl⟩

theorem executeDue_ok {keeper : Address} {results : ℕ → CallResult} {executed failed : ℕ}
    {reward : ℤ}
    (h : executeDue signers w keeper results = .ok (w', executed, failed, reward)) :
    Effect signers w w' (.executeDue keeper results) (.swept executed failed reward) := by
  simp only [executeDue, bind_eq_ok, requireAuth_eq_ok, pure_eq_ok, Prod.mk.injEq,
    Prod.exists] at h
  obtain ⟨_, hsigned, _, _, hs, rfl, rfl, -, rfl⟩ := h
  obtain ⟨keeper', rfl⟩ := settleKeeperEpoch_ok hs
  exact .swept hsigned hs

/-- An accepted transaction has the effect of its entry point. -/
theorem step_effect {tx : Transaction Address} (h : step w tx = .ok (w', out)) :
    Effect tx.signers w w' tx.op out := by
  obtain ⟨signers, op⟩ := tx
  cases op with
  | initializeContract admin minDelay =>
    simp only [step, initializeContract, bind_eq_ok, bail_eq_ok, pure_eq_ok, Prod.mk.injEq,
      Option.not_isSome_iff_eq_none] at h
    obtain ⟨_, ⟨-, first, -, -, rfl⟩, rfl, rfl⟩ := h
    exact .initialized first
  | queue target function args eta =>
    simp only [step, bind_eq_ok, pure_eq_ok, Prod.mk.injEq, Prod.exists] at h
    obtain ⟨_, _, hq, rfl, rfl⟩ := h
    obtain ⟨rfl, administered, delayed, rfl⟩ := queue_ok hq
    exact .queued administered delayed
  | execute id result =>
    simp only [step, execute, bind_eq_ok, pure_eq_ok, Prod.mk.injEq] at h
    obtain ⟨_, hf, rfl, rfl⟩ := h
    exact forwardFrom_ok rfl hf
  | cancel id =>
    simp only [step, cancel, bind_eq_ok, pure_eq_ok, Prod.mk.injEq] at h
    obtain ⟨_, hr, rfl, rfl⟩ := h
    exact retire_ok rfl hr
  | retry id result =>
    simp only [step, retry, bind_eq_ok, pure_eq_ok, Prod.mk.injEq] at h
    obtain ⟨_, hf, rfl, rfl⟩ := h
    exact forwardFrom_ok rfl hf
  | cancelFailed id =>
    simp only [step, cancelFailed, bind_eq_ok, pure_eq_ok, Prod.mk.injEq] at h
    obtain ⟨_, hr, rfl, rfl⟩ := h
    exact retire_ok rfl hr
  | expire id =>
    simp only [step, expire, bind_eq_ok, pure_eq_ok, Prod.mk.injEq] at h
    obtain ⟨_, hr, rfl, rfl⟩ := h
    exact retire_ok rfl hr
  | setKeeperConfig rewardPerCall capPerEpoch epochLenSecs =>
    simp only [step, setKeeperConfig, bind_eq_ok, bail_eq_ok, not_or, not_lt, pure_eq_ok,
      Prod.mk.injEq] at h
    obtain ⟨_, ⟨_, -, _, ⟨-, capped, -⟩, rfl⟩, rfl, rfl⟩ := h
    exact .keeperSet capped
  | executeDue keeper results =>
    simp only [step, bind_eq_ok, pure_eq_ok, Prod.mk.injEq, Prod.exists] at h
    obtain ⟨_, executed, failed, reward, hd, rfl, rfl⟩ := h
    exact executeDue_ok hd
  | advance seconds =>
    simp only [step, bind_eq_ok, u64_eq_ok, pure_eq_ok, Prod.mk.injEq] at h
    obtain ⟨_, ⟨-, rfl⟩, rfl, rfl⟩ := h
    exact .advanced

end RefractContracts.Timelock
