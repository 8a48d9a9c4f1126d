import RefractContracts.Timelock.Keeper
import RefractContracts.Timelock.Life

/-! What a keeper's sweep does. It drives exactly the operations that `due_count` counts, and
each of them once, since a round rewrites no entry but its own. Its settlement of the keeper's
reward is total where the end of the epoch is a `u64`, and only there. -/

namespace RefractContracts.Timelock

open Host

variable {Address : Type} {w : World Address} {id : ℕ} {ids : List ℕ}
  {results : ℕ → CallResult}

/-! ### The due operations -/

/-- The operation `id` is stored and due. -/
def dueAt (w : World Address) (id : ℕ) : Bool := (w.operationEntry id).any (isDue w.now)

theorem dueAt_iff : dueAt w id = true ↔
    ∃ op, w.operationEntry id = some op ∧ op.status = .pending ∧ op.eta ≤ w.now := by
  simp [dueAt, Option.any_eq_true]

/-- A loop that counts. -/
theorem foldl_countP {f : ℕ → ℕ → ℕ} {p : ℕ → Bool}
    (h : ∀ count id, f count id = count + if p id = true then 1 else 0) (ids : List ℕ) (count : ℕ) :
    ids.foldl f count = count + ids.countP p := by
  induction ids generalizing count with
  | nil => rfl
  | cons id ids ih =>
    rw [List.foldl_cons, ih, h, List.countP_cons]
    omega

theorem dueCount_eq (w : World Address) :
    dueCount w = (List.range (nextId w)).countP (dueAt w) := by
  refine (foldl_countP (fun count id => ?_) _ 0).trans (zero_add _)
  unfold dueAt
  cases w.operationEntry id with
  | none => rfl
  | some op => cases hdue : isDue w.now op <;> simp [hdue]

theorem sweptEntry_dueAt (results : ℕ → CallResult) (hid : dueAt w id = true) (hmem : id ∈ ids) :
    ∃ op, w.operationEntry id = some op ∧ op.status = .pending ∧
      sweptEntry w results ids id = some (op.driven (results id) w.now) := by
  obtain ⟨op, found, pending, ripe⟩ := dueAt_iff.mp hid
  exact ⟨op, found, pending, by simp [sweptEntry, found, hmem, pending, ripe]⟩

theorem sweptEntry_not_dueAt (hid : ¬ dueAt w id = true) :
    sweptEntry w results ids id = w.operationEntry id := by
  cases found : w.operationEntry id with
  | none => simp [sweptEntry, found]
  | some op =>
    have hdue : ¬ isDue w.now op = true := fun h => hid (by rw [dueAt, found]; exact h)
    rw [sweptEntry, found, Option.map_some, if_neg fun h => hdue h.2]

/-- A call that was made leaves its operation executed or failed. -/
theorem driven_ne_pending (op : TimelockOperation Address) (result : CallResult) (now : ℕ) :
    (op.driven result now).status ≠ .pending := by
  rcases result with e | ⟨⟩ <;> simp [TimelockOperation.driven, TimelockOperation.fail]

/-! ### The rounds -/

/-- A round counts its operation if that is due. -/
theorem sweepOne_counts (acc : World Address × ℕ × ℕ) (id : ℕ) :
    (sweepOne results acc id).2.1 + (sweepOne results acc id).2.2 =
      acc.2.1 + acc.2.2 + if dueAt acc.1 id = true then 1 else 0 := by
  obtain ⟨w, executed, failed⟩ := acc
  cases hop : w.operationEntry id with
  | none => simp [sweepOne, dueAt, hop]
  | some op =>
    cases hdue : isDue w.now op with
    | false => simp [sweepOne, dueAt, hop, hdue]
    | true =>
      simp only [sweepOne, dueAt, hop, hdue, if_true, Option.any_some]
      split <;> dsimp only <;> omega

/-- Rounds for distinct ids count the operations that were due before any of them. -/
theorem sweepRounds_counts (hids : ids.Nodup) (acc : World Address × ℕ × ℕ) :
    (ids.foldl (sweepOne results) acc).2.1 + (ids.foldl (sweepOne results) acc).2.2 =
      acc.2.1 + acc.2.2 + ids.countP (dueAt acc.1) := by
  induction ids generalizing acc with
  | nil => rfl
  | cons id ids ih =>
    obtain ⟨hid, hids⟩ := List.nodup_cons.mp hids
    have hround := sweepOne_eq results acc id
    have hrest : ids.countP (dueAt (sweepOne results acc id).1) = ids.countP (dueAt acc.1) := by
      refine List.countP_congr fun j hj => ?_
      have hne : j ≠ id := fun h => hid (h ▸ hj)
      rw [hround]
      simp [dueAt, sweptEntry, hne]
    rw [List.foldl_cons, ih hids, sweepOne_counts, hrest, List.countP_cons]
    omega

theorem sweep_counts (w : World Address) (results : ℕ → CallResult) :
    (sweep w results).2.1 + (sweep w results).2.2 = dueCount w := by
  rw [sweep, sweepRounds_counts List.nodup_range, dueCount_eq, add_zero, zero_add]

/-- After a sweep nothing is due. -/
theorem sweep_dueCount (w : World Address) (results : ℕ → CallResult) :
    dueCount (sweep w results).1 = 0 := by
  have hnext : nextId (sweep w results).1 = nextId w := by
    unfold nextId
    rw [sweep_eq]
  rw [dueCount_eq, List.countP_eq_zero, hnext]
  intro id hmem hdue
  obtain ⟨op', found', pending', ripe'⟩ := dueAt_iff.mp hdue
  rw [sweep_eq] at found' ripe'
  simp only at found' ripe'
  by_cases hid : dueAt w id = true
  · obtain ⟨op, -, -, hdriven⟩ := sweptEntry_dueAt results hid hmem
    obtain rfl := Option.some.inj (found'.symm.trans hdriven)
    exact driven_ne_pending op _ _ pending'
  · rw [sweptEntry_not_dueAt hid] at found'
    exact hid (dueAt_iff.mpr ⟨op', found', pending', ripe'⟩)

/-! ### Runs -/

variable [DecidableEq Address] {w' : World Address} {signers : List Address} {out : Answer}

/-- An accepted sweep is the sweep and a settlement of its executed calls. -/
theorem step_executeDue {keeper : Address}
    (h : step w ⟨signers, .executeDue keeper results⟩ = .ok (w', out)) :
    ∃ cfg reward, w' = { (sweep w results).1 with keeperEntry := some cfg } ∧
      out = .swept (sweep w results).2.1 (sweep w results).2.2 reward := by
  simp only [step, executeDue, bind_eq_ok, pure_eq_ok, Prod.mk.injEq, Prod.exists] at h
  obtain ⟨_, _, _, _, ⟨_, -, _, _, hsettle, rfl, rfl, rfl, rfl⟩, rfl, rfl⟩ := h
  obtain ⟨cfg, rfl⟩ := settleKeeperEpoch_ok hsettle
  exact ⟨cfg, _, rfl, rfl⟩

/-- In every run, a keeper's sweep counts as many executed and failed calls as operations
were due and leaves none due at that time; it drives each due operation by the result of its
own call and changes no other. -/
theorem sweep_handles_due (now : ℕ) (txs : List (Transaction Address)) :
    ∀ x ∈ (run step (deployed Address now) txs).2, ∀ keeper results,
      x.call.op = .executeDue keeper results → ∃ executed failed reward,
        x.out = .swept executed failed reward ∧ executed + failed = dueCount x.pre ∧
        x.post.now = x.pre.now ∧ dueCount x.post = 0 ∧
        (∀ id op, x.pre.operationEntry id = some op → isDue x.pre.now op = true →
          x.post.operationEntry id = some (op.driven (results id) x.pre.now)) ∧
        ∀ id, (∀ op, x.pre.operationEntry id = some op → ¬ isDue x.pre.now op = true) →
          x.post.operationEntry id = x.pre.operationEntry id := by
  rintro ⟨pre, ⟨signers, op⟩, out, post⟩ hx keeper results rfl
  have accepted : step pre ⟨signers, .executeDue keeper results⟩ = .ok (post, out) :=
    (mem_run.mp hx).2
  have l : Logged pre := logged_attempt (mem_run.mp hx).1
  obtain ⟨cfg, reward, rfl, rfl⟩ := step_executeDue accepted
  refine ⟨_, _, reward, rfl, sweep_counts pre results, by rw [sweep_eq], sweep_dueCount pre results,
    fun id op found due => ?_, fun id hid => ?_⟩
  · have hlt : id < nextId pre := by
      by_contra hge
      cases (l.fresh id (not_lt.mp hge)).symm.trans found
    have hdue : dueAt pre id = true := by rw [dueAt, found]; exact due
    obtain ⟨op', found', -, hdriven⟩ :=
      sweptEntry_dueAt _ hdue (List.mem_range.mpr hlt)
    obtain rfl := Option.some.inj (found.symm.trans found')
    change (sweep pre results).1.operationEntry id = _
    rw [sweep_eq]
    exact hdriven
  · change (sweep pre results).1.operationEntry id = _
    rw [sweep_eq]
    refine sweptEntry_not_dueAt fun hdue => ?_
    obtain ⟨op, found, due⟩ := dueAt_iff.mp hdue
    exact hid op found ((isDue_iff _ _).mpr due)

/-! ### The reward -/

/-- The cap of the epoch that a sweep would be settled in is spent. -/
def CapSpent (w : World Address) : Prop :=
  (keeperConfig w).capPerEpoch ≤ ((keeperConfig w).roll w.now).epochSpent

/-- The sweep completes, and earns nothing if the cap is spent. -/
def Completes (w : World Address) (tx : Transaction Address) : Prop :=
  ∃ w' executed failed reward, step w tx = .ok (w', .swept executed failed reward) ∧
    (CapSpent w → reward = 0)

/-- In every run, a sweep that its keeper signed completes exactly if the end of the
keeper's epoch is a `u64`. -/
theorem sweep_completes_iff (now : ℕ) (txs : List (Transaction Address))
    (htyped : ∀ tx ∈ txs, tx.op.Typed) :
    ∀ p ∈ attempts step (deployed Address now) txs, ∀ keeper results,
      p.2.op = .executeDue keeper results → keeper ∈ p.2.signers →
        (Completes p.1 p.2 ↔ EpochFits p.1) := by
  rintro ⟨w, ⟨signers, op⟩⟩ hp keeper results rfl signed
  have s : Steady w := attempt_invariant_of (fun _ => steady_step) (steady_deployed now) htyped hp
  constructor
  · rintro ⟨w', executed, failed, reward, h, -⟩
    exact executeDue_fits h
  · intro hfits
    obtain ⟨cfg, answer, h⟩ := executeDue_total results s signed hfits
    obtain ⟨_, reward, -, rfl⟩ := step_executeDue h
    refine ⟨_, _, _, reward, h, fun hspent => ?_⟩
    change (keeperConfig w).capPerEpoch ≤ ((keeperConfig w).roll w.now).epochSpent at hspent
    have hcap := (s.keeperConfig.roll w.now).capped
    rw [KeeperConfig.roll_cap] at hcap
    cases (step_effect h).keeper with
    | kept still free => exact free
    | configured starts free => exact free
    | swept starts charged bounds =>
      obtain ⟨hpos, hle⟩ := bounds hcap
      change 0 ≤ reward at hpos
      change _ + reward ≤ _ at hle
      omega

/-- The administrator sets an epoch as long as a `u64` can say. -/
def endlessEpoch : List (Transaction ℕ) :=
  [⟨[1], .initializeContract 1 10⟩, ⟨[], .advance 10⟩, ⟨[1], .setKeeperConfig 1 5 maxU64⟩,
    ⟨[9], .executeDue 9 fun _ => .ok ()⟩]

/-- The configuration is accepted, and the sweep traps. -/
theorem endlessEpoch_reverts :
    (run step (deployed ℕ 0) endlessEpoch).2.length = 3 ∧
      ¬ ∀ p ∈ attempts step (deployed ℕ 0) endlessEpoch, ∀ keeper results,
        p.2.op = .executeDue keeper results → keeper ∈ p.2.signers → Completes p.1 p.2 := by
  refine ⟨by decide +kernel, fun h => ?_⟩
  obtain ⟨w', executed, failed, reward, hstep, -⟩ :=
    h (_, _) (mem_attempts.mpr ⟨endlessEpoch.take 3, [], rfl, rfl⟩) 9 (fun _ => .ok ()) rfl
      (by decide)
  refine absurd (executeDue_fits hstep) ?_
  unfold EpochFits
  decide +kernel

/-- Two sweeps in an epoch that ends; the first spends the cap of 5. -/
def spentEpoch : List (Transaction ℕ) :=
  [⟨[1], .initializeContract 1 10⟩, ⟨[1], .setKeeperConfig 9 5 100⟩, ⟨[1], .queue 7 "pause" [] 10⟩,
    ⟨[], .advance 10⟩, ⟨[9], .executeDue 9 fun _ => .ok ()⟩, ⟨[9], .executeDue 9 fun _ => .ok ()⟩]

/-- The second sweep completes. -/
theorem sweep_completes_iff_capSpent :
    let p := (attempts step (deployed ℕ 0) spentEpoch)[5]
    Completes p.1 p.2 ↔ EpochFits p.1 :=
  sweep_completes_iff 0 spentEpoch (by simp [spentEpoch, Op.Typed, maxI128]) _
    (List.getElem_mem _) 9
    (fun _ => .ok ()) rfl (by decide)

/-- The first sweep executes the operation that is due. -/
theorem sweep_handles_due_spentEpoch :
    ∃ executed failed reward, ((run step (deployed ℕ 0) spentEpoch).2.map Receipt.out)[4]? =
      some (.swept executed failed reward) ∧ executed + failed = 1 := by
  let x := (run step (deployed ℕ 0) spentEpoch).2.get ⟨4, by decide +kernel⟩
  have hop : x.call.op = .executeDue 9 fun _ => .ok () := by rfl
  obtain ⟨executed, failed, reward, hout, hcount, -⟩ :=
    sweep_handles_due 0 spentEpoch x (List.get_mem _ _) 9 _ hop
  refine ⟨executed, failed, reward, ?_, hcount.trans (by decide +kernel)⟩
  have hx : (run step (deployed ℕ 0) spentEpoch).2[4]? = some x := List.getElem?_eq_getElem _
  rw [List.getElem?_map, hx, Option.map_some, hout]

end RefractContracts.Timelock
