import Mathlib.Logic.Relation
import RefractContracts.Timelock.Effects

/-! The life of an operation. Every accepted transaction is a sequence of moves
on single operation records; a sweep makes one for each due operation. What the
moves keep, runs keep. -/

namespace RefractContracts.Timelock

open Host

variable {Address : Type}

/-- The administrator's changes of status. -/
inductive Retires : OperationStatus → OperationStatus → Prop
  | cancel : Retires .pending .cancelled
  | cancelFailed : Retires .failed .cancelled
  | expire : Retires .pending .expired

inductive Move (w : World Address) : World Address → Prop
  | initialized {admin minDelay} (first : w.adminEntry = none) :
      Move w { w with
        adminEntry := some admin, minDelayEntry := some minDelay, nextIdEntry := some 0 }
  | keeperSet {keeper} : Move w { w with keeperEntry := some keeper }
  | advanced {seconds} : Move w { w with now := w.now + seconds }
  | queued {target function args eta} (administered : w.adminEntry.isSome)
      (delayed : w.now + minDelay w ≤ eta) :
      Move w { setOperation w (nextId w) (pendingOperation target function args eta) with
        nextIdEntry := some (nextId w + 1) }
  | forwarded {id op} (found : w.operationEntry id = some op)
      (waiting : op.status = .pending ∨ op.status = .failed) (ripe : op.eta ≤ w.now) :
      Move w { setOperation w id { op with status := .executed } with
        sent := w.sent ++ [⟨id, w.now⟩] }
  | failed {id op e} (found : w.operationEntry id = some op) (pending : op.status = .pending)
      (ripe : op.eta ≤ w.now) : Move w (setOperation w id (op.fail e w.now))
  | retired {id op dst} (found : w.operationEntry id = some op) (h : Retires op.status dst) :
      Move w (setOperation w id { op with status := dst })

abbrev Moves : World Address → World Address → Prop := Relation.ReflTransGen Move

variable {w w' : World Address} {id : ℕ} {op : TimelockOperation Address}

theorem Move.moves (h : Move w w') : Moves w w' := .single h

/-! ### Every transaction is a sequence of moves -/

theorem forward_failed {result : CallResult} (h : forward w id op result = (w', false)) :
    ∃ e, w' = setOperation w id (op.fail e w.now) := by
  unfold forward at h
  split at h
  · cases congrArg Prod.snd h
  · next e =>
    refine ⟨e, (congrArg Prod.fst h).symm.trans ?_⟩
    simp [setOperation]

theorem sweepOne_moves {results : ℕ → CallResult} {executed failed : ℕ} :
    Moves w (sweepOne results (w, executed, failed) id).1 := by
  unfold sweepOne
  dsimp only
  split
  · next op found =>
    split_ifs with hdue
    · simp only [isDue, Bool.decide_and, Bool.and_eq_true, decide_eq_true_eq] at hdue
      split
      · next hf =>
        obtain ⟨-, rfl⟩ := forward_returned hf
        exact (Move.forwarded found (.inl hdue.1) hdue.2).moves
      · next hf =>
        obtain ⟨e, rfl⟩ := forward_failed hf
        exact (Move.failed found hdue.1 hdue.2).moves
    · exact .refl
  · exact .refl

theorem sweep_moves (w : World Address) (results : ℕ → CallResult) :
    Moves w (sweep w results).1 := by
  unfold sweep
  -- the rounds chain: each starts in the state the previous one left
  have chain : ∀ (ids : List ℕ) (acc : World Address × ℕ × ℕ),
      Moves acc.1 (ids.foldl (sweepOne results) acc).1 := by
    intro ids
    induction ids with
    | nil => exact fun _ => .refl
    | cons id ids ih => exact fun acc => sweepOne_moves.trans (ih (sweepOne results acc id))
  exact chain (List.range (nextId w)) (w, 0, 0)

theorem Effect.moves {signers : List Address} {call : Op Address} {out : Answer}
    (e : Effect signers w w' call out) : Moves w w' := by
  cases e with
  | initialized first => exact (Move.initialized first).moves
  | queued administered delayed => exact (Move.queued administered delayed).moves
  | @executed call id src op kind found status ripe =>
    have hsrc : src = .pending ∨ src = .failed := by
      cases call with
      | execute => cases kind; exact .inl rfl
      | retry => cases kind; exact .inr rfl
      | _ => cases kind
    exact (Move.forwarded found (status ▸ hsrc) ripe).moves
  | @retired call id src dst op admin kind stored signed found status =>
    have hretires : Retires op.status dst := by
      rw [status]
      cases call with
      | cancel => cases kind; exact .cancel
      | cancelFailed => cases kind; exact .cancelFailed
      | expire => cases kind; exact .expire
      | _ => cases kind
    exact (Move.retired found hretires).moves
  | keeperSet => exact Move.keeperSet.moves
  | @swept caller results => exact (sweep_moves w results).trans Move.keeperSet.moves
  | advanced => exact Move.advanced.moves

theorem step_moves [DecidableEq Address] {tx : Transaction Address} {out : Answer}
    (h : step w tx = .ok (w', out)) : Moves w w' := (step_effect h).moves

/-! ### What the moves keep -/

/-- The log agrees with the records: a call that returned belongs to an executed
operation, came no earlier than its `eta`, and is the only one of its operation. -/
structure Logged (w : World Address) : Prop where
  unused : w.adminEntry = none → ∀ id, w.operationEntry id = none
  fresh : ∀ id, nextId w ≤ id → w.operationEntry id = none
  executed : ∀ c ∈ w.sent, ∃ op, w.operationEntry c.id = some op ∧ op.status = .executed ∧
    op.eta ≤ c.time
  once : (w.sent.map (·.id)).Nodup

theorem logged_deployed (now : ℕ) : Logged (deployed Address now) :=
  ⟨fun _ _ => rfl, fun _ _ => rfl, nofun, List.nodup_nil⟩

/-- Rewriting the record of an operation that has not been executed. -/
theorem Logged.setOperation {next : TimelockOperation Address} (l : Logged w)
    (found : w.operationEntry id = some op) (hne : op.status ≠ .executed) :
    Logged (setOperation w id next) where
  unused hadmin := by
    rw [l.unused hadmin id] at found
    cases found
  fresh j hj := absent_update (l.fresh j hj) found
  executed c hc := by
    obtain ⟨o, ho, hs, ht⟩ := l.executed c hc
    rcases stored_update ho found next with ⟨-, rfl, -⟩ | ⟨-, hkept⟩
    · exact absurd hs hne
    · exact ⟨o, hkept, hs, ht⟩
  once := l.once

theorem Move.logged (m : Move w w') (l : Logged w) : Logged w' := by
  cases m with
  | initialized first =>
    exact ⟨nofun, fun id _ => l.unused first id, l.executed, l.once⟩
  | keeperSet => exact ⟨l.unused, l.fresh, l.executed, l.once⟩
  | advanced => exact ⟨l.unused, l.fresh, l.executed, l.once⟩
  | @queued target function args eta administered delayed =>
    refine ⟨fun h => ?_, fun j hj => ?_, fun c hc => ?_, l.once⟩
    · change w.adminEntry = none at h
      simp [h] at administered
    · change nextId w + 1 ≤ j at hj
      have hne : j ≠ nextId w := by omega
      simpa [setOperation, hne] using l.fresh j (by omega)
    · obtain ⟨op, ho, hs, ht⟩ := l.executed c hc
      have hne : c.id ≠ nextId w := ne_of_absent (l.fresh _ le_rfl) ho
      exact ⟨op, by simpa [setOperation, hne] using ho, hs, ht⟩
  | @forwarded id op found waiting ripe =>
    have hne : op.status ≠ .executed := by
      rcases waiting with h | h <;> simp [h]
    have l' : Logged (setOperation w id { op with status := .executed }) :=
      l.setOperation found hne
    refine ⟨l'.unused, l'.fresh, ?_, ?_⟩
    · exact forall_mem_snoc l'.executed ⟨_, Function.update_self _ _ _, rfl, ripe⟩
    · rw [List.map_append]
      refine List.nodup_append'.mpr ⟨l.once, List.nodup_singleton _, ?_⟩
      intro j hj hid
      obtain rfl := List.mem_singleton.mp hid
      obtain ⟨c, hc, rfl⟩ := List.mem_map.mp hj
      obtain ⟨o, ho, hs, -⟩ := l.executed c hc
      change w.operationEntry c.id = some op at found
      rw [found] at ho
      exact hne (Option.some.inj ho ▸ hs)
  | failed found pending => exact l.setOperation found (by simp [pending])
  | retired found h =>
    refine l.setOperation found (fun hs => ?_)
    rw [hs] at h
    cases h

theorem Moves.logged (m : Moves w w') (l : Logged w) : Logged w' := by
  induction m with
  | refl => exact l
  | tail _ m ih => exact m.logged ih

/-- The log only grows. -/
theorem Moves.sent_prefix (m : Moves w w') : w.sent <+: w'.sent := by
  induction m with
  | refl => exact List.prefix_rfl
  | tail _ m ih =>
    refine ih.trans ?_
    cases m with
    | forwarded => exact List.prefix_append _ _
    | _ => exact List.prefix_rfl

/-- Two records of the same queued call. -/
structure SameCall (op op' : TimelockOperation Address) : Prop where
  target : op'.target = op.target
  function : op'.function = op.function
  args : op'.args = op.args
  eta : op'.eta = op.eta

/-- A stored operation stays stored, with its call and its `eta`. -/
theorem Move.kept (m : Move w w') (l : Logged w) (found : w.operationEntry id = some op) :
    ∃ op', w'.operationEntry id = some op' ∧ SameCall op op' := by
  have rewritten : ∀ {j : ℕ} {o next : TimelockOperation Address},
      w.operationEntry j = some o → SameCall o next →
      ∃ op', Function.update w.operationEntry j (some next) id = some op' ∧ SameCall op op' := by
    intro j o next ho hsame
    rcases stored_update found ho next with ⟨-, rfl, hnext⟩ | ⟨-, hkept⟩
    · exact ⟨next, hnext, hsame⟩
    · exact ⟨op, hkept, ⟨rfl, rfl, rfl, rfl⟩⟩
  cases m with
  | initialized | keeperSet | advanced => exact ⟨op, found, ⟨rfl, rfl, rfl, rfl⟩⟩
  | queued =>
    have hid : id ≠ nextId w := ne_of_absent (l.fresh _ le_rfl) found
    exact ⟨op, by simpa [setOperation, hid] using found, ⟨rfl, rfl, rfl, rfl⟩⟩
  | forwarded ho => exact rewritten ho ⟨rfl, rfl, rfl, rfl⟩
  | failed ho => exact rewritten ho ⟨rfl, rfl, rfl, rfl⟩
  | retired ho => exact rewritten ho ⟨rfl, rfl, rfl, rfl⟩

theorem Moves.kept (m : Moves w w') (l : Logged w) (found : w.operationEntry id = some op) :
    ∃ op', w'.operationEntry id = some op' ∧ SameCall op op' := by
  induction m with
  | refl => exact ⟨op, found, ⟨rfl, rfl, rfl, rfl⟩⟩
  | tail m last ih =>
    obtain ⟨op₁, found₁, s₁⟩ := ih
    obtain ⟨op₂, found₂, s₂⟩ := last.kept (Moves.logged m l) found₁
    exact ⟨op₂, found₂, s₂.target.trans s₁.target, s₂.function.trans s₁.function,
      s₂.args.trans s₁.args, s₂.eta.trans s₁.eta⟩

end RefractContracts.Timelock
