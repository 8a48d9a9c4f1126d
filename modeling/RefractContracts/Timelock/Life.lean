import RefractContracts.Timelock.Operations

/-! The statuses of an operation over a run. Its call returns at most once, after a
delay that was in force when it was queued, and never once the operation is
cancelled or expired. The documented table of changes holds except for `expire`,
which looks at no time. -/

namespace RefractContracts.Timelock

open Host

variable {Address : Type}

/-- The documented changes of status at time `now`. -/
inductive Documented (now eta : ℕ) : OperationStatus → OperationStatus → Prop
  | executed (ripe : eta ≤ now) : Documented now eta .pending .executed
  | failed (ripe : eta ≤ now) : Documented now eta .pending .failed
  | retried (ripe : eta ≤ now) : Documented now eta .failed .executed
  | failedAgain (ripe : eta ≤ now) : Documented now eta .failed .failed
  | cancelled : Documented now eta .pending .cancelled
  | cancelledFailed : Documented now eta .failed .cancelled
  | expired (ripe : eta ≤ now) : Documented now eta .pending .expired

/-- The statuses that are never left. -/
def OperationStatus.Closed : OperationStatus → Prop
  | .executed | .cancelled | .expired => True
  | _ => False

/-- The administrator expires a pending operation before its `eta`. -/
def ExpiresEarly (w : World Address) (tx : Transaction Address) : Prop :=
  ∃ id op admin, tx.op = .expire id ∧ w.adminEntry = some admin ∧ admin ∈ tx.signers ∧
    w.operationEntry id = some op ∧ op.status = .pending ∧ w.now < op.eta

abbrev TimelockReceipt (Address : Type) := Receipt (World Address) (Transaction Address) Answer

/-- Every stored operation keeps its call and changes its status as documented. -/
def Conforms (x : TimelockReceipt Address) : Prop :=
  ∀ id op, x.pre.operationEntry id = some op → ∃ op', x.post.operationEntry id = some op' ∧
    SameCall op op' ∧
    (op'.status = op.status ∨ Documented x.pre.now op.eta op.status op'.status)

theorem Retires.waiting {src dst : OperationStatus} (h : Retires src dst) :
    src = .pending ∨ src = .failed := by
  cases h with
  | cancel => exact .inl rfl
  | cancelFailed => exact .inr rfl
  | expire => exact .inl rfl

section Steps
variable {w w' : World Address} {id : ℕ} {op : TimelockOperation Address} {signers : List Address}
  {call : Op Address} {out : Answer}

/-- A closed record is never rewritten. -/
theorem Move.closed (m : Move w w') (l : Logged w) (found : w.operationEntry id = some op)
    (hclosed : op.status.Closed) : w'.operationEntry id = some op := by
  have other : ∀ {j : ℕ} {o next : TimelockOperation Address}, w.operationEntry j = some o →
      o.status = .pending ∨ o.status = .failed →
      Function.update w.operationEntry j (some next) id = some op := by
    intro j o next ho hopen
    rcases stored_update found ho next with ⟨-, rfl, -⟩ | ⟨-, hkept⟩
    · rcases hopen with h | h <;> rw [h] at hclosed <;> cases hclosed
    · exact hkept
  cases m with
  | initialized | keeperSet | advanced => exact found
  | queued =>
    have hid : id ≠ nextId w := ne_of_absent (l.fresh _ le_rfl) found
    exact (Function.update_of_ne hid _ _).trans found
  | forwarded ho waiting => exact other ho waiting
  | failed ho pending => exact other ho (.inl pending)
  | retired ho h => exact other ho h.waiting

theorem Moves.closed (m : Moves w w') (l : Logged w) (found : w.operationEntry id = some op)
    (hclosed : op.status.Closed) : w'.operationEntry id = some op := by
  induction m with
  | refl => exact found
  | tail m last ih => exact last.closed (Moves.logged m l) ih hclosed

/-- Only `queue` stores a new operation. -/
theorem Effect.created {op' : TimelockOperation Address} (e : Effect signers w w' call out)
    (habsent : w.operationEntry id = none) (found : w'.operationEntry id = some op') :
    call = .queue op'.target op'.function op'.args op'.eta ∧ out = .id id ∧
      w.now + minDelay w ≤ op'.eta := by
  cases e with
  | @queued target function args eta administered delayed =>
    change Function.update w.operationEntry (nextId w) _ id = _ at found
    by_cases hid : id = nextId w
    · rw [hid, Function.update_self, Option.some.injEq] at found
      subst found
      exact ⟨rfl, hid ▸ rfl, delayed⟩
    · rw [Function.update_of_ne hid, habsent] at found
      cases found
  | executed kind ho => cases (absent_update habsent ho).symm.trans found
  | retired kind stored signed ho => cases (absent_update habsent ho).symm.trans found
  | @swept caller results =>
    rw [sweep_eq] at found
    simp [sweptEntry, habsent] at found
  | initialized => cases habsent.symm.trans found
  | keeperSet => cases habsent.symm.trans found
  | advanced => cases habsent.symm.trans found

/-- What an accepted transaction does to the status of a stored operation. -/
theorem Effect.conforms (e : Effect signers w w' call out) (l : Logged w)
    (found : w.operationEntry id = some op)
    (hexpire : call = .expire id → op.status = .pending → op.eta ≤ w.now ∨
      ∀ admin, w.adminEntry = some admin → admin ∉ signers) :
    ∃ op', w'.operationEntry id = some op' ∧ SameCall op op' ∧
      (op'.status = op.status ∨ Documented w.now op.eta op.status op'.status) := by
  have hsame : SameCall op op := ⟨rfl, rfl, rfl, rfl⟩
  -- a rewritten record with the same call and a documented change of status
  have rewritten : ∀ {j : ℕ} {o next : TimelockOperation Address}, w.operationEntry j = some o →
      SameCall o next →
      (j = id → op = o → Documented w.now op.eta op.status next.status) →
      ∃ op', Function.update w.operationEntry j (some next) id = some op' ∧ SameCall op op' ∧
        (op'.status = op.status ∨ Documented w.now op.eta op.status op'.status) := by
    intro j o next ho hcall hdoc
    rcases stored_update found ho next with ⟨rfl, rfl, hnext⟩ | ⟨-, hkept⟩
    · exact ⟨next, hnext, hcall, .inr (hdoc rfl rfl)⟩
    · exact ⟨op, hkept, hsame, .inl rfl⟩
  cases e with
  | @queued target function args eta =>
    have hid : id ≠ nextId w := ne_of_absent (l.fresh _ le_rfl) found
    exact ⟨op, (Function.update_of_ne hid _ _).trans found, hsame, .inl rfl⟩
  | @executed call j src o kind ho status ripe =>
    refine rewritten ho ⟨rfl, rfl, rfl, rfl⟩ fun hj hop => ?_
    subst hop
    rw [status]
    cases call with
    | execute => cases kind; exact .executed ripe
    | retry => cases kind; exact .retried ripe
    | _ => cases kind
  | @retired call j src dst o admin kind stored signed ho status =>
    refine rewritten ho ⟨rfl, rfl, rfl, rfl⟩ fun hj hop => ?_
    subst hj hop
    cases call with
    | cancel => cases kind; rw [status]; exact .cancelled
    | cancelFailed => cases kind; rw [status]; exact .cancelledFailed
    | expire =>
      cases kind
      rw [status]
      refine .expired ((hexpire rfl status).resolve_right fun hunsigned => ?_)
      exact hunsigned admin stored signed
    | _ => cases kind
  | @swept caller results =>
    rw [sweep_eq]
    simp only [sweptEntry, found, Option.map_some]
    refine ⟨_, rfl, ?_⟩
    split_ifs with hdue
    · obtain ⟨hpending, hripe⟩ := (isDue_iff _ _).mp hdue.2
      rw [hpending]
      rcases results id with e | ⟨⟩
      · exact ⟨⟨rfl, rfl, rfl, rfl⟩, .inr (.failed hripe)⟩
      · exact ⟨⟨rfl, rfl, rfl, rfl⟩, .inr (.executed hripe)⟩
    · exact ⟨hsame, .inl rfl⟩
  | initialized => exact ⟨op, found, hsame, .inl rfl⟩
  | keeperSet => exact ⟨op, found, hsame, .inl rfl⟩
  | advanced => exact ⟨op, found, hsame, .inl rfl⟩

end Steps

/-! ### Runs -/

section Runs
variable [DecidableEq Address]

omit [DecidableEq Address] in
/-- Every stored operation was queued for its `eta`, after the delay in force then. -/
def Delayed (h : List (TimelockReceipt Address)) (w : World Address) : Prop :=
  ∀ id op, w.operationEntry id = some op → ∃ x ∈ h,
    x.call.op = .queue op.target op.function op.args op.eta ∧ x.out = .id id ∧
      x.pre.now + minDelay x.pre ≤ op.eta

theorem logged_step {x : TimelockReceipt Address}
    (accepted : step x.pre x.call = .ok (x.post, x.out)) (l : Logged x.pre) : Logged x.post :=
  Moves.logged (step_moves accepted) l

theorem delayed_step {h : List (TimelockReceipt Address)} {x : TimelockReceipt Address}
    (accepted : step x.pre x.call = .ok (x.post, x.out)) (l : Logged x.pre)
    (d : Delayed h x.pre) : Delayed (h ++ [x]) x.post := by
  have e := step_effect accepted
  intro id op' found
  cases hold : x.pre.operationEntry id with
  | none =>
    obtain ⟨hcall, hout, hdelay⟩ := e.created hold found
    exact ⟨x, by simp, hcall, hout, hdelay⟩
  | some op =>
    obtain ⟨op'', hfound, hsame⟩ := e.moves.kept l hold
    obtain rfl : op'' = op' := Option.some.inj (hfound.symm.trans found)
    obtain ⟨y, hy, hcall, hout, hdelay⟩ := d id op hold
    refine ⟨y, List.mem_append_left _ hy, ?_, hout, hsame.eta.symm ▸ hdelay⟩
    rw [hcall, hsame.target, hsame.function, hsame.args, hsame.eta]

theorem delayed_run (now : ℕ) (txs : List (Transaction Address)) :
    let r := run step (deployed Address now) txs
    Logged r.1 ∧ Delayed r.2 r.1 :=
  (run_trace step _ txs).history (I := fun h w => Logged w ∧ Delayed h w)
    (fun _ _ accepted hi => ⟨logged_step accepted hi.1, delayed_step accepted hi.1 hi.2⟩)
    ⟨logged_deployed now, nofun⟩

theorem moves_run (w : World Address) (txs : List (Transaction Address)) :
    Moves w (run step w txs).1 :=
  run_invariant (I := fun w' => Moves w w')
    (fun _ accepted m => m.trans (step_moves accepted)) .refl txs

/-- In every run an operation's call returns at most once, at or after an `eta` that
respects the delay in force when it was queued, and not if the operation is cancelled
or expired in some state of the run. -/
theorem operation_life (now : ℕ) (txs : List (Transaction Address)) :
    let r := run step (deployed Address now) txs
    (r.1.sent.map (·.id)).Nodup ∧
      (∀ c ∈ r.1.sent, ∃ op, r.1.operationEntry c.id = some op ∧ op.eta ≤ c.time) ∧
      Delayed r.2 r.1 ∧
      ∀ g l, txs = g ++ l → ∀ id op,
        (run step (deployed Address now) g).1.operationEntry id = some op →
        op.status = .cancelled ∨ op.status = .expired → ∀ c ∈ r.1.sent, c.id ≠ id := by
  intro r
  obtain ⟨hlogged, hdelayed⟩ := delayed_run now txs
  refine ⟨hlogged.once, fun c hc => ?_, hdelayed, fun g l hsplit id op found hretired c hc => ?_⟩
  · obtain ⟨op, hop, -, hripe⟩ := hlogged.executed c hc
    exact ⟨op, hop, hripe⟩
  · rintro rfl
    have hclosed : op.status.Closed := by
      rcases hretired with h | h <;> rw [h] <;> trivial
    have hlast : r.1 = (run step (run step (deployed Address now) g).1 l).1 := by
      rw [show r = run step (deployed Address now) (g ++ l) from hsplit ▸ rfl, run,
        List.foldl_append, ← run, run_append]
    have hkept := (moves_run (run step (deployed Address now) g).1 l).closed
      (delayed_run now g).1 found hclosed
    obtain ⟨op', hop', hexecuted, -⟩ := hlogged.executed c hc
    rw [hlast, hkept] at hop'
    obtain rfl := Option.some.inj hop'
    rcases hretired with h | h <;> rw [h] at hexecuted <;> cases hexecuted

theorem logged_attempt {now : ℕ} {txs : List (Transaction Address)}
    {p : World Address × Transaction Address}
    (hp : p ∈ attempts step (deployed Address now) txs) : Logged p.1 :=
  attempt_invariant (fun _ => logged_step) (logged_deployed now) hp

/-- `expire` is accepted at any time. -/
theorem ExpiresEarly.accepted {w : World Address} {tx : Transaction Address}
    (h : ExpiresEarly w tx) : ∃ id op, w.operationEntry id = some op ∧ op.status = .pending ∧
      w.now < op.eta ∧
        step w tx = .ok (setOperation w id { op with status := .expired }, .unit) := by
  obtain ⟨signers, call⟩ := tx
  obtain ⟨id, op, admin, rfl, stored, signed, found, pending, early⟩ := h
  refine ⟨id, op, found, pending, early, ?_⟩
  simp only [step, expire, retire, requireAdmin, bind_eq_ok, okOr_eq_ok, requireAuth_eq_ok,
    bail_eq_ok, pure_eq_ok]
  exact ⟨_, ⟨(), ⟨admin, stored, signed⟩, op, found, (), not_not.mpr pending, rfl⟩, rfl⟩

/-- The statuses change as documented exactly in the runs in which the administrator
expires no pending operation before its `eta`. -/
theorem documented_iff (now : ℕ) (txs : List (Transaction Address)) :
    (∀ x ∈ (run step (deployed Address now) txs).2, Conforms x) ↔
      ∀ p ∈ attempts step (deployed Address now) txs, ¬ ExpiresEarly p.1 p.2 := by
  constructor
  · intro hconforms p hp hearly
    obtain ⟨id, op, found, pending, early, accepted⟩ := hearly.accepted
    obtain ⟨op', found', -, hchange⟩ := hconforms ⟨p.1, p.2, .unit, _⟩
      (mem_run.mpr ⟨hp, accepted⟩) id op found
    obtain rfl := Option.some.inj ((Function.update_self id _ p.1.operationEntry).symm.trans found')
    rw [pending] at hchange
    rcases hchange with hsame | hdoc
    · cases hsame
    · cases hdoc with
      | expired ripe => exact absurd ripe (not_le.mpr early)
  · intro hlate x hx id op found
    obtain ⟨hattempt, accepted⟩ := mem_run.mp hx
    refine (step_effect accepted).conforms (logged_attempt hattempt) found fun hcall pending => ?_
    refine (le_or_gt op.eta x.pre.now).imp_right fun early admin stored signed => ?_
    exact hlate _ hattempt ⟨id, op, admin, hcall, stored, signed, found, pending, early⟩

end Runs

/-- Administrator 1 queues a call for time 100 and expires it at time 0. -/
def expiredAtOnce : List (Transaction ℕ) :=
  [⟨[1], .initializeContract 1 10⟩, ⟨[1], .queue 7 "pause" [] 100⟩, ⟨[1], .expire 0⟩]

/-- The operation goes from pending to expired a hundred seconds before its `eta`. -/
theorem expiredAtOnce_undocumented :
    ¬ ∀ x ∈ (run step (deployed ℕ 0) expiredAtOnce).2, Conforms x := by
  intro h
  let x := (run step (deployed ℕ 0) expiredAtOnce).2[2]
  obtain ⟨op', found', -, hchange⟩ := h x (List.getElem_mem _) 0
    (pendingOperation 7 "pause" [] 100) rfl
  obtain rfl : _ = op' := Option.some.inj found'
  rcases hchange with hsame | hdoc
  · cases hsame
  · cases hdoc with
    | expired ripe => exact absurd ripe (by decide)

end RefractContracts.Timelock
