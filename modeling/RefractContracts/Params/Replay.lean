import RefractContracts.Params.Contract
import RefractContracts.Timelock.Sweeps

/-! The registry of parameters is what the timelock's calls have made of it. Whatever the order of
calls, sweeps and direct calls, as long as nobody but the timelock has had authority, the entries
are the defaults overwritten by the `set` operations whose calls returned, in the order in which
they returned; each was queued by the timelock's administrator, the minimum delay of that time
before its call at least. Authority itself leaves the timelock only by an operation of its own. -/

namespace RefractContracts.Params

open Host

variable {Address : Type}

/-- The write of an operation, if it is a `set`. -/
def setOf (op : Timelock.TimelockOperation Address) : Option (Symbol × ℤ) :=
  match op.function, op.args with
  | "set", [.address _, .symbol key, .i128 value] => some (key, value)
  | _, _ => none

/-- The entries of a registry before any `set`. -/
def seeded : Option Address → Symbol → Option ℤ
  | none => fun _ => none
  | some _ => writeAll (fun _ => none) defaults

/-- The registry holds the defaults, once initialized, overwritten by `writes`. -/
structure Agrees (writes : List (Symbol × ℤ)) (w : World Address) : Prop where
  unset : w.timelockEntry = none → writes = []
  entries : w.paramEntry = writeAll (seeded w.timelockEntry) writes

theorem writeAll_append (entries : Symbol → Option ℤ) (writes more : List (Symbol × ℤ)) :
    writeAll entries (writes ++ more) = writeAll (writeAll entries writes) more :=
  List.foldl_append

variable [DecidableEq Address] {sites : Sites Address} {answers : Answers}
  {signers : List Address} {w w' : World Address} {t t' : Timelock.World Address}
  {op : Timelock.TimelockOperation Address}

/-! ### One call of the registry -/

section Receive
variable {caller a : Address} {writes : List (Symbol × ℤ)}

theorem requireTimelock_ok {u : Unit} (h : requireTimelock signers w caller = .ok u) :
    caller ∈ signers ∧ w.timelockEntry = some caller := by
  simp only [requireTimelock, bind_eq_ok, requireAuth_eq_ok, okOr_eq_ok, bail_eq_ok, not_not] at h
  obtain ⟨_, hsigned, timelock, htimelock, rfl⟩ := h
  exact ⟨hsigned, htimelock⟩

omit [DecidableEq Address] in
theorem initializeContract_ok (h : initializeContract w a = .ok w') :
    w.timelockEntry = none ∧ w' = ⟨some a, writeAll w.paramEntry defaults⟩ := by
  simp only [initializeContract, bind_eq_ok, bail_eq_ok, pure_eq_ok,
    Option.not_isSome_iff_eq_none] at h
  obtain ⟨_, hunset, rfl⟩ := h
  exact ⟨hunset, rfl⟩

theorem setParam_ok {key : Symbol} {value : ℤ} (h : setParam signers w caller key value = .ok w') :
    caller ∈ signers ∧ w.timelockEntry = some caller ∧
      w' = { w with paramEntry := writeParam w.paramEntry (key, value) } := by
  simp only [setParam, bind_eq_ok, pure_eq_ok] at h
  obtain ⟨_, hcaller, rfl⟩ := h
  exact ⟨(requireTimelock_ok hcaller).1, (requireTimelock_ok hcaller).2, rfl⟩

theorem setTimelock_ok (h : setTimelock signers w caller a = .ok w') :
    caller ∈ signers ∧ w.timelockEntry = some caller ∧ w' = { w with timelockEntry := some a } := by
  simp only [setTimelock, bind_eq_ok, pure_eq_ok] at h
  obtain ⟨_, hcaller, rfl⟩ := h
  exact ⟨(requireTimelock_ok hcaller).1, (requireTimelock_ok hcaller).2, rfl⟩

omit [DecidableEq Address] in
theorem Agrees.initialized (g : Agrees writes w) (h : initializeContract w a = .ok w') :
    Agrees writes w' := by
  obtain ⟨hunset, rfl⟩ := initializeContract_ok h
  have hentries := g.entries
  rw [hunset, g.unset hunset] at hentries
  rw [g.unset hunset]
  exact ⟨nofun, by rw [hentries]; rfl⟩

/-- What a call that returns does. -/
inductive Received (w : World Address) (op : Timelock.TimelockOperation Address) :
    World Address → Prop
  | initialized {next a} (noSet : setOf op = none) (h : initializeContract w a = .ok next) :
      Received w op next
  | written {write} (isSet : setOf op = some write) (authority : w.timelockEntry.isSome) :
      Received w op { w with paramEntry := writeParam w.paramEntry write }
  | moved {next} (noSet : setOf op = none) (moves : op.function = "set_timelock")
      (authority : w.timelockEntry.isSome) : Received w op { w with timelockEntry := some next }
  | read (noSet : setOf op = none) : Received w op w

theorem received (h : receive signers w op.function op.args = .ok w') : Received w op w' := by
  unfold receive at h
  split at h
  · next hf ha => exact .initialized (by rw [setOf, hf, ha]; rfl) h
  · next hf ha =>
    obtain ⟨-, hauthority, rfl⟩ := setParam_ok h
    exact .written (by rw [setOf, hf, ha]; rfl) (by rw [hauthority]; rfl)
  · next hf ha =>
    obtain ⟨-, hauthority, rfl⟩ := setTimelock_ok h
    exact .moved (by rw [setOf, hf, ha]; rfl) hf (by rw [hauthority]; rfl)
  · next hf ha =>
    obtain rfl := (pure_eq_ok _ _).mp h
    exact .read (by rw [setOf, hf, ha]; rfl)
  · next hf ha =>
    obtain rfl := (pure_eq_ok _ _).mp h
    exact .read (by rw [setOf, hf, ha]; rfl)
  · next hf ha =>
    simp only [bind_eq_ok, pure_eq_ok] at h
    obtain ⟨_, -, rfl⟩ := h
    exact .read (by rw [setOf, hf]; rfl)
  · cases h

omit [DecidableEq Address] in
theorem Agrees.received (g : Agrees writes w) (h : Received w op w') :
    Agrees (writes ++ (setOf op).toList) w' := by
  cases h with
  | initialized noSet h =>
    rw [noSet, Option.toList_none, List.append_nil]
    exact g.initialized h
  | @written write isSet authority =>
    rw [isSet, Option.toList_some]
    refine ⟨fun hunset => ?_, ?_⟩
    · rw [show w.timelockEntry = none from hunset] at authority
      cases authority
    · rw [writeAll_append, ← g.entries]
      rfl
  | moved noSet _ authority =>
    rw [noSet, Option.toList_none, List.append_nil]
    obtain ⟨b, hb⟩ := Option.isSome_iff_exists.mp authority
    have hentries := g.entries
    rw [hb] at hentries
    exact ⟨nofun, hentries⟩
  | read noSet =>
    rw [noSet, Option.toList_none, List.append_nil]
    exact g

omit [DecidableEq Address] in
/-- The authority changes by `initialize` and by `set_timelock`. -/
theorem Received.authority (h : Received w op w') (hset : w.timelockEntry = some a)
    (hop : op.function ≠ "set_timelock") : w'.timelockEntry = some a := by
  cases h with
  | initialized _ h =>
    rw [(initializeContract_ok h).1] at hset
    cases hset
  | moved _ moves => exact absurd moves hop
  | written | read => exact hset

end Receive

/-! ### The calls of the timelock -/

/-- The calls `sent`, of operations that `t` stores, returned and make of the registry `w` what is
left: a call of the registry what it does, a call of another contract nothing. -/
inductive Replayed (sites : Sites Address) (signers : List Address) (t : Timelock.World Address)
    (w : World Address) : List Timelock.Sent → World Address → Prop
  | nil : Replayed sites signers t w [] w
  | own {new c op w₁ w₂} (hist : Replayed sites signers t w new w₁)
      (found : t.operationEntry c.id = some op) (target : op.target = sites.params)
      (h : receive (sites.timelock :: signers) w₁ op.function op.args = .ok w₂) :
      Replayed sites signers t w (new ++ [c]) w₂
  | other {new c op w₁} (hist : Replayed sites signers t w new w₁)
      (found : t.operationEntry c.id = some op) (target : op.target ≠ sites.params) :
      Replayed sites signers t w (new ++ [c]) w₁

/-- One more call, by what it answers. -/
theorem Replayed.call {new : List Timelock.Sent} {w₁ : World Address} {c : Timelock.Sent}
    (hist : Replayed sites signers t w new w₁) (found : t.operationEntry c.id = some op)
    (h : answer sites answers signers w₁ c.id op = .ok ()) :
    Replayed sites signers t w (new ++ [c]) (forwarded sites signers w₁ op) := by
  unfold answer at h
  unfold forwarded
  split_ifs at h ⊢ with htarget
  · cases hcall : receive (sites.timelock :: signers) w₁ op.function op.args with
    | error =>
      rw [hcall] at h
      cases h
    | ok w₂ => exact .own hist found htarget hcall
  · exact .other hist found htarget

theorem forwarded_of_error {id : ℕ} {e : Except Timelock.InvokeError Timelock.InvokeError}
    (h : answer sites answers signers w id op = .error e) : forwarded sites signers w op = w := by
  unfold answer at h
  unfold forwarded
  split_ifs at h ⊢
  · cases hcall : receive (sites.timelock :: signers) w op.function op.args with
    | error => rfl
    | ok w' =>
      rw [hcall] at h
      cases h
  · rfl

omit [DecidableEq Address] in
theorem sweepOne_not_due {results : ℕ → Timelock.CallResult} {u : Timelock.World Address}
    {executed failed id : ℕ}
    (h : ∀ o, u.operationEntry id = some o → Timelock.isDue u.now o = false) :
    Timelock.sweepOne results (u, executed, failed) id = (u, executed, failed) := by
  unfold Timelock.sweepOne
  dsimp only
  split
  · next o found => rw [if_neg (by rw [h o found]; exact Bool.false_ne_true)]
  · rfl

omit [DecidableEq Address] in
theorem sweepOne_due_sent {results : ℕ → Timelock.CallResult} {u : Timelock.World Address}
    {executed failed id : ℕ} (found : u.operationEntry id = some op)
    (hdue : Timelock.isDue u.now op = true) :
    (Timelock.sweepOne results (u, executed, failed) id).1.sent =
      u.sent ++ match results id with
        | .ok () => [⟨id, u.now⟩]
        | .error _ => [] := by
  unfold Timelock.sweepOne Timelock.forward
  simp only [found, hdue, if_true]
  cases results id with
  | ok => rfl
  | error => simp [Timelock.setOperation]

/-- A sweep makes of the registry what its calls that returned make of it, in their order. -/
theorem sweep_replayed (sites : Sites Address) (answers : Answers) (signers : List Address)
    (t : Timelock.World Address) (w : World Address) {results : ℕ → Timelock.CallResult}
    (hresults : ∀ id, results id =
      answerOf sites answers signers t (swept sites signers t w id) id) (n : ℕ) :
    ∃ new, ((List.range n).foldl (Timelock.sweepOne results) (t, 0, 0)).1.sent = t.sent ++ new ∧
      Replayed sites signers t w new (swept sites signers t w n) := by
  induction n with
  | zero => exact ⟨[], by simp, .nil⟩
  | succ n ih =>
    obtain ⟨new, hsent, hist⟩ := ih
    have hround := Timelock.foldl_sweepOne results (List.nodup_range (n := n)) (t, 0, 0)
    rw [List.range_succ, List.foldl_append, List.foldl_cons, List.foldl_nil]
    generalize (List.range n).foldl (Timelock.sweepOne results) (t, 0, 0) = acc at hround hsent
    obtain ⟨u, executed, failed⟩ := acc
    dsimp only at hround hsent
    have hnow : u.now = t.now := by rw [hround]
    have hentry : u.operationEntry n = t.operationEntry n := by
      rw [hround]
      simp [Timelock.sweptEntry]
    by_cases hdue : Timelock.dueAt t n = true
    · obtain ⟨op, found, pending, ripe⟩ := Timelock.dueAt_iff.mp hdue
      have hop : Timelock.isDue t.now op = true := (Timelock.isDue_iff _ _).mpr ⟨pending, ripe⟩
      have hnext : swept sites signers t w (n + 1) =
          forwarded sites signers (swept sites signers t w n) op := by
        rw [swept, found]
        exact if_pos hop
      have hanswer : results n = answer sites answers signers (swept sites signers t w n) n op := by
        rw [hresults, answerOf, found]
      rw [sweepOne_due_sent (hentry.trans found) (hnow ▸ hop), hsent, hnext]
      cases hresult : results n with
      | ok =>
        have hcall := hist.call (c := ⟨n, u.now⟩) found (hanswer.symm.trans hresult)
        exact ⟨new ++ [⟨n, u.now⟩], by simp, hcall⟩
      | error e =>
        rw [forwarded_of_error (hanswer.symm.trans hresult)]
        exact ⟨new, by simp, hist⟩
    · have hskip : ∀ o, u.operationEntry n = some o → Timelock.isDue u.now o = false := by
        intro o found
        rw [hentry] at found
        rw [Timelock.dueAt, found, Option.any_some, Bool.not_eq_true] at hdue
        rw [hnow, hdue]
      have hnext : swept sites signers t w (n + 1) = swept sites signers t w n := by
        rw [swept]
        split
        · next o found =>
          have hnot : ¬ Timelock.isDue t.now o = true := by
            rw [← hnow, hskip o (hentry.trans found)]
            exact Bool.false_ne_true
          rw [if_neg hnot]
        · rfl
      rw [sweepOne_not_due hskip, hnext]
      exact ⟨new, hsent, hist⟩

/-! ### One transaction -/

/-- A transaction of the timelock, whose calls that returned the registry has seen; an
initialization; or a call authorised by the authority itself. -/
inductive Stepped (sites : Sites Address) (s : System Address) (tx : Transaction Address) :
    System Address → Prop
  | forwarded {timelock new params} (moves : Timelock.Moves s.timelock timelock)
      (sent : timelock.sent = s.timelock.sent ++ new)
      (calls : Replayed sites (tx.authorities sites) s.timelock s.params new params) :
      Stepped sites s tx ⟨timelock, params⟩
  | initialized {params a} (h : initializeContract s.params a = .ok params) :
      Stepped sites s tx { s with params }
  | authorized {params caller} (signed : caller ∈ tx.authorities sites)
      (held : s.params.timelockEntry = some caller) : Stepped sites s tx { s with params }

omit [DecidableEq Address] in
/-- Only a single call and a sweep send. -/
theorem sent_eq {call : Timelock.Op Address} {out : Timelock.Answer}
    (e : Timelock.Effect signers t t' call out) (single : call.drives = none)
    (sweep : ∀ keeper results, call ≠ .executeDue keeper results) : t'.sent = t.sent := by
  cases e with
  | executed kind =>
    rw [single] at kind
    cases kind
  | swept => exact absurd rfl (sweep _ _)
  | _ => rfl

theorem executed_stepped {s : System Address} {tx : Transaction Address}
    {call : Timelock.Op Address}
    {id : ℕ} {src : Timelock.OperationStatus} {out : Timelock.Answer} {u : Timelock.World Address}
    (kind : call.drives = some (id, src,
      answerOf sites answers (tx.authorities sites) s.timelock s.params id))
    (h : Timelock.step s.timelock ⟨signers, call⟩ = .ok (u, out)) :
    Stepped sites s tx ⟨u, forwardedOf sites (tx.authorities sites) s.timelock s.params id⟩ := by
  have moves := Timelock.step_moves h
  cases Timelock.step_effect h with
  | @executed _ id' src' op kind' found =>
    obtain ⟨rfl, hrest⟩ := Prod.mk.inj (Option.some.inj (kind.symm.trans kind'))
    have hanswer := (Prod.mk.inj hrest).2
    rw [answerOf, found] at hanswer
    rw [forwardedOf, found]
    exact .forwarded moves rfl (Replayed.nil.call (c := ⟨id, s.timelock.now⟩) found hanswer)
  | retired kind' => cases call <;> cases kind <;> cases kind'
  | initialized | queued | keeperSet | swept | advanced => cases kind

theorem stepped {s s' : System Address} {tx : Transaction Address} {out : Timelock.Answer}
    (h : step sites s tx = .ok (s', out)) : Stepped sites s tx s' := by
  obtain ⟨signers, answers, op⟩ := tx
  cases op with
  | params op =>
    cases op with simp only [step, bind_eq_ok, embed_eq_ok, pure_eq_ok, Prod.mk.injEq] at h
    | initializeContract a =>
      obtain ⟨params, hparams, rfl, -⟩ := h
      exact .initialized hparams
    | setParam caller key value =>
      obtain ⟨params, hparams, rfl, -⟩ := h
      exact .authorized (setParam_ok hparams).1 (setParam_ok hparams).2.1
    | setTimelock caller newTimelock =>
      obtain ⟨params, hparams, rfl, -⟩ := h
      exact .authorized (setTimelock_ok hparams).1 (setTimelock_ok hparams).2.1
  | timelock op =>
    simp only [step, bind_eq_ok, embed_eq_ok, pure_eq_ok, Prod.mk.injEq] at h
    obtain ⟨⟨u, out'⟩, hstep, rfl, -⟩ := h
    have moves := Timelock.step_moves hstep
    cases op with simp only [resolve] at hstep ⊢
    | execute id => exact executed_stepped rfl hstep
    | retry id => exact executed_stepped rfl hstep
    | executeDue keeper results =>
      set authorities := Transaction.authorities sites
        ⟨signers, answers, .timelock (.executeDue keeper results)⟩
      obtain ⟨new, hsent, hcalls⟩ := sweep_replayed sites answers authorities s.timelock s.params
        (fun _ => rfl) (Timelock.nextId s.timelock)
      refine .forwarded moves ?_ hcalls
      cases Timelock.step_effect hstep with
      | swept => exact hsent
      | executed kind | retired kind => cases kind
    | _ =>
      have hsent := sent_eq (Timelock.step_effect hstep) rfl (by rintro _ _ ⟨⟩)
      exact .forwarded moves (by rw [hsent, List.append_nil]) .nil

/-! ### Runs -/

abbrev Event (Address : Type) := Receipt (System Address) (Transaction Address) Timelock.Answer

/-- The write that a call of the timelock made, by the operation it belongs to. -/
def writeOf (sites : Sites Address) (ops : ℕ → Option (Timelock.TimelockOperation Address))
    (c : Timelock.Sent) : Option (Symbol × ℤ) :=
  match ops c.id with
  | some op => if op.target = sites.params then setOf op else none
  | none => none

/-- The writes of the calls that returned, in the order in which they did. -/
def writes (sites : Sites Address) (t : Timelock.World Address) : List (Symbol × ℤ) :=
  t.sent.filterMap (writeOf sites t.operationEntry)

/-- The transaction queues the call of `op`, as the administrator and after the delay. -/
def Queues (x : Event Address) (op : Timelock.TimelockOperation Address) : Prop :=
  x.call.op = .timelock (.queue op.target op.function op.args op.eta) ∧
    (∃ admin ∈ x.call.signers, x.pre.timelock.adminEntry = some admin) ∧
    x.pre.timelock.now + Timelock.minDelay x.pre.timelock ≤ op.eta

/-- The authority is the timelock's, or nobody's yet. -/
def Behind (sites : Sites Address) (w : World Address) : Prop :=
  w.timelockEntry = none ∨ w.timelockEntry = some sites.timelock

instance (w : World Address) : Decidable (Behind sites w) := by
  unfold Behind
  infer_instance

theorem writeOf_kept (m : Timelock.Moves t t') (l : Timelock.Logged t) {c : Timelock.Sent}
    (found : t.operationEntry c.id = some op) :
    writeOf sites t'.operationEntry c = writeOf sites t.operationEntry c := by
  obtain ⟨op', found', hsame⟩ := m.kept l found
  rw [writeOf, writeOf, found, found']
  simp only [setOf, hsame.target, hsame.function, hsame.args]

theorem Replayed.agrees {ws : List (Symbol × ℤ)} {new : List Timelock.Sent}
    (r : Replayed sites signers t w new w') (g : Agrees ws w) :
    Agrees (ws ++ new.filterMap (writeOf sites t.operationEntry)) w' ∧
      ∀ c ∈ new, ∃ op, t.operationEntry c.id = some op := by
  induction r with
  | nil => exact ⟨by simpa using g, nofun⟩
  | @own new c op w₁ w₂ hist found target h ih =>
    refine ⟨?_, forall_mem_snoc ih.2 ⟨op, found⟩⟩
    have hwrite : [c].filterMap (writeOf sites t.operationEntry) = (setOf op).toList := by
      rw [List.filterMap_cons, writeOf, found]
      simp only [target, if_true]
      cases setOf op <;> rfl
    rw [List.filterMap_append, hwrite, ← List.append_assoc]
    exact ih.1.received (received h)
  | @other new c op w₁ hist found target ih =>
    refine ⟨?_, forall_mem_snoc ih.2 ⟨op, found⟩⟩
    have hwrite : [c].filterMap (writeOf sites t.operationEntry) = [] := by
      simp [writeOf, found, target]
    rw [List.filterMap_append, hwrite, List.append_nil]
    exact ih.1

theorem writes_moved {new : List Timelock.Sent} (moves : Timelock.Moves t t')
    (l : Timelock.Logged t) (sent : t'.sent = t.sent ++ new)
    (stored : ∀ c ∈ new, ∃ op, t.operationEntry c.id = some op) :
    writes sites t' = writes sites t ++ new.filterMap (writeOf sites t.operationEntry) := by
  rw [writes, writes, sent, List.filterMap_append]
  congr 1
  · refine List.filterMap_congr fun c hc => ?_
    obtain ⟨op, found, -⟩ := l.executed c hc
    exact writeOf_kept moves l found
  · refine List.filterMap_congr fun c hc => ?_
    obtain ⟨op, found⟩ := stored c hc
    exact writeOf_kept moves l found

/-- The registry is what the timelock's calls make of the defaults. -/
structure Governed (sites : Sites Address) (s : System Address) : Prop where
  logged : Timelock.Logged s.timelock
  agrees : Agrees (writes sites s.timelock) s.params

theorem governed_step {s s' : System Address} {tx : Transaction Address} {out : Timelock.Answer}
    (h : step sites s tx = .ok (s', out)) (hbehind : Behind sites s.params)
    (g : Governed sites s) : Governed sites s' := by
  cases stepped h with
  | @forwarded t new params moves sent calls =>
    obtain ⟨hagrees, hstored⟩ := calls.agrees g.agrees
    refine ⟨moves.logged g.logged, ?_⟩
    rw [writes_moved moves g.logged sent hstored]
    exact hagrees
  | initialized hinit => exact ⟨g.logged, g.agrees.initialized hinit⟩
  | @authorized params caller signed held =>
    rcases hbehind with hnone | htimelock
    · rw [hnone] at held
      cases held
    · rw [htimelock, Option.some.injEq] at held
      simp [Transaction.authorities, held] at signed

/-- Authority that the timelock has stays with it, unless an operation moves it. -/
theorem Replayed.authority {new : List Timelock.Sent} (r : Replayed sites signers t w new w')
    {a : Address} (hset : w.timelockEntry = some a) (hkept : ∀ c ∈ new, ∀ op,
      t.operationEntry c.id = some op → op.target = sites.params → op.function ≠ "set_timelock") :
    w'.timelockEntry = some a := by
  induction r with
  | nil => exact hset
  | @own new c op w₁ w₂ hist found target h ih =>
    have hbefore := ih fun d hd => hkept d (List.mem_append_left _ hd)
    exact (received h).authority hbefore (hkept c (by simp) op found target)
  | other hist found target ih => exact ih fun d hd => hkept d (List.mem_append_left _ hd)

theorem authority_step {s s' : System Address} {tx : Transaction Address} {out : Timelock.Answer}
    (h : step sites s tx = .ok (s', out)) (hset : s.params.timelockEntry = some sites.timelock) :
    s'.params.timelockEntry = some sites.timelock ∨
      ∃ new, s'.timelock.sent = s.timelock.sent ++ new ∧
        ∃ c ∈ new, ∃ op, s.timelock.operationEntry c.id = some op ∧ op.target = sites.params ∧
          op.function = "set_timelock" := by
  cases stepped h with
  | @forwarded t new params moves sent calls =>
    by_contra hnone
    push Not at hnone
    exact hnone.1 (calls.authority hset fun c hc op found target =>
      hnone.2 new sent c hc op found target)
  | initialized hinit =>
    rw [(initializeContract_ok hinit).1] at hset
    cases hset
  | authorized signed held =>
    rw [hset, Option.some.injEq] at held
    simp [Transaction.authorities, ← held] at signed

/-- Every stored operation was queued. -/
def Announced (h : List (Event Address)) (s : System Address) : Prop :=
  ∀ id op, s.timelock.operationEntry id = some op → ∃ x ∈ h, Queues x op

theorem resolve_queue {s : System Address} {op : Timelock.Op Address} {target : Address}
    {function : Symbol} {args : List (Val Address)} {eta : ℕ}
    (h : (resolve sites answers signers s op).1 = .queue target function args eta) :
    op = .queue target function args eta := by
  cases op with
  | queue => exact h
  | _ => cases h

theorem queue_signed {target : Address} {function : Symbol} {args : List (Val Address)} {eta : ℕ}
    {out : Timelock.Answer}
    (h : Timelock.step t ⟨signers, .queue target function args eta⟩ = .ok (t', out)) :
    ∃ admin ∈ signers, t.adminEntry = some admin := by
  simp only [Timelock.step, Timelock.queue, Timelock.requireAdmin, bind_eq_ok, okOr_eq_ok,
    requireAuth_eq_ok] at h
  obtain ⟨_, ⟨_, ⟨admin, hadmin, hsigned⟩, -⟩, -⟩ := h
  exact ⟨admin, hsigned, hadmin⟩

theorem announced_step {h : List (Event Address)} {x : Event Address}
    (accepted : step sites x.pre x.call = .ok (x.post, x.out)) (l : Timelock.Logged x.pre.timelock)
    (d : Announced h x.pre) : Announced (h ++ [x]) x.post := by
  intro id op' found
  have earlier {op : Timelock.TimelockOperation Address}
      (hold : x.pre.timelock.operationEntry id = some op) (hsame : Timelock.SameCall op op') :
      ∃ y ∈ h ++ [x], Queues y op' := by
    obtain ⟨y, hy, hcall, hadmin, hdelay⟩ := d id op hold
    refine ⟨y, List.mem_append_left _ hy, ?_, hadmin, hsame.eta.symm ▸ hdelay⟩
    rw [hcall, hsame.target, hsame.function, hsame.args, hsame.eta]
  obtain ⟨pre, ⟨signers, answers, op⟩, out, post⟩ := x
  cases op with
  | params op =>
    have hkept : post.timelock = pre.timelock := by
      cases op with
      | _ =>
        simp only [step, bind_eq_ok, pure_eq_ok, Prod.mk.injEq] at accepted
        obtain ⟨_, -, rfl, -⟩ := accepted
        rfl
    dsimp only at found
    rw [hkept] at found
    exact earlier found ⟨rfl, rfl, rfl, rfl⟩
  | timelock op =>
    simp only [step, bind_eq_ok, embed_eq_ok, pure_eq_ok, Prod.mk.injEq] at accepted
    obtain ⟨⟨u, out'⟩, hstep, rfl, -⟩ := accepted
    cases hold : pre.timelock.operationEntry id with
    | some op =>
      obtain ⟨op'', found', hsame⟩ := (Timelock.step_moves hstep).kept l hold
      obtain rfl := Option.some.inj (found'.symm.trans found)
      exact earlier hold hsame
    | none =>
      obtain ⟨hcall, -, hdelay⟩ := (Timelock.step_effect hstep).created hold found
      dsimp only at hcall
      rw [hcall] at hstep
      obtain ⟨admin, hsigned, hadmin⟩ := queue_signed hstep
      refine ⟨_, List.mem_append_right _ (List.mem_singleton_self _), ?_, ?_, hdelay⟩
      · rw [resolve_queue hcall]
      · exact ⟨admin, List.mem_of_mem_filter hsigned, hadmin⟩

theorem logged_step {s s' : System Address} {tx : Transaction Address} {out : Timelock.Answer}
    (h : step sites s tx = .ok (s', out)) (l : Timelock.Logged s.timelock) :
    Timelock.Logged s'.timelock := by
  cases stepped h with
  | forwarded moves => exact moves.logged l
  | initialized | authorized => exact l

/-- In every run the operations whose calls returned were queued, each by the timelock's
administrator and at least the delay of that time before its call. While nobody but the timelock
has had authority, the registry's entries are the defaults overwritten by the `set` calls among
them, in their order. And the timelock loses authority only by an operation of its own. -/
theorem parameters_governed (sites : Sites Address) (now : ℕ) (txs : List (Transaction Address)) :
    let r := run (step sites) (deployed Address now) txs
    (∀ c ∈ r.1.timelock.sent, ∃ op, r.1.timelock.operationEntry c.id = some op ∧ op.eta ≤ c.time ∧
      ∃ x ∈ r.2, Queues x op) ∧
    ((∀ x ∈ r.2, Behind sites x.pre.params) → r.1.params.paramEntry =
      writeAll (seeded r.1.params.timelockEntry) (writes sites r.1.timelock)) ∧
    ∀ x ∈ r.2, x.pre.params.timelockEntry = some sites.timelock →
      x.post.params.timelockEntry = some sites.timelock ∨
        ∃ new, x.post.timelock.sent = x.pre.timelock.sent ++ new ∧
          ∃ c ∈ new, ∃ op, x.pre.timelock.operationEntry c.id = some op ∧
            op.target = sites.params ∧ op.function = "set_timelock" := by
  intro r
  have tr : Trace (step sites) (deployed Address now) r.2 r.1 := run_trace _ _ txs
  refine ⟨fun c hc => ?_, fun hbehind => ?_, fun x hx hset => ?_⟩
  · obtain ⟨l, d⟩ := tr.history (I := fun h s => Timelock.Logged s.timelock ∧ Announced h s)
      (fun _ _ accepted hi => ⟨logged_step accepted hi.1, announced_step accepted hi.1 hi.2⟩)
      ⟨Timelock.logged_deployed now, nofun⟩
    obtain ⟨op, found, -, ripe⟩ := l.executed c hc
    exact ⟨op, found, ripe, d c.id op found⟩
  · have g : Governed sites r.1 := tr.invariant_of
      (fun x hx accepted g => governed_step accepted hx g) hbehind
      ⟨Timelock.logged_deployed now, ⟨fun _ => rfl, rfl⟩⟩
    exact g.agrees.entries
  · exact authority_step (mem_run.mp hx).2 hset

/-- Of two queued changes a sweep makes the second; the first names another caller. -/
example : (run (step ⟨8, 9⟩) (deployed ℕ 0)
    [⟨[1], ⟨fun _ => .ok (), .ok .abort⟩, .timelock (.initializeContract 1 100)⟩,
      ⟨[1], ⟨fun _ => .ok (), .ok .abort⟩, .params (.initializeContract 8)⟩,
      ⟨[1], ⟨fun _ => .ok (), .ok .abort⟩,
        .timelock (.queue 9 "set" [.address 7, .symbol "paused", .i128 1] 100)⟩,
      ⟨[1], ⟨fun _ => .ok (), .ok .abort⟩,
        .timelock (.queue 9 "set" [.address 8, .symbol "bounty_low", .i128 70] 100)⟩,
      ⟨[1], ⟨fun _ => .ok (), .ok .abort⟩, .timelock (.advance 100)⟩,
      ⟨[2], ⟨fun _ => .ok (), .ok .abort⟩, .timelock (.executeDue 2 fun _ => .ok ())⟩]).1.params
    |> fun w => (get w "paused", get w "bounty_low", getOrDefault w "bounty_mini" 3)
      = (some 0, some 70, 3) := by
  decide

end RefractContracts.Params
