import RefractContracts.Oracle.Admission

/-! The discipline of the feeds. A stored reading is that of the latest submission to
its feed and was neither from the future nor stale then; it is replaced by readings
that are not older. The time kept for a relayer and a feed is that of their last
submission, which removals leave, so two submissions are an interval apart. -/

namespace RefractContracts.Oracle

open Host

variable {Address : Type} [DecidableEq Address]

/-- The call is an accepted submission to the feed. -/
def submitsTo (feedId : Symbol) (x : Event Address) : Prop :=
  ∃ relayer reading, x.call.op = .submits relayer feedId reading

/-- At time `t` the reading is neither from the future nor stale. -/
def OracleReading.Timely (reading : OracleReading) (t : ℕ) : Prop :=
  reading.timestamp ≤ t ∧ t ≤ reading.timestamp + maxStalenessSecs

/-- No feed of `w` has an older reading, or none, in `w'`. -/
def ReadsOn (w w' : World Address) : Prop :=
  ∀ feedId reading, w.readingEntry feedId = some reading →
    ∃ later, w'.readingEntry feedId = some later ∧ reading.timestamp ≤ later.timestamp

/-- Submissions of one relayer to one feed are an interval of ledger time apart. -/
def Spaced (h : List (Event Address)) : Prop :=
  h.Pairwise fun x y => ∀ relayer feedId reading reading',
    x.call.op = .submits relayer feedId reading → y.call.op = .submits relayer feedId reading' →
      x.pre.now + minSubmissionIntervalSecs ≤ y.pre.now

/-- What the stored readings and submission times say about the history. -/
structure FeedLog (h : List (Event Address)) (w : World Address) : Prop where
  stored : ∀ feedId reading, w.readingEntry feedId = some reading →
    ∃ x l, Latest (submitsTo feedId) h x l ∧
      (∃ relayer, x.call.op = .submits relayer feedId reading) ∧ reading.Timely x.pre.now
  timed : ∀ x ∈ h, ∀ relayer feedId reading, x.call.op = .submits relayer feedId reading →
    ∃ lastAt, w.lastSubmissionAtEntry (relayer, feedId) = some lastAt ∧ x.pre.now ≤ lastAt
  spaced : Spaced h

variable {h : List (Event Address)} {x : Event Address} {w w' : World Address}

omit [DecidableEq Address] in
theorem Op.submits_inj {relayer relayer' : Address} {feedId feedId' : Symbol}
    {reading reading' : OracleReading}
    (hop : Op.submits relayer feedId reading = Op.submits relayer' feedId' reading') :
    relayer = relayer' ∧ feedId = feedId' ∧ reading = reading' := by
  obtain ⟨hrelayer, hfeed, hvalue, htime, hsource⟩ := Op.submit.inj hop
  cases reading
  cases reading'
  exact ⟨hrelayer, hfeed, by simp_all⟩

omit [DecidableEq Address] in
theorem ReadsOn.trans {v : World Address} (h₁ : ReadsOn w v) (h₂ : ReadsOn v w') :
    ReadsOn w w' := by
  intro feedId reading hr
  obtain ⟨mid, hmid, hle⟩ := h₁ feedId reading hr
  obtain ⟨later, hlater, hle'⟩ := h₂ feedId mid hmid
  exact ⟨later, hlater, hle.trans hle'⟩

theorem Effect.readsOn {op : Op Address} (e : Effect w w' op) : ReadsOn w w' := by
  cases e with
  | @submitted relayer feedId reading active past fresh spaced forward =>
    intro f old hold
    by_cases hf : f = feedId
    · subst hf
      exact ⟨reading, Function.update_self _ _ _, forward old hold⟩
    · exact ⟨old, (Function.update_of_ne hf _ _).trans hold, le_rfl⟩
  | _ => exact fun _ reading hr => ⟨reading, hr, le_rfl⟩

omit [DecidableEq Address] in
/-- A call that is no submission, and leaves the readings and the submission times. -/
theorem FeedLog.keep (i : FeedLog h w) (hx : ∀ feedId, ¬ submitsTo feedId x)
    (hreadings : w'.readingEntry = w.readingEntry)
    (htimes : w'.lastSubmissionAtEntry = w.lastSubmissionAtEntry) : FeedLog (h ++ [x]) w' where
  stored feedId reading hr := by
    obtain ⟨y, l, hy, hop, htimely⟩ := i.stored feedId reading (hreadings ▸ hr)
    exact ⟨y, l ++ [x], hy.snoc (hx feedId), hop, htimely⟩
  timed := by
    rw [htimes]
    exact forall_mem_snoc i.timed fun relayer feedId reading hop =>
      absurd ⟨relayer, reading, hop⟩ (hx feedId)
  spaced := pairwise_snoc i.spaced fun _ _ _ feedId _ reading' _ hop =>
    absurd ⟨_, reading', hop⟩ (hx feedId)

theorem feedLog_step (h : List (Event Address)) (x : Event Address)
    (accepted : step x.pre x.call = .ok (x.post, x.out)) (i : FeedLog h x.pre) :
    FeedLog (h ++ [x]) x.post := by
  have e := step_effect accepted
  obtain ⟨pre, ⟨signers, op⟩, out, post⟩ := x
  simp only at e i ⊢
  cases e with
  | @submitted relayer feedId reading active past fresh spaced forward =>
    refine ⟨fun f old hold => ?_, ?_, pairwise_snoc i.spaced ?_⟩
    · rcases update_eq_some hold with ⟨rfl, rfl⟩ | ⟨hne, hold⟩
      · exact ⟨_, [], .of_snoc h ⟨relayer, old, rfl⟩, ⟨relayer, rfl⟩, past, fresh⟩
      · obtain ⟨y, l, hy, hop, htimely⟩ := i.stored f old hold
        refine ⟨y, _, hy.snoc ?_, hop, htimely⟩
        rintro ⟨r, reading', hop'⟩
        exact hne (Op.submits_inj hop').2.1.symm
    · refine forall_mem_snoc (fun y hy r f old hop => ?_) fun r f old hop => ?_
      · obtain ⟨lastAt, hlast, hle⟩ := i.timed y hy r f old hop
        by_cases hkey : (r, f) = (relayer, feedId)
        · -- the last submission at this key is further back than the interval
          have hgap := spaced lastAt (hkey ▸ hlast)
          rw [hkey]
          refine ⟨pre.now, Function.update_self _ _ _, ?_⟩
          unfold minSubmissionIntervalSecs at hgap
          omega
        · exact ⟨lastAt, (Function.update_of_ne hkey _ _).trans hlast, hle⟩
      · obtain ⟨rfl, rfl, -⟩ := Op.submits_inj hop
        exact ⟨pre.now, Function.update_self _ _ _, le_rfl⟩
    · intro y hy r f old new hop hop'
      obtain ⟨rfl, rfl, -⟩ := Op.submits_inj hop'
      obtain ⟨lastAt, hlast, hle⟩ := i.timed y hy relayer feedId old hop
      have hgap := spaced lastAt hlast
      unfold minSubmissionIntervalSecs at hgap ⊢
      simp only
      omega
  | administered kind =>
    refine i.keep ?_ rfl rfl
    rintro feedId ⟨relayer, reading, rfl⟩
    exact kind
  | _ =>
    refine i.keep ?_ rfl rfl
    rintro feedId ⟨_, _, ⟨⟩⟩

/-! ### Runs -/

theorem feedLog_run (now : ℕ) (txs : List (Transaction Address)) :
    FeedLog (run step (deployed Address now) txs).2 (run step (deployed Address now) txs).1 :=
  (run_trace step _ txs).history feedLog_step ⟨nofun, List.forall_mem_nil _, .nil⟩

/-- In every run the timestamp of a feed never decreases, the stored reading was timely
when it was accepted, the submissions of a relayer to a feed are spaced, and a
refused call changes nothing. -/
theorem feed_discipline (now : ℕ) (txs : List (Transaction Address)) :
    let r := run step (deployed Address now) txs
    (∀ g l, txs = g ++ l → ReadsOn (run step (deployed Address now) g).1 r.1) ∧
      (∀ feedId reading, r.1.readingEntry feedId = some reading →
        ∃ x l, Latest (submitsTo feedId) r.2 x l ∧
          (∃ relayer, x.call.op = .submits relayer feedId reading) ∧
          reading.Timely x.pre.now) ∧
      Spaced r.2 ∧
      ∀ g tx l e, txs = g ++ tx :: l →
        step (run step (deployed Address now) g).1 tx = .error e →
          r = run step (deployed Address now) (g ++ l) := by
  intro r
  have hlog := feedLog_run now txs
  refine ⟨fun g l hsplit => ?_, hlog.stored, hlog.spaced, fun g tx l e hsplit hrefused => ?_⟩
  · have hfrom : r.1 = (run step (run step (deployed Address now) g).1 l).1 := by
      simp only [r]
      rw [hsplit, run_concat]
    rw [hfrom]
    exact run_invariant (I := ReadsOn (run step (deployed Address now) g).1)
      (fun _ accepted hx => hx.trans (step_effect accepted).readsOn)
      (fun _ reading hr => ⟨reading, hr, le_rfl⟩) l
  · simp only [r]
    rw [hsplit]
    exact run_refused hrefused

/-- A reading that the oracle returns is timely. -/
theorem getReading_timely (now : ℕ) (txs : List (Transaction Address)) (feedId : Symbol)
    (reading : OracleReading)
    (h : getReading (run step (deployed Address now) txs).1 feedId = .ok reading) :
    reading.Timely (run step (deployed Address now) txs).1.now := by
  simp only [getReading, bind_eq_ok, okOr_eq_ok, bail_eq_ok, pure_eq_ok, not_lt] at h
  obtain ⟨_, hstored, -, hage, rfl⟩ := h
  obtain ⟨x, l, hx, -, hpast, -⟩ := (feedLog_run now txs).stored feedId _ hstored
  have hlast := ((run_trace step (deployed Address now) txs).le_end
    fun y hy => (step_effect hy).now_le).2 x hx.mem
  exact ⟨hpast.trans hlast, Nat.sub_le_iff_le_add'.mp hage⟩

end RefractContracts.Oracle
