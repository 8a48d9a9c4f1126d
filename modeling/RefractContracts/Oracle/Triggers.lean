import RefractContracts.Oracle.Admission

/-! What the oracle decides from the readings: whether a reading triggers a coverage, and what
the breakers of the guardians poll. A threshold can be set for a feed, but a trigger compares
with the built-in one of its coverage type, and so differs where the reading lies between the
two. The guardian helpers never trap, and report tripped wherever a step of theirs fails. -/

namespace RefractContracts.Oracle

open Host

/-- Fixed-point scale of the readings. -/
def scale : ℤ := 10000000

def depegPriceThreshold : ℤ := 95 * scale / 100

def crashReturnThreshold : ℤ := -30 * scale / 100

def liquidationRatioThreshold : ℤ := 85 * scale / 100

def tvlThreshold : ℤ := 500000 * scale

/-- In minutes, unscaled. -/
def flightDelayThreshold : ℤ := 120

section Queries
variable {Address : Type} (w : World Address) (feedId : Symbol)

/-- The configured threshold of a feed, or none if it uses the default. -/
def getThreshold : Option ℤ := w.thresholdEntry feedId

/-- Whether the trigger condition of a coverage type is met: 0 is a depeg, 1 a crash, 2 a
liquidation, 3 a smart contract risk and 4 a flight delay. -/
def isTriggered (coverageType : ℕ) : Call Bool := do
  let reading ← getReading w feedId
  match coverageType with
  | 0 => pure (decide (reading.value < depegPriceThreshold))
  | 1 => pure (decide (reading.value < crashReturnThreshold))
  | 2 => pure (decide (reading.value < liquidationRatioThreshold))
  | 3 => pure (decide (reading.value < tvlThreshold))
  | 4 => pure (decide (reading.value > flightDelayThreshold))
  | _ => .error (.error .unknownCoverageType)

/-- Whether a feed has no reading, or one older than `maxStalenessSecs`. -/
def isStale (maxStalenessSecs : ℕ) : Call Bool :=
  match w.readingEntry feedId with
  | none => pure true
  | some r => pure (decide (maxStalenessSecs < w.now - r.timestamp))

/-- The deviation of a feed from `pegPrice` in basis points. -/
def depegBps (pegPrice : ℤ) : Call (Option ℤ) :=
  pure (if pegPrice ≤ 0 then none
    else do
      let reading ← w.readingEntry feedId
      let diff ← i128Option (if pegPrice ≤ reading.value then reading.value - pegPrice
        else pegPrice - reading.value)
      i128CheckedDiv (← i128Option (diff * 10000)) pegPrice)

/-- Whether a feed trips a breaker, whether it is stale, and its deviation. -/
def guardianStatus (maxStalenessSecs : ℕ) (pegPrice maxDepegBps : ℤ) : Call (Bool × Bool × ℤ) := do
  let stale ← isStale w feedId maxStalenessSecs
  let band := (← depegBps w feedId pegPrice).getD maxI128
  let depegged := decide (maxDepegBps < band)
  pure (stale || depegged, stale, band)

end Queries

/-! ### Configured thresholds -/

/-- The built-in threshold of a coverage type. -/
def defaultThreshold : ℕ → Option ℤ
  | 0 => some depegPriceThreshold
  | 1 => some crashReturnThreshold
  | 2 => some liquidationRatioThreshold
  | 3 => some tvlThreshold
  | 4 => some flightDelayThreshold
  | _ => none

/-- How a coverage type compares a reading with a threshold: a delay is one above it, and
everything else one below. -/
def Crosses (coverageType : ℕ) (value threshold : ℤ) : Prop :=
  if coverageType = 4 then threshold < value else value < threshold

/-- The reading is past one of the thresholds and not past the other. -/
def Between (coverageType : ℕ) (value s t : ℤ) : Prop :=
  if coverageType = 4 then min s t < value ∧ value ≤ max s t else min s t ≤ value ∧ value < max s t

instance (coverageType : ℕ) (value threshold : ℤ) :
    Decidable (Crosses coverageType value threshold) :=
  inferInstanceAs (Decidable (ite _ _ _))

instance (coverageType : ℕ) (value s t : ℤ) : Decidable (Between coverageType value s t) :=
  inferInstanceAs (Decidable (ite _ _ _))

section Configured
variable {Address : Type} {w w' : World Address} {feedId : Symbol} {h : List (Event Address)}
  {x : Event Address}

/-- The threshold that the call sets for a feed. -/
def sets (feedId : Symbol) (x : Event Address) : Option ℤ :=
  match x.call.op with
  | .setThreshold f threshold => if f = feedId then some threshold else none
  | _ => none

/-- The threshold last set for a feed. -/
def lastSet (feedId : Symbol) (h : List (Event Address)) : Option ℤ :=
  (h.filterMap (sets feedId)).getLast?

theorem lastSet_snoc (h : List (Event Address)) (x : Event Address) :
    lastSet feedId (h ++ [x]) = (sets feedId x).or (lastSet feedId h) := by
  rw [lastSet, List.filterMap_append]
  cases hx : sets feedId x <;> simp [hx, lastSet]

variable [DecidableEq Address]

/-- A threshold is written by `set_threshold` alone. -/
theorem step_threshold (accepted : step x.pre x.call = .ok (x.post, x.out)) :
    x.post.thresholdEntry feedId = (sets feedId x).or (x.pre.thresholdEntry feedId) := by
  obtain ⟨pre, ⟨signers, op⟩, out, post⟩ := x
  cases op with
  | setThreshold f threshold =>
    simp only [step, setThreshold, bind_eq_ok, pure_eq_ok, Prod.mk.injEq] at accepted
    obtain ⟨_, ⟨_, -, rfl⟩, rfl, -⟩ := accepted
    by_cases hf : f = feedId
    · simp [sets, hf]
    · simp [sets, hf, Function.update_of_ne (Ne.symm hf)]
  | proposeAdmin newAdmin =>
    simp only [step, proposeAdmin, bind_eq_ok, pure_eq_ok, Prod.mk.injEq] at accepted
    obtain ⟨_, ⟨_, -, rfl⟩, rfl, -⟩ := accepted
    rfl
  | acceptAdmin caller =>
    simp only [step, acceptAdmin, bind_eq_ok, pure_eq_ok, Prod.mk.injEq] at accepted
    obtain ⟨_, ⟨_, -, _, -, _, -, rfl⟩, rfl, -⟩ := accepted
    rfl
  | setFeedMetadata f metadata =>
    simp only [step, setFeedMetadata, bind_eq_ok, pure_eq_ok, Prod.mk.injEq] at accepted
    obtain ⟨_, ⟨_, -, rfl⟩, rfl, -⟩ := accepted
    rfl
  | _ =>
    have e := step_effect accepted
    dsimp only at e
    cases e with
    | administered kind => cases kind
    | _ => rfl

/-- The stored threshold is the one last set. -/
theorem getThreshold_run (now : ℕ) (txs : List (Transaction Address)) :
    getThreshold (run step (deployed Address now) txs).1 feedId =
      lastSet feedId (run step (deployed Address now) txs).2 := by
  refine (run_trace step _ txs).history
    (I := fun h w => getThreshold w feedId = lastSet feedId h) ?_ rfl
  intro h x accepted ih
  rw [getThreshold, step_threshold accepted, lastSet_snoc]
  exact congrArg _ ih

end Configured

/-! ### Triggers -/

section Triggers
variable {Address : Type} {w : World Address} {feedId : Symbol} {coverageType : ℕ}
  {reading : OracleReading} {value s t d : ℤ}

/-- The built-in threshold is the one compared with. -/
theorem isTriggered_eq (hread : getReading w feedId = .ok reading)
    (hd : defaultThreshold coverageType = some d) :
    isTriggered w feedId coverageType = .ok (decide (Crosses coverageType reading.value d)) := by
  rw [isTriggered, hread, ok_bind]
  unfold defaultThreshold at hd
  split at hd
  case h_6 => cases hd
  all_goals
    cases hd
    rfl

theorem crosses_iff : (Crosses coverageType value s ↔ Crosses coverageType value t) ↔
    ¬ Between coverageType value s t := by
  unfold Crosses Between
  split <;> omega

variable [DecidableEq Address]

/-- In every run a trigger compares a fresh reading with the threshold last set for the feed
exactly when the reading does not lie between that threshold and the default. -/
theorem isTriggered_configured_iff (now : ℕ) (txs : List (Transaction Address)) (feedId : Symbol)
    (coverageType : ℕ) (reading : OracleReading) (d : ℤ)
    (hread : getReading (run step (deployed Address now) txs).1 feedId = .ok reading)
    (hd : defaultThreshold coverageType = some d) :
    let r := run step (deployed Address now) txs
    isTriggered r.1 feedId coverageType =
        .ok (decide (Crosses coverageType reading.value ((lastSet feedId r.2).getD d))) ↔
      ∀ t, lastSet feedId r.2 = some t → ¬ Between coverageType reading.value d t := by
  intro r
  rw [isTriggered_eq hread hd, Except.ok.injEq, decide_eq_decide]
  cases lastSet feedId r.2 with
  | none => simp
  | some t =>
    rw [Option.getD_some, crosses_iff]
    simp

/-- The administrator sets a threshold of 0.97 for a feed that then reads 0.96. -/
def tightened : List (Transaction ℕ) :=
  [⟨[1], .initializeContract 1⟩, ⟨[1], .addRelayer 2⟩, ⟨[], .advance 172800⟩,
    ⟨[], .activateRelayer 2⟩, ⟨[1], .setThreshold "USDC" 9700000⟩,
    ⟨[2], .submit 2 "USDC" 9600000 172800 "band"⟩]

theorem isTriggered_configured_iff_tvl :
    isTriggered (run step (deployed ℕ 0) tightened).1 "USDC" 3 = .ok (decide (Crosses 3 9600000
      ((lastSet "USDC" (run step (deployed ℕ 0) tightened).2).getD tvlThreshold))) ↔
      ∀ t, lastSet "USDC" (run step (deployed ℕ 0) tightened).2 = some t →
        ¬ Between 3 9600000 tvlThreshold t :=
  isTriggered_configured_iff 0 tightened "USDC" 3 ⟨9600000, 172800, "band"⟩ _
    (by decide +kernel) rfl

/-- The reading is below the threshold that was set, and the coverage is not triggered. -/
theorem tightened_untriggered :
    getThreshold (run step (deployed ℕ 0) tightened).1 "USDC" = some 9700000 ∧
      lastSet "USDC" (run step (deployed ℕ 0) tightened).2 = some 9700000 ∧
      getReading (run step (deployed ℕ 0) tightened).1 "USDC" = .ok ⟨9600000, 172800, "band"⟩ ∧
      Crosses 0 9600000 9700000 ∧
      isTriggered (run step (deployed ℕ 0) tightened).1 "USDC" 0 = .ok false := by
  decide +kernel

end Triggers

/-! ### Guardian helpers -/

section Guardian
variable {Address : Type} {w : World Address} {feedId : Symbol} {pegPrice band : ℤ}

/-- A deviation that is reported is that of the stored reading from a positive peg. -/
theorem depegBps_eq_some (h : depegBps w feedId pegPrice = .ok (some band)) :
    ∃ reading, w.readingEntry feedId = some reading ∧ 0 < pegPrice ∧
      band = |reading.value - pegPrice| * 10000 / pegPrice := by
  simp only [depegBps, pure_eq_ok] at h
  split_ifs at h with hpeg
  simp only [Option.bind_eq_bind, Option.bind_eq_some_iff] at h
  obtain ⟨reading, hstored, diff, hdiff, scaled, hscaled, hdiv⟩ := h
  refine ⟨reading, hstored, not_le.mp hpeg, ?_⟩
  have habs : diff = |reading.value - pegPrice| := by
    obtain ⟨-, rfl⟩ := (i128Option_eq_some _ _).mp hdiff
    split_ifs with hle
    · exact (abs_of_nonneg (sub_nonneg.mpr hle)).symm
    · rw [abs_of_neg (sub_neg.mpr (not_le.mp hle)), neg_sub]
  obtain ⟨-, rfl⟩ := (i128Option_eq_some _ _).mp hscaled
  rw [i128CheckedDiv, if_neg (by omega)] at hdiv
  obtain ⟨-, rfl⟩ := (i128Option_eq_some _ _).mp hdiv
  rw [habs]
  exact Int.tdiv_eq_ediv_of_nonneg (by positivity)

/-- The status of a feed never traps; where it is not tripped there is a fresh reading in the
band around the peg. -/
theorem guardianStatus_safe (w : World Address) (feedId : Symbol) (maxStalenessSecs : ℕ)
    (pegPrice maxDepegBps : ℤ) :
    ∃ tripped stale band,
      guardianStatus w feedId maxStalenessSecs pegPrice maxDepegBps = .ok (tripped, stale, band) ∧
        (tripped = false → maxDepegBps < maxI128 →
          ∃ reading, w.readingEntry feedId = some reading ∧ 0 < pegPrice ∧
            w.now ≤ reading.timestamp + maxStalenessSecs ∧
            |reading.value - pegPrice| * 10000 < (maxDepegBps + 1) * pegPrice) := by
  obtain ⟨stale, hstale⟩ : ∃ stale, isStale w feedId maxStalenessSecs = .ok stale := by
    unfold isStale
    split <;> exact ⟨_, rfl⟩
  obtain ⟨deviation, hdeviation⟩ : ∃ deviation, depegBps w feedId pegPrice = .ok deviation :=
    ⟨_, rfl⟩
  refine ⟨stale || decide (maxDepegBps < deviation.getD maxI128), stale, deviation.getD maxI128,
    ?_, fun htripped hbelow => ?_⟩
  · rw [guardianStatus, hstale, ok_bind, hdeviation, ok_bind]
    rfl
  · obtain ⟨rfl, hband⟩ := Bool.or_eq_false_iff.mp htripped
    rw [decide_eq_false_iff_not, not_lt] at hband
    -- without a deviation the band is the largest integer, which is above the bound
    cases deviation with
    | none => exact absurd hbelow (not_lt.mpr hband)
    | some band =>
      obtain ⟨reading, hstored, hpeg, rfl⟩ := depegBps_eq_some hdeviation
      refine ⟨reading, hstored, hpeg, ?_, ?_⟩
      · simp only [isStale, hstored, pure_eq_ok, decide_eq_false_iff_not, not_lt] at hstale
        exact Nat.sub_le_iff_le_add'.mp hstale
      · exact (Int.ediv_lt_iff_lt_mul hpeg).mp (Int.lt_add_one_of_le hband)

end Guardian

end RefractContracts.Oracle
