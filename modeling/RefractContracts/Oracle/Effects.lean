import RefractContracts.Oracle.Contract

/-! What an accepted transaction of the oracle does. The entry points are unfolded
here; properties of runs are case analyses on these effects. -/

namespace RefractContracts.Oracle

open Host

variable {Address : Type}

/-- The operations on the administrator, the thresholds and the metadata. -/
def Op.Administers : Op Address → Prop
  | .proposeAdmin .. | .acceptAdmin .. | .setThreshold .. | .setFeedMetadata .. => True
  | _ => False

/-- The submission of a reading by a relayer to a feed. -/
def Op.submits (relayer : Address) (feedId : Symbol) (reading : OracleReading) : Op Address :=
  .submit relayer feedId reading.value reading.timestamp reading.source

variable [DecidableEq Address]

inductive Effect (w : World Address) : World Address → Op Address → Prop
  | initialized {admin} (first : w.adminEntry = none) :
      Effect w { w with adminEntry := some admin, relayersEntry := some [] }
        (.initializeContract admin)
  | alreadyActive {relayer} (active : relayer ∈ relayers w) : Effect w w (.addRelayer relayer)
  | queued {relayer} (inactive : relayer ∉ relayers w) :
      Effect w { w with
          pendingRelayerEntry := Function.update w.pendingRelayerEntry relayer (some w.now) }
        (.addRelayer relayer)
  | activated {relayer queuedAt} (found : w.pendingRelayerEntry relayer = some queuedAt)
      (ripe : u64SaturatingAdd queuedAt minAdditionNoticePeriodSecs ≤ w.now)
      (inactive : relayer ∉ relayers w) :
      Effect w { w with
          relayersEntry := some (relayers w ++ [relayer])
          relayerReputationEntry :=
            Function.update w.relayerReputationEntry relayer (some reputationInitial)
          pendingRelayerEntry := Function.update w.pendingRelayerEntry relayer none }
        (.activateRelayer relayer)
  | cleared {relayer queuedAt} (found : w.pendingRelayerEntry relayer = some queuedAt)
      (active : relayer ∈ relayers w) :
      Effect w { w with
          pendingRelayerEntry := Function.update w.pendingRelayerEntry relayer none }
        (.activateRelayer relayer)
  | removed {relayer} :
      Effect w { w with
          relayersEntry := some ((relayers w).filter (· ≠ relayer))
          pendingRelayerEntry := Function.update w.pendingRelayerEntry relayer none }
        (.removeRelayer relayer)
  | reputed {relayer delta score} (low : reputationFloor ≤ score)
      (high : score ≤ reputationCeiling) :
      Effect w { w with
          relayerReputationEntry := Function.update w.relayerReputationEntry relayer (some score) }
        (.updateReputation relayer delta)
  | administered {op admin pending thresholds metadata} (kind : op.Administers) :
      Effect w { w with
          adminEntry := admin, pendingAdminEntry := pending, thresholdEntry := thresholds
          feedMetadataEntry := metadata } op
  | submitted {relayer feedId reading} (active : relayer ∈ relayers w)
      (past : reading.timestamp ≤ w.now) (fresh : w.now ≤ reading.timestamp + maxStalenessSecs)
      (spaced : ∀ lastAt, w.lastSubmissionAtEntry (relayer, feedId) = some lastAt →
        minSubmissionIntervalSecs ≤ w.now - lastAt)
      (forward : ∀ existing, w.readingEntry feedId = some existing →
        existing.timestamp ≤ reading.timestamp) :
      Effect w { w with
          lastSubmissionAtEntry :=
            Function.update w.lastSubmissionAtEntry (relayer, feedId) (some w.now)
          readingEntry := Function.update w.readingEntry feedId (some reading) }
        (.submits relayer feedId reading)
  | advanced {seconds} : Effect w { w with now := w.now + seconds } (.advance seconds)

variable {w w' : World Address} {signers : List Address}

theorem addRelayer_ok {relayer : Address} (h : addRelayer signers w relayer = .ok w') :
    Effect w w' (.addRelayer relayer) := by
  simp only [addRelayer, bind_eq_ok] at h
  obtain ⟨_, -, h⟩ := h
  split_ifs at h with hactive
  · obtain rfl := (pure_eq_ok _ _).mp h
    exact .alreadyActive hactive
  · obtain rfl := (pure_eq_ok _ _).mp h
    exact .queued hactive

theorem activateRelayer_ok {relayer : Address} (h : activateRelayer w relayer = .ok w') :
    Effect w w' (.activateRelayer relayer) := by
  simp only [activateRelayer, bind_eq_ok, okOr_eq_ok, bail_eq_ok, not_lt, pure_eq_ok] at h
  obtain ⟨queuedAt, found, -, ripe, rfl⟩ := h
  split_ifs with hactive
  · exact .cleared found hactive
  · exact .activated found ripe hactive

theorem updateReputation_ok {relayer : Address} {delta : ℤ}
    (h : updateReputation signers w relayer delta = .ok w') :
    Effect w w' (.updateReputation relayer delta) := by
  simp only [updateReputation, bind_eq_ok, i128_eq_ok, pure_eq_ok] at h
  obtain ⟨_, -, moved, -, rfl⟩ := h
  have hbounds : reputationFloor ≤ reputationCeiling := by decide
  exact .reputed (le_min (le_max_right _ _) hbounds) (min_le_right _ _)

theorem submit_ok {relayer : Address} {feedId source : Symbol} {value : ℤ} {timestamp : ℕ}
    (h : submit signers w relayer feedId value timestamp source = .ok w') :
    Effect w w' (.submit relayer feedId value timestamp source) := by
  simp only [submit, requireRelayer, bind_eq_ok, bail_eq_ok, uSub_eq_ok, pure_eq_ok, not_not,
    not_lt] at h
  obtain ⟨-, -, -, active, -, past, age, ⟨-, rfl⟩, -, fresh, -, spaced, -, forward, rfl⟩ := h
  refine @Effect.submitted _ _ w relayer feedId ⟨value, timestamp, source⟩ active past ?_ ?_ ?_
  · exact Nat.sub_le_iff_le_add'.mp fresh
  · intro lastAt hlast
    simpa [hlast] using spaced
  · intro existing hexisting
    simpa [hexisting] using forward

/-- Every accepted transaction has one of the effects. -/
theorem step_effect {tx : Transaction Address} {out : Unit} (h : step w tx = .ok (w', out)) :
    Effect w w' tx.op := by
  obtain ⟨signers, op⟩ := tx
  cases op with
  | initializeContract admin =>
    simp only [step, initializeContract, bind_eq_ok, bail_eq_ok, pure_eq_ok, Prod.mk.injEq,
      Option.not_isSome_iff_eq_none] at h
    obtain ⟨_, ⟨-, first, rfl⟩, rfl, -⟩ := h
    exact .initialized first
  | addRelayer relayer =>
    simp only [step, bind_eq_ok, pure_eq_ok, Prod.mk.injEq] at h
    obtain ⟨_, hadd, rfl, -⟩ := h
    exact addRelayer_ok hadd
  | activateRelayer relayer =>
    simp only [step, bind_eq_ok, pure_eq_ok, Prod.mk.injEq] at h
    obtain ⟨_, hactivate, rfl, -⟩ := h
    exact activateRelayer_ok hactivate
  | removeRelayer relayer =>
    simp only [step, removeRelayer, bind_eq_ok, pure_eq_ok, Prod.mk.injEq] at h
    obtain ⟨_, ⟨_, -, rfl⟩, rfl, -⟩ := h
    exact .removed
  | updateReputation relayer delta =>
    simp only [step, bind_eq_ok, pure_eq_ok, Prod.mk.injEq] at h
    obtain ⟨_, hupdate, rfl, -⟩ := h
    exact updateReputation_ok hupdate
  | proposeAdmin newAdmin =>
    simp only [step, proposeAdmin, bind_eq_ok, pure_eq_ok, Prod.mk.injEq] at h
    obtain ⟨_, ⟨_, -, rfl⟩, rfl, -⟩ := h
    exact .administered trivial
  | acceptAdmin caller =>
    simp only [step, acceptAdmin, bind_eq_ok, pure_eq_ok, Prod.mk.injEq] at h
    obtain ⟨_, ⟨_, -, _, -, _, -, rfl⟩, rfl, -⟩ := h
    exact .administered trivial
  | setThreshold feedId threshold =>
    simp only [step, setThreshold, bind_eq_ok, pure_eq_ok, Prod.mk.injEq] at h
    obtain ⟨_, ⟨_, -, rfl⟩, rfl, -⟩ := h
    exact .administered trivial
  | setFeedMetadata feedId metadata =>
    simp only [step, setFeedMetadata, bind_eq_ok, pure_eq_ok, Prod.mk.injEq] at h
    obtain ⟨_, ⟨_, -, rfl⟩, rfl, -⟩ := h
    exact .administered trivial
  | submit relayer feedId value timestamp source =>
    simp only [step, bind_eq_ok, pure_eq_ok, Prod.mk.injEq] at h
    obtain ⟨_, hsubmit, rfl, -⟩ := h
    exact submit_ok hsubmit
  | advance seconds =>
    simp only [step, bind_eq_ok, u64_eq_ok, pure_eq_ok, Prod.mk.injEq] at h
    obtain ⟨_, ⟨-, rfl⟩, rfl, -⟩ := h
    exact .advanced

/-- Ledger time does not go back. -/
theorem Effect.now_le {op : Op Address} (e : Effect w w' op) : w.now ≤ w'.now := by
  cases e with
  | advanced => exact Nat.le_add_right _ _
  | _ => exact le_rfl

end RefractContracts.Oracle
