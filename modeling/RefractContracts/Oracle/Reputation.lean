import RefractContracts.Oracle.Admission

/-! The scores of relayers. `activate_relayer` writes the initial score of every relayer
it makes active, so a relayer that was removed comes back with it. The scores change
by `update_reputation` alone, after the first registration, exactly when no relayer is
activated again whose score is another. -/

namespace RefractContracts.Oracle

open Host

variable {Address : Type}

/-- After the calls `g`, the call changes no score other than by `update_reputation`
and, at the first registration of a relayer, to the initial one. -/
def Sticks (g : List (Event Address)) (x : Event Address) : Prop :=
  ∀ relayer, x.post.relayerReputationEntry relayer ≠ x.pre.relayerReputationEntry relayer →
    (∃ delta, x.call.op = .updateReputation relayer delta) ∨
      (activates relayer x ∧ x.post.relayerReputationEntry relayer = some reputationInitial ∧
        ∀ y ∈ g, ¬ activates relayer y)

/-- The call activates a relayer, not for the first time, whose score is not the
initial one. -/
def Restores (r : World Address × List (Event Address)) (tx : Transaction Address) : Prop :=
  ∃ relayer queuedAt, tx.op = .activateRelayer relayer ∧
    r.1.pendingRelayerEntry relayer = some queuedAt ∧
    u64SaturatingAdd queuedAt minAdditionNoticePeriodSecs ≤ r.1.now ∧ relayer ∉ relayers r.1 ∧
    r.1.relayerReputationEntry relayer ≠ some reputationInitial ∧
    ∃ y ∈ r.2, activates relayer y

variable [DecidableEq Address] {w : World Address} {g : List (Event Address)}
  {x : Event Address} {tx : Transaction Address} {relayer : Address}

/-- A queued relayer whose notice period is over becomes active with the initial score. -/
theorem activate_accepted {queuedAt : ℕ} (hop : tx.op = .activateRelayer relayer)
    (found : w.pendingRelayerEntry relayer = some queuedAt)
    (ripe : u64SaturatingAdd queuedAt minAdditionNoticePeriodSecs ≤ w.now)
    (inactive : relayer ∉ relayers w) : ∃ w', step w tx = .ok (w', ()) ∧
      w'.relayerReputationEntry relayer = some reputationInitial := by
  simp only [step, hop, activateRelayer, bind_eq_ok, okOr_eq_ok, bail_eq_ok, pure_eq_ok,
    Prod.mk.injEq, if_neg inactive]
  exact ⟨_, ⟨_, ⟨queuedAt, found, (), not_lt.mpr ripe, rfl⟩, rfl, trivial⟩,
    Function.update_self _ _ _⟩

/-- The activation of a relayer that was active before changes its score. -/
theorem Restores.not_sticks {r : World Address × List (Event Address)} (h : Restores r tx) :
    ∃ w', step r.1 tx = .ok (w', ()) ∧ ¬ Sticks r.2 ⟨r.1, tx, (), w'⟩ := by
  obtain ⟨relayer, queuedAt, hop, found, ripe, inactive, hscore, y, hy, hact⟩ := h
  obtain ⟨w', accepted, hinitial⟩ := activate_accepted hop found ripe inactive
  refine ⟨w', accepted, fun hsticks => ?_⟩
  have hchange : w'.relayerReputationEntry relayer ≠ r.1.relayerReputationEntry relayer := by
    rw [hinitial]
    exact hscore.symm
  rcases hsticks relayer hchange with ⟨delta, hupdate⟩ | ⟨-, -, hfirst⟩
  · rw [hop] at hupdate
    cases hupdate
  · exact hfirst y hy hact

/-- What an accepted call does to the scores. -/
theorem sticks_of_accepted (accepted : step x.pre x.call = .ok (x.post, x.out))
    (hkept : ¬ Restores (x.pre, g) x.call) : Sticks g x := by
  intro relayer hchange
  have e := step_effect accepted
  obtain ⟨pre, ⟨signers, op⟩, out, post⟩ := x
  simp only at e hchange hkept ⊢
  cases e with
  | @activated promoted queuedAt found ripe inactive =>
    by_cases hr : relayer = promoted
    · subst hr
      have hscore := Function.update_self relayer (some reputationInitial)
        pre.relayerReputationEntry
      refine .inr ⟨rfl, hscore, fun y hy hact => hkept ?_⟩
      refine ⟨relayer, queuedAt, rfl, found, ripe, inactive, fun hold => hchange ?_, y, hy, hact⟩
      exact hscore.trans hold.symm
    · exact absurd (Function.update_of_ne hr _ _) hchange
  | @reputed scored delta score low high =>
    by_cases hr : relayer = scored
    · exact .inl ⟨delta, by rw [hr]⟩
    · exact absurd (Function.update_of_ne hr _ _) hchange
  | _ => exact absurd rfl hchange

/-- Scores are changed by `update_reputation` alone, after the first registration, in
exactly the runs that activate no relayer again whose score is not the initial one. -/
theorem penalties_stick_iff (now : ℕ) (txs : List (Transaction Address)) :
    (∀ g x l, (run step (deployed Address now) txs).2 = g ++ x :: l → Sticks g x) ↔
      ∀ g tx l, txs = g ++ tx :: l → ¬ Restores (run step (deployed Address now) g) tx := by
  constructor
  · rintro hsticks g tx l rfl hrestores
    obtain ⟨w', accepted, hnot⟩ := hrestores.not_sticks
    exact hnot (hsticks _ _ _ (congrArg Prod.snd (run_accepted accepted)))
  · intro hkept g x l hsplit
    obtain ⟨before, after, rfl, hbefore, accepted⟩ := run_split hsplit
    refine sticks_of_accepted accepted ?_
    rw [← hbefore]
    exact hkept before x.call after rfl

/-- A relayer loses half of its score, is removed and is queued again. -/
def penalised : List (Transaction ℕ) :=
  [⟨[1], .initializeContract 1⟩, ⟨[1], .addRelayer 2⟩, ⟨[], .advance 172800⟩,
    ⟨[], .activateRelayer 2⟩, ⟨[1], .updateReputation 2 (-50)⟩, ⟨[1], .removeRelayer 2⟩,
    ⟨[1], .addRelayer 2⟩, ⟨[], .advance 172800⟩]

def readmitted : List (Transaction ℕ) := penalised ++ [⟨[], .activateRelayer 2⟩]

theorem penalised_restores :
    Restores (run step (deployed ℕ 0) penalised) ⟨[], .activateRelayer 2⟩ :=
  ⟨2, 172800, rfl, by decide +kernel, by decide +kernel, by decide +kernel, by decide +kernel,
    by decide +kernel⟩

/-- The relayer is active again, and the penalty is gone. -/
theorem readmitted_restores :
    (run step (deployed ℕ 0) penalised).1.relayerReputationEntry 2 = some 50 ∧
      (run step (deployed ℕ 0) readmitted).1.relayerReputationEntry 2 = some 100 ∧
      ¬ ∀ g x l, (run step (deployed ℕ 0) readmitted).2 = g ++ x :: l → Sticks g x := by
  refine ⟨by decide +kernel, by decide +kernel, fun hsticks => ?_⟩
  obtain ⟨w', accepted, hnot⟩ := penalised_restores.not_sticks
  exact hnot (hsticks _ _ _ (congrArg Prod.snd (run_accepted accepted)))

end RefractContracts.Oracle
