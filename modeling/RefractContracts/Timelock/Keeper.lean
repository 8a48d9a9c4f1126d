import RefractContracts.Host.Meter
import RefractContracts.Timelock.Failures

/-! The keeper's rewards. An epoch of the keeper is a window with a cap: a new
configuration and the sweep that finds the epoch over open it, and every other sweep
charges its reward to it. -/

namespace RefractContracts.Timelock

open Host

variable {Address : Type} {w w' : World Address} {signers : List Address} {call : Op Address}
  {out : Answer} {executed : ℕ} {r : ℤ}

abbrev Event (Address : Type) := Receipt (World Address) (Transaction Address) Answer

/-- The reward that a transaction returns. -/
def Answer.reward : Answer → ℤ
  | .swept _ _ reward => reward
  | _ => 0

/-- The epoch of the keeper is over. -/
def EpochOver (w : World Address) : Prop :=
  (keeperConfig w).epochStart + (keeperConfig w).epochLenSecs ≤ w.now

/-- A new configuration, or the rollover of the epoch by a sweep. -/
def StartsEpoch (w : World Address) : Op Address → Prop
  | .setKeeperConfig .. => True
  | .executeDue .. => EpochOver w
  | _ => False

theorem KeeperConfig.roll_of_over (h : EpochOver w) :
    (keeperConfig w).roll w.now = { keeperConfig w with epochStart := w.now, epochSpent := 0 } :=
  if_pos h

theorem KeeperConfig.roll_of_not_over (h : ¬ EpochOver w) :
    (keeperConfig w).roll w.now = keeperConfig w :=
  if_neg h

/-- The settlement charges the reward to the epoch, and pays no more than what is left. -/
theorem settleKeeperEpoch_charges {cfg : KeeperConfig} (hcfg : (keeperConfig w).roll w.now = cfg)
    (h : settleKeeperEpoch w executed = .ok (w', r)) :
    w' = { w with keeperEntry := some { cfg with epochSpent := cfg.epochSpent + r } } ∧
      (cfg.epochSpent ≤ cfg.capPerEpoch → 0 ≤ r ∧ cfg.epochSpent + r ≤ cfg.capPerEpoch) := by
  simp only [settleKeeperEpoch, bind_eq_ok] at h
  obtain ⟨-, -, h⟩ := h
  rw [hcfg] at h
  by_cases hidle : executed = 0 ∨ cfg.rewardPerCall ≤ 0
  · rw [if_pos hidle] at h
    obtain ⟨rfl, rfl⟩ := Prod.mk.inj ((pure_eq_ok _ _).mp h)
    rw [add_zero]
    exact ⟨rfl, fun hcap => ⟨le_rfl, hcap⟩⟩
  · rw [if_neg hidle] at h
    generalize (if minI128 ≤ (executed : ℤ) * cfg.rewardPerCall ∧
      executed * cfg.rewardPerCall ≤ maxI128 then executed * cfg.rewardPerCall else maxI128) = due
      at h
    simp only [bind_eq_ok, i128_eq_ok, pure_eq_ok, Prod.mk.injEq] at h
    obtain ⟨_, ⟨-, rfl⟩, _, ⟨-, rfl⟩, rfl, rfl⟩ := h
    refine ⟨rfl, fun hcap => ?_⟩
    have hroom : 0 ≤ cfg.capPerEpoch - cfg.epochSpent := by omega
    obtain ⟨hpos, hle⟩ := reward_bounds due hroom
    exact ⟨hpos, by omega⟩

/-- The configuration that `w` had is what the settlement of the swept state starts from. -/
theorem sweep_roll (w : World Address) (results : ℕ → CallResult) :
    (keeperConfig (sweep w results).1).roll (sweep w results).1.now =
      (keeperConfig w).roll w.now := by
  have hnow : (sweep w results).1.now = w.now := by rw [sweep_eq]
  rw [sweep_keeperConfig, hnow]

theorem keeperConfig_of_kept (h : w'.keeperEntry = w.keeperEntry) :
    (keeperConfig w').epochSpent = (keeperConfig w).epochSpent ∧
      (keeperConfig w').capPerEpoch = (keeperConfig w).capPerEpoch := by
  unfold keeperConfig
  rw [h]
  cases w.keeperEntry <;> exact ⟨rfl, rfl⟩

/-- What a transaction does to the keeper's epoch. -/
inductive KeeperEffect (w w' : World Address) (call : Op Address) (r : ℤ) : Prop
  | kept (still : ¬ StartsEpoch w call) (free : r = 0)
      (spent : (keeperConfig w').epochSpent = (keeperConfig w).epochSpent)
      (cap : (keeperConfig w').capPerEpoch = (keeperConfig w).capPerEpoch)
  | configured (starts : StartsEpoch w call) (free : r = 0)
      (spent : (keeperConfig w').epochSpent = 0) (capped : 0 ≤ (keeperConfig w').capPerEpoch)
  | swept (starts : StartsEpoch w call ↔ EpochOver w)
      (charged : keeperConfig w' = { (keeperConfig w).roll w.now with
        epochSpent := ((keeperConfig w).roll w.now).epochSpent + r })
      (bounds : ((keeperConfig w).roll w.now).epochSpent ≤ (keeperConfig w).capPerEpoch →
        0 ≤ r ∧ ((keeperConfig w).roll w.now).epochSpent + r ≤ (keeperConfig w).capPerEpoch)

theorem KeeperConfig.roll_cap (cfg : KeeperConfig) (now : ℕ) :
    (cfg.roll now).capPerEpoch = cfg.capPerEpoch := by
  unfold KeeperConfig.roll
  split_ifs <;> rfl

theorem Effect.keeper (ef : Effect signers w w' call out) :
    KeeperEffect w w' call out.reward := by
  cases ef with
  | keeperSet capped => exact .configured trivial rfl rfl capped
  | swept signed settled =>
    obtain ⟨hworld, hbounds⟩ := settleKeeperEpoch_charges (sweep_roll _ _) settled
    have hcharged := Option.some.inj (congrArg World.keeperEntry hworld)
    rw [KeeperConfig.roll_cap] at hbounds
    exact .swept Iff.rfl hcharged hbounds
  | initialized | queued => exact .kept id rfl rfl rfl
  | executed kind =>
    cases call <;> cases kind <;> exact .kept id rfl rfl rfl
  | retired kind =>
    cases call <;> cases kind <;> exact .kept id rfl rfl rfl
  | @advanced seconds =>
    have hentry : { w with now := w.now + seconds }.keeperEntry = w.keeperEntry := rfl
    obtain ⟨hspent, hcap⟩ := keeperConfig_of_kept hentry
    exact .kept id rfl hspent hcap

variable [DecidableEq Address]

/-- The epoch's spending is metered by the rewards of the sweeps. -/
theorem rewards_metered : Metered step
    (fun w : World Address => (keeperConfig w).epochSpent) (fun w => (keeperConfig w).capPerEpoch)
    (fun x => x.out.reward) fun x => StartsEpoch x.pre x.call.op where
  within x accepted h := by
    obtain ⟨hnonneg, hcap⟩ := h
    cases (step_effect accepted).keeper with
    | kept still free spent cap =>
      rw [spent, cap]
      exact ⟨hnonneg, hcap⟩
    | configured starts free spent capped =>
      rw [spent]
      exact ⟨le_rfl, capped⟩
    | swept starts charged bounds =>
      have hrolled : 0 ≤ ((keeperConfig x.pre).roll x.pre.now).epochSpent ∧
          ((keeperConfig x.pre).roll x.pre.now).epochSpent ≤ (keeperConfig x.pre).capPerEpoch := by
        unfold KeeperConfig.roll
        split_ifs
        · exact ⟨le_rfl, hnonneg.trans hcap⟩
        · exact ⟨hnonneg, hcap⟩
      obtain ⟨hpos, hle⟩ := bounds hrolled.2
      rw [charged]
      dsimp only
      rw [KeeperConfig.roll_cap]
      exact ⟨add_nonneg hrolled.1 hpos, hle⟩
  opens x accepted h := by
    cases (step_effect accepted).keeper with
    | kept still => exact absurd h still
    | configured starts free spent => exact spent.trans free.symm
    | swept starts charged =>
      rw [charged, KeeperConfig.roll_of_over (starts.mp h)]
      exact zero_add _
  adds x accepted h := by
    cases (step_effect accepted).keeper with
    | kept still free spent cap => exact ⟨by rw [free, add_zero, spent], cap⟩
    | configured starts => exact absurd starts h
    | swept starts charged =>
      rw [charged, KeeperConfig.roll_of_not_over fun hover => h (starts.mpr hover)]
      exact ⟨rfl, rfl⟩

/-- In every run what the keeper spent in its epoch is within the cap, and the rewards
from one epoch's start to the next sum to at most the cap in force all along. -/
theorem rewards_capped (now : ℕ) (txs : List (Transaction Address)) :
    let r := run step (deployed Address now) txs
    (∀ cfg, r.1.keeperEntry = some cfg → 0 ≤ cfg.epochSpent ∧ cfg.epochSpent ≤ cfg.capPerEpoch) ∧
      ∀ (g l l' : List (Event Address)) (x : Event Address), r.2 = g ++ x :: l ++ l' →
        (∀ y ∈ l, ¬ StartsEpoch y.pre y.call.op) →
        (∀ y ∈ l, (keeperConfig y.post).capPerEpoch = (keeperConfig x.post).capPerEpoch) ∧
          ((x :: l).map fun y => y.out.reward).sum ≤ (keeperConfig x.post).capPerEpoch := by
  intro r
  have tr : Trace step (deployed Address now) r.2 r.1 := run_trace _ _ _
  have hinit : 0 ≤ (keeperConfig (deployed Address now)).epochSpent ∧
      (keeperConfig (deployed Address now)).epochSpent ≤
        (keeperConfig (deployed Address now)).capPerEpoch := ⟨le_rfl, le_rfl⟩
  constructor
  · intro cfg hcfg
    have hend := rewards_metered.within_end tr hinit
    unfold keeperConfig at hend
    rwa [hcfg] at hend
  · intro g l l' x hsplit hl
    rw [hsplit] at tr
    exact rewards_metered.window tr hinit hl

end RefractContracts.Timelock
