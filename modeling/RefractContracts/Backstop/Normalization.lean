import RefractContracts.Host.Outcome
import RefractContracts.Host.Units

/-! Decimal normalization of the backstop. An amount is converted between the decimals of
its token and the seven of the protocol. Either conversion answers the exact value in the
new units, rounded, where it fits; so the conversion to the finer unit can be undone, and
the two roundings bracket the value. An inflow is rounded up, so dust goes out again as a
whole protocol unit. -/

namespace RefractContracts.Backstop.Normalization

open Host

inductive NormalizationError where
  | invalidAmount
  | unsupportedDecimals
  | mathOverflow
  deriving DecidableEq, Repr

/-! ### The conversions -/

def protocolDecimals : ℕ := 7

def maxSupportedDecimals : ℕ := 18

/-- `POW10`. -/
def powersOfTen : List ℤ :=
  [1, 10, 100, 1000, 10000, 100000, 1000000, 10000000, 100000000, 1000000000, 10000000000,
    100000000000, 1000000000000, 10000000000000, 100000000000000, 1000000000000000,
    10000000000000000, 100000000000000000, 1000000000000000000]

def pow10 (decimals : ℕ) : Outcome NormalizationError ℤ :=
  okOr powersOfTen[decimals]? .unsupportedDecimals

/-- The body that both conversions have, from `src` to `dst` decimals. -/
def convertRounded (src dst tokenDecimals : ℕ) (amount : ℤ) (rounding : Rounding) :
    Outcome NormalizationError ℤ := do
  bail (amount < 0) .invalidAmount
  if amount = 0 then return 0
  bail (maxSupportedDecimals < tokenDecimals) .unsupportedDecimals
  if src = dst then
    pure amount
  else if src < dst then
    let factor ← pow10 (dst - src)
    i128Checked (amount * factor) .mathOverflow
  else
    let factor ← pow10 (src - dst)
    let q := amount.tdiv factor
    let r := amount.tmod factor
    if 0 < r ∧ rounding = .ceil then i128Checked (q + 1) .mathOverflow else pure q

def toProtocolUnitsRounded (amount : ℤ) (tokenDecimals : ℕ) (rounding : Rounding) :
    Outcome NormalizationError ℤ :=
  convertRounded tokenDecimals protocolDecimals tokenDecimals amount rounding

def toProtocolUnits (amount : ℤ) (tokenDecimals : ℕ) : Outcome NormalizationError ℤ :=
  toProtocolUnitsRounded amount tokenDecimals .ceil

def toTokenUnitsRounded (protocolAmount : ℤ) (tokenDecimals : ℕ) (rounding : Rounding) :
    Outcome NormalizationError ℤ :=
  convertRounded protocolDecimals tokenDecimals tokenDecimals protocolAmount rounding

def toTokenUnits (protocolAmount : ℤ) (tokenDecimals : ℕ) : Outcome NormalizationError ℤ :=
  toTokenUnitsRounded protocolAmount tokenDecimals .floor

def normalizeInflow (amount : ℤ) (tokenDecimals : ℕ) : Outcome NormalizationError ℤ :=
  toProtocolUnitsRounded amount tokenDecimals .ceil

def normalizeOutflow (protocolAmount : ℤ) (tokenDecimals : ℕ) : Outcome NormalizationError ℤ :=
  toTokenUnitsRounded protocolAmount tokenDecimals .floor

/-! ### What a conversion answers -/

variable {src dst d : ℕ} {a b : ℤ} {r r' : Rounding}

/-- The table holds the powers of ten up to the largest supported number of decimals. -/
theorem powersOfTen_eq : powersOfTen = (List.range (maxSupportedDecimals + 1)).map (10 ^ ·) := by
  decide

theorem pow10_eq (hd : d ≤ maxSupportedDecimals) : pow10 d = .ok (10 ^ d) := by
  rw [pow10, powersOfTen_eq, List.getElem?_map, List.getElem?_range (Nat.lt_succ_of_le hd)]
  rfl

/-- A conversion is the exact value in the new unit, rounded, where it fits. -/
theorem convertRounded_eq (hsrc : src ≤ maxSupportedDecimals) (hdst : dst ≤ maxSupportedDecimals)
    (hd : d ≤ maxSupportedDecimals) (ha : 0 ≤ a) (hmax : a ≤ maxI128) (r : Rounding) :
    convertRounded src dst d a r = i128Checked (r.round (rescale 10 src dst a)) .mathOverflow := by
  have hchecked {x : ℤ} (hx : 0 ≤ x ∧ x ≤ a) :=
    i128Checked_of_nonneg hx.1 (hx.2.trans hmax) NormalizationError.mathOverflow
  simp only [convertRounded, bail_of_not ha.not_gt, bail_of_not hd.not_gt, ok_bind]
  by_cases hzero : a = 0
  · subst hzero
    have hround : r.round (rescale 10 src dst 0) = 0 := by simpa [rescale] using r.round_intCast 0
    rw [if_pos rfl, hround, hchecked ⟨le_rfl, le_rfl⟩]
    rfl
  rw [if_neg hzero]
  rcases lt_trichotomy src dst with hlt | rfl | hlt
  · rw [if_neg hlt.ne, if_pos hlt, pow10_eq (by omega), ok_bind, rescale_finer (by decide) hlt.le,
      Rounding.round_intCast, Nat.cast_ofNat]
  · rw [if_pos rfl, rescale_finer (by decide) le_rfl, Rounding.round_intCast, Nat.sub_self,
      pow_zero, mul_one, hchecked ⟨ha, le_rfl⟩]
    rfl
  · have hn : 0 < 10 ^ (src - dst) := by positivity
    have hquot := Int.ediv_nonneg ha (Int.natCast_nonneg (10 ^ (src - dst)))
    have hquot' := Int.ediv_le_self (10 ^ (src - dst) : ℕ) ha
    rw [if_neg hlt.ne', if_neg hlt.not_gt, pow10_eq (by omega), ok_bind,
      rescale_coarser (by decide) hlt.le, Rounding.round_div hn, Int.tdiv_eq_ediv_of_nonneg ha,
      Int.tmod_eq_emod_of_nonneg ha]
    push_cast at hquot hquot' ⊢
    split_ifs
    · rfl
    · rw [hchecked ⟨hquot, hquot'⟩]
      rfl

/-- What a conversion to a finer unit answers is taken back by the other one. -/
theorem convertRounded_back (hsrc : src ≤ maxSupportedDecimals) (hdst : dst ≤ maxSupportedDecimals)
    (hd : d ≤ maxSupportedDecimals) (hle : src ≤ dst) (ha : 0 ≤ a) (hmax : a ≤ maxI128)
    (h : convertRounded src dst d a r = .ok b) : convertRounded dst src d b r' = .ok a := by
  have hfiner := rescale_finer (b := 10) (by decide) hle a
  rw [convertRounded_eq hsrc hdst hd ha hmax, hfiner, Rounding.round_intCast,
    i128Checked_eq_ok] at h
  obtain ⟨⟨-, hfits⟩, rfl⟩ := h
  rw [convertRounded_eq hdst hsrc hd (by positivity) hfits, rescale_back (by decide) hfiner,
    Rounding.round_intCast]
  exact i128Checked_of_nonneg ha hmax _

/-- Rounded down and up, a conversion answers with integers that bracket the value, or both
fail because the value is too large. -/
def Bracketed (convert : Rounding → Outcome NormalizationError ℤ) (value : ℚ) : Prop :=
  (∃ lo hi, convert .floor = .ok lo ∧ convert .ceil = .ok hi ∧ Brackets lo hi value) ∨
    (∀ r, convert r = .error (.error .mathOverflow)) ∧ (maxI128 : ℚ) < value

theorem convertRounded_bracketed (hsrc : src ≤ maxSupportedDecimals)
    (hdst : dst ≤ maxSupportedDecimals) (hd : d ≤ maxSupportedDecimals) (ha : 0 ≤ a)
    (hmax : a ≤ maxI128) : Bracketed (convertRounded src dst d a) (rescale 10 src dst a) := by
  have hmin : (minI128 : ℚ) ≤ 0 := by exact_mod_cast minI128_le_zero
  have hvalue : 0 ≤ rescale 10 src dst a := by
    have ha' : (0 : ℚ) ≤ a := by exact_mod_cast ha
    unfold rescale
    positivity
  have hconvert := convertRounded_eq hsrc hdst hd ha hmax
  by_cases hfits : rescale 10 src dst a ≤ maxI128
  · have hchecked (r : Rounding) : convertRounded src dst d a r =
        .ok (r.round (rescale 10 src dst a)) := by
      rw [hconvert, i128Checked_eq_ok]
      refine ⟨?_, rfl⟩
      cases r with
      | floor =>
        have hlow := Int.floor_le (rescale 10 src dst a)
        exact ⟨Int.le_floor.mpr (hmin.trans hvalue), by exact_mod_cast hlow.trans hfits⟩
      | ceil =>
        have hup := Int.le_ceil (rescale 10 src dst a)
        exact ⟨by exact_mod_cast (hmin.trans hvalue).trans hup, Int.ceil_le.mpr hfits⟩
    exact .inl ⟨_, _, hchecked .floor, hchecked .ceil, brackets_round _⟩
  · -- only the conversion to a finer unit overflows, and its value is an integer
    refine .inr ⟨fun r => ?_, not_le.mp hfits⟩
    have hlt : src < dst := by
      by_contra hge
      have hle := rescale_le (b := 10) (by decide) (not_lt.mp hge) ha
      exact hfits (hle.trans (by exact_mod_cast hmax))
    rw [rescale_finer (by decide) hlt.le] at hfits
    rw [hconvert, rescale_finer (by decide) hlt.le, Rounding.round_intCast, i128Checked, if_neg]
    rintro ⟨-, hround⟩
    exact hfits (by exact_mod_cast hround)

/-! ### In and out -/

/-- The conversion to the finer unit is undone by the other one, to either side of the
decimals of the protocol, and both bracket the exact value. -/
theorem conversions_exact (amount : I128) (hamount : 0 ≤ amount.1) (d : ℕ)
    (hd : d ≤ maxSupportedDecimals) :
    (d ≤ protocolDecimals → ∀ p, toProtocolUnits amount d = .ok p →
      toTokenUnits p d = .ok amount.1) ∧
    (protocolDecimals ≤ d → ∀ t, toTokenUnits amount d = .ok t →
      toProtocolUnits t d = .ok amount.1) ∧
    Bracketed (toProtocolUnitsRounded amount d) (rescale 10 d protocolDecimals amount) ∧
    Bracketed (toTokenUnitsRounded amount d) (rescale 10 protocolDecimals d amount) := by
  have hprotocol : protocolDecimals ≤ maxSupportedDecimals := by decide
  refine ⟨?_, ?_, ?_, ?_⟩
  · intro hle p hp
    exact convertRounded_back hd hprotocol hd hle hamount amount.2.2 hp
  · intro hle t ht
    exact convertRounded_back hprotocol hd hd hle hamount amount.2.2 ht
  · exact convertRounded_bracketed hd hprotocol hd hamount amount.2.2
  · exact convertRounded_bracketed hprotocol hd hd hamount amount.2.2

theorem conversions_exact_dust : toTokenUnits 15 7 = .ok 15 ∧
    Bracketed (toTokenUnitsRounded 15 6) (rescale 10 protocolDecimals 6 15) :=
  ⟨(conversions_exact ⟨15, by decide⟩ (by decide) 7 (by decide)).1 (by decide) 15 (by decide),
    (conversions_exact ⟨15, by decide⟩ (by decide) 6 (by decide)).2.2.2⟩

/-- What goes out for an amount that came in is at most that amount exactly when the amount
was not rounded up on its way in. -/
theorem outflow_le_iff (amount : I128) (hamount : 0 ≤ amount.1) {d : ℕ}
    (hd : d ≤ maxSupportedDecimals) {inflow outflow : ℤ}
    (hinflow : normalizeInflow amount d = .ok inflow)
    (houtflow : normalizeOutflow inflow d = .ok outflow) :
    outflow ≤ amount ↔ d ≤ protocolDecimals ∨ (10 : ℤ) ^ (d - protocolDecimals) ∣ amount := by
  have hprotocol : protocolDecimals ≤ maxSupportedDecimals := by decide
  have hn : 0 < 10 ^ (d - protocolDecimals) := by positivity
  by_cases hle : d ≤ protocolDecimals
  · have hback : convertRounded protocolDecimals d d inflow .floor = .ok amount.1 :=
      convertRounded_back hd hprotocol hd hle hamount amount.2.2 hinflow
    rw [normalizeOutflow, toTokenUnitsRounded, hback] at houtflow
    cases houtflow
    exact iff_of_true le_rfl (.inl hle)
  · have hge := (not_le.mp hle).le
    rw [normalizeInflow, toProtocolUnitsRounded, convertRounded_eq hd hprotocol hd hamount
      amount.2.2, rescale_coarser (by decide) hge, i128Checked_eq_ok] at hinflow
    obtain ⟨⟨-, hfits⟩, hceil⟩ := hinflow
    have hinflow' : 0 ≤ inflow := by
      have hvalue : (0 : ℚ) ≤ amount.1 / (10 ^ (d - protocolDecimals) : ℕ) := by
        have hamount' : (0 : ℚ) ≤ amount.1 := by exact_mod_cast hamount
        positivity
      have hup := hvalue.trans (Int.le_ceil _)
      rw [← hceil]
      exact_mod_cast hup
    rw [normalizeOutflow, toTokenUnitsRounded, convertRounded_eq hprotocol hd hd hinflow'
      (hceil ▸ hfits), rescale_finer (by decide) hge, Rounding.round_intCast,
      i128Checked_eq_ok] at houtflow
    rw [← houtflow.2, ← hceil]
    have hdvd := ceil_div_mul_le_iff (a := amount) hn
    push_cast at hdvd ⊢
    rw [Rounding.round, hdvd]
    simp [hle]

/-- The smallest amount of a token of eighteen decimals goes out as a whole protocol unit. -/
theorem dust_overpaid : normalizeInflow 1 18 = .ok 1 ∧ normalizeOutflow 1 18 = .ok 100000000000 ∧
    ¬ (100000000000 : ℤ) ≤ 1 := by
  decide

theorem outflow_le_iff_whole : ∃ outflow, normalizeInflow 200000000000 18 = .ok 2 ∧
    normalizeOutflow 2 18 = .ok outflow ∧ outflow ≤ 200000000000 := by
  have hinflow : normalizeInflow 200000000000 18 = .ok 2 := by decide
  have houtflow : normalizeOutflow 2 18 = .ok 200000000000 := by decide
  refine ⟨_, hinflow, houtflow, ?_⟩
  exact (outflow_le_iff ⟨200000000000, by decide⟩ (by decide) (by decide) hinflow houtflow).mpr
    (.inr (by decide))

end RefractContracts.Backstop.Normalization
