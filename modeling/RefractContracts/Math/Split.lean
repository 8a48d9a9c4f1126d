import RefractContracts.Math.Wide

/-! Divisions that split money: a product over a denominator with an explicit
rounding direction, and the two-party split into a floored cut and the rest. Sums and
differences are of amounts that are not negative. -/

namespace RefractContracts.Math

open Host

/-- Basis-point denominator. -/
def bpsDenom : ℤ := 10000

inductive Rounding where
  | floor
  | ceil
  deriving DecidableEq, Repr

/-- Two-party split; `cut + rest` is the amount. -/
structure Split where
  cut : ℤ
  rest : ℤ
  deriving DecidableEq, Repr

/-- Quotient and remainder of `a * b` by `c`. -/
def mulDivRem (a b c : ℕ) : Call (ℕ × ℕ) := do
  bail (c = 0) .divisionByZero
  let (hi, lo) ← mulWide a b
  if hi = 0 then pure (lo / c, lo % c)
  else do
    bail (c ≤ hi) .overflow
    pure (divWide hi lo c)

def mulDiv (a b c : ℤ) (rounding : Rounding) : Call ℤ := do
  bail (a < 0 ∨ b < 0 ∨ c < 0) .negative
  bail (c = 0) .divisionByZero
  let (q, r) ← mulDivRem a.toNat b.toNat c.toNat
  let adjusted ← (match rounding with
    | .floor => pure q
    | .ceil =>
      if 0 < r then do
        bail (maxU128 < q + 1) .overflow
        pure (q + 1)
      else pure q : Call ℕ)
  bail (maxI128 < adjusted) .overflow
  pure adjusted

def mulDivFloor (a b c : ℤ) : Call ℤ := mulDiv a b c .floor

def splitRatio (amount numerator denominator : ℤ) : Call Split := do
  bail (denominator ≤ 0) .divisionByZero
  bail (numerator < 0 ∨ denominator < numerator) .invalidRatio
  let cut ← mulDivFloor amount numerator denominator
  let rest ← i128 (amount - cut)
  pure ⟨cut, rest⟩

def splitBps (amount bps : ℤ) : Call Split := do
  bail (¬ (0 ≤ bps ∧ bps ≤ bpsDenom)) .invalidRatio
  splitRatio amount bps bpsDenom

def checkedAdd (a b : ℤ) : Call ℤ := do
  bail (a < 0 ∨ b < 0) .negative
  i128Checked (a + b) .overflow

def checkedSub (a b : ℤ) : Call ℤ := do
  bail (a < 0 ∨ b < 0 ∨ a < b) .negative
  pure (a - b)

theorem checkedAdd_eq {a b : ℤ} (ha : 0 ≤ a) (hb : 0 ≤ b) (hfits : a + b ≤ maxI128) :
    checkedAdd a b = .ok (a + b) := by
  rw [checkedAdd, bail_of_not (by omega), ok_bind,
    i128Checked_of_nonneg (add_nonneg ha hb) hfits]

@[simp] theorem checkedSub_eq_ok (a b c : ℤ) :
    checkedSub a b = .ok c ↔ 0 ≤ b ∧ b ≤ a ∧ a - b = c := by
  simp only [checkedSub, bind_eq_ok, bail_eq_ok, pure_eq_ok, exists_const, ← and_assoc]
  exact and_congr_left fun _ => by omega

/-- The wide intermediate makes the division exact; it is refused when the
quotient leaves the word. -/
theorem mulDivRem_eq {a b c : ℕ} (ha : a < 2 ^ 128) (hb : b < 2 ^ 128) (hc : c < 2 ^ 128)
    (hpos : 0 < c) : mulDivRem a b c =
      if a * b / c < 2 ^ 128 then .ok (a * b / c, a * b % c) else .error (.error .overflow) := by
  have hword : a * b / 2 ^ 128 * 2 ^ 128 + a * b % 2 ^ 128 = a * b := Nat.div_add_mod' _ _
  have hlo : a * b % 2 ^ 128 < 2 ^ 128 := Nat.mod_lt _ (by decide)
  have hquot : a * b / c < 2 ^ 128 ↔ a * b / 2 ^ 128 < c := by
    rw [Nat.div_lt_iff_lt_mul hpos, Nat.div_lt_iff_lt_mul (by decide), mul_comm c]
  simp only [mulDivRem, mulWide_eq ha hb, bail, hpos.ne', if_false, bind, Except.bind, pure,
    Except.pure]
  by_cases hz : a * b / 2 ^ 128 = 0
  · have hab : a * b % 2 ^ 128 = a * b := by omega
    rw [if_pos hz, if_pos (hquot.mpr (hz ▸ hpos)), hab]
  · rw [if_neg hz]
    by_cases hle : c ≤ a * b / 2 ^ 128
    · rw [if_pos hle, if_neg (fun hlt => absurd (hquot.mp hlt) (not_lt.mpr hle))]
    · rw [if_neg hle, if_pos (hquot.mpr (not_le.mp hle)), divWide_eq hc (not_le.mp hle) hlo, hword]

/-! ### Exactness -/

/-- The quotient of `a * b` by `c` over the rationals, rounded to an integer. -/
def Rounding.quotient (a b c : ℤ) : Rounding → ℤ
  | .floor => ⌊(a * b : ℚ) / c⌋
  | .ceil => ⌈(a * b : ℚ) / c⌉

theorem floor_quotient (a b c : ℕ) : Rounding.floor.quotient a b c = ↑(a * b / c) := by
  have h := Rat.floor_intCast_div_natCast (a * b) c
  push_cast at h ⊢
  exact h

/-- Rounding up adds one exactly if the division leaves a remainder. -/
theorem ceil_quotient (a b : ℕ) {c : ℕ} (hc : 0 < c) : Rounding.ceil.quotient a b c =
    ↑(if 0 < a * b % c then a * b / c + 1 else a * b / c) := by
  have h := Rat.ceil_intCast_div_natCast (a * b) c
  push_cast at h
  have hdiv : ((a * b / c : ℕ) : ℤ) * c + (a * b % c : ℕ) = a * b := by
    exact_mod_cast Nat.div_add_mod' (a * b) c
  have hmod : a * b % c < c := Nat.mod_lt _ hc
  rw [Rounding.quotient, Int.cast_natCast, Int.cast_natCast, Int.cast_natCast, h]
  generalize a * b / c = q at *
  generalize a * b % c = r at *
  rw [← hdiv]
  split_ifs with hr
  · rw [show -((q : ℤ) * c + r) = (c - r) + -(q + 1) * c by ring,
      Int.add_mul_ediv_right _ _ (by omega), Int.ediv_eq_zero_of_lt (by omega) (by omega)]
    push_cast
    ring
  · obtain rfl : r = 0 := by omega
    rw [Nat.cast_zero, add_zero, ← neg_mul, Int.mul_ediv_cancel _ (by omega), neg_neg]

/-- `i128::try_from(n).map_err(..)`. -/
theorem checked_i128 (n : ℕ) (e : MathError) :
    (do let adjusted ← pure n; bail (maxI128 < adjusted) e; pure (adjusted : ℤ) : Call ℤ) =
      if (n : ℤ) ≤ maxI128 then .ok ↑n else .error (.error e) := by
  by_cases h : (n : ℤ) ≤ maxI128
  · rw [if_pos h, pure_bind, bail_of_not (not_lt.mpr h)]
    rfl
  · rw [if_neg h, pure_bind, bail_of (not_le.mp h)]
    rfl

/-- The quotient is exact in either direction and refused when it is no `i128`. -/
theorem mulDiv_eq {a b c : ℤ} (ha : 0 ≤ a ∧ a ≤ maxI128) (hb : 0 ≤ b ∧ b ≤ maxI128)
    (hc : 0 < c ∧ c ≤ maxI128) (rounding : Rounding) : mulDiv a b c rounding =
      if rounding.quotient a b c ≤ maxI128 then .ok (rounding.quotient a b c)
      else .error (.error .overflow) := by
  have hmax : maxI128 < maxU128 := by decide
  have hword : maxU128 + 1 = 2 ^ 128 := rfl
  lift a to ℕ using ha.1
  lift b to ℕ using hb.1
  lift c to ℕ using hc.1.le
  have hpos : 0 < c := by omega
  have hdiv := mulDivRem_eq (a := a) (b := b) (c := c) (by omega) (by omega) (by omega) hpos
  have hguard : ¬ ((a : ℤ) < 0 ∨ (b : ℤ) < 0 ∨ (c : ℤ) < 0) := by omega
  have hzero : (c : ℤ) ≠ 0 := by omega
  simp only [mulDiv, bail_of_not hguard, bail_of_not hzero, ok_bind, Int.toNat_natCast, hdiv]
  cases rounding with
  | floor =>
    rw [floor_quotient]
    by_cases hfits : a * b / c < 2 ^ 128
    · rw [if_pos hfits, ok_bind, checked_i128]
    · rw [if_neg hfits, if_neg (by omega)]
      rfl
  | ceil =>
    rw [ceil_quotient a b hpos]
    by_cases hfits : a * b / c < 2 ^ 128
    · rw [if_pos hfits, ok_bind]
      dsimp only
      by_cases hrem : 0 < a * b % c
      · rw [if_pos hrem, if_pos hrem]
        by_cases hnext : maxU128 < a * b / c + 1
        · rw [bail_of hnext, if_neg (by omega)]
          rfl
        · rw [bail_of_not hnext, ok_bind, checked_i128]
      · rw [if_neg hrem, if_neg hrem, checked_i128]
    · rw [if_neg hfits, if_neg (by split_ifs <;> omega)]
      rfl

/-- Multiplication and division by words are exact over the whole range of `i128`: no
intermediate overflows, and the only refusal is of a quotient that is no `i128`. -/
theorem mulDiv_exact :
    (∀ a b c : I128, 0 ≤ a.1 → 0 ≤ b.1 → 0 < c.1 → ∀ rounding,
      mulDiv a b c rounding =
        if rounding.quotient a b c ≤ maxI128 then .ok (rounding.quotient a b c)
        else .error (.error .overflow)) ∧
      (∀ a b, a ≤ maxU128 → b ≤ maxU128 → ∃ hi lo, mulWide a b = .ok (hi, lo) ∧
        hi * 2 ^ 128 + lo = a * b ∧ hi ≤ maxU128 ∧ lo ≤ maxU128) ∧
      ∀ hi lo d, hi < d → d ≤ maxU128 → lo ≤ maxU128 → ∃ q r, divWide hi lo d = (q, r) ∧
        hi * 2 ^ 128 + lo = q * d + r ∧ r < d ∧ q ≤ maxU128 := by
  have hword : maxU128 + 1 = 2 ^ 128 := rfl
  refine ⟨fun a b c ha hb hc => mulDiv_eq ⟨ha, a.2.2⟩ ⟨hb, b.2.2⟩ ⟨hc, c.2.2⟩, fun a b ha hb => ?_,
    fun hi lo d hhi hd hlo => ?_⟩
  · have hlt : a * b < 2 ^ 128 * 2 ^ 128 := Nat.mul_lt_mul_of_lt_of_lt (by omega) (by omega)
    have hdiv : a * b / 2 ^ 128 < 2 ^ 128 := Nat.div_lt_of_lt_mul hlt
    have hmod : a * b % 2 ^ 128 < 2 ^ 128 := Nat.mod_lt _ (by decide)
    exact ⟨_, _, mulWide_eq (by omega) (by omega), Nat.div_add_mod' _ _, by omega, by omega⟩
  · have hlt : hi * 2 ^ 128 + lo < d * 2 ^ 128 := by
      calc hi * 2 ^ 128 + lo < (hi + 1) * 2 ^ 128 := by omega
        _ ≤ d * 2 ^ 128 := Nat.mul_le_mul_right _ hhi
    have hquot : (hi * 2 ^ 128 + lo) / d < 2 ^ 128 := Nat.div_lt_of_lt_mul hlt
    exact ⟨_, _, divWide_eq (by omega) hhi (by omega), (Nat.div_add_mod' _ _).symm,
      Nat.mod_lt _ (by omega), by omega⟩

def largest : I128 := ⟨maxI128, by decide⟩

/-- The largest operands, whose product takes 254 bits, and a quotient that is no `i128`. -/
theorem mulDiv_exact_largest :
    mulDiv maxI128 maxI128 maxI128 .ceil = .ok maxI128 ∧
      mulDiv maxI128 3 2 .floor = .error (.error .overflow) ∧
      mulDiv maxI128 (maxI128 - 1) maxI128 .floor = .ok (maxI128 - 1) ∧
      (∃ hi lo, mulWide maxU128 maxU128 = .ok (hi, lo) ∧
        hi * 2 ^ 128 + lo = maxU128 * maxU128 ∧ hi ≤ maxU128 ∧ lo ≤ maxU128) ∧
      ∃ q r, divWide (maxU128 - 1) 5 maxU128 = (q, r) ∧
        (maxU128 - 1) * 2 ^ 128 + 5 = q * maxU128 + r ∧ r < maxU128 ∧ q ≤ maxU128 := by
  refine ⟨?_, ?_, ?_, mulDiv_exact.2.1 _ _ le_rfl le_rfl,
    mulDiv_exact.2.2 _ _ _ (by decide) le_rfl (by decide)⟩
  · exact (mulDiv_exact.1 largest largest largest (by decide) (by decide) (by decide) .ceil).trans
      (by decide +kernel)
  · exact (mulDiv_exact.1 largest ⟨3, by decide⟩ ⟨2, by decide⟩ (by decide) (by decide) (by decide)
      .floor).trans (by decide +kernel)
  · exact (mulDiv_exact.1 largest ⟨maxI128 - 1, by decide⟩ largest (by decide) (by decide)
      (by decide) .floor).trans (by decide +kernel)

/-- A floored quotient is the integer quotient of nonnegative operands. -/
theorem mulDivFloor_ok {a b c q : ℤ} (ha : a ≤ maxI128) (hb : b ≤ maxI128) (hc : c ≤ maxI128)
    (h : mulDivFloor a b c = .ok q) : 0 ≤ a ∧ 0 ≤ b ∧ 0 < c ∧ q = a * b / c := by
  simp only [mulDivFloor, mulDiv, bind_eq_ok, bail_eq_ok, pure_eq_ok] at h
  obtain ⟨-, hneg, -, hz, ⟨q', r⟩, hdiv, adjusted, rfl, -, -, rfl⟩ := h
  have hmax : maxI128 < 2 ^ 128 := by decide
  lift a to ℕ using by omega
  lift b to ℕ using by omega
  lift c to ℕ using by omega
  rw [Int.toNat_natCast, Int.toNat_natCast, Int.toNat_natCast,
    mulDivRem_eq (by zify; omega) (by zify; omega) (by zify; omega) (by omega)] at hdiv
  split_ifs at hdiv
  obtain ⟨rfl, -⟩ := Prod.mk.inj (Except.ok.inj hdiv)
  exact ⟨by omega, by omega, by omega, by push_cast; rfl⟩

/-- The two parts of a split are nonnegative and sum to the amount. -/
theorem splitBps_ok {amount bps : ℤ} {s : Split} (ha : amount ≤ maxI128)
    (h : splitBps amount bps = .ok s) : 0 ≤ s.cut ∧ 0 ≤ s.rest ∧ s.cut + s.rest = amount := by
  simp only [splitBps, splitRatio, bind_eq_ok, bail_eq_ok, i128_eq_ok, pure_eq_ok, not_not] at h
  obtain ⟨-, ⟨h0, h1⟩, -, -, -, -, cut, hcut, _, ⟨-, rfl⟩, rfl⟩ := h
  have hmax : bpsDenom ≤ maxI128 := by decide
  obtain ⟨hamt, -, hpos, rfl⟩ := mulDivFloor_ok ha (h1.trans hmax) hmax hcut
  have hle : amount * bps / bpsDenom ≤ amount := by
    apply Int.ediv_le_of_le_mul hpos
    exact mul_le_mul_of_nonneg_left h1 hamt
  exact ⟨Int.ediv_nonneg (mul_nonneg hamt h0) hpos.le, sub_nonneg.mpr hle, by ring⟩

end RefractContracts.Math
