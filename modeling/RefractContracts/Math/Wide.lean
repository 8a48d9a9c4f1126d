import RefractContracts.Host.Outcome
import Mathlib.Tactic

/-! 256-bit intermediates of the money arithmetic: the product of two `u128`
words by 64-bit halves, and the shift-and-subtract division of a two-word value.
Shifts drop the bits beyond the word; sums and products trap on overflow. -/

namespace RefractContracts.Math

open Host

inductive MathError where
  | negative
  | divisionByZero
  | overflow
  | noRecipients
  | invalidRatio
  deriving DecidableEq, Repr

abbrev Call (α : Type) := Outcome MathError α

/-- `x << k` on `u128`. -/
def shl (x k : ℕ) : ℕ := x <<< k % 2 ^ 128

/-- `x.wrapping_sub(y)` on `u128`. -/
def wrappingSub (x y : ℕ) : ℕ := (x + 2 ^ 128 - y) % 2 ^ 128

/-- `u64::MAX as u128`. -/
def mask : ℕ := 2 ^ 64 - 1

/-! ### Multiplication -/

/-- Full 128x128 to 256-bit product, as its high and low words. -/
def mulWide (a b : ℕ) : Call (ℕ × ℕ) := do
  let (aHi, aLo) := (a >>> 64, a &&& mask)
  let (bHi, bLo) := (b >>> 64, b &&& mask)
  let ll ← u128 (aLo * bLo)
  let lh ← u128 (aLo * bHi)
  let hl ← u128 (aHi * bLo)
  let hh ← u128 (aHi * bHi)
  let mid ← u128 ((ll >>> 64) + (lh &&& mask))
  let mid ← u128 (mid + (hl &&& mask))
  let lo := (ll &&& mask) ||| shl mid 64
  let hi ← u128 (hh + (lh >>> 64))
  let hi ← u128 (hi + (hl >>> 64))
  let hi ← u128 (hi + (mid >>> 64))
  pure (hi, lo)

theorem and_mask (x : ℕ) : x &&& mask = x % 2 ^ 64 := Nat.and_two_pow_sub_one_eq_mod x 64

theorem low_or_shl {x : ℕ} (hx : x < 2 ^ 64) (y : ℕ) :
    x ||| shl y 64 = x + y % 2 ^ 64 * 2 ^ 64 := by
  have hs : shl y 64 = 2 ^ 64 * (y % 2 ^ 64) := by
    rw [shl, Nat.shiftLeft_eq, mul_comm, show (2 : ℕ) ^ 128 = 2 ^ 64 * 2 ^ 64 from rfl,
      Nat.mul_mod_mul_left]
  rw [hs, Nat.or_comm, ← Nat.two_pow_add_eq_or_of_lt hx]
  ring

/-- A product of two 64-bit halves leaves room for two more. -/
theorem half_mul_le {x y : ℕ} (hx : x < 2 ^ 64) (hy : y < 2 ^ 64) :
    x * y ≤ 2 ^ 128 - 2 ^ 65 + 1 := by
  calc x * y ≤ (2 ^ 64 - 1) * (2 ^ 64 - 1) := Nat.mul_le_mul (by omega) (by omega)
    _ = 2 ^ 128 - 2 ^ 65 + 1 := by norm_num

theorem high_half {h l : ℕ} (hl : l < 2 ^ 64) : (h * 2 ^ 64 + l) >>> 64 = h := by
  rw [Nat.shiftRight_eq_div_pow]
  omega

theorem low_half {h l : ℕ} (hl : l < 2 ^ 64) : (h * 2 ^ 64 + l) &&& mask = l := by
  rw [and_mask]
  omega

/-- The product is exact and no intermediate sum overflows. -/
theorem mulWide_eq {a b : ℕ} (ha : a < 2 ^ 128) (hb : b < 2 ^ 128) :
    mulWide a b = .ok (a * b / 2 ^ 128, a * b % 2 ^ 128) := by
  obtain ⟨ah, al, hah, hal, rfl⟩ : ∃ ah al, ah < 2 ^ 64 ∧ al < 2 ^ 64 ∧ ah * 2 ^ 64 + al = a :=
    ⟨a / 2 ^ 64, a % 2 ^ 64, by omega, by omega, by omega⟩
  obtain ⟨bh, bl, hbh, hbl, rfl⟩ : ∃ bh bl, bh < 2 ^ 64 ∧ bl < 2 ^ 64 ∧ bh * 2 ^ 64 + bl = b :=
    ⟨b / 2 ^ 64, b % 2 ^ 64, by omega, by omega, by omega⟩
  have hll := half_mul_le hal hbl
  have hlh := half_mul_le hal hbh
  have hhl := half_mul_le hah hbl
  have hhh := half_mul_le hah hbh
  have hprod : (ah * 2 ^ 64 + al) * (bh * 2 ^ 64 + bl) =
      ah * bh * 2 ^ 128 + (al * bh + ah * bl) * 2 ^ 64 + al * bl := by ring
  have hrange : (ah * 2 ^ 64 + al) * (bh * 2 ^ 64 + bl) < 2 ^ 256 := by
    rw [show (2 : ℕ) ^ 256 = 2 ^ 128 * 2 ^ 128 from rfl]
    exact Nat.mul_lt_mul_of_lt_of_lt ha hb
  rw [hprod] at hrange ⊢
  simp only [mulWide, high_half hal, low_half hal, high_half hbl, low_half hbl, and_mask,
    Nat.shiftRight_eq_div_pow]
  generalize al * bl = ll at *
  generalize al * bh = lh at *
  generalize ah * bl = hl at *
  generalize ah * bh = hh at *
  have hmax : maxU128 = 2 ^ 128 - 1 := rfl
  simp only [bind_eq_ok, u128_eq_ok, pure_eq_ok, Prod.mk.injEq]
  refine ⟨_, ⟨by omega, rfl⟩, _, ⟨by omega, rfl⟩, _, ⟨by omega, rfl⟩, _, ⟨by omega, rfl⟩,
    _, ⟨by omega, rfl⟩, _, ⟨by omega, rfl⟩, _, ⟨by omega, rfl⟩, _, ⟨by omega, rfl⟩,
    _, ⟨by omega, rfl⟩, by omega, ?_⟩
  rw [low_or_shl (by omega)]
  omega

/-! ### Division -/

/-- One round of the division: shift in bit `i` of `lo` and subtract `d` if it fits. -/
def divRound (lo d : ℕ) (s : ℕ × ℕ) (i : ℕ) : ℕ × ℕ :=
  let (rem, quot) := s
  let carry := rem >>> 127
  let rem := shl rem 1 ||| (lo >>> i &&& 1)
  if carry = 1 ∨ d ≤ rem then (wrappingSub rem d, quot ||| shl 1 i) else (rem, quot)

/-- Divide the two-word value `hi`, `lo` by `d`; the quotient fits when `hi < d`. -/
def divWide (hi lo d : ℕ) : ℕ × ℕ :=
  let (rem, quot) := (List.range 128).reverse.foldl (divRound lo d) (hi, 0)
  (quot, rem)

/-- A round divides twice the remainder plus the next bit by `d`. -/
theorem divRound_spec {lo d rem quot i : ℕ} (hd : d < 2 ^ 128) (hr : rem < d) (hi : i < 128)
    (hq : 2 ^ (i + 1) ∣ quot) :
    ∃ e r, divRound lo d (rem, quot) i = (r, quot + e * 2 ^ i) ∧ e ≤ 1 ∧ r < d ∧
      2 * rem + lo / 2 ^ i % 2 = e * d + r := by
  have hbit : lo >>> i &&& 1 = lo / 2 ^ i % 2 := by
    rw [Nat.shiftRight_eq_div_pow, Nat.and_one_is_mod]
  have hb : lo / 2 ^ i % 2 < 2 ^ 1 := Nat.mod_lt _ (by decide)
  have hrem : shl rem 1 ||| (lo >>> i &&& 1) = 2 * rem % 2 ^ 128 + lo / 2 ^ i % 2 := by
    have hs : shl rem 1 = 2 ^ 1 * (rem % 2 ^ 127) := by
      rw [shl, Nat.shiftLeft_eq]
      omega
    rw [hbit, hs, ← Nat.two_pow_add_eq_or_of_lt hb]
    omega
  have hset : quot ||| shl 1 i = quot + 1 * 2 ^ i := by
    obtain ⟨k, rfl⟩ := hq
    have hs : shl 1 i = 2 ^ i := by
      rw [shl, Nat.shiftLeft_eq, one_mul, Nat.mod_eq_of_lt (Nat.pow_lt_pow_right (by decide) hi)]
    rw [hs, ← Nat.two_pow_add_eq_or_of_lt (Nat.pow_lt_pow_right (by decide) (Nat.lt_succ_self i)),
      one_mul]
  have hcarry : rem >>> 127 = 1 ↔ 2 ^ 127 ≤ rem := by
    rw [Nat.shiftRight_eq_div_pow]
    omega
  simp only [divRound, hrem, hset, hcarry]
  generalize lo / 2 ^ i % 2 = bit at *
  split_ifs with hc
  · exact ⟨1, _, rfl, le_rfl, by unfold wrappingSub; omega, by unfold wrappingSub; omega⟩
  · exact ⟨0, 2 * rem % 2 ^ 128 + bit, by rw [zero_mul, add_zero], by omega, by omega, by omega⟩

/-- The rounds for the lowest `n` bits, from a quotient whose lowest `n` bits are clear. -/
theorem divRounds_spec (lo : ℕ) {d : ℕ} (hd : d < 2 ^ 128) {n : ℕ} (hn : n ≤ 128) {rem quot : ℕ}
    (hr : rem < d) (hq : 2 ^ n ∣ quot) :
    ∃ q r, (List.range n).reverse.foldl (divRound lo d) (rem, quot) = (r, quot + q) ∧ r < d ∧
      rem * 2 ^ n + lo % 2 ^ n = q * d + r := by
  induction n generalizing rem quot with
  | zero => exact ⟨0, rem, by simp, hr, by simp [Nat.mod_one]⟩
  | succ n ih =>
    obtain ⟨e, r, hround, -, hrd, heq⟩ := divRound_spec hd hr (by omega) hq
    have hq' : 2 ^ n ∣ quot + e * 2 ^ n :=
      dvd_add ((pow_dvd_pow 2 n.le_succ).trans hq) (dvd_mul_left _ _)
    obtain ⟨q, r', hfold, hr', heq'⟩ := ih (by omega) hrd hq'
    refine ⟨e * 2 ^ n + q, r', ?_, hr', ?_⟩
    · rw [List.range_succ, List.reverse_append, List.reverse_singleton, List.singleton_append,
        List.foldl_cons, hround, hfold, add_assoc]
    · have hlo : lo % 2 ^ (n + 1) = lo / 2 ^ n % 2 * 2 ^ n + lo % 2 ^ n := by
        rw [pow_succ, Nat.mod_mul, mul_comm]
        ring
      calc rem * 2 ^ (n + 1) + lo % 2 ^ (n + 1)
          = (2 * rem + lo / 2 ^ n % 2) * 2 ^ n + lo % 2 ^ n := by rw [hlo]; ring
        _ = e * 2 ^ n * d + (r * 2 ^ n + lo % 2 ^ n) := by rw [heq]; ring
        _ = (e * 2 ^ n + q) * d + r' := by rw [heq']; ring

/-- The quotient and the remainder are exact. -/
theorem divWide_eq {hi lo d : ℕ} (hd : d < 2 ^ 128) (hhi : hi < d) (hlo : lo < 2 ^ 128) :
    divWide hi lo d = ((hi * 2 ^ 128 + lo) / d, (hi * 2 ^ 128 + lo) % d) := by
  obtain ⟨q, r, hfold, hr, heq⟩ := divRounds_spec lo hd (le_refl 128) hhi (dvd_zero (2 ^ 128))
  rw [Nat.mod_eq_of_lt hlo] at heq
  have hdiv : (hi * 2 ^ 128 + lo) / d = q := by
    rw [heq, mul_comm, Nat.mul_add_div (by omega), Nat.div_eq_of_lt hr, add_zero]
  have hmod : (hi * 2 ^ 128 + lo) % d = r := by
    rw [heq, mul_comm, Nat.mul_add_mod, Nat.mod_eq_of_lt hr]
  rw [zero_add] at hfold
  rw [hdiv, hmod, divWide, hfold]

end RefractContracts.Math
