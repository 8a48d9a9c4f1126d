import Mathlib.Data.Rat.Floor
import Mathlib.Tactic

/-! Amounts in other units. An amount counted in units of `b ^ (-src)` is a rational
number of units of `b ^ (-dst)`; a conversion between integers rounds it down or up. The
two ways bracket it, and going to the finer unit and back loses nothing. -/

namespace RefractContracts.Host

/-- How to round. -/
inductive Rounding where
  | floor
  | ceil
  deriving DecidableEq, Repr

/-- The integer a value is rounded to. -/
def Rounding.round (v : ℚ) : Rounding → ℤ
  | .floor => ⌊v⌋
  | .ceil => ⌈v⌉

@[simp] theorem Rounding.round_intCast (n : ℤ) (r : Rounding) : r.round (n : ℚ) = n := by
  cases r <;> simp [Rounding.round]

/-! ### Quotients -/

section Quotients
variable {a : ℤ} {n : ℕ}

/-- The rounded quotient is the floored one, and one more if a remainder is rounded up. -/
theorem Rounding.round_div (hn : 0 < n) (r : Rounding) : r.round ((a : ℚ) / n) =
    if 0 < a % n ∧ r = .ceil then a / n + 1 else a / n := by
  have hpos : (0 : ℤ) < n := by exact_mod_cast hn
  have hdiv := Int.mul_ediv_add_emod a n
  have hrem := Int.emod_nonneg a hpos.ne'
  have hlt := Int.emod_lt_of_pos a hpos
  cases r with
  | floor => simp [Rounding.round, Rat.floor_intCast_div_natCast]
  | ceil =>
    have hn' : (0 : ℚ) < n := by exact_mod_cast hn
    have hceil (q : ℤ) : ⌈(a : ℚ) / n⌉ = q ↔ (q - 1) * n < a ∧ a ≤ q * n := by
      rw [Int.ceil_eq_iff, lt_div_iff₀ hn', div_le_iff₀ hn']
      exact_mod_cast Iff.rfl
    simp only [Rounding.round, and_true]
    split_ifs with hzero
    · rw [hceil]
      constructor <;> nlinarith
    · rw [hceil]
      constructor <;> nlinarith

theorem ceil_div_mul_le_iff (hn : 0 < n) : ⌈(a : ℚ) / n⌉ * n ≤ a ↔ (n : ℤ) ∣ a := by
  have hpos : (0 : ℚ) < n := by exact_mod_cast hn
  constructor
  · intro h
    have hle : (⌈(a : ℚ) / n⌉ : ℚ) ≤ a / n := by
      rw [le_div_iff₀ hpos]
      exact_mod_cast h
    have heq := le_antisymm hle (Int.le_ceil _)
    rw [eq_div_iff hpos.ne'] at heq
    exact ⟨⌈(a : ℚ) / n⌉, by rw [mul_comm]; exact_mod_cast heq.symm⟩
  · rintro ⟨q, rfl⟩
    have hquot : ((n * q : ℤ) : ℚ) / n = q := by
      push_cast
      field_simp
    rw [hquot, Int.ceil_intCast, mul_comm]

end Quotients

/-! ### Changes of unit -/

section Rescale
variable {b src dst : ℕ} {a n : ℤ}

/-- An amount of units of `b ^ (-src)` in units of `b ^ (-dst)`. -/
def rescale (b src dst : ℕ) (a : ℤ) : ℚ := a * b ^ dst / b ^ src

theorem rescale_finer (hb : 0 < b) (h : src ≤ dst) (a : ℤ) :
    rescale b src dst a = (a * b ^ (dst - src) : ℤ) := by
  have hb' : (b : ℚ) ≠ 0 := by exact_mod_cast hb.ne'
  obtain ⟨k, rfl⟩ := Nat.exists_eq_add_of_le h
  rw [rescale, Nat.add_sub_cancel_left, pow_add]
  push_cast
  field_simp

theorem rescale_coarser (hb : 0 < b) (h : dst ≤ src) (a : ℤ) :
    rescale b src dst a = a / (b ^ (src - dst) : ℕ) := by
  have hb' : (b : ℚ) ≠ 0 := by exact_mod_cast hb.ne'
  obtain ⟨k, rfl⟩ := Nat.exists_eq_add_of_le h
  rw [rescale, Nat.add_sub_cancel_left, pow_add]
  push_cast
  field_simp

theorem rescale_le (hb : 0 < b) (h : dst ≤ src) (ha : 0 ≤ a) : rescale b src dst a ≤ a := by
  have hpow : 0 < b ^ (src - dst) := Nat.pow_pos hb
  rw [rescale_coarser hb h]
  exact div_le_self (by exact_mod_cast ha) (by exact_mod_cast hpow)

/-- Back in the old unit, an amount that is a whole number of new units is what it was. -/
theorem rescale_back (hb : 0 < b) (h : rescale b src dst a = n) : rescale b dst src n = a := by
  have hb' : (b : ℚ) ≠ 0 := by exact_mod_cast hb.ne'
  rw [rescale, ← h, rescale]
  field_simp

/-- Rounded down and up, a value is bracketed by integers that differ by one at most, and
that are equal when the value is an integer. -/
structure Brackets (lo hi : ℤ) (v : ℚ) : Prop where
  lower : lo ≤ v
  upper : v ≤ hi
  close : hi ≤ lo + 1
  exact_iff : lo = hi ↔ ∃ n : ℤ, v = n

theorem brackets_round (v : ℚ) :
    Brackets (Rounding.floor.round v) (Rounding.ceil.round v) v where
  lower := Int.floor_le v
  upper := Int.le_ceil v
  close := Int.ceil_le_floor_add_one v
  exact_iff := by
    simp only [Rounding.round]
    constructor
    · intro h
      refine ⟨⌊v⌋, le_antisymm ?_ (Int.floor_le v)⟩
      rw [h]
      exact Int.le_ceil v
    · rintro ⟨n, rfl⟩
      rw [Int.floor_intCast, Int.ceil_intCast]

end Rescale

end RefractContracts.Host
