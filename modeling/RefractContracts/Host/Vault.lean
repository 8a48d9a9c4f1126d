import Mathlib.Tactic

/-! Proportional shares of a vault. A deposit mints shares at the current price
and a redemption pays shares of the assets, both rounded down. Prices are
compared by cross-multiplication, so empty vaults need no convention. -/

namespace RefractContracts.Host

/-- Assets held and shares outstanding. -/
structure Vault where
  assets : ℤ
  shares : ℤ

namespace Vault

/-- A vault without debts: shareless only when it is empty. -/
structure Sound (v : Vault) : Prop where
  assets_nonneg : 0 ≤ v.assets
  shares_nonneg : 0 ≤ v.shares
  empty : v.shares = 0 → v.assets = 0

/-- Shares minted by a deposit; one for one without shares or without assets. -/
def mint (v : Vault) (amount : ℤ) : ℤ :=
  if v.shares = 0 ∨ v.assets = 0 then amount else amount * v.shares / v.assets

/-- What burning `n` shares pays. -/
def redeem (v : Vault) (n : ℤ) : ℤ := n * v.assets / v.shares

def deposit (v : Vault) (amount : ℤ) : Vault := ⟨v.assets + amount, v.shares + v.mint amount⟩

def burn (v : Vault) (n : ℤ) : Vault := ⟨v.assets - v.redeem n, v.shares - n⟩

/-- The price of a share of `v` is at most that of a share of `u`. -/
def PriceLe (v u : Vault) : Prop := v.assets * u.shares ≤ u.assets * v.shares

variable {v u : Vault} {amount n : ℤ}

theorem mint_nonneg (hv : v.Sound) (ha : 0 ≤ amount) : 0 ≤ v.mint amount := by
  unfold mint
  split_ifs
  · exact ha
  · exact Int.ediv_nonneg (mul_nonneg ha hv.shares_nonneg) hv.assets_nonneg

/-- Minted shares are worth at most the deposit. -/
theorem mint_mul_le (hv : v.Sound) (ha : 0 ≤ amount) :
    v.mint amount * v.assets ≤ amount * v.shares := by
  unfold mint
  split_ifs with hz
  · have hzero : v.assets = 0 := hz.elim hv.empty id
    rw [hzero, mul_zero]
    exact mul_nonneg ha hv.shares_nonneg
  · exact Int.ediv_mul_le _ (by tauto)

theorem redeem_mul_le (hs : 0 < v.shares) : v.redeem n * v.shares ≤ n * v.assets :=
  Int.ediv_mul_le _ hs.ne'

/-- Shares of a vault without debts redeem for at most its assets. -/
theorem redeem_le_assets (hA : 0 ≤ v.assets) (hs : 0 < v.shares) (hn : n ≤ v.shares) :
    v.redeem n ≤ v.assets := by
  apply Int.ediv_le_of_le_mul hs
  rw [mul_comm]
  exact mul_le_mul_of_nonneg_left hn hA

theorem redeem_le (hv : v.Sound) (hs : 0 < v.shares) (hn : n ≤ v.shares) :
    v.redeem n ≤ v.assets :=
  redeem_le_assets hv.assets_nonneg hs hn

/-- A higher price never lowers what a holding redeems for. -/
theorem redeem_mono (hp : v.PriceLe u) (hv : 0 < v.shares) (hu : 0 < u.shares) (hn : 0 ≤ n) :
    v.redeem n ≤ u.redeem n := by
  apply Int.le_ediv_of_mul_le hu
  refine le_of_mul_le_mul_right ?_ hv
  calc v.redeem n * u.shares * v.shares = v.redeem n * v.shares * u.shares := by ring
    _ ≤ n * v.assets * u.shares := mul_le_mul_of_nonneg_right (redeem_mul_le hv) hu.le
    _ = n * (v.assets * u.shares) := by ring
    _ ≤ n * (u.assets * v.shares) := mul_le_mul_of_nonneg_left hp hn
    _ = n * u.assets * v.shares := by ring

/-- A deposit does not lower the price. -/
theorem price_deposit (hv : v.Sound) (ha : 0 ≤ amount) : v.PriceLe (v.deposit amount) := by
  have h := mint_mul_le hv ha
  unfold PriceLe deposit
  linarith

/-- A redemption does not lower the price. -/
theorem price_burn (hs : 0 < v.shares) : v.PriceLe (v.burn n) := by
  have h := redeem_mul_le (n := n) hs
  unfold PriceLe burn
  linarith

/-- Redeeming the shares just minted returns at most the deposit. -/
theorem redeem_deposit_le (hv : v.Sound) (ha : 0 ≤ amount) (hm : 0 < v.mint amount) :
    (v.deposit amount).redeem (v.mint amount) ≤ amount := by
  have h := mint_mul_le hv ha
  have hs := hv.shares_nonneg
  apply Int.ediv_le_of_le_mul (by simp only [deposit]; omega)
  simp only [deposit]
  linarith

theorem sound_deposit (hv : v.Sound) (ha : 0 < amount) : (v.deposit amount).Sound := by
  have hm := mint_nonneg hv ha.le
  have hA := hv.assets_nonneg
  have hS := hv.shares_nonneg
  refine ⟨by simp only [deposit]; omega, by simp only [deposit]; omega, fun hz => ?_⟩
  have hzero : v.shares = 0 := by simp only [deposit] at hz; omega
  simp only [deposit, mint, hzero, true_or, if_true] at hz
  omega

theorem sound_burn (hv : v.Sound) (hs : 0 < v.shares) (hn : n ≤ v.shares) : (v.burn n).Sound := by
  have hr := redeem_le hv hs hn
  refine ⟨sub_nonneg.mpr hr, sub_nonneg.mpr hn, fun hz => ?_⟩
  obtain rfl : n = v.shares := by simp only [burn] at hz; omega
  simp only [burn, redeem]
  rw [mul_comm, Int.mul_ediv_cancel _ hs.ne', sub_self]

end Vault

end RefractContracts.Host
