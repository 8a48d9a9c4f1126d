import RefractContracts.Host.Total

/-! Sharing rewards by an accumulator. Every distribution raises one global
counter of rewards per unit of weight; a key remembers the counter up to which
it was paid and is owed its weight times the difference. Weights are those last
recorded, so a key may be settled at any weight up to its own. All divisions
round down, hence what is owed never exceeds what was distributed. -/

namespace RefractContracts.Host

/-- Counter of rewards per unit of weight, and each key's weight, paid-up
counter and unclaimed rewards. -/
@[ext] structure Accumulator (κ : Type*) where
  acc : ℤ
  weight : κ → ℤ
  paid : κ → ℤ
  pending : κ → ℤ

namespace Accumulator

variable {κ : Type*}

/-- What `k` is owed, in units of `1 / scale`. -/
def owed (A : Accumulator κ) (scale : ℤ) (k : κ) : ℤ :=
  A.pending k * scale + A.weight k * (A.acc - A.paid k)

/-- Share `amount` over weights that sum to `W`. -/
def distribute (A : Accumulator κ) (scale amount W : ℤ) : Accumulator κ :=
  { A with acc := A.acc + (amount * scale).tdiv W }

/-- What `k` can claim when it counts with weight `power`. -/
def claimable (A : Accumulator κ) (scale : ℤ) (k : κ) (power : ℤ) : ℤ :=
  A.pending k + (power * (A.acc - A.paid k)).tdiv scale

def settle [DecidableEq κ] (A : Accumulator κ) (scale : ℤ) (k : κ) (power : ℤ) : Accumulator κ :=
  { A with
    paid := Function.update A.paid k A.acc
    pending := Function.update A.pending k (A.claimable scale k power) }

def reweigh [DecidableEq κ] (A : Accumulator κ) (k : κ) (power : ℤ) : Accumulator κ :=
  { A with weight := Function.update A.weight k power }

def pay [DecidableEq κ] (A : Accumulator κ) (k : κ) : Accumulator κ :=
  { A with pending := Function.update A.pending k 0 }

/-- Weights that sum to `W`, and rewards owed that `funds` cover. -/
structure Backed (A : Accumulator κ) (scale W funds : ℤ) : Prop where
  weight_nonneg : ∀ k, 0 ≤ A.weight k
  paid_le : ∀ k, A.paid k ≤ A.acc
  pending_nonneg : ∀ k, 0 ≤ A.pending k
  total : HasTotal A.weight W
  covered : ∃ n, HasTotal (A.owed scale) n ∧ n ≤ funds * scale

variable {A : Accumulator κ} {scale W funds power amount : ℤ} {k : κ}

/-- Rounded down, the accrued reward stays below its exact value. -/
theorem accrued_bounds (hs : 0 < scale) (hp : 0 ≤ power) {d : ℤ} (hd : 0 ≤ d) :
    0 ≤ (power * d).tdiv scale ∧ (power * d).tdiv scale * scale ≤ power * d := by
  have hx : 0 ≤ power * d := mul_nonneg hp hd
  rw [Int.tdiv_eq_ediv_of_nonneg hx]
  exact ⟨Int.ediv_nonneg hx hs.le, Int.ediv_mul_le _ hs.ne'⟩

/-- Of two books with the same pending rewards, the one that accrued more lets claim more. -/
theorem claimable_mono {B : Accumulator κ} {power' : ℤ} (hs : 0 < scale)
    (hpend : A.pending k = B.pending k) (hx : 0 ≤ power * (A.acc - A.paid k))
    (hxy : power * (A.acc - A.paid k) ≤ power' * (B.acc - B.paid k)) :
    A.claimable scale k power ≤ B.claimable scale k power' := by
  have hdiv := Int.ediv_le_ediv hs hxy
  unfold claimable
  rw [Int.tdiv_eq_ediv_of_nonneg hx, Int.tdiv_eq_ediv_of_nonneg (hx.trans hxy), hpend]
  omega

/-- Rounding the parts down loses at most one against rounding the sum down. -/
theorem accrued_add_le (hs : 0 < scale) {x y : ℤ} (hx : 0 ≤ x) (hy : 0 ≤ y) :
    (x + y).tdiv scale ≤ x.tdiv scale + y.tdiv scale + 1 := by
  rw [Int.tdiv_eq_ediv_of_nonneg hx, Int.tdiv_eq_ediv_of_nonneg hy,
    Int.tdiv_eq_ediv_of_nonneg (add_nonneg hx hy)]
  refine Int.lt_add_one_iff.mp (Int.ediv_lt_of_lt_mul hs ?_)
  have hx' := Int.lt_ediv_add_one_mul_self x hs
  have hy' := Int.lt_ediv_add_one_mul_self y hs
  calc x + y < (x / scale + 1) * scale + (y / scale + 1) * scale := by omega
    _ = (x / scale + y / scale + 1 + 1) * scale := by ring

/-- A share that shrinks accrues at most one more in one go than in two, of which the first is
at the larger share. -/
theorem accrued_split_le (hs : 0 < scale) {p p' x y z : ℤ} (hp : 0 ≤ p) (hle : p ≤ p') (hxy : x ≤ y)
    (hyz : y ≤ z) :
    (p * (z - x)).tdiv scale ≤ (p' * (y - x)).tdiv scale + (p * (z - y)).tdiv scale + 1 := by
  have hearly : 0 ≤ p * (y - x) := mul_nonneg hp (sub_nonneg.mpr hxy)
  have hlate : 0 ≤ p * (z - y) := mul_nonneg hp (sub_nonneg.mpr hyz)
  have hshrunk : p * (y - x) ≤ p' * (y - x) := mul_le_mul_of_nonneg_right hle (sub_nonneg.mpr hxy)
  have hsum : p * (z - x) = p * (y - x) + p * (z - y) := by ring
  have hrounded := accrued_add_le hs hearly hlate
  have hdiv := Int.ediv_le_ediv hs hshrunk
  rw [← Int.tdiv_eq_ediv_of_nonneg hearly,
    ← Int.tdiv_eq_ediv_of_nonneg (hearly.trans hshrunk)] at hdiv
  rw [hsum]
  omega

namespace Backed

/-- A key that counts with at most its weight claims at most what it is owed. -/
theorem claimable_le (b : A.Backed scale W funds) (hs : 0 < scale) (hp : 0 ≤ power)
    (hw : power ≤ A.weight k) :
    0 ≤ A.claimable scale k power ∧ A.claimable scale k power * scale ≤ A.owed scale k := by
  have hd : 0 ≤ A.acc - A.paid k := sub_nonneg.mpr (b.paid_le k)
  obtain ⟨hn, hle⟩ := accrued_bounds hs hp hd
  have hpend := b.pending_nonneg k
  have hmul : power * (A.acc - A.paid k) ≤ A.weight k * (A.acc - A.paid k) :=
    mul_le_mul_of_nonneg_right hw hd
  unfold claimable owed
  refine ⟨by omega, ?_⟩
  rw [add_mul]
  omega

/-- All keys together can claim at most the funds. -/
theorem claimable_total (b : A.Backed scale W funds) (hs : 0 < scale) {c : κ → ℤ}
    (hc : ∀ k, 0 ≤ c k ∧ c k * scale ≤ A.owed scale k) : ∃ n, HasTotal c n ∧ n ≤ funds := by
  obtain ⟨n, hn, hle⟩ := b.covered
  have hsupp : ∀ k, A.owed scale k = 0 → c k = 0 := fun k hk => by
    obtain ⟨h0, h1⟩ := hc k
    rw [hk] at h1
    exact le_antisymm (nonpos_of_mul_nonpos_left h1 hs) h0
  obtain ⟨m, hm⟩ := hn.exists_of_support hsupp
  have hmn : m * scale ≤ n := (hm.mul_right scale).mono hn fun k => (hc k).2
  exact ⟨m, hm, le_of_mul_le_mul_right (hmn.trans hle) hs⟩

/-- A distribution raises what is owed by at most its amount. -/
theorem distribute (b : A.Backed scale W funds) (hs : 0 < scale) (hW : 0 < W) (ha : 0 ≤ amount) :
    (A.distribute scale amount W).Backed scale W (funds + amount) := by
  obtain ⟨n, hn, hle⟩ := b.covered
  have hx : 0 ≤ amount * scale := mul_nonneg ha hs.le
  have hq : 0 ≤ (amount * scale).tdiv W ∧ (amount * scale).tdiv W * W ≤ amount * scale := by
    rw [Int.tdiv_eq_ediv_of_nonneg hx]
    exact ⟨Int.ediv_nonneg hx hW.le, Int.ediv_mul_le _ hW.ne'⟩
  refine ⟨b.weight_nonneg, fun k => ?_, b.pending_nonneg, b.total,
    n + W * (amount * scale).tdiv W, ?_, ?_⟩
  · have := b.paid_le k
    simp only [Accumulator.distribute]
    omega
  · refine (hn.add (b.total.mul_right _)).congr (fun k => ?_) rfl
    simp only [Accumulator.distribute, owed]
    ring
  · rw [mul_comm W, add_mul]
    omega

variable [DecidableEq κ]

/-- Settling at most the recorded weight raises nothing that is owed. -/
theorem settle (b : A.Backed scale W funds) (hs : 0 < scale) (hp : 0 ≤ power)
    (hw : power ≤ A.weight k) : (A.settle scale k power).Backed scale W funds := by
  obtain ⟨hc, hcle⟩ := b.claimable_le hs hp hw
  obtain ⟨n, hn, hle⟩ := b.covered
  have hk : (A.settle scale k power).owed scale k = A.claimable scale k power * scale := by
    simp [Accumulator.settle, owed]
  refine ⟨b.weight_nonneg, ?_, ?_, b.total,
    _, hn.change (g := (A.settle scale k power).owed scale) k (fun j hj => ?_), ?_⟩
  · exact (Function.forall_update_iff _ fun _ x => x ≤ A.acc).mpr
      ⟨le_rfl, fun j _ => b.paid_le j⟩
  · exact (Function.forall_update_iff _ fun _ x => 0 ≤ x).mpr ⟨hc, fun j _ => b.pending_nonneg j⟩
  · simp [Accumulator.settle, owed, hj]
  · rw [hk]
    omega

/-- The weight of a settled key can change freely. -/
theorem reweigh (b : A.Backed scale W funds) (hk : A.paid k = A.acc) (hp : 0 ≤ power) :
    (A.reweigh k power).Backed scale (W - A.weight k + power) funds := by
  obtain ⟨n, hn, hle⟩ := b.covered
  refine ⟨?_, b.paid_le, b.pending_nonneg, b.total.update k power, n,
    hn.congr (fun j => ?_) rfl, hle⟩
  · exact (Function.forall_update_iff _ fun _ x => 0 ≤ x).mpr ⟨hp, fun j _ => b.weight_nonneg j⟩
  · by_cases hj : j = k
    · simp [Accumulator.reweigh, owed, hj, hk]
    · simp [Accumulator.reweigh, owed, hj]

/-- Paying a key its pending rewards takes them out of the funds. -/
theorem pay (b : A.Backed scale W funds) : (A.pay k).Backed scale W (funds - A.pending k) := by
  obtain ⟨n, hn, hle⟩ := b.covered
  have hk : (A.pay k).owed scale k = A.owed scale k - A.pending k * scale := by
    simp [Accumulator.pay, owed]
  refine ⟨b.weight_nonneg, b.paid_le, ?_, b.total,
    _, hn.change (g := (A.pay k).owed scale) k (fun j hj => ?_), ?_⟩
  · exact (Function.forall_update_iff _ fun _ x => 0 ≤ x).mpr
      ⟨le_rfl, fun j _ => b.pending_nonneg j⟩
  · simp [Accumulator.pay, owed, hj]
  · rw [hk, sub_mul]
    omega

end Backed

end Accumulator

end RefractContracts.Host
