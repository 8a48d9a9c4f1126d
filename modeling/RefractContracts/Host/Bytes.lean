import Mathlib.Tactic

/-! Fixed-width encodings. A machine integer has its big-endian bytes, a fixed number of
them; so a field that is encoded with a fixed width can be read back from what follows
it, and a sequence of such fields is encoded injectively. A number that fits its width is
the value of its bytes, and the bytes are those of their value. -/

namespace RefractContracts.Host

/-- The `k` low bytes of `n`, the most significant first. -/
def beBytes : ℕ → ℕ → List UInt8
  | 0, _ => []
  | k + 1, n => beBytes k (n / 256) ++ [UInt8.ofNat (n % 256)]

@[simp] theorem length_beBytes (k n : ℕ) : (beBytes k n).length = k := by
  induction k generalizing n with
  | zero => rfl
  | succ k ih => rw [beBytes, List.length_append, ih, List.length_singleton]

theorem beBytes_inj {k n m : ℕ} (hn : n < 256 ^ k) (hm : m < 256 ^ k)
    (h : beBytes k n = beBytes k m) : n = m := by
  induction k generalizing n m with
  | zero =>
    rw [pow_zero] at hn hm
    omega
  | succ k ih =>
    rw [beBytes, beBytes] at h
    obtain ⟨hhigh, hlow⟩ := List.append_inj' h rfl
    have hbyte : n % 256 = m % 256 := by
      have := congrArg UInt8.toNat (List.cons.inj hlow).1
      rw [UInt8.toNat_ofNat', UInt8.toNat_ofNat'] at this
      omega
    rw [pow_succ] at hn hm
    have hdiv := ih (Nat.div_lt_of_lt_mul (by omega)) (Nat.div_lt_of_lt_mul (by omega)) hhigh
    omega

/-- The number that bytes stand for, the most significant first. -/
def beValue (bytes : List UInt8) : ℕ := bytes.foldl (fun n b => 256 * n + b.toNat) 0

theorem beValue_append_singleton (bytes : List UInt8) (b : UInt8) :
    beValue (bytes ++ [b]) = 256 * beValue bytes + b.toNat := by
  rw [beValue, List.foldl_append]
  rfl

theorem beValue_beBytes {k n : ℕ} (hn : n < 256 ^ k) : beValue (beBytes k n) = n := by
  induction k generalizing n with
  | zero =>
    rw [pow_zero] at hn
    exact (Nat.lt_one_iff.mp hn).symm
  | succ k ih =>
    rw [pow_succ] at hn
    rw [beBytes, beValue_append_singleton, ih (Nat.div_lt_of_lt_mul (by omega)), UInt8.toNat_ofNat']
    omega

theorem beValue_lt (bytes : List UInt8) : beValue bytes < 256 ^ bytes.length := by
  induction bytes using List.reverseRecOn with
  | nil => decide
  | append_singleton bytes b ih =>
    have hb := b.toNat_lt
    rw [beValue_append_singleton, List.length_append, List.length_singleton, pow_succ]
    omega

theorem beBytes_beValue (bytes : List UInt8) : beBytes bytes.length (beValue bytes) = bytes := by
  induction bytes using List.reverseRecOn with
  | nil => rfl
  | append_singleton bytes b ih =>
    have hb := b.toNat_lt
    have hdiv : (256 * beValue bytes + b.toNat) / 256 = beValue bytes := by omega
    have hmod : (256 * beValue bytes + b.toNat) % 256 = b.toNat := by omega
    rw [beValue_append_singleton, List.length_append, List.length_singleton, beBytes, hdiv,
      hmod, ih, UInt8.ofNat_toNat]

/-- `u64::to_be_bytes`. -/
def beBytes64 (x : UInt64) : List UInt8 := beBytes 8 x.toNat

/-- `u32::to_be_bytes`. -/
def beBytes32 (x : UInt32) : List UInt8 := beBytes 4 x.toNat

@[simp] theorem length_beBytes64 (x : UInt64) : (beBytes64 x).length = 8 := length_beBytes 8 _

@[simp] theorem length_beBytes32 (x : UInt32) : (beBytes32 x).length = 4 := length_beBytes 4 _

theorem beBytes64_inj {x y : UInt64} (h : beBytes64 x = beBytes64 y) : x = y :=
  UInt64.toNat_inj.mp (beBytes_inj x.toNat_lt y.toNat_lt h)

theorem beBytes32_inj {x y : UInt32} (h : beBytes32 x = beBytes32 y) : x = y :=
  UInt32.toNat_inj.mp (beBytes_inj x.toNat_lt y.toNat_lt h)

end RefractContracts.Host
