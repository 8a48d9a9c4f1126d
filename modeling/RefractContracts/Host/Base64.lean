import Mathlib.Data.Nat.Notation
import Mathlib.Tactic

/-! Base 64. Three bytes are four digits, and what is left at the end is padded. The decoder is
the lenient one of Python: it passes over characters that are no digits and stops at the padding
that completes a group, and it reads back what the encoder writes. -/

namespace RefractContracts.Host.Base64

def alphabet : List Char :=
  "ABCDEFGHIJKLMNOPQRSTUVWXYZabcdefghijklmnopqrstuvwxyz0123456789+/".toList

def digit (n : ℕ) : Char := alphabet.getD n 'A'

/-- `base64.b64encode`. -/
def b64encode : List UInt8 → List Char
  | a :: b :: c :: rest =>
    digit (a.toNat / 4) :: digit (a.toNat % 4 * 16 + b.toNat / 16) ::
      digit (b.toNat % 16 * 4 + c.toNat / 64) :: digit (c.toNat % 64) :: b64encode rest
  | [a, b] =>
    [digit (a.toNat / 4), digit (a.toNat % 4 * 16 + b.toNat / 16), digit (b.toNat % 16 * 4), '=']
  | [a] => [digit (a.toNat / 4), digit (a.toNat % 4 * 16), '=', '=']
  | [] => []

/-- The byte after the digit `v` at a position of the group, if it completes one, and the bits
that are left of `v`. -/
def addDigit (pos left v : ℕ) : Option UInt8 × ℕ :=
  match pos with
  | 0 => (none, v)
  | 1 => (some (.ofNat (left * 4 + v / 16)), v % 16)
  | 2 => (some (.ofNat (left * 16 + v / 4)), v % 4)
  | _ => (some (.ofNat (left * 64 + v)), 0)

/-- `binascii.a2b_base64` from a position in a group of four, with the bits left of the digit
before and the padding seen since. -/
def a2bBase64 (pos left pads : ℕ) : List Char → Option (List UInt8)
  | [] => if pos = 0 then some [] else none
  | c :: s =>
    if c = '=' then
      if 2 ≤ pos then
        if 4 ≤ pos + (pads + 1) then some [] else a2bBase64 pos left (pads + 1) s
      else a2bBase64 pos left pads s
    else
      match alphabet.idxOf? c with
      | none => a2bBase64 pos left pads s
      | some v =>
        let (byte, left) := addDigit pos left v
        (a2bBase64 ((pos + 1) % 4) left 0 s).map (byte.toList ++ ·)

/-- `base64.b64decode` of a text. -/
def b64decode (s : List Char) : Option (List UInt8) :=
  if s.all (fun c => c.toNat < 128) then a2bBase64 0 0 0 s else none

/-! ### The round trip -/

theorem digit_spec {n : ℕ} (hn : n < 64) :
    alphabet.idxOf? (digit n) = some n ∧ digit n ≠ '=' ∧ (digit n).toNat < 128 := by
  have hall : ∀ i : Fin 64,
      alphabet.idxOf? (digit i) = some i.val ∧ digit i ≠ '=' ∧ (digit i).toNat < 128 := by
    decide +kernel
  exact hall ⟨n, hn⟩

theorem a2bBase64_digit {n : ℕ} (hn : n < 64) (pos left pads : ℕ) (s : List Char) :
    a2bBase64 pos left pads (digit n :: s) =
      (a2bBase64 ((pos + 1) % 4) (addDigit pos left n).2 0 s).map
        ((addDigit pos left n).1.toList ++ ·) := by
  obtain ⟨hidx, hne, -⟩ := digit_spec hn
  rw [a2bBase64, if_neg hne, hidx]

theorem first_byte (a n : ℕ) (hn : n < 16) : a / 4 * 4 + (a % 4 * 16 + n) / 16 = a := by omega

theorem second_byte (b n : ℕ) (hn : n < 4) :
    (b / 16) * 16 + (b % 16 * 4 + n) / 4 = b := by omega

theorem a2bBase64_encode (bytes : List UInt8) : a2bBase64 0 0 0 (b64encode bytes) = some bytes := by
  induction bytes using b64encode.induct with
  | case1 a b c rest ih =>
    have ha := a.toNat_lt
    have hb := b.toNat_lt
    have hc := c.toNat_lt
    have hmid : (a.toNat % 4 * 16 + b.toNat / 16) % 16 = b.toNat / 16 := by omega
    have hlow : (b.toNat % 16 * 4 + c.toNat / 64) % 4 = c.toNat / 64 := by omega
    have hthird : c.toNat / 64 * 64 + c.toNat % 64 = c.toNat := by omega
    rw [b64encode, a2bBase64_digit (by omega), a2bBase64_digit (by omega),
      a2bBase64_digit (by omega), a2bBase64_digit (by omega)]
    simp only [addDigit, Nat.zero_add, Nat.reduceAdd, Nat.reduceMod, ih, Option.map_some,
      hmid, hlow]
    rw [first_byte _ _ (by omega), second_byte _ _ (by omega), hthird]
    simp
  | case2 a b =>
    have ha := a.toNat_lt
    have hb := b.toNat_lt
    have hmid : (a.toNat % 4 * 16 + b.toNat / 16) % 16 = b.toNat / 16 := by omega
    have hsecond := second_byte b.toNat 0 (by decide)
    rw [Nat.add_zero] at hsecond
    rw [b64encode, a2bBase64_digit (by omega), a2bBase64_digit (by omega),
      a2bBase64_digit (by omega)]
    simp only [addDigit, Nat.zero_add, Nat.reduceAdd, Nat.reduceMod, hmid]
    rw [first_byte _ _ (by omega), hsecond]
    simp [a2bBase64]
  | case3 a =>
    have ha := a.toNat_lt
    have hfirst := first_byte a.toNat 0 (by decide)
    rw [Nat.add_zero] at hfirst
    rw [b64encode, a2bBase64_digit (by omega), a2bBase64_digit (by omega)]
    simp only [addDigit, Nat.zero_add, Nat.reduceAdd, Nat.reduceMod]
    rw [hfirst]
    simp [a2bBase64]
  | case4 => rfl

theorem isAscii_encode (bytes : List UInt8) : ∀ c ∈ b64encode bytes, c.toNat < 128 := by
  have hpad : '='.toNat < 128 := by decide
  induction bytes using b64encode.induct with
  | case1 a b c rest ih =>
    have ha := a.toNat_lt
    have hb := b.toNat_lt
    have hc := c.toNat_lt
    simp only [b64encode, List.forall_mem_cons]
    exact ⟨(digit_spec (by omega)).2.2, (digit_spec (by omega)).2.2, (digit_spec (by omega)).2.2,
      (digit_spec (by omega)).2.2, ih⟩
  | case2 a b =>
    have ha := a.toNat_lt
    have hb := b.toNat_lt
    simp only [b64encode, List.forall_mem_cons]
    exact ⟨(digit_spec (by omega)).2.2, (digit_spec (by omega)).2.2, (digit_spec (by omega)).2.2,
      hpad, List.forall_mem_nil _⟩
  | case3 a =>
    have ha := a.toNat_lt
    simp only [b64encode, List.forall_mem_cons]
    exact ⟨(digit_spec (by omega)).2.2, (digit_spec (by omega)).2.2, hpad, hpad,
      List.forall_mem_nil _⟩
  | case4 => exact List.forall_mem_nil _

theorem b64decode_encode (bytes : List UInt8) : b64decode (b64encode bytes) = some bytes := by
  rw [b64decode, if_pos, a2bBase64_encode]
  exact List.all_eq_true.mpr fun c hc => decide_eq_true (isAscii_encode bytes c hc)

end RefractContracts.Host.Base64
