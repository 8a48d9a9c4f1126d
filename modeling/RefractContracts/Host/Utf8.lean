import Mathlib.Tactic

/-! UTF-8 with replacement. A decoder in one of two states, between characters or within one with
bounds for the next byte; a byte that fits neither is replaced, together with the part of a
character before it. What a character is encoded as is decoded to it. -/

namespace RefractContracts.Host.Utf8

/-- Within a character: the bytes to come, the bounds of the next one, and the value so far. -/
structure Pending where
  need : ℕ
  low : ℕ
  high : ℕ
  value : ℕ

def replacement : Char := '\uFFFD'

/-- After the first byte of a character: the character, or what it asks for. -/
def first (b : ℕ) : Option Char × Option Pending :=
  if b < 0x80 then (some (.ofNat b), none)
  else if 0xC2 ≤ b ∧ b ≤ 0xDF then (none, some ⟨1, 0x80, 0xBF, b - 0xC0⟩)
  else if b = 0xE0 then (none, some ⟨2, 0xA0, 0xBF, 0⟩)
  else if b = 0xED then (none, some ⟨2, 0x80, 0x9F, 0xD⟩)
  else if 0xE1 ≤ b ∧ b ≤ 0xEF then (none, some ⟨2, 0x80, 0xBF, b - 0xE0⟩)
  else if b = 0xF0 then (none, some ⟨3, 0x90, 0xBF, 0⟩)
  else if b = 0xF4 then (none, some ⟨3, 0x80, 0x8F, 4⟩)
  else if 0xF1 ≤ b ∧ b ≤ 0xF3 then (none, some ⟨3, 0x80, 0xBF, b - 0xF0⟩)
  else (some replacement, none)

def decodeFrom : Option Pending → List UInt8 → List Char
  | none, [] => []
  | some _, [] => [replacement]
  | none, b :: bytes => (first b.toNat).1.toList ++ decodeFrom (first b.toNat).2 bytes
  | some p, b :: bytes =>
    if p.low ≤ b.toNat ∧ b.toNat ≤ p.high then
      let value := 64 * p.value + (b.toNat - 0x80)
      if p.need = 1 then .ofNat value :: decodeFrom none bytes
      else decodeFrom (some ⟨p.need - 1, 0x80, 0xBF, value⟩) bytes
    else replacement :: ((first b.toNat).1.toList ++ decodeFrom (first b.toNat).2 bytes)

/-- `bytes.decode("utf-8", "replace")`. -/
def decodeReplace (bytes : List UInt8) : String := .ofList (decodeFrom none bytes)

/-! ### Steps -/

section Steps
variable {p : Pending} {bytes : List UInt8} {need low high value n : ℕ}

theorem decodeFrom_lead {b : ℕ} (hb : b < 256) (hfirst : first b = (none, some p))
    (bytes : List UInt8) : decodeFrom none (.ofNat b :: bytes) = decodeFrom (some p) bytes := by
  rw [decodeFrom, UInt8.toNat_ofNat_of_lt' hb, hfirst]
  rfl

theorem decodeFrom_more (hn : n < 64) (hlow : low ≤ n + 0x80) (hhigh : n + 0x80 ≤ high) :
    decodeFrom (some ⟨need + 2, low, high, value⟩) (.ofNat (n + 0x80) :: bytes) =
      decodeFrom (some ⟨need + 1, 0x80, 0xBF, 64 * value + n⟩) bytes := by
  have hbyte : n + 0x80 < UInt8.size := Nat.add_lt_add_right hn 0x80 |>.trans (by decide)
  rw [decodeFrom, UInt8.toNat_ofNat_of_lt' hbyte, if_pos ⟨hlow, hhigh⟩, if_neg (by simp),
    Nat.add_sub_cancel]
  rfl

theorem decodeFrom_last (hn : n < 64) (hlow : low ≤ n + 0x80) (hhigh : n + 0x80 ≤ high) :
    decodeFrom (some ⟨1, low, high, value⟩) (.ofNat (n + 0x80) :: bytes) =
      .ofNat (64 * value + n) :: decodeFrom none bytes := by
  have hbyte : n + 0x80 < UInt8.size := Nat.add_lt_add_right hn 0x80 |>.trans (by decide)
  rw [decodeFrom, UInt8.toNat_ofNat_of_lt' hbyte, if_pos ⟨hlow, hhigh⟩, if_pos rfl,
    Nat.add_sub_cancel]

end Steps

/-! ### Characters -/

section Characters
variable {v : ℕ} {rest : List UInt8}

theorem decodeFrom_two (hlow : 0x80 ≤ v) (hhigh : v ≤ 0x7FF) :
    decodeFrom none (.ofNat (v / 64 % 0x20 + 0xC0) :: .ofNat (v % 0x40 + 0x80) :: rest) =
      .ofNat v :: decodeFrom none rest := by
  have hfirst : first (v / 64 % 0x20 + 0xC0) = (none, some ⟨1, 0x80, 0xBF, v / 64⟩) := by
    have hmod : v / 64 % 0x20 = v / 64 := by omega
    rw [hmod, first, if_neg (by omega), if_pos (by omega), Nat.add_sub_cancel]
  have hvalue : 64 * (v / 64) + v % 0x40 = v := Nat.div_add_mod v 64
  rw [decodeFrom_lead (by omega) hfirst, decodeFrom_last (by omega) (by omega) (by omega), hvalue]

/-- The first byte of three, with the bounds it gives the second. -/
theorem first_three (hlow : 0x800 ≤ v) (hhigh : v ≤ 0xFFFF) (hvalid : v.isValidChar) :
    ∃ low high, first (v / 4096 % 0x10 + 0xE0) = (none, some ⟨2, low, high, v / 4096⟩) ∧
      low ≤ v / 64 % 0x40 + 0x80 ∧ v / 64 % 0x40 + 0x80 ≤ high := by
  have hmod : v / 4096 % 0x10 = v / 4096 := by omega
  rw [Nat.isValidChar] at hvalid
  rw [hmod, first, if_neg (by omega), if_neg (by omega)]
  by_cases hzero : v / 4096 = 0
  · refine ⟨0xA0, 0xBF, ?_, by omega, by omega⟩
    rw [if_pos (by omega), hzero]
  · rw [if_neg (by omega)]
    by_cases hsurrogate : v / 4096 = 0xD
    · refine ⟨0x80, 0x9F, ?_, by omega, by omega⟩
      rw [if_pos (by omega), hsurrogate]
    · refine ⟨0x80, 0xBF, ?_, by omega, by omega⟩
      rw [if_neg (by omega), if_pos (by omega), Nat.add_sub_cancel]

theorem decodeFrom_three (hlow : 0x800 ≤ v) (hhigh : v ≤ 0xFFFF) (hvalid : v.isValidChar) :
    decodeFrom none (.ofNat (v / 4096 % 0x10 + 0xE0) :: .ofNat (v / 64 % 0x40 + 0x80) ::
      .ofNat (v % 0x40 + 0x80) :: rest) = .ofNat v :: decodeFrom none rest := by
  obtain ⟨low, high, hfirst, hsecond⟩ := first_three hlow hhigh hvalid
  have hvalue : 64 * (64 * (v / 4096) + v / 64 % 0x40) + v % 0x40 = v := by omega
  rw [decodeFrom_lead (by omega) hfirst, decodeFrom_more (by omega) hsecond.1 hsecond.2,
    decodeFrom_last (by omega) (by omega) (by omega), hvalue]

/-- The first byte of four, with the bounds it gives the second. -/
theorem first_four (hlow : 0x10000 ≤ v) (hvalid : v.isValidChar) :
    ∃ low high, first (v / 262144 % 0x08 + 0xF0) = (none, some ⟨3, low, high, v / 262144⟩) ∧
      low ≤ v / 4096 % 0x40 + 0x80 ∧ v / 4096 % 0x40 + 0x80 ≤ high := by
  rw [Nat.isValidChar] at hvalid
  have hmod : v / 262144 % 0x08 = v / 262144 := by omega
  rw [hmod, first, if_neg (by omega), if_neg (by omega), if_neg (by omega), if_neg (by omega),
    if_neg (by omega)]
  by_cases hzero : v / 262144 = 0
  · refine ⟨0x90, 0xBF, ?_, by omega, by omega⟩
    rw [if_pos (by omega), hzero]
  · rw [if_neg (by omega)]
    by_cases hfour : v / 262144 = 4
    · refine ⟨0x80, 0x8F, ?_, by omega, by omega⟩
      rw [if_pos (by omega), hfour]
    · refine ⟨0x80, 0xBF, ?_, by omega, by omega⟩
      rw [if_neg (by omega), if_pos (by omega), Nat.add_sub_cancel]

theorem decodeFrom_four (hlow : 0x10000 ≤ v) (hvalid : v.isValidChar) :
    decodeFrom none (.ofNat (v / 262144 % 0x08 + 0xF0) :: .ofNat (v / 4096 % 0x40 + 0x80) ::
      .ofNat (v / 64 % 0x40 + 0x80) :: .ofNat (v % 0x40 + 0x80) :: rest) =
      .ofNat v :: decodeFrom none rest := by
  obtain ⟨low, high, hfirst, hsecond⟩ := first_four hlow hvalid
  have hvalue :
      64 * (64 * (64 * (v / 262144) + v / 4096 % 0x40) + v / 64 % 0x40) + v % 0x40 = v := by
    omega
  rw [decodeFrom_lead (by omega) hfirst, decodeFrom_more (by omega) hsecond.1 hsecond.2,
    decodeFrom_more (by omega) (by omega) (by omega),
    decodeFrom_last (by omega) (by omega) (by omega), hvalue]

theorem decodeFrom_encodeChar (c : Char) (rest : List UInt8) :
    decodeFrom none (String.utf8EncodeChar c ++ rest) = c :: decodeFrom none rest := by
  have hvalid : c.val.toNat.isValidChar := c.valid
  have hchar : Char.ofNat c.val.toNat = c := c.ofNat_toNat
  suffices h : decodeFrom none (String.utf8EncodeChar c ++ rest) =
      .ofNat c.val.toNat :: decodeFrom none rest by rw [h, hchar]
  unfold String.utf8EncodeChar
  dsimp only
  split_ifs with hone htwo hthree
  · have hbyte : c.val.toNat < UInt8.size := hone.trans_lt (by decide)
    rw [List.singleton_append, decodeFrom, UInt8.toNat_ofNat_of_lt' hbyte, first,
      if_pos (Nat.lt_succ_of_le hone)]
    rfl
  · exact decodeFrom_two (by omega) htwo
  · exact decodeFrom_three (by omega) hthree hvalid
  · exact decodeFrom_four (by omega) hvalid

end Characters

theorem decodeFrom_flatMap (s : List Char) :
    decodeFrom none (s.flatMap String.utf8EncodeChar) = s := by
  induction s with
  | nil => rfl
  | cons c s ih => rw [List.flatMap_cons, decodeFrom_encodeChar, ih]

theorem toUTF8_eq (s : String) : s.toUTF8.data.toList = s.toList.flatMap String.utf8EncodeChar := by
  rw [String.toUTF8_eq_toByteArray, ← String.utf8Encode_toList, List.utf8Encode,
    List.toList_data_toByteArray]

theorem decodeReplace_toUTF8 (s : String) : decodeReplace s.toUTF8.data.toList = s := by
  rw [decodeReplace, toUTF8_eq, decodeFrom_flatMap, String.ofList_toList]

end RefractContracts.Host.Utf8
