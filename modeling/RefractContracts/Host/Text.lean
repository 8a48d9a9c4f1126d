import Mathlib.Data.List.TakeWhile
import Mathlib.Tactic

/-! Text as lists of characters: splitting at a separator, and decimal numerals. A text is
split at the first separator, so the part before it has none and the parts rebuild the text.
Digits are read with a check of the range after each, and a number in range is read from the
digits it is written with, leading zeros or not. -/

namespace RefractContracts.Host

/-! ### Splitting -/

section Split
variable {sep : Char} {s before after : List Char}

/-- The parts before and after the first separator: `split_once`. -/
def splitOnce (sep : Char) (s : List Char) : Option (List Char × List Char) :=
  match s.dropWhile (· ≠ sep) with
  | [] => none
  | _ :: after => some (s.takeWhile (· ≠ sep), after)

theorem splitOnce_append (h : sep ∉ before) (after : List Char) :
    splitOnce sep (before ++ sep :: after) = some (before, after) := by
  have hne : ∀ c ∈ before, (decide (c ≠ sep)) = true := by
    intro c hc
    exact decide_eq_true fun heq => h (heq ▸ hc)
  rw [splitOnce, List.dropWhile_append_of_pos hne, List.takeWhile_append_of_pos hne]
  simp

theorem splitOnce_of_notMem (h : sep ∉ s) : splitOnce sep s = none := by
  have hne : ∀ c ∈ s, (decide (c ≠ sep)) = true := by
    intro c hc
    exact decide_eq_true fun heq => h (heq ▸ hc)
  rw [splitOnce, List.dropWhile_eq_nil_iff.mpr hne]

/-- A text with a separator has a first one. -/
theorem exists_first (h : sep ∈ s) : ∃ before after, sep ∉ before ∧ s = before ++ sep :: after := by
  induction s with
  | nil => cases h
  | cons c s ih =>
    by_cases hc : c = sep
    · exact ⟨[], s, List.not_mem_nil, by rw [hc, List.nil_append]⟩
    · obtain ⟨before, after, hbefore, rfl⟩ := ih (List.mem_of_ne_of_mem (Ne.symm hc) h)
      exact ⟨c :: before, after, List.not_mem_cons_of_ne_of_not_mem (Ne.symm hc) hbefore, rfl⟩

theorem splitOnce_eq_some :
    splitOnce sep s = some (before, after) ↔ sep ∉ before ∧ s = before ++ sep :: after := by
  constructor
  · intro h
    by_cases hs : sep ∈ s
    · obtain ⟨b, a, hb, rfl⟩ := exists_first hs
      rw [splitOnce_append hb] at h
      cases h
      exact ⟨hb, rfl⟩
    · rw [splitOnce_of_notMem hs] at h
      cases h
  · rintro ⟨hbefore, rfl⟩
    exact splitOnce_append hbefore after

/-- A text that is split at a first separator and at some separator: at the same one, or the other
one comes later. -/
theorem append_cons_eq_append_cons {before' after' : List Char} (h : sep ∉ before)
    (heq : before ++ sep :: after = before' ++ sep :: after') :
    before' = before ∧ after' = after ∨
      ∃ between, before' = before ++ sep :: between ∧ after = between ++ sep :: after' := by
  rcases List.append_eq_append_iff.mp heq with ⟨t, hbefore, hafter⟩ | ⟨t, hbefore, hafter⟩
  · cases t with
    | nil =>
      rw [List.append_nil] at hbefore
      exact .inl ⟨hbefore, (List.cons.inj hafter).2.symm⟩
    | cons c t =>
      obtain rfl := (List.cons.inj hafter).1
      exact .inr ⟨t, hbefore, (List.cons.inj hafter).2⟩
  · cases t with
    | nil =>
      rw [List.append_nil] at hbefore
      exact .inl ⟨hbefore.symm, (List.cons.inj hafter).2⟩
    | cons c t =>
      obtain ⟨rfl, -⟩ := List.cons.inj hafter
      exact absurd (hbefore ▸ List.mem_append_right _ List.mem_cons_self) h

end Split

/-! ### Bytes -/

/-- The length of a text in UTF-8: `str::len`. -/
def byteLength (s : List Char) : ℕ := (s.map Char.utf8Size).sum

/-- ASCII text has one byte to a character. -/
theorem byteLength_eq {s : List Char} (h : ∀ c ∈ s, c.toNat < 128) : byteLength s = s.length := by
  rw [byteLength, List.map_congr_left (g := fun _ => 1), List.map_const', List.sum_replicate,
    smul_eq_mul, mul_one]
  intro c hc
  refine Char.utf8Size_eq_one_iff.mpr ?_
  rw [UInt32.le_iff_toNat_le]
  exact Nat.le_of_lt_succ (h c hc)

/-! ### Decimal numerals -/

section Numerals
variable {s : List Char} {acc max n : ℕ}

/-- The value of a list of digits. -/
def digitsValue (s : List Char) : ℕ := Nat.ofDigitChars 10 s 0

/-- Read digits on from `acc`, none of which leads past `max`. -/
def readDigits (max : ℕ) (acc : ℕ) (s : List Char) : Option ℕ :=
  s.foldlM (fun acc c =>
    if c.isDigit ∧ 10 * acc + (c.toNat - '0'.toNat) ≤ max then
      some (10 * acc + (c.toNat - '0'.toNat))
    else none) acc

/-- An unsigned number of at most `max`, with an optional plus sign: `str::parse`. -/
def parseUnsigned (max : ℕ) : List Char → Option ℕ
  | [] => none
  | ['+'] => none
  | '+' :: s => readDigits max 0 s
  | s => readDigits max 0 s

theorem digitsValue_padRight (s : List Char) (n : ℕ) :
    digitsValue (s ++ List.replicate n '0') = 10 ^ n * digitsValue s := by
  rw [digitsValue, Nat.ofDigitChars_append, Nat.ofDigitChars_replicate_zero]
  rfl

theorem digitsValue_padLeft (s : List Char) (n : ℕ) :
    digitsValue (List.replicate n '0' ++ s) = digitsValue s := by
  rw [digitsValue, Nat.ofDigitChars_append, Nat.ofDigitChars_replicate_zero, Nat.mul_zero]
  rfl

@[simp] theorem digitsValue_toDigits (n : ℕ) : digitsValue (Nat.toDigits 10 n) = n :=
  Nat.ofDigitChars_ten_toDigits

theorem digitsValue_lt (h : ∀ c ∈ s, c.isDigit) : digitsValue s < 10 ^ s.length := by
  induction s with
  | nil => decide
  | cons c s ih =>
    obtain ⟨hc, hs⟩ := List.forall_mem_cons.mp h
    have hdigit : c.toNat - '0'.toNat ≤ 9 := by
      have := (Char.isDigit_iff_toNat.mp hc).2
      simp only [Char.reduceToNat] at this ⊢
      omega
    have hvalue : digitsValue (c :: s) = 10 ^ s.length * (c.toNat - '0'.toNat) + digitsValue s := by
      rw [digitsValue, Nat.ofDigitChars_cons, Nat.ofDigitChars_eq_ofDigitChars_zero, Nat.mul_zero,
        Nat.zero_add]
      rfl
    have hmul := Nat.mul_le_mul_left (10 ^ s.length) hdigit
    have hrest := ih hs
    rw [hvalue, List.length_cons, pow_succ]
    omega

theorem le_ofDigitChars (s : List Char) (acc : ℕ) : acc ≤ Nat.ofDigitChars 10 s acc := by
  rw [Nat.ofDigitChars_eq_ofDigitChars_zero]
  have hpow : 0 < 10 ^ s.length := Nat.pow_pos (by decide)
  exact (Nat.le_mul_of_pos_left acc hpow).trans (Nat.le_add_right _ _)

/-- As the value only grows, it is in range after every digit if it is in the end. -/
theorem readDigits_eq_some : readDigits max acc s = some n ↔
    (∀ c ∈ s, c.isDigit) ∧ Nat.ofDigitChars 10 s acc = n ∧ (s = [] ∨ n ≤ max) := by
  induction s generalizing acc with
  | nil => simp [readDigits]
  | cons c s ih =>
    have hcons : readDigits max acc (c :: s) =
        (if c.isDigit ∧ 10 * acc + (c.toNat - '0'.toNat) ≤ max then
          some (10 * acc + (c.toNat - '0'.toNat)) else none).bind fun acc => readDigits max acc s :=
      List.foldlM_cons
    rw [hcons, Nat.ofDigitChars_cons, List.forall_mem_cons]
    have hle := le_ofDigitChars s (10 * acc + (c.toNat - '0'.toNat))
    split_ifs with hc
    · rw [Option.bind_some, ih]
      constructor
      · rintro ⟨hs, rfl, hmax⟩
        refine ⟨⟨hc.1, hs⟩, rfl, .inr ?_⟩
        rcases hmax with rfl | hmax
        · exact hc.2
        · exact hmax
      · rintro ⟨⟨-, hs⟩, rfl, hmax⟩
        exact ⟨hs, rfl, .inr (hmax.resolve_left (by simp))⟩
    · refine ⟨nofun, ?_⟩
      rintro ⟨⟨hdigit, -⟩, rfl, hmax⟩
      have hfit := hmax.resolve_left (by simp)
      exact absurd ⟨hdigit, hle.trans hfit⟩ hc

/-- Digits alone are read to their value, if it is in range. -/
theorem parseUnsigned_digits (hs : s ≠ []) (hdigits : ∀ c ∈ s, c.isDigit) :
    parseUnsigned max s = if digitsValue s ≤ max then some (digitsValue s) else none := by
  have hread : parseUnsigned max s = readDigits max 0 s := by
    have hplus : ∀ t, s ≠ '+' :: t := by
      rintro t rfl
      exact absurd (hdigits '+' List.mem_cons_self) (by decide)
    unfold parseUnsigned
    split
    · exact absurd rfl hs
    · exact absurd rfl (hplus [])
    · exact absurd rfl (hplus _)
    · rfl
  rw [hread]
  split_ifs with hmax
  · exact readDigits_eq_some.mpr ⟨hdigits, rfl, .inr hmax⟩
  · refine Option.eq_none_iff_forall_ne_some.mpr fun n hn => ?_
    obtain ⟨-, rfl, hle⟩ := readDigits_eq_some.mp hn
    exact hmax (hle.resolve_left hs)

end Numerals

/-- An integer is written with digits and a minus. -/
theorem notMem_repr_int {c : Char} (hdigit : ¬ c.isDigit) (hminus : c ≠ '-') (n : ℤ) :
    c ∉ n.repr.toList := by
  have hnat : ∀ k : ℕ, c ∉ k.repr.toList := by
    intro k hmem
    rw [Nat.toList_repr] at hmem
    exact hdigit (Nat.isDigit_of_mem_toDigits (by decide) (by decide) hmem)
  rw [Int.repr_eq_if]
  split_ifs
  · exact hnat _
  · rw [String.toList_append, List.mem_append, not_or]
    exact ⟨fun hmem => hminus (List.mem_singleton.mp hmem), hnat _⟩

end RefractContracts.Host
