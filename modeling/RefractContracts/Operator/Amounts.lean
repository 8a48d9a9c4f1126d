import RefractContracts.Host.Text
import RefractContracts.Xtask.Schema

/-! Amounts on the operator's command line: decimals of up to seven places, kept as integers of
ten millionths. Parsing accepts exactly the numerals whose value is in range, and reads back
what formatting writes. -/

namespace RefractContracts.Operator

open Host
open Xtask (trim isWhitespace)

/-- Fixed-point scale of the amounts. -/
def scale1e7 : ℤ := 10000000

inductive OperatorError where
  | invalidArgument (msg : String)
  | invalidAmount (msg : String)
  | rawSecretKeyRejected
  | mainnetConfirmationRequired
  | manifestError (msg : String)
  | contractNotDeployed (network contract : String)
  | executionFailed (msg : String)
  deriving DecidableEq, Repr

abbrev Call (α : Type) := Outcome OperatorError α

/-- `str::parse::<i128>`. -/
def parseI128 : List Char → Option ℤ
  | ['-'] => none
  | '-' :: s => (readDigits (2 ^ 127) 0 s).map fun n => -(n : ℤ)
  | s => (parseUnsigned (2 ^ 127 - 1) s).map Int.ofNat

/-- `strip_prefix('+')`, or the text itself. -/
def stripPlus : List Char → List Char
  | '+' :: s => s
  | s => s

/-- The text without the spaces around it and the underscores. -/
def cleaned (raw : String) : List Char := (trim raw).toList.filter (· ≠ '_')

/-- The whole part; an empty one is zero. -/
def readWhole (whole : List Char) (overflows : OperatorError) : Call ℤ :=
  if whole = [] then pure 0 else okOr (parseI128 whole) overflows

/-- Parse a decimal amount into ten millionths. -/
def parseAmount1e7 (raw : String) (requirePositive : Bool) : Call ℤ := do
  let s := cleaned raw
  bail (s = []) (.invalidAmount "amount is empty")
  bail (s.head? = some '-') (.invalidAmount "amount cannot be negative")
  let s := stripPlus s
  let parts := (splitOnce '.' s).getD (s, [])
  let whole := parts.1
  let frac := parts.2
  bail ('.' ∈ frac) (.invalidAmount s!"malformed decimal amount `{raw}`")
  bail (whole = [] ∧ frac = []) (.invalidAmount s!"malformed amount `{raw}`")
  bail (¬ (whole.all Char.isDigit ∧ frac.all Char.isDigit))
    (.invalidAmount s!"amount `{raw}` contains non-digit characters")
  bail (7 < frac.length)
    (.invalidAmount
      s!"amount `{raw}` has {frac.length} fractional digits; maximum is 7 (1e7 scale)")
  let overflows := OperatorError.invalidAmount s!"amount `{raw}` overflows i128"
  let whole ← readWhole whole overflows
  let padded := frac ++ List.replicate (7 - frac.length) '0'
  let frac ← okOr (parseI128 padded) (.invalidAmount s!"invalid fractional part in `{raw}`")
  let scaled ← okOr ((i128Option (whole * scale1e7)).bind fun v => i128Option (v + frac)) overflows
  bail (requirePositive ∧ scaled ≤ 0) (.invalidAmount "amount must be strictly positive")
  pure scaled

/-- An amount with its seven decimals. -/
def formatAmount1e7 (scaled : ℤ) : String :=
  let sign := if scaled < 0 then "-" else ""
  let abs := scaled.natAbs
  let whole := abs / scale1e7.toNat
  let frac := abs % scale1e7.toNat
  sign ++ toString whole ++ "." ++ .ofList ((toString frac).toList.leftpad 7 '0')

/-! ### The numerals -/

/-- The digits of an amount: an optional plus sign, and digits around at most one point, seven
of them after it at the most. -/
structure Numeral (s whole frac : List Char) : Prop where
  shape : ∃ plus point, s = plus ++ whole ++ point ++ frac ∧ (plus = [] ∨ plus = ['+']) ∧
    (point = ['.'] ∨ point = [] ∧ frac = [])
  digits : ∀ c ∈ whole ++ frac, c.isDigit
  nonempty : whole ++ frac ≠ []
  places : frac.length ≤ 7

/-- The value of a numeral. -/
def decimalValue (whole frac : List Char) : ℚ :=
  digitsValue whole + digitsValue frac / 10 ^ frac.length

/-- The value in ten millionths. -/
def scaledValue (whole frac : List Char) : ℕ :=
  digitsValue whole * 10000000 + 10 ^ (7 - frac.length) * digitsValue frac

variable {raw : String} {s whole frac : List Char} {requirePositive : Bool} {n : ℤ}

theorem scaledValue_eq (h : frac.length ≤ 7) :
    (scaledValue whole frac : ℚ) = decimalValue whole frac * 10 ^ 7 := by
  have hpow : (10 : ℚ) ^ 7 = 10 ^ (7 - frac.length) * 10 ^ frac.length := by
    rw [← pow_add, Nat.sub_add_cancel h]
  have hne : (10 : ℚ) ^ frac.length ≠ 0 := by positivity
  calc (scaledValue whole frac : ℚ)
      = digitsValue whole * 10 ^ 7 + 10 ^ (7 - frac.length) * digitsValue frac := by
        rw [scaledValue]
        norm_num
    _ = decimalValue whole frac * 10 ^ 7 := by
        rw [decimalValue, add_mul, div_mul_eq_mul_div, hpow, ← mul_assoc, mul_div_assoc,
          mul_div_cancel_right₀ _ hne, mul_comm (digitsValue frac : ℚ)]

theorem ne_of_isDigit {c d : Char} (hc : c.isDigit) (hd : d.isDigit = false) : c ≠ d := by
  rintro rfl
  rw [hd] at hc
  cases hc

/-- Digits have no sign to strip. -/
theorem stripPlus_of_head {c : Char} (hc : c ≠ '+') (s : List Char) :
    stripPlus (c :: s) = c :: s := by
  unfold stripPlus
  split
  · next heq => exact absurd (List.cons.inj heq).1 hc
  · rfl

/-- The code finds the digits of a numeral. -/
theorem Numeral.split (h : Numeral s whole frac) : s ≠ [] ∧ s.head? ≠ some '-' ∧
    (splitOnce '.' (stripPlus s)).getD (stripPlus s, []) = (whole, frac) := by
  obtain ⟨plus, point, rfl, hplus, hpoint⟩ := h.shape
  have hdot : '.' ∉ whole := fun hmem =>
    ne_of_isDigit (h.digits _ (List.mem_append_left _ hmem)) (by decide) rfl
  have hbody : (splitOnce '.' (whole ++ point ++ frac)).getD (whole ++ point ++ frac, []) =
      (whole, frac) := by
    rcases hpoint with rfl | ⟨rfl, rfl⟩
    · rw [List.append_assoc, List.singleton_append, splitOnce_append hdot, Option.getD_some]
    · rw [List.append_nil, List.append_nil, splitOnce_of_notMem hdot, Option.getD_none]
  rcases hplus with rfl | rfl
  · -- without a sign the text starts with a digit or the point
    have hhead : ∃ c t, whole ++ point ++ frac = c :: t ∧ c ≠ '-' ∧ c ≠ '+' := by
      cases whole with
      | cons c t =>
        have hc := h.digits c (by simp)
        exact ⟨c, _, rfl, ne_of_isDigit hc (by decide), ne_of_isDigit hc (by decide)⟩
      | nil =>
        rcases hpoint with rfl | ⟨rfl, rfl⟩
        · exact ⟨'.', frac, rfl, by decide, by decide⟩
        · exact absurd rfl h.nonempty
    obtain ⟨c, t, heq, hminus, hsign⟩ := hhead
    simp only [List.nil_append]
    rw [heq] at hbody ⊢
    refine ⟨List.cons_ne_nil c t, by simpa using hminus, ?_⟩
    rwa [stripPlus_of_head hsign]
  · refine ⟨by simp, by simp, ?_⟩
    simpa [stripPlus] using hbody

/-- What the code splits into digits is a numeral. -/
theorem numeral_of_split
    (hsplit : (splitOnce '.' (stripPlus s)).getD (stripPlus s, []) = (whole, frac))
    (digits : ∀ c ∈ whole ++ frac, c.isDigit) (nonempty : whole ++ frac ≠ [])
    (places : frac.length ≤ 7) : Numeral s whole frac := by
  refine ⟨?_, digits, nonempty, places⟩
  have hbody : ∃ point, stripPlus s = whole ++ point ++ frac ∧
      (point = ['.'] ∨ point = [] ∧ frac = []) := by
    cases hs : splitOnce '.' (stripPlus s) with
    | none =>
      rw [hs, Option.getD_none] at hsplit
      obtain ⟨rfl, rfl⟩ := Prod.mk.inj hsplit
      exact ⟨[], by simp, .inr ⟨rfl, rfl⟩⟩
    | some parts =>
      rw [hs, Option.getD_some] at hsplit
      obtain rfl := hsplit
      exact ⟨['.'], by simpa using (splitOnce_eq_some.mp hs).2, .inl rfl⟩
  obtain ⟨point, heq, hpoint⟩ := hbody
  have hplus : ∃ plus, s = plus ++ stripPlus s ∧ (plus = [] ∨ plus = ['+']) := by
    unfold stripPlus
    split
    · exact ⟨['+'], rfl, .inr rfl⟩
    · exact ⟨[], rfl, .inl rfl⟩
  obtain ⟨plus, hs, hsign⟩ := hplus
  exact ⟨plus, point, by rw [hs, heq]; simp, hsign, hpoint⟩

theorem parseI128_digits (hs : s ≠ []) (hdigits : ∀ c ∈ s, c.isDigit) :
    parseI128 s = if (digitsValue s : ℤ) ≤ maxI128 then some (digitsValue s : ℤ) else none := by
  have hparse : parseI128 s = (parseUnsigned (2 ^ 127 - 1) s).map Int.ofNat := by
    have hminus : ∀ t, s ≠ '-' :: t := by
      rintro t rfl
      exact absurd (hdigits '-' List.mem_cons_self) (by decide)
    unfold parseI128
    split
    · exact absurd rfl (hminus [])
    · exact absurd rfl (hminus _)
    · rfl
  have hmax : (digitsValue s : ℤ) ≤ maxI128 ↔ digitsValue s ≤ 2 ^ 127 - 1 := by
    rw [maxI128_eq]
    omega
  rw [hparse, parseUnsigned_digits hs hdigits]
  simp only [hmax]
  split <;> rfl

/-- The places after the point, filled up to seven. -/
theorem parseI128_padded (hdigits : ∀ c ∈ frac, c.isDigit) (places : frac.length ≤ 7) :
    parseI128 (frac ++ List.replicate (7 - frac.length) '0') =
      some ((10 ^ (7 - frac.length) * digitsValue frac : ℕ) : ℤ) := by
  have hall : ∀ c ∈ frac ++ List.replicate (7 - frac.length) '0', c.isDigit := by
    intro c hc
    rcases List.mem_append.mp hc with hc | hc
    · exact hdigits c hc
    · rw [List.eq_of_mem_replicate hc]
      decide
  have hlength : (frac ++ List.replicate (7 - frac.length) '0').length = 7 := by
    rw [List.length_append, List.length_replicate, Nat.add_sub_cancel' places]
  have hlt := digitsValue_lt hall
  rw [hlength] at hlt
  rw [parseI128_digits (List.ne_nil_of_length_pos (by omega)) hall, if_pos, digitsValue_padRight]
  rw [maxI128_eq]
  omega

/-- The parts add up to the scaled value, if it is in range. -/
theorem scaled_eq_some {w f : ℤ} (hw : 0 ≤ w) (hf : 0 ≤ f) :
    ((i128Option (w * scale1e7)).bind fun v => i128Option (v + f)) = some n ↔
      w * scale1e7 + f ≤ maxI128 ∧ w * scale1e7 + f = n := by
  have hscaled : 0 ≤ w * scale1e7 := mul_nonneg hw (by decide)
  have hmin := minI128_le_zero
  simp only [Option.bind_eq_some_iff, i128Option_eq_some]
  constructor
  · rintro ⟨_, ⟨-, rfl⟩, ⟨-, hmax⟩, rfl⟩
    exact ⟨hmax, rfl⟩
  · rintro ⟨hmax, rfl⟩
    exact ⟨_, ⟨⟨by omega, by omega⟩, rfl⟩, ⟨by omega, hmax⟩, rfl⟩

/-- The whole part is read as long as the amount is in range. -/
theorem readWhole_eq_ok {e : OperatorError} {w : ℤ} (hdigits : ∀ c ∈ whole, c.isDigit) :
    readWhole whole e = .ok w ↔
      (digitsValue whole : ℤ) ≤ maxI128 ∧ (digitsValue whole : ℤ) = w := by
  unfold readWhole
  split_ifs with hempty
  · subst hempty
    rw [pure_eq_ok]
    exact ⟨fun h => ⟨zero_le_maxI128, h⟩, fun h => h.2⟩
  · rw [okOr_eq_ok, parseI128_digits hempty hdigits]
    split_ifs with hmax <;> simp [hmax]

theorem scaledValue_cast : (scaledValue whole frac : ℤ) =
    digitsValue whole * scale1e7 + ((10 ^ (7 - frac.length) * digitsValue frac : ℕ) : ℤ) := by
  rw [scaledValue, scale1e7]
  push_cast
  rfl

/-- An amount is accepted exactly if it is a numeral whose value is in range, and positive
where that is asked for. -/
theorem parseAmount1e7_eq_ok : parseAmount1e7 raw requirePositive = .ok n ↔
    ∃ whole frac, Numeral (cleaned raw) whole frac ∧ (scaledValue whole frac : ℤ) = n ∧
      n ≤ maxI128 ∧ (requirePositive = true → 0 < n) := by
  simp only [parseAmount1e7, bind_eq_ok, bail_eq_ok, pure_eq_ok, okOr_eq_ok]
  constructor
  · generalize hparts : (splitOnce '.' (stripPlus (cleaned raw))).getD _ = parts
    obtain ⟨whole, frac⟩ := parts
    rintro ⟨-, -, -, -, -, -, -, hempty, -, hall, -, hplaces, w, hw, f, hf, v, hv, -, hpos, rfl⟩
    simp only [not_not, List.all_eq_true] at hall
    have hdigits : ∀ c ∈ whole ++ frac, c.isDigit := List.forall_mem_append.mpr hall
    have hnonempty : whole ++ frac ≠ [] := fun h => hempty (List.append_eq_nil_iff.mp h)
    obtain ⟨-, rfl⟩ := (readWhole_eq_ok hall.1).mp hw
    rw [parseI128_padded hall.2 (not_lt.mp hplaces), Option.some.injEq] at hf
    subst hf
    obtain ⟨hmax, rfl⟩ := (scaled_eq_some (by positivity) (by positivity)).mp hv
    rw [← scaledValue_cast] at hmax hpos ⊢
    refine ⟨whole, frac, numeral_of_split hparts hdigits hnonempty (not_lt.mp hplaces), rfl,
      hmax, fun hrequire => ?_⟩
    exact not_le.mp fun hle => hpos ⟨hrequire, hle⟩
  · rintro ⟨whole, frac, hnumeral, rfl, hmax, hpos⟩
    obtain ⟨hne, hminus, hsplit⟩ := hnumeral.split
    obtain ⟨hwhole, hfrac⟩ := List.forall_mem_append.mp hnumeral.digits
    have hdot : '.' ∉ frac := fun hmem => ne_of_isDigit (hfrac _ hmem) (by decide) rfl
    rw [scaledValue_cast] at hmax hpos ⊢
    have hrange : (digitsValue whole : ℤ) ≤ maxI128 := by
      unfold scale1e7 at hmax
      omega
    rw [hsplit]
    refine ⟨(), hne, (), hminus, (), hdot, (), ?_, (), ?_, (), not_lt.mpr hnumeral.places, _,
      (readWhole_eq_ok hwhole).mpr ⟨hrange, rfl⟩, _, parseI128_padded hfrac hnumeral.places, _,
      (scaled_eq_some (by positivity) (by positivity)).mpr ⟨hmax, rfl⟩, (), ?_, rfl⟩
    · rintro ⟨rfl, rfl⟩
      exact hnumeral.nonempty rfl
    · simpa only [not_not, List.all_eq_true] using ⟨hwhole, hfrac⟩
    · rintro ⟨hrequire, hle⟩
      exact absurd (hpos hrequire) (not_lt.mpr hle)

/-! ### Formatting -/

theorem cleaned_eq (h : ∀ c ∈ raw.toList, isWhitespace c = false ∧ c ≠ '_') :
    cleaned raw = raw.toList := by
  have hleft : raw.toList.dropWhile isWhitespace = raw.toList := by
    refine List.dropWhile_eq_self_iff.mpr fun hl => ?_
    rw [(h _ (List.getElem_mem hl)).1]
    exact Bool.false_ne_true
  have hright : raw.toList.rdropWhile isWhitespace = raw.toList := by
    refine List.rdropWhile_eq_self_iff.mpr fun hl => ?_
    rw [(h _ (List.getLast_mem hl)).1]
    exact Bool.false_ne_true
  rw [cleaned, trim, hleft, hright, String.toList_ofList]
  exact List.filter_eq_self.mpr fun c hc => decide_eq_true (h c hc).2

theorem isWhitespace_of_isDigit {c : Char} (h : c.isDigit) : isWhitespace c = false := by
  obtain ⟨hlow, hhigh⟩ := Char.isDigit_iff_toNat.mp h
  simp only [Char.reduceToNat] at hlow hhigh
  simp only [isWhitespace, decide_eq_false_iff_not]
  omega

/-- The digits of an amount before and after the point. -/
def wholeDigits (n : ℤ) : List Char := Nat.toDigits 10 (n.toNat / 10000000)

def fracDigits (n : ℤ) : List Char := (Nat.toDigits 10 (n.toNat % 10000000)).leftpad 7 '0'

theorem length_fracDigits (n : ℤ) : (fracDigits n).length = 7 := by
  have hle : (Nat.toDigits 10 (n.toNat % 10000000)).length ≤ 7 :=
    (Nat.length_toDigits_le_iff (by decide) (by decide)).mpr (Nat.mod_lt _ (by decide))
  rw [fracDigits, List.length_leftpad, max_eq_left hle]

theorem isDigit_digits (n : ℤ) : ∀ c ∈ wholeDigits n ++ fracDigits n, c.isDigit := by
  intro c hc
  simp only [wholeDigits, fracDigits, List.leftpad, List.mem_append] at hc
  rcases hc with hc | hc | hc
  · exact Nat.isDigit_of_mem_toDigits (by decide) (by decide) hc
  · rw [List.eq_of_mem_replicate hc]
    decide
  · exact Nat.isDigit_of_mem_toDigits (by decide) (by decide) hc

theorem scaledValue_digits (h : 0 ≤ n) : (scaledValue (wholeDigits n) (fracDigits n) : ℤ) = n := by
  rw [scaledValue, length_fracDigits, Nat.sub_self, pow_zero, one_mul, wholeDigits, fracDigits,
    List.leftpad, digitsValue_padLeft, digitsValue_toDigits, digitsValue_toDigits]
  omega

/-- What formatting writes of an amount that is not negative. -/
theorem formatAmount1e7_toList (h : 0 ≤ n) :
    (formatAmount1e7 n).toList = wholeDigits n ++ '.' :: fracDigits n := by
  have habs : n.natAbs = n.toNat := by omega
  have hscale : scale1e7.toNat = 10000000 := rfl
  simp [formatAmount1e7, not_lt.mpr h, habs, hscale, wholeDigits, fracDigits]

theorem numeral_formatAmount1e7 (h : 0 ≤ n) :
    Numeral (cleaned (formatAmount1e7 n)) (wholeDigits n) (fracDigits n) := by
  have hdigits := isDigit_digits n
  have hplain : cleaned (formatAmount1e7 n) = wholeDigits n ++ '.' :: fracDigits n := by
    rw [cleaned_eq, formatAmount1e7_toList h]
    rw [formatAmount1e7_toList h]
    intro c hc
    rw [List.mem_append, List.mem_cons] at hc
    rcases hc with hc | rfl | hc
    · have hc := hdigits c (List.mem_append_left _ hc)
      exact ⟨isWhitespace_of_isDigit hc, ne_of_isDigit hc (by decide)⟩
    · decide
    · have hc := hdigits c (List.mem_append_right _ hc)
      exact ⟨isWhitespace_of_isDigit hc, ne_of_isDigit hc (by decide)⟩
  refine ⟨⟨[], ['.'], by simp [hplain], .inl rfl, .inl rfl⟩, hdigits, ?_, ?_⟩
  · exact List.append_ne_nil_of_left_ne_nil Nat.toDigits_ne_nil _
  · exact (length_fracDigits n).le

/-- Parsing accepts exactly the numerals whose value times ten million is in range, and gives
that value; and it reads back what formatting writes. -/
theorem amounts_exact :
    (∀ (raw : String) (requirePositive : Bool) (n : ℤ),
      parseAmount1e7 raw requirePositive = .ok n ↔
        ∃ whole frac, Numeral (cleaned raw) whole frac ∧
          (n : ℚ) = decimalValue whole frac * 10 ^ 7 ∧ n ≤ maxI128 ∧
            (requirePositive = true → 0 < n)) ∧
      ∀ x : I128, 0 ≤ x.1 → parseAmount1e7 (formatAmount1e7 x.1) false = .ok x.1 := by
  constructor
  · intro raw requirePositive n
    rw [parseAmount1e7_eq_ok]
    refine exists_congr fun whole => exists_congr fun frac => and_congr_right fun hnumeral => ?_
    have hvalue : (scaledValue whole frac : ℤ) = n ↔
        (n : ℚ) = decimalValue whole frac * 10 ^ 7 := by
      rw [← scaledValue_eq hnumeral.places, eq_comm]
      exact_mod_cast Iff.rfl
    rw [hvalue]
  · intro x h
    exact parseAmount1e7_eq_ok.mpr
      ⟨_, _, numeral_formatAmount1e7 h, scaledValue_digits h, x.2.2, nofun⟩

example : parseAmount1e7 " 1_250.25 " true = .ok 12502500000 := by decide +kernel

end RefractContracts.Operator
