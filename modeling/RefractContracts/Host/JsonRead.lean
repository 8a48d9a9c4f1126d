import RefractContracts.Host.JsonText

/-! Reading JSON. A value starts with a character that gives its kind, and ends where no number goes
on; so what is written is read back, whatever the layout. -/

namespace RefractContracts.Host.JsonText

/-! ### The reader -/

def hexDigit? (c : Char) : Option ℕ :=
  if c.isDigit then some (c.toNat - 48)
  else if 97 ≤ c.toNat ∧ c.toNat ≤ 102 then some (c.toNat - 87)
  else if 65 ≤ c.toNat ∧ c.toNat ≤ 70 then some (c.toNat - 55)
  else none

def readHex4 : List Char → Option (ℕ × List Char)
  | a :: b :: c :: d :: s => do
    let a ← hexDigit? a
    let b ← hexDigit? b
    let c ← hexDigit? c
    let d ← hexDigit? d
    some (4096 * a + 256 * b + 16 * c + d, s)
  | _ => none

/-- What the letters after a backslash stand for. -/
def escapes : List (Char × ℕ) :=
  [('"', 34), ('\\', 92), ('/', 47), ('b', 8), ('f', 12), ('n', 10), ('r', 13), ('t', 9)]

/-- The character at the front of a string, or the code unit that is escaped there. -/
def readUnit : List Char → Option (ℕ × List Char)
  | [] => none
  | c :: s =>
    if c.toNat < 32 then none
    else if c ≠ '\\' then some (c.toNat, s)
    else match s with
      | [] => none
      | d :: s => if d = 'u' then readHex4 s else (escapes.lookup d).map fun n => (n, s)

/-- The code units up to the quotation mark. -/
def readUnits : ℕ → List Char → Option (List ℕ × List Char)
  | 0, _ => none
  | _ + 1, [] => none
  | n + 1, c :: s =>
    if c = '"' then some ([], s)
    else do
      let (u, s) ← readUnit (c :: s)
      let (us, s) ← readUnits n s
      some (u :: us, s)

/-- The characters of code units; half a pair of surrogates is no character, and is replaced. -/
def joinUnits : List ℕ → List Char
  | [] => []
  | [u] => [Char.ofNat u]
  | u :: v :: us =>
    if (0xD800 ≤ u ∧ u < 0xDC00) ∧ 0xDC00 ≤ v ∧ v < 0xE000 then
      Char.ofNat (0x10000 + 1024 * (u - 0xD800) + (v - 0xDC00)) :: joinUnits us
    else Char.ofNat u :: joinUnits (v :: us)

/-- What is left of a string after its first quotation mark. -/
def readString (s : List Char) : Option (String × List Char) :=
  (readUnits s.length s).map fun r => (.ofList (joinUnits r.1), r.2)

/-- A number would go on with this. -/
def goesOn (c : Char) : Bool := c.isDigit ∨ c = '.' ∨ c = 'e' ∨ c = 'E'

def readNat (s : List Char) : Option (ℕ × List Char) :=
  let digits := s.takeWhile Char.isDigit
  let rest := s.dropWhile Char.isDigit
  if digits = [] ∨ (digits.head? = some '0' ∧ digits ≠ ['0']) ∨ rest.head?.any goesOn then none
  else some (digitsValue digits, rest)

/-- An integer; a number with a fraction or an exponent is not read. -/
def readInt : List Char → Option (ℤ × List Char)
  | [] => none
  | c :: s =>
    if c = '-' then (readNat s).map fun r => (-(r.1 : ℤ), r.2)
    else (readNat (c :: s)).map fun r => ((r.1 : ℤ), r.2)

def skip (s : List Char) : List Char := s.dropWhile isBlank

/-- What follows a character. -/
def expect (c : Char) : List Char → Option (List Char)
  | [] => none
  | d :: s => if d = c then some s else none

inductive Kind where
  | null
  | true
  | false
  | int
  | str
  | arr
  | obj

/-- The kind of value that starts with a character, if there is one. -/
def kindOf (c : Char) : Option Kind :=
  if c.isDigit ∨ c = '-' then some .int
  else if c = 'n' then some .null
  else if c = 't' then some .true
  else if c = 'f' then some .false
  else if c = '"' then some .str
  else if c = '[' then some .arr
  else if c = '{' then some .obj
  else none

section List
variable {α : Type} (last : Char) (item : List Char → Option (α × List Char))

/-- Items with commas between them, up to the bracket. -/
def readItems : ℕ → List Char → Option (List α × List Char)
  | 0, _ => none
  | n + 1, s => do
    let (a, s) ← item s
    match skip s with
    | [] => none
    | c :: s =>
      if c = last then some ([a], s)
      else if c = ',' then do
        let (as, s) ← readItems n (skip s)
        some (a :: as, s)
      else none

/-- What is left of a list after its first bracket. -/
def readList (s : List Char) : Option (List α × List Char) :=
  match skip s with
  | [] => none
  | c :: s => if c = last then some ([], s) else readItems last item (s.length + 1) (c :: s)

end List

def readWord (word : String) (v : Value) (s : List Char) : Option (Value × List Char) :=
  if word.toList.isPrefixOf s then some (v, s.drop word.toList.length) else none

def readMember (value : List Char → Option (Value × List Char)) (s : List Char) :
    Option ((String × Value) × List Char) := do
  let s ← expect '"' s
  let (k, s) ← readString s
  let s ← expect ':' (skip s)
  let (v, s) ← value (skip s)
  some ((k, v), s)

/-- A value within which as many brackets may be open. -/
def read : ℕ → List Char → Option (Value × List Char)
  | 0, _ => none
  | _ + 1, [] => none
  | n + 1, c :: s =>
    match kindOf c with
    | none => none
    | some .null => readWord "null" .null (c :: s)
    | some .true => readWord "true" (.bool true) (c :: s)
    | some .false => readWord "false" (.bool false) (c :: s)
    | some .int => (readInt (c :: s)).map fun r => (.int r.1, r.2)
    | some .str => (readString s).map fun r => (.str r.1, r.2)
    | some .arr => (readList ']' (read n) s).map fun r => (.arr r.1, r.2)
    | some .obj => (readList '}' (readMember (read n)) s).map fun r => (.obj r.1, r.2)

/-- `json.loads`. More brackets than there are characters are not open. -/
def loads (s : List Char) : Option Value := do
  let (v, rest) ← read s.length (skip s)
  if skip rest = [] then some v else none

/-! ### Strings are read back -/

section Strings

/-- The UTF-16 code units of a character. -/
def codeUnits (c : Char) : List ℕ :=
  if c.toNat < 0x10000 then [c.toNat]
  else [0xD800 + (c.toNat - 0x10000) / 1024, 0xDC00 + (c.toNat - 0x10000) % 1024]

theorem hexDigit?_digitChar {n : ℕ} (hn : n < 16) : hexDigit? (Nat.digitChar n) = some n := by
  have h : ∀ m < 16, hexDigit? (Nat.digitChar m) = some m := by decide
  exact h n hn

theorem readUnit_unicodeEscape {n : ℕ} (hn : n < 0x10000) (s : List Char) :
    readUnit (unicodeEscape n ++ s) = some (n, s) := by
  have hread : readUnit (unicodeEscape n ++ s) = readHex4 (hex4 n ++ s) := rfl
  rw [hread, hex4, List.cons_append, List.cons_append, List.cons_append, List.cons_append,
    List.nil_append, readHex4, hexDigit?_digitChar (by omega), hexDigit?_digitChar (by omega),
    hexDigit?_digitChar (by omega), hexDigit?_digitChar (by omega)]
  have hvalue : 4096 * (n / 4096) + 256 * (n / 256 % 16) + 16 * (n / 16 % 16) + n % 16 = n := by
    omega
  simp only [Option.bind_eq_bind, Option.bind_some, hvalue]

theorem readUnit_of_ne {c : Char} (hprint : 32 ≤ c.toNat) (hc : c ≠ '\\') (s : List Char) :
    readUnit (c :: s) = some (c.toNat, s) := by
  simp only [readUnit]
  rw [if_neg (by omega), if_pos hc]

theorem joinUnits_single {u : ℕ} (hu : u < 0xD800 ∨ 0xDC00 ≤ u) (us : List ℕ) :
    joinUnits (u :: us) = Char.ofNat u :: joinUnits us := by
  cases us with
  | nil => rfl
  | cons v us => rw [joinUnits, if_neg (by omega)]

theorem joinUnits_codeUnits (c : Char) (us : List ℕ) :
    joinUnits (codeUnits c ++ us) = c :: joinUnits us := by
  have hvalid : c.toNat < 0xD800 ∨ 0xDFFF < c.toNat ∧ c.toNat < 0x110000 := c.valid
  rw [codeUnits]
  split_ifs with h
  · rw [List.cons_append, List.nil_append, joinUnits_single (by omega), Char.ofNat_toNat]
  · have hvalue : 0x10000 + 1024 * (0xD800 + (c.toNat - 0x10000) / 1024 - 0xD800) +
        (0xDC00 + (c.toNat - 0x10000) % 1024 - 0xDC00) = c.toNat := by omega
    rw [List.cons_append, List.cons_append, List.nil_append, joinUnits, if_pos (by omega), hvalue,
      Char.ofNat_toNat]

theorem joinUnits_flatMap (cs : List Char) : joinUnits (cs.flatMap codeUnits) = cs := by
  induction cs with
  | nil => rfl
  | cons c cs ih => rw [List.flatMap_cons, joinUnits_codeUnits, ih]

theorem readUnits_cons {n u : ℕ} {s s' : List Char} (h : readUnit s = some (u, s'))
    (hs : ∀ c ∈ s.head?, c ≠ '"') :
    readUnits (n + 1) s = (readUnits n s').map fun r => (u :: r.1, r.2) := by
  cases s with
  | nil => cases h
  | cons c s =>
    rw [readUnits, if_neg (hs c rfl), h, Option.bind_eq_bind, Option.bind_some]
    cases hrest : readUnits n s' <;> simp [hrest]

/-- A character is read as its code units. -/
theorem readUnits_escapeChar (n : ℕ) (c : Char) (s : List Char) :
    readUnits (n + (codeUnits c).length) (escapeChar c ++ s) =
      (readUnits n s).map fun r => (codeUnits c ++ r.1, r.2) := by
  have hvalid : c.toNat < 0xD800 ∨ 0xDFFF < c.toNat ∧ c.toNat < 0x110000 := c.valid
  have hone {t : List Char} (hc : c.toNat < 0x10000) (ht : readUnit (t ++ s) = some (c.toNat, s))
      (hquote : ∀ d ∈ (t ++ s).head?, d ≠ '"') : readUnits (n + (codeUnits c).length) (t ++ s) =
        (readUnits n s).map fun r => (codeUnits c ++ r.1, r.2) := by
    rw [codeUnits, if_pos hc]
    exact readUnits_cons ht hquote
  have hescape {u : ℕ} {s : List Char} : ∀ d ∈ (unicodeEscape u ++ s).head?, d ≠ '"' := by
    rintro _ ⟨⟩
    decide
  unfold escapeChar
  split_ifs with h₁ h₂ h₃ h₄ h₅ h₆ h₇ h₈ h₉
  · obtain rfl := h₁
    exact hone (by decide) rfl (by rintro _ ⟨⟩; decide)
  · obtain rfl := h₂
    exact hone (by decide) rfl (by rintro _ ⟨⟩; decide)
  · obtain rfl := h₃
    exact hone (by decide) rfl (by rintro _ ⟨⟩; decide)
  · obtain rfl := h₄
    exact hone (by decide) rfl (by rintro _ ⟨⟩; decide)
  · obtain rfl := h₅
    exact hone (by decide) rfl (by rintro _ ⟨⟩; decide)
  · exact hone (by omega) (by rw [h₆]; rfl) (by rintro _ ⟨⟩; decide)
  · exact hone (by omega) (by rw [h₇]; rfl) (by rintro _ ⟨⟩; decide)
  · refine hone (by omega) ?_ (by rintro _ ⟨⟩; exact h₁)
    exact readUnit_of_ne h₈.1 h₂ s
  · exact hone h₉ (readUnit_unicodeEscape h₉ s) hescape
  · rw [codeUnits, if_neg h₉, List.append_assoc]
    have hhigh := readUnit_unicodeEscape (n := 0xD800 + (c.toNat - 0x10000) / 1024) (by omega)
      (unicodeEscape (0xDC00 + (c.toNat - 0x10000) % 1024) ++ s)
    have hlow := readUnit_unicodeEscape (n := 0xDC00 + (c.toNat - 0x10000) % 1024) (by omega) s
    rw [List.length_cons, List.length_singleton, ← Nat.add_assoc, readUnits_cons hhigh hescape,
      readUnits_cons hlow hescape, Option.map_map]
    rfl

theorem length_codeUnits_le (c : Char) : (codeUnits c).length ≤ (escapeChar c).length := by
  have hpos : 0 < (escapeChar c).length := by
    unfold escapeChar
    split_ifs <;> simp [unicodeEscape]
  unfold codeUnits
  split_ifs with h
  · exact hpos
  · unfold escapeChar
    split_ifs <;> first | omega | simp [unicodeEscape, hex4]

theorem readUnits_escape {n : ℕ} (cs : List Char) (s : List Char)
    (hn : (cs.flatMap escapeChar).length < n) :
    readUnits n (cs.flatMap escapeChar ++ '"' :: s) = some (cs.flatMap codeUnits, s) := by
  induction cs generalizing n with
  | nil =>
    cases n with
    | zero => exact absurd hn (Nat.not_lt_zero _)
    | succ n => rfl
  | cons c cs ih =>
    rw [List.flatMap_cons, List.length_append] at hn
    have hle := length_codeUnits_le c
    obtain ⟨m, rfl⟩ := Nat.exists_eq_add_of_le' (by omega : (codeUnits c).length ≤ n)
    rw [List.flatMap_cons, List.append_assoc, readUnits_escapeChar, ih (by omega)]
    rfl

/-- A string is read back, whatever follows. -/
theorem readString_quote (k : String) (s : List Char) :
    readString (k.toList.flatMap escapeChar ++ '"' :: s) = some (k, s) := by
  rw [readString, readUnits_escape _ _ (by simp), Option.map_some, joinUnits_flatMap,
    String.ofList_toList]

end Strings

/-! ### Values are read back -/

/-- No number goes on here. -/
def Closed (s : List Char) : Prop := ∀ c ∈ s.head?, goesOn c = false

section Numbers
variable {n : ℕ} {s : List Char}

theorem head?_toDigits_ne_zero (hn : 0 < n) : (Nat.toDigits 10 n).head? ≠ some '0' := by
  induction n using Nat.strong_induction_on with
  | _ n ih =>
    by_cases h : n < 10
    · have hdigit : ∀ m < 10, 0 < m → some (Nat.digitChar m) ≠ some '0' := by decide
      rw [Nat.toDigits_of_lt_base h]
      exact hdigit n h hn
    · have hhigh := ih (n / 10) (by omega) (by omega)
      rw [Nat.toDigits_of_base_le (by decide) (by omega), List.head?_append]
      cases hhead : (Nat.toDigits 10 (n / 10)).head? with
      | none => exact absurd (List.head?_eq_none_iff.mp hhead) Nat.toDigits_ne_nil
      | some c => exact fun hc => hhigh (hhead.trans hc)

theorem readNat_toDigits (hs : Closed s) : readNat (Nat.toDigits 10 n ++ s) = some (n, s) := by
  have hall : ∀ c ∈ Nat.toDigits 10 n, c.isDigit = true := fun c hc =>
    Nat.isDigit_of_mem_toDigits (by decide) (by decide) hc
  have hzero : (Nat.toDigits 10 n).head? = some '0' → Nat.toDigits 10 n = ['0'] := by
    intro h
    obtain rfl := Nat.eq_zero_of_not_pos fun hn => head?_toDigits_ne_zero hn h
    rfl
  have hrest : s.takeWhile Char.isDigit = [] ∧ s.dropWhile Char.isDigit = s ∧
      s.head?.any goesOn = false := by
    cases s with
    | nil => exact ⟨rfl, rfl, rfl⟩
    | cons c s =>
      have hc := hs c rfl
      have hdigit : ¬ c.isDigit = true := by
        simp only [goesOn, Bool.decide_or, Bool.or_eq_false_iff, decide_eq_false_iff_not] at hc
        exact hc.1
      exact ⟨List.takeWhile_cons_of_neg hdigit, List.dropWhile_cons_of_neg hdigit, hc⟩
  rw [readNat, List.takeWhile_append_of_pos hall, List.dropWhile_append_of_pos hall, hrest.1,
    hrest.2.1, hrest.2.2, List.append_nil, if_neg, digitsValue_toDigits]
  rintro (h | ⟨h, hne⟩ | h)
  · exact Nat.toDigits_ne_nil h
  · exact hne (hzero h)
  · cases h

/-- A number is read back where none goes on. -/
theorem readInt_repr (n : ℤ) (hs : Closed s) : readInt (n.repr.toList ++ s) = some (n, s) := by
  cases n with
  | ofNat k =>
    have hrepr : (Int.ofNat k).repr.toList = Nat.toDigits 10 k := Nat.toList_repr
    have hread : readInt (Nat.toDigits 10 k ++ s) =
        (readNat (Nat.toDigits 10 k ++ s)).map fun r => ((r.1 : ℤ), r.2) := by
      cases hdigits : Nat.toDigits 10 k with
      | nil => exact absurd hdigits Nat.toDigits_ne_nil
      | cons c t =>
        have hc : c.isDigit = true :=
          Nat.isDigit_of_mem_toDigits (by decide) (by decide) (hdigits ▸ List.mem_cons_self)
        rw [List.cons_append, readInt, if_neg]
        rintro rfl
        cases hc
    rw [hrepr, hread, readNat_toDigits hs]
    rfl
  | negSucc k =>
    have hrepr : (Int.negSucc k).repr.toList = '-' :: Nat.toDigits 10 (k + 1) := by
      rw [← Nat.toList_repr]
      exact String.toList_append
    rw [hrepr, List.cons_append, readInt, if_pos rfl, readNat_toDigits hs]
    rfl

end Numbers

section Blanks
variable {c : Char} {s blanks : List Char}

theorem skip_cons (hc : isBlank c = false) : skip (c :: s) = c :: s :=
  List.dropWhile_cons_of_neg (by rw [hc]; decide)

theorem skip_blanks (hblanks : ∀ c ∈ blanks, isBlank c = true) (s : List Char) :
    skip (blanks ++ s) = skip s := List.dropWhile_append_of_pos hblanks

theorem goesOn_of_blank (hc : isBlank c = true) : goesOn c = false := by
  simp only [isBlank, decide_eq_true_eq] at hc
  rcases hc with rfl | rfl | rfl | rfl <;> rfl

theorem closed_blanks (hblanks : ∀ c ∈ blanks, isBlank c = true) (hc : goesOn c = false) :
    Closed (blanks ++ c :: s) := by
  cases blanks with
  | nil =>
    rintro _ ⟨⟩
    exact hc
  | cons b blanks =>
    rintro _ ⟨⟩
    exact goesOn_of_blank (hblanks b List.mem_cons_self)

/-- What starts a value is no blank and ends no list. -/
theorem of_kindOf {kind : Kind} (h : kindOf c = some kind) :
    isBlank c = false ∧ c ≠ ']' ∧ c ≠ '}' := by
  refine ⟨?_, ?_, ?_⟩
  · by_contra hblank
    simp only [isBlank, Bool.not_eq_false, decide_eq_true_eq] at hblank
    rcases hblank with rfl | rfl | rfl | rfl <;> cases h
  · rintro rfl
    cases h
  · rintro rfl
    cases h

end Blanks

/-- The text is that of a value, and is read as this one where no number goes on. -/
structure Reads {α : Type} (item : List Char → Option (α × List Char)) (t : List Char) (a : α) :
    Prop where
  starts : ∃ c s kind, t = c :: s ∧ kindOf c = some kind
  read : ∀ s, Closed s → item (t ++ s) = some (a, s)

theorem Reads.skip {α : Type} {item : List Char → Option (α × List Char)} {t : List Char} {a : α}
    (h : Reads item t a) (s : List Char) : skip (t ++ s) = t ++ s := by
  obtain ⟨c, t, kind, rfl, hkind⟩ := h.starts
  exact skip_cons (of_kindOf hkind).1

section Lists
variable {α : Type} {item : List Char → Option (α × List Char)} {l : Layout} {last : Char}
  {depth n : ℕ} {t : List Char} {ts : List (List Char)} {a : α} {as : List α}

theorem closed_rest (hlast : last = ']' ∨ last = '}') (ts : List (List Char)) (s : List Char) :
    Closed (l.rest last depth ts ++ s) := by
  cases ts with
  | nil =>
    rw [Layout.rest, List.append_assoc]
    exact closed_blanks (l.line_blank depth) (by rcases hlast with rfl | rfl <;> rfl)
  | cons t ts =>
    rintro _ ⟨⟩
    rfl

/-- What follows the first item is read to the bracket. -/
theorem readItems_rest (hlast : last = ']' ∨ last = '}') (ht : Reads item t a)
    (h : List.Forall₂ (Reads item) ts as) (hn : ts.length < n) (s : List Char) :
    readItems last item n (t ++ (l.rest last depth ts ++ s)) = some (a :: as, s) := by
  induction h generalizing t a n with
  | nil =>
    cases n with
    | zero => exact absurd hn (Nat.not_lt_zero _)
    | succ n =>
      have hskip : skip (l.rest last depth [] ++ s) = last :: s := by
        rw [Layout.rest, List.append_assoc, skip_blanks (l.line_blank depth)]
        exact skip_cons (by rcases hlast with rfl | rfl <;> rfl)
      rw [readItems, ht.read _ (closed_rest hlast _ _)]
      simp only [Option.bind_eq_bind, Option.bind_some, hskip, if_pos]
  | @cons t' a' ts as ht' _ ih =>
    cases n with
    | zero => exact absurd hn (Nat.not_lt_zero _)
    | succ n =>
      have hskip : skip (l.rest last depth (t' :: ts) ++ s) =
          ',' :: (l.line (depth + 1) ++ (t' ++ (l.rest last depth ts ++ s))) := by
        rw [Layout.rest, List.cons_append, List.append_assoc, List.append_assoc]
        exact skip_cons rfl
      have hnext : skip (l.line (depth + 1) ++ (t' ++ (l.rest last depth ts ++ s))) =
          t' ++ (l.rest last depth ts ++ s) := by
        rw [skip_blanks (l.line_blank _), ht'.skip]
      have hcomma : ¬ ',' = last := by rcases hlast with rfl | rfl <;> decide
      rw [readItems, ht.read _ (closed_rest hlast _ _)]
      simp only [Option.bind_eq_bind, Option.bind_some, hskip, if_neg hcomma, if_true, hnext,
        ih ht' (Nat.lt_of_succ_lt_succ hn)]

theorem length_le_rest (ts : List (List Char)) : ts.length ≤ (l.rest last depth ts).length := by
  induction ts with
  | nil => exact Nat.zero_le _
  | cons t ts ih =>
    rw [Layout.rest, List.length_cons, List.length_cons, List.length_append, List.length_append]
    omega

/-- A list of texts that are read is read. -/
theorem readList_bracketed {first : Char} (hlast : last = ']' ∨ last = '}')
    (h : List.Forall₂ (Reads item) ts as) :
    ∃ inner, l.bracketed first last depth ts = first :: inner ∧
      ∀ s, readList last item (inner ++ s) = some (as, s) := by
  cases h with
  | nil =>
    refine ⟨[last], rfl, fun s => ?_⟩
    have hskip : skip (last :: s) = last :: s := skip_cons (by rcases hlast with rfl | rfl <;> rfl)
    rw [readList, List.cons_append, List.nil_append, hskip]
    exact if_pos rfl
  | @cons t a ts as ht hts =>
    refine ⟨_, rfl, fun s => ?_⟩
    obtain ⟨c, t', kind, rfl, hkind⟩ := ht.starts
    have hskip : skip (l.line (depth + 1) ++ (c :: t' ++ l.rest last depth ts) ++ s) =
        c :: (t' ++ (l.rest last depth ts ++ s)) := by
      rw [List.append_assoc, skip_blanks (l.line_blank _), List.append_assoc]
      exact skip_cons (of_kindOf hkind).1
    have hne : ¬ c = last := by
      rcases hlast with rfl | rfl
      · exact (of_kindOf hkind).2.1
      · exact (of_kindOf hkind).2.2
    have hlength : ts.length ≤ (l.rest last depth ts).length := length_le_rest ts
    rw [readList, hskip]
    refine (if_neg hne).trans (readItems_rest hlast ht hts ?_ s)
    rw [List.length_append, List.length_append]
    omega

end Lists

section Values
variable {l : Layout} {depth n : ℕ}

theorem readString_quote_rest (k : String) (s : List Char) :
    ∃ t, quote k ++ s = '"' :: t ∧ readString t = some (k, s) := by
  refine ⟨k.toList.flatMap escapeChar ++ '"' :: s, ?_, readString_quote k s⟩
  rw [quote, List.cons_append, List.append_assoc]
  rfl

theorem reads_member {k : String} {t : List Char} {v : Value} (h : Reads (read n) t v) :
    Reads (readMember (read n)) (l.member k t) (k, v) := by
  refine ⟨⟨'"', _, .str, rfl, rfl⟩, fun s hs => ?_⟩
  obtain ⟨q, hq, hread⟩ := readString_quote_rest k (':' :: (l.colon ++ (t ++ s)))
  have htext : l.member k t ++ s = '"' :: q := by
    rw [← hq, Layout.member, List.append_assoc, List.cons_append, List.append_assoc]
  have hcolon : skip (':' :: (l.colon ++ (t ++ s))) = ':' :: (l.colon ++ (t ++ s)) := skip_cons rfl
  have hvalue : skip (l.colon ++ (t ++ s)) = t ++ s := by rw [skip_blanks l.colon_blank, h.skip]
  rw [htext, readMember]
  simp only [expect, if_true, Option.bind_eq_bind, Option.bind_some, hread, hcolon, hvalue,
    h.read s hs]

theorem length_lt_bracketed {t : List Char} {ts : List (List Char)} {first last : Char}
    (ht : t ∈ ts) : t.length < (l.bracketed first last depth ts).length := by
  have hrest : ∀ ts : List (List Char), ∀ t ∈ ts, t.length ≤ (l.rest last depth ts).length := by
    intro ts
    induction ts with
    | nil => exact fun t ht => absurd ht List.not_mem_nil
    | cons t ts ih =>
      rw [List.forall_mem_cons, Layout.rest, List.length_cons, List.length_append,
        List.length_append]
      exact ⟨by omega, fun u hu => (ih u hu).trans (by omega)⟩
  cases ts with
  | nil => cases ht
  | cons u ts =>
    rw [Layout.bracketed, List.length_cons, List.length_append, List.length_append]
    rcases List.mem_cons.mp ht with rfl | ht
    · omega
    · have hle := hrest ts t ht
      omega

theorem repr_starts (k : ℤ) :
    ∃ c t, k.repr.toList = c :: t ∧ kindOf c = some .int := by
  have hnat : ∀ n : ℕ, ∃ c t, Nat.toDigits 10 n = c :: t ∧ kindOf c = some .int := by
    intro n
    obtain ⟨c, t, h⟩ := List.exists_cons_of_ne_nil (Nat.toDigits_ne_nil (n := n) (b := 10))
    have hc : c.isDigit = true :=
      Nat.isDigit_of_mem_toDigits (by decide) (by decide) (h ▸ List.mem_cons_self)
    exact ⟨c, t, h, if_pos (.inl hc)⟩
  cases k with
  | ofNat n =>
    obtain ⟨c, t, h, hc⟩ := hnat n
    exact ⟨c, t, Nat.toList_repr.trans h, hc⟩
  | negSucc n => exact ⟨'-', _, String.toList_append, rfl⟩

theorem reads_bracketed {α : Type} {item : List Char → Option (α × List Char)}
    {ts : List (List Char)} {as : List α} {first last : Char} {kind : Kind} (wrap : List α → Value)
    (hlast : last = ']' ∨ last = '}') (hkind : kindOf first = some kind)
    (hread : ∀ s, read (n + 1) (first :: s) = (readList last item s).map fun r => (wrap r.1, r.2))
    (h : List.Forall₂ (Reads item) ts as) :
    Reads (read (n + 1)) (l.bracketed first last depth ts) (wrap as) := by
  obtain ⟨inner, htext, hinner⟩ : ∃ inner, l.bracketed first last depth ts = first :: inner ∧
      ∀ s, readList last item (inner ++ s) = some (as, s) := readList_bracketed hlast h
  refine ⟨⟨first, inner, kind, htext, hkind⟩, fun s _ => ?_⟩
  rw [htext, List.cons_append, hread, hinner, Option.map_some]

theorem length_pos_of_bracketed {ts : List (List Char)} {first last : Char}
    (h : (l.bracketed first last depth ts).length ≤ n) : 1 ≤ n := by
  refine le_trans ?_ h
  cases ts <;> exact Nat.succ_le_of_lt (Nat.succ_pos _)

mutual

/-- What is written is read back, if there may be as many brackets open as it has characters. -/
theorem reads_dumps : ∀ (v : Value) {depth n : ℕ}, (l.dumps depth v).length ≤ n →
    Reads (read n) (l.dumps depth v) v
  | .null, depth, n, hn => by
    obtain ⟨m, rfl⟩ := Nat.exists_eq_add_of_le' (le_trans (by decide : 1 ≤ 4) hn)
    exact ⟨⟨'n', _, .null, rfl, rfl⟩, fun _ _ => rfl⟩
  | .bool true, depth, n, hn => by
    obtain ⟨m, rfl⟩ := Nat.exists_eq_add_of_le' (le_trans (by decide : 1 ≤ 4) hn)
    exact ⟨⟨'t', _, .true, rfl, rfl⟩, fun _ _ => rfl⟩
  | .bool false, depth, n, hn => by
    obtain ⟨m, rfl⟩ := Nat.exists_eq_add_of_le' (le_trans (by decide : 1 ≤ 5) hn)
    exact ⟨⟨'f', _, .false, rfl, rfl⟩, fun _ _ => rfl⟩
  | .int k, depth, n, hn => by
    obtain ⟨c, t, htext, hkind⟩ := repr_starts k
    have hlength : 1 ≤ k.repr.toList.length := by
      rw [htext, List.length_cons]
      omega
    obtain ⟨m, rfl⟩ := Nat.exists_eq_add_of_le' (hlength.trans hn)
    refine ⟨⟨c, t, .int, htext, hkind⟩, fun s hs => ?_⟩
    have hread : read (m + 1) (k.repr.toList ++ s) =
        (readInt (k.repr.toList ++ s)).map fun r => (.int r.1, r.2) := by
      simp only [htext, List.cons_append, read, hkind]
    rw [Layout.dumps, hread, readInt_repr k hs, Option.map_some]
  | .str a, depth, n, hn => by
    have hlength : 1 ≤ (quote a).length := Nat.succ_le_of_lt (Nat.succ_pos _)
    obtain ⟨m, rfl⟩ := Nat.exists_eq_add_of_le' (hlength.trans hn)
    refine ⟨⟨'"', _, .str, rfl, rfl⟩, fun s _ => ?_⟩
    obtain ⟨t, htext, hread⟩ := readString_quote_rest a s
    have hvalue : read (m + 1) ('"' :: t) = (readString t).map fun r => (.str r.1, r.2) := rfl
    rw [Layout.dumps, htext, hvalue, hread, Option.map_some]
  | .arr items, depth, n, hn => by
    obtain ⟨m, rfl⟩ := Nat.exists_eq_add_of_le' (length_pos_of_bracketed hn)
    refine reads_bracketed .arr (.inl rfl) rfl (fun _ => rfl) (reads_items items fun t ht => ?_)
    exact Nat.le_of_lt_succ ((length_lt_bracketed ht).trans_le hn)
  | .obj members, depth, n, hn => by
    obtain ⟨m, rfl⟩ := Nat.exists_eq_add_of_le' (length_pos_of_bracketed hn)
    refine reads_bracketed .obj (.inr rfl) rfl (fun _ => rfl)
      (reads_members members fun t ht => ?_)
    exact Nat.le_of_lt_succ ((length_lt_bracketed ht).trans_le hn)

theorem reads_items : ∀ (items : List Value) {depth n : ℕ},
    (∀ t ∈ l.dumpsItems depth items, t.length ≤ n) →
    List.Forall₂ (Reads (read n)) (l.dumpsItems depth items) items
  | [], _, _, _ => .nil
  | v :: items, depth, n, hn => by
    obtain ⟨hv, hitems⟩ := List.forall_mem_cons.mp hn
    exact .cons (reads_dumps v hv) (reads_items items hitems)

theorem reads_members : ∀ (members : List (String × Value)) {depth n : ℕ},
    (∀ t ∈ l.dumpsMembers depth members, t.length ≤ n) →
    List.Forall₂ (Reads (readMember (read n))) (l.dumpsMembers depth members) members
  | [], _, _, _ => .nil
  | (k, v) :: members, depth, n, hn => by
    obtain ⟨hv, hmembers⟩ := List.forall_mem_cons.mp hn
    refine .cons (reads_member (reads_dumps v ?_)) (reads_members members hmembers)
    rw [Layout.member, List.length_append, List.length_cons, List.length_append] at hv
    omega

end

end Values

end RefractContracts.Host.JsonText
