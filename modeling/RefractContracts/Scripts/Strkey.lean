import RefractContracts.Scripts.FeeBump

/-! Strkeys of the state tool. A version byte, a key of 32 bytes and a checksum are 56 digits in
base 32, with nothing left over that would need padding; so an address that was encoded is decoded
to its version and its key. `none` is a `ValueError`. -/

namespace RefractContracts.Scripts

open Host

/-! ### Base 32 -/

/-- The `k` low digits of `n`, the most significant first. -/
def digits32 : ℕ → ℕ → List Char
  | 0, _ => []
  | k + 1, n => digits32 k (n / 32) ++ [base32Alphabet.getD (n % 32) 'A']

/-- Five bytes are eight digits. -/
def encodeQuanta : Bytes → List Char
  | a :: b :: c :: d :: e :: rest => digits32 8 (beValue [a, b, c, d, e]) ++ encodeQuanta rest
  | _ => []

/-- `base64.b32encode`. -/
def b32encode (s : Bytes) : List Char :=
  let leftover := s.length % 5
  if leftover = 0 then encodeQuanta s
  else
    let encoded := encodeQuanta (s ++ List.replicate (5 - leftover) 0)
    let pad := if leftover = 1 then 6 else if leftover = 2 then 4 else if leftover = 3 then 3 else 1
    encoded.take (encoded.length - pad) ++ List.replicate pad '='

/-- `str.strip`. -/
def strip (s : List Char) : List Char := (s.dropWhile isSpace).rdropWhile isSpace

/-- `struct.pack("<H", crc)`. -/
def packChecksum (crc : ℕ) : Bytes := [.ofNat (crc % 256), .ofNat (crc / 256)]

def strkeyEncode (version : ℕ) (payload : Bytes) : String :=
  let body := .ofNat version :: payload
  .ofList ((b32encode (body ++ packChecksum (crc16Xmodem body))).rdropWhile (· = '='))

/-- As `decode_strkey`, but blanks may stand around the text. -/
def strkeyDecode (text : String) : Option (ℕ × Bytes) := decodeStrkey (.ofList (strip text.toList))

/-! ### Digits -/

theorem digit32_spec {n : ℕ} (hn : n < 32) :
    base32Alphabet.idxOf? (base32Alphabet.getD n 'A') = some n ∧
      base32Alphabet.getD n 'A' ≠ '=' ∧ isSpace (base32Alphabet.getD n 'A') = false := by
  have hall : ∀ i : Fin 32, base32Alphabet.idxOf? (base32Alphabet.getD i 'A') = some i.val ∧
      base32Alphabet.getD i 'A' ≠ '=' ∧ isSpace (base32Alphabet.getD i 'A') = false := by
    decide +kernel
  exact hall ⟨n, hn⟩

@[simp] theorem length_digits32 (k n : ℕ) : (digits32 k n).length = k := by
  induction k generalizing n with
  | zero => rfl
  | succ k ih => rw [digits32, List.length_append, ih, List.length_singleton]

theorem mem_digits32 {k n : ℕ} {c : Char} (h : c ∈ digits32 k n) : c ≠ '=' ∧ isSpace c = false := by
  induction k generalizing n with
  | zero => cases h
  | succ k ih =>
    rcases List.mem_append.mp h with h | h
    · exact ih h
    · rw [List.mem_singleton.mp h]
      exact (digit32_spec (Nat.mod_lt n (by decide))).2

/-- A digit goes below the ones before. -/
theorem foldlM_digits32 {k n acc : ℕ} (hn : n < 32 ^ k) :
    (digits32 k n).foldlM
      (fun acc c => do return (acc <<< 5) + (← base32Alphabet.idxOf? c)) acc =
        some (acc * 32 ^ k + n) := by
  induction k generalizing n with
  | zero =>
    rw [pow_zero, Nat.lt_one_iff] at hn
    subst hn
    simp [digits32]
  | succ k ih =>
    rw [pow_succ] at hn
    have hdigit := (digit32_spec (Nat.mod_lt n (by decide : 0 < 32))).1
    have hvalue : (acc * 32 ^ k + n / 32) * 32 + n % 32 = acc * (32 ^ k * 32) + n := by
      rw [add_mul, mul_assoc]
      omega
    rw [digits32, List.foldlM_append, ih (Nat.div_lt_of_lt_mul (by omega)), pow_succ, ← hvalue]
    simp only [Option.bind_eq_bind, Option.bind_some, List.foldlM_cons, List.foldlM_nil, hdigit,
      Nat.shiftLeft_eq, Nat.reducePow, Option.pure_def]

theorem quantum_digits32 {n : ℕ} (hn : n < 32 ^ 8) : quantum (digits32 8 n) = some n := by
  rw [quantum, foldlM_digits32 hn, Nat.zero_mul, Nat.zero_add]

/-! ### Groups -/

theorem mem_encodeQuanta {s : Bytes} {c : Char} (h : c ∈ encodeQuanta s) :
    c ≠ '=' ∧ isSpace c = false := by
  induction s using encodeQuanta.induct with
  | case1 a b c' d e rest ih =>
    rcases List.mem_append.mp h with h | h
    · exact mem_digits32 h
    · exact ih h
  | case2 s hs =>
    rw [encodeQuanta.eq_2 s hs] at h
    cases h

theorem length_encodeQuanta {s : Bytes} (hs : s.length % 5 = 0) :
    (encodeQuanta s).length = s.length / 5 * 8 := by
  induction s using encodeQuanta.induct with
  | case1 a b c d e rest ih =>
    simp only [List.length_cons] at hs
    rw [encodeQuanta, List.length_append, length_digits32, ih (by omega)]
    simp only [List.length_cons]
    omega
  | case2 s hs' =>
    rw [encodeQuanta.eq_2 s hs']
    match s, hs', hs with
    | [], _, _ => rfl
    | a :: b :: c :: d :: e :: rest, hs', _ => exact absurd rfl (hs' a b c d e rest)

/-- The groups of digits are those of the bytes. -/
theorem quanta_encodeQuanta {s : Bytes} (hs : s.length % 5 = 0) (fuel : ℕ)
    (hfuel : (encodeQuanta s).length ≤ fuel) :
    ∃ accs, (quanta fuel (encodeQuanta s)).mapM quantum = some accs ∧
      accs.flatMap (beBytes 5) = s := by
  induction s using encodeQuanta.induct generalizing fuel with
  | case1 a b c d e rest ih =>
    simp only [List.length_cons] at hs
    rw [encodeQuanta, List.length_append, length_digits32] at hfuel
    obtain ⟨fuel, rfl⟩ : ∃ m, fuel = m + 1 := ⟨fuel - 1, by omega⟩
    obtain ⟨accs, haccs, hrest⟩ := ih (by omega) fuel (by omega)
    have hlt : beValue [a, b, c, d, e] < 32 ^ 8 :=
      (beValue_lt [a, b, c, d, e]).trans_eq (by norm_num [List.length])
    have hlen := length_digits32 8 (beValue [a, b, c, d, e])
    refine ⟨beValue [a, b, c, d, e] :: accs, ?_, ?_⟩
    · have hne : digits32 8 (beValue [a, b, c, d, e]) ++ encodeQuanta rest ≠ [] :=
        List.append_ne_nil_of_left_ne_nil (List.ne_nil_of_length_pos (hlen.symm ▸ Nat.succ_pos 7)) _
      rw [encodeQuanta, quanta, if_neg hne, List.take_left' hlen, List.drop_left' hlen,
        List.mapM_cons, quantum_digits32 hlt, haccs]
      rfl
    · rw [List.flatMap_cons, hrest]
      exact congrArg (· ++ rest) (beBytes_beValue [a, b, c, d, e])
  | case2 s hs' =>
    match s, hs', hs with
    | [], _, _ =>
      refine ⟨[], ?_, rfl⟩
      cases fuel <;> rfl
    | a :: b :: c :: d :: e :: rest, hs', _ => exact absurd rfl (hs' a b c d e rest)

theorem rdropWhile_of_forall {p : Char → Bool} {s : List Char} (h : ∀ c ∈ s, p c = false) :
    s.rdropWhile p = s := by
  rw [List.rdropWhile_eq_self_iff]
  intro hne
  rw [h _ (List.getLast_mem hne)]
  exact Bool.false_ne_true

theorem b32decode_encodeQuanta {s : Bytes} (hs : s.length % 5 = 0) :
    b32decode (encodeQuanta s) = some s := by
  have hlen := length_encodeQuanta hs
  have hstrip : (encodeQuanta s).rdropWhile (· = '=') = encodeQuanta s :=
    rdropWhile_of_forall fun c hc => decide_eq_false (mem_encodeQuanta hc).1
  obtain ⟨accs, haccs, hbytes⟩ := quanta_encodeQuanta hs _ le_rfl
  rw [b32decode, if_neg (by omega), hstrip]
  simp only [haccs, Option.bind_eq_bind, Option.bind_some, hbytes, Nat.sub_self]
  rfl

/-! ### Addresses -/

section Addresses
variable {version : ℕ} {payload : Bytes}

/-- The digits of an address, none of them padding. -/
theorem toList_strkeyEncode (hpayload : payload.length = 32) :
    (strkeyEncode version payload).toList = encodeQuanta
      (.ofNat version :: payload ++ packChecksum (crc16Xmodem (.ofNat version :: payload))) := by
  have hlength : (.ofNat version :: payload ++
      packChecksum (crc16Xmodem (.ofNat version :: payload))).length = 35 := by
    simp [hpayload, packChecksum]
  rw [strkeyEncode, String.toList_ofList, b32encode, if_pos (by rw [hlength])]
  exact rdropWhile_of_forall fun c hc => decide_eq_false (mem_encodeQuanta hc).1

/-- An address that was encoded is decoded to its version and its key. -/
theorem strkeyDecode_encode (hversion : version < 256) (hpayload : payload.length = 32) :
    strkeyDecode (strkeyEncode version payload) = some (version, payload) := by
  set body : Bytes := .ofNat version :: payload with hbody
  have hlength : (body ++ packChecksum (crc16Xmodem body)).length = 35 := by
    simp [hbody, hpayload, packChecksum]
  have hdigits : (strkeyEncode version payload).toList =
      encodeQuanta (body ++ packChecksum (crc16Xmodem body)) := toList_strkeyEncode hpayload
  have hspace : ∀ c ∈ encodeQuanta (body ++ packChecksum (crc16Xmodem body)), isSpace c = false :=
    fun c hc => (mem_encodeQuanta hc).2
  have hdrop : (encodeQuanta (body ++ packChecksum (crc16Xmodem body))).dropWhile isSpace =
      encodeQuanta (body ++ packChecksum (crc16Xmodem body)) := by
    rw [List.dropWhile_eq_self_iff]
    intro hpos
    rw [hspace _ (List.getElem_mem hpos)]
    exact Bool.false_ne_true
  have hcount : (encodeQuanta (body ++ packChecksum (crc16Xmodem body))).length = 56 := by
    rw [length_encodeQuanta (by rw [hlength]), hlength]
  have htake : (body ++ packChecksum (crc16Xmodem body)).take 33 = body :=
    List.take_left' (by simp [hbody, hpayload])
  have hdropped : (body ++ packChecksum (crc16Xmodem body)).drop 33 =
      packChecksum (crc16Xmodem body) :=
    List.drop_left' (by simp [hbody, hpayload])
  rw [strkeyDecode, strip, hdigits, hdrop, rdropWhile_of_forall hspace, decodeStrkey]
  simp only [String.toList_ofList, hcount, Nat.reduceMod, Nat.reduceSub, List.replicate_zero,
    List.append_nil, b32decode_encodeQuanta (show _ % 5 = 0 by rw [hlength]), Option.bind_eq_bind,
    Option.bind_some, hlength, ne_eq, not_true_eq_false, if_false, htake, hdropped]
  rw [if_neg (fun h => h rfl), hbody]
  simp [UInt8.toNat_ofNat_of_lt' hversion]

end Addresses

end RefractContracts.Scripts
