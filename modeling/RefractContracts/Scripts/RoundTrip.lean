import RefractContracts.Scripts.ScVal

/-! The SCVal round trip. What is written of a value is read back, whatever follows: integers
within their width, texts through UTF-8, addresses through their key, and vectors, maps and
instances by induction on how the value was built. So a ledger entry is decoded to what it was
encoded from. -/

namespace RefractContracts.Scripts

open Host
open Reader (Reads Shrinks Consumes Alike)
open XdrReader

/-! ### The reader -/

section Reader
variable {k : ℕ} {p q : XdrReader Sc}

theorem shrinks_unsigned (n : ℕ) : Shrinks (unsigned n) :=
  (Reader.shrinks_take n truncated).bind fun data => .pure (beValue data)

theorem shrinks_signed (n : ℕ) : Shrinks (signed n) :=
  (shrinks_unsigned n).bind fun v => .pure (unpackSigned n v)

theorem consumes_u32 : Consumes u32 :=
  (Reader.consumes_take (by decide) truncated).bind fun data => .pure (beValue data)

theorem shrinks_u32 : Shrinks u32 := shrinks_unsigned 4

theorem shrinks_u64 : Shrinks u64 := shrinks_unsigned 8

theorem shrinks_var : Shrinks var :=
  shrinks_u32.bind fun n => (Reader.shrinks_take n truncated).bind fun out =>
    (Reader.shrinks_take _ truncated).bind fun _ => .pure out

theorem shrinks_address : Shrinks readAddress := by
  refine shrinks_u32.bind fun kind => ?_
  split_ifs
  · refine shrinks_u32.bind fun key => ?_
    split_ifs
    · exact .fail _
    · exact (Reader.shrinks_take 32 truncated).bind fun payload => .pure _
  · exact (Reader.shrinks_take 32 truncated).bind fun payload => .pure _
  · exact .fail _

theorem shrinks_executable : Shrinks readExecutable := by
  refine shrinks_u32.bind fun kind => ?_
  split_ifs
  · exact (Reader.shrinks_take 32 truncated).bind fun hash => .pure _
  · exact .pure none

theorem Alike.pair (h : Alike k p q) : Alike k (readPair p) (readPair q) :=
  h.bind fun _ => h.map

theorem Alike.counted {α : Type} {p q : XdrReader α} (h : Alike k p q) :
    Alike k (readCounted p) (readCounted q) := by
  refine (Alike.refl shrinks_u32).bind fun present => ?_
  split_ifs
  · exact .pure none
  · exact (Alike.refl shrinks_u32).bind fun count => (h.times count).map

/-- Values within are read by the reader that is given, all else is not. -/
theorem alike_payload (h : Alike k p q) : ∀ t, Alike k (readPayload p t) (readPayload q t)
  | tBool => (Alike.refl shrinks_u32).map
  | tVoid => .pure _
  | tError => (Alike.refl shrinks_u32).bind fun _ => (Alike.refl shrinks_u32).map
  | tU32 => (Alike.refl shrinks_u32).map
  | tI32 => (Alike.refl (shrinks_signed 4)).map
  | tU64 => (Alike.refl shrinks_u64).map
  | tI64 => (Alike.refl (shrinks_signed 8)).map
  | tTimepoint => (Alike.refl shrinks_u64).map
  | tDuration => (Alike.refl shrinks_u64).map
  | tU128 => (Alike.refl shrinks_u64).bind fun _ => (Alike.refl shrinks_u64).map
  | tI128 => (Alike.refl (shrinks_signed 8)).bind fun _ => (Alike.refl shrinks_u64).map
  | tU256 => (Alike.refl shrinks_u64).bind fun _ => (Alike.refl shrinks_u64).bind fun _ =>
    (Alike.refl shrinks_u64).bind fun _ => (Alike.refl shrinks_u64).map
  | tI256 => (Alike.refl (shrinks_signed 8)).bind fun _ => (Alike.refl shrinks_u64).bind fun _ =>
    (Alike.refl shrinks_u64).bind fun _ => (Alike.refl shrinks_u64).map
  | tBytes => (Alike.refl shrinks_var).map
  | tString => (Alike.refl shrinks_var).map
  | tSymbol => (Alike.refl shrinks_var).map
  | tVec => (Alike.counted h).map
  | tMap => (Alike.counted (Alike.pair h)).map
  | tAddress => (Alike.refl shrinks_address).map
  | tInstance => (Alike.refl shrinks_executable).bind fun _ => (Alike.counted (Alike.pair h)).map
  | tLedgerKeyInstance => .pure _
  | tNonce => (Alike.refl (shrinks_signed 8)).map
  | _ + 22 => .refl (.fail _)

theorem guarded_tagged : Reader.Guarded truncated readTagged where
  empty _ := rfl
  consumes _ hp := consumes_u32.bind fun t => (alike_payload (k := 0) (.refl hp) t).shrinks
  agree _ _ _ h := .bind_of_consumes consumes_u32 fun t => (alike_payload h t).agree

/-- `read_scval` calls itself for the values within. -/
theorem readScval_eq : readScval = readTagged readScval := guarded_tagged.recursive_eq

end Reader

/-! ### Integers and bytes -/

section Fields
variable {k n : ℕ} {v : ℤ} {bytes : Bytes}

theorem reads_take {data : Bytes} (hdata : data.length = n) : Reads (take n) data data :=
  hdata ▸ Reader.reads_take data truncated

theorem reads_unsigned (hn : n < 256 ^ k) : Reads (unsigned k) (beBytes k n) n := by
  have hread := (reads_take (length_beBytes k n)).map (g := beValue)
  rw [beValue_beBytes hn] at hread
  exact hread

theorem reads_u32 (hn : n < 2 ^ 32) : Reads u32 (beBytes 4 n) n := reads_unsigned (by omega)

theorem reads_packUnsigned (h : packUnsigned k v = some bytes) :
    ∃ n : ℕ, v = n ∧ Reads (unsigned k) bytes n := by
  unfold packUnsigned at h
  split_ifs at h with hv
  obtain rfl := Option.some.inj h
  obtain ⟨n, rfl⟩ := Int.eq_ofNat_of_zero_le hv.1
  exact ⟨n, rfl, reads_unsigned (by exact_mod_cast hv.2)⟩

theorem unpackSigned_emod (hlow : -(256 ^ k) ≤ 2 * v) (hhigh : 2 * v < 256 ^ k) :
    unpackSigned k (v % 256 ^ k).toNat = v := by
  have hpos : (0 : ℤ) < 256 ^ k := by positivity
  have hcast : ((v % 256 ^ k).toNat : ℤ) = v % 256 ^ k :=
    Int.toNat_of_nonneg (Int.emod_nonneg v hpos.ne')
  have hbound : (256 ^ k ≤ 2 * (v % 256 ^ k).toNat) ↔ (256 ^ k : ℤ) ≤ 2 * (v % 256 ^ k) := by
    rw [← hcast]
    exact_mod_cast Iff.rfl
  rw [unpackSigned, hcast, if_congr hbound rfl rfl]
  rcases le_or_gt 0 v with hv | hv
  · rw [Int.emod_eq_of_lt hv (by omega), if_neg (by omega)]
  · have hmod : v % 256 ^ k = v + 256 ^ k := by
      rw [← Int.add_emod_right, Int.emod_eq_of_lt (by omega) (by omega)]
    rw [hmod, if_pos (by omega)]
    omega

theorem reads_packSigned (h : packSigned k v = some bytes) : Reads (signed k) bytes v := by
  unfold packSigned at h
  split_ifs at h with hv
  obtain rfl := Option.some.inj h
  have hlt : (v % 256 ^ k).toNat < 256 ^ k := by
    have hpos : (0 : ℤ) < 256 ^ k := by positivity
    have := Int.emod_lt_of_pos v hpos
    zify
    rwa [Int.toNat_of_nonneg (Int.emod_nonneg v hpos.ne')]
  have hread := (reads_unsigned hlt).map (g := unpackSigned k)
  rw [unpackSigned_emod hv.1 hv.2] at hread
  exact hread

/-- The padding is read and dropped. -/
theorem reads_var {data : Bytes} (h : Writer.var data = some bytes) : Reads var bytes data := by
  simp only [Writer.var, Option.bind_eq_bind, Option.bind_eq_some_iff, Option.some.injEq] at h
  obtain ⟨length, hlength, rfl⟩ := h
  obtain ⟨n, hn, hread⟩ := reads_packUnsigned hlength
  obtain rfl : data.length = n := by exact_mod_cast hn
  have hpad : Reads (take ((4 - data.length % 4) % 4)) (List.replicate _ 0) (List.replicate _ 0) :=
    reads_take List.length_replicate
  exact hread.bind ((reads_take rfl).bind (hpad.map (g := fun _ => data)))

theorem reads_u128 (hlow : 0 ≤ v) (hhigh : v < 2 ^ 128) (h : writeU128 v = some bytes) :
    Reads (readPayload readScval tU128) bytes (.u128 v) := by
  simp only [writeU128, splitU128, Option.bind_eq_bind, Option.bind_eq_some_iff,
    Option.some.injEq] at h
  obtain ⟨high, hh, low, hl, rfl⟩ := h
  obtain ⟨hi, hhi, hreadHi⟩ := reads_packUnsigned hh
  obtain ⟨lo, hlo, hreadLo⟩ := reads_packUnsigned hl
  have hlt : lo < 2 ^ 64 := by omega
  have hvalue : ((hi <<< 64 ||| lo : ℕ) : ℤ) = v := by
    rw [← Nat.shiftLeft_add_eq_or_of_lt hlt, Nat.shiftLeft_eq]
    push_cast
    omega
  have hread : Reads (readPayload readScval tU128) (high ++ low)
      (.u128 ((hi <<< 64 ||| lo : ℕ) : ℤ)) :=
    hreadHi.bind (hreadLo.map (g := fun lo => Sc.u128 ((hi <<< 64 ||| lo : ℕ) : ℤ)))
  rwa [hvalue] at hread

/-- The upper half carries the sign. -/
theorem reads_i128 (hlow : -2 ^ 127 ≤ v) (hhigh : v < 2 ^ 127) (h : writeI128 v = some bytes) :
    Reads (readPayload readScval tI128) bytes (.i128 v) := by
  simp only [writeI128, splitU128, Option.bind_eq_bind, Option.bind_eq_some_iff,
    Option.some.injEq] at h
  obtain ⟨high, hh, low, hl, rfl⟩ := h
  have hreadHi := reads_packSigned hh
  obtain ⟨lo, hlo, hreadLo⟩ := reads_packUnsigned hl
  set hi : ℤ := if v % 2 ^ 128 / 2 ^ 64 % 2 ^ 64 ≥ 2 ^ 63 then
    v % 2 ^ 128 / 2 ^ 64 % 2 ^ 64 - 2 ^ 64 else v % 2 ^ 128 / 2 ^ 64 % 2 ^ 64 with hhi
  have hvalue : hi * 2 ^ 64 + lo = v := by
    rw [hhi, ← hlo]
    split_ifs <;> omega
  have hread : Reads (readPayload readScval tI128) (high ++ low) (.i128 (hi * 2 ^ 64 + lo)) :=
    hreadHi.bind (hreadLo.map (g := fun lo : ℕ => Sc.i128 (hi * 2 ^ 64 + lo)))
  rwa [hvalue] at hread

end Fields

/-! ### Addresses and code hashes -/

/-- The text of an account or a contract, as it is encoded from a key. -/
def CanonicalAddress (strkey : String) : Prop :=
  ∃ payload : Bytes, payload.length = 32 ∧
    (strkey = strkeyEncode versionAccount payload ∨ strkey = strkeyEncode versionContract payload)

/-- The hex digits of 32 bytes. -/
def CanonicalHash (executable : String) : Prop :=
  ∃ hash : Bytes, hash.length = 32 ∧ executable = toHex hash

section Texts
variable {bytes : Bytes} {strkey : String} {executable : Option String}

theorem reads_address (hstrkey : CanonicalAddress strkey) (h : writeAddress strkey = some bytes) :
    Reads readAddress bytes strkey := by
  obtain ⟨payload, hpayload, rfl | rfl⟩ := hstrkey
  · rw [writeAddress, strkeyDecode_encode (by decide) hpayload] at h
    obtain rfl := Option.some.inj h
    exact (reads_u32 (by decide)).bind
      ((reads_u32 (by decide)).bind ((reads_take hpayload).map (g := strkeyEncode versionAccount)))
  · rw [writeAddress, strkeyDecode_encode (by decide) hpayload] at h
    obtain rfl := Option.some.inj h
    exact (reads_u32 (by decide)).bind
      ((reads_take hpayload).map (g := strkeyEncode versionContract))

theorem hexDigit_spec {n : ℕ} (hn : n < 16) :
    hexValue (Nat.digitChar n) = some n ∧ isAsciiSpace (Nat.digitChar n) = false := by
  have hall : ∀ i : Fin 16, hexValue (Nat.digitChar i) = some i.val ∧
      isAsciiSpace (Nat.digitChar i) = false := by decide
  exact hall ⟨n, hn⟩

theorem fromHex_toHex (data : Bytes) : fromHex (toHex data).toList = some data := by
  rw [toHex, String.toList_ofList]
  induction data with
  | nil => rfl
  | cons b data ih =>
    have hb := b.toNat_lt
    obtain ⟨htop, hspace⟩ := hexDigit_spec (show b.toNat / 16 < 16 by omega)
    obtain ⟨hbot, -⟩ := hexDigit_spec (show b.toNat % 16 < 16 by omega)
    have hbyte : 16 * (b.toNat / 16) + b.toNat % 16 = b.toNat := Nat.div_add_mod _ _
    rw [List.flatMap_cons, hexByte, List.cons_append, List.cons_append, List.nil_append, fromHex,
      hspace, htop, hbot, ih]
    simp only [Bool.false_eq_true, if_false, Option.bind_eq_bind, Option.bind_some, hbyte,
      UInt8.ofNat_toNat]

theorem reads_executable (hexecutable : ∀ hash ∈ executable, CanonicalHash hash)
    (h : writeExecutable executable = some bytes) : Reads readExecutable bytes executable := by
  cases executable with
  | none =>
    obtain rfl := Option.some.inj h
    exact (reads_u32 (by decide)).map (g := fun _ => none)
  | some executable =>
    obtain ⟨hash, hhash, rfl⟩ := hexecutable executable rfl
    rw [writeExecutable, fromHex_toHex] at h
    obtain rfl := Option.some.inj h
    exact (reads_u32 (by decide)).bind ((reads_take hhash).map (g := fun hash => some (toHex hash)))

end Texts

/-! ### Values -/

/-- Built from the kinds that `write_scval` encodes: integers within their width, texts, canonical
addresses and code hashes, present vectors and maps. Lengths are such that they fit. -/
inductive Built (fits : ℕ → Prop) : Sc → Prop where
  | bool (v : Bool) : Built fits (.bool v)
  | void : Built fits .void
  | ledgerKeyInstance : Built fits .ledgerKeyInstance
  | u32 {v : ℤ} (hv : 0 ≤ v ∧ v < 2 ^ 32) : Built fits (.u32 v)
  | i32 {v : ℤ} (hv : -2 ^ 31 ≤ v ∧ v < 2 ^ 31) : Built fits (.i32 v)
  | u64 {v : ℤ} (hv : 0 ≤ v ∧ v < 2 ^ 64) : Built fits (.u64 v)
  | timepoint {v : ℤ} (hv : 0 ≤ v ∧ v < 2 ^ 64) : Built fits (.timepoint v)
  | duration {v : ℤ} (hv : 0 ≤ v ∧ v < 2 ^ 64) : Built fits (.duration v)
  | i64 {v : ℤ} (hv : -2 ^ 63 ≤ v ∧ v < 2 ^ 63) : Built fits (.i64 v)
  | u128 {v : ℤ} (hv : 0 ≤ v ∧ v < 2 ^ 128) : Built fits (.u128 v)
  | i128 {v : ℤ} (hv : -2 ^ 127 ≤ v ∧ v < 2 ^ 127) : Built fits (.i128 v)
  | bytes {v : Bytes} (hv : fits v.length) : Built fits (.bytes v)
  | string {v : String} (hv : fits (encode v).length) : Built fits (.string v)
  | symbol {v : String} (hv : fits (encode v).length) : Built fits (.symbol v)
  | vec {items : List Sc} (hcount : fits items.length) (hitems : ∀ item ∈ items, Built fits item) :
    Built fits (.vec (some items))
  | map {pairs : List (Sc × Sc)} (hcount : fits pairs.length)
    (hkeys : ∀ pair ∈ pairs, Built fits pair.1) (hvalues : ∀ pair ∈ pairs, Built fits pair.2) :
    Built fits (.map (some pairs))
  | address {v : String} (hv : CanonicalAddress v) : Built fits (.address v)
  | assetInstance {executable : Option String}
    (hexecutable : ∀ hash ∈ executable, CanonicalHash hash) :
    Built fits (.contractInstance executable none)
  | storedInstance {executable : Option String} {storage : List (Sc × Sc)}
    (hexecutable : ∀ hash ∈ executable, CanonicalHash hash) (hcount : fits storage.length)
    (hkeys : ∀ pair ∈ storage, Built fits pair.1) (hvalues : ∀ pair ∈ storage, Built fits pair.2) :
    Built fits (.contractInstance executable (some storage))

section Values
variable {fits : ℕ → Prop} {v : Sc} {bytes : Bytes} {items : List Sc} {pairs : List (Sc × Sc)}

theorem reads_tagged {t : ℕ} {payload : Option Bytes} (ht : t < 2 ^ 32)
    (h : tagged t payload = some bytes)
    (hread : ∀ data, payload = some data → Reads (readPayload readScval t) data v) :
    Reads readScval bytes v := by
  obtain ⟨data, hdata, rfl⟩ := Option.map_eq_some_iff.mp h
  rw [readScval_eq]
  exact (reads_u32 ht).bind (hread data hdata)

theorem reads_counted {α : Type} {p : XdrReader α} {values : List α} {body : Option Bytes}
    (h : counted values.length body = some bytes)
    (hread : ∀ data, body = some data → Reads (Reader.times p values.length) data values) :
    Reads (readCounted p) bytes (some values) := by
  simp only [counted, Option.bind_eq_bind, Option.bind_eq_some_iff, Option.some.injEq] at h
  obtain ⟨length, hlength, data, hdata, rfl⟩ := h
  obtain ⟨n, hn, hcount⟩ := reads_packUnsigned hlength
  obtain rfl : values.length = n := by exact_mod_cast hn
  exact (reads_u32 (by decide)).bind (hcount.bind ((hread data hdata).map (g := some)))

theorem reads_bool {v : Bool} (h : Writer.u32 (if v then 1 else 0) = some bytes) :
    Reads (readPayload readScval tBool) bytes (.bool v) := by
  obtain ⟨n, hn, hread⟩ := reads_packUnsigned h
  have hbool : decide (n ≠ 0) = v := by
    cases v
    · exact decide_eq_false (not_not.mpr (by exact_mod_cast hn.symm))
    · exact decide_eq_true fun hzero => by simp [hzero] at hn
  have hmap : Reads (readPayload readScval tBool) bytes (.bool (decide (n ≠ 0))) :=
    hread.map (g := fun n : ℕ => Sc.bool (decide (n ≠ 0)))
  rwa [hbool] at hmap

/-- No storage is the flag alone. -/
theorem reads_absent {α : Type} (p : XdrReader α) : Reads (readCounted p) (beBytes 4 0) none :=
  (reads_u32 (by decide)).map (g := fun _ => none)

theorem writeItems_chunks (h : writeItems items = some bytes) : ∃ chunks : List Bytes,
    List.Forall₂ (fun chunk item => writeScval item = some chunk) chunks items ∧
      chunks.flatten = bytes := by
  induction items generalizing bytes with
  | nil =>
    rw [writeItems, Option.some.injEq] at h
    exact ⟨[], .nil, h⟩
  | cons item items ih =>
    simp only [writeItems, Option.bind_eq_bind, Option.bind_eq_some_iff, Option.some.injEq] at h
    obtain ⟨first, hfirst, rest, hrest, rfl⟩ := h
    obtain ⟨chunks, hchunks, rfl⟩ := ih hrest
    exact ⟨first :: chunks, .cons hfirst hchunks, rfl⟩

theorem writePairs_chunks (h : writePairs pairs = some bytes) : ∃ chunks : List Bytes,
    List.Forall₂ (fun chunk pair => ∃ first second, writeScval pair.1 = some first ∧
      writeScval pair.2 = some second ∧ chunk = first ++ second) chunks pairs ∧
      chunks.flatten = bytes := by
  induction pairs generalizing bytes with
  | nil =>
    rw [writePairs, Option.some.injEq] at h
    exact ⟨[], .nil, h⟩
  | cons pair pairs ih =>
    simp only [writePairs, Option.bind_eq_bind, Option.bind_eq_some_iff, Option.some.injEq] at h
    obtain ⟨first, hfirst, second, hsecond, rest, hrest, rfl⟩ := h
    obtain ⟨chunks, hchunks, rfl⟩ := ih hrest
    exact ⟨(first ++ second) :: chunks, .cons ⟨first, second, hfirst, hsecond, rfl⟩ hchunks, rfl⟩

/-- Items that are read back one by one are read back one after the other. -/
theorem reads_items (h : writeItems items = some bytes)
    (hitems : ∀ item ∈ items, ∀ bytes, writeScval item = some bytes → Reads readScval bytes item) :
    Reads (Reader.times readScval items.length) bytes items := by
  obtain ⟨chunks, hchunks, rfl⟩ := writeItems_chunks h
  refine Reads.times (List.forall₂_iff_get.mpr ⟨hchunks.length_eq, fun i hi hi' => ?_⟩)
  exact hitems _ (List.get_mem _ _) _ ((List.forall₂_iff_get.mp hchunks).2 i hi hi')

theorem reads_pairs (h : writePairs pairs = some bytes)
    (hkeys : ∀ pair ∈ pairs, ∀ bytes, writeScval pair.1 = some bytes → Reads readScval bytes pair.1)
    (hvalues : ∀ pair ∈ pairs, ∀ bytes, writeScval pair.2 = some bytes →
      Reads readScval bytes pair.2) :
    Reads (Reader.times (readPair readScval) pairs.length) bytes pairs := by
  obtain ⟨chunks, hchunks, rfl⟩ := writePairs_chunks h
  refine Reads.times (List.forall₂_iff_get.mpr ⟨hchunks.length_eq, fun i hi hi' => ?_⟩)
  obtain ⟨first, second, hfirst, hsecond, hchunk⟩ := (List.forall₂_iff_get.mp hchunks).2 i hi hi'
  rw [hchunk]
  have hmem := List.get_mem pairs ⟨i, hi'⟩
  exact (hkeys _ hmem first hfirst).bind
    ((hvalues _ hmem second hsecond).map (g := fun value => (_, value)))

/-- What is written of a value is read back, whatever follows. -/
theorem reads_scval (hv : Built fits v) : ∀ bytes, writeScval v = some bytes →
    Reads readScval bytes v := by
  induction hv with
  | bool v =>
    intro bytes h
    exact reads_tagged (by decide) h fun data hdata => reads_bool hdata
  | void =>
    intro bytes h
    refine reads_tagged (by decide) h fun data hdata => ?_
    obtain rfl := Option.some.inj hdata
    exact .pure _
  | ledgerKeyInstance =>
    intro bytes h
    refine reads_tagged (by decide) h fun data hdata => ?_
    obtain rfl := Option.some.inj hdata
    exact .pure _
  | u32 hv =>
    intro bytes h
    refine reads_tagged (by decide) h fun data hdata => ?_
    obtain ⟨n, rfl, hread⟩ := reads_packUnsigned hdata
    exact hread.map (g := fun n : ℕ => Sc.u32 n)
  | i32 hv =>
    intro bytes h
    exact reads_tagged (by decide) h fun data hdata => (reads_packSigned hdata).map (g := Sc.i32)
  | u64 hv =>
    intro bytes h
    refine reads_tagged (by decide) h fun data hdata => ?_
    obtain ⟨n, rfl, hread⟩ := reads_packUnsigned hdata
    exact hread.map (g := fun n : ℕ => Sc.u64 n)
  | timepoint hv =>
    intro bytes h
    refine reads_tagged (by decide) h fun data hdata => ?_
    obtain ⟨n, rfl, hread⟩ := reads_packUnsigned hdata
    exact hread.map (g := fun n : ℕ => Sc.timepoint n)
  | duration hv =>
    intro bytes h
    refine reads_tagged (by decide) h fun data hdata => ?_
    obtain ⟨n, rfl, hread⟩ := reads_packUnsigned hdata
    exact hread.map (g := fun n : ℕ => Sc.duration n)
  | i64 hv =>
    intro bytes h
    exact reads_tagged (by decide) h fun data hdata => (reads_packSigned hdata).map (g := Sc.i64)
  | u128 hv =>
    intro bytes h
    exact reads_tagged (by decide) h fun data hdata => reads_u128 hv.1 hv.2 hdata
  | i128 hv =>
    intro bytes h
    exact reads_tagged (by decide) h fun data hdata => reads_i128 hv.1 hv.2 hdata
  | bytes hv =>
    intro bytes h
    exact reads_tagged (by decide) h fun data hdata => (reads_var hdata).map (g := Sc.bytes)
  | @string v hv =>
    intro bytes h
    refine reads_tagged (by decide) h fun data hdata => ?_
    have hread := (reads_var hdata).map (g := fun data => Sc.string (Utf8.decodeReplace data))
    rw [encode, Utf8.decodeReplace_toUTF8] at hread
    exact hread
  | @symbol v hv =>
    intro bytes h
    refine reads_tagged (by decide) h fun data hdata => ?_
    have hread := (reads_var hdata).map (g := fun data => Sc.symbol (Utf8.decodeReplace data))
    rw [encode, Utf8.decodeReplace_toUTF8] at hread
    exact hread
  | vec hcount hitems ih =>
    intro bytes h
    refine reads_tagged (by decide) h fun data hdata => ?_
    exact (reads_counted hdata fun data hdata => reads_items hdata ih).map (g := Sc.vec)
  | map hcount hkeys hvalues ihkeys ihvalues =>
    intro bytes h
    refine reads_tagged (by decide) h fun data hdata => ?_
    exact (reads_counted hdata
      fun data hdata => reads_pairs hdata ihkeys ihvalues).map (g := Sc.map)
  | address hv =>
    intro bytes h
    exact reads_tagged (by decide) h
      fun data hdata => (reads_address hv hdata).map (g := Sc.address)
  | assetInstance hexecutable =>
    intro bytes h
    refine reads_tagged (by decide) h fun data hdata => ?_
    simp only [Option.bind_eq_bind, Option.bind_eq_some_iff, Option.some.injEq] at hdata
    obtain ⟨code, hcode, rfl⟩ := hdata
    exact (reads_executable hexecutable hcode).bind
      ((reads_absent _).map (g := fun storage => Sc.contractInstance _ storage))
  | storedInstance hexecutable hcount hkeys hvalues ihkeys ihvalues =>
    intro bytes h
    refine reads_tagged (by decide) h fun data hdata => ?_
    simp only [Option.bind_eq_bind, Option.bind_eq_some_iff, Option.some.injEq] at hdata
    obtain ⟨code, hcode, entries, hentries, rfl⟩ := hdata
    exact (reads_executable hexecutable hcode).bind
      ((reads_counted hentries fun data hdata => reads_pairs hdata ihkeys ihvalues).map
        (g := fun storage => Sc.contractInstance _ storage))

end Values

/-! ### What can be written -/

/-- A length that `struct.pack(">I", n)` takes. -/
def Fits32 (n : ℕ) : Prop := n < 2 ^ 32

section Written
variable {fits : ℕ → Prop} {k count : ℕ} {n : ℤ} {v : Sc} {items : List Sc} {pairs : List (Sc × Sc)}
variable {payload body : Option Bytes}

theorem packUnsigned_written (h : 0 ≤ n ∧ n < 256 ^ k) : ∃ bytes, packUnsigned k n = some bytes :=
  ⟨_, if_pos h⟩

theorem packSigned_written (h : -(256 ^ k) ≤ 2 * n ∧ 2 * n < 256 ^ k) :
    ∃ bytes, packSigned k n = some bytes :=
  ⟨_, if_pos h⟩

theorem writer_u32 (h : 0 ≤ n ∧ n < 2 ^ 32) : ∃ bytes, Writer.u32 n = some bytes :=
  packUnsigned_written (by omega)

theorem writer_i32 (h : -2 ^ 31 ≤ n ∧ n < 2 ^ 31) : ∃ bytes, Writer.i32 n = some bytes :=
  packSigned_written (by omega)

theorem writer_u64 (h : 0 ≤ n ∧ n < 2 ^ 64) : ∃ bytes, Writer.u64 n = some bytes :=
  packUnsigned_written (by omega)

theorem writer_i64 (h : -2 ^ 63 ≤ n ∧ n < 2 ^ 63) : ∃ bytes, Writer.i64 n = some bytes :=
  packSigned_written (by omega)

/-- A length is written if and only if it fits 32 bits. -/
theorem u32_written : (∃ bytes, Writer.u32 (count : ℤ) = some bytes) ↔ Fits32 count := by
  constructor
  · rintro ⟨bytes, h⟩
    simp only [Writer.u32, packUnsigned, Option.ite_none_right_eq_some] at h
    exact_mod_cast h.1.2
  · exact fun h => writer_u32 ⟨by positivity, by exact_mod_cast h⟩

theorem tagged_written (t : ℕ) : (∃ bytes, tagged t payload = some bytes) ↔
    ∃ data, payload = some data := by
  simp [tagged, Option.map_eq_some_iff]

theorem var_written {data : Bytes} :
    (∃ bytes, Writer.var data = some bytes) ↔ Fits32 data.length := by
  rw [← u32_written]
  simp [Writer.var, Option.bind_eq_some_iff]

theorem counted_written : (∃ bytes, counted count body = some bytes) ↔
    Fits32 count ∧ ∃ data, body = some data := by
  rw [← u32_written]
  simp [counted, Option.bind_eq_some_iff]

theorem items_written : (∃ bytes, writeItems items = some bytes) ↔
    ∀ item ∈ items, ∃ bytes, writeScval item = some bytes := by
  induction items with
  | nil => simp [writeItems]
  | cons item items ih =>
    rw [List.forall_mem_cons, ← ih]
    simp [writeItems, Option.bind_eq_some_iff]

theorem pairs_written : (∃ bytes, writePairs pairs = some bytes) ↔
    (∀ pair ∈ pairs, ∃ bytes, writeScval pair.1 = some bytes) ∧
      ∀ pair ∈ pairs, ∃ bytes, writeScval pair.2 = some bytes := by
  induction pairs with
  | nil => simp [writePairs]
  | cons pair pairs ih =>
    rw [List.forall_mem_cons, List.forall_mem_cons, and_and_and_comm, ← ih]
    simp [writePairs, Option.bind_eq_some_iff, and_assoc]

theorem splitU128_bounds (n : ℤ) : (0 ≤ (splitU128 n).1 ∧ (splitU128 n).1 < 2 ^ 64) ∧
    0 ≤ (splitU128 n).2 ∧ (splitU128 n).2 < 2 ^ 64 := by
  unfold splitU128
  omega

theorem u128_written (n : ℤ) : ∃ bytes, writeU128 n = some bytes := by
  obtain ⟨hhigh, hlow⟩ := splitU128_bounds n
  obtain ⟨high, hhigh⟩ := writer_u64 hhigh
  obtain ⟨low, hlow⟩ := writer_u64 hlow
  exact ⟨high ++ low, by simp [writeU128, hhigh, hlow]⟩

theorem i128_written (n : ℤ) : ∃ bytes, writeI128 n = some bytes := by
  obtain ⟨hhigh, hlow⟩ := splitU128_bounds (n % 2 ^ 128)
  obtain ⟨high, hhigh⟩ := writer_i64
    (n := if (splitU128 (n % 2 ^ 128)).1 ≥ 2 ^ 63 then (splitU128 (n % 2 ^ 128)).1 - 2 ^ 64
      else (splitU128 (n % 2 ^ 128)).1) (by split_ifs <;> omega)
  obtain ⟨low, hlow⟩ := writer_u64 hlow
  refine ⟨high ++ low, ?_⟩
  rw [writeI128]
  simp only [hhigh, hlow, Option.bind_eq_bind, Option.bind_some]

theorem address_written {strkey : String} (h : CanonicalAddress strkey) :
    ∃ bytes, writeAddress strkey = some bytes := by
  obtain ⟨payload, hpayload, rfl | rfl⟩ := h
  · rw [writeAddress, strkeyDecode_encode (by decide) hpayload]
    exact ⟨_, rfl⟩
  · rw [writeAddress, strkeyDecode_encode (by decide) hpayload]
    exact ⟨_, rfl⟩

theorem executable_written {executable : Option String}
    (h : ∀ hash ∈ executable, CanonicalHash hash) :
    ∃ bytes, writeExecutable executable = some bytes := by
  cases executable with
  | none => exact ⟨_, rfl⟩
  | some executable =>
    obtain ⟨hash, -, rfl⟩ := h executable rfl
    rw [writeExecutable, fromHex_toHex]
    exact ⟨_, rfl⟩

theorem stored_written {executable : Option String}
    (hexecutable : ∃ bytes, writeExecutable executable = some bytes) :
    (∃ bytes, writeScval (.contractInstance executable (some pairs)) = some bytes) ↔
      Fits32 pairs.length ∧ (∀ pair ∈ pairs, ∃ bytes, writeScval pair.1 = some bytes) ∧
        ∀ pair ∈ pairs, ∃ bytes, writeScval pair.2 = some bytes := by
  obtain ⟨code, hcode⟩ := hexecutable
  rw [← pairs_written, ← counted_written, writeScval, tagged_written]
  generalize counted pairs.length (writePairs pairs) = entries
  rw [hcode]
  cases entries <;> simp

/-- Of the values built from its kinds, `write_scval` raises on those with a length that does not
fit 32 bits, and on no others. -/
theorem scval_written (hv : Built fits v) :
    (∃ bytes, writeScval v = some bytes) ↔ Built Fits32 v := by
  induction hv with
  | bool v =>
    refine iff_of_true ((tagged_written _).mpr ?_) (.bool v)
    exact writer_u32 (by cases v <;> decide)
  | void => exact iff_of_true ⟨_, rfl⟩ .void
  | ledgerKeyInstance => exact iff_of_true ⟨_, rfl⟩ .ledgerKeyInstance
  | u32 hv => exact iff_of_true ((tagged_written _).mpr (writer_u32 hv)) (.u32 hv)
  | i32 hv => exact iff_of_true ((tagged_written _).mpr (writer_i32 hv)) (.i32 hv)
  | u64 hv => exact iff_of_true ((tagged_written _).mpr (writer_u64 hv)) (.u64 hv)
  | timepoint hv => exact iff_of_true ((tagged_written _).mpr (writer_u64 hv)) (.timepoint hv)
  | duration hv => exact iff_of_true ((tagged_written _).mpr (writer_u64 hv)) (.duration hv)
  | i64 hv => exact iff_of_true ((tagged_written _).mpr (writer_i64 hv)) (.i64 hv)
  | u128 hv => exact iff_of_true ((tagged_written _).mpr (u128_written _)) (.u128 hv)
  | i128 hv => exact iff_of_true ((tagged_written _).mpr (i128_written _)) (.i128 hv)
  | bytes hv =>
    rw [writeScval, tagged_written, var_written]
    exact ⟨.bytes, fun h => by cases h; assumption⟩
  | string hv =>
    rw [writeScval, tagged_written, var_written]
    exact ⟨.string, fun h => by cases h; assumption⟩
  | symbol hv =>
    rw [writeScval, tagged_written, var_written]
    exact ⟨.symbol, fun h => by cases h; assumption⟩
  | vec hcount hitems ih =>
    rw [writeScval, tagged_written, counted_written, items_written]
    constructor
    · exact fun h => .vec h.1 fun item hitem => (ih item hitem).mp (h.2 item hitem)
    · intro h
      cases h with
      | vec hcount hitems =>
        exact ⟨hcount, fun item hitem => (ih item hitem).mpr (hitems item hitem)⟩
  | map hcount hkeys hvalues ihkeys ihvalues =>
    rw [writeScval, tagged_written, counted_written, pairs_written]
    constructor
    · exact fun h => .map h.1 (fun pair hpair => (ihkeys pair hpair).mp (h.2.1 pair hpair))
        fun pair hpair => (ihvalues pair hpair).mp (h.2.2 pair hpair)
    · intro h
      cases h with
      | map hcount hkeys hvalues =>
        exact ⟨hcount, fun pair hpair => (ihkeys pair hpair).mpr (hkeys pair hpair),
          fun pair hpair => (ihvalues pair hpair).mpr (hvalues pair hpair)⟩
  | address hv => exact iff_of_true ((tagged_written _).mpr (address_written hv)) (.address hv)
  | assetInstance hexecutable =>
    obtain ⟨code, hcode⟩ := executable_written hexecutable
    refine iff_of_true ((tagged_written _).mpr ?_) (.assetInstance hexecutable)
    exact ⟨code ++ beBytes 4 0, by rw [hcode]; rfl⟩
  | storedInstance hexecutable hcount hkeys hvalues ihkeys ihvalues =>
    rw [stored_written (executable_written hexecutable)]
    constructor
    · exact fun h => .storedInstance hexecutable h.1
        (fun pair hpair => (ihkeys pair hpair).mp (h.2.1 pair hpair))
        fun pair hpair => (ihvalues pair hpair).mp (h.2.2 pair hpair)
    · intro h
      cases h with
      | storedInstance _ hcount hkeys hvalues =>
        exact ⟨hcount, fun pair hpair => (ihkeys pair hpair).mpr (hkeys pair hpair),
          fun pair hpair => (ihvalues pair hpair).mpr (hvalues pair hpair)⟩

end Written

/-! ### Ledger entries -/

section Entries
variable {fits : ℕ → Prop} {contract durability xdr : String} {key value : Sc}

theorem durability_code (h : durability ∈ ["temporary", "persistent"]) :
    ∃ code < 2, durabilityCode durability = some code ∧ durabilityName code = some durability := by
  rcases List.mem_pair.mp h with rfl | rfl
  · exact ⟨0, by decide, rfl, rfl⟩
  · exact ⟨1, by decide, rfl, rfl⟩

/-- A ledger entry is decoded to the four fields that were encoded. -/
theorem decode_encode (hcontract : CanonicalAddress contract) (hkey : Built fits key)
    (hvalue : Built fits value) (hdurability : durability ∈ ["temporary", "persistent"])
    (h : encodeContractData contract key durability value = some xdr) :
    decodeContractData xdr = .ok ⟨contract, key, some durability, value⟩ := by
  obtain ⟨code, hlt, hcode, hname⟩ := durability_code hdurability
  simp only [encodeContractData, hcode, Option.bind_eq_bind, Option.bind_eq_some_iff,
    Option.some.injEq, exists_eq_left'] at h
  obtain ⟨address, haddress, keyXdr, hkeyXdr, valueXdr, hvalueXdr, rfl⟩ := h
  have hvalueRead := reads_scval hvalue valueXdr hvalueXdr []
  rw [List.append_nil] at hvalueRead
  rw [decodeContractData, String.toList_ofList, Base64.b64decode_encode]
  show Prod.fst <$> readContractData _ = _
  rw [readContractData, (reads_u32 (by decide)).then, if_neg (fun hne => hne rfl),
    (reads_u32 (by decide)).then, if_neg (fun hne => hne rfl),
    (reads_address hcontract haddress).then, (reads_scval hkey keyXdr hkeyXdr).then,
    (reads_u32 (by omega)).then, Reader.bind_apply, hvalueRead, ok_bind, hname]
  rfl

theorem encode_written (hcontract : CanonicalAddress contract) (hkey : Built Fits32 key)
    (hvalue : Built Fits32 value) (hdurability : durability ∈ ["temporary", "persistent"]) :
    ∃ xdr, encodeContractData contract key durability value = some xdr := by
  obtain ⟨code, -, hcode, -⟩ := durability_code hdurability
  obtain ⟨address, haddress⟩ := address_written hcontract
  obtain ⟨keyXdr, hkeyXdr⟩ := (scval_written hkey).mpr hkey
  obtain ⟨valueXdr, hvalueXdr⟩ := (scval_written hvalue).mpr hvalue
  simp only [encodeContractData, hcode, haddress, hkeyXdr, hvalueXdr, Option.bind_eq_bind,
    Option.bind_some, Option.some.injEq, exists_eq']

end Entries

/-- Reading what was written of a value gives the value and takes all of it, and nothing of what
follows; so a decoded ledger entry is the one that was encoded. Of the values built from its kinds,
`write_scval` raises on none but those with a length of 2^32 or more. -/
theorem scval_roundTrip :
    (∀ (v : Sc) (bytes : Bytes), Built (fun _ => True) v → writeScval v = some bytes →
      ∀ rest, readScval (bytes ++ rest) = .ok (v, rest)) ∧
    (∀ v, Built (fun _ => True) v → ((∃ bytes, writeScval v = some bytes) ↔ Built Fits32 v)) ∧
    ∀ (contract : String) (key : Sc) (durability : String) (value : Sc),
      CanonicalAddress contract → durability ∈ ["temporary", "persistent"] →
      (Built (fun _ => True) key → Built (fun _ => True) value →
        ∀ xdr, encodeContractData contract key durability value = some xdr →
          decodeContractData xdr = .ok ⟨contract, key, some durability, value⟩) ∧
      (Built Fits32 key → Built Fits32 value →
        ∃ xdr, encodeContractData contract key durability value = some xdr) := by
  refine ⟨fun v bytes hv h => reads_scval hv bytes h, fun v hv => scval_written hv, ?_⟩
  intro contract key durability value hcontract hdurability
  constructor
  · exact fun hkey hvalue xdr h => decode_encode hcontract hkey hvalue hdurability h
  · exact fun hkey hvalue => encode_written hcontract hkey hvalue hdurability

/-! ### A balance entry -/

/-- The key of an account's balance. -/
def balanceKey : Sc := .vec (some [.symbol "Balance",
  .address "GAAQCAIBAEAQCAIBAEAQCAIBAEAQCAIBAEAQCAIBAEAQCAIBAEAQDZ7H"])

/-- An amount below zero, and a text of characters of two and of four bytes. -/
def balanceValue : Sc :=
  .map (some [(.symbol "amount", .i128 (-5)), (.symbol "note", .string "é😀")])

def balanceXdr : String :=
  "AAAABgAAAAAAAAABqqqqqqqqqqqqqqqqqqqqqqqqqqqqqqqqqqqqqqqqqqoAAAAQAAAAAQAAAAIAAAAPAAAAB0JhbGFuY" ++
  "2UAAAAAEgAAAAAAAAAAAQEBAQEBAQEBAQEBAQEBAQEBAQEBAQEBAQEBAQEBAQEAAAABAAAAEQAAAAEAAAACAAAADwAAAA" ++
  "ZhbW91bnQAAAAAAAr////////////////////7AAAADwAAAARub3RlAAAADgAAAAbDqfCfmIAAAA=="

section Balance
variable {fits : ℕ → Prop}

theorem balanceKey_built (hfits : ∀ n < 8, fits n) : Built fits balanceKey := by
  refine .vec (hfits 2 (by decide))
    (List.forall_mem_cons.mpr ⟨?_, List.forall_mem_singleton.mpr ?_⟩)
  · exact .symbol (hfits _ (by decide +kernel))
  · exact .address ⟨List.replicate 32 1, by decide, .inl (by decide +kernel)⟩

theorem balanceValue_built (hfits : ∀ n < 8, fits n) : Built fits balanceValue := by
  refine .map (hfits 2 (by decide))
    (List.forall_mem_cons.mpr ⟨?_, List.forall_mem_singleton.mpr ?_⟩)
    (List.forall_mem_cons.mpr ⟨?_, List.forall_mem_singleton.mpr ?_⟩)
  · exact .symbol (hfits _ (by decide +kernel))
  · exact .symbol (hfits _ (by decide +kernel))
  · exact .i128 (by decide)
  · exact .string (hfits _ (by decide +kernel))

end Balance

theorem scval_roundTrip_balance :
    (∃ bytes, writeScval balanceValue = some bytes ∧
      ∀ rest, readScval (bytes ++ rest) = .ok (balanceValue, rest)) ∧
    decodeContractData balanceXdr = .ok ⟨"CCVKVKVKVKVKVKVKVKVKVKVKVKVKVKVKVKVKVKVKVKVKVKVKVKVKUD2U",
      balanceKey, some "persistent", balanceValue⟩ := by
  have hcontract : CanonicalAddress "CCVKVKVKVKVKVKVKVKVKVKVKVKVKVKVKVKVKVKVKVKVKVKVKVKVKUD2U" :=
    ⟨List.replicate 32 0xAA, by decide, .inr (by decide +kernel)⟩
  have hvalue : Built (fun _ => True) balanceValue := balanceValue_built fun _ _ => trivial
  have hshort : Built Fits32 balanceValue := balanceValue_built fun n hn => hn.trans (by decide)
  obtain ⟨bytes, hbytes⟩ := (scval_roundTrip.2.1 balanceValue hvalue).mpr hshort
  refine ⟨⟨bytes, hbytes, scval_roundTrip.1 balanceValue bytes hvalue hbytes⟩, ?_⟩
  exact (scval_roundTrip.2.2 _ balanceKey "persistent" balanceValue hcontract (by decide)).1
    (balanceKey_built fun _ _ => trivial) hvalue balanceXdr (by decide +kernel)

end RefractContracts.Scripts
