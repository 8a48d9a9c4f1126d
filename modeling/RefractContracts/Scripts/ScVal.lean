import RefractContracts.Host.Base64
import RefractContracts.Host.Codec
import RefractContracts.Host.Utf8
import RefractContracts.Scripts.Strkey

/-! The SCVal codec of the state tool: values with a type code and a payload, written and read as
XDR. A value that cannot be written raises (`none`). A reader raises a `SnapshotError`, and any
other exception is a trap. Payloads are Python values of the kind that the type code calls for. -/

namespace RefractContracts.Scripts

open Host

/-- A decoded SCVal. Vectors and maps may be absent, and so may the code hash and the storage of an
instance. -/
inductive Sc where
  | bool (v : Bool)
  | void
  | error (type code : ℕ)
  | u32 (v : ℤ)
  | i32 (v : ℤ)
  | u64 (v : ℤ)
  | i64 (v : ℤ)
  | timepoint (v : ℤ)
  | duration (v : ℤ)
  | u128 (v : ℤ)
  | i128 (v : ℤ)
  | u256 (v : ℤ)
  | i256 (v : ℤ)
  | bytes (v : Bytes)
  | string (v : String)
  | symbol (v : String)
  | vec (v : Option (List Sc))
  | map (v : Option (List (Sc × Sc)))
  | address (v : String)
  | contractInstance (executable : Option String) (storage : Option (List (Sc × Sc)))
  | ledgerKeyInstance
  | nonce (v : ℤ)

@[match_pattern] def tBool : ℕ := 0
@[match_pattern] def tVoid : ℕ := 1
@[match_pattern] def tError : ℕ := 2
@[match_pattern] def tU32 : ℕ := 3
@[match_pattern] def tI32 : ℕ := 4
@[match_pattern] def tU64 : ℕ := 5
@[match_pattern] def tI64 : ℕ := 6
@[match_pattern] def tTimepoint : ℕ := 7
@[match_pattern] def tDuration : ℕ := 8
@[match_pattern] def tU128 : ℕ := 9
@[match_pattern] def tI128 : ℕ := 10
@[match_pattern] def tU256 : ℕ := 11
@[match_pattern] def tI256 : ℕ := 12
@[match_pattern] def tBytes : ℕ := 13
@[match_pattern] def tString : ℕ := 14
@[match_pattern] def tSymbol : ℕ := 15
@[match_pattern] def tVec : ℕ := 16
@[match_pattern] def tMap : ℕ := 17
@[match_pattern] def tAddress : ℕ := 18
@[match_pattern] def tInstance : ℕ := 19
@[match_pattern] def tLedgerKeyInstance : ℕ := 20
@[match_pattern] def tNonce : ℕ := 21

def ledgerEntryContractData : ℕ := 6

/-- `DURABILITY.get(code)`. -/
def durabilityName : ℕ → Option String
  | 0 => some "temporary"
  | 1 => some "persistent"
  | _ => none

/-- `DURABILITY_CODE[durability]`. -/
def durabilityCode (durability : String) : Option ℕ :=
  if durability = "temporary" then some 0 else if durability = "persistent" then some 1 else none

/-! ### Hex -/

def hexValue (c : Char) : Option ℕ :=
  if '0' ≤ c ∧ c ≤ '9' then some (c.toNat - '0'.toNat)
  else if 'a' ≤ c ∧ c ≤ 'f' then some (c.toNat - 'a'.toNat + 10)
  else if 'A' ≤ c ∧ c ≤ 'F' then some (c.toNat - 'A'.toNat + 10)
  else none

/-- A blank of ASCII. -/
def isAsciiSpace (c : Char) : Bool := c = ' ' ∨ (9 ≤ c.toNat ∧ c.toNat ≤ 13)

/-- `bytes.fromhex`; blanks may stand between two bytes. -/
def fromHex : List Char → Option Bytes
  | [] => some []
  | [c] => if isAsciiSpace c then some [] else none
  | c :: d :: s =>
    if isAsciiSpace c then fromHex (d :: s)
    else do
      let top ← hexValue c
      let bot ← hexValue d
      let rest ← fromHex s
      some (.ofNat (16 * top + bot) :: rest)

/-- `bytes.hex`. -/
def toHex (data : Bytes) : String := .ofList (data.flatMap hexByte)

/-! ### Writing -/

/-- `struct.pack` of an unsigned integer of `k` bytes. -/
def packUnsigned (k : ℕ) (n : ℤ) : Option Bytes :=
  if 0 ≤ n ∧ n < 256 ^ k then some (beBytes k n.toNat) else none

/-- `struct.pack` of a signed one. -/
def packSigned (k : ℕ) (n : ℤ) : Option Bytes :=
  if -(256 ^ k) ≤ 2 * n ∧ 2 * n < 256 ^ k then some (beBytes k (n % 256 ^ k).toNat) else none

namespace Writer

def u32 (n : ℤ) : Option Bytes := packUnsigned 4 n
def i32 (n : ℤ) : Option Bytes := packSigned 4 n
def u64 (n : ℤ) : Option Bytes := packUnsigned 8 n
def i64 (n : ℤ) : Option Bytes := packSigned 8 n

/-- Bytes with their length before them, padded to a multiple of four. -/
def var (data : Bytes) : Option Bytes := do
  let length ← u32 data.length
  some (length ++ (data ++ List.replicate ((4 - data.length % 4) % 4) 0))

end Writer

def writeAddress (strkey : String) : Option Bytes := do
  let (version, payload) ← strkeyDecode strkey
  if version = versionAccount then
    some (beBytes 4 scAddressTypeAccount ++ (beBytes 4 publicKeyTypeEd25519 ++ payload))
  else if version = versionContract then some (beBytes 4 scAddressTypeContract ++ payload)
  else none

/-- The halves of the 128 low bits; shifts and masks of a Python integer round down. -/
def splitU128 (n : ℤ) : ℤ × ℤ := (n / 2 ^ 64 % 2 ^ 64, n % 2 ^ 64)

def writeU128 (v : ℤ) : Option Bytes := do
  let (hi, lo) := splitU128 v
  let high ← Writer.u64 hi
  let low ← Writer.u64 lo
  some (high ++ low)

def writeI128 (v : ℤ) : Option Bytes := do
  let (hi, lo) := splitU128 (v % 2 ^ 128)
  let high ← Writer.i64 (if hi ≥ 2 ^ 63 then hi - 2 ^ 64 else hi)
  let low ← Writer.u64 lo
  some (high ++ low)

/-- No code hash is the executable of a Stellar asset. -/
def writeExecutable : Option String → Option Bytes
  | none => some (beBytes 4 1)
  | some executable => do
    let hash ← fromHex executable.toList
    some (beBytes 4 0 ++ hash)

/-- The type code and what follows it. -/
def tagged (t : ℕ) (payload : Option Bytes) : Option Bytes := payload.map (beBytes 4 t ++ ·)

/-- A number of values, after the flag that they are present. -/
def counted (count : ℕ) (body : Option Bytes) : Option Bytes := do
  let length ← Writer.u32 count
  let values ← body
  some (beBytes 4 1 ++ (length ++ values))

mutual

def writeScval : Sc → Option Bytes
  | .bool v => tagged tBool (Writer.u32 (if v then 1 else 0))
  | .void => tagged tVoid (some [])
  | .ledgerKeyInstance => tagged tLedgerKeyInstance (some [])
  | .u32 v => tagged tU32 (Writer.u32 v)
  | .i32 v => tagged tI32 (Writer.i32 v)
  | .u64 v => tagged tU64 (Writer.u64 v)
  | .timepoint v => tagged tTimepoint (Writer.u64 v)
  | .duration v => tagged tDuration (Writer.u64 v)
  | .i64 v => tagged tI64 (Writer.i64 v)
  | .u128 v => tagged tU128 (writeU128 v)
  | .i128 v => tagged tI128 (writeI128 v)
  | .bytes v => tagged tBytes (Writer.var v)
  | .string v => tagged tString (Writer.var (encode v))
  | .symbol v => tagged tSymbol (Writer.var (encode v))
  | .vec none => none
  | .vec (some items) => tagged tVec (counted items.length (writeItems items))
  | .map none => none
  | .map (some pairs) => tagged tMap (counted pairs.length (writePairs pairs))
  | .address v => tagged tAddress (writeAddress v)
  | .contractInstance executable none => tagged tInstance (do
    let code ← writeExecutable executable
    some (code ++ beBytes 4 0))
  | .contractInstance executable (some storage) => tagged tInstance (do
    let code ← writeExecutable executable
    let entries ← counted storage.length (writePairs storage)
    some (code ++ entries))
  | .error _ _ => none
  | .u256 _ => none
  | .i256 _ => none
  | .nonce _ => none

def writeItems : List Sc → Option Bytes
  | [] => some []
  | item :: items => do
    let first ← writeScval item
    let rest ← writeItems items
    some (first ++ rest)

def writePairs : List (Sc × Sc) → Option Bytes
  | [] => some []
  | (key, item) :: pairs => do
    let first ← writeScval key
    let second ← writeScval item
    let rest ← writePairs pairs
    some (first ++ second ++ rest)

end

/-! ### Reading -/

abbrev XdrReader (α : Type) := Reader UInt8 String α

def truncated : String := "truncated XDR"

namespace XdrReader

def take (n : ℕ) : XdrReader Bytes := Reader.take n truncated

/-- `struct.unpack` of a signed integer of `k` bytes. -/
def unpackSigned (k n : ℕ) : ℤ := if 256 ^ k ≤ 2 * n then n - 256 ^ k else n

def unsigned (k : ℕ) : XdrReader ℕ := do
  let data ← take k
  pure (beValue data)

def signed (k : ℕ) : XdrReader ℤ := do
  let n ← unsigned k
  pure (unpackSigned k n)

def u32 : XdrReader ℕ := unsigned 4
def i32 : XdrReader ℤ := signed 4
def u64 : XdrReader ℕ := unsigned 8
def i64 : XdrReader ℤ := signed 8

def var : XdrReader Bytes := do
  let n ← u32
  let out ← take n
  let _ ← take ((4 - n % 4) % 4)
  pure out

def done : XdrReader Unit := fun data =>
  if data = [] then .ok ((), []) else .error (.error "trailing bytes after XDR value")

end XdrReader

open XdrReader

def readAddress : XdrReader String := do
  let kind ← u32
  if kind = scAddressTypeAccount then
    let key ← u32
    if key ≠ publicKeyTypeEd25519 then Reader.fail "unsupported public key type"
    else
      let payload ← take 32
      pure (strkeyEncode versionAccount payload)
  else if kind = scAddressTypeContract then
    let payload ← take 32
    pure (strkeyEncode versionContract payload)
  else Reader.fail s!"unsupported SCAddress type {kind}"

def readExecutable : XdrReader (Option String) := do
  let kind ← u32
  if kind = 0 then
    let hash ← take 32
    pure (some (toHex hash))
  else pure none

section Payload
variable (item : XdrReader Sc)

def readPair : XdrReader (Sc × Sc) := do
  let key ← item
  let value ← item
  pure (key, value)

/-- A number of values, if the flag says that they are present. -/
def readCounted {α : Type} (p : XdrReader α) : XdrReader (Option (List α)) := do
  let present ← u32
  if present = 0 then pure none
  else
    let count ← u32
    let values ← Reader.times p count
    pure (some values)

/-- What follows a type code; `item` reads the values within. -/
def readPayload : ℕ → XdrReader Sc
  | tBool => do
    let n ← u32
    pure (.bool (n ≠ 0))
  | tVoid => pure .void
  | tLedgerKeyInstance => pure .ledgerKeyInstance
  | tError => do
    let type ← u32
    let code ← u32
    pure (.error type code)
  | tU32 => do
    let n ← u32
    pure (.u32 n)
  | tI32 => do
    let n ← i32
    pure (.i32 n)
  | tU64 => do
    let n ← u64
    pure (.u64 n)
  | tTimepoint => do
    let n ← u64
    pure (.timepoint n)
  | tDuration => do
    let n ← u64
    pure (.duration n)
  | tI64 => do
    let n ← i64
    pure (.i64 n)
  | tU128 => do
    let hi ← u64
    let lo ← u64
    pure (.u128 ((hi <<< 64 ||| lo : ℕ) : ℤ))
  | tI128 => do
    let hi ← i64
    let lo ← u64
    pure (.i128 (hi * 2 ^ 64 + lo))
  | tU256 => do
    let a ← u64
    let b ← u64
    let c ← u64
    let d ← u64
    pure (.u256 ((a <<< 192 ||| b <<< 128 ||| c <<< 64 ||| d : ℕ) : ℤ))
  | tI256 => do
    let a ← i64
    let b ← u64
    let c ← u64
    let d ← u64
    pure (.i256 (a * 2 ^ 192 + ((b <<< 128 ||| c <<< 64 ||| d : ℕ) : ℤ)))
  | tBytes => do
    let data ← var
    pure (.bytes data)
  | tString => do
    let data ← var
    pure (.string (Utf8.decodeReplace data))
  | tSymbol => do
    let data ← var
    pure (.symbol (Utf8.decodeReplace data))
  | tVec => do
    let items ← readCounted item
    pure (.vec items)
  | tMap => do
    let pairs ← readCounted (readPair item)
    pure (.map pairs)
  | tAddress => do
    let strkey ← readAddress
    pure (.address strkey)
  | tInstance => do
    let executable ← readExecutable
    let storage ← readCounted (readPair item)
    pure (.contractInstance executable storage)
  | tNonce => do
    let n ← i64
    pure (.nonce n)
  | t => Reader.fail s!"unsupported SCVal type {t}"

/-- One call of `read_scval`, with its inner calls to `item`. -/
def readTagged : XdrReader Sc := do
  let t ← u32
  readPayload item t

end Payload

/-- A value takes at least its type code, so no input leads to deeper calls than it has bytes. -/
def readScval : XdrReader Sc := Reader.recursive truncated readTagged

/-! ### Ledger entries -/

/-- The fields of a contract-data entry: contract, key, durability and value. -/
structure ContractData where
  contract : String
  key : Sc
  durability : Option String
  value : Sc

def encodeContractData (contract : String) (key : Sc) (durability : String) (value : Sc) :
    Option String := do
  let address ← writeAddress contract
  let keyXdr ← writeScval key
  let code ← durabilityCode durability
  let valueXdr ← writeScval value
  some (.ofList (Base64.b64encode (beBytes 4 ledgerEntryContractData ++ (beBytes 4 0 ++ (address ++
    (keyXdr ++ (beBytes 4 code ++ valueXdr)))))))

def readContractData : XdrReader ContractData := do
  let entry ← u32
  if entry ≠ ledgerEntryContractData then Reader.fail "ledger entry is not contract data"
  else
    let extension ← u32
    if extension ≠ 0 then Reader.fail "unsupported ContractDataEntry extension"
    else
      let contract ← readAddress
      let key ← readScval
      let code ← u32
      let value ← readScval
      let _ ← done
      pure ⟨contract, key, durabilityName code, value⟩

def decodeContractData (xdr : String) : Outcome String ContractData :=
  match Base64.b64decode xdr.toList with
  | none => .error .trap
  | some data => Prod.fst <$> readContractData data

end RefractContracts.Scripts
