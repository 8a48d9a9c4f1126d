import RefractContracts.Host.Base64
import RefractContracts.Host.Framing
import RefractContracts.Host.JsonText
import RefractContracts.Scripts.Json
import RefractContracts.Scripts.ScVal

/-! The interface specifications of the contracts: the custom sections of a wasm module, the
entries in its `contractspecv0` section, and the artifact that is committed for it. An error is a
`SpecError`; any other exception of Python, an invalid text among them, is a trap. -/

namespace RefractContracts.Specs

open Host Scripts

/-! ### Sections -/

/-- `data.decode("utf-8")`. -/
def decodeUtf8 (data : Bytes) : Outcome String String :=
  match String.fromUTF8? ⟨data.toArray⟩ with
  | some s => .ok s
  | none => .error .trap

/-- Groups of seven bits, the lowest first; they do not overlap, so that `|` adds them. -/
def leb128 : XdrReader ℕ
  | [] => .error (.error "truncated LEB128 value")
  | byte :: rest =>
    if byte.toNat / 128 = 0 then .ok (byte.toNat, rest)
    else do
      let (high, rest) ← leb128 rest
      .ok (byte.toNat % 128 + 128 * high, rest)

/-- One section: its name and content if it is a custom one. The length of the name and the name
are read without regard to the end of the section. -/
def readSection : XdrReader (Option (String × Bytes))
  | [] => .error .trap
  | id :: s => do
    let (size, s) ← leb128 s
    if s.length < size then .error (.error "truncated wasm section")
    else if id = 0 then do
      let (nameLen, p) ← leb128 s
      let name ← decodeUtf8 (p.take nameLen)
      .ok (some (name, (s.take size).drop (s.length - p.length + nameLen)), s.drop size)
    else .ok (none, s.drop size)

/-- `b"\0asm"`. -/
def magic : Bytes := [0, 97, 115, 109]

/-- `sections[name] = sections.get(name, b"") + content`. -/
def joinSection (sections : Dict String Bytes) (part : String × Bytes) : Dict String Bytes :=
  sections.insert part.1 ((sections.get? part.1).getD [] ++ part.2)

/-- The contents of the custom sections by name; those of one name are joined. -/
def customSections (wasm : Bytes) : Outcome String (Dict String Bytes) :=
  if wasm.take 4 ≠ magic then .error (.error "not a wasm module")
  else do
    let found ← Reader.all readSection (wasm.drop 8)
    .ok ((found.filterMap id).foldl joinSection .empty)

/-! ### Types -/

/-- The reader's `opaque`: the padding may be cut off by the end of the data. -/
def opaqueData : XdrReader Bytes := do
  let n ← XdrReader.u32
  let value ← XdrReader.take n
  let _ ← Reader.skip ((4 - n % 4) % 4)
  pure value

def string : XdrReader String := do
  let value ← opaqueData
  fun rest => do
    let s ← decodeUtf8 value
    .ok (s, rest)

def array {α : Type} (read : XdrReader α) : XdrReader (List α) := do
  let n ← XdrReader.u32
  Reader.times read n

/-- `PRIMITIVES`. -/
def primitives : List (ℕ × String) :=
  [(0, "Val"), (1, "bool"), (2, "()"), (3, "Error"), (4, "u32"), (5, "i32"), (6, "u64"), (7, "i64"),
    (8, "Timepoint"), (9, "Duration"), (10, "u128"), (11, "i128"), (12, "U256"), (13, "I256"),
    (14, "Bytes"), (16, "String"), (17, "Symbol"), (19, "Address"), (20, "MuxedAddress")]

/-- What follows a type code; `read` reads the types within. -/
def readTypeBody (read : XdrReader String) (t : ℕ) : XdrReader String :=
  match primitives.lookup t with
  | some name => pure name
  | none =>
    if t = 1000 then do
      let value ← read
      pure s!"Option<{value}>"
    else if t = 1001 then do
      let ok ← read
      let err ← read
      pure s!"Result<{ok}, {err}>"
    else if t = 1002 then do
      let element ← read
      pure s!"Vec<{element}>"
    else if t = 1004 then do
      let k ← read
      let v ← read
      pure s!"Map<{k}, {v}>"
    else if t = 1005 then do
      let elements ← array read
      pure ("(" ++ ", ".intercalate elements ++ ")")
    else if t = 1006 then do
      let n ← XdrReader.u32
      pure s!"BytesN<{n}>"
    else if t = 2000 then string
    else Reader.fail s!"unknown spec type {t}; update scripts/contract_specs.py"

def readTypeCode (read : XdrReader String) : XdrReader String := do
  let t ← XdrReader.u32
  readTypeBody read t

def readType : XdrReader String := Reader.recursive truncated readTypeCode

/-! ### Entries -/

/-- A named input of a function or field of a struct, with its type. -/
structure Named (τ : Type) where
  doc : String
  name : String
  type : τ
  deriving DecidableEq

structure UnionCase (τ : Type) where
  doc : String
  name : String
  types : Option (List τ)
  deriving DecidableEq

structure EnumCase where
  doc : String
  name : String
  value : ℕ
  deriving DecidableEq

/-- An entry of a specification, its types written as `τ`. -/
inductive Entry (τ : Type) where
  | function (doc name : String) (inputs : List (Named τ)) (outputs : List τ)
  | struct (doc lib name : String) (fields : List (Named τ))
  | union (doc lib name : String) (cases : List (UnionCase τ))
  | enum (errors : Bool) (doc lib name : String) (cases : List EnumCase)
  deriving DecidableEq

section Read
variable {τ : Type} (read : XdrReader τ)

def readNamed : XdrReader (Named τ) := do
  let doc ← string
  let name ← string
  let type ← read
  pure ⟨doc, name, type⟩

def readUnionCase : XdrReader (UnionCase τ) := do
  let kind ← XdrReader.u32
  let doc ← string
  let name ← string
  if kind = 1 then
    let types ← array read
    pure ⟨doc, name, some types⟩
  else if kind ≠ 0 then Reader.fail s!"unknown union case kind {kind}"
  else pure ⟨doc, name, none⟩

def readEnumCase : XdrReader EnumCase := do
  let doc ← string
  let name ← string
  let value ← XdrReader.u32
  pure ⟨doc, name, value⟩

/-- What follows the kind of an entry. -/
def readEntryBody (kind : ℕ) : XdrReader (Entry τ) :=
  if kind = 0 then do
    let doc ← string
    let name ← string
    let inputs ← array (readNamed read)
    let outputs ← array read
    pure (.function doc name inputs outputs)
  else if kind = 1 then do
    let doc ← string
    let lib ← string
    let name ← string
    let fields ← array (readNamed read)
    pure (.struct doc lib name fields)
  else if kind = 2 then do
    let doc ← string
    let lib ← string
    let name ← string
    let cases ← array (readUnionCase read)
    pure (.union doc lib name cases)
  else if kind = 3 ∨ kind = 4 then do
    let doc ← string
    let lib ← string
    let name ← string
    let cases ← array readEnumCase
    pure (.enum (kind = 4) doc lib name cases)
  else Reader.fail s!"unknown spec entry kind {kind}; update scripts/contract_specs.py"

/-- An entry, its types read by `read`. -/
def readEntry : XdrReader (Entry τ) := do
  let kind ← XdrReader.u32
  readEntryBody read kind

end Read

/-- An entry with its own XDR in base64. -/
structure SpecEntry where
  entry : Entry String
  xdr : String
  deriving DecidableEq

def decodeSpec (data : Bytes) : Outcome String (List SpecEntry) := do
  let entries ← Reader.all (Reader.captured (readEntry readType)) data
  .ok (entries.map fun e => ⟨e.1, .ofList (Base64.b64encode e.2)⟩)

def readMeta : XdrReader (String × String) := do
  let kind ← XdrReader.u32
  if kind ≠ 0 then Reader.fail s!"unknown contract meta kind {kind}"
  else
    let key ← string
    let value ← string
    pure (key, value)

def decodeMeta (data : Bytes) : Outcome String (Dict String String) := do
  let entries ← Reader.all readMeta data
  .ok (.ofList entries)

end RefractContracts.Specs
