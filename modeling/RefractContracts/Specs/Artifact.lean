import RefractContracts.Host.Crash
import RefractContracts.Host.JsonWhole
import RefractContracts.Scripts.Commitment
import RefractContracts.Specs.Format

/-! The artifacts of the contracts and the directory they are committed in. `generate` builds all
artifacts anew, compares the version of each with that of the committed one, and writes the files
one after the other, so that it may be cut off between two files or within one; `check` only
compares. -/

namespace RefractContracts.Specs

open Host Scripts JsonText

/-! ### The entries of an artifact -/

section Json

def Named.json (n : Named String) : Value :=
  .obj [("doc", .str n.doc), ("name", .str n.name), ("type", .str n.type)]

def UnionCase.json (c : UnionCase String) : Value :=
  .obj ([("doc", .str c.doc), ("name", .str c.name)] ++
    match c.types with
    | none => []
    | some types => [("types", .arr (types.map .str))])

def EnumCase.json (c : EnumCase) : Value :=
  .obj [("doc", .str c.doc), ("name", .str c.name), ("value", .int c.value)]

def Entry.members : Entry String → List (String × Value)
  | .function doc name inputs outputs =>
    [("kind", .str "function"), ("doc", .str doc), ("name", .str name),
      ("inputs", .arr (inputs.map Named.json)), ("outputs", .arr (outputs.map .str))]
  | .struct doc lib name fields =>
    [("kind", .str "struct"), ("doc", .str doc), ("lib", .str lib), ("name", .str name),
      ("fields", .arr (fields.map Named.json))]
  | .union doc lib name cases =>
    [("kind", .str "union"), ("doc", .str doc), ("lib", .str lib), ("name", .str name),
      ("cases", .arr (cases.map UnionCase.json))]
  | .enum errors doc lib name cases =>
    [("kind", .str (if errors then "error_enum" else "enum")), ("doc", .str doc), ("lib", .str lib),
      ("name", .str name), ("cases", .arr (cases.map EnumCase.json))]

def SpecEntry.json (e : SpecEntry) : Value := .obj (e.entry.members ++ [("xdr", .str e.xdr)])

end Json

/-- `KIND_ORDER`. -/
def Entry.kindOrder {τ : Type} : Entry τ → ℕ
  | .function .. => 0
  | .struct .. => 1
  | .union .. => 2
  | .enum errors .. => if errors then 4 else 3

def Entry.name {τ : Type} : Entry τ → String
  | .function _ name _ _ => name
  | .struct _ _ name _ => name
  | .union _ _ name _ => name
  | .enum _ _ _ name _ => name

/-- By kind, then by name. -/
def Precedes (a b : SpecEntry) : Prop :=
  toLex (a.entry.kindOrder, a.entry.name) ≤ toLex (b.entry.kindOrder, b.entry.name)

instance : DecidableRel Precedes := fun _ _ => inferInstanceAs (Decidable (_ ≤ _))

def normalize (entries : List SpecEntry) : List SpecEntry := entries.insertionSort Precedes

/-- The keys that `_strip` leaves out. -/
def stripped (k : String) : Bool := k = "doc" ∨ k = "xdr"

def canonicalText (entries : List SpecEntry) : String :=
  .ofList
    (compact.dumps 0 (Value.canonical stripped (.arr ((normalize entries).map SpecEntry.json))))

def interfaceHash (sha256 : Bytes → Digest32) (entries : List SpecEntry) : String :=
  hexdigest (sha256 (encode (canonicalText entries)))

/-! ### Artifacts -/

instance : Std.Total Precedes := ⟨fun _ _ => le_total _ _⟩

instance : IsTrans SpecEntry Precedes := ⟨fun _ _ _ => le_trans⟩

/-- What a file is rendered from. -/
structure Artifact (sha256 : Bytes → Digest32) where
  contract : String
  package : String
  crateVersion : String
  interfaceVersion : ℤ
  entries : List SpecEntry
  ordered : entries.Pairwise Precedes
  deriving DecidableEq

def Artifact.ofEntries {sha256 : Bytes → Digest32} (contract package crateVersion : String)
    (interfaceVersion : ℤ) (entries : List SpecEntry) : Artifact sha256 :=
  { contract, package, crateVersion, interfaceVersion
    entries := normalize entries
    ordered := List.pairwise_insertionSort _ _ }

def Artifact.interfaceHash {sha256 : Bytes → Digest32} (a : Artifact sha256) : String :=
  Specs.interfaceHash sha256 a.entries

/-- The part of Python's texts that is not spelled out: `isdigit` of a character, its value as a
decimal digit, and `repr`. -/
structure PyText where
  isDigit : Char → Bool
  decimal : Char → Option ℕ
  repr : String → String

def specSection : String := "contractspecv0"

def metaSection : String := "contractmetav0"

def versionMetaKey : String := "refract_iface"

section Build
variable (sha256 : Bytes → Digest32) (py : PyText)

def buildArtifact (contract package crateVersion : String) (wasm : Bytes) :
    Outcome String (Artifact sha256) := do
  let sections ← customSections wasm
  match sections.get? specSection with
  | none => .error (.error s!"{contract}: wasm has no {specSection} section")
  | some spec => do
    let contractMeta ← decodeMeta ((sections.get? metaSection).getD [])
    match contractMeta.get? versionMetaKey with
    | none => .error (.error (s!"{contract}: no `{versionMetaKey}` contract meta. Add " ++
        s!"`soroban_sdk::contractmeta!(key = \"{versionMetaKey}\", val = \"1\");` to the crate."))
    | some rawVersion =>
      if rawVersion.toList ≠ [] ∧ rawVersion.toList.all py.isDigit then do
        let entries ← decodeSpec spec
        match intOfText py.decimal rawVersion with
        | none => .error .trap
        | some version => .ok (.ofEntries contract package crateVersion version entries)
      else .error (.error (s!"{contract}: `{versionMetaKey}` must be a positive integer, got " ++
        py.repr rawVersion))

/-- A workspace contract as `cargo metadata` has it. -/
structure WasmContract where
  package : String
  version : String
  file : String
  source : String

/-- The workspace contracts and the files that were built. -/
structure Build where
  contracts : List WasmContract
  read : String → Option Bytes

/-- The name of the wasm file without its extension. -/
def WasmContract.contract (c : WasmContract) : String :=
  .ofList (c.file.toList.take (c.file.toList.length - 5))

def WasmContract.fileName (c : WasmContract) : String := c.contract ++ ".json"

def freshArtifact (read : String → Option Bytes) (c : WasmContract) :
    Outcome String (Artifact sha256) :=
  match read c.source with
  | none => .error (.error (s!"{c.source} not found. Did `cargo build --target " ++
      s!"wasm32-unknown-unknown --release` succeed for {c.package}?"))
  | some wasm => buildArtifact sha256 py c.contract c.package c.version wasm

def freshArtifacts (b : Build) : Outcome String (Dict String (Artifact sha256)) := do
  let artifacts ← b.contracts.foldlM (fun artifacts c => do
    let artifact ← freshArtifact sha256 py b.read c
    .ok (artifacts.insert c.fileName artifact)) .empty
  if artifacts.entries = [] then .error (.error "no workspace contracts found")
  else .ok artifacts

end Build

/-! ### Files -/

section Files
variable {sha256 : Bytes → Digest32}

def schemaVersion : ℤ := 1

def Artifact.json (a : Artifact sha256) : Value :=
  .obj [("schema_version", .int schemaVersion), ("contract", .str a.contract),
    ("package", .str a.package), ("crate_version", .str a.crateVersion),
    ("interface_version", .int a.interfaceVersion), ("interface_hash", .str a.interfaceHash),
    ("entries", .arr (a.entries.map SpecEntry.json))]

def render (a : Artifact sha256) : String :=
  .ofList (indented.dumps 0 a.json.sortKeys ++ ['\n'])

/-- `json.loads`. -/
def loadJson (text : String) : Outcome String Value :=
  match loads text.toList with
  | none => .error .trap
  | some v => .ok v

/-- `old[key]`. -/
def subscript (old : Value) (key : String) : Outcome String Value :=
  match old.last? key with
  | none => .error .trap
  | some v => .ok v

/-- What is compared with a version, as a number and as it is printed. -/
def comparable : Value → Outcome String (ℤ × String)
  | .int n => .ok (n, toString n)
  | .bool b => .ok (if b then (1, "True") else (0, "False"))
  | _ => .error .trap

/-- `v == text`. -/
def isText (v : Value) (text : String) : Bool :=
  match v with
  | .str s => s = text
  | _ => false

/-- Why `new` may not replace `old`. -/
def versionProblem (old : Option Value) (new : Artifact sha256) :
    Outcome String (Option String) :=
  match old with
  | none | some .null => .ok none
  | some old => do
    let version ← subscript old "interface_version"
    let version ← comparable version
    if new.interfaceVersion < version.1 then
      .ok (some (s!"{new.contract}: interface_version went down " ++
        s!"({version.2} -> {new.interfaceVersion})"))
    else do
      let hash ← subscript old "interface_hash"
      if ¬ isText hash new.interfaceHash ∧ new.interfaceVersion = version.1 then
        .ok (some (s!"{new.contract}: the interface changed but `{versionMetaKey}` is still " ++
          s!"{new.interfaceVersion}. Bump it in the crate's contractmeta! " ++
          "(see specs/README.md)."))
      else .ok none

/-- The first characters of a text. -/
def cutText (n : ℕ) (text : String) : String := .ofList (text.toList.take n)

/-- Any line end as a line feed; `after` is whether a carriage return came before. -/
def translateNewlines (after : Bool) : List Char → List Char
  | [] => []
  | c :: s =>
    if c = '\r' then '\n' :: translateNewlines true s
    else if c = '\n' ∧ after then translateNewlines false s
    else c :: translateNewlines false s

/-- `f.read()` of a file that is opened as text. -/
def readText (content : String) : String := .ofList (translateNewlines false content.toList)

end Files

/-- The files of the directory that end in `.json`, with their contents. -/
abbrev Directory := Dict String String

/-- What is read of the files. -/
def loadCommitted (d : Directory) : Dict String String := d.mapValues readText

section Directory
variable {sha256 : Bytes → Digest32}

/-- `json.loads(committed[name]) if name in committed else None`. -/
def loadOld (committed : Dict String String) (name : String) : Outcome String (Option Value) :=
  match committed.get? name with
  | none => .ok none
  | some text => do
    let old ← loadJson text
    .ok (some old)

def fileProblem (committed : Dict String String) (e : String × Artifact sha256) :
    Outcome String (Option String) := do
  let old ← loadOld committed e.1
  versionProblem old e.2

def versionProblems (committed : Dict String String) (fresh : Dict String (Artifact sha256)) :
    Outcome String (List String) := do
  let problems ← fresh.entries.mapM (fileProblem committed)
  .ok (problems.filterMap id)

/-! ### Commands -/

/-- `f.write(text)`; cut off within it, the file has its first `kept` characters. -/
def writeFile (kept : ℕ) (name text : String) : Script Directory String Unit :=
  Script.write (fun d => (d.insert name text, .ok ())) fun d => d.insert name (cutText kept text)

def removeFile (name : String) : Script Directory String Unit :=
  Script.write (fun d => (d.erase name, .ok ())) id

/-- The committed files that no contract builds any more, in their order. -/
def removed (committed : Dict String String) (fresh : Dict String (Artifact sha256)) :
    List String :=
  ((committed.entries.map Prod.fst).filter fun name =>
    name ∉ fresh.entries.map Prod.fst).insertionSort (· ≤ ·)

def generate (sha256 : Bytes → Digest32) (py : PyText) (b : Build) (kept : ℕ) :
    Script Directory String Unit := do
  let fresh ← Method.check (freshArtifacts sha256 py b)
  let committed ← Script.look fun d => .ok (loadCommitted d)
  let problems ← Method.check (versionProblems committed fresh)
  if problems ≠ [] then
    Method.check (.error (.error ("error:\n  " ++ "\n  ".intercalate problems)))
  else do
    fresh.entries.foldlM (fun _ e => writeFile kept e.1 (render e.2)) ()
    (removed committed fresh).foldlM (fun _ name => removeFile name) ()

/-- A line of the report; that a file differs comes with the difference, which is left out. -/
inductive Line where
  | missing (name : String)
  | stale (name : String)
  | version (problem : String)
  | ok (name : String)
  | differs (name : String)
  deriving DecidableEq

def Line.isOk : Line → Bool
  | .ok _ => true
  | _ => false

def checkFile (committed : Dict String String) (fresh : Dict String (Artifact sha256))
    (name : String) : Outcome String (List Line) :=
  match committed.get? name, fresh.get? name with
  | none, _ => .ok [.missing name]
  | some _, none => .ok [.stale name]
  | some text, some artifact => do
    let old ← loadJson text
    let problem ← versionProblem (some old) artifact
    .ok ((problem.map Line.version).toList ++
      [if render artifact = text then .ok name else .differs name])

/-- The report, and whether all is up to date. -/
def checkReport (sha256 : Bytes → Digest32) (py : PyText) (b : Build) (d : Directory) :
    Outcome String (List Line) := do
  let fresh ← freshArtifacts sha256 py b
  let committed := loadCommitted d
  let names := (fresh.entries.map Prod.fst ∪ committed.entries.map Prod.fst).insertionSort (· ≤ ·)
  let lines ← names.mapM (checkFile committed fresh)
  .ok lines.flatten

def check (sha256 : Bytes → Digest32) (py : PyText) (b : Build) (d : Directory) :
    Outcome String (List Line) := do
  let report ← checkReport sha256 py b d
  if report.all Line.isOk then .ok report
  else .error (.error ("error: specs/ is out of date. Run `python3 " ++
    "scripts/contract_specs.py generate` and commit the result."))

end Directory

end RefractContracts.Specs
