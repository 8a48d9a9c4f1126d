import RefractContracts.Host.Dict
import RefractContracts.Scripts.FeeBump
import RefractContracts.Xtask.Schema

/-! Loading a captured ledger snapshot. The entries are sorted by contract and key, their rows are
hashed, and a file is loaded if its hash is that of its entries and each entry has XDR. The values
are collected in a map, so an entry is lost if a later one has its contract and key: every entry is
kept exactly if no contract and key come twice. -/

namespace RefractContracts.SnapshotHarness

open Host Scripts

/-! ### Snapshots -/

def schema : ℕ := 1

def version : String := "1"

@[ext]
structure Entry where
  contract : String
  key : String
  value : I128
  xdr : String
  deriving DecidableEq

/-- What the entries are sorted by and found under. -/
def Entry.place (e : Entry) : String × String := (e.contract, e.key)

structure SnapshotFile where
  schema : ℕ
  version : String
  network : String
  ledgerSequence : ℕ
  closeTime : ℕ
  hash : String
  entries : List Entry

structure LoadedSnapshot where
  network : String
  ledgerSequence : ℕ
  closeTime : ℕ
  values : Dict (String × String) I128

inductive LoadError where
  | schemaMismatch (found : ℕ)
  | versionMismatch (found : String)
  | badHash
  | badXdr (contract key : String)
  deriving DecidableEq

/-! ### The content -/

/-- A stable sort. -/
def sorted (entries : List Entry) : List Entry :=
  entries.insertionSort fun a b => toLex a.place ≤ toLex b.place

def Entry.row (e : Entry) : String :=
  e.contract ++ "\t" ++ e.key ++ "\t" ++ toString e.value.1 ++ "\t" ++ e.xdr

def canonicalText (entries : List Entry) : String :=
  "\n".intercalate ((sorted entries).map Entry.row)

def canonicalBytes (entries : List Entry) : Bytes := encode (canonicalText entries)

def hexEncode (bytes : Bytes) : String := .ofList (bytes.flatMap hexByte)

def contentHash (sha256 : Bytes → Digest32) (entries : List Entry) : String :=
  hexEncode (sha256 (canonicalBytes entries)).toList

/-! ### Loading -/

section Load
variable (sha256 : Bytes → Digest32) (decode : String → Option Bytes)

/-- The value beside the XDR, which has to be base64 of at least one byte. -/
def decodeEntry (e : Entry) : Outcome LoadError I128 := do
  let decoded ← okOr (decode (Xtask.trim e.xdr)) (.badXdr e.contract e.key)
  bail (decoded = []) (.badXdr e.contract e.key)
  return e.value

def insertEntry (values : Dict (String × String) I128) (e : Entry) :
    Outcome LoadError (Dict (String × String) I128) := do
  let value ← decodeEntry decode e
  return values.insert e.place value

def load (file : SnapshotFile) : Outcome LoadError LoadedSnapshot := do
  bail (file.schema ≠ schema) (.schemaMismatch file.schema)
  bail (file.version ≠ version) (.versionMismatch file.version)
  bail (file.hash ≠ contentHash sha256 file.entries) .badHash
  let values ← (sorted file.entries).foldlM (insertEntry decode) .empty
  return ⟨file.network, file.ledgerSequence, file.closeTime, values⟩

/-- The file as it is written: sorted, with the hash of its entries. -/
def toFile (snapshot : SnapshotFile) : SnapshotFile :=
  { snapshot with
    entries := sorted snapshot.entries
    hash := contentHash sha256 (sorted snapshot.entries) }

/-- The value under a contract and key; it panics without one. -/
def value (loaded : LoadedSnapshot) (contract key : String) : Outcome LoadError I128 :=
  match loaded.values.get? (contract, key) with
  | some v => .ok v
  | none => .error .trap

end Load

/-! ### What is loaded -/

section Loaded
variable {sha256 : Bytes → Digest32} {decode : String → Option Bytes} {file : SnapshotFile}
variable {loaded : LoadedSnapshot} {entries : List Entry} {e : Entry}

theorem perm_sorted (entries : List Entry) : (sorted entries).Perm entries :=
  List.perm_insertionSort _ _

theorem sorted_sorted (entries : List Entry) : sorted (sorted entries) = sorted entries :=
  (List.pairwise_insertionSort _ _).insertionSort_eq

/-- The XDR of the entry is base64 of at least one byte. -/
def Entry.HasXdr (decode : String → Option Bytes) (e : Entry) : Prop :=
  ∃ decoded, decode (Xtask.trim e.xdr) = some decoded ∧ decoded ≠ []

/-- What is written for the entry. -/
def Entry.binding (e : Entry) : (String × String) × I128 := (e.place, e.value)

theorem decodeEntry_eq_ok {v : I128} :
    decodeEntry decode e = .ok v ↔ e.HasXdr decode ∧ v = e.value := by
  simp only [decodeEntry, Entry.HasXdr, bind_eq_ok, okOr_eq_ok, bail_eq_ok, pure_eq_ok]
  grind

theorem insertEntry_eq_ok {d d' : Dict (String × String) I128} :
    insertEntry decode d e = .ok d' ↔ e.HasXdr decode ∧ d' = d.insert e.place e.value := by
  simp only [insertEntry, bind_eq_ok, decodeEntry_eq_ok, pure_eq_ok]
  grind

/-- The values are those of the entries written in turn. -/
theorem foldlM_insertEntry {d d' : Dict (String × String) I128} :
    entries.foldlM (insertEntry decode) d = .ok d' ↔
      (∀ e ∈ entries, e.HasXdr decode) ∧ d' = d.insertAll (entries.map Entry.binding) := by
  induction entries generalizing d with
  | nil =>
    rw [List.foldlM_nil, pure_eq_ok]
    exact ⟨fun h => ⟨fun _ he => absurd he List.not_mem_nil, h.symm⟩, fun h => h.2.symm⟩
  | cons e entries ih =>
    rw [List.foldlM_cons, bind_eq_ok, List.forall_mem_cons]
    simp only [insertEntry_eq_ok, ih]
    constructor
    · rintro ⟨_, ⟨hxdr, rfl⟩, hall, hd'⟩
      exact ⟨⟨hxdr, hall⟩, hd'⟩
    · rintro ⟨⟨hxdr, hall⟩, hd'⟩
      exact ⟨_, ⟨hxdr, rfl⟩, hall, hd'⟩

/-- The values of the sorted entries. -/
def SnapshotFile.collected (file : SnapshotFile) : LoadedSnapshot :=
  ⟨file.network, file.ledgerSequence, file.closeTime,
    .ofList ((sorted file.entries).map Entry.binding)⟩

/-- When a file is loaded, and what it is loaded to. -/
theorem load_eq_ok : load sha256 decode file = .ok loaded ↔
    (file.schema = schema ∧ file.version = version ∧ file.hash = contentHash sha256 file.entries ∧
      ∀ e ∈ file.entries, e.HasXdr decode) ∧ loaded = file.collected := by
  simp only [load, bind_eq_ok, bail_eq_ok, pure_eq_ok, foldlM_insertEntry, not_not,
    (perm_sorted file.entries).mem_iff]
  constructor
  · rintro ⟨_, hschema, _, hversion, _, hhash, _, ⟨hxdr, rfl⟩, rfl⟩
    exact ⟨⟨hschema, hversion, hhash, hxdr⟩, rfl⟩
  · rintro ⟨⟨hschema, hversion, hhash, hxdr⟩, rfl⟩
    exact ⟨(), hschema, (), hversion, (), hhash, _, ⟨hxdr, rfl⟩, rfl⟩

/-- A written file has the hash of its entries, so only its schema, its version and its XDR can fail
it. -/
theorem toFile_hash (snapshot : SnapshotFile) :
    (toFile sha256 snapshot).hash = contentHash sha256 (toFile sha256 snapshot).entries ∧
      contentHash sha256 (toFile sha256 snapshot).entries =
        contentHash sha256 snapshot.entries := by
  refine ⟨rfl, ?_⟩
  rw [contentHash, contentHash, canonicalBytes, canonicalBytes, canonicalText, canonicalText,
    toFile, sorted_sorted]

/-- There is a value for each entry, and it is the entry's. -/
def Kept (file : SnapshotFile) (loaded : LoadedSnapshot) : Prop :=
  loaded.values.entries.length = file.entries.length ∧
    ∀ e ∈ file.entries, value loaded e.contract e.key = .ok e.value

theorem value_eq_ok {contract key : String} {v : I128} :
    value loaded contract key = .ok v ↔ loaded.values.get? (contract, key) = some v := by
  rw [value]
  split <;> simp_all

/-- Nothing is lost if and only if no contract and key come twice. -/
theorem kept_iff (h : load sha256 decode file = .ok loaded) :
    Kept file loaded ↔ (file.entries.map Entry.place).Nodup := by
  obtain rfl := (load_eq_ok.mp h).2
  have hperm := perm_sorted file.entries
  have hplaces : ((sorted file.entries).map Entry.binding).map Prod.fst =
      (sorted file.entries).map Entry.place := List.map_map
  have hnodup : (((sorted file.entries).map Entry.binding).map Prod.fst).Nodup ↔
      (file.entries.map Entry.place).Nodup := by
    rw [hplaces]
    exact (hperm.map Entry.place).nodup_iff
  have hlength : ((sorted file.entries).map Entry.binding).length = file.entries.length := by
    rw [List.length_map, hperm.length_eq]
  rw [Kept, SnapshotFile.collected, ← hnodup, ← Dict.length_ofList_iff, hlength]
  refine and_iff_left_of_imp fun hall => ?_
  have hdistinct := Dict.length_ofList_iff.mp (hall.trans hlength.symm)
  intro e he
  rw [value_eq_ok, ← Dict.mem_entries, Dict.entries_ofList hdistinct]
  exact List.mem_map_of_mem (hperm.mem_iff.mpr he)

end Loaded

end RefractContracts.SnapshotHarness
