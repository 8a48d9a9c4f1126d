import RefractContracts.Specs.Artifact

/-! What the interface hash stands for. The text that is hashed has the entries in their order,
without the documentation and the XDR, and every other member under its key; so two specifications
have the same text exactly if they have the same entries, up to documentation and order. -/

namespace RefractContracts.Specs

open Host Scripts JsonText

/-! ### Entries without documentation -/

section Undocumented
variable {τ : Type}

def Named.undocumented (n : Named τ) : Named τ := { n with doc := "" }

def UnionCase.undocumented (c : UnionCase τ) : UnionCase τ := { c with doc := "" }

def EnumCase.undocumented (c : EnumCase) : EnumCase := { c with doc := "" }

def Entry.undocumented : Entry τ → Entry τ
  | .function _ name inputs outputs => .function "" name (inputs.map Named.undocumented) outputs
  | .struct _ lib name fields => .struct "" lib name (fields.map Named.undocumented)
  | .union _ lib name cases => .union "" lib name (cases.map UnionCase.undocumented)
  | .enum errors _ lib name cases => .enum errors "" lib name (cases.map EnumCase.undocumented)

/-- What entries are sorted by. -/
def Entry.key (e : Entry τ) : ℕ ×ₗ String := toLex (e.kindOrder, e.name)

@[simp] theorem Entry.key_undocumented (e : Entry τ) : e.undocumented.key = e.key := by
  cases e <;> rfl

end Undocumented

/-- The interface: the entries in their order, without documentation and XDR. -/
def interface (entries : List SpecEntry) : List (Entry String) :=
  (normalize entries).map fun e => e.entry.undocumented

theorem normalize_of_ordered {entries : List SpecEntry} (h : entries.Pairwise Precedes) :
    normalize entries = entries := h.insertionSort_eq

/-! ### What is compared -/

section Compared

/-- A value as it is compared. -/
def compared (v : Value) : Value := v.canonical stripped

theorem map_eq_of_factor {α β γ : Type} {f : α → β} {g : α → γ}
    (h : ∀ a b, f a = f b → g a = g b) : ∀ {l l' : List α}, l.map f = l'.map f → l.map g = l'.map g
  | [], [], _ => rfl
  | a :: l, b :: l', hmap => by
    rw [List.map_cons, List.map_cons, List.cons.injEq] at hmap
    rw [List.map_cons, List.map_cons, h a b hmap.1, map_eq_of_factor h hmap.2]

theorem compared_arr_inj {α γ : Type} {f : α → Value} {g : α → γ}
    (h : ∀ a b, compared (f a) = compared (f b) → g a = g b) {l l' : List α}
    (hl : compared (.arr (l.map f)) = compared (.arr (l'.map f))) : l.map g = l'.map g := by
  simp only [compared, Value.canonical_arr, Value.arr.injEq, List.map_map] at hl
  exact map_eq_of_factor h hl

theorem compared_strings_inj {l l' : List String}
    (hl : compared (.arr (l.map .str)) = compared (.arr (l'.map .str))) : l = l' := by
  have hstr (a b : String) (h : compared (.str a) = compared (.str b)) : id a = id b :=
    Value.str.inj h
  have hmap := compared_arr_inj hstr hl
  rwa [List.map_id, List.map_id] at hmap

/-- Objects that compare equal have equal members. -/
theorem get?_of_compared {v w : Value} {k : String} (hv : v.Distinct) (hw : w.Distinct)
    (h : compared v = compared w) (hk : stripped k = false) :
    (v.get? k).map compared = (w.get? k).map compared := by
  have hget : (compared v).get? k = (compared w).get? k := by rw [h]
  rw [compared, compared, Value.get?_canonical hv hk, Value.get?_canonical hw hk] at hget
  exact hget

theorem Named.distinct_json (n : Named String) : n.json.Distinct := by
  show ["doc", "name", "type"].Nodup
  decide

theorem EnumCase.distinct_json (c : EnumCase) : c.json.Distinct := by
  show ["doc", "name", "value"].Nodup
  decide

theorem UnionCase.distinct_json (c : UnionCase String) : c.json.Distinct := by
  obtain ⟨doc, name, types⟩ := c
  cases types with
  | none =>
    show ["doc", "name"].Nodup
    decide
  | some types =>
    show ["doc", "name", "types"].Nodup
    decide

theorem SpecEntry.distinct_json (e : SpecEntry) : e.json.Distinct := by
  obtain ⟨entry, xdr⟩ := e
  cases entry with
  | function =>
    show ["kind", "doc", "name", "inputs", "outputs", "xdr"].Nodup
    decide
  | struct =>
    show ["kind", "doc", "lib", "name", "fields", "xdr"].Nodup
    decide
  | union =>
    show ["kind", "doc", "lib", "name", "cases", "xdr"].Nodup
    decide
  | enum =>
    show ["kind", "doc", "lib", "name", "cases", "xdr"].Nodup
    decide

theorem Named.undocumented_inj (n m : Named String) (h : compared n.json = compared m.json) :
    n.undocumented = m.undocumented := by
  have hname := get?_of_compared n.distinct_json m.distinct_json h (k := "name") rfl
  have htype := get?_of_compared n.distinct_json m.distinct_json h (k := "type") rfl
  obtain ⟨doc, name, type⟩ := n
  obtain ⟨doc', name', type'⟩ := m
  obtain rfl : name = name' := Value.str.inj (Option.some.inj hname)
  obtain rfl : type = type' := Value.str.inj (Option.some.inj htype)
  rfl

theorem EnumCase.undocumented_inj (c d : EnumCase) (h : compared c.json = compared d.json) :
    c.undocumented = d.undocumented := by
  have hname := get?_of_compared c.distinct_json d.distinct_json h (k := "name") rfl
  have hvalue := get?_of_compared c.distinct_json d.distinct_json h (k := "value") rfl
  obtain ⟨doc, name, value⟩ := c
  obtain ⟨doc', name', value'⟩ := d
  obtain rfl : name = name' := Value.str.inj (Option.some.inj hname)
  obtain rfl : value = value' := Int.ofNat.inj (Value.int.inj (Option.some.inj hvalue))
  rfl

theorem UnionCase.undocumented_inj (c d : UnionCase String)
    (h : compared c.json = compared d.json) : c.undocumented = d.undocumented := by
  have hname := get?_of_compared c.distinct_json d.distinct_json h (k := "name") rfl
  have htypes := get?_of_compared c.distinct_json d.distinct_json h (k := "types") rfl
  obtain ⟨doc, name, types⟩ := c
  obtain ⟨doc', name', types'⟩ := d
  cases types with
  | none =>
    cases types' with
    | none =>
      obtain rfl : name = name' := Value.str.inj (Option.some.inj hname)
      rfl
    | some types' => cases htypes
  | some types =>
    cases types' with
    | none => cases htypes
    | some types' =>
      obtain rfl : name = name' := Value.str.inj (Option.some.inj hname)
      obtain rfl : types = types' := compared_strings_inj (Option.some.inj htypes)
      rfl

/-- Entries of another kind compare otherwise. -/
theorem kind_ne {k k' : String} (h : k ≠ k') :
    (some (Value.str k)).map compared ≠ (some (Value.str k')).map compared :=
  fun heq => h (Value.str.inj (Option.some.inj heq))

theorem enumKind_ne {k : String} (h : k ≠ "enum") (h' : k ≠ "error_enum") (errors : Bool) :
    k ≠ if errors then "error_enum" else "enum" := by
  cases errors
  · exact h
  · exact h'

theorem Entry.undocumented_inj (e e' : SpecEntry) (h : compared e.json = compared e'.json) :
    e.entry.undocumented = e'.entry.undocumented := by
  have hget (k : String) (hk : stripped k = false) :=
    get?_of_compared e.distinct_json e'.distinct_json h hk
  have hkind := hget "kind" rfl
  have hlib := hget "lib" rfl
  have hname := hget "name" rfl
  obtain ⟨entry, xdr⟩ := e
  obtain ⟨entry', xdr'⟩ := e'
  cases entry with
  | function doc name inputs outputs =>
    cases entry' with
    | function doc' name' inputs' outputs' =>
      have hinputs := compared_arr_inj Named.undocumented_inj (Option.some.inj (hget "inputs" rfl))
      obtain rfl := compared_strings_inj (Option.some.inj (hget "outputs" rfl))
      obtain rfl : name = name' := Value.str.inj (Option.some.inj hname)
      rw [Entry.undocumented, hinputs, Entry.undocumented]
    | struct => exact absurd hkind (kind_ne (by decide))
    | union => exact absurd hkind (kind_ne (by decide))
    | enum errors => exact absurd hkind (kind_ne (enumKind_ne (by decide) (by decide) errors))
  | struct doc lib name fields =>
    cases entry' with
    | struct doc' lib' name' fields' =>
      have hfields := compared_arr_inj Named.undocumented_inj (Option.some.inj (hget "fields" rfl))
      obtain rfl : lib = lib' := Value.str.inj (Option.some.inj hlib)
      obtain rfl : name = name' := Value.str.inj (Option.some.inj hname)
      rw [Entry.undocumented, hfields, Entry.undocumented]
    | function => exact absurd hkind (kind_ne (by decide))
    | union => exact absurd hkind (kind_ne (by decide))
    | enum errors => exact absurd hkind (kind_ne (enumKind_ne (by decide) (by decide) errors))
  | union doc lib name cases =>
    cases entry' with
    | union doc' lib' name' cases' =>
      have hcases :=
        compared_arr_inj UnionCase.undocumented_inj (Option.some.inj (hget "cases" rfl))
      obtain rfl : lib = lib' := Value.str.inj (Option.some.inj hlib)
      obtain rfl : name = name' := Value.str.inj (Option.some.inj hname)
      rw [Entry.undocumented, hcases, Entry.undocumented]
    | function => exact absurd hkind (kind_ne (by decide))
    | struct => exact absurd hkind (kind_ne (by decide))
    | enum errors => exact absurd hkind (kind_ne (enumKind_ne (by decide) (by decide) errors))
  | enum errors doc lib name cases =>
    cases entry' with
    | enum errors' doc' lib' name' cases' =>
      have hcases := compared_arr_inj EnumCase.undocumented_inj (Option.some.inj (hget "cases" rfl))
      have herrors := Value.str.inj (Option.some.inj hkind)
      obtain rfl : lib = lib' := Value.str.inj (Option.some.inj hlib)
      obtain rfl : name = name' := Value.str.inj (Option.some.inj hname)
      obtain rfl : errors = errors' := by
        revert herrors
        cases errors <;> cases errors' <;> decide
      rw [Entry.undocumented, hcases, Entry.undocumented]
    | function =>
      exact absurd hkind.symm (kind_ne (enumKind_ne (by decide) (by decide) errors))
    | struct => exact absurd hkind.symm (kind_ne (enumKind_ne (by decide) (by decide) errors))
    | union => exact absurd hkind.symm (kind_ne (enumKind_ne (by decide) (by decide) errors))

/-- Documentation does not show. -/
theorem compared_arr_congr {α : Type} {f : α → Value} {g : α → α}
    (h : ∀ a, compared (f a) = compared (f (g a))) (l : List α) :
    compared (.arr (l.map f)) = compared (.arr ((l.map g).map f)) := by
  simp only [compared, Value.canonical_arr, List.map_map, Value.arr.injEq]
  exact List.map_congr_left fun a _ => h a

theorem Named.compared_undocumented (n : Named String) :
    compared n.json = compared n.undocumented.json := rfl

theorem EnumCase.compared_undocumented (c : EnumCase) :
    compared c.json = compared c.undocumented.json := rfl

theorem UnionCase.compared_undocumented (c : UnionCase String) :
    compared c.json = compared c.undocumented.json := by
  obtain ⟨doc, name, types⟩ := c
  cases types <;> rfl

theorem SpecEntry.compared_undocumented (e : SpecEntry) :
    compared e.json = compared (SpecEntry.json ⟨e.entry.undocumented, ""⟩) := by
  obtain ⟨entry, xdr⟩ := e
  rw [SpecEntry.json, SpecEntry.json, compared, compared, Value.canonical_obj, Value.canonical_obj]
  cases entry with
  | function doc name inputs outputs =>
    have hinputs := compared_arr_congr Named.compared_undocumented inputs
    rw [compared, compared] at hinputs
    simp [Entry.members, Entry.undocumented, stripped, hinputs]
  | struct doc lib name fields =>
    have hfields := compared_arr_congr Named.compared_undocumented fields
    rw [compared, compared] at hfields
    simp [Entry.members, Entry.undocumented, stripped, hfields]
  | union doc lib name cases =>
    have hcases := compared_arr_congr UnionCase.compared_undocumented cases
    rw [compared, compared] at hcases
    simp [Entry.members, Entry.undocumented, stripped, hcases]
  | enum errors doc lib name cases =>
    have hcases := compared_arr_congr EnumCase.compared_undocumented cases
    rw [compared, compared] at hcases
    simp [Entry.members, Entry.undocumented, stripped, hcases]

/-- Entries compare equal exactly if they differ in documentation and XDR only. -/
theorem compared_json_iff (e e' : SpecEntry) :
    compared e.json = compared e'.json ↔ e.entry.undocumented = e'.entry.undocumented := by
  refine ⟨Entry.undocumented_inj e e', fun h => ?_⟩
  rw [e.compared_undocumented, e'.compared_undocumented, h]

end Compared

/-! ### The hash -/

section Hash
variable {entries entries' : List SpecEntry} {sha256 : Bytes → Digest32}

theorem canonicalText_iff :
    canonicalText entries = canonicalText entries' ↔ interface entries = interface entries' := by
  rw [canonicalText, canonicalText, String.ofList_inj, dumps_injective.eq_iff, Value.canonical_arr,
    Value.canonical_arr, Value.arr.injEq, List.map_map, List.map_map]
  constructor
  · exact map_eq_of_factor fun e e' h => (compared_json_iff e e').mp h
  · exact map_eq_of_factor fun e e' h => (compared_json_iff e e').mpr h

/-- The entries as they come, without documentation and XDR. -/
def undocumented (entries : List SpecEntry) : List (Entry String) :=
  entries.map fun e => e.entry.undocumented

/-- No two entries are of the same kind and name. -/
def Unambiguous (entries : List SpecEntry) : Prop := ((undocumented entries).map Entry.key).Nodup

instance : Decidable (Unambiguous entries) := inferInstanceAs (Decidable (List.Nodup _))

theorem interface_perm (entries : List SpecEntry) :
    (interface entries).Perm (undocumented entries) :=
  (List.perm_insertionSort Precedes entries).map _

theorem interface_pairwise (h : Unambiguous entries) :
    (interface entries).Pairwise fun e e' => e.key < e'.key := by
  have hle : (interface entries).Pairwise fun e e' => e.key ≤ e'.key := by
    have hsorted : (normalize entries).Pairwise Precedes := List.pairwise_insertionSort _ _
    refine List.pairwise_map.mpr (hsorted.imp fun {e e'} hee => ?_)
    rw [Entry.key_undocumented, Entry.key_undocumented]
    exact hee
  have hne : ((interface entries).map Entry.key).Nodup :=
    ((interface_perm entries).map Entry.key).nodup_iff.mpr h
  exact hle.imp₂ (fun _ _ => lt_of_le_of_ne) (List.pairwise_map.mp hne)

/-- Sorted, the order of the entries does not show. -/
theorem interface_iff (h : Unambiguous entries) :
    interface entries = interface entries' ↔
      (undocumented entries).Perm (undocumented entries') := by
  constructor
  · intro heq
    exact (interface_perm entries).symm.trans (heq ▸ interface_perm entries')
  · intro hperm
    have h' : Unambiguous entries' := (hperm.map Entry.key).nodup_iff.mp h
    have hsame := ((interface_perm entries).trans hperm).trans (interface_perm entries').symm
    exact hsame.eq_of_pairwise (fun e e' _ _ hlt hgt => absurd hgt hlt.asymm)
      (interface_pairwise h) (interface_pairwise h')

/-- The texts that are hashed of two specifications. -/
def hashed (entries entries' : List SpecEntry) : List Bytes :=
  [encode (canonicalText entries), encode (canonicalText entries')]

theorem interfaceHash_iff (hfree : CollisionFree sha256 (hashed entries entries')) :
    interfaceHash sha256 entries = interfaceHash sha256 entries' ↔
      interface entries = interface entries' := by
  rw [← canonicalText_iff]
  constructor
  · intro h
    have hencoded := hfree _ List.mem_cons_self _ (List.mem_cons_of_mem _ List.mem_cons_self)
      (hexdigest_inj h)
    exact encode_inj.mp hencoded
  · intro h
    rw [interfaceHash, h, interfaceHash]

end Hash

/-- The hash changes with any entry, and with nothing else: two specifications, the first without
two entries of one kind and name, have the same hash exactly if they have the same entries up to
their documentation, their XDR and their order. -/
theorem interfaceHash_exact {sha256 : Bytes → Digest32} {entries entries' : List SpecEntry}
    (h : Unambiguous entries) (hfree : CollisionFree sha256 (hashed entries entries')) :
    interfaceHash sha256 entries = interfaceHash sha256 entries' ↔
      (undocumented entries).Perm (undocumented entries') :=
  (interfaceHash_iff hfree).trans (interface_iff h)

/-- A method that returns a list, and an error. -/
def sampleEntries (doc item : String) : List SpecEntry :=
  [⟨.function doc "f" [] ["Vec<" ++ item ++ ">"], ""⟩, ⟨.enum true doc "" "E" [⟨doc, "A", 1⟩], ""⟩]

/-- The text that is hashed of it. -/
def sampleText (item : String) : String :=
  "[\x7b\"inputs\":[],\"kind\":\"function\",\"name\":\"f\",\"outputs\":[\"Vec<" ++ item ++
    ">\"]\x7d,\x7b\"cases\":[\x7b\"name\":\"A\",\"value\":1\x7d],\"kind\":\"error_enum\"," ++
    "\"lib\":\"\",\"name\":\"E\"\x7d]"

/-- SHA-256 of two such texts, as a table. -/
def sampleSha256 (m : Bytes) : Digest32 :=
  if m = encode (sampleText "u32") then
    #v[180, 1, 134, 33, 40, 50, 254, 178, 208, 170, 191, 98, 13, 178, 116, 224, 117, 175, 179,
      154, 197, 132, 43, 3, 251, 247, 226, 97, 226, 228, 90, 3]
  else if m = encode (sampleText "i32") then
    #v[163, 81, 97, 38, 119, 235, 156, 236, 58, 115, 95, 178, 75, 249, 148, 46, 74, 69, 167, 121,
      208, 20, 52, 50, 168, 173, 81, 74, 109, 107, 155, 49]
  else Vector.replicate 32 0

theorem interfaceHash_exact_sample :
    interfaceHash sampleSha256 (sampleEntries "A method." "u32") =
        interfaceHash sampleSha256 (sampleEntries "" "u32").reverse ∧
      interfaceHash sampleSha256 (sampleEntries "" "u32") ≠
        interfaceHash sampleSha256 (sampleEntries "" "i32") := by
  have hsame : CollisionFree sampleSha256
      (hashed (sampleEntries "A method." "u32") (sampleEntries "" "u32").reverse) := by
    decide +kernel
  have hother : CollisionFree sampleSha256
      (hashed (sampleEntries "" "u32") (sampleEntries "" "i32")) := by decide +kernel
  refine ⟨(interfaceHash_exact (by decide) hsame).mpr (.swap _ _ _), fun h => ?_⟩
  exact absurd ((interfaceHash_exact (by decide) hother).mp h) (by decide)

end RefractContracts.Specs
