import RefractContracts.Host.Term
import RefractContracts.Specs.Interface

/-! What a signature says. The types of an entry are trees, and an artifact has each of them written
out as a text. The text of a type is a term with brackets, and different types have different
terms, as long as no type of a contract has the name of a primitive one and no tuple is empty. So
entries that look the same in the artifacts are of the same types. -/

namespace RefractContracts.Specs

open Host Scripts

/-! ### Types -/

/-- A type; a primitive one by its code. -/
inductive SpecType where
  | primitive (code : ℕ)
  | option (value : SpecType)
  | result (ok err : SpecType)
  | vec (element : SpecType)
  | map (k v : SpecType)
  | tuple (elements : List SpecType)
  | bytesN (n : ℕ)
  | udt (name : String)

/-- The name of a primitive type. -/
def primitiveName (t : ℕ) : String := (primitives.lookup t).getD ""

namespace SpecType

mutual

/-- The type as it is written out. -/
def signature : SpecType → String
  | primitive t => primitiveName t
  | option value => s!"Option<{signature value}>"
  | result ok err => s!"Result<{signature ok}, {signature err}>"
  | vec element => s!"Vec<{signature element}>"
  | map k v => s!"Map<{signature k}, {signature v}>"
  | tuple elements => "(" ++ ", ".intercalate (signatures elements) ++ ")"
  | bytesN n => s!"BytesN<{n}>"
  | udt name => name

def signatures : List SpecType → List String
  | [] => []
  | t :: ts => signature t :: signatures ts

end

theorem signatures_eq (ts : List SpecType) : signatures ts = ts.map signature := by
  induction ts with
  | nil => rfl
  | cons t ts ih => rw [signatures, ih, List.map_cons]

end SpecType

/-! ### Reading trees -/

section Read

/-- What follows a type code, as a tree. -/
def readTreeBody (read : XdrReader SpecType) (t : ℕ) : XdrReader SpecType :=
  match primitives.lookup t with
  | some _ => pure (.primitive t)
  | none =>
    if t = 1000 then SpecType.option <$> read
    else if t = 1001 then do
      let ok ← read
      let err ← read
      pure (.result ok err)
    else if t = 1002 then SpecType.vec <$> read
    else if t = 1004 then do
      let k ← read
      let v ← read
      pure (.map k v)
    else if t = 1005 then SpecType.tuple <$> array read
    else if t = 1006 then SpecType.bytesN <$> XdrReader.u32
    else if t = 2000 then SpecType.udt <$> string
    else Reader.fail s!"unknown spec type {t}; update scripts/contract_specs.py"

def readTreeCode (read : XdrReader SpecType) : XdrReader SpecType := do
  let t ← XdrReader.u32
  readTreeBody read t

def readTree : XdrReader SpecType := Reader.recursive truncated readTreeCode

theorem array_map {α β : Type} (f : α → β) (p : XdrReader α) :
    array (f <$> p) = List.map f <$> array p := by
  simp only [array, Reader.times_map, map_bind]

theorem readTypeBody_map (p : XdrReader SpecType) (t : ℕ) :
    readTypeBody (SpecType.signature <$> p) t = SpecType.signature <$> readTreeBody p t := by
  unfold readTypeBody readTreeBody
  cases h : primitives.lookup t with
  | some name => simp [SpecType.signature, primitiveName, h]
  | none =>
    simp only []
    split_ifs
    · simp [SpecType.signature]
    · simp [SpecType.signature]
    · simp [SpecType.signature]
    · simp [SpecType.signature]
    · simp [SpecType.signature, array_map, SpecType.signatures_eq]
    · simp [SpecType.signature]
    · simp [SpecType.signature]
    · rfl

/-- A type is read by reading its tree and writing it out. -/
theorem readType_eq : readType = SpecType.signature <$> readTree := by
  refine Reader.recursive_map fun p => ?_
  rw [readTypeCode, readTreeCode, map_bind]
  simp only [readTypeBody_map]

end Read

/-! ### Entries -/

section Map
variable {τ υ : Type} (f : τ → υ)

def Named.map (n : Named τ) : Named υ := ⟨n.doc, n.name, f n.type⟩

def UnionCase.map (c : UnionCase τ) : UnionCase υ := ⟨c.doc, c.name, c.types.map (List.map f)⟩

def Entry.map : Entry τ → Entry υ
  | .function doc name inputs outputs =>
    .function doc name (inputs.map (Named.map f)) (outputs.map f)
  | .struct doc lib name fields => .struct doc lib name (fields.map (Named.map f))
  | .union doc lib name cases => .union doc lib name (cases.map (UnionCase.map f))
  | .enum errors doc lib name cases => .enum errors doc lib name cases

variable {f} (p : XdrReader τ)

theorem readNamed_map : readNamed (f <$> p) = Named.map f <$> readNamed p := by
  simp [readNamed, Named.map]

theorem readUnionCase_map : readUnionCase (f <$> p) = UnionCase.map f <$> readUnionCase p := by
  simp only [readUnionCase, map_bind]
  refine bind_congr fun kind => bind_congr fun doc => bind_congr fun name => ?_
  split_ifs
  · simp [array_map, UnionCase.map]
  · rfl
  · rfl

theorem readEntry_map : readEntry (f <$> p) = Entry.map f <$> readEntry p := by
  simp only [readEntry, map_bind]
  refine bind_congr fun kind => ?_
  unfold readEntryBody
  split_ifs
  · simp [array_map, readNamed_map, Entry.map]
  · simp [array_map, readNamed_map, Entry.map]
  · simp [array_map, readUnionCase_map, Entry.map]
  · simp [Entry.map]
  · rfl

end Map

/-- The entries with their types as trees, each with its part of the data. -/
def decodeTrees (data : Bytes) : Outcome String (List (Entry SpecType × Bytes)) :=
  Reader.all (Reader.captured (readEntry readTree)) data

/-- The entry as it stands in an artifact. -/
def spelled (e : Entry SpecType × Bytes) : SpecEntry :=
  ⟨e.1.map SpecType.signature, .ofList (Base64.b64encode e.2)⟩

theorem decodeSpec_eq (data : Bytes) :
    decodeSpec data = List.map spelled <$> decodeTrees data := by
  rw [decodeSpec, readType_eq, readEntry_map, Reader.captured_map, Reader.all_map, decodeTrees]
  cases Reader.all (Reader.captured (readEntry readTree)) data with
  | error e => rfl
  | ok entries =>
    show Except.ok _ = Except.ok _
    simp [spelled, Function.comp_def]

/-! ### Terms -/

/-- Letters, digits and the underscore. -/
def letter (c : Char) : Bool := c.isAlphanum || c = '_'

namespace SpecType

mutual

/-- The term that is written out. -/
def term : SpecType → Term
  | primitive t => if t = 2 then .tuple [] else .word (primitiveName t).toList
  | option value => .applied "Option".toList (term value) []
  | result ok err => .applied "Result".toList (term ok) [term err]
  | vec element => .applied "Vec".toList (term element) []
  | map k v => .applied "Map".toList (term k) [term v]
  | tuple elements => .tuple (terms elements)
  | bytesN n => .applied "BytesN".toList (.word n.repr.toList) []
  | udt name => .word name.toList

def terms : List SpecType → List Term
  | [] => []
  | t :: ts => term t :: terms ts

end

mutual

/-- The codes are those of primitive types, tuples are not empty, and a type of the contract has a
name that is an identifier and not that of a primitive type. -/
def Sound : SpecType → Prop
  | primitive t => t ∈ primitives.map Prod.fst
  | option value => Sound value
  | result ok err => Sound ok ∧ Sound err
  | vec element => Sound element
  | map k v => Sound k ∧ Sound v
  | tuple elements => elements ≠ [] ∧ AllSound elements
  | bytesN _ => True
  | udt name => Term.IsWord letter name.toList ∧ name ∉ primitives.map Prod.snd

def AllSound : List SpecType → Prop
  | [] => True
  | t :: ts => Sound t ∧ AllSound ts

end

theorem toString_string (s : String) : toString s = s := rfl

mutual

theorem toList_signature : ∀ t : SpecType, t.signature.toList = t.term.text
  | primitive t => by
    rw [signature, term]
    split_ifs with ht
    · subst ht
      rfl
    · rfl
  | option value => by
    simp [signature, toString_string, term, Term.text, Term.more, toList_signature value]
  | result ok err => by
    simp [signature, toString_string, term, Term.text, Term.more, toList_signature ok,
      toList_signature err]
  | vec element => by
    simp [signature, toString_string, term, Term.text, Term.more, toList_signature element]
  | map k v => by
    simp [signature, toString_string, term, Term.text, Term.more, toList_signature k,
      toList_signature v]
  | tuple [] => rfl
  | tuple (t :: ts) => by
    have hitems : (signatures (t :: ts)).map String.toList = (term t :: terms ts).map Term.text :=
      toList_signatures (t :: ts)
    rw [signature, String.toList_append, String.toList_append, String.toList_intercalate, hitems,
      List.append_assoc]
    exact congrArg ('(' :: ·) (Term.intercalate_text ')' (term t) (terms ts))
  | bytesN n => by
    simp [signature, toString_string, term, Term.text, Term.more]
  | udt name => rfl

theorem toList_signatures : ∀ ts : List SpecType,
    (signatures ts).map String.toList = (terms ts).map Term.text
  | [] => rfl
  | t :: ts => by
    rw [signatures, terms, List.map_cons, List.map_cons, toList_signature t, toList_signatures ts]

end

/-! ### Sound types -/

theorem delimited : Term.Delimited letter := by decide

theorem allSound_iff {ts : List SpecType} : AllSound ts ↔ ∀ t ∈ ts, t.Sound := by
  induction ts with
  | nil => exact ⟨nofun, fun _ => trivial⟩
  | cons t ts ih => rw [AllSound, ih, List.forall_mem_cons]

theorem primitiveName_mem : ∀ t ∈ primitives.map Prod.fst,
    primitiveName t ∈ primitives.map Prod.snd := by
  decide

theorem primitiveName_inj : ∀ t ∈ primitives.map Prod.fst, ∀ t' ∈ primitives.map Prod.fst,
    primitiveName t = primitiveName t' → t = t' := by
  decide

/-- All primitive types but the unit have a word for a name. -/
theorem primitiveName_word : ∀ t ∈ primitives.map Prod.fst, t ≠ 2 →
    Term.IsWord letter (primitiveName t).toList := by
  decide

theorem word_repr (n : ℕ) : Term.IsWord letter n.repr.toList := by
  refine ⟨fun h => Nat.repr_ne_empty (String.toList_inj.mp h), fun c hc => ?_⟩
  have hdigit : c.isDigit = true := by
    rw [Nat.toList_repr] at hc
    exact Nat.isDigit_of_mem_toDigits (by decide) (by decide) hc
  simp [letter, Char.isAlphanum, hdigit]

theorem repr_inj {n n' : ℕ} (h : n.repr.toList = n'.repr.toList) : n = n' := by
  have hint : (n : ℤ).repr = (n' : ℤ).repr := String.toList_inj.mp h
  exact Int.ofNat.inj (Int.repr_injective hint)

mutual

theorem sound_term : ∀ t : SpecType, t.Sound → t.term.Sound letter
  | primitive t, ht => by
    rw [term]
    split_ifs with h2
    · trivial
    · exact primitiveName_word t ht h2
  | option value, ht => ⟨by decide, sound_term value ht, trivial⟩
  | result ok err, ht => ⟨by decide, sound_term ok ht.1, sound_term err ht.2, trivial⟩
  | vec element, ht => ⟨by decide, sound_term element ht, trivial⟩
  | map k v, ht => ⟨by decide, sound_term k ht.1, sound_term v ht.2, trivial⟩
  | tuple elements, ht => sound_terms elements ht.2
  | bytesN n, _ => ⟨by decide, word_repr n, trivial⟩
  | udt name, ht => ht.1

theorem sound_terms : ∀ ts : List SpecType, AllSound ts → Term.AllSound letter (terms ts)
  | [], _ => trivial
  | t :: ts, hts => ⟨sound_term t hts.1, sound_terms ts hts.2⟩

end

theorem primitive_of_term {t : ℕ} {t' : SpecType} (ht : (primitive t).Sound) (ht' : t'.Sound)
    (h : (primitive t).term = t'.term) : primitive t = t' := by
  cases t' with
  | primitive t' =>
    rw [term, term] at h
    split_ifs at h with h2 h2' h2'
    · rw [h2, h2']
    · rw [primitiveName_inj t ht t' ht' (String.toList_inj.mp (Term.word.inj h))]
  | tuple elements =>
    rw [term, term] at h
    split_ifs at h
    cases elements with
    | nil => exact absurd rfl ht'.1
    | cons t ts => cases Term.tuple.inj h
  | udt name =>
    rw [term, term] at h
    split_ifs at h
    rw [← String.toList_inj.mp (Term.word.inj h)] at ht'
    exact absurd (primitiveName_mem t ht) ht'.2
  | _ =>
    rw [term, term] at h
    split_ifs at h

mutual

theorem term_inj : ∀ t t' : SpecType, t.Sound → t'.Sound → t.term = t'.term → t = t'
  | primitive t, t', ht, ht', h => primitive_of_term ht ht' h
  | option value, t', ht, ht', h => by
    cases t' with
    | primitive t' => exact (primitive_of_term ht' ht h.symm).symm
    | option value' => rw [term_inj value value' ht ht' (Term.applied.inj h).2.1]
    | tuple | udt => cases h
    | _ => exact absurd (Term.applied.inj h).1 (by decide)
  | result ok err, t', ht, ht', h => by
    cases t' with
    | primitive t' => exact (primitive_of_term ht' ht h.symm).symm
    | result ok' err' =>
      obtain ⟨-, hok, herr⟩ := Term.applied.inj h
      rw [term_inj ok ok' ht.1 ht'.1 hok, term_inj err err' ht.2 ht'.2 (List.cons.inj herr).1]
    | tuple | udt => cases h
    | _ => exact absurd (Term.applied.inj h).1 (by decide)
  | vec element, t', ht, ht', h => by
    cases t' with
    | primitive t' => exact (primitive_of_term ht' ht h.symm).symm
    | vec element' => rw [term_inj element element' ht ht' (Term.applied.inj h).2.1]
    | tuple | udt => cases h
    | _ => exact absurd (Term.applied.inj h).1 (by decide)
  | map k v, t', ht, ht', h => by
    cases t' with
    | primitive t' => exact (primitive_of_term ht' ht h.symm).symm
    | map k' v' =>
      obtain ⟨-, hk, hv⟩ := Term.applied.inj h
      rw [term_inj k k' ht.1 ht'.1 hk, term_inj v v' ht.2 ht'.2 (List.cons.inj hv).1]
    | tuple | udt => cases h
    | _ => exact absurd (Term.applied.inj h).1 (by decide)
  | tuple elements, t', ht, ht', h => by
    cases t' with
    | primitive t' => exact (primitive_of_term ht' ht h.symm).symm
    | tuple elements' => rw [terms_inj elements elements' ht.2 ht'.2 (Term.tuple.inj h)]
    | _ => cases h
  | bytesN n, t', ht, ht', h => by
    cases t' with
    | primitive t' => exact (primitive_of_term ht' ht h.symm).symm
    | bytesN n' => rw [repr_inj (Term.word.inj (Term.applied.inj h).2.1)]
    | tuple | udt => cases h
    | _ => exact absurd (Term.applied.inj h).1 (by decide)
  | udt name, t', ht, ht', h => by
    cases t' with
    | primitive t' => exact (primitive_of_term ht' ht h.symm).symm
    | udt name' => rw [String.toList_inj.mp (Term.word.inj h)]
    | _ => cases h

theorem terms_inj : ∀ ts ts' : List SpecType, AllSound ts → AllSound ts' → terms ts = terms ts' →
    ts = ts'
  | [], [], _, _, _ => rfl
  | t :: ts, t' :: ts', hts, hts', h => by
    rw [terms, terms, List.cons.injEq] at h
    rw [term_inj t t' hts.1 hts'.1 h.1, terms_inj ts ts' hts.2 hts'.2 h.2]

end

/-- A sound type is determined by its signature. -/
theorem signature_inj {t t' : SpecType} (ht : t.Sound) (ht' : t'.Sound)
    (h : t.signature = t'.signature) : t = t' := by
  have htext : t.term.text = t'.term.text := by rw [← toList_signature, h, toList_signature]
  exact term_inj t t' ht ht' (Term.text_inj delimited (sound_term t ht) (sound_term t' ht') htext)

end SpecType

/-! ### Sound entries -/

section Entries
variable {τ υ : Type} {f : τ → υ}

/-- The types of an entry. -/
def Entry.types : Entry τ → List τ
  | .function _ _ inputs outputs => inputs.map Named.type ++ outputs
  | .struct _ _ _ fields => fields.map Named.type
  | .union _ _ _ cases => cases.flatMap fun c => c.types.getD []
  | .enum .. => []

theorem map_inj_on {α β : Type} {g : α → β} {l l' : List α}
    (hg : ∀ a ∈ l, ∀ b ∈ l', g a = g b → a = b) (h : l.map g = l'.map g) : l = l' := by
  induction l generalizing l' with
  | nil => exact (List.map_eq_nil_iff.mp h.symm).symm
  | cons a l ih =>
    cases l' with
    | nil => cases h
    | cons b l' =>
      rw [List.map_cons, List.map_cons, List.cons.injEq] at h
      rw [hg a List.mem_cons_self b List.mem_cons_self h.1,
        ih (fun a ha b hb => hg a (List.mem_cons_of_mem _ ha) b (List.mem_cons_of_mem _ hb)) h.2]

theorem Named.map_inj {n m : Named τ} (hf : f n.type = f m.type → n.type = m.type)
    (h : n.map f = m.map f) : n = m := by
  obtain ⟨doc, name, type⟩ := n
  obtain ⟨doc', name', type'⟩ := m
  simp only [Named.map, Named.mk.injEq] at h
  obtain ⟨rfl, rfl, htype⟩ := h
  obtain rfl : type = type' := hf htype
  rfl

theorem UnionCase.map_inj {c d : UnionCase τ}
    (hf : ∀ t ∈ c.types.getD [], ∀ t' ∈ d.types.getD [], f t = f t' → t = t')
    (h : c.map f = d.map f) : c = d := by
  obtain ⟨doc, name, types⟩ := c
  obtain ⟨doc', name', types'⟩ := d
  simp only [UnionCase.map, UnionCase.mk.injEq] at h
  obtain ⟨rfl, rfl, htypes⟩ := h
  cases types with
  | none => rw [Option.map_eq_none_iff.mp htypes.symm]
  | some types =>
    cases types' with
    | none => cases htypes
    | some types' =>
      obtain rfl : types = types' := map_inj_on hf (Option.some.inj htypes)
      rfl

/-- Where `f` is one-to-one on the types, so is the entry that is mapped. -/
theorem Entry.map_inj {e e' : Entry τ}
    (hf : ∀ t ∈ e.types, ∀ t' ∈ e'.types, f t = f t' → t = t') (h : e.map f = e'.map f) :
    e = e' := by
  cases e with
  | function doc name inputs outputs =>
    cases e' with
    | function doc' name' inputs' outputs' =>
      simp only [Entry.map, Entry.function.injEq] at h
      obtain ⟨rfl, rfl, hinputs, houtputs⟩ := h
      have hin : inputs = inputs' := map_inj_on (fun n hn m hm => Named.map_inj (hf _
        (List.mem_append_left _ (List.mem_map_of_mem hn)) _
        (List.mem_append_left _ (List.mem_map_of_mem hm)))) hinputs
      have hout : outputs = outputs' := map_inj_on (fun t ht t' ht' => hf t
        (List.mem_append_right _ ht) t' (List.mem_append_right _ ht')) houtputs
      rw [hin, hout]
    | _ => cases h
  | struct doc lib name fields =>
    cases e' with
    | struct doc' lib' name' fields' =>
      simp only [Entry.map, Entry.struct.injEq] at h
      obtain ⟨rfl, rfl, rfl, hfields⟩ := h
      rw [map_inj_on (fun n hn m hm => Named.map_inj (hf _ (List.mem_map_of_mem hn) _
        (List.mem_map_of_mem hm))) hfields]
    | _ => cases h
  | union doc lib name cases =>
    cases e' with
    | union doc' lib' name' cases' =>
      simp only [Entry.map, Entry.union.injEq] at h
      obtain ⟨rfl, rfl, rfl, hcases⟩ := h
      rw [map_inj_on (fun c hc d hd => UnionCase.map_inj fun t ht t' ht' => hf t
        (List.mem_flatMap.mpr ⟨c, hc, ht⟩) t' (List.mem_flatMap.mpr ⟨d, hd, ht'⟩)) hcases]
    | _ => cases h
  | enum errors doc lib name cases =>
    cases e' with
    | enum => simpa [Entry.map] using h
    | _ => cases h

@[simp] theorem Entry.undocumented_map (e : Entry τ) :
    (e.map f).undocumented = e.undocumented.map f := by
  cases e <;> simp [Entry.map, Entry.undocumented, Named.map, Named.undocumented, UnionCase.map,
    UnionCase.undocumented]

@[simp] theorem Entry.types_undocumented (e : Entry τ) : e.undocumented.types = e.types := by
  cases e <;> simp [Entry.types, Entry.undocumented, Named.undocumented, UnionCase.undocumented,
    Function.comp_def, List.flatMap_map]

end Entries

/-- All types of an entry are sound. -/
def Entry.Sound (e : Entry SpecType) : Prop := ∀ t ∈ e.types, t.Sound

/-- Specifications with sound types that look the same in the artifacts, but for documentation and
XDR, are of the same types. -/
theorem signatures_readable {data data' : Bytes} {es es' : List (Entry SpecType × Bytes)}
    (h : decodeTrees data = .ok es) (h' : decodeTrees data' = .ok es')
    (hes : ∀ e ∈ es, e.1.Sound) (hes' : ∀ e ∈ es', e.1.Sound) :
    ∃ entries entries', decodeSpec data = .ok entries ∧ decodeSpec data' = .ok entries' ∧
      (undocumented entries = undocumented entries' ↔
        es.map (fun e => e.1.undocumented) = es'.map fun e => e.1.undocumented) := by
  refine ⟨es.map spelled, es'.map spelled, by rw [decodeSpec_eq, h]; rfl,
    by rw [decodeSpec_eq, h']; rfl, ?_⟩
  have hspelled (l : List (Entry SpecType × Bytes)) : undocumented (l.map spelled) =
      (l.map fun e => e.1.undocumented).map (Entry.map SpecType.signature) := by
    simp [undocumented, spelled, Function.comp_def]
  rw [hspelled, hspelled]
  refine ⟨map_inj_on fun e he e' he' => ?_, congrArg _⟩
  obtain ⟨x, hx, rfl⟩ := List.mem_map.mp he
  obtain ⟨y, hy, rfl⟩ := List.mem_map.mp he'
  refine Entry.map_inj fun t ht t' ht' => ?_
  rw [Entry.types_undocumented] at ht ht'
  exact SpecType.signature_inj (hes x hx t ht) (hes' y hy t' ht')

/-- The method `f`, documented by `doc`, that returns a `Vec<u32>`. -/
def sampleData (doc : Bytes) : Bytes :=
  [0, 0, 0, 0] ++ doc ++ [0, 0, 0, 1, 102, 0, 0, 0] ++ [0, 0, 0, 0] ++
    [0, 0, 0, 1, 0, 0, 3, 234, 0, 0, 0, 4]

def sampleTree (doc : String) : Entry SpecType := .function doc "f" [] [.vec (.primitive 4)]

theorem signatures_readable_sample : ∃ entries entries',
    decodeSpec (sampleData [0, 0, 0, 0]) = .ok entries ∧
    decodeSpec (sampleData [0, 0, 0, 1, 120, 0, 0, 0]) = .ok entries' ∧
    (undocumented entries = undocumented entries' ↔
      [(sampleTree "").undocumented] = [(sampleTree "x").undocumented]) := by
  have hsound (doc : String) (data : Bytes) : ∀ e ∈ [(sampleTree doc, data)], e.1.Sound := by
    simp [sampleTree, Entry.Sound, Entry.types, SpecType.Sound, primitives]
  have h : decodeTrees (sampleData [0, 0, 0, 0]) =
      .ok [(sampleTree "", sampleData [0, 0, 0, 0])] := rfl
  have h' : decodeTrees (sampleData [0, 0, 0, 1, 120, 0, 0, 0]) =
      .ok [(sampleTree "x", sampleData [0, 0, 0, 1, 120, 0, 0, 0])] := rfl
  exact signatures_readable h h' (hsound _ _) (hsound _ _)

end RefractContracts.Specs
