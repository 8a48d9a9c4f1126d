import RefractContracts.Scripts.RoundTrip
import RefractContracts.Specs.Signatures

/-! The parts of a specification. Every reader of an entry takes something and looks at no more than
it takes, so the section is the parts of its entries one after the other, and the part of an entry,
which is what its XDR has, is a specification of this entry alone. -/

namespace RefractContracts.Specs

open Host Scripts
open Reader (Local Shrinks Consumes Alike)

variable {α : Type} {k : ℕ} {p q : XdrReader α}

/-! ### Local readers -/

section Locals

theorem local_u32 : Local XdrReader.u32 :=
  (Reader.local_take 4 truncated).bind fun data => .pure (beValue data)

theorem local_opaqueData : Local opaqueData :=
  local_u32.bind fun n => (Reader.local_take n truncated).bind fun value =>
    (Reader.local_skip _).bind fun _ => .pure value

theorem local_string : Local string := by
  refine local_opaqueData.bind fun value => ?_
  cases h : decodeUtf8 value with
  | error e => exact nofun
  | ok s => exact .pure s

theorem local_array (hp : Local p) : Local (array p) := local_u32.bind fun n => hp.times n

theorem local_typeBody {read : XdrReader String} (hread : Local read) (t : ℕ) :
    Local (readTypeBody read t) := by
  unfold readTypeBody
  cases primitives.lookup t with
  | some name => exact .pure name
  | none =>
    simp only []
    split_ifs
    · exact hread.map
    · exact hread.bind fun ok => hread.map
    · exact hread.map
    · exact hread.bind fun key => hread.map
    · exact (local_array hread).map
    · exact local_u32.map
    · exact local_string
    · exact .fail _

theorem local_named (hp : Local p) : Local (readNamed p) :=
  local_string.bind fun _ => local_string.bind fun _ => hp.map

theorem local_unionCase (hp : Local p) : Local (readUnionCase p) := by
  refine local_u32.bind fun kind => local_string.bind fun doc => local_string.bind fun name => ?_
  split_ifs
  · exact (local_array hp).map
  · exact .fail _
  · exact .pure _

theorem local_enumCase : Local readEnumCase :=
  local_string.bind fun _ => local_string.bind fun _ => local_u32.map

theorem local_entryBody (hp : Local p) (kind : ℕ) : Local (readEntryBody p kind) := by
  unfold readEntryBody
  split_ifs
  · exact local_string.bind fun _ => local_string.bind fun _ =>
      (local_array (local_named hp)).bind fun _ => (local_array hp).map
  · exact local_string.bind fun _ => local_string.bind fun _ => local_string.bind fun _ =>
      (local_array (local_named hp)).map
  · exact local_string.bind fun _ => local_string.bind fun _ => local_string.bind fun _ =>
      (local_array (local_unionCase hp)).map
  · exact local_string.bind fun _ => local_string.bind fun _ => local_string.bind fun _ =>
      (local_array local_enumCase).map
  · exact .fail _

theorem local_entry (hp : Local p) : Local (readEntry p) :=
  local_u32.bind (local_entryBody hp)

theorem consumes_entry (hp : Local p) : Consumes (readEntry p) :=
  consumes_u32.bind fun kind => (local_entryBody hp kind).shrinks

end Locals

/-! ### Types -/

section Types

theorem alike_array (h : Alike k p q) : Alike k (array p) (array q) :=
  (Alike.refl shrinks_u32).bind fun n => h.times n

/-- Types within are read by the reader that is given, all else is not. -/
theorem alike_typeBody {p q : XdrReader String} (h : Alike k p q) (t : ℕ) :
    Alike k (readTypeBody p t) (readTypeBody q t) := by
  unfold readTypeBody
  cases primitives.lookup t with
  | some name => exact .pure name
  | none =>
    simp only []
    split_ifs
    · exact h.map
    · exact h.bind fun _ => h.map
    · exact h.map
    · exact h.bind fun _ => h.map
    · exact (alike_array h).map
    · exact (Alike.refl shrinks_u32).map
    · exact .refl local_string.shrinks
    · exact .refl (.fail _)

theorem guarded_typeCode : Reader.Guarded truncated readTypeCode where
  empty _ := rfl
  consumes _ hp := consumes_u32.bind fun t => (alike_typeBody (k := 0) (.refl hp) t).shrinks
  agree _ _ _ h := .bind_of_consumes consumes_u32 fun t => (alike_typeBody h t).agree

theorem local_type : Local readType :=
  guarded_typeCode.local fun _ hp => local_u32.bind fun t => local_typeBody hp t

end Types

/-- A specification is the parts of its entries one after the other, and what the XDR of an entry
has is the specification of this entry alone. -/
theorem decodeSpec_parts {data : Bytes} {entries : List SpecEntry}
    (h : decodeSpec data = .ok entries) : ∃ parts : List Bytes, data = parts.flatten ∧
      List.Forall₂ (fun e part => Base64.b64decode e.xdr.toList = some part ∧
        decodeSpec part = .ok [e]) entries parts := by
  simp only [decodeSpec, bind_eq_ok, Except.ok.injEq] at h
  obtain ⟨read, hread, rfl⟩ := h
  obtain ⟨hdata, hparts⟩ := Reader.untilEnd_captured (local_entry local_type)
    (consumes_entry local_type) hread
  refine ⟨read.map Prod.snd, hdata, ?_⟩
  rw [List.forall₂_map_left_iff, List.forall₂_map_right_iff, List.forall₂_same]
  intro e he
  refine ⟨by rw [String.toList_ofList, Base64.b64decode_encode], ?_⟩
  rw [decodeSpec, hparts e he]
  rfl

theorem decodeSpec_parts_sample : ∃ parts : List Bytes,
    sampleData [0, 0, 0, 0] ++ sampleData [0, 0, 0, 1, 120, 0, 0, 0] = parts.flatten ∧
      List.Forall₂ (fun e part => Base64.b64decode e.xdr.toList = some part ∧
        decodeSpec part = .ok [e])
        [⟨(sampleTree "").map SpecType.signature,
            .ofList (Base64.b64encode (sampleData [0, 0, 0, 0]))⟩,
          ⟨(sampleTree "x").map SpecType.signature,
            .ofList (Base64.b64encode (sampleData [0, 0, 0, 1, 120, 0, 0, 0]))⟩] parts :=
  decodeSpec_parts rfl

end RefractContracts.Specs
