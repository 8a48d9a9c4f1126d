import RefractContracts.Scripts.Commitment
import RefractContracts.Specs.Format

/-! The custom sections of a module. A module is its magic number, four bytes of a version and its
sections; lengths are written in groups of seven bits, in as many as one likes. Of a module that is
written so, each custom section is found under its name, with its contents joined if there are
several, and the other sections do not matter. -/

namespace RefractContracts.Specs

open Host Scripts
open Reader (Reads)

/-! ### Modules -/

/-- The bytes stand for the number, with or without zeros at the end. -/
inductive Leb128 : ℕ → Bytes → Prop
  | last {b : UInt8} (hb : b.toNat < 128) : Leb128 b.toNat [b]
  | more {b : UInt8} {high : ℕ} {bytes : Bytes} (hb : 128 ≤ b.toNat) (hhigh : Leb128 high bytes) :
    Leb128 (b.toNat % 128 + 128 * high) (b :: bytes)

inductive WasmSection where
  | custom (name : String) (content : Bytes)
  | other (id : UInt8) (content : Bytes)

/-- The bytes of a section. -/
inductive Written : WasmSection → Bytes → Prop
  | custom {name : String} {content nameLen size : Bytes}
    (hname : Leb128 (encode name).length nameLen)
    (hsize : Leb128 (nameLen ++ encode name ++ content).length size) :
    Written (.custom name content) (0 :: (size ++ (nameLen ++ encode name ++ content)))
  | other {id : UInt8} {content size : Bytes} (hid : id ≠ 0) (hsize : Leb128 content.length size) :
    Written (.other id content) (id :: (size ++ content))

/-- What is to be found of a section. -/
def WasmSection.found : WasmSection → Option (String × Bytes)
  | custom name content => some (name, content)
  | other _ _ => none

/-- The contents under a name. -/
def contents (found : List (String × Bytes)) (name : String) : List Bytes :=
  found.filterMap fun s => if s.1 = name then some s.2 else none

/-! ### Reading -/

section Reading
variable {n : ℕ} {bytes : Bytes} {name : String}

theorem reads_leb128 (h : Leb128 n bytes) : Reads leb128 bytes n := by
  intro rest
  induction h with
  | @last b hb =>
    rw [List.cons_append, leb128, if_pos (Nat.div_eq_of_lt hb)]
    rfl
  | @more b high bytes hb _ ih =>
    have hlt := b.toNat_lt
    rw [List.cons_append, leb128, if_neg (by omega), ih, ok_bind]

theorem decodeUtf8_encode (name : String) : decodeUtf8 (encode name) = .ok name := by
  have hbytes : (⟨(encode name).toArray⟩ : ByteArray) = name.toByteArray := by
    rw [encode, Array.toArray_toList, String.toUTF8_eq_toByteArray]
  rw [decodeUtf8, hbytes, String.fromUTF8?, dif_pos name.isValidUTF8]
  rfl

theorem reads_section {s : WasmSection} (h : Written s bytes) :
    Reads readSection bytes s.found := by
  intro rest
  cases h with
  | @custom name content nameLen size hname hsize =>
    have hread := reads_leb128 hsize (nameLen ++ encode name ++ content ++ rest)
    have hinner : leb128 (nameLen ++ encode name ++ content ++ rest) =
        .ok ((encode name).length, encode name ++ (content ++ rest)) := by
      rw [List.append_assoc, List.append_assoc, reads_leb128 hname]
    have hskip : (nameLen ++ encode name ++ content ++ rest).length -
        (encode name ++ (content ++ rest)).length + (encode name).length =
          (nameLen ++ encode name).length := by
      simp only [List.length_append]
      omega
    rw [List.cons_append, readSection, List.append_assoc, hread, ok_bind]
    simp only [if_true, hinner, ok_bind, List.take_left, decodeUtf8_encode, hskip, List.drop_left]
    rw [if_neg (by rw [List.length_append]; omega)]
    rfl
  | @other id content size hid hsize =>
    have hread := reads_leb128 hsize (content ++ rest)
    rw [List.cons_append, readSection, List.append_assoc, hread, ok_bind]
    simp only []
    rw [if_neg (by rw [List.length_append]; omega), if_neg hid, List.drop_left]
    rfl

theorem get?_joined (found : List (String × Bytes)) (sections : Dict String Bytes) :
    (found.foldl joinSection sections).get? name =
      if contents found name = [] then sections.get? name
      else some ((sections.get? name).getD [] ++ (contents found name).flatten) := by
  induction found generalizing sections with
  | nil => rfl
  | cons s found ih =>
    rw [List.foldl_cons, ih, joinSection, Dict.get?_insert, contents, contents, List.filterMap_cons]
    by_cases hs : s.1 = name
    · subst hs
      simp only [if_true, reduceCtorEq, if_false, Option.getD_some, List.flatten_cons]
      split_ifs with hnil
      · rw [hnil, List.flatten_nil, List.append_nil]
      · rw [List.append_assoc]
    · simp only [hs, Ne.symm hs, if_false]

theorem ne_nil_of_written {sections : List WasmSection} {chunks : List Bytes}
    (h : List.Forall₂ Written sections chunks) : ∀ c ∈ chunks, c ≠ [] := by
  induction h with
  | nil => exact List.forall_mem_nil _
  | cons hw _ ih => exact List.forall_mem_cons.mpr ⟨by cases hw <;> exact List.cons_ne_nil _ _, ih⟩

end Reading

/-- The custom sections of a module are found under their names, joined in their order, whatever
other sections there are and however the lengths are written. -/
theorem customSections_read {version : Bytes} (hversion : version.length = 4)
    {sections : List WasmSection} {chunks : List Bytes} (h : List.Forall₂ Written sections chunks) :
    ∃ found, customSections (magic ++ version ++ chunks.flatten) = .ok found ∧
      ∀ name, found.get? name =
        let parts := contents (sections.filterMap WasmSection.found) name
        if parts = [] then none else some parts.flatten := by
  have hreads : List.Forall₂ (Reads readSection) chunks (sections.map WasmSection.found) := by
    rw [List.forall₂_map_right_iff]
    exact h.flip.imp fun _ _ => reads_section
  have hall : Reader.all readSection chunks.flatten = .ok (sections.map WasmSection.found) :=
    Reader.all_reads hreads (ne_nil_of_written h) le_rfl
  have hheader : (magic ++ version).length = 8 := by
    rw [List.length_append, hversion]
    rfl
  have hmagic : (magic ++ version ++ chunks.flatten).take 4 = magic := by
    rw [List.append_assoc]
    exact List.take_left' rfl
  have hdrop : (magic ++ version ++ chunks.flatten).drop 8 = chunks.flatten :=
    List.drop_left' hheader
  refine ⟨((sections.map WasmSection.found).filterMap id).foldl joinSection .empty, ?_,
    fun name => ?_⟩
  · rw [customSections, hmagic, if_neg (not_not.mpr rfl), hdrop, hall, ok_bind]
  · rw [List.filterMap_map, get?_joined]
    rfl

/-- A module with a section of code between two custom ones of a name; the length of the second is
written with a zero at its end. -/
theorem customSections_read_sample :
    ∃ found, customSections (magic ++ [1, 0, 0, 0] ++
        [[0, 3, 1, 97, 7], [10, 1, 9], [0, 131, 0, 1, 97, 8]].flatten) = .ok found ∧
      ∀ name, found.get? name =
        let parts :=
          contents ([WasmSection.custom "a" [7], .other 10 [9], .custom "a" [8]].filterMap
          WasmSection.found) name
        if parts = [] then none else some parts.flatten := by
  have hname : Leb128 (encode "a").length [1] := .last (b := 1) (by decide)
  have hfirst : Leb128 ([1] ++ encode "a" ++ [7]).length [3] := .last (b := 3) (by decide)
  have hcode : Leb128 [(9 : UInt8)].length [1] := .last (b := 1) (by decide)
  have hlast : Leb128 ([1] ++ encode "a" ++ [8]).length [131, 0] :=
    .more (b := 131) (by decide) (.last (b := 0) (by decide))
  exact customSections_read rfl
    (.cons (.custom hname hfirst)
      (.cons (.other (by decide) hcode) (.cons (.custom hname hlast) .nil)))

end RefractContracts.Specs
