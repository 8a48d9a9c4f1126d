import Mathlib
import RefractContracts.Host.Text
import RefractContracts.Host.Base64
import RefractContracts.Scripts.Commitment
import RefractContracts.SnapshotHarness.Load

/-! What a content hash pins. The fields of a row are joined with tabs and the rows with newlines,
and neither is kept out of the text of an entry. A list of two entries has the content of one entry
that has the second row in its XDR, and a tab moves text from one field to the next: the content
tells which list it is of only for no entry, or for one entry whose row is read in one way. Among
entries without tabs and newlines it tells the entries up to order. -/

namespace RefractContracts.SnapshotHarness

open Host Scripts

/-! ### Rows -/

section Rows
variable {e e' : Entry} {s t : List Char} {v : I128}

/-- The value as it is written. -/
def decimal (v : I128) : List Char := (toString v.1).toList

theorem notMem_decimal {c : Char} (hdigit : ¬ c.isDigit) (hminus : c ≠ '-') (v : I128) :
    c ∉ decimal v := notMem_repr_int hdigit hminus v.1

theorem tab_notMem_decimal (v : I128) : '\t' ∉ decimal v :=
  notMem_decimal (by decide) (by decide) v

theorem decimal_inj {v w : I128} (h : decimal v = decimal w) : v = w :=
  Subtype.ext (Int.repr_injective (String.toList_inj.mp h))

theorem toList_row (e : Entry) : e.row.toList = e.contract.toList ++
    '\t' :: (e.key.toList ++ '\t' :: (decimal e.value ++ '\t' :: e.xdr.toList)) := by
  simp only [Entry.row, String.toList_append, List.append_assoc]
  rfl

namespace Entry

/-- The row is read in one way: no tab is before the value, and no number between tabs after it. -/
structure OneWay (e : Entry) : Prop where
  contract : '\t' ∉ e.contract.toList
  key : '\t' ∉ e.key.toList
  xdr : ∀ v, ¬ '\t' :: (decimal v ++ ['\t']) <:+: '\t' :: e.xdr.toList

/-- No field has a separator. -/
def Plain (e : Entry) : Prop :=
  ∀ field ∈ [e.contract, e.key, e.xdr], '\t' ∉ field.toList ∧ '\n' ∉ field.toList

theorem Plain.oneWay (h : e.Plain) : e.OneWay where
  contract := (h _ (by simp)).1
  key := (h _ (by simp)).1
  xdr v hinfix := by
    obtain ⟨before, after, heq⟩ := hinfix
    have hcount := congrArg (List.count '\t') heq
    rw [List.count_cons_self, List.count_eq_zero_of_not_mem (h e.xdr (by simp)).1,
      List.count_append, List.count_append, List.count_cons_self, List.count_append,
      List.count_singleton_self] at hcount
    omega

theorem Plain.newline_notMem_row (h : e.Plain) : '\n' ∉ e.row.toList := by
  have hcontract := (h e.contract (by simp)).2
  have hkey := (h e.key (by simp)).2
  have hxdr := (h e.xdr (by simp)).2
  have hvalue := notMem_decimal (c := '\n') (by decide) (by decide) e.value
  simp [toList_row, hcontract, hkey, hxdr, hvalue]

end Entry

/-- A value that is read further on is a number between tabs after the value of the entry. -/
theorem infix_of_later
    (h : decimal v ++ '\t' :: s = t ++ '\t' :: (decimal e.value ++ '\t' :: e.xdr.toList)) :
    '\t' :: (decimal e.value ++ ['\t']) <:+: '\t' :: s := by
  rcases append_cons_eq_append_cons (tab_notMem_decimal v) h with ⟨-, hs⟩ | ⟨between, -, hs⟩
  · rw [← hs]
    exact ⟨[], e.xdr.toList, by simp⟩
  · rw [hs]
    exact ⟨'\t' :: between, e.xdr.toList, by simp⟩

/-- A row that is read in one way is the row of one entry. -/
theorem Entry.OneWay.eq_of_row (he : e.OneWay) (h : e'.row = e.row) : e' = e := by
  have hrows := (toList_row e).symm.trans ((congrArg String.toList h.symm).trans (toList_row e'))
  -- the contract and the key of `e'` end at those of `e`, or its value is read further on
  rcases append_cons_eq_append_cons he.contract hrows with ⟨hcontract, hrest⟩ | ⟨m, -, hrest⟩
  · rcases append_cons_eq_append_cons he.key hrest.symm with ⟨hkey, hrest⟩ | ⟨m, -, hrest⟩
    · have hvalues := append_cons_eq_append_cons (tab_notMem_decimal _) hrest.symm
      rcases hvalues with ⟨hv, hxdr⟩ | ⟨m, hv, -⟩
      · exact Entry.ext (String.toList_inj.mp hcontract) (String.toList_inj.mp hkey)
          (decimal_inj hv) (String.toList_inj.mp hxdr)
      · exact absurd (hv ▸ List.mem_append_right _ List.mem_cons_self) (tab_notMem_decimal e'.value)
    · exact absurd (infix_of_later hrest) (he.xdr _)
  · rcases append_cons_eq_append_cons he.key hrest with ⟨-, hrest⟩ | ⟨m', -, hrest⟩
    · exact absurd (infix_of_later hrest.symm) (he.xdr _)
    · have hlater : decimal e.value ++ '\t' :: e.xdr.toList =
          (m' ++ '\t' :: e'.key.toList) ++ '\t' :: (decimal e'.value ++ '\t' :: e'.xdr.toList) := by
        rw [hrest, List.append_assoc, List.cons_append]
      exact absurd (infix_of_later hlater) (he.xdr _)

end Rows

/-! ### Contents -/

section Contents
variable {e f : Entry} {xs ys rest : List Entry}

/-- The content of more than one entry. -/
theorem intercalate_rows (e f : Entry) (rest : List Entry) :
    "\n".intercalate ((e :: f :: rest).map Entry.row) =
      e.row ++ "\n" ++ "\n".intercalate ((f :: rest).map Entry.row) := by
  rw [List.map_cons, List.map_cons, String.intercalate_cons_cons]

theorem canonicalText_singleton (e : Entry) : canonicalText [e] = e.row :=
  String.intercalate_singleton

theorem canonicalBytes_inj :
    canonicalBytes xs = canonicalBytes ys ↔ canonicalText xs = canonicalText ys := encode_inj

/-- One entry for the first of more, with the rows of the others in its XDR. -/
def merged (e : Entry) (others : List Entry) : Entry :=
  { e with xdr := e.xdr ++ "\n" ++ "\n".intercalate (others.map Entry.row) }

theorem row_merged (e f : Entry) (rest : List Entry) :
    (merged e (f :: rest)).row = "\n".intercalate ((e :: f :: rest).map Entry.row) := by
  rw [intercalate_rows, merged, Entry.row, Entry.row]
  simp only [String.append_assoc]

/-- The value of the second entry is in the XDR, between tabs. -/
theorem not_oneWay_merged (e f : Entry) (rest : List Entry) : ¬ (merged e (f :: rest)).OneWay := by
  intro h
  obtain ⟨after, hafter⟩ : ∃ after, ("\n".intercalate ((f :: rest).map Entry.row)).toList =
      f.row.toList ++ after := by
    cases rest with
    | nil => exact ⟨[], by rw [List.map_singleton, String.intercalate_singleton, List.append_nil]⟩
    | cons g rest =>
      rw [intercalate_rows, String.toList_append, String.toList_append, List.append_assoc]
      exact ⟨_, rfl⟩
  refine h.xdr f.value
    ⟨'\t' :: (e.xdr.toList ++ '\n' :: (f.contract.toList ++ '\t' :: f.key.toList)),
      f.xdr.toList ++ after, ?_⟩
  rw [merged, String.toList_append, String.toList_append, hafter, toList_row]
  simp

/-- What is sorted is nothing, one entry, or more. -/
theorem canonicalText_cases (xs : List Entry) :
    xs = [] ∨ (∃ e, xs = [e]) ∨ 2 ≤ xs.length ∧
      ∃ e f rest, canonicalText xs = (merged e (f :: rest)).row := by
  have hlength := (perm_sorted xs).length_eq
  match hsorted : sorted xs with
  | [] => exact .inl (List.eq_nil_of_length_eq_zero
      (hlength.symm.trans (congrArg List.length hsorted)))
  | [e] => exact .inr (.inl (List.length_eq_one_iff.mp
      (hlength.symm.trans (congrArg List.length hsorted))))
  | e :: f :: rest =>
    rw [hsorted, List.length_cons, List.length_cons] at hlength
    refine .inr (.inr ⟨by omega, e, f, rest, ?_⟩)
    rw [row_merged, canonicalText, hsorted]

theorem row_ne_empty (e : Entry) : e.row ≠ "" := by
  intro h
  have hlist := (toList_row e).symm.trans (congrArg String.toList h)
  exact absurd hlist (by simp)

/-- The content tells which list it is of: no entry, or one whose row is read in one way. -/
def ReadOneWay (xs : List Entry) : Prop := xs = [] ∨ ∃ e : Entry, xs = [e] ∧ e.OneWay

theorem ReadOneWay.perm (hxs : ReadOneWay xs) (h : canonicalText xs = canonicalText ys) :
    xs.Perm ys := by
  rcases hxs with rfl | ⟨e, rfl, he⟩
  · rcases canonicalText_cases ys with rfl | ⟨f, rfl⟩ | ⟨-, f, g, rest, hys⟩
    · exact .nil
    · exact absurd (h.trans (canonicalText_singleton f)).symm (row_ne_empty f)
    · exact absurd (h.trans hys).symm (row_ne_empty _)
  · rw [canonicalText_singleton] at h
    rcases canonicalText_cases ys with rfl | ⟨f, rfl⟩ | ⟨-, f, g, rest, hys⟩
    · exact absurd h (row_ne_empty e)
    · rw [canonicalText_singleton] at h
      rw [he.eq_of_row h.symm]
    · have hmerged : merged f (g :: rest) = e := he.eq_of_row (h.trans hys).symm
      exact absurd (hmerged ▸ he) (not_oneWay_merged f g rest)

/-- A row that is read in several ways is the row of another entry. -/
theorem exists_same_row (he : ¬ e.OneWay) : ∃ e', e' ≠ e ∧ e'.row = e.row := by
  by_cases hcontract : '\t' ∈ e.contract.toList
  · obtain ⟨before, after, -, hs⟩ := exists_first hcontract
    refine ⟨⟨.ofList before, .ofList after ++ "\t" ++ e.key, e.value, e.xdr⟩, ?_, ?_⟩
    · intro heq
      have hfield := congrArg (fun e : Entry => e.contract.toList.length) heq
      simp [hs] at hfield
    · rw [← String.toList_inj, toList_row, toList_row, hs]
      simp
  by_cases hkey : '\t' ∈ e.key.toList
  · obtain ⟨before, after, -, hs⟩ := exists_first hkey
    refine ⟨⟨e.contract ++ "\t" ++ .ofList before, .ofList after, e.value, e.xdr⟩, ?_, ?_⟩
    · intro heq
      have hfield := congrArg (fun e : Entry => e.key.toList.length) heq
      simp [hs] at hfield
      omega
    · rw [← String.toList_inj, toList_row, toList_row, hs]
      simp
  -- the key takes the value and what is before the number in the XDR
  have hxdr : ∃ v, '\t' :: (decimal v ++ ['\t']) <:+: '\t' :: e.xdr.toList := by
    by_contra hnone
    exact he ⟨hcontract, hkey, fun v hv => hnone ⟨v, hv⟩⟩
  obtain ⟨v, before, after, hs⟩ := hxdr
  refine ⟨⟨e.contract, e.key ++ "\t" ++ .ofList (decimal e.value ++ before), v, .ofList after⟩,
    ?_, ?_⟩
  · intro heq
    have hfield := congrArg (fun e : Entry => e.key.toList.length) heq
    simp at hfield
  · rw [← String.toList_inj, toList_row, toList_row, ← hs]
    simp

/-- Another list with the content. -/
theorem exists_same_content (h : ¬ ReadOneWay xs) :
    ∃ ys, canonicalText xs = canonicalText ys ∧ ¬ xs.Perm ys := by
  rcases canonicalText_cases xs with hnil | ⟨e, rfl⟩ | ⟨hlength, e, f, rest, hxs⟩
  · exact absurd (.inl hnil) h
  · obtain ⟨e', hne, hrow⟩ := exists_same_row fun he => h (.inr ⟨e, rfl, he⟩)
    refine ⟨[e'], ?_, fun hperm => hne ?_⟩
    · rw [canonicalText_singleton, canonicalText_singleton, hrow]
    · exact (List.singleton_perm_singleton.mp hperm).symm
  · refine ⟨[merged e (f :: rest)], hxs.trans (canonicalText_singleton _).symm, fun hperm => ?_⟩
    have hone := hperm.length_eq
    rw [List.length_singleton] at hone
    omega

/-- Entries without separators are told by their rows, one by one. -/
theorem eq_of_map_row (hxs : ∀ e ∈ xs, e.OneWay) (h : xs.map Entry.row = ys.map Entry.row) :
    xs = ys := by
  induction xs generalizing ys with
  | nil => exact (List.map_eq_nil_iff.mp h.symm).symm
  | cons e xs ih =>
    cases ys with
    | nil => cases h
    | cons f ys =>
      obtain ⟨hrow, hrest⟩ := List.cons.inj h
      obtain ⟨he, hxs⟩ := List.forall_mem_cons.mp hxs
      rw [he.eq_of_row hrow.symm, ih hxs hrest]

/-- The rows are read back from a content without separators in the entries. -/
theorem splitOn_canonicalText (hxs : ∀ e ∈ xs, e.Plain) (hne : xs ≠ []) :
    (canonicalText xs).toList.splitOn '\n' = (sorted xs).map fun e => e.row.toList := by
  have hrows : ∀ row ∈ (sorted xs).map fun e => e.row.toList, '\n' ∉ row := by
    intro row hrow
    obtain ⟨e, he, rfl⟩ := List.mem_map.mp hrow
    exact (hxs e ((perm_sorted xs).mem_iff.mp he)).newline_notMem_row
  have hsorted : (sorted xs).map (fun e => e.row.toList) ≠ [] := by
    intro hnil
    have hperm := perm_sorted xs
    rw [List.map_eq_nil_iff.mp hnil] at hperm
    exact hne hperm.nil_eq.symm
  have htext : (canonicalText xs).toList =
      ['\n'].intercalate ((sorted xs).map fun e => e.row.toList) := by
    rw [canonicalText, String.toList_intercalate, List.map_map]
    rfl
  rw [htext, List.splitOn_intercalate '\n' hrows hsorted]

theorem perm_of_plain (hxs : ∀ e ∈ xs, e.Plain) (hys : ∀ e ∈ ys, e.Plain)
    (h : canonicalText xs = canonicalText ys) : xs.Perm ys := by
  by_cases hx : xs = []
  · exact ReadOneWay.perm (.inl hx) h
  by_cases hy : ys = []
  · exact (ReadOneWay.perm (.inl hy) h.symm).symm
  have hsplit := congrArg (fun text : String => text.toList.splitOn '\n') h
  rw [splitOn_canonicalText hxs hx, splitOn_canonicalText hys hy] at hsplit
  have hrows : (sorted xs).map Entry.row = (sorted ys).map Entry.row := by
    refine List.map_injective_iff.mpr (fun _ _ => String.toList_inj.mp) ?_
    rw [List.map_map, List.map_map]
    exact hsplit
  have hone : ∀ e ∈ sorted xs, e.OneWay := by
    intro e he
    exact (hxs e ((perm_sorted xs).mem_iff.mp he)).oneWay
  have hsorted : sorted xs = sorted ys := eq_of_map_row hone hrows
  exact (perm_sorted xs).symm.trans (hsorted ▸ perm_sorted ys)

end Contents

/-! ### Hashes -/

section Hashes
variable {sha256 : Bytes → Digest32} {xs ys : List Entry}

theorem contentHash_eq (h : canonicalText xs = canonicalText ys) :
    contentHash sha256 xs = contentHash sha256 ys := by
  rw [contentHash, contentHash, canonicalBytes, canonicalBytes, h]

/-- Equal hashes are of equal contents, if the hash does not collide on the two. -/
theorem canonicalText_eq (hfree : CollisionFree sha256 [canonicalBytes xs, canonicalBytes ys])
    (h : contentHash sha256 xs = contentHash sha256 ys) : canonicalText xs = canonicalText ys := by
  refine canonicalBytes_inj.mp (hfree _ List.mem_cons_self _ ?_ (hexdigest_inj h))
  exact List.mem_cons_of_mem _ List.mem_cons_self

theorem collisionFree_of_eq (h : canonicalText xs = canonicalText ys) :
    CollisionFree sha256 [canonicalBytes xs, canonicalBytes ys] := by
  rw [← canonicalBytes_inj.mpr h]
  intro m hm m' hm' _
  rw [List.mem_pair, or_self] at hm hm'
  rw [hm, hm']

end Hashes

/-- What is loaded keeps every entry if and only if no contract and key come twice. With a hash that
does not collide on the contents, the hash is of one list up to order if and only if the list has no
entry or one that is read in one way; and it tells entries without separators up to order. -/
theorem load_keeps_and_hash_pins_iff (sha256 : Bytes → Digest32) (decode : String → Option Bytes) :
    (∀ file loaded, load sha256 decode file = .ok loaded →
      (Kept file loaded ↔ (file.entries.map Entry.place).Nodup)) ∧
    (∀ xs, (∀ ys, CollisionFree sha256 [canonicalBytes xs, canonicalBytes ys] →
      contentHash sha256 xs = contentHash sha256 ys → xs.Perm ys) ↔ ReadOneWay xs) ∧
    ∀ xs ys, (∀ e ∈ xs ++ ys, e.Plain) →
      CollisionFree sha256 [canonicalBytes xs, canonicalBytes ys] →
      contentHash sha256 xs = contentHash sha256 ys → xs.Perm ys := by
  refine ⟨fun file loaded => kept_iff, fun xs => ⟨fun hpins => ?_, fun hxs ys hfree h => ?_⟩, ?_⟩
  · by_contra hxs
    obtain ⟨ys, htext, hperm⟩ := exists_same_content hxs
    exact hperm (hpins ys (collisionFree_of_eq htext) (contentHash_eq htext))
  · exact hxs.perm (canonicalText_eq hfree h)
  · intro xs ys hplain hfree h
    obtain ⟨hxs, hys⟩ := List.forall_mem_append.mp hplain
    exact perm_of_plain hxs hys (canonicalText_eq hfree h)

/-! ### A capture -/

/-- SHA-256 on the contents of a few captures. -/
def captureDigest (m : Bytes) : Digest32 :=
  if m = encode "backstop\tshortfall\t500\tNTAw\nbackstop\ttotal_capital\t800\tODAw" then
    #v[104, 221, 206, 146, 198, 48, 146, 28, 148, 183, 210, 126, 202, 63, 37, 15, 77, 25, 208, 106,
      72, 227, 137, 104, 63, 65, 67, 72, 94, 104, 14, 16]
  else if m = encode "backstop\tshortfall\t500\tNTAw" then
    #v[103, 24, 111, 3, 97, 87, 97, 138, 144, 115, 90, 16, 73, 157, 180, 157, 164, 128, 35, 143, 98,
      188, 128, 117, 191, 248, 47, 97, 219, 182, 136, 155]
  else if m = encode "pool\tstate\t1\tMQ==\npool\tstate\t2\tMg==" then
    #v[146, 74, 114, 255, 100, 65, 16, 192, 39, 86, 203, 122, 36, 182, 254, 210, 147, 124, 13, 31,
      22, 179, 73, 135, 240, 87, 35, 217, 111, 90, 253, 126]
  else Vector.replicate 32 0

/-- Standard base64: what is not the encoding of its own bytes is refused. -/
def standardDecode (s : String) : Option Bytes :=
  (Base64.b64decode s.toList).filter fun bytes => Base64.b64encode bytes = s.toList

def shortfall : Entry := ⟨"backstop", "shortfall", ⟨500, by decide⟩, "NTAw"⟩

def totalCapital : Entry := ⟨"backstop", "total_capital", ⟨800, by decide⟩, "ODAw"⟩

def capture (hash : String) (entries : List Entry) : SnapshotFile :=
  ⟨1, "1", "testnet", 51234567, 1729000000, hash, entries⟩

def backstopCapture : SnapshotFile :=
  capture "68ddce92c630921c94b7d27eca3f250f4d19d06a48e389683f4143485e680e10"
    [totalCapital, shortfall]

theorem load_backstopCapture :
    load captureDigest standardDecode backstopCapture = .ok backstopCapture.collected := by
  refine load_eq_ok.mpr ⟨⟨rfl, rfl, by decide +kernel, ?_⟩, rfl⟩
  have htotal : totalCapital.HasXdr standardDecode := ⟨[56, 48, 48], by decide +kernel, by decide⟩
  have hshort : shortfall.HasXdr standardDecode := ⟨[53, 48, 48], by decide +kernel, by decide⟩
  exact List.forall_mem_cons.mpr ⟨htotal, List.forall_mem_singleton.mpr hshort⟩

theorem plain_shortfall : shortfall.Plain := by
  unfold Entry.Plain
  decide

/-- A capture of two entries is kept, and the hash of an entry and that of the capture pin them. -/
theorem backstopCapture_kept_and_pinned :
    Kept backstopCapture backstopCapture.collected ∧
    (∀ ys, CollisionFree captureDigest [canonicalBytes [shortfall], canonicalBytes ys] →
      contentHash captureDigest [shortfall] = contentHash captureDigest ys → [shortfall].Perm ys) ∧
    [totalCapital, shortfall].Perm [shortfall, totalCapital] := by
  have hiff := load_keeps_and_hash_pins_iff captureDigest standardDecode
  refine ⟨?_, ?_, ?_⟩
  · exact (hiff.1 _ _ load_backstopCapture).mpr (by decide +kernel)
  · exact (hiff.2.1 [shortfall]).mpr (.inr ⟨shortfall, rfl, plain_shortfall.oneWay⟩)
  · refine hiff.2.2 _ _ ?_ (by decide +kernel) (by decide +kernel)
    unfold Entry.Plain
    decide

/-- Two states of one contract, as they are captured. -/
def poolStates : List Entry :=
  [⟨"pool", "state", ⟨1, by decide⟩, "MQ=="⟩, ⟨"pool", "state", ⟨2, by decide⟩, "Mg=="⟩]

def poolCapture : SnapshotFile :=
  capture "924a72ff644110c02756cb7a24b6fed2937c0d1f16b34987f05723d96f5afd7e" poolStates

/-- The second state is loaded over the first one, and the hash of the two is that of one entry. -/
theorem poolStates_merged :
    (¬ ∀ (sha256 : Bytes → Digest32) (decode : String → Option Bytes) (file : SnapshotFile)
        (loaded : LoadedSnapshot), load sha256 decode file = .ok loaded → Kept file loaded) ∧
    ¬ ∀ (sha256 : Bytes → Digest32) (xs ys : List Entry),
      CollisionFree sha256 [canonicalBytes xs, canonicalBytes ys] →
      contentHash sha256 xs = contentHash sha256 ys → xs.Perm ys := by
  constructor
  · intro h
    have hload : load captureDigest standardDecode poolCapture = .ok poolCapture.collected := by
      refine load_eq_ok.mpr ⟨⟨rfl, rfl, by decide +kernel, ?_⟩, rfl⟩
      have hfirst : Entry.HasXdr standardDecode ⟨"pool", "state", ⟨1, by decide⟩, "MQ=="⟩ :=
        ⟨[49], by decide +kernel, by decide⟩
      have hsecond : Entry.HasXdr standardDecode ⟨"pool", "state", ⟨2, by decide⟩, "Mg=="⟩ :=
        ⟨[50], by decide +kernel, by decide⟩
      exact List.forall_mem_cons.mpr ⟨hfirst, List.forall_mem_singleton.mpr hsecond⟩
    exact absurd (h _ _ _ _ hload).1 (by decide +kernel)
  · intro h
    have hperm := h captureDigest poolStates
      [⟨"pool", "state", ⟨1, by decide⟩, "MQ==\npool\tstate\t2\tMg=="⟩] (by decide +kernel)
      (by decide +kernel)
    exact absurd hperm.length_eq (by decide)

end RefractContracts.SnapshotHarness
