import RefractContracts.Scripts.MerkleBatch

/-! Batch files. `build` hashes the entries of a batch, builds the tree and stores with each
leaf its proof; `verify` recomputes all of it. What `verify` finds no error in is a batch of
distinct leaves with proofs under the tree's own root, and every built batch is one. Bytes
are kept as bytes, where the files have hex digits. -/

namespace RefractContracts.Scripts

/-! ### Building and verifying -/

/-- An entry of the input; without a salt it gets a random one. -/
structure Entry where
  recipient : String
  amount : ℤ
  salt : Option Bytes

structure BatchLeaf where
  recipient : String
  amount : ℤ
  salt : Bytes
  leaf : Bytes
  proof : List Bytes
  deriving DecidableEq

structure Batch where
  version : ℕ
  asset : String
  root : Bytes
  totalAmount : ℤ
  depth : ℕ
  leaves : List BatchLeaf
  deriving DecidableEq

/-- The variables of the loop in `verify_batch`; of the set only membership is used, and its
list where the tree is rebuilt. -/
structure Check where
  errors : List String
  seen : List Bytes
  total : ℤ

def BatchLeaf.fields (l : BatchLeaf) (asset : String) : LeafFields :=
  ⟨l.recipient, asset, l.amount, l.salt⟩

section Files
variable (sha256 : Bytes → Digest32)

/-- One round of the loop over the entries, with what `secrets.token_bytes(32)` would give. -/
def addEntry (asset : String) (leaves : List BatchLeaf) (entry : Entry × Bytes) :
    Option (List BatchLeaf) := do
  let (entry, token) := entry
  if entry.amount ≤ 0 then none
  else
    let salt := entry.salt.getD token
    let h ← leafHash sha256 ⟨entry.recipient, asset, entry.amount, salt⟩
    if h ∈ leaves.map BatchLeaf.leaf then none
    else some (leaves ++ [⟨entry.recipient, entry.amount, salt, h, []⟩])

def addProof (levels : List (List Bytes)) (l : BatchLeaf) : Option BatchLeaf := do
  let proof ← proofFor levels l.leaf
  some { l with proof := proof }

def buildBatch (asset : String) (entries : List (Entry × Bytes)) : Option Batch := do
  let _ ← decodeStrkey asset
  let leaves ← entries.foldlM (addEntry sha256 asset) []
  let levels ← buildTree sha256 (leaves.map BatchLeaf.leaf)
  let root ← rootOf levels
  let leaves ← leaves.mapM (addProof levels)
  some ⟨1, asset, root, (leaves.map BatchLeaf.amount).sum, levels.length - 1, leaves⟩

/-- One round of the loop over the leaves. -/
def checkLeaf (asset : String) (root : Bytes) (check : Check) (entry : BatchLeaf × ℕ) :
    Option Check := do
  let (l, i) := entry
  let errors := check.errors ++
    if l.amount ≤ 0 then [s!"leaf {i}: non-positive amount"] else []
  let h ← leafHash sha256 (l.fields asset)
  let errors := errors ++
    if h ≠ l.leaf then [s!"leaf {i}: stored leaf hash does not match its fields"] else []
  let errors := errors ++ if h ∈ check.seen then [s!"leaf {i}: duplicate leaf"] else []
  let seen := if h ∈ check.seen then check.seen else check.seen ++ [h]
  let errors := errors ++
    if verifyProof sha256 root h l.proof = false then [s!"leaf {i}: proof does not reach the root"]
    else []
  some ⟨errors, seen, check.total + l.amount⟩

def verifyBatch (batch : Batch) (expectedTotal : ℤ) : Option (List String) := do
  let check ← batch.leaves.zipIdx.foldlM (checkLeaf sha256 batch.asset batch.root) ⟨[], [], 0⟩
  let errors := check.errors ++
    if batch.totalAmount ≠ check.total then
      [s!"batch file total {batch.totalAmount} != sum of leaves {check.total}"]
    else []
  let errors := errors ++
    if check.total ≠ expectedTotal then
      [s!"sum of leaves {check.total} != expected total_amount {expectedTotal}"]
    else []
  if check.seen = [] then some errors
  else
    let levels ← buildTree sha256 check.seen
    let rebuilt ← rootOf levels
    some (errors ++
      if rebuilt ≠ batch.root then ["root does not match a rebuild of the leaf set"] else [])

end Files

/-! ### Sound batches -/

section Sound
variable {sha256 : Bytes → Digest32} {asset : String} {root : Bytes} {l : BatchLeaf}
  {ls : List BatchLeaf} {check check' : Check} {batch : Batch}

/-- The leaf is that of its fields, and its proof leads to the root. -/
structure SoundLeaf (sha256 : Bytes → Digest32) (asset : String) (root : Bytes) (l : BatchLeaf) :
    Prop where
  pos : 0 < l.amount
  hash : leafHash sha256 (l.fields asset) = some l.leaf
  proof : verifyProof sha256 root l.leaf l.proof = true

/-- The leaves are sound and distinct, the total is theirs, and the root is that of their tree. -/
structure SoundBatch (sha256 : Bytes → Digest32) (batch : Batch) : Prop where
  leaves : ∀ l ∈ batch.leaves, SoundLeaf sha256 batch.asset batch.root l
  distinct : (batch.leaves.map BatchLeaf.leaf).Nodup
  total : batch.totalAmount = (batch.leaves.map BatchLeaf.amount).sum
  tree : batch.leaves ≠ [] → ∃ levels,
    buildTree sha256 (batch.leaves.map BatchLeaf.leaf) = some levels ∧
    rootOf levels = some batch.root

theorem ite_nil_iff {p : Prop} [Decidable p] {s : String} :
    (if p then [s] else []) = [] ↔ ¬ p := by
  split <;> simp [*]

/-- A round finds no error in a new sound leaf, and in no other. -/
theorem checkLeaf_clean {i : ℕ} :
    (checkLeaf sha256 asset root check (l, i) = some check' ∧ check'.errors = []) ↔
      (check.errors = [] ∧ SoundLeaf sha256 asset root l ∧ l.leaf ∉ check.seen) ∧
        check' = ⟨[], check.seen ++ [l.leaf], check.total + l.amount⟩ := by
  constructor
  · rintro ⟨h, hclean⟩
    simp only [checkLeaf, Option.bind_eq_bind, Option.bind_eq_some_iff, Option.some.injEq] at h
    obtain ⟨hash, hhash, rfl⟩ := h
    simp only [List.append_eq_nil_iff, ite_nil_iff, not_le, not_not] at hclean
    obtain ⟨⟨⟨⟨hnil, hpos⟩, rfl⟩, hnew⟩, hproof⟩ := hclean
    refine ⟨⟨hnil, ⟨hpos, hhash, by simpa using hproof⟩, hnew⟩, ?_⟩
    simp [hnil, not_le.mpr hpos, hnew, hproof]
  · rintro ⟨⟨hnil, hl, hnew⟩, rfl⟩
    refine ⟨?_, rfl⟩
    simp [checkLeaf, hl.hash, hnil, not_le.mpr hl.pos, hnew, hl.proof]

theorem checkLeaves_clean {k : ℕ} :
    ((ls.zipIdx k).foldlM (checkLeaf sha256 asset root) check = some check' ∧ check'.errors = []) ↔
      (check.errors = [] ∧ (∀ l ∈ ls, SoundLeaf sha256 asset root l ∧ l.leaf ∉ check.seen) ∧
        (ls.map BatchLeaf.leaf).Nodup) ∧
        check' = ⟨[], check.seen ++ ls.map BatchLeaf.leaf,
          check.total + (ls.map BatchLeaf.amount).sum⟩ := by
  induction ls generalizing check k with
  | nil =>
    simp only [List.zipIdx_nil, List.foldlM_nil, Option.pure_def, Option.some.injEq, List.map_nil,
      List.append_nil, List.sum_nil, add_zero]
    constructor
    · rintro ⟨rfl, hclean⟩
      exact ⟨⟨hclean, List.forall_mem_nil _, List.nodup_nil⟩, by rw [← hclean]⟩
    · rintro ⟨⟨hnil, -⟩, rfl⟩
      exact ⟨by rw [← hnil], rfl⟩
  | cons l ls ih =>
    simp only [List.zipIdx_cons, List.foldlM_cons, Option.bind_eq_bind, Option.bind_eq_some_iff,
      List.forall_mem_cons, List.map_cons, List.nodup_cons, List.sum_cons]
    constructor
    · rintro ⟨⟨mid, hmid, hrest⟩, hclean⟩
      obtain ⟨⟨hmidnil, hall, hnodup⟩, rfl⟩ := ih.mp ⟨hrest, hclean⟩
      obtain ⟨⟨hnil, hl, hnew⟩, rfl⟩ := checkLeaf_clean.mp ⟨hmid, hmidnil⟩
      refine ⟨⟨hnil, ⟨⟨hl, hnew⟩, fun x hx => ⟨(hall x hx).1, fun h => ?_⟩⟩, fun h => ?_,
        hnodup⟩, ?_⟩
      · exact (hall x hx).2 (List.mem_append_left _ h)
      · obtain ⟨x, hx, heq⟩ := List.mem_map.mp h
        exact (hall x hx).2 (heq ▸ List.mem_append_right _ (List.mem_singleton.mpr rfl))
      · rw [List.append_assoc, List.singleton_append, add_assoc]
    · rintro ⟨⟨hnil, ⟨⟨hl, hnew⟩, hall⟩, hfresh, hnodup⟩, rfl⟩
      obtain ⟨hmid, hmidnil⟩ := (checkLeaf_clean (i := k)).mpr ⟨⟨hnil, hl, hnew⟩, rfl⟩
      refine ⟨⟨_, hmid,
        (ih.mpr ⟨⟨hmidnil, fun x hx => ⟨(hall x hx).1, fun h => ?_⟩, hnodup⟩, ?_⟩).1⟩,
        rfl⟩
      · rcases List.mem_append.mp h with h | h
        · exact (hall x hx).2 h
        · exact hfresh (List.mem_singleton.mp h ▸ List.mem_map_of_mem hx)
      · rw [List.append_assoc, List.singleton_append, add_assoc]

/-- A batch file is found clean exactly if it is sound and of the expected total. -/
theorem verifyBatch_clean {expectedTotal : ℤ} :
    verifyBatch sha256 batch expectedTotal = some [] ↔
      SoundBatch sha256 batch ∧ batch.totalAmount = expectedTotal := by
  constructor
  · intro h
    simp only [verifyBatch, Option.bind_eq_bind, Option.bind_eq_some_iff] at h
    obtain ⟨check, hcheck, h⟩ := h
    have hall : check.errors = [] ∧ batch.totalAmount = check.total ∧ check.total = expectedTotal ∧
        (check.seen ≠ [] → ∃ levels, buildTree sha256 check.seen = some levels ∧
          rootOf levels = some batch.root) := by
      split at h
      · next hseen =>
        simp only [Option.some.injEq, List.append_eq_nil_iff, ite_nil_iff, not_not] at h
        obtain ⟨⟨hclean, htotal⟩, hexpected⟩ := h
        exact ⟨hclean, htotal, hexpected, absurd hseen⟩
      · simp only [Option.bind_eq_some_iff, Option.some.injEq, List.append_eq_nil_iff, ite_nil_iff,
          not_not] at h
        obtain ⟨levels, hlevels, root, hroot, ⟨⟨hclean, htotal⟩, hexpected⟩, rfl⟩ := h
        exact ⟨hclean, htotal, hexpected, fun _ => ⟨levels, hlevels, hroot⟩⟩
    obtain ⟨hclean, htotal, hexpected, htree⟩ := hall
    obtain ⟨⟨-, hleaves, hnodup⟩, rfl⟩ := checkLeaves_clean.mp ⟨hcheck, hclean⟩
    refine ⟨⟨fun l hl => (hleaves l hl).1, hnodup, ?_, fun hne => ?_⟩, htotal.trans hexpected⟩
    · exact htotal.trans (zero_add _)
    · exact htree (by simpa using hne)
  · rintro ⟨hb, rfl⟩
    have hcheck : batch.leaves.zipIdx.foldlM (checkLeaf sha256 batch.asset batch.root) ⟨[], [], 0⟩ =
        some ⟨[], [] ++ batch.leaves.map BatchLeaf.leaf,
          0 + (batch.leaves.map BatchLeaf.amount).sum⟩ :=
      (checkLeaves_clean.mpr ⟨⟨rfl, fun l hl => ⟨hb.leaves l hl, List.not_mem_nil⟩, hb.distinct⟩,
        rfl⟩).1
    rw [List.nil_append, zero_add, ← hb.total] at hcheck
    rw [verifyBatch, hcheck]
    by_cases hne : batch.leaves = []
    · simp [hne]
    · obtain ⟨levels, hlevels, hroot⟩ := hb.tree hne
      simp [hne, hlevels, hroot]

/-! ### Built batches -/

section Built
variable {entries : List (Entry × Bytes)} {levels : List (List Bytes)}

/-- The leaves so far are of positive amounts, hashed from their fields, and distinct. -/
structure Hashed (sha256 : Bytes → Digest32) (asset : String) (ls : List BatchLeaf) : Prop where
  pos : ∀ l ∈ ls, 0 < l.amount
  hash : ∀ l ∈ ls, leafHash sha256 (l.fields asset) = some l.leaf
  distinct : (ls.map BatchLeaf.leaf).Nodup

theorem addEntry_hashed {ls' : List BatchLeaf} {entry : Entry × Bytes}
    (h : addEntry sha256 asset ls entry = some ls') (hls : Hashed sha256 asset ls) :
    Hashed sha256 asset ls' := by
  simp only [addEntry, Option.bind_eq_bind] at h
  split at h
  · cases h
  · next hpos =>
    obtain ⟨hash, hhash, h⟩ := Option.bind_eq_some_iff.mp h
    split at h
    · cases h
    · next hnew =>
      obtain rfl := Option.some.inj h
      refine ⟨List.forall_mem_append.mpr ⟨hls.pos, List.forall_mem_singleton.mpr (not_le.mp hpos)⟩,
        List.forall_mem_append.mpr ⟨hls.hash, List.forall_mem_singleton.mpr hhash⟩, ?_⟩
      rw [List.map_append, List.map_singleton]
      exact hls.distinct.append (List.nodup_singleton _) (by simpa using hnew)

theorem addEntries_hashed {ls' : List BatchLeaf}
    (h : entries.foldlM (addEntry sha256 asset) ls = some ls') (hls : Hashed sha256 asset ls) :
    Hashed sha256 asset ls' := by
  induction entries generalizing ls with
  | nil =>
    obtain rfl := Option.some.inj h
    exact hls
  | cons entry entries ih =>
    rw [List.foldlM_cons, Option.bind_eq_bind] at h
    obtain ⟨mid, hmid, h⟩ := Option.bind_eq_some_iff.mp h
    exact ih h (addEntry_hashed hmid hls)

/-- Adding the proofs changes nothing else. -/
theorem addProofs {ls' : List BatchLeaf} (h : ls.mapM (addProof levels) = some ls') :
    ls'.map BatchLeaf.leaf = ls.map BatchLeaf.leaf ∧ ∀ l' ∈ ls', ∃ l ∈ ls, ∃ proof,
      proofFor levels l.leaf = some proof ∧ l' = { l with proof := proof } := by
  induction ls generalizing ls' with
  | nil =>
    obtain rfl := Option.some.inj h
    exact ⟨rfl, List.forall_mem_nil _⟩
  | cons l ls ih =>
    simp only [List.mapM_cons, addProof, Option.bind_eq_bind, Option.bind_eq_some_iff,
      Option.pure_def, Option.some.injEq] at h
    obtain ⟨_, ⟨proof, hproof, rfl⟩, rest, hrest, rfl⟩ := h
    obtain ⟨hmap, hall⟩ := ih hrest
    refine ⟨by rw [List.map_cons, List.map_cons, hmap], List.forall_mem_cons.mpr ⟨?_, ?_⟩⟩
    · exact ⟨l, List.mem_cons_self, proof, hproof, rfl⟩
    · intro l' hl'
      obtain ⟨x, hx, hproof⟩ := hall l' hl'
      exact ⟨x, List.mem_cons_of_mem _ hx, hproof⟩

/-- A batch that was built is sound, so verifying it against its own total finds no error. -/
theorem buildBatch_sound (h : buildBatch sha256 asset entries = some batch) :
    SoundBatch sha256 batch := by
  simp only [buildBatch, Option.bind_eq_bind, Option.bind_eq_some_iff, Option.some.injEq] at h
  obtain ⟨_, -, ls, hls, levels, hlevels, root, hroot, ls', hls', rfl⟩ := h
  have hashed : Hashed sha256 asset ls := addEntries_hashed hls
    ⟨List.forall_mem_nil _, List.forall_mem_nil _, List.nodup_nil⟩
  obtain ⟨hmap, hproofs⟩ := addProofs hls'
  obtain ⟨levels', root', hlevels', hroot', hcomplete⟩ :=
    buildTree_complete sha256 (buildTree_eq_some hlevels).1
  obtain rfl := Option.some.inj (hlevels.symm.trans hlevels')
  obtain rfl := Option.some.inj (hroot.symm.trans hroot')
  refine ⟨fun l' hl' => ?_, hmap ▸ hashed.distinct, rfl, fun _ => ⟨levels, hmap ▸ hlevels, hroot⟩⟩
  obtain ⟨l, hl, proof, hproof, rfl⟩ := hproofs l' hl'
  obtain ⟨proof', hproof', hverify⟩ := hcomplete l.leaf (List.mem_map_of_mem hl)
  obtain rfl := Option.some.inj (hproof.symm.trans hproof')
  exact ⟨hashed.pos l hl, hashed.hash l hl, hverify⟩

theorem verifyBatch_built (h : buildBatch sha256 asset entries = some batch) :
    verifyBatch sha256 batch batch.totalAmount = some [] :=
  verifyBatch_clean.mpr ⟨buildBatch_sound h, rfl⟩

end Built

/-- In a sound batch, a proof that leads to the root is of one of its leaves. -/
theorem SoundBatch.proof_of_leaf (hb : SoundBatch sha256 batch) (hne : batch.leaves ≠ [])
    {leaf : LeafFields} {hash : Bytes} {proof : List Bytes}
    (hleaf : leafHash sha256 leaf = some hash)
    (hfree : ∀ levels, buildTree sha256 (batch.leaves.map BatchLeaf.leaf) = some levels →
      CollisionFree sha256 (treeMessages (batch.leaves.map (·.fields batch.asset)) levels ++
        proofMessages sha256 leaf hash proof))
    (hverify : verifyProof sha256 batch.root hash proof = true) :
    ∃ l ∈ batch.leaves, l.leaf = hash := by
  obtain ⟨levels, hlevels, hroot⟩ := hb.tree hne
  have hbatch : (batch.leaves.map (·.fields batch.asset)).map (leafHash sha256) =
      (batch.leaves.map BatchLeaf.leaf).map some := by
    rw [List.map_map, List.map_map]
    exact List.map_congr_left fun l hl => (hb.leaves l hl).hash
  exact List.mem_map.mp
    (verifyProof_sound hbatch hlevels hroot hleaf (hfree levels hlevels) hverify)

end Sound

end RefractContracts.Scripts
