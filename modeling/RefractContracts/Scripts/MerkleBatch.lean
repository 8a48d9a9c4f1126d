import Mathlib.Data.List.DropRight
import Mathlib.Data.List.Sort
import RefractContracts.Host.Bytes
import RefractContracts.Host.MerkleTree

/-! Off-chain tooling for Merkle disbursement batches. A leaf commits to a recipient, an
asset, an amount and a salt, and a node to its two children in the order of their bytes; the
first byte of a message tells leaves from nodes. Every leaf of a tree has its proof, and as
long as the hash does not collide on what is hashed, a proof can only be of a leaf. SHA-256 is
the parameter `sha256`; `none` is a `ValueError`. -/

namespace RefractContracts.Scripts

open Host

abbrev Bytes := List UInt8

abbrev Digest32 := Vector UInt8 32

def scvAddress : ℕ := 18
def scAddressTypeAccount : ℕ := 0
def scAddressTypeContract : ℕ := 1
def publicKeyTypeEd25519 : ℕ := 0
def versionAccount : ℕ := 6 <<< 3
def versionContract : ℕ := 2 <<< 3

def i128Min : ℤ := -2 ^ 127
def i128Max : ℤ := 2 ^ 127 - 1

/-! ### Strkey and XDR -/

/-- One bit of the checksum. -/
def crcRound (crc : ℕ) : ℕ :=
  (if crc &&& 0x8000 ≠ 0 then (crc <<< 1) ^^^ 0x1021 else crc <<< 1) &&& 0xFFFF

def crc16Xmodem (data : Bytes) : ℕ :=
  data.foldl (fun crc byte => crcRound^[8] (crc ^^^ (byte.toNat <<< 8))) 0

def base32Alphabet : List Char := "ABCDEFGHIJKLMNOPQRSTUVWXYZ234567".toList

/-- The value of up to eight base 32 digits. -/
def quantum (digits : List Char) : Option ℕ :=
  digits.foldlM (fun acc c => do return (acc <<< 5) + (← base32Alphabet.idxOf? c)) 0

/-- The digits eight by eight. -/
def quanta : ℕ → List Char → List (List Char)
  | 0, _ => []
  | fuel + 1, s => if s = [] then [] else s.take 8 :: quanta fuel (s.drop 8)

/-- `base64.b32decode`. -/
def b32decode (s : List Char) : Option Bytes :=
  if s.length % 8 ≠ 0 then none
  else do
    let digits := s.rdropWhile (· = '=')
    let padchars := s.length - digits.length
    let accs ← (quanta digits.length digits).mapM quantum
    let decoded := accs.flatMap (beBytes 5)
    if padchars ∉ [0, 1, 3, 4, 6] then none
    else if padchars ≠ 0 ∧ decoded ≠ [] then
      -- the last quantum is short; the bytes that are padding are cut off
      let last := beBytes 5 (accs.getLastD 0 <<< (5 * padchars))
      some (decoded.take (decoded.length - 5) ++ last.take ((43 - 5 * padchars) / 8))
    else some decoded

def decodeStrkey (strkey : String) : Option (ℕ × Bytes) := do
  let s := strkey.toList
  let raw ← b32decode (s ++ List.replicate ((8 - s.length % 8) % 8) '=')
  if raw.length ≠ 35 then none
  else
    let crc := crc16Xmodem (raw.take 33)
    if [UInt8.ofNat (crc % 256), UInt8.ofNat (crc / 256)] ≠ raw.drop 33 then none
    else some ((raw.headD 0).toNat, (raw.take 33).tail)

/-- XDR of the address as an `ScVal`. -/
def addressXdr (strkey : String) : Option Bytes := do
  let (version, key) ← decodeStrkey strkey
  if version = versionAccount then
    some (beBytes 4 scvAddress ++ beBytes 4 scAddressTypeAccount ++
      beBytes 4 publicKeyTypeEd25519 ++ key)
  else if version = versionContract then
    some (beBytes 4 scvAddress ++ beBytes 4 scAddressTypeContract ++ key)
  else none

/-! ### Hashing and tree -/

/-- The arguments of `leaf_hash`. -/
structure LeafFields where
  recipient : String
  asset : String
  amount : ℤ
  salt : Bytes

/-- `amount.to_bytes(16, "big", signed=True)`. -/
def beI128 (amount : ℤ) : Bytes := beBytes 16 (amount % 2 ^ 128).toNat

/-- What a leaf is the hash of. -/
def leafMessage (leaf : LeafFields) : Option Bytes := do
  if ¬ (i128Min ≤ leaf.amount ∧ leaf.amount ≤ i128Max) then none
  else if leaf.salt.length ≠ 32 then none
  else
    let recipient ← addressXdr leaf.recipient
    let asset ← addressXdr leaf.asset
    some (0 :: (recipient ++ asset ++ beI128 leaf.amount ++ leaf.salt))

/-- What a node is the hash of: its children, the smaller one first. -/
def nodeMessage (a b : Bytes) : Bytes := 1 :: if a ≤ b then a ++ b else b ++ a

section Hash
variable (sha256 : Bytes → Digest32)

def leafHash (leaf : LeafFields) : Option Bytes :=
  (leafMessage leaf).map fun data => (sha256 data).toList

def nodeHash (a b : Bytes) : Bytes := (sha256 (nodeMessage a b)).toList

/-- The levels of the tree, the sorted leaves first and the root last. -/
def buildTree (leaves : List Bytes) : Option (List (List Bytes)) :=
  if leaves = [] then none
  else some (MerkleTree.levelsFrom (nodeHash sha256) leaves.length (leaves.insertionSort (· ≤ ·)))

/-- `levels[-1][0]`. -/
def rootOf (levels : List (List Bytes)) : Option Bytes := levels.getLast?.bind List.head?

def proofFor (levels : List (List Bytes)) (leaf : Bytes) : Option (List Bytes) := do
  let level ← levels.head?
  let idx ← level.idxOf? leaf
  some (MerkleTree.siblings idx levels.dropLast)

def verifyProof (root leaf : Bytes) (proof : List Bytes) : Bool :=
  proof.foldl (nodeHash sha256) leaf == root

end Hash

/-! ### Messages -/

theorem nodeMessage_comm (a b : Bytes) : nodeMessage a b = nodeMessage b a := by
  unfold nodeMessage
  by_cases hab : a ≤ b
  · by_cases hba : b ≤ a
    · rw [List.le_antisymm hab hba]
    · rw [if_pos hab, if_neg hba]
  · rw [if_neg hab, if_pos ((List.le_total a b).resolve_left hab)]

theorem leafMessage_head {leaf : LeafFields} {m : Bytes} (h : leafMessage leaf = some m) :
    m.head? = some 0 := by
  unfold leafMessage at h
  split_ifs at h
  simp only [Option.bind_eq_bind, Option.bind_eq_some_iff, Option.some.injEq] at h
  obtain ⟨recipient, -, asset, -, rfl⟩ := h
  rfl

/-- The first byte tells a leaf from a node. -/
theorem leafMessage_ne_nodeMessage {leaf : LeafFields} {m a b : Bytes}
    (h : leafMessage leaf = some m) : m ≠ nodeMessage a b := by
  rintro rfl
  cases leafMessage_head h

/-- The parts of a node are 32 bytes each if one of them is, so the message determines them. -/
theorem mem_of_nodeMessage {a b x s : Bytes} (ha : a.length = 32) (hb : b.length = 32)
    (hx : x.length = 32) (h : nodeMessage x s = nodeMessage a b) : x = a ∨ x = b := by
  have hbody := (List.cons.inj h).2
  have hs : s.length = 32 := by
    have hlen := congrArg List.length hbody
    simp only [apply_ite List.length, List.length_append] at hlen
    split_ifs at hlen <;> omega
  split_ifs at hbody
  · exact .inl (List.append_inj hbody (hx.trans ha.symm)).1
  · exact .inr (List.append_inj hbody (hx.trans hb.symm)).1
  · exact .inr (List.append_inj hbody (hs.trans ha.symm)).2
  · exact .inl (List.append_inj hbody (hs.trans hb.symm)).2

/-- The hash has no collision among the messages. -/
def CollisionFree (sha256 : Bytes → Digest32) (messages : List Bytes) : Prop :=
  ∀ m ∈ messages, ∀ m' ∈ messages, sha256 m = sha256 m' → m = m'

instance (sha256 : Bytes → Digest32) (messages : List Bytes) :
    Decidable (CollisionFree sha256 messages) :=
  inferInstanceAs (Decidable (∀ m ∈ messages, ∀ m' ∈ messages, sha256 m = sha256 m' → m = m'))

/-- What is hashed to build a tree over the leaves. -/
def treeMessages (batch : List LeafFields) (levels : List (List Bytes)) : List Bytes :=
  batch.filterMap leafMessage ++ (MerkleTree.combined levels).map fun p => nodeMessage p.1 p.2

/-- What is hashed to check a proof of the leaf. -/
def proofMessages (sha256 : Bytes → Digest32) (leaf : LeafFields) (hash : Bytes)
    (proof : List Bytes) : List Bytes :=
  (leafMessage leaf).toList ++
    (MerkleTree.steps (nodeHash sha256) hash proof).map fun p => nodeMessage p.1 p.2

/-! ### Batches -/

section Batches
variable {sha256 : Bytes → Digest32} {leaves : List Bytes} {levels : List (List Bytes)} {x : Bytes}

theorem nodeHash_comm (a b : Bytes) : nodeHash sha256 a b = nodeHash sha256 b a := by
  rw [nodeHash, nodeHash, nodeMessage_comm]

theorem buildTree_eq_some (h : buildTree sha256 leaves = some levels) : leaves ≠ [] ∧
    levels = MerkleTree.levelsFrom (nodeHash sha256) leaves.length
      (leaves.insertionSort (· ≤ ·)) := by
  unfold buildTree at h
  split_ifs at h with hnil
  exact ⟨hnil, (Option.some.inj h).symm⟩

/-- A tree has a root, and every leaf a proof that leads to it. -/
theorem buildTree_complete (sha256 : Bytes → Digest32) (hne : leaves ≠ []) :
    ∃ levels root, buildTree sha256 leaves = some levels ∧ rootOf levels = some root ∧
      ∀ leaf ∈ leaves, ∃ proof, proofFor levels leaf = some proof ∧
        verifyProof sha256 root leaf proof = true := by
  have hsorted : leaves.insertionSort (· ≤ ·) ≠ [] := by
    rw [← List.length_pos_iff, List.length_insertionSort]
    exact List.length_pos_iff.mpr hne
  have hlen : (leaves.insertionSort (· ≤ ·)).length ≤ leaves.length + 1 := by
    rw [List.length_insertionSort]
    exact Nat.le_succ _
  have hcomm : ∀ a b, nodeHash sha256 a b = nodeHash sha256 b a := nodeHash_comm
  obtain ⟨root, hlast, hproofs⟩ :=
    MerkleTree.levelsFrom_complete hcomm leaves.length hsorted hlen
  refine ⟨_, root, if_neg hne, by rw [rootOf, hlast]; rfl, fun leaf hleaf => ?_⟩
  have hmem : leaf ∈ leaves.insertionSort (· ≤ ·) := (List.mem_insertionSort _).mpr hleaf
  obtain ⟨idx, hidx⟩ := Option.isSome_iff_exists.mp (List.isSome_idxOf?.mpr hmem)
  refine ⟨_, ?_, beq_iff_eq.mpr (hproofs idx leaf ?_)⟩
  · rw [proofFor, MerkleTree.head?_levelsFrom]
    simp only [Option.bind_eq_bind, Option.bind_some, hidx]
  · obtain ⟨hlt, hget, -⟩ := List.idxOf?_eq_some_iff.mp hidx
    rw [List.getElem?_eq_getElem hlt, hget]

/-- An entry of a tree is a leaf, or a node over two entries. -/
theorem mem_tree (h : buildTree sha256 leaves = some levels) (hx : x ∈ levels.flatten) :
    x ∈ leaves ∨ ∃ p ∈ MerkleTree.combined levels, x = nodeHash sha256 p.1 p.2 := by
  obtain ⟨-, rfl⟩ := buildTree_eq_some h
  exact (MerkleTree.mem_levelsFrom _ _ hx).imp_left (List.mem_insertionSort _).mp

theorem rootOf_mem {root : Bytes} (h : rootOf levels = some root) : root ∈ levels.flatten := by
  obtain ⟨level, hlast, hhead⟩ := Option.bind_eq_some_iff.mp h
  exact List.mem_flatten.mpr ⟨level, List.mem_of_getLast? hlast, List.mem_of_head? hhead⟩

theorem length_leafHash {leaf : LeafFields} (h : leafHash sha256 leaf = some x) :
    x.length = 32 := by
  obtain ⟨m, -, rfl⟩ := Option.map_eq_some_iff.mp h
  exact Vector.length_toList

theorem length_steps {proof : List Bytes} (hx : x.length = 32) :
    ∀ p ∈ MerkleTree.steps (nodeHash sha256) x proof, p.1.length = 32 := by
  induction proof generalizing x with
  | nil => exact List.forall_mem_nil _
  | cons s proof ih => exact List.forall_mem_cons.mpr ⟨hx, ih Vector.length_toList⟩

variable {batch : List LeafFields} {leaf : LeafFields} {hash root : Bytes} {proof : List Bytes}

/-- A leaf hash of the batch is the hash of a message of the batch. -/
theorem exists_message (levels : List (List Bytes))
    (hbatch : batch.map (leafHash sha256) = leaves.map some) (hx : x ∈ leaves) :
    ∃ fields m, leafMessage fields = some m ∧ m ∈ treeMessages batch levels ∧
      x = (sha256 m).toList := by
  have hmem : some x ∈ batch.map (leafHash sha256) := hbatch ▸ List.mem_map_of_mem hx
  obtain ⟨fields, hfields, hhash⟩ := List.mem_map.mp hmem
  obtain ⟨m, hm, rfl⟩ := Option.map_eq_some_iff.mp hhash
  exact ⟨fields, m, hm, List.mem_append_left _ (List.mem_filterMap.mpr ⟨fields, hfields, hm⟩), rfl⟩

/-- A proof that verifies is of a leaf of the tree. -/
theorem verifyProof_sound (hbatch : batch.map (leafHash sha256) = leaves.map some)
    (htree : buildTree sha256 leaves = some levels) (hroot : rootOf levels = some root)
    (hleaf : leafHash sha256 leaf = some hash)
    (hfree : CollisionFree sha256
      (treeMessages batch levels ++ proofMessages sha256 leaf hash proof))
    (hverify : verifyProof sha256 root hash proof = true) : hash ∈ leaves := by
  have hlength (y : Bytes) (hy : y ∈ levels.flatten) : y.length = 32 := by
    rcases mem_tree htree hy with hy | ⟨p, -, rfl⟩
    · obtain ⟨_, m, -, -, rfl⟩ := exists_message levels hbatch hy
      exact Vector.length_toList
    · exact Vector.length_toList
  have hstep : ∀ p ∈ MerkleTree.steps (nodeHash sha256) hash proof,
      nodeHash sha256 p.1 p.2 ∈ levels.flatten → p.1 ∈ levels.flatten := by
    intro p hp hmem
    have hmsg : nodeMessage p.1 p.2 ∈ proofMessages sha256 leaf hash proof :=
      List.mem_append_right _ (List.mem_map_of_mem hp)
    rcases mem_tree htree hmem with hx | ⟨q, hq, heq⟩
    · -- the step would be a leaf
      obtain ⟨fields, m, hm, hin, heq⟩ := exists_message levels hbatch hx
      have := hfree _ (List.mem_append_right _ hmsg) m (List.mem_append_left _ hin)
        (Vector.toList_inj.mp heq)
      exact absurd this.symm (leafMessage_ne_nodeMessage hm)
    · -- the step is a node of the tree, whose children are its parts
      have hin : nodeMessage q.1 q.2 ∈ treeMessages batch levels :=
        List.mem_append_right _ (List.mem_map_of_mem hq)
      have hsame := hfree _ (List.mem_append_right _ hmsg) _ (List.mem_append_left _ hin)
        (Vector.toList_inj.mp heq)
      obtain ⟨h₁, h₂⟩ := MerkleTree.mem_of_combined hq
      rcases mem_of_nodeMessage (hlength _ h₁) (hlength _ h₂)
        (length_steps (length_leafHash hleaf) p hp) hsame with h | h
      · exact h ▸ h₁
      · exact h ▸ h₂
  have hmem : hash ∈ levels.flatten := by
    refine MerkleTree.mem_of_fold hstep ?_
    rw [eq_of_beq hverify]
    exact rootOf_mem hroot
  refine (mem_tree htree hmem).resolve_right ?_
  rintro ⟨q, hq, heq⟩
  obtain ⟨m, hm, rfl⟩ := Option.map_eq_some_iff.mp hleaf
  have hmsg : m ∈ proofMessages sha256 leaf (sha256 m).toList proof :=
    List.mem_append_left _ (Option.mem_toList.mpr hm)
  have hin : nodeMessage q.1 q.2 ∈ treeMessages batch levels :=
    List.mem_append_right _ (List.mem_map_of_mem hq)
  exact leafMessage_ne_nodeMessage hm (hfree m (List.mem_append_right _ hmsg) _
    (List.mem_append_left _ hin) (Vector.toList_inj.mp heq))

end Batches

/-- Merkle disbursement is complete with any hash: the proof of every leaf of a tree verifies.
It is sound as long as the hash does not collide on what is hashed for the tree and for the
proof: whatever list of byte strings the proof is, the leaf it proves is one of the batch. -/
theorem disbursement_sound_complete (sha256 : Bytes → Digest32) :
    (∀ leaves : List Bytes, leaves ≠ [] → ∃ levels root, buildTree sha256 leaves = some levels ∧
      rootOf levels = some root ∧ ∀ leaf ∈ leaves, ∃ proof, proofFor levels leaf = some proof ∧
        verifyProof sha256 root leaf proof = true) ∧
    ∀ batch leaves levels root, batch.map (leafHash sha256) = leaves.map some →
      buildTree sha256 leaves = some levels → rootOf levels = some root →
      ∀ leaf hash proof, leafHash sha256 leaf = some hash →
        CollisionFree sha256 (treeMessages batch levels ++ proofMessages sha256 leaf hash proof) →
        verifyProof sha256 root hash proof = true → hash ∈ leaves := by
  refine ⟨fun leaves hne => buildTree_complete sha256 hne, ?_⟩
  intro batch leaves levels root hbatch htree hroot leaf hash proof hleaf hfree hverify
  exact verifyProof_sound hbatch htree hroot hleaf hfree hverify

/-! ### A batch of three leaves -/

/-- Three payments to accounts, in one asset. -/
def threePayments : List LeafFields :=
  let asset := "CCVKVKVKVKVKVKVKVKVKVKVKVKVKVKVKVKVKVKVKVKVKVKVKVKVKUD2U"
  [⟨"GAAQCAIBAEAQCAIBAEAQCAIBAEAQCAIBAEAQCAIBAEAQCAIBAEAQDZ7H", asset, 100, .replicate 32 1⟩,
    ⟨"GABAEAQCAIBAEAQCAIBAEAQCAIBAEAQCAIBAEAQCAIBAEAQCAIBAEJXA", asset, 200, .replicate 32 2⟩,
    ⟨"GABQGAYDAMBQGAYDAMBQGAYDAMBQGAYDAMBQGAYDAMBQGAYDAMBQHGPC", asset, 300, .replicate 32 3⟩]

def leafDigests : Digest32 × Digest32 × Digest32 :=
  (#v[234, 1, 155, 23, 144, 78, 31, 177, 67, 237, 22, 27, 46, 252, 141, 240, 90, 107, 177, 118, 148,
    126, 80, 232, 110, 70, 150, 215, 52, 37, 131, 73],
   #v[15, 152, 31, 29, 208, 203, 166, 165, 55, 159, 253, 93, 53, 235, 255, 126, 60, 209, 166, 142,
    224, 224, 186, 96, 19, 234, 0, 139, 210, 157, 123, 20],
   #v[186, 27, 15, 252, 172, 8, 180, 220, 250, 17, 88, 113, 248, 163, 121, 49, 107, 240, 208, 21,
    177, 141, 234, 98, 0, 7, 192, 63, 157, 209, 215, 11])

def nodeDigests : Digest32 × Digest32 :=
  (#v[48, 131, 253, 254, 190, 139, 211, 220, 34, 142, 106, 149, 240, 97, 94, 216, 5, 187, 133, 130,
    184, 79, 162, 2, 68, 211, 76, 68, 246, 233, 188, 254],
   #v[252, 210, 158, 62, 235, 133, 81, 143, 121, 143, 245, 249, 106, 35, 48, 169, 77, 171, 83, 214,
    223, 116, 213, 48, 182, 187, 254, 127, 10, 244, 180, 81])

/-- The message of a payment of `100 * i` to the key of 32 bytes `i`. -/
def paymentMessage (i : ℕ) : Bytes :=
  0 :: (beBytes 4 scvAddress ++ beBytes 4 scAddressTypeAccount ++ beBytes 4 publicKeyTypeEd25519 ++
    .replicate 32 (.ofNat i) ++ (beBytes 4 scvAddress ++ beBytes 4 scAddressTypeContract ++
      .replicate 32 0xAA) ++ beBytes 16 (100 * i) ++ .replicate 32 (.ofNat i))

/-- SHA-256 on the messages of the batch, as a table. -/
def sha256Table (m : Bytes) : Digest32 :=
  if m = paymentMessage 1 then leafDigests.1
  else if m = paymentMessage 2 then leafDigests.2.1
  else if m = paymentMessage 3 then leafDigests.2.2
  else if m = nodeMessage leafDigests.2.1.toList leafDigests.2.2.toList then nodeDigests.1
  else if m = nodeMessage nodeDigests.1.toList leafDigests.1.toList then nodeDigests.2
  else Vector.replicate 32 0

def threeLeaves : List Bytes :=
  [leafDigests.1.toList, leafDigests.2.1.toList, leafDigests.2.2.toList]

/-- The first leaf is carried up next to the node of the two others. -/
def threeLevels : List (List Bytes) :=
  [[leafDigests.2.1.toList, leafDigests.2.2.toList, leafDigests.1.toList],
    [nodeDigests.1.toList, leafDigests.1.toList], [nodeDigests.2.toList]]

/-- The second payment with the siblings of its way up. -/
def secondPayment : LeafFields :=
  ⟨"GABAEAQCAIBAEAQCAIBAEAQCAIBAEAQCAIBAEAQCAIBAEAQCAIBAEJXA",
    "CCVKVKVKVKVKVKVKVKVKVKVKVKVKVKVKVKVKVKVKVKVKVKVKVKVKUD2U", 200, .replicate 32 2⟩

def secondProof : List Bytes := [leafDigests.2.2.toList, leafDigests.1.toList]

theorem threePayments_proved :
    (∃ levels root, buildTree sha256Table threeLeaves = some levels ∧ rootOf levels = some root ∧
      ∀ leaf ∈ threeLeaves, ∃ proof, proofFor levels leaf = some proof ∧
        verifyProof sha256Table root leaf proof = true) ∧
      verifyProof sha256Table nodeDigests.2.toList leafDigests.2.1.toList secondProof = true ∧
      leafDigests.2.1.toList ∈ threeLeaves := by
  have hverify : verifyProof sha256Table nodeDigests.2.toList leafDigests.2.1.toList secondProof =
      true := by decide +kernel
  refine ⟨(disbursement_sound_complete sha256Table).1 threeLeaves (List.cons_ne_nil _ _),
    hverify, ?_⟩
  exact (disbursement_sound_complete sha256Table).2 threePayments threeLeaves threeLevels
    nodeDigests.2.toList (by decide +kernel) (by decide +kernel) (by decide +kernel) secondPayment
    leafDigests.2.1.toList secondProof (by decide +kernel) (by decide +kernel) hverify

end RefractContracts.Scripts
