import RefractContracts.Host.Bytes
import RefractContracts.Host.HashChain

/-! The audit log of privileged actions. Each record commits to the digest of the record
before it, and its own digest covers every field. An appended log verifies; a list of
records is refused at the first that is wrong; and the head of a verified list fixes
every record of it, as long as the hash does not collide on them. SHA-256 is the
parameter `sha256`. -/

namespace RefractContracts.Grants

open Host

abbrev Digest32 := Vector UInt8 32

namespace Audit

/-- The `prev` value of the first record. -/
def genesis : Digest32 := Vector.replicate 32 0

@[ext] structure AuditRecord where
  seq : UInt64
  caller : UInt64
  action : UInt32
  payloadDigest : Digest32
  ledger : UInt64
  prev : Digest32
  digest : Digest32
  deriving DecidableEq

/-- An append-only log, the oldest record first. -/
structure AuditLog where
  records : List AuditRecord

def AuditLog.new : AuditLog := ⟨[]⟩

/-- The digest of the newest record. -/
def AuditLog.head (log : AuditLog) : Digest32 :=
  (log.records.getLast?.map AuditRecord.digest).getD genesis

section Hash
variable (sha256 : List UInt8 → Digest32)

/-- What the digest of a record is taken of. -/
def chainMessage (seq caller : UInt64) (action : UInt32) (payloadDigest : Digest32)
    (ledger : UInt64) (prev : Digest32) : List UInt8 :=
  beBytes64 seq ++ (beBytes64 caller ++ (beBytes32 action ++ (payloadDigest.toList ++
    (beBytes64 ledger ++ prev.toList))))

def chainDigest (seq caller : UInt64) (action : UInt32) (payloadDigest : Digest32)
    (ledger : UInt64) (prev : Digest32) : Digest32 :=
  sha256 (chainMessage seq caller action payloadDigest ledger prev)

/-- Append one record; only the digest of the payload is stored. -/
def AuditLog.append (log : AuditLog) (caller : UInt64) (action : UInt32) (payload : List UInt8)
    (ledger : UInt64) : AuditLog × UInt64 :=
  let seq := UInt64.ofNat log.records.length
  let prev := log.head
  let payloadDigest := sha256 payload
  let digest := chainDigest sha256 seq caller action payloadDigest ledger prev
  (⟨log.records ++ [⟨seq, caller, action, payloadDigest, ledger, prev, digest⟩]⟩, seq)

/-- The loop of `verify_chain`, at the record `index` after one with the digest `prev`. -/
def verifyFrom (prev : Digest32) (index : ℕ) : List AuditRecord → Except ℕ Unit
  | [] => .ok ()
  | record :: records =>
    let expected := chainDigest sha256 record.seq record.caller record.action
      record.payloadDigest record.ledger record.prev
    if record.seq ≠ UInt64.ofNat index ∨ record.prev ≠ prev ∨ record.digest ≠ expected then
      .error index
    else verifyFrom record.digest (index + 1) records

/-- Replay the records from genesis. -/
def verifyChain (records : List AuditRecord) : Except ℕ Unit :=
  verifyFrom sha256 genesis 0 records

/-! ### The log as a hash chain -/

/-- The message that the digest of a record is taken of. -/
def AuditRecord.message (record : AuditRecord) : List UInt8 :=
  chainMessage record.seq record.caller record.action record.payloadDigest record.ledger record.prev

/-- A record is right at a place if its number and its digest are. -/
def chain : HashChain AuditRecord Digest32 where
  prev := AuditRecord.prev
  digest := AuditRecord.digest
  genesis := genesis
  sound index record := record.seq = UInt64.ofNat index ∧ record.digest = sha256 record.message

instance (index : ℕ) (record : AuditRecord) : Decidable ((chain sha256).sound index record) :=
  inferInstanceAs (Decidable (_ ∧ _))

variable {sha256}

theorem verifyFrom_eq (prev : Digest32) (index : ℕ) (l : List AuditRecord) :
    verifyFrom sha256 prev index l = (chain sha256).replayFrom prev index l := by
  induction l generalizing prev index with
  | nil => rfl
  | cons record l ih =>
    rw [verifyFrom, HashChain.replayFrom, ih]
    have hwrong : (record.seq ≠ UInt64.ofNat index ∨ record.prev ≠ prev ∨
        record.digest ≠ chainDigest sha256 record.seq record.caller record.action
          record.payloadDigest record.ledger record.prev) ↔
        ¬ ((chain sha256).sound index record ∧ (chain sha256).prev record = prev) := by
      show (_ ∨ _ ∨ record.digest ≠ sha256 record.message) ↔
        ¬ ((record.seq = _ ∧ record.digest = sha256 record.message) ∧ record.prev = prev)
      tauto
    by_cases h : (chain sha256).sound index record ∧ (chain sha256).prev record = prev
    · rw [if_pos h, if_neg (fun hw => hwrong.mp hw h)]
      rfl
    · rw [if_neg h, if_pos (hwrong.mpr h)]

theorem verifyChain_eq (l : List AuditRecord) :
    verifyChain sha256 l = (chain sha256).replay l := verifyFrom_eq genesis 0 l

theorem head_eq (log : AuditLog) : log.head = (chain sha256).head log.records := rfl

/-! ### Appending -/

theorem append_chained {log : AuditLog} (h : (chain sha256).Chained log.records)
    (caller : UInt64) (action : UInt32) (payload : List UInt8) (ledger : UInt64) :
    (chain sha256).Chained (log.append sha256 caller action payload ledger).1.records :=
  h.snoc ⟨rfl, rfl⟩ rfl

/-! ### The message of a record -/

/-- The fields have fixed widths, so the message determines them. -/
theorem message_inj {r r' : AuditRecord} (h : r.message = r'.message) :
    r.seq = r'.seq ∧ r.caller = r'.caller ∧ r.action = r'.action ∧
      r.payloadDigest = r'.payloadDigest ∧ r.ledger = r'.ledger ∧ r.prev = r'.prev := by
  obtain ⟨hseq, h⟩ := List.append_inj h (by simp)
  obtain ⟨hcaller, h⟩ := List.append_inj h (by simp)
  obtain ⟨haction, h⟩ := List.append_inj h (by simp)
  obtain ⟨hpayload, h⟩ := List.append_inj h (by simp)
  obtain ⟨hledger, hprev⟩ := List.append_inj h (by simp)
  exact ⟨beBytes64_inj hseq, beBytes64_inj hcaller, beBytes32_inj haction,
    Vector.toList_inj.mp hpayload, beBytes64_inj hledger, Vector.toList_inj.mp hprev⟩

/-- The record at `i` has a wrong number, a wrong link or a wrong digest. -/
def Wrong (sha256 : List UInt8 → Digest32) (l : List AuditRecord) (i : ℕ) : Prop :=
  ∃ record, l[i]? = some record ∧ (record.seq ≠ UInt64.ofNat i ∨
    record.prev ≠ (AuditLog.mk (l.take i)).head ∨ record.digest ≠ sha256 record.message)

theorem wrong_iff_broken {l : List AuditRecord} {i : ℕ} :
    Wrong sha256 l i ↔ (chain sha256).Broken l i := by
  apply exists_congr fun record => ?_
  apply and_congr_right fun _ => ?_
  show (_ ∨ record.prev ≠ _ ∨ record.digest ≠ sha256 record.message) ↔
    ¬ ((record.seq = _ ∧ record.digest = sha256 record.message) ∧ record.prev = _)
  rw [head_eq]
  tauto

/-- The hash has no collision among the messages, and is the genesis value on none. -/
structure CollisionFree (sha256 : List UInt8 → Digest32) (messages : List (List UInt8)) : Prop where
  inj : ∀ m ∈ messages, ∀ m' ∈ messages, sha256 m = sha256 m' → m = m'
  ne_genesis : ∀ m ∈ messages, sha256 m ≠ genesis

/-- Records that are right at some place are the same if their digests are. -/
theorem record_eq {r r' : AuditRecord} {i j : ℕ} (hr : (chain sha256).sound i r)
    (hr' : (chain sha256).sound j r') (hdigest : r.digest = r'.digest)
    (hinj : sha256 r.message = sha256 r'.message → r.message = r'.message) : r = r' := by
  have hmessage := hinj (hr.2.symm.trans (hdigest.trans hr'.2))
  obtain ⟨hseq, hcaller, haction, hpayload, hledger, hprev⟩ := message_inj hmessage
  exact AuditRecord.ext hseq hcaller haction hpayload hledger hprev hdigest

/-- The head of a verified list fixes its records. -/
theorem verified_unique {l l' : List AuditRecord} (hl : verifyChain sha256 l = .ok ())
    (hl' : verifyChain sha256 l' = .ok ()) (hhead : (AuditLog.mk l).head = (AuditLog.mk l').head)
    (hfree : CollisionFree sha256 ((l ++ l').map AuditRecord.message)) : l = l' := by
  rw [verifyChain_eq, HashChain.replay_ok_iff] at hl hl'
  rw [head_eq, head_eq] at hhead
  have hmem {r : AuditRecord} (hr : r ∈ l ++ l') : r.message ∈ (l ++ l').map AuditRecord.message :=
    List.mem_map_of_mem hr
  apply hl.unique hl' hhead
  · intro r hr r' hr' hdigest
    obtain ⟨i, hi⟩ := hl.sound_of_mem r hr
    obtain ⟨j, hj⟩ := hl'.sound_of_mem r' hr'
    exact record_eq hi hj hdigest
      (hfree.inj _ (hmem (List.mem_append_left _ hr)) _ (hmem (List.mem_append_right _ hr')))
  · intro r hr
    have hsound : ∃ i, (chain sha256).sound i r := by
      rcases List.mem_append.mp hr with hr | hr
      · exact hl.sound_of_mem r hr
      · exact hl'.sound_of_mem r hr
    obtain ⟨i, hi⟩ := hsound
    show r.digest ≠ genesis
    rw [hi.2]
    exact hfree.ne_genesis _ (hmem hr)

/-- The arguments of a call of `append`. -/
structure Entry where
  caller : UInt64
  action : UInt32
  payload : List UInt8
  ledger : UInt64

/-- The log after a sequence of `append` calls. -/
def appended (sha256 : List UInt8 → Digest32) (entries : List Entry) : AuditLog :=
  entries.foldl (fun log e => (log.append sha256 e.caller e.action e.payload e.ledger).1) .new

theorem appended_chained (entries : List Entry) :
    (chain sha256).Chained (appended sha256 entries).records := by
  induction entries using List.reverseRecOn with
  | nil => exact .nil
  | append_singleton entries e ih =>
    rw [appended, List.foldl_append]
    exact append_chained ih e.caller e.action e.payload e.ledger

end Hash

/-- The audit log is tamper evident, with any hash: an appended log verifies, a list of
records is refused exactly at the first that is wrong, and two verified lists with the
same head are the same as long as the hash does not collide on their messages, and is
the genesis value on none of them. -/
theorem tamper_evident (sha256 : List UInt8 → Digest32) :
    (∀ entries, verifyChain sha256 (appended sha256 entries).records = .ok ()) ∧
    (∀ l i, verifyChain sha256 l = .error i ↔
      Wrong sha256 l i ∧ ∀ j < i, ¬ Wrong sha256 l j) ∧
    ∀ l l', verifyChain sha256 l = .ok () → verifyChain sha256 l' = .ok () →
      (AuditLog.mk l).head = (AuditLog.mk l').head →
      CollisionFree sha256 ((l ++ l').map AuditRecord.message) → l = l' := by
  refine ⟨fun entries => ?_, fun l i => ?_, fun l l' => verified_unique⟩
  · rw [verifyChain_eq, HashChain.replay_ok_iff]
    exact appended_chained entries
  · rw [verifyChain_eq, HashChain.replay_error_iff]
    simp only [wrong_iff_broken]

/-! ### A log of two records -/

def payloadDigests : Digest32 × Digest32 :=
  (#v[3, 144, 88, 198, 242, 192, 203, 73, 44, 83, 59, 10, 77, 20, 239, 119, 204, 15, 120, 171, 204,
    206, 213, 40, 125, 132, 161, 162, 1, 28, 251, 129],
   #v[227, 176, 196, 66, 152, 252, 28, 20, 154, 251, 244, 200, 153, 111, 185, 36, 39, 174, 65, 228,
    100, 155, 147, 76, 164, 149, 153, 27, 120, 82, 184, 85])

def recordDigests : Digest32 × Digest32 :=
  (#v[167, 41, 232, 97, 123, 37, 201, 93, 183, 175, 25, 225, 176, 162, 42, 14, 120, 233, 158, 100,
    179, 215, 114, 163, 147, 152, 141, 206, 67, 79, 213, 151],
   #v[103, 154, 31, 204, 113, 219, 25, 48, 64, 211, 97, 21, 237, 93, 129, 127, 105, 239, 172, 60,
    197, 231, 63, 124, 31, 18, 172, 244, 85, 190, 173, 98])

/-- SHA-256 on the payloads and the messages of the log, as a table. -/
def sha256Table (m : List UInt8) : Digest32 :=
  if m = [1, 2, 3] then payloadDigests.1
  else if m = [] then payloadDigests.2
  else if m = chainMessage 0 7 1 payloadDigests.1 100 genesis then recordDigests.1
  else if m = chainMessage 1 7 2 payloadDigests.2 101 recordDigests.1 then recordDigests.2
  else genesis

def twoRecords : List AuditRecord :=
  (appended sha256Table [⟨7, 1, [1, 2, 3], 100⟩, ⟨7, 2, [], 101⟩]).records

def oneRecord : List AuditRecord := (appended sha256Table [⟨7, 1, [1, 2, 3], 100⟩]).records

/-- The second record cannot be removed without a change of the head. -/
theorem record_removed :
    CollisionFree sha256Table ((twoRecords ++ oneRecord).map AuditRecord.message) ∧
      (AuditLog.mk twoRecords).head ≠ (AuditLog.mk oneRecord).head := by
  have hfree : CollisionFree sha256Table ((twoRecords ++ oneRecord).map AuditRecord.message) :=
    ⟨by decide +kernel, by decide +kernel⟩
  refine ⟨hfree, fun hhead => ?_⟩
  have heq : twoRecords = oneRecord := (tamper_evident sha256Table).2.2 twoRecords oneRecord
    ((tamper_evident sha256Table).1 _) ((tamper_evident sha256Table).1 _) hhead hfree
  have hlen := congrArg List.length heq
  exact absurd hlen (by decide)

end Audit

end RefractContracts.Grants
