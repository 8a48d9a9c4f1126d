import RefractContracts.Host.Text
import RefractContracts.Scripts.FeeBump

/-! What a commitment pins. Destination, amount and memo are joined with bars and hashed, and
nothing keeps a bar out of them: a payment without one is pinned by its commitment, and one with
a bar has the commitment of another payment. -/

namespace RefractContracts.Scripts

open Host

@[ext]
structure Payment where
  destination : String
  amount : String
  memo : String
  deriving DecidableEq

namespace Payment

def message (p : Payment) : Bytes := encode (commitmentText p.destination p.amount p.memo)

/-- No field has a bar. -/
def Plain (p : Payment) : Prop :=
  '|' ∉ p.destination.toList ∧ '|' ∉ p.amount.toList ∧ '|' ∉ p.memo.toList

end Payment

/-! ### Encodings -/

theorem encode_inj {s t : String} : encode s = encode t ↔ s = t := by
  rw [encode, encode, Array.toList_inj, ← ByteArray.ext_iff, String.toUTF8_eq_toByteArray,
    String.toUTF8_eq_toByteArray, String.toByteArray_inj]

theorem digitChar_inj {m n : ℕ} (hm : m < 16) (hn : n < 16)
    (h : Nat.digitChar m = Nat.digitChar n) : m = n := by
  have hall : ∀ i j : Fin 16, Nat.digitChar i = Nat.digitChar j → i = j := by decide
  exact congrArg Fin.val (hall ⟨m, hm⟩ ⟨n, hn⟩ h)

theorem hexByte_inj {b b' : UInt8} (h : hexByte b = hexByte b') : b = b' := by
  have hb := b.toNat_lt
  have hb' := b'.toNat_lt
  rw [hexByte, hexByte, List.cons.injEq, List.cons.injEq] at h
  have hhigh := digitChar_inj (by omega) (by omega) h.1
  have hlow := digitChar_inj (by omega) (by omega) h.2.1
  exact UInt8.toNat_inj.mp (by omega)

theorem flatMap_hexByte_inj {l l' : Bytes} (h : l.flatMap hexByte = l'.flatMap hexByte) :
    l = l' := by
  induction l generalizing l' with
  | nil =>
    cases l' with
    | nil => rfl
    | cons b' l' => cases h
  | cons b l ih =>
    cases l' with
    | nil => cases h
    | cons b' l' =>
      rw [List.flatMap_cons, List.flatMap_cons] at h
      obtain ⟨hbyte, hrest⟩ := List.append_inj h rfl
      rw [hexByte_inj hbyte, ih hrest]

theorem hexdigest_inj {d d' : Digest32} (h : hexdigest d = hexdigest d') : d = d' :=
  Vector.toList_inj.mp (flatMap_hexByte_inj (String.ofList_injective h))

/-! ### The fields -/

section Fields
variable {p p' : Payment}

theorem toList_commitmentText (p : Payment) :
    (commitmentText p.destination p.amount p.memo).toList =
      p.destination.toList ++ '|' :: p.amount.toList ++ '|' :: p.memo.toList := by
  simp only [commitmentText, String.toList_append, List.append_assoc]
  rfl

theorem message_inj : p.message = p'.message ↔
    p.destination.toList ++ '|' :: p.amount.toList ++ '|' :: p.memo.toList =
      p'.destination.toList ++ '|' :: p'.amount.toList ++ '|' :: p'.memo.toList := by
  rw [Payment.message, Payment.message, encode_inj, ← String.toList_inj, toList_commitmentText,
    toList_commitmentText]

/-- Fields without a separator are read back from what joins them. -/
theorem fields_eq {d a m d' a' m' : List Char} (hd : '|' ∉ d) (ha : '|' ∉ a) (hm : '|' ∉ m)
    (h : d ++ '|' :: a ++ '|' :: m = d' ++ '|' :: a' ++ '|' :: m') : d = d' ∧ a = a' ∧ m = m' := by
  have hcount := congrArg (List.count '|') h
  simp only [List.count_append, List.count_cons_self, List.count_eq_zero_of_not_mem hd,
    List.count_eq_zero_of_not_mem ha, List.count_eq_zero_of_not_mem hm] at hcount
  have hd' : '|' ∉ d' := List.count_eq_zero.mp (by omega)
  have ha' : '|' ∉ a' := List.count_eq_zero.mp (by omega)
  rw [List.append_assoc, List.append_assoc] at h
  have hfirst := congrArg (splitOnce '|') h
  simp only [List.cons_append] at hfirst
  rw [splitOnce_append hd, splitOnce_append hd'] at hfirst
  obtain ⟨hdest, hrest⟩ := Prod.mk.inj (Option.some.inj hfirst)
  have hsecond := congrArg (splitOnce '|') hrest
  rw [splitOnce_append ha, splitOnce_append ha'] at hsecond
  obtain ⟨hamount, hmemo⟩ := Prod.mk.inj (Option.some.inj hsecond)
  exact ⟨hdest, hamount, hmemo⟩

/-- A message of plain fields is of no other payment. -/
theorem Payment.Plain.eq_of_message (hp : p.Plain) (h : p.message = p'.message) : p = p' := by
  obtain ⟨hd, ha, hm⟩ := fields_eq hp.1 hp.2.1 hp.2.2 (message_inj.mp h)
  exact Payment.ext (String.toList_inj.mp hd) (String.toList_inj.mp ha) (String.toList_inj.mp hm)

theorem parts_ne {s before after : List Char} (hs : s = before ++ '|' :: after) :
    before ≠ s ∧ after ≠ s := by
  have hlength := congrArg List.length hs
  rw [List.length_append, List.length_cons] at hlength
  constructor <;> rintro rfl <;> omega

/-- A payment with a bar in a field has the message of another one. -/
theorem exists_same_message (hp : ¬ p.Plain) : ∃ p', p' ≠ p ∧ p.message = p'.message := by
  rw [Payment.Plain, not_and_or, not_and_or, not_not, not_not, not_not] at hp
  rcases hp with hd | ha | hm
  · obtain ⟨before, after, -, hs⟩ := exists_first hd
    refine ⟨⟨.ofList before, .ofList after, p.amount ++ "|" ++ p.memo⟩, ?_, ?_⟩
    · intro heq
      have hfield := congrArg (fun q : Payment => q.destination.toList) heq
      exact (parts_ne hs).1 (String.toList_ofList.symm.trans hfield)
    · rw [message_inj, hs]
      simp [String.toList_append]
  · obtain ⟨before, after, -, hs⟩ := exists_first ha
    refine ⟨⟨p.destination, .ofList before, .ofList after ++ "|" ++ p.memo⟩, ?_, ?_⟩
    · intro heq
      have hfield := congrArg (fun q : Payment => q.amount.toList) heq
      exact (parts_ne hs).1 (String.toList_ofList.symm.trans hfield)
    · rw [message_inj, hs]
      simp [String.toList_append]
  · obtain ⟨before, after, -, hs⟩ := exists_first hm
    refine ⟨⟨p.destination ++ "|" ++ p.amount, .ofList before, .ofList after⟩, ?_, ?_⟩
    · intro heq
      have hfield := congrArg (fun q : Payment => q.memo.toList) heq
      exact (parts_ne hs).2 (String.toList_ofList.symm.trans hfield)
    · rw [message_inj, hs]
      simp [String.toList_append]

end Fields

/-! ### Pinning -/

section Pin
variable {sha256 : Bytes → Digest32} {p p' : Payment} {py : Python} {inner : Inner py}

namespace Payment

/-- What the claimant publishes. -/
def commitment (sha256 : Bytes → Digest32) (p : Payment) : String :=
  Scripts.commitment sha256 p.destination p.amount p.memo

end Payment

/-- The payment that an inner transaction names. -/
def Inner.payment (inner : Inner py) : Payment :=
  ⟨inner.destination.text, inner.amount.text, inner.memo.text⟩

theorem commitment_eq (h : p.message = p'.message) : p.commitment sha256 = p'.commitment sha256 :=
  congrArg (fun m => hexdigest (sha256 m)) h

/-- Equal commitments are of equal messages, if the hash does not collide on the two. -/
theorem message_eq_of_commitment (hfree : CollisionFree sha256 [p.message, p'.message])
    (h : p.commitment sha256 = p'.commitment sha256) : p.message = p'.message :=
  hfree _ List.mem_cons_self _ (List.mem_cons_of_mem _ List.mem_cons_self) (hexdigest_inj h)

theorem eq_str {v : PyValue py} {s : String} (h : v.eq (.str s) = true) : v = .str s := by
  cases v with
  | str t =>
    obtain rfl : t = s := of_decide_eq_true h
    rfl
  | none | bool | int | other => cases h

/-- What is accepted has the commitment of its own payment. -/
theorem checkUnmodified_commitment (h : checkUnmodified sha256 inner = .ok ()) :
    inner.commitment = .str (inner.payment.commitment sha256) :=
  eq_str (checkUnmodified_eq_ok.mp h).1

/-- What an operation of the transaction moves; its memo is the transaction's if it has none. -/
def Operation.payment (inner : Inner py) (op : Operation py) : Payment :=
  ⟨(op.destination.getD .none).text, (op.amount.getD .none).text, (op.memo.getD inner.memo).text⟩

/-- Where the destination and the memo are texts, an operation for the transaction moves its
payment. -/
theorem Operation.Agrees.payment_eq {op : Operation py} (h : op.Agrees inner) {d m : String}
    (hd : inner.destination = .str d) (hm : inner.memo = .str m) :
    op.payment inner = inner.payment := by
  have hdestination : op.destination.getD .none = inner.destination := by
    rw [hd]
    exact eq_str (hd ▸ h.destination)
  have hmemo : op.memo.getD inner.memo = inner.memo := by
    have hsame := h.memo
    rw [hm] at hsame ⊢
    exact eq_str hsame
  rw [Operation.payment, Inner.payment, hdestination, h.amount, hmemo]

end Pin

/-- With a hash that does not collide on the messages, a commitment is of one payment only, and
with it no transaction of another payment is accepted, nor one with an operation for another
payment, exactly if no field has a bar. -/
theorem commitment_pins_iff (sha256 : Bytes → Digest32) (py : Python) (p : Payment) :
    ((∀ p' : Payment, CollisionFree sha256 [p.message, p'.message] →
        p.commitment sha256 = p'.commitment sha256 → p = p') ∧
      ∀ inner : Inner py, CollisionFree sha256 [p.message, inner.payment.message] →
        inner.commitment = .str (p.commitment sha256) → checkUnmodified sha256 inner = .ok () →
        inner.payment = p ∧ ∃ items, inner.operations = some items ∧
          ∀ item ∈ items, ∃ op, item = some op ∧ op.Agrees inner ∧
            ∀ d m, inner.destination = .str d → inner.memo = .str m → op.payment inner = p) ↔
      p.Plain := by
  constructor
  · rintro ⟨hone, -⟩
    by_contra hp
    obtain ⟨p', hne, hmessage⟩ := exists_same_message hp
    have hfree : CollisionFree sha256 [p.message, p'.message] := by
      rw [← hmessage]
      intro m hm m' hm' _
      rw [List.mem_pair, or_self] at hm hm'
      rw [hm, hm']
    exact hne (hone p' hfree (commitment_eq hmessage)).symm
  · intro hp
    refine ⟨fun p' hfree h => hp.eq_of_message (message_eq_of_commitment hfree h), ?_⟩
    intro inner hfree hcommit haccept
    have h := (checkUnmodified_commitment haccept).symm.trans hcommit
    have heq : p.commitment sha256 = inner.payment.commitment sha256 := (PyValue.str.inj h).symm
    have hpayment : inner.payment = p :=
      (hp.eq_of_message (message_eq_of_commitment hfree heq)).symm
    obtain ⟨-, items, hitems, hall⟩ := checkUnmodified_eq_ok.mp haccept
    refine ⟨hpayment, items, hitems, fun item hitem => ?_⟩
    obtain ⟨op, hop, hagrees⟩ := hall item hitem
    exact ⟨op, hop, hagrees, fun d m hd hm => (hagrees.payment_eq hd hm).trans hpayment⟩

/-- Payments of 1 and of 2 with one commitment. -/
theorem bar_moves_amount : ¬ ∀ (sha256 : Bytes → Digest32) (p p' : Payment),
    CollisionFree sha256 [p.message, p'.message] →
    p.commitment sha256 = p'.commitment sha256 → p = p' := by
  intro h
  have heq := h claimDigest ⟨"A", "1", "2|x"⟩ ⟨"A|1", "2", "x"⟩ (by decide +kernel)
    (commitment_eq (by decide +kernel))
  exact absurd heq (by decide)

end RefractContracts.Scripts
