import RefractContracts.PayoutRegistry.Index

/-! Replays of a recorded payout. A record call whose reference is known answers the index
of the stored record and writes nothing. Before it answers it extends the lifetime of that
record's entries and of a total: that of the stored recipient in the asset of the replay. No
such total exists in an asset the recipient was never paid in, and there the host traps. -/

namespace RefractContracts.PayoutRegistry

open Host

variable {Address : Type}

/-! ### Record calls -/

/-- The writer that an operation records for. -/
def Op.writer : Op Address → Option Address
  | .recordPayout caller .. => some caller
  | .recordPayoutWithLedger caller .. => some caller
  | .registerPayout caller _ => some caller
  | _ => none

/-- The recipient has a record in the asset. -/
def PaidIn (w : World Address) (recipient asset : Address) : Prop :=
  ∃ i record, w.recipientPayoutEntry (recipient, i) = some record ∧ record.asset = asset

variable {w w' : World Address} {tx : Transaction Address} {out : ℕ}
  {record : PayoutRecord Address} {place : Address × ℕ} {j : Payouts Address}

theorem Op.exists_writer {op : Op Address} (kind : op.payout w = some record) :
    ∃ writer, op.writer = some writer := by
  cases op with
  | recordPayout caller => exact ⟨caller, rfl⟩
  | recordPayoutWithLedger caller => exact ⟨caller, rfl⟩
  | registerPayout caller => exact ⟨caller, rfl⟩
  | _ => cases kind

variable [DecidableEq Address]

/-- A record call of an authorised writer, with a positive amount and a reference that is
indexed at `place`. -/
structure Replay (w : World Address) (tx : Transaction Address) (record : PayoutRecord Address)
    (place : Address × ℕ) : Prop where
  kind : tx.op.payout w = some record
  authorised : ∃ writer ∈ tx.signers, tx.op.writer = some writer ∧ isWriter w writer = true
  pos : 0 < record.amount
  known : w.referenceEntry record.referenceId = some place

/-- The three entry points that record payouts are one. -/
theorem step_payout {writer : Address} (kind : tx.op.payout w = some record)
    (hwriter : tx.op.writer = some writer) : step w tx =
      recordPayoutInternal tx.signers w writer record.recipient record.source record.amount
        record.asset record.referenceId record.ledger := by
  obtain ⟨signers, op⟩ := tx
  cases op with
  | recordPayout caller recipient source amount asset referenceId =>
    cases kind
    cases hwriter
    rfl
  | recordPayoutWithLedger caller recipient source amount asset referenceId ledger =>
    cases kind
    cases hwriter
    rfl
  | registerPayout caller req =>
    cases kind
    cases hwriter
    rfl
  | _ => cases kind

/-- A replay extends the four lifetimes and answers where the record is. -/
theorem Replay.step_eq_ok (r : Replay w tx record place) : step w tx = .ok (w', out) ↔
    (w.recipientPayoutEntry place).isSome ∧ (w.recipientPayoutCountEntry place.1).isSome ∧
      (w.recipientAssetTotalEntry (place.1, record.asset)).isSome ∧ w' = w ∧ out = place.2 := by
  obtain ⟨writer, hsigned, hop, hwriter⟩ := r.authorised
  rw [step_payout r.kind hop]
  simp only [recordPayoutInternal, bind_eq_ok, requireAuth_eq_ok, bail_eq_ok, hsigned, hwriter,
    not_le, r.pos, r.known, extendRecordTtl, demand_eq_ok, pure_eq_ok, Prod.mk.injEq,
    Option.isSome_some, reduceCtorEq, not_false_eq_true, true_and, exists_const]
  constructor
  · rintro ⟨⟨hrecord, hcount, htotal⟩, rfl, rfl⟩
    exact ⟨hrecord, hcount, htotal, rfl, rfl⟩
  · rintro ⟨hrecord, hcount, htotal, rfl, rfl⟩
    exact ⟨⟨hrecord, hcount, htotal⟩, rfl, rfl⟩

/-! ### Totals -/

/-- A total exists exactly where there is something to add up. -/
def TotalsKept (w : World Address) : Prop :=
  ∀ recipient asset,
    (w.recipientAssetTotalEntry (recipient, asset)).isSome ↔ PaidIn w recipient asset

/-- A new record is paid in its own asset; the others are where they were. -/
theorem Indexes.paidIn_append (i : Indexes w j) (recipient asset : Address) :
    PaidIn (w.append record) recipient asset ↔
      PaidIn w recipient asset ∨ (recipient = record.recipient ∧ asset = record.asset) := by
  constructor
  · rintro ⟨idx, stored, h, hasset⟩
    rcases update_eq_some h with ⟨heq, rfl⟩ | ⟨-, hold⟩
    · exact .inr ⟨(Prod.mk.inj heq).1, hasset.symm⟩
    · exact .inl ⟨idx, stored, hold, hasset⟩
  · rintro (⟨idx, stored, h, hasset⟩ | ⟨rfl, rfl⟩)
    · have hne := ne_of_absent (i.next_free record.recipient) h
      exact ⟨idx, stored, (Function.update_of_ne hne _ _).trans h, hasset⟩
    · exact ⟨_, record, Function.update_self _ _ _, rfl⟩

theorem Indexes.totalsKept_append (i : Indexes w j) (kept : TotalsKept w) :
    TotalsKept (w.append record) := by
  intro recipient asset
  rw [i.paidIn_append, ← kept]
  simp only [World.append, Function.update_apply, Prod.mk.injEq]
  split_ifs with h
  · simp [h]
  · exact (or_iff_left h).symm

theorem Effect.totalsKept {op : Op Address} (e : Effect w w' op out) (i : Indexes w j)
    (kept : TotalsKept w) : TotalsKept w' := by
  cases e with
  | appended => exact i.totalsKept_append kept
  | _ => exact kept

theorem totalsKept_attempt {now sequence : ℕ} {txs : List (Transaction Address)}
    {p : World Address × Transaction Address}
    (hp : p ∈ attempts step (deployed Address now sequence) txs) :
    (∃ j, Indexes p.1 j) ∧ TotalsKept p.1 := by
  have init : TotalsKept (deployed Address now sequence) := fun recipient asset => by
    simp [deployed, PaidIn]
  refine attempt_invariant (C := step) (I := fun w => (∃ j, Indexes w j) ∧ TotalsKept w) ?_
    ⟨⟨_, indexes_run now sequence []⟩, init⟩ hp
  rintro x accepted ⟨⟨j, i⟩, kept⟩
  have e := step_effect accepted
  exact ⟨⟨_, e.indexes i⟩, e.totalsKept i kept⟩

/-! ### Replays in a run -/

/-- In every run, a replay finds a record with its reference, and it answers that record's
index and leaves the registry as it is exactly if the recipient of the record has been paid
in the asset of the replay. -/
theorem replay_answers_iff (now sequence : ℕ) (txs : List (Transaction Address)) :
    ∀ p ∈ attempts step (deployed Address now sequence) txs, ∀ record place,
      Replay p.1 p.2 record place →
        (∃ stored, p.1.recipientPayoutEntry place = some stored ∧
          stored.referenceId = record.referenceId) ∧
        (step p.1 p.2 = .ok (p.1, place.2) ↔ PaidIn p.1 place.1 record.asset) := by
  intro p hp record place r
  obtain ⟨⟨j, i⟩, kept⟩ := totalsKept_attempt hp
  obtain ⟨stored, hstored, href⟩ := (i.references _ _).mp r.known
  refine ⟨⟨stored, hstored, href⟩, ?_⟩
  rw [r.step_eq_ok, ← kept]
  have hrecord : (p.1.recipientPayoutEntry place).isSome := by
    rw [hstored]
    rfl
  have hcount : (p.1.recipientPayoutCountEntry place.1).isSome := by
    have hlt := (i.consistent.places place.1 place.2).mp hrecord
    rw [Option.isSome_iff_ne_none]
    intro hnone
    rw [getRecipientPayoutCount, hnone] at hlt
    cases hlt
  constructor
  · rintro ⟨-, -, htotal, -⟩
    exact htotal
  · exact fun htotal => ⟨hrecord, hcount, htotal, rfl, rfl⟩

/-- A payout in asset 7, then a replay of its reference in the given asset. -/
def replayIn (asset : ℕ) : List (Transaction ℕ) :=
  [⟨[], .initializeContract 1⟩, ⟨[1], .registerWriter 1 2⟩,
    ⟨[2], .recordPayout 2 5 "bounty" 100 7 0⟩, ⟨[2], .recordPayout 2 5 "bounty" 100 asset 0⟩]

/-- The replay in another asset traps. -/
theorem replayIn_other_traps :
    ¬ ∀ p ∈ attempts step (deployed ℕ 0 0) (replayIn 8), ∀ record place,
      Replay p.1 p.2 record place → step p.1 p.2 = .ok (p.1, place.2) := by
  intro h
  let p := (attempts step (deployed ℕ 0 0) (replayIn 8))[3]
  have hstep := h p (List.getElem_mem _) ⟨5, "bounty", 100, 8, 0, 0, 0⟩ (5, 0)
    ⟨rfl, ⟨2, by decide, rfl, by decide +kernel⟩, by decide, by decide +kernel⟩
  have hok : (step p.1 p.2).toOption.isSome = true := by rw [hstep]; rfl
  exact absurd hok (by decide +kernel)

/-- The replay in the asset of the payout is answered. -/
theorem replayIn_same_answers :
    let p := (attempts step (deployed ℕ 0 0) (replayIn 7))[3]
    step p.1 p.2 = .ok (p.1, 0) ↔ PaidIn p.1 5 7 :=
  (replay_answers_iff 0 0 (replayIn 7) _ (List.getElem_mem _) ⟨5, "bounty", 100, 7, 0, 0, 0⟩ (5, 0)
    ⟨rfl, ⟨2, by decide, rfl, by decide +kernel⟩, by decide, by decide +kernel⟩).2

end RefractContracts.PayoutRegistry
