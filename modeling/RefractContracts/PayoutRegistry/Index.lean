import RefractContracts.Host.History
import RefractContracts.Host.Journal
import RefractContracts.Host.Storage
import RefractContracts.PayoutRegistry.Contract

/-! The indexes of the payout registry. The registry is a journal of payouts with
distinct references, kept as a page for each recipient; counts, asset totals and the
reference map are read off the journal. A replay leaves the journal as it is, so a
record stays where it was written. -/

namespace RefractContracts.PayoutRegistry

open Host

variable {Address : Type}

/-! ### Effects -/

/-- The record that an operation asks for. -/
def Op.payout (w : World Address) : Op Address → Option (PayoutRecord Address)
  | .recordPayout _ recipient source amount asset referenceId =>
    some ⟨recipient, source, amount, asset, referenceId, w.sequence, w.now⟩
  | .recordPayoutWithLedger _ recipient source amount asset referenceId ledger =>
    some ⟨recipient, source, amount, asset, referenceId, ledger, w.now⟩
  | .registerPayout _ req =>
    some ⟨req.recipient, req.source, req.amount, req.asset, req.referenceId, w.sequence, w.now⟩
  | _ => none

variable [DecidableEq Address]

/-- The state with one more record. -/
def World.append (w : World Address) (record : PayoutRecord Address) : World Address :=
  let count := getRecipientPayoutCount w record.recipient
  { w with
    recipientPayoutEntry :=
      Function.update w.recipientPayoutEntry (record.recipient, count) (some record)
    recipientPayoutCountEntry :=
      Function.update w.recipientPayoutCountEntry record.recipient (some (count + 1))
    referenceEntry :=
      Function.update w.referenceEntry record.referenceId (some (record.recipient, count))
    recipientAssetTotalEntry :=
      Function.update w.recipientAssetTotalEntry (record.recipient, record.asset)
        (some (getTotalByAsset w record.recipient record.asset + record.amount))
    totalPayoutsEntry := some (getTotalPayouts w + 1) }

inductive Effect (w : World Address) : World Address → Op Address → ℕ → Prop
  | initialized {admin} (first : w.adminEntry = none) :
      Effect w { w with adminEntry := some admin, totalPayoutsEntry := some 0 }
        (.initializeContract admin) 0
  | administered {op admin pending writers} (kind : op.payout w = none) (managed : admin.isSome) :
      Effect w { w with
        adminEntry := admin, pendingAdminEntry := pending, writerEntry := writers } op 0
  | replayed {op record place} (kind : op.payout w = some record)
      (known : w.referenceEntry record.referenceId = some place) : Effect w w op place.2
  | appended {op record writer} (kind : op.payout w = some record)
      (authorised : isWriter w writer = true) (pos : 0 < record.amount)
      (fresh : w.referenceEntry record.referenceId = none) :
      Effect w (w.append record) op (getRecipientPayoutCount w record.recipient)
  | advanced {seconds ledgers} :
      Effect w { w with now := w.now + seconds, sequence := w.sequence + ledgers }
        (.advance seconds ledgers) 0

variable {w w' : World Address} {signers : List Address} {out : ℕ}

theorem requireAdmin_ok {caller : Address} {u : Unit} (h : requireAdmin signers w caller = .ok u) :
    w.adminEntry.isSome := by
  simp only [requireAdmin, bind_eq_ok, okOr_eq_ok] at h
  obtain ⟨-, -, admin, hadmin, -⟩ := h
  simp [hadmin]

theorem setWriter_ok {caller writer : Address} {flag : Bool} {op : Op Address}
    (kind : op.payout w = none) (h : setWriter signers w caller writer flag = .ok w') :
    Effect w w' op 0 := by
  simp only [setWriter, bind_eq_ok, pure_eq_ok] at h
  obtain ⟨_, hadmin, rfl⟩ := h
  exact .administered kind (requireAdmin_ok hadmin)

theorem recordPayoutInternal_ok {caller : Address} (record : PayoutRecord Address)
    {op : Op Address} (kind : op.payout w = some record) (hnow : record.timestamp = w.now)
    (h : recordPayoutInternal signers w caller record.recipient record.source record.amount
      record.asset record.referenceId record.ledger = .ok (w', out)) : Effect w w' op out := by
  simp only [recordPayoutInternal, bind_eq_ok, bail_eq_ok, not_le] at h
  obtain ⟨_, -, _, hwriter, _, hpos, h⟩ := h
  split at h
  · next recipient idx hknown =>
    simp only [bind_eq_ok, pure_eq_ok, Prod.mk.injEq] at h
    obtain ⟨_, -, rfl, rfl⟩ := h
    exact .replayed kind hknown
  · next hfresh =>
    simp only [bind_eq_ok, bail_eq_ok, i128Checked_eq_ok, u64_eq_ok, pure_eq_ok, Prod.mk.injEq] at h
    obtain ⟨_, -, _, ⟨-, rfl⟩, _, ⟨-, rfl⟩, _, -, rfl, rfl⟩ := h
    obtain ⟨recipient, source, amount, asset, referenceId, ledger, timestamp⟩ := record
    obtain rfl : timestamp = w.now := hnow
    exact .appended kind (by simpa using hwriter) hpos hfresh

/-- An accepted transaction has the effect of its entry point. -/
theorem step_effect {tx : Transaction Address} (h : step w tx = .ok (w', out)) :
    Effect w w' tx.op out := by
  obtain ⟨signers, op⟩ := tx
  cases op with
  | initializeContract admin =>
    simp only [step, initializeContract, bind_eq_ok, bail_eq_ok, pure_eq_ok, Prod.mk.injEq,
      Option.not_isSome_iff_eq_none] at h
    obtain ⟨_, ⟨-, hfirst, rfl⟩, rfl, rfl⟩ := h
    exact .initialized hfirst
  | proposeAdmin caller newAdmin =>
    simp only [step, proposeAdmin, bind_eq_ok, pure_eq_ok, Prod.mk.injEq] at h
    obtain ⟨_, ⟨_, hadmin, rfl⟩, rfl, rfl⟩ := h
    exact .administered rfl (requireAdmin_ok hadmin)
  | acceptAdmin caller =>
    simp only [step, acceptAdmin, bind_eq_ok, pure_eq_ok, Prod.mk.injEq] at h
    obtain ⟨_, ⟨-, -, -, -, -, -, rfl⟩, rfl, rfl⟩ := h
    exact .administered rfl rfl
  | registerWriter caller writer =>
    simp only [step, bind_eq_ok, pure_eq_ok, Prod.mk.injEq] at h
    obtain ⟨_, hw, rfl, rfl⟩ := h
    exact setWriter_ok rfl hw
  | deregisterWriter caller writer =>
    simp only [step, bind_eq_ok, pure_eq_ok, Prod.mk.injEq] at h
    obtain ⟨_, hw, rfl, rfl⟩ := h
    exact setWriter_ok rfl hw
  | recordPayout caller recipient source amount asset referenceId =>
    exact recordPayoutInternal_ok ⟨recipient, source, amount, asset, referenceId,
      w.sequence, w.now⟩ rfl rfl h
  | recordPayoutWithLedger caller recipient source amount asset referenceId ledger =>
    exact recordPayoutInternal_ok ⟨recipient, source, amount, asset, referenceId,
      ledger, w.now⟩ rfl rfl h
  | registerPayout caller req =>
    exact recordPayoutInternal_ok ⟨req.recipient, req.source, req.amount, req.asset,
      req.referenceId, w.sequence, w.now⟩ rfl rfl h
  | advance seconds ledgers =>
    simp only [step, bind_eq_ok, u64_eq_ok, pure_eq_ok, Prod.mk.injEq] at h
    obtain ⟨_, ⟨-, rfl⟩, rfl, rfl⟩ := h
    exact .advanced

/-! ### The journal -/

/-- What the record counts for in an asset. -/
def PayoutRecord.amountIn (record : PayoutRecord Address) (asset : Address) : ℤ :=
  if record.asset = asset then record.amount else 0

abbrev Payouts (Address : Type) : Type :=
  Journal (PayoutRecord.referenceId : PayoutRecord Address → Reference)

/-- The payouts of the recipient, in the order they were recorded. -/
abbrev payoutsOf (j : Payouts Address) : Address → List (PayoutRecord Address) :=
  Journal.page PayoutRecord.recipient j.entries

/-- The journal after an operation: a replay records nothing. -/
def Op.entered (op : Op Address) (w : World Address) (j : Payouts Address) : Payouts Address :=
  (op.payout w).elim j j.record

/-- The payouts of the accepted record calls. -/
def journalOf (h : List (Receipt (World Address) (Transaction Address) ℕ)) : Payouts Address :=
  h.foldl (fun j x => x.call.op.entered x.pre j) (Journal.empty _)

/-- The storage keeps the journal. Before the administrator there is no writer. -/
structure Indexes (w : World Address) (j : Payouts Address) : Prop where
  records : ∀ recipient i, w.recipientPayoutEntry (recipient, i) = (payoutsOf j recipient)[i]?
  counts : ∀ recipient, getRecipientPayoutCount w recipient = (payoutsOf j recipient).length
  totals : ∀ recipient asset, getTotalByAsset w recipient asset =
    ((payoutsOf j recipient).map (PayoutRecord.amountIn · asset)).sum
  total : getTotalPayouts w = j.entries.length
  references : ∀ referenceId place, w.referenceEntry referenceId = some place ↔
    ∃ record, w.recipientPayoutEntry place = some record ∧ record.referenceId = referenceId
  unmanaged : w.adminEntry = none → (∀ writer, isWriter w writer = false) ∧ j.entries = []

variable {j : Payouts Address} {record : PayoutRecord Address} {op : Op Address}

theorem recipientPayoutCount_append (w : World Address) (record : PayoutRecord Address)
    (recipient : Address) : getRecipientPayoutCount (w.append record) recipient =
      getRecipientPayoutCount w recipient + if recipient = record.recipient then 1 else 0 := by
  simp only [getRecipientPayoutCount, World.append, Function.update_apply]
  split_ifs with hr <;> simp [hr]

theorem totalByAsset_append (w : World Address) (record : PayoutRecord Address)
    (recipient asset : Address) : getTotalByAsset (w.append record) recipient asset =
      getTotalByAsset w recipient asset +
        if recipient = record.recipient then record.amountIn asset else 0 := by
  simp only [getTotalByAsset, World.append, Function.update_apply, Prod.mk.injEq,
    PayoutRecord.amountIn]
  by_cases hr : recipient = record.recipient
  · by_cases ha : asset = record.asset
    · simp [hr, ha]
    · simp [hr, ha, Ne.symm ha]
  · simp [hr]

/-- A reference is known exactly when the journal has it. -/
theorem Indexes.known_iff (i : Indexes w j) (referenceId : Reference) :
    (w.referenceEntry referenceId).isSome ↔
      referenceId ∈ j.entries.map PayoutRecord.referenceId := by
  rw [Option.isSome_iff_exists, List.mem_map]
  constructor
  · rintro ⟨⟨recipient, idx⟩, hplace⟩
    obtain ⟨record, hrecord, href⟩ := (i.references _ _).mp hplace
    rw [i.records] at hrecord
    exact ⟨record, Journal.mem_of_place hrecord, href⟩
  · rintro ⟨record, hmem, href⟩
    obtain ⟨idx, hidx⟩ := Journal.exists_place PayoutRecord.recipient hmem
    exact ⟨_, (i.references _ _).mpr ⟨record, (i.records _ _).trans hidx, href⟩⟩

/-- The place behind the last record of a page is free. -/
theorem Indexes.next_free (i : Indexes w j) (recipient : Address) :
    w.recipientPayoutEntry (recipient, getRecipientPayoutCount w recipient) = none := by
  rw [i.records, i.counts]
  exact List.getElem?_eq_none le_rfl

/-- The new record is the only one at its place, and the only one with its reference. -/
theorem Indexes.references_append (i : Indexes w j)
    (fresh : w.referenceEntry record.referenceId = none) (referenceId : Reference)
    (place : Address × ℕ) : (w.append record).referenceEntry referenceId = some place ↔
      ∃ stored, (w.append record).recipientPayoutEntry place = some stored ∧
        stored.referenceId = referenceId := by
  simp only [World.append, Function.update_apply]
  by_cases hplace : place = (record.recipient, getRecipientPayoutCount w record.recipient)
  · subst hplace
    simp only [if_true, Option.some.injEq, exists_eq_left']
    constructor
    · intro h
      split_ifs at h with href
      · exact href.symm
      · obtain ⟨old, hold, -⟩ := (i.references _ _).mp h
        rw [i.next_free] at hold
        cases hold
    · intro h
      rw [if_pos h.symm]
  · rw [if_neg hplace, ← i.references]
    split_ifs with href
    · rw [href, fresh]
      simp [Ne.symm hplace]
    · rfl

theorem Indexes.append (i : Indexes w j) (managed : w.adminEntry.isSome)
    (fresh : w.referenceEntry record.referenceId = none) :
    Indexes (w.append record) (j.record record) := by
  have hnew : record.referenceId ∉ j.entries.map PayoutRecord.referenceId := by
    rw [← i.known_iff, fresh]
    simp
  have hentries : (j.record record).entries = j.entries ++ [record] := Journal.record_fresh hnew
  have hpage : payoutsOf (j.record record) = Function.update (payoutsOf j) record.recipient
      (payoutsOf j record.recipient ++ [record]) := by
    rw [payoutsOf, hentries, Journal.page_snoc]
  refine ⟨fun recipient idx => ?_, fun recipient => ?_, fun recipient asset => ?_, ?_,
    i.references_append fresh, fun h => ?_⟩
  · simp only [World.append, Function.update_apply, Prod.mk.injEq, i.records, i.counts, hpage]
    by_cases hr : recipient = record.recipient
    · subst hr
      simp only [if_true, true_and, Journal.place_snoc]
    · simp only [hr, if_false, false_and]
  · rw [recipientPayoutCount_append, i.counts, hpage, Function.update_apply]
    split_ifs with hr
    · simp [hr]
    · rfl
  · rw [totalByAsset_append, i.totals, hpage, Function.update_apply]
    split_ifs with hr
    · simp [hr]
    · exact add_zero _
  · rw [hentries, List.length_append, List.length_singleton, ← i.total]
    rfl
  · simp [show w.adminEntry = none from h] at managed

theorem Effect.indexes (e : Effect w w' op out) (i : Indexes w j) :
    Indexes w' (op.entered w j) := by
  cases e with
  | initialized first =>
    have hnone := i.unmanaged first
    refine ⟨i.records, i.counts, i.totals, ?_, i.references, nofun⟩
    simp [Op.entered, Op.payout, getTotalPayouts, hnone.2]
  | administered kind managed =>
    rw [Op.entered, kind]
    refine ⟨i.records, i.counts, i.totals, i.total, i.references, fun h => ?_⟩
    simp only at h
    simp [h] at managed
  | @replayed op record place kind known =>
    have hknown := (i.known_iff record.referenceId).mp (by simp [known])
    rwa [Op.entered, kind, Option.elim_some, Journal.record_known hknown]
  | @appended op record writer kind authorised pos fresh =>
    rw [Op.entered, kind]
    refine i.append (Option.ne_none_iff_isSome.mp fun h => ?_) fresh
    rw [(i.unmanaged h).1 writer] at authorised
    cases authorised
  | advanced => exact ⟨i.records, i.counts, i.totals, i.total, i.references, i.unmanaged⟩

/-! ### Runs -/

/-- What the storage says on its own: where the records are, and what is read off them. -/
structure Consistent (w : World Address) : Prop where
  places : ∀ recipient i,
    (w.recipientPayoutEntry (recipient, i)).isSome ↔ i < getRecipientPayoutCount w recipient
  owners : ∀ recipient i record,
    w.recipientPayoutEntry (recipient, i) = some record → record.recipient = recipient
  totals : ∀ recipient asset, getTotalByAsset w recipient asset =
    ∑ i ∈ Finset.range (getRecipientPayoutCount w recipient),
      ((w.recipientPayoutEntry (recipient, i)).map (PayoutRecord.amountIn · asset)).getD 0
  total : HasTotal (fun recipient => (getRecipientPayoutCount w recipient : ℤ)) (getTotalPayouts w)
  references : ∀ referenceId place, w.referenceEntry referenceId = some place ↔
    ∃ record, w.recipientPayoutEntry place = some record ∧ record.referenceId = referenceId
  bijection : Set.BijOn w.referenceEntry {referenceId | (w.referenceEntry referenceId).isSome}
    (some '' {place | (w.recipientPayoutEntry place).isSome})

theorem indexes_run (now sequence : ℕ) (txs : List (Transaction Address)) :
    Indexes (run step (deployed Address now sequence) txs).1
      (journalOf (run step (deployed Address now sequence) txs).2) := by
  refine (run_trace step (deployed Address now sequence) txs).history
    (I := fun h w => Indexes w (journalOf h)) (fun h x accepted i => ?_) ?_
  · rw [journalOf, List.foldl_append]
    exact (step_effect accepted).indexes i
  · exact ⟨fun _ _ => rfl, fun _ => rfl, fun _ _ => rfl, rfl, by simp [deployed],
      fun _ => ⟨fun _ => rfl, rfl⟩⟩

/-- Two references are never mapped to one place, and every record's place is found. -/
theorem Indexes.bijection (i : Indexes w j) :
    Set.BijOn w.referenceEntry {referenceId | (w.referenceEntry referenceId).isSome}
      (some '' {place | (w.recipientPayoutEntry place).isSome}) := by
  refine ⟨fun referenceId h => ?_, fun r hr r' _ heq => ?_, ?_⟩
  · obtain ⟨place, hplace⟩ := Option.isSome_iff_exists.mp h
    obtain ⟨record, hrecord, -⟩ := (i.references _ _).mp hplace
    exact ⟨place, Option.isSome_iff_exists.mpr ⟨record, hrecord⟩, hplace.symm⟩
  · obtain ⟨place, hplace⟩ := Option.isSome_iff_exists.mp hr
    obtain ⟨record, hrecord, rfl⟩ := (i.references _ _).mp hplace
    obtain ⟨record', hrecord', rfl⟩ := (i.references _ _).mp (heq.symm.trans hplace)
    rw [Option.some.inj (hrecord.symm.trans hrecord')]
  · rintro _ ⟨place, h, rfl⟩
    obtain ⟨record, hrecord⟩ := Option.isSome_iff_exists.mp h
    have href := (i.references record.referenceId place).mpr ⟨record, hrecord, rfl⟩
    exact ⟨record.referenceId, Option.isSome_iff_exists.mpr ⟨place, href⟩, href⟩

theorem Indexes.consistent (i : Indexes w j) : Consistent w where
  places recipient idx := by
    rw [i.records, i.counts, Option.isSome_iff_exists]
    constructor
    · rintro ⟨record, h⟩
      exact (List.getElem?_eq_some_iff.mp h).1
    · exact fun h => ⟨_, List.getElem?_eq_getElem h⟩
  owners recipient idx record h := by
    rw [i.records] at h
    exact Journal.key_of_place h
  totals recipient asset := by
    rw [i.totals, i.counts]
    simp only [i.records]
    refine ((Journal.total_places _ _).sum_eq fun idx hidx => ?_).symm
    rw [List.getElem?_eq_none (by simpa using hidx)]
    rfl
  total := by
    rw [i.total]
    exact (Journal.total_length _ _).congr (fun recipient => by rw [i.counts]) rfl
  references := i.references
  bijection := i.bijection

/-- The record of a place stays there. -/
theorem Effect.record_stays (e : Effect w w' op out) (i : Indexes w j) {place : Address × ℕ}
    (h : w.recipientPayoutEntry place = some record) :
    w'.recipientPayoutEntry place = some record := by
  cases e with
  | @appended op added writer kind authorised pos fresh =>
    have hne := ne_of_absent (i.next_free added.recipient) h
    exact (Function.update_of_ne hne _ _).trans h
  | _ => exact h

/-- In every run the indexes of the registry describe the records it has stored, and a
record that was stored stays as it was. -/
theorem payouts_indexed (now sequence : ℕ) (txs : List (Transaction Address)) :
    let r := run step (deployed Address now sequence) txs
    Consistent r.1 ∧
      ∀ g l, txs = g ++ l → ∀ place record,
        (run step (deployed Address now sequence) g).1.recipientPayoutEntry place = some record →
          r.1.recipientPayoutEntry place = some record := by
  intro r
  refine ⟨(indexes_run now sequence txs).consistent, fun g l hsplit place record hrecord => ?_⟩
  -- the run from the state after `g` keeps the record beside the indexes
  have hkept := run_invariant (C := step)
    (I := fun w => (∃ j, Indexes w j) ∧ w.recipientPayoutEntry place = some record)
    (fun x accepted ⟨⟨j, i⟩, h⟩ =>
      ⟨⟨_, (step_effect accepted).indexes i⟩, (step_effect accepted).record_stays i h⟩)
    ⟨⟨_, indexes_run now sequence g⟩, hrecord⟩ l
  have hfrom : r.1 = (run step (run step (deployed Address now sequence) g).1 l).1 := by
    simp only [r]
    rw [hsplit, run_concat]
  rw [hfrom]
  exact hkept.2

end RefractContracts.PayoutRegistry
