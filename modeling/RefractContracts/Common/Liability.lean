import RefractContracts.Host.History
import RefractContracts.Host.Storage
import RefractContracts.Host.Total
import RefractContracts.Common.Payout

/-! The liability of the failed payouts. A record enters as failed, may be renewed while
it is failed, and is closed once; the liability of a token is the total of its failed
records. While these totals fit in an `i128` no sum saturates, and because a failed
record is part of the total, no release is clamped. -/

namespace RefractContracts.Common

open Host

variable {Address : Type}

def PayoutStatus.Closed : PayoutStatus → Prop
  | .paid | .reclaimed => True
  | _ => False

instance (status : PayoutStatus) : Decidable status.Closed := by
  unfold PayoutStatus.Closed
  split <;> infer_instance

/-- The record of `id` is paid or reclaimed. -/
def Closed (id : ℕ) (w : World Address) : Prop := ∃ record ∈ get w id, record.status.Closed

instance (id : ℕ) : DecidablePred (Closed id : World Address → Prop) := fun w => by
  unfold Closed
  infer_instance

abbrev Event (Address : Type) := Receipt (World Address) (Transaction Address) (Answer Address)

variable [DecidableEq Address]

/-- What the record owes in a token: its amount while it is failed. -/
def PayoutRecord.owedIn (token : Address) (record : PayoutRecord Address) : ℤ :=
  if record.token = token ∧ record.status = .failed then record.amount else 0

/-- What is owed in a token, by records. -/
def owed (w : World Address) (token : Address) : ℕ → ℤ :=
  valueAt w.recordEntry (PayoutRecord.owedIn token)

/-- No token owes more than an `i128` holds. -/
def Fits (w : World Address) : Prop := ∀ token n, HasTotal (owed w token) n → n ≤ maxI128

/-! ### Effects -/

inductive Effect (w : World Address) : World Address → Op Address → Answer Address → Prop
  | paid {token recipient amount context} :
      Effect w w (.pay token recipient amount context) (.result ⟨.success, none⟩)
  | failed {token recipient amount context} (record : PayoutRecord Address)
      (id : record.id = count w) (open_ : record.status = .failed) (of : record.token = token)
      (owes : record.amount = amount) (pos : 0 < amount) :
      Effect w (addLiability (writeRecord { w with nextIdEntry := some (count w + 1) } record)
        token amount) (.pay token recipient amount context)
        (.result ⟨record.reason, some (count w)⟩)
  | renewed {op out} (id : ℕ) (record next : PayoutRecord Address)
      (stored : get w id = some record) (open_ : record.status = .failed)
      (same : next.id = record.id ∧ next.token = record.token ∧ next.amount = record.amount ∧
        next.status = .failed) (again : ∀ o, out = .outcome o → o ≠ .success) :
      Effect w (writeRecord w next) op out
  | closed {op out} (id : ℕ) (record next : PayoutRecord Address)
      (stored : get w id = some record) (open_ : record.status = .failed)
      (same : next.id = record.id ∧ next.token = record.token ∧ next.amount = record.amount ∧
        next.status.Closed) (done : ∀ o, out = .outcome o → o = .success) :
      Effect w (subLiability (writeRecord w next) record.token record.amount) op out
  | advanced {seconds} : Effect w { w with now := w.now + seconds } (.advance seconds) .unit

variable {self : Address} {w w' : World Address} {out : Answer Address}

omit [DecidableEq Address] in
theorem tryTransfer_pos {tokens : Tokens Address} {token src dst : Address} {amount : ℤ}
    (h : tryTransfer tokens token src dst amount ≠ .success) : 0 < amount := by
  by_contra hle
  exact h (if_pos (not_lt.mp hle))

theorem pay_ok {tokens : Tokens Address} {token recipient : Address} {amount : ℤ} {context : ℕ}
    {r : PayoutResult} (h : pay tokens self w token recipient amount context = .ok (w', r)) :
    Effect w w' (.pay token recipient amount context) (.result r) := by
  simp only [pay] at h
  split at h
  · next hsuccess =>
    obtain ⟨rfl, rfl⟩ := Prod.mk.inj ((pure_eq_ok _ _).mp h)
    rw [hsuccess]
    exact .paid
  · next hfailed =>
    simp only [bind_eq_ok, u64_eq_ok, pure_eq_ok, Prod.mk.injEq] at h
    obtain ⟨_, ⟨-, rfl⟩, rfl, rfl⟩ := h
    exact .failed _ rfl rfl rfl rfl (tryTransfer_pos hfailed)

theorem retry_ok {tokens : Tokens Address} {id : ℕ} {o : TransferOutcome}
    (h : retry tokens self w id = .ok (w', o)) : Effect w w' (.retry id) (.outcome o) := by
  simp only [retry, bind_eq_ok, okOr_eq_ok, bail_eq_ok, not_not] at h
  obtain ⟨record, hstored, _, hopen, h⟩ := h
  split at h
  · next hsuccess =>
    obtain ⟨rfl, rfl⟩ := Prod.mk.inj ((pure_eq_ok _ _).mp h)
    exact .closed id record _ hstored hopen ⟨rfl, rfl, rfl, trivial⟩
      fun o ho => (Answer.outcome.inj ho).symm.trans hsuccess
  · next hfailed =>
    obtain ⟨rfl, rfl⟩ := Prod.mk.inj ((pure_eq_ok _ _).mp h)
    exact .renewed id record _ hstored hopen ⟨rfl, rfl, rfl, hopen⟩
      fun o ho => Answer.outcome.inj ho ▸ hfailed

theorem updateRecipient_ok {id : ℕ} {newRecipient : Address} {record : PayoutRecord Address}
    (h : updateRecipient w id newRecipient = .ok (w', record)) :
    Effect w w' (.updateRecipient id newRecipient) (.record record) := by
  simp only [updateRecipient, bind_eq_ok, okOr_eq_ok, bail_eq_ok, not_not, pure_eq_ok,
    Prod.mk.injEq] at h
  obtain ⟨old, hstored, _, hopen, _, -, rfl, rfl⟩ := h
  refine .renewed id old _ hstored hopen ⟨rfl, rfl, rfl, hopen⟩ ?_
  rintro _ ⟨⟩

theorem reclaim_ok {id : ℕ} {record : PayoutRecord Address}
    (h : reclaim w id = .ok (w', record)) : Effect w w' (.reclaim id) (.record record) := by
  simp only [reclaim, bind_eq_ok, okOr_eq_ok, bail_eq_ok, not_not, pure_eq_ok, Prod.mk.injEq] at h
  obtain ⟨old, hstored, _, hopen, _, -, rfl, rfl⟩ := h
  refine .closed id old _ hstored hopen ⟨rfl, rfl, rfl, trivial⟩ ?_
  rintro _ ⟨⟩

/-- An accepted call has the effect of its operation. -/
theorem step_effect {tx : Transaction Address} (h : step self w tx = .ok (w', out)) :
    Effect w w' tx.op out := by
  obtain ⟨tokens, op⟩ := tx
  cases op with
    simp only [step, bind_eq_ok, pure_eq_ok, Prod.exists, Prod.mk.injEq] at h
  | pay token recipient amount context =>
    obtain ⟨_, _, h, rfl, rfl⟩ := h
    exact pay_ok h
  | retry id =>
    obtain ⟨_, _, h, rfl, rfl⟩ := h
    exact retry_ok h
  | updateRecipient id newRecipient =>
    obtain ⟨_, _, h, rfl, rfl⟩ := h
    exact updateRecipient_ok h
  | reclaim id =>
    obtain ⟨_, _, h, rfl, rfl⟩ := h
    exact reclaim_ok h
  | advance seconds =>
    simp only [u64_eq_ok] at h
    obtain ⟨_, ⟨-, rfl⟩, rfl, rfl⟩ := h
    exact .advanced

/-! ### The books -/

/-- The liability of a token is what its failed records owe. -/
structure Booked (w : World Address) : Prop where
  total : ∀ token, HasTotal (owed w token) (liability w token)
  records : ∀ id record, w.recordEntry id = some record → record.id = id ∧ 0 < record.amount
  unused : ∀ id, count w ≤ id → w.recordEntry id = none

variable {record next : PayoutRecord Address} {token : Address} {id : ℕ}

theorem PayoutRecord.owedIn_failed (h : record.status = .failed) (token : Address) :
    record.owedIn token = if token = record.token then record.amount else 0 := by
  simp [PayoutRecord.owedIn, h, eq_comm]

theorem PayoutRecord.owedIn_closed (h : record.status.Closed) (token : Address) :
    record.owedIn token = 0 := by
  refine if_neg fun hc => ?_
  rw [hc.2] at h
  exact h

theorem liability_set (w : World Address) (token : Address) (n : ℤ) (t : Address) :
    (Function.update w.liabilityEntry token (some n) t).getD 0 =
      if t = token then n else liability w t := by
  rw [Function.update_apply]
  split_ifs <;> rfl

theorem Booked.owed_nonneg (b : Booked w) (token : Address) (id : ℕ) : 0 ≤ owed w token id := by
  refine valueAt_nonneg (fun id record h => ?_) id
  unfold PayoutRecord.owedIn
  split_ifs
  · exact (b.records id record h).2.le
  · exact le_rfl

/-- A failed record is part of the liability of its token. -/
theorem Booked.amount_le (b : Booked w) (h : get w id = some record)
    (open_ : record.status = .failed) : record.amount ≤ liability w record.token := by
  calc record.amount = record.owedIn record.token := by
        rw [PayoutRecord.owedIn_failed open_, if_pos rfl]
    _ = owed w record.token id := (valueAt_some h).symm
    _ ≤ liability w record.token :=
        (b.total record.token).single_le (b.owed_nonneg record.token) id

theorem Booked.liability_nonneg (b : Booked w) (token : Address) : 0 ≤ liability w token :=
  (b.total token).nonneg (b.owed_nonneg token)

/-- A stored record rewritten under its id. -/
theorem Booked.rewritten (b : Booked w) (h : get w id = some record) (hid : next.id = record.id)
    (hamount : next.amount = record.amount) :
    (writeRecord w next).recordEntry = Function.update w.recordEntry id (some next) ∧
      (∀ k other, (writeRecord w next).recordEntry k = some other →
        other.id = k ∧ 0 < other.amount) ∧
      ∀ k, count w ≤ k → (writeRecord w next).recordEntry k = none := by
  obtain ⟨rfl, hpos⟩ := b.records id record h
  have hentry : (writeRecord w next).recordEntry =
      Function.update w.recordEntry record.id (some next) := by rw [writeRecord, hid]
  refine ⟨hentry, forall_update b.records hentry ⟨hid, hamount ▸ hpos⟩, fun k hk => ?_⟩
  rw [hentry]
  exact absent_update (b.unused k hk) h

/-- A record that fails for the first time. -/
theorem Booked.enter (b : Booked w) (hid : record.id = count w) (open_ : record.status = .failed)
    (pos : 0 < record.amount)
    (fits : Fits (addLiability (writeRecord { w with nextIdEntry := some (count w + 1) } record)
      record.token record.amount)) :
    Booked (addLiability (writeRecord { w with nextIdEntry := some (count w + 1) } record)
      record.token record.amount) := by
  have hfree := b.unused record.id hid.ge
  have htotal : ∀ t, HasTotal
      (valueAt (Function.update w.recordEntry record.id (some record)) (PayoutRecord.owedIn t))
      (liability w t + if t = record.token then record.amount else 0) := fun t => by
    rw [← PayoutRecord.owedIn_failed open_]
    exact (b.total t).insert hfree record
  have hnonneg := b.liability_nonneg record.token
  have hmax := fits record.token _ (htotal record.token)
  rw [if_pos rfl] at hmax
  refine ⟨fun t => (htotal t).congr (fun _ => rfl) ?_, ?_, fun k hk => ?_⟩
  · -- the new sum fits, so the addition does not saturate
    refine Eq.trans ?_ (liability_set w record.token _ t).symm
    split_ifs with ht
    · subst ht
      refine (i128SaturatingAdd_eq ?_ hmax).symm
      unfold minI128
      omega
    · exact add_zero _
  · exact forall_update b.records rfl ⟨rfl, pos⟩
  · have hk' : count w + 1 ≤ k := hk
    refine (Function.update_of_ne ?_ _ _).trans (b.unused k (by omega))
    omega

/-- A failed record that is rewritten and stays failed. -/
theorem Booked.renew (b : Booked w) (stored : get w id = some record)
    (open_ : record.status = .failed) (hid : next.id = record.id)
    (htoken : next.token = record.token) (hamount : next.amount = record.amount)
    (hstatus : next.status = .failed) : Booked (writeRecord w next) := by
  obtain ⟨hentry, hrecords, hunused⟩ := b.rewritten stored hid hamount
  refine ⟨fun t => ?_, hrecords, hunused⟩
  rw [owed, hentry]
  refine ((b.total t).replace stored next).congr (fun _ => rfl) ?_
  rw [PayoutRecord.owedIn_failed open_, PayoutRecord.owedIn_failed hstatus, htoken, hamount,
    sub_add_cancel]
  rfl

/-- A failed record that is paid or reclaimed. -/
theorem Booked.close (b : Booked w) (stored : get w id = some record)
    (open_ : record.status = .failed) (hid : next.id = record.id)
    (hamount : next.amount = record.amount) (hstatus : next.status.Closed)
    (fits : Fits (subLiability (writeRecord w next) record.token record.amount)) :
    Booked (subLiability (writeRecord w next) record.token record.amount) := by
  obtain ⟨hentry, hrecords, hunused⟩ := b.rewritten stored hid hamount
  have hle := b.amount_le stored open_
  have htotal : ∀ t, HasTotal (owed (writeRecord w next) t)
      (liability w t - if t = record.token then record.amount else 0) := fun t => by
    rw [owed, hentry]
    refine ((b.total t).replace stored next).congr (fun _ => rfl) ?_
    rw [PayoutRecord.owedIn_failed open_, PayoutRecord.owedIn_closed hstatus, add_zero]
  have hmax := fits record.token _ (htotal record.token)
  rw [if_pos rfl] at hmax
  refine ⟨fun t => (htotal t).congr (fun _ => rfl) ?_, hrecords, hunused⟩
  -- the record is part of the liability, so the release is not clamped
  refine Eq.trans ?_ (liability_set w record.token _ t).symm
  split_ifs with ht
  · subst ht
    have hexact : i128SaturatingSub (liability w record.token) record.amount =
        liability w record.token - record.amount := by
      refine i128SaturatingSub_eq ?_ hmax
      unfold minI128
      omega
    exact ((congrArg (max · 0) hexact).trans (max_eq_left (by omega))).symm
  · exact sub_zero _

theorem Effect.booked {op : Op Address} (e : Effect w w' op out) (b : Booked w) (fits : Fits w') :
    Booked w' := by
  cases e with
  | paid => exact b
  | failed record hid open_ of owes pos =>
    subst of owes
    exact b.enter hid open_ pos fits
  | renewed id record next stored open_ same again =>
    obtain ⟨hid, htoken, hamount, hstatus⟩ := same
    exact b.renew stored open_ hid htoken hamount hstatus
  | closed id record next stored open_ same done =>
    obtain ⟨hid, htoken, hamount, hstatus⟩ := same
    exact b.close stored open_ hid hamount hstatus fits
  | advanced => exact ⟨b.total, b.records, b.unused⟩

/-- A closed record is never written again. -/
theorem Effect.closed_stays {op : Op Address} (e : Effect w w' op out) (b : Booked w)
    (h : get w id = some record) (closed : record.status.Closed) : get w' id = some record := by
  have other : ∀ {k : ℕ} {old next : PayoutRecord Address}, get w k = some old →
      old.status = .failed → next.id = old.id → get (writeRecord w next) id = some record := by
    intro k old next hold open_ hid
    obtain ⟨rfl, -⟩ := b.records k old hold
    refine (Function.update_of_ne ?_ _ _).trans h
    rintro rfl
    obtain rfl := Option.some.inj ((congrArg (get w) hid ▸ h).symm.trans hold)
    rw [open_] at closed
    exact closed
  cases e with
  | paid => exact h
  | failed record' hid =>
    refine (Function.update_of_ne ?_ _ _).trans h
    exact ne_of_absent (b.unused record'.id hid.ge) h
  | renewed k old next stored open_ same => exact other stored open_ same.1
  | closed k old next stored open_ same => exact other stored open_ same.1
  | advanced => exact h

/-- A retry that fails again releases nothing. -/
theorem Effect.failed_retry {o : TransferOutcome} (e : Effect w w' (.retry id) (.outcome o))
    (failed : o ≠ .success) : liability w' = liability w := by
  cases e with
  | renewed => rfl
  | closed k old next stored open_ same done => exact absurd (done o rfl) failed

/-! ### Runs -/

variable {h : List (Event Address)} {now : ℕ}

theorem booked_trace (tr : Trace (step self) (deployed Address now) h w)
    (fits : ∀ x ∈ h, Fits x.post) : Booked w :=
  tr.invariant_of (P := fun x => Fits x.post)
    (fun _ hfits accepted b => (step_effect accepted).booked b hfits) fits
    ⟨fun _ => .zero, nofun, fun _ _ => rfl⟩

theorem booked_receipt (tr : Trace (step self) (deployed Address now) h w)
    (fits : ∀ x ∈ h, Fits x.post) {x : Event Address} (hx : x ∈ h) :
    Booked x.pre ∧ Effect x.pre x.post x.call.op x.out := by
  obtain ⟨g, l, rfl⟩ := List.append_of_mem hx
  obtain ⟨before, accepted, -⟩ := tr.at_receipt
  exact ⟨booked_trace before fun y hy => fits y (List.mem_append_left _ hy), step_effect accepted⟩

/-- In every run whose failed totals fit in an `i128`, the liability of each token is the
total of its failed records, a record is paid or reclaimed once and then stays as it is,
and a retry that fails again leaves the liabilities. -/
theorem liability_accounted (self : Address) (now : ℕ) (txs : List (Transaction Address))
    (fits : ∀ x ∈ (run (step self) (deployed Address now) txs).2, Fits x.post) :
    let r := run (step self) (deployed Address now) txs
    (∀ token, HasTotal (owed r.1 token) (liability r.1 token)) ∧
      (∀ id, r.2.countP (fun x => ¬ Closed id x.pre ∧ Closed id x.post) ≤ 1) ∧
      (∀ x ∈ r.2, ∀ id record, get x.pre id = some record → record.status.Closed →
        get r.1 id = some record) ∧
      ∀ x ∈ r.2, ∀ id o, x.call.op = .retry id → x.out = .outcome o → o ≠ .success →
        liability x.post = liability x.pre := by
  intro r
  have tr : Trace (step self) (deployed Address now) r.2 r.1 := run_trace _ _ _
  refine ⟨(booked_trace tr fits).total, fun id => ?_, fun x hx id record hrecord hclosed => ?_,
    fun x hx id o hop hout hfailed => ?_⟩
  · rw [tr.countP_reached (P := Closed id) (fun x hx => ?_) (by simp [Closed, get, deployed])]
    · split_ifs <;> omega
    · rintro ⟨record, hrecord, hclosed⟩
      obtain ⟨b, e⟩ := booked_receipt tr fits hx
      exact ⟨record, e.closed_stays b hrecord hclosed, hclosed⟩
  · obtain ⟨g, l, hsplit⟩ := List.append_of_mem hx
    rw [hsplit] at tr
    obtain ⟨-, accepted, later⟩ := tr.at_receipt
    have hbooked : ∀ y ∈ x :: l, Booked y.pre := fun y hy =>
      (booked_receipt (run_trace _ _ _) fits (hsplit ▸ List.mem_append_right g hy)).1
    refine later.invariant_of (I := fun w => get w id = some record) (P := fun y => Booked y.pre)
      (fun y b accepted h => (step_effect accepted).closed_stays b h hclosed)
      (fun y hy => hbooked y (List.mem_cons_of_mem x hy)) ?_
    exact (step_effect accepted).closed_stays (hbooked x List.mem_cons_self) hrecord hclosed
  · obtain ⟨-, e⟩ := booked_receipt tr fits hx
    rw [hop, hout] at e
    exact e.failed_retry hfailed

/-- A ledger with one record owes at most its amount. -/
theorem fits_of_single (id : ℕ) (hother : ∀ k, k ≠ id → get w k = none)
    (hle : ∀ record, get w id = some record → record.amount ≤ maxI128) : Fits w := by
  intro token n htotal
  have hsum := htotal.sum_eq (S := {id}) fun k hk =>
    valueAt_none (hother k (by simpa using hk))
  rw [Finset.sum_singleton] at hsum
  rw [← hsum]
  cases hid : get w id with
  | none => exact (valueAt_none hid).trans_le zero_le_maxI128
  | some record =>
    refine (valueAt_some hid).trans_le ?_
    unfold PayoutRecord.owedIn
    split_ifs
    · exact hle record hid
    · exact zero_le_maxI128

/-- A payout to a recipient without a trustline, retried when it has one. -/
def trustedLater : List (Transaction ℕ) :=
  [⟨fun _ _ _ _ => .contract sacTrustlineMissing, .pay 5 7 100 0⟩,
    ⟨fun _ _ _ _ => .ok, .retry 0⟩]

theorem liability_accounted_trustedLater :
    let r := run (step 9) (deployed ℕ 0) trustedLater
    (∀ token, HasTotal (owed r.1 token) (liability r.1 token)) ∧
      (∀ id, r.2.countP (fun x => ¬ Closed id x.pre ∧ Closed id x.post) ≤ 1) ∧
      (∀ x ∈ r.2, ∀ id record, get x.pre id = some record → record.status.Closed →
        get r.1 id = some record) ∧
      ∀ x ∈ r.2, ∀ id o, x.call.op = .retry id → x.out = .outcome o → o ≠ .success →
        liability x.post = liability x.pre := by
  refine liability_accounted 9 0 trustedLater (List.forall_mem_cons.mpr
    ⟨fits_of_single 0 (fun k hk => ?_) ?_, List.forall_mem_singleton.mpr
      (fits_of_single 0 (fun k hk => ?_) ?_)⟩)
  · exact Function.update_of_ne hk _ _
  · rintro _ ⟨⟩
    decide
  · exact (Function.update_of_ne hk _ _).trans (Function.update_of_ne hk _ _)
  · rintro _ ⟨⟩
    decide

end RefractContracts.Common
