import RefractContracts.Xtask.Generator
import RefractContracts.Xtask.Validation

/-! What the passes over the records sum up. The records not on chain are booked under their
program and asset: the amount as a liability, of it what was paid before as historical, and
the rest as outstanding. The sums of the summary are those of the bookings. -/

namespace RefractContracts.Xtask

open Host

/-! ### Bookings -/

/-- What was claimed of the grant before. -/
def LegacyGrantRecord.claimedTotal (g : LegacyGrantRecord) : ℤ :=
  ((g.milestones.filter (·.claimed)).map (·.amount)).sum

/-- The record is not on chain. -/
def StateProvider.awaits (state : StateProvider) : Record → Bool
  | .bounty b => !state.hasLegacyBounty b.legacyId
  | .grant g => !state.hasLegacyGrant g.legacyId

/-- The records of the file that are not on chain. -/
def LegacyInputFile.pending (input : LegacyInputFile) (state : StateProvider) : List Record :=
  input.records.filter state.awaits

namespace Record

def program : Record → String
  | .bounty _ => "bounty"
  | .grant _ => "grants"

def paid : Record → ℤ
  | .bounty b => if b.paidOffchain then b.amount else 0
  | .grant g => g.claimedTotal

def due (r : Record) : ℤ := r.amount - r.paid

/-- An amount under the record's program and asset. -/
def books (n : Record → ℤ) (r : Record) : Option ((String × String) × ℤ) :=
  some ((r.program, r.asset), n r)

/-- What is due, under the asset. -/
def owes (r : Record) : Option (String × ℤ) := some (r.asset, r.due)

/-- What is due for a bounty, under the asset. -/
def obliges : Record → Option (String × ℤ)
  | .bounty b => some (b.asset, (Record.bounty b).due)
  | .grant _ => none

end Record

/-- The sums over the records are in range. -/
structure SumsFit (h : List Record) : Prop where
  liabilities : ∀ k, tally (Record.books Record.amount) h k ≤ maxI128
  outstanding : ∀ asset, tally Record.owes h asset ≤ maxI128

/-! ### Amounts of sound records -/

section Amounts
variable {knownAssets : List String} {r : Record} {g : LegacyGrantRecord} {h : List Record}

theorem claimedTotal_nonneg {l : List LegacyGrantMilestone} (hl : ∀ m ∈ l, 0 < m.amount) :
    0 ≤ ((l.filter (·.claimed)).map (·.amount)).sum := by
  refine List.sum_nonneg fun n hn => ?_
  obtain ⟨m, hm, rfl⟩ := List.mem_map.mp hn
  exact (hl m (List.mem_of_mem_filter hm)).le

theorem claimedTotal_le {l : List LegacyGrantMilestone} (hl : ∀ m ∈ l, 0 < m.amount) :
    ((l.filter (·.claimed)).map (·.amount)).sum ≤ (l.map (·.amount)).sum := by
  refine (List.filter_sublist.map _).sum_le_sum fun n hn => ?_
  obtain ⟨m, hm, rfl⟩ := List.mem_map.mp hn
  exact (hl m hm).le

/-- The loop over the milestones adds up the claimed ones. -/
theorem foldlM_addClaimed {l : List LegacyGrantMilestone} (hl : ∀ m ∈ l, 0 < m.amount) {c : ℤ}
    (h0 : 0 ≤ c) (hfit : c + (l.map (·.amount)).sum ≤ maxI128) :
    l.foldlM addClaimed c = .ok (c + ((l.filter (·.claimed)).map (·.amount)).sum) := by
  induction l generalizing c with
  | nil => simp [pure, Except.pure]
  | cons m l ih =>
    obtain ⟨hm, hl⟩ := List.forall_mem_cons.mp hl
    have hrest := (claimedTotal_nonneg hl).trans (claimedTotal_le hl)
    rw [List.map_cons, List.sum_cons] at hfit
    rw [List.foldlM_cons, addClaimed]
    cases hc : m.claimed with
    | true =>
      have hadd : (i128 (c + m.amount) : Call ℤ) = .ok (c + m.amount) :=
        i128_of_nonneg (by omega) (by omega)
      rw [if_pos rfl, hadd, ok_bind, ih hl (by omega) (by omega), List.filter_cons_of_pos hc,
        List.map_cons, List.sum_cons, add_assoc]
    | false =>
      rw [if_neg Bool.false_ne_true, List.filter_cons_of_neg (by simp [hc])]
      exact ih hl h0 (by omega)

theorem Record.Sound.claimed (hg : (Record.grant g).Sound knownAssets) :
    g.milestones.foldlM addClaimed 0 = .ok g.claimedTotal := by
  obtain ⟨hpos, hsum, hle⟩ := hg.2.2.amounts
  rw [foldlM_addClaimed hpos le_rfl (by rw [hsum, zero_add]; exact hle), zero_add]
  rfl

theorem Record.Sound.paid_nonneg (hr : r.Sound knownAssets) : 0 ≤ r.paid := by
  cases r with
  | bounty b =>
    rw [Record.paid]
    split
    · exact hr.2.1.le
    · exact le_rfl
  | grant g => exact claimedTotal_nonneg hr.2.2.amounts.1

theorem Record.Sound.paid_le (hr : r.Sound knownAssets) : r.paid ≤ r.amount := by
  cases r with
  | bounty b =>
    have hpos : 0 < b.amount := hr.2.1
    rw [Record.paid, Record.amount]
    split
    · exact le_rfl
    · exact hpos.le
  | grant g =>
    obtain ⟨hpos, hsum, _⟩ := hr.2.2.amounts
    exact (claimedTotal_le hpos).trans_eq hsum

theorem Record.Sound.due_nonneg (hr : r.Sound knownAssets) : 0 ≤ r.due :=
  sub_nonneg.mpr hr.paid_le

theorem Record.Sound.amount_le (hg : (Record.grant g).Sound knownAssets) :
    g.totalAmount ≤ maxI128 := hg.2.2.amounts.2.2

theorem booked_obliges_nonneg (hr : r.Sound knownAssets) (asset : String) :
    0 ≤ booked r.obliges asset := by
  cases r with
  | bounty b => exact booked_nonneg hr.due_nonneg _ _
  | grant g => exact le_rfl

/-- A liability is what was paid and what is due. -/
theorem tally_amount (h : List Record) (k : String × String) :
    tally (Record.books Record.amount) h k =
      tally (Record.books Record.paid) h k + tally (Record.books Record.due) h k := by
  rw [tally, tally, tally, ← List.sum_map_add]
  refine congrArg List.sum (List.map_congr_left fun r _ => ?_)
  simp only [Record.books, booked, Record.due]
  split <;> omega

/-- All sums over the records are in range. -/
structure Ranges (h : List Record) : Prop where
  amounts : InRange (Record.books Record.amount) h
  paid : InRange (Record.books Record.paid) h
  due : InRange (Record.books Record.due) h
  owes : InRange Record.owes h
  obliges : InRange Record.obliges h

section SoundList
variable (hh : ∀ r ∈ h, r.Sound knownAssets)
include hh

theorem tally_books_nonneg {n : Record → ℤ} (hn : ∀ r : Record, r.Sound knownAssets → 0 ≤ n r)
    (k : String × String) : 0 ≤ tally (Record.books n) h k :=
  tally_nonneg fun r hr => booked_nonneg (hn r (hh r hr)) _ _

theorem tally_obliges_le (asset : String) :
    tally Record.obliges h asset ≤ tally Record.owes h asset := by
  refine tally_le_tally fun r hr => ?_
  cases r with
  | bounty b => exact le_rfl
  | grant g => exact booked_nonneg (hh _ hr).due_nonneg _ _

/-- It is enough that the liabilities and what is outstanding are. -/
theorem SumsFit.ranges (hfit : SumsFit h) : Ranges h := by
  have hpaid := tally_books_nonneg hh fun r => Record.Sound.paid_nonneg
  have hdue := tally_books_nonneg hh fun r => Record.Sound.due_nonneg
  refine ⟨fun k => ⟨?_, hfit.liabilities k⟩, fun k => ⟨hpaid k, ?_⟩, fun k => ⟨hdue k, ?_⟩,
    fun asset => ⟨?_, hfit.outstanding asset⟩,
    fun asset => ⟨?_, (tally_obliges_le hh asset).trans (hfit.outstanding asset)⟩⟩
  · exact tally_books_nonneg hh (fun r hr => hr.2.1.le) k
  · have := hfit.liabilities k
    have := hdue k
    have := tally_amount h k
    omega
  · have := hfit.liabilities k
    have := hpaid k
    have := tally_amount h k
    omega
  · exact tally_nonneg fun r hr => booked_nonneg (hh r hr).due_nonneg _ _
  · exact tally_nonneg fun r hr => booked_obliges_nonneg (hh r hr) asset

end SoundList

end Amounts

/-! ### The passes -/

/-- The sums of the scan are those of the pending records `h`, and these are listed in order. -/
structure Summed (h : List Record) (scan : Scan) : Prop where
  liabilities : SumsUp (Record.books Record.amount) h (sumUnder scan.summary.liabilitiesByProgram)
  historical : SumsUp (Record.books Record.paid) h (sumUnder scan.summary.historicalPaidByProgram)
  outstanding :
    SumsUp (Record.books Record.due) h (sumUnder scan.summary.outstandingObligationsByProgram)
  total : SumsUp Record.owes h (sumAt scan.summary.totalOutstandingByAsset)
  obligations : SumsUp Record.obliges h (sumAt scan.pendingBountyObligations)
  positive : AllPositive scan.pendingBountyObligations
  bounties : scan.pendingBounties = h.filterMap Record.bounty?
  grants : scan.pendingGrants = h.filterMap Record.grant?

/-- The counts of the scan are those of the records `l` looked at. -/
structure Counted (input : LegacyInputFile) (l : List Record) (scan : Scan) : Prop where
  bountyTotal : scan.summary.bountyRecordsTotal = input.bounties.length
  grantTotal : scan.summary.grantRecordsTotal = input.grants.length
  bountyPending : scan.summary.bountyRecordsPending = scan.pendingBounties.length
  grantPending : scan.summary.grantRecordsPending = scan.pendingGrants.length
  bountyCount : scan.summary.bountyRecordsPending + scan.summary.bountyRecordsMigrated =
    (l.filterMap Record.bounty?).length
  grantCount : scan.summary.grantRecordsPending + scan.summary.grantRecordsMigrated =
    (l.filterMap Record.grant?).length

/-- What holds of the scan once the records `l` were looked at. -/
structure Scanned (input : LegacyInputFile) (state : StateProvider) (l : List Record)
    (scan : Scan) : Prop extends Summed (l.filter state.awaits) scan, Counted input l scan

section Passes
variable (state : StateProvider)

/-- One round of the passes. -/
def processRecord : Scan → Record → Call Scan :=
  Record.loop (processBounty state) (processGrant state)

variable {state} {input : LegacyInputFile} {scan scan' : Scan} {h l : List Record}
    {b : LegacyBountyRecord}
  {g : LegacyGrantRecord} {r : Record} {knownAssets : List String}

/-- A record on chain is only counted. -/
theorem processRecord_migrated (hr : state.awaits r = false) : ∃ scan',
    processRecord state scan r = .ok scan' ∧ (∀ h, Summed h scan → Summed h scan') ∧
      ∀ input l, Counted input l scan → Counted input (l ++ [r]) scan' := by
  cases r with
  | bounty b =>
    have hchain : state.hasLegacyBounty b.legacyId = true := by
      simpa [StateProvider.awaits] using hr
    simp only [processRecord, Record.loop, processBounty, if_pos hchain]
    refine ⟨_, rfl, fun _ hs => { hs with },
      fun _ _ hc => { hc with bountyCount := ?_, grantCount := ?_ }⟩
    · simp [← hc.bountyCount, add_assoc]
    · simp [← hc.grantCount]
  | grant g =>
    have hchain : state.hasLegacyGrant g.legacyId = true := by simpa [StateProvider.awaits] using hr
    simp only [processRecord, Record.loop, processGrant, if_pos hchain]
    refine ⟨_, rfl, fun _ hs => { hs with },
      fun _ _ hc => { hc with bountyCount := ?_, grantCount := ?_ }⟩
    · simp [← hc.bountyCount]
    · simp [← hc.grantCount, add_assoc]

theorem books_of_eq {n : Record → ℤ} {m : ℤ} (hm : n r = m) :
    r.books n = some ((r.program, r.asset), m) := hm ▸ rfl

theorem booked_books_eq_zero {n : Record → ℤ} (hn : n r = 0) (k : String × String) :
    booked (r.books n) k = 0 := by
  rw [books_of_eq hn, booked_zero]

/-- What a round does with a pending bounty. -/
theorem processRecord_bounty (hb : state.awaits (.bounty b) = true)
    (hr : (Record.bounty b).Sound knownAssets) (hs : Summed h scan)
    (hok : processRecord state scan (.bounty b) = .ok scan') :
    Summed (h ++ [.bounty b]) scan' ∧
      (Counted input l scan → Counted input (l ++ [.bounty b]) scan') := by
  have hchain : ¬ state.hasLegacyBounty b.legacyId = true := by
    simpa [StateProvider.awaits] using hb
  simp only [processRecord, Record.loop, processBounty, if_neg hchain, bind_eq_ok] at hok
  obtain ⟨liabilities, hliabilities, hok⟩ := hok
  split at hok
  · next hpaid =>
    simp only [bind_eq_ok, pure_eq_ok] at hok
    obtain ⟨historical, hhistorical, rfl⟩ := hok
    have hpaid : (Record.bounty b).paid = b.amount := if_pos hpaid
    have hdue : (Record.bounty b).due = 0 := by rw [Record.due, hpaid, Record.amount, sub_self]
    refine ⟨⟨?_, ?_, ?_, ?_, ?_, hs.positive, ?_, ?_⟩,
    fun hc => ⟨hc.bountyTotal, hc.grantTotal, ?_, ?_, ?_, ?_⟩⟩
    · exact hs.liabilities.addUnder rfl hliabilities
    · exact hs.historical.addUnder (books_of_eq hpaid) hhistorical
    · exact hs.outstanding.skip (booked_books_eq_zero hdue)
    · exact hs.total.skip fun k => by rw [Record.owes, hdue, booked_zero]
    · exact hs.obligations.skip fun k => by rw [Record.obliges, hdue, booked_zero]
    · simp [hs.bounties]
    · simp [hs.grants]
    · simp [hc.bountyPending]
    · simp [hc.grantPending]
    · simp [← hc.bountyCount, add_right_comm]
    · simp [← hc.grantCount]
  · next hpaid =>
    simp only [bind_eq_ok, pure_eq_ok] at hok
    obtain ⟨outstanding, houtstanding, total, htotal, obligations, hobligations, rfl⟩ := hok
    have hpaid : (Record.bounty b).paid = 0 := if_neg hpaid
    have hdue : (Record.bounty b).due = b.amount := by
      rw [Record.due, hpaid, sub_zero, Record.amount]
    refine ⟨⟨?_, ?_, ?_, ?_, ?_, ?_, ?_, ?_⟩,
      fun hc => ⟨hc.bountyTotal, hc.grantTotal, ?_, ?_, ?_, ?_⟩⟩
    · exact hs.liabilities.addUnder rfl hliabilities
    · exact hs.historical.skip (booked_books_eq_zero hpaid)
    · exact hs.outstanding.addUnder (books_of_eq hdue) houtstanding
    · exact hs.total.addAt (by rw [Record.owes, hdue]; rfl) htotal
    · exact hs.obligations.addAt (by rw [Record.obliges, hdue]) hobligations
    · exact hs.positive.addAt hr.2.1 hobligations
    · simp [hs.bounties]
    · simp [hs.grants]
    · simp [hc.bountyPending]
    · simp [hc.grantPending]
    · simp [← hc.bountyCount, add_right_comm]
    · simp [← hc.grantCount]

/-- What a round does with a pending grant. -/
theorem processRecord_grant (hg : state.awaits (.grant g) = true)
    (hr : (Record.grant g).Sound knownAssets) (hs : Summed h scan)
    (hok : processRecord state scan (.grant g) = .ok scan') :
    Summed (h ++ [.grant g]) scan' ∧
      (Counted input l scan → Counted input (l ++ [.grant g]) scan') := by
  have hchain : ¬ state.hasLegacyGrant g.legacyId = true := by
    simpa [StateProvider.awaits] using hg
  simp only [processRecord, Record.loop, processGrant, if_neg hchain, hr.claimed, ok_bind,
    bind_eq_ok, i128_eq_ok, pure_eq_ok] at hok
  obtain ⟨_, ⟨_, rfl⟩, liabilities, hliabilities, historical, hhistorical, outstanding,
    houtstanding, total, htotal, rfl⟩ := hok
  refine ⟨⟨?_, ?_, ?_, ?_, ?_, hs.positive, ?_, ?_⟩,
    fun hc => ⟨hc.bountyTotal, hc.grantTotal, ?_, ?_, ?_, ?_⟩⟩
  · exact hs.liabilities.addUnder rfl hliabilities
  · exact hs.historical.addUnder rfl hhistorical
  · exact hs.outstanding.addUnder rfl houtstanding
  · exact hs.total.addAt rfl htotal
  · exact hs.obligations.skip fun k => rfl
  · simp [hs.bounties]
  · simp [hs.grants]
  · simp [hc.bountyPending]
  · simp [hc.grantPending]
  · simp [← hc.bountyCount]
  · simp [← hc.grantCount, add_right_comm]

/-- A round with a pending bounty goes through when the sums with it are in range. -/
theorem exists_processRecord_bounty (ha : state.awaits (.bounty b) = true) (hs : Summed h scan)
    (hr : Ranges (h ++ [.bounty b])) :
    ∃ scan', processRecord state scan (.bounty b) = .ok scan' := by
  have hchain : ¬ state.hasLegacyBounty b.legacyId = true := by
    simpa [StateProvider.awaits] using ha
  obtain ⟨liabilities, hliabilities⟩ := hs.liabilities.exists_addUnder rfl hr.amounts
  simp only [processRecord, Record.loop, processBounty, if_neg hchain]
  refine exists_bind_eq_ok hliabilities ?_
  split
  · next hb =>
    have hpaid : (Record.bounty b).paid = b.amount := if_pos hb
    obtain ⟨historical, hhistorical⟩ := hs.historical.exists_addUnder (books_of_eq hpaid) hr.paid
    exact exists_bind_eq_ok hhistorical ⟨_, rfl⟩
  · next hb =>
    have hdue : (Record.bounty b).due = b.amount := by
      rw [Record.due, Record.paid, if_neg hb, sub_zero, Record.amount]
    obtain ⟨outstanding, houtstanding⟩ := hs.outstanding.exists_addUnder (books_of_eq hdue) hr.due
    obtain ⟨total, htotal⟩ := hs.total.exists_addAt (k := b.asset) (n := b.amount)
      (by rw [Record.owes, hdue]; rfl) hr.owes
    obtain ⟨obligations, hobligations⟩ := hs.obligations.exists_addAt (k := b.asset) (n := b.amount)
      (by rw [Record.obliges, hdue]) hr.obliges
    exact exists_bind_eq_ok houtstanding
      (exists_bind_eq_ok htotal (exists_bind_eq_ok hobligations ⟨_, rfl⟩))

theorem exists_processRecord_grant (ha : state.awaits (.grant g) = true) (hs : Summed h scan)
    (hg : (Record.grant g).Sound knownAssets) (hr : Ranges (h ++ [.grant g])) :
    ∃ scan', processRecord state scan (.grant g) = .ok scan' := by
  have hchain : ¬ state.hasLegacyGrant g.legacyId = true := by
    simpa [StateProvider.awaits] using ha
  have hrest : (i128 (g.totalAmount - g.claimedTotal) : Call ℤ) =
      .ok (g.totalAmount - g.claimedTotal) := by
    have hle := hg.amount_le
    have h0 : 0 ≤ g.claimedTotal := hg.paid_nonneg
    have hc : g.claimedTotal ≤ g.totalAmount := hg.paid_le
    exact i128_of_nonneg (by omega) (by omega)
  obtain ⟨liabilities, hliabilities⟩ := hs.liabilities.exists_addUnder rfl hr.amounts
  obtain ⟨historical, hhistorical⟩ := hs.historical.exists_addUnder rfl hr.paid
  obtain ⟨outstanding, houtstanding⟩ := hs.outstanding.exists_addUnder rfl hr.due
  obtain ⟨total, htotal⟩ := hs.total.exists_addAt rfl hr.owes
  simp only [processRecord, Record.loop, processGrant, if_neg hchain, hg.claimed, ok_bind]
  exact exists_bind_eq_ok hrest (exists_bind_eq_ok hliabilities (exists_bind_eq_ok hhistorical
    (exists_bind_eq_ok houtstanding (exists_bind_eq_ok htotal ⟨_, rfl⟩))))

theorem SumsFit.of_sublist (hl : h.Sublist l) (hall : ∀ x ∈ l, x.Sound knownAssets)
    (hfit : SumsFit l) : SumsFit h where
  liabilities k := (tally_le_of_sublist hl fun x hx => booked_nonneg (hall x hx).2.1.le _ _).trans
    (hfit.liabilities k)
  outstanding k := (tally_le_of_sublist hl
    fun x hx => booked_nonneg (hall x hx).due_nonneg _ _).trans
    (hfit.outstanding k)

theorem Scanned.sumsFit (hs : Scanned input state l scan) : SumsFit (l.filter state.awaits) where
  liabilities k := hs.liabilities.eq k ▸ hs.liabilities.le k
  outstanding k := hs.total.eq k ▸ hs.total.le k

/-- A round keeps the scan. -/
theorem Scanned.step (hs : Scanned input state l scan) (hr : r.Sound knownAssets)
    (hok : processRecord state scan r = .ok scan') : Scanned input state (l ++ [r]) scan' := by
  suffices Summed ((l ++ [r]).filter state.awaits) scan' ∧ Counted input (l ++ [r]) scan' from
    { this.1, this.2 with }
  rw [List.filter_append]
  cases ha : state.awaits r with
  | false =>
    obtain ⟨_, hok', hsummed, hcounted⟩ := processRecord_migrated ha
    obtain rfl := ok_unique hok' hok
    rw [List.filter_cons_of_neg (by simp [ha]), List.filter_nil, List.append_nil]
    exact ⟨hsummed _ hs.toSummed, hcounted _ _ hs.toCounted⟩
  | true =>
    rw [List.filter_cons_of_pos ha, List.filter_nil]
    cases r with
    | bounty b =>
      obtain ⟨hsummed, hcounted⟩ := processRecord_bounty ha hr hs.toSummed hok
      exact ⟨hsummed, hcounted hs.toCounted⟩
    | grant g =>
      obtain ⟨hsummed, hcounted⟩ := processRecord_grant ha hr hs.toSummed hok
      exact ⟨hsummed, hcounted hs.toCounted⟩

theorem Scanned.run {m : List Record} (hs : Scanned input state l scan)
    (hm : ∀ r ∈ m, r.Sound knownAssets) (hok : m.foldlM (processRecord state) scan = .ok scan') :
    Scanned input state (l ++ m) scan' := by
  induction m generalizing l scan with
  | nil =>
    obtain rfl := (pure_eq_ok _ _).mp hok
    rwa [List.append_nil]
  | cons r m ih =>
    obtain ⟨hr, hm⟩ := List.forall_mem_cons.mp hm
    rw [List.foldlM_cons, bind_eq_ok] at hok
    obtain ⟨mid, hmid, hok⟩ := hok
    rw [List.append_cons]
    exact ih (hs.step hr hmid) hm hok

/-- The passes go through when the sums are in range. -/
theorem Scanned.exists_run {m : List Record} (hs : Scanned input state l scan)
    (hall : ∀ r ∈ l ++ m, r.Sound knownAssets) (hfit : SumsFit ((l ++ m).filter state.awaits)) :
    ∃ scan', m.foldlM (processRecord state) scan = .ok scan' := by
  induction m generalizing l scan with
  | nil => exact ⟨scan, rfl⟩
  | cons r m ih =>
    rw [List.append_cons] at hall hfit
    have hr : r.Sound knownAssets := hall r (by simp)
    have hround : ∃ mid, processRecord state scan r = .ok mid := by
      cases ha : state.awaits r with
      | false =>
        obtain ⟨mid, hmid, _⟩ := processRecord_migrated ha
        exact ⟨mid, hmid⟩
      | true =>
        have hsub :
            (l.filter state.awaits ++ [r]).Sublist ((l ++ [r] ++ m).filter state.awaits) := by
          rw [List.filter_append, List.filter_append, List.filter_cons_of_pos ha]
          exact List.sublist_append_left _ _
        have hsound : ∀ x ∈ (l ++ [r] ++ m).filter state.awaits, x.Sound knownAssets :=
          fun x hx => hall x (List.mem_of_mem_filter hx)
        have hranges : Ranges (l.filter state.awaits ++ [r]) :=
          (hfit.of_sublist hsub hsound).ranges fun x hx => hsound x (hsub.subset hx)
        cases r with
        | bounty b => exact exists_processRecord_bounty ha hs.toSummed hranges
        | grant g => exact exists_processRecord_grant ha hs.toSummed hr hranges
    obtain ⟨mid, hmid⟩ := hround
    exact exists_bind_eq_ok hmid (ih (hs.step hr hmid) hall hfit)

end Passes

/-- The scan before the passes. -/
def Scan.initial (input : LegacyInputFile) : Scan where
  summary := {
    totalRecords := input.bounties.length + input.grants.length
    bountyRecordsTotal := input.bounties.length
    grantRecordsTotal := input.grants.length }

theorem scanned_initial (input : LegacyInputFile) (state : StateProvider) :
    Scanned input state [] (.initial input) where
  liabilities := .of_zero sumUnder_empty
  historical := .of_zero sumUnder_empty
  outstanding := .of_zero sumUnder_empty
  total := .of_zero sumAt_empty
  obligations := .of_zero sumAt_empty
  positive := .empty
  bounties := rfl
  grants := rfl
  bountyTotal := rfl
  grantTotal := rfl
  bountyPending := rfl
  grantPending := rfl
  bountyCount := rfl
  grantCount := rfl

/-- Both passes over an accepted file go through if and only if its sums are in range. -/
theorem passes_iff {input : LegacyInputFile} (ha : Accepted input) (state : StateProvider) :
    (∃ scan, input.records.foldlM (processRecord state) (.initial input) = .ok scan) ↔
      SumsFit (input.pending state) := by
  constructor
  · rintro ⟨scan, hscan⟩
    exact ((scanned_initial input state).run ha.sound hscan).sumsFit
  · exact fun hfit => (scanned_initial input state).exists_run ha.sound hfit

end RefractContracts.Xtask
