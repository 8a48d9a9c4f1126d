import RefractContracts.Common.Liability
import RefractContracts.Host.Paging

/-! Listing the failed payouts. A listing scans a bounded number of ids, so it may answer
nothing although records further on have failed, and a client that pages by the last id then
stops in front of them. It sees all of them exactly if each is within the budget of a scan,
from its start or from another failed record. -/

namespace RefractContracts.Common

open Host

variable {Address : Type}

/-- The record of `id` is failed. -/
def Failed (w : World Address) (id : ℕ) : Prop :=
  ∃ record, get w id = some record ∧ record.status = .failed

/-- Number of ids that one listing scans. -/
def scanBudget (limit : ℕ) : ℕ := 4 * min limit maxListLimit

/-- Where a client goes on: behind the last id of the page. -/
abbrev nextStart (start : ℕ) (records : List (PayoutRecord Address)) : ℕ :=
  afterLast PayoutRecord.id start records

/-! ### Ids -/

/-- Records are stored under their ids, below the next one. -/
structure Numbered (w : World Address) : Prop where
  ids : ∀ id record, get w id = some record → record.id = id
  unused : ∀ id, count w ≤ id → get w id = none

section Runs
variable {w w' : World Address} {id : ℕ} {record next : PayoutRecord Address}

theorem Numbered.rewritten (k : Numbered w) (stored : get w id = some record)
    (same : next.id = record.id) : Numbered (writeRecord w next) where
  ids := forall_update k.ids rfl rfl
  unused i hi := by
    obtain rfl := k.ids id record stored
    have hentry : (writeRecord w next).recordEntry =
        Function.update w.recordEntry record.id (some next) := by rw [writeRecord, same]
    rw [get, hentry]
    exact absent_update (k.unused i hi) stored

variable [DecidableEq Address]

theorem Effect.numbered {op : Op Address} {out : Answer Address} (e : Effect w w' op out)
    (k : Numbered w) : Numbered w' := by
  cases e with
  | paid => exact k
  | failed record hid =>
    refine ⟨forall_update k.ids rfl rfl, fun i hi => ?_⟩
    have hi' : count w + 1 ≤ i := hi
    refine (Function.update_of_ne ?_ _ _).trans (k.unused i (by omega))
    omega
  | renewed id record next stored open_ same => exact k.rewritten stored same.1
  | closed id record next stored open_ same =>
    obtain ⟨hids, hunused⟩ := k.rewritten stored same.1
    exact ⟨hids, hunused⟩
  | advanced => exact ⟨k.ids, k.unused⟩

theorem numbered_run (self : Address) (now : ℕ) (txs : List (Transaction Address)) :
    Numbered (run (step self) (deployed Address now) txs).1 :=
  run_invariant (fun _ accepted k => (step_effect accepted).numbered k)
    ⟨by simp [get, deployed], fun _ _ => rfl⟩ txs

end Runs

/-! ### Scans -/

/-- The failed records of the `n` ids from `id` on. -/
def failedFrom (w : World Address) (id n : ℕ) : List (PayoutRecord Address) :=
  (List.range' id n).flatMap fun i => (get w i).toList.filter (·.status = .failed)

variable {w : World Address} {id : ℕ} {record : PayoutRecord Address}

theorem mem_failedFrom (k : Numbered w) {start n : ℕ} : record ∈ failedFrom w start n ↔
    start ≤ record.id ∧ record.id < start + n ∧ get w record.id = some record ∧
      record.status = .failed := by
  simp only [failedFrom, List.mem_flatMap, List.mem_range'_1, List.mem_filter,
    Option.mem_toList, decide_eq_true_eq]
  constructor
  · rintro ⟨id, ⟨hle, hlt⟩, hstored, hfailed⟩
    obtain rfl := k.ids id record hstored
    exact ⟨hle, hlt, hstored, hfailed⟩
  · rintro ⟨hle, hlt, hstored, hfailed⟩
    exact ⟨record.id, ⟨hle, hlt⟩, hstored, hfailed⟩

theorem failedFrom_succ (w : World Address) (id n : ℕ) : failedFrom w id (n + 1) =
    (get w id).toList.filter (·.status = .failed) ++ failedFrom w (id + 1) n := by
  rw [failedFrom, List.range'_succ, List.flatMap_cons]
  rfl

theorem failedFrom_add (w : World Address) (id m n : ℕ) :
    failedFrom w id (m + n) = failedFrom w id m ++ failedFrom w (id + m) n := by
  rw [failedFrom, ← List.range'_append_1, List.flatMap_append]
  rfl

theorem failedFrom_unused (k : Numbered w) (h : count w ≤ id) (n : ℕ) : failedFrom w id n = [] := by
  refine List.eq_nil_iff_forall_not_mem.mpr fun record hmem => ?_
  obtain ⟨hle, -, hstored, -⟩ := (mem_failedFrom k).mp hmem
  cases (k.unused record.id (h.trans hle)).symm.trans hstored

theorem failedFrom_sorted (k : Numbered w) (id n : ℕ) :
    (failedFrom w id n).Pairwise (PayoutRecord.id · < PayoutRecord.id ·) := by
  induction n generalizing id with
  | zero => exact .nil
  | succ n ih =>
    rw [failedFrom_succ]
    refine List.pairwise_append.mpr ⟨?_, ih (id + 1), fun a ha b hb => ?_⟩
    · cases get w id with
      | none => exact .nil
      | some record => exact (List.pairwise_singleton _ record).filter _
    · obtain ⟨hb, -⟩ := (mem_failedFrom k).mp hb
      have := k.ids id a (by simpa using (List.mem_filter.mp ha).1)
      omega

/-- The loop appends what the scan finds, up to the limit. -/
theorem listFailedLoop_eq (k : Numbered w) {limit : ℕ} (budget id : ℕ)
    (out : List (PayoutRecord Address)) (hout : out.length ≤ limit) :
    listFailedLoop w limit budget id out = (out ++ failedFrom w id budget).take limit := by
  induction budget generalizing id out with
  | zero =>
    rw [listFailedLoop, failedFrom, List.range'_zero, List.flatMap_nil, List.append_nil,
      List.take_of_length_le hout]
  | succ budget ih =>
    rw [listFailedLoop]
    split_ifs with h
    · rw [ih, failedFrom_succ, List.append_assoc]
      have hone : ((get w id).toList.filter (·.status = .failed)).length ≤ 1 :=
        (List.length_filter_le _ _).trans Option.length_toList_le
      rw [List.length_append]
      omega
    · rcases not_and_or.mp h with hend | hfull
      · rw [failedFrom_unused k (not_lt.mp hend), List.append_nil, List.take_of_length_le hout]
      · rw [List.take_left' (hout.antisymm (not_lt.mp hfull))]

theorem listFailed_eq (k : Numbered w) (start limit : ℕ) : listFailed w start limit =
    (failedFrom w start (scanBudget limit)).take (min limit maxListLimit) := by
  have hbudget : u64SaturatingMul (min limit maxListLimit) 4 = scanBudget limit := by
    have : min limit maxListLimit ≤ 50 := min_le_right _ _
    rw [u64SaturatingMul, scanBudget, Nat.mul_comm, min_eq_left]
    rw [maxU64_eq]
    omega
  rw [listFailed, hbudget, listFailedLoop_eq k _ _ _ (Nat.zero_le _), List.nil_append]

/-! ### Listings -/

/-- All failed records, by their ids. -/
def failedRecords (w : World Address) : List (PayoutRecord Address) := failedFrom w 0 (count w)

theorem mem_failedRecords (k : Numbered w) : record ∈ failedRecords w ↔
    get w record.id = some record ∧ record.status = .failed := by
  rw [failedRecords, mem_failedFrom k, Nat.zero_add]
  constructor
  · rintro ⟨-, -, h⟩
    exact h
  · rintro ⟨hstored, hfailed⟩
    refine ⟨Nat.zero_le _, ?_, hstored, hfailed⟩
    by_contra hge
    cases (k.unused record.id (not_lt.mp hge)).symm.trans hstored

/-- A scan sees a first part of the failed records from its start on. -/
theorem failedFrom_begins (k : Numbered w) (start n : ℕ) :
    failedFrom w start n <+: (failedRecords w).filter (start ≤ ·.id) := by
  have hall : failedRecords w =
      failedFrom w 0 start ++ (failedFrom w start n ++ failedFrom w (start + n) (count w)) := by
    calc failedRecords w = failedFrom w 0 (count w + (start + n)) := by
          rw [failedFrom_add, Nat.zero_add, failedFrom_unused k le_rfl, List.append_nil]
          rfl
      _ = failedFrom w 0 (start + (n + count w)) := by congr 1; omega
      _ = _ := by rw [failedFrom_add, failedFrom_add, Nat.zero_add]
  have hbefore : (failedFrom w 0 start).filter (start ≤ ·.id) = [] := by
    refine List.filter_eq_nil_iff.mpr fun record hmem => ?_
    obtain ⟨-, hlt, -⟩ := (mem_failedFrom k).mp hmem
    simp only [decide_eq_true_eq]
    omega
  have hscan : (failedFrom w start n).filter (start ≤ ·.id) = failedFrom w start n := by
    refine List.filter_eq_self.mpr fun record hmem => ?_
    obtain ⟨hle, -⟩ := (mem_failedFrom k).mp hmem
    exact decide_eq_true hle
  rw [hall, List.filter_append, hbefore, List.nil_append, List.filter_append, hscan]
  exact List.prefix_append _ _

theorem listFailed_begins (k : Numbered w) (start limit : ℕ) :
    listFailed w start limit <+: (failedRecords w).filter (start ≤ ·.id) := by
  rw [listFailed_eq k]
  exact (List.take_prefix _ _).trans (failedFrom_begins k start _)

theorem listFailed_lt (k : Numbered w) (start limit : ℕ) :
    ∀ record ∈ listFailed w start limit, record.id < start + scanBudget limit := by
  intro record hmem
  rw [listFailed_eq k] at hmem
  obtain ⟨-, hlt, -⟩ := (mem_failedFrom k).mp (List.mem_of_mem_take hmem)
  exact hlt

/-- An empty listing says that nothing it scanned is failed. -/
theorem listFailed_nil_iff (k : Numbered w) (start : ℕ) {limit : ℕ} (hlimit : 1 ≤ limit) :
    listFailed w start limit = [] ↔
      ∀ id, Failed w id → start ≤ id → start + scanBudget limit ≤ id := by
  have hpos : min limit maxListLimit ≠ 0 := by
    have : maxListLimit = 50 := rfl
    omega
  rw [listFailed_eq k, List.take_eq_nil_iff, or_iff_right hpos, List.eq_nil_iff_forall_not_mem]
  constructor
  · rintro h id ⟨record, hstored, hfailed⟩ hle
    obtain rfl := k.ids id record hstored
    by_contra hlt
    exact h record ((mem_failedFrom k).mpr ⟨hle, not_le.mp hlt, hstored, hfailed⟩)
  · intro h record hmem
    obtain ⟨hle, hlt, hstored, hfailed⟩ := (mem_failedFrom k).mp hmem
    have := h record.id ⟨record, hstored, hfailed⟩ hle
    omega

/-! ### Listings in a run -/

/-- From `start` on every failed record is within the budget of a scan: from the start, or
from another failed record. -/
def InReach (w : World Address) (budget start : ℕ) : Prop :=
  ∀ id, Failed w id → start ≤ id → id < start + budget ∨
    ∃ before, Failed w before ∧ start ≤ before ∧ before < id ∧ id ≤ before + budget

theorem withinReach_iff (k : Numbered w) {budget start : ℕ} :
    WithinReach PayoutRecord.id (failedRecords w) budget start ↔ InReach w budget start := by
  have hids (id : ℕ) : Failed w id ↔ ∃ record ∈ failedRecords w, record.id = id := by
    constructor
    · rintro ⟨record, hstored, hfailed⟩
      obtain rfl := k.ids id record hstored
      exact ⟨record, (mem_failedRecords k).mpr ⟨hstored, hfailed⟩, rfl⟩
    · rintro ⟨record, hmem, rfl⟩
      exact ⟨record, (mem_failedRecords k).mp hmem⟩
  simp only [InReach, WithinReach, hids, forall_exists_index, and_imp, forall_apply_eq_imp_iff₂,
    exists_exists_and_eq_and]

/-- No listing is empty in front of a failed record, and a client that pages by the last id
sees every failed record. -/
def ListsAll (w : World Address) (start limit : ℕ) : Prop :=
  (listFailed w start limit = [] → ∀ id, start ≤ id → ¬ Failed w id) ∧
    ∀ pages stop, Walk (listFailed w · limit) nextStart start pages stop →
      ∀ id record, start ≤ id → get w id = some record → record.status = .failed →
        record ∈ pages.flatten

/-- In every reachable state, paging by the last id comes to an end, and the failed payouts
are all listed exactly if each is within the budget of a scan. -/
theorem listFailed_complete_iff [DecidableEq Address] (self : Address) (now : ℕ)
    (txs : List (Transaction Address)) (start limit : ℕ) (hlimit : 1 ≤ limit) :
    let w := (run (step self) (deployed Address now) txs).1
    (∃ pages stop, Walk (listFailed w · limit) nextStart start pages stop) ∧
      (ListsAll w start limit ↔ InReach w (scanBudget limit) start) := by
  intro w
  have k : Numbered w := numbered_run self now txs
  have hsorted := failedFrom_sorted k 0 (count w)
  have hpage (i : ℕ) := listFailed_begins k i limit
  have hscan (i : ℕ) := listFailed_lt k i limit
  have hempty : ∀ i, listFailed w i limit = [] → ∀ record ∈ failedRecords w, i ≤ record.id →
      i + scanBudget limit ≤ record.id := fun i hnil record hmem hle =>
    (listFailed_nil_iff k i hlimit).mp hnil _ ⟨record, (mem_failedRecords k).mp hmem⟩ hle
  obtain ⟨pages, stop, walk⟩ := exists_walk_keys hpage (count w)
    (fun record hmem => by simpa using ((mem_failedFrom k).mp hmem).2.1) start
  have hall {pages stop} (walk : Walk (listFailed w · limit) nextStart start pages stop) :=
    ((walk_complete_iff hsorted hpage walk).trans
      (walk_scans_iff hsorted hpage hscan hempty walk)).trans (withinReach_iff k)
  refine ⟨⟨pages, stop, walk⟩, fun h => ?_, fun h => ⟨fun hnil => ?_, fun pages stop walk => ?_⟩⟩
  · refine (hall walk).mp fun record hmem hle => ?_
    obtain ⟨hstored, hfailed⟩ := (mem_failedRecords k).mp hmem
    exact h.2 pages stop walk record.id record hle hstored hfailed
  · rintro id hle ⟨record, hstored, hfailed⟩
    obtain rfl := k.ids id record hstored
    have := (hall (.done hnil)).mpr h record ((mem_failedRecords k).mpr ⟨hstored, hfailed⟩) hle
    cases this
  · intro id record hle hstored hfailed
    obtain rfl := k.ids id record hstored
    exact (hall walk).mpr h record ((mem_failedRecords k).mpr ⟨hstored, hfailed⟩) hle

/-- `n` payouts fail, and the first `m` of them are paid later. -/
def partlyPaid (n m : ℕ) : List (Transaction ℕ) :=
  List.replicate n ⟨fun _ _ _ _ => .contract sacTrustlineMissing, .pay 5 7 100 0⟩ ++
    (List.range m).map fun id => ⟨fun _ _ _ _ => .ok, .retry id⟩

/-- A listing of one record scans the four that were paid, and not the fifth. -/
theorem partlyPaid_hidden :
    ¬ ∀ start limit, 1 ≤ limit →
      ListsAll (run (step 9) (deployed ℕ 0) (partlyPaid 5 4)).1 start limit := by
  intro h
  have hnil : listFailed (run (step 9) (deployed ℕ 0) (partlyPaid 5 4)).1 0 1 = [] :=
    List.eq_nil_of_length_eq_zero (by decide +kernel)
  have hstatus : (get (run (step 9) (deployed ℕ 0) (partlyPaid 5 4)).1 4).map (·.status) =
      some .failed := by decide +kernel
  obtain ⟨record, hstored, hfailed⟩ := Option.map_eq_some_iff.mp hstatus
  exact (h 0 1 le_rfl).1 hnil 4 (Nat.zero_le 4) ⟨record, hstored, hfailed⟩

/-- With three paid, the scan comes to the fourth. -/
theorem partlyPaid_listed :
    ListsAll (run (step 9) (deployed ℕ 0) (partlyPaid 4 3)).1 0 1 := by
  refine (listFailed_complete_iff 9 0 (partlyPaid 4 3) 0 1 le_rfl).2.mpr ?_
  rintro id ⟨record, hstored, -⟩ -
  refine .inl (show id < 4 from ?_)
  by_contra hge
  have hcount : count (run (step 9) (deployed ℕ 0) (partlyPaid 4 3)).1 = 4 := by decide +kernel
  cases ((numbered_run 9 0 (partlyPaid 4 3)).unused id (hcount ▸ not_lt.mp hge)).symm.trans hstored

end RefractContracts.Common
