import RefractContracts.Host.Paging
import RefractContracts.PayoutRegistry.Replays

/-! The history of a recipient, read page by page. A page is a piece of the recipient's page
of the journal, so a client that goes on behind what it got reads all of it in order. -/

namespace RefractContracts.PayoutRegistry

open Host

variable {Address : Type} [DecidableEq Address] {w w' : World Address} {tx : Transaction Address}
  {out : ℕ} {j : Payouts Address}

/-! ### Counts are `u32`s -/

def CountsFit (w : World Address) : Prop :=
  ∀ recipient, getRecipientPayoutCount w recipient ≤ maxU32

/-- A record is appended only if its recipient's next count is a `u32`. -/
theorem append_fits {record : PayoutRecord Address} (h : step w tx = .ok (w', out))
    (kind : tx.op.payout w = some record) (fresh : w.referenceEntry record.referenceId = none) :
    getRecipientPayoutCount w record.recipient + 1 ≤ maxU32 := by
  obtain ⟨writer, hwriter⟩ := Op.exists_writer kind
  rw [step_payout kind hwriter] at h
  simp only [recordPayoutInternal, bind_eq_ok, fresh, bail_eq_ok, not_lt] at h
  obtain ⟨-, -, -, -, -, -, -, hfits, -⟩ := h
  exact hfits

theorem step_countsFit (h : step w tx = .ok (w', out)) (f : CountsFit w) : CountsFit w' := by
  have e := step_effect h
  generalize hop : tx.op = op at e
  cases e with
  | @appended op record writer kind authorised pos fresh =>
    intro recipient
    rw [recipientPayoutCount_append]
    split_ifs with hr
    · rw [hr]
      exact append_fits h (hop ▸ kind) fresh
    · exact f recipient
  | _ => exact f

/-! ### Pages -/

/-- A page is what the journal has from `start` on, up to the limit. -/
theorem Indexes.getPayoutHistory_eq (i : Indexes w j) (f : CountsFit w) (recipient : Address)
    (start limit : ℕ) : getPayoutHistory w recipient start limit =
      ((payoutsOf j recipient).drop start).take (min limit maxPageSize) := by
  have hfits := f recipient
  rw [i.counts] at hfits
  unfold getPayoutHistory
  simp only [i.counts, i.records]
  split_ifs with hlimit hstart
  · rw [hlimit, Nat.zero_min, List.take_zero]
  · rw [List.drop_of_length_le hstart, List.take_nil]
  · have hstop :
        min (u32SaturatingAdd start (min limit maxPageSize)) (payoutsOf j recipient).length -
        start = min (min limit maxPageSize) ((payoutsOf j recipient).drop start).length := by
      rw [List.length_drop, u32SaturatingAdd]
      omega
    rw [hstop, filterMap_range', ← List.take_eq_take_min]

/-- In every run, paging through a recipient's history from 0, behind the length of each page,
comes to an end and yields the records of the recipient in index order, each once. -/
theorem history_paged (now sequence : ℕ) (txs : List (Transaction Address)) (recipient : Address)
    (limit : ℕ) (hlimit : 1 ≤ limit) :
    let w := (run step (deployed Address now sequence) txs).1
    let page := fun start => getPayoutHistory w recipient start limit
    let count := getRecipientPayoutCount w recipient
    (∀ start, (page start).length ≤ min limit maxPageSize) ∧
      (∃ ps stop, Walk page (fun start p => start + p.length) 0 ps stop) ∧
      ∀ ps stop, Walk page (fun start p => start + p.length) 0 ps stop →
        stop = count ∧ count ≤ maxU32 ∧
          ps.flatten.map some =
            (List.range count).map fun i => w.recipientPayoutEntry (recipient, i) := by
  intro w page count
  have i : Indexes w _ := indexes_run now sequence txs
  have f : CountsFit w := run_invariant (fun _ => step_countsFit) (fun _ => Nat.zero_le _) txs
  have hpage (start : ℕ) : page start = _ := i.getPayoutHistory_eq f recipient start limit
  refine ⟨fun start => ?_, exists_walk_positions hpage, fun ps stop walk => ?_⟩
  · rw [hpage]
    exact List.length_take_le _ _
  · obtain ⟨hflat, hstop⟩ := walk_positions hpage (by simp [maxPageSize]; omega) walk
    refine ⟨hstop.trans (i.counts recipient).symm, f recipient, ?_⟩
    simp only [hflat, i.records]
    rw [show count = _ from i.counts recipient]
    refine List.ext_getElem (by simp) fun n h _ => ?_
    rw [List.length_map] at h
    simp [List.getElem?_eq_getElem h]

/-- Three payouts, read in pages of two. -/
theorem history_paged_three :
    let txs : List (Transaction ℕ) := [⟨[], .initializeContract 1⟩, ⟨[1], .registerWriter 1 2⟩,
      ⟨[2], .recordPayout 2 5 "bounty" 100 7 0⟩, ⟨[2], .recordPayout 2 5 "grant" 30 7 1⟩,
      ⟨[2], .recordPayout 2 5 "bounty" 60 8 2⟩]
    let page := fun start => getPayoutHistory (run step (deployed ℕ 0 0) txs).1 5 start 2
    (∀ start, (page start).length ≤ 2) ∧
      ∃ ps, Walk page (fun start p => start + p.length) 0 ps 3 ∧
        ps.flatten.map (fun record => record.referenceId) = [0, 1, 2] := by
  intro txs page
  obtain ⟨hle, ⟨ps, stop, walk⟩, hall⟩ := history_paged 0 0 txs 5 2 (by decide)
  obtain ⟨rfl, -, hrecords⟩ := hall ps stop walk
  refine ⟨hle, ps, walk, ?_⟩
  have hids := congrArg (List.map (Option.map PayoutRecord.referenceId)) hrecords
  rw [List.map_map] at hids
  have hinj : Function.Injective (List.map (some : Reference → Option Reference)) :=
    List.map_injective_iff.mpr (Option.some_injective _)
  apply hinj
  rw [List.map_map]
  exact hids.trans (by decide +kernel)

end RefractContracts.PayoutRegistry
