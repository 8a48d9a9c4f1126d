import Mathlib.Data.List.TakeWhile
import Mathlib.NumberTheory.LucasLehmer
import RefractContracts.Host.History
import RefractContracts.Host.InPlace

/-! The withdrawal queue. Requests wait in order and are filled from the available capital:
in full if it covers the queue, else each by its floored share of the total. The total is
added up with saturation, so the fills keep to the capital as long as the exact total is an
amount. The shares are taken off in place, one request after another, so a product that
overflows leaves the requests before it reduced. -/

namespace RefractContracts.Shared

open Host Method

/-- One queued withdrawal. -/
structure Request (StakerId : Type) where
  id : ℕ
  staker : StakerId
  shares : ℤ
  requestedAt : ℕ
  deriving DecidableEq, Repr

/-- A part of a request that was filled. -/
structure Fill where
  id : ℕ
  shares : ℤ
  deriving DecidableEq, Repr

inductive QueueError where
  | invalidShares
  | notFound
  | notOwner
  | overflow
  deriving DecidableEq, Repr

/-- Withdrawal requests in the order they were made. -/
structure WithdrawalQueue (StakerId : Type) where
  nextId : ℕ
  requests : List (Request StakerId)
  deriving DecidableEq, Repr

namespace WithdrawalQueue

variable {StakerId : Type}

def new : WithdrawalQueue StakerId := ⟨0, []⟩

abbrev Update (StakerId α : Type) := Method (WithdrawalQueue StakerId) QueueError α

/-- Queue a withdrawal of `shares`. -/
def request (staker : StakerId) (shares : ℤ) (now : ℕ) : Update StakerId ℕ := do
  check (bail (shares ≤ 0) .invalidShares)
  let q ← get
  let id := q.nextId
  check (bail (maxU64 < id + 1) .overflow)
  modify fun q => { q with nextId := id + 1 }
  modify fun q => { q with requests := q.requests ++ [⟨id, staker, shares, now⟩] }
  pure id

def totalRequested (q : WithdrawalQueue StakerId) : ℤ :=
  q.requests.foldl (fun total request => i128SaturatingAdd total request.shares) 0

/-- Withdraw a queued request. -/
def cancel [DecidableEq StakerId] (id : ℕ) (staker : StakerId) : Update StakerId Unit := do
  let q ← get
  let index ← check (okOr (q.requests.findIdx? fun request => request.id = id) .notFound)
  check (bail (q.requests[index]?.any fun request => request.staker ≠ staker) .notOwner)
  modify fun q => { q with requests := q.requests.eraseIdx index }

/-- One round of the loop: a request with its share taken off, and the fill if there is one. -/
def fillRequest (available total : ℤ) (request : Request StakerId) :
    Outcome QueueError (Request StakerId × Option Fill) := do
  let product ← i128Checked (request.shares * available) .overflow
  let share := product.tdiv total
  if 0 < share then
    let shares ← i128 (request.shares - share)
    pure ({ request with shares }, some ⟨request.id, share⟩)
  else pure (request, none)

/-- Fill the queue from `available` shares' worth of capital. -/
def fillProRata (available : ℤ) : Update StakerId (List Fill) := fun q =>
  let total := q.totalRequested
  if available ≤ 0 ∨ total = 0 then (q, .ok [])
  else if total ≤ available then
    ({ q with requests := [] }, .ok (q.requests.map fun request => ⟨request.id, request.shares⟩))
  else
    let (requests, result) := updateEach (fillRequest available total) q.requests
    ({ q with requests }, result)

/-! ### Calls -/

inductive Call (StakerId : Type) where
  | request (staker : StakerId) (shares : I128) (now : ℕ)
  | cancel (id : ℕ) (staker : StakerId)
  | fillProRata (available : I128)

inductive Answer where
  | queued (id : ℕ)
  | cancelled
  | filled (fills : List Fill)
  deriving DecidableEq, Repr

variable [DecidableEq StakerId]

def handle : Call StakerId → Update StakerId Answer
  | .request staker shares now => do return .queued (← request staker shares now)
  | .cancel id staker => do
    cancel id staker
    pure .cancelled
  | .fillProRata available => do return .filled (← fillProRata available)

def machine : Machine (WithdrawalQueue StakerId) (Call StakerId) Answer QueueError :=
  fun q call => handle call q

/-- The queue that a run of calls leaves. -/
def after (calls : List (Call StakerId)) : WithdrawalQueue StakerId :=
  (run machine.answering new calls).1

/-! ### What a run keeps -/

/-- What is kept of a queue: the waiting shares are amounts and not zero, and the ids are
distinct and were all given out. -/
structure WellFormed (q : WithdrawalQueue StakerId) : Prop where
  positive : ∀ r ∈ q.requests, 0 < r.shares
  fits : ∀ r ∈ q.requests, r.shares ≤ maxI128
  distinct : (q.requests.map (·.id)).Nodup
  fresh : ∀ r ∈ q.requests, r.id < q.nextId

/-- A request after a round, filled in part or not at all. -/
structure Reduced (r r' : Request StakerId) : Prop where
  id : r'.id = r.id
  positive : 0 < r'.shares
  le : r'.shares ≤ r.shares

variable {q q' : WithdrawalQueue StakerId} {r : Request StakerId} {available total : ℤ}

/-- The part of a request that a round fills. -/
def share (available total : ℤ) (r : Request StakerId) : ℤ := r.shares * available / total

/-- What a round leaves of a request. -/
def reduce (available total : ℤ) (r : Request StakerId) : Request StakerId :=
  { r with shares := r.shares - share available total r }

/-- What a round fills, if anything. -/
def fillOf (available total : ℤ) (r : Request StakerId) : Option Fill :=
  if 0 < share available total r then some ⟨r.id, share available total r⟩ else none

section Round
omit [DecidableEq StakerId]

theorem share_bounds (hr : 0 < r.shares) (ha : 0 < available) (hlt : available < total) :
    0 ≤ share available total r ∧ share available total r < r.shares := by
  have ht := ha.trans hlt
  refine ⟨Int.ediv_nonneg (mul_nonneg hr.le ha.le) ht.le, ?_⟩
  exact Int.ediv_lt_of_lt_mul ht ((mul_lt_mul_iff_right₀ hr).mpr hlt)

/-- A round fails exactly where the product overflows. -/
theorem fillRequest_eq (hr : 0 < r.shares) (hmax : r.shares ≤ maxI128) (ha : 0 < available)
    (hlt : available < total) : fillRequest available total r =
      if r.shares * available ≤ maxI128 then
        .ok (reduce available total r, fillOf available total r)
      else .error (.error .overflow) := by
  have hproduct := mul_pos hr ha
  obtain ⟨hshare, hlt'⟩ := share_bounds hr ha hlt
  rw [fillRequest]
  by_cases hfits : r.shares * available ≤ maxI128
  · have hquot : (r.shares * available).tdiv total = share available total r :=
      Int.tdiv_eq_ediv_of_nonneg hproduct.le
    rw [i128Checked_of_nonneg hproduct.le hfits, ok_bind, if_pos hfits, hquot, fillOf, reduce]
    dsimp only
    split_ifs
    · rw [i128_of_nonneg (by omega) (by omega)]
      rfl
    · rw [show share available total r = 0 by omega, sub_zero]
      rfl
  · rw [i128Checked, if_neg (fun h => hfits h.2), if_neg hfits]
    rfl

theorem reduced_reduce (hr : 0 < r.shares) (ha : 0 < available) (hlt : available < total) :
    Reduced r (reduce available total r) where
  id := rfl
  positive := sub_pos.mpr (share_bounds hr ha hlt).2
  le := sub_le_self _ (share_bounds hr ha hlt).1

theorem Reduced.all {l l' : List (Request StakerId)} (h : List.Forall₂ Reduced l l') :
    l'.map (·.id) = l.map (·.id) ∧ ∀ r' ∈ l', ∃ r ∈ l, Reduced r r' := by
  induction h with
  | nil => exact ⟨rfl, nofun⟩
  | @cons r r' l l' hr _ ih =>
    refine ⟨by rw [List.map_cons, List.map_cons, hr.id, ih.1], ?_⟩
    refine List.forall_mem_cons.mpr ⟨⟨r, List.mem_cons_self, hr⟩, fun x hx => ?_⟩
    obtain ⟨y, hy, hxy⟩ := ih.2 x hx
    exact ⟨y, List.mem_cons_of_mem r hy, hxy⟩

end Round

/-! #### The steps -/

section Steps
omit [DecidableEq StakerId]

theorem WellFormed.reduced (hq : q.WellFormed) {l : List (Request StakerId)}
    (h : List.Forall₂ Reduced q.requests l) : WellFormed { q with requests := l } := by
  obtain ⟨hids, hall⟩ := Reduced.all h
  constructor
  · intro r' hr'
    obtain ⟨r, -, hred⟩ := hall r' hr'
    exact hred.positive
  · intro r' hr'
    obtain ⟨r, hr, hred⟩ := hall r' hr'
    exact hred.le.trans (hq.fits r hr)
  · show (l.map (·.id)).Nodup
    rw [hids]
    exact hq.distinct
  · intro r' hr'
    obtain ⟨r, hr, hred⟩ := hall r' hr'
    rw [hred.id]
    exact hq.fresh r hr

theorem WellFormed.sublist (hq : q.WellFormed) {l : List (Request StakerId)}
    (h : l.Sublist q.requests) : WellFormed { q with requests := l } where
  positive r hr := hq.positive r (h.subset hr)
  fits r hr := hq.fits r (h.subset hr)
  distinct := hq.distinct.sublist (h.map _)
  fresh r hr := hq.fresh r (h.subset hr)

theorem request_wellFormed (hq : q.WellFormed) {staker : StakerId} {shares : I128} {now id : ℕ}
    (h : request staker shares now q = (q', .ok id)) : q'.WellFormed := by
  simp only [request, check_bind_ok, get_bind, modify_bind, pure_ok, bail_eq_ok, not_le] at h
  obtain ⟨_, hpos, _, -, rfl, -⟩ := h
  constructor
  · exact forall_mem_snoc hq.positive hpos
  · exact forall_mem_snoc hq.fits shares.2.2
  · show ((q.requests ++ [Request.mk q.nextId staker shares now]).map Request.id).Nodup
    rw [List.map_append, List.nodup_append_comm]
    refine List.nodup_cons.mpr ⟨fun hmem => ?_, hq.distinct⟩
    obtain ⟨r, hr, hid⟩ := List.mem_map.mp hmem
    exact (hq.fresh r hr).ne hid
  · exact forall_mem_snoc (fun r hr => (hq.fresh r hr).trans (Nat.lt_succ_self _))
      (Nat.lt_succ_self _)

theorem request_atomic (staker : StakerId) (shares : ℤ) (now : ℕ) :
    Atomic (request staker shares now) := by
  apply atomic_check_bind fun _ => ?_
  apply atomic_get_bind fun q => ?_
  apply atomic_check_bind fun _ => ?_
  apply Answers.atomic
  exact (answers_modify _).bind fun _ => (answers_modify _).bind fun _ => answers_pure _

theorem fillProRata_wellFormed (hq : q.WellFormed) (available : ℤ) :
    (fillProRata available q).1.WellFormed := by
  rw [fillProRata]
  dsimp only
  split_ifs with hnone hfull
  · exact hq
  · exact hq.sublist (List.nil_sublist _)
  · rw [not_or] at hnone
    have ha := not_le.mp hnone.1
    have hlt := not_le.mp hfull
    apply hq.reduced
    apply updateEach_forall₂
    · intro r hr
      exact ⟨rfl, hq.positive r hr, le_rfl⟩
    · intro r hr r' fill h
      rw [fillRequest_eq (hq.positive r hr) (hq.fits r hr) ha hlt] at h
      split_ifs at h
      cases h
      exact reduced_reduce (hq.positive r hr) ha hlt

end Steps

theorem cancel_wellFormed (hq : q.WellFormed) {id : ℕ} {staker : StakerId} {u : Unit}
    (h : cancel id staker q = (q', .ok u)) : q'.WellFormed := by
  simp only [cancel, get_bind, check_bind_ok, modify_ok] at h
  obtain ⟨index, -, _, -, rfl⟩ := h
  exact hq.sublist (List.eraseIdx_sublist _ _)

theorem cancel_atomic (id : ℕ) (staker : StakerId) : Atomic (cancel id staker) := by
  apply atomic_get_bind fun q => ?_
  apply atomic_check_bind fun index => ?_
  exact atomic_check_bind fun _ => (answers_modify _).atomic

/-- A call keeps the queue well formed, also where it is refused halfway. -/
theorem answered_wellFormed
    (x : Answered (WithdrawalQueue StakerId) (Call StakerId) Answer QueueError)
    (answered : machine.answering x.pre x.call = .ok (x.post, x.out)) (hq : x.pre.WellFormed) :
    x.post.WellFormed := by
  rw [Machine.answering_eq_ok] at answered
  obtain ⟨pre, call, out, post⟩ := x
  cases call with
  | request staker shares now =>
    cases out with
    | error e =>
      have hatomic :=
        (request_atomic staker shares now).bind fun id => answers_pure (Answer.queued id)
      rw [hatomic pre post e answered]
      exact hq
    | ok answer =>
      obtain ⟨m, id, h, hpure⟩ := bind_ok.mp answered
      obtain ⟨rfl, -⟩ := pure_ok.mp hpure
      exact request_wellFormed hq h
  | cancel id staker =>
    cases out with
    | error e =>
      have hatomic := (cancel_atomic id staker).bind fun _ => answers_pure Answer.cancelled
      rw [hatomic pre post e answered]
      exact hq
    | ok answer =>
      obtain ⟨m, u, h, hpure⟩ := bind_ok.mp answered
      obtain ⟨rfl, -⟩ := pure_ok.mp hpure
      exact cancel_wellFormed hq h
  | fillProRata available =>
    have hfill := fillProRata_wellFormed hq available
    simp only [machine, handle, bind_apply] at answered
    split at answered
    · next t fills h =>
      rw [h] at hfill
      obtain ⟨rfl, -⟩ := Prod.mk.inj answered
      exact hfill
    · next t e h =>
      rw [h] at hfill
      obtain ⟨rfl, -⟩ := Prod.mk.inj answered
      exact hfill

omit [DecidableEq StakerId] in
theorem new_wellFormed : (new : WithdrawalQueue StakerId).WellFormed where
  positive := List.forall_mem_nil _
  fits := List.forall_mem_nil _
  distinct := List.nodup_nil
  fresh := List.forall_mem_nil _

theorem after_wellFormed (calls : List (Call StakerId)) : (after calls).WellFormed :=
  run_invariant answered_wellFormed new_wellFormed calls

/-! ### Fills -/

section Fills
omit [DecidableEq StakerId]

/-- All shares that wait, added up exactly. -/
def requested (q : WithdrawalQueue StakerId) : ℤ := (q.requests.map (·.shares)).sum

theorem totalRequested_eq (hq : q.WellFormed) : q.totalRequested = min q.requested maxI128 := by
  have hshares : ∀ x ∈ q.requests.map (·.shares), 0 ≤ x := by
    intro x hx
    obtain ⟨r, hr, rfl⟩ := List.mem_map.mp hx
    exact (hq.positive r hr).le
  rw [requested, ← foldl_i128SaturatingAdd_zero hshares, List.foldl_map, totalRequested]

/-- How many shares of a request wait. -/
def waiting (q : WithdrawalQueue StakerId) : ℕ → ℤ :=
  tally (fun r => some (r.id, r.shares)) q.requests

/-- How many shares of a request are filled. -/
def filled : List Fill → ℕ → ℤ := tally fun fill => some (fill.id, fill.shares)

/-- A round from `q` to `q'` keeps to the capital and to what was requested. -/
structure Fair (available : ℤ) (q q' : WithdrawalQueue StakerId) (fills : List Fill) : Prop where
  capital : (fills.map (·.shares)).sum ≤ max available 0
  balance : ∀ r ∈ q.requests, waiting q' r.id + filled fills r.id = r.shares
  leaves : ∀ r ∈ q.requests, r.id ∉ q'.requests.map (·.id) ↔
    filled fills r.id = r.shares ∧ q.requested ≤ available
  order : (q'.requests.map (·.id)).Sublist (q.requests.map (·.id))

theorem waiting_eq (hq : q.WellFormed) (hr : r ∈ q.requests) : waiting q r.id = r.shares :=
  tally_of_nodup hq.distinct hr

theorem fillProRata_none (h : available ≤ 0 ∨ q.totalRequested = 0) :
    fillProRata available q = (q, .ok []) :=
  if_pos h

theorem fillProRata_full (hnone : ¬(available ≤ 0 ∨ q.totalRequested = 0))
    (hfull : q.totalRequested ≤ available) : fillProRata available q =
      ({ q with requests := [] }, .ok (q.requests.map fun r => ⟨r.id, r.shares⟩)) :=
  (if_neg hnone).trans (if_pos hfull)

theorem fillProRata_rounds (ha : 0 < available) (hlt : available < q.totalRequested) :
    fillProRata available q =
    ({ q with requests := (updateEach (fillRequest available q.totalRequested) q.requests).1 },
      (updateEach (fillRequest available q.totalRequested) q.requests).2) := by
  have hnone : ¬(available ≤ 0 ∨ q.totalRequested = 0) := by omega
  exact (if_neg hnone).trans (if_neg hlt.not_ge)

section Rounds
variable (hq : q.WellFormed) (ha : 0 < available) (hlt : available < q.totalRequested)
include hq ha hlt

theorem fillRequest_ok (hr : r ∈ q.requests) (hfits : r.shares * available ≤ maxI128) :
    fillRequest available q.totalRequested r =
      .ok (reduce available q.totalRequested r, fillOf available q.totalRequested r) := by
  rw [fillRequest_eq (hq.positive r hr) (hq.fits r hr) ha hlt, if_pos hfits]

/-- Where no product overflows every request has its share taken off. -/
theorem fillProRata_ok (hfits : ∀ r ∈ q.requests, r.shares * available ≤ maxI128) :
    fillProRata available q =
      ({ q with requests := q.requests.map (reduce available q.totalRequested) },
        .ok (q.requests.filterMap (fillOf available q.totalRequested))) := by
  rw [fillProRata_rounds ha hlt,
    updateEach_ok fun r hr => fillRequest_ok hq ha hlt hr (hfits r hr)]

/-- The requests before the first whose product overflows have their shares taken off. -/
theorem fillProRata_error {front back : List (Request StakerId)}
    (hsplit : q.requests = front ++ r :: back)
    (hfront : ∀ x ∈ front, x.shares * available ≤ maxI128)
    (hover : maxI128 < r.shares * available) : fillProRata available q =
      ({ q with requests := front.map (reduce available q.totalRequested) ++ r :: back },
        .error (.error .overflow)) := by
  have hr : r ∈ q.requests := by simp [hsplit]
  have hfail : fillRequest available q.totalRequested r = .error (.error .overflow) := by
    rw [fillRequest_eq (hq.positive r hr) (hq.fits r hr) ha hlt, if_neg hover.not_ge]
  have hok : ∀ x ∈ front, fillRequest available q.totalRequested x =
      .ok (reduce available q.totalRequested x, fillOf available q.totalRequested x) := by
    intro x hx
    exact fillRequest_ok hq ha hlt (by simp [hsplit, hx]) (hfront x hx)
  rw [fillProRata_rounds ha hlt, hsplit, updateEach_error hok hfail]

/-- A round that answers met no product that overflows. -/
theorem fits_of_ok {fills : List Fill} (h : fillProRata available q = (q', .ok fills)) :
    ∀ r ∈ q.requests, r.shares * available ≤ maxI128 := by
  by_contra hfits
  obtain ⟨r, back, hsplit, hover⟩ := split_first
    (p := fun r : Request StakerId => r.shares * available ≤ maxI128) (by simpa using hfits)
  rw [fillProRata_error hq ha hlt hsplit (fun x hx => by simpa using List.mem_takeWhile_imp hx)
    (by simpa using hover)] at h
  cases h

end Rounds

/-- What the fills of a round add up to; requests without a fill count for nothing. -/
theorem sum_fills {l : List (Request StakerId)} (hl : ∀ r ∈ l, 0 ≤ share available total r)
    {g : Fill → ℤ} (hg : ∀ id, g ⟨id, 0⟩ = 0) :
    ((l.filterMap (fillOf available total)).map g).sum =
      (l.map fun r => g ⟨r.id, share available total r⟩).sum := by
  induction l with
  | nil => rfl
  | cons r l ih =>
    rw [List.forall_mem_cons] at hl
    rw [List.map_cons, List.sum_cons, ← ih hl.2]
    by_cases hpos : 0 < share available total r
    · have hsome : fillOf available total r = some ⟨r.id, share available total r⟩ := if_pos hpos
      rw [List.filterMap_cons_some hsome, List.map_cons, List.sum_cons]
    · have hnone : fillOf available total r = none := if_neg hpos
      rw [List.filterMap_cons_none hnone, show share available total r = 0 by omega, hg, zero_add]

/-- The shares that are filled are those that are taken off. -/
theorem round_balance {l : List (Request StakerId)}
    (hl : ∀ r ∈ l, 0 ≤ share available total r) (id : ℕ) :
    tally (fun r => some (r.id, r.shares)) (l.map (reduce available total)) id +
      filled (l.filterMap (fillOf available total)) id =
    tally (fun r => some (r.id, r.shares)) l id := by
  have hround (r : Request StakerId) :
      booked (some (r.id, r.shares - share available total r)) id +
        booked (some (r.id, share available total r)) id = booked (some (r.id, r.shares)) id := by
    by_cases hid : id = r.id
    · subst hid
      simp only [booked_self, sub_add_cancel]
    · simp only [booked_of_ne hid, add_zero]
  have hfilled : filled (l.filterMap (fillOf available total)) id =
      (l.map fun r => booked (some (r.id, share available total r)) id).sum :=
    sum_fills (g := fun fill => booked (some (fill.id, fill.shares)) id) hl fun _ => ite_self 0
  rw [hfilled, tally, List.map_map, ← List.sum_map_add]
  exact congrArg List.sum (List.map_congr_left fun r _ => hround r)

/-- The floored shares of a total add up to at most the capital. -/
theorem sum_share_mul_le (available : ℤ) (ht : 0 < total) (l : List (Request StakerId)) :
    (l.map (share available total)).sum * total ≤ (l.map (·.shares)).sum * available := by
  induction l with
  | nil => simp
  | cons r l ih =>
    simp only [List.map_cons, List.sum_cons, add_mul]
    exact add_le_add (Int.ediv_mul_le _ ht.ne') ih

/-- Without capital or requests nothing happens. -/
theorem fair_none (hq : q.WellFormed) (available : ℤ) : Fair available q q [] where
  capital := le_max_right _ _
  balance r hr := (add_zero _).trans (waiting_eq hq hr)
  leaves r hr := by
    have hmem : r.id ∈ q.requests.map (·.id) := List.mem_map_of_mem hr
    refine iff_of_false (not_not.mpr hmem) fun hfilled => ?_
    exact (hq.positive r hr).ne hfilled.1
  order := List.Sublist.refl _

/-- All requests leave, filled in full, from capital that covers them. -/
theorem fair_full (hq : q.WellFormed) (hcovered : q.requested ≤ available) :
    Fair available q { q with requests := [] } (q.requests.map fun r => ⟨r.id, r.shares⟩) := by
  have hfilled : ∀ r ∈ q.requests,
      filled (q.requests.map fun r => ⟨r.id, r.shares⟩) r.id = r.shares := by
    intro r hr
    rw [← waiting_eq hq hr, waiting, filled, tally, List.map_map]
    rfl
  refine ⟨?_, fun r hr => ?_, fun r hr => ?_, List.nil_sublist _⟩
  · rw [List.map_map]
    exact hcovered.trans (le_max_left _ _)
  · rw [hfilled r hr]
    exact zero_add _
  · exact iff_of_true List.not_mem_nil ⟨hfilled r hr, hcovered⟩

/-- Every request keeps its place and waits for what is not filled. -/
theorem fair_rounds (hq : q.WellFormed) (ha : 0 < available) (hlt : available < q.totalRequested)
    (capital : ((q.requests.filterMap (fillOf available q.totalRequested)).map (·.shares)).sum ≤
      available) :
    Fair available q { q with requests := q.requests.map (reduce available q.totalRequested) }
      (q.requests.filterMap (fillOf available q.totalRequested)) := by
  have hids : (q.requests.map (reduce available q.totalRequested)).map (·.id) =
      q.requests.map (·.id) := by
    rw [List.map_map]
    rfl
  refine ⟨le_max_of_le_left capital, fun r hr => ?_, fun r hr => ?_, hids ▸ List.Sublist.refl _⟩
  · rw [← waiting_eq hq hr]
    exact round_balance (fun x hx => (share_bounds (hq.positive x hx) ha hlt).1) r.id
  · have hmem : r.id ∈ q.requests.map (·.id) := List.mem_map_of_mem hr
    refine iff_of_false (not_not.mpr (hids ▸ hmem)) fun hfilled => ?_
    rw [totalRequested_eq hq] at hlt
    omega

/-- A round that keeps to the capital is fair. -/
theorem fair_of_capital (hq : q.WellFormed) {fills : List Fill}
    (h : fillProRata available q = (q', .ok fills))
    (capital : (fills.map (·.shares)).sum ≤ max available 0) : Fair available q q' fills := by
  by_cases hnone : available ≤ 0 ∨ q.totalRequested = 0
  · rw [fillProRata_none hnone] at h
    cases h
    exact fair_none hq available
  rw [max_eq_left (by omega)] at capital
  by_cases hfull : q.totalRequested ≤ available
  · rw [fillProRata_full hnone hfull] at h
    cases h
    rw [List.map_map] at capital
    exact fair_full hq capital
  · have ha : 0 < available := by omega
    have hlt := not_le.mp hfull
    rw [fillProRata_ok hq ha hlt (fits_of_ok hq ha hlt h)] at h
    cases h
    exact fair_rounds hq ha hlt capital

/-! ### The capital -/

theorem requested_pos (hq : q.WellFormed) (hne : q.totalRequested ≠ 0) : 0 < q.requested := by
  have hnonneg : 0 ≤ q.requested := List.sum_nonneg <| by
    intro x hx
    obtain ⟨r, hr, rfl⟩ := List.mem_map.mp hx
    exact (hq.positive r hr).le
  have hmax := zero_le_maxI128
  rw [totalRequested_eq hq] at hne
  omega

theorem sum_fills_rounds (hq : q.WellFormed) (ha : 0 < available)
    (hlt : available < q.totalRequested) {fills : List Fill}
    (h : fillProRata available q = (q', .ok fills)) :
    (fills.map (·.shares)).sum = (q.requests.map (share available q.totalRequested)).sum := by
  rw [fillProRata_ok hq ha hlt (fits_of_ok hq ha hlt h)] at h
  cases h
  exact sum_fills (fun r hr => (share_bounds (hq.positive r hr) ha hlt).1) fun _ => rfl

/-- While the exact total is an amount no round fills more than the capital. -/
theorem capital_of_exact (hq : q.WellFormed) (hexact : q.requested ≤ maxI128) {fills : List Fill}
    (h : fillProRata available q = (q', .ok fills)) :
    (fills.map (·.shares)).sum ≤ max available 0 := by
  by_cases hnone : available ≤ 0 ∨ q.totalRequested = 0
  · rw [fillProRata_none hnone] at h
    cases h
    exact le_max_right _ _
  have htotal : q.totalRequested = q.requested := by
    rw [totalRequested_eq hq, min_eq_left hexact]
  apply le_max_of_le_left
  by_cases hfull : q.totalRequested ≤ available
  · rw [fillProRata_full hnone hfull] at h
    cases h
    rw [List.map_map]
    exact htotal.symm.trans_le hfull
  · have ha : 0 < available := by omega
    have hpos := requested_pos hq (fun hzero => hnone (.inr hzero))
    rw [sum_fills_rounds hq ha (not_le.mp hfull) h, htotal]
    have hmul := sum_share_mul_le available hpos q.requests
    rw [mul_comm (List.sum _) available] at hmul
    exact le_of_mul_le_mul_right hmul hpos

/-- The largest amount is a Mersenne prime. -/
theorem mul_ne_maxI128 {s a : ℤ} (ha : 1 < a) (hlt : a < maxI128) : s * a ≠ maxI128 := by
  intro h
  have hprime : Nat.Prime (2 ^ 127 - 1) := lucas_lehmer_sufficiency 127 (by norm_num) (by norm_num)
  have hmax : maxI128 = ((2 ^ 127 - 1 : ℕ) : ℤ) := by decide
  lift a to ℕ using by omega
  have hdvd : (a : ℤ) ∣ maxI128 := ⟨s, by rw [mul_comm]; exact h.symm⟩
  rw [hmax, Int.natCast_dvd_natCast] at hdvd
  rw [hmax] at hlt
  rcases hprime.eq_one_or_self_of_dvd a hdvd with hone | hself <;> omega

/-- Of a total that is cut off, only the largest request gets a share, and only of one. -/
theorem share_saturated (hr : 0 < r.shares) (ha : 0 < available) (hlt : available < maxI128)
    (hfits : r.shares * available ≤ maxI128) :
    share available maxI128 r = if available = 1 ∧ r.shares = maxI128 then 1 else 0 := by
  have hpos := mul_pos hr ha
  split_ifs with htop
  · rw [share, htop.1, htop.2, mul_one, Int.ediv_self (by decide)]
  · apply Int.ediv_eq_zero_of_lt hpos.le
    apply lt_of_le_of_ne hfits
    by_cases hone : available = 1
    · rw [hone, mul_one]
      exact fun heq => htop ⟨hone, heq⟩
    · exact mul_ne_maxI128 (by omega) hlt

theorem sum_share_saturated (hq : q.WellFormed) (ha : 0 < available) (hlt : available < maxI128)
    (hfits : ∀ r ∈ q.requests, r.shares * available ≤ maxI128) :
    (q.requests.map (share available maxI128)).sum =
      if available = 1 then (q.requests.countP (·.shares = maxI128) : ℤ) else 0 := by
  have hshare : q.requests.map (share available maxI128) =
      q.requests.map fun r => if available = 1 ∧ r.shares = maxI128 then 1 else 0 :=
    List.map_congr_left fun r hr => share_saturated (hq.positive r hr) ha hlt (hfits r hr)
  rw [hshare]
  split_ifs with hone
  · simp only [hone, true_and]
    induction q.requests with
    | nil => rfl
    | cons r l ih =>
      rw [List.map_cons, List.sum_cons, ih, List.countP_cons]
      by_cases htop : r.shares = maxI128 <;> simp [htop, add_comm]
  · simp [hone]

/-- What is answered is fair exactly if the exact total is an amount, or there is no capital,
or less than the largest amount of it; a single share is then split fairly if at most one
request waits for the largest amount. -/
theorem fair_iff (hq : q.WellFormed) (hmax : available ≤ maxI128) :
    (∀ q' fills, fillProRata available q = (q', .ok fills) → Fair available q q' fills) ↔
      q.requested ≤ maxI128 ∨ available ≤ 0 ∨ available < maxI128 ∧
        (available = 1 → q.requests.countP (·.shares = maxI128) ≤ 1) := by
  by_cases hexact : q.requested ≤ maxI128
  · exact iff_of_true (fun q' fills h => fair_of_capital hq h (capital_of_exact hq hexact h))
      (.inl hexact)
  by_cases hnone : available ≤ 0
  · refine iff_of_true (fun q' fills h => ?_) (.inr (.inl hnone))
    apply fair_of_capital hq h
    rw [fillProRata_none (.inl hnone)] at h
    cases h
    exact le_max_right _ _
  have ha := not_le.mp hnone
  have hcut : q.totalRequested = maxI128 := by
    rw [totalRequested_eq hq, min_eq_right (not_le.mp hexact).le]
  simp only [hexact, hnone, false_or]
  rcases hmax.lt_or_eq with hlt | rfl
  · rw [and_iff_right hlt]
    have hround : available < q.totalRequested := hcut ▸ hlt
    constructor
    · intro h hone
      subst hone
      have hfits : ∀ r ∈ q.requests, r.shares * 1 ≤ maxI128 := by
        simpa using hq.fits
      have hsum := (h _ _ (fillProRata_ok hq ha hround hfits)).capital
      rw [sum_fills_rounds hq ha hround (fillProRata_ok hq ha hround hfits), hcut,
        sum_share_saturated hq ha hlt hfits, if_pos rfl] at hsum
      exact_mod_cast hsum
    · intro hcount q' fills h
      apply fair_of_capital hq h
      rw [sum_fills_rounds hq ha hround h, hcut,
        sum_share_saturated hq ha hlt (fits_of_ok hq ha hround h)]
      apply le_max_of_le_left
      split_ifs with hone
      · rw [hone]
        exact_mod_cast hcount hone
      · exact ha.le
  · refine iff_of_false (fun h => ?_) fun h => h.1.ne rfl
    have hfull := fillProRata_full (q := q) (by omega) hcut.le
    have hsum := (h _ _ hfull).capital
    rw [List.map_map, max_eq_left ha.le] at hsum
    exact hexact hsum

/-- Nothing is taken off a request whose share rounds down to zero. -/
theorem reduce_eq_self_iff (hr : 0 < r.shares) (ha : 0 < available) (hlt : available < total) :
    reduce available total r = r ↔ r.shares * available < total := by
  have hshare := share_bounds hr ha hlt
  have hzero : share available total r < 1 ↔ r.shares * available < total := by
    rw [share, Int.ediv_lt_iff_lt_mul (ha.trans hlt), one_mul]
  rw [← hzero]
  constructor
  · intro heq
    have hshares := congrArg Request.shares heq
    simp only [reduce] at hshares
    omega
  · intro hsmall
    rw [reduce, show share available total r = 0 by omega, sub_zero]

/-- Where there is nothing to fill, or capital for all, or no product overflows, a round
answers. -/
theorem fillProRata_answers (hq : q.WellFormed) (h : available ≤ 0 ∨ q.totalRequested ≤ available ∨
      ∀ r ∈ q.requests, r.shares * available ≤ maxI128) :
    ∃ q' fills, fillProRata available q = (q', .ok fills) := by
  by_cases hnone : available ≤ 0 ∨ q.totalRequested = 0
  · exact ⟨_, _, fillProRata_none hnone⟩
  by_cases hfull : q.totalRequested ≤ available
  · exact ⟨_, _, fillProRata_full hnone hfull⟩
  rw [not_or] at hnone
  have hfits := (h.resolve_left hnone.1).resolve_left hfull
  exact ⟨_, _, fillProRata_ok hq (not_le.mp hnone.1) (not_le.mp hfull) hfits⟩

/-- A front of the queue is the same after a round if nothing is taken off it. -/
theorem map_reduce_iff (ha : 0 < available) (hlt : available < total)
    {front : List (Request StakerId)} (hpos : ∀ r ∈ front, 0 < r.shares) :
    front.map (reduce available total) = front ↔ ∀ r ∈ front, r.shares * available < total := by
  conv_lhs => rhs; rw [← List.map_id front]
  rw [List.map_inj_left]
  exact forall₂_congr fun r hr => reduce_eq_self_iff (hpos r hr) ha hlt

/-- A failed round leaves the queue as it was exactly if nothing is taken off before the
first product that overflows. -/
theorem untouched_iff (hq : q.WellFormed) :
    (∀ q' fault, fillProRata available q = (q', .error fault) → q' = q) ↔
      available ≤ 0 ∨ q.totalRequested ≤ available ∨
        (∀ r ∈ q.requests, r.shares * available ≤ maxI128) ∨
        ∀ r ∈ q.requests.takeWhile fun r => r.shares * available ≤ maxI128,
          r.shares * available < q.totalRequested := by
  rw [← or_assoc, ← or_assoc]
  by_cases hok : (available ≤ 0 ∨ q.totalRequested ≤ available) ∨
      ∀ r ∈ q.requests, r.shares * available ≤ maxI128
  · obtain ⟨t, fills, hround⟩ := fillProRata_answers hq (or_assoc.mp hok)
    refine iff_of_true (fun q' fault h => ?_) (.inl hok)
    rw [hround] at h
    cases h
  rw [or_iff_right hok]
  rw [not_or, not_or] at hok
  obtain ⟨⟨hnone, hfull⟩, hfits⟩ := hok
  have ha := not_le.mp hnone
  have hlt := not_le.mp hfull
  obtain ⟨x, back, hsplit, hover⟩ := split_first
    (p := fun r : Request StakerId => r.shares * available ≤ maxI128) (by simpa using hfits)
  have hfront := fun y => List.mem_takeWhile_imp (p := fun r : Request StakerId =>
    r.shares * available ≤ maxI128) (l := q.requests) (x := y)
  generalize q.requests.takeWhile (fun r => r.shares * available ≤ maxI128) = front
    at hsplit hfront ⊢
  have hround := fillProRata_error hq ha hlt hsplit (by simpa using hfront) (by simpa using hover)
  rw [← map_reduce_iff ha hlt fun r hr => hq.positive r (by simp [hsplit, hr])]
  constructor
  · intro h
    have hrequests := congrArg requests (h _ _ hround)
    dsimp only at hrequests
    rwa [hsplit, List.append_left_inj] at hrequests
  · intro hsame q' fault h
    rw [hround] at h
    cases h
    rw [hsame, ← hsplit]

end Fills

/-! ### Runs -/

/-- In every queue that a run leaves, a round is fair exactly where the exact total is an
amount, or the capital is too small for a cut-off total to matter. -/
theorem fillProRata_fair_iff (calls : List (Call StakerId)) :
    (∀ available : I128,
      (∀ q' fills, fillProRata available (after calls) = (q', .ok fills) →
        Fair available (after calls) q' fills) ↔
      (after calls).requested ≤ maxI128 ∨ available.1 ≤ 0 ∨ available.1 < maxI128 ∧
        (available.1 = 1 → (after calls).requests.countP (·.shares = maxI128) ≤ 1)) ∧
    ((∀ (available : I128) q' fills, fillProRata available (after calls) = (q', .ok fills) →
        Fair available (after calls) q' fills) ↔
      (after calls).requested ≤ maxI128) := by
  have hiff := fun available : I128 => fair_iff (after_wellFormed calls) available.2.2
  refine ⟨hiff, ?_⟩
  constructor
  · intro h
    have hmax := (hiff ⟨maxI128, by decide⟩).mp (h _)
    have hpos : ¬ maxI128 ≤ 0 := by decide
    simpa [hpos] using hmax
  · intro hexact available
    exact (hiff available).mpr (.inl hexact)

/-- Two requests for the largest amount are both filled in full from as much capital. -/
theorem two_largest_overfilled :
    let q := after [.request 1 ⟨maxI128, by decide⟩ 0, .request 2 ⟨maxI128, by decide⟩ 0]
    fillProRata maxI128 q = (⟨2, []⟩, .ok [⟨0, maxI128⟩, ⟨1, maxI128⟩]) ∧
      ¬ Fair maxI128 q ⟨2, []⟩ [⟨0, maxI128⟩, ⟨1, maxI128⟩] := by
  refine ⟨rfl, fun h => ?_⟩
  exact absurd h.capital (by decide)

/-- In every queue that a run leaves, a failed round changes nothing exactly where nothing is
taken off before the first product that overflows. -/
theorem fillProRata_untouched_iff (calls : List (Call StakerId)) (available : I128) :
    (∀ q' fault, fillProRata available (after calls) = (q', .error fault) → q' = after calls) ↔
      available.1 ≤ 0 ∨ (after calls).totalRequested ≤ available ∨
        (∀ r ∈ (after calls).requests, r.shares * available ≤ maxI128) ∨
        ∀ r ∈ (after calls).requests.takeWhile fun r => r.shares * available ≤ maxI128,
          r.shares * available < (after calls).totalRequested :=
  untouched_iff (after_wellFormed calls)

/-- The first request is reduced before the product of the second overflows. -/
theorem reduced_before_overflow :
    let q := after [.request 1 ⟨2 ^ 125, by decide⟩ 0, .request 2 ⟨2 ^ 126, by decide⟩ 0]
    fillProRata 3 q = (⟨2, [⟨0, 1, 2 ^ 125 - 1, 0⟩, ⟨1, 2, 2 ^ 126, 0⟩]⟩,
        .error (.error .overflow)) ∧
      (fillProRata 3 q).1 ≠ q := by
  decide

end WithdrawalQueue

end RefractContracts.Shared
