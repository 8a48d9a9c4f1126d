import RefractContracts.Host.History
import RefractContracts.Host.InPlace

/-! The rate limit: so many calls of a caller to an entrypoint in each window of ledgers.
Only the number of a window and a count are kept of a caller's calls. The count is that of
the current window while the length of the windows stays; after a change of length a stale
number may name another window. -/

namespace RefractContracts.Grants

open Host Method

/-- At most `maxCalls` calls in each window of `windowLedgers` ledgers. -/
structure Limit where
  maxCalls : ℕ
  windowLedgers : ℕ
  deriving DecidableEq, Repr

inductive RateLimitError where
  | limited
  | invalidLimit
  deriving DecidableEq, Repr

/-- The limits, and for each caller and entrypoint a window and the calls counted in it. -/
structure RateLimiter (Address EntrypointId : Type) where
  defaultLimit : Limit
  limits : EntrypointId → Option Limit
  counters : Address × EntrypointId → Option (ℕ × ℕ)

namespace RateLimiter

variable {Address EntrypointId : Type}

def validate (limit : Limit) : Outcome RateLimitError Unit :=
  bail (limit.maxCalls = 0 ∨ limit.windowLedgers = 0) .invalidLimit

def new (defaultLimit : Limit) : RateLimiter Address EntrypointId :=
  ⟨defaultLimit, fun _ => none, fun _ => none⟩

abbrev Update (Address EntrypointId α : Type) :=
  Method (RateLimiter Address EntrypointId) RateLimitError α

/-- The limit that applies to an entrypoint. -/
def limitFor (l : RateLimiter Address EntrypointId) (entrypoint : EntrypointId) : Limit :=
  (l.limits entrypoint).getD l.defaultLimit

variable [DecidableEq Address] [DecidableEq EntrypointId]

def setLimit (entrypoint : EntrypointId) (limit : Limit) : Update Address EntrypointId Unit := do
  check (validate limit)
  modify fun l => { l with limits := Function.update l.limits entrypoint (some limit) }

def setCounter (l : RateLimiter Address EntrypointId) (key : Address × EntrypointId)
    (counter : ℕ × ℕ) : RateLimiter Address EntrypointId :=
  { l with counters := Function.update l.counters key (some counter) }

theorem setCounter_counters (l : RateLimiter Address EntrypointId) (key : Address × EntrypointId)
    (counter : ℕ × ℕ) :
    (l.setCounter key counter).counters = Function.update l.counters key (some counter) := rfl

/-- Record a call, unless the caller is over the limit. The counter is reset in place; it
stays below a `u32` limit, so counting does not overflow. -/
def checkAndRecord (caller : Address) (entrypoint : EntrypointId) (ledger : ℕ) :
    Update Address EntrypointId Unit := do
  let l ← get
  let limit := l.limitFor entrypoint
  check (validate limit)
  let window := ledger / limit.windowLedgers
  let counter := (l.counters (caller, entrypoint)).getD (window, 0)
  let counter := if counter.1 ≠ window then (window, 0) else counter
  modify (setCounter · (caller, entrypoint) counter)
  check (bail (limit.maxCalls ≤ counter.2) .limited)
  modify (setCounter · (caller, entrypoint) (counter.1, counter.2 + 1))

/-! ### Calls -/

inductive Call (Address EntrypointId : Type) where
  | setLimit (entrypoint : EntrypointId) (limit : Limit)
  | checkAndRecord (caller : Address) (entrypoint : EntrypointId) (ledger : ℕ)

def handle : Call Address EntrypointId → Update Address EntrypointId Unit
  | .setLimit entrypoint limit => setLimit entrypoint limit
  | .checkAndRecord caller entrypoint ledger => checkAndRecord caller entrypoint ledger

def machine : Machine (RateLimiter Address EntrypointId) (Call Address EntrypointId) Unit
    RateLimitError := fun l call => handle call l

/-! ### One call -/

variable {l l' : RateLimiter Address EntrypointId} {caller : Address} {entrypoint : EntrypointId}
  {ledger window : ℕ} {limit : Limit}

def Valid (limit : Limit) : Prop := 0 < limit.maxCalls ∧ 0 < limit.windowLedgers

/-- The calls that are counted in a window. -/
def used (l : RateLimiter Address EntrypointId) (key : Address × EntrypointId) (window : ℕ) : ℕ :=
  match l.counters key with
  | some counter => if counter.1 = window then counter.2 else 0
  | none => 0

theorem validate_ok (h : Valid limit) : validate limit = .ok () :=
  bail_of_not (by unfold Valid at h; omega) _

theorem validate_error (h : ¬ Valid limit) : validate limit = .error (.error .invalidLimit) :=
  bail_of (by unfold Valid at h; omega) _

omit [DecidableEq Address] [DecidableEq EntrypointId] in
/-- The counter of a call, reset if it is of another window. -/
theorem reset_eq (l : RateLimiter Address EntrypointId) (key : Address × EntrypointId)
    (window : ℕ) : (if ((l.counters key).getD (window, 0)).1 ≠ window then (window, 0)
      else (l.counters key).getD (window, 0)) = (window, l.used key window) := by
  unfold used
  cases l.counters key with
  | none => simp
  | some counter =>
    obtain ⟨stored, count⟩ := counter
    by_cases hstored : stored = window <;> simp [hstored]

/-- A counter that calls are counted in is not reset. -/
theorem setCounter_used {key : Address × EntrypointId} (h : 0 < l.used key window) :
    l.setCounter key (window, l.used key window) = l := by
  have hstored : l.counters key = some (window, l.used key window) := by
    unfold used at h ⊢
    cases hkey : l.counters key with
    | none => simp [hkey] at h
    | some counter =>
      rw [hkey] at h
      dsimp only at h ⊢
      split_ifs at h ⊢ with hwindow
      · rw [← hwindow]
      · exact absurd h (lt_irrefl 0)
  rw [setCounter, ← hstored, Function.update_eq_self]

/-- A call is decided by the counted calls, and a refused one leaves the limiter as it was. -/
theorem checkAndRecord_eq (h : Valid (l.limitFor entrypoint)) :
    checkAndRecord caller entrypoint ledger l =
      let window := ledger / (l.limitFor entrypoint).windowLedgers
      let used := l.used (caller, entrypoint) window
      if used < (l.limitFor entrypoint).maxCalls then
        (l.setCounter (caller, entrypoint) (window, used + 1), .ok ())
      else (l, .error (.error .limited)) := by
  simp only [checkAndRecord, get_bind, ok_check_bind (validate_ok h), reset_eq, modify_bind]
  split_ifs with hlimit
  · rw [ok_check_bind (bail_of_not hlimit.not_ge _)]
    simp [setCounter, modify, modifyGet, MonadStateOf.modifyGet]
  · have hle := not_lt.mp hlimit
    rw [error_check_bind (bail_of hle _), setCounter_used (h.1.trans_le hle)]

theorem checkAndRecord_invalid (h : ¬ Valid (l.limitFor entrypoint)) :
    checkAndRecord caller entrypoint ledger l = (l, .error (.error .invalidLimit)) := by
  simp only [checkAndRecord, get_bind, error_check_bind (validate_error h)]

/-! ### The calls of a caller -/

abbrev Entry (Address EntrypointId : Type) :=
  Answered (RateLimiter Address EntrypointId) (Call Address EntrypointId) Unit RateLimitError

/-- The ledger of an accepted call by the caller to the entrypoint, and the length of the
windows then. -/
def record (caller : Address) (entrypoint : EntrypointId) :
    Entry Address EntrypointId → Option (ℕ × ℕ)
  | ⟨pre, .checkAndRecord caller' entrypoint' ledger, out, _⟩ =>
    if caller' = caller ∧ entrypoint' = entrypoint ∧ out = .ok () then
      some (ledger, (pre.limitFor entrypoint).windowLedgers)
    else none
  | ⟨_, .setLimit _ _, _, _⟩ => none

def accepted (caller : Address) (entrypoint : EntrypointId)
    (h : List (Entry Address EntrypointId)) : List (ℕ × ℕ) :=
  h.filterMap (record caller entrypoint)

/-- How many of the calls lie in a window, of windows of a given length. -/
def inWindow (made : List (ℕ × ℕ)) (length window : ℕ) : ℕ :=
  made.countP fun call => call.1 / length = window

/-- The call is made in the same windows as the caller's last accepted one. Otherwise the two
windows have one number and as many accepted calls, or the current window has none. -/
def Steady (h : List (Entry Address EntrypointId)) : Entry Address EntrypointId → Prop
  | ⟨pre, .checkAndRecord caller entrypoint ledger, _, _⟩ =>
    ∀ last ∈ (accepted caller entrypoint h).getLast?,
      (pre.limitFor entrypoint).windowLedgers = last.2 ∨
        inWindow (accepted caller entrypoint h) (pre.limitFor entrypoint).windowLedgers
            (ledger / (pre.limitFor entrypoint).windowLedgers) =
          if ledger / (pre.limitFor entrypoint).windowLedgers = last.1 / last.2 then
            inWindow (accepted caller entrypoint h) last.2 (last.1 / last.2)
          else 0
  | ⟨_, .setLimit _ _, _, _⟩ => True

/-- A call is accepted exactly when fewer calls of the caller to the entrypoint than the limit
allows were accepted in the current window. -/
def Counted (h : List (Entry Address EntrypointId)) : Entry Address EntrypointId → Prop
  | ⟨pre, .checkAndRecord caller entrypoint ledger, out, _⟩ =>
    out = .ok () ↔
      inWindow (accepted caller entrypoint h) (pre.limitFor entrypoint).windowLedgers
        (ledger / (pre.limitFor entrypoint).windowLedgers) < (pre.limitFor entrypoint).maxCalls
  | ⟨_, .setLimit _ _, _, _⟩ => True

instance (h : List (Entry Address EntrypointId)) (x : Entry Address EntrypointId) :
    Decidable (Steady h x) :=
  match x with
  | ⟨_, .checkAndRecord _ _ _, _, _⟩ => inferInstanceAs (Decidable (∀ last ∈ (_ : Option _), _))
  | ⟨_, .setLimit _ _, _, _⟩ => .isTrue trivial

instance (h : List (Entry Address EntrypointId)) (x : Entry Address EntrypointId) :
    Decidable (Counted h x) :=
  match x with
  | ⟨_, .checkAndRecord _ _ _, _, _⟩ => inferInstanceAs (Decidable (_ ↔ _))
  | ⟨_, .setLimit _ _, _, _⟩ => .isTrue trivial

def Call.ledger? : Call Address EntrypointId → Option ℕ
  | .checkAndRecord _ _ ledger => some ledger
  | .setLimit _ _ => none

/-- The limits are valid, and each counter is that of the caller's last accepted call. -/
structure Tracks (h : List (Entry Address EntrypointId)) (l : RateLimiter Address EntrypointId) :
    Prop where
  valid : ∀ entrypoint, Valid (l.limitFor entrypoint)
  counters : ∀ caller entrypoint, l.counters (caller, entrypoint) =
    (accepted caller entrypoint h).getLast?.map fun last =>
      (last.1 / last.2, inWindow (accepted caller entrypoint h) last.2 (last.1 / last.2))

variable {h : List (Entry Address EntrypointId)} {x : Entry Address EntrypointId}

theorem accepted_snoc (caller : Address) (entrypoint : EntrypointId)
    (h : List (Entry Address EntrypointId)) (x : Entry Address EntrypointId) :
    accepted caller entrypoint (h ++ [x]) =
      accepted caller entrypoint h ++ (record caller entrypoint x).toList := by
  rw [accepted, List.filterMap_append]
  cases hx : record caller entrypoint x <;> simp [hx, accepted]

theorem inWindow_snoc (made : List (ℕ × ℕ)) (call : ℕ × ℕ) (length window : ℕ) :
    inWindow (made ++ [call]) length window =
      inWindow made length window + if call.1 / length = window then 1 else 0 := by
  rw [inWindow, List.countP_append, List.countP_singleton]
  simp [inWindow]

/-- The ledgers of the calls that are checked. -/
def ledgers (h : List (Entry Address EntrypointId)) : List ℕ :=
  (h.map (·.call)).filterMap Call.ledger?

theorem record_ledger {call : ℕ × ℕ} (hx : record caller entrypoint x = some call) :
    x.call.ledger? = some call.1 := by
  obtain ⟨pre, k, out, post⟩ := x
  cases k with
  | setLimit => cases hx
  | checkAndRecord caller' entrypoint' ledger =>
    simp only [record] at hx
    split_ifs at hx
    cases hx
    rfl

theorem accepted_sublist (caller : Address) (entrypoint : EntrypointId)
    (h : List (Entry Address EntrypointId)) :
    ((accepted caller entrypoint h).map Prod.fst).Sublist (ledgers h) := by
  induction h with
  | nil => exact .slnil
  | cons x h ih =>
    rw [accepted, ledgers, List.map_cons]
    cases hx : record caller entrypoint x with
    | none =>
      rw [List.filterMap_cons_none hx]
      cases hledger : x.call.ledger? with
      | none => rwa [List.filterMap_cons_none hledger]
      | some ledger =>
        rw [List.filterMap_cons_some hledger]
        exact ih.cons ledger
    | some call =>
      rw [List.filterMap_cons_some hx, List.filterMap_cons_some (record_ledger hx)]
      exact ih.cons_cons call.1

/-- In order, no accepted call is later than the last of them. -/
theorem le_last {last call : ℕ × ℕ} (hsorted : (ledgers h).Pairwise (· ≤ ·))
    (hlast : last ∈ (accepted caller entrypoint h).getLast?)
    (hcall : call ∈ accepted caller entrypoint h) : call.1 ≤ last.1 := by
  have haccepted := hsorted.sublist (accepted_sublist caller entrypoint h)
  obtain ⟨front, hsplit⟩ := List.getLast?_eq_some_iff.mp hlast
  rw [hsplit, List.map_append, List.pairwise_append] at haccepted
  rw [hsplit, List.mem_append] at hcall
  rcases hcall with hfront | hself
  · exact haccepted.2.2 call.1 (List.mem_map_of_mem hfront) last.1 (by simp)
  · rw [List.mem_singleton.mp hself]

/-- Of windows of one length, that of a later ledger holds no earlier call unless it is the
same. -/
theorem inWindow_of_ne {last : ℕ × ℕ} {length : ℕ} (hsorted : (ledgers h).Pairwise (· ≤ ·))
    (hlast : last ∈ (accepted caller entrypoint h).getLast?) (hle : last.1 ≤ ledger)
    (hne : ledger / length ≠ last.1 / length) :
    inWindow (accepted caller entrypoint h) length (ledger / length) = 0 := by
  rw [inWindow, List.countP_eq_zero]
  intro call hcall
  have hbefore := Nat.div_le_div_right (c := length) (le_last hsorted hlast hcall)
  have hafter := Nat.div_le_div_right (c := length) hle
  simp only [decide_eq_true_eq]
  omega

/-- The counter counts the accepted calls of the current window exactly where the windows are
steady. -/
theorem used_eq_iff {out : Outcome RateLimitError Unit} (ht : Tracks h l)
    (hsorted : (ledgers h).Pairwise (· ≤ ·))
    (hle : ∀ call ∈ accepted caller entrypoint h, call.1 ≤ ledger) :
    l.used (caller, entrypoint) (ledger / (l.limitFor entrypoint).windowLedgers) =
      inWindow (accepted caller entrypoint h) (l.limitFor entrypoint).windowLedgers
        (ledger / (l.limitFor entrypoint).windowLedgers) ↔
      Steady h ⟨l, .checkAndRecord caller entrypoint ledger, out, l'⟩ := by
  have hused : ∀ last ∈ (accepted caller entrypoint h).getLast?,
      l.used (caller, entrypoint) (ledger / (l.limitFor entrypoint).windowLedgers) =
        if ledger / (l.limitFor entrypoint).windowLedgers = last.1 / last.2 then
          inWindow (accepted caller entrypoint h) last.2 (last.1 / last.2)
        else 0 := by
    intro last hlast
    rw [used, ht.counters, hlast, Option.map_some]
    dsimp only
    simp only [eq_comm]
  constructor
  · intro hcount last hlast
    exact .inr (hcount.symm.trans (hused last hlast))
  · intro hsteady
    cases hlast : (accepted caller entrypoint h).getLast? with
    | none =>
      rw [used, ht.counters, hlast, List.getLast?_eq_none_iff.mp hlast]
      rfl
    | some last =>
      rw [hused last hlast]
      rcases hsteady last hlast with hsame | hcount
      · rw [← hsame]
        split_ifs with hwindow
        · rw [hwindow]
        · have hmem : last ∈ accepted caller entrypoint h := List.mem_of_getLast? hlast
          exact (inWindow_of_ne hsorted hlast (hle last hmem) hwindow).symm
      · exact hcount.symm

/-! ### Runs -/

omit [DecidableEq Address] in
theorem limitFor_update (l : RateLimiter Address EntrypointId) (entrypoint e : EntrypointId)
    (limit : Limit) :
    limitFor { l with limits := Function.update l.limits entrypoint (some limit) } e =
      if e = entrypoint then limit else l.limitFor e := by
  unfold limitFor
  dsimp only
  split_ifs with heq
  · rw [heq, Function.update_self, Option.getD_some]
  · rw [Function.update_of_ne heq]

omit [DecidableEq Address] in
theorem setLimit_eq (l : RateLimiter Address EntrypointId) (h : Valid limit) :
    setLimit entrypoint limit l =
      ({ l with limits := Function.update l.limits entrypoint (some limit) }, .ok ()) := by
  rw [setLimit, ok_check_bind (validate_ok h)]
  rfl

omit [DecidableEq Address] in
theorem setLimit_invalid (l : RateLimiter Address EntrypointId) (h : ¬ Valid limit) :
    setLimit entrypoint limit l = (l, .error (.error .invalidLimit)) := by
  rw [setLimit, error_check_bind (validate_error h)]

/-- A refused call leaves the limiter as it was. -/
theorem machine_atomic (call : Call Address EntrypointId) {fault : Fault RateLimitError}
    (h : machine l call = (l', .error fault)) : l' = l := by
  cases call with
  | setLimit entrypoint limit =>
    by_cases hvalid : Valid limit
    · rw [machine, handle, setLimit_eq l hvalid] at h
      cases h
    · rw [machine, handle, setLimit_invalid l hvalid] at h
      cases h
      rfl
  | checkAndRecord caller entrypoint ledger =>
    by_cases hvalid : Valid (l.limitFor entrypoint)
    · rw [machine, handle, checkAndRecord_eq hvalid] at h
      dsimp only at h
      split_ifs at h
      · cases h
      · cases h
        rfl
    · rw [machine, handle, checkAndRecord_invalid hvalid] at h
      cases h
      rfl

/-- An entry that is no accepted call changes no counter. -/
theorem Tracks.skip (ht : Tracks h l) (hrecord : ∀ caller entrypoint,
      record caller entrypoint x = none) (hcounters : l'.counters = l.counters)
    (hvalid : ∀ entrypoint, Valid (l'.limitFor entrypoint)) : Tracks (h ++ [x]) l' where
  valid := hvalid
  counters caller entrypoint := by
    rw [hcounters, ht.counters, accepted_snoc, hrecord, Option.toList_none, List.append_nil]

/-- A new limit changes no counter. -/
theorem Tracks.set (ht : Tracks h l) (hvalid : Valid limit) (out : Outcome RateLimitError Unit) :
    Tracks (h ++ [⟨l, .setLimit entrypoint limit, out, l'⟩])
      { l with limits := Function.update l.limits entrypoint (some limit) } := by
  refine ht.skip (fun _ _ => rfl) rfl fun entrypoint' => ?_
  rw [limitFor_update]
  split_ifs
  · exact hvalid
  · exact ht.valid entrypoint'

/-- An accepted call is counted in its window, and changes no other counter. -/
theorem Tracks.count (ht : Tracks h l) (caller : Address) (entrypoint : EntrypointId)
    (ledger : ℕ) : let window := ledger / (l.limitFor entrypoint).windowLedgers
    Tracks (h ++ [⟨l, .checkAndRecord caller entrypoint ledger, .ok (), l'⟩])
      (l.setCounter (caller, entrypoint) (window, inWindow (accepted caller entrypoint h)
        (l.limitFor entrypoint).windowLedgers window + 1)) := by
  refine ⟨ht.valid, fun caller' entrypoint' => ?_⟩
  rw [accepted_snoc, setCounter_counters]
  by_cases hkey : caller = caller' ∧ entrypoint = entrypoint'
  · obtain ⟨rfl, rfl⟩ := hkey
    rw [record, if_pos ⟨rfl, rfl, rfl⟩, Option.toList_some, List.getLast?_concat,
      Option.map_some, Function.update_self, inWindow_snoc, if_pos rfl]
  · have hne : (caller', entrypoint') ≠ (caller, entrypoint) := fun heq =>
      hkey ⟨(Prod.mk.inj heq).1.symm, (Prod.mk.inj heq).2.symm⟩
    rw [record, if_neg fun hok => hkey ⟨hok.1, hok.2.1⟩, Option.toList_none, List.append_nil,
      Function.update_of_ne hne, ht.counters]

/-- One call: it is decided by the exact count, and its counter is tracked on. -/
theorem answered_tracks (ht : Tracks h x.pre) (answered : machine x.pre x.call = (x.post, x.out))
    (hsteady : Steady h x) (hsorted : (ledgers (h ++ [x])).Pairwise (· ≤ ·)) :
    Counted h x ∧ Tracks (h ++ [x]) x.post := by
  obtain ⟨pre, call, out, post⟩ := x
  dsimp only at ht answered ⊢
  cases call with
  | setLimit entrypoint limit =>
    refine ⟨trivial, ?_⟩
    by_cases hvalid : Valid limit
    · have hset := answered.symm.trans (setLimit_eq pre hvalid)
      obtain ⟨rfl, rfl⟩ := Prod.mk.inj hset
      exact ht.set hvalid _
    · have hset := answered.symm.trans (setLimit_invalid pre hvalid)
      obtain ⟨rfl, rfl⟩ := Prod.mk.inj hset
      exact ht.skip (fun _ _ => rfl) rfl ht.valid
  | checkAndRecord caller entrypoint ledger =>
    have hbefore : (ledgers h).Pairwise (· ≤ ·) ∧ ∀ n ∈ ledgers h, n ≤ ledger := by
      rw [ledgers, List.map_append, List.filterMap_append, List.pairwise_append] at hsorted
      exact ⟨hsorted.1, fun n hn => hsorted.2.2 n hn ledger (by simp [Call.ledger?])⟩
    have hle : ∀ call ∈ accepted caller entrypoint h, call.1 ≤ ledger := by
      intro call hcall
      apply hbefore.2
      exact (accepted_sublist caller entrypoint h).subset (List.mem_map_of_mem hcall)
    have hcheck := answered.symm.trans (checkAndRecord_eq (ht.valid entrypoint))
    dsimp only at hcheck
    rw [(used_eq_iff ht hbefore.1 hle).mpr hsteady] at hcheck
    split_ifs at hcheck with hlimit
    · obtain ⟨rfl, rfl⟩ := Prod.mk.inj hcheck
      exact ⟨iff_of_true rfl hlimit, ht.count caller entrypoint ledger⟩
    · obtain ⟨rfl, rfl⟩ := Prod.mk.inj hcheck
      refine ⟨iff_of_false nofun hlimit, ht.skip (fun _ _ => ?_) rfl ht.valid⟩
      exact if_neg fun hok => nomatch hok.2.2

/-- The calls that set the limit of the entrypoint, and the caller's calls to it. -/
def Call.concerns (caller : Address) (entrypoint : EntrypointId) : Call Address EntrypointId → Bool
  | .setLimit entrypoint' _ => entrypoint' = entrypoint
  | .checkAndRecord caller' entrypoint' _ => caller' = caller ∧ entrypoint' = entrypoint

/-- What the caller's calls to the entrypoint depend on. -/
def view (caller : Address) (entrypoint : EntrypointId) (l : RateLimiter Address EntrypointId) :
    Limit × Option (ℕ × ℕ) :=
  (l.limitFor entrypoint, l.counters (caller, entrypoint))

theorem view_hidden (l : RateLimiter Address EntrypointId) (call : Call Address EntrypointId)
    (h : call.concerns caller entrypoint = false) :
    view caller entrypoint (machine l call).1 = view caller entrypoint l := by
  cases call with
  | setLimit entrypoint' limit =>
    have hne : entrypoint ≠ entrypoint' := fun heq => by simp [Call.concerns, heq] at h
    by_cases hvalid : Valid limit
    · rw [machine, handle, setLimit_eq l hvalid, view, limitFor_update, if_neg hne]
      rfl
    · rw [machine, handle, setLimit_invalid l hvalid]
  | checkAndRecord caller' entrypoint' ledger =>
    have hne : (caller, entrypoint) ≠ (caller', entrypoint') := by
      rintro ⟨⟩
      simp [Call.concerns] at h
    by_cases hvalid : Valid (l.limitFor entrypoint')
    · rw [machine, handle, checkAndRecord_eq hvalid]
      dsimp only
      split_ifs
      · rw [view, setCounter_counters, Function.update_of_ne hne]
        rfl
      · rfl
    · rw [machine, handle, checkAndRecord_invalid hvalid]

theorem view_seen (l l' : RateLimiter Address EntrypointId) (call : Call Address EntrypointId)
    (h : call.concerns caller entrypoint = true)
    (hview : view caller entrypoint l = view caller entrypoint l') :
    view caller entrypoint (machine l call).1 = view caller entrypoint (machine l' call).1 ∧
      (machine l call).2 = (machine l' call).2 := by
  obtain ⟨hlimit, hcounter⟩ := Prod.mk.inj hview
  cases call with
  | setLimit entrypoint' limit =>
    by_cases hvalid : Valid limit
    · have heq : entrypoint' = entrypoint := by simpa [Call.concerns] using h
      subst heq
      simp only [machine, handle, setLimit_eq _ hvalid, view, limitFor_update, if_true, hcounter,
        and_self]
    · simp only [machine, handle, setLimit_invalid _ hvalid, hview, and_self]
  | checkAndRecord caller' entrypoint' ledger =>
    obtain ⟨rfl, rfl⟩ : caller' = caller ∧ entrypoint' = entrypoint := by
      simpa [Call.concerns] using h
    by_cases hvalid : Valid (l.limitFor entrypoint')
    · have hused (window : ℕ) : l.used (caller', entrypoint') window =
          l'.used (caller', entrypoint') window := by
        rw [used, used, hcounter]
      rw [machine, machine, handle, checkAndRecord_eq hvalid, checkAndRecord_eq (hlimit ▸ hvalid),
        ← hlimit]
      dsimp only
      rw [← hused]
      split_ifs
      · refine ⟨?_, rfl⟩
        rw [view, view, setCounter_counters, setCounter_counters, Function.update_self,
          Function.update_self]
        exact congrArg (·, _) hlimit
      · exact ⟨hview, rfl⟩
    · simp only [machine, handle, checkAndRecord_invalid hvalid,
        checkAndRecord_invalid (hlimit ▸ hvalid), hview, and_self]

/-- Where every call finds its windows steady, every call is decided by the exact count. -/
theorem throughout_counted {limit : Limit} (hvalid : Valid limit)
    {calls : List (Call Address EntrypointId)}
    (hledgers : (calls.filterMap Call.ledger?).Pairwise (· ≤ ·))
    (hsteady : Throughout Steady (run machine.answering (new limit) calls).2) :
    Throughout Counted (run machine.answering (new limit) calls).2 := by
  have htrace := run_trace machine.answering (new limit) calls
  have hsorted : (ledgers (run machine.answering (new limit) calls).2).Pairwise (· ≤ ·) := by
    rwa [ledgers, run_answering_calls]
  suffices hI : ∀ {h l}, Trace machine.answering (new limit) h l → Throughout Steady h →
      (ledgers h).Pairwise (· ≤ ·) → Tracks h l ∧ Throughout Counted h from
    (hI htrace hsteady hsorted).2
  intro h l htrace
  induction htrace with
  | nil =>
    intro _ _
    exact ⟨⟨fun _ => hvalid, fun _ _ => rfl⟩, throughout_nil _⟩
  | snoc x _ hx ih =>
    intro hsteady hsorted
    rw [throughout_snoc] at hsteady
    have hbefore := hsorted
    rw [ledgers, List.map_append, List.filterMap_append, List.pairwise_append] at hbefore
    obtain ⟨htracks, hcounted⟩ := ih hsteady.1 hbefore.1
    obtain ⟨hlast, htracks'⟩ :=
      answered_tracks htracks (Machine.answering_eq_ok.mp hx) hsteady.2 hsorted
    exact ⟨htracks', throughout_snoc.mpr ⟨hcounted, hlast⟩⟩

/-- In a run whose windows are steady a call is accepted exactly when fewer calls than the
limit allows were accepted in its window. In every run a refused call changes nothing, and
what other callers do, or what is done at other entrypoints, changes no answer. -/
theorem rate_limited {limit : Limit} (hvalid : Valid limit)
    {calls : List (Call Address EntrypointId)}
    (hledgers : (calls.filterMap Call.ledger?).Pairwise (· ≤ ·)) :
    let h := (run machine.answering (new limit) calls).2
    (Throughout Steady h → Throughout Counted h) ∧
      (∀ x ∈ h, ∀ fault, x.out = .error fault → x.post = x.pre) ∧
      ∀ (caller : Address) (entrypoint : EntrypointId),
        (machine.run (new limit) calls).2.filter (fun x => x.1.concerns caller entrypoint) =
          (machine.run (new limit) (calls.filter (Call.concerns caller entrypoint))).2 := by
  refine ⟨throughout_counted hvalid hledgers, ?_, ?_⟩
  · intro x hx fault hfault
    have hanswered := Machine.answering_eq_ok.mp (mem_run.mp hx).2
    rw [hfault] at hanswered
    exact machine_atomic x.call hanswered
  · intro caller entrypoint
    exact Machine.run_filter (view caller entrypoint) view_hidden view_seen calls rfl

/-- Two calls are accepted, a third is refused, and the next window starts anew. -/
theorem rate_limited_two_windows : Throughout Counted
    (run (@machine ℕ ℕ _ _).answering (new ⟨2, 100⟩)
      [.checkAndRecord 1 10 0, .checkAndRecord 1 10 50, .checkAndRecord 1 10 99,
        .setLimit 10 ⟨1, 100⟩, .checkAndRecord 1 10 100]).2 :=
  (rate_limited ⟨by decide, by decide⟩ (by decide)).1 (by decide)

/-- After the window was shortened from 100 to 50 ledgers, the calls at 150 and 160 are not
counted, and four calls are accepted from 150 to 200 where two are allowed. -/
theorem shortened_window_overrun :
    let h := (run (@machine ℕ ℕ _ _).answering (new ⟨2, 100⟩)
      [.checkAndRecord 1 10 150, .checkAndRecord 1 10 160, .setLimit 10 ⟨2, 50⟩,
        .checkAndRecord 1 10 170, .checkAndRecord 1 10 180]).2
    inWindow (accepted 1 10 h) 50 3 = 4 ∧ ¬ Throughout Counted h := by
  decide

end RateLimiter

end RefractContracts.Grants
