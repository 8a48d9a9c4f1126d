import RefractContracts.Host.Storage
import RefractContracts.Treasury.Challenges

/-! Withdrawals over a run. What the registry stores of a withdrawal is read off the
answered calls: the approval it comes from, whether a challenge of it is unresolved,
and whether it was cancelled. So a withdrawal is paid once, as approved, when nothing
holds it and its window is over. -/

namespace RefractContracts.Treasury.Challenges

open Host

variable {Address : Type}

abbrev Event (Address : Type) :=
  Answered (Challenges Address) (Call Address) Answer ChallengeError

/-- When the window of a withdrawal approved at `now` ends. -/
def windowEnd (threshold : ℤ) (window : ℕ) (amount : ℤ) (now : ℕ) : ℕ :=
  u64SaturatingAdd now (if threshold ≤ amount then window else 0)

def Registers (stakeholder : Address) (x : Event Address) : Prop :=
  (∃ caller, x.call = .addStakeholder caller stakeholder) ∧ x.out = .ok .done

def Approves (id : ℕ) (amount : ℤ) (now : ℕ) (x : Event Address) : Prop :=
  (∃ caller, x.call = .approve caller amount now) ∧ x.out = .ok (.approved id)

def Holds (id : ℕ) (x : Event Address) : Prop :=
  (∃ stakeholder now, x.call = .challenge stakeholder id now) ∧ x.out = .ok .done

def Resolves (id : ℕ) (uphold : Bool) (x : Event Address) : Prop :=
  (∃ caller, x.call = .resolve caller id uphold) ∧ x.out = .ok .done

/-- A challenge of the withdrawal was accepted and nothing has resolved it since. -/
def Unresolved (h : List (Event Address)) (id : ℕ) : Prop :=
  ∃ x l, Latest (Holds id) h x l ∧ ∀ y ∈ l, ∀ uphold, ¬ Resolves id uphold y

/-- The withdrawal that an event approves. -/
def approvedId (x : Event Address) : Option ℕ :=
  match x.out with
  | .ok (.approved id) => some id
  | _ => none

/-- The withdrawal that an event pays. -/
def paidId (x : Event Address) : Option ℕ :=
  match x.call, x.out with
  | .finalize id _, .ok (.paid _) => some id
  | _, _ => none

/-- What is stored of a withdrawal, and what happened to it. -/
structure Tracks (threshold : ℤ) (window : ℕ) (h : List (Event Address)) (id : ℕ)
    (withdrawal : Withdrawal Address) : Prop where
  approved : ∃ now, withdrawal.windowEndsAt = windowEnd threshold window withdrawal.amount now ∧
    ∃ x ∈ h, Approves id withdrawal.amount now x
  free : withdrawal.challengedBy = none → ¬ Unresolved h id
  standing : withdrawal.cancelled = false → ∀ x ∈ h, ¬ Resolves id false x

def Finalized (c : Challenges Address) (id : ℕ) : Prop :=
  ∃ withdrawal, c.withdrawals id = some withdrawal ∧ withdrawal.finalized = true

/-- The registry after the events `h`. -/
structure Ledger (threshold : ℤ) (window : ℕ) (h : List (Event Address))
    (c : Challenges Address) : Prop where
  threshold_eq : c.threshold = threshold
  window_eq : c.window = window
  registered : ∀ stakeholder ∈ c.stakeholders, ∃ x ∈ h, Registers stakeholder x
  unused : ∀ id, c.nextId ≤ id → c.withdrawals id = none
  stored : ∀ id withdrawal, c.withdrawals id = some withdrawal →
    Tracks threshold window h id withdrawal
  known : ∀ id, ∀ x ∈ h, Holds id x ∨ Resolves id false x → c.withdrawals id ≠ none
  approvedOnce : Once approvedId (· < c.nextId) h
  paidOnce : Once paidId (Finalized c) h

variable {threshold : ℤ} {window : ℕ} {h : List (Event Address)} {x : Event Address} {id : ℕ}
  {withdrawal next : Withdrawal Address} {c c' : Challenges Address}

/-! ### One more event -/

theorem exists_mem_snoc {P : Event Address → Prop} (hP : ∃ y ∈ h, P y) (x : Event Address) :
    ∃ y ∈ h ++ [x], P y := by
  obtain ⟨y, hy, hPy⟩ := hP
  exact ⟨y, List.mem_append_left _ hy, hPy⟩

theorem Unresolved.of_snoc (u : Unresolved (h ++ [x]) id) :
    Holds id x ∨ Unresolved h id ∧ ∀ uphold, ¬ Resolves id uphold x := by
  obtain ⟨y, l, ⟨hy, hl, g, hsplit⟩, hres⟩ := u
  rcases List.eq_nil_or_concat l with rfl | ⟨l, z, rfl⟩
  · left
    obtain ⟨-, he⟩ := List.append_inj' hsplit rfl
    rwa [(List.cons.inj he).1]
  · right
    rw [List.concat_eq_append] at hl hres hsplit
    rw [← List.cons_append, ← List.append_assoc] at hsplit
    obtain ⟨rfl, he⟩ := List.append_inj' hsplit rfl
    rw [(List.cons.inj he).1]
    rw [List.forall_mem_append] at hl hres
    exact ⟨⟨y, l, ⟨hy, hl.1, g, rfl⟩, hres.1⟩, hres.2 z (by simp)⟩

/-- A rewrite that keeps the amount and the window. -/
theorem Tracks.rewrite (t : Tracks threshold window h id withdrawal)
    (amount_eq : next.amount = withdrawal.amount)
    (ends_eq : next.windowEndsAt = withdrawal.windowEndsAt)
    (free : next.challengedBy = none → ¬ Unresolved (h ++ [x]) id)
    (standing : next.cancelled = false → withdrawal.cancelled = false ∧ ¬ Resolves id false x) :
    Tracks threshold window (h ++ [x]) id next where
  approved := by
    obtain ⟨now, hend, happ⟩ := t.approved
    rw [amount_eq, ends_eq]
    exact ⟨now, hend, exists_mem_snoc happ x⟩
  free := free
  standing hst := forall_mem_snoc (t.standing (standing hst).1) (standing hst).2

theorem Tracks.free_snoc (t : Tracks threshold window h id withdrawal) (hold : ¬ Holds id x)
    (hfree : withdrawal.challengedBy = none) : ¬ Unresolved (h ++ [x]) id := by
  intro hun
  rcases hun.of_snoc with hx | ⟨hun, -⟩
  · exact hold hx
  · exact t.free hfree hun

theorem Tracks.keep (t : Tracks threshold window h id withdrawal) (hold : ¬ Holds id x)
    (cancel : ¬ Resolves id false x) : Tracks threshold window (h ++ [x]) id withdrawal :=
  t.rewrite rfl rfl (t.free_snoc hold) fun hst => ⟨hst, cancel⟩

/-- An event that concerns no withdrawal and approves none. -/
theorem Ledger.keep (l : Ledger threshold window h c) (hold : ∀ id, ¬ Holds id x)
    (cancel : ∀ id, ¬ Resolves id false x) (happ : approvedId x = none) (hpaid : paidId x = none)
    (hth : c'.threshold = c.threshold) (hwin : c'.window = c.window)
    (hreg : ∀ stakeholder ∈ c'.stakeholders, stakeholder ∈ c.stakeholders ∨ Registers stakeholder x)
    (hnext : c'.nextId = c.nextId) (hwith : c'.withdrawals = c.withdrawals) :
    Ledger threshold window (h ++ [x]) c' where
  threshold_eq := hth.trans l.threshold_eq
  window_eq := hwin.trans l.window_eq
  registered stakeholder hs := by
    rcases hreg stakeholder hs with hs | hx
    · exact exists_mem_snoc (l.registered stakeholder hs) x
    · exact ⟨x, by simp, hx⟩
  unused := by
    rw [hnext, hwith]
    exact l.unused
  stored := by
    rw [hwith]
    exact fun id withdrawal hs => (l.stored id withdrawal hs).keep (hold id) (cancel id)
  known id := by
    rw [hwith]
    apply forall_mem_snoc (l.known id)
    exact fun hx => absurd hx (not_or.mpr ⟨hold id, cancel id⟩)
  approvedOnce := by
    rw [hnext]
    exact l.approvedOnce.snoc (fun _ hk => hk) (by simp [happ])
  paidOnce := by
    apply l.paidOnce.snoc
    · intro k hk
      rwa [Finalized, hwith]
    · simp [hpaid]

/-- An event that rewrites a stored withdrawal and concerns no other. -/
theorem Ledger.rewrite (l : Ledger threshold window h c) (hid : c.withdrawals id = some withdrawal)
    (others : ∀ k, Holds k x ∨ Resolves k false x → k = id) (happ : approvedId x = none)
    (hpaid : ∀ k, paidId x = some k → k = id ∧ withdrawal.finalized = false ∧ next.finalized = true)
    (hfinal : withdrawal.finalized = true → next.finalized = true)
    (ht : Tracks threshold window (h ++ [x]) id next) :
    Ledger threshold window (h ++ [x]) (c.setWithdrawal id next) where
  threshold_eq := l.threshold_eq
  window_eq := l.window_eq
  registered stakeholder hs := exists_mem_snoc (l.registered stakeholder hs) x
  unused k hk := absent_update (l.unused k hk) hid
  stored k w hs := by
    rcases update_eq_some hs with ⟨rfl, rfl⟩ | ⟨hne, hs⟩
    · exact ht
    · apply (l.stored k w hs).keep
      · exact fun hx => hne (others k (.inl hx))
      · exact fun hx => hne (others k (.inr hx))
  known k := by
    have hkeep : c.withdrawals k ≠ none → (c.setWithdrawal id next).withdrawals k ≠ none := by
      intro hk
      show Function.update c.withdrawals id (some next) k ≠ none
      by_cases hki : k = id
      · subst hki
        simp
      · rwa [Function.update_of_ne hki]
    apply forall_mem_snoc
    · exact fun y hy hk => hkeep (l.known k y hy hk)
    · intro hk
      apply hkeep
      rw [others k hk, hid]
      exact Option.some_ne_none withdrawal
  approvedOnce := l.approvedOnce.snoc (fun _ hk => hk) (by simp [happ])
  paidOnce := by
    apply l.paidOnce.snoc
    · rintro k ⟨w, hw, hf⟩
      rcases stored_update hw hid next with ⟨rfl, rfl, hn⟩ | ⟨-, hn⟩
      · exact ⟨next, hn, hfinal hf⟩
      · exact ⟨w, hn, hf⟩
    · intro k hk
      obtain ⟨rfl, hopen, hdone⟩ := hpaid k hk
      constructor
      · rintro ⟨w, hw, hf⟩
        rw [hid] at hw
        rw [← Option.some.inj hw, hopen] at hf
        exact Bool.false_ne_true hf
      · exact ⟨next, Function.update_self _ _ _, hdone⟩

section New
variable {amount : ℤ} {now : ℕ} (l : Ledger threshold window h c) (hold : ∀ id, ¬ Holds id x)
  (cancel : ∀ id, ¬ Resolves id false x) (happ : Approves c.nextId amount now x)
include l hold cancel happ

/-- The id of an approval is new, so no event of the history concerns it. -/
theorem Ledger.tracks_new : Tracks threshold window (h ++ [x]) c.nextId
    ⟨amount, windowEnd c.threshold c.window amount now, none, false, false⟩ where
  approved := by
    rw [l.threshold_eq, l.window_eq]
    exact ⟨now, rfl, x, List.mem_append_right h (List.mem_singleton_self x), happ⟩
  free _ hun := by
    rcases hun.of_snoc with hx | ⟨⟨y, _, hy, -⟩, -⟩
    · exact hold _ hx
    · exact l.known _ y hy.mem (.inl hy.holds) (l.unused c.nextId le_rfl)
  standing _ := by
    apply forall_mem_snoc
    · exact fun y hy hx => l.known _ y hy (.inr hx) (l.unused c.nextId le_rfl)
    · exact cancel _

theorem Ledger.approve (hpaid : paidId x = none) :
    Ledger threshold window (h ++ [x]) ({ c with nextId := c.nextId + 1 }.setWithdrawal c.nextId
      ⟨amount, windowEnd c.threshold c.window amount now, none, false, false⟩) where
  threshold_eq := l.threshold_eq
  window_eq := l.window_eq
  registered stakeholder hs := exists_mem_snoc (l.registered stakeholder hs) x
  unused k hk := by
    have hk' : c.nextId + 1 ≤ k := hk
    exact (Function.update_of_ne (by omega) _ _).trans (l.unused k (by omega))
  stored k w hs := by
    rcases update_eq_some hs with ⟨rfl, rfl⟩ | ⟨-, hs⟩
    · exact l.tracks_new hold cancel happ
    · exact (l.stored k w hs).keep (hold k) (cancel k)
  known k := by
    apply forall_mem_snoc
    · intro y hy hk
      have hne : k ≠ c.nextId := fun he => l.known k y hy hk (he ▸ l.unused c.nextId le_rfl)
      show Function.update c.withdrawals c.nextId _ k ≠ none
      rw [Function.update_of_ne hne]
      exact l.known k y hy hk
    · exact fun hx => absurd hx (not_or.mpr ⟨hold k, cancel k⟩)
  approvedOnce := by
    apply l.approvedOnce.snoc (fun k hk => Nat.lt_succ_of_lt hk)
    intro k hk
    rw [approvedId, happ.2] at hk
    rw [← Option.some.inj hk]
    exact ⟨lt_irrefl _, Nat.lt_succ_self _⟩
  paidOnce := by
    apply l.paidOnce.snoc
    · rintro k ⟨w, hw, hf⟩
      have hne := ne_of_absent (l.unused c.nextId le_rfl) hw
      exact ⟨w, (Function.update_of_ne hne _ _).trans hw, hf⟩
    · simp [hpaid]

end New

theorem new_ledger (governance : Address) (threshold : ℤ) (window : ℕ) :
    Ledger threshold window [] (Challenges.new governance threshold window) where
  threshold_eq := rfl
  window_eq := rfl
  registered := by simp [Challenges.new]
  unused _ _ := rfl
  stored := nofun
  known _ := List.forall_mem_nil _
  approvedOnce := .nil
  paidOnce := .nil

variable [DecidableEq Address]

theorem ledger_step (h : List (Event Address)) (x : Event Address)
    (answered : machine.answering x.pre x.call = .ok (x.post, x.out))
    (l : Ledger threshold window h x.pre) : Ledger threshold window (h ++ [x]) x.post := by
  rw [Machine.answering_eq_ok] at answered
  obtain ⟨pre, call, out, post⟩ := x
  simp only at answered l ⊢
  cases out with
  | error e =>
    -- a refused call is no event of any kind
    rw [handle_atomic call pre post e answered]
    exact l.keep (by simp [Holds]) (by simp [Resolves]) rfl (by simp [paidId]) rfl rfl
      (fun _ hs => .inl hs) rfl rfl
  | ok out =>
    cases machine_effect answered with
    | @registered stakeholder =>
      refine l.keep (by simp [Holds]) (by simp [Resolves]) rfl (by simp [paidId]) rfl rfl ?_ rfl rfl
      intro s hs
      rcases Finset.mem_insert.mp hs with rfl | hs
      · exact .inr ⟨⟨_, rfl⟩, rfl⟩
      · exact .inl hs
    | approved =>
      exact l.approve (by simp [Holds]) (by simp [Resolves]) ⟨⟨_, rfl⟩, rfl⟩ (by simp [paidId])
    | @challenged stakeholder id now withdrawal registered stored open_ =>
      refine l.rewrite stored (by simp [Holds, Resolves]) rfl (by simp [paidId]) (fun hf => hf) ?_
      exact (l.stored id withdrawal stored).rewrite rfl rfl nofun fun hst =>
        ⟨hst, by simp [Resolves]⟩
    | @upheld id withdrawal stored =>
      refine l.rewrite stored (by simp [Holds, Resolves]) rfl (by simp [paidId]) (fun hf => hf) ?_
      refine (l.stored id withdrawal stored).rewrite rfl rfl (fun _ hun => ?_) fun hst =>
        ⟨hst, by simp [Resolves]⟩
      rcases hun.of_snoc with hx | ⟨-, hx⟩
      · simp [Holds] at hx
      · exact hx true ⟨⟨_, rfl⟩, rfl⟩
    | @cancelled id withdrawal stored held =>
      refine l.rewrite stored (by simp [Holds, Resolves]) rfl (by simp [paidId]) (fun hf => hf) ?_
      exact (l.stored id withdrawal stored).rewrite rfl rfl (fun hfree => absurd hfree held) nofun
    | @finalized id now withdrawal stored standing unpaid free elapsed =>
      refine l.rewrite stored (by simp [Holds, Resolves]) rfl (by simp [paidId, unpaid])
        (fun _ => rfl) ?_
      have t := l.stored id withdrawal stored
      exact t.rewrite rfl rfl (t.free_snoc (by simp [Holds])) fun hst => ⟨hst, by simp [Resolves]⟩

/-! ### Runs -/

/-- The events of a run of the registry. -/
def events (governance : Address) (threshold : ℤ) (window : ℕ) (calls : List (Call Address)) :
    List (Event Address) :=
  (run machine.answering (Challenges.new governance threshold window) calls).2

section Runs
variable {governance stakeholder : Address} {calls : List (Call Address)}
  {g l : List (Event Address)} {now : ℕ} {amount : ℤ}

/-- Where a run splits, the registry is one after the events before. -/
theorem ledger_at (hsplit : events governance threshold window calls = g ++ x :: l) :
    Ledger threshold window g x.pre ∧ machine x.pre x.call = (x.post, x.out) := by
  have hrun := run_trace machine.answering (Challenges.new governance threshold window) calls
  change Trace _ _ (events governance threshold window calls) _ at hrun
  rw [hsplit] at hrun
  obtain ⟨hist, answered, -⟩ := hrun.at_receipt
  rw [Machine.answering_eq_ok] at answered
  exact ⟨hist.history ledger_step (new_ledger governance threshold window), answered⟩

/-- What is paid was approved as it is paid, is not cancelled, is held by no challenge,
and its window is over. -/
theorem paid_of_finalize (hsplit : events governance threshold window calls = g ++ x :: l)
    (hcall : x.call = .finalize id now) (hout : x.out = .ok (.paid amount)) :
    (∃ at_, (∃ y ∈ g, Approves id amount at_ y) ∧
      (threshold ≤ amount → at_ + window ≤ maxU64 → at_ + window ≤ now)) ∧
      (∀ y ∈ g, ¬ Resolves id false y) ∧ ¬ Unresolved g id := by
  obtain ⟨ledger, answered⟩ := ledger_at hsplit
  obtain ⟨pre, call, out, post⟩ := x
  simp only at answered hcall hout ledger
  subst hcall hout
  cases machine_effect answered with
  | finalized stored standing unpaid free elapsed =>
    have t := ledger.stored id _ stored
    obtain ⟨at_, hend, happ⟩ := t.approved
    refine ⟨⟨at_, happ, fun hlarge hfits => ?_⟩, t.standing standing, t.free free⟩
    rw [hend, windowEnd, if_pos hlarge, u64SaturatingAdd, min_eq_left hfits] at elapsed
    exact elapsed

/-- A challenge comes from a registered stakeholder, before the window ends. -/
theorem challenged_in_time (hsplit : events governance threshold window calls = g ++ x :: l)
    (hcall : x.call = .challenge stakeholder id now) (hout : x.out = .ok .done) :
    (∃ y ∈ g, Registers stakeholder y) ∧
      ∃ amount at_, (∃ y ∈ g, Approves id amount at_ y) ∧
        now < windowEnd threshold window amount at_ := by
  obtain ⟨ledger, answered⟩ := ledger_at hsplit
  obtain ⟨pre, call, out, post⟩ := x
  simp only at answered hcall hout ledger
  subst hcall hout
  cases machine_effect answered with
  | @challenged _ _ _ withdrawal registered stored open_ =>
    obtain ⟨at_, hend, happ⟩ := (ledger.stored id _ stored).approved
    rw [hend] at open_
    exact ⟨ledger.registered stakeholder registered, withdrawal.amount, at_, happ, open_⟩

theorem refused_unchanged (hx : x ∈ events governance threshold window calls)
    {e : Fault ChallengeError} (hout : x.out = .error e) : x.post = x.pre := by
  obtain ⟨g, l, hsplit⟩ := List.mem_iff_append.mp hx
  obtain ⟨-, answered⟩ := ledger_at hsplit
  rw [hout] at answered
  exact handle_atomic x.call x.pre x.post e answered

end Runs

/-- Withdrawals with a challenge period. An id is approved once and paid once; what is
paid is the approved amount, never cancelled, never while a challenge is unresolved,
and from the threshold on not before the window after its approval is over. A
challenge comes from a registered stakeholder before the window ends, and a refused
call changes nothing. -/
theorem withdrawals_paid (governance : Address) (threshold : ℤ) (window : ℕ)
    (calls : List (Call Address)) :
    ((events governance threshold window calls).filterMap approvedId).Nodup ∧
      ((events governance threshold window calls).filterMap paidId).Nodup ∧
      (∀ g x l id now amount, events governance threshold window calls = g ++ x :: l →
        x.call = .finalize id now → x.out = .ok (.paid amount) →
        (∃ at_, (∃ y ∈ g, Approves id amount at_ y) ∧
          (threshold ≤ amount → at_ + window ≤ maxU64 → at_ + window ≤ now)) ∧
          (∀ y ∈ g, ¬ Resolves id false y) ∧ ¬ Unresolved g id) ∧
      (∀ g x l stakeholder id now, events governance threshold window calls = g ++ x :: l →
        x.call = .challenge stakeholder id now → x.out = .ok .done →
        (∃ y ∈ g, Registers stakeholder y) ∧
          ∃ amount at_, (∃ y ∈ g, Approves id amount at_ y) ∧
            now < windowEnd threshold window amount at_) ∧
      ∀ x ∈ events governance threshold window calls, ∀ e, x.out = .error e →
        x.post = x.pre := by
  have hrun := run_trace machine.answering (Challenges.new governance threshold window) calls
  have ledger := hrun.history ledger_step (new_ledger governance threshold window)
  refine ⟨ledger.approvedOnce.nodup, ledger.paidOnce.nodup, ?_, ?_, ?_⟩
  · intro g x l id now amount hsplit hcall hout
    exact paid_of_finalize hsplit hcall hout
  · intro g x l stakeholder id now hsplit hcall hout
    exact challenged_in_time hsplit hcall hout
  · intro x hx e hout
    exact refused_unchanged hx hout

end RefractContracts.Treasury.Challenges
