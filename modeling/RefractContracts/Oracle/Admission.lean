import RefractContracts.Host.History
import RefractContracts.Host.Storage
import RefractContracts.Oracle.Effects

/-! Who may submit. An entry in the queue stands for the latest queueing of a relayer
without a removal since, and a place in the list of active relayers for such a
queueing with an activation after the notice period. A removal takes both away, so a
submission has a whole admission behind it. -/

namespace RefractContracts.Oracle

open Host

variable {Address : Type}

abbrev Event (Address : Type) := Receipt (World Address) (Transaction Address) Unit

/-- The call put `relayer` in the queue; for an active relayer it does nothing. -/
def queues (relayer : Address) (x : Event Address) : Prop :=
  x.call.op = .addRelayer relayer ∧ relayer ∉ relayers x.pre

def activates (relayer : Address) (x : Event Address) : Prop :=
  x.call.op = .activateRelayer relayer

def removes (relayer : Address) (x : Event Address) : Prop :=
  x.call.op = .removeRelayer relayer

instance [DecidableEq Address] (relayer : Address) (x : Event Address) :
    Decidable (activates relayer x) := inferInstanceAs (Decidable (_ = _))

/-- `q` is the latest queueing of `relayer`, who was not removed since. -/
structure Queued (relayer : Address) (h : List (Event Address)) (q : Event Address)
    (since : List (Event Address)) : Prop extends Latest (queues relayer) h q since where
  kept : ∀ y ∈ since, ¬ removes relayer y

/-- At time `t` the relayer is active on its latest queueing: it was activated with
the notice period over, and not removed since the queueing. -/
def Admitted (relayer : Address) (h : List (Event Address)) (t : ℕ) : Prop :=
  ∃ q since a, Queued relayer h q since ∧ a ∈ since ∧ activates relayer a ∧
    q.pre.now + minAdditionNoticePeriodSecs ≤ a.pre.now ∧ a.pre.now ≤ t

/-- What the queue and the list of relayers say about the history. -/
structure Admissions (h : List (Event Address)) (w : World Address) : Prop where
  pending : ∀ relayer queuedAt, w.pendingRelayerEntry relayer = some queuedAt →
    ∃ q since, Queued relayer h q since ∧ q.pre.now = queuedAt
  active : ∀ relayer ∈ relayers w, ∃ q since a, Queued relayer h q since ∧ a ∈ since ∧
    activates relayer a ∧ u64SaturatingAdd q.pre.now minAdditionNoticePeriodSecs ≤ a.pre.now

variable {h since : List (Event Address)} {q x : Event Address} {relayer : Address}
  {w : World Address}

theorem Queued.of_snoc (hx : queues relayer x) : Queued relayer (h ++ [x]) x [] :=
  ⟨Latest.of_snoc h hx, List.forall_mem_nil _⟩

theorem Queued.snoc (hq : Queued relayer h q since) (hadd : ¬ queues relayer x)
    (hremove : ¬ removes relayer x) : Queued relayer (h ++ [x]) q (since ++ [x]) :=
  ⟨hq.toLatest.snoc hadd, forall_mem_snoc hq.kept hremove⟩

/-- The queue entry of a relayer that the call neither queues nor removes. -/
theorem Admissions.pending_snoc (i : Admissions h w) {queuedAt : ℕ}
    (hr : w.pendingRelayerEntry relayer = some queuedAt) (hadd : ¬ queues relayer x)
    (hremove : ¬ removes relayer x) :
    ∃ q since, Queued relayer (h ++ [x]) q since ∧ q.pre.now = queuedAt := by
  obtain ⟨q, since, hq, htime⟩ := i.pending relayer queuedAt hr
  exact ⟨q, since ++ [x], hq.snoc hadd hremove, htime⟩

/-- The place of an active relayer that the call does not remove. -/
theorem Admissions.active_snoc (i : Admissions h w) (hr : relayer ∈ relayers w)
    (hadd : ¬ queues relayer x) (hremove : ¬ removes relayer x) :
    ∃ q since a, Queued relayer (h ++ [x]) q since ∧ a ∈ since ∧ activates relayer a ∧
      u64SaturatingAdd q.pre.now minAdditionNoticePeriodSecs ≤ a.pre.now := by
  obtain ⟨q, since, a, hq, ha, hact, hripe⟩ := i.active relayer hr
  exact ⟨q, since ++ [x], a, hq.snoc hadd hremove, List.mem_append_left _ ha, hact, hripe⟩

/-- A call that neither queues nor removes anyone, and leaves both lists. -/
theorem Admissions.keep {w' : World Address} (i : Admissions h w)
    (hadd : ∀ r, ¬ queues r x) (hremove : ∀ r, ¬ removes r x)
    (hpending : w'.pendingRelayerEntry = w.pendingRelayerEntry)
    (hrelayers : relayers w' = relayers w) : Admissions (h ++ [x]) w' where
  pending r _ hr := i.pending_snoc (hpending ▸ hr) (hadd r) (hremove r)
  active r hr := i.active_snoc (hrelayers ▸ hr) (hadd r) (hremove r)

variable [DecidableEq Address]

theorem admissions_step (h : List (Event Address)) (x : Event Address)
    (accepted : step x.pre x.call = .ok (x.post, x.out)) (i : Admissions h x.pre) :
    Admissions (h ++ [x]) x.post := by
  have e := step_effect accepted
  obtain ⟨pre, ⟨signers, op⟩, out, post⟩ := x
  simp only at e i ⊢
  cases e with
  | initialized =>
    refine ⟨fun _ _ hr => ?_, List.forall_mem_nil _⟩
    exact i.pending_snoc hr (fun hq => by cases hq.1) (fun hq => by cases hq)
  | alreadyActive active =>
    exact i.keep (fun r hr => hr.2 (Op.addRelayer.inj hr.1 ▸ active))
      (fun _ hr => by cases hr) rfl rfl
  | @queued added inactive =>
    refine ⟨fun r t hr => ?_, fun r hr => ?_⟩
    · rcases update_eq_some hr with ⟨rfl, rfl⟩ | ⟨hne, hr⟩
      · exact ⟨_, [], .of_snoc ⟨rfl, inactive⟩, rfl⟩
      · exact i.pending_snoc hr (fun hq => hne (Op.addRelayer.inj hq.1).symm)
          (fun hq => by cases hq)
    · refine i.active_snoc hr (fun hq => ?_) (fun hq => by cases hq)
      exact inactive (Op.addRelayer.inj hq.1 ▸ hr)
  | @activated promoted queuedAt found ripe inactive =>
    set x : Event Address := ⟨pre, ⟨signers, .activateRelayer promoted⟩, _, _⟩
    have hadd : ∀ r, ¬ queues r x := fun _ hq => by cases hq.1
    have hremove : ∀ r, ¬ removes r x := fun _ hq => by cases hq
    refine ⟨fun r t hr => ?_, fun r hr => ?_⟩
    · by_cases hr' : r = promoted
      · simp [hr'] at hr
      · exact i.pending_snoc ((Function.update_of_ne hr' _ _).symm.trans hr) (hadd r) (hremove r)
    · rcases List.mem_append.mp hr with hr | hr
      · exact i.active_snoc hr (hadd r) (hremove r)
      · obtain rfl := List.mem_singleton.mp hr
        obtain ⟨q, since, hq, rfl⟩ := i.pending r queuedAt found
        exact ⟨q, _, _, hq.snoc (hadd r) (hremove r),
          List.mem_append_right _ (List.mem_singleton_self _), rfl, ripe⟩
  | @cleared promoted queuedAt found active =>
    set x : Event Address := ⟨pre, ⟨signers, .activateRelayer promoted⟩, _, _⟩
    have hadd : ∀ r, ¬ queues r x := fun _ hq => by cases hq.1
    have hremove : ∀ r, ¬ removes r x := fun _ hq => by cases hq
    refine ⟨fun r t hr => ?_, fun r hr => i.active_snoc hr (hadd r) (hremove r)⟩
    by_cases hr' : r = promoted
    · simp [hr'] at hr
    · exact i.pending_snoc ((Function.update_of_ne hr' _ _).symm.trans hr) (hadd r) (hremove r)
  | @removed dropped =>
    refine ⟨fun r t hr => ?_, fun r hr => ?_⟩
    · by_cases hr' : r = dropped
      · simp [hr'] at hr
      · exact i.pending_snoc ((Function.update_of_ne hr' _ _).symm.trans hr)
          (fun hq => by cases hq.1) fun hq => hr' (Op.removeRelayer.inj hq).symm
    · obtain ⟨hr, hne⟩ := List.mem_filter.mp hr
      refine i.active_snoc hr (fun hq => by cases hq.1) fun hq => ?_
      exact (of_decide_eq_true hne) (Op.removeRelayer.inj hq).symm
  | @administered op admin pending thresholds metadata kind =>
    have hadd : ∀ r, op ≠ .addRelayer r := by rintro r rfl; exact kind
    have hremove : ∀ r, op ≠ .removeRelayer r := by rintro r rfl; exact kind
    exact i.keep (fun r hr => hadd r hr.1) (fun r hr => hremove r hr) rfl rfl
  | _ => exact i.keep (fun _ hq => by cases hq.1) (fun _ hq => by cases hq) rfl rfl

theorem admissions_trace {now : ℕ} {w : World Address}
    (tr : Trace step (deployed Address now) h w) : Admissions h w :=
  tr.history admissions_step ⟨nofun, List.forall_mem_nil _⟩

/-- Only admitted relayers submit: the latest queueing was followed by an activation
after the notice period and by no removal. -/
theorem submission_admitted (now : ℕ) (txs : List (Transaction Address))
    (hclock : (run step (deployed Address now) txs).1.now < maxU64 - minAdditionNoticePeriodSecs) :
    ∀ g x l, (run step (deployed Address now) txs).2 = g ++ x :: l →
      ∀ relayer feedId value timestamp source,
        x.call.op = .submit relayer feedId value timestamp source →
          Admitted relayer g x.pre.now := by
  intro g x l hsplit relayer feedId value timestamp source hop
  have tr := run_trace step (deployed Address now) txs
  have mono : ∀ y : Event Address, step y.pre y.call = .ok (y.post, y.out) →
      y.pre.now ≤ y.post.now := fun y hy => (step_effect hy).now_le
  have hlast := (tr.le_end mono).2 x (by rw [hsplit]; simp)
  rw [hsplit] at tr
  obtain ⟨before, accepted, -⟩ := tr.at_receipt
  have hpast := (before.le_end mono).2
  have hactive : relayer ∈ relayers x.pre := by
    have e := step_effect accepted
    rw [hop] at e
    generalize x.post = post at e
    cases e with
    | submitted active => exact active
    | administered kind => cases kind
  obtain ⟨q, since, a, hq, ha, hact, hripe⟩ := (admissions_trace before).active relayer hactive
  have hafter : a ∈ g := by
    obtain ⟨g', rfl⟩ := hq.split
    exact List.mem_append_right _ (List.mem_cons_of_mem _ ha)
  have hqueued := hpast q hq.mem
  refine ⟨q, since, a, hq, ha, hact, ?_, hpast a hafter⟩
  rwa [u64SaturatingAdd, min_eq_left (by omega)] at hripe

/-- A relayer is queued, removed, queued again and activated, and submits. -/
def queuedTwice : List (Transaction ℕ) :=
  [⟨[1], .initializeContract 1⟩, ⟨[1], .addRelayer 2⟩, ⟨[], .advance 100⟩,
    ⟨[1], .removeRelayer 2⟩, ⟨[1], .addRelayer 2⟩, ⟨[], .advance 172800⟩,
    ⟨[], .activateRelayer 2⟩, ⟨[2], .submit 2 "USDC" 7 172900 "relay"⟩]

theorem submission_admitted_queuedTwice :
    let r := run step (deployed ℕ 0) queuedTwice
    r.2.length = 8 ∧ ∀ g x l, r.2 = g ++ x :: l → ∀ relayer feedId value timestamp source,
      x.call.op = .submit relayer feedId value timestamp source → Admitted relayer g x.pre.now :=
  ⟨by decide +kernel, submission_admitted 0 queuedTwice (by decide +kernel)⟩

end RefractContracts.Oracle
