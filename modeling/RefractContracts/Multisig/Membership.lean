import RefractContracts.Host.History
import RefractContracts.Multisig.Authority

/-! Who can act. `add_owner` adds no owner twice, but `initialize` stores the list it
is given. If the list has no duplicate, the owners stay distinct and enough for the
threshold in every state. If it has one, they are not, and when its distinct owners
are too few for the threshold, nothing is ever forwarded. -/

namespace RefractContracts.Multisig

open Host

variable {Address : Type}

/-- The owners are distinct, and there are enough of them for the threshold. -/
structure Staffed (w : World Address) : Prop where
  nonempty : owners w ≠ []
  distinct : (owners w).Nodup
  pos : 1 ≤ threshold w
  le : threshold w ≤ (owners w).length

/-- A contract that was not initialized. -/
structure Blank (w : World Address) : Prop where
  owners : w.ownersEntry = none
  proposals : ∀ id, w.proposalEntry id = none

/-- The state after `initialize`. -/
def founded (w : World Address) (owners : List Address) (threshold : ℕ) : World Address :=
  { w with ownersEntry := some owners, thresholdEntry := some threshold, nextIdEntry := some 0 }

/-- What `initialize` accepts. -/
structure Founds (w : World Address) (owners : List Address) (threshold : ℕ) : Prop where
  first : w.ownersEntry = none
  some_owner : owners ≠ []
  pos : 0 < threshold
  le : threshold ≤ owners.length

/-- The call is an `initialize` that is accepted and lists an owner twice. -/
def RepeatsOwner (w : World Address) (tx : Transaction Address) : Prop :=
  ∃ owners threshold, tx.op = .initializeContract owners threshold ∧ Founds w owners threshold ∧
    ¬ owners.Nodup

theorem Founds.staffed {w : World Address} {os : List Address} {n : ℕ} (q : Founds w os n)
    (distinct : os.Nodup) : Staffed (founded w os n) :=
  ⟨q.some_owner, distinct, q.pos, q.le⟩

variable [DecidableEq Address] {self : Address} {w w' : World Address} {depth : ℕ}
  {tx : Transaction Address} {out : Answer}

omit [DecidableEq Address] in
theorem initializeContract_iff {os : List Address} {n : ℕ} :
    initializeContract w os n = .ok w' ↔ Founds w os n ∧ w' = founded w os n := by
  simp only [initializeContract, bind_eq_ok, bail_eq_ok, pure_eq_ok, not_or, not_lt,
    Option.not_isSome_iff_eq_none, List.isEmpty_iff]
  constructor
  · rintro ⟨-, first, -, ⟨hne, hpos, hle⟩, rfl⟩
    exact ⟨⟨first, hne, Nat.pos_of_ne_zero hpos, hle⟩, rfl⟩
  · rintro ⟨q, rfl⟩
    exact ⟨(), q.first, (), ⟨q.some_owner, q.pos.ne', q.le⟩, rfl⟩

/-- An `initialize` that is accepted founds the contract. -/
theorem Founds.accepted {os : List Address} {n : ℕ} (q : Founds w os n)
    (hop : tx.op = .initializeContract os n) :
    step self depth w tx = .ok (founded w os n, .unit) := by
  have h : initializeContract w os n = .ok (founded w os n) := initializeContract_iff.mpr ⟨q, rfl⟩
  cases depth <;>
    simp only [step, call, entry, hop, bind_eq_ok, pure_eq_ok] <;> exact ⟨_, h, rfl⟩

/-- Before `initialize`, nothing else has an effect. -/
theorem entry_blank {returns : ℕ → Bool} {signers : List Address} {op : Op Address}
    {deliver : World Address → Op Address → Call (World Address)} (b : Blank w)
    (hself : self ∉ signers) (h : entry self returns deliver signers w op = .ok (w', out)) :
    w' = w ∨ ∃ os n, op = .initializeContract os n ∧ Founds w os n ∧ w' = founded w os n := by
  cases op with
  | initializeContract os n =>
    simp only [entry, bind_eq_ok, pure_eq_ok, Prod.mk.injEq] at h
    obtain ⟨_, hinit, rfl, -⟩ := h
    exact .inr ⟨os, n, rfl, initializeContract_iff.mp hinit⟩
  | propose proposer target function args =>
    simp [entry, propose, requireOwner, b.owners] at h
  | approve caller id => simp [entry, approve, requireOwner, b.owners] at h
  | execute id => simp [entry, release, b.proposals id] at h
  | addOwner o => simp [entry, addOwner, hself] at h
  | removeOwner o => simp [entry, removeOwner, hself] at h
  | changeThreshold n => simp [entry, changeThreshold, hself] at h
  | view => exact .inl (Prod.mk.inj ((pure_eq_ok _ _).mp h)).1.symm

theorem step_blank (b : Blank w) (h : step self depth w tx = .ok (w', out)) :
    w' = w ∨ ∃ os n, tx.op = .initializeContract os n ∧ Founds w os n ∧ w' = founded w os n := by
  unfold step at h
  cases depth with
  | zero => exact entry_blank b (by simp) h
  | succ depth => exact entry_blank b (by simp) h

/-! ### Distinct owners -/

omit [DecidableEq Address] in
theorem threshold_getD (hpos : 1 ≤ threshold w) (n : ℕ) :
    w.thresholdEntry.getD n = threshold w := by
  cases h : w.thresholdEntry with
  | none => simp [threshold, h] at hpos
  | some t => simp [threshold, h]

/-- Among several distinct owners there is another than the one removed. -/
theorem filter_ne_nil {l : List Address} (distinct : l.Nodup) (several : 1 < l.length)
    (o : Address) : l.filter (· ≠ o) ≠ [] := by
  intro hnil
  have hsub : l ⊆ [o] := fun a ha => by
    have hno := List.filter_eq_nil_iff.mp hnil a ha
    simpa using hno
  have hle : l.length ≤ 1 := (distinct.subperm hsub).length_le
  omega

theorem Move.staffed (m : Move self w w') (s : Staffed w) : Staffed w' := by
  cases m with
  | initialized first => exact absurd (by simp [owners, first]) s.nonempty
  | proposed => exact ⟨s.nonempty, s.distinct, s.pos, s.le⟩
  | approved => exact ⟨s.nonempty, s.distinct, s.pos, s.le⟩
  | forwarded => exact ⟨s.nonempty, s.distinct, s.pos, s.le⟩
  | @ownerAdded o f new delivered =>
    refine ⟨List.concat_ne_nil o _, ?_, s.pos, ?_⟩
    · exact List.nodup_append'.mpr ⟨s.distinct, List.nodup_singleton o, by simpa using new⟩
    · exact s.le.trans (by simp [owners])
  | @ownerRemoved o f several delivered =>
    have hleft : (owners w).filter (· ≠ o) ≠ [] := filter_ne_nil s.distinct several o
    have hpos : 1 ≤ w.thresholdEntry.getD 1 := threshold_getD s.pos 1 ▸ s.pos
    exact ⟨hleft, s.distinct.filter _, le_min hpos (List.length_pos_of_ne_nil hleft),
      min_le_right _ _⟩
  | thresholdChanged pos le delivered => exact ⟨s.nonempty, s.distinct, pos, le⟩

theorem Moves.staffed (m : Moves self w w') (s : Staffed w) : Staffed w' := by
  induction m with
  | refl => exact s
  | tail _ last ih => exact last.staffed ih

/-- The owners are distinct and enough for the threshold in all states of exactly the
runs whose accepted `initialize` lists no owner twice. -/
theorem membership_iff (self : Address) (depth : ℕ) (txs : List (Transaction Address)) :
    let r := run (step self depth) (deployed Address)
    (∀ g l, txs = g ++ l → (r g).1.ownersEntry.isSome → Staffed (r g).1) ↔
      ∀ g tx l, txs = g ++ tx :: l → ¬ RepeatsOwner (r g).1 tx := by
  intro r
  constructor
  · rintro hstaffed g tx l rfl ⟨os, n, hop, q, hrepeat⟩
    have accepted : step self depth (r g).1 tx = .ok (founded (r g).1 os n, .unit) := q.accepted hop
    have hstate : (r (g ++ [tx])).1 = founded (r g).1 os n :=
      congrArg Prod.fst (run_accepted accepted)
    have hlast := hstaffed (g ++ [tx]) l (by simp)
    rw [hstate] at hlast
    exact hrepeat (hlast rfl).distinct
  · intro hkept
    suffices h : ∀ g l, txs = g ++ l → Blank (r g).1 ∨ Staffed (r g).1 by
      intro g l hsplit hsome
      refine (h g l hsplit).resolve_left fun b => ?_
      simp [b.owners] at hsome
    intro g
    induction g using List.reverseRecOn with
    | nil => exact fun _ _ => .inl ⟨rfl, fun _ => rfl⟩
    | append_singleton g tx ih =>
      rintro l rfl
      have before := ih (tx :: l) (by simp)
      have hnot := hkept g tx l (by simp)
      rw [show r (g ++ [tx]) = _ from run_snoc _ g tx]
      unfold commit
      split
      · next w' out accepted =>
        rcases before with b | s
        · rcases step_blank b accepted with rfl | ⟨os, n, hop, q, rfl⟩
          · exact .inl b
          · exact .inr (q.staffed (not_not.mp fun hrepeat => hnot ⟨os, n, hop, q, hrepeat⟩))
        · exact .inr ((step_moves accepted).staffed s)
      · exact before

/-- One address is listed twice. It removes itself, and no owner is left. -/
def listedTwice : List (Transaction ℕ) :=
  [⟨[], .initializeContract [1, 1] 1, fun _ => true⟩,
    ⟨[1], .propose 1 0 "remove_owner" [.address 1], fun _ => true⟩,
    ⟨[], .execute 0, fun _ => true⟩]

theorem listedTwice_unstaffed :
    let r := run (step 0 1) (deployed ℕ)
    owners (r (listedTwice.take 1)).1 = [1, 1] ∧ ¬ Staffed (r (listedTwice.take 1)).1 ∧
      owners (r listedTwice).1 = [] ∧ threshold (r listedTwice).1 = 0 := by
  intro r
  have htwice : owners (r (listedTwice.take 1)).1 = [1, 1] := by decide +kernel
  refine ⟨htwice, fun s => ?_, by decide +kernel, by decide +kernel⟩
  have hdistinct := s.distinct
  rw [htwice] at hdistinct
  exact absurd hdistinct (by decide)

/-! ### Too few distinct owners -/

/-- The distinct owners cannot reach the threshold, and nothing was forwarded. -/
structure Locked (w : World Address) : Prop where
  founded : w.ownersEntry ≠ none
  few : (owners w).toFinset.card < threshold w
  current : Current w
  none_sent : w.sent = []

theorem Locked.not_delivered (k : Locked w) {op : Op Address} {f : Forwarded Address}
    (d : Delivered self w op f) : False := by
  have hlast := d.last
  rw [k.none_sent] at hlast
  cases hlast

theorem Move.locked (m : Move self w w') (k : Locked w) : Locked w' := by
  have current : w'.sent = [] → Current w' := fun h => m.current (by simp [h]) k.current
  cases m with
  | initialized first => exact absurd first k.founded
  | proposed => exact ⟨k.founded, k.few, current k.none_sent, k.none_sent⟩
  | approved => exact ⟨k.founded, k.few, current k.none_sent, k.none_sent⟩
  | @forwarded id p found pending enough =>
    have hcard : p.approvals.toFinset.card = p.approvals.length :=
      List.toFinset_card_of_nodup (k.current.distinct id p found pending)
    have hsub : p.approvals.toFinset ⊆ (owners w).toFinset := fun a ha =>
      List.mem_toFinset.mpr (k.current.owned id p found pending a (List.mem_toFinset.mp ha))
    have hle := Finset.card_le_card hsub
    have hfew := k.few
    omega
  | ownerAdded new delivered => exact (k.not_delivered delivered).elim
  | ownerRemoved several delivered => exact (k.not_delivered delivered).elim
  | thresholdChanged pos le delivered => exact (k.not_delivered delivered).elim

theorem Moves.locked (m : Moves self w w') (k : Locked w) : Locked w' := by
  induction m with
  | refl => exact k
  | tail _ last ih => exact last.locked ih

/-- A contract initialized with fewer distinct owners than its threshold never forwards
a proposal. -/
theorem nothing_forwarded (self : Address) (depth : ℕ) {os : List Address} {n : ℕ}
    (hop : tx.op = .initializeContract os n) (hne : os ≠ []) (hle : n ≤ os.length)
    (hfew : os.toFinset.card < n) (txs : List (Transaction Address)) :
    (run (step self depth) (deployed Address) (tx :: txs)).1.sent = [] := by
  have q : Founds (deployed Address) os n := ⟨rfl, hne, by omega, hle⟩
  have k : Locked (founded (deployed Address) os n) := ⟨nofun, hfew, ⟨nofun, nofun, nofun⟩, rfl⟩
  rw [run_cons, after_ok (q.accepted hop)]
  exact (run_invariant (fun _ hx => (step_moves hx).locked) k txs).none_sent

end RefractContracts.Multisig
