import RefractContracts.Shared.LossEvents

/-! Drawdown against loss events. Over a run the registry holds, of each event, the
guardians that attested it and the time at which they first met the threshold; so a
drawdown is authorised only against a declared amount, by a threshold of distinct
guardians, and once the delay after that time is over. -/

namespace RefractContracts.Shared.LossEvents

open Host

variable {Guardian : Type}

abbrev Event (Guardian : Type) := Answered (LossEvents Guardian) (Call Guardian) Answer LossError

def Declares (id : ℕ) (amount : ℤ) (x : Event Guardian) : Prop :=
  (∃ evidence now, x.call = .declare amount evidence now) ∧ x.out = .ok (.declared id)

/-- The guardian that attests the loss event `id`. -/
def attesterOf (id : ℕ) (x : Event Guardian) : Option Guardian :=
  match x.call, x.out with
  | .attest k guardian _, .ok _ => if k = id then some guardian else none
  | _, _ => none

section Attesters
variable [DecidableEq Guardian]

/-- The distinct guardians that attested the loss event `id`. -/
def attesters (h : List (Event Guardian)) (id : ℕ) : Finset Guardian :=
  (h.filterMap (attesterOf id)).toFinset

/-- The attestations of `id` first met the threshold at the time `at_`. -/
def FirstReached (threshold : ℕ) (h : List (Event Guardian)) (id at_ : ℕ) : Prop :=
  ∃ g x l, h = g ++ x :: l ∧ (∃ guardian, x.call = .attest id guardian at_) ∧
    (attesters g id).card < threshold ∧ threshold ≤ (attesters (g ++ [x]) id).card

variable {threshold id at_ : ℕ} {h : List (Event Guardian)} {x : Event Guardian}
  {guardian : Guardian}

theorem attesters_other (hx : attesterOf id x = none) :
    attesters (h ++ [x]) id = attesters h id := by
  simp [attesters, hx]

theorem attesters_snoc (hx : attesterOf id x = some guardian) :
    attesters (h ++ [x]) id = insert guardian (attesters h id) := by
  rw [attesters, attesters, List.filterMap_append, List.filterMap_cons_some hx,
    List.filterMap_nil, List.toFinset_append, List.toFinset_cons, List.toFinset_nil,
    Finset.union_comm]
  rfl

theorem FirstReached.snoc (hr : FirstReached threshold h id at_) (x : Event Guardian) :
    FirstReached threshold (h ++ [x]) id at_ := by
  rcases hr with ⟨g, y, l, rfl, hy⟩
  exact ⟨g, y, l ++ [x], by simp, hy⟩

/-- What is stored of a loss event. -/
structure Recorded (threshold : ℕ) (h : List (Event Guardian)) (id : ℕ)
    (event : LossEvent Guardian) : Prop where
  declared : ∃ x ∈ h, Declares id event.amount x
  attesters_eq : event.attesters.toFinset = attesters h id
  waiting : event.attestedAt = none → (attesters h id).card < threshold
  reached : ∀ at_, event.attestedAt = some at_ →
    FirstReached threshold h id at_ ∧ threshold ≤ (attesters h id).card

/-- The registry after the events `h`. -/
structure Registry (s : GuardianSet Guardian) (delay : ℕ) (h : List (Event Guardian))
    (c : LossEvents Guardian) : Prop where
  positive : 1 ≤ s.threshold
  guardians_eq : c.guardians = s
  delay_eq : c.delay = delay
  unused : ∀ id, c.nextId ≤ id → c.events id = none
  silent : ∀ id, c.events id = none → attesters h id = ∅
  members : ∀ id, attesters h id ⊆ s.guardians
  stored : ∀ id event, c.events id = some event → Recorded s.threshold h id event

theorem Recorded.keep {event : LossEvent Guardian} (r : Recorded threshold h id event)
    (hx : attesterOf id x = none) : Recorded threshold (h ++ [x]) id event where
  declared := by
    rcases r.declared with ⟨y, hy, hdecl⟩
    exact ⟨y, List.mem_append_left _ hy, hdecl⟩
  attesters_eq := r.attesters_eq.trans (attesters_other hx).symm
  waiting hnone := by
    rw [attesters_other hx]
    exact r.waiting hnone
  reached t ht := by
    rw [attesters_other hx]
    exact ⟨(r.reached t ht).1.snoc x, (r.reached t ht).2⟩

theorem new_registry {s : GuardianSet Guardian} (hs : s.Valid) (delay : ℕ) :
    Registry s delay [] (LossEvents.new s delay) where
  positive := hs.1
  guardians_eq := rfl
  delay_eq := rfl
  unused _ _ := rfl
  silent _ _ := rfl
  members _ := Finset.empty_subset _
  stored := nofun

end Attesters

variable [LinearOrder Guardian] {s : GuardianSet Guardian} {delay threshold id now : ℕ}
  {h : List (Event Guardian)} {x : Event Guardian} {event : LossEvent Guardian}
  {guardian : Guardian}

/-- Signers that are all guardians approve when there are enough of them. -/
theorem approves_iff {signers : List Guardian} (hsub : signers.toFinset ⊆ s.guardians) :
    s.approves signers ↔ s.threshold ≤ signers.toFinset.card := by
  have hall : signers.filter (· ∈ s.guardians) = signers := by
    apply List.filter_eq_self.mpr
    intro g hg
    exact decide_eq_true (hsub (List.mem_toFinset.mpr hg))
  rw [GuardianSet.approves, hall]

/-- One more attestation starts the clock exactly when it completes the threshold. -/
theorem Recorded.attest (r : Recorded s.threshold h id event)
    (hsub : insert guardian (attesters h id) ⊆ s.guardians)
    (hcall : x.call = .attest id guardian now) (hx : attesterOf id x = some guardian) :
    Recorded s.threshold (h ++ [x]) id (attestation s event guardian now) := by
  have hatt := attesters_snoc (h := h) hx
  have heq : (insertAttester guardian event.attesters).toFinset = attesters (h ++ [x]) id := by
    rw [toFinset_insertAttester, r.attesters_eq, hatt]
  have happroves : s.approves (insertAttester guardian event.attesters) ↔
      s.threshold ≤ (attesters (h ++ [x]) id).card := by
    rw [← heq]
    apply approves_iff
    rwa [heq, hatt]
  have hgrows : (attesters h id).card ≤ (attesters (h ++ [x]) id).card := by
    rw [hatt]
    exact Finset.card_le_card (Finset.subset_insert _ _)
  refine ⟨?_, ?_, ?_, ?_⟩
  · rcases r.declared with ⟨y, hy, hdecl⟩
    exact ⟨y, List.mem_append_left _ hy, hdecl⟩
  · exact heq
  · intro hnone
    simp only [attestation, happroves] at hnone
    split at hnone
    · cases hnone
    · next hfirst => exact not_le.mp fun hle => hfirst ⟨hnone, hle⟩
  · intro t ht
    simp only [attestation, happroves] at ht
    split at ht
    · next hfirst =>
      cases ht
      exact ⟨⟨h, x, [], rfl, ⟨guardian, hcall⟩, r.waiting hfirst.1, hfirst.2⟩, hfirst.2⟩
    · exact ⟨(r.reached t ht).1.snoc x, (r.reached t ht).2.trans hgrows⟩

section Registry
variable {c : LossEvents Guardian} (r : Registry s delay h c)
include r

/-- An event that attests nothing, and after which the registry is as before. -/
theorem Registry.keep (hx : ∀ id, attesterOf id x = none) : Registry s delay (h ++ [x]) c where
  positive := r.positive
  guardians_eq := r.guardians_eq
  delay_eq := r.delay_eq
  unused := r.unused
  silent id hid := (attesters_other (hx id)).trans (r.silent id hid)
  members id := by
    rw [attesters_other (hx id)]
    exact r.members id
  stored id ev hev := (r.stored id ev hev).keep (hx id)

/-- The id of a declaration is new, so no guardian attested it yet. -/
theorem Registry.recorded_new {amount : ℤ} {evidence : EvidenceHash}
    (hx : attesterOf c.nextId x = none) (hdecl : Declares c.nextId amount x) :
    Recorded s.threshold (h ++ [x]) c.nextId ⟨now, evidence, amount, [], none⟩ := by
  have hnone : attesters (h ++ [x]) c.nextId = ∅ := by
    rw [attesters_other hx]
    exact r.silent c.nextId (r.unused c.nextId le_rfl)
  refine ⟨⟨x, List.mem_append_right h (List.mem_singleton_self x), hdecl⟩, ?_, fun _ => ?_, nofun⟩
  · rw [hnone, List.toFinset_nil]
  · rw [hnone, Finset.card_empty]
    exact r.positive

theorem Registry.declare {amount : ℤ} {evidence : EvidenceHash}
    (hx : ∀ id, attesterOf id x = none) (hdecl : Declares c.nextId amount x) :
    Registry s delay (h ++ [x]) ({ c with nextId := c.nextId + 1 }.setEvent c.nextId
      ⟨now, evidence, amount, [], none⟩) where
  positive := r.positive
  guardians_eq := r.guardians_eq
  delay_eq := r.delay_eq
  unused id hid := by
    have hid' : c.nextId + 1 ≤ id := hid
    exact (Function.update_of_ne (by omega) _ _).trans (r.unused id (by omega))
  silent id hid := by
    have hne : id ≠ c.nextId := by
      rintro rfl
      simp [setEvent] at hid
    rw [attesters_other (hx id)]
    exact r.silent id ((Function.update_of_ne hne _ _).symm.trans hid)
  members id := by
    rw [attesters_other (hx id)]
    exact r.members id
  stored id ev hev := by
    rcases update_eq_some hev with ⟨rfl, rfl⟩ | ⟨-, hev⟩
    · exact r.recorded_new (hx _) hdecl
    · exact (r.stored id ev hev).keep (hx id)

theorem Registry.attest (member : guardian ∈ s.guardians) (hstored : c.events id = some event)
    (hcall : x.call = .attest id guardian now) (hself : attesterOf id x = some guardian)
    (hother : ∀ k ≠ id, attesterOf k x = none) :
    Registry s delay (h ++ [x]) (c.setEvent id (attestation s event guardian now)) where
  positive := r.positive
  guardians_eq := r.guardians_eq
  delay_eq := r.delay_eq
  unused k hk := absent_update (r.unused k hk) hstored
  silent k hk := by
    have hne : k ≠ id := by
      rintro rfl
      simp [setEvent] at hk
    rw [attesters_other (hother k hne)]
    exact r.silent k ((Function.update_of_ne hne _ _).symm.trans hk)
  members k := by
    by_cases hk : k = id
    · subst hk
      rw [attesters_snoc hself]
      exact Finset.insert_subset member (r.members k)
    · rw [attesters_other (hother k hk)]
      exact r.members k
  stored k ev hev := by
    rcases update_eq_some hev with ⟨rfl, rfl⟩ | ⟨hne, hev⟩
    · exact (r.stored k event hstored).attest
        (Finset.insert_subset member (r.members k)) hcall hself
    · exact (r.stored k ev hev).keep (hother k hne)

end Registry

theorem registry_step (h : List (Event Guardian)) (x : Event Guardian)
    (answered : machine.answering x.pre x.call = .ok (x.post, x.out))
    (r : Registry s delay h x.pre) : Registry s delay (h ++ [x]) x.post := by
  rw [Machine.answering_eq_ok] at answered
  obtain ⟨pre, call, out, post⟩ := x
  simp only at answered r ⊢
  cases out with
  | error e =>
    rw [handle_atomic call pre post e answered]
    exact r.keep fun id => by simp [attesterOf]
  | ok out =>
    cases machine_effect answered with
    | @declared amount evidence now => exact r.declare (fun _ => rfl) ⟨⟨evidence, now, rfl⟩, rfl⟩
    | @attested id guardian now event member stored =>
      rw [r.guardians_eq] at member ⊢
      exact r.attest member stored rfl (if_pos rfl) fun k hk => if_neg hk.symm

/-- A drawdown is authorised only against a declared amount, by a threshold of distinct
guardians, once the delay after the threshold was first reached is over. -/
theorem Registry.gates {c : LossEvents Guardian} {amount : ℤ} {u : Unit}
    (r : Registry s delay h c) (hok : c.authorizeDrawdown id amount now = .ok u) :
    0 < amount ∧ (∃ declared, amount ≤ declared ∧ ∃ x ∈ h, Declares id declared x) ∧
      attesters h id ⊆ s.guardians ∧ s.threshold ≤ (attesters h id).card ∧
      ∃ at_, FirstReached s.threshold h id at_ ∧ (at_ + delay ≤ maxU64 → at_ + delay ≤ now) := by
  simp only [authorizeDrawdown, bind_eq_ok, bail_eq_ok, okOr_eq_ok, not_le, not_lt] at hok
  obtain ⟨_, hpos, event, hstored, at_, hat, _, helapsed, hwithin⟩ := hok
  have hrec := r.stored id event hstored
  refine ⟨hpos, ⟨event.amount, hwithin, hrec.declared⟩, r.members id, (hrec.reached at_ hat).2,
    at_, (hrec.reached at_ hat).1, fun hfits => ?_⟩
  rw [r.delay_eq, u64SaturatingAdd, min_eq_left hfits] at helapsed
  exact helapsed

/-- Loss events are gated. Every run of changes keeps the threshold of a guardian set
between one and the number of guardians, and a refused change changes nothing; and a
registry built on the set authorises a drawdown only against a declared amount, by a
threshold of distinct guardians, once the delay after the threshold was first reached is
over. -/
theorem drawdown_gated {guardians : List Guardian} {threshold : ℕ} {s : GuardianSet Guardian}
    (hs : GuardianSet.new guardians threshold = .ok s)
    (changes : List (GuardianSet.Change Guardian)) :
    (1 ≤ (s.changed changes).threshold ∧
      (s.changed changes).threshold ≤ (s.changed changes).guardians.card) ∧
    (∀ x ∈ (run GuardianSet.machine.answering s changes).2, ∀ e, x.out = .error e →
      x.post = x.pre) ∧
    ∀ (delay : ℕ) (calls : List (Call Guardian)) (id : ℕ) (amount : ℤ) (now : ℕ),
      let r := run machine.answering (LossEvents.new (s.changed changes) delay) calls
      r.1.authorizeDrawdown id amount now = .ok () →
        0 < amount ∧ (∃ declared, amount ≤ declared ∧ ∃ x ∈ r.2, Declares id declared x) ∧
          attesters r.2 id ⊆ (s.changed changes).guardians ∧
          (s.changed changes).threshold ≤ (attesters r.2 id).card ∧
          ∃ at_, FirstReached (s.changed changes).threshold r.2 id at_ ∧
            (at_ + delay ≤ maxU64 → at_ + delay ≤ now) := by
  have hvalid := GuardianSet.changed_valid (GuardianSet.new_valid hs) changes
  refine ⟨hvalid, ?_, ?_⟩
  · intro x hx e hout
    have answered := (mem_run.mp hx).2
    rw [Machine.answering_eq_ok, hout] at answered
    exact GuardianSet.handle_atomic x.call x.pre x.post e answered
  · intro delay calls id amount now r hok
    have hregistry : Registry (s.changed changes) delay r.2 r.1 :=
      (run_trace _ _ calls).history registry_step (new_registry hvalid delay)
    exact hregistry.gates hok

/-- Two of three guardians attest; the second starts the clock. -/
def attested : List (Call ℕ) :=
  [.declare 100 (Vector.replicate 32 0) 5, .attest 0 1 10, .attest 0 1 12, .attest 0 3 20]

theorem attested_drawdown :
    ∃ at_, FirstReached 2
      (run machine.answering (LossEvents.new (GuardianSet.changed ⟨{1, 2}, 2⟩ [.add 3]) 50)
        attested).2 0 at_ ∧ (at_ + 50 ≤ maxU64 → at_ + 50 ≤ 70) := by
  have hnew : GuardianSet.new [1, 2] 2 = .ok ⟨{1, 2}, 2⟩ := rfl
  have hgated := (drawdown_gated hnew [.add 3]).2.2 50 attested 0 100 70 (by decide +kernel)
  exact hgated.2.2.2.2

end RefractContracts.Shared.LossEvents
