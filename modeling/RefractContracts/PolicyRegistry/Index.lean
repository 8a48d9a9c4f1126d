import RefractContracts.Host.History
import RefractContracts.Host.Journal
import RefractContracts.PolicyRegistry.Effects

/-! The indexes of the policy registry. The counters are totals over the stored
records, and a holder's list is the page of the registrations under that holder. A
record is active until its one deactivation, so the saturating counter of active
policies never saturates. -/

namespace RefractContracts.PolicyRegistry

open Host

variable {Address : Type}

/-- What a record was registered as. -/
def PolicyRecord.registration (record : PolicyRecord Address) : PolicyRegistration Address :=
  ⟨record.policyId, record.holder, record.coverageType, record.coverageAmount, record.premium,
    record.expiresAt⟩

def PolicyRecord.activeCount (record : PolicyRecord Address) : ℤ :=
  if record.isActive then 1 else 0

/-- The registration that an operation asks for. -/
def Op.registration : Op Address → Option (PolicyRegistration Address)
  | .registerPolicy _ reg => some reg
  | _ => none

/-- The registrations of the accepted calls, in their order. -/
def registered (h : List (Event Address)) : List (PolicyRegistration Address) :=
  h.filterMap fun x => x.call.op.registration

abbrev Registrations (Address : Type) : Type :=
  Journal (PolicyRegistration.policyId : PolicyRegistration Address → ℕ)

/-- The record of `id` is stored and active. -/
def IsActive (w : World Address) (id : ℕ) : Prop :=
  ∃ record, w.policyEntry id = some record ∧ record.isActive = true

variable [DecidableEq Address]

/-- The storage keeps the registrations `j`. -/
structure Indexes (w : World Address) (j : Registrations Address) : Prop where
  total : HasTotal (valueAt w.policyEntry fun _ => 1) (totalPolicies w)
  active : HasTotal (valueAt w.policyEntry PolicyRecord.activeCount) (activePolicies w)
  premium : HasTotal (valueAt w.policyEntry PolicyRecord.premium) (totalPremium w)
  holders : ∀ holder, getHolderPolicyIds w holder =
    (Journal.page PolicyRegistration.holder j.entries holder).map PolicyRegistration.policyId
  records : ∀ id record, w.policyEntry id = some record →
    record.policyId = id ∧ record.registration ∈ j.entries
  stored : ∀ reg ∈ j.entries, ∃ record, w.policyEntry reg.policyId = some record ∧
    record.registration = reg
  unmanaged : w.adminEntry = none →
    totalPolicies w = 0 ∧ activePolicies w = 0 ∧ totalPremium w = 0

variable {w w' : World Address} {j : Registrations Address} {out : ℕ}

theorem holderPolicyIds_register (w : World Address) (reg : PolicyRegistration Address)
    (holder : Address) : getHolderPolicyIds (w.register reg) holder =
      getHolderPolicyIds w holder ++ if holder = reg.holder then [reg.policyId] else [] := by
  simp only [getHolderPolicyIds, World.register, Function.update_apply]
  split_ifs with hh <;> simp [hh]

/-- A free id has no registration. -/
theorem Indexes.fresh (i : Indexes w j) {id : ℕ} (h : w.policyEntry id = none) :
    id ∉ j.entries.map PolicyRegistration.policyId := by
  rintro hid
  obtain ⟨reg, hreg, rfl⟩ := List.mem_map.mp hid
  obtain ⟨record, hrecord, -⟩ := i.stored reg hreg
  rw [h] at hrecord
  cases hrecord

theorem Indexes.register (i : Indexes w j) {reg : PolicyRegistration Address}
    (managed : w.adminEntry.isSome) (fresh : w.policyEntry reg.policyId = none) :
    Indexes (w.register reg) (j.add reg (i.fresh fresh)) where
  total := by exact_mod_cast i.total.insert fresh (reg.record w.now)
  active := by exact_mod_cast i.active.insert fresh (reg.record w.now)
  premium := i.premium.insert fresh (reg.record w.now)
  holders holder := by
    rw [holderPolicyIds_register, i.holders, Journal.add, Journal.page_snoc, Function.update_apply]
    split_ifs with hh
    · simp [hh]
    · simp
  records id record h := by
    rcases update_eq_some h with ⟨rfl, rfl⟩ | ⟨-, hold⟩
    · exact ⟨rfl, List.mem_append_right _ (List.mem_singleton.mpr rfl)⟩
    · have hkept := i.records id record hold
      exact ⟨hkept.1, List.mem_append_left _ hkept.2⟩
  stored old hold := by
    rcases List.mem_append.mp hold with hold | hold
    · obtain ⟨record, hrecord, heq⟩ := i.stored old hold
      exact ⟨record, (Function.update_of_ne (ne_of_absent fresh hrecord) _ _).trans hrecord, heq⟩
    · obtain rfl := List.mem_singleton.mp hold
      exact ⟨old.record w.now, Function.update_self _ _ _, rfl⟩
  unmanaged h := by simp [show w.adminEntry = none from h] at managed

/-- An active record is counted, so the counter does not saturate. -/
theorem Indexes.active_pos (i : Indexes w j) {id : ℕ} (h : IsActive w id) :
    1 ≤ activePolicies w := by
  obtain ⟨record, hrecord, hactive⟩ := h
  have hle := i.active.single_le
    (valueAt_nonneg fun _ record _ => by unfold PolicyRecord.activeCount; split <;> omega) id
  rw [valueAt_some hrecord, PolicyRecord.activeCount, if_pos hactive] at hle
  exact_mod_cast hle

theorem Indexes.deactivate (i : Indexes w j) {id : ℕ} {record : PolicyRecord Address}
    (stored : w.policyEntry id = some record) (active : record.isActive = true) :
    Indexes (w.deactivate id record) j := by
  have hpos := i.active_pos ⟨record, stored, active⟩
  refine ⟨?_, ?_, ?_, i.holders, fun k other h => ?_, fun reg hreg => ?_, fun h => ?_⟩
  · refine (i.total.replace stored { record with isActive := false }).congr (fun _ => rfl) ?_
    simp [totalPolicies, World.deactivate]
  · refine (i.active.replace stored { record with isActive := false }).congr (fun _ => rfl) ?_
    simp only [PolicyRecord.activeCount, active, if_true, Bool.false_eq_true, if_false]
    simp only [activePolicies, World.deactivate, Option.getD_some] at hpos ⊢
    omega
  · refine (i.premium.replace stored { record with isActive := false }).congr (fun _ => rfl) ?_
    simp [totalPremium, World.deactivate]
  · rcases update_eq_some h with ⟨rfl, rfl⟩ | ⟨-, h⟩
    · exact i.records k record stored
    · exact i.records k other h
  · obtain ⟨old, hold, heq⟩ := i.stored reg hreg
    rcases stored_update hold stored { record with isActive := false } with
      ⟨-, rfl, h⟩ | ⟨-, h⟩
    · exact ⟨_, h, heq⟩
    · exact ⟨old, h, heq⟩
  · have hzero := (i.unmanaged h).2.1
    omega

theorem Effect.indexes {op : Op Address} (e : Effect w w' op out) (i : Indexes w j) :
    ∃ j' : Registrations Address,
      j'.entries = j.entries ++ op.registration.toList ∧ Indexes w' j' := by
  cases e with
  | initialized first =>
    obtain ⟨htotal, hactive, hpremium⟩ := i.unmanaged first
    refine ⟨j, by simp [Op.registration], ?_, ?_, ?_, i.holders, i.records, i.stored, nofun⟩
    · exact i.total.congr (fun _ => rfl) (by rw [htotal]; rfl)
    · exact i.active.congr (fun _ => rfl) (by rw [hactive]; rfl)
    · exact i.premium.congr (fun _ => rfl) (by rw [hpremium]; rfl)
  | registered managed trusted fresh => exact ⟨_, rfl, i.register managed fresh⟩
  | deactivated trusted stored active =>
    exact ⟨j, by simp [Op.registration], i.deactivate stored active⟩
  | administered kind managed =>
    refine ⟨j, ?_, i.total, i.active, i.premium, i.holders, i.records, i.stored, fun h => ?_⟩
    · cases op <;> simp_all [Op.registration, Op.Handover]
    · simp only at h
      simp [h] at managed
  | _ =>
    exact ⟨j, by simp [Op.registration], i.total, i.active, i.premium, i.holders, i.records,
      i.stored, i.unmanaged⟩

/-! ### Runs -/

theorem indexes_run (now : ℕ) (txs : List (Transaction Address)) :
    ∃ j : Registrations Address,
      j.entries = registered (run step (deployed Address now) txs).2 ∧
        Indexes (run step (deployed Address now) txs).1 j := by
  refine (run_trace step (deployed Address now) txs).history
    (I := fun h w => ∃ j : Registrations Address, j.entries = registered h ∧ Indexes w j)
    (fun h x accepted ⟨j, hj, i⟩ => ?_) ?_
  · obtain ⟨j', hj', i'⟩ := (step_effect accepted).indexes i
    refine ⟨j', ?_, i'⟩
    rw [hj', hj, registered, registered, List.filterMap_append]
    cases hreg : x.call.op.registration <;> simp [hreg]
  · exact ⟨Journal.empty _, rfl, .zero, .zero, .zero, fun _ => rfl, nofun, nofun,
      fun _ => ⟨rfl, rfl, rfl⟩⟩

/-- The counters, the holders' lists and the stored records after the history `h`. -/
structure Consistent (h : List (Event Address)) (w : World Address) : Prop where
  total : HasTotal (valueAt w.policyEntry fun _ => 1) (totalPolicies w)
  active : HasTotal (valueAt w.policyEntry PolicyRecord.activeCount) (activePolicies w)
  premium : HasTotal (valueAt w.policyEntry PolicyRecord.premium) (totalPremium w)
  order : ∀ holder, getHolderPolicyIds w holder =
    ((registered h).filter (·.holder = holder)).map PolicyRegistration.policyId
  nodup : ∀ holder, (getHolderPolicyIds w holder).Nodup
  held : ∀ holder id, id ∈ getHolderPolicyIds w holder ↔
    ∃ record, w.policyEntry id = some record ∧ record.holder = holder
  activeIds : ∀ holder, (getHolderActivePolicyIds w holder).Sublist (getHolderPolicyIds w holder) ∧
    ∀ id, id ∈ getHolderActivePolicyIds w holder ↔
      id ∈ getHolderPolicyIds w holder ∧ IsActive w id

theorem Indexes.held (i : Indexes w j) (holder : Address) (id : ℕ) :
    id ∈ getHolderPolicyIds w holder ↔
      ∃ record, w.policyEntry id = some record ∧ record.holder = holder := by
  rw [i.holders, List.mem_map]
  constructor
  · rintro ⟨reg, hreg, rfl⟩
    obtain ⟨hmem, hholder⟩ := List.mem_filter.mp hreg
    obtain ⟨record, hrecord, rfl⟩ := i.stored reg hmem
    exact ⟨record, hrecord, of_decide_eq_true hholder⟩
  · rintro ⟨record, hrecord, rfl⟩
    obtain ⟨rfl, hmem⟩ := i.records id record hrecord
    exact ⟨record.registration, List.mem_filter.mpr ⟨hmem, by simp [PolicyRecord.registration]⟩,
      rfl⟩

omit [DecidableEq Address] in
theorem mem_getHolderActivePolicyIds {holder : Address} {id : ℕ} :
    id ∈ getHolderActivePolicyIds w holder ↔ id ∈ getHolderPolicyIds w holder ∧ IsActive w id := by
  rw [getHolderActivePolicyIds, List.mem_filter, IsActive]
  cases w.policyEntry id <;> simp

/-- The deactivation of a policy that is not active leaves the state as it is. -/
theorem deactivatePolicy_idle {tx : Transaction Address} {caller : Address} {policyId : ℕ}
    (hop : tx.op = .deactivatePolicy caller policyId) (hidle : ¬ IsActive w policyId) :
    after step w tx = w := by
  cases hstep : step w tx with
  | error e => exact after_error hstep
  | ok r =>
    obtain ⟨w', out⟩ := r
    rw [after_ok hstep]
    have e := step_effect hstep
    rw [hop] at e
    cases e with
    | deactivated trusted stored active => exact absurd ⟨_, stored, active⟩ hidle
    | idle => rfl
    | administered kind => exact absurd kind (by simp [Op.Handover])

/-- In every run the counters and the holders' lists describe the stored records, and
deactivating an inactive policy changes nothing. -/
theorem registry_counts (now : ℕ) (txs : List (Transaction Address)) :
    let r := run step (deployed Address now) txs
    Consistent r.2 r.1 ∧
      ∀ tx caller policyId, tx.op = .deactivatePolicy caller policyId →
        ¬ IsActive r.1 policyId → after step r.1 tx = r.1 := by
  intro r
  obtain ⟨j, hj, i⟩ := indexes_run now txs
  refine ⟨⟨i.total, i.active, i.premium, fun holder => ?_, fun holder => ?_, i.held, fun holder =>
    ⟨List.filter_sublist, fun id => mem_getHolderActivePolicyIds⟩⟩,
    fun tx caller policyId hop hidle => deactivatePolicy_idle hop hidle⟩
  · rw [i.holders, hj]
    rfl
  · rw [i.holders]
    exact j.distinct.sublist (List.Sublist.map _ List.filter_sublist)

end RefractContracts.PolicyRegistry
