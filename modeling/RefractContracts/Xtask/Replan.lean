import RefractContracts.Xtask.Actions

/-! Plans of one file compared. Listing the records in another order gives the same actions.
Once some of the imports of a plan are on chain, planning again imports the other ones. The
generator meets this for an accepted file with sums in range if and only if the amounts of
the actions can be written. -/

namespace RefractContracts.Xtask

open Host

section Plans
variable {integers : JsonIntegers} {input : LegacyInputFile} {state later : StateProvider}
  {config : GeneratorConfig} {plan : MigrationPlan}

/-! ### One outline -/

/-- A plan has one outline. -/
theorem Outline.actions_eq (o o' : Outline input state) : o.actions = o'.actions := by
  have hassets : o.assets = o'.assets := o.assets_sorted.eq_of_mem_iff o'.assets_sorted fun asset =>
    (o.mem_assets asset).trans (o'.mem_assets asset).symm
  have hbounties : o.bounties = o'.bounties := eq_of_perm_of_sorted
    (o.bounties_perm.trans o'.bounties_perm.symm) o.bounties_sorted o'.bounties_sorted
  have hgrants : o.grants = o'.grants := eq_of_perm_of_sorted
    (o.grants_perm.trans o'.grants_perm.symm) o.grants_sorted o'.grants_sorted
  rw [Outline.actions, Outline.actions, hassets, hbounties, hgrants]

/-! ### Another order of the records -/

/-- The file with other lists of records. -/
def LegacyInputFile.relist (input : LegacyInputFile) (bounties : List LegacyBountyRecord)
    (grants : List LegacyGrantRecord) : LegacyInputFile :=
  { input with bounties := bounties, grants := grants }

section Relist
variable {bounties : List LegacyBountyRecord} {grants : List LegacyGrantRecord}
  (hb : bounties.Perm input.bounties) (hg : grants.Perm input.grants)
include hb hg

theorem records_relist : (input.relist bounties grants).records.Perm input.records :=
  (hb.map _).append (hg.map _)

theorem Accepted.relist (ha : Accepted input) : Accepted (input.relist bounties grants) where
  version := ha.version
  named r hr := ha.named r ((records_relist hb hg).mem_iff.mp hr)
  distinct := ((records_relist hb hg).map _).nodup_iff.mpr ha.distinct
  sound r hr := ha.sound r ((records_relist hb hg).mem_iff.mp hr)

theorem pending_relist :
    ((input.relist bounties grants).pending state).Perm (input.pending state) :=
  (records_relist hb hg).filter _

theorem obligation_relist (asset : String) :
    obligation (input.relist bounties grants) state asset = obligation input state asset :=
  tally_perm (pending_relist hb hg) asset

theorem shortfall_relist (asset : String) :
    shortfall (input.relist bounties grants) state asset = shortfall input state asset :=
  congrArg (· - escrowBalance input state asset) (obligation_relist hb hg asset)

theorem short_relist {asset : String} :
    Short (input.relist bounties grants) state asset ↔ Short input state asset := by
  have hobligation : obligation (input.relist bounties grants) state asset =
      obligation input state asset := obligation_relist hb hg asset
  constructor
  · exact fun h => ⟨hobligation ▸ h.owed, hobligation ▸ h.lacking⟩
  · exact fun h => ⟨hobligation.symm ▸ h.owed, hobligation.symm ▸ h.lacking⟩

theorem Fits.relist (hf : Fits input state) : Fits (input.relist bounties grants) state where
  liabilities k := (tally_perm (pending_relist hb hg) k).trans_le (hf.liabilities k)
  outstanding k := (tally_perm (pending_relist hb hg) k).trans_le (hf.outstanding k)
  shortfalls asset h := by
    rw [shortfall_relist hb hg]
    exact hf.shortfalls asset ((short_relist hb hg).mp h)

theorem Writable.relist (hw : Writable input state integers config) :
    Writable (input.relist bounties grants) state integers config where
  shortfalls asset h := by
    rw [shortfall_relist hb hg]
    exact hw.shortfalls asset ((short_relist hb hg).mp h)
  bounties b h := hw.bounties b ((hb.filter _).mem_iff.mp h)
  grants g h := hw.grants g ((hg.filter _).mem_iff.mp h)
  eta := hw.eta

/-- An outline for the other order is one for the file. -/
theorem Outline.of_relist (o : Outline (input.relist bounties grants) state) :
    ∃ o' : Outline input state, o'.actions = o.actions := by
  refine ⟨⟨o.assets, o.bounties, o.grants, o.assets_sorted,
    fun asset => (o.mem_assets asset).trans (short_relist hb hg), o.bounties_sorted,
    o.bounties_perm.trans (hb.filter _), o.grants_sorted, o.grants_perm.trans (hg.filter _)⟩, ?_⟩
  have hfunding : funding (input.relist bounties grants) state = funding input state := by
    funext asset
    rw [funding, funding, shortfall_relist hb hg]
    rfl
  rw [Outline.actions, Outline.actions, hfunding]
  rfl

/-- The actions do not depend on the order of the records. -/
theorem exists_plan_relist (ha : Accepted input)
    (h : generateMigrationPlan integers input state config = .ok plan) :
    ∃ plan',
      generateMigrationPlan integers (input.relist bounties grants) state config = .ok plan' ∧
      plan'.actions = plan.actions := by
  obtain ⟨hf, hw, o, ho⟩ := plan_outline ha h
  have ha' := ha.relist hb hg
  obtain ⟨plan', hplan'⟩ := exists_plan ha' (hf.relist hb hg) (hw.relist hb hg)
  obtain ⟨_, _, o', ho'⟩ := plan_outline ha' hplan'
  obtain ⟨o'', ho''⟩ := o'.of_relist hb hg
  exact ⟨plan', hplan', by rw [ho', ← ho'', ho, o''.actions_eq o]⟩

end Relist

/-! ### After some imports -/

/-- The actions that import a record. -/
def MigrationPlan.imports (plan : MigrationPlan) : List ContractInvocation :=
  plan.actions.filter (·.legacyId.isSome)

/-- The action without its number. -/
def unnumbered (a : ContractInvocation) : ContractInvocation := { a with step := 0 }

/-- On chain are the records from before and those of the imports that are done. -/
structure Records (plan : MigrationPlan) (done : ContractInvocation → Bool)
    (state later : StateProvider) : Prop where
  bounties : ∀ id, later.hasLegacyBounty id = (state.hasLegacyBounty id ||
    plan.actions.any fun a => done a && a.program == "bounty" && a.legacyId == some id)
  grants : ∀ id, later.hasLegacyGrant id = (state.hasLegacyGrant id ||
    plan.actions.any fun a => done a && a.program == "grants" && a.legacyId == some id)

section Numbered
variable {k : ℕ} {a : ContractInvocation} {l : List ContractInvocation}
  {done : ContractInvocation → Bool}

theorem mem_numbered (h : a ∈ numbered k l) : ∃ b ∈ l, ∃ i, a = { b with step := i } := by
  induction l generalizing k with
  | nil => cases h
  | cons b l ih =>
    rcases List.mem_cons.mp h with rfl | h
    · exact ⟨b, List.mem_cons_self, k, rfl⟩
    · obtain ⟨c, hc, hi⟩ := ih h
      exact ⟨c, List.mem_cons_of_mem _ hc, hi⟩

theorem map_unnumbered (k : ℕ) (l : List ContractInvocation) :
    (numbered k l).map unnumbered = l.map unnumbered := by
  induction l generalizing k with
  | nil => rfl
  | cons b l ih =>
    rw [numbered, List.map_cons, ih, List.map_cons]
    rfl

theorem map_legacyId (k : ℕ) (l : List ContractInvocation) :
    (numbered k l).map (·.legacyId) = l.map (·.legacyId) := by
  induction l generalizing k with
  | nil => rfl
  | cons b l ih => rw [numbered, List.map_cons, ih, List.map_cons]

/-- What is left of numbered actions when it goes by their identifiers. -/
theorem filter_numbered {gone : Option String → Bool}
    (h : ∀ a ∈ numbered k l, done a = gone a.legacyId) :
    ((numbered k l).filter (!done ·)).map unnumbered =
      (l.filter fun a => !gone a.legacyId).map unnumbered := by
  induction l generalizing k with
  | nil => rfl
  | cons b l ih =>
    obtain ⟨hb, hl⟩ := List.forall_mem_cons.mp h
    rw [numbered, List.filter_cons, List.filter_cons, hb]
    cases hgone : gone b.legacyId with
    | false => simpa [unnumbered] using ih hl
    | true => simpa using ih hl

end Numbered

section Imports
variable {o : Outline input state} (ho : plan.actions = o.actions)
include ho

/-- The imports of a plan come after its fundings. -/
theorem Outline.imports_eq : plan.imports =
    numbered (1 + o.assets.length) (o.bounties.map (bountyImport input)) ++
      numbered (1 + (o.assets.length + o.bounties.length)) (o.grants.map (grantImport input)) := by
  have hfunding : ∀ a ∈ numbered 1 (o.assets.map (funding input state)),
      ¬ a.legacyId.isSome = true := by
    intro a ha
    obtain ⟨_, hb, i, rfl⟩ := mem_numbered ha
    obtain ⟨asset, _, rfl⟩ := List.mem_map.mp hb
    exact Bool.false_ne_true
  have hbounties : ∀ k, ∀ a ∈ numbered k (o.bounties.map (bountyImport input)),
      a.legacyId.isSome = true := by
    intro k a ha
    obtain ⟨_, hb, i, rfl⟩ := mem_numbered ha
    obtain ⟨b, _, rfl⟩ := List.mem_map.mp hb
    rfl
  have hgrants : ∀ k, ∀ a ∈ numbered k (o.grants.map (grantImport input)),
      a.legacyId.isSome = true := by
    intro k a ha
    obtain ⟨_, hg, i, rfl⟩ := mem_numbered ha
    obtain ⟨g, _, rfl⟩ := List.mem_map.mp hg
    rfl
  rw [MigrationPlan.imports, ho, Outline.actions, numbered_append, numbered_append,
    List.filter_append, List.filter_append, List.filter_eq_nil_iff.mpr hfunding,
    List.filter_eq_self.mpr (hbounties _), List.filter_eq_self.mpr (hgrants _), List.nil_append,
    List.length_append, List.length_map, List.length_map]

theorem Outline.imports_nodup (ha : Accepted input) : (plan.imports.map (·.legacyId)).Nodup := by
  have hids : plan.imports.map (·.legacyId) =
      (o.bounties.map (·.legacyId) ++ o.grants.map (·.legacyId)).map some := by
    rw [o.imports_eq ho, List.map_append, map_legacyId, map_legacyId, List.map_append, List.map_map,
      List.map_map, List.map_map, List.map_map]
    rfl
  rw [hids]
  have hperm := (o.bounties_perm.map (·.legacyId)).append (o.grants_perm.map (·.legacyId))
  have hsub : ((input.pendingBounties state).map (·.legacyId) ++
      (input.pendingGrants state).map (·.legacyId)).Sublist
        (input.bounties.map (·.legacyId) ++ input.grants.map (·.legacyId)) :=
    (List.filter_sublist.map _).append (List.filter_sublist.map _)
  exact (hperm.nodup_iff.mpr (ha.ids_nodup.sublist hsub)).map (Option.some_injective _)

end Imports

/-- An import is done if and only if its record came on chain. -/
theorem any_done {done : ContractInvocation → Bool} {a : ContractInvocation} {program id : String}
    (hn : (plan.imports.map (·.legacyId)).Nodup) (ha : a ∈ plan.actions) (hp : a.program = program)
    (hid : a.legacyId = some id) :
    (plan.actions.any fun x => done x && x.program == program && x.legacyId == some id) =
      done a := by
  have himport {x : ContractInvocation} (hx : x ∈ plan.actions) (hxid : x.legacyId = some id) :
      x ∈ plan.imports :=
    List.mem_filter.mpr ⟨hx, by rw [hxid]; rfl⟩
  rw [Bool.eq_iff_iff, List.any_eq_true]
  constructor
  · rintro ⟨x, hx, h⟩
    simp only [Bool.and_eq_true, beq_iff_eq] at h
    obtain ⟨⟨hdone, _⟩, hxid⟩ := h
    have heq : x = a := List.inj_on_of_nodup_map hn (himport hx hxid) (himport ha hid)
      (hxid.trans hid.symm)
    exact heq ▸ hdone
  · intro h
    exact ⟨a, ha, by simp [h, hp, hid]⟩

/-- Of the imports of one kind are left those of the records not on chain later. -/
theorem remaining_eq {α : Type} {key : α → String} {imp : α → ContractInvocation}
    {pool l l' : List α} {has has' : String → Bool} {done : ContractInvocation → Bool} {k : ℕ}
    (himp : ∀ x, (imp x).legacyId = some (key x))
    (hl : l.Pairwise fun x y => key x < key y) (hp : l.Perm (pool.filter fun x => !has (key x)))
    (hl' : l'.Pairwise fun x y => key x < key y)
    (hp' : l'.Perm (pool.filter fun x => !has' (key x)))
    (hle : ∀ id, has id = true → has' id = true)
    (hdone : ∀ a ∈ numbered k (l.map imp), done a = a.legacyId.any has') :
    ((numbered k (l.map imp)).filter (!done ·)).map unnumbered = (l'.map imp).map unnumbered := by
  have hleft : l.filter (fun x => !has' (key x)) = l' := by
    refine eq_of_perm_of_sorted (((hp.filter _).trans ?_).trans hp'.symm) (hl.filter _) hl'
    rw [List.filter_filter]
    refine List.Perm.of_eq (List.filter_congr fun x _ => ?_)
    cases hx : has (key x) with
    | false => simp
    | true => simp [hle _ hx]
  rw [filter_numbered hdone, List.filter_map, ← hleft]
  simp only [Function.comp_def, himp, Option.any_some]

/-- Planning again imports what was not done. -/
theorem imports_later (ha : Accepted input) {done : ContractInvocation → Bool}
    (hr : Records plan done state later) {o : Outline input state} (ho : plan.actions = o.actions)
    {plan' : MigrationPlan} {o' : Outline input later} (ho' : plan'.actions = o'.actions) :
    plan'.imports.map unnumbered = (plan.imports.filter (!done ·)).map unnumbered := by
  have hn := Outline.imports_nodup ho ha
  have himports := Outline.imports_eq ho
  have hbounties : ∀ a ∈ numbered (1 + o.assets.length) (o.bounties.map (bountyImport input)),
      done a = a.legacyId.any later.hasLegacyBounty := by
    intro a hmem
    have hact : a ∈ plan.actions :=
      List.mem_of_mem_filter (himports ▸ List.mem_append_left _ hmem)
    obtain ⟨_, hx, i, rfl⟩ := mem_numbered hmem
    obtain ⟨b, hb, rfl⟩ := List.mem_map.mp hx
    have hpending := (List.mem_filter.mp (o.bounties_perm.subset hb)).2
    have hstate : state.hasLegacyBounty b.legacyId = false := by simpa using hpending
    refine (any_done hn hact rfl rfl).symm.trans ?_
    rw [bountyImport, bountyAction, Option.any_some, hr.bounties, hstate, Bool.false_or]
  have hgrants : ∀ a ∈ numbered (1 + (o.assets.length + o.bounties.length))
      (o.grants.map (grantImport input)), done a = a.legacyId.any later.hasLegacyGrant := by
    intro a hmem
    have hact : a ∈ plan.actions :=
      List.mem_of_mem_filter (himports ▸ List.mem_append_right _ hmem)
    obtain ⟨_, hx, i, rfl⟩ := mem_numbered hmem
    obtain ⟨g, hg, rfl⟩ := List.mem_map.mp hx
    have hpending := (List.mem_filter.mp (o.grants_perm.subset hg)).2
    have hstate : state.hasLegacyGrant g.legacyId = false := by simpa using hpending
    refine (any_done hn hact rfl rfl).symm.trans ?_
    rw [grantImport, grantAction, Option.any_some, hr.grants, hstate, Bool.false_or]
  rw [himports, Outline.imports_eq ho', List.filter_append, List.map_append, List.map_append,
    map_unnumbered, map_unnumbered,
    remaining_eq (fun _ => rfl) o.bounties_sorted o.bounties_perm o'.bounties_sorted
      o'.bounties_perm (fun id h => by rw [hr.bounties, h, Bool.true_or]) hbounties,
    remaining_eq (fun _ => rfl) o.grants_sorted o.grants_perm o'.grants_sorted
      o'.grants_perm (fun id h => by rw [hr.grants, h, Bool.true_or]) hgrants]

/-! ### Later states of the chain -/

/-- No record left the chain, and the escrow lost no funds. -/
structure Advances (state later : StateProvider) : Prop where
  bounties : ∀ id, state.hasLegacyBounty id = true → later.hasLegacyBounty id = true
  grants : ∀ id, state.hasLegacyGrant id = true → later.hasLegacyGrant id = true
  escrow : ∀ asset, state.getEscrowBalance "bounty_escrow" asset ≤
    later.getEscrowBalance "bounty_escrow" asset

theorem Records.advances {done : ContractInvocation → Bool} (hr : Records plan done state later)
    (he : ∀ asset, state.getEscrowBalance "bounty_escrow" asset ≤
      later.getEscrowBalance "bounty_escrow" asset) : Advances state later where
  bounties id h := by rw [hr.bounties, h, Bool.true_or]
  grants id h := by rw [hr.grants, h, Bool.true_or]
  escrow := he

section Later
variable (hl : Advances state later)
include hl

theorem awaits_later {r : Record} (hr : later.awaits r = true) : state.awaits r = true := by
  cases r with
  | bounty b =>
    cases h : state.hasLegacyBounty b.legacyId with
    | false => simp [StateProvider.awaits, h]
    | true => simp [StateProvider.awaits, hl.bounties _ h] at hr
  | grant g =>
    cases h : state.hasLegacyGrant g.legacyId with
    | false => simp [StateProvider.awaits, h]
    | true => simp [StateProvider.awaits, hl.grants _ h] at hr

theorem pending_later : (input.pending later).Sublist (input.pending state) :=
  List.monotone_filter_right _ fun _ => awaits_later hl

theorem obligation_later (ha : Accepted input) (asset : String) :
    obligation input later asset ≤ obligation input state asset :=
  tally_le_of_sublist (pending_later hl) fun r hr =>
    booked_obliges_nonneg (ha.sound r (List.mem_of_mem_filter hr)) asset

theorem escrowBalance_later (asset : String) :
    escrowBalance input state asset ≤ escrowBalance input later asset :=
  max_le_max (hl.escrow asset) le_rfl

theorem shortfall_later (ha : Accepted input) (asset : String) :
    shortfall input later asset ≤ shortfall input state asset :=
  sub_le_sub (obligation_later hl ha asset) (escrowBalance_later hl asset)

/-- An asset that is short later was short before. -/
theorem short_later (ha : Accepted input) {asset : String} (h : Short input later asset) :
    Short input state asset where
  owed := h.owed.trans_le (obligation_later hl ha asset)
  lacking := (escrowBalance_later hl asset).trans_lt
    (h.lacking.trans_le (obligation_later hl ha asset))

theorem Fits.of_advances (ha : Accepted input) (hf : Fits input state) : Fits input later where
  toSumsFit := hf.toSumsFit.of_sublist (pending_later hl)
    fun r hr => ha.sound r (List.mem_of_mem_filter hr)
  shortfalls asset h :=
    (shortfall_later hl ha asset).trans (hf.shortfalls asset (short_later hl ha h))

theorem Writable.of_advances (ha : Accepted input) (hw : Writable input state integers config)
    {config' : GeneratorConfig} (heta : config'.currentTimestamp + config'.minDelay ≤ maxU64) :
    Writable input later integers config' where
  shortfalls asset h := integers.mono _ _ (sub_pos.mpr h.lacking).le (shortfall_later hl ha asset)
    (hw.shortfalls asset (short_later hl ha h))
  bounties b hb := by
    obtain ⟨hb, hpending⟩ := List.mem_filter.mp hb
    exact hw.bounties b (List.mem_filter.mpr ⟨hb, awaits_later (r := .bounty b) hl hpending⟩)
  grants g hg := by
    obtain ⟨hg, hpending⟩ := List.mem_filter.mp hg
    exact hw.grants g (List.mem_filter.mpr ⟨hg, awaits_later (r := .grant g) hl hpending⟩)
  eta := heta

end Later

end Plans

/-! ### The plan -/

/-- The plan of a file and a state of the chain. Its actions are those of the outline, in any
order of the records, and its summary is balanced. Plans made after some of its imports are
done import the others, and are made if the escrow lost no funds. -/
structure Meets (integers : JsonIntegers) (input : LegacyInputFile) (state : StateProvider)
    (config : GeneratorConfig) (plan : MigrationPlan) : Prop where
  generated : generateMigrationPlan integers input state config = .ok plan
  actions : ∃ o : Outline input state, plan.actions = o.actions
  relisted : ∀ bounties grants, bounties.Perm input.bounties → grants.Perm input.grants →
    ∃ plan', generateMigrationPlan integers (input.relist bounties grants) state config =
      .ok plan' ∧ plan'.actions = plan.actions
  balanced : Balanced input state plan.summary
  resumed : ∀ done later, Records plan done state later → ∀ config' plan',
    generateMigrationPlan integers input later config' = .ok plan' →
      plan'.imports.map unnumbered = (plan.imports.filter (!done ·)).map unnumbered
  resumable : ∀ done later, Records plan done state later →
    (∀ asset, state.getEscrowBalance "bounty_escrow" asset ≤
      later.getEscrowBalance "bounty_escrow" asset) →
    ∀ config' : GeneratorConfig, config'.currentTimestamp + config'.minDelay ≤ maxU64 →
      ∃ plan', generateMigrationPlan integers input later config' = .ok plan'

/-- An accepted file whose sums are in range has its plan if and only if the amounts of the
actions have JSON numbers. -/
theorem plan_meets_iff (integers : JsonIntegers) {input : LegacyInputFile} {state : StateProvider}
    (config : GeneratorConfig) (hv : input.validate = .ok ()) (hf : Fits input state) :
    (∃ plan, Meets integers input state config plan) ↔ Writable input state integers config := by
  have ha := validate_eq_ok.mp hv
  constructor
  · rintro ⟨plan, hplan⟩
    exact (plan_outline ha hplan.generated).2.1
  · intro hw
    obtain ⟨plan, hplan⟩ := exists_plan ha hf hw
    obtain ⟨_, _, o, ho⟩ := plan_outline ha hplan
    refine ⟨plan, ?_⟩
    exact {
      generated := hplan
      actions := ⟨o, ho⟩
      relisted := fun bounties grants hb hg => exists_plan_relist hb hg ha hplan
      balanced := plan_balanced ha hplan
      resumed := fun done later hr config' plan' hplan' => by
        obtain ⟨_, _, o', ho'⟩ := plan_outline ha hplan'
        exact imports_later ha hr ho ho'
      resumable := fun done later hr he config' heta =>
        exists_plan ha (hf.of_advances (hr.advances he) ha)
          (hw.of_advances (hr.advances he) ha heta) }

/-! ### Files of small amounts -/

section Total
variable {integers : JsonIntegers} {input : LegacyInputFile} {state : StateProvider}
  {config : GeneratorConfig} {knownAssets : List String} {h : List Record}

/-- What is booked under one key is at most the total of all amounts. -/
theorem booked_le_amount {K : Type} [DecidableEq K] {r : Record} (hr : r.Sound knownAssets) {n : ℤ}
    (hn : n ≤ r.amount) (j k : K) : booked (some (j, n)) k ≤ r.amount := by
  rw [booked]
  split
  · exact hn
  · exact hr.2.1.le

theorem obligation_le_total (ha : Accepted input) (asset : String) :
    obligation input state asset ≤ ((input.pending state).map Record.amount).sum := by
  refine List.sum_le_sum fun r hr => ?_
  have hsound := ha.sound r (List.mem_of_mem_filter hr)
  cases r with
  | bounty b => exact booked_le_amount hsound (sub_le_self _ hsound.paid_nonneg) _ _
  | grant g => exact hsound.2.1.le

/-- The sums are in range when all amounts together are, and the escrow is not in debt. -/
theorem fits_of_total (ha : Accepted input) (he : ∀ asset, 0 ≤ escrowBalance input state asset)
    (ht : ((input.pending state).map Record.amount).sum ≤ maxI128) : Fits input state where
  liabilities k := by
    refine (List.sum_le_sum fun r hr => ?_).trans ht
    exact booked_le_amount (ha.sound r (List.mem_of_mem_filter hr)) le_rfl _ _
  outstanding asset := by
    refine (List.sum_le_sum fun r hr => ?_).trans ht
    have hsound := ha.sound r (List.mem_of_mem_filter hr)
    exact booked_le_amount hsound (sub_le_self _ hsound.paid_nonneg) _ _
  shortfalls asset _ :=
    (sub_le_self _ (he asset)).trans ((obligation_le_total ha asset).trans ht)

/-- So can the amounts be written when their total can. -/
theorem writable_of_total (ha : Accepted input) (he : ∀ asset, 0 ≤ escrowBalance input state asset)
    (ht : integers.represents ((input.pending state).map Record.amount).sum = true)
    (heta : config.currentTimestamp + config.minDelay ≤ maxU64) :
    Writable input state integers config := by
  have hamount : ∀ r ∈ input.pending state, integers.represents r.amount = true := fun r hr => by
    have hpos : ∀ n ∈ (input.pending state).map Record.amount, 0 ≤ n := fun n hn => by
      obtain ⟨x, hx, rfl⟩ := List.mem_map.mp hn
      exact (ha.sound x (List.mem_of_mem_filter hx)).2.1.le
    exact integers.mono _ _ (hpos _ (List.mem_map_of_mem hr))
      (List.single_le_sum hpos _ (List.mem_map_of_mem hr)) ht
  refine ⟨fun asset h => ?_, fun b hb => ?_, fun g hg => ?_, heta⟩
  · exact integers.mono _ _ (sub_pos.mpr h.lacking).le
      ((sub_le_self _ (he asset)).trans (obligation_le_total ha asset)) ht
  · obtain ⟨hb, hpending⟩ := List.mem_filter.mp hb
    exact hamount (.bounty b) (List.mem_filter.mpr
      ⟨List.mem_append_left _ (List.mem_map_of_mem hb), hpending⟩)
  · obtain ⟨hg, hpending⟩ := List.mem_filter.mp hg
    exact hamount (.grant g) (List.mem_filter.mpr
      ⟨List.mem_append_right _ (List.mem_map_of_mem hg), hpending⟩)

end Total

/-- The integers of a JSON number without arbitrary precision, `i64` and `u64`. -/
def wordIntegers : JsonIntegers where
  represents n := -2 ^ 63 ≤ n ∧ n < 2 ^ 64
  mono x y hx hxy hy := by
    have hy := of_decide_eq_true hy
    exact decide_eq_true ⟨by omega, by omega⟩

/-- A chain without records, and a balance of the escrow. -/
def emptyChain (balance : ℤ) : StateProvider where
  hasLegacyBounty _ := false
  hasLegacyGrant _ := false
  getEscrowBalance _ _ := balance

def sampleFile (bounties : List LegacyBountyRecord) (grants : List LegacyGrantRecord) :
    LegacyInputFile where
  schemaVersion := "1.0.0"
  assets := [⟨"USDC", "CUSDC"⟩]
  contracts := ⟨"CTIMELOCK", "CTREASURY", "CESCROW", "CGRANTS"⟩
  escrowBalances := ∅
  bounties := bounties
  grants := grants

def sampleBounty (id : String) (amount : ℤ) (paidOffchain : Bool) : LegacyBountyRecord where
  legacyId := id
  researcher := "GRESEARCHER"
  amount := amount
  asset := "USDC"
  reportHash := "00112233445566778899aabbccddeeff00112233445566778899aabbccddeeff"
  paidOffchain := paidOffchain

theorem escrowBalance_sample {balance : ℤ} (h0 : 0 ≤ balance) (bounties : List LegacyBountyRecord)
    (grants : List LegacyGrantRecord) (asset : String) :
    0 ≤ escrowBalance (sampleFile bounties grants) (emptyChain balance) asset :=
  h0.trans (le_max_left _ _)

/-- A file with a bounty on each side of being paid, and a grant with a claimed milestone. -/
def rehearsal : LegacyInputFile :=
  sampleFile [sampleBounty "BOUNTY-2" 500 false, sampleBounty "BOUNTY-1" 300 true]
    [⟨"GRANT-1", "GRECIPIENT", "USDC", 100, [⟨0, 40, true, true⟩, ⟨1, 60, false, false⟩]⟩]

theorem plan_meets_rehearsal :
    rehearsal.validate = .ok () ∧ Fits rehearsal (emptyChain 200) ∧
      ∃ plan, Meets wordIntegers rehearsal (emptyChain 200) {} plan := by
  have hv : rehearsal.validate = .ok () := by decide +kernel
  have ha := validate_eq_ok.mp hv
  have he := escrowBalance_sample (show (0 : ℤ) ≤ 200 by decide) rehearsal.bounties rehearsal.grants
  have hf : Fits rehearsal (emptyChain 200) := fits_of_total ha he (by decide +kernel)
  exact ⟨hv, hf, (plan_meets_iff wordIntegers {} hv hf).mpr
    (writable_of_total ha he (by decide +kernel) (by decide))⟩

example : (generateMigrationPlan wordIntegers rehearsal (emptyChain 200) {}).toOption.map
    (fun plan => plan.actions.map fun a => (a.step, a.program, a.legacyId)) =
    some [(1, "treasury", none), (2, "bounty", some "BOUNTY-1"), (3, "bounty", some "BOUNTY-2"),
      (4, "grants", some "GRANT-1")] := by
  decide +kernel

/-- A file with one bounty of more than a `u64`. -/
def wideBounty : LegacyInputFile := sampleFile [sampleBounty "BOUNTY-1" (2 ^ 64) false] []

/-- The generator panics on it: there is no JSON number for the amount. -/
theorem wideBounty_unplanned :
    wideBounty.validate = .ok () ∧ Fits wideBounty (emptyChain 0) ∧
      (∀ plan, generateMigrationPlan wordIntegers wideBounty (emptyChain 0) {} ≠ .ok plan) ∧
      ¬ ∃ plan, Meets wordIntegers wideBounty (emptyChain 0) {} plan := by
  have hv : wideBounty.validate = .ok () := by decide +kernel
  have ha := validate_eq_ok.mp hv
  have he := escrowBalance_sample (le_refl (0 : ℤ)) wideBounty.bounties wideBounty.grants
  have hno : ∀ plan, generateMigrationPlan wordIntegers wideBounty (emptyChain 0) {} ≠
      .ok plan := by
    intro plan hplan
    have hw := (plan_outline ha hplan).2.1
    exact absurd (hw.bounties _ List.mem_cons_self) (by decide +kernel)
  refine ⟨hv, fits_of_total ha he (by decide +kernel), hno, ?_⟩
  rintro ⟨plan, hplan⟩
  exact hno plan hplan.generated

end RefractContracts.Xtask
