import RefractContracts.Host.Ranking
import RefractContracts.Xtask.Sums

/-! The actions of a plan. A plan is generated if and only if its sums are in range and its
amounts can be written, and then funds the assets that fall short, in ascending order, and
imports the pending bounties and the pending grants, each by ascending identifier. -/

namespace RefractContracts.Xtask

open Host

/-! ### What is planned -/

section Outline
variable (input : LegacyInputFile) (state : StateProvider)

/-- What is still owed in an asset for bounties not on chain. -/
def obligation (asset : String) : ℤ := tally Record.obliges (input.pending state) asset

/-- What the escrow lacks of it. -/
def shortfall (asset : String) : ℤ := obligation input state asset - escrowBalance input state asset

/-- Something is owed in the asset, and more than the escrow holds. -/
structure Short (asset : String) : Prop where
  owed : 0 < obligation input state asset
  lacking : escrowBalance input state asset < obligation input state asset

def funding (asset : String) : ContractInvocation :=
  fundingAction input asset (shortfall input state asset) (.number (shortfall input state asset))

def bountyImport (b : LegacyBountyRecord) : ContractInvocation :=
  bountyAction input b (.number b.amount)

def grantImport (g : LegacyGrantRecord) : ContractInvocation :=
  grantAction input g (.number g.totalAmount) (g.milestones.map fun m => .number m.amount)

/-- The actions with the steps `k`, `k + 1`, and so on. -/
def numbered : ℕ → List ContractInvocation → List ContractInvocation
  | _, [] => []
  | k, a :: l => { a with step := k } :: numbered (k + 1) l

def LegacyInputFile.pendingBounties : List LegacyBountyRecord :=
  input.bounties.filter fun b => !state.hasLegacyBounty b.legacyId

def LegacyInputFile.pendingGrants : List LegacyGrantRecord :=
  input.grants.filter fun g => !state.hasLegacyGrant g.legacyId

/-- The assets to fund and the records to import, in order. -/
structure Outline where
  assets : List String
  bounties : List LegacyBountyRecord
  grants : List LegacyGrantRecord
  assets_sorted : assets.Pairwise (· < ·)
  mem_assets : ∀ asset, asset ∈ assets ↔ Short input state asset
  bounties_sorted : bounties.Pairwise fun a b => a.legacyId < b.legacyId
  bounties_perm : bounties.Perm (input.pendingBounties state)
  grants_sorted : grants.Pairwise fun a b => a.legacyId < b.legacyId
  grants_perm : grants.Perm (input.pendingGrants state)

variable {input state} in
/-- One funding per short asset, then one import per pending record. -/
def Outline.actions (o : Outline input state) : List ContractInvocation :=
  numbered 1 (o.assets.map (funding input state) ++ o.bounties.map (bountyImport input) ++
    o.grants.map (grantImport input))

/-- The sums that the generator computes are in range. -/
structure Fits : Prop extends SumsFit (input.pending state) where
  shortfalls : ∀ asset, Short input state asset → shortfall input state asset ≤ maxI128

/-- The amounts of the actions have JSON numbers, and their time is a `u64`. -/
structure Writable (integers : JsonIntegers) (config : GeneratorConfig) : Prop where
  shortfalls : ∀ asset, Short input state asset →
    integers.represents (shortfall input state asset) = true
  bounties : ∀ b ∈ input.pendingBounties state, integers.represents b.amount = true
  grants : ∀ g ∈ input.pendingGrants state, integers.represents g.totalAmount = true
  eta : config.currentTimestamp + config.minDelay ≤ maxU64

end Outline

/-! ### Numbering -/

theorem numbered_append (k : ℕ) (l m : List ContractInvocation) :
    numbered k (l ++ m) = numbered k l ++ numbered (k + l.length) m := by
  induction l generalizing k with
  | nil => rfl
  | cons a l ih =>
    rw [List.cons_append, numbered, ih, numbered, List.cons_append, List.length_cons,
      add_right_comm k, add_assoc k]

theorem foldl_pushAction (l acc : List ContractInvocation) (k : ℕ) :
    l.foldl pushAction (acc, k) = (acc ++ numbered k l, k + l.length) := by
  induction l generalizing acc k with
  | nil => simp [numbered]
  | cons a l ih =>
    rw [List.foldl_cons, pushAction, ih, numbered, List.append_assoc, List.singleton_append,
      List.length_cons, add_right_comm k, add_assoc k]

/-- The three loops that number the actions. -/
theorem foldl_pushAction_fst (l : List (String × ContractInvocation))
    (m n : List ContractInvocation) :
    (n.foldl pushAction (m.foldl pushAction
      (l.foldl (fun acc action => pushAction acc action.2) ([], 1)))).1 =
      numbered 1 (l.map Prod.snd ++ m ++ n) := by
  have hfirst : l.foldl (fun acc action => pushAction acc action.2) ([], 1) =
      (l.map Prod.snd).foldl pushAction ([], 1) := List.foldl_map.symm
  rw [hfirst, foldl_pushAction, foldl_pushAction, foldl_pushAction, numbered_append,
    numbered_append, List.length_append, List.nil_append, add_assoc]

/-! ### The loops -/

section Loops
variable {integers : JsonIntegers} {input : LegacyInputFile} {state : StateProvider}

theorem toJson_eq_ok {n : ℤ} {j : Json} :
    toJson integers n = .ok j ↔ integers.represents n = true ∧ .number n = j := by
  simp [toJson]

/-- A loop whose rounds give `g` under a condition. -/
theorem mapM_eq_ok {α β : Type} {f : α → Call β} {g : α → β} {P : α → Prop}
    (hf : ∀ a b, f a = .ok b ↔ P a ∧ g a = b) {l : List α} {m : List β} :
    l.mapM f = .ok m ↔ (∀ a ∈ l, P a) ∧ l.map g = m := by
  induction l generalizing m with
  | nil => simp
  | cons a l ih =>
    simp only [List.mapM_cons, bind_eq_ok, hf, ih, pure_eq_ok, List.forall_mem_cons, List.map_cons]
    constructor
    · rintro ⟨_, ⟨ha, rfl⟩, _, ⟨hl, rfl⟩, rfl⟩
      exact ⟨⟨ha, hl⟩, rfl⟩
    · rintro ⟨⟨ha, hl⟩, rfl⟩
      exact ⟨_, ⟨ha, rfl⟩, _, ⟨hl, rfl⟩, rfl⟩

theorem planBounty_eq_ok (b : LegacyBountyRecord) (a : ContractInvocation) :
    planBounty integers input b = .ok a ↔
      integers.represents b.amount = true ∧ bountyImport input b = a := by
  simp only [planBounty, bind_eq_ok, toJson_eq_ok, pure_eq_ok, bountyImport]
  constructor
  · rintro ⟨_, ⟨hb, rfl⟩, rfl⟩
    exact ⟨hb, rfl⟩
  · rintro ⟨hb, rfl⟩
    exact ⟨_, ⟨hb, rfl⟩, rfl⟩

theorem planGrant_eq_ok (g : LegacyGrantRecord) (a : ContractInvocation) :
    planGrant integers input g = .ok a ↔
      (integers.represents g.totalAmount = true ∧
        ∀ m ∈ g.milestones, integers.represents m.amount = true) ∧ grantImport input g = a := by
  have hmilestones (amounts : List Json) :
      g.milestones.mapM (fun m => toJson integers m.amount) = .ok amounts ↔
        (∀ m ∈ g.milestones, integers.represents m.amount = true) ∧
          g.milestones.map (fun m => .number m.amount) = amounts :=
    mapM_eq_ok fun _ _ => toJson_eq_ok
  simp only [planGrant, bind_eq_ok, toJson_eq_ok, hmilestones, pure_eq_ok, grantImport]
  constructor
  · rintro ⟨_, ⟨htotal, rfl⟩, _, ⟨hall, rfl⟩, rfl⟩
    exact ⟨⟨htotal, hall⟩, rfl⟩
  · rintro ⟨⟨htotal, hall⟩, rfl⟩
    exact ⟨_, ⟨htotal, rfl⟩, _, ⟨hall, rfl⟩, rfl⟩

/-! ### The loop over the obligations -/

/-- The escrow holds less than is owed. -/
def lacks (input : LegacyInputFile) (state : StateProvider) (entry : String × ℤ) : Bool :=
  escrowBalance input state entry.1 < entry.2

/-- The shortfall can be computed and written. -/
def CanFund (integers : JsonIntegers) (input : LegacyInputFile) (state : StateProvider)
    (asset : String) : Prop :=
  shortfall input state asset ≤ maxI128 ∧
    integers.represents (shortfall input state asset) = true

variable {fund fund' : Funding} {entry : String × ℤ}

/-- What a round does with an asset that something is owed in. -/
theorem fundAsset_eq_ok (hn : obligation input state entry.1 = entry.2)
    (hok : fundAsset integers input state fund entry = .ok fund') :
    (lacks input state entry = true → CanFund integers input state entry.1) ∧
      fund'.actions = fund.actions ++
        ([entry].filter (lacks input state)).map fun e => (e.1, funding input state e.1) := by
  obtain ⟨asset, n⟩ := entry
  obtain rfl : obligation input state asset = n := hn
  by_cases hlacks : escrowBalance input state asset < obligation input state asset
  · simp only [fundAsset, if_pos hlacks, bind_eq_ok, i128_eq_ok, toJson_eq_ok, pure_eq_ok] at hok
    obtain ⟨_, ⟨hrange, rfl⟩, _, ⟨hrep, rfl⟩, rfl⟩ := hok
    rw [List.filter_cons_of_pos (by simpa [lacks] using hlacks)]
    exact ⟨fun _ => ⟨hrange.2, hrep⟩, rfl⟩
  · simp only [fundAsset, if_neg hlacks, pure_eq_ok] at hok
    obtain rfl := hok
    have hno : lacks input state (asset, obligation input state asset) = false := by
      simpa [lacks] using hlacks
    rw [List.filter_cons_of_neg (by rw [hno]; exact Bool.false_ne_true)]
    exact ⟨fun h => absurd (hno.symm.trans h) Bool.false_ne_true, (List.append_nil _).symm⟩

theorem exists_fundAsset (hn : obligation input state entry.1 = entry.2)
    (h : lacks input state entry = true → CanFund integers input state entry.1) (fund : Funding) :
    ∃ fund', fundAsset integers input state fund entry = .ok fund' := by
  obtain ⟨asset, n⟩ := entry
  obtain rfl : obligation input state asset = n := hn
  simp only [fundAsset]
  split
  · next hlacks =>
    obtain ⟨hle, hrep⟩ := h (by simpa [lacks] using hlacks)
    have hpos : 0 < shortfall input state asset := sub_pos.mpr hlacks
    exact exists_bind_eq_ok (i128_of_nonneg hpos.le hle)
      (exists_bind_eq_ok (toJson_eq_ok.mpr ⟨hrep, rfl⟩) ⟨_, rfl⟩)
  · exact ⟨_, rfl⟩

theorem foldlM_fundAsset {l : List (String × ℤ)} (hl : ∀ e ∈ l, obligation input state e.1 = e.2)
    (hok : l.foldlM (fundAsset integers input state) fund = .ok fund') :
    (∀ e ∈ l, lacks input state e = true → CanFund integers input state e.1) ∧
      fund'.actions = fund.actions ++
        (l.filter (lacks input state)).map fun e => (e.1, funding input state e.1) := by
  induction l generalizing fund with
  | nil =>
    obtain rfl := (pure_eq_ok _ _).mp hok
    exact ⟨List.forall_mem_nil _, (List.append_nil _).symm⟩
  | cons e l ih =>
    obtain ⟨he, hl⟩ := List.forall_mem_cons.mp hl
    rw [List.foldlM_cons, bind_eq_ok] at hok
    obtain ⟨mid, hmid, hok⟩ := hok
    obtain ⟨hround, hactions⟩ := fundAsset_eq_ok he hmid
    obtain ⟨hrest, hactions'⟩ := ih hl hok
    refine ⟨List.forall_mem_cons.mpr ⟨hround, hrest⟩, ?_⟩
    rw [hactions', hactions, List.append_assoc, ← List.map_append, ← List.filter_append,
      List.singleton_append]

theorem exists_foldlM_fundAsset {l : List (String × ℤ)}
    (hl : ∀ e ∈ l, obligation input state e.1 = e.2)
    (h : ∀ e ∈ l, lacks input state e = true → CanFund integers input state e.1) (fund : Funding) :
    ∃ fund', l.foldlM (fundAsset integers input state) fund = .ok fund' := by
  induction l generalizing fund with
  | nil => exact ⟨fund, rfl⟩
  | cons e l ih =>
    obtain ⟨he, hl⟩ := List.forall_mem_cons.mp hl
    obtain ⟨hround, hrest⟩ := List.forall_mem_cons.mp h
    obtain ⟨mid, hmid⟩ := exists_fundAsset he hround fund
    exact exists_bind_eq_ok hmid (ih hl hrest mid)

end Loops

/-! ### Generating -/

section Generate
variable {integers : JsonIntegers} {input : LegacyInputFile} {state : StateProvider}
  {config : GeneratorConfig} {scan : Scan} {plan : MigrationPlan}

theorem LegacyInputFile.filterMap_pending_bounties (input : LegacyInputFile)
    (state : StateProvider) :
    (input.pending state).filterMap Record.bounty? = input.pendingBounties state := by
  rw [pending, records, List.filter_append, List.filterMap_append, List.filter_map, List.filter_map,
    List.filterMap_map, List.filterMap_map]
  simp [Function.comp_def, StateProvider.awaits, pendingBounties]

theorem LegacyInputFile.filterMap_pending_grants (input : LegacyInputFile) (state : StateProvider) :
    (input.pending state).filterMap Record.grant? = input.pendingGrants state := by
  rw [pending, records, List.filter_append, List.filterMap_append, List.filter_map, List.filter_map,
    List.filterMap_map, List.filterMap_map]
  simp [Function.comp_def, StateProvider.awaits, pendingGrants]

/-- The loops that a plan is made of. -/
structure Generated (integers : JsonIntegers) (input : LegacyInputFile) (state : StateProvider)
    (scan : Scan) (fund : Funding) (bounties grants : List ContractInvocation) : Prop where
  passes : input.records.foldlM (processRecord state) (.initial input) = .ok scan
  funds : scan.pendingBountyObligations.toList.foldlM (fundAsset integers input state) {} = .ok fund
  imports : (scan.pendingBounties.insertionSort fun a b => a.legacyId ≤ b.legacyId).mapM
    (planBounty integers input) = .ok bounties
  importsGrants : (scan.pendingGrants.insertionSort fun a b => a.legacyId ≤ b.legacyId).mapM
    (planGrant integers input) = .ok grants

theorem generate_eq_ok (h : generateMigrationPlan integers input state config = .ok plan) :
    ∃ scan fund bounties grants, Generated integers input state scan fund bounties grants ∧
      config.currentTimestamp + config.minDelay ≤ maxU64 ∧
      plan.actions = numbered 1
        ((fund.actions.insertionSort fun a b => a.1 ≤ b.1).map Prod.snd ++ bounties ++ grants) ∧
      plan.summary = { scan.summary with
        requiredTreasuryFunding := fund.required
        plannedActionsCount := plan.actions.length } := by
  simp only [generateMigrationPlan, bind_eq_ok, pure_eq_ok, u64_eq_ok] at h
  obtain ⟨_, _, mid, hmid, scan, hscan, fund, hfund, bounties, hbounties, grants, hgrants, _,
    ⟨heta, rfl⟩, rfl⟩ := h
  refine ⟨scan, fund, bounties, grants, ⟨?_, hfund, hbounties, hgrants⟩, heta, ?_, rfl⟩
  · rw [processRecord, LegacyInputFile.foldlM_records]
    exact (bind_eq_ok _ _ _).mpr ⟨mid, hmid, hscan⟩
  · exact foldl_pushAction_fst _ _ _

theorem Generated.exists_plan {fund : Funding} {bounties grants : List ContractInvocation}
    (hg : Generated integers input state scan fund bounties grants) (hv : input.validate = .ok ())
    (heta : config.currentTimestamp + config.minDelay ≤ maxU64) :
    ∃ plan, generateMigrationPlan integers input state config = .ok plan := by
  have hscan := hg.passes
  rw [processRecord, LegacyInputFile.foldlM_records, bind_eq_ok] at hscan
  obtain ⟨mid, hmid, hscan⟩ := hscan
  exact exists_bind_eq_ok hv (exists_bind_eq_ok hmid (exists_bind_eq_ok hscan
    (exists_bind_eq_ok hg.funds (exists_bind_eq_ok hg.imports (exists_bind_eq_ok hg.importsGrants
      (exists_bind_eq_ok ((u64_eq_ok _ _).mpr ⟨heta, rfl⟩) ⟨_, rfl⟩))))))

/-! ### The outline of what is generated -/

/-- Identifiers are distinct as they are written. -/
theorem Accepted.ids_nodup (ha : Accepted input) :
    (input.bounties.map (·.legacyId) ++ input.grants.map (·.legacyId)).Nodup := by
  have hids : input.records.map Record.legacyId =
      input.bounties.map (·.legacyId) ++ input.grants.map (·.legacyId) := by
    rw [LegacyInputFile.records, List.map_append, List.map_map, List.map_map]
    rfl
  have htrim : ((input.records.map Record.legacyId).map trim).Nodup := by
    rw [List.map_map]
    exact ha.distinct
  exact hids ▸ htrim.of_map

theorem Accepted.bounties_nodup (ha : Accepted input) (state : StateProvider) :
    ((input.pendingBounties state).map (·.legacyId)).Nodup :=
  (List.nodup_append.mp ha.ids_nodup).1.sublist (List.filter_sublist.map _)

theorem Accepted.grants_nodup (ha : Accepted input) (state : StateProvider) :
    ((input.pendingGrants state).map (·.legacyId)).Nodup :=
  (List.nodup_append.mp ha.ids_nodup).2.1.sublist (List.filter_sublist.map _)

section Scanned
variable (hs : Scanned input state input.records scan)
include hs

/-- The obligations are those of the pending records. -/
theorem Scanned.mem_obligations {asset : String} {n : ℤ} :
    (asset, n) ∈ scan.pendingBountyObligations.toList ↔
      obligation input state asset = n ∧ 0 < n := by
  rw [hs.positive.mem_toList, hs.obligations.eq]
  rfl

/-- The assets that the escrow lacks are the short ones. -/
theorem Scanned.short_iff {asset : String} : Short input state asset ↔
    ∃ e ∈ scan.pendingBountyObligations.toList, lacks input state e = true ∧ e.1 = asset := by
  constructor
  · intro h
    exact ⟨(asset, obligation input state asset), hs.mem_obligations.mpr ⟨rfl, h.owed⟩,
      decide_eq_true h.lacking, rfl⟩
  · rintro ⟨⟨_, n⟩, he, hlacks, rfl⟩
    obtain ⟨rfl, hpos⟩ := hs.mem_obligations.mp he
    exact ⟨hpos, of_decide_eq_true hlacks⟩

theorem Scanned.mem_shortAssets {asset : String} :
    asset ∈ (scan.pendingBountyObligations.toList.filter (lacks input state)).map Prod.fst ↔
      Short input state asset := by
  simp only [hs.short_iff, List.mem_map, List.mem_filter, and_assoc]

omit hs in
theorem pairwise_assets (sums : Std.TreeMap String ℤ) (p : String × ℤ → Bool) :
    ((sums.toList.filter p).map Prod.fst).Pairwise (· < ·) := by
  refine List.pairwise_map.mpr (List.Pairwise.filter p ?_)
  exact sums.ordered_keys_toList.imp compare_lt_iff_lt.mp

/-- What the loops generate is an outline of the plan, with sums and amounts in range. -/
theorem Scanned.outline (ha : Accepted input) {fund : Funding}
    {bounties grants : List ContractInvocation}
    (hg : Generated integers input state scan fund bounties grants) :
    (∀ asset, Short input state asset → CanFund integers input state asset) ∧
      (∀ b ∈ input.pendingBounties state, integers.represents b.amount = true) ∧
      (∀ g ∈ input.pendingGrants state, integers.represents g.totalAmount = true) ∧
      ∃ o : Outline input state, o.actions = numbered 1
        ((fund.actions.insertionSort fun a b => a.1 ≤ b.1).map Prod.snd ++ bounties ++ grants) := by
  have hentries : ∀ e ∈ scan.pendingBountyObligations.toList, obligation input state e.1 = e.2 :=
    fun e he => (hs.mem_obligations.mp he).1
  obtain ⟨hfund, hactions⟩ := foldlM_fundAsset hentries hg.funds
  obtain ⟨hbounties, rfl⟩ := (mapM_eq_ok planBounty_eq_ok).mp hg.imports
  obtain ⟨hgrants, rfl⟩ := (mapM_eq_ok planGrant_eq_ok).mp hg.importsGrants
  have hpb : scan.pendingBounties = input.pendingBounties state :=
    hs.bounties.trans (input.filterMap_pending_bounties state)
  have hpg : scan.pendingGrants = input.pendingGrants state :=
    hs.grants.trans (input.filterMap_pending_grants state)
  rw [hpb] at hbounties ⊢
  rw [hpg] at hgrants ⊢
  refine ⟨fun asset hshort => ?_, fun b hb => ?_, fun g hg => ?_, ⟨
    (scan.pendingBountyObligations.toList.filter (lacks input state)).map Prod.fst, _, _,
    pairwise_assets _ _, fun _ => hs.mem_shortAssets,
    pairwise_sortOn_lt (fun _ _ => .rfl) (ha.bounties_nodup state), List.perm_insertionSort _ _,
    pairwise_sortOn_lt (fun _ _ => .rfl) (ha.grants_nodup state), List.perm_insertionSort _ _⟩, ?_⟩
  · obtain ⟨e, he, hlacks, rfl⟩ := hs.short_iff.mp hshort
    exact hfund e he hlacks
  · exact hbounties b ((List.mem_insertionSort _).mpr hb)
  · exact (hgrants g ((List.mem_insertionSort _).mpr hg)).1
  · have hsorted : fund.actions.Pairwise fun a b => a.1 ≤ b.1 := by
      rw [hactions, List.nil_append, List.pairwise_map]
      exact (List.pairwise_map.mp (pairwise_assets _ _)).imp le_of_lt
    rw [hsorted.insertionSort_eq, hactions, List.nil_append, List.map_map, Outline.actions]
    simp only [List.map_map, Function.comp_def]

end Scanned

/-- A milestone's amount has a JSON number if the grant's total has one. -/
theorem represents_milestones {g : LegacyGrantRecord} (hg : SoundMilestones g)
    (h : integers.represents g.totalAmount = true) :
    ∀ m ∈ g.milestones, integers.represents m.amount = true := by
  obtain ⟨hpos, hsum, _⟩ := hg.amounts
  intro m hm
  refine integers.mono _ _ (hpos m hm).le ?_ h
  rw [← hsum]
  refine List.single_le_sum (fun n hn => ?_) _ (List.mem_map_of_mem hm)
  obtain ⟨x, hx, rfl⟩ := List.mem_map.mp hn
  exact (hpos x hx).le

theorem Accepted.sound_grant (ha : Accepted input) {g : LegacyGrantRecord} (hg : g ∈ input.grants) :
    SoundMilestones g :=
  (ha.sound (.grant g) (List.mem_append_right _ (List.mem_map_of_mem hg))).2.2

/-- What is asked for is enough for a plan. -/
theorem exists_plan (ha : Accepted input) (hfit : Fits input state)
    (hw : Writable input state integers config) :
    ∃ plan, generateMigrationPlan integers input state config = .ok plan := by
  obtain ⟨scan, hscan⟩ := (passes_iff ha state).mpr hfit.toSumsFit
  have hs := (scanned_initial input state).run ha.sound hscan
  have hfund : ∀ e ∈ scan.pendingBountyObligations.toList, lacks input state e = true →
      CanFund integers input state e.1 := fun e he hlacks => by
    have hshort := hs.short_iff.mpr ⟨e, he, hlacks, rfl⟩
    exact ⟨hfit.shortfalls _ hshort, hw.shortfalls _ hshort⟩
  obtain ⟨fund, hfund⟩ :=
    exists_foldlM_fundAsset (fun e he => (hs.mem_obligations.mp he).1) hfund {}
  have hpb : scan.pendingBounties = input.pendingBounties state :=
    hs.bounties.trans (input.filterMap_pending_bounties state)
  have hpg : scan.pendingGrants = input.pendingGrants state :=
    hs.grants.trans (input.filterMap_pending_grants state)
  have hg : Generated integers input state scan fund _ _ := {
    passes := hscan
    funds := hfund
    imports := (mapM_eq_ok planBounty_eq_ok).mpr ⟨fun b hb => by
      rw [hpb, List.mem_insertionSort] at hb
      exact hw.bounties b hb, rfl⟩
    importsGrants := (mapM_eq_ok planGrant_eq_ok).mpr ⟨fun g hg => by
      rw [hpg, List.mem_insertionSort] at hg
      have hrep := hw.grants g hg
      exact ⟨hrep, represents_milestones (ha.sound_grant (List.mem_of_mem_filter hg)) hrep⟩, rfl⟩ }
  exact hg.exists_plan (validate_eq_ok.mpr ha) hw.eta

/-- What is asked for is needed, and the actions are those of the outline. -/
theorem plan_outline (ha : Accepted input)
    (h : generateMigrationPlan integers input state config = .ok plan) :
    Fits input state ∧ Writable input state integers config ∧
      ∃ o : Outline input state, plan.actions = o.actions := by
  obtain ⟨scan, fund, bounties, grants, hg, heta, hactions, _⟩ := generate_eq_ok h
  have hs := (scanned_initial input state).run ha.sound hg.passes
  obtain ⟨hfund, hbounties, hgrants, o, ho⟩ := hs.outline ha hg
  exact ⟨⟨hs.sumsFit, fun a ha => (hfund a ha).1⟩,
    ⟨fun a ha => (hfund a ha).2, hbounties, hgrants, heta⟩, o, hactions.trans ho.symm⟩

/-- Every record is pending or migrated, and every liability paid or outstanding. -/
structure Balanced (input : LegacyInputFile) (state : StateProvider) (summary : ProgramSummary) :
    Prop where
  bountyTotal : summary.bountyRecordsTotal = input.bounties.length
  grantTotal : summary.grantRecordsTotal = input.grants.length
  bountyPending : summary.bountyRecordsPending = (input.pendingBounties state).length
  grantPending : summary.grantRecordsPending = (input.pendingGrants state).length
  bounties :
    summary.bountyRecordsPending + summary.bountyRecordsMigrated = summary.bountyRecordsTotal
  grants : summary.grantRecordsPending + summary.grantRecordsMigrated = summary.grantRecordsTotal
  liabilities : ∀ program asset, sumUnder summary.liabilitiesByProgram (program, asset) =
    sumUnder summary.historicalPaidByProgram (program, asset) +
      sumUnder summary.outstandingObligationsByProgram (program, asset)

theorem plan_balanced (ha : Accepted input)
    (h : generateMigrationPlan integers input state config = .ok plan) :
    Balanced input state plan.summary := by
  obtain ⟨scan, fund, bounties, grants, hg, _, _, hsummary⟩ := generate_eq_ok h
  have hs := (scanned_initial input state).run ha.sound hg.passes
  rw [hsummary]
  exact {
    bountyTotal := hs.bountyTotal
    grantTotal := hs.grantTotal
    bountyPending := by
      rw [hs.bountyPending, hs.bounties]
      exact congrArg _ (input.filterMap_pending_bounties state)
    grantPending := by
      rw [hs.grantPending, hs.grants]
      exact congrArg _ (input.filterMap_pending_grants state)
    bounties := by
      rw [hs.bountyCount, List.nil_append, input.filterMap_bounty?, hs.bountyTotal]
    grants := by
      rw [hs.grantCount, List.nil_append, input.filterMap_grant?, hs.grantTotal]
    liabilities := fun program asset => by
      rw [hs.liabilities.eq, hs.historical.eq, hs.outstanding.eq, tally_amount] }

end Generate

end RefractContracts.Xtask
