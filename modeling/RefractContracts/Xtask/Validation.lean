import RefractContracts.Xtask.Schema

/-! What the validation of an input file accepts, said of its records without the order in
which they are looked at. -/

namespace RefractContracts.Xtask

open Host

/-! ### Records -/

inductive Record where
  | bounty (b : LegacyBountyRecord)
  | grant (g : LegacyGrantRecord)

namespace Record

def legacyId : Record → String
  | .bounty b => b.legacyId
  | .grant g => g.legacyId

def asset : Record → String
  | .bounty b => b.asset
  | .grant g => g.asset

/-- The amount that a record is about. -/
def amount : Record → ℤ
  | .bounty b => b.amount
  | .grant g => g.totalAmount

def bounty? : Record → Option LegacyBountyRecord
  | .bounty b => some b
  | .grant _ => none

def grant? : Record → Option LegacyGrantRecord
  | .bounty _ => none
  | .grant g => some g

@[simp] theorem bounty?_bounty (b : LegacyBountyRecord) : (bounty b).bounty? = some b := rfl

@[simp] theorem bounty?_grant (g : LegacyGrantRecord) : (grant g).bounty? = none := rfl

@[simp] theorem grant?_bounty (b : LegacyBountyRecord) : (bounty b).grant? = none := rfl

@[simp] theorem grant?_grant (g : LegacyGrantRecord) : (grant g).grant? = some g := rfl

/-- One loop over the bounties and one over the grants, as one loop over records. -/
def loop {σ : Type} (f : σ → LegacyBountyRecord → Call σ) (g : σ → LegacyGrantRecord → Call σ)
    (s : σ) : Record → Call σ
  | .bounty b => f s b
  | .grant r => g s r

end Record

def LegacyInputFile.records (input : LegacyInputFile) : List Record :=
  input.bounties.map .bounty ++ input.grants.map .grant

theorem LegacyInputFile.filterMap_bounty? (input : LegacyInputFile) :
    input.records.filterMap Record.bounty? = input.bounties := by
  rw [records, List.filterMap_append, List.filterMap_map, List.filterMap_map]
  simp [Function.comp_def]

theorem LegacyInputFile.filterMap_grant? (input : LegacyInputFile) :
    input.records.filterMap Record.grant? = input.grants := by
  rw [records, List.filterMap_append, List.filterMap_map, List.filterMap_map]
  simp [Function.comp_def]

theorem LegacyInputFile.foldlM_records {σ : Type} (input : LegacyInputFile)
    (f : σ → LegacyBountyRecord → Call σ) (g : σ → LegacyGrantRecord → Call σ) (s : σ) :
    input.records.foldlM (Record.loop f g) s =
      input.bounties.foldlM f s >>= fun s => input.grants.foldlM g s := by
  rw [records, List.foldlM_append, List.foldlM_map]
  simp only [List.foldlM_map]
  rfl

/-! ### Sound records -/

section Sound
variable (knownAssets : List String)

def SoundHash (reportHash : String) : Prop :=
  let cleanHash := String.ofList (trimStart0x reportHash.toList)
  cleanHash.utf8ByteSize = 64 ∧ hexDecodes cleanHash = true

/-- The milestones pass their checks and add up to `total`. -/
def SoundMilestones (g : LegacyGrantRecord) : Prop :=
  g.milestones ≠ [] ∧ ∃ scan, g.milestones.zipIdx.foldlM (validateMilestone g) ⟨0, false, false⟩ =
    .ok scan ∧ scan.sum = g.totalAmount

/-- The record passes the checks that look at it alone. -/
def Record.Sound (r : Record) : Prop :=
  r.asset ∈ knownAssets ∧ 0 < r.amount ∧
    match r with
    | .bounty b => SoundHash b.reportHash
    | .grant g => SoundMilestones g

theorem seeLegacyId_eq_ok {seen seen' : List String} {id : String} :
    seeLegacyId seen id = .ok seen' ↔
      (trim id ≠ "" ∧ trim id ∉ seen) ∧ trim id :: seen = seen' := by
  simp [seeLegacyId]

theorem loop_validate_eq_ok {seen seen' : List String} {r : Record} :
    Record.loop (validateBounty knownAssets) (validateGrant knownAssets) seen r = .ok seen' ↔
      ((trim r.legacyId ≠ "" ∧ trim r.legacyId ∉ seen) ∧ r.Sound knownAssets) ∧
        trim r.legacyId :: seen = seen' := by
  cases r with
  | bounty b =>
    simp only [Record.loop, validateBounty, bind_eq_ok, bail_eq_ok, pure_eq_ok, seeLegacyId_eq_ok,
      Record.Sound, Record.legacyId, Record.asset, Record.amount, SoundHash]
    constructor
    · rintro ⟨_, ⟨hid, rfl⟩, _, hasset, _, hamount, _, hhash, rfl⟩
      exact ⟨⟨hid, not_not.mp hasset, not_le.mp hamount, by simpa using hhash⟩, rfl⟩
    · rintro ⟨⟨hid, hasset, hamount, hhash⟩, rfl⟩
      exact ⟨_, ⟨hid, rfl⟩, (), not_not.mpr hasset, (), not_le.mpr hamount, (),
        by simpa using hhash, rfl⟩
  | grant g =>
    simp only [Record.loop, validateGrant, bind_eq_ok, bail_eq_ok, pure_eq_ok, seeLegacyId_eq_ok,
      Record.Sound, Record.legacyId, Record.asset, Record.amount, SoundMilestones]
    constructor
    · rintro ⟨_, ⟨hid, rfl⟩, _, hasset, _, htotal, _, hne, scan, hscan, _, hsum, rfl⟩
      exact ⟨⟨hid, not_not.mp hasset, not_le.mp htotal, hne, scan, hscan, not_not.mp hsum⟩, rfl⟩
    · rintro ⟨⟨hid, hasset, htotal, hne, scan, hscan, hsum⟩, rfl⟩
      exact ⟨_, ⟨hid, rfl⟩, (), not_not.mpr hasset, (), not_le.mpr htotal, (), hne, scan, hscan, (),
        not_not.mpr hsum, rfl⟩

/-- A loop over records sees each identifier for the first time. -/
theorem foldlM_validate_eq_ok {seen seen' : List String} {l : List Record} :
    l.foldlM (Record.loop (validateBounty knownAssets) (validateGrant knownAssets)) seen =
        .ok seen' ↔
      ((∀ r ∈ l, trim r.legacyId ≠ "" ∧ trim r.legacyId ∉ seen ∧ r.Sound knownAssets) ∧
        (l.map fun r => trim r.legacyId).Nodup) ∧
        (l.map fun r => trim r.legacyId).reverse ++ seen = seen' := by
  induction l generalizing seen with
  | nil => simp
  | cons r l ih =>
    simp only [List.foldlM_cons, bind_eq_ok, loop_validate_eq_ok, ih, List.forall_mem_cons,
      List.map_cons, List.nodup_cons, List.reverse_cons, List.append_assoc, List.singleton_append,
      List.mem_map, not_exists, not_and]
    constructor
    · rintro ⟨_, ⟨⟨⟨hname, hnew⟩, hr⟩, rfl⟩, ⟨hl, hnodup⟩, rfl⟩
      refine ⟨⟨⟨⟨hname, hnew, hr⟩, fun x hx => ?_⟩, fun x hx heq => ?_, hnodup⟩, rfl⟩
      · obtain ⟨hxname, hxnew, hxr⟩ := hl x hx
        exact ⟨hxname, fun h => hxnew (List.mem_cons_of_mem _ h), hxr⟩
      · exact (hl x hx).2.1 (heq ▸ List.mem_cons_self)
    · rintro ⟨⟨⟨⟨hname, hnew, hr⟩, hl⟩, hne, hnodup⟩, rfl⟩
      refine ⟨_, ⟨⟨⟨hname, hnew⟩, hr⟩, rfl⟩, ⟨fun x hx => ?_, hnodup⟩, rfl⟩
      obtain ⟨hxname, hxnew, hxr⟩ := hl x hx
      exact ⟨hxname, List.not_mem_cons_of_ne_of_not_mem (hne x hx) hxnew, hxr⟩

end Sound

/-- What the validation asks of a file. -/
structure Accepted (input : LegacyInputFile) : Prop where
  version : input.schemaVersion = currentSchemaVersion
  named : ∀ r ∈ input.records, trim r.legacyId ≠ ""
  distinct : (input.records.map fun r => trim r.legacyId).Nodup
  sound : ∀ r ∈ input.records, r.Sound (input.assets.map AssetConfig.symbol)

theorem validate_eq_ok {input : LegacyInputFile} :
    input.validate = .ok () ↔ Accepted input := by
  have hloops : input.validate = (do
      bail (input.schemaVersion ≠ currentSchemaVersion)
        (.unsupportedSchemaVersion currentSchemaVersion input.schemaVersion)
      let _ ← input.records.foldlM (Record.loop
        (validateBounty (input.assets.map AssetConfig.symbol))
        (validateGrant (input.assets.map AssetConfig.symbol))) []
      pure ()) := by
    simp only [LegacyInputFile.validate, input.foldlM_records, bind_assoc]
  rw [hloops]
  simp only [bind_eq_ok, bail_eq_ok, pure_eq_ok, foldlM_validate_eq_ok, not_not]
  constructor
  · rintro ⟨_, hversion, _, ⟨⟨hrecords, hdistinct⟩, _⟩, _⟩
    exact ⟨hversion, fun r hr => (hrecords r hr).1, hdistinct, fun r hr => (hrecords r hr).2.2⟩
  · intro h
    exact ⟨(), h.version, _, ⟨⟨fun r hr => ⟨h.named r hr, List.not_mem_nil, h.sound r hr⟩,
      h.distinct⟩, rfl⟩, trivial⟩

/-! ### What soundness says of amounts -/

/-- The amounts of the milestones add up in range. -/
theorem foldlM_validateMilestone {g : LegacyGrantRecord} {scan scan' : MilestoneScan}
    {l : List (LegacyGrantMilestone × ℕ)} (h : l.foldlM (validateMilestone g) scan = .ok scan')
    (hfit : scan.sum ≤ maxI128) :
    (∀ e ∈ l, 0 < e.1.amount) ∧ scan'.sum = scan.sum + (l.map fun e => e.1.amount).sum ∧
      scan'.sum ≤ maxI128 := by
  induction l generalizing scan with
  | nil =>
    obtain rfl := (pure_eq_ok _ _).mp h
    simpa using hfit
  | cons e l ih =>
    rw [List.foldlM_cons, bind_eq_ok] at h
    obtain ⟨mid, he, hl⟩ := h
    simp only [validateMilestone, bind_eq_ok, bail_eq_ok, pure_eq_ok, i128Checked_eq_ok] at he
    obtain ⟨_, _, _, hpos, _, ⟨⟨_, hmax⟩, rfl⟩, _, _, _, _, _, _, rfl⟩ := he
    obtain ⟨hall, hsum, hle⟩ := ih hl hmax
    refine ⟨List.forall_mem_cons.mpr ⟨not_le.mp hpos, hall⟩, ?_, hle⟩
    rw [hsum, List.map_cons, List.sum_cons, add_assoc]

theorem SoundMilestones.amounts {g : LegacyGrantRecord} (h : SoundMilestones g) :
    (∀ m ∈ g.milestones, 0 < m.amount) ∧ (g.milestones.map (·.amount)).sum = g.totalAmount ∧
      g.totalAmount ≤ maxI128 := by
  obtain ⟨_, scan, hscan, htotal⟩ := h
  obtain ⟨hpos, hsum, hle⟩ := foldlM_validateMilestone hscan zero_le_maxI128
  have hmap : g.milestones.zipIdx.map (fun e => e.1.amount) = g.milestones.map (·.amount) := by
    calc g.milestones.zipIdx.map (fun e => e.1.amount)
        = (g.milestones.zipIdx.map Prod.fst).map (·.amount) := List.map_map.symm
      _ = g.milestones.map (·.amount) := by rw [List.zipIdx_map_fst]
  refine ⟨fun m hm => ?_, ?_, htotal ▸ hle⟩
  · rw [← List.zipIdx_map_fst 0 g.milestones] at hm
    obtain ⟨e, he, rfl⟩ := List.mem_map.mp hm
    exact hpos e he
  · rw [← hmap, ← htotal, hsum, zero_add]

end RefractContracts.Xtask
