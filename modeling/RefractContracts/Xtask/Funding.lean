import RefractContracts.Xtask.Replan

/-! What a plan asks of the treasury. An asset is funded with what the escrow lacks of its
obligations, by the larger of the balance on chain and the balance the file declares; the
balance of the treasury is not read. So the funding is enough where the file declares no more
than there is, and affordable where the treasury happens to hold it. -/

namespace RefractContracts.Xtask

open Host

/-- What the plan takes from the treasury for the bounty escrow. -/
def MigrationPlan.treasuryFunding (plan : MigrationPlan) (asset : String) : ℤ :=
  plan.summary.requiredTreasuryFunding.getD asset 0

/-- The balance of the escrow that the file declares. -/
def LegacyInputFile.declaredEscrow (input : LegacyInputFile) (asset : String) : ℤ :=
  (input.escrowBalances["bounty_escrow"]?.bind (·[asset]?)).getD 0

/-! ### The loop over the obligations -/

section Loop
variable {integers : JsonIntegers} {input : LegacyInputFile} {state : StateProvider}
variable {fund fund' : Funding} {entry : String × ℤ} {asset : String}

theorem fundAsset_required (asset : String) (hn : obligation input state entry.1 = entry.2)
    (hok : fundAsset integers input state fund entry = .ok fund') :
    fund'.required.getD asset 0 = if lacks input state entry = true ∧ entry.1 = asset then
      shortfall input state asset else fund.required.getD asset 0 := by
  obtain ⟨key, n⟩ := entry
  obtain rfl : obligation input state key = n := hn
  by_cases hlacks : escrowBalance input state key < obligation input state key
  · simp only [fundAsset, if_pos hlacks, bind_eq_ok, i128_eq_ok, toJson_eq_ok, pure_eq_ok] at hok
    obtain ⟨_, ⟨-, rfl⟩, _, -, rfl⟩ := hok
    rw [Std.TreeMap.getD_insert]
    simp only [Std.LawfulEqCmp.compare_eq_iff_eq, lacks, hlacks, decide_true, true_and]
    split_ifs with hkey
    · rw [← hkey]
      rfl
    · rfl
  · simp only [fundAsset, if_neg hlacks, pure_eq_ok] at hok
    obtain rfl := hok
    have hno : ¬ (lacks input state (key, obligation input state key) = true ∧ key = asset) :=
      fun h => hlacks (of_decide_eq_true h.1)
    rw [if_neg hno]

/-- Each asset is funded that some obligation lacks, with what it lacks. -/
theorem foldlM_required {l : List (String × ℤ)} (hl : ∀ e ∈ l, obligation input state e.1 = e.2)
    (hok : l.foldlM (fundAsset integers input state) fund = .ok fund') :
    ((∃ e ∈ l, lacks input state e = true ∧ e.1 = asset) →
      fund'.required.getD asset 0 = shortfall input state asset) ∧
    ((¬ ∃ e ∈ l, lacks input state e = true ∧ e.1 = asset) →
      fund'.required.getD asset 0 = fund.required.getD asset 0) := by
  induction l generalizing fund with
  | nil =>
    obtain rfl := (pure_eq_ok _ _).mp hok
    exact ⟨nofun, fun _ => rfl⟩
  | cons e l ih =>
    obtain ⟨he, hl⟩ := List.forall_mem_cons.mp hl
    rw [List.foldlM_cons, bind_eq_ok] at hok
    obtain ⟨mid, hmid, hok⟩ := hok
    have hround := fundAsset_required asset he hmid
    obtain ⟨hin, hout⟩ := ih hl hok
    simp only [List.mem_cons, exists_eq_or_imp]
    by_cases hrest : ∃ e ∈ l, lacks input state e = true ∧ e.1 = asset
    · exact ⟨fun _ => hin hrest, fun hno => absurd (.inr hrest) hno⟩
    · rw [hout hrest, hround]
      split_ifs with hhead
      · exact ⟨fun _ => rfl, fun hno => absurd (.inl hhead) hno⟩
      · exact ⟨fun h => absurd h (not_or.mpr ⟨hhead, hrest⟩), fun _ => rfl⟩

end Loop

/-! ### The funding of a plan -/

section Funding
variable {integers : JsonIntegers} {input : LegacyInputFile} {state : StateProvider}
variable {config : GeneratorConfig} {plan : MigrationPlan} {asset : String}

theorem treasuryFunding_eq (asset : String) (ha : Accepted input)
    (h : generateMigrationPlan integers input state config = .ok plan) :
    (Short input state asset → plan.treasuryFunding asset = shortfall input state asset) ∧
      (¬ Short input state asset → plan.treasuryFunding asset = 0) := by
  obtain ⟨scan, fund, bounties, grants, hg, -, -, hsummary⟩ := generate_eq_ok h
  have hs := (scanned_initial input state).run ha.sound hg.passes
  have hentries : ∀ e ∈ scan.pendingBountyObligations.toList, obligation input state e.1 = e.2 :=
    fun e he => (hs.mem_obligations.mp he).1
  have hplan : plan.treasuryFunding asset = fund.required.getD asset 0 := by
    rw [MigrationPlan.treasuryFunding, hsummary]
  rw [hs.short_iff, hplan]
  exact foldlM_required hentries hg.funds

/-- The escrow on chain holds what is owed, or something is owed and the file declares no more
than the escrow holds; and the treasury holds what the escrow lacks. -/
structure Covered (input : LegacyInputFile) (state : StateProvider)
    (treasuryBalance : String → ℤ) (asset : String) : Prop where
  declared : obligation input state asset ≤ state.getEscrowBalance "bounty_escrow" asset ∨
    0 < obligation input state asset ∧
      input.declaredEscrow asset ≤ state.getEscrowBalance "bounty_escrow" asset
  treasury : max 0 (obligation input state asset -
    state.getEscrowBalance "bounty_escrow" asset) ≤ treasuryBalance asset

/-- The funding of a plan is enough and affordable exactly where the file declares no more than
the escrow holds and the treasury holds the rest. -/
theorem treasuryFunding_iff (integers : JsonIntegers) (input : LegacyInputFile)
    (state : StateProvider) (config : GeneratorConfig) (getTreasuryBalance : String → ℤ)
    (plan : MigrationPlan) (h : generateMigrationPlan integers input state config = .ok plan) :
    (∀ asset, obligation input state asset ≤
        state.getEscrowBalance "bounty_escrow" asset + plan.treasuryFunding asset ∧
      plan.treasuryFunding asset ≤ getTreasuryBalance asset) ↔
      ∀ asset, Covered input state getTreasuryBalance asset := by
  have ha : Accepted input := by
    simp only [generateMigrationPlan, bind_eq_ok] at h
    obtain ⟨_, hv, -⟩ := h
    exact validate_eq_ok.mp hv
  refine forall_congr' fun asset => ?_
  obtain ⟨hshort, hno⟩ := treasuryFunding_eq asset ha h
  have hbalance : escrowBalance input state asset =
      max (state.getEscrowBalance "bounty_escrow" asset) (input.declaredEscrow asset) := rfl
  by_cases hs : Short input state asset
  · have hfunding := hshort hs
    obtain ⟨howed, hlacking⟩ := hs
    rw [shortfall] at hfunding
    constructor
    · rintro ⟨henough, hafford⟩
      exact ⟨by omega, by omega⟩
    · rintro ⟨hdeclared, htreasury⟩
      exact ⟨by omega, by omega⟩
  · have hfunding := hno hs
    have hheld : 0 < obligation input state asset →
        obligation input state asset ≤ escrowBalance input state asset :=
      fun howed => not_lt.mp fun hlacking => hs ⟨howed, hlacking⟩
    constructor
    · rintro ⟨henough, hafford⟩
      exact ⟨by omega, by omega⟩
    · rintro ⟨hdeclared, htreasury⟩
      exact ⟨by omega, by omega⟩

theorem treasuryFunding_rehearsal :
    ∃ plan, generateMigrationPlan wordIntegers rehearsal (emptyChain 200) {} = .ok plan ∧
      ∀ asset, obligation rehearsal (emptyChain 200) asset ≤ 200 + plan.treasuryFunding asset ∧
        plan.treasuryFunding asset ≤ 700 := by
  have ha : Accepted rehearsal := validate_eq_ok.mp (by decide +kernel)
  have he := escrowBalance_sample (show (0 : ℤ) ≤ 200 by decide) rehearsal.bounties rehearsal.grants
  have hf : Fits rehearsal (emptyChain 200) := fits_of_total ha he (by decide +kernel)
  have hw : Writable rehearsal (emptyChain 200) wordIntegers {} :=
    writable_of_total ha he (by decide +kernel) (by decide)
  obtain ⟨plan, hplan⟩ := exists_plan ha hf hw
  refine ⟨plan, hplan, (treasuryFunding_iff _ _ _ _ (fun _ => 700) plan hplan).mpr fun asset => ?_⟩
  have htotal : obligation rehearsal (emptyChain 200) asset ≤
      ((rehearsal.pending (emptyChain 200)).map Record.amount).sum := obligation_le_total ha asset
  have hsum : ((rehearsal.pending (emptyChain 200)).map Record.amount).sum = 900 := by
    decide +kernel
  have hdeclared : rehearsal.declaredEscrow asset = 0 := rfl
  have honchain : (emptyChain 200).getEscrowBalance "bounty_escrow" asset = 200 := rfl
  rw [hsum] at htotal
  exact ⟨by omega, by omega⟩

/-- A file that declares an escrow of 500 for a bounty of 500. -/
def staleFile : LegacyInputFile :=
  { sampleFile [sampleBounty "BOUNTY-1" 500 false] [] with
    escrowBalances := (∅ : Std.TreeMap String (Std.TreeMap String ℤ)).insert "bounty_escrow"
      ((∅ : Std.TreeMap String ℤ).insert "USDC" 500) }

/-- The plan funds nothing, though the escrow on chain is empty. -/
theorem staleFile_unfunded : ¬ ∀ (integers : JsonIntegers) (input : LegacyInputFile)
    (state : StateProvider) (config : GeneratorConfig) (getTreasuryBalance : String → ℤ)
    (plan : MigrationPlan), generateMigrationPlan integers input state config = .ok plan →
    ∀ asset, obligation input state asset ≤
        state.getEscrowBalance "bounty_escrow" asset + plan.treasuryFunding asset ∧
      plan.treasuryFunding asset ≤ getTreasuryBalance asset := by
  intro h
  have hplan : ((generateMigrationPlan wordIntegers staleFile (emptyChain 0) {}).toOption.map
      (·.treasuryFunding "USDC")) = some 0 := by decide +kernel
  cases hgenerate : generateMigrationPlan wordIntegers staleFile (emptyChain 0) {} with
  | error e =>
    rw [hgenerate] at hplan
    cases hplan
  | ok plan =>
    rw [hgenerate] at hplan
    have hfunding : plan.treasuryFunding "USDC" = 0 := Option.some.inj hplan
    have henough := (h _ _ _ _ (fun _ => 500) plan hgenerate "USDC").1
    rw [hfunding] at henough
    exact absurd henough (by decide +kernel)

end Funding

end RefractContracts.Xtask
