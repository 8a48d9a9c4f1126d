import RefractContracts.Backstop.Flows

/-! Total capital against tranche assets. Deposits, withdrawals and premiums move
both by the same amount. A drawdown lowers the total capital alone, so the
tranches' assets exceed the capital by exactly what was drawn: the share prices
never show the loss, and whoever withdraws last bears it. -/

namespace RefractContracts.Backstop

open Host Math

variable {Address : Type} {H : Helpers Address} {w w' : World Address} {self : Address}

/-- The capital equals what the tranches record as theirs. -/
def Accounted (w : World Address) : Prop := totalCapital w = allAssets w

/-! ### Bookkeeping -/

/-- The books after `drawn` has been drawn in total. -/
structure Books (vault : Address) (w : World Address) (drawn : ℤ) : Prop where
  capital_nonneg : 0 ≤ totalCapital w
  capital_le : totalCapital w ≤ maxI128
  funded : totalCapital w ≤ w.ledger.balance vault
  accounted : totalCapital w + drawn = allAssets w
  fresh : w.configEntry = none → totalCapital w = 0 ∧ allAssets w = 0

theorem Funded.books (f : Funded self w) {drawn : ℤ}
    (accounted : totalCapital w + drawn = allAssets w)
    (fresh : w.configEntry = none → allAssets w = 0) : Books self w drawn :=
  ⟨f.nonneg, f.fits, f.covered, accounted, fun hn => by
    have hs := f.fresh hn
    exact ⟨by simp [totalCapital, hs], fresh hn⟩⟩

namespace Books

variable {drawn : ℤ}

/-- The books see the totals and the assets. -/
theorem transport (b : Books self w drawn) (f : Funded self w')
    (hc : w'.configEntry = w.configEntry) (hs : w'.stateEntry = w.stateEntry)
    (ha : allAssets w' = allAssets w) : Books self w' drawn := by
  have hcapital := (totals_congr hs).1
  refine f.books ?_ fun hn => ?_
  · rw [hcapital, ha, b.accounted]
  · rw [ha]
    exact (b.fresh (hc ▸ hn)).2

/-- What is drawn is missing from the capital and not from the assets. -/
theorem shift {capital out assets : ℤ} (b : Books self w drawn) (f : Funded self w')
    (s : Shift w w' capital out assets) (hbalanced : capital + out = assets) :
    Books self w' (drawn + out) := by
  have haccounted := b.accounted
  have hcapital := s.capital
  have hassets := s.assets
  exact f.books (by omega) fun hn => absurd (s.config ▸ hn) s.configured

/-- A premium credit raises capital and assets alike. -/
theorem credited (hH : H.Lawful) {cut credit : ℤ} (b : Books self w drawn) (f : Funded self w')
    (c : Credited H self w w' cut credit) : Books self w' drawn := by
  obtain ⟨v, u, junior, senior, _, _, hj, hs, hjunior, hsenior, rfl, hassets⟩ := c.split
  obtain ⟨-, -, -, -, hja⟩ := hH.credit hjunior hj
  obtain ⟨-, -, -, -, hsa⟩ := hH.credit hsenior hs
  have haccounted := b.accounted
  have hcapital := c.capital
  have hall : allAssets w' = allAssets w + (junior + senior) := by
    simp only [allAssets, hassets, hsa, hja]
    simp
    ring
  exact f.books (by omega) fun hn => absurd (c.config ▸ hn) c.configured

end Books

/-! ### Runs -/

/-- What an accepted transaction draws down. -/
def drawnBy (x : Entry Address) : ℤ :=
  match x.call.op with
  | .drawDown _ _ amount => amount
  | _ => 0

def totalDrawn (h : List (Entry Address)) : ℤ := (h.map drawnBy).sum

variable [DecidableEq Address]

theorem Effect.books (hH : H.Lawful) {x : Entry Address}
    (e : Effect H self x.pre x.post x.call.op x.out) (f : Funded self x.pre) {drawn : ℤ}
    (b : Books self x.pre drawn) : 0 ≤ drawnBy x ∧ Books self x.post (drawn + drawnBy x) := by
  have f' := e.funded hH.bounded f
  obtain ⟨w, ⟨signers, op⟩, out, w'⟩ := x
  change Effect H self w w' op out at e
  change Funded self w at f
  change Books self w drawn at b
  have undrawn : drawnBy ⟨w, ⟨signers, op⟩, out, w'⟩ = 0 → Books self w' drawn →
      0 ≤ drawnBy ⟨w, ⟨signers, op⟩, out, w'⟩ ∧
        Books self w' (drawn + drawnBy ⟨w, ⟨signers, op⟩, out, w'⟩) := by
    intro hnone hb
    rw [hnone, add_zero]
    exact ⟨le_rfl, hb⟩
  -- the books after the lots have matured
  have matured : ∀ {v : World Address} {n : ℕ}, H.syncMatured w = .ok (v, n) →
      Books self v drawn := by
    intro v n hsync
    obtain ⟨hc, hs, -, ha⟩ := hH.sync hsync
    exact b.transport (f.sync hH.bounded hsync) hc hs (by simp [allAssets, ha])
  cases e with
  | initialized first opened =>
    have haccounted := b.accounted
    obtain ⟨hcapital, hassets⟩ := b.fresh first
    refine undrawn rfl (f'.books ?_ fun hn => absurd hn opened.configured)
    rw [opened.capital, opened.assets]
    omega
  | deposited kind synced outside pos shift =>
    have hb := (matured synced).shift f' shift (add_zero _)
    rw [add_zero] at hb
    rcases kind with rfl | rfl
    · exact undrawn rfl hb
    · exact undrawn rfl hb
  | withdrawn kind synced outside quote covered shift =>
    have hb := (matured synced).shift f' shift (add_zero _)
    rw [add_zero] at hb
    rcases kind with rfl | rfl
    · exact undrawn rfl hb
    · exact undrawn rfl hb
  | drawn outside covered shift moved =>
    exact ⟨moved.nonneg, b.shift f' shift (neg_add_cancel _)⟩
  | @earned source amount _ ledger outside earned paid =>
    obtain ⟨credit, credited⟩ := earned.credit hH.bounded f amount.2.2 outside paid
    exact undrawn rfl (b.credited hH f' credited)
  | synced synced => exact undrawn rfl (matured synced)
  | idle kind quiet =>
    have hassets : allAssets w' = allAssets w := by
      simp [allAssets, trancheAssets, quiet.tranches]
    refine undrawn ?_ (b.transport f' quiet.config quiet.state hassets)
    cases op with
    | drawDown => cases kind
    | _ => rfl
  | transferred outside quiet =>
    have hassets : allAssets w' = allAssets w := by
      simp [allAssets, trancheAssets, quiet.tranches]
    exact undrawn rfl (b.transport f' quiet.config quiet.state hassets)

omit [DecidableEq Address] in
theorem books_deployed (now sequence : ℕ) (ledger : Token Address) :
    Books self (deployed now sequence ledger) 0 :=
  (funded_deployed now sequence ledger).books rfl fun _ => rfl

/-- Every draw is nonnegative, and the assets exceed the capital by all of them. -/
theorem books_run (hH : H.Lawful) (self : Address) (now sequence : ℕ) (ledger : Token Address)
    (calls : List (Transaction Address)) :
    let r := run (step H self) (deployed now sequence ledger) calls
    (∀ x ∈ r.2, 0 ≤ drawnBy x) ∧ Books self r.1 (totalDrawn r.2) := by
  intro r
  have all : Funded self r.1 ∧ (∀ x ∈ r.2, 0 ≤ drawnBy x) ∧ Books self r.1 (totalDrawn r.2) := by
    refine (run_trace (step H self) (deployed now sequence ledger) calls).history
      (I := fun h w => Funded self w ∧ (∀ x ∈ h, 0 ≤ drawnBy x) ∧ Books self w (totalDrawn h))
      (fun g x hx before => ?_)
      ⟨funded_deployed now sequence ledger, by simp, books_deployed now sequence ledger⟩
    obtain ⟨hf, hdrawn, hb⟩ := before
    have e := step_effect hx
    obtain ⟨hnonneg, hbooks⟩ := e.books hH hf hb
    exact ⟨e.funded hH.bounded hf, forall_mem_snoc hdrawn hnonneg,
      by simpa [totalDrawn] using hbooks⟩
  exact all.2

/-- The capital is accounted to the tranches exactly while nothing has been drawn. -/
theorem accounted_iff_undrawn (hH : H.Lawful) (self : Address) (now sequence : ℕ)
    (ledger : Token Address) (calls : List (Transaction Address)) :
    let r := run (step H self) (deployed now sequence ledger) calls
    Accounted r.1 ↔ ∀ x ∈ r.2, drawnBy x = 0 := by
  intro r
  obtain ⟨hnonneg, b⟩ : (∀ x ∈ r.2, 0 ≤ drawnBy x) ∧ Books self r.1 (totalDrawn r.2) :=
    books_run hH self now sequence ledger calls
  have hacc := b.accounted
  have hsum : totalDrawn r.2 = 0 ↔ ∀ x ∈ r.2, drawnBy x = 0 := by
    refine ⟨fun hz x hx => ?_, fun hz => List.sum_eq_zero (by simpa using hz)⟩
    exact List.all_zero_of_le_zero_le_of_sum_eq_zero (by simpa using hnonneg) hz
      (List.mem_map_of_mem hx)
  rw [← hsum, Accounted]
  omega

/-! ### Two stakers and a drawdown -/

/-- Two stakers of one hundred each, and a drawdown of half the capital. -/
def twoStakers : Token ℕ := (Token.empty.mint 3 100).mint 4 100

def stakeAndDraw : List (Transaction ℕ) :=
  [⟨[2], .initializeContract 1 2 9 0⟩, ⟨[3], .deposit 3 100⟩, ⟨[4], .deposit 4 100⟩,
    ⟨[1], .drawDown 1 7 100⟩]

def exits (first second : ℕ) : List (Transaction ℕ) :=
  stakeAndDraw ++ [⟨[first], .withdraw first 100⟩, ⟨[second], .withdraw second 100⟩]

/-- After the drawdown the books do not balance: the first to leave is repaid in
full and the second is left with the whole loss. -/
theorem drawdown_unaccounted :
    let ends calls := (run (step proportionalHelpers 0) (deployed 0 0 twoStakers) calls).1
    ¬ Accounted (ends stakeAndDraw) ∧
      (ends (exits 3 4)).ledger.balance 3 = 100 ∧ (ends (exits 3 4)).ledger.balance 4 = 0 ∧
      (ends (exits 4 3)).ledger.balance 3 = 0 ∧ (ends (exits 4 3)).ledger.balance 4 = 100 := by
  unfold Accounted
  decide +kernel

theorem accounted_iff_undrawn_twoStakers :
    let r := run (step proportionalHelpers 0) (deployed 0 0 twoStakers) stakeAndDraw
    Accounted r.1 ↔ ∀ x ∈ r.2, drawnBy x = 0 :=
  accounted_iff_undrawn proportionalHelpers_lawful 0 0 0 twoStakers stakeAndDraw

end RefractContracts.Backstop
