import RefractContracts.Host.Vault
import RefractContracts.Pool.Policies

/-! The providers' shares. The pool is a vault of its capital: deposits and
withdrawals are priced by it and never lower the price, and a pool without shares
has no capital. What leaves the pool was deposited or paid as a premium. -/

namespace RefractContracts.Pool

open Host

variable {Address : Type} {w w' : World Address} {amount shares out : ℤ}

def vault (w : World Address) : Vault := ⟨(accounting w).totalCapital, (accounting w).totalShares⟩

theorem calcShares_ok (hv : (vault w).Sound) (ha : 0 ≤ amount)
    (h : calcShares w amount = .ok shares) : shares = (vault w).mint amount := by
  by_cases hz : (accounting w).totalShares = 0 ∨ (accounting w).totalCapital = 0
  · have hmint : (vault w).mint amount = amount := if_pos hz
    simp only [calcShares, if_pos hz, pure_eq_ok] at h
    rw [hmint, h]
  · have hmint : (vault w).mint amount =
        amount * (accounting w).totalShares / (accounting w).totalCapital := if_neg hz
    simp only [calcShares, if_neg hz, bind_eq_ok, i128_eq_ok] at h
    obtain ⟨_, ⟨-, rfl⟩, -, rfl⟩ := h
    rw [hmint]
    exact Int.tdiv_eq_ediv_of_nonneg (mul_nonneg ha hv.shares_nonneg)

/-- An accepted quote is the vault's, within the supply and the utilization check. -/
theorem quoteWithdrawal_ok (hv : 0 ≤ (vault w).assets) (hs : 0 < shares)
    (h : quoteWithdrawal w shares = .ok out) :
    shares ≤ (vault w).shares ∧ out = (vault w).redeem shares ∧
      (0 < (vault w).assets - out →
        ((accounting w).totalCoverage * bps).tdiv ((vault w).assets - out) ≤
          (config w).maxUtilizationBps) := by
  simp only [quoteWithdrawal, bind_eq_ok, bail_eq_ok, i128_eq_ok, not_lt] at h
  obtain ⟨_, hle, _, ⟨-, rfl⟩, _, ⟨-, rfl⟩, _, ⟨-, rfl⟩, h⟩ := h
  have hq : (shares * (accounting w).totalCapital).tdiv (accounting w).totalShares =
      (vault w).redeem shares :=
    Int.tdiv_eq_ediv_of_nonneg (mul_nonneg hs.le hv)
  rw [hq] at h
  split_ifs at h with hpos
  · simp only [bind_eq_ok, bail_eq_ok, i128_eq_ok, pure_eq_ok, not_lt] at h
    obtain ⟨_, ⟨-, rfl⟩, _, hutil, rfl⟩ := h
    exact ⟨hle, rfl, fun _ => hutil⟩
  · obtain rfl := (pure_eq_ok _ _).mp h
    exact ⟨hle, rfl, fun hp => absurd hp hpos⟩

theorem checkCoverageCapacity_le {n : ℤ} (h : checkCoverageCapacity w amount = .ok n) :
    n ≤ ((accounting w).totalCapital * (config w).maxUtilizationBps).tdiv bps := by
  simp only [checkCoverageCapacity, bind_eq_ok, bail_eq_ok, i128_eq_ok, pure_eq_ok, not_lt] at h
  obtain ⟨_, -, _, ⟨-, rfl⟩, _, ⟨-, rfl⟩, _, hle, rfl⟩ := h
  exact hle

/-- No coverage costs nothing. -/
theorem calcPremium_zero {riskMultiplier : CoverageType → ℤ} {cfg : PoolConfig}
    {params : PolicyParams} {premium : ℤ} (hz : params.coverageAmount = 0)
    (h : calcPremium riskMultiplier cfg params = .ok premium) : premium = 0 := by
  simp only [calcPremium, hz, bind_eq_ok, i128_eq_ok, pure_eq_ok] at h
  obtain ⟨_, ⟨-, rfl⟩, _, ⟨-, rfl⟩, _, ⟨-, rfl⟩, _, ⟨-, rfl⟩, rfl⟩ := h
  simp

/-! ### Prices -/

structure ShareBook (w : World Address) : Prop where
  sound : (vault w).Sound
  total : HasTotal (sharesOf w) (vault w).shares
  held : ∀ a, 0 ≤ sharesOf w a
  coverage : 0 ≤ (accounting w).totalCoverage
  minCoverage : 0 ≤ (config w).minCoverage

variable [DecidableEq Address] {riskMultiplier : CoverageType → ℤ} {self a b : Address}

theorem Provided.vault_eq (e : Provided self w w' a amount shares) (hv : (vault w).Sound) :
    vault w' = (vault w).deposit amount := by
  rw [vault, e.books, calcShares_ok hv e.pos.le e.priced]
  rfl

theorem Withdrawn.vault_eq (e : Withdrawn self w w' a shares out) (hv : (vault w).Sound) :
    vault w' = (vault w).burn shares := by
  rw [vault, e.books, (quoteWithdrawal_ok hv.assets_nonneg e.pos e.priced).2.1]
  rfl

namespace ShareBook

theorem provide (b : ShareBook w) (e : Provided self w w' a amount shares) : ShareBook w' := by
  have hm : shares = (vault w).mint amount := calcShares_ok b.sound e.pos.le e.priced
  have hvault := e.vault_eq b.sound
  have hnonneg : 0 ≤ shares := hm ▸ Vault.mint_nonneg b.sound e.pos.le
  refine ⟨hvault ▸ Vault.sound_deposit b.sound e.pos, ?_, fun c => ?_, ?_, e.config ▸ b.minCoverage⟩
  · rw [e.shares, hvault]
    refine (b.total.update a _).congr (fun _ => rfl) ?_
    simp only [Vault.deposit, ← hm]
    ring
  · rw [e.shares]
    by_cases hc : c = a
    · rw [hc, Function.update_self]
      exact add_nonneg (b.held a) hnonneg
    · rw [Function.update_of_ne hc]
      exact b.held c
  · rw [e.books]
    exact b.coverage

theorem withdraw (b : ShareBook w) (e : Withdrawn self w w' a shares out) : ShareBook w' := by
  obtain ⟨hle, -, -⟩ := quoteWithdrawal_ok b.sound.assets_nonneg e.pos e.priced
  have hvault := e.vault_eq b.sound
  have hpos := e.pos
  have hheld := e.held
  refine ⟨hvault ▸ Vault.sound_burn b.sound (by omega) hle, ?_, fun c => ?_, ?_,
    e.config ▸ b.minCoverage⟩
  · rw [e.shares, hvault]
    refine (b.total.update a _).congr (fun _ => rfl) ?_
    simp only [Vault.burn]
    ring
  · rw [e.shares]
    by_cases hc : c = a
    · rw [hc, Function.update_self]
      omega
    · rw [Function.update_of_ne hc]
      exact b.held c
  · rw [e.books]
    exact b.coverage

theorem buy {params : PolicyParams} {premium : ℤ} {policy : Policy Address} (b : ShareBook w)
    (e : Bought riskMultiplier self w w' a params premium policy) : ShareBook w' := by
  have hamt : 0 ≤ params.coverageAmount :=
    b.minCoverage.trans (checkCoverageCapacity_bounds e.capacity)
  have hcov := b.coverage
  have hprem := e.moved.nonneg
  have hA := b.sound.assets_nonneg
  refine ⟨⟨?_, ?_, fun hz => ?_⟩, ?_, e.shares ▸ b.held, ?_, e.config ▸ b.minCoverage⟩
  · rw [vault, e.books]
    exact add_nonneg hA hprem
  · rw [vault, e.books]
    exact b.sound.shares_nonneg
  · -- a pool without shares has no capital, so it covers nothing and earns nothing
    rw [vault, e.books] at hz ⊢
    have hempty : (accounting w).totalCapital = 0 := b.sound.empty hz
    have hcap := checkCoverageCapacity_le e.capacity
    rw [hempty, zero_mul, Int.zero_tdiv] at hcap
    have hprem0 := calcPremium_zero (by omega) e.priced
    simp only
    omega
  · rw [e.shares, vault, e.books]
    exact b.total
  · rw [e.books]
    exact add_nonneg hcov hamt

theorem claim {id : ℕ} {policy : Policy Address} (b : ShareBook w)
    (e : Claimed self w w' id policy) : ShareBook w' := by
  have hpay := e.moved.nonneg
  refine ⟨⟨?_, ?_, fun hz => ?_⟩, ?_, e.shares ▸ b.held, ?_, e.config ▸ b.minCoverage⟩
  · rw [vault, e.books]
    exact le_max_right _ _
  · rw [vault, e.books]
    exact b.sound.shares_nonneg
  · rw [vault, e.books] at hz ⊢
    have hempty : (accounting w).totalCapital = 0 := b.sound.empty hz
    simp only [hempty]
    omega
  · rw [e.shares, vault, e.books]
    exact b.total
  · rw [e.books]
    exact le_max_right _ _

omit [DecidableEq Address] in
theorem expire {id : ℕ} {policy : Policy Address} (b : ShareBook w)
    (e : Expired w w' id policy) : ShareBook w' := by
  have hvault : vault w' = vault w := by rw [vault, e.books]; rfl
  refine ⟨hvault ▸ b.sound, ?_, e.shares ▸ b.held, ?_, e.config ▸ b.minCoverage⟩
  · rw [e.shares, hvault]
    exact b.total
  · rw [e.books]
    exact le_max_right _ _

theorem quiet {tx : Transaction Address} (b : ShareBook w) (e : Quiet self w w' tx.op)
    (hb : NonnegBounds tx) : ShareBook w' := by
  have hvault : vault w' = vault w := by rw [vault, e.books]; rfl
  refine ⟨hvault ▸ b.sound, ?_, e.shares ▸ b.held, ?_, ?_⟩
  · rw [e.shares, hvault]
    exact b.total
  · rw [e.books]
    exact b.coverage
  · rw [e.config]
    exact minCoverage_configAfter b.minCoverage hb

end ShareBook

theorem shareBook_step {x : Entry Address} (hb : NonnegBounds x.call)
    (he : Effect riskMultiplier self x.pre x.post x.call.op x.out) (b : ShareBook x.pre) :
    ShareBook x.post := by
  generalize hop : x.call.op = op at he
  generalize x.out = out at he
  cases he with
  | provided e => exact b.provide e
  | withdrawn e => exact b.withdraw e
  | bought e => exact b.buy e
  | claimed e => exact b.claim e
  | expired e => exact b.expire e
  | quiet e =>
    subst hop
    exact b.quiet e hb

omit [DecidableEq Address] in
theorem shareBook_deployed (now : ℕ) (ledger : Token Address) :
    ShareBook (deployed now ledger) where
  sound := ⟨le_rfl, le_rfl, fun _ => rfl⟩
  total := .zero
  held _ := le_rfl
  coverage := le_rfl
  minCoverage := by simp [config, deployed, precision]

/-! ### What a mover can take -/

/-- The operation moves the shares of `a`. -/
def MovesShares (a : Address) : Op Address → Prop
  | .provideCapital provider _ | .withdrawCapital provider _ => provider = a
  | _ => False

/-- Nobody else's shares lose redeemable value. -/
def KeepsValue (a : Address) (x : Entry Address) : Prop :=
  (vault x.pre).PriceLe (vault x.post) ∧ ∀ b, b ≠ a →
    (vault x.pre).redeem (sharesOf x.pre b) ≤ (vault x.post).redeem (sharesOf x.post b)

omit [DecidableEq Address] in
/-- A holding is worth no less at a higher price, and nothing without shares. -/
theorem ShareBook.redeem_le (hw : ShareBook w) (hw' : ShareBook w')
    (hp : (vault w).PriceLe (vault w')) (hs : sharesOf w' a = sharesOf w a) :
    (vault w).redeem (sharesOf w a) ≤ (vault w').redeem (sharesOf w' a) := by
  rw [hs]
  have hle := hw.total.single_le hw.held a
  have hle' := hw'.total.single_le hw'.held a
  have hnonneg := hw.held a
  rcases hw.sound.shares_nonneg.lt_or_eq with hv | hv
  · rcases hw'.sound.shares_nonneg.lt_or_eq with hv' | hv'
    · exact Vault.redeem_mono hp hv hv' hnonneg
    · rw [show sharesOf w a = 0 by omega]
      simp [Vault.redeem]
  · rw [show sharesOf w a = 0 by omega]
    simp [Vault.redeem]

theorem keepsValue_of_effect {x : Entry Address} (hb : NonnegBounds x.call) (b : ShareBook x.pre)
    (he : Effect riskMultiplier self x.pre x.post x.call.op x.out)
    (hm : MovesShares a x.call.op) : KeepsValue a x := by
  have b' := shareBook_step hb he b
  generalize hop : x.call.op = op at he hm
  generalize x.out = out at he
  cases he with
  | provided e =>
    obtain rfl := hm
    have hp : (vault x.pre).PriceLe (vault x.post) :=
      e.vault_eq b.sound ▸ Vault.price_deposit b.sound e.pos.le
    exact ⟨hp, fun c hc => b.redeem_le b' hp (by rw [e.shares, Function.update_of_ne hc])⟩
  | withdrawn e =>
    obtain rfl := hm
    have hle := (quoteWithdrawal_ok b.sound.assets_nonneg e.pos e.priced).1
    have hpos := e.pos
    have hp : (vault x.pre).PriceLe (vault x.post) :=
      e.vault_eq b.sound ▸ Vault.price_burn (by omega)
    exact ⟨hp, fun c hc => b.redeem_le b' hp (by rw [e.shares, Function.update_of_ne hc])⟩
  | bought e => exact hm.elim
  | claimed e => exact hm.elim
  | expired e => exact hm.elim
  | quiet e => cases op with
    | provideCapital => exact absurd trivial e.unbooked
    | withdrawCapital => exact absurd trivial e.unbooked
    | _ => exact hm.elim

/-- Withdrawing the shares a deposit minted returns at most the deposit, if the pool's books are
as the deposit left them. -/
theorem ShareBook.withdraw_le_deposit (b : ShareBook w) {w₁ w₂ : World Address}
    (e : Provided self w w' a amount shares) (e' : Withdrawn self w₁ w₂ a shares out)
    (hv : vault w₁ = vault w') : out ≤ amount := by
  have hm : shares = (vault w).mint amount := calcShares_ok b.sound e.pos.le e.priced
  have hassets : 0 ≤ (vault w₁).assets := hv ▸ (b.provide e).sound.assets_nonneg
  have hpos := e'.pos
  rw [(quoteWithdrawal_ok hassets e'.pos e'.priced).2.1, hv, e.vault_eq b.sound, hm]
  exact Vault.redeem_deposit_le b.sound e.pos.le (hm ▸ hpos)

/-- The pool after some time. -/
def waited (riskMultiplier : CoverageType → ℤ) (self : Address) (w : World Address)
    (seconds : ℕ) : World Address :=
  (run (step riskMultiplier self) w [⟨[], .advance seconds⟩]).1

theorem waited_eq (riskMultiplier : CoverageType → ℤ) (self : Address) (w : World Address)
    (seconds : ℕ) : ∃ now, waited riskMultiplier self w seconds = { w with now } := by
  cases hu : (u64 (w.now + seconds) : Call ℕ) with
  | ok now =>
    refine ⟨now, ?_⟩
    simp [waited, run, commit, step, hu, bind, Except.bind, pure, Except.pure]
  | error e =>
    refine ⟨w.now, ?_⟩
    simp [waited, run, commit, step, hu, bind, Except.bind]

/-! ### What leaves the pool -/

def deposited (x : Entry Address) : ℤ :=
  match x.call.op with
  | .provideCapital _ amount => amount
  | _ => 0

def premium (x : Entry Address) : ℤ :=
  match x.call.op with
  | .buyPolicy .. => (accounting x.post).totalPremiums - (accounting x.pre).totalPremiums
  | _ => 0

def paidToProvider (x : Entry Address) : ℤ :=
  match x.call.op with
  | .withdrawCapital .. => x.out
  | _ => 0

def paidOnClaim (x : Entry Address) : ℤ :=
  match x.call.op with
  | .processClaim _ => x.out
  | _ => 0

/-- The sum of a flow over a history. -/
def total (flow : Entry Address → ℤ) (h : List (Entry Address)) : ℤ := (h.map flow).sum

/-- No tokens are sent to the pool outside its entry points. -/
def Undonated (pool : Address) (tx : Transaction Address) : Prop :=
  match tx.op with
  | .transfer _ dst _ => dst ≠ pool
  | _ => True

structure FundBook (pool : Address) (h : List (Entry Address)) (w : World Address) : Prop where
  balance : w.ledger.balance pool + total paidToProvider h + total paidOnClaim h =
    total deposited h + total premium h
  holders : ∀ id policy, w.policyEntry id = some policy → policy.holder ≠ pool

theorem Quiet.balance_eq {tx : Transaction Address} (e : Quiet self w w' tx.op)
    (hd : Undonated self tx) : w'.ledger.balance self = w.ledger.balance self := by
  rcases e.ledger with h | ⟨src, dst, amount, hop, hsrc, hmove⟩
  · rw [h]
  · rw [Undonated, hop] at hd
    exact hmove.other_balance hsrc.symm (Ne.symm hd)

theorem fundBook_step {g : List (Entry Address)} {x : Entry Address} (hd : Undonated self x.call)
    (he : Effect riskMultiplier self x.pre x.post x.call.op x.out) (f : FundBook self g x.pre) :
    FundBook self (g ++ [x]) x.post := by
  have hbal := f.balance
  have hsnoc : ∀ flow : Entry Address → ℤ, total flow (g ++ [x]) = total flow g + flow x :=
    fun flow => by simp [total]
  generalize hop : x.call.op = op at he
  generalize hout : x.out = out at he
  constructor
  · rw [hsnoc, hsnoc, hsnoc, hsnoc]
    simp only [deposited, premium, paidToProvider, paidOnClaim, hop, hout]
    cases he with
    | provided e =>
      have := e.moved.dst_balance e.outsider
      simp only
      omega
    | withdrawn e =>
      have := e.moved.src_balance e.outsider.symm
      simp only
      omega
    | bought e =>
      have := e.moved.dst_balance e.outsider
      simp only [e.books]
      omega
    | claimed e =>
      have := e.moved.src_balance (f.holders _ _ e.stored).symm
      simp only
      omega
    | expired e =>
      rw [e.ledger]
      simp only
      omega
    | quiet e =>
      subst hop
      rw [e.balance_eq hd]
      split
      · next hop => exact absurd (by simp [hop, Op.Books]) e.unbooked
      · split
        · next hop => exact absurd (by simp [hop, Op.Books]) e.unbooked
        · split
          · next hop => exact absurd (by simp [hop, Op.Books]) e.unbooked
          · split
            · next hop => exact absurd (by simp [hop, Op.Books]) e.unbooked
            · omega
  · cases he with
    | provided e => exact e.policies ▸ f.holders
    | withdrawn e => exact e.policies ▸ f.holders
    | bought e => exact forall_update f.holders e.policies (by rw [e.policy_eq]; exact e.outsider)
    | claimed e =>
      have hne := f.holders _ _ e.stored
      exact forall_update f.holders e.policies hne
    | expired e =>
      have hne := f.holders _ _ e.stored
      exact forall_update f.holders e.policies hne
    | quiet e => exact e.policies ▸ f.holders

/-- In every run the payouts stay within the deposits and premiums, a deposit
cannot be withdrawn for more, however long one waits, and no provider's move costs
another. -/
theorem providers_conserved (riskMultiplier : CoverageType → ℤ) (self : Address) (now : ℕ)
    (ledger : Token Address) (calls : List (Transaction Address))
    (hb : ∀ tx ∈ calls, NonnegBounds tx) (hd : ∀ tx ∈ calls, Undonated self tx)
    (hempty : ledger.balance self = 0) :
    let r := run (step riskMultiplier self) (deployed now ledger) calls
    total paidToProvider r.2 + total paidOnClaim r.2 ≤ total deposited r.2 + total premium r.2 ∧
      (∀ signers signers' provider amount shares seconds out w w',
        step riskMultiplier self r.1 ⟨signers, .provideCapital provider amount⟩ = .ok (w, shares) →
        step riskMultiplier self (waited riskMultiplier self w seconds)
          ⟨signers', .withdrawCapital provider shares⟩ = .ok (w', out) → out ≤ amount) ∧
      ∀ x ∈ r.2, ∀ a, MovesShares a x.call.op → KeepsValue a x := by
  intro r
  have tr := run_trace (step riskMultiplier self) (deployed now ledger) calls
  have hcall : ∀ x ∈ r.2, NonnegBounds x.call ∧ Undonated self x.call :=
    fun x hx => ⟨hb _ (mem_run_call hx), hd _ (mem_run_call hx)⟩
  obtain ⟨-, hfunds⟩ : Fresh r.1 ∧ FundBook self r.2 r.1 :=
    effects_history tr (fresh_deployed now ledger)
      (fun g x hx he f => fundBook_step hx.2 he f) hcall
      ⟨by simpa [total, deployed] using hempty, by simp [deployed]⟩
  obtain ⟨hfresh, hbook, hkeeps⟩ : Fresh r.1 ∧ ShareBook r.1 ∧
      ∀ x ∈ r.2, ∀ a, MovesShares a x.call.op → KeepsValue a x := by
    refine effects_history (I := fun h w => ShareBook w ∧
      ∀ x ∈ h, ∀ a, MovesShares a x.call.op → KeepsValue a x) tr (fresh_deployed now ledger)
      (fun g x hx he hi => ?_) hcall ⟨shareBook_deployed now ledger, by simp⟩
    exact ⟨shareBook_step hx.1 he hi.1,
      forall_mem_snoc hi.2 fun a hm => keepsValue_of_effect hx.1 hi.1 he hm⟩
  refine ⟨?_, ?_, hkeeps⟩
  · have hbal := hfunds.balance
    have hnonneg := r.1.ledger.nonneg self
    omega
  · intro signers signers' provider amount shares seconds out w w' hp hw
    obtain ⟨he, hfresh'⟩ := step_effect hfresh hp
    obtain ⟨now', hwaited⟩ := waited_eq riskMultiplier self w seconds
    rw [hwaited] at hw
    have hfresh₁ : Fresh { w with now := now' } := hfresh'
    have he' := (step_effect hfresh₁ hw).1
    cases he with
    | provided e => cases he' with
      | withdrawn e' => exact hbook.withdraw_le_deposit e e' rfl
      | quiet e' => exact absurd trivial e'.unbooked
    | quiet e => exact absurd trivial e.unbooked

/-- When the lockup of seven days is over the provider withdraws a part of the capital. -/
def claimAndWithdraw : List (Transaction ℕ) :=
  claimAndLapse ++ [⟨[], .advance 604800⟩, ⟨[2], .withdrawCapital 2 400000000⟩]

theorem providers_conserved_claimAndWithdraw :
    let r := run (step (fun _ => 100) 0) (deployed 1000 poolAccounts) claimAndWithdraw
    0 < total paidToProvider r.2 ∧ 0 < total paidOnClaim r.2 ∧
      total paidToProvider r.2 + total paidOnClaim r.2 ≤ total deposited r.2 + total premium r.2 ∧
      (∀ signers signers' provider amount shares seconds out w w',
        step (fun _ => 100) 0 r.1 ⟨signers, .provideCapital provider amount⟩ = .ok (w, shares) →
        step (fun _ => 100) 0 (waited (fun _ => 100) 0 w seconds)
          ⟨signers', .withdrawCapital provider shares⟩ = .ok (w', out) → out ≤ amount) ∧
      ∀ x ∈ r.2, ∀ a, MovesShares a x.call.op → KeepsValue a x := by
  intro r
  exact ⟨by decide +kernel, by decide +kernel,
    providers_conserved (fun _ => 100) 0 1000 poolAccounts
    claimAndWithdraw (by simp [claimAndWithdraw, claimAndLapse, NonnegBounds])
    (by simp [claimAndWithdraw, claimAndLapse, Undonated]) (by decide)⟩

end RefractContracts.Pool
