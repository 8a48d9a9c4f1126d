import RefractContracts.Pool.Shares

/-! The pool holds the capital it records. Deposits and premiums come in before they are
recorded for good, a withdrawal pays at most the capital it takes off, and a claim whose
payout exceeds the recorded capital is paid from tokens the pool holds beyond it. No
bound on the configuration is needed. -/

namespace RefractContracts.Pool

open Host

variable {Address : Type} [DecidableEq Address] {riskMultiplier : CoverageType → ℤ}
  {self a : Address} {w w' : World Address} {amount shares out : ℤ}

/-- The recorded capital is not negative and the pool's tokens cover it. -/
structure Solvent (pool : Address) (w : World Address) : Prop where
  nonneg : 0 ≤ (accounting w).totalCapital
  held : (accounting w).totalCapital ≤ w.ledger.balance pool

namespace Solvent

theorem provide (s : Solvent self w) (e : Provided self w w' a amount shares) :
    Solvent self w' := by
  have hnonneg := s.nonneg
  have hheld := s.held
  have hpos := e.pos
  have hbalance := e.moved.dst_balance e.outsider
  constructor
  · rw [e.books]
    simp only
    omega
  · rw [e.books]
    simp only
    omega

/-- A withdrawal takes at most the recorded capital. -/
theorem withdraw (s : Solvent self w) (e : Withdrawn self w w' a shares out) :
    Solvent self w' := by
  have hheld := s.held
  have hpos := e.pos
  obtain ⟨hle, hout, -⟩ := quoteWithdrawal_ok s.nonneg e.pos e.priced
  have hredeem : out ≤ (accounting w).totalCapital := by
    rw [hout]
    exact Vault.redeem_le_assets s.nonneg (by omega) hle
  have hbalance := e.moved.src_balance e.outsider.symm
  constructor
  · rw [e.books]
    simp only
    omega
  · rw [e.books]
    simp only
    omega

theorem buy {params : PolicyParams} {premium : ℤ} {policy : Policy Address} (s : Solvent self w)
    (e : Bought riskMultiplier self w w' a params premium policy) : Solvent self w' := by
  have hnonneg := s.nonneg
  have hheld := s.held
  have hpremium := e.moved.nonneg
  have hbalance := e.moved.dst_balance e.outsider
  constructor
  · rw [e.books]
    simp only
    omega
  · rw [e.books]
    simp only
    omega

/-- The clamp at zero is where the payout exceeds the recorded capital. -/
theorem claim {id : ℕ} {policy : Policy Address} (s : Solvent self w)
    (e : Claimed self w w' id policy) : Solvent self w' := by
  have hheld := s.held
  have hbalance := e.moved.le_src_balance
  constructor
  · rw [e.books]
    exact le_max_right _ _
  · rw [e.books]
    refine max_le ?_ (w'.ledger.nonneg self)
    omega

omit [DecidableEq Address] in
theorem expire {id : ℕ} {policy : Policy Address} (s : Solvent self w)
    (e : Expired w w' id policy) : Solvent self w' := by
  constructor
  · rw [e.books]
    exact s.nonneg
  · rw [e.books, e.ledger]
    exact s.held

theorem quiet {op : Op Address} (s : Solvent self w) (e : Quiet self w w' op) :
    Solvent self w' := by
  constructor
  · rw [e.books]
    exact s.nonneg
  · rw [e.books]
    rcases e.ledger with h | ⟨src, dst, amount, -, hsrc, hmove⟩
    · rw [h]
      exact s.held
    · exact s.held.trans (hmove.balance_le hsrc.symm)

end Solvent

theorem solvent_step {op : Op Address} (e : Effect riskMultiplier self w w' op out)
    (s : Solvent self w) : Solvent self w' := by
  cases e with
  | provided e => exact s.provide e
  | withdrawn e => exact s.withdraw e
  | bought e => exact s.buy e
  | claimed e => exact s.claim e
  | expired e => exact s.expire e
  | quiet e => exact s.quiet e

/-- In every run the pool's balance is at least its recorded capital, which is not negative. -/
theorem pool_solvent (riskMultiplier : CoverageType → ℤ) (self : Address) (now : ℕ)
    (ledger : Token Address) (calls : List (Transaction Address)) :
    let w := (run (step riskMultiplier self) (deployed now ledger) calls).1
    0 ≤ (accounting w).totalCapital ∧ (accounting w).totalCapital ≤ w.ledger.balance self := by
  intro w
  have s : Solvent self w := (effects_history (P := fun _ => True)
    (I := fun _ w => Solvent self w) (run_trace (step riskMultiplier self) _ calls)
    (fresh_deployed now ledger) (fun _ _ _ e s => solvent_step e s) (fun _ _ => trivial)
    ⟨le_rfl, ledger.nonneg self⟩).2
  exact ⟨s.nonneg, s.held⟩

end RefractContracts.Pool
