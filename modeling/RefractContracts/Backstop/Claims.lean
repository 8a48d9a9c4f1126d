import RefractContracts.Backstop.Flows
import RefractContracts.Backstop.Losses

/-! Draws per claim. A draw that the pool signs and the backstop can bear is paid, and
its claim id is not looked at, so a claim is paid once exactly if the pool asks for it
once. -/

namespace RefractContracts.Backstop

open Host

variable {Address : Type} {w : World Address} {vault caller : Address} {amount : ℤ}

/-- The loss index can take a draw of `amount`; it only moves while there are shares. -/
def Indexable (s : BackstopState) (amount : ℤ) : Prop :=
  0 < s.totalShares → let scaled := amount * lossIndexScale
    (minI128 ≤ scaled ∧ scaled ≤ maxI128) ∧
      minI128 ≤ s.lossIndex + scaled.tdiv s.totalShares ∧
      s.lossIndex + scaled.tdiv s.totalShares ≤ maxI128

/-- The totals can take a draw of `amount`. -/
structure Bearable (s : BackstopState) (amount : ℤ) : Prop where
  pos : 0 < amount
  covered : amount ≤ s.totalCapital
  capital : minI128 ≤ s.totalCapital - amount ∧ s.totalCapital - amount ≤ maxI128
  drawdowns : minI128 ≤ s.totalDrawdowns + amount ∧ s.totalDrawdowns + amount ≤ maxI128
  index : Indexable s amount

/-- The pool asks for a positive amount that an unpaused backstop has the means to pay. -/
structure Payable (vault : Address) (w : World Address) (signers : List Address)
    (caller : Address) (amount : ℤ) : Prop where
  signed : caller ∈ signers
  outside : caller ≠ vault
  unpaused : ¬ w.pausedEntry.getD false
  pool : w.configEntry.map (·.pool) = some caller
  bearable : ∃ s, w.stateEntry = some s ∧ Bearable s amount
  balance : amount ≤ w.ledger.balance vault
  fits : w.ledger.balance caller + amount ≤ maxI128

theorem exists_lossIndex (s : BackstopState) (amount : ℤ) :
    (∃ index, (if 0 < s.totalShares then do
        let scaled ← i128Checked (amount * lossIndexScale) .overflow
        i128Checked (s.lossIndex + scaled.tdiv s.totalShares) .overflow
      else pure s.lossIndex : Call ℤ) = .ok index) ↔ Indexable s amount := by
  unfold Indexable
  by_cases hshares : 0 < s.totalShares
  · simp [hshares, and_assoc]
  · simp [hshares]

variable [DecidableEq Address]

/-- A draw is paid if it is payable, whatever the claim id is. -/
theorem drawDown_pays {signers : List Address} (claimId : ℕ) :
    (∃ r, drawDown vault (signers.filter (· ≠ vault)) w caller claimId amount = .ok r ∧ 0 < r.2) ↔
      Payable vault w signers caller amount := by
  have hsigned : caller ∈ signers.filter (· ≠ vault) ↔ caller ∈ signers ∧ caller ≠ vault := by
    simp
  simp only [drawDown, bind_eq_ok, requireAuth_eq_ok, requireNotPaused, getConfig, getState,
    bail_eq_ok, okOr_eq_ok, i128_eq_ok, i128Checked_eq_ok, pure_eq_ok, not_not, not_lt, hsigned]
  constructor
  · rintro ⟨_, ⟨-, ⟨hmem, hne⟩, -, hpaused, cfg, hcfg, -, rfl, s, hs, -, hcovered, _,
      ⟨hcapital, rfl⟩, _, ⟨hdrawn, rfl⟩, index, hindex, ledger, hmove, rfl⟩, hpos⟩
    obtain ⟨-, hbalance, hfits⟩ := (Token.exists_transfer hne.symm).mp ⟨ledger, hmove⟩
    have hindexable : Indexable s amount := (exists_lossIndex s amount).mp ⟨index, hindex⟩
    exact ⟨hmem, hne, hpaused, by simp [hcfg],
      ⟨s, hs, hpos, hcovered, hcapital, hdrawn, hindexable⟩, hbalance, hfits⟩
  · rintro ⟨hmem, hne, hpaused, hpool, ⟨s, hs, b⟩, hbalance, hfits⟩
    obtain ⟨cfg, hcfg, rfl⟩ := Option.map_eq_some_iff.mp hpool
    obtain ⟨index, hindex⟩ := (exists_lossIndex s amount).mpr b.index
    obtain ⟨ledger, hmove⟩ : ∃ t, (w.ledger.transfer vault cfg.pool amount : Call _) = .ok t :=
      (Token.exists_transfer hne.symm).mpr ⟨b.pos.le, hbalance, hfits⟩
    exact ⟨_, ⟨(), ⟨hmem, hne⟩, (), hpaused, cfg, hcfg, (), rfl, s, hs, (), b.covered, _,
      ⟨b.capital, rfl⟩, _, ⟨b.drawdowns, rfl⟩, index, hindex, ledger, hmove, rfl⟩, b.pos⟩

namespace Losses

variable {H : Losses.Helpers Address} {claimId : ℕ}
  {p : Losses.World Address × Losses.Transaction Address}

abbrev Entry (Address : Type) := Receipt (Losses.World Address) (Losses.Transaction Address) ℤ

/-- The claim that an accepted call is paid for. -/
def claimPaid (x : Entry Address) : Option ℕ :=
  match x.call.op with
  | .entry (.drawDown _ claimId _) => if 0 < x.out then some claimId else none
  | _ => none

/-- The claims paid for by a history, as often as they are. -/
def paidClaims (h : List (Entry Address)) : List ℕ := h.filterMap claimPaid

/-- The call draws on the claim, and is payable in the state it is made in. -/
def Draws (vault : Address) (claimId : ℕ) (p : Losses.World Address × Losses.Transaction Address) :
    Prop :=
  ∃ caller amount, p.2.op = .entry (.drawDown caller claimId amount) ∧
    Payable vault p.1.backstop p.2.signers caller amount

omit [DecidableEq Address] in
theorem claimPaid_eq_some {x : Entry Address} (h : claimPaid x = some claimId) :
    0 < x.out ∧ ∃ caller amount, x.call.op = .entry (.drawDown caller claimId amount) := by
  unfold claimPaid at h
  split at h
  · next caller id amount hop =>
    split_ifs at h with hpos
    obtain rfl := Option.some.inj h
    exact ⟨hpos, caller, amount, hop⟩
  · cases h

/-- A draw among the entry points is a draw of the backstop. -/
theorem step_drawDown {w w' : Losses.World Address} {signers : List Address} {out : ℤ} :
    step H vault w ⟨signers, .entry (.drawDown caller claimId amount)⟩ = .ok (w', out) ↔
      drawDown vault (signers.filter (· ≠ vault)) w.backstop caller claimId amount =
          .ok (w'.backstop, out) ∧ w'.nextLossIdEntry = w.nextLossIdEntry := by
  obtain ⟨backstop', nextLossId'⟩ := w'
  simp only [step, Backstop.step, bind_eq_ok, pure_eq_ok, Prod.exists, Prod.mk.injEq,
    Losses.World.mk.injEq]
  constructor
  · rintro ⟨_, _, h, ⟨rfl, rfl⟩, rfl⟩
    exact ⟨h, rfl⟩
  · rintro ⟨h, rfl⟩
    exact ⟨_, _, h, ⟨rfl, rfl⟩, rfl⟩

/-- What is paid for a claim leaves the backstop for the pool. -/
theorem claimPaid_moved {x : Entry Address} (h : claimPaid x = some claimId)
    (accepted : step H vault x.pre x.call = .ok (x.post, x.out)) :
    0 < x.out ∧ ∃ pool, x.pre.backstop.configEntry.map (·.pool) = some pool ∧
      x.pre.backstop.ledger.Moved x.post.backstop.ledger vault pool x.out := by
  obtain ⟨hpos, caller, amount, hop⟩ := claimPaid_eq_some h
  obtain ⟨w, ⟨signers, op⟩, out, w'⟩ := x
  obtain rfl : op = .entry (.drawDown caller claimId amount) := hop
  have hdraw : drawDown vault (signers.filter (· ≠ vault)) w.backstop caller claimId amount =
      .ok (w'.backstop, out) := (step_drawDown.mp accepted).1
  have payable := (drawDown_pays claimId).mp ⟨_, hdraw, hpos⟩
  cases drawDown_ok (H := H.toHelpers) (by simp) hdraw with
  | drawn outside covered shift moved => exact ⟨hpos, caller, payable.pool, moved⟩
  | deposited kind => rcases kind with hop | hop <;> cases hop
  | withdrawn kind => rcases kind with hop | hop <;> cases hop
  | idle kind => cases kind

/-- A call is paid for a claim if it draws on it. -/
theorem claimPaid_receipt :
    (receipt (step H vault) p).bind claimPaid = some claimId ↔ Draws vault claimId p := by
  obtain ⟨w, signers, op⟩ := p
  rw [Option.bind_eq_some_iff]
  constructor
  · rintro ⟨x, hx, hpaid⟩
    obtain ⟨hpos, caller, amount, hop⟩ := claimPaid_eq_some hpaid
    obtain ⟨hp, accepted⟩ := receipt_eq_some.mp hx
    obtain ⟨rfl, hcall⟩ := Prod.mk.inj hp
    obtain rfl : op = .entry (.drawDown caller claimId amount) := by rw [← hop, ← hcall]
    rw [← hcall] at accepted
    have hdraw := (step_drawDown.mp accepted).1
    exact ⟨caller, amount, rfl, (drawDown_pays claimId).mp ⟨_, hdraw, hpos⟩⟩
  · rintro ⟨caller, amount, hop, hpay⟩
    obtain rfl : op = .entry (.drawDown caller claimId amount) := hop
    obtain ⟨⟨backstop, out⟩, hdraw, hpos⟩ := (drawDown_pays claimId).mpr hpay
    have accepted : step H vault w ⟨signers, .entry (.drawDown caller claimId amount)⟩ =
        .ok (⟨backstop, w.nextLossIdEntry⟩, out) := step_drawDown.mpr ⟨hdraw, rfl⟩
    exact ⟨⟨w, _, out, _⟩, receipt_eq_some.mpr ⟨rfl, accepted⟩, if_pos hpos⟩

/-- In every run, each claim is paid at most once if and only if no claim is drawn on
by two calls that were payable when they were made. -/
theorem paidOnce_iff (H : Losses.Helpers Address) (vault : Address) (w : Losses.World Address)
    (calls : List (Losses.Transaction Address)) :
    (∀ claimId, (paidClaims (run (step H vault) w calls).2).count claimId ≤ 1) ↔
      (attempts (step H vault) w calls).Pairwise fun p q =>
        ∀ claimId, Draws vault claimId p → ¬ Draws vault claimId q := by
  rw [← List.nodup_iff_count_le_one, paidClaims, run_receipts, List.filterMap_filterMap,
    List.Nodup, List.pairwise_filterMap]
  simp only [claimPaid_receipt]
  refine List.Pairwise.iff fun p q => ⟨fun h claimId hp hq => h claimId hp claimId hq rfl, ?_⟩
  rintro h a hp b hq rfl
  exact h a hp hq

/-- One deposit, and the same claim drawn on twice. -/
def drawTwice : List (Losses.Transaction ℕ) :=
  [⟨[2], .entry (.initializeContract 1 2 9 0)⟩, ⟨[3], .entry (.deposit 3 100)⟩,
    ⟨[1], .entry (.drawDown 1 7 30)⟩, ⟨[1], .entry (.drawDown 1 7 30)⟩]

/-- The backstop pays the claim both times. -/
theorem claim_paidTwice :
    let H : Losses.Helpers ℕ := { proportionalHelpers with applyLoss := fun w _ _ => pure (w, 0) }
    let r := run (step H 0) (Losses.deployed 0 0 (Token.empty.mint 3 100)) drawTwice
    ¬ (paidClaims r.2).count 7 ≤ 1 ∧ r.1.backstop.ledger.balance 1 = 60 := by
  decide +kernel

end Losses

end RefractContracts.Backstop
