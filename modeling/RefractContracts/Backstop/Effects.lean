import RefractContracts.Backstop.Contract

/-! What an accepted transaction of the backstop does to its totals, its tranches'
assets and its token balance, whatever the missing helpers do. The entry points are
unfolded here; properties of runs are case analyses on these effects. -/

namespace RefractContracts.Backstop

open Host Math

variable {Address : Type} {H : Helpers Address} {w w' : World Address} {self a : Address}
  {signers : List Address} {tranche : Tranche} {amount : ℤ}

def totalCapital (w : World Address) : ℤ := (w.stateEntry.map (·.totalCapital)).getD 0

def premiumIncome (w : World Address) : ℤ := (w.stateEntry.map (·.premiumIncome)).getD 0

def totalDrawdowns (w : World Address) : ℤ := (w.stateEntry.map (·.totalDrawdowns)).getD 0

def trancheAssets (w : World Address) (tranche : Tranche) : ℤ :=
  ((w.trancheEntry tranche).map (·.totalAssets)).getD 0

/-- The assets of both tranches. -/
def allAssets (w : World Address) : ℤ := trancheAssets w .junior + trancheAssets w .senior

/-- The totals are those of the stored state. -/
theorem totals_of_getState {s : BackstopState} (h : getState w = .ok s) :
    totalCapital w = s.totalCapital ∧ premiumIncome w = s.premiumIncome ∧
      totalDrawdowns w = s.totalDrawdowns := by
  rw [getState, okOr_eq_ok] at h
  simp [totalCapital, premiumIncome, totalDrawdowns, h]

theorem trancheAssets_of_trancheState {t : TrancheState} (h : trancheState w tranche = .ok t) :
    trancheAssets w tranche = t.totalAssets := by
  rw [trancheState, okOr_eq_ok] at h
  simp [trancheAssets, h]

theorem configEntry_of_getConfig {c : BackstopConfig Address} (h : getConfig w = .ok c) :
    w.configEntry ≠ none := by
  rw [getConfig, okOr_eq_ok] at h
  simp [h]

theorem trancheAssets_saveTrancheState (t : TrancheState) (s : Tranche) :
    trancheAssets (saveTrancheState w tranche t) s =
      if s = tranche then t.totalAssets else trancheAssets w s := by
  by_cases hs : s = tranche
  · subst hs
    simp [trancheAssets, saveTrancheState]
  · simp [trancheAssets, saveTrancheState, hs]

/-- Saving a tranche moves the assets by the change of that tranche. -/
theorem allAssets_saveTrancheState {t t' : TrancheState} {change : ℤ}
    (h : trancheState w tranche = .ok t) (hsame : w'.trancheEntry = w.trancheEntry)
    (hchange : t'.totalAssets = t.totalAssets + change) :
    allAssets (saveTrancheState w' tranche t') = allAssets w + change := by
  have hassets := trancheAssets_of_trancheState h
  have hother : ∀ s, trancheAssets w' s = trancheAssets w s := fun s => by
    rw [trancheAssets, hsame, trancheAssets]
  simp only [allAssets, trancheAssets_saveTrancheState, hother, hchange, ← hassets]
  cases tranche
  · simp only [if_pos, reduceCtorEq, if_false]
    ring
  · simp only [if_pos, reduceCtorEq, if_false]
    ring

/-! ### Changes of the totals -/

/-- By how much the capital, the drawdowns and the assets of a configured backstop
change; the premium income stays. -/
structure Shift (w w' : World Address) (capital drawn assets : ℤ) : Prop where
  configured : w.configEntry ≠ none
  config : w'.configEntry = w.configEntry
  capital : totalCapital w' = totalCapital w + capital
  income : premiumIncome w' = premiumIncome w
  drawn : totalDrawdowns w' = totalDrawdowns w + drawn
  assets : allAssets w' = allAssets w + assets

/-- A shift read off the states stored before and after. -/
theorem Shift.of_getState {s s' : BackstopState} {c : BackstopConfig Address}
    {capital drawn assets : ℤ} (configured : getConfig w = .ok c) (hs : getState w = .ok s)
    (config : w'.configEntry = w.configEntry) (hs' : getState w' = .ok s')
    (hcapital : s'.totalCapital = s.totalCapital + capital)
    (hincome : s'.premiumIncome = s.premiumIncome)
    (hdrawn : s'.totalDrawdowns = s.totalDrawdowns + drawn)
    (hassets : allAssets w' = allAssets w + assets) : Shift w w' capital drawn assets := by
  obtain ⟨hcap, hinc, hdra⟩ := totals_of_getState hs
  obtain ⟨hcap', hinc', hdra'⟩ := totals_of_getState hs'
  exact {
    configured := configEntry_of_getConfig configured
    config := config
    capital := by rw [hcap', hcap, hcapital]
    income := by rw [hinc', hinc, hincome]
    drawn := by rw [hdra', hdra, hdrawn]
    assets := hassets }

/-- Configuration, totals and tranches are the same. -/
structure Quiet (w w' : World Address) : Prop where
  config : w'.configEntry = w.configEntry
  state : w'.stateEntry = w.stateEntry
  tranches : w'.trancheEntry = w.trancheEntry

/-- The backstop is configured, with nothing on its books. -/
structure Opened (w w' : World Address) : Prop where
  configured : w'.configEntry ≠ none
  capital : totalCapital w' = 0
  income : premiumIncome w' = 0
  drawn : totalDrawdowns w' = 0
  assets : allAssets w' = 0
  ledger : w'.ledger = w.ledger

/-- A positive amount is transferred. -/
def Paid [DecidableEq Address] (t t' : Token Address) (src dst : Address) (amount : ℤ) : Prop :=
  (0 < amount ∧ t.Moved t' src dst amount) ∨ (amount ≤ 0 ∧ t' = t)

/-- The credits of a premium: what each tranche is asked to take and takes, and the
totals afterwards. -/
structure Earned (H : Helpers Address) (w w' : World Address) (amount cut : ℤ)
    (ledger : Token Address) : Prop where
  configured : w.configEntry ≠ none
  credited : ∃ bps juniorBps split trancheSplit v u juniorCredit seniorCredit,
    splitBps amount bps = .ok split ∧ splitBps split.cut juniorBps = .ok trancheSplit ∧
      H.creditMaturePremium w .junior trancheSplit.cut = .ok (v, juniorCredit) ∧
      H.creditMaturePremium v .senior trancheSplit.rest = .ok (u, seniorCredit) ∧
      split.cut = cut ∧ u.ledger = ledger ∧ w'.configEntry = u.configEntry ∧
      (∀ t, trancheAssets w' t = trancheAssets u t) ∧
      totalCapital w' =
        i128SaturatingAdd (totalCapital w) (i128SaturatingAdd juniorCredit seniorCredit) ∧
      premiumIncome w' =
        i128SaturatingAdd (premiumIncome w) (i128SaturatingAdd juniorCredit seniorCredit)
  drawn : totalDrawdowns w' = totalDrawdowns w

/-- The operations that leave totals, tranches and balances as they are. -/
def Op.Idle : Op Address → Prop
  | .requestUnstake .. | .cancelUnstake .. | .setPendingLoss .. | .setParameters ..
  | .advance .. => True
  | _ => False

variable [DecidableEq Address]

inductive Effect (H : Helpers Address) (self : Address) (w : World Address) :
    World Address → Op Address → ℤ → Prop
  | initialized {w' pool admin token bps} (first : w.configEntry = none) (opened : Opened w w') :
      Effect H self w w' (.initializeContract pool admin token bps) 0
  | deposited {w' v n op staker tranche amount shares}
      (kind : op = .deposit staker amount ∨ op = .depositTranche staker tranche amount)
      (synced : H.syncMatured w = .ok (v, n)) (outside : staker ≠ self) (pos : 0 < amount)
      (shift : Shift v w' amount 0 amount) (fits : totalCapital v + amount ≤ maxI128)
      (moved : v.ledger.Moved w'.ledger staker self amount) : Effect H self w w' op shares
  | withdrawn {w' v n op staker tranche shares total assets amount}
      (kind : op = .withdraw staker shares ∨ op = .withdrawTranche staker tranche shares)
      (synced : H.syncMatured w = .ok (v, n)) (outside : staker ≠ self)
      (quote : H.quoteWithdrawal shares total assets = .ok amount)
      (covered : amount ≤ totalCapital v) (shift : Shift v w' (-amount) 0 (-amount))
      (paid : Paid v.ledger w'.ledger self staker amount) : Effect H self w w' op amount
  | drawn {w' pool claimId amount} (outside : pool ≠ self) (covered : amount ≤ totalCapital w)
      (shift : Shift w w' (-amount) amount 0) (moved : w.ledger.Moved w'.ledger self pool amount) :
      Effect H self w w' (.drawDown pool claimId amount) amount
  | earned {w' source amount cut ledger} (outside : source ≠ self)
      (earned : Earned H w w' amount.1 cut ledger) (paid : Paid ledger w'.ledger source self cut) :
      Effect H self w w' (.receivePremium source amount) cut
  | synced {w' n} (synced : H.syncMatured w = .ok (w', n)) : Effect H self w w' .syncMatured (n : ℕ)
  | idle {w' op out} (kind : op.Idle) (quiet : Quiet w w') (ledger : w'.ledger = w.ledger) :
      Effect H self w w' op out
  | transferred {w' src dst amount} (outside : src ≠ self) (quiet : Quiet w w')
      (moved : w.ledger.Moved w'.ledger src dst amount) :
      Effect H self w w' (.transfer src dst amount) 0

theorem initializeContract_ok {pool admin token : Address} {bps : ℤ}
    (h : initializeContract signers w pool admin token bps = .ok w') :
    Effect H self w w' (.initializeContract pool admin token bps) 0 := by
  simp only [initializeContract, bind_eq_ok, bail_eq_ok, pure_eq_ok] at h
  obtain ⟨-, hnone, -, -, -, -, rfl⟩ := h
  exact .initialized (by simpa using hnone) ⟨Option.some_ne_none _, rfl, rfl, rfl, rfl, rfl⟩

theorem depositTranche_ok {shares : ℤ} {op : Op Address} (outside : self ∉ signers)
    (kind : op = .deposit a amount ∨ op = .depositTranche a tranche amount)
    (h : depositTranche H self signers w a tranche amount = .ok (w', shares)) :
    Effect H self w w' op shares := by
  simp only [depositTranche, bind_eq_ok, requireAuth_eq_ok, bail_eq_ok, not_le, pure_eq_ok,
    i128_eq_ok, Prod.mk.injEq] at h
  obtain ⟨-, hsigned, -, -, -, hpos, ⟨v, n⟩, hsync, -, -, cfg, hcfg, s, hs, t, ht, sh, -, -, -,
    held, -, tsh, -, tas, ⟨-, rfl⟩, cap, ⟨⟨-, hmax⟩, rfl⟩, tot, -, nid, -, ledger, hmove,
    rfl, -⟩ := h
  have hcap := (totals_of_getState hs).1
  refine .deposited kind hsync (fun he => outside (he ▸ hsigned)) hpos ?_ (hcap ▸ hmax)
    (Token.transfer_ok hmove)
  exact .of_getState hcfg hs rfl rfl rfl rfl (add_zero _).symm
    (allAssets_saveTrancheState ht rfl rfl)

theorem withdrawTranche_ok {shares : ℤ} {op : Op Address} (outside : self ∉ signers)
    (kind : op = .withdraw a shares ∨ op = .withdrawTranche a tranche shares)
    (h : withdrawTranche H self signers w a tranche shares = .ok (w', amount)) :
    Effect H self w w' op amount := by
  simp only [withdrawTranche, bind_eq_ok, requireAuth_eq_ok, bail_eq_ok, not_lt, pure_eq_ok,
    i128_eq_ok, Prod.mk.injEq] at h
  obtain ⟨-, hsigned, -, -, ⟨v, n⟩, hsync, cfg, hcfg, s, hs, t, ht, -, -, out, hquote, -, hcov,
    left, -, tsh, -, msh, -, tas, ⟨-, rfl⟩, mas, -, tot, -, cap, ⟨-, rfl⟩, ledger, hmove,
    rfl, rfl⟩ := h
  have hcap := (totals_of_getState hs).1
  refine .withdrawn kind hsync (fun he => outside (he ▸ hsigned)) hquote (hcap ▸ hcov) ?_ ?_
  · exact .of_getState hcfg hs rfl rfl rfl rfl (add_zero _).symm
      (allAssets_saveTrancheState ht rfl rfl)
  · split_ifs at hmove with hout
    · exact .inl ⟨hout, Token.transfer_ok hmove⟩
    · exact .inr ⟨not_lt.mp hout, ((pure_eq_ok _ _).mp hmove).symm⟩

theorem drawDown_ok {claimId : ℕ} {paid : ℤ} (outside : self ∉ signers)
    (h : drawDown self signers w a claimId amount = .ok (w', paid)) :
    Effect H self w w' (.drawDown a claimId amount) paid := by
  simp only [drawDown, bind_eq_ok, requireAuth_eq_ok, bail_eq_ok, pure_eq_ok, i128_eq_ok,
    i128Checked_eq_ok, Prod.mk.injEq, not_not, not_lt] at h
  obtain ⟨-, hsigned, -, -, cfg, hcfg, -, rfl, s, hs, -, hcov, cap, ⟨-, rfl⟩, tot, ⟨-, rfl⟩, idx, -,
    ledger, hmove, rfl, rfl⟩ := h
  have hcap := (totals_of_getState hs).1
  refine .drawn (fun he => outside (he ▸ hsigned)) (hcap ▸ hcov) ?_ (Token.transfer_ok hmove)
  exact .of_getState hcfg hs rfl rfl rfl rfl rfl (add_zero _).symm

theorem receivePremium_ok {cut : ℤ} {amount : I128} (outside : self ∉ signers)
    (h : receivePremium H self signers w a amount.1 = .ok (w', cut)) :
    Effect H self w w' (.receivePremium a amount) cut := by
  simp only [receivePremium, bind_eq_ok, requireAuth_eq_ok, bail_eq_ok, pure_eq_ok, mapErr_eq_ok,
    Prod.mk.injEq] at h
  obtain ⟨-, hsigned, -, -, cfg, hcfg, s, hs, split, hsplit, tsplit, htsplit, ⟨v, jc⟩, hjunior,
    ⟨u, sc⟩, hsenior, ledger, hmove, rfl, rfl⟩ := h
  obtain ⟨hcap, hinc, hdrawn⟩ := totals_of_getState hs
  have hearned : Earned H w { setState u { s with
        premiumIncome := i128SaturatingAdd s.premiumIncome (i128SaturatingAdd jc sc)
        totalCapital := i128SaturatingAdd s.totalCapital (i128SaturatingAdd jc sc) } with
      ledger } amount.1 split.cut u.ledger := by
    refine ⟨configEntry_of_getConfig hcfg, ⟨_, _, split, tsplit, v, u, jc, sc, hsplit, htsplit,
      hjunior, hsenior, rfl, rfl, rfl, fun _ => rfl, ?_, ?_⟩, ?_⟩
    · rw [hcap]
      rfl
    · rw [hinc]
      rfl
    · rw [hdrawn]
      rfl
  refine .earned (fun he => outside (he ▸ hsigned)) hearned ?_
  split_ifs at hmove with hcut
  · exact .inl ⟨hcut, Token.transfer_ok hmove⟩
  · exact .inr ⟨not_lt.mp hcut, ((pure_eq_ok _ _).mp hmove).symm⟩

/-- An accepted transaction has the effect of its entry point. -/
theorem step_effect {tx : Transaction Address} {out : ℤ} (h : step H self w tx = .ok (w', out)) :
    Effect H self w w' tx.op out := by
  obtain ⟨signers, op⟩ := tx
  have outside : self ∉ signers.filter (· ≠ self) := by simp
  cases op with simp only [step, bind_eq_ok, pure_eq_ok, Prod.mk.injEq] at h ⊢
  | initializeContract pool admin token bps =>
    obtain ⟨_, h, rfl, rfl⟩ := h
    exact initializeContract_ok h
  | deposit staker amount => exact depositTranche_ok outside (.inl rfl) h
  | depositTranche staker tranche amount => exact depositTranche_ok outside (.inr rfl) h
  | requestUnstake staker shares =>
    obtain ⟨⟨_, _⟩, h, rfl, rfl⟩ := h
    simp only [requestUnstake, bind_eq_ok, pure_eq_ok, Prod.mk.injEq] at h
    obtain ⟨_, -, _, -, _, -, _, -, _, -, _, -, _, -, _, -, rfl, -⟩ := h
    exact .idle trivial ⟨rfl, rfl, rfl⟩ rfl
  | cancelUnstake staker =>
    simp only [cancelUnstake, bind_eq_ok, pure_eq_ok, Prod.mk.injEq] at h
    obtain ⟨_, -, _, -, _, -, rfl, -⟩ := h
    exact .idle trivial ⟨rfl, rfl, rfl⟩ rfl
  | withdraw staker shares => exact withdrawTranche_ok outside (.inl rfl) h
  | withdrawTranche staker tranche shares => exact withdrawTranche_ok outside (.inr rfl) h
  | drawDown caller claimId amount => exact drawDown_ok outside h
  | setPendingLoss caller pending =>
    obtain ⟨_, h, rfl, rfl⟩ := h
    simp only [setPendingLoss, bind_eq_ok, pure_eq_ok] at h
    obtain ⟨-, -, -, -, -, -, rfl⟩ := h
    exact .idle trivial ⟨rfl, rfl, rfl⟩ rfl
  | setParameters caller lockupLedgers juniorPremiumBps =>
    obtain ⟨_, h, rfl, rfl⟩ := h
    simp only [setParameters, bind_eq_ok, pure_eq_ok] at h
    obtain ⟨-, -, -, -, -, -, -, -, rfl⟩ := h
    exact .idle trivial ⟨rfl, rfl, rfl⟩ rfl
  | syncMatured =>
    obtain ⟨⟨_, _⟩, h, rfl, rfl⟩ := h
    exact .synced h
  | receivePremium source amount => exact receivePremium_ok outside h
  | advance seconds ledgers =>
    obtain ⟨_, -, rfl, rfl⟩ := h
    exact .idle trivial ⟨rfl, rfl, rfl⟩ rfl
  | transfer src dst amount =>
    obtain ⟨_, hsigned, _, h, rfl, rfl⟩ := h
    have hsrc : src ∈ signers.filter (· ≠ self) := (requireAuth_eq_ok _ _ _).mp hsigned
    exact .transferred (fun he => outside (he ▸ hsrc)) ⟨rfl, rfl, rfl⟩ (Token.transfer_ok h)

end RefractContracts.Backstop
