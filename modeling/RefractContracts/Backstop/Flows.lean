import RefractContracts.Backstop.Effects

/-! What flows into the backstop and out of it. Deposits and premiums raise the total
capital, withdrawals and drawdowns lower it, and the running totals keep account of
all four. A premium is pulled in full and credited in part, so the token balance
covers the capital and may exceed it. -/

namespace RefractContracts.Backstop

open Host Math

variable {Address : Type} {H : Helpers Address} {w w' : World Address} {self a : Address}
  {amount cut : ℤ}

/-- What the flows rely on of the missing helpers: maturing lots writes neither the
configuration nor the totals nor balances, a premium credit is between 0 and what was
asked, and no quote is negative. -/
structure Helpers.Bounded (H : Helpers Address) : Prop where
  sync : ∀ {w w' : World Address} {n : ℕ}, H.syncMatured w = .ok (w', n) →
    w'.configEntry = w.configEntry ∧ w'.stateEntry = w.stateEntry ∧ w'.ledger = w.ledger
  credit : ∀ {w w' : World Address} {t : Tranche} {asked c : ℤ},
    H.creditMaturePremium w t asked = .ok (w', c) → 0 ≤ asked →
      0 ≤ c ∧ c ≤ asked ∧ w'.configEntry = w.configEntry ∧ w'.ledger = w.ledger
  quote_nonneg : ∀ {shares total assets out : ℤ},
    H.quoteWithdrawal shares total assets = .ok out → 0 ≤ out

/-- What the missing helpers are relied on for: maturing lots moves no assets, a
premium credit adds exactly what it reports, and no quote is negative. -/
structure Helpers.Lawful (H : Helpers Address) : Prop where
  sync : ∀ {w w' : World Address} {n : ℕ}, H.syncMatured w = .ok (w', n) →
    w'.configEntry = w.configEntry ∧ w'.stateEntry = w.stateEntry ∧ w'.ledger = w.ledger ∧
      ∀ t, trancheAssets w' t = trancheAssets w t
  credit : ∀ {w w' : World Address} {t : Tranche} {asked c : ℤ},
    H.creditMaturePremium w t asked = .ok (w', c) → 0 ≤ asked → 0 ≤ c ∧ c ≤ asked ∧
      w'.configEntry = w.configEntry ∧ w'.ledger = w.ledger ∧
        ∀ s, trancheAssets w' s = trancheAssets w s + if s = t then c else 0
  quote_nonneg : ∀ {shares total assets out : ℤ},
    H.quoteWithdrawal shares total assets = .ok out → 0 ≤ out

theorem Helpers.Lawful.bounded (hH : H.Lawful) : H.Bounded where
  sync h := ⟨(hH.sync h).1, (hH.sync h).2.1, (hH.sync h).2.2.1⟩
  credit h hasked := by
    obtain ⟨hnonneg, hle, hconfig, hledger, -⟩ := hH.credit h hasked
    exact ⟨hnonneg, hle, hconfig, hledger⟩
  quote_nonneg := hH.quote_nonneg

/-- The capital is a nonnegative `i128`, and the token balance covers it. -/
structure Funded (vault : Address) (w : World Address) : Prop where
  nonneg : 0 ≤ totalCapital w
  fits : totalCapital w ≤ maxI128
  covered : totalCapital w ≤ w.ledger.balance vault
  fresh : w.configEntry = none → w.stateEntry = none

theorem funded_deployed (now sequence : ℕ) (ledger : Token Address) :
    Funded self (deployed now sequence ledger) :=
  ⟨le_rfl, zero_le_maxI128, ledger.nonneg self, fun _ => rfl⟩

/-- A premium of which `credit` is credited and `cut` is pulled. -/
structure Credited (H : Helpers Address) (vault : Address) (w w' : World Address)
    (cut credit : ℤ) : Prop where
  nonneg : 0 ≤ credit
  le_cut : credit ≤ cut
  configured : w.configEntry ≠ none
  config : w'.configEntry = w.configEntry
  capital : totalCapital w' = totalCapital w + credit
  fits : totalCapital w + credit ≤ maxI128
  income : premiumIncome w' = i128SaturatingAdd (premiumIncome w) credit
  drawn : totalDrawdowns w' = totalDrawdowns w
  balance : w'.ledger.balance vault = w.ledger.balance vault + cut
  split : ∃ v u junior senior askedJunior askedSenior, 0 ≤ askedJunior ∧ 0 ≤ askedSenior ∧
    H.creditMaturePremium w .junior askedJunior = .ok (v, junior) ∧
      H.creditMaturePremium v .senior askedSenior = .ok (u, senior) ∧ credit = junior + senior ∧
      ∀ t, trancheAssets w' t = trancheAssets u t

theorem Funded.transport (f : Funded self w) (hc : w'.configEntry = w.configEntry)
    (hs : w'.stateEntry = w.stateEntry) (hb : w.ledger.balance self ≤ w'.ledger.balance self) :
    Funded self w' := by
  have hcapital : totalCapital w' = totalCapital w := by simp [totalCapital, hs]
  exact ⟨hcapital ▸ f.nonneg, hcapital ▸ f.fits, hcapital ▸ f.covered.trans hb,
    fun hn => hs ▸ f.fresh (hc ▸ hn)⟩

theorem Funded.sync (hH : H.Bounded) (f : Funded self w) {n : ℕ}
    (h : H.syncMatured w = .ok (w', n)) : Funded self w' := by
  obtain ⟨hc, hs, hl⟩ := hH.sync h
  exact f.transport hc hs (by rw [hl])

/-- Capital and balance move together. -/
theorem Funded.shift {capital drawn assets : ℤ} (f : Funded self w)
    (s : Shift w w' capital drawn assets) (hpos : 0 ≤ totalCapital w + capital)
    (hfits : totalCapital w + capital ≤ maxI128)
    (hb : w.ledger.balance self + capital ≤ w'.ledger.balance self) : Funded self w' := by
  have hcovered := f.covered
  have hcapital := s.capital
  exact ⟨by omega, by omega, by omega, fun hn => absurd (s.config ▸ hn) s.configured⟩

section Effects
variable [DecidableEq Address]

theorem Paid.balance_dst {t t' : Token Address} {src dst : Address} (h : Paid t t' src dst amount)
    (hne : src ≠ dst) (hnonneg : 0 ≤ amount) : t'.balance dst = t.balance dst + amount := by
  rcases h with ⟨-, moved⟩ | ⟨hle, rfl⟩
  · exact moved.dst_balance hne
  · omega

theorem Paid.balance_src {t t' : Token Address} {src dst : Address} (h : Paid t t' src dst amount)
    (hne : src ≠ dst) (hnonneg : 0 ≤ amount) : t'.balance src = t.balance src - amount := by
  rcases h with ⟨-, moved⟩ | ⟨hle, rfl⟩
  · exact moved.src_balance hne
  · omega

/-- The balance bounds the capital, so the capital does not saturate. -/
theorem Earned.credit (hH : H.Bounded) (f : Funded self w) {ledger : Token Address}
    (e : Earned H w w' amount cut ledger) (hmax : amount ≤ maxI128) (outside : a ≠ self)
    (paid : Paid ledger w'.ledger a self cut) : ∃ credit, Credited H self w w' cut credit := by
  obtain ⟨bps, jbps, split, tsplit, v, u, jc, sc, hsplit, htsplit, hjunior, hsenior, rfl, rfl, hc,
    hassets, hcap, hinc⟩ := e.credited
  obtain ⟨hcut, hrest, hsum⟩ := splitBps_ok hmax hsplit
  obtain ⟨htcut, htrest, htsum⟩ := splitBps_ok (by omega) htsplit
  obtain ⟨hj0, hj1, hjc, hjl⟩ := hH.credit hjunior htcut
  obtain ⟨hs0, hs1, hsc, hsl⟩ := hH.credit hsenior htrest
  have hledger : u.ledger = w.ledger := hsl.trans hjl
  have hbalance := paid.balance_dst outside hcut
  rw [hledger] at hbalance
  have hmin := minI128_le_zero
  have hnonneg := f.nonneg
  have hfits : totalCapital w + (jc + sc) ≤ maxI128 := by
    have hcovered := f.covered
    rcases paid with ⟨-, moved⟩ | ⟨hle, -⟩
    · have hdst := moved.fits
      omega
    · have hle' := f.fits
      omega
  have hcredit : i128SaturatingAdd jc sc = jc + sc := i128SaturatingAdd_eq (by omega) (by omega)
  rw [hcredit] at hcap hinc
  rw [i128SaturatingAdd_eq (by omega) hfits] at hcap
  exact ⟨jc + sc,
    { nonneg := by omega
      le_cut := by omega
      configured := e.configured
      config := hc.trans (hsc.trans hjc)
      capital := hcap
      fits := hfits
      income := hinc
      drawn := e.drawn
      balance := hbalance
      split := ⟨v, u, jc, sc, _, _, htcut, htrest, hjunior, hsenior, rfl, hassets⟩ }⟩

omit [DecidableEq Address] in
theorem Credited.funded {credit : ℤ} (c : Credited H self w w' cut credit) (f : Funded self w) :
    Funded self w' := by
  obtain ⟨hnonneg, hle, hconfigured, hconfig, hcapital, hfits, -, -, hbalance, -⟩ := c
  have hcovered := f.covered
  have hpos := f.nonneg
  exact ⟨by omega, by omega, by omega, fun hn => absurd (hconfig ▸ hn) hconfigured⟩

/-- An accepted transaction keeps the capital covered. -/
theorem Effect.funded (hH : H.Bounded) {op : Op Address} {out : ℤ} (e : Effect H self w w' op out)
    (f : Funded self w) : Funded self w' := by
  cases e with
  | initialized first opened =>
    obtain ⟨hconfigured, hcapital, -, -, -, hledger⟩ := opened
    exact ⟨hcapital.ge, hcapital ▸ zero_le_maxI128, hcapital ▸ w'.ledger.nonneg self,
      fun hn => absurd hn hconfigured⟩
  | deposited kind synced outside pos shift fits moved =>
    have fv := f.sync hH synced
    have hnonneg := fv.nonneg
    exact fv.shift shift (by omega) fits (moved.dst_balance outside).ge
  | withdrawn kind synced outside quote covered shift paid =>
    have fv := f.sync hH synced
    have hnonneg := hH.quote_nonneg quote
    have hfits := fv.fits
    have hbalance := paid.balance_src outside.symm hnonneg
    exact fv.shift shift (by omega) (by omega) (by omega)
  | drawn outside covered shift moved =>
    have hnonneg := moved.nonneg
    have hfits := f.fits
    have hbalance := moved.src_balance outside.symm
    exact f.shift shift (by omega) (by omega) (by omega)
  | @earned source amount _ ledger outside earned paid =>
    obtain ⟨credit, c⟩ := earned.credit hH f amount.2.2 outside paid
    exact c.funded f
  | synced synced => exact f.sync hH synced
  | idle kind quiet hledger => exact f.transport quiet.config quiet.state (by rw [hledger])
  | transferred outside quiet moved =>
    exact f.transport quiet.config quiet.state (moved.balance_le outside.symm)

end Effects

/-! ### Conservation -/

abbrev Entry (Address : Type) := Receipt (World Address) (Transaction Address) ℤ

/-- What an accepted transaction deposits. -/
def depositedBy (x : Entry Address) : ℤ :=
  match x.call.op with
  | .deposit _ amount | .depositTranche _ _ amount => amount
  | _ => 0

/-- What an accepted transaction withdraws. -/
def withdrawnBy (x : Entry Address) : ℤ :=
  match x.call.op with
  | .withdraw .. | .withdrawTranche .. => x.out
  | _ => 0

/-- The premium an accepted transaction pulls. -/
def pulledBy (x : Entry Address) : ℤ :=
  match x.call.op with
  | .receivePremium .. => x.out
  | _ => 0

def deposits (h : List (Entry Address)) : ℤ := (h.map depositedBy).sum

def withdrawals (h : List (Entry Address)) : ℤ := (h.map withdrawnBy).sum

def premiums (h : List (Entry Address)) : ℤ := (h.map pulledBy).sum

/-- The running totals account for what has flowed in and out. -/
structure Conserved (h : List (Entry Address)) (w : World Address) : Prop where
  income_nonneg : 0 ≤ premiumIncome w
  income_le : premiumIncome w ≤ premiums h
  flows : deposits h + premiumIncome w = totalCapital w + totalDrawdowns w + withdrawals h

variable {h : List (Entry Address)} {x : Entry Address}

theorem deposits_snoc : deposits (h ++ [x]) = deposits h + depositedBy x := by simp [deposits]

theorem withdrawals_snoc : withdrawals (h ++ [x]) = withdrawals h + withdrawnBy x := by
  simp [withdrawals]

theorem premiums_snoc : premiums (h ++ [x]) = premiums h + pulledBy x := by simp [premiums]

/-- Totals only depend on the stored state. -/
theorem totals_congr (hs : w'.stateEntry = w.stateEntry) : totalCapital w' = totalCapital w ∧
    premiumIncome w' = premiumIncome w ∧ totalDrawdowns w' = totalDrawdowns w := by
  simp [totalCapital, premiumIncome, totalDrawdowns, hs]

theorem Op.Idle.noFlow (kind : x.call.op.Idle) :
    depositedBy x = 0 ∧ withdrawnBy x = 0 ∧ pulledBy x = 0 := by
  obtain ⟨w, ⟨signers, op⟩, out, w'⟩ := x
  cases op with
  | requestUnstake | cancelUnstake | setPendingLoss | setParameters | advance =>
    exact ⟨rfl, rfl, rfl⟩
  | _ => cases kind

/-- The totals account for one more transaction if they change with its flows. -/
theorem Conserved.snoc (c : Conserved h x.pre) (income : ℤ)
    (hincome : premiumIncome x.post = premiumIncome x.pre + income) (hnonneg : 0 ≤ income)
    (hle : income ≤ pulledBy x)
    (hflow : depositedBy x + income = totalCapital x.post - totalCapital x.pre +
      (totalDrawdowns x.post - totalDrawdowns x.pre) + withdrawnBy x) :
    Conserved (h ++ [x]) x.post := by
  obtain ⟨hpos, hpulled, hflows⟩ := c
  refine ⟨by omega, ?_, ?_⟩
  · rw [premiums_snoc]
    omega
  · rw [deposits_snoc, withdrawals_snoc]
    omega

/-- A deposit, a withdrawal or a draw, after the lots have matured. -/
theorem Conserved.shifted {v : World Address} {capital drawn assets : ℤ} (c : Conserved h x.pre)
    (hs : v.stateEntry = x.pre.stateEntry) (s : Shift v x.post capital drawn assets)
    (hpulled : pulledBy x = 0) (hflow : depositedBy x = capital + drawn + withdrawnBy x) :
    Conserved (h ++ [x]) x.post := by
  obtain ⟨hcapital, hincome, hdrawn⟩ := totals_congr hs
  have hpost := s.capital
  have hpost' := s.drawn
  refine c.snoc 0 ?_ le_rfl hpulled.ge (by omega)
  rw [s.income, hincome, add_zero]

theorem Conserved.still (c : Conserved h x.pre) (hs : x.post.stateEntry = x.pre.stateEntry)
    (hnone : depositedBy x = 0 ∧ withdrawnBy x = 0 ∧ pulledBy x = 0) :
    Conserved (h ++ [x]) x.post := by
  obtain ⟨hcapital, hincome, hdrawn⟩ := totals_congr hs
  obtain ⟨hdeposited, hwithdrawn, hpulled⟩ := hnone
  refine c.snoc 0 ?_ le_rfl hpulled.ge (by omega)
  rw [hincome, add_zero]

section Effects
variable [DecidableEq Address]

theorem Effect.pulled_nonneg (e : Effect H self x.pre x.post x.call.op x.out) :
    0 ≤ pulledBy x := by
  obtain ⟨w, ⟨signers, op⟩, out, w'⟩ := x
  change Effect H self w w' op out at e
  cases e with
  | deposited kind => rcases kind with rfl | rfl <;> exact le_rfl
  | withdrawn kind => rcases kind with rfl | rfl <;> exact le_rfl
  | @earned source amount _ ledger outside earned =>
    obtain ⟨_, _, split, _, _, _, _, _, hsplit, -, -, -, rfl, -⟩ := earned.credited
    exact (splitBps_ok amount.2.2 hsplit).1
  | idle kind => exact (Op.Idle.noFlow (x := ⟨w, ⟨signers, op⟩, out, w'⟩) kind).2.2.ge
  | _ => exact le_rfl

theorem Effect.conserved (hH : H.Bounded) (e : Effect H self x.pre x.post x.call.op x.out)
    (f : Funded self x.pre) (c : Conserved h x.pre) (hsum : premiums (h ++ [x]) ≤ maxI128) :
    Conserved (h ++ [x]) x.post := by
  rw [premiums_snoc] at hsum
  obtain ⟨w, ⟨signers, op⟩, out, w'⟩ := x
  change Effect H self w w' op out at e
  change Funded self w at f
  have hnonneg : 0 ≤ premiumIncome w := c.income_nonneg
  have hle : premiumIncome w ≤ premiums h := c.income_le
  cases e with
  | initialized first opened =>
    obtain ⟨hcapital, hincome, hdrawn⟩ : totalCapital w = 0 ∧ premiumIncome w = 0 ∧
        totalDrawdowns w = 0 := by
      have hs := f.fresh first
      simp [totalCapital, premiumIncome, totalDrawdowns, hs]
    refine c.snoc 0 ?_ le_rfl le_rfl ?_
    · rw [opened.income, hincome, add_zero]
    · rw [opened.capital, opened.drawn, hcapital, hdrawn]
      rfl
  | deposited kind synced outside pos shift =>
    have hstate := (hH.sync synced).2.1
    rcases kind with rfl | rfl
    · exact c.shifted hstate shift rfl (by simp [depositedBy, withdrawnBy])
    · exact c.shifted hstate shift rfl (by simp [depositedBy, withdrawnBy])
  | withdrawn kind synced outside quote covered shift =>
    have hstate := (hH.sync synced).2.1
    rcases kind with rfl | rfl
    · exact c.shifted hstate shift rfl (by simp [depositedBy, withdrawnBy])
    · exact c.shifted hstate shift rfl (by simp [depositedBy, withdrawnBy])
  | drawn outside covered shift =>
    exact c.shifted rfl shift rfl (by simp [depositedBy, withdrawnBy])
  | @earned source amount _ ledger outside earned paid =>
    obtain ⟨credit, credited⟩ := earned.credit hH f amount.2.2 outside paid
    have hcapital := credited.capital
    have hdrawn := credited.drawn
    have hcredit := credited.le_cut
    have hpos := credited.nonneg
    have hmin := minI128_le_zero
    simp only [pulledBy] at hsum
    have hincome := credited.income
    rw [i128SaturatingAdd_eq (by omega) (by omega)] at hincome
    refine c.snoc credit hincome hpos hcredit ?_
    simp only [depositedBy, withdrawnBy]
    omega
  | synced synced => exact c.still (hH.sync synced).2.1 ⟨rfl, rfl, rfl⟩
  | idle kind quiet =>
    exact c.still quiet.state (Op.Idle.noFlow (x := ⟨w, ⟨signers, op⟩, out, w'⟩) kind)
  | transferred outside quiet => exact c.still quiet.state ⟨rfl, rfl, rfl⟩

end Effects

/-! ### Runs -/

section Runs
variable [DecidableEq Address]

/-- In every run in which the premiums add up to an `i128`, deposits and premium income
equal capital, drawdowns and withdrawals, and the token balance covers the capital. -/
theorem conservation (hH : H.Bounded) (self : Address) (now sequence : ℕ) (ledger : Token Address)
    (calls : List (Transaction Address))
    (hsum : premiums (run (step H self) (deployed now sequence ledger) calls).2 ≤ maxI128) :
    let r := run (step H self) (deployed now sequence ledger) calls
    deposits r.2 + premiumIncome r.1 = totalCapital r.1 + totalDrawdowns r.1 + withdrawals r.2 ∧
      0 ≤ totalCapital r.1 ∧ totalCapital r.1 ≤ r.1.ledger.balance self := by
  intro r
  have both : Funded self r.1 ∧ (premiums r.2 ≤ maxI128 → Conserved r.2 r.1) := by
    refine (run_trace (step H self) (deployed now sequence ledger) calls).history
      (I := fun h w => Funded self w ∧ (premiums h ≤ maxI128 → Conserved h w))
      (fun h x accepted before => ?_) ⟨funded_deployed now sequence ledger, fun _ => ⟨?_, ?_, ?_⟩⟩
    · have e := step_effect accepted
      refine ⟨e.funded hH before.1, fun hpulled => ?_⟩
      have hsmall : premiums h ≤ maxI128 := by
        have hpos := e.pulled_nonneg
        rw [premiums_snoc] at hpulled
        omega
      exact e.conserved hH before.1 (before.2 hsmall) hpulled
    · exact le_rfl
    · exact le_rfl
    · rfl
  exact ⟨(both.2 hsum).flows, both.1.nonneg, both.1.covered⟩

/-! ### A run with all flows -/

def matureLot (w : World Address) (lot : DepositLot Address) : World Address :=
  let immature := sharesOf w lot.staker lot.tranche false - lot.shares
  let mature := sharesOf w lot.staker lot.tranche true + lot.shares
  let w := setShares (setShares w lot.staker lot.tranche false immature) lot.staker lot.tranche
    true mature
  let w := { w with
    lotEntry := Function.update w.lotEntry lot.lotId (some { lot with matured := true }) }
  match w.trancheEntry lot.tranche with
  | some t => saveTrancheState w lot.tranche { t with
      matureShares := t.matureShares + lot.shares
      matureAssets := t.matureAssets + lot.principal }
  | none => w

def matureNext (r : World Address × ℕ) (lotId : ℕ) : World Address × ℕ :=
  match r.1.lotEntry lotId with
  | some lot =>
    if ¬ lot.matured ∧ lot.maturesAt ≤ r.1.sequence then (matureLot r.1 lot, r.2 + 1) else r
  | none => r

/-- Helpers for concrete runs: lots mature at their ledger, a premium is credited
to a tranche with matured shares, and shares are priced in proportion. -/
def proportionalHelpers : Helpers Address where
  syncMatured w := pure ((w.allLotsEntry.getD []).foldl matureNext (w, 0))
  creditMaturePremium w tranche asked := do
    let t ← trancheState w tranche
    if 0 < t.matureShares ∧ 0 ≤ asked then
      pure (saveTrancheState w tranche { t with
        totalAssets := t.totalAssets + asked
        matureAssets := t.matureAssets + asked }, asked)
    else pure (w, 0)
  calcShares amount totalShares totalAssets :=
    if 0 < totalShares ∧ 0 < totalAssets then pure (amount * totalShares / totalAssets)
    else pure amount
  quoteWithdrawal shares totalShares totalAssets :=
    if 0 < totalShares ∧ 0 ≤ shares ∧ 0 ≤ totalAssets then pure (shares * totalAssets / totalShares)
    else pure 0

/-- Configuration, totals, balances and assets agree. -/
def SameBooks (w w' : World Address) : Prop :=
  w'.configEntry = w.configEntry ∧ w'.stateEntry = w.stateEntry ∧ w'.ledger = w.ledger ∧
    ∀ t, trancheAssets w' t = trancheAssets w t

theorem sameBooks_matureLot (lot : DepositLot Address) : SameBooks w (matureLot w lot) := by
  unfold matureLot
  cases ht : w.trancheEntry lot.tranche with
  | none => simp [setShares, ht, SameBooks, trancheAssets]
  | some t =>
    simp only [setShares, ht]
    refine ⟨rfl, rfl, rfl, fun s => ?_⟩
    rw [trancheAssets_saveTrancheState]
    split_ifs with hs
    · subst hs
      simp [trancheAssets, ht]
    · rfl

theorem sameBooks_matureNext (lots : List ℕ) (n : ℕ) :
    SameBooks w (lots.foldl matureNext (w, n)).1 := by
  induction lots using List.reverseRecOn with
  | nil => exact ⟨rfl, rfl, rfl, fun _ => rfl⟩
  | append_singleton lots lotId ih =>
    rw [List.foldl_append, List.foldl_cons, List.foldl_nil]
    unfold matureNext
    split
    · split_ifs
      · obtain ⟨hc, hs, hl, ha⟩ := ih
        obtain ⟨hc', hs', hl', ha'⟩ := sameBooks_matureLot (w := (lots.foldl matureNext (w, n)).1) _
        exact ⟨hc'.trans hc, hs'.trans hs, hl'.trans hl, fun t => (ha' t).trans (ha t)⟩
      · exact ih
    · exact ih

theorem proportionalHelpers_lawful : (proportionalHelpers : Helpers Address).Lawful where
  sync h := by
    obtain rfl := congrArg Prod.fst (Except.ok.inj h)
    exact sameBooks_matureNext _ _
  credit {w w' t asked c} h hasked := by
    simp only [proportionalHelpers, bind_eq_ok] at h
    obtain ⟨ts, hts, h⟩ := h
    split_ifs at h with hc
    · obtain ⟨rfl, rfl⟩ := Prod.mk.inj ((pure_eq_ok _ _).mp h)
      refine ⟨hc.2, le_rfl, rfl, rfl, fun s => ?_⟩
      rw [trancheAssets_saveTrancheState]
      split_ifs with hs
      · rw [hs, trancheAssets_of_trancheState hts]
      · rw [add_zero]
    · obtain ⟨rfl, rfl⟩ := Prod.mk.inj ((pure_eq_ok _ _).mp h)
      exact ⟨le_rfl, hasked, rfl, rfl, fun s => by simp⟩
  quote_nonneg {shares total assets out} h := by
    simp only [proportionalHelpers] at h
    split_ifs at h with hc
    · obtain rfl := (pure_eq_ok _ _).mp h
      exact Int.ediv_nonneg (mul_nonneg hc.2.1 hc.2.2) hc.1.le
    · exact ((pure_eq_ok _ _).mp h).le

end Runs

/-- A deposit, a premium of which half is pulled, a withdrawal and a drawdown. -/
def allFlows : List (Transaction ℕ) :=
  [⟨[2], .initializeContract 1 2 9 5000⟩, ⟨[3], .deposit 3 100⟩, ⟨[], .syncMatured⟩,
    ⟨[4], .receivePremium 4 ⟨40, by decide⟩⟩, ⟨[3], .withdraw 3 20⟩, ⟨[1], .drawDown 1 7 30⟩]

theorem conservation_allFlows :
    let r := run (step proportionalHelpers 0)
      (deployed 0 0 ((Token.empty.mint 3 100).mint 4 100)) allFlows
    r.2.length = 6 ∧
      deposits r.2 + premiumIncome r.1 = totalCapital r.1 + totalDrawdowns r.1 + withdrawals r.2 ∧
      0 ≤ totalCapital r.1 ∧ totalCapital r.1 ≤ r.1.ledger.balance 0 :=
  ⟨by decide +kernel, conservation proportionalHelpers_lawful.bounded 0 0 0 _ allFlows
    (by decide +kernel)⟩

end RefractContracts.Backstop
