import RefractContracts.Host.History
import RefractContracts.Host.Storage
import RefractContracts.Treasury.Effects

/-! Snapshots of the net asset value. The tracked assets enumerate the tokens with a feed
in every state of a run, so a snapshot misses no feed, values every tracked asset once and
stores the sum of the values. -/

namespace RefractContracts.Treasury

open Host

variable {Address : Type} {contract oracle token : Address} {signers : List Address}
  {w w' : World Address} {out : ℤ}

/-- What a token with the feed `feedId` contributes to a snapshot. -/
def valuation (contract : Address) (w : World Address) (oracle token : Address)
    (feedId : Symbol) : AssetNav Address :=
  let balance := tokenBalance contract w token
  let (price, priceTimestamp) := (w.prices oracle feedId).getD (0, 0)
  ⟨token, balance, price, (balance * price).tdiv priceScale, priceTimestamp⟩

/-- The snapshot values each tracked asset once, at the price of its feed, and stores the sum. -/
structure Complete (contract : Address) (w : World Address) (snapshot : NavSnapshot Address) :
    Prop where
  tokens : snapshot.assets.map AssetNav.token = trackedAssets w
  valued : ∃ oracle ∈ w.oracleEntry, ∀ asset ∈ snapshot.assets,
    ∃ feedId ∈ w.assetFeedEntry asset.token, asset = valuation contract w oracle asset.token feedId
  total : snapshot.totalNav = (snapshot.assets.map AssetNav.nav).sum
  taken : snapshot.timestamp = w.now ∧ snapshot.ledger = w.sequence

/-! ### The loop over the tracked assets -/

/-- The number fits the contract's integers. -/
def Fits (x : ℤ) : Prop := minI128 ≤ x ∧ x ≤ maxI128

theorem nav_eq_ok {balance price nav : ℤ} :
    (if price = 0 ∨ balance = 0 then pure 0
      else do
        let value ← i128Checked (balance * price) .overflow
        pure (value.tdiv priceScale) : Call ℤ) = .ok nav ↔
      Fits (balance * price) ∧ (balance * price).tdiv priceScale = nav := by
  split_ifs with hzero
  · have hproduct : balance * price = 0 := by
      rcases hzero with hprice | hbalance
      · rw [hprice, mul_zero]
      · rw [hbalance, zero_mul]
    rw [hproduct, Int.zero_tdiv, pure_eq_ok]
    exact (and_iff_right ⟨minI128_le_zero, zero_le_maxI128⟩).symm
  · simp only [bind_eq_ok, i128Checked_eq_ok, pure_eq_ok]
    constructor
    · rintro ⟨_, ⟨hfits, rfl⟩, rfl⟩
      exact ⟨hfits, rfl⟩
    · rintro ⟨hfits, rfl⟩
      exact ⟨_, ⟨hfits, rfl⟩, rfl⟩

/-- A token with a feed is valued unless its balance times the price overflows. -/
theorem assetNav_eq_ok {feedId : Symbol} {asset : AssetNav Address}
    (hfeed : w.assetFeedEntry token = some feedId) :
    assetNav contract w oracle token = .ok asset ↔
      Fits ((valuation contract w oracle token feedId).balance *
        (valuation contract w oracle token feedId).price) ∧
        valuation contract w oracle token feedId = asset := by
  rcases hquote : (w.prices oracle feedId).getD (0, 0) with ⟨price, priceTimestamp⟩
  simp only [assetNav, hfeed, valuation, hquote, okOr, ok_bind, bind_eq_ok, nav_eq_ok, pure_eq_ok]
  constructor
  · rintro ⟨_, ⟨hfits, rfl⟩, rfl⟩
    exact ⟨hfits, rfl⟩
  · rintro ⟨hfits, rfl⟩
    exact ⟨_, ⟨hfits, rfl⟩, rfl⟩

theorem assetNav_ok {asset : AssetNav Address} (h : assetNav contract w oracle token = .ok asset) :
    ∃ feedId ∈ w.assetFeedEntry token, asset = valuation contract w oracle token feedId := by
  cases hfeed : w.assetFeedEntry token with
  | none =>
    rw [assetNav, hfeed] at h
    cases h
  | some feedId => exact ⟨feedId, rfl, ((assetNav_eq_ok hfeed).mp h).2.symm⟩

theorem assetNav_ne_unregistered (h : (w.assetFeedEntry token).isSome) :
    assetNav contract w oracle token ≠ .error (.error .feedNotRegistered) := by
  unfold assetNav
  refine bind_ne_error (okOr_ne_error fun hnone => ?_) fun feedId _ => ?_
  · simp [hnone] at h
  · refine bind_ne_error ?_ fun nav _ => nofun
    split_ifs
    · nofun
    · exact bind_ne_error (i128Checked_ne_error nofun) fun value _ => nofun

/-- Each round appends the value of one token and adds it to the total. -/
theorem appraise_ok {l : List Address} {acc r : ℤ × List (AssetNav Address)}
    (h : l.foldlM (fun acc token => do
      let asset ← assetNav contract w oracle token
      let total ← i128Checked (acc.1 + asset.nav) .overflow
      pure (total, acc.2 ++ [asset]) :
        ℤ × List (AssetNav Address) → Address → Call (ℤ × List (AssetNav Address))) acc = .ok r) :
    ∃ assets : List (AssetNav Address),
      r = (acc.1 + (assets.map AssetNav.nav).sum, acc.2 ++ assets) ∧
      assets.map AssetNav.token = l ∧
      ∀ asset ∈ assets, ∃ feedId ∈ w.assetFeedEntry asset.token,
        asset = valuation contract w oracle asset.token feedId := by
  induction l generalizing acc with
  | nil =>
    obtain rfl : acc = r := (pure_eq_ok _ _).mp h
    exact ⟨[], by simp, rfl, List.forall_mem_nil _⟩
  | cons token l ih =>
    simp only [List.foldlM_cons, bind_eq_ok, i128Checked_eq_ok, pure_eq_ok] at h
    obtain ⟨_, ⟨asset, hasset, _, ⟨-, rfl⟩, rfl⟩, h⟩ := h
    obtain ⟨assets, rfl, htokens, hvalued⟩ := ih h
    obtain ⟨feedId, hfeed, heq⟩ := assetNav_ok hasset
    have htoken : asset.token = token := by rw [heq]; rfl
    refine ⟨asset :: assets, ?_, ?_, List.forall_mem_cons.mpr ⟨⟨feedId, ?_, ?_⟩, hvalued⟩⟩
    · simp [add_assoc]
    · rw [List.map_cons, htoken, htokens]
    · rwa [htoken]
    · rwa [htoken]

theorem takeNavSnapshot_ok (h : takeNavSnapshot contract w = .ok (w', out)) :
    ∃ snapshot, w' = { w with latestSnapshotEntry := some snapshot } ∧
      Complete contract w snapshot ∧ out = snapshot.totalNav := by
  simp only [takeNavSnapshot, bind_eq_ok, okOr_eq_ok, pure_eq_ok, Prod.mk.injEq] at h
  obtain ⟨oracle, horacle, r, hloop, rfl, rfl⟩ := h
  obtain ⟨assets, rfl, htokens, hvalued⟩ := appraise_ok hloop
  refine ⟨_, rfl, ⟨?_, ⟨oracle, horacle, ?_⟩, ?_, rfl, rfl⟩, rfl⟩
  · simpa using htokens
  · simpa using hvalued
  · simp

theorem takeNavSnapshot_ne_unregistered (h : ∀ token ∈ trackedAssets w,
      (w.assetFeedEntry token).isSome) :
    takeNavSnapshot contract w ≠ .error (.error .feedNotRegistered) := by
  unfold takeNavSnapshot
  refine bind_ne_error (okOr_ne_error fun _ => nofun) fun oracle _ => ?_
  refine bind_ne_error (foldlM_ne_error (fun token htoken acc => ?_) _) fun r _ => nofun
  refine bind_ne_error (assetNav_ne_unregistered (h token htoken)) fun asset _ => ?_
  exact bind_ne_error (i128Checked_ne_error nofun) fun total _ => nofun

/-! ### When a snapshot succeeds -/

/-- What a token contributes by the feed that it has. -/
def assetValue (contract : Address) (w : World Address) (oracle token : Address) :
    AssetNav Address :=
  valuation contract w oracle token ((w.assetFeedEntry token).getD "")

/-- An oracle is set, and no balance times its price and no running total overflows. -/
def Appraisable (contract : Address) (w : World Address) : Prop :=
  ∃ oracle ∈ w.oracleEntry,
    (∀ token ∈ trackedAssets w, Fits ((assetValue contract w oracle token).balance *
      (assetValue contract w oracle token).price)) ∧
    ∀ n, Fits (((trackedAssets w).take n).map fun token =>
      (assetValue contract w oracle token).nav).sum

theorem assetNav_eq_value {asset : AssetNav Address} (hfeed : (w.assetFeedEntry token).isSome) :
    assetNav contract w oracle token = .ok asset ↔
      Fits ((assetValue contract w oracle token).balance *
        (assetValue contract w oracle token).price) ∧
        assetValue contract w oracle token = asset := by
  obtain ⟨feedId, hfeed⟩ := Option.isSome_iff_exists.mp hfeed
  rw [assetNav_eq_ok hfeed, assetValue, hfeed, Option.getD_some]

theorem appraise_iff {l : List Address} (acc : ℤ × List (AssetNav Address))
    (hfeeds : ∀ token ∈ l, (w.assetFeedEntry token).isSome) (hacc : Fits acc.1) :
    (∃ r, l.foldlM (fun acc token => do
      let asset ← assetNav contract w oracle token
      let total ← i128Checked (acc.1 + asset.nav) .overflow
      pure (total, acc.2 ++ [asset]) :
        ℤ × List (AssetNav Address) → Address → Call (ℤ × List (AssetNav Address))) acc = .ok r) ↔
      (∀ token ∈ l, Fits ((assetValue contract w oracle token).balance *
        (assetValue contract w oracle token).price)) ∧
      ∀ n, Fits (acc.1 + ((l.take n).map fun token =>
        (assetValue contract w oracle token).nav).sum) := by
  induction l generalizing acc with
  | nil => simpa [pure_eq_ok] using hacc
  | cons token l ih =>
    obtain ⟨hfeed, hrest⟩ := List.forall_mem_cons.mp hfeeds
    simp only [List.foldlM_cons, bind_eq_ok, i128Checked_eq_ok, pure_eq_ok,
      assetNav_eq_value hfeed, List.forall_mem_cons]
    constructor
    · rintro ⟨r, _, ⟨_, ⟨hfits, rfl⟩, _, ⟨htotal, rfl⟩, rfl⟩, hloop⟩
      obtain ⟨hproducts, htotals⟩ := (ih (_, acc.2 ++ [assetValue contract w oracle token]) hrest
        htotal).mp ⟨r, hloop⟩
      refine ⟨⟨hfits, hproducts⟩, fun n => ?_⟩
      cases n with
      | zero => simpa using hacc
      | succ n => simpa [add_assoc] using htotals n
    · rintro ⟨⟨hfits, hproducts⟩, htotals⟩
      have htotal : Fits (acc.1 + (assetValue contract w oracle token).nav) := by
        simpa using htotals 1
      obtain ⟨r, hloop⟩ := (ih (_, acc.2 ++ [assetValue contract w oracle token]) hrest
        htotal).mpr ⟨hproducts, fun n => by simpa [add_assoc] using htotals (n + 1)⟩
      exact ⟨r, _, ⟨_, ⟨hfits, rfl⟩, _, ⟨htotal, rfl⟩, rfl⟩, hloop⟩

theorem takeNavSnapshot_iff (hfeeds : ∀ token ∈ trackedAssets w,
    (w.assetFeedEntry token).isSome) :
    (∃ r, takeNavSnapshot contract w = .ok r) ↔ Appraisable contract w := by
  simp only [takeNavSnapshot, bind_eq_ok, okOr_eq_ok, pure_eq_ok]
  constructor
  · rintro ⟨_, oracle, horacle, r, hloop, rfl⟩
    obtain ⟨hproducts, htotals⟩ :=
      (appraise_iff (0, []) hfeeds ⟨minI128_le_zero, zero_le_maxI128⟩).mp ⟨r, hloop⟩
    exact ⟨oracle, horacle, hproducts, fun n => by simpa using htotals n⟩
  · rintro ⟨oracle, horacle, hproducts, htotals⟩
    obtain ⟨r, hloop⟩ := (appraise_iff (0, []) hfeeds ⟨minI128_le_zero, zero_le_maxI128⟩).mpr
      ⟨hproducts, fun n => by simpa using htotals n⟩
    exact ⟨_, oracle, horacle, r, hloop, rfl⟩

/-! ### The tracked assets -/

/-- The tracked assets enumerate the feeds, of which there is none before the initialisation. -/
structure Tracked (w : World Address) : Prop where
  feeds : Enumerates (trackedAssets w) w.assetFeedEntry
  unset : w.adminEntry = none → w.assetFeedEntry = fun _ => none

namespace Tracked

theorem deployed (now sequence : ℕ) (tokens : Address → Token Address)
    (prices : Address → Symbol → Option (ℤ × ℕ)) :
    Tracked (deployed now sequence tokens prices) :=
  ⟨.empty, fun _ => rfl⟩

theorem kept (t : Tracked w) (admin : w'.adminEntry = none → w.adminEntry = none)
    (feeds : w'.assetFeedEntry = w.assetFeedEntry)
    (tracked : w'.trackedAssetsEntry = w.trackedAssetsEntry) : Tracked w' := by
  refine ⟨?_, fun hnone => feeds.trans (t.unset (admin hnone))⟩
  unfold trackedAssets
  rw [feeds, tracked]
  exact t.feeds

variable [DecidableEq Address]

theorem register {caller : Address} {feedId : Symbol} (t : Tracked w)
    (h : registerAssetFeed signers w caller token feedId = .ok w') : Tracked w' := by
  simp only [registerAssetFeed, bind_eq_ok, bail_eq_ok, Option.not_isSome_iff_eq_none] at h
  obtain ⟨_, hadmin, -, hfresh, h⟩ := h
  have hset := requireAdmin_ok hadmin
  -- a token without a feed is not tracked
  have hnew : token ∉ trackedAssets w := fun hmem => by
    simpa [hfresh] using (t.feeds.mem token).mp hmem
  rw [if_neg (by exact hnew)] at h
  obtain rfl := (pure_eq_ok _ _).mp h
  exact ⟨t.feeds.insert hfresh feedId, fun hnone => by cases hset.symm.trans hnone⟩

theorem deregister {caller : Address} (t : Tracked w)
    (h : deregisterAssetFeed signers w caller token = .ok w') : Tracked w' := by
  simp only [deregisterAssetFeed, bind_eq_ok, pure_eq_ok] at h
  obtain ⟨_, hadmin, rfl⟩ := h
  have hset := requireAdmin_ok hadmin
  exact ⟨t.feeds.remove token, fun hnone => by cases hset.symm.trans hnone⟩

/-- The operations that register no feed leave the feeds and the tracked assets. -/
theorem of_effect {op : Op Address} (t : Tracked w) (e : Effect contract w w' op out)
    (h : ¬ op.Appraises) : Tracked w' := by
  cases e with
  | initialized first =>
    have hempty := t.unset first
    refine ⟨?_, nofun⟩
    rw [hempty]
    exact .empty
  | appraised kind => exact absurd kind h
  | _ => exact t.kept id rfl rfl

theorem step {tx : Transaction Address} (t : Tracked w)
    (h : step contract w tx = .ok (w', out)) : Tracked w' := by
  have e := step_effect h
  obtain ⟨signers, op⟩ := tx
  cases op with
  | registerAssetFeed caller token feedId =>
    simp only [Treasury.step, bind_eq_ok, pure_eq_ok, Prod.mk.injEq] at h
    obtain ⟨_, h, rfl, -⟩ := h
    exact t.register h
  | deregisterAssetFeed caller token =>
    simp only [Treasury.step, bind_eq_ok, pure_eq_ok, Prod.mk.injEq] at h
    obtain ⟨_, h, rfl, -⟩ := h
    exact t.deregister h
  | takeNavSnapshot =>
    obtain ⟨snapshot, rfl, -⟩ := takeNavSnapshot_ok h
    exact t.kept id rfl rfl
  | _ => exact t.of_effect e id

end Tracked

/-- In every run a token is tracked exactly if it has a feed, and is tracked once. A snapshot
that is taken next never misses a feed: it values each tracked asset once and stores the sum,
or it fails and the snapshot before it is kept; and it fails only without an oracle or by an
overflow. -/
theorem snapshots_complete [DecidableEq Address] (contract : Address) (now sequence : ℕ)
    (tokens : Address → Token Address) (prices : Address → Symbol → Option (ℤ × ℕ))
    (txs : List (Transaction Address)) :
    let w := (run (step contract) (deployed now sequence tokens prices) txs).1
    (∀ token, token ∈ trackedAssets w ↔ (w.assetFeedEntry token).isSome) ∧
      (trackedAssets w).Nodup ∧
      (∀ signers, match step contract w ⟨signers, .takeNavSnapshot⟩ with
        | .ok (w', out) => ∃ snapshot, w'.latestSnapshotEntry = some snapshot ∧
            Complete contract w snapshot ∧ out = snapshot.totalNav
        | .error e => e ≠ .error .feedNotRegistered ∧
            (after (step contract) w ⟨signers, .takeNavSnapshot⟩).latestSnapshotEntry =
              w.latestSnapshotEntry) ∧
      ∀ signers, (∃ r, step contract w ⟨signers, .takeNavSnapshot⟩ = .ok r) ↔
        Appraisable contract w := by
  intro w
  have t : Tracked w := run_invariant (fun x accepted t => t.step accepted)
    (.deployed now sequence tokens prices) txs
  refine ⟨t.feeds.mem, t.feeds.distinct, fun signers => ?_, fun _ => ?_⟩
  · cases hstep : step contract w ⟨signers, .takeNavSnapshot⟩ with
    | ok r =>
      obtain ⟨snapshot, hw', hcomplete, hout⟩ := takeNavSnapshot_ok hstep
      exact ⟨snapshot, by rw [hw'], hcomplete, hout⟩
    | error e =>
      refine ⟨?_, by rw [after_error hstep]⟩
      rintro rfl
      exact takeNavSnapshot_ne_unregistered (fun token => (t.feeds.mem token).mp) hstep
  · exact takeNavSnapshot_iff fun token => (t.feeds.mem token).mp

/-- Two assets with feeds, one of them without a price. -/
def pricedAssets : List (Transaction ℕ) :=
  [⟨[1], .initializeContract 1⟩, ⟨[1], .setOracle 1 5⟩, ⟨[1], .registerAssetFeed 1 20 "XLM"⟩,
    ⟨[1], .registerAssetFeed 1 21 "USDC"⟩, ⟨[], .setPrice 5 "XLM" (some (1200000, 990))⟩]

theorem snapshots_complete_pricedAssets :
    let w := (run (step 0) (deployed 1000 7 (fun _ => Token.empty.mint 0 500) fun _ _ => none)
      pricedAssets).1
    Appraisable 0 w ∧ ∃ r, step 0 w ⟨[], .takeNavSnapshot⟩ = .ok r ∧
      r.1.latestSnapshotEntry.map (fun s => s.assets.map fun a => (a.token, a.nav)) =
        some [(20, 60), (21, 0)] := by
  intro w
  have hrun : ∃ r, step 0 w ⟨[], .takeNavSnapshot⟩ = .ok r ∧
      r.1.latestSnapshotEntry.map (fun s => s.assets.map fun a => (a.token, a.nav)) =
        some [(20, 60), (21, 0)] := ⟨_, rfl, by decide +kernel⟩
  have hlaw := snapshots_complete 0 1000 7 (fun _ => Token.empty.mint 0 500) (fun _ _ => none)
    pricedAssets
  exact ⟨(hlaw.2.2.2 []).mp (hrun.imp fun _ h => h.1), hrun⟩

end RefractContracts.Treasury
