import Mathlib.Data.List.ReduceOption
import RefractContracts.Scripts.Reconcile

/-! What a report says that did not fail. Its contracts have live instances, no archived entry and
balances that are known; what an initialized backstop or bounty owes, and what a treasury has of an
asset, is in the recorded balance; and each counter that counts as zero has its note. Each part of a
contract attains its share of this, and the lines of the report are only added to. -/

namespace RefractContracts.Scripts.ContractState

open Host Progress

variable {py : Python}

/-! ### What is recorded -/

/-- `v["status"] == s`. -/
def statusIs (v : Json py) (s : String) : Outcome String Bool := do
  let status ← v.field "status"
  return status.isText s

theorem statusIs_eq_ok {v : Json py} {s : String} {b : Bool} :
    statusIs v s = .ok b ↔ ∃ status, v.field "status" = .ok status ∧ status.isText s = b := by
  simp only [statusIs, Host.bind_eq_ok, pure_eq_ok]

theorem not_missing_of_live {v : Json py} (hlive : statusIs v "live" = .ok true) :
    ¬ statusIs v "missing" = .ok true := by
  intro hmissing
  obtain ⟨status, hstatus, htext⟩ := statusIs_eq_ok.mp hlive
  obtain ⟨status', hstatus', htext'⟩ := statusIs_eq_ok.mp hmissing
  obtain rfl : status = status' := ok_unique hstatus hstatus'
  have hsame := (Json.isText_iff.mp htext).symm.trans (Json.isText_iff.mp htext')
  exact absurd (PyValue.str.inj (Json.value.inj hsame)) (by decide)

/-- The balance of a token: that of a live entry, or zero without one. -/
def Holds (c : Json py) (token : String) (held : ℤ) : Prop :=
  ∃ balances b, c.field "token_balances" = .ok balances ∧ balances.field token = .ok b ∧
    (statusIs b "live" = .ok true ∧ amountOf b = .ok held ∨
      statusIs b "missing" = .ok true ∧ held = 0)

/-- There is no entry of a counter. -/
def Absent (c : Json py) (name : String) : Prop :=
  entry c name = .ok none ∨ ∃ e, entry c name = .ok (some e) ∧ statusIs e "missing" = .ok true

/-- The value of a counter: that of its live entry, or zero without one. -/
def CounterIs (c : Json py) (name : String) (n : ℤ) : Prop :=
  Absent c name ∧ n = 0 ∨ ∃ e value, entry c name = .ok (some e) ∧ statusIs e "live" = .ok true ∧
    e.field "value" = .ok value ∧ value.toInt = .ok n

/-- The instance is live, no entry is archived, and each balance is that of a live entry or of
none. -/
structure Current (c : Json py) : Prop where
  live : ∃ inst, c.field "instance" = .ok inst ∧ statusIs inst "live" = .ok true
  not_archived : ∃ entries, entriesOf c = .ok entries ∧
    ∀ e ∈ entries, statusIs e "archived" = .ok false
  known : ∃ tokens, tokensOf c = .ok tokens ∧
    ∀ token ∈ tokens, statusIs token.2 "live" = .ok true ∨ statusIs token.2 "missing" = .ok true

/-- The totals of the view are those of the counters. -/
def Treasury.AssetView.Reads (c : Json py) (asset : String) (a : Treasury.AssetView py) : Prop :=
  ∃ deposits withdrawn, CounterIs c (Treasury.totalDeposits asset) deposits ∧
    CounterIs c (Treasury.totalWithdrawn asset) withdrawn ∧
    a.totalDeposits = toString deposits ∧ a.totalWithdrawn = toString withdrawn

/-- The views are made, and the recorded balances cover what they report. -/
structure Backed (repr : Json py → String) (c : Json py) : Prop where
  viewed : ∃ kind, kindOf repr c = .ok kind ∧ ∃ views, (collectors repr kind).views c = .ok views
  backstop : kindOf repr c = .ok .backstop → ∀ v, Backstop.views repr c = .ok (some v) →
    ∃ token staked held, v.token = .str token ∧ v.totalStaked.toInt = .ok staked ∧
      Holds c token held ∧ staked ≤ held
  bounty : kindOf repr c = .ok .bounty → ∀ v, Bounty.views c = .ok (some v) →
    ∃ token escrow held, v.token = .str token ∧ Bounty.toInt? v.escrowBalance = .ok (some escrow) ∧
      Holds c token held ∧ escrow ≤ held
  treasury : kindOf repr c = .ok .treasury → ∀ v, Treasury.views repr c = .ok (some v) →
    ∀ assets items, c.field "assets" = .ok assets → assets.items = .ok items → ∀ asset ∈ items,
      ∃ token a deposits withdrawn held, asset = .str token ∧ (.str token, a) ∈ v.assets ∧
        a.Reads c token ∧ Treasury.ofText py a.totalDeposits = .ok deposits ∧
        Treasury.ofText py a.totalWithdrawn = .ok withdrawn ∧
        Holds c token held ∧ deposits - withdrawn ≤ held

/-- Every balance and counter that counts as zero has its note. -/
structure Named (repr : Json py → String) (c : Json py) (head : String) (lines : List String) :
    Prop where
  balances : ∀ tokens, tokensOf c = .ok tokens → ∀ token ∈ tokens,
    statusIs token.2 "missing" = .ok true → balanceNote head token.1 ∈ lines
  backstop : kindOf repr c = .ok .backstop → ∀ v, Backstop.views repr c = .ok (some v) →
    ∀ entries, entriesOf c = .ok entries → ∀ e ∈ entries, ∀ key, e.field "key" = .ok (.str key) →
      startsWith key Backstop.sharesPrefix = true → Absent c key → zeroNote head key ∈ lines
  bounty : kindOf repr c = .ok .bounty → ∀ v, Bounty.views c = .ok (some v) →
    ∀ storage, instanceStorage c = .ok storage → storage.contains "Reserved()" = .ok false →
      zeroNote head "Reserved()" ∈ lines
  treasury : kindOf repr c = .ok .treasury → ∀ v, Treasury.views repr c = .ok (some v) →
    ∀ assets items, c.field "assets" = .ok assets → assets.items = .ok items → ∀ asset ∈ items,
      ∀ name ∈ Treasury.counters (asset.text repr), Absent c name → zeroNote head name ∈ lines

/-! ### Counters -/

section Counters
variable {repr : Json py → String} {c : Json py} {name : String}

theorem assume_attains (name : String) :
    Attains (assume name) fun _ s => name ∈ s.names :=
  attains_modify (fun _ => List.subset_append_left _ _) fun _ => by simp

theorem monotone_mem_names (name : String) : Monotone fun s : Assumed => name ∈ s.names :=
  fun _ _ hle hmem => hle hmem

/-- The name of a counter without an entry is kept. -/
def Kept (c : Json py) (name : String) (s : Assumed) : Prop := Absent c name → name ∈ s.names

theorem monotone_kept (c : Json py) (name : String) : Monotone (Kept c name) :=
  fun _ _ hle h habsent => hle (h habsent)

/-- A counter has its value, and if that is of no entry, its name is kept. -/
theorem counter_attains (repr : Json py → String) (c : Json py) (name : String) :
    Attains (counter repr c name) fun n s => CounterIs c name n ∧ Kept c name s := by
  have hzero (habsent : Absent c name) : Attains (do assume name; return (0 : ℤ))
      fun n s => CounterIs c name n ∧ Kept c name s := by
    refine (assume_attains name).bind (fun _ => monotone_mem_names name)
      (R := fun _ n _ => n = 0) (fun _ => attains_pure fun _ => rfl) ?_
    rintro _ _ s hmem rfl
    exact ⟨.inl ⟨habsent, rfl⟩, fun _ => hmem⟩
  refine attains_lift_bind fun e he => ?_
  cases e with
  | none => exact hzero (.inl he)
  | some e =>
    refine attains_lift_bind fun status hstatus => ?_
    split_ifs with hmissing hlive
    · exact hzero (.inr ⟨e, he, statusIs_eq_ok.mpr ⟨status, hstatus, hmissing⟩⟩)
    · refine attains_lift_bind fun value hvalue => attains_lift fun n s hn => ⟨.inr ?_, ?_⟩
      · exact ⟨e, value, he, statusIs_eq_ok.mpr ⟨status, hstatus, hlive⟩, hvalue, hn⟩
      · rintro (hnone | ⟨e', he', hmissing'⟩)
        · cases he.symm.trans hnone
        · obtain ⟨status', hstatus', htext⟩ := statusIs_eq_ok.mp hmissing'
          obtain rfl : e = e' := Option.some.inj (ok_unique he he')
          obtain rfl : status = status' := ok_unique hstatus hstatus'
          exact absurd htext hmissing
    · exact attains_fail _

end Counters

/-! ### Checks -/

section Checks
variable {balances : Dict String ℤ} {checks : List Check}

/-- The report does not fail by the check. -/
def Check.Passes (chk : Check) : Prop := chk.ok = true ∨ chk.severity = .warning

theorem covered_passes {name : String} {owed held : Option ℤ} {chk : Check}
    (h : covered name owed held = .ok chk) (hpass : chk.Passes) :
    ∃ o n, owed = some o ∧ held = some n ∧ o ≤ n := by
  match held, owed with
  | none, owed =>
    obtain rfl := Except.ok.inj h
    exact hpass.elim nofun nofun
  | some n, none => cases h
  | some n, some o =>
    rw [covered] at h
    split_ifs at h with hlt hgt
    · obtain rfl := Except.ok.inj h
      exact hpass.elim nofun nofun
    · exact ⟨o, n, rfl, rfl, not_lt.mp hlt⟩
    · exact ⟨o, n, rfl, rfl, not_lt.mp hlt⟩

theorem balanceOf_eq_some {token : Json py} {n : ℤ} (h : balanceOf balances token = .ok (some n)) :
    ∃ t, token = .str t ∧ balances.get? t = some n := by
  match token with
  | .value (.str t) => exact ⟨t, rfl, Except.ok.inj h⟩
  | .value .none | .value (.bool _) | .value (.int _) | .value (.other _) => cases h
  | .list _ | .dict _ => cases h

theorem Backstop.checks_cover {v : Backstop.Views py} (h : Backstop.checks v balances = .ok checks)
    (hpass : ∀ chk ∈ checks, chk.Passes) : ∃ token staked held, v.token = .str token ∧
      v.totalStaked.toInt = .ok staked ∧ balances.get? token = some held ∧ staked ≤ held := by
  simp only [Backstop.checks, Host.bind_eq_ok, pure_eq_ok] at h
  obtain ⟨held, hheld, staked, hstaked, chk, hchk, _, _, _, _, rfl⟩ := h
  obtain ⟨o, n, howed, rfl, hle⟩ := covered_passes hchk (hpass chk List.mem_cons_self)
  obtain rfl := Option.some.inj howed
  obtain ⟨token, htoken, hget⟩ := balanceOf_eq_some hheld
  exact ⟨token, staked, n, htoken, hstaked, hget, hle⟩

theorem Bounty.checks_cover {v : Bounty.Views py} (h : Bounty.checks v balances = .ok checks)
    (hpass : ∀ chk ∈ checks, chk.Passes) : ∃ token escrow held, v.token = .str token ∧
      Bounty.toInt? v.escrowBalance = .ok (some escrow) ∧ balances.get? token = some held ∧
      escrow ≤ held := by
  simp only [Bounty.checks, Host.bind_eq_ok, pure_eq_ok] at h
  obtain ⟨escrow, hescrow, _, _, held, hheld, chk, hchk, _, _, _, _, rfl⟩ := h
  obtain ⟨o, n, rfl, rfl, hle⟩ := covered_passes hchk (hpass chk List.mem_cons_self)
  obtain ⟨token, htoken, hget⟩ := balanceOf_eq_some hheld
  exact ⟨token, o, n, htoken, hescrow, hget, hle⟩

/-- An asset that passes is a text with a balance. -/
theorem Treasury.assetChecks_cover {asset : PyValue py × Treasury.AssetView py}
    (h : Treasury.assetChecks balances asset = .ok checks)
    (hpass : ∀ chk ∈ checks, chk.Passes) :
    ∃ token deposits withdrawn held, asset.1 = .str token ∧
      Treasury.ofText py asset.2.totalDeposits = .ok deposits ∧
      Treasury.ofText py asset.2.totalWithdrawn = .ok withdrawn ∧
      balances.get? token = some held ∧ deposits - withdrawn ≤ held := by
  simp only [Treasury.assetChecks, Host.bind_eq_ok, pure_eq_ok] at h
  obtain ⟨_, _, deposits, hdeposits, withdrawn, hwithdrawn, held, hheld, chk, hchk, rfl⟩ := h
  have hpasses := hpass chk (List.mem_cons_of_mem _ List.mem_cons_self)
  obtain ⟨o, n, howed, rfl, hle⟩ := covered_passes hchk hpasses
  obtain rfl := Option.some.inj howed
  obtain ⟨token, htoken, hget⟩ := balanceOf_eq_some hheld
  exact ⟨token, deposits, withdrawn, n, Json.value.inj htoken, hdeposits, hwithdrawn, hget, hle⟩

theorem Treasury.checks_cover {v : Treasury.Views py} (h : Treasury.checks v balances = .ok checks)
    (hpass : ∀ chk ∈ checks, chk.Passes) {asset : PyValue py × Treasury.AssetView py}
    (hasset : asset ∈ v.assets) :
    ∃ token deposits withdrawn held, asset.1 = .str token ∧
      Treasury.ofText py asset.2.totalDeposits = .ok deposits ∧
      Treasury.ofText py asset.2.totalWithdrawn = .ok withdrawn ∧
      balances.get? token = some held ∧ deposits - withdrawn ≤ held := by
  simp only [Treasury.checks, Host.bind_eq_ok, pure_eq_ok] at h
  obtain ⟨sorted, hsorted, rows, hrows, rfl⟩ := h
  have hmem := (mem_sortedItems hsorted).mpr hasset
  obtain ⟨row, hrow, hchecks⟩ := (mapM_matched hrows).value _ hmem
  have hrowpass : ∀ chk ∈ row, chk.Passes := fun chk hchk =>
    hpass chk (List.mem_flatten_of_mem hrow hchk)
  exact Treasury.assetChecks_cover hchecks hrowpass

end Checks

/-! ### Views -/

section Views
variable {repr : Json py → String} {c : Json py}

theorem lasting_counter (c : Json py) (name : String) :
    Lasting fun n (s : Assumed) => CounterIs c name n ∧ Kept c name s :=
  fun _ _ _ hle h => ⟨h.1, monotone_kept c name hle h.2⟩

/-- The counter of an entry of shares. -/
def Backstop.RowKept (c e : Json py) (s : Assumed) : Prop :=
  ∀ key, e.field "key" = .ok (.str key) → startsWith key Backstop.sharesPrefix = true → Kept c key s

theorem Backstop.monotone_rowKept (c e : Json py) : Monotone (Backstop.RowKept c e) :=
  fun _ _ hle h key hkey hstart => monotone_kept c key hle (h key hkey hstart)

theorem Backstop.stakerRow_attains (repr : Json py → String) (c e : Json py) :
    Attains (Backstop.stakerRow repr c e) fun _ => Backstop.RowKept c e := by
  refine attains_lift_bind fun key hkey => attains_lift_bind fun name hname => ?_
  obtain rfl := Json.asText_eq_ok.mp hname
  have hsame (key' : String) (hkey' : e.field "key" = .ok (.str key')) : key' = name := by
    have hstr := ok_unique hkey hkey'
    exact (PyValue.str.inj (Json.value.inj hstr)).symm
  split_ifs with hstart
  · refine (counter_attains repr c name).bind (lasting_counter c name) (R := fun _ _ _ => True)
      (fun _ => attains_pure fun _ => trivial) ?_
    rintro _ _ s ⟨-, hkept⟩ - key' hkey' -
    obtain rfl := hsame key' hkey'
    exact hkept
  · refine attains_pure fun _ key' hkey' hstart' => ?_
    obtain rfl := hsame key' hkey'
    exact absurd hstart' hstart

theorem Backstop.views_assumed {v : Backstop.Views py} (h : Backstop.views repr c = .ok (some v))
    {entries : List (Json py)} (hentries : entriesOf c = .ok entries) {e : Json py}
    (he : e ∈ entries) {key : String} (hkey : e.field "key" = .ok (.str key))
    (hstart : startsWith key Backstop.sharesPrefix = true) (habsent : Absent c key) :
    key ∈ v.assumedZero := by
  simp only [Backstop.views, Host.bind_eq_ok] at h
  obtain ⟨storage, -, lacking, -, h⟩ := h
  split_ifs at h with hlacks
  · cases h
  simp only [Host.bind_eq_ok, pure_eq_ok, Option.some.injEq] at h
  obtain ⟨entries', hentries', ⟨rows, assumed⟩, hrows, _, _, _, _, _, _, _, _, _, _, _, _, _, _,
    rfl⟩ := h
  obtain rfl : entries = entries' := ok_unique hentries hentries'
  have hmatched := (attains_mapM (fun e _ => Backstop.stakerRow_attains repr c e)
    (fun e _ => Backstop.monotone_rowKept c e) _ _ _ hrows).2
  obtain ⟨_, -, hkept⟩ := hmatched.value e he
  exact (List.mem_insertionSort _).mpr (hkept key hkey hstart habsent)

theorem Bounty.views_assumed {v : Bounty.Views py} (h : Bounty.views c = .ok (some v))
    {storage : Json py} (hstorage : instanceStorage c = .ok storage)
    (hunknown : storage.contains "Reserved()" = .ok false) : "Reserved()" ∈ v.assumedZero := by
  simp only [Bounty.views, Host.bind_eq_ok] at h
  obtain ⟨storage', hstorage', lacking, -, h⟩ := h
  obtain rfl : storage = storage' := ok_unique hstorage hstorage'
  split_ifs at h with hlacks
  · cases h
  simp only [Host.bind_eq_ok, pure_eq_ok, Option.some.injEq] at h
  obtain ⟨_, _, _, _, _, _, _, _, _, _, _, _, known, hknown, rfl⟩ := h
  obtain rfl : false = known := ok_unique hunknown hknown
  exact List.mem_singleton_self _

theorem Treasury.sourceRow_attains (repr : Json py → String) (c : Json py) (asset : String)
    (source : String × ℕ) : Attains (Treasury.sourceRow repr c asset source) fun _ =>
      Kept c (Treasury.sourceTotal asset source.2) :=
  (counter_attains repr c _).bind (lasting_counter c _) (R := fun _ _ _ => True)
    (fun _ => attains_pure fun _ => trivial) fun _ _ _ hcounter _ => hcounter.2

/-- The row of an asset has its totals, and its counters without an entry are kept. -/
def Treasury.RowOf (repr : Json py → String) (c asset : Json py)
    (row : PyValue py × Treasury.AssetView py) (s : Assumed) : Prop :=
  (asset = .value row.1 ∧ row.2.Reads c row.1.text) ∧
    ∀ name ∈ Treasury.counters (asset.text repr), Kept c name s

theorem Treasury.lasting_rowOf (repr : Json py → String) (c asset : Json py) :
    Lasting (Treasury.RowOf repr c asset) :=
  fun _ _ _ hle h => ⟨h.1, fun name hname => monotone_kept c name hle (h.2 name hname)⟩

theorem Treasury.assetRow_attains (repr : Json py → String) (c asset : Json py) :
    Attains (Treasury.assetRow repr c asset) (Treasury.RowOf repr c asset) := by
  have hsources := attains_mapM (l := Treasury.treasurySources.zipIdx)
    (fun source _ => Treasury.sourceRow_attains repr c (asset.text repr) source)
    fun source _ => monotone_kept c _
  -- the sources are kept through the two counters that are read after them
  refine hsources.bind (lasting_matched (fun source _ => monotone_kept c _) _)
    (R := fun _ row s => (asset = .value row.1 ∧ row.2.Reads c row.1.text) ∧
      Kept c (Treasury.totalDeposits (asset.text repr)) s ∧
      Kept c (Treasury.totalWithdrawn (asset.text repr)) s) (fun bySource => ?_) ?_
  · refine attains_lift_bind fun caps _ => ?_
    refine (counter_attains repr c _).bind (lasting_counter c _)
      (R := fun deposits row s => asset = .value row.1 ∧ row.2.totalDeposits = toString deposits ∧
        ∃ withdrawn, CounterIs c (Treasury.totalWithdrawn (asset.text repr)) withdrawn ∧
          row.2.totalWithdrawn = toString withdrawn ∧
          Kept c (Treasury.totalWithdrawn (asset.text repr)) s) (fun deposits => ?_) ?_
    · refine (counter_attains repr c _).bind (lasting_counter c _)
        (R := fun withdrawn row _ => asset = .value row.1 ∧
          row.2.totalDeposits = toString deposits ∧ row.2.totalWithdrawn = toString withdrawn)
          (fun withdrawn => ?_) ?_
      · exact attains_lift_bind fun token htoken =>
          attains_pure fun _ => ⟨Json.asKey_eq_ok.mp htoken, rfl, rfl⟩
      · rintro withdrawn row s ⟨hcounter, hkept⟩ ⟨htoken, hdeposits, hwithdrawn⟩
        exact ⟨htoken, hdeposits, withdrawn, hcounter, hwithdrawn, hkept⟩
    · rintro deposits row s ⟨hcounter, hkept⟩
        ⟨htoken, hdeposits, withdrawn, hcounter', hwithdrawn, hkept'⟩
      have hlabel : asset.text repr = row.1.text := by
        rw [htoken]
        rfl
      rw [hlabel] at hcounter hcounter' hkept hkept' ⊢
      exact ⟨⟨htoken, deposits, withdrawn, hcounter, hcounter', hdeposits, hwithdrawn⟩,
        hkept, hkept'⟩
  · rintro _ row s hmatched ⟨hrow, hdeposits, hwithdrawn⟩
    refine ⟨hrow, fun name hname => ?_⟩
    rw [Treasury.counters, List.mem_append, List.mem_map] at hname
    rcases hname with ⟨source, hsource, rfl⟩ | hname
    · obtain ⟨_, -, hkept⟩ := hmatched.value source hsource
      exact hkept
    · rcases List.mem_pair.mp hname with rfl | rfl
      · exact hdeposits
      · exact hwithdrawn

/-- A view under a text is that of an asset, each asset has one, and its counters without an entry
are kept. -/
theorem Treasury.views_assets {v : Treasury.Views py} (h : Treasury.views repr c = .ok (some v))
    {assets : Json py} {items : List (Json py)} (hassets : c.field "assets" = .ok assets)
    (hitems : assets.items = .ok items) {asset : Json py} (hasset : asset ∈ items) :
    (∀ token a, (.str token, a) ∈ v.assets → a.Reads c token) ∧
      (∃ key, asset = .value key ∧ ∃ e ∈ v.assets, e.1 = key ∨ e.1.eq key = true) ∧
      ∀ name ∈ Treasury.counters (asset.text repr), Absent c name → name ∈ v.assumedZero := by
  simp only [Treasury.views, Host.bind_eq_ok] at h
  obtain ⟨storage, -, lacking, -, h⟩ := h
  split_ifs at h with hlacks
  · cases h
  simp only [Host.bind_eq_ok, pure_eq_ok, Option.some.injEq] at h
  obtain ⟨assets', hassets', items', hitems', ⟨rows, assumed⟩, hrows, _, _, _, _, rfl⟩ := h
  obtain rfl : assets = assets' := ok_unique hassets hassets'
  obtain rfl : items = items' := ok_unique hitems hitems'
  have hmatched := (attains_mapM (fun asset _ => Treasury.assetRow_attains repr c asset)
    (fun asset => Treasury.lasting_rowOf repr c asset) _ _ _ hrows).2
  obtain ⟨row, hrow, ⟨hkey, -⟩, hkept⟩ := hmatched.value asset hasset
  refine ⟨fun token a ha => ?_, ⟨row.1, hkey, exists_mem_dictOf hrow⟩,
    fun name hname habsent => (List.mem_insertionSort _).mpr (hkept name hname habsent)⟩
  -- the view may be that of another mention of the asset
  obtain ⟨row', hrow', hsame, rfl⟩ := mem_dictOf ha
  obtain ⟨_, -, ⟨-, hreads⟩, -⟩ := hmatched.item row' hrow'
  rw [eq_str_of_same hsame] at hreads
  exact hreads

end Views

/-! ### Lines -/

section Lines
variable {repr : Json py → String} {head : String}

theorem monotone_mem_lines (line : String) : Monotone fun r : Report => line ∈ r.lines :=
  fun _ _ hle hmem => hle.1 hmem

theorem monotone_failed : Monotone fun r : Report => r.failed = true := fun _ _ hle => hle.2

theorem unfailed {r s : Report} (hle : r ≤ s) (hs : s.failed = false) : r.failed = false := by
  rw [Bool.eq_false_iff] at hs ⊢
  exact fun hr => hs (hle.2 hr)

/-- What holds of a report that did not fail. -/
theorem monotone_unfailed {P : List String → Prop} (hP : ∀ l l', l ⊆ l' → P l → P l') :
    Monotone fun r : Report => r.failed = false → P r.lines :=
  fun r s hle h hs => hP r.lines s.lines hle.1 (h (unfailed hle hs))

theorem say_attains (line : String) : Attains (say line) fun _ r => line ∈ r.lines :=
  attains_modify (fun r => ⟨List.subset_append_left r.lines _, id⟩) fun _ => by simp

theorem sayFail_attains (line : String) : Attains (sayFail line) fun _ r => r.failed = true :=
  attains_modify (fun r => ⟨List.subset_append_left r.lines _, fun _ => rfl⟩) fun _ => rfl

theorem sayCheck_attains (head : String) (chk : Check) :
    Attains (sayCheck head chk) fun _ r => r.failed = false → chk.Passes := by
  unfold sayCheck
  split_ifs with hok hwarning
  · exact (say_attains _).mono fun _ _ _ _ => .inl hok
  · exact attains_modify (fun r => ⟨List.subset_append_left r.lines _, id⟩)
      fun _ _ => .inr hwarning
  · refine (sayFail_attains _).mono fun _ r hfailed hr => ?_
    cases hfailed.symm.trans hr

/-- The balance of a token is known, and one without an entry is noted. -/
def Balance (head : String) (token : String × Json py) (n : ℤ) (lines : List String) : Prop :=
  statusIs token.2 "live" = .ok true ∧ amountOf token.2 = .ok n ∨
    statusIs token.2 "missing" = .ok true ∧ n = 0 ∧ balanceNote head token.1 ∈ lines

def RowOf (head : String) (token : String × Json py) (row : String × (String ⊕ ℤ)) (r : Report) :
    Prop := row.1 = token.1 ∧ ∀ n, row.2 = .inr n → Balance head token n r.lines

theorem lasting_rowOf (head : String) (token : String × Json py) : Lasting (RowOf head token) :=
  fun _ _ _ hle h => ⟨h.1, fun n hn => (h.2 n hn).imp id fun hmissing =>
    ⟨hmissing.1, hmissing.2.1, hle.1 hmissing.2.2⟩⟩

theorem tokenRow_attains (repr : Json py → String) (head : String) (token : String × Json py) :
    Attains (tokenRow repr head token) (RowOf head token) := by
  refine attains_lift_bind fun status hstatus => ?_
  split_ifs with hlive hmissing
  · refine attains_lift_bind fun amount hamount => attains_pure fun _ => ⟨rfl, ?_⟩
    rintro _ ⟨⟩
    exact .inl ⟨statusIs_eq_ok.mpr ⟨status, hstatus, hlive⟩, hamount⟩
  · refine (say_attains _).bind (fun _ => monotone_mem_lines _)
      (R := fun _ row _ => row = (token.1, .inr 0)) (fun _ => attains_pure fun _ => rfl) ?_
    rintro _ _ r hnote rfl
    refine ⟨rfl, ?_⟩
    rintro _ ⟨⟩
    exact .inr ⟨statusIs_eq_ok.mpr ⟨status, hstatus, hmissing⟩, rfl, hnote⟩
  · exact attains_pure fun _ => ⟨rfl, nofun⟩

end Lines

/-! ### One contract -/

section Contract
variable {repr : Json py → String} {c : Json py} {head name : String}
variable {rows : List (String × (String ⊕ ℤ))}

theorem exists_balance (h : balanceProblems rows = []) {row : String × (String ⊕ ℤ)}
    (hrow : row ∈ rows) : ∃ n, row.2 = .inr n := by
  have hnone := List.filterMap_eq_nil_iff.mp h row hrow
  cases hcase : row.2 with
  | inl problem =>
    rw [hcase] at hnone
    cases hnone
  | inr n => exact ⟨n, rfl⟩

theorem mem_of_balancesOf {token : String} {n : ℤ} (h : (balancesOf rows).get? token = some n) :
    (token, .inr n) ∈ rows := by
  obtain ⟨⟨name, entry⟩, hrow, hentry⟩ := List.mem_filterMap.mp (Dict.mem_of_get?_ofList h)
  cases entry with
  | inl problem => cases hentry
  | inr m =>
    cases hentry
    exact hrow

theorem tokensOf_mem {tokens : List (String × Json py)} (h : tokensOf c = .ok tokens)
    {token : String × Json py} (htoken : token ∈ tokens) :
    ∃ balances, c.field "token_balances" = .ok balances ∧ balances.field token.1 = .ok token.2 := by
  simp only [tokensOf, Host.bind_eq_ok, pure_eq_ok] at h
  obtain ⟨balances, hbalances, pairs, hpairs, rfl⟩ := h
  have hget := Dict.mem_entries.mp (mem_sortedByKey.mp htoken)
  refine ⟨balances, hbalances, ?_⟩
  rw [Json.field, Json.get, hpairs, ok_bind]
  simp only [hget, pure_bind]
  rfl

/-- No problem is one with the instance or an entry. -/
theorem problems_nil (h : problems repr c = .ok []) :
    (∃ inst, c.field "instance" = .ok inst ∧ statusIs inst "live" = .ok true) ∧
      ∃ entries, entriesOf c = .ok entries ∧ ∀ e ∈ entries, statusIs e "archived" = .ok false := by
  simp only [problems, Host.bind_eq_ok, pure_eq_ok, List.append_eq_nil_iff] at h
  obtain ⟨_, hinstance, entries, hentries, archived, harchived, rfl, hnone⟩ := h
  constructor
  · simp only [instanceProblems, Host.bind_eq_ok, pure_eq_ok] at hinstance
    obtain ⟨inst, hinst, status, hstatus, hlive⟩ := hinstance
    split_ifs at hlive with htext
    exact ⟨inst, hinst, statusIs_eq_ok.mpr ⟨status, hstatus, htext⟩⟩
  · refine ⟨entries, hentries, fun e he => ?_⟩
    obtain ⟨problem, hproblem, hentry⟩ := (mapM_matched harchived).value e he
    obtain rfl : problem = none := by
      cases problem with
      | none => rfl
      | some p =>
        have hmem : p ∈ archived.reduceOption := List.reduceOption_mem_iff.mpr hproblem
        rw [hnone] at hmem
        cases hmem
    simp only [entryProblem, Host.bind_eq_ok] at hentry
    obtain ⟨status, hstatus, hentry⟩ := hentry
    split_ifs at hentry with htext
    · simp [Host.bind_eq_ok] at hentry
    · exact statusIs_eq_ok.mpr ⟨status, hstatus, Bool.eq_false_iff.mpr htext⟩

/-- What the collector finds without failing the report. -/
def Collected (collector : Collector py) (c : Json py) (head : String) (balances : Dict String ℤ)
    (lines : List String) : Prop :=
  ∃ views, collector.views c = .ok views ∧ ∀ v, views = some v →
    (∀ item ∈ collector.assumedZero v, zeroNote head item ∈ lines) ∧
      ∃ checks, collector.checks v balances = .ok checks ∧ ∀ chk ∈ checks, chk.Passes

theorem collect_attains (c : Json py) (collector : Collector py) (head : String)
    (balances : Dict String ℤ) : Attains (collect c collector head balances) fun _ r =>
      r.failed = false → Collected collector c head balances r.lines := by
  unfold collect
  split
  · refine (sayFail_attains _).mono fun _ r hfailed hr => ?_
    cases hfailed.symm.trans hr
  · exact attains_lift nofun
  · next hviews =>
    exact (say_attains _).mono fun _ _ _ _ => ⟨none, hviews, nofun⟩
  · next v hviews =>
    refine (attains_forM (fun item _ => say_attains (zeroNote head item))
      fun item => monotone_mem_lines _).bind
      (fun _ r s hle hall item hitem => monotone_mem_lines _ hle (hall item hitem))
      (R := fun _ _ r => r.failed = false →
        ∃ checks, collector.checks v balances = .ok checks ∧ ∀ chk ∈ checks, chk.Passes)
        (fun _ => ?_) ?_
    · refine attains_lift_bind fun checks hchecks => ?_
      refine (attains_forM (fun chk _ => sayCheck_attains head chk)
        fun chk r s hle h hs => h (unfailed hle hs)).mono fun _ r hall hr => ?_
      exact ⟨checks, hchecks, fun chk hchk => hall chk hchk hr⟩
    · rintro _ _ r hnotes hchecks hr
      refine ⟨some v, hviews, ?_⟩
      rintro _ ⟨⟩
      exact ⟨hnotes, hchecks hr⟩

/-- The balances of rows without a problem are recorded. -/
theorem holds_of_get {tokens : List (String × Json py)} {r : Report}
    (htokens : tokensOf c = .ok tokens)
    (hmatched : Matched (fun token row => RowOf head token row r) tokens rows) {token : String}
    {held : ℤ} (hget : (balancesOf rows).get? token = some held) : Holds c token held := by
  obtain ⟨⟨name, b⟩, htoken, hname, hbalance⟩ := hmatched.item _ (mem_of_balancesOf hget)
  obtain rfl : token = name := hname
  obtain ⟨balances, hbalances, hfield⟩ := tokensOf_mem htokens htoken
  refine ⟨balances, b, hbalances, hfield, (hbalance held rfl).imp id fun hmissing => ?_⟩
  exact ⟨hmissing.1, hmissing.2.1⟩

/-- What was found of the views of the contract's kind. -/
theorem Collected.found {kind k : Kind} {balances : Dict String ℤ} {lines : List String}
    (h : Collected (collectors repr kind) c head balances lines) (hkind : kindOf repr c = .ok kind)
    (hk : kindOf repr c = .ok k) {v : (collectors repr k).Views}
    (hv : (collectors repr k).views c = .ok (some v)) :
    (∀ item ∈ (collectors repr k).assumedZero v, zeroNote head item ∈ lines) ∧
      ∃ checks, (collectors repr k).checks v balances = .ok checks ∧
        ∀ chk ∈ checks, chk.Passes := by
  obtain rfl := ok_unique hkind hk
  obtain ⟨_, hviews, hall⟩ := h
  exact hall v (ok_unique hviews hv)

/-- What the collectors find without failing is covered by what is recorded. -/
theorem backed_of_collected {kind : Kind} {balances : Dict String ℤ} {lines : List String}
    (hkind : kindOf repr c = .ok kind)
    (h : Collected (collectors repr kind) c head balances lines)
    (hholds : ∀ token held, balances.get? token = some held → Holds c token held) :
    Backed repr c where
  viewed := ⟨kind, hkind, h.imp fun _ hviews => hviews.1⟩
  backstop hbackstop v hv := by
    obtain ⟨-, checks, hchecks, hpass⟩ := h.found hkind hbackstop hv
    obtain ⟨token, staked, held, htoken, hstaked, hget, hle⟩ := Backstop.checks_cover hchecks hpass
    exact ⟨token, staked, held, htoken, hstaked, hholds token held hget, hle⟩
  bounty hbounty v hv := by
    obtain ⟨-, checks, hchecks, hpass⟩ := h.found hkind hbounty hv
    obtain ⟨token, escrow, held, htoken, hescrow, hget, hle⟩ := Bounty.checks_cover hchecks hpass
    exact ⟨token, escrow, held, htoken, hescrow, hholds token held hget, hle⟩
  treasury htreasury v hv assets items hassets hitems asset hasset := by
    obtain ⟨-, checks, hchecks, hpass⟩ := h.found hkind htreasury hv
    obtain ⟨hreads, ⟨key, rfl, ⟨stored, a⟩, ha, hsame⟩, -⟩ :=
      Treasury.views_assets hv hassets hitems hasset
    -- only the view of a text passes, and no other key equals a text
    obtain ⟨token, deposits, withdrawn, held, rfl, hdeposits, hwithdrawn, hget, hle⟩ :=
      Treasury.checks_cover hchecks hpass ha
    obtain rfl := eq_str_of_same hsame
    exact ⟨token, a, deposits, withdrawn, held, rfl, ha, hreads token a ha, hdeposits, hwithdrawn,
      hholds token held hget, hle⟩

/-- The notes of the views are those of the counters without an entry. -/
theorem named_of_collected {kind : Kind} {balances : Dict String ℤ} {lines : List String}
    (hkind : kindOf repr c = .ok kind)
    (h : Collected (collectors repr kind) c head balances lines)
    (hbalances : ∀ tokens, tokensOf c = .ok tokens → ∀ token ∈ tokens,
      statusIs token.2 "missing" = .ok true → balanceNote head token.1 ∈ lines) :
    Named repr c head lines where
  balances := hbalances
  backstop hbackstop v hv entries hentries e he key hkey hstart habsent := by
    refine (h.found hkind hbackstop hv).1 key ?_
    exact Backstop.views_assumed hv hentries he hkey hstart habsent
  bounty hbounty v hv storage hstorage hunknown := by
    refine (h.found hkind hbounty hv).1 _ ?_
    exact Bounty.views_assumed hv hstorage hunknown
  treasury htreasury v hv assets items hassets hitems asset hasset name hname habsent := by
    refine (h.found hkind htreasury hv).1 name ?_
    exact (Treasury.views_assets hv hassets hitems hasset).2.2 name hname habsent

/-- What a report says of a contract by not failing. -/
def Sound (repr : Json py → String) (c : Json py) (name : String) (lines : List String) : Prop :=
  ∃ head, headOf repr c name = .ok head ∧ Current c ∧ Backed repr c ∧ Named repr c head lines

theorem Named.mono {lines lines' : List String} (h : Named repr c head lines)
    (hle : lines ⊆ lines') : Named repr c head lines' where
  balances tokens htokens token htoken hmissing :=
    hle (h.balances tokens htokens token htoken hmissing)
  backstop hkind v hv entries hentries e he key hkey hstart habsent :=
    hle (h.backstop hkind v hv entries hentries e he key hkey hstart habsent)
  bounty hkind v hv storage hstorage hunknown := hle (h.bounty hkind v hv storage hstorage hunknown)
  treasury hkind v hv assets items hassets hitems asset hasset name hname habsent :=
    hle (h.treasury hkind v hv assets items hassets hitems asset hasset name hname habsent)

theorem Sound.mono {lines lines' : List String} (h : Sound repr c name lines)
    (hle : lines ⊆ lines') : Sound repr c name lines' := by
  obtain ⟨head, hhead, hcurrent, hbacked, hnamed⟩ := h
  exact ⟨head, hhead, hcurrent, hbacked, hnamed.mono hle⟩

/-- A contract without a problem whose collector finds nothing that fails is sound. -/
theorem sound_of_collected {kind : Kind} {tokens : List (String × Json py)} {r : Report}
    (hkind : kindOf repr c = .ok kind) (hhead : headOf repr c name = .ok head)
    (hproblems : problems repr c = .ok []) (htokens : tokensOf c = .ok tokens)
    (hmatched : Matched (fun token row => RowOf head token row r) tokens rows)
    (hbalances : balanceProblems rows = [])
    (hcollected : Collected (collectors repr kind) c head (balancesOf rows) r.lines) :
    Sound repr c name r.lines := by
  obtain ⟨hlive, harchived⟩ := problems_nil hproblems
  have hbalance (token : String × Json py) (htoken : token ∈ tokens) :
      ∃ n, Balance head token n r.lines := by
    obtain ⟨row, hrow, -, hrowof⟩ := hmatched.value token htoken
    obtain ⟨n, hn⟩ := exists_balance hbalances hrow
    exact ⟨n, hrowof n hn⟩
  refine ⟨head, hhead, ⟨hlive, harchived, tokens, htokens, fun token htoken => ?_⟩, ?_, ?_⟩
  · obtain ⟨n, hn⟩ := hbalance token htoken
    exact hn.imp And.left And.left
  · exact backed_of_collected hkind hcollected fun _ _ => holds_of_get htokens hmatched
  · refine named_of_collected hkind hcollected fun tokens' htokens' token htoken hmissing => ?_
    obtain rfl : tokens = tokens' := ok_unique htokens htokens'
    obtain ⟨n, ⟨hlive, -⟩ | ⟨-, -, hnote⟩⟩ := hbalance token htoken
    · exact absurd hmissing (not_missing_of_live hlive)
    · exact hnote

/-- One contract: the report fails, or the contract is sound. -/
theorem reconcileContract_attains (repr : Json py → String) (contracts : Json py) (name : String) :
    Attains (reconcileContract repr contracts name) fun _ r => r.failed = false →
      ∀ c, contracts.field name = .ok c → Sound repr c name r.lines := by
  refine attains_lift_bind fun c hc => attains_lift_bind fun kind hkind => ?_
  refine attains_lift_bind fun head hhead => attains_lift_bind fun found hfound => ?_
  refine attains_lift_bind fun tokens htokens => ?_
  refine (attains_mapM (fun token _ => tokenRow_attains repr head token) (lasting_rowOf head)).bind
    (lasting_matched (lasting_rowOf head) tokens)
    (R := fun rows _ r => r.failed = false → (found = [] ∧ balanceProblems rows = []) ∧
      Collected (collectors repr kind) c head (balancesOf rows) r.lines) (fun rows => ?_) ?_
  · dsimp only
    split_ifs with hnone
    · refine (collect_attains c _ head _).mono fun _ r hcollected hr => ⟨?_, hcollected hr⟩
      exact List.append_eq_nil_iff.mp hnone
    · refine (attains_forM (fun p _ => sayFail_attains (failLine head p))
        fun p => monotone_failed).mono fun _ r hall hr => ?_
      obtain ⟨p, hp⟩ := List.exists_mem_of_ne_nil _ hnone
      cases (hall p hp).symm.trans hr
  · rintro rows _ r hmatched hrest hr c' hc'
    obtain rfl : c = c' := ok_unique hc hc'
    obtain ⟨⟨rfl, hbalances⟩, hcollected⟩ := hrest hr
    exact sound_of_collected hkind hhead hfound htokens hmatched hbalances hcollected

end Contract

/-! ### The snapshot -/

section Snapshot
variable {repr : Json py → String} {snap contracts c : Json py} {name : String} {report : Report}

/-- A contract of the snapshot is looked at. -/
theorem mem_contractNames {names : List String} (hnames : contractNames contracts = .ok names)
    (hc : contracts.field name = .ok c) : name ∈ names := by
  cases contracts with
  | dict pairs =>
    obtain rfl := Except.ok.inj hnames
    simp only [Json.field, Json.get, Json.pairs, Host.bind_eq_ok, pure_eq_ok] at hc
    obtain ⟨found, ⟨_, ⟨⟩, rfl⟩, hfound⟩ := hc
    cases hget : (Dict.ofList pairs).get? name with
    | none =>
      rw [hget] at hfound
      cases hfound
    | some x =>
      have hmem := mem_sortedByKey.mpr (Dict.mem_entries.mpr hget)
      exact List.mem_map_of_mem (f := Prod.fst) hmem
  | list items => cases hc
  | value v => cases hc

end Snapshot

/-- A report that did not fail says of every contract of the snapshot that it is current, backed by
what is recorded, and that what counts as zero is named. -/
theorem reconcile_sound (py : Python) (repr : Json py → String) (snap : Json py) (report : Report)
    (h : reconcile repr snap = .ok report) (hpass : report.failed = false) (contracts c : Json py)
    (name : String) (hcontracts : snap.field "contracts" = .ok contracts)
    (hc : contracts.field name = .ok c) : Sound repr c name report.lines := by
  simp only [reconcile, Host.bind_eq_ok, pure_eq_ok] at h
  obtain ⟨_, -, _, -, contracts', hcontracts', names, hnames, ⟨_, _⟩, hrun, rfl⟩ := h
  obtain rfl : contracts = contracts' := ok_unique hcontracts hcontracts'
  have hattained := attains_forM (l := names)
    (fun name _ => reconcileContract_attains repr contracts name)
    fun name => monotone_unfailed (P := fun lines => ∀ c, contracts.field name = .ok c →
      Sound repr c name lines) fun _ _ hle hall c hc => (hall c hc).mono hle
  exact (hattained _ _ _ hrun).2 name (mem_contractNames hnames hc) hpass c hc

/-! ### A snapshot -/

/-- What is shown of lists and objects, which are in no line here. -/
def plainRepr : Json plainPython → String
  | .value v => v.text
  | .list _ => "[]"
  | .dict _ => "\x7b\x7d"

def recordedEntry (key status : String) (value : Json plainPython) : Json plainPython :=
  .dict [("key", .str key), ("status", .str status), ("value", value)]

/-- A contract with a balance of one token. -/
def recordedContract (kind id balance : String) (storage : List (String × Json plainPython))
    (entries assets : List (Json plainPython)) : Json plainPython :=
  .dict [("kind", .str kind), ("id", .str id),
    ("instance", .dict [("status", .str "live"), ("value", .dict [("storage", .dict storage)])]),
    ("entries", .list entries), ("assets", .list assets),
    ("token_balances",
      .dict [("TOKEN", .dict [("status", .str "live"), ("amount", .str balance)])])]

def recordedBackstop : Json plainPython :=
  recordedContract "backstop" "CB" "1500"
    [("\"config\"", .dict [("token", .str "TOKEN")]),
      ("\"state\"", .dict [("total_capital", .str "1500"), ("total_shares", .str "1500"),
        ("premium_income", .str "0")])]
    [recordedEntry "\"shares\"(A)" "live" (.str "1000"),
      recordedEntry "\"shares\"(B)" "missing" .null] []

def recordedTreasury : Json plainPython :=
  recordedContract "treasury" "CT" "40" [("Admin()", .str "ADMIN")]
    [recordedEntry "SourceTotal(TOKEN, 0)" "live" (.str "50"),
      recordedEntry "SourceTotal(TOKEN, 1)" "live" (.str "0"),
      recordedEntry "SourceTotal(TOKEN, 2)" "live" (.str "0"),
      recordedEntry "SourceTotal(TOKEN, 3)" "live" (.str "0"),
      recordedEntry "TotalDeposits(TOKEN)" "live" (.str "50"),
      recordedEntry "TotalWithdrawn(TOKEN)" "live" (.str "10")] [.str "TOKEN"]

def recordedContracts : Json plainPython :=
  .dict [("backstop", recordedBackstop), ("treasury", recordedTreasury)]

def recordedSnapshot : Json plainPython :=
  .dict [("schema_version", .int 1), ("contracts", recordedContracts)]

def recordedReport : Report where
  lines := [
    "  note  backstop [CB]: \"shares\"(B) has no entry; treated as 0",
    "  ok    backstop [CB]: token balance covers total_staked: held 1500 == owed 1500",
    "  ok    backstop [CB]: listed staker shares <= total_shares: 1000 <= 1500",
    "  ok    treasury [CT]: TOKEN: sum(total_by_source) == total_deposits: 50 == 50",
    "  ok    treasury [CT]: TOKEN: token balance covers deposits - withdrawn: held 40 == owed 40"]
  failed := false
  warnings := 0

/-- A backstop and a treasury that reconcile. -/
theorem recordedReport_sound : Sound plainRepr recordedBackstop "backstop" recordedReport.lines ∧
    Sound plainRepr recordedTreasury "treasury" recordedReport.lines := by
  have hreport : reconcile plainRepr recordedSnapshot = .ok recordedReport := by decide +kernel
  exact ⟨reconcile_sound _ _ _ _ hreport rfl recordedContracts _ _ rfl rfl,
    reconcile_sound _ _ _ _ hreport rfl recordedContracts _ _ rfl rfl⟩

end RefractContracts.Scripts.ContractState
