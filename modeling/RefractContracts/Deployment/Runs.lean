import RefractContracts.Deployment.Steps

/-! Deployments that are run again. Runs of one plan may be cut off anywhere, and others use the
contracts in between: the registry, as long as it can be read, says only what is on the chain, and
every transaction of the deployer is a step of the plan. A call that wires two contracts may go
through once more for each run that was stopped, for it is recorded after it was made. -/

namespace RefractContracts.Deployment

open Host Scripts Script Method

variable {py : Python} (sha256 : Bytes → Digest32) (wr : Writer py) (frames : ℕ)

section Steps
variable {sha256 wr frames} {cfg : Config py} {plan : Resolver py} {n : ℕ} {reg : Registry py}
  {name : String} {args : Args}

/-- The selected contracts and calls are of the plan. -/
theorem select_spec {cfg' : Config py} {only : Option String} (hcfg : cfg.selected = none)
    (h : select wr cfg only = .ok cfg') :
    cfg'.networks = cfg.networks ∧ cfg'.contracts = cfg.contracts ∧
      (∀ c ∈ cfg'.chosen, c ∈ cfg.contracts) ∧ cfg'.wiring ⊆ cfg.wiring := by
  simp only [select] at h
  split at h
  · cases h
    refine ⟨rfl, rfl, fun c hc => ?_, List.Subset.refl _⟩
    rwa [Config.chosen, hcfg] at hc
  split at h
  · cases h
  · cases h
    exact ⟨rfl, rfl, fun c hc => (List.mem_filter.mp hc).1, List.filter_sublist.subset⟩

theorem triple_carryOut (hcli : args.cli.Lawful) {cfg' : Config py}
    (hchosen : ∀ c ∈ cfg'.chosen, c ∈ cfg.contracts) (hwiring : cfg'.wiring ⊆ cfg.wiring)
    (manifest : Dict String String) : Triple (Held sha256 wr frames cfg plan n reg)
      (carryOut sha256 wr frames args plan manifest cfg' reg)
      (fun reg' => Held sha256 wr frames cfg plan n reg')
      (Stops sha256 wr frames cfg plan n) := by
  refine (triple_foldlM (fun reg c _ => triple_deployOne hcli manifest c) reg).bind fun reg => ?_
  refine (triple_foldlM (fun reg c hc => triple_initializeOne hcli (hchosen c hc)) reg).bind
    fun reg => ?_
  exact triple_foldlM (fun reg v hv => triple_wireOne (hwiring hv)) reg

theorem reads_checkView (plan : Resolver py) (name id : String) (view : String × Json py) :
    Reads (checkView wr frames args plan name id view) := by
  refine (reads_check _).bind fun value => (reads_look _).bind fun got => ?_
  split <;> exact reads_pure _

theorem reads_verifyOne (plan : Resolver py) (failures : List String) (c : ContractConfig py) :
    Reads (verifyOne sha256 wr frames args plan reg failures c) := by
  rw [verifyOne]
  split
  · exact reads_pure _
  · refine (reads_check _).bind fun id => (reads_look _).bind fun onChain => ?_
    refine (reads_check _).bind fun views => reads_foldlM (fun failures view => ?_) _
    exact (reads_checkView plan c.name id view).bind fun failed => reads_pure _

/-- Verifying changes neither the chain nor the file. -/
theorem reads_cmdVerify (cfg : Config py) : Reads (cmdVerify sha256 wr frames args cfg) := by
  refine (reads_check _).bind fun net => (reads_look _).bind fun reg => ?_
  dsimp only
  refine reads_guard fun _ => (reads_check _).bind fun deployer => ?_
  refine (reads_check _).bind fun ids => (reads_check _).bind fun nativeSac => ?_
  refine (reads_foldlM (reads_verifyOne _) _).bind fun failures => ?_
  split
  · exact reads_check _
  · exact reads_pure _

theorem Args.plan_eq {cfg' : Config py} (hnet : cfg'.networks = cfg.networks)
    (hcontracts : cfg'.contracts = cfg.contracts) {net : NetworkConfig py}
    (h : networkCfg wr cfg' args.network = .ok net) {deployer nativeSac : String}
    (hdeployer : stripped <$> checked "keys address" args.cli.address = .ok deployer)
    (hsac : stripped <$> checked "contract id" args.cli.nativeSac = .ok nativeSac) {p : Resolver py}
    (hp : buildPlan sha256 cfg' net deployer nativeSac = .ok p) :
    args.plan sha256 wr cfg = .ok p := by
  rw [networkCfg, hnet] at h
  rw [buildPlan, hcontracts] at hp
  simp only [Args.plan, networkCfg, buildPlan, h, hdeployer, hsac]
  exact hp

theorem buildPlan_deployer {net : NetworkConfig py} {deployer nativeSac : String}
    {p : Resolver py} (hp : buildPlan sha256 cfg net deployer nativeSac = .ok p) :
    p.deployer = deployer := by
  obtain ⟨ids, -, h⟩ := (bind_eq_ok _ _ _).mp hp
  cases h
  rfl

theorem triple_ensureNativeSac (cli : Stellar) :
    Triple (Sound sha256 wr frames cfg plan n) cli.ensureNativeSac
      (fun sac w => stripped <$> checked "contract id" cli.nativeSac = .ok sac ∧
        Sound sha256 wr frames cfg plan n w)
      (Stops sha256 wr frames cfg plan n) := by
  have hstops : ∀ e w, Sound sha256 wr frames cfg plan n w →
      Stops sha256 wr frames cfg plan n e w := fun e w hw => hw.stops e
  refine triple_check_bind hstops fun sac hsac => ?_
  refine triple_look_bind hstops fun fetches => ?_
  refine Triple.pre (P := Sound sha256 wr frames cfg plan n) ?_ fun w hw => hw.2
  split
  · exact triple_pure fun w hw => ⟨hsac, hw⟩
  have hsubmit : Triple (Sound sha256 wr frames cfg plan n)
      (submit cli.deployAsset fun chain _ => { chain with asset := true })
      (fun _ => Sound sha256 wr frames cfg plan n) (Stops sha256 wr frames cfg plan n) := by
    apply triple_submit
    · intro w out _ hw
      have hsound : Sound sha256 wr frames cfg plan n
          { w with chain := { w.chain with asset := true } } :=
        hw.grows ⟨hw.chain.inits, hw.chain.calls⟩
          ⟨fun _ _ hcode => hcode, fun _ hinit => hinit, List.prefix_rfl⟩ rfl
      exact ⟨hsound, hsound.stops .trap⟩
    · exact fun w stderr _ hw => hw
    · exact fun w hw => hw.stops .trap
  refine hsubmit.bind fun proc => ?_
  cases proc with
  | ok out => exact triple_pure fun w hw => ⟨hsac, hw⟩
  | error stderr => exact triple_guard hstops fun _ => triple_pure fun w hw => ⟨hsac, hw⟩

/-- The registry in the file is that of the deployer, if it is of any. -/
theorem Sound.adopt {w : World py} (h : Sound sha256 wr frames cfg plan n w)
    (hload : w.file.registry? = some reg) {reg' : Registry py}
    (hreg' : Deployment.adopt args plan.deployer reg = .ok reg') :
    Held sha256 wr frames cfg plan n reg' w := by
  have htruthful := h.file reg hload
  cases hd : reg.deployer with
  | none =>
    simp only [Deployment.adopt, hd] at hreg'
    cases hreg'
    refine ⟨h, ⟨?_, htruthful.entries, htruthful.wired⟩, by rw [hload]; rfl, rfl⟩
    rintro d ⟨⟩
    rfl
  | some d =>
    simp only [Deployment.adopt, hd, if_pos (htruthful.deployer d hd)] at hreg'
    cases hreg'
    exact ⟨h, htruthful, by rw [hload]; rfl, by rw [hd, htruthful.deployer d hd]⟩

/-- The whole of `deploy`, wherever it is cut off. -/
theorem triple_deploy (hcfg : cfg.selected = none) (h : Follows sha256 wr cfg plan args) :
    Triple (Sound sha256 wr frames cfg plan n) (deploy sha256 wr frames args cfg)
      (fun _ => Sound sha256 wr frames cfg plan n) (Stops sha256 wr frames cfg plan n) := by
  have hstops : ∀ e w, Sound sha256 wr frames cfg plan n w →
      Stops sha256 wr frames cfg plan n e w := fun e w hw => hw.stops e
  refine triple_check_bind hstops fun cfg' hselect => ?_
  obtain ⟨hnet, hcontracts, hchosen, hwiring⟩ := select_spec hcfg hselect
  refine triple_check_bind hstops fun net hnetwork => ?_
  refine triple_check_bind hstops fun deployer hdeployer => ?_
  refine (triple_ensureNativeSac args.cli).bind fun nativeSac => triple_of_pure fun hsac => ?_
  refine triple_check_bind hstops fun plan' hplan => ?_
  obtain rfl := h.plan plan' (Args.plan_eq hnet hcontracts hnetwork hdeployer hsac hplan)
  obtain rfl := buildPlan_deployer hplan
  split
  case h_2 => exact triple_die hstops
  case h_1 manifest hmanifest =>
  refine triple_look_bind hstops fun reg => ?_
  refine triple_check_bind (fun e w hw => hw.2.stops e) fun reg' hreg' => ?_
  have hheld : ∀ w : World py, orRaise w.file.registry? = .ok reg ∧
      Sound sha256 wr frames cfg plan' n w → Held sha256 wr frames cfg plan' n reg' w := by
    rintro w ⟨hload, hw⟩
    exact hw.adopt (orRaise_eq_ok.mp hload) hreg'
  have hcarried : Triple (fun w : World py => orRaise w.file.registry? = .ok reg ∧
        Sound sha256 wr frames cfg plan' n w)
      (discard (carryOut sha256 wr frames args plan' (.ofList manifest) cfg' reg'))
      (fun _ => Sound sha256 wr frames cfg plan' n) (Stops sha256 wr frames cfg plan' n) :=
    ((triple_carryOut h.lawful hchosen hwiring _).pre hheld).bind fun _ =>
      triple_pure fun _ hw => hw.sound
  refine hcarried.bind fun _ => ?_
  exact (reads_cmdVerify cfg' _).mono (fun _ hw => hw) (fun _ _ hw => hw) fun e _ hw => hw.stops e

theorem Other.grows (o : Other) (c : Chain) : c.Grows (o.take c) := by
  cases o with
  | init id args =>
    rw [Other.take]
    split
    · exact grows_initialized
    · exact .refl c
  | upgrade id wasm => exact grows_upgraded c id wasm
  | call k => exact ⟨fun _ _ h => h, fun _ h => h, List.prefix_rfl⟩

theorem Other.fromPlan (o : Other) {c : Chain} (h : FromPlan wr frames cfg plan c) :
    FromPlan wr frames cfg plan (o.take c) := by
  cases o with
  | init id args =>
    rw [Other.take]
    split
    · refine ⟨fun id' options ho => ?_, h.calls⟩
      by_cases hid : id' = id
      · subst hid
        simp [Chain.initialized] at ho
      · simp only [Chain.initialized, Function.update_of_ne hid] at ho
        exact h.inits id' options ho
    · exact h
  | upgrade id wasm =>
    rw [Other.take, Chain.upgraded]
    split
    · exact ⟨h.inits, h.calls⟩
    · exact h
  | call k => exact ⟨h.inits, h.calls⟩

theorem Other.calls (o : Other) (c : Chain) : (o.take c).calls = c.calls := by
  cases o with
  | init id args =>
    rw [Other.take]
    split <;> rfl
  | upgrade id wasm =>
    rw [Other.take, Chain.upgraded]
    split <;> rfl
  | call k => rfl

theorem triple_act (hcfg : cfg.selected = none) {k : Args ⊕ Other}
    (hk : ∀ args, k = .inl args → Follows sha256 wr cfg plan args) (n : ℕ) :
    Triple (Sound sha256 wr frames cfg plan n) (act sha256 wr frames cfg k)
      (fun _ => Sound sha256 wr frames cfg plan n) (Stops sha256 wr frames cfg plan n) := by
  cases k with
  | inl args => exact triple_deploy hcfg (hk args rfl)
  | inr o =>
    have hsubmit : Triple (Sound sha256 wr frames cfg plan n)
        (submit (fun _ => .ok "") fun c _ => o.take c) (fun _ => Sound sha256 wr frames cfg plan n)
        (Stops sha256 wr frames cfg plan n) := by
      apply triple_submit
      · intro w out _ hw
        have hsound : Sound sha256 wr frames cfg plan n { w with chain := o.take w.chain } :=
          hw.grows (o.fromPlan hw.chain) (o.grows w.chain) (o.calls w.chain)
        exact ⟨hsound, hsound.stops .trap⟩
      · exact fun w stderr _ hw => hw
      · exact fun w hw => hw.stops .trap
    exact hsubmit.bind fun _ => triple_pure fun _ hw => hw

/-- After runs that were cut off anywhere, with what others did in between. -/
theorem session_sound (hcfg : cfg.selected = none) {ks : List ((Args ⊕ Other) × Option (ℕ × Bool))}
    (hks : ∀ k ∈ ks, ∀ args, k.1 = .inl args → Follows sha256 wr cfg plan args) {w : World py}
    (hw : Sound sha256 wr frames cfg plan n w) :
    Sound sha256 wr frames cfg plan (n + (session (act sha256 wr frames cfg) w ks).2)
      (session (act sha256 wr frames cfg) w ks).1 :=
  session_invariant (fun k => ∀ args, k = .inl args → Follows sha256 wr cfg plan args)
    (fun _ n hk => triple_act hcfg hk n) hks hw

/-- Before the first run: the deployer has done nothing, and there is no registry. -/
theorem sound_absent {chain : Chain} (hinits : ∀ id options, chain.inits id ≠ some (options, true))
    (hcalls : chain.calls = []) :
    Sound sha256 wr frames cfg plan 0 (⟨chain, .absent⟩ : World py) := by
  constructor
  · refine ⟨fun id options h => absurd h (hinits id options), fun call hcall => ?_⟩
    rw [hcalls] at hcall
    cases hcall
  · rintro reg ⟨⟩
    exact ⟨nofun, nofun, nofun⟩
  · intro i call _
    simp [hcalls]

/-- What a truthful registry says of an initialisation, and who made it. -/
theorem Registry.Truthful.init {c : Chain} (h : reg.Truthful sha256 wr frames cfg plan c)
    (hfrom : FromPlan wr frames cfg plan c)
    (hdistinct : ∀ k ∈ cfg.contracts, ∀ k' ∈ cfg.contracts,
      plan.ids.get? k.name = plan.ids.get? k'.name → k = k') {e : Entry py}
    (he : reg.contracts.get? name = some e) (hinit : e.initialized = true) :
    ∃ id options ours, plan.ids.get? name = some id ∧ c.inits id = some (options, ours) ∧
      (ours = true → ∃ args, e.initArgs = some args ∧ cliArgs wr args = .ok options) := by
  obtain ⟨id, args, hid, hsome, hargs, k, hk, rfl, hresolve⟩ :=
    (h.entries name e he).initialized hinit
  obtain ⟨⟨options, ours⟩, ho⟩ := Option.isSome_iff_exists.mp hsome
  refine ⟨id, options, ours, hid, ho, ?_⟩
  rintro rfl
  obtain ⟨k', hk', hid', args', hresolve', hoptions⟩ := hfrom.inits id options ho
  obtain rfl := hdistinct k hk k' hk' (hid.trans hid'.symm)
  obtain rfl := Except.ok.inj (hresolve.symm.trans hresolve')
  exact ⟨args, hargs, hoptions⟩

end Steps

/-- What can be told after runs of which `stops` were stopped. -/
structure Recorded (cfg : Config py) (plan : Resolver py) (w : World py) (stops : ℕ) : Prop where
  deployed : ∀ reg, w.file.registry? = some reg → ∀ name e, reg.contracts.get? name = some e →
    ∃ id wasm, plan.ids.get? name = some id ∧ e.contractId = some id ∧
      w.chain.Had id wasm ∧ e.wasmSha256 = some (hexdigest (sha256 wasm))
  initialized : ∀ reg, w.file.registry? = some reg → ∀ name e,
    reg.contracts.get? name = some e → e.initialized = true →
      ∃ id options ours, plan.ids.get? name = some id ∧ w.chain.inits id = some (options, ours) ∧
        (ours = true → ∃ args, e.initArgs = some args ∧ cliArgs wr args = .ok options)
  wired : ∀ reg, w.file.registry? = some reg → ∀ i ∈ reg.wiringDone, ∃ v ∈ cfg.wiring, v.id = i ∧
    ∃ call ∈ w.chain.calls, plan.callOf wr frames v = .ok call
  planned : ∀ call ∈ w.chain.calls, ∃ v ∈ cfg.wiring, plan.callOf wr frames v = .ok call
  counted : ∀ i call, (∀ v ∈ cfg.wiring, plan.callOf wr frames v = .ok call → v.id = i) →
    w.chain.calls.count call ≤ stops + if i ∈ w.file.recorded then 1 else 0

/-- However often the deployment is run, and wherever the runs are cut off: a registry that can be
read names for each contract the code that is on the chain, or was until somebody upgraded the
contract, says that it is initialised only if it is, with the arguments it records unless somebody
else initialised it, and counts as wired only what went through. The calls on the chain are those of
the plan, and one of a single wiring step went through at most once more than runs were stopped. -/
theorem deployment_recorded {cfg : Config py} {plan : Resolver py} (hcfg : cfg.selected = none)
    (hdistinct : ∀ k ∈ cfg.contracts, ∀ k' ∈ cfg.contracts,
      plan.ids.get? k.name = plan.ids.get? k'.name → k = k')
    {ks : List ((Args ⊕ Other) × Option (ℕ × Bool))}
    (hks : ∀ k ∈ ks, ∀ args, k.1 = .inl args → Follows sha256 wr cfg plan args) {chain : Chain}
    (hinits : ∀ id options, chain.inits id ≠ some (options, true)) (hcalls : chain.calls = [])
    {w : World py} {stops : ℕ}
    (hw : session (act sha256 wr frames cfg) ⟨chain, .absent⟩ ks = (w, stops)) :
    Recorded sha256 wr frames cfg plan w stops := by
  have habsent : Sound sha256 wr frames cfg plan 0 ⟨chain, .absent⟩ := sound_absent hinits hcalls
  have hsound := session_sound hcfg hks habsent
  rw [hw, Nat.zero_add] at hsound
  refine ⟨fun reg hreg name e he => ?_, fun reg hreg name e he => ?_, fun reg hreg => ?_,
    hsound.chain.calls, hsound.counted⟩
  · obtain ⟨id, wasm, hid, hplan, hcode, hhash⟩ :=
      ((hsound.file reg hreg).entries name e he).deployed
    exact ⟨id, wasm, hplan, hid, hcode, hhash⟩
  · exact (hsound.file reg hreg).init hsound.chain hdistinct he
  · exact (hsound.file reg hreg).wired

/-! ### A sandbox -/

/-- A pool, of which the guardian is to be the admin. -/
def sandboxConfig : Config plainPython where
  networks := .ofList [("local", ⟨"http://localhost:8000/rpc", "Standalone Network ; February 2017",
    .ofList [("guardian", .str "$deployer")]⟩)]
  contracts := [⟨"pool", .dict [("admin", .str "$deployer")],
    .dict [("admin", .str "$guardian")]⟩]
  wiring := [⟨"pool_admin", "pool", "set_admin", .dict [("new_admin", .str "$guardian")]⟩]
  selected := none

def sandboxKey : String := "GAAACAQDAQCQMBYIBEFAWDANBYHRAEISCMKBKFQXDAMRUGY4DUPB7JZX"

def sandboxPool : String := "CABAWV2ANC6GD7P2SWEYYFK2TSDKRAMZ7UFWYZG5DBTIC6QDC4KDZLI4"

/-- SHA-256 of the names, of the preimage of the id and of the code, as a table. -/
def sandboxSha256 (m : Bytes) : Digest32 :=
  if m = encode "refract:pool" then
    #v[76, 235, 186, 215, 66, 52, 183, 183, 161, 177, 88, 163, 9, 66, 108, 237, 28, 225, 170, 11,
      32, 230, 202, 82, 170, 235, 109, 171, 31, 56, 150, 5]
  else if m = encode "Standalone Network ; February 2017" then
    #v[186, 239, 215, 52, 184, 211, 228, 132, 114, 207, 248, 57, 18, 55, 95, 237, 188, 117, 115,
      112, 25, 18, 254, 48, 138, 247, 48, 24, 15, 151, 215, 74]
  else if m = [0, 97, 115, 109] then
    #v[205, 93, 73, 53, 164, 140, 6, 114, 203, 6, 64, 123, 180, 67, 188, 0, 135, 175, 249, 71, 198,
      184, 100, 186, 200, 134, 152, 44, 115, 179, 2, 127]
  else
    #v[2, 11, 87, 64, 104, 188, 97, 253, 250, 149, 137, 140, 21, 90, 156, 134, 168, 129, 153, 253,
      11, 108, 100, 221, 24, 102, 129, 122, 3, 23, 20, 60]

def sandboxWriter : Writer plainPython := ⟨fun _ => "{}", fun _ => "{}", fun _ => "''"⟩

/-- A network with one account, whose pool makes its admin the guardian as often as it is asked, or
only `once`. -/
def sandboxCli (once : Bool) : Stellar where
  address := .ok (sandboxKey ++ "\n")
  nativeSac := .ok "native"
  deployAsset := fun _ => .ok ""
  fetchesAsset := fun c => c.asset
  fetch := fun c id => c.code id
  deploy := fun c _ _ =>
    if c.code sandboxPool = none then .ok sandboxPool else .error "ExistingValue"
  initialise := fun c id _ =>
    if c.code id = none then .error "Contract not found"
    else if c.inits id = none then .ok ""
    else .error "Error(Contract, #1)"
  invoke := fun c call =>
    if c.inits call.contract = none ∨ (once = true ∧ call ∈ c.calls) then
      .error "Error(Contract, #2)"
    else .ok ""
  view := fun _ _ _ => .ok sandboxKey

def sandboxArgs (once : Bool) : Args where
  cli := sandboxCli once
  network := "local"
  only := none
  wasmDir := "dist/wasm"
  manifest := some [("pool.wasm", hexdigest (sandboxSha256 [0, 97, 115, 109]))]
  wasm := fun file => if file = "pool.wasm" then some [0, 97, 115, 109] else none

def sandboxPlan : Resolver plainPython where
  params := .ofList [("guardian", .str "$deployer"), ("native_sac", .str "native")]
  deployer := sandboxKey
  ids := .ofList [("pool", sandboxPool)]

theorem sandboxCli_lawful (once : Bool) : (sandboxCli once).Lawful := by
  refine ⟨fun c id wasm h => h, fun c salt wasm id h => ?_, fun c id args stderr h hsaid => ?_⟩
  · simp only [sandboxCli] at h
    split at h
    · cases h
      assumption
    · cases h
  · simp only [sandboxCli] at h
    split at h
    · cases h
      exact absurd hsaid (by decide +kernel)
    split at h
    · cases h
    · exact Option.isSome_iff_ne_none.mpr (by assumption)

theorem sandbox_plan (once : Bool) :
    (sandboxArgs once).plan sandboxSha256 sandboxWriter sandboxConfig = .ok sandboxPlan := by
  have hid : contractIdFor sandboxSha256 sandboxKey (saltFor sandboxSha256 "pool")
      "Standalone Network ; February 2017" = some sandboxPool := by decide +kernel
  have hkey : stripped (sandboxKey ++ "\n") = sandboxKey := by decide +kernel
  have hsac : stripped "native" = "native" := by decide +kernel
  have hnet : networkCfg sandboxWriter sandboxConfig (sandboxArgs once).network =
      .ok ⟨"http://localhost:8000/rpc", "Standalone Network ; February 2017",
        .ofList [("guardian", .str "$deployer")]⟩ := rfl
  have hplan : buildPlan sandboxSha256 sandboxConfig ⟨"http://localhost:8000/rpc",
      "Standalone Network ; February 2017", .ofList [("guardian", .str "$deployer")]⟩ sandboxKey
        "native" = .ok sandboxPlan := by
    simp only [buildPlan, sandboxConfig, List.mapM_cons, List.mapM_nil, hid]
    rfl
  refine Args.plan_eq rfl rfl hnet ?_ ?_ hplan
  · exact (map_eq_ok _ _ _).mpr ⟨_, rfl, hkey⟩
  · exact (map_eq_ok _ _ _).mpr ⟨_, rfl, hsac⟩

/-- Two runs, the first cut off after the pool was made to obey the guardian and before that was
recorded; then somebody upgrades the pool. -/
def sandboxRuns : List ((Args ⊕ Other) × Option (ℕ × Bool)) :=
  [(.inl (sandboxArgs false), some (5, false)), (.inl (sandboxArgs false), none),
    (.inr (.upgrade sandboxPool [0, 97, 115, 109, 1]), none)]

def sandboxChain : Chain := ⟨true, fun _ => none, fun _ => [], fun _ => none, [], []⟩

def sandboxEnd : World plainPython × ℕ :=
  session (act sandboxSha256 sandboxWriter 10 sandboxConfig) ⟨sandboxChain, .absent⟩ sandboxRuns

theorem sandboxArgs_follows (once : Bool) :
    Follows sandboxSha256 sandboxWriter sandboxConfig sandboxPlan (sandboxArgs once) := by
  refine ⟨sandboxCli_lawful once, fun p hp => ?_⟩
  exact Except.ok.inj (hp.symm.trans (sandbox_plan once))

theorem sandbox_follows : ∀ k ∈ sandboxRuns, ∀ args, k.1 = .inl args →
    Follows sandboxSha256 sandboxWriter sandboxConfig sandboxPlan args := by
  intro k hk args hargs
  fin_cases hk
  · cases hargs
    exact sandboxArgs_follows false
  · cases hargs
    exact sandboxArgs_follows false
  · cases hargs

theorem sandbox_recorded : Recorded sandboxSha256 sandboxWriter 10 sandboxConfig sandboxPlan
    sandboxEnd.1 sandboxEnd.2 := by
  have hdistinct : ∀ k ∈ sandboxConfig.contracts, ∀ k' ∈ sandboxConfig.contracts,
      sandboxPlan.ids.get? k.name = sandboxPlan.ids.get? k'.name → k = k' := by
    intro k hk k' hk' _
    rw [List.mem_singleton.mp hk, List.mem_singleton.mp hk']
  have hinits : ∀ id options, sandboxChain.inits id ≠ some (options, true) := fun _ _ => nofun
  exact deployment_recorded sandboxSha256 sandboxWriter 10 rfl hdistinct sandbox_follows hinits rfl
    (Prod.mk.eta (p := sandboxEnd)).symm

end RefractContracts.Deployment
