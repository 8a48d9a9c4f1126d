import RefractContracts.Deployment.Runs

/-! Deployments that get through. However often the runs were stopped, one that is not deploys,
initialises and wires what is missing and verifies the whole plan, if the file can be read, what is
deployed is of this build, the CLI answers, and a call that went through without a record is
accepted again. Nobody else acts while this run goes on. -/

namespace RefractContracts.Deployment

open Host Scripts Script Method

variable {py : Python} (sha256 : Bytes → Digest32) (wr : Writer py) (frames : ℕ)

/-- What a run makes of the chain if nobody interferes. -/
structure Chain.LeadsTo (c c' : Chain) : Prop where
  code : ∀ id wasm, c.code id = some wasm → c'.code id = some wasm
  inits : ∀ id x, c.inits id = some x → c'.inits id = some x
  calls : c.calls <+: c'.calls
  replaced : c'.replaced = c.replaced
  others : c'.others = c.others

section Ready
variable (cfg : Config py) (plan : Resolver py)

def Deployed (c : Chain) : Prop :=
  ∀ k ∈ cfg.contracts, ∀ id, plan.ids.get? k.name = some id → (c.code id).isSome

/-- All contracts of the plan are deployed and initialised. -/
structure Settled (c : Chain) : Prop where
  code : Deployed cfg plan c
  inits : ∀ k ∈ cfg.contracts, ∀ id, plan.ids.get? k.name = some id → (c.inits id).isSome

/-- All of the plan is on the chain. -/
structure Complete (c : Chain) : Prop extends Settled cfg plan c where
  calls : ∀ v ∈ cfg.wiring, ∃ call ∈ c.calls, plan.callOf wr frames v = .ok call

/-- What is deployed is of this build. -/
def Matches (manifest : Dict String String) (c : Chain) : Prop :=
  ∀ k ∈ cfg.contracts, ∀ id wasm, plan.ids.get? k.name = some id → c.code id = some wasm →
    manifest.get? (k.name ++ ".wasm") = some (hexdigest (sha256 wasm))

/-- For a run that starts on the chain `c₀` with the wiring steps `recorded`: the build is whole,
the references of the plan resolve, the CLI answers, and each contract does what the plan asks of it
when its turn comes. A contract that is deployed accepts its initialisation or says that it had it;
where all are initialised, a wiring call without a record is accepted when this run makes it, also
if an earlier run has made it already; and when everything is done the views answer as the plan
expects. -/
structure Ready (args : Args) (manifest : Dict String String) (c₀ : Chain)
    (recorded : List String) : Prop where
  only : args.only = none
  collected : ∃ files, args.manifest = some files ∧ Dict.ofList files = manifest
  resolves : args.plan sha256 wr cfg = .ok plan
  asset : args.cli.fetchesAsset c₀ = true ∨ ∃ out, args.cli.deployAsset c₀ = .ok out
  built : ∀ k ∈ cfg.contracts, ∃ wasm, args.wasm (k.name ++ ".wasm") = some wasm ∧
    manifest.get? (k.name ++ ".wasm") = some (hexdigest (sha256 wasm)) ∧
    ∀ c id, c₀.LeadsTo c → plan.ids.get? k.name = some id → c.code id = none →
      args.cli.deploy c (saltFor sha256 k.name) wasm = .ok id
  fetches : ∀ c, c₀.LeadsTo c → args.cli.fetch c = c.code
  initialises : ∀ k ∈ cfg.contracts, ∃ value options, plan.resolve frames k.init = .ok value ∧
    cliArgs wr value = .ok options ∧ ∀ c id, c₀.LeadsTo c → Deployed cfg plan c →
      plan.ids.get? k.name = some id →
      (c.inits id = none ∧ ∃ out, args.cli.initialise c id options = .ok out) ∨
      ∃ stderr, args.cli.initialise c id options = .error stderr ∧
        alreadyInitialized stderr = true
  accepts : ∀ v ∈ cfg.wiring, v.id ∉ recorded → ∃ call, plan.callOf wr frames v = .ok call ∧
    ∀ c, c₀.LeadsTo c → Settled cfg plan c → (call ∈ c.calls → call ∈ c₀.calls) →
      ∃ out, args.cli.invoke c call = .ok out
  answers : ∀ k ∈ cfg.contracts, ∃ views, viewsOf k.checks = .ok views ∧
    ∀ view ∈ views, ∃ value, plan.resolve frames view.2 = .ok value ∧
      ∀ c id, c₀.LeadsTo c → Complete wr frames cfg plan c → plan.ids.get? k.name = some id →
        ∃ out, args.cli.view c id view.1 = .ok out ∧
          norm wr (Json.str out : Json py) = norm wr value

/-- Where such a run has come to: more wiring may be recorded, and there is a record of each call it
made. -/
structure Underway (manifest : Dict String String) (c₀ : Chain) (recorded : List String)
    (reg : Registry py) (c : Chain) : Prop where
  leads : c₀.LeadsTo c
  ofBuild : Matches sha256 cfg plan manifest c
  recorded : recorded ⊆ reg.wiringDone
  made : ∀ call ∈ c.calls, call ∈ c₀.calls ∨
    ∃ u ∈ cfg.wiring, u.id ∈ reg.wiringDone ∧ plan.callOf wr frames u = .ok call

/-- The contracts of `l` have code, and an entry that names that of this build. -/
def Entered (manifest : Dict String String) (l : List (ContractConfig py)) (c : Chain)
    (reg : Registry py) : Prop :=
  ∀ k ∈ l, (∃ e, reg.contracts.get? k.name = some e ∧
      e.wasmSha256 = manifest.get? (k.name ++ ".wasm")) ∧
    ∀ id, plan.ids.get? k.name = some id → (c.code id).isSome

/-- The contracts of `l` count as initialised. -/
def Initialized (l : List (ContractConfig py)) (reg : Registry py) : Prop :=
  ∀ k ∈ l, ∃ e, reg.contracts.get? k.name = some e ∧ e.initialized = true

end Ready

section Finishing
variable {sha256 wr frames} {cfg : Config py} {plan : Resolver py} {n : ℕ} {reg : Registry py}
  {name cid expected : String} {args : Args} {manifest : Dict String String} {w : World py}
  {l : List (ContractConfig py)} {e : Entry py} {c₀ c c' : Chain} {recorded : List String}

/-! ### Where a run has come to -/

theorem Chain.LeadsTo.refl (c : Chain) : c.LeadsTo c :=
  ⟨fun _ _ h => h, fun _ _ h => h, List.prefix_rfl, rfl, rfl⟩

theorem Chain.LeadsTo.trans {c'' : Chain} (h : c.LeadsTo c') (h' : c'.LeadsTo c'') :
    c.LeadsTo c'' :=
  ⟨fun id wasm hcode => h'.code id wasm (h.code id wasm hcode),
    fun id x hinit => h'.inits id x (h.inits id x hinit), h.calls.trans h'.calls,
    h'.replaced.trans h.replaced, h'.others.trans h.others⟩

theorem leadsTo_deployed {wasm : Bytes} (h : c.code cid = none) :
    c.LeadsTo (c.deployed cid wasm) := by
  refine ⟨fun id wasm' hcode => ?_, fun _ _ hinit => hinit, List.prefix_rfl, rfl, rfl⟩
  have hne : id ≠ cid := by
    rintro rfl
    rw [h] at hcode
    cases hcode
  exact (Function.update_of_ne hne ..).trans hcode

theorem leadsTo_initialized {options : List (String × String)} {ours : Bool}
    (h : c.inits cid = none) : c.LeadsTo (c.initialized cid options ours) := by
  refine ⟨fun _ _ hcode => hcode, fun id x hinit => ?_, List.prefix_rfl, rfl, rfl⟩
  have hne : id ≠ cid := by
    rintro rfl
    rw [h] at hinit
    cases hinit
  exact (Function.update_of_ne hne ..).trans hinit

theorem leadsTo_called (c : Chain) (call : Call) : c.LeadsTo (c.called call) :=
  ⟨fun _ _ h => h, fun _ _ h => h, List.prefix_append _ _, rfl, rfl⟩

theorem Underway.put (h : Underway sha256 wr frames cfg plan manifest c₀ recorded reg c) :
    Underway sha256 wr frames cfg plan manifest c₀ recorded (reg.put name e) c :=
  ⟨h.leads, h.ofBuild, h.recorded, h.made⟩

theorem Underway.deployed (h : Underway sha256 wr frames cfg plan manifest c₀ recorded reg c)
    (hdistinct : ∀ k ∈ cfg.contracts, ∀ k' ∈ cfg.contracts,
      plan.ids.get? k.name = plan.ids.get? k'.name → k = k') {k : ContractConfig py}
    (hk : k ∈ cfg.contracts) (hcid : plan.ids.get? k.name = some cid) (hnew : c.code cid = none)
    {wasm : Bytes} (hbuilt : manifest.get? (k.name ++ ".wasm") = some (hexdigest (sha256 wasm))) :
    Underway sha256 wr frames cfg plan manifest c₀ recorded reg (c.deployed cid wasm) := by
  refine ⟨h.leads.trans (leadsTo_deployed hnew), fun k' hk' id wasm' hid hcode => ?_, h.recorded,
    h.made⟩
  by_cases hsame : id = cid
  · subst hsame
    obtain rfl := hdistinct k hk k' hk' (hcid.trans hid.symm)
    simp only [Chain.deployed, Function.update_self, Option.some.injEq] at hcode
    rw [← hcode, hbuilt]
  · simp only [Chain.deployed, Function.update_of_ne hsame] at hcode
    exact h.ofBuild k' hk' id wasm' hid hcode

theorem Underway.initialized (h : Underway sha256 wr frames cfg plan manifest c₀ recorded reg c)
    {options : List (String × String)} (hnew : c.inits cid = none) :
    Underway sha256 wr frames cfg plan manifest c₀ recorded reg
      (c.initialized cid options true) :=
  ⟨h.leads.trans (leadsTo_initialized hnew), h.ofBuild, h.recorded, h.made⟩

/-- A call is made and recorded. -/
theorem Underway.called (h : Underway sha256 wr frames cfg plan manifest c₀ recorded reg c)
    {v : WiringConfig py} (hv : v ∈ cfg.wiring) {call : Call}
    (hcall : plan.callOf wr frames v = .ok call) :
    Underway sha256 wr frames cfg plan manifest c₀ recorded
      { reg with wiringDone := reg.wiringDone ++ [v.id] } (c.called call) := by
  refine ⟨h.leads.trans (leadsTo_called c call), h.ofBuild,
    List.subset_append_of_subset_left _ h.recorded, fun call' hcall' => ?_⟩
  rcases List.mem_append.mp hcall' with hcall' | hcall'
  · refine (h.made call' hcall').imp_right ?_
    rintro ⟨u, hu, hdone, hu'⟩
    exact ⟨u, hu, List.mem_append_left _ hdone, hu'⟩
  · rw [List.mem_singleton.mp hcall']
    exact .inr ⟨v, hv, List.mem_append_right _ (List.mem_singleton_self _), hcall⟩

/-- The ids of a plan are those of its contracts. -/
theorem buildPlan_ids {net : NetworkConfig py} {deployer nativeSac : String}
    (h : buildPlan sha256 cfg net deployer nativeSac = .ok plan) :
    (∀ k ∈ cfg.contracts, ∃ id, plan.ids.get? k.name = some id) ∧
      ∀ name id, plan.ids.get? name = some id → ∃ k ∈ cfg.contracts, k.name = name := by
  obtain ⟨pairs, hpairs, h⟩ := (bind_eq_ok _ _ _).mp h
  cases h
  have hmatched := mapM_matched hpairs
  constructor
  · intro k hk
    obtain ⟨p, hp, hid⟩ := hmatched.value k hk
    obtain ⟨id, -, hid⟩ := (bind_eq_ok _ _ _).mp hid
    cases hid
    exact Dict.exists_get?_ofList (List.mem_map.mpr ⟨_, hp, rfl⟩)
  · intro name id hname
    obtain ⟨k, hk, hid⟩ := hmatched.item _ (Dict.mem_of_get?_ofList hname)
    obtain ⟨id', -, hid⟩ := (bind_eq_ok _ _ _).mp hid
    cases hid
    exact ⟨k, hk, rfl⟩

theorem plan_ok (h : args.plan sha256 wr cfg = .ok plan) : ∃ net nativeSac,
    networkCfg wr cfg args.network = .ok net ∧
    stripped <$> checked "keys address" args.cli.address = .ok plan.deployer ∧
    stripped <$> checked "contract id" args.cli.nativeSac = .ok nativeSac ∧
    plan.params = net.params.insert "native_sac" (.str nativeSac) ∧
    buildPlan sha256 cfg net plan.deployer nativeSac = .ok plan := by
  obtain ⟨net, hnet, h⟩ := (bind_eq_ok _ _ _).mp h
  obtain ⟨deployer, hdeployer, h⟩ := (bind_eq_ok _ _ _).mp h
  obtain ⟨nativeSac, hsac, h⟩ := (bind_eq_ok _ _ _).mp h
  obtain rfl := buildPlan_deployer h
  refine ⟨net, nativeSac, hnet, hdeployer, hsac, ?_, h⟩
  obtain ⟨pairs, -, h⟩ := (bind_eq_ok _ _ _).mp h
  exact (congrArg Resolver.params (Except.ok.inj h)).symm

theorem Ready.id (hready : Ready sha256 wr frames cfg plan args manifest c₀ recorded)
    {k : ContractConfig py} (hk : k ∈ cfg.contracts) : ∃ id, plan.ids.get? k.name = some id := by
  obtain ⟨net, nativeSac, -, -, -, -, hplan⟩ := plan_ok hready.resolves
  exact (buildPlan_ids hplan).1 k hk

theorem finishes_submit {answer : Chain → Proc} {effect : Chain → String → Chain}
    {Q : Proc → World py → Prop}
    (hok : ∀ out, answer w.chain = .ok out →
      Q (.ok out) { w with chain := effect w.chain out })
    (herr : ∀ stderr, answer w.chain = .error stderr → Q (.error stderr) w) :
    Finishes w (submit answer effect) Q := by
  cases hf : answer w.chain with
  | ok out => exact finishes_write (by rw [hf]) (hok out hf)
  | error stderr => exact finishes_write (by rw [hf]) (herr stderr hf)

/-- A transaction that is accepted. -/
theorem finishes_accepted {answer : Chain → Proc} {effect : Chain → String → Chain} {out : String}
    {Q : Proc → World py → Prop} (hout : answer w.chain = .ok out)
    (h : Q (.ok out) { w with chain := effect w.chain out }) :
    Finishes w (submit answer effect) Q :=
  finishes_write (by rw [hout]) h

theorem finishes_save {Q : Registry py → World py → Prop}
    (h : Q reg { w with file := .saved reg }) :
    Finishes w (saveRegistry reg >>= fun _ => pure reg) Q := by
  have hsave : Finishes w (saveRegistry reg) fun _ t => t = { w with file := .saved reg } :=
    finishes_write rfl rfl
  exact hsave.bind fun _ t ht => finishes_pure (ht ▸ h)

/-- The script does not exit. -/
theorem finishes_guard {α : Type} {p : Prop} [Decidable p] {msg : String} {f : Unit → Action py α}
    {x : Action py α} {Q : α → World py → Prop} (hp : ¬ p) (h : Finishes w x Q) :
    Finishes w (if p then check (die msg) >>= f else x) Q := by
  rwa [if_neg hp]

theorem Entered.put (h : Entered plan manifest l c reg)
    (he : e.wasmSha256 = manifest.get? (name ++ ".wasm")) :
    Entered plan manifest l c (reg.put name e) := by
  intro k hk
  obtain ⟨⟨e', he', hhash⟩, hcode⟩ := h k hk
  refine ⟨?_, hcode⟩
  by_cases hname : k.name = name
  · exact ⟨e, by rw [Registry.put, Dict.get?_insert, if_pos hname], hname ▸ he⟩
  · exact ⟨e', by rw [Registry.put, Dict.get?_insert, if_neg hname, he'], hhash⟩

theorem Entered.leads (h : Entered plan manifest l c reg) (hc : c.LeadsTo c') :
    Entered plan manifest l c' reg := by
  intro k hk
  refine ⟨(h k hk).1, fun id hid => ?_⟩
  obtain ⟨wasm, hwasm⟩ := Option.isSome_iff_exists.mp ((h k hk).2 id hid)
  rw [hc.code id wasm hwasm]
  rfl

theorem Initialized.put (h : Initialized l reg) (he : e.initialized = true) :
    Initialized l (reg.put name e) := by
  intro k hk
  by_cases hname : k.name = name
  · exact ⟨e, by rw [Registry.put, Dict.get?_insert, if_pos hname], he⟩
  · obtain ⟨e', he', hinit⟩ := h k hk
    exact ⟨e', by rw [Registry.put, Dict.get?_insert, if_neg hname, he'], hinit⟩

/-- The code of a contract is on the chain in the end. -/
theorem finishes_ensureDeployed (hready : Ready sha256 wr frames cfg plan args manifest c₀ recorded)
    (hdistinct : ∀ k ∈ cfg.contracts, ∀ k' ∈ cfg.contracts,
      plan.ids.get? k.name = plan.ids.get? k'.name → k = k') {k : ContractConfig py}
    (hk : k ∈ cfg.contracts) (hcid : plan.ids.get? k.name = some cid)
    (hexpected : manifest.get? (k.name ++ ".wasm") = some expected)
    (hunder : Underway sha256 wr frames cfg plan manifest c₀ recorded reg w.chain) :
    Finishes w (ensureDeployed sha256 args k.name cid expected) fun onChain t =>
      onChain = expected ∧ (t.chain.code cid).isSome ∧ w.chain.LeadsTo t.chain ∧
        Underway sha256 wr frames cfg plan manifest c₀ recorded reg t.chain := by
  refine finishes_look_bind rfl ?_
  rw [hready.fetches w.chain hunder.leads]
  cases hcode : w.chain.code cid with
  | some wasm =>
    have hhash := hunder.ofBuild k hk cid wasm hcid hcode
    refine finishes_pure ⟨Option.some.inj (hhash.symm.trans hexpected), ?_, .refl _, hunder⟩
    rw [hcode]
    rfl
  | none =>
    obtain ⟨wasm, hwasm, hbuilt, hdeploy⟩ := hready.built k hk
    refine finishes_check_bind (orRaise_eq_ok.mpr hwasm) ?_
    have hactual : hexdigest (sha256 wasm) = expected :=
      Option.some.inj (hbuilt.symm.trans hexpected)
    refine finishes_guard (not_not.mpr hactual) ?_
    have hrun : Finishes w (args.cli.deployWasm (saltFor sha256 k.name) wasm) fun got t =>
        got = cid ∧ t = { w with chain := w.chain.deployed cid wasm } := by
      have hsubmit : Finishes w
          (submit (args.cli.deploy · (saltFor sha256 k.name) wasm)
            fun chain id => chain.deployed id wasm)
          fun proc t => proc = .ok cid ∧ t = { w with chain := w.chain.deployed cid wasm } :=
        finishes_accepted (hdeploy w.chain cid hunder.leads hcid hcode) ⟨rfl, rfl⟩
      refine hsubmit.bind fun proc t hproc => ?_
      rw [hproc.1]
      exact finishes_pure ⟨rfl, hproc.2⟩
    refine hrun.bind fun got t ht => finishes_guard (not_not.mpr ht.1) ?_
    obtain ⟨rfl, rfl⟩ := ht
    refine finishes_pure ⟨rfl, ?_, leadsTo_deployed hcode,
      hunder.deployed hdistinct hk hcid hcode hbuilt⟩
    simp [Chain.deployed]

/-- A contract is recorded with the code it has. -/
theorem finishes_deployOne (hready : Ready sha256 wr frames cfg plan args manifest c₀ recorded)
    (hdistinct : ∀ k ∈ cfg.contracts, ∀ k' ∈ cfg.contracts,
      plan.ids.get? k.name = plan.ids.get? k'.name → k = k') {k : ContractConfig py}
    (hk : k ∈ cfg.contracts) (hheld : Held sha256 wr frames cfg plan n reg w)
    (hunder : Underway sha256 wr frames cfg plan manifest c₀ recorded reg w.chain)
    (hentered : Entered plan manifest l w.chain reg) :
    Finishes w (deployOne sha256 args plan manifest reg k) fun reg' t => t.file = .saved reg' ∧
      Underway sha256 wr frames cfg plan manifest c₀ recorded reg' t.chain ∧
      Entered plan manifest (l ++ [k]) t.chain reg' := by
  obtain ⟨wasm, -, hbuilt, -⟩ := hready.built k hk
  obtain ⟨cid, hcid⟩ := hready.id hk
  refine finishes_check_bind (orRaise_eq_ok.mpr hcid) ?_
  rw [hbuilt]
  have hentry : (reg.entry k.name).contractId = none ∨
      (reg.entry k.name).contractId = some cid := by
    rw [Registry.entry]
    cases he : reg.contracts.get? k.name with
    | none => exact .inl rfl
    | some e =>
      obtain ⟨id, -, hid, hplan, -⟩ := (hheld.truthful.entries k.name e he).deployed
      exact .inr (hid.trans (hplan.symm.trans hcid))
  refine finishes_guard (not_not.mpr hentry) ?_
  refine (finishes_ensureDeployed hready hdistinct hk hcid hbuilt hunder).bind
    fun onChain t ht => ?_
  obtain ⟨hsame, hcode, hleads, hunder'⟩ := ht
  refine finishes_guard (not_not.mpr hsame) (finishes_save ⟨rfl, hunder'.put, ?_⟩)
  rintro k' hk'
  rcases List.mem_append.mp hk' with hk' | hk'
  · exact (hentered.leads hleads).put hbuilt.symm k' hk'
  · rw [List.mem_singleton.mp hk']
    refine ⟨⟨_, by rw [Registry.put, Dict.get?_insert, if_pos rfl], hbuilt.symm⟩, fun id hid => ?_⟩
    obtain rfl := Option.some.inj (hcid.symm.trans hid)
    exact hcode

/-- A contract that is recorded is initialised, if only by an earlier run or by somebody else. -/
theorem finishes_initializeOne (hready : Ready sha256 wr frames cfg plan args manifest c₀ recorded)
    {k : ContractConfig py} (hk : k ∈ cfg.contracts) (hfile : w.file = .saved reg)
    (hunder : Underway sha256 wr frames cfg plan manifest c₀ recorded reg w.chain)
    (hentered : Entered plan manifest cfg.contracts w.chain reg) (hinit : Initialized l reg) :
    Finishes w (initializeOne wr frames args plan reg k) fun reg' t => t.file = .saved reg' ∧
      Underway sha256 wr frames cfg plan manifest c₀ recorded reg' t.chain ∧
      Entered plan manifest cfg.contracts t.chain reg' ∧ Initialized (l ++ [k]) reg' := by
  obtain ⟨value, options, hvalue, hoptions, hanswer⟩ := hready.initialises k hk
  obtain ⟨⟨entry, hentry, hhash⟩, -⟩ := hentered k hk
  refine finishes_check_bind (orRaise_eq_ok.mpr hentry) ?_
  refine finishes_check_bind hvalue ?_
  split
  · next hdone =>
    refine finishes_pure ⟨hfile, hunder, hentered, fun k' hk' => ?_⟩
    rcases List.mem_append.mp hk' with hk' | hk'
    · exact hinit k' hk'
    · rw [List.mem_singleton.mp hk']
      exact ⟨entry, hentry, hdone⟩
  obtain ⟨cid, hcid⟩ := hready.id hk
  refine finishes_check_bind (orRaise_eq_ok.mpr hcid) ?_
  refine finishes_check_bind hoptions ?_
  have hdeployed : Deployed cfg plan w.chain := fun k' hk' => (hentered k' hk').2
  have hrecord : ∀ t : World py, w.chain.LeadsTo t.chain →
      Underway sha256 wr frames cfg plan manifest c₀ recorded reg t.chain → Finishes t
        (saveRegistry
            (reg.put k.name { entry with initialized := true, initArgs := some value }) >>=
          fun _ => pure (reg.put k.name { entry with initialized := true, initArgs := some value }))
        fun reg' t => t.file = .saved reg' ∧
          Underway sha256 wr frames cfg plan manifest c₀ recorded reg' t.chain ∧
          Entered plan manifest cfg.contracts t.chain reg' ∧ Initialized (l ++ [k]) reg' := by
    intro t hleads hunder'
    refine finishes_save ⟨rfl, hunder'.put, (hentered.leads hleads).put hhash, fun k' hk' => ?_⟩
    rcases List.mem_append.mp hk' with hk' | hk'
    · exact hinit.put rfl k' hk'
    · rw [List.mem_singleton.mp hk']
      exact ⟨_, by rw [Registry.put, Dict.get?_insert, if_pos rfl], rfl⟩
  have hrun : Finishes w (args.cli.initializeContract cid options : Action py Proc)
      fun proc t => (∀ stderr, proc = .error stderr → alreadyInitialized stderr = true) ∧
        w.chain.LeadsTo t.chain ∧
        Underway sha256 wr frames cfg plan manifest c₀ recorded reg t.chain := by
    apply finishes_submit
    · intro out hout
      rcases hanswer w.chain cid hunder.leads hdeployed hcid with ⟨hnew, -⟩ | ⟨stderr, hrefused, -⟩
      · refine ⟨?_, leadsTo_initialized hnew, hunder.initialized hnew⟩
        rintro _ ⟨⟩
      · cases hrefused.symm.trans hout
    · intro stderr h
      refine ⟨?_, .refl _, hunder⟩
      rintro stderr' ⟨⟩
      rcases hanswer w.chain cid hunder.leads hdeployed hcid with
        ⟨-, out, hout⟩ | ⟨stderr'', hrefused, halready⟩
      · cases hout.symm.trans h
      · obtain rfl := Except.error.inj (hrefused.symm.trans h)
        exact halready
  refine hrun.bind fun proc t ht => ?_
  obtain ⟨hproc, hleads, hunder'⟩ := ht
  cases proc with
  | ok out => exact hrecord t hleads hunder'
  | error stderr =>
    exact finishes_guard (not_not.mpr (hproc stderr rfl)) (hrecord t hleads hunder')

/-- The chain has what a truthful registry counts as initialised. -/
theorem Held.settled (hheld : Held sha256 wr frames cfg plan n reg w)
    (hentered : Entered plan manifest cfg.contracts w.chain reg)
    (hinit : Initialized cfg.contracts reg) : Settled cfg plan w.chain := by
  refine ⟨fun k hk => (hentered k hk).2, fun k hk id hid => ?_⟩
  obtain ⟨e, he, hdone⟩ := hinit k hk
  obtain ⟨id', -, hid', hsome, -⟩ := (hheld.truthful.entries k.name e he).initialized hdone
  obtain rfl := Option.some.inj (hid.symm.trans hid')
  exact hsome

/-- A call that is not recorded is made, if only once more. -/
theorem finishes_wireOne (hready : Ready sha256 wr frames cfg plan args manifest c₀ recorded)
    (hown : ∀ u ∈ cfg.wiring, ∀ v ∈ cfg.wiring, ∀ call, plan.callOf wr frames u = .ok call →
      plan.callOf wr frames v = .ok call → u = v)
    {v : WiringConfig py} (hv : v ∈ cfg.wiring) (hheld : Held sha256 wr frames cfg plan n reg w)
    (hfile : w.file = .saved reg)
    (hunder : Underway sha256 wr frames cfg plan manifest c₀ recorded reg w.chain)
    (hentered : Entered plan manifest cfg.contracts w.chain reg)
    (hinit : Initialized cfg.contracts reg) {done : List (WiringConfig py)}
    (hdone : ∀ u ∈ done, u.id ∈ reg.wiringDone) :
    Finishes w (wireOne wr frames args plan reg v) fun reg' t => t.file = .saved reg' ∧
      Underway sha256 wr frames cfg plan manifest c₀ recorded reg' t.chain ∧
      Entered plan manifest cfg.contracts t.chain reg' ∧ Initialized cfg.contracts reg' ∧
      ∀ u ∈ done ++ [v], u.id ∈ reg'.wiringDone := by
  rw [wireOne]
  split
  · next hmem =>
    refine finishes_pure ⟨hfile, hunder, hentered, hinit, fun u hu => ?_⟩
    rcases List.mem_append.mp hu with hu | hu
    · exact hdone u hu
    · rw [List.mem_singleton.mp hu]
      exact hmem
  next hnew =>
  obtain ⟨call, hcall, haccepts⟩ := hready.accepts v hv fun h => hnew (hunder.recorded h)
  refine finishes_check_bind hcall ?_
  have hfirst : call ∈ w.chain.calls → call ∈ c₀.calls := by
    intro hmem
    refine (hunder.made call hmem).resolve_right ?_
    rintro ⟨u, hu, hrecorded, hu'⟩
    exact hnew (hown u hu v hv call hu' hcall ▸ hrecorded)
  have hrun : Finishes w (discard (args.cli.invokeCall call) : Action py Unit)
      fun _ t => t = { w with chain := w.chain.called call } := by
    obtain ⟨out, hout⟩ := haccepts w.chain hunder.leads (hheld.settled hentered hinit) hfirst
    have hsubmit : Finishes w
        (submit (args.cli.invoke · call) fun chain _ => chain.called call : Action py Proc)
        fun proc t => proc = .ok out ∧ t = { w with chain := w.chain.called call } :=
      finishes_accepted hout ⟨rfl, rfl⟩
    have hinvoke : Finishes w (args.cli.invokeCall call : Action py String)
        fun _ t => t = { w with chain := w.chain.called call } := by
      refine hsubmit.bind fun proc t ht => ?_
      rw [ht.1]
      exact finishes_pure ht.2
    exact hinvoke.bind fun _ _ ht => finishes_pure ht
  refine hrun.bind fun _ t ht => ?_
  subst ht
  refine finishes_save ⟨rfl, hunder.called hv hcall, hentered.leads (leadsTo_called _ _), hinit,
    fun u hu => ?_⟩
  rcases List.mem_append.mp hu with hu | hu
  · exact List.mem_append_left _ (hdone u hu)
  · rw [List.mem_singleton.mp hu]
    exact List.mem_append_right _ (List.mem_singleton_self _)

/-- The three phases leave a registry that has all of the plan, and the file has it. -/
theorem finishes_carryOut (hready : Ready sha256 wr frames cfg plan args manifest c₀ recorded)
    (hlawful : args.cli.Lawful) (hcfg : cfg.selected = none) (hne : cfg.contracts ≠ [])
    (hdistinct : ∀ k ∈ cfg.contracts, ∀ k' ∈ cfg.contracts,
      plan.ids.get? k.name = plan.ids.get? k'.name → k = k')
    (hown : ∀ u ∈ cfg.wiring, ∀ v ∈ cfg.wiring, ∀ call, plan.callOf wr frames u = .ok call →
      plan.callOf wr frames v = .ok call → u = v)
    (hheld : Held sha256 wr frames cfg plan n reg w)
    (hunder : Underway sha256 wr frames cfg plan manifest c₀ recorded reg w.chain) :
    Finishes w (carryOut sha256 wr frames args plan manifest cfg reg) fun reg' t =>
      Held sha256 wr frames cfg plan n reg' t ∧ t.file = .saved reg' ∧
        Underway sha256 wr frames cfg plan manifest c₀ recorded reg' t.chain ∧
        Entered plan manifest cfg.contracts t.chain reg' ∧ Initialized cfg.contracts reg' ∧
        ∀ v ∈ cfg.wiring, v.id ∈ reg'.wiringDone := by
  have hchosen : cfg.chosen = cfg.contracts := by rw [Config.chosen, hcfg]; rfl
  have hdeploy : Finishes w (cfg.chosen.foldlM (deployOne sha256 args plan manifest) reg)
      fun reg' t => Held sha256 wr frames cfg plan n reg' t ∧ t.file = .saved reg' ∧
        Underway sha256 wr frames cfg plan manifest c₀ recorded reg' t.chain ∧
        Entered plan manifest cfg.contracts t.chain reg' := by
    rw [hchosen]
    refine (finishes_foldlM (I := fun front reg' t => Held sha256 wr frames cfg plan n reg' t ∧
      (front ≠ [] → t.file = .saved reg') ∧
      Underway sha256 wr frames cfg plan manifest c₀ recorded reg' t.chain ∧
      Entered plan manifest front t.chain reg') ?_
        ⟨hheld, fun h => absurd rfl h, hunder, List.forall_mem_nil _⟩).mono
      fun reg' t h => ⟨h.1, h.2.1 hne, h.2.2⟩
    rintro front k back reg' t hsplit ⟨hheld, -, hunder, hentered⟩
    have hk : k ∈ cfg.contracts := hsplit ▸ List.mem_append_right _ List.mem_cons_self
    exact ((finishes_deployOne hready hdistinct hk hheld hunder hentered).and
      (triple_deployOne hlawful manifest k) hheld).mono
      fun reg'' t' h => ⟨h.1, fun _ => h.2.1, h.2.2⟩
  refine hdeploy.bind fun reg₁ w₁ h₁ => ?_
  have hinitialize : Finishes w₁ (cfg.chosen.foldlM (initializeOne wr frames args plan) reg₁)
      fun reg' t => Held sha256 wr frames cfg plan n reg' t ∧ t.file = .saved reg' ∧
        Underway sha256 wr frames cfg plan manifest c₀ recorded reg' t.chain ∧
        Entered plan manifest cfg.contracts t.chain reg' ∧ Initialized cfg.contracts reg' := by
    rw [hchosen]
    refine finishes_foldlM (I := fun front reg' t => Held sha256 wr frames cfg plan n reg' t ∧
      t.file = .saved reg' ∧ Underway sha256 wr frames cfg plan manifest c₀ recorded reg' t.chain ∧
      Entered plan manifest cfg.contracts t.chain reg' ∧ Initialized front reg') ?_
      ⟨h₁.1, h₁.2.1, h₁.2.2.1, h₁.2.2.2, List.forall_mem_nil _⟩
    rintro front k back reg' t hsplit ⟨hheld, hfile, hunder, hentered, hinit⟩
    have hk : k ∈ cfg.contracts := hsplit ▸ List.mem_append_right _ List.mem_cons_self
    exact (finishes_initializeOne hready hk hfile hunder hentered hinit).and
      (triple_initializeOne hlawful hk) hheld
  refine hinitialize.bind fun reg₂ w₂ h₂ => ?_
  obtain ⟨hheld₂, hfile₂, hunder₂, hentered₂, hinit₂⟩ := h₂
  refine finishes_foldlM (I := fun front reg' t => Held sha256 wr frames cfg plan n reg' t ∧
    t.file = .saved reg' ∧ Underway sha256 wr frames cfg plan manifest c₀ recorded reg' t.chain ∧
    Entered plan manifest cfg.contracts t.chain reg' ∧ Initialized cfg.contracts reg' ∧
      ∀ v : WiringConfig py, v ∈ front → v.id ∈ reg'.wiringDone) ?_
    ⟨hheld₂, hfile₂, hunder₂, hentered₂, hinit₂, List.forall_mem_nil _⟩
  rintro front v back reg' t hsplit ⟨hheld, hfile, hunder, hentered, hinit, hdone⟩
  have hv : v ∈ cfg.wiring := hsplit ▸ List.mem_append_right _ List.mem_cons_self
  exact (finishes_wireOne hready hown hv hheld hfile hunder hentered hinit hdone).and
    (triple_wireOne hv) hheld

/-! ### Verifying -/

/-- Resolvers that know the same ids resolve alike. -/
theorem resolve_congr {r r' : Resolver py} (hparams : r.params = r'.params)
    (hdeployer : r.deployer = r'.deployer) (hids : ∀ name, r.ids.get? name = r'.ids.get? name)
    (frames : ℕ) : r.resolve frames = r'.resolve frames := by
  induction frames with
  | zero => rfl
  | succ frames ih =>
    funext v
    match v with
    | .list items => simp only [Resolver.resolve, ih]
    | .dict pairs => simp only [Resolver.resolve, ih]
    | .value (.str s) => simp only [Resolver.resolve, ih, hparams, hdeployer, hids]
    | .value .none | .value (.bool _) | .value (.int _) | .value (.other _) => rfl

theorem exists_mapM_ok {α β : Type} {f : α → Exits β} {l : List α}
    (h : ∀ a ∈ l, ∃ b, f a = .ok b) : ∃ bs, l.mapM f = .ok bs := by
  induction l with
  | nil => exact ⟨[], rfl⟩
  | cons a l ih =>
    rw [List.forall_mem_cons] at h
    obtain ⟨b, hb⟩ := h.1
    obtain ⟨bs, hbs⟩ := ih h.2
    exact ⟨b :: bs, by rw [List.mapM_cons, hb, hbs]; rfl⟩

theorem mapM_keys {α β : Type} {f : α → Exits β} {l : List (String × α)} {as : List (String × β)}
    (h : l.mapM (fun e => (e.1, ·) <$> f e.2) = .ok as) : as.map Prod.fst = l.map Prod.fst := by
  induction l generalizing as with
  | nil =>
    cases h
    rfl
  | cons e l ih =>
    rw [List.mapM_cons] at h
    obtain ⟨a, ha, h⟩ := (bind_eq_ok _ _ _).mp h
    obtain ⟨bs, hbs, h⟩ := (bind_eq_ok _ _ _).mp h
    cases h
    cases hf : f e.2 with
    | error fault =>
      rw [hf] at ha
      cases ha
    | ok b =>
      rw [hf] at ha
      cases ha
      rw [List.map_cons, List.map_cons, ih hbs]

/-- The ids that a registry knows, if every entry has one. -/
theorem registry_ids {d : Dict String (Entry py)}
    (h : ∀ name e, d.get? name = some e → ∃ id, e.contractId = some id) : ∃ l,
    d.entries.mapM (fun e => (e.1, ·) <$> orRaise e.2.contractId) = (.ok l : Exits _) ∧
    ∀ name id, (Dict.ofList l).get? name = some id ↔
      ∃ e, d.get? name = some e ∧ e.contractId = some id := by
  obtain ⟨l, hl⟩ := exists_mapM_ok (l := d.entries)
    (f := fun e => (e.1, ·) <$> orRaise e.2.contractId) fun e he => by
      obtain ⟨id, hid⟩ := h e.1 e.2 (Dict.mem_entries.mp he)
      exact ⟨(e.1, id), by rw [hid]; rfl⟩
  have hkeys : l.map Prod.fst = d.entries.map Prod.fst :=
    mapM_keys (f := fun e : Entry py => orRaise e.contractId) hl
  have hentries : (Dict.ofList l).entries = l := Dict.entries_ofList (hkeys ▸ d.distinct)
  have hmatched := mapM_matched hl
  refine ⟨l, hl, fun name id => ?_⟩
  rw [← Dict.mem_entries, hentries]
  constructor
  · intro hmem
    obtain ⟨⟨name', e⟩, he, hid⟩ := hmatched.item _ hmem
    obtain ⟨id', hid', hpair⟩ := (map_eq_ok _ _ _).mp hid
    cases hpair
    exact ⟨e, Dict.mem_entries.mp he, orRaise_eq_ok.mp hid'⟩
  · rintro ⟨e, he, hid⟩
    obtain ⟨p, hp, hpair⟩ := hmatched.value _ (Dict.mem_entries.mpr he)
    rw [hid] at hpair
    cases hpair
    exact hp

/-- A contract that is initialised, has its code and answers as expected, is verified. -/
theorem finishes_verifyOne (hready : Ready sha256 wr frames cfg plan args manifest c₀ recorded)
    (hunder : Underway sha256 wr frames cfg plan manifest c₀ recorded reg w.chain)
    (hentered : Entered plan manifest cfg.contracts w.chain reg)
    (hcomplete : Complete wr frames cfg plan w.chain) {r : Resolver py}
    (hr : r.resolve frames = plan.resolve frames) {k : ContractConfig py} (hk : k ∈ cfg.contracts)
    (htruthful : reg.Truthful sha256 wr frames cfg plan w.chain)
    (hinit : Initialized cfg.contracts reg) :
    Finishes w (verifyOne sha256 wr frames args r reg [] k) fun failures t =>
      failures = [] ∧ t = w := by
  obtain ⟨e, he, hdone⟩ := hinit k hk
  obtain ⟨id, -, hid, hplan, -, -⟩ := (htruthful.entries k.name e he).deployed
  obtain ⟨⟨e', he', hhash⟩, hcode⟩ := hentered k hk
  obtain rfl := Option.some.inj (he.symm.trans he')
  obtain ⟨wasm, hwasm⟩ := Option.isSome_iff_exists.mp (hcode id hplan)
  obtain ⟨views, hviews, hanswers⟩ := hready.answers k hk
  rw [verifyOne]
  split
  case h_1 hnone => rw [he] at hnone; cases hnone
  case h_2 entry hentry =>
  obtain rfl := Option.some.inj (he.symm.trans hentry)
  refine finishes_check_bind (orRaise_eq_ok.mpr hid) (finishes_look_bind rfl ?_)
  have hfetched : (args.cli.fetch w.chain id).map (fun wasm => hexdigest (sha256 wasm)) =
      e.wasmSha256 := by
    rw [hready.fetches w.chain hunder.leads, hwasm, hhash, hunder.ofBuild k hk id wasm hplan hwasm]
    rfl
  rw [if_pos hdone, if_pos hfetched]
  refine finishes_check_bind hviews ?_
  refine (finishes_foldlM (I := fun _ failures t => failures = [] ∧ t = w) ?_ ⟨rfl, rfl⟩)
  rintro front view back failures t hsplit ⟨rfl, rfl⟩
  have hmem : view ∈ views := hsplit ▸ List.mem_append_right _ List.mem_cons_self
  obtain ⟨value, hvalue, hview⟩ := hanswers view hmem
  obtain ⟨out, hout, hnorm⟩ := hview t.chain id hunder.leads hcomplete hplan
  have hchecked : Finishes t (checkView wr frames args r k.name id view) fun failed u =>
      failed = [] ∧ u = t := by
    refine finishes_check_bind (hr ▸ hvalue) (finishes_look_bind rfl ?_)
    rw [hout]
    dsimp only
    rw [if_neg (not_not.mpr hnorm)]
    exact finishes_pure ⟨rfl, rfl⟩
  refine hchecked.bind fun failed u hu => finishes_pure ?_
  exact ⟨by rw [hu.1, List.nil_append], hu.2⟩

theorem Held.complete (hheld : Held sha256 wr frames cfg plan n reg w)
    (hentered : Entered plan manifest cfg.contracts w.chain reg)
    (hinit : Initialized cfg.contracts reg) (hdone : ∀ v ∈ cfg.wiring, v.id ∈ reg.wiringDone)
    (hids : ∀ v ∈ cfg.wiring, ∀ v' ∈ cfg.wiring, v.id = v'.id → v = v') :
    Complete wr frames cfg plan w.chain := by
  refine ⟨hheld.settled hentered hinit, fun v hv => ?_⟩
  obtain ⟨v', hv', hid, call, hmem, hcall⟩ := hheld.truthful.wired v.id (hdone v hv)
  obtain rfl := hids v hv v' hv' hid.symm
  exact ⟨call, hmem, hcall⟩

/-- The whole plan is verified. -/
theorem finishes_cmdVerify (hready : Ready sha256 wr frames cfg plan args manifest c₀ recorded)
    (hcfg : cfg.selected = none) (hne : cfg.contracts ≠ [])
    (hheld : Held sha256 wr frames cfg plan n reg w) (hfile : w.file = .saved reg)
    (hunder : Underway sha256 wr frames cfg plan manifest c₀ recorded reg w.chain)
    (hentered : Entered plan manifest cfg.contracts w.chain reg)
    (hinit : Initialized cfg.contracts reg) (hdone : ∀ v ∈ cfg.wiring, v.id ∈ reg.wiringDone)
    (hids : ∀ v ∈ cfg.wiring, ∀ v' ∈ cfg.wiring, v.id = v'.id → v = v') :
    Finishes w (cmdVerify sha256 wr frames args cfg) fun _ t => t = w := by
  obtain ⟨net, nativeSac, hnet, -, hsac, hparams, hplan⟩ := plan_ok hready.resolves
  have hcomplete := hheld.complete hentered hinit hdone hids
  have hload : orRaise w.file.registry? = .ok reg := by rw [hfile]; rfl
  obtain ⟨k, hk⟩ := List.exists_mem_of_ne_nil _ hne
  obtain ⟨e, he, -⟩ := hinit k hk
  have hentries : reg.contracts.entries ≠ [] := List.ne_nil_of_mem (Dict.mem_entries.mpr he)
  obtain ⟨l, hl, hknown⟩ := registry_ids (d := reg.contracts) fun name e he => by
    obtain ⟨id, -, hid, -⟩ := (hheld.truthful.entries name e he).deployed
    exact ⟨id, hid⟩
  refine finishes_check_bind hnet (finishes_look_bind hload (finishes_guard hentries ?_))
  refine finishes_check_bind (orRaise_eq_ok.mpr hheld.deployer) (finishes_check_bind hl ?_)
  refine finishes_check_bind hsac ?_
  have hresolve : Resolver.resolve ⟨net.params.insert "native_sac" (.str nativeSac), plan.deployer,
      .ofList l⟩ frames = plan.resolve frames := by
    apply resolve_congr
    · exact hparams.symm
    · rfl
    intro name
    refine Option.ext fun id => ?_
    rw [hknown]
    constructor
    · rintro ⟨e, he, hid⟩
      obtain ⟨id', -, hid', hplan', -⟩ := (hheld.truthful.entries name e he).deployed
      rw [hplan', ← hid', hid]
    · intro hname
      obtain ⟨k, hk, rfl⟩ := (buildPlan_ids hplan).2 name id hname
      obtain ⟨e, he, -⟩ := hinit k hk
      obtain ⟨id', -, hid', hplan', -⟩ := (hheld.truthful.entries k.name e he).deployed
      exact ⟨e, he, hid'.trans (hplan'.symm.trans hname)⟩
  have hchosen : cfg.chosen = cfg.contracts := by rw [Config.chosen, hcfg]; rfl
  have hverified : Finishes w (cfg.chosen.foldlM (verifyOne sha256 wr frames args
      ⟨net.params.insert "native_sac" (.str nativeSac), plan.deployer, .ofList l⟩ reg) [])
      fun failures t => failures = [] ∧ t = w := by
    rw [hchosen]
    refine finishes_foldlM (I := fun _ failures t => failures = [] ∧ t = w) ?_ ⟨rfl, rfl⟩
    rintro front k back failures t hsplit ⟨rfl, rfl⟩
    have hk : k ∈ cfg.contracts := hsplit ▸ List.mem_append_right _ List.mem_cons_self
    exact finishes_verifyOne hready hunder hentered hcomplete hresolve hk hheld.truthful hinit
  refine hverified.bind fun failures t ht => ?_
  obtain ⟨rfl, rfl⟩ := ht
  have hwired : cfg.wiring.filter (fun v => v.id ∉ reg.wiringDone) = [] := by
    rw [List.filter_eq_nil_iff]
    intro v hv
    simp [hdone v hv]
  rw [hwired]
  exact finishes_pure rfl

end Finishing

theorem finishes_ensureNativeSac {cli : Stellar} {nativeSac : String} {w : World py}
    (hsac : stripped <$> checked "contract id" cli.nativeSac = .ok nativeSac)
    (hasset : cli.fetchesAsset w.chain = true ∨ ∃ out, cli.deployAsset w.chain = .ok out) :
    Finishes w cli.ensureNativeSac fun sac t => sac = nativeSac ∧
      ∃ asset, t = { w with chain := { w.chain with asset } } := by
  refine finishes_check_bind hsac (finishes_look_bind rfl ?_)
  by_cases hfetches : cli.fetchesAsset w.chain = true
  · rw [if_pos hfetches]
    exact finishes_pure ⟨rfl, w.chain.asset, rfl⟩
  · rw [if_neg hfetches]
    obtain ⟨out, hout⟩ := hasset.resolve_left hfetches
    have hsubmit : Finishes w (submit cli.deployAsset fun chain _ => { chain with asset := true })
        fun proc t => proc = .ok out ∧ t = { w with chain := { w.chain with asset := true } } :=
      finishes_accepted hout ⟨rfl, rfl⟩
    refine hsubmit.bind fun proc t ht => ?_
    rw [ht.1]
    exact finishes_pure ⟨rfl, true, ht.2⟩

/-- A truthful registry is of the deployer, so it is not replaced. -/
theorem Registry.Truthful.adopts {cfg : Config py} {plan : Resolver py} {c : Chain}
    {reg : Registry py} (h : reg.Truthful sha256 wr frames cfg plan c) (args : Args) :
    ∃ reg', adopt args plan.deployer reg = .ok reg' := by
  cases hd : reg.deployer with
  | none => exact ⟨_, by rw [adopt, hd]⟩
  | some d => exact ⟨reg, by rw [adopt, hd]; exact if_pos (h.deployer d hd)⟩

/-- However often the runs were cut off: if the file can be read and what is deployed is of this
build, a run that is not cut off, with which nobody interferes and for which the contracts are
ready, completes the deployment and verifies it. Of a wiring call that went through without a record
this asks that it is accepted again. -/
theorem deployment_converges {cfg : Config py} {plan : Resolver py} (hcfg : cfg.selected = none)
    (hne : cfg.contracts ≠ [])
    (hdistinct : ∀ k ∈ cfg.contracts, ∀ k' ∈ cfg.contracts,
      plan.ids.get? k.name = plan.ids.get? k'.name → k = k')
    (hids : ∀ v ∈ cfg.wiring, ∀ v' ∈ cfg.wiring, v.id = v'.id → v = v')
    (hown : ∀ u ∈ cfg.wiring, ∀ v ∈ cfg.wiring, ∀ call, plan.callOf wr frames u = .ok call →
      plan.callOf wr frames v = .ok call → u = v)
    {ks : List ((Args ⊕ Other) × Option (ℕ × Bool))}
    (hks : ∀ k ∈ ks, ∀ args, k.1 = .inl args → Follows sha256 wr cfg plan args) {chain : Chain}
    (hinits : ∀ id options, chain.inits id ≠ some (options, true)) (hcalls : chain.calls = [])
    {w : World py} (hw : (session (act sha256 wr frames cfg) ⟨chain, .absent⟩ ks).1 = w)
    (htorn : w.file ≠ .torn) {args : Args} {manifest : Dict String String}
    (hlawful : args.cli.Lawful)
    (hready : Ready sha256 wr frames cfg plan args manifest w.chain w.file.recorded)
    (hmatches : Matches sha256 cfg plan manifest w.chain) :
    ∃ t reg, deploy sha256 wr frames args cfg ⟨w, none⟩ = (⟨t, none⟩, .ok ()) ∧
      t.file = .saved reg ∧ (∀ k ∈ cfg.contracts, ∃ e, reg.contracts.get? k.name = some e ∧
        e.initialized = true) ∧ (∀ v ∈ cfg.wiring, v.id ∈ reg.wiringDone) ∧
      Complete wr frames cfg plan t.chain := by
  have habsent : Sound sha256 wr frames cfg plan 0 ⟨chain, .absent⟩ := sound_absent hinits hcalls
  have hsound := session_sound hcfg hks habsent
  rw [hw] at hsound
  have hselect : select wr cfg args.only = .ok cfg := by
    rw [hready.only]
    rfl
  obtain ⟨reg, hreg⟩ : ∃ reg, w.file.registry? = some reg := by
    cases hfile : w.file with
    | absent => exact ⟨_, rfl⟩
    | torn => exact absurd hfile htorn
    | saved reg => exact ⟨reg, rfl⟩
  obtain ⟨net, nativeSac, hnet, hdeployer, hsac, -, hplan⟩ := plan_ok hready.resolves
  obtain ⟨files, hfiles, rfl⟩ := hready.collected
  obtain ⟨reg', hadopt⟩ := (hsound.file reg hreg).adopts sha256 wr frames args
  have hdeploy : Finishes w (deploy sha256 wr frames args cfg) fun _ t => ∃ reg,
      t.file = .saved reg ∧ Initialized cfg.contracts reg ∧
        (∀ v ∈ cfg.wiring, v.id ∈ reg.wiringDone) ∧ Complete wr frames cfg plan t.chain := by
    refine finishes_check_bind hselect (finishes_check_bind hnet ?_)
    refine finishes_check_bind hdeployer ?_
    refine ((finishes_ensureNativeSac hsac hready.asset).and (triple_ensureNativeSac args.cli)
      hsound).bind fun sac t ht => ?_
    obtain ⟨⟨-, ht⟩, rfl, asset, rfl⟩ := ht
    refine finishes_check_bind hplan ?_
    rw [hfiles]
    refine finishes_look_bind (orRaise_eq_ok.mpr hreg) (finishes_check_bind hadopt ?_)
    have hheld := ht.adopt hreg hadopt
    have hunder : Underway sha256 wr frames cfg plan (.ofList files) w.chain w.file.recorded reg'
        { w.chain with asset } := by
      refine ⟨⟨fun _ _ h => h, fun _ _ h => h, List.prefix_rfl, rfl, rfl⟩, hmatches, ?_,
        fun call hcall => .inl hcall⟩
      rw [← hheld.recorded]
      exact List.Subset.refl _
    have hcarried := finishes_carryOut hready hlawful hcfg hne hdistinct hown hheld hunder
    have hdiscarded : Finishes { w with chain := { w.chain with asset } }
        (discard (carryOut sha256 wr frames args plan (.ofList files) cfg reg')) fun _ u =>
        ∃ n reg, Held sha256 wr frames cfg plan n reg u ∧ u.file = .saved reg ∧
          Underway sha256 wr frames cfg plan (.ofList files) w.chain w.file.recorded reg u.chain ∧
          Entered plan (.ofList files) cfg.contracts u.chain reg ∧
          Initialized cfg.contracts reg ∧ ∀ v ∈ cfg.wiring, v.id ∈ reg.wiringDone :=
      hcarried.bind fun reg u hu => finishes_pure ⟨_, reg, hu⟩
    refine hdiscarded.bind fun _ u hu => ?_
    obtain ⟨n, reg, hheld, hfile, hunder, hentered, hinit, hdone⟩ := hu
    refine (finishes_cmdVerify hready hcfg hne hheld hfile hunder hentered hinit hdone hids).mono
      fun _ u' hu' => ?_
    rw [hu']
    exact ⟨reg, hfile, hinit, hdone, hheld.complete hentered hinit hdone hids⟩
  obtain ⟨_, t, hrun, reg, hfile, hinit, hdone, hcomplete⟩ := hdeploy
  exact ⟨t, reg, hrun, hfile, hinit, hdone, hcomplete⟩

/-- A run in the sandbox that is cut off after so many writes. -/
def sandboxRun (once : Bool) (writes : ℕ) : List ((Args ⊕ Other) × Option (ℕ × Bool)) :=
  [(.inl (sandboxArgs once), some (writes, false))]

/-- The world in which it was cut off. -/
def sandboxCutAt (once : Bool) (writes : ℕ) : World plainPython :=
  (session (act sandboxSha256 sandboxWriter 10 sandboxConfig) ⟨sandboxChain, .absent⟩
    (sandboxRun once writes)).1

/-- Cut off between the call and its record. -/
def sandboxCut : World plainPython := sandboxCutAt false 5

/-- Cut off before the call. -/
def sandboxEarly : World plainPython := sandboxCutAt true 4

def sandboxWiring : WiringConfig plainPython :=
  ⟨"pool_admin", "pool", "set_admin", .dict [("new_admin", .str "$guardian")]⟩

def sandboxCall : Call := ⟨sandboxPool, "set_admin", [("--new_admin", sandboxKey)]⟩

theorem sandbox_callOf : sandboxPlan.callOf sandboxWriter 10 sandboxWiring = .ok sandboxCall := by
  rfl

/-- The call went through, but there is no record of it. -/
theorem sandboxCut_spec : sandboxCall ∈ sandboxCut.chain.calls ∧
    ∀ reg, sandboxCut.file.registry? = some reg → sandboxWiring.id ∉ reg.wiringDone := by
  have hmade : sandboxCall ∈ sandboxCut.chain.calls := by decide +kernel
  have hrecorded : sandboxWiring.id ∉ sandboxCut.file.recorded := by decide +kernel
  refine ⟨hmade, fun reg hreg => ?_⟩
  rwa [File.recorded, hreg] at hrecorded

def sandboxManifest : Dict String String :=
  .ofList [("pool.wasm", hexdigest (sandboxSha256 [0, 97, 115, 109]))]

theorem sandbox_id {id : String} (h : sandboxPlan.ids.get? "pool" = some id) :
    id = sandboxPool := by
  have hpool : sandboxPlan.ids.get? "pool" = some sandboxPool := rfl
  exact Option.some.inj (h.symm.trans hpool)

/-- A pool that obeys only once is ready as long as it was not asked. -/
theorem sandbox_ready {once : Bool} {c₀ : Chain} (recorded : List String)
    (hfirst : once = true → sandboxCall ∉ c₀.calls) :
    Ready sandboxSha256 sandboxWriter 10 sandboxConfig sandboxPlan (sandboxArgs once)
      sandboxManifest c₀ recorded := by
  constructor
  · rfl
  · exact ⟨_, rfl, rfl⟩
  · exact sandbox_plan once
  · exact .inr ⟨"", rfl⟩
  · intro k hk
    rw [List.mem_singleton.mp hk]
    refine ⟨[0, 97, 115, 109], rfl, rfl, fun c id _ hid hcode => ?_⟩
    rw [sandbox_id hid] at hcode ⊢
    exact if_pos hcode
  · exact fun c _ => rfl
  · intro k hk
    rw [List.mem_singleton.mp hk]
    refine ⟨.dict [("admin", .str sandboxKey)], [("--admin", sandboxKey)], rfl, rfl, ?_⟩
    intro c id _ hdeployed hid
    have hcode : c.code id ≠ none :=
      Option.isSome_iff_ne_none.mp (hdeployed _ (List.mem_singleton_self _) id hid)
    by_cases hinit : c.inits id = none
    · exact .inl ⟨hinit, "", (if_neg hcode).trans (if_pos hinit)⟩
    · exact .inr ⟨"Error(Contract, #1)", (if_neg hcode).trans (if_neg hinit), by decide +kernel⟩
  · intro v hv _
    rw [List.mem_singleton.mp hv]
    refine ⟨sandboxCall, sandbox_callOf, fun c _ hsettled honce => ⟨"", if_neg ?_⟩⟩
    have hinit : c.inits sandboxPool ≠ none := Option.isSome_iff_ne_none.mp
      (hsettled.inits _ (List.mem_singleton_self _) sandboxPool rfl)
    rintro (hnone | ⟨htrue, hmade⟩)
    · exact hinit hnone
    · exact hfirst htrue (honce hmade)
  · intro k hk
    rw [List.mem_singleton.mp hk]
    refine ⟨[("admin", .str "$guardian")], rfl, fun view hview => ?_⟩
    rw [List.mem_singleton.mp hview]
    exact ⟨.str sandboxKey, rfl, fun c id _ _ _ => ⟨sandboxKey, rfl, rfl⟩⟩

theorem sandbox_matches {w : World plainPython}
    (hcode : w.chain.code sandboxPool = some [0, 97, 115, 109]) :
    Matches sandboxSha256 sandboxConfig sandboxPlan sandboxManifest w.chain := by
  intro k hk id wasm hid hwasm
  rw [List.mem_singleton.mp hk] at hid ⊢
  rw [sandbox_id hid, hcode] at hwasm
  obtain rfl := Option.some.inj hwasm
  rfl

/-- What the second run in the sandbox comes to. -/
def SandboxDone (once : Bool) (w : World plainPython) : Prop := ∃ t reg,
  deploy sandboxSha256 sandboxWriter 10 (sandboxArgs once) sandboxConfig ⟨w, none⟩ =
    (⟨t, none⟩, .ok ()) ∧
  t.file = .saved reg ∧ (∀ k ∈ sandboxConfig.contracts, ∃ e,
    reg.contracts.get? k.name = some e ∧ e.initialized = true) ∧
  (∀ v ∈ sandboxConfig.wiring, v.id ∈ reg.wiringDone) ∧
  Complete sandboxWriter 10 sandboxConfig sandboxPlan t.chain

/-- A pool that obeys again after a run that was cut off before the record, and one that obeys only
once after a run that was cut off before the call. -/
theorem sandbox_converges : SandboxDone false sandboxCut ∧ SandboxDone true sandboxEarly := by
  have hdistinct : ∀ k ∈ sandboxConfig.contracts, ∀ k' ∈ sandboxConfig.contracts,
      sandboxPlan.ids.get? k.name = sandboxPlan.ids.get? k'.name → k = k' := by
    intro k hk k' hk' _
    rw [List.mem_singleton.mp hk, List.mem_singleton.mp hk']
  have hids : ∀ v ∈ sandboxConfig.wiring, ∀ v' ∈ sandboxConfig.wiring, v.id = v'.id → v = v' := by
    intro v hv v' hv' _
    rw [List.mem_singleton.mp hv, List.mem_singleton.mp hv']
  have hown : ∀ u ∈ sandboxConfig.wiring, ∀ v ∈ sandboxConfig.wiring, ∀ call,
      sandboxPlan.callOf sandboxWriter 10 u = .ok call →
      sandboxPlan.callOf sandboxWriter 10 v = .ok call → u = v := by
    intro u hu v hv _ _ _
    rw [List.mem_singleton.mp hu, List.mem_singleton.mp hv]
  have hinits : ∀ id options, sandboxChain.inits id ≠ some (options, true) := by
    rintro _ _ ⟨⟩
  have htorn : ∀ {w : World plainPython}, w.file.registry?.isSome = true → w.file ≠ .torn := by
    intro w hreadable h
    rw [h] at hreadable
    cases hreadable
  have hfollows : ∀ once n, ∀ k ∈ sandboxRun once n, ∀ args, k.1 = .inl args →
      Follows sandboxSha256 sandboxWriter sandboxConfig sandboxPlan args := by
    intro once n k hk args hargs
    rw [List.mem_singleton.mp hk] at hargs
    cases hargs
    exact sandboxArgs_follows once
  have hrunCut : (session (act sandboxSha256 sandboxWriter 10 sandboxConfig)
      ⟨sandboxChain, .absent⟩ (sandboxRun false 5)).1 = sandboxCut := by
    rw [sandboxCut, sandboxCutAt]
  have hrunEarly : (session (act sandboxSha256 sandboxWriter 10 sandboxConfig)
      ⟨sandboxChain, .absent⟩ (sandboxRun true 4)).1 = sandboxEarly := by
    rw [sandboxEarly, sandboxCutAt]
  have hcut : sandboxCut.chain.code sandboxPool = some [0, 97, 115, 109] := by decide +kernel
  have hearly : sandboxEarly.chain.code sandboxPool = some [0, 97, 115, 109] := by decide +kernel
  have hcutReads : sandboxCut.file.registry?.isSome = true := by decide +kernel
  have hearlyReads : sandboxEarly.file.registry?.isSome = true := by decide +kernel
  have hunasked : sandboxCall ∉ sandboxEarly.chain.calls := by decide +kernel
  constructor
  · exact deployment_converges sandboxSha256 sandboxWriter 10 rfl (List.cons_ne_nil _ _) hdistinct
      hids hown (hfollows false 5) hinits rfl hrunCut (htorn hcutReads)
      (sandboxCli_lawful false) (sandbox_ready _ nofun) (sandbox_matches hcut)
  · exact deployment_converges sandboxSha256 sandboxWriter 10 rfl (List.cons_ne_nil _ _) hdistinct
      hids hown (hfollows true 4) hinits rfl hrunEarly (htorn hearlyReads)
      (sandboxCli_lawful true) (sandbox_ready _ fun _ => hunasked) (sandbox_matches hearly)

end RefractContracts.Deployment
