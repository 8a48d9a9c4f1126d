import RefractContracts.Deployment.Registry

/-! The steps of a run. Each of them leaves a truthful registry, in memory and in the file, wherever
it is cut off: what it does on the chain it records only afterwards. -/

namespace RefractContracts.Deployment

open Host Scripts Script Method

variable {py : Python} {sha256 : Bytes → Digest32} {wr : Writer py} {frames : ℕ} {cfg : Config py}
  {plan : Resolver py} {n : ℕ} {reg : Registry py} {name cid expected : String} {args : Args}

/-- A registry with the same wiring is saved. -/
theorem triple_record {P : World py → Prop} (reg reg' : Registry py)
    (hwiring : reg'.wiringDone = reg.wiringDone) (hdeployer : reg'.deployer = reg.deployer)
    (hP : ∀ w, P w → Held sha256 wr frames cfg plan n reg w ∧
      reg'.Truthful sha256 wr frames cfg plan w.chain) :
    Triple P (saveRegistry reg' >>= fun _ => pure reg')
      (fun reg => Held sha256 wr frames cfg plan n reg) (Stops sha256 wr frames cfg plan n) := by
  have hsave : Triple P (saveRegistry reg')
      (fun _ => Held sha256 wr frames cfg plan n reg') (Stops sha256 wr frames cfg plan n) := by
    apply triple_save
    · intro w hw
      obtain ⟨hheld, hreg⟩ := hP w hw
      have hsub : w.file.recorded ⊆ reg'.wiringDone := by
        rw [hheld.recorded, hwiring]
        exact List.Subset.refl _
      exact ⟨hheld.sound.save hreg hsub, hreg, rfl, hdeployer.trans hheld.deployer⟩
    · intro w hw
      obtain ⟨hheld, -⟩ := hP w hw
      exact ⟨hheld.stops .trap, hheld.sound.torn⟩
  exact hsave.bind fun _ => triple_pure fun _ h => h

theorem triple_fetch (hcli : args.cli.Lawful) :
    Triple (Held sha256 wr frames cfg plan n reg)
      (args.cli.fetchWasmSha256 sha256 cid)
      (fun o w => Held sha256 wr frames cfg plan n reg w ∧
        ∀ h, o = some h → ∃ wasm, w.chain.code cid = some wasm ∧ hexdigest (sha256 wasm) = h)
      (Stops sha256 wr frames cfg plan n) := by
  apply triple_look
  · intro o w ho hw
    refine ⟨hw, fun h hh => ?_⟩
    obtain rfl := Except.ok.inj ho
    obtain ⟨wasm, hfetch, rfl⟩ := Option.map_eq_some_iff.mp hh
    exact ⟨wasm, hcli.fetch _ _ _ hfetch, rfl⟩
  · exact fun e w _ hw => hw.stops e

theorem triple_deployWasm (hcli : args.cli.Lawful) {salt wasm : Bytes} :
    Triple (Held sha256 wr frames cfg plan n reg) (args.cli.deployWasm salt wasm)
      (fun got w => Held sha256 wr frames cfg plan n reg w ∧ w.chain.code got = some wasm)
      (Stops sha256 wr frames cfg plan n) := by
  have hsubmit : Triple (Held sha256 wr frames cfg plan n reg)
      (submit (args.cli.deploy · salt wasm) fun chain id => chain.deployed id wasm)
      (fun proc w => Held sha256 wr frames cfg plan n reg w ∧
        ∀ id, proc = .ok id → w.chain.code id = some wasm)
      (Stops sha256 wr frames cfg plan n) := by
    apply triple_submit
    · intro w out h hw
      have hnew := hcli.deploy _ _ _ _ h
      have hheld : Held sha256 wr frames cfg plan n reg
          { w with chain := w.chain.deployed out wasm } :=
        hw.grows ⟨hw.sound.chain.inits, hw.sound.chain.calls⟩ (grows_deployed hnew) rfl
      refine ⟨⟨hheld, fun id' hid => ?_⟩, hheld.stops .trap⟩
      cases hid
      exact Function.update_self ..
    · exact fun w stderr h hw => ⟨hw, nofun⟩
    · exact fun w hw => hw.stops .trap
  refine hsubmit.bind fun proc => triple_check ?_ fun e w _ hw => hw.1.stops e
  rintro got w hgot ⟨hheld, hcode⟩
  cases proc with
  | error e => cases hgot
  | ok out =>
    cases hgot
    exact ⟨hheld, hcode _ rfl⟩

theorem triple_ensureDeployed (hcli : args.cli.Lawful) :
    Triple (Held sha256 wr frames cfg plan n reg) (ensureDeployed sha256 args name cid expected)
      (fun onChain w => Held sha256 wr frames cfg plan n reg w ∧
        ∃ wasm, w.chain.code cid = some wasm ∧ hexdigest (sha256 wasm) = onChain)
      (Stops sha256 wr frames cfg plan n) := by
  refine (triple_fetch hcli).bind fun o => ?_
  cases o with
  | some onChain => exact triple_pure fun w hw => ⟨hw.1, hw.2 onChain rfl⟩
  | none =>
    have hstops : ∀ e w, Held sha256 wr frames cfg plan n reg w →
        Stops sha256 wr frames cfg plan n e w := fun e w hw => hw.stops e
    refine Triple.pre (P := Held sha256 wr frames cfg plan n reg) ?_ fun w hw => hw.1
    refine triple_check_bind hstops fun wasm _ => ?_
    refine triple_guard hstops fun hactual => ?_
    refine (triple_deployWasm hcli).bind fun got => ?_
    refine triple_guard (fun e w hw => hw.1.stops e) fun hgot => ?_
    rw [not_not] at hactual hgot
    exact triple_pure fun w hw => ⟨hw.1, wasm, hgot ▸ hw.2, hactual⟩

theorem triple_deployOne (hcli : args.cli.Lawful) (manifest : Dict String String)
    (c : ContractConfig py) : Triple (Held sha256 wr frames cfg plan n reg)
      (deployOne sha256 args plan manifest reg c)
      (fun reg' => Held sha256 wr frames cfg plan n reg')
      (Stops sha256 wr frames cfg plan n) := by
  have hstops : ∀ e w, Held sha256 wr frames cfg plan n reg w →
      Stops sha256 wr frames cfg plan n e w := fun e w hw => hw.stops e
  refine triple_check_bind hstops fun cid hcid => ?_
  split
  case h_2 => exact triple_die hstops
  case h_1 expected hexpected =>
  refine triple_guard hstops fun _ => ?_
  refine (triple_ensureDeployed hcli).bind fun onChain => ?_
  refine triple_guard (fun e w hw => hw.1.stops e) fun honChain => ?_
  rw [not_not] at honChain
  rw [orRaise_eq_ok] at hcid
  refine triple_record reg _ rfl rfl ?_
  rintro w ⟨hheld, wasm, hcode, hhash⟩
  refine ⟨hheld, hheld.truthful.put ⟨⟨cid, wasm, rfl, hcid, .inl hcode, ?_⟩, fun hinit => ?_⟩⟩
  · exact congrArg some (hhash.trans honChain).symm
  · cases he : reg.contracts.get? c.name with
    | none =>
      rw [Registry.entry, he] at hinit
      cases hinit
    | some e =>
      simp only [Registry.entry, he, Option.getD_some] at hinit ⊢
      exact (hheld.truthful.entries c.name e he).initialized hinit

/-- The contract is initialised by the transaction, or refuses because it is. -/
theorem triple_initializeContract (hcli : args.cli.Lawful) {c : ContractConfig py}
    (hc : c ∈ cfg.contracts) (hcid : plan.ids.get? c.name = some cid) {value : Json py}
    (hvalue : plan.resolve frames c.init = .ok value) {options : List (String × String)}
    (hoptions : cliArgs wr value = .ok options) :
    Triple (Held sha256 wr frames cfg plan n reg) (args.cli.initializeContract cid options)
      (fun proc w => Held sha256 wr frames cfg plan n reg w ∧
        ((∀ stderr, proc = .error stderr → alreadyInitialized stderr = true) →
          (w.chain.inits cid).isSome))
      (Stops sha256 wr frames cfg plan n) := by
  apply triple_submit
  · intro w out h hw
    have hfrom : FromPlan wr frames cfg plan (w.chain.initialized cid options true) := by
      refine ⟨fun id o ho => ?_, hw.sound.chain.calls⟩
      by_cases hid : id = cid
      · subst hid
        simp only [Chain.initialized, Function.update_self, Option.some.injEq, Prod.mk.injEq,
          and_true] at ho
        exact ⟨c, hc, hcid, value, hvalue, ho ▸ hoptions⟩
      · simp only [Chain.initialized, Function.update_of_ne hid] at ho
        exact hw.sound.chain.inits id o ho
    have hheld : Held sha256 wr frames cfg plan n reg
        { w with chain := w.chain.initialized cid options true } :=
      hw.grows hfrom grows_initialized rfl
    refine ⟨⟨hheld, fun _ => ?_⟩, hheld.stops .trap⟩
    simp [Chain.initialized]
  · exact fun w stderr h hw => ⟨hw, fun halready =>
      hcli.refused _ _ _ _ h (halready stderr rfl)⟩
  · exact fun w hw => hw.stops .trap

theorem triple_initializeOne (hcli : args.cli.Lawful) {c : ContractConfig py}
    (hc : c ∈ cfg.contracts) : Triple (Held sha256 wr frames cfg plan n reg)
      (initializeOne wr frames args plan reg c)
      (fun reg' => Held sha256 wr frames cfg plan n reg')
      (Stops sha256 wr frames cfg plan n) := by
  have hstops : ∀ e w, Held sha256 wr frames cfg plan n reg w →
      Stops sha256 wr frames cfg plan n e w := fun e w hw => hw.stops e
  refine triple_check_bind hstops fun entry hentry => ?_
  refine triple_check_bind hstops fun value hvalue => ?_
  split
  · exact triple_pure fun _ hw => hw
  refine triple_check_bind hstops fun cid hcid => ?_
  refine triple_check_bind hstops fun options hoptions => ?_
  rw [orRaise_eq_ok] at hentry hcid
  refine (triple_initializeContract hcli hc hcid hvalue hoptions).bind fun proc => ?_
  have hrecord : ∀ w, Held sha256 wr frames cfg plan n reg w ∧ (w.chain.inits cid).isSome →
      Held sha256 wr frames cfg plan n reg w ∧
        (reg.put c.name { entry with initialized := true, initArgs := some value }).Truthful
          sha256 wr frames cfg plan w.chain := by
    rintro w ⟨hheld, hinit⟩
    have hdeployed := (hheld.truthful.entries c.name entry hentry).deployed
    exact ⟨hheld, hheld.truthful.put ⟨hdeployed, fun _ => ⟨cid, value, hcid, hinit, rfl, c, hc, rfl,
      hvalue⟩⟩⟩
  cases proc with
  | ok out =>
    refine triple_record reg _ rfl rfl fun w hw => hrecord w ⟨hw.1, hw.2 ?_⟩
    rintro _ ⟨⟩
  | error stderr =>
    refine triple_guard (fun e w hw => hw.1.stops e) fun halready => ?_
    rw [not_not] at halready
    refine triple_record reg _ rfl rfl fun w hw => hrecord w ⟨hw.1, hw.2 fun stderr' h => ?_⟩
    cases h
    exact halready

theorem triple_invokeCall {v : WiringConfig py} (hv : v ∈ cfg.wiring) {call : Call}
    (hcall : plan.callOf wr frames v = .ok call) :
    Triple (Held sha256 wr frames cfg plan n reg) (args.cli.invokeCall call)
      (fun _ => Unrecorded sha256 wr frames cfg plan n reg call)
      (Stops sha256 wr frames cfg plan n) := by
  have hsubmit : Triple (Held sha256 wr frames cfg plan n reg)
      (submit (args.cli.invoke · call) fun chain _ => chain.called call)
      (fun proc w => (∀ out, proc = .ok out → Unrecorded sha256 wr frames cfg plan n reg call w) ∧
        ∀ stderr, proc = .error stderr → Held sha256 wr frames cfg plan n reg w)
      (Stops sha256 wr frames cfg plan n) := by
    apply triple_submit
    · refine fun w out _ hw => ⟨⟨fun _ _ => ⟨w, hw, rfl⟩, ?_⟩, hw.called hv hcall⟩
      rintro _ ⟨⟩
    · refine fun w stderr _ hw => ⟨?_, fun _ _ => hw⟩
      rintro _ ⟨⟩
    · exact fun w hw => hw.stops .trap
  refine hsubmit.bind fun proc => ?_
  cases proc with
  | ok out => exact triple_pure fun w hw => hw.1 out rfl
  | error stderr => exact triple_die fun e w hw => (hw.2 stderr rfl).stops e

theorem triple_wireOne {v : WiringConfig py} (hv : v ∈ cfg.wiring) :
    Triple (Held sha256 wr frames cfg plan n reg) (wireOne wr frames args plan reg v)
      (fun reg' => Held sha256 wr frames cfg plan n reg')
      (Stops sha256 wr frames cfg plan n) := by
  have hstops : ∀ e w, Held sha256 wr frames cfg plan n reg w →
      Stops sha256 wr frames cfg plan n e w := fun e w hw => hw.stops e
  rw [wireOne]
  split
  · exact triple_pure fun _ hw => hw
  next hnew =>
  refine triple_check_bind hstops fun call hcall => ?_
  have hcalled : Triple (Held sha256 wr frames cfg plan n reg)
      (discard (args.cli.invokeCall call))
      (fun _ => Unrecorded sha256 wr frames cfg plan n reg call)
      (Stops sha256 wr frames cfg plan n) :=
    (triple_invokeCall hv hcall).bind fun _ => triple_pure fun _ h => h
  have hsave : Triple (Unrecorded sha256 wr frames cfg plan n reg call)
      (saveRegistry { reg with wiringDone := reg.wiringDone ++ [v.id] })
      (fun _ => Held sha256 wr frames cfg plan n
        { reg with wiringDone := reg.wiringDone ++ [v.id] })
      (Stops sha256 wr frames cfg plan n) := by
    apply triple_save
    · rintro w ⟨w₀, hheld, rfl⟩
      exact hheld.record hv hnew hcall
    · rintro w ⟨w₀, hheld, rfl⟩
      exact ⟨hheld.called hv hcall, (hheld.record hv hnew hcall).sound.torn⟩
  exact hcalled.bind fun _ => hsave.bind fun _ => triple_pure fun _ h => h

end RefractContracts.Deployment
