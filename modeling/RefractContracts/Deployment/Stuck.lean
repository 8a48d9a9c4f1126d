import RefractContracts.Deployment.Completion

/-! A deployment that cannot get through any more. A call that wires two contracts went through, but
the run was cut off before it was recorded; if the contract refuses the call when it is made again,
as it does if the call gave the contract away, every later run stops there. -/

namespace RefractContracts.Deployment

open Host Scripts Script Method

variable {py : Python} (sha256 : Bytes → Digest32) (wr : Writer py) (frames : ℕ)

section Stuck
variable {sha256 wr frames} {cfg : Config py} {plan : Resolver py} {reg : Registry py}
  {args : Args} {call : Call} {i : String}

/-- The call went through, and the file has no record of it. -/
def Stuck (call : Call) (i : String) (w : World py) : Prop :=
  call ∈ w.chain.calls ∧ ∀ reg, w.file.registry? = some reg → i ∉ reg.wiringDone

theorem triple_submit_stuck {answer : Chain → Proc} {effect : Chain → String → Chain}
    (hgrows : ∀ c out, c.calls ⊆ (effect c out).calls) :
    Triple (Stuck call i : World py → Prop) (submit answer effect) (fun _ => Stuck call i)
      fun _ => Stuck call i := by
  apply triple_submit
  · intro w out _ hw
    have hstuck : Stuck call i { w with chain := effect w.chain out } :=
      ⟨hgrows _ _ hw.1, hw.2⟩
    exact ⟨hstuck, hstuck⟩
  · exact fun w stderr _ hw => hw
  · exact fun w hw => hw

/-- A registry without a record of the call is saved. -/
theorem triple_save_stuck (h : i ∉ reg.wiringDone) :
    Triple (Stuck call i : World py → Prop) (saveRegistry reg >>= fun _ => pure reg)
      (fun reg' w => i ∉ reg'.wiringDone ∧ Stuck call i w) fun _ => Stuck call i := by
  have hsave : Triple (Stuck call i : World py → Prop) (saveRegistry reg) (fun _ => Stuck call i)
      fun _ => Stuck call i := by
    apply triple_save
    · refine fun w hw => ⟨hw.1, fun reg' hreg' => ?_⟩
      cases hreg'
      exact h
    · exact fun w hw => ⟨hw, hw.1, nofun⟩
  exact hsave.bind fun _ => triple_pure fun w hw => ⟨h, hw⟩

theorem triple_deployOne_stuck (manifest : Dict String String) (k : ContractConfig py)
    (hnew : i ∉ reg.wiringDone) :
    Triple (Stuck call i) (deployOne sha256 args plan manifest reg k)
      (fun reg' w => i ∉ reg'.wiringDone ∧ Stuck call i w) fun _ => Stuck call i := by
  have hstops : ∀ (e : Fault (List String)) (w : World py), Stuck call i w → Stuck call i w :=
    fun _ _ hw => hw
  have hdeployed : ∀ name cid expected, Triple (Stuck call i : World py → Prop)
      (ensureDeployed sha256 args name cid expected) (fun _ => Stuck call i)
      fun _ => Stuck call i := by
    intro name cid expected
    refine (reads_look _ _).bind fun o => ?_
    cases o with
    | some onChain => exact triple_pure fun w hw => hw
    | none =>
      refine triple_check_bind hstops fun wasm _ => triple_guard hstops fun _ => ?_
      have hwasm : Triple (Stuck call i : World py → Prop)
          (args.cli.deployWasm (saltFor sha256 name) wasm) (fun _ => Stuck call i)
          fun _ => Stuck call i := by
        refine (triple_submit_stuck ?_).bind fun proc => reads_check _ _
        exact fun c out => List.Subset.refl _
      exact hwasm.bind fun got => triple_guard hstops fun _ => triple_pure fun w hw => hw
  refine triple_check_bind hstops fun cid _ => ?_
  split
  · refine triple_guard hstops fun _ => (hdeployed _ _ _).bind fun onChain => ?_
    exact triple_guard hstops fun _ => triple_save_stuck hnew
  · exact triple_die hstops

theorem triple_initializeOne_stuck (k : ContractConfig py) (hnew : i ∉ reg.wiringDone) :
    Triple (Stuck call i) (initializeOne wr frames args plan reg k)
      (fun reg' w => i ∉ reg'.wiringDone ∧ Stuck call i w) fun _ => Stuck call i := by
  have hstops : ∀ (e : Fault (List String)) (w : World py), Stuck call i w → Stuck call i w :=
    fun _ _ hw => hw
  refine triple_check_bind hstops fun entry _ => triple_check_bind hstops fun value _ => ?_
  split
  · exact triple_pure fun w hw => ⟨hnew, hw⟩
  refine triple_check_bind hstops fun cid _ => triple_check_bind hstops fun options _ => ?_
  have hrun : Triple (Stuck call i : World py → Prop) (args.cli.initializeContract cid options)
      (fun _ => Stuck call i) fun _ => Stuck call i := by
    apply triple_submit_stuck
    exact fun c out => List.Subset.refl _
  refine hrun.bind fun proc => ?_
  cases proc with
  | ok out => exact triple_save_stuck hnew
  | error stderr => exact triple_guard hstops fun _ => triple_save_stuck hnew

/-- Another call is made and recorded. -/
theorem triple_wireOne_stuck {v : WiringConfig py} (hv : v.id ≠ i) (hnew : i ∉ reg.wiringDone) :
    Triple (Stuck call i) (wireOne wr frames args plan reg v)
      (fun reg' w => i ∉ reg'.wiringDone ∧ Stuck call i w) fun _ => Stuck call i := by
  have hstops : ∀ (e : Fault (List String)) (w : World py), Stuck call i w → Stuck call i w :=
    fun _ _ hw => hw
  rw [wireOne]
  split
  · exact triple_pure fun w hw => ⟨hnew, hw⟩
  refine triple_check_bind hstops fun other _ => ?_
  have hinvoke : Triple (Stuck call i : World py → Prop) (args.cli.invokeCall other)
      (fun _ => Stuck call i) fun _ => Stuck call i := by
    refine (triple_submit_stuck ?_).bind fun proc => reads_check _ _
    exact fun c out => List.subset_append_left _ _
  have hcalled : Triple (Stuck call i : World py → Prop) (discard (args.cli.invokeCall other))
      (fun _ => Stuck call i) fun _ => Stuck call i :=
    hinvoke.bind fun _ => triple_pure fun w hw => hw
  refine hcalled.bind fun _ => triple_save_stuck ?_
  rw [List.mem_append, List.mem_singleton, not_or]
  exact ⟨hnew, hv.symm⟩

/-- The call itself is refused. -/
theorem triple_wireOne_refused {v : WiringConfig py} (hcall : plan.callOf wr frames v = .ok call)
    (hrefused : ∀ c, call ∈ c.calls → ∃ stderr, args.cli.invoke c call = .error stderr)
    (hnew : v.id ∉ reg.wiringDone) :
    Triple (Stuck call v.id) (wireOne wr frames args plan reg v) (fun _ _ => False)
      fun _ => Stuck call v.id := by
  rw [wireOne, if_neg hnew]
  refine triple_check_bind (fun _ _ hw => hw) fun call' hcall' => ?_
  obtain rfl := Except.ok.inj (hcall.symm.trans hcall')
  have hsubmit : Triple (Stuck call v.id : World py → Prop)
      (submit (args.cli.invoke · call) fun chain _ => chain.called call)
      (fun proc w => (∃ stderr, proc = .error stderr) ∧ Stuck call v.id w)
      fun _ => Stuck call v.id := by
    apply triple_submit
    · intro w out h hw
      obtain ⟨stderr, hstderr⟩ := hrefused w.chain hw.1
      cases hstderr.symm.trans h
    · exact fun w stderr _ hw => ⟨⟨stderr, rfl⟩, hw⟩
    · exact fun w hw => hw
  have hinvoke : Triple (Stuck call v.id : World py → Prop) (args.cli.invokeCall call)
      (fun _ _ => False) fun _ => Stuck call v.id := by
    refine hsubmit.bind fun proc => triple_of_pure ?_
    rintro ⟨stderr, rfl⟩
    exact triple_die fun _ _ hw => hw
  have hcalled : Triple (Stuck call v.id : World py → Prop) (discard (args.cli.invokeCall call))
      (fun _ _ => False) fun _ => Stuck call v.id :=
    hinvoke.bind fun _ => triple_pure fun _ hw => hw
  exact hcalled.bind fun _ m hm => hm.elim

/-- A run that has to make the call does not return. -/
theorem triple_carryOut_stuck (cfg' : Config py) {v : WiringConfig py}
    (hids : ∀ u ∈ cfg'.wiring, u.id = v.id → u = v) (hcall : plan.callOf wr frames v = .ok call)
    (hrefused : ∀ c, call ∈ c.calls → ∃ stderr, args.cli.invoke c call = .error stderr)
    (manifest : Dict String String) (hnew : v.id ∉ reg.wiringDone) :
    Triple (Stuck call v.id) (carryOut sha256 wr frames args plan manifest cfg' reg)
      (fun _ w => v ∉ cfg'.wiring ∧ Stuck call v.id w) fun _ => Stuck call v.id := by
  have hothers : ∀ u ∈ cfg'.wiring, u ≠ v → ∀ reg : Registry py,
      Triple (fun w => v.id ∉ reg.wiringDone ∧ Stuck call v.id w)
        (wireOne wr frames args plan reg u)
        (fun reg' w => v.id ∉ reg'.wiringDone ∧ Stuck call v.id w) fun _ => Stuck call v.id := by
    intro u hu hne reg
    exact triple_of_pure fun h => triple_wireOne_stuck (fun hid => hne (hids u hu hid)) h
  have hdeploy : Triple (Stuck call v.id) (cfg'.chosen.foldlM (deployOne sha256 args plan manifest)
      reg) (fun reg w => v.id ∉ reg.wiringDone ∧ Stuck call v.id w) fun _ => Stuck call v.id :=
    (triple_foldlM (I := fun reg w => v.id ∉ reg.wiringDone ∧ Stuck call v.id w) (fun reg k _ =>
      triple_of_pure fun h => triple_deployOne_stuck manifest k h) reg).pre fun w hw => ⟨hnew, hw⟩
  refine hdeploy.bind fun reg₁ => ?_
  refine (triple_foldlM (I := fun reg w => v.id ∉ reg.wiringDone ∧ Stuck call v.id w)
    (fun reg k _ => triple_of_pure fun h => triple_initializeOne_stuck k h) reg₁).bind
    fun reg₂ => ?_
  by_cases hv : v ∈ cfg'.wiring
  · refine (triple_foldlM_blocked (fun reg u hu hne => hothers u hu hne reg) (fun reg => ?_) hv
      reg₂).mono (fun _ hw => hw) (fun _ _ hw => hw.elim) fun _ _ hw => hw
    exact triple_of_pure fun h => triple_wireOne_refused hcall hrefused h
  · refine (triple_foldlM (fun reg u hu => hothers u hu (fun h => hv (h ▸ hu)) reg) reg₂).mono
      (fun _ hw => hw) (fun _ _ hw => ⟨hv, hw.2⟩) fun _ _ hw => hw

/-- The registry a run starts from has no more wiring than the file. -/
theorem adopt_wiring {deployer : String} {reg' : Registry py}
    (h : adopt args deployer reg = .ok reg') : reg'.wiringDone ⊆ reg.wiringDone := by
  cases hd : reg.deployer with
  | none =>
    simp only [adopt, hd] at h
    cases h
    exact List.Subset.refl _
  | some other =>
    simp only [adopt, hd] at h
    split_ifs at h <;> cases h
    · exact List.Subset.refl _
    · exact List.nil_subset _

theorem triple_deploy_stuck (hcfg : cfg.selected = none) {v : WiringConfig py}
    (hids : ∀ u ∈ cfg.wiring, u.id = v.id → u = v) (hv : v ∈ cfg.wiring)
    (hcall : plan.callOf wr frames v = .ok call)
    (hrefused : ∀ c, call ∈ c.calls → ∃ stderr, args.cli.invoke c call = .error stderr)
    (hplan : ∀ p, args.plan sha256 wr cfg = .ok p → p = plan) :
    Triple (Stuck call v.id) (deploy sha256 wr frames args cfg)
      (fun _ w => args.only ≠ none ∧ Stuck call v.id w) fun _ => Stuck call v.id := by
  have hstops : ∀ (e : Fault (List String)) (w : World py), Stuck call v.id w → Stuck call v.id w :=
    fun _ _ hw => hw
  refine triple_check_bind hstops fun cfg' hselect => ?_
  obtain ⟨hnet, hcontracts, hchosen, hwiring⟩ := select_spec hcfg hselect
  refine triple_check_bind hstops fun net hnetwork => ?_
  refine triple_check_bind hstops fun deployer hdeployer => ?_
  have hsac : Triple (Stuck call v.id : World py → Prop) args.cli.ensureNativeSac
      (fun sac w => stripped <$> checked "contract id" args.cli.nativeSac = .ok sac ∧
        Stuck call v.id w) fun _ => Stuck call v.id := by
    refine triple_check_bind hstops fun sac hsac => (reads_look _ _).bind fun fetches => ?_
    split
    · exact triple_pure fun w hw => ⟨hsac, hw⟩
    have hsubmit : Triple (Stuck call v.id : World py → Prop)
        (submit args.cli.deployAsset fun chain _ => { chain with asset := true })
        (fun _ => Stuck call v.id) fun _ => Stuck call v.id := by
      apply triple_submit_stuck
      exact fun c out => List.Subset.refl _
    refine hsubmit.bind fun proc => ?_
    cases proc with
    | ok out => exact triple_pure fun w hw => ⟨hsac, hw⟩
    | error stderr => exact triple_guard hstops fun _ => triple_pure fun w hw => ⟨hsac, hw⟩
  refine hsac.bind fun nativeSac => triple_of_pure fun hsac => ?_
  refine triple_check_bind hstops fun plan' hplan' => ?_
  obtain rfl := hplan plan' (Args.plan_eq hnet hcontracts hnetwork hdeployer hsac hplan')
  split
  case h_2 => exact triple_die hstops
  case h_1 manifest hmanifest =>
  refine triple_look_bind hstops fun reg => ?_
  refine triple_check_bind (fun e w hw => hw.2) fun reg' hreg' => ?_
  have hstart : ∀ w : World py, orRaise w.file.registry? = .ok reg ∧ Stuck call v.id w →
      v.id ∉ reg'.wiringDone ∧ Stuck call v.id w := by
    rintro w ⟨hload, hw⟩
    exact ⟨fun h => hw.2 reg (orRaise_eq_ok.mp hload) (adopt_wiring hreg' h), hw⟩
  have hcarried : Triple
      (fun w : World py => orRaise w.file.registry? = .ok reg ∧ Stuck call v.id w)
      (discard (carryOut sha256 wr frames args plan' (.ofList manifest) cfg' reg'))
      (fun _ w => args.only ≠ none ∧ Stuck call v.id w) fun _ => Stuck call v.id := by
    refine Triple.bind ((triple_of_pure fun hnew => triple_carryOut_stuck cfg'
      (fun u hu => hids u (hwiring hu)) hcall hrefused _ hnew).pre hstart) fun _ => ?_
    refine triple_pure fun w hw => ⟨fun honly => hw.1 ?_, hw.2⟩
    rw [honly] at hselect
    obtain rfl := Except.ok.inj hselect
    exact hv
  exact hcarried.bind fun _ => (reads_cmdVerify cfg' _).mono (fun _ hw => hw) (fun _ _ hw => hw)
    fun _ _ hw => hw.2

end Stuck

/-- A run of the plan whose CLI refuses the call once it was made. -/
structure Refuses (cfg : Config py) (plan : Resolver py) (call : Call) (args : Args) : Prop where
  plan : ∀ p, args.plan sha256 wr cfg = .ok p → p = plan
  refused : ∀ c, call ∈ c.calls → ∃ stderr, args.cli.invoke c call = .error stderr

/-- A call that went through, was not recorded and is refused when it is made again: from then on
no run of the whole plan returns, wherever the runs before it were cut off, and the call is never
recorded. -/
theorem deployment_stuck {cfg : Config py} {plan : Resolver py} (hcfg : cfg.selected = none)
    {v : WiringConfig py} (hv : v ∈ cfg.wiring) (hids : ∀ u ∈ cfg.wiring, u.id = v.id → u = v)
    {call : Call} (hcall : plan.callOf wr frames v = .ok call) {w : World py}
    (hmade : call ∈ w.chain.calls)
    (hunrecorded : ∀ reg, w.file.registry? = some reg → v.id ∉ reg.wiringDone)
    {ks : List ((Args ⊕ Other) × Option (ℕ × Bool))}
    (hks : ∀ k ∈ ks, ∀ args, k.1 = .inl args → Refuses sha256 wr cfg plan call args) {args : Args}
    (hargs : Refuses sha256 wr cfg plan call args) (honly : args.only = none)
    (cut : Option (ℕ × Bool)) {t : World py}
    (ht : (session (act sha256 wr frames cfg) w ks).1 = t) :
    v.id ∉ t.file.recorded ∧ ∀ m, deploy sha256 wr frames args cfg ⟨t, cut⟩ ≠ (m, .ok ()) := by
  have hrun : ∀ k n, (∀ args, k = .inl args → Refuses sha256 wr cfg plan call args) →
      Triple (Stuck call v.id) (act sha256 wr frames cfg k) (fun _ => Stuck call v.id)
        (Counting (fun _ => Stuck call v.id) n) := by
    intro k n hk
    cases k with
    | inl args =>
      obtain ⟨hplan, hrefused⟩ := hk args rfl
      refine (triple_deploy_stuck hcfg hids hv hcall hrefused hplan).mono (fun _ hw => hw)
        (fun _ _ hw => hw.2) fun e w hw => ?_
      cases e <;> exact hw
    | inr o =>
      have hsubmit : Triple (Stuck call v.id : World py → Prop)
          (submit (fun _ => .ok "") fun c _ => o.take c) (fun _ => Stuck call v.id)
          fun _ => Stuck call v.id := by
        apply triple_submit_stuck
        intro c out
        rw [o.calls c]
        exact List.Subset.refl _
      have htaken : Triple (Stuck call v.id) (act sha256 wr frames cfg (.inr o))
          (fun _ => Stuck call v.id) fun _ => Stuck call v.id :=
        hsubmit.bind fun _ => triple_pure fun w hw => hw
      refine htaken.mono (fun _ hw => hw) (fun _ _ hw => hw) fun e w hw => ?_
      cases e <;> exact hw
  have hstuck : Stuck call v.id t := by
    have hsession := session_invariant _ hrun hks (n := 0) (s := w) ⟨hmade, hunrecorded⟩
    rwa [ht] at hsession
  constructor
  · rw [File.recorded]
    cases hreg : t.file.registry? with
    | none => exact List.not_mem_nil
    | some reg => exact hstuck.2 reg hreg
  · intro m hm
    have hend := triple_deploy_stuck hcfg hids hv hcall hargs.refused hargs.plan ⟨t, cut⟩ hstuck
    rw [hm] at hend
    exact hend.1 honly

theorem sandbox_stuck : sandboxWiring.id ∉ sandboxCut.file.recorded ∧ ∀ m,
    deploy sandboxSha256 sandboxWriter 10 (sandboxArgs true) sandboxConfig ⟨sandboxCut, none⟩ ≠
      (m, .ok ()) := by
  have hrefuses : Refuses sandboxSha256 sandboxWriter sandboxConfig sandboxPlan sandboxCall
      (sandboxArgs true) := by
    refine ⟨fun p hp => Except.ok.inj (hp.symm.trans (sandbox_plan true)), fun c hc => ?_⟩
    exact ⟨"Error(Contract, #2)", if_pos (.inr ⟨rfl, hc⟩)⟩
  have hids : ∀ u ∈ sandboxConfig.wiring, u.id = sandboxWiring.id → u = sandboxWiring := by
    intro u hu _
    exact List.mem_singleton.mp hu
  have hend : (session (act sandboxSha256 sandboxWriter 10 sandboxConfig) sandboxCut []).1 =
      sandboxCut := by rw [session]
  exact deployment_stuck sandboxSha256 sandboxWriter 10 rfl (List.mem_singleton_self sandboxWiring)
    hids sandbox_callOf sandboxCut_spec.1 sandboxCut_spec.2 (List.forall_mem_nil _) hrefuses rfl
    none hend

end RefractContracts.Deployment
