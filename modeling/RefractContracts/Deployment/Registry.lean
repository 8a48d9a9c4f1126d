import RefractContracts.Deployment.Script
import RefractContracts.Host.Progress

/-! What the registry file says of the chain. As long as it can be read it is truthful: it says only
what is on the chain, of which nothing is gone again. A run between two of its steps holds a
registry that is truthful as well, and the file has its wiring; a call that went through without a
record is one that a stopped run accounts for. -/

namespace RefractContracts.Deployment

open Host Scripts Script Method

variable {py : Python} (sha256 : Bytes → Digest32) (wr : Writer py) (frames : ℕ)

/-! ### Runs -/

/-- What the CLI and the network promise: what is fetched is on the chain, an id is given once, and
only a contract that is initialised says so. -/
structure Stellar.Lawful (cli : Stellar) : Prop where
  fetch : ∀ c id wasm, cli.fetch c id = some wasm → c.code id = some wasm
  deploy : ∀ c salt wasm id, cli.deploy c salt wasm = .ok id → c.code id = none
  refused : ∀ c id args stderr, cli.initialise c id args = .error stderr →
    alreadyInitialized stderr = true → (c.inits id).isSome

/-- The plan of a run. -/
def Args.plan (args : Args) (cfg : Config py) : Exits (Resolver py) := do
  let net ← networkCfg wr cfg args.network
  let deployer ← stripped <$> checked "keys address" args.cli.address
  let nativeSac ← stripped <$> checked "contract id" args.cli.nativeSac
  buildPlan sha256 cfg net deployer nativeSac

/-- A run of the plan, on a CLI that keeps its promises. -/
structure Follows (cfg : Config py) (plan : Resolver py) (args : Args) : Prop where
  lawful : args.cli.Lawful
  plan : ∀ p, args.plan sha256 wr cfg = .ok p → p = plan

/-- Somebody else initialises a contract, upgrades one or calls one. -/
inductive Other where
  | init (id : String) (args : List (String × String))
  | upgrade (id : String) (wasm : Bytes)
  | call (call : Call)

def Other.take : Other → Chain → Chain
  | .init id args, c => if (c.code id).isSome then c.initialized id args false else c
  | .upgrade id wasm, c => c.upgraded id wasm
  | .call k, c => { c with others := c.others ++ [k] }

/-- A run of the script, or what somebody else does. -/
def act (cfg : Config py) : Args ⊕ Other → Action py Unit
  | .inl args => deploy sha256 wr frames args cfg
  | .inr other => discard (submit (fun _ => .ok "") fun c _ => other.take c)

/-! ### What the registry says -/

/-- Nothing that was on the chain is forgotten. -/
structure Chain.Grows (c c' : Chain) : Prop where
  code : ∀ id wasm, c.Had id wasm → c'.Had id wasm
  inits : ∀ id, (c.inits id).isSome → (c'.inits id).isSome
  calls : c.calls <+: c'.calls

section Sound
variable (cfg : Config py) (plan : Resolver py)

/-- The transactions of the deployer are steps of the plan. -/
structure FromPlan (c : Chain) : Prop where
  inits : ∀ id options, c.inits id = some (options, true) →
    ∃ k ∈ cfg.contracts, plan.ids.get? k.name = some id ∧
      ∃ args, plan.resolve frames k.init = .ok args ∧ cliArgs wr args = .ok options
  calls : ∀ call ∈ c.calls, ∃ w ∈ cfg.wiring, plan.callOf wr frames w = .ok call

/-- What `plan` prints has every call that a wiring step makes. -/
theorem cmdPlan_prints {network deployer nativeSac : String} {net : NetworkConfig py}
    (hnet : networkCfg wr cfg network = .ok net)
    (hplan : buildPlan sha256 cfg net deployer nativeSac = .ok plan) {text : PlanText py}
    (htext : cmdPlan sha256 wr frames cfg network deployer nativeSac = .ok text)
    {w : WiringConfig py} (hw : w ∈ cfg.wiring) {call : Call}
    (hcall : plan.callOf wr frames w = .ok call) :
    ∃ value, (w.id, call.contract, call.fn, value) ∈ text.wiring ∧
      cliArgs wr value = .ok call.args := by
  simp only [cmdPlan, hnet, ok_bind, hplan] at htext
  obtain ⟨contracts, -, htext⟩ := (bind_eq_ok _ _ _).mp htext
  obtain ⟨wiring, hwiring, htext⟩ := (bind_eq_ok _ _ _).mp htext
  cases htext
  obtain ⟨line, hline, hprinted⟩ := (mapM_matched hwiring).value w hw
  simp only [bind_eq_ok] at hprinted
  obtain ⟨id, hid, value, hvalue, hprinted⟩ := hprinted
  cases hprinted
  simp only [Resolver.callOf, hid, hvalue, ok_bind, bind_eq_ok] at hcall
  obtain ⟨options, hoptions, hcall⟩ := hcall
  cases hcall
  exact ⟨value, hline, hoptions⟩

/-- An entry is of a contract that has or had the code it names, and says that it is initialised
only if it is. -/
structure Entry.Holds (c : Chain) (name : String) (e : Entry py) : Prop where
  deployed : ∃ id wasm, e.contractId = some id ∧ plan.ids.get? name = some id ∧
    c.Had id wasm ∧ e.wasmSha256 = some (hexdigest (sha256 wasm))
  initialized : e.initialized = true → ∃ id args, plan.ids.get? name = some id ∧
    (c.inits id).isSome ∧ e.initArgs = some args ∧
      ∃ k ∈ cfg.contracts, k.name = name ∧ plan.resolve frames k.init = .ok args

structure Registry.Truthful (c : Chain) (reg : Registry py) : Prop where
  deployer : ∀ d, reg.deployer = some d → d = plan.deployer
  entries : ∀ name e, reg.contracts.get? name = some e →
    e.Holds sha256 frames cfg plan c name
  wired : ∀ i ∈ reg.wiringDone, ∃ w ∈ cfg.wiring, w.id = i ∧
    ∃ call ∈ c.calls, plan.callOf wr frames w = .ok call

def File.recorded (f : File py) : List String := (f.registry?.map (·.wiringDone)).getD []

/-- After `n` stopped runs. -/
structure Sound (n : ℕ) (w : World py) : Prop where
  chain : FromPlan wr frames cfg plan w.chain
  file : ∀ reg, w.file.registry? = some reg →
    reg.Truthful sha256 wr frames cfg plan w.chain
  counted : ∀ i call, (∀ v ∈ cfg.wiring, plan.callOf wr frames v = .ok call → v.id = i) →
    w.chain.calls.count call ≤ n + if i ∈ w.file.recorded then 1 else 0

/-- Between two steps: the registry in memory is truthful and of the deployer, and the file has its
wiring. -/
structure Held (n : ℕ) (reg : Registry py) (w : World py) : Prop where
  sound : Sound sha256 wr frames cfg plan n w
  truthful : reg.Truthful sha256 wr frames cfg plan w.chain
  wiring : w.file.registry?.map (·.wiringDone) = some reg.wiringDone
  deployer : reg.deployer = some plan.deployer

/-- Between a call and its record. -/
def Unrecorded (n : ℕ) (reg : Registry py) (call : Call) (w : World py) : Prop :=
  ∃ w₀, Held sha256 wr frames cfg plan n reg w₀ ∧ w = { w₀ with chain := w₀.chain.called call }

/-- Where a run stops. -/
abbrev Stops (n : ℕ) : Fault (List String) → World py → Prop :=
  Counting (Sound sha256 wr frames cfg plan) n

end Sound

section Steps
variable {sha256 wr frames} {cfg : Config py} {plan : Resolver py} {c c' : Chain} {n : ℕ}
  {reg : Registry py} {name : String} {e : Entry py} {w : World py} {args : Args}

theorem Chain.Grows.refl (c : Chain) : c.Grows c := ⟨fun _ _ h => h, fun _ h => h, List.prefix_rfl⟩

theorem Entry.Holds.grows (h : e.Holds sha256 frames cfg plan c name) (hc : c.Grows c') :
    e.Holds sha256 frames cfg plan c' name := by
  constructor
  · obtain ⟨id, wasm, hid, hplan, hcode, hhash⟩ := h.deployed
    exact ⟨id, wasm, hid, hplan, hc.code id wasm hcode, hhash⟩
  · intro he
    obtain ⟨id, args, hplan, hinit, hargs, hk⟩ := h.initialized he
    exact ⟨id, args, hplan, hc.inits id hinit, hargs, hk⟩

theorem Registry.Truthful.grows (h : reg.Truthful sha256 wr frames cfg plan c) (hc : c.Grows c') :
    reg.Truthful sha256 wr frames cfg plan c' := by
  constructor
  · exact h.deployer
  · exact fun name e he => (h.entries name e he).grows hc
  · intro i hi
    obtain ⟨v, hv, hid, call, hmem, hcall⟩ := h.wired i hi
    exact ⟨v, hv, hid, call, hc.calls.subset hmem, hcall⟩

theorem Sound.stops (h : Sound sha256 wr frames cfg plan n w) (e : Fault (List String)) :
    Stops sha256 wr frames cfg plan n e w := by
  cases e with
  | error msgs => exact h
  | trap =>
    refine ⟨h.chain, h.file, fun i call hcall => ?_⟩
    have hcount := h.counted i call hcall
    omega

theorem Held.stops (h : Held sha256 wr frames cfg plan n reg w) (e : Fault (List String)) :
    Stops sha256 wr frames cfg plan n e w := h.sound.stops e

/-- A world whose chain has grown, but by no call of the deployer. -/
theorem Sound.grows {chain : Chain} (h : Sound sha256 wr frames cfg plan n w)
    (hfrom : FromPlan wr frames cfg plan chain) (hgrows : w.chain.Grows chain)
    (hcalls : chain.calls = w.chain.calls) :
    Sound sha256 wr frames cfg plan n { w with chain } := by
  refine ⟨hfrom, fun reg hreg => (h.file reg hreg).grows hgrows, ?_⟩
  rw [hcalls]
  exact h.counted

theorem Held.grows {chain : Chain} (h : Held sha256 wr frames cfg plan n reg w)
    (hfrom : FromPlan wr frames cfg plan chain) (hgrows : w.chain.Grows chain)
    (hcalls : chain.calls = w.chain.calls) :
    Held sha256 wr frames cfg plan n reg { w with chain } :=
  ⟨h.sound.grows hfrom hgrows hcalls, h.truthful.grows hgrows, h.wiring, h.deployer⟩

end Steps

/-! ### Rules for the steps -/

section Rules
variable {P : World py → Prop} {R : Fault (List String) → World py → Prop}

theorem triple_submit {answer : Chain → Proc} {effect : Chain → String → Chain}
    {Q : Proc → World py → Prop}
    (hok : ∀ w out, answer w.chain = .ok out → P w →
      Q (.ok out) { w with chain := effect w.chain out } ∧
        R .trap { w with chain := effect w.chain out })
    (herr : ∀ w stderr, answer w.chain = .error stderr → P w → Q (.error stderr) w)
    (hcut : ∀ w, P w → R .trap w) : Triple P (submit answer effect) Q R := by
  apply triple_write
  · intro proc w t h hw
    cases hf : answer w.chain with
    | ok out =>
      simp only [hf, Prod.mk.injEq, Except.ok.injEq] at h
      obtain ⟨rfl, rfl⟩ := h
      exact (hok w out hf hw).1
    | error stderr =>
      simp only [hf, Prod.mk.injEq, Except.ok.injEq] at h
      obtain ⟨rfl, rfl⟩ := h
      exact herr w stderr hf hw
  · intro e w t h hw
    cases hf : answer w.chain <;> simp [hf] at h
  · intro w hw
    refine ⟨hcut w hw, ?_⟩
    cases hf : answer w.chain with
    | ok out => exact (hok w out hf hw).2
    | error stderr => exact hcut w hw

theorem triple_save {reg : Registry py} {Q : World py → Prop}
    (hQ : ∀ w, P w → Q { w with file := .saved reg })
    (hcut : ∀ w, P w → R .trap w ∧ R .trap { w with file := .torn }) :
    Triple P (saveRegistry reg) (fun _ => Q) R := by
  apply triple_write
  · rintro ⟨⟩ w t h hw
    obtain ⟨rfl, -⟩ := Prod.mk.inj h
    exact hQ w hw
  · intro e w t h
    simp at h
  · exact hcut

theorem triple_die {α : Type} {msg : String} {Q : α → World py → Prop}
    (hR : ∀ e w, P w → R e w) : Triple P (check (die msg)) Q R :=
  triple_check nofun fun e w _ hw => hR e w hw

/-- The script exits if `p`. -/
theorem triple_guard {α : Type} {p : Prop} [Decidable p] {msg : String} {f : Unit → Action py α}
    {x : Action py α} {Q : α → World py → Prop} (hR : ∀ e w, P w → R e w)
    (h : ¬ p → Triple P x Q R) : Triple P (if p then check (die msg) >>= f else x) Q R := by
  by_cases hp : p
  · rw [if_pos hp]
    exact triple_check_bind hR nofun
  · rw [if_neg hp]
    exact h hp

end Rules

theorem reads_guard {α : Type} {p : Prop} [Decidable p] {msg : String} {f : Unit → Action py α}
    {x : Action py α} (h : ¬ p → Reads x) : Reads (if p then check (die msg) >>= f else x) :=
  fun P => triple_guard (fun _ _ hw => hw) fun hp => h hp P

section Steps
variable {sha256 wr frames} {cfg : Config py} {plan : Resolver py} {n : ℕ} {reg : Registry py}
  {name cid expected : String} {args : Args}

/-- A file that is torn says nothing. -/
theorem Sound.torn {w : World py} (h : Sound sha256 wr frames cfg plan n w) :
    Sound sha256 wr frames cfg plan (n + 1) { w with file := .torn } := by
  refine ⟨h.chain, nofun, fun i call hcall => ?_⟩
  have hcount := h.counted i call hcall
  show w.chain.calls.count call ≤ _
  split_ifs at hcount <;> omega

theorem Sound.save {w : World py} (h : Sound sha256 wr frames cfg plan n w)
    (hreg : reg.Truthful sha256 wr frames cfg plan w.chain)
    (hsub : w.file.recorded ⊆ reg.wiringDone) :
    Sound sha256 wr frames cfg plan n { w with file := .saved reg } := by
  refine ⟨h.chain, fun reg' hreg' => ?_, fun i call hcall => ?_⟩
  · cases hreg'
    exact hreg
  · have hcount := h.counted i call hcall
    show w.chain.calls.count call ≤ n + if i ∈ reg.wiringDone then 1 else 0
    by_cases hi : i ∈ w.file.recorded
    · rw [if_pos hi] at hcount
      rw [if_pos (hsub hi)]
      exact hcount
    · rw [if_neg hi] at hcount
      omega

theorem Held.recorded {w : World py} (h : Held sha256 wr frames cfg plan n reg w) :
    w.file.recorded = reg.wiringDone := by
  rw [File.recorded, h.wiring]
  rfl

theorem grows_deployed {c : Chain} {id : String} {wasm : Bytes} (h : c.code id = none) :
    c.Grows (c.deployed id wasm) := by
  refine ⟨fun id' wasm' h' => h'.imp_left fun h' => ?_, fun _ hi => hi, List.prefix_rfl⟩
  have hne : id' ≠ id := by
    rintro rfl
    rw [h] at h'
    cases h'
  exact (Function.update_of_ne hne ..).trans h'

/-- The code of a contract that is upgraded is remembered. -/
theorem grows_upgraded (c : Chain) (id : String) (wasm : Bytes) : c.Grows (c.upgraded id wasm) := by
  rw [Chain.upgraded]
  split
  case h_2 => exact .refl c
  case h_1 old hold =>
  refine ⟨fun id' wasm' h => ?_, fun _ hi => hi, List.prefix_rfl⟩
  rw [Chain.Had]
  dsimp only
  by_cases hid : id' = id
  · subst hid
    rw [Function.update_self, Function.update_self, List.mem_append, List.mem_singleton]
    rcases h with h | h
    · exact .inr (.inr (Option.some.inj (h.symm.trans hold)))
    · exact .inr (.inl h)
  · rw [Function.update_of_ne hid, Function.update_of_ne hid]
    exact h

theorem grows_initialized {c : Chain} {id : String} {options : List (String × String)}
    {ours : Bool} : c.Grows (c.initialized id options ours) := by
  refine ⟨fun _ _ h => h, fun id' h => ?_, List.prefix_rfl⟩
  by_cases hid : id' = id
  · subst hid
    simp [Chain.initialized]
  · simpa [Chain.initialized, Function.update_of_ne hid] using h

theorem grows_called (c : Chain) (call : Call) : c.Grows (c.called call) :=
  ⟨fun _ _ h => h, fun _ h => h, List.prefix_append _ _⟩

/-- An entry that is put, is of a contract with the code it names. -/
theorem Registry.Truthful.put {c : Chain} {e : Entry py}
    (h : reg.Truthful sha256 wr frames cfg plan c)
    (he : e.Holds sha256 frames cfg plan c name) :
    (reg.put name e).Truthful sha256 wr frames cfg plan c := by
  refine ⟨h.deployer, fun name' e' he' => ?_, h.wired⟩
  rw [Registry.put, Dict.get?_insert] at he'
  split_ifs at he' with hname
  · obtain rfl := Option.some.inj he'
    exact hname ▸ he
  · exact h.entries name' e' he'

theorem FromPlan.called {c : Chain} (h : FromPlan wr frames cfg plan c) {v : WiringConfig py}
    (hv : v ∈ cfg.wiring) {call : Call} (hcall : plan.callOf wr frames v = .ok call) :
    FromPlan wr frames cfg plan (c.called call) := by
  refine ⟨h.inits, fun call' hmem => ?_⟩
  rcases List.mem_append.mp hmem with hmem | hmem
  · exact h.calls call' hmem
  · rw [List.mem_singleton] at hmem
    exact ⟨v, hv, hmem ▸ hcall⟩

/-- A call that went through and is not recorded is one that a stopped run accounts for. -/
theorem Held.called {w : World py} (h : Held sha256 wr frames cfg plan n reg w)
    {v : WiringConfig py} (hv : v ∈ cfg.wiring) {call : Call}
    (hcall : plan.callOf wr frames v = .ok call) :
    Sound sha256 wr frames cfg plan (n + 1) { w with chain := w.chain.called call } := by
  refine ⟨h.sound.chain.called hv hcall, fun reg' hreg' => ?_, fun i call' hi => ?_⟩
  · exact (h.sound.file reg' hreg').grows (grows_called w.chain call)
  · have hcount := h.sound.counted i call' hi
    show (w.chain.calls ++ [call]).count call' ≤ n + 1 + if i ∈ w.file.recorded then 1 else 0
    have hone := List.count_le_length (a := call') (l := [call])
    rw [List.length_singleton] at hone
    rw [List.count_append]
    omega

/-- A call that is recorded counts once. -/
theorem Held.record {w : World py} (h : Held sha256 wr frames cfg plan n reg w)
    {v : WiringConfig py} (hv : v ∈ cfg.wiring) (hnew : v.id ∉ reg.wiringDone) {call : Call}
    (hcall : plan.callOf wr frames v = .ok call) :
    Held sha256 wr frames cfg plan n { reg with wiringDone := reg.wiringDone ++ [v.id] }
      { chain := w.chain.called call
        file := .saved { reg with wiringDone := reg.wiringDone ++ [v.id] } } := by
  have hgrown := h.truthful.grows (grows_called w.chain call)
  have htruthful : Registry.Truthful sha256 wr frames cfg plan (w.chain.called call)
      { reg with wiringDone := reg.wiringDone ++ [v.id] } := by
    refine ⟨hgrown.deployer, hgrown.entries, fun i hi => ?_⟩
    rcases List.mem_append.mp hi with hi | hi
    · exact hgrown.wired i hi
    · rw [List.mem_singleton] at hi
      exact ⟨v, hv, hi.symm, call, List.mem_append_right _ (List.mem_singleton_self call), hcall⟩
  refine ⟨⟨h.sound.chain.called hv hcall, fun reg' hreg' => ?_, fun i call' hi => ?_⟩, htruthful,
    rfl, h.deployer⟩
  · cases hreg'
    exact htruthful
  · have hcount := h.sound.counted i call' hi
    rw [h.recorded] at hcount
    show (w.chain.calls ++ [call]).count call' ≤
      n + if i ∈ reg.wiringDone ++ [v.id] then 1 else 0
    rw [List.count_append, List.count_singleton]
    by_cases hsame : call = call'
    · subst hsame
      obtain rfl := hi v hv hcall
      rw [if_neg hnew] at hcount
      simpa using hcount
    · have hother : (call == call') = false := beq_eq_false_iff_ne.mpr hsame
      rw [hother]
      by_cases hmem : i ∈ reg.wiringDone
      · rw [if_pos hmem] at hcount
        rw [if_pos (List.mem_append_left _ hmem)]
        simpa using hcount
      · rw [if_neg hmem] at hcount
        simp only [Bool.false_eq_true, ↓reduceIte]
        omega

end Steps

end RefractContracts.Deployment
