import RefractContracts.Operator.Plans

/-! What an accepted command line leads to. A switch is on when it was given as a switch: a
switch with a value is kept among the values, which no switch is read from. So a plan is dry
when `--dry-run` was given and not when only `--dry-run=true` was, a mutating plan on mainnet
has `--confirm-mainnet`, and the identity that signs is the last `--source`, which may be a
private key in hex but no secret seed. -/

namespace RefractContracts.Operator

open Host
open Xtask (trim isHexDigit)

/-! ### The options given -/

/-- The options of a command line in order, with the values given to those that have one. -/
def optionsGiven : List String → List (String × Option String)
  | [] => []
  | tok :: args =>
    match stripDashes tok with
    | none => []
    | some rest =>
      match splitOnce '=' rest with
      | some (k, v) => (.ofList k, some (.ofList v)) :: optionsGiven args
      | none =>
        let key := String.ofList rest
        if key ∈ switches then (key, none) :: optionsGiven args
        else
          match args with
          | [] => []
          | val :: args => (key, some val) :: optionsGiven args

/-- The value an option gives to a key. -/
def valueFor (key : String) (o : String × Option String) : Option String :=
  if o.1 = key then o.2 else none

/-- The last value given for a key. -/
def lastValue (key : String) (l : List (String × Option String)) : Option String :=
  (l.filterMap (valueFor key)).getLast?

/-- The options of a whole command line. -/
def givenOptions (args : List String) : List (String × Option String) :=
  optionsGiven ((operatorSlice args).drop 2)

namespace FlagParser

variable {fp fp' : FlagParser} {args : List String} {key : String}

/-- An option as the parser keeps it. -/
def record (fp : FlagParser) (o : String × Option String) : FlagParser :=
  match o.2 with
  | none => { fp with bools := fp.bools.insert o.1 true }
  | some v => { fp with flags := fp.flags.insert o.1 v }

theorem parseFrom_eq (h : fp.parseFrom args = .ok fp') :
    (optionsGiven args).foldl record fp = fp' := by
  fun_induction parseFrom fp args with
  | case1 fp => simpa [optionsGiven] using h
  | case2 => cases h
  | case3 fp tok args rest hdash k v hsplit ih =>
    simp only [optionsGiven, hdash, hsplit, List.foldl_cons]
    exact ih h
  | case4 fp tok args rest hdash hsplit key hkey ih =>
    simp only [optionsGiven, hdash, hsplit, key, if_pos hkey, List.foldl_cons]
    exact ih h
  | case5 => cases h
  | case6 fp tok rest hdash hsplit key hkey val args ih =>
    simp only [optionsGiven, hdash, hsplit, key, if_neg hkey, List.foldl_cons]
    exact ih h

theorem hasBool_record (fp : FlagParser) (o : String × Option String) :
    (fp.record o).hasBool key ↔ o = (key, none) ∨ fp.hasBool key := by
  obtain ⟨k, _ | v⟩ := o
  · simp only [record, hasBool, Std.TreeMap.getD_insert, Std.LawfulEqCmp.compare_eq_iff_eq]
    split_ifs with hk <;> simp [hk]
  · simp [record, hasBool]

theorem optional_record (fp : FlagParser) (o : String × Option String) :
    (fp.record o).optional key = (valueFor key o <|> fp.optional key) := by
  obtain ⟨k, _ | v⟩ := o
  · simp [record, optional, valueFor]
  · simp only [record, optional, valueFor, Std.TreeMap.getElem?_insert,
      Std.LawfulEqCmp.compare_eq_iff_eq]
    split_ifs with hk <;> simp

theorem hasBool_foldl (fp : FlagParser) (l : List (String × Option String)) :
    (l.foldl record fp).hasBool key ↔ (key, none) ∈ l ∨ fp.hasBool key := by
  induction l generalizing fp with
  | nil => simp
  | cons o l ih =>
    rw [List.foldl_cons, ih, hasBool_record, List.mem_cons, or_left_comm, eq_comm, or_assoc]

theorem optional_foldl (fp : FlagParser) (l : List (String × Option String)) :
    (l.foldl record fp).optional key = (lastValue key l <|> fp.optional key) := by
  induction l generalizing fp with
  | nil => rfl
  | cons o l ih =>
    rw [List.foldl_cons, ih, optional_record, lastValue, lastValue]
    cases ho : valueFor key o with
    | none =>
      rw [List.filterMap_cons_none ho]
      rfl
    | some v =>
      rw [List.filterMap_cons_some ho, List.getLast?_cons]
      cases (l.filterMap _).getLast? <;> rfl

theorem hasBool_parse (h : parse args = .ok fp) :
    fp.hasBool key ↔ (key, none) ∈ optionsGiven args := by
  rw [← parseFrom_eq h, hasBool_foldl]
  simp [hasBool]

theorem optional_parse (h : parse args = .ok fp) :
    fp.optional key = lastValue key (optionsGiven args) := by
  rw [← parseFrom_eq h, optional_foldl]
  simp [optional]

end FlagParser

/-! ### The command -/

section Command
variable {fp : FlagParser} {domain action : String} {network : Network} {dry confirm : Bool}
variable {cmd : OperatorCommand}

/-- `check-claim` is given a record to look up. -/
def OperatorCommand.HasLookup : OperatorCommand → Prop
  | .bountyCheckClaim _ payoutId reportHash _ => payoutId.isSome ∨ reportHash.isSome
  | _ => True

/-- What a command has from the options: the network and the two switches, the identity that
signs, and something to look up. -/
structure Parsed (fp : FlagParser) (network : Network) (dry confirm : Bool)
    (cmd : OperatorCommand) : Prop where
  network : cmd.network = network
  dryRun : cmd.dryRun = dry
  confirmMainnet : cmd.isMutating → cmd.confirmMainnet = confirm
  source : ∀ source, cmd.source = some source → requireSource fp = .ok source
  lookup : cmd.HasLookup

/-- A command that is signed has its identity from the options. -/
theorem Parsed.of_signed {source : String} (hsource : requireSource fp = .ok source)
    (hsigned : cmd.source = some source) (hnetwork : cmd.network = network)
    (hdryRun : cmd.dryRun = dry) (hconfirm : cmd.confirmMainnet = confirm)
    (hlookup : cmd.HasLookup) : Parsed fp network dry confirm cmd where
  network := hnetwork
  dryRun := hdryRun
  confirmMainnet _ := hconfirm
  source _ hs := Option.some_inj.mp (hsigned.symm.trans hs) ▸ hsource
  lookup := hlookup

theorem Parsed.of_query (hsource : cmd.source = none) (hmut : cmd.isMutating = false)
    (hnetwork : cmd.network = network) (hdryRun : cmd.dryRun = dry) (hlookup : cmd.HasLookup) :
    Parsed fp network dry confirm cmd where
  network := hnetwork
  dryRun := hdryRun
  confirmMainnet h := absurd h (Bool.eq_false_iff.mp hmut)
  source _ hs := by rw [hsource] at hs; cases hs
  lookup := hlookup

theorem parseSubcommand_parsed
    (h : parseSubcommand fp domain action network dry confirm = .ok cmd) :
    Parsed fp network dry confirm cmd := by
  unfold parseSubcommand at h
  split at h
  any_goals simp only [bind_eq_ok, pure_eq_ok, bail_eq_ok] at h
  · obtain ⟨source, hsource, -, -, -, -, -, -, -, -, rfl⟩ := h
    exact .of_signed hsource rfl rfl rfl rfl trivial
  · obtain ⟨source, hsource, -, -, -, -, -, -, -, -, rfl⟩ := h
    exact .of_signed hsource rfl rfl rfl rfl trivial
  · obtain ⟨-, -, rfl⟩ := h
    exact .of_query rfl rfl rfl rfl trivial
  · obtain ⟨source, hsource, -, -, -, -, -, -, rfl⟩ := h
    exact .of_signed hsource rfl rfl rfl rfl trivial
  · obtain ⟨payoutId, -, reportHash, -, -, hlookup, rfl⟩ := h
    refine .of_query rfl rfl rfl rfl ?_
    rw [OperatorCommand.HasLookup, Option.isSome_iff_ne_none, Option.isSome_iff_ne_none]
    rw [Option.isNone_iff_eq_none, Option.isNone_iff_eq_none] at hlookup
    exact not_and_or.mp hlookup
  · subst h
    exact .of_query rfl rfl rfl rfl trivial
  · obtain ⟨source, hsource, -, -, -, -, -, -, -, -, -, -, rfl⟩ := h
    exact .of_signed hsource rfl rfl rfl rfl trivial
  · obtain ⟨-, -, rfl⟩ := h
    exact .of_query rfl rfl rfl rfl trivial
  · obtain ⟨source, hsource, -, -, -, -, -, -, -, -, rfl⟩ := h
    exact .of_signed hsource rfl rfl rfl rfl trivial
  · obtain ⟨source, hsource, -, -, -, -, -, -, -, -, -, -, -, -, -, -, -, -, rfl⟩ := h
    exact .of_signed hsource rfl rfl rfl rfl trivial
  · obtain ⟨-, -, rfl⟩ := h
    exact .of_query rfl rfl rfl rfl trivial
  · cases h

variable {args : List String} {deploymentsDir : Option String} {jsonOutput : Bool}

theorem parseOperatorArgs_parsed
    (h : parseOperatorArgs args = .ok (cmd, deploymentsDir, jsonOutput)) :
    ∃ fp, FlagParser.parse ((operatorSlice args).drop 2) = .ok fp ∧
      Parsed fp cmd.network (fp.hasBool "dry-run") (fp.hasBool "confirm-mainnet") cmd := by
  unfold parseOperatorArgs at h
  split at h
  · rename_i domain action options hslice
    simp only [bind_eq_ok, pure_eq_ok, Prod.mk.injEq] at h
    obtain ⟨fp, hfp, network, -, cmd', hcmd, rfl, -, -⟩ := h
    have hparsed := parseSubcommand_parsed hcmd
    rw [hslice, List.drop_succ_cons, List.drop_succ_cons, List.drop_zero]
    rw [← hparsed.network] at hparsed
    exact ⟨fp, hfp, hparsed⟩
  · cases h

end Command

/-! ### The plan -/

section Plan
variable {cmd : OperatorCommand} {deployment : NetworkDeployment} {dir : DeploymentsDir}
variable {plan : OperatorPlan}

/-- Some step of the plan sends a transaction. -/
def OperatorPlan.Sends (plan : OperatorPlan) : Prop := ∃ step ∈ plan.steps, step.readOnly = false

/-- What a plan has from its command: every step of a mutating command sends, none of the others
does, and mainnet was confirmed to a mutating one. -/
structure Planned (cmd : OperatorCommand) (plan : OperatorPlan) : Prop where
  network : plan.network = cmd.network
  dryRun : plan.dryRun = cmd.dryRun
  mutating : plan.mutating = cmd.isMutating
  readOnly : ∀ step ∈ plan.steps, step.readOnly = !cmd.isMutating
  confirmed : cmd.isMutating → cmd.network = .mainnet → cmd.confirmMainnet
  steps : cmd.HasLookup → plan.steps ≠ []

theorem requireConfirmation_eq_ok {network : Network} {confirmMainnet : Bool} {u : Unit} :
    requireConfirmation network confirmMainnet = .ok u ↔ (network = .mainnet → confirmMainnet) := by
  rw [requireConfirmation, bail_eq_ok, not_and, not_not]

theorem planOn_planned (h : planOn deployment cmd = .ok plan) : Planned cmd plan := by
  cases cmd <;> simp only [planOn, bind_eq_ok, pure_eq_ok, requireConfirmation_eq_ok] at h
  case backstopStake | backstopUnstake | bountyFund | grantsApproveMilestone =>
    obtain ⟨-, hconfirm, -, -, rfl⟩ := h
    exact ⟨rfl, rfl, rfl, List.forall_mem_singleton.mpr rfl, fun _ => hconfirm,
      fun _ => List.cons_ne_nil _ _⟩
  case treasuryDeposit | treasuryProposeWithdrawal =>
    obtain ⟨-, hconfirm, -, -, -, -, rfl⟩ := h
    exact ⟨rfl, rfl, rfl, List.forall_mem_singleton.mpr rfl, fun _ => hconfirm,
      fun _ => List.cons_ne_nil _ _⟩
  case backstopStatus | bountyStatus | grantsStatus | treasuryStatus =>
    obtain ⟨-, -, rfl⟩ := h
    exact ⟨rfl, rfl, rfl, by simp [queryStep, OperatorCommand.isMutating],
      fun hmut => absurd hmut Bool.false_ne_true, by simp⟩
  case bountyCheckClaim =>
    obtain ⟨-, -, rfl⟩ := h
    refine ⟨rfl, rfl, rfl, by simp [queryStep, OperatorCommand.isMutating, or_imp, forall_and],
      fun hmut => absurd hmut Bool.false_ne_true, fun hlookup => ?_⟩
    rcases hlookup with h | h <;> simp [Option.ne_none_iff_isSome.mpr h]

theorem buildPlan_planned (h : buildPlan cmd dir = .ok plan) : Planned cmd plan := by
  rw [buildPlan, bind_eq_ok] at h
  obtain ⟨deployment, -, hplan⟩ := h
  exact planOn_planned hplan

theorem Planned.mutates (h : Planned cmd plan) (hs : plan.mutating ∨ plan.Sends) :
    cmd.isMutating := by
  rcases hs with hs | ⟨step, hstep, hsends⟩
  · rw [← h.mutating]
    exact hs
  · have hread := h.readOnly step hstep
    rw [hsends] at hread
    cases hmut : cmd.isMutating with
    | true => rfl
    | false => rw [hmut] at hread; cases hread

end Plan

/-! ### The execution -/

section Execution
variable (m : Machine) (bin : String) {plan : OperatorPlan} (jsonOutput : Bool)

/-- The steps run are the first ones of the plan, one at least if it has any. -/
theorem runSteps_ran (steps : List InvokeStep) (ran : List (List String))
    (results : List StepResult) :
    ∃ n, (runSteps m bin steps ran results).1 =
        ran ++ (steps.take n).map (fun step => bin :: step.toStellarArgs) ∧
      (steps ≠ [] → 0 < n) ∧
      ((runSteps m bin steps ran results).2.isOk → n = steps.length) := by
  induction steps generalizing ran results with
  | nil => exact ⟨0, by simp [runSteps], fun h => absurd rfl h, fun _ => rfl⟩
  | cons step steps ih =>
    rw [runSteps]
    split
    · exact ⟨1, by simp, fun _ => Nat.one_pos, nofun⟩
    · split_ifs
      · obtain ⟨n, hran, -, hdone⟩ := ih (ran ++ [bin :: step.toStellarArgs])
          (results ++ [⟨step.description, step.function, trim _⟩])
        refine ⟨n + 1, by rw [hran]; simp, fun _ => Nat.succ_pos n, fun h => ?_⟩
        rw [hdone h, List.length_cons]
      · exact ⟨1, by simp, fun _ => Nat.one_pos, nofun⟩

theorem executePlan_dry (h : plan.dryRun = true) : (executePlan m plan jsonOutput).1 = [] := by
  rw [executePlan, if_pos h]
  split_ifs <;> rfl

theorem isOk_of_bind {α β : Type} {x : Call α} {f : α → Call β} (h : (x >>= f).isOk) : x.isOk := by
  cases x with
  | error e => exact h
  | ok a => rfl

/-- Of a plan that is not dry the first steps are run, and all of them if it succeeds. -/
theorem executePlan_ran (h : plan.dryRun = false) :
    ∃ n, (executePlan m plan jsonOutput).1 = (plan.steps.take n).map
        (fun step => m.stellarBin.getD "stellar" :: step.toStellarArgs) ∧
      (plan.steps ≠ [] → 0 < n) ∧
      ((executePlan m plan jsonOutput).2.isOk → n = plan.steps.length) := by
  obtain ⟨n, hran, hpos, hdone⟩ :=
    runSteps_ran m (m.stellarBin.getD "stellar") plan.steps [] []
  rw [executePlan, if_neg (Bool.not_eq_true _ ▸ h)]
  exact ⟨n, hran, hpos, fun hok => hdone (isOk_of_bind hok)⟩

theorem executePlan_ran_eq_nil (hsteps : plan.steps ≠ []) :
    (executePlan m plan jsonOutput).1 = [] ↔ plan.dryRun = true := by
  refine ⟨fun h => ?_, executePlan_dry m jsonOutput⟩
  by_contra hdry
  obtain ⟨n, hran, hpos, -⟩ :=
    executePlan_ran m jsonOutput (Bool.eq_false_iff.mpr hdry)
  rw [h, eq_comm, List.map_eq_nil_iff, List.take_eq_nil_iff] at hran
  rcases hran with h0 | hnil
  · exact (hpos hsteps).ne' h0
  · exact hsteps hnil

end Execution

/-! ### The gate -/

section Gate
variable {args : List String} {cmd : OperatorCommand} {deploymentsDir : Option String}
variable {jsonOutput : Bool} {dir : DeploymentsDir} {plan : OperatorPlan} {source : String}

/-- A dry run is asked for in either spelling of an option. -/
def AsksDryRun (args : List String) : Prop :=
  ("dry-run", none) ∈ givenOptions args ∨ ("dry-run", some "true") ∈ givenOptions args

theorem plan_dryRun_iff (hparse : parseOperatorArgs args = .ok (cmd, deploymentsDir, jsonOutput))
    (hbuild : buildPlan cmd dir = .ok plan) :
    plan.dryRun = true ↔ ("dry-run", none) ∈ givenOptions args := by
  obtain ⟨fp, hfp, hparsed⟩ := parseOperatorArgs_parsed hparse
  rw [(buildPlan_planned hbuild).dryRun, hparsed.dryRun, FlagParser.hasBool_parse hfp]
  rfl

/-- A mutating plan on mainnet was confirmed. -/
theorem confirmed_of_mutates
    (hparse : parseOperatorArgs args = .ok (cmd, deploymentsDir, jsonOutput))
    (hbuild : buildPlan cmd dir = .ok plan) (hmutates : plan.mutating ∨ plan.Sends)
    (hmainnet : plan.network = .mainnet) : ("confirm-mainnet", none) ∈ givenOptions args := by
  obtain ⟨fp, hfp, hparsed⟩ := parseOperatorArgs_parsed hparse
  have hplanned := buildPlan_planned hbuild
  have hmut := hplanned.mutates hmutates
  have hconfirm := hplanned.confirmed hmut (hplanned.network ▸ hmainnet)
  rw [hparsed.confirmMainnet hmut] at hconfirm
  exact (FlagParser.hasBool_parse hfp).mp hconfirm

/-- Nothing is run where a dry run was asked for, if no `--dry-run=true` stands without a
`--dry-run`; a mutating plan on mainnet is always confirmed. -/
theorem operator_gate_iff (m : Machine) (args : List String) (cmd : OperatorCommand)
    (deploymentsDir : Option String) (jsonOutput : Bool) (dir : DeploymentsDir)
    (plan : OperatorPlan)
    (hparse : parseOperatorArgs args = .ok (cmd, deploymentsDir, jsonOutput))
    (hbuild : buildPlan cmd dir = .ok plan) :
    ((AsksDryRun args → (executePlan m plan jsonOutput).1 = []) ∧
      (plan.mutating ∨ plan.Sends → plan.network = .mainnet →
        ("confirm-mainnet", none) ∈ givenOptions args)) ↔
      (("dry-run", some "true") ∈ givenOptions args → ("dry-run", none) ∈ givenOptions args) := by
  obtain ⟨fp, -, hparsed⟩ := parseOperatorArgs_parsed hparse
  have hsteps := (buildPlan_planned hbuild).steps hparsed.lookup
  rw [executePlan_ran_eq_nil m jsonOutput hsteps, plan_dryRun_iff hparse hbuild, AsksDryRun, or_imp]
  exact ⟨fun h => h.1.2, fun h => ⟨⟨id, h⟩, confirmed_of_mutates hparse hbuild⟩⟩

/-- The deployment of a bounty contract alone. -/
def bountyDir : DeploymentsDir where
  path name := "deployments/" ++ name
  file name := if name = "local.json" then
      .value (.object [("contracts", .object [("refract_bounty",
        .object [("contract_id", .string "CBOUNTY")])])])
    else .unreadable "No such file or directory"

/-- A machine where every program prints nothing and succeeds. -/
def quietMachine : Machine where
  stellarBin := none
  run _ _ := .ok ⟨true, "", ""⟩
  printPlan _ := ""
  printResults _ _ := ""

def fundArgs (source last : String) : List String :=
  ["bounty", "fund", "--source", source, "--amount", "1", last]

def fundCommand (source : String) (dryRun : Bool) : OperatorCommand :=
  .bountyFund .local source source 10000000 dryRun false

def fundPlan (source : String) (dryRun : Bool) : OperatorPlan where
  domain := "bounty"
  action := "fund"
  network := .local
  dryRun := dryRun
  mutating := true
  summary := .object [("contract", .string "refract_bounty"), ("contract_id", .string "CBOUNTY"),
    ("from", .string source), ("amount_1e7", .string "10000000"),
    ("amount_decimal", .string "1.0000000")]
  steps := [⟨"Fund refract_bounty escrow with 1.0000000 (10000000 stroops)", "refract_bounty",
    "CBOUNTY", "local", "http://localhost:8000/rpc", "Standalone Network ; February 2017",
    some source, false, "fund", [("from", source), ("amount", "10000000")]⟩]

theorem buildPlan_fund (source : String) (dryRun : Bool) :
    buildPlan (fundCommand source dryRun) bountyDir = .ok (fundPlan source dryRun) := by rfl

theorem operator_gate_dry_run :
    (AsksDryRun (fundArgs "alice" "--dry-run") →
      (executePlan quietMachine (fundPlan "alice" true) false).1 = []) ∧
    ((fundPlan "alice" true).mutating ∨ (fundPlan "alice" true).Sends →
      (fundPlan "alice" true).network = .mainnet →
      ("confirm-mainnet", none) ∈ givenOptions (fundArgs "alice" "--dry-run")) :=
  (operator_gate_iff quietMachine (fundArgs "alice" "--dry-run") (fundCommand "alice" true) none
    false bountyDir (fundPlan "alice" true) (by decide +kernel) (buildPlan_fund "alice" true)).mpr
    fun _ => by decide +kernel

/-- With `--dry-run=true` the transaction is sent. -/
theorem dryRunValue_executed : ¬ ∀ (m : Machine) (args : List String) (cmd : OperatorCommand)
    (deploymentsDir : Option String) (jsonOutput : Bool) (dir : DeploymentsDir)
    (plan : OperatorPlan), parseOperatorArgs args = .ok (cmd, deploymentsDir, jsonOutput) →
    buildPlan cmd dir = .ok plan → AsksDryRun args → (executePlan m plan jsonOutput).1 = [] := by
  intro h
  have hnone := h quietMachine (fundArgs "alice" "--dry-run=true") (fundCommand "alice" false) none
    false bountyDir (fundPlan "alice" false) (by decide +kernel) (buildPlan_fund "alice" false)
    (.inr (by decide +kernel))
  exact absurd hnone (List.cons_ne_nil _ _)

/-! ### The identity that signs -/

/-- A secret seed: `S` and 55 base32 characters. -/
def IsSecretSeed (s : List Char) : Prop :=
  ∃ rest, s = 'S' :: rest ∧ rest.length = 55 ∧ ∀ c ∈ rest, isSeedChar c

/-- A private key in hex. -/
def IsHexKey (s : List Char) : Prop := s.length = 64 ∧ ∀ c ∈ s, isHexDigit c

theorem isSeedChar_lt {c : Char} (h : isSeedChar c) : c.toNat < 128 := by
  simp only [isSeedChar, Char.le_def, UInt32.le_iff_toNat_le, decide_eq_true_eq] at h
  have hZ : 'Z'.val.toNat = 90 := rfl
  have h7 : '7'.val.toNat = 55 := rfl
  change c.val.toNat < 128
  omega

theorem isSecretSeed_rejected {s : List Char} (h : IsSecretSeed s) :
    byteLength s = 56 ∧ s.head? = some 'S' ∧ s.all isSeedChar := by
  obtain ⟨rest, rfl, hlen, hseed⟩ := h
  have hall : ∀ c ∈ 'S' :: rest, isSeedChar c := List.forall_mem_cons.mpr ⟨by decide, hseed⟩
  refine ⟨?_, rfl, List.all_eq_true.mpr hall⟩
  rw [byteLength_eq fun c hc => isSeedChar_lt (hall c hc), List.length_cons, hlen]

theorem command_source (hparse : parseOperatorArgs args = .ok (cmd, deploymentsDir, jsonOutput))
    (hsource : cmd.source = some source) :
    lastValue "source" (givenOptions args) = some source ∧
      validateSourceIdentity source = .ok () := by
  obtain ⟨fp, hfp, hparsed⟩ := parseOperatorArgs_parsed hparse
  have hreq := hparsed.source source hsource
  simp only [requireSource, bind_eq_ok, pure_eq_ok, FlagParser.require, okOr_eq_ok] at hreq
  obtain ⟨s, hs, _, hvalid, rfl⟩ := hreq
  refine ⟨?_, hvalid⟩
  rw [← hs]
  exact (FlagParser.optional_parse hfp).symm

/-- The identity that signs is never a secret seed. -/
theorem source_not_seed (hvalid : validateSourceIdentity source = .ok ()) :
    ¬ IsSecretSeed (trim source).toList := by
  intro hseed
  simp only [validateSourceIdentity, bind_eq_ok, bail_eq_ok] at hvalid
  obtain ⟨-, -, hno⟩ := hvalid
  exact hno (isSecretSeed_rejected hseed)

/-- It is no raw secret exactly when the last `--source` is no private key in hex. -/
theorem source_refused_iff (args : List String) (cmd : OperatorCommand)
    (deploymentsDir : Option String) (jsonOutput : Bool) (source : String)
    (hparse : parseOperatorArgs args = .ok (cmd, deploymentsDir, jsonOutput))
    (hsource : cmd.source = some source) :
    (¬ IsSecretSeed (trim source).toList ∧ ¬ IsHexKey (trim source).toList) ↔
      ∀ given, lastValue "source" (givenOptions args) = some given →
        ¬ IsHexKey (trim given).toList := by
  obtain ⟨hlast, hvalid⟩ := command_source hparse hsource
  rw [hlast]
  constructor
  · rintro ⟨-, hhex⟩ given ⟨⟩
    exact hhex
  · intro h
    exact ⟨source_not_seed hvalid, h source rfl⟩

theorem source_refused_alias :
    ¬ IsSecretSeed (trim "alice").toList ∧ ¬ IsHexKey (trim "alice").toList :=
  (source_refused_iff (fundArgs "alice" "--dry-run") (fundCommand "alice" true) none false "alice"
    (by decide +kernel) rfl).mpr fun _ hgiven => by
      have hlast : lastValue "source" (givenOptions (fundArgs "alice" "--dry-run")) =
          some "alice" := by
        decide +kernel
      rw [hlast] at hgiven
      cases hgiven
      exact fun hkey => absurd hkey.1 (by decide)

/-- A private key of 64 hex digits. -/
def hexKey : String := .ofList (List.replicate 64 'a')

/-- A private key in hex is accepted as the identity that signs. -/
theorem hexKey_accepted : ¬ ∀ (args : List String) (cmd : OperatorCommand)
    (deploymentsDir : Option String) (jsonOutput : Bool) (source : String),
    parseOperatorArgs args = .ok (cmd, deploymentsDir, jsonOutput) → cmd.source = some source →
    ¬ IsSecretSeed (trim source).toList ∧ ¬ IsHexKey (trim source).toList := by
  intro h
  have hkey := h (fundArgs hexKey "--dry-run") (fundCommand hexKey true) none false hexKey
    (by decide +kernel) rfl
  exact hkey.2 ⟨by decide +kernel, List.all_eq_true.mp (by decide +kernel)⟩

end Gate

end RefractContracts.Operator