import RefractContracts.Host.Shell
import RefractContracts.Operator.Plans

/-! The command line printed for a step. An argument with a blank or a semicolon is put between
double quotes as it is, any other one is printed bare, so a shell reads the arguments back
exactly when each of them can stand that way. -/

namespace RefractContracts.Operator

open Host

/-- An argument that can stand as it is printed. -/
def ShellSafe (arg : String) : Prop :=
  if ' ' ∈ arg.toList ∨ ';' ∈ arg.toList then Shell.Enclosable arg.toList
  else Shell.Bare arg.toList

instance (arg : String) : Decidable (ShellSafe arg) := inferInstanceAs (Decidable (ite _ _ _))

/-- Everything a step prints can stand as it is printed. -/
structure InvokeStep.Printable (step : InvokeStep) : Prop where
  contractId : ShellSafe step.contractId
  rpcUrl : ShellSafe step.rpcUrl
  networkPassphrase : ShellSafe step.networkPassphrase
  source : ∀ src, step.source = some src → ShellSafe src
  function : ShellSafe step.function
  args : ∀ arg ∈ step.args, ShellSafe ("--" ++ arg.1) ∧ ShellSafe arg.2

/-- The part of the line that an argument is printed as. -/
def partOf (arg : String) : Shell.Part :=
  ⟨arg.toList, ' ' ∈ arg.toList ∨ ';' ∈ arg.toList⟩

variable {step : InvokeStep} {arg : String} {args : List String}

theorem enclosed_partOf : (partOf arg).enclosed = true ↔ ' ' ∈ arg.toList ∨ ';' ∈ arg.toList :=
  decide_eq_true_iff

theorem safe_partOf : (partOf arg).Safe ↔ ShellSafe arg := by
  simp only [Shell.Part.Safe, ShellSafe, enclosed_partOf]
  rfl

theorem quoted_partOf (arg : String) : (partOf arg).Quoted := by
  intro h
  rcases enclosed_partOf.mp h with h | h
  · exact ⟨' ', h, .inl (.inl rfl)⟩
  · exact ⟨';', h, .inr (.inr rfl)⟩

theorem source_partOf (arg : String) : (partOf arg).source = (shellPart arg).toList := by
  simp only [Shell.Part.source, shellPart, enclosed_partOf]
  split_ifs
  · simp only [String.toList_append]
    rfl
  · rfl

/-- A printed line is the line of its parts after the first blank. -/
theorem line_partOf (arg : String) (args : List String) :
    Shell.line ((arg :: args).map partOf) =
      ' ' :: (" ".intercalate ((arg :: args).map shellPart)).toList := by
  induction args generalizing arg with
  | nil =>
    rw [List.map_singleton, List.map_singleton, String.intercalate_singleton, Shell.line,
      List.flatMap_singleton, source_partOf]
  | cons arg' args ih =>
    have hline : Shell.line ((arg :: arg' :: args).map partOf) =
        ' ' :: (partOf arg).source ++ Shell.line ((arg' :: args).map partOf) := rfl
    rw [hline, ih, source_partOf, List.map_cons, List.map_cons, List.map_cons,
      String.intercalate_cons_cons, String.toList_append, String.toList_append, List.append_assoc]
    rfl

theorem printable_iff : (∀ arg ∈ step.toStellarArgs, ShellSafe arg) ↔ step.Printable := by
  constructor
  · intro h
    refine ⟨h _ ?_, h _ ?_, h _ ?_, fun src hsrc => h _ ?_, h _ ?_,
      fun arg harg => ⟨h _ ?_, h _ ?_⟩⟩
    · simp [InvokeStep.toStellarArgs]
    · simp [InvokeStep.toStellarArgs]
    · simp [InvokeStep.toStellarArgs]
    · simp [InvokeStep.toStellarArgs, hsrc]
    · simp [InvokeStep.toStellarArgs]
    · exact List.mem_append_right _ (List.mem_flatMap.mpr ⟨arg, harg, List.mem_cons_self⟩)
    · exact List.mem_append_right _ (List.mem_flatMap.mpr ⟨arg, harg, by simp⟩)
  · intro h
    have hfixed : ∀ arg ∈ ["contract", "invoke", "--id", "--rpc-url", "--network-passphrase",
        "--source", "--send=no", "--"], ShellSafe arg := by decide
    simp only [List.forall_mem_cons] at hfixed
    obtain ⟨hcontract, hinvoke, hid, hrpc, hpassphrase, hsource, hsend, hdashes, -⟩ := hfixed
    simp only [InvokeStep.toStellarArgs, List.forall_mem_append, List.forall_mem_cons,
      List.forall_mem_flatMap]
    refine ⟨⟨⟨⟨⟨hcontract, hinvoke, hid, h.contractId, hrpc, h.rpcUrl, hpassphrase,
      h.networkPassphrase, nofun⟩, ?_⟩, ?_⟩, hdashes, h.function, nofun⟩,
      fun arg harg => ⟨(h.args arg harg).1, (h.args arg harg).2, nofun⟩⟩
    · cases hsrc : step.source with
      | none => exact nofun
      | some src =>
        exact List.forall_mem_cons.mpr
          ⟨hsource, List.forall_mem_singleton.mpr (h.source src hsrc)⟩
    · split_ifs
      · exact List.forall_mem_singleton.mpr hsend
      · exact nofun

/-- A shell reads the printed line as the command that the plan runs exactly when everything
printed can stand as it is. -/
theorem toShellCommand_words_iff (step : InvokeStep) :
    Shell.words step.toShellCommand.toList =
      some (("stellar" :: step.toStellarArgs).map String.toList) ↔ step.Printable := by
  have hline : Shell.line (("stellar" :: step.toStellarArgs).map partOf) =
      ' ' :: step.toShellCommand.toList := line_partOf "stellar" step.toStellarArgs
  have hquoted : ∀ p ∈ ("stellar" :: step.toStellarArgs).map partOf, p.Quoted :=
    List.forall_mem_map.mpr fun arg _ => quoted_partOf arg
  have hvalue : Shell.Part.value ∘ partOf = String.toList := rfl
  have hstellar : ShellSafe "stellar" := by decide
  have hiff := Shell.words_line_iff hquoted
  rw [hline, Shell.words_blank, List.map_map, hvalue] at hiff
  rw [hiff, List.forall_mem_map]
  simp only [safe_partOf, List.forall_mem_cons, hstellar, true_and]
  exact printable_iff

/-- A step whose RPC endpoint has a query. -/
def queryUrlStep : InvokeStep where
  description := "Query total bounty escrow balance"
  contractName := "refract_bounty"
  contractId := "CBOUNTY"
  network := "local"
  rpcUrl := "http://localhost:8000/rpc?key=1&id=2"
  networkPassphrase := "Standalone Network ; February 2017"
  source := none
  readOnly := true
  function := "balance"
  args := []

/-- The printed line runs another command in the background. -/
theorem queryUrl_misread : ¬ ∀ step : InvokeStep, Shell.words step.toShellCommand.toList =
    some (("stellar" :: step.toStellarArgs).map String.toList) := by
  intro h
  have hread := h queryUrlStep
  exact absurd hread (by decide +kernel)

/-- The same step on the default endpoint. -/
example : { queryUrlStep with rpcUrl := "http://localhost:8000/rpc" }.Printable :=
  printable_iff.mp (by decide +kernel)

end RefractContracts.Operator
