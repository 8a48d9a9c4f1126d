import RefractContracts.Specs.Versions

/-! What `check` accepts. Files are current if they are the rendered artifacts of the workspace
contracts and no others. `check` accepts a directory if what is read of it is current, whatever line
ends the files have; `generate`, when it is not cut off, leaves a directory that is current, and
leaves it as it is if it is current already. -/

namespace RefractContracts.Specs

open Host Scripts

variable {sha256 : Bytes → Digest32} {py : PyText} {build : Build}
  {fresh : Dict String (Artifact sha256)} {committed : Dict String String} {d d' : Directory}
  {name text : String} {n : ℕ}

/-- Every file is the rendered artifact of its contract. -/
def Current (fresh : Dict String (Artifact sha256)) (committed : Dict String String) : Prop :=
  ∀ name, committed.get? name = (fresh.get? name).map render

theorem Current.get? (h : Current fresh committed) {a : Artifact sha256}
    (ha : fresh.get? name = some a) : committed.get? name = some (render a) := by
  rw [h, ha, Option.map_some]

/-- What is rendered is read as it is. -/
theorem Current.loadCommitted (h : Current fresh d) : Current fresh (loadCommitted d) := by
  intro name
  rw [get?_loadCommitted, h, Option.map_map]
  exact congrFun (congrArg Option.map (funext readText_render)) _

/-! ### `check` -/

section Check

theorem mem_keys_iff {α : Type} {d : Dict String α} :
    name ∈ d.entries.map Prod.fst ↔ ∃ a, d.get? name = some a := by
  simp only [List.mem_map, Prod.exists, exists_and_right, exists_eq_right, Dict.mem_entries]

/-- A file without a complaint is there and is what it is to be. -/
theorem checkFile_ok {lines : List Line} (h : checkFile committed fresh name = .ok lines)
    (hok : ∀ line ∈ lines, line.isOk = true) :
    ∃ a, fresh.get? name = some a ∧ committed.get? name = some (render a) := by
  unfold checkFile at h
  cases hd : committed.get? name with
  | none =>
    rw [hd] at h
    obtain rfl := Except.ok.inj h
    cases hok _ (List.mem_singleton_self _)
  | some text =>
    cases hf : fresh.get? name with
    | none =>
      rw [hd, hf] at h
      obtain rfl := Except.ok.inj h
      cases hok _ (List.mem_singleton_self _)
    | some a =>
      simp only [hd, hf, bind_eq_ok, Except.ok.injEq] at h
      obtain ⟨old, -, problem, -, rfl⟩ := h
      have hlast := hok _ (List.mem_append_right _ (List.mem_singleton_self _))
      split_ifs at hlast with htext
      · exact ⟨a, rfl, by rw [htext]⟩
      · cases hlast

theorem checkFile_current (h : Current fresh committed) {a : Artifact sha256}
    (ha : fresh.get? name = some a) : checkFile committed fresh name = .ok [.ok name] := by
  have hnone : versionProblem (some a.json.sortKeys) a = .ok none :=
    versionProblem_eq_none.mpr (Artifact.Follows.refl a)
  simp [checkFile, h.get? ha, ha, loadJson_render, hnone, Bind.bind, Except.bind]

/-- The names that `check` goes through. -/
def names (fresh : Dict String (Artifact sha256)) (committed : Dict String String) : List String :=
  (fresh.entries.map Prod.fst ∪ committed.entries.map Prod.fst).insertionSort (· ≤ ·)

theorem mem_names : name ∈ names fresh committed ↔
    (∃ a, fresh.get? name = some a) ∨ ∃ text, committed.get? name = some text := by
  rw [names, List.mem_insertionSort, List.mem_union_iff, mem_keys_iff, mem_keys_iff]

theorem check_iff : (∃ report, check sha256 py build d = .ok report) ↔
    ∃ fresh, freshArtifacts sha256 py build = .ok fresh ∧ Current fresh (loadCommitted d) := by
  constructor
  · rintro ⟨report, h⟩
    simp only [check, checkReport, bind_eq_ok] at h
    obtain ⟨report', ⟨fresh, hfresh, lines, hlines, hreport⟩, h⟩ := h
    obtain rfl := Except.ok.inj hreport
    split_ifs at h with hok
    refine ⟨fresh, hfresh, fun name => ?_⟩
    by_cases hname : name ∈ names fresh (loadCommitted d)
    · obtain ⟨ls, hls, hfile⟩ := (mapM_matched hlines).value name hname
      obtain ⟨a, ha, hd⟩ := checkFile_ok hfile fun line hline =>
        List.all_eq_true.mp hok line (List.mem_flatten.mpr ⟨ls, hls, hline⟩)
      rw [hd, ha]
      rfl
    · rw [mem_names, not_or] at hname
      rw [Option.eq_none_iff_forall_ne_some.mpr fun a ha => hname.2 ⟨a, ha⟩,
        Option.eq_none_iff_forall_ne_some.mpr fun a ha => hname.1 ⟨a, ha⟩]
      rfl
  · rintro ⟨fresh, hfresh, hcurrent⟩
    have hfile : ∀ name ∈ names fresh (loadCommitted d),
        checkFile (loadCommitted d) fresh name = .ok [.ok name] := by
      intro name hname
      rcases mem_names.mp hname with ⟨a, ha⟩ | ⟨text, htext⟩
      · exact checkFile_current hcurrent ha
      · rw [hcurrent, Option.map_eq_some_iff] at htext
        obtain ⟨a, ha, -⟩ := htext
        exact checkFile_current hcurrent ha
    have hlines := mapM_eq_ok_map hfile
    have hok :
        ((names fresh (loadCommitted d)).map fun name => [Line.ok name]).flatten.all
          Line.isOk = true := by
      simp [Line.isOk]
    have hreport : checkReport sha256 py build d =
        .ok ((names fresh (loadCommitted d)).map fun name => [Line.ok name]).flatten := by
      rw [checkReport, bind_eq_ok]
      exact ⟨fresh, hfresh, (bind_eq_ok _ _ _).mpr ⟨_, hlines, rfl⟩⟩
    exact ⟨_, by rw [check, hreport, ok_bind, if_pos hok]⟩

end Check

/-! ### `generate` that is not cut off -/

section Uncut

theorem writeFiles_uncut (l : List (String × Artifact sha256)) (d : Directory) :
    l.foldlM (fun _ e => writeFile n e.1 (render e.2)) () ⟨d, none⟩ =
      (⟨d.insertAll (l.map fun e => (e.1, render e.2)), none⟩, .ok ()) := by
  induction l generalizing d with
  | nil => rfl
  | cons e l ih =>
    rw [List.foldlM_cons, List.map_cons, Dict.insertAll_cons]
    exact ih _

theorem removeFiles_uncut (l : List String) (d : Directory) :
    l.foldlM (fun _ name => removeFile name) () ⟨d, none⟩ =
      (⟨l.foldl Dict.erase d, none⟩, .ok ()) := by
  induction l generalizing d with
  | nil => rfl
  | cons name l ih =>
    rw [List.foldlM_cons, List.foldl_cons]
    exact ih _

/-- The directory after all files are written and the others removed. -/
def written (fresh : Dict String (Artifact sha256)) (d : Directory) : Directory :=
  (removed (loadCommitted d) fresh).foldl Dict.erase (d.insertAll (fresh.mapValues render).entries)

theorem generate_uncut : generate sha256 py build n ⟨d, none⟩ = (⟨d', none⟩, .ok ()) ↔
    ∃ fresh, freshArtifacts sha256 py build = .ok fresh ∧
      versionProblems (loadCommitted d) fresh = .ok [] ∧ d' = written fresh d := by
  constructor
  · intro h
    cases hfresh : freshArtifacts sha256 py build with
    | error e =>
      rw [generate, hfresh] at h
      cases (Prod.mk.inj h).2
    | ok fresh =>
      by_cases hproblems : versionProblems (loadCommitted d) fresh = .ok []
      · rw [generate_accepted hfresh hproblems, Method.bind_apply, writeFiles_uncut] at h
        have hremoved := (removeFiles_uncut _ _).symm.trans h
        obtain ⟨hworld, -⟩ := Prod.mk.inj hremoved
        exact ⟨fresh, rfl, hproblems, (congrArg Powered.world hworld).symm⟩
      · obtain ⟨e, hrun⟩ := generate_refused n none hfresh hproblems
        rw [hrun] at h
        cases (Prod.mk.inj h).2
  · rintro ⟨fresh, hfresh, hproblems, rfl⟩
    rw [generate_accepted hfresh hproblems, Method.bind_apply, writeFiles_uncut]
    exact removeFiles_uncut _ _

theorem get?_eraseAll (l : List String) (d : Directory) :
    (l.foldl Dict.erase d).get? name = if name ∈ l then none else d.get? name := by
  induction l generalizing d with
  | nil => rfl
  | cons j l ih =>
    rw [List.foldl_cons, ih, Dict.get?_erase]
    by_cases hl : name ∈ l
    · rw [if_pos hl, if_pos (List.mem_cons_of_mem _ hl)]
    · rw [if_neg hl]
      exact if_congr (by rw [List.mem_cons, or_iff_left hl]) rfl rfl

theorem get?_eq_none_iff {α : Type} {d : Dict String α} :
    d.get? name = none ↔ name ∉ d.entries.map Prod.fst := by
  rw [mem_keys_iff, not_exists, Option.eq_none_iff_forall_ne_some]

theorem mem_removed : name ∈ removed committed fresh ↔
    (∃ text, committed.get? name = some text) ∧ fresh.get? name = none := by
  rw [removed, List.mem_insertionSort, List.mem_filter, mem_keys_iff, decide_eq_true_iff,
    get?_eq_none_iff]

/-- All that is left is what was built. -/
theorem current_written : Current fresh (written fresh d) := by
  intro name
  have hrendered : (fresh.mapValues render).entries.lookup name = (fresh.get? name).map render :=
    Dict.get?_mapValues render
  rw [written, get?_eraseAll, Dict.get?_insertAll (fresh.mapValues render).distinct, hrendered]
  cases hf : fresh.get? name with
  | some a =>
    rw [if_neg fun hname => by simp [(mem_removed.mp hname).2] at hf]
    rfl
  | none =>
    by_cases hname : name ∈ removed (loadCommitted d) fresh
    · rw [if_pos hname]
      rfl
    · rw [if_neg hname]
      refine Option.eq_none_iff_forall_ne_some.mpr fun text (htext : d.get? name = some text) => ?_
      have hread : (loadCommitted d).get? name = some (readText text) := by
        rw [get?_loadCommitted, htext, Option.map_some]
      exact hname (mem_removed.mpr ⟨⟨_, hread⟩, hf⟩)

theorem written_of_current (h : Current fresh d) : written fresh d = d := by
  have hremoved : removed (loadCommitted d) fresh = [] := by
    refine List.eq_nil_iff_forall_not_mem.mpr fun name hname => ?_
    obtain ⟨⟨text, htext⟩, hnone⟩ := mem_removed.mp hname
    rw [h.loadCommitted, hnone] at htext
    cases htext
  rw [written, hremoved, List.foldl_nil]
  refine Dict.insertAll_of_get? fun p hp => ?_
  obtain ⟨e, he, rfl⟩ := List.mem_map.mp hp
  exact h.get? (Dict.mem_entries.mp he)

theorem problems_of_current (h : Current fresh committed) :
    versionProblems committed fresh = .ok [] := by
  refine versionProblems_eq_nil fun e he => ?_
  rw [fileProblem_of_render (h.get? (Dict.mem_entries.mp he))]
  exact versionProblem_eq_none.mpr (Artifact.Follows.refl e.2)

end Uncut

/-- `check` accepts a directory exactly if `generate` changes nothing in it but line ends; and what
a `generate` that is not cut off leaves is accepted, and left as it is by the next one. -/
theorem check_fixpoint (sha256 : Bytes → Digest32) (py : PyText) (build : Build) (d : Directory)
    (n : ℕ) :
    ((∃ report, check sha256 py build d = .ok report) ↔
      ∃ d', generate sha256 py build n ⟨d, none⟩ = (⟨d', none⟩, .ok ()) ∧
        ∀ name, d'.get? name = (d.get? name).map readText) ∧
    ∀ d', generate sha256 py build n ⟨d, none⟩ = (⟨d', none⟩, .ok ()) →
      (∃ report, check sha256 py build d' = .ok report) ∧
        generate sha256 py build n ⟨d', none⟩ = (⟨d', none⟩, .ok ()) := by
  refine ⟨?_, fun d' hd' => ?_⟩
  · rw [check_iff]
    constructor
    · rintro ⟨fresh, hfresh, hcurrent⟩
      refine ⟨_, generate_uncut.mpr ⟨fresh, hfresh, problems_of_current hcurrent, rfl⟩, ?_⟩
      intro name
      rw [current_written, ← hcurrent, get?_loadCommitted]
    · rintro ⟨d', hrun, hread⟩
      obtain ⟨fresh, hfresh, -, rfl⟩ := generate_uncut.mp hrun
      refine ⟨fresh, hfresh, fun name => ?_⟩
      rw [get?_loadCommitted, ← hread, current_written]
  · obtain ⟨fresh, hfresh, -, rfl⟩ := generate_uncut.mp hd'
    have hcurrent : Current fresh (written fresh d) := current_written
    refine ⟨check_iff.mpr ⟨fresh, hfresh, hcurrent.loadCommitted⟩, generate_uncut.mpr
      ⟨fresh, hfresh, problems_of_current hcurrent.loadCommitted, ?_⟩⟩
    exact (written_of_current hcurrent).symm

/-- A text with a carriage return before every line feed. -/
def withReturns (text : String) : String :=
  .ofList (text.toList.flatMap fun c => if c = '\n' then ['\r', '\n'] else [c])

theorem readText_withReturns (h : '\r' ∉ text.toList) : readText (withReturns text) = text := by
  have hread (s : List Char) (hs : '\r' ∉ s) : translateNewlines false
      (s.flatMap fun c => if c = '\n' then ['\r', '\n'] else [c]) = s := by
    induction s with
    | nil => rfl
    | cons c s ih =>
      rw [List.mem_cons, not_or] at hs
      rw [List.flatMap_cons]
      split_ifs with hc
      · obtain rfl := hc
        exact congrArg _ (ih hs.2)
      · rw [List.cons_append, List.nil_append, translateNewlines, if_neg (Ne.symm hs.1),
          if_neg (by simp [hc]), ih hs.2]
  rw [readText, withReturns, String.toList_ofList, hread _ h, String.ofList_toList]

/-- The sample directory as it is checked out with other line ends. -/
def sampleReturns : Directory :=
  .ofList [("refract_bounty.json", withReturns (render (sampleArtifact 1 "u32" 4)))]

theorem check_fixpoint_sample :
    (∃ report, check sampleSha256 samplePy (sampleBuild 49 4) sampleReturns = .ok report) ∧
      ∃ d', generate sampleSha256 samplePy (sampleBuild 49 4) 0 ⟨sampleReturns, none⟩ =
        (⟨d', none⟩, .ok ()) ∧ d' ≠ sampleReturns := by
  have hfresh : freshArtifacts sampleSha256 samplePy (sampleBuild 49 4) =
      .ok (.ofList [("refract_bounty.json", sampleArtifact 1 "u32" 4)]) := by decide +kernel
  have hget {α : Type} (x : α) (name : String) :
      (Dict.ofList [("refract_bounty.json", x)]).get? name =
      if name = "refract_bounty.json" then some x else none := Dict.get?_insert
  have hcurrent : Current (Dict.ofList [("refract_bounty.json", sampleArtifact 1 "u32" 4)])
      (loadCommitted sampleReturns) := by
    intro name
    rw [get?_loadCommitted, sampleReturns, hget, hget]
    split_ifs
    · exact congrArg some (readText_withReturns (return_notMem_render _))
    · rfl
  have hcheck : ∃ report, check sampleSha256 samplePy (sampleBuild 49 4) sampleReturns =
      .ok report := check_iff.mpr ⟨_, hfresh, hcurrent⟩
  obtain ⟨d', hrun, hread⟩ := (check_fixpoint sampleSha256 samplePy (sampleBuild 49 4) sampleReturns
    0).1.mp hcheck
  refine ⟨hcheck, d', hrun, ?_⟩
  rintro rfl
  have htext : withReturns (render (sampleArtifact 1 "u32" 4)) =
      readText (withReturns (render (sampleArtifact 1 "u32" 4))) := by
    have hsame := hread "refract_bounty.json"
    rw [sampleReturns, hget, if_pos rfl] at hsame
    exact Option.some.inj hsame
  rw [readText_withReturns (return_notMem_render _)] at htext
  refine return_notMem_render (sampleArtifact 1 "u32" 4) ?_
  rw [← htext, withReturns, String.toList_ofList]
  refine List.mem_flatMap.mpr ⟨'\n', ?_, List.mem_cons_self⟩
  rw [render, String.toList_ofList]
  exact List.mem_append_right _ (List.mem_singleton_self _)

end RefractContracts.Specs
