import RefractContracts.Host.Progress
import RefractContracts.Specs.Interface

/-! The version of a contract over the runs of `generate`. A file is replaced only by one of a
higher version, or of the same version and the same hash, and all files are compared before the
first is written; so a run that is cut off leaves no file that was not compared, and what holds
between a file and the next holds over any number of runs. `check` accepts a directory exactly if
`generate` would write every file as it is. -/

namespace RefractContracts.Specs

open Host Scripts
open Script (Triple)

variable {sha256 : Bytes → Digest32} {a b c : Artifact sha256} {py : PyText} {name text : String}
  {d : Directory} {n : ℕ}

/-! ### What is read of a file -/

section Files

theorem Artifact.distinct_json (a : Artifact sha256) : a.json.Distinct := by
  show ["schema_version", "contract", "package", "crate_version", "interface_version",
    "interface_hash", "entries"].Nodup
  decide

theorem blank_lineFeed : ∀ c ∈ ['\n'], JsonText.isBlank c = true :=
  List.forall_mem_singleton.mpr rfl

/-- What is rendered is read back. -/
theorem loadJson_render (a : Artifact sha256) : loadJson (render a) = .ok a.json.sortKeys := by
  rw [loadJson, render, String.toList_ofList, JsonText.loads_dumps _ blank_lineFeed]

/-- A part of a file is read as the whole or not at all. -/
theorem loadJson_cutText {v : JsonText.Value} (h : loadJson (cutText n (render a)) = .ok v) :
    v = a.json.sortKeys := by
  rw [loadJson, cutText, String.toList_ofList, render, String.toList_ofList] at h
  cases hloads : JsonText.loads ((JsonText.indented.dumps 0 a.json.sortKeys ++ ['\n']).take n) with
  | none =>
    rw [hloads] at h
    cases h
  | some w =>
    rw [hloads] at h
    obtain rfl := Except.ok.inj h
    exact JsonText.loads_take _ blank_lineFeed hloads

theorem cutText_of_length_le (h : text.toList.length ≤ n) : cutText n text = text := by
  rw [cutText, List.take_of_length_le h, String.ofList_toList]

theorem translateNewlines_of_notMem {s : List Char} (h : '\r' ∉ s) :
    translateNewlines false s = s := by
  induction s with
  | nil => rfl
  | cons c s ih =>
    rw [List.mem_cons, not_or] at h
    rw [translateNewlines, if_neg (Ne.symm h.1), if_neg (by simp), ih h.2]

theorem return_notMem_render (a : Artifact sha256) : '\r' ∉ (render a).toList := by
  have hprint : ∀ c : Char, 32 ≤ c.toNat → c ≠ '\r' := by
    rintro c hc rfl
    exact absurd hc (by decide)
  have hline : ∀ depth, ∀ c ∈ JsonText.indented.line depth, c ≠ '\r' := by
    intro depth c hc
    rcases List.mem_cons.mp hc with rfl | hc
    · decide
    · obtain rfl := List.eq_of_mem_replicate hc
      decide
  have hall := JsonText.Layout.forall_mem_dumps hprint (l := JsonText.indented)
    (List.forall_mem_singleton.mpr (by decide)) hline a.json.sortKeys 0
  rw [render, String.toList_ofList, List.mem_append, not_or]
  exact ⟨fun h => hall _ h rfl, by decide⟩

/-- What was written of a file is read as it is. -/
theorem readText_cutText (n : ℕ) (a : Artifact sha256) :
    readText (cutText n (render a)) = cutText n (render a) := by
  have h : '\r' ∉ (render a).toList.take n := fun hmem =>
    return_notMem_render a (List.mem_of_mem_take hmem)
  rw [readText, cutText, String.toList_ofList, translateNewlines_of_notMem h]

theorem readText_render (a : Artifact sha256) : readText (render a) = render a := by
  have h := readText_cutText (render a).toList.length a
  rwa [cutText_of_length_le le_rfl] at h

theorem get?_loadCommitted : (loadCommitted d).get? name = (d.get? name).map readText :=
  Dict.get?_mapValues readText

theorem get?_loadCommitted_render (h : d.get? name = some (render a)) :
    (loadCommitted d).get? name = some (render a) := by
  rw [get?_loadCommitted, h, Option.map_some, readText_render]

end Files

/-! ### What may replace a file -/

/-- The version is higher, or it is the same and so is the hash. -/
def Artifact.Follows (b a : Artifact sha256) : Prop :=
  a.interfaceVersion ≤ b.interfaceVersion ∧
    (b.interfaceVersion = a.interfaceVersion → b.interfaceHash = a.interfaceHash)

theorem Artifact.Follows.refl (a : Artifact sha256) : a.Follows a := ⟨le_rfl, fun _ => rfl⟩

theorem Artifact.Follows.trans (hc : c.Follows b) (hb : b.Follows a) : c.Follows a := by
  refine ⟨hb.1.trans hc.1, fun h => ?_⟩
  have hcb : c.interfaceVersion = b.interfaceVersion := le_antisymm (h.trans_le hb.1) hc.1
  exact (hc.2 hcb).trans (hb.2 (hcb.symm.trans h))

theorem subscript_version (a : Artifact sha256) :
    subscript a.json.sortKeys "interface_version" = .ok (.int a.interfaceVersion) := by
  rw [subscript, JsonText.Value.last?_sortKeys a.distinct_json]
  rfl

theorem subscript_hash (a : Artifact sha256) :
    subscript a.json.sortKeys "interface_hash" = .ok (.str a.interfaceHash) := by
  rw [subscript, JsonText.Value.last?_sortKeys a.distinct_json]
  rfl

/-- The version rule accepts what follows the artifact of a file. -/
theorem versionProblem_eq_none : versionProblem (some a.json.sortKeys) b = .ok none ↔
    b.Follows a := by
  have hversion := subscript_version a
  have hhash := subscript_hash a
  obtain ⟨members, hobj⟩ : ∃ members, a.json.sortKeys = .obj members := ⟨_, rfl⟩
  rw [hobj] at hversion hhash ⊢
  simp only [versionProblem, hversion, ok_bind, comparable, hhash, isText, decide_eq_true_eq]
  by_cases hlt : b.interfaceVersion < a.interfaceVersion
  · rw [if_pos hlt]
    exact iff_of_false (by rintro ⟨⟩) fun h => absurd hlt h.1.not_gt
  · rw [if_neg hlt]
    by_cases hsame : ¬ a.interfaceHash = b.interfaceHash ∧ b.interfaceVersion = a.interfaceVersion
    · rw [if_pos hsame]
      exact iff_of_false (by rintro ⟨⟩) fun h => absurd (h.2 hsame.2).symm hsame.1
    · rw [if_neg hsame]
      refine ⟨fun _ => ⟨not_lt.mp hlt, fun hv => ?_⟩, fun _ => rfl⟩
      exact (not_not.mp fun hh => hsame ⟨hh, hv⟩).symm

theorem mapM_eq_ok_map {α β : Type} {f : α → Outcome String β} {g : α → β} {l : List α}
    (h : ∀ x ∈ l, f x = .ok (g x)) : l.mapM f = .ok (l.map g) := by
  induction l with
  | nil => rfl
  | cons x l ih =>
    rw [List.forall_mem_cons] at h
    rw [List.mapM_cons, h.1, ih h.2]
    rfl

/-- A rendered file is compared as the artifact it is of. -/
theorem fileProblem_of_render {committed : Dict String String}
    (h : committed.get? name = some (render a)) (b : Artifact sha256) :
    fileProblem committed (name, b) = versionProblem (some a.json.sortKeys) b := by
  simp only [fileProblem, loadOld, h, loadJson_render, ok_bind]

theorem versionProblems_eq_nil {committed : Dict String String}
    {fresh : Dict String (Artifact sha256)}
    (h : ∀ e ∈ fresh.entries, fileProblem committed e = .ok none) :
    versionProblems committed fresh = .ok [] := by
  rw [versionProblems, mapM_eq_ok_map h, ok_bind, List.filterMap_map]
  simp

/-! ### What is built -/

section Fresh
variable {build : Build} {fresh : Dict String (Artifact sha256)}

theorem keys_insert {d : Dict String (Artifact sha256)} {j : String} :
    j ∈ (d.insert name a).entries.map Prod.fst ↔ j = name ∨ j ∈ d.entries.map Prod.fst :=
  mem_keys_putEntry

theorem fileName_mem_of_foldlM {read : String → Option Bytes} {l : List WasmContract}
    {d d' : Dict String (Artifact sha256)} (h : l.foldlM (fun artifacts c => do
      let artifact ← freshArtifact sha256 py read c
      .ok (artifacts.insert c.fileName artifact)) d = .ok d') {j : String}
    (hj : j ∈ d.entries.map Prod.fst ∨ ∃ c ∈ l, c.fileName = j) : j ∈ d'.entries.map Prod.fst := by
  induction l generalizing d with
  | nil =>
    obtain rfl := (pure_eq_ok _ _).mp h
    exact hj.resolve_right nofun
  | cons c l ih =>
    rw [List.foldlM_cons, bind_eq_ok] at h
    obtain ⟨mid, hmid, hrest⟩ := h
    rw [bind_eq_ok] at hmid
    obtain ⟨artifact, -, hmid⟩ := hmid
    obtain rfl := Except.ok.inj hmid
    refine ih hrest ?_
    rcases hj with hj | ⟨c', hc', rfl⟩
    · exact .inl (keys_insert.mpr (.inr hj))
    · rcases List.mem_cons.mp hc' with rfl | hc'
      · exact .inl (keys_insert.mpr (.inl rfl))
      · exact .inr ⟨c', hc', rfl⟩

/-- Every workspace contract has an artifact. -/
theorem fileName_mem_fresh (h : freshArtifacts sha256 py build = .ok fresh)
    (hname : ∃ c ∈ build.contracts, c.fileName = name) : name ∈ fresh.entries.map Prod.fst := by
  rw [freshArtifacts, bind_eq_ok] at h
  obtain ⟨artifacts, hbuilt, h⟩ := h
  split_ifs at h
  obtain rfl := Except.ok.inj h
  exact fileName_mem_of_foldlM hbuilt (.inr hname)

end Fresh

/-! ### Runs of `generate` -/

section Runs
variable {build : Build} {fresh : Dict String (Artifact sha256)} {cut : Option (ℕ × Bool)}

theorem look_committed (f : Dict String String → Script Directory String Unit) :
    (Script.look (fun d => .ok (loadCommitted d)) >>= f) ⟨d, cut⟩ = f (loadCommitted d) ⟨d, cut⟩ :=
  rfl

/-- Without a problem every file is written, and every other one removed. -/
theorem generate_accepted (hfresh : freshArtifacts sha256 py build = .ok fresh)
    (h : versionProblems (loadCommitted d) fresh = .ok []) :
    generate sha256 py build n ⟨d, cut⟩ =
      (do
        fresh.entries.foldlM (fun _ e => writeFile n e.1 (render e.2)) ()
        (removed (loadCommitted d) fresh).foldlM (fun _ name => removeFile name) () :
          Script Directory String Unit) ⟨d, cut⟩ := by
  rw [generate, Method.ok_check_bind hfresh, look_committed, Method.ok_check_bind h]
  rfl

/-- With a problem nothing is written. -/
theorem generate_refused (n : ℕ) (cut : Option (ℕ × Bool))
    (hfresh : freshArtifacts sha256 py build = .ok fresh)
    (h : versionProblems (loadCommitted d) fresh ≠ .ok []) :
    ∃ e, generate sha256 py build n ⟨d, cut⟩ = (⟨d, cut⟩, .error e) := by
  rw [generate, Method.ok_check_bind hfresh, look_committed]
  cases hproblems : versionProblems (loadCommitted d) fresh with
  | error e => exact ⟨e, rfl⟩
  | ok problems =>
    have hne : problems ≠ [] := fun hnil => h (hnil ▸ hproblems)
    rw [Method.ok_check_bind rfl, if_pos hne]
    exact ⟨_, rfl⟩

end Runs

section Pinned

/-- The file, or what was written of it, is of an artifact that may stand where `a` was. -/
def Pinned (name : String) (a : Artifact sha256) (d : Directory) : Prop :=
  ∃ b : Artifact sha256, b.Follows a ∧ ∃ n, d.get? name = some (cutText n (render b))

theorem Pinned.insert (h : Pinned name a d) {j : String} (n : ℕ) (hb : j = name → b.Follows a) :
    Pinned name a (d.insert j (cutText n (render b))) := by
  by_cases hj : j = name
  · exact ⟨b, hb hj, n, by rw [Dict.get?_insert, if_pos hj.symm]⟩
  · obtain ⟨b', hb', n', hget⟩ := h
    exact ⟨b', hb', n', by rw [Dict.get?_insert, if_neg (Ne.symm hj), hget]⟩

theorem triple_writeFile (n : ℕ) {j : String} (hb : j = name → b.Follows a) :
    Triple (Pinned name a) (writeFile n j (render b)) (fun _ => Pinned name a)
      fun _ => Pinned name a := by
  refine Script.triple_write ?_ ?_ fun d hd => ⟨hd, hd.insert n hb⟩
  · rintro _ d _ ⟨⟩ hd
    have hinsert := hd.insert (render b).toList.length hb
    rwa [cutText_of_length_le le_rfl] at hinsert
  · rintro _ d _ ⟨⟩

theorem triple_removeFile {j : String} (hj : j ≠ name) :
    Triple (Pinned name a) (removeFile j) (fun _ => Pinned name a)
      fun _ => Pinned name a := by
  refine Script.triple_write ?_ ?_ fun d hd => ⟨hd, hd⟩
  · rintro _ d _ ⟨⟩ ⟨b, hb, n, hget⟩
    exact ⟨b, hb, n, by rw [Dict.get?_erase, if_neg (Ne.symm hj), hget]⟩
  · rintro _ d _ ⟨⟩

/-- Without a problem, what is built may stand where the file was. -/
theorem follows_of_problems {fresh : Dict String (Artifact sha256)}
    (hd : Pinned name a d) (h : versionProblems (loadCommitted d) fresh = .ok []) :
    ∀ e ∈ fresh.entries, e.1 = name → e.2.Follows a := by
  rintro e he rfl
  simp only [versionProblems, bind_eq_ok, Except.ok.injEq] at h
  obtain ⟨problems, hproblems, hnone⟩ := h
  obtain ⟨p, hp, hfile⟩ := (mapM_matched hproblems).value e he
  obtain rfl : p = none := Option.eq_none_iff_forall_not_mem.mpr fun q hq =>
    List.not_mem_nil (hnone ▸ List.mem_filterMap.mpr ⟨p, hp, hq⟩)
  obtain ⟨b, hb, n, hget⟩ := hd
  have hread : (loadCommitted d).get? e.1 = some (cutText n (render b)) := by
    rw [get?_loadCommitted, hget, Option.map_some, readText_cutText]
  simp only [fileProblem, loadOld, hread, bind_eq_ok, Except.ok.injEq] at hfile
  obtain ⟨_, ⟨old, hold, rfl⟩, hversion⟩ := hfile
  obtain rfl := loadJson_cutText hold
  have hfollows : e.2.Follows b := versionProblem_eq_none.mp hversion
  exact hfollows.trans hb

theorem triple_generate {build : Build} (hname : ∃ c ∈ build.contracts, c.fileName = name) (n : ℕ) :
    Triple (Pinned name a) (generate sha256 py build n) (fun _ => Pinned name a)
      fun _ => Pinned name a := by
  refine Script.triple_check_bind (fun _ _ h => h) fun fresh hfresh => ?_
  refine Script.triple_look_bind (fun _ _ h => h) fun committed => ?_
  refine (Script.triple_of_pure (p := ∃ d, loadCommitted d = committed ∧ Pinned name a d)
    fun hcommitted => ?_).pre fun d hd => ⟨⟨d, Except.ok.inj hd.1, hd.2⟩, hd.2⟩
  obtain ⟨d, rfl, hpinned⟩ := hcommitted
  refine Script.triple_check_bind (fun _ _ h => h) fun problems hproblems => ?_
  split_ifs with hne
  · exact Script.triple_check (fun _ _ _ h => h) fun _ _ _ h => h
  · obtain rfl := not_not.mp hne
    have hfollows := follows_of_problems hpinned hproblems
    have hfresh := fileName_mem_fresh hfresh hname
    refine (Script.triple_foldlM
      (fun _ e he => triple_writeFile n (hfollows e he)) ()).bind fun _ => ?_
    refine Script.triple_foldlM (fun _ j hj => triple_removeFile ?_) ()
    rintro rfl
    have hremoved := (List.mem_filter.mp ((List.mem_insertionSort _).mp hj)).2
    exact of_decide_eq_true hremoved hfresh

theorem interface_of_ordered (a : Artifact sha256) :
    interface a.entries = undocumented a.entries := by
  rw [interface, normalize_of_ordered a.ordered, undocumented]

end Pinned

/-- A run of `generate`: what was built, and how much of a file is written if it is cut off. -/
abbrev generated (sha256 : Bytes → Digest32) (py : PyText) (r : Build × ℕ) :
    Script Directory String Unit := generate sha256 py r.1 r.2

theorem leaves_generated (build : Build) (n : ℕ) (d : Directory) (cut : Option (ℕ × Bool)) :
    Script.leaves (generated sha256 py) d ((build, n), cut) =
      (generate sha256 py build n ⟨d, cut⟩).1.world := rfl

/-- A run that is cut off within the first file. -/
theorem leaves_torn {build : Build} {fresh : Dict String (Artifact sha256)}
    {l : List (String × Artifact sha256)} (hfresh : freshArtifacts sha256 py build = .ok fresh)
    (h : versionProblems (loadCommitted d) fresh = .ok [])
    (hfirst : fresh.entries = (name, b) :: l) :
    Script.leaves (generated sha256 py) d ((build, n), some (0, true)) =
      d.insert name (cutText n (render b)) := by
  rw [leaves_generated, generate_accepted hfresh h, hfirst]
  rfl

/-- A run that is refused. -/
theorem leaves_refused {build : Build} {fresh : Dict String (Artifact sha256)}
    {cut : Option (ℕ × Bool)} (hfresh : freshArtifacts sha256 py build = .ok fresh)
    (h : versionProblems (loadCommitted d) fresh ≠ .ok []) :
    Script.leaves (generated sha256 py) d ((build, n), cut) = d := by
  obtain ⟨e, hrun⟩ := generate_refused n cut hfresh h
  rw [leaves_generated, hrun]

/-- After any runs of `generate`, each cut off anywhere or not at all, of workspaces that have the
contract, the contract's file is of an artifact whose version is not lower, and if it is the same,
of one with the same entries up to documentation, as long as the two texts that are hashed do not
collide. -/
theorem interface_pinned (hd : d.get? name = some (render a))
    {runs : List ((Build × ℕ) × Option (ℕ × Bool))}
    (hruns : ∀ r ∈ runs, ∃ c ∈ r.1.1.contracts, c.fileName = name) :
    ∃ b : Artifact sha256, ∃ n,
      (Script.session (generated sha256 py) d runs).1.get? name = some (cutText n (render b)) ∧
      a.interfaceVersion ≤ b.interfaceVersion ∧
      (b.interfaceVersion = a.interfaceVersion →
        CollisionFree sha256 (hashed b.entries a.entries) →
          undocumented b.entries = undocumented a.entries) := by
  have hstart : Pinned name a d :=
    ⟨a, .refl a, (render a).toList.length, by rw [hd, cutText_of_length_le le_rfl]⟩
  have hpinned : Pinned name a (Script.session (generated sha256 py) d runs).1 := by
    refine Script.session_invariant (I := fun _ => Pinned name a)
      (fun r => ∃ c ∈ r.1.contracts, c.fileName = name) (fun r _ hr => ?_) hruns (n := 0) hstart
    refine (triple_generate hr r.2).mono (fun _ h => h) (fun _ _ h => h) fun e _ h => ?_
    cases e <;> exact h
  obtain ⟨b, hb, n, hget⟩ := hpinned
  refine ⟨b, n, hget, hb.1, fun hversion hfree => ?_⟩
  have hsame := (interfaceHash_iff hfree).mp (hb.2 hversion)
  rwa [interface_of_ordered, interface_of_ordered] at hsame

/-! ### A workspace -/

/-- The method of the sample, its list of the type with the code. -/
def sampleMethod (type : UInt8) : Bytes :=
  [0, 0, 0, 0] ++ [0, 0, 0, 0] ++ [0, 0, 0, 1, 102, 0, 0, 0] ++ [0, 0, 0, 0] ++
    [0, 0, 0, 1, 0, 0, 3, 234, 0, 0, 0, type]

def sampleErrors : Bytes :=
  [0, 0, 0, 4] ++ [0, 0, 0, 0] ++ [0, 0, 0, 0] ++ [0, 0, 0, 1, 69, 0, 0, 0] ++
    [0, 0, 0, 1, 0, 0, 0, 0, 0, 0, 0, 1, 65, 0, 0, 0, 0, 0, 0, 1]

def sampleSection (name : String) (content : Bytes) : Bytes :=
  0 :: .ofNat (name.length + 1 + content.length) :: .ofNat name.length :: (encode name ++ content)

/-- A module of the version, given by its digit. -/
def sampleWasm (version type : UInt8) : Bytes :=
  magic ++ [1, 0, 0, 0] ++ sampleSection specSection (sampleErrors ++ sampleMethod type) ++
    sampleSection metaSection ([0, 0, 0, 0] ++
      ([0, 0, 0, 13] ++ encode versionMetaKey ++ [0, 0, 0]) ++ [0, 0, 0, 1, version, 0, 0, 0])

def sampleBuild (version type : UInt8) : Build :=
  ⟨[⟨"refract-bounty", "0.1.0", "refract_bounty.wasm", "release/refract_bounty.wasm"⟩],
    fun _ => some (sampleWasm version type)⟩

def sampleArtifact (version : ℤ) (item : String) (type : UInt8) : Artifact sampleSha256 :=
  .ofEntries "refract_bounty" "refract-bounty" "0.1.0" version
    [⟨.enum true "" "" "E" [⟨"", "A", 1⟩], .ofList (Base64.b64encode sampleErrors)⟩,
      ⟨.function "" "f" [] ["Vec<" ++ item ++ ">"], .ofList (Base64.b64encode (sampleMethod type))⟩]

def samplePy : PyText where
  isDigit := Char.isDigit
  decimal := plainPython.decimal
  repr s := "'" ++ s ++ "'"

def sampleDirectory : Directory :=
  .ofList [("refract_bounty.json", render (sampleArtifact 1 "u32" 4))]

/-- The changed method is refused, until the version is raised; that run is cut off within the
file. -/
def sampleRuns : List ((Build × ℕ) × Option (ℕ × Bool)) :=
  [((sampleBuild 49 5, 0), none), ((sampleBuild 50 5, 300), some (0, true))]

theorem fresh_sampleBuild :
    freshArtifacts sampleSha256 samplePy (sampleBuild 49 5) =
        .ok (.ofList [("refract_bounty.json", sampleArtifact 1 "i32" 5)]) ∧
      freshArtifacts sampleSha256 samplePy (sampleBuild 50 5) =
        .ok (.ofList [("refract_bounty.json", sampleArtifact 2 "i32" 5)]) := by
  constructor <;> decide +kernel

theorem session_sampleRuns :
    (Script.session (generated sampleSha256 samplePy) sampleDirectory sampleRuns).1 =
      sampleDirectory.insert "refract_bounty.json"
        (cutText 300 (render (sampleArtifact 2 "i32" 5))) := by
  have hget : sampleDirectory.get? "refract_bounty.json" =
      some (render (sampleArtifact 1 "u32" 4)) := rfl
  have hchanged : (sampleArtifact 1 "i32" 5).interfaceHash ≠
      (sampleArtifact 1 "u32" 4).interfaceHash := by decide +kernel
  have hrefused : versionProblems (loadCommitted sampleDirectory)
      (.ofList [("refract_bounty.json", sampleArtifact 1 "i32" 5)]) ≠ .ok [] := by
    intro h
    have hfollows := follows_of_problems ⟨_, .refl _, _, hget.trans
      (congrArg some (cutText_of_length_le le_rfl).symm)⟩ h _ List.mem_cons_self rfl
    exact hchanged (hfollows.2 rfl)
  have haccepted : versionProblems (loadCommitted sampleDirectory)
      (.ofList [("refract_bounty.json", sampleArtifact 2 "i32" 5)]) = .ok [] := by
    refine versionProblems_eq_nil (List.forall_mem_singleton.mpr ?_)
    rw [fileProblem_of_render (get?_loadCommitted_render hget), versionProblem_eq_none]
    exact ⟨by decide, fun h => absurd h (by decide)⟩
  rw [sampleRuns, Script.session_cons, leaves_refused fresh_sampleBuild.1 hrefused,
    Script.session_cons, leaves_torn fresh_sampleBuild.2 haccepted rfl, Script.session]

theorem interface_pinned_sample :
    (Script.session (generated sampleSha256 samplePy) sampleDirectory sampleRuns).1.get?
        "refract_bounty.json" = some (cutText 300 (render (sampleArtifact 2 "i32" 5))) ∧
      ∃ b : Artifact sampleSha256, ∃ n,
        (Script.session (generated sampleSha256 samplePy) sampleDirectory sampleRuns).1.get?
          "refract_bounty.json" = some (cutText n (render b)) ∧
        (sampleArtifact 1 "u32" 4).interfaceVersion ≤ b.interfaceVersion ∧
        (b.interfaceVersion = (sampleArtifact 1 "u32" 4).interfaceVersion →
          CollisionFree sampleSha256 (hashed b.entries (sampleArtifact 1 "u32" 4).entries) →
            undocumented b.entries = undocumented (sampleArtifact 1 "u32" 4).entries) := by
  refine ⟨?_, interface_pinned rfl fun r hr => ?_⟩
  · rw [session_sampleRuns, Dict.get?_insert, if_pos rfl]
  · rcases List.mem_cons.mp hr with rfl | hr
    · exact ⟨_, List.mem_singleton_self _, rfl⟩
    · obtain rfl := List.mem_singleton.mp hr
      exact ⟨_, List.mem_singleton_self _, rfl⟩

end RefractContracts.Specs
