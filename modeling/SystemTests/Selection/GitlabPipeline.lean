import SystemTests.Selection.SelectedFromDiff

/-!
# What the GitLab pipeline of a pull request runs

A library of the rollout is run on every weblog, or, where it has a map of weblogs, with
the selected ones of the scenarios that the map lists.

**Results.**
* `mem_expandScenarioEntries`: scenarios and the scenarios of groups.
* `get?_getGitlabLibraryWeblogScenarios`: the weblogs and scenarios of the map that are run.
* `getOutputs_gitlab`: what the outputs run of the selection.
-/

namespace SystemTests
namespace Selection

open Foundation Foundation.Text

variable {repository : Repository}

/-- A list of scenarios and scenario groups has the scenario. -/
def Expands (repository : Repository) (entries : Str → Prop) (scenarioName : Str) : Prop :=
  ∃ entry, entries entry ∧ (isLowerName entry = true ∧ (∃ names,
      scenarioGroup repository entry = .ok names ∧ scenarioName ∈ names) ∨
    isLowerName entry = false ∧ scenarioName = entry)

theorem mem_expandScenarioEntries_go {scenarioName : Str} :
    ∀ {entries : List Str} {before after : Finset Str},
      entries.foldlM (fun result entry =>
        if isLowerName entry then do
          let scenarios ← scenarioGroup repository entry
          return result ∪ scenarios.toFinset
        else return result ∪ {entry}) before = Except.ok after →
      (scenarioName ∈ after ↔
        scenarioName ∈ before ∨ Expands repository (fun entry => entry ∈ entries) scenarioName)
  | [], before, after, h => by
      obtain rfl : before = after := Except.ok.inj h
      simp [Expands]
  | entry :: entries, before, after, h => by
      rw [List.foldlM_cons] at h
      obtain ⟨next, hnext, h⟩ := Raised.bind_eq_ok.mp h
      rw [mem_expandScenarioEntries_go h]
      have hhead : scenarioName ∈ next ↔ scenarioName ∈ before ∨
          Expands repository (fun e => e = entry) scenarioName := by
        unfold Expands
        by_cases hlower : isLowerName entry = true
        · rw [if_pos hlower] at hnext
          obtain ⟨names, hnames, hnext⟩ := Raised.bind_eq_ok.mp hnext
          obtain rfl := Except.ok.inj hnext
          simp [hlower, hnames]
        · rw [if_neg hlower] at hnext
          obtain rfl := Except.ok.inj hnext
          simp [hlower, or_comm]
      rw [hhead, or_assoc]
      refine or_congr_right ?_
      simp only [Expands, List.mem_cons, or_and_right, exists_or]

theorem mem_expandScenarioEntries {entries : List Str} {names : Finset Str}
    (h : expandScenarioEntries repository entries = .ok names) (scenarioName : Str) :
    scenarioName ∈ names ↔ Expands repository (fun entry => entry ∈ entries) scenarioName := by
  rw [mem_expandScenarioEntries_go h]
  simp

/-- What a list of scenarios and groups runs of the selected scenarios on a weblog. -/
def RunsOn (repository : Repository) (selected : Finset Str) (weblog : Str)
    (weblogEntries names : List Str) : Prop :=
  (weblog = parametricWeblog ∧ parametricScenario ∈ selected ∧ names = []) ∨
    (weblog ≠ parametricWeblog ∧ names ≠ [] ∧ names.Pairwise (· < ·) ∧
      ∀ name, name ∈ names ↔
        Expands repository (fun entry => entry ∈ weblogEntries) name ∧ name ∈ selected)

theorem mem_sortedNames {names : Finset Str} {name : Str} : name ∈ sortedNames names ↔ name ∈ names :=
  Finset.mem_sort _

theorem pairwise_sortedNames (names : Finset Str) : (sortedNames names).Pairwise (· < ·) :=
  (Finset.sortedLT_sort names).pairwise

theorem runsOn_iff_of_filteredEntries {selected : Finset Str} {weblog : Str}
    {weblogEntries : List Str} {found : Option (List Str)}
    (h : filteredEntries repository selected weblog weblogEntries = .ok found) (names : List Str) :
    found = some names ↔ RunsOn repository selected weblog weblogEntries names := by
  unfold filteredEntries at h
  unfold RunsOn
  by_cases hweblog : weblog = parametricWeblog
  · rw [if_pos hweblog] at h
    have hfound : (if parametricScenario ∈ selected then some [] else none) = found :=
      Except.ok.inj h
    rw [← hfound]
    by_cases hselected : parametricScenario ∈ selected
    · simp [hweblog, hselected, eq_comm]
    · simp [hweblog, hselected]
  · rw [if_neg hweblog] at h
    obtain ⟨entries, hentries, h⟩ := Raised.bind_eq_ok.mp h
    have hfound : (if sortedNames (entries ∩ selected) = [] then none
        else some (sortedNames (entries ∩ selected))) = found := Except.ok.inj h
    have hmem : ∀ name, name ∈ sortedNames (entries ∩ selected) ↔
        Expands repository (fun entry => entry ∈ weblogEntries) name ∧ name ∈ selected := by
      intro name
      rw [mem_sortedNames, Finset.mem_inter, mem_expandScenarioEntries hentries]
    rw [← hfound]
    constructor
    · intro hnames
      split_ifs at hnames with hempty
      obtain rfl := Option.some.inj hnames
      exact Or.inr ⟨hweblog, hempty, pairwise_sortedNames _, hmem⟩
    · rintro (⟨hparametric, -⟩ | ⟨-, hne, hsorted, hnames⟩)
      · exact absurd hparametric hweblog
      · obtain rfl : sortedNames (entries ∩ selected) = names :=
          (pairwise_sortedNames _).eq_of_mem_iff hsorted fun name =>
            (hmem name).trans (hnames name).symm
        rw [if_neg hne]

theorem addWeblog_eq (selected : Finset Str) (filteredMap : Dict Str (List Str))
    (entry : Str × List Str) :
    addWeblog repository selected filteredMap entry =
      (filteredEntries repository selected entry.1 entry.2).map
        (Raised.setFound filteredMap entry.1) := by
  unfold addWeblog
  cases filteredEntries repository selected entry.1 entry.2 with
  | error e => rfl
  | ok found => cases found <;> rfl

/-- The weblogs of a map that are run. -/
theorem get?_foldlM_addWeblog {selected : Finset Str} {weblogMap filteredMap : Dict Str (List Str)}
    (h : (sortedItems weblogMap).foldlM (addWeblog repository selected) .empty = .ok filteredMap)
    (weblog : Str) (names : List Str) :
    filteredMap.get? weblog = some names ↔ ∃ entries, weblogMap.get? weblog = some entries ∧
      RunsOn repository selected weblog entries names := by
  have hperm : (sortedItems weblogMap).Perm weblogMap.items := List.mergeSort_perm _ _
  have hnodup : ((sortedItems weblogMap).map Prod.fst).Nodup :=
    (hperm.map Prod.fst).nodup_iff.mpr weblogMap.nodup
  rw [Raised.get?_foldlM_set Prod.fst (fun entry => filteredEntries repository selected entry.1 entry.2)
    (addWeblog_eq selected) hnodup (fun _ _ => Dict.get?_empty _) h]
  have hok : ∀ entry ∈ sortedItems weblogMap, ∃ found,
      filteredEntries repository selected entry.1 entry.2 = .ok found := by
    intro entry hentry
    obtain ⟨_, _, d, d', -, -, hstep, -⟩ := Raised.foldlM_eq_ok_split h hentry
    rw [addWeblog_eq] at hstep
    obtain ⟨found, hfound, -⟩ := Raised.map_eq_ok.mp hstep
    exact ⟨found, hfound⟩
  constructor
  · rintro (hnone | ⟨⟨_, entries⟩, hentry, rfl, hfound⟩)
    · exact absurd hnone (by simp)
    · refine ⟨entries, (Dict.mem_items_iff _ _ _).mp (hperm.mem_iff.mp hentry), ?_⟩
      exact (runsOn_iff_of_filteredEntries hfound names).mp rfl
  · rintro ⟨entries, hget, hruns⟩
    have hentry := hperm.mem_iff.mpr ((Dict.mem_items_iff _ _ _).mpr hget)
    obtain ⟨found, hfound⟩ := hok _ hentry
    refine Or.inr ⟨_, hentry, rfl, ?_⟩
    rw [hfound, (runsOn_iff_of_filteredEntries hfound names).mpr hruns]

/-- The weblogs of a library that are run, unless there is none. -/
def filteredWeblogs (repository : Repository) (selected : Finset Str)
    (weblogMap : Dict Str (List Str)) : Except Raised (Option (Dict Str (List Str))) :=
  if weblogMap.items = [] then return none
  else do
    let filteredMap ← (sortedItems weblogMap).foldlM (addWeblog repository selected) .empty
    return if filteredMap.items = [] then none else some filteredMap

def libraryEntry (repository : Repository) (selected : Finset Str) (library : Str) :
    Except Raised (Option (Dict Str (List Str))) := do
  let weblogMap ← Raised.ofOption (.keyError library) (gitlabPrLibraries.get? library)
  match weblogMap with
  | none => return none
  | some weblogMap => filteredWeblogs repository selected weblogMap

theorem addLibrary_eq (selected : Finset Str) (result : Dict Str (Dict Str (List Str)))
    (library : Str) :
    addLibrary repository selected result library =
      (libraryEntry repository selected library).map (Raised.setFound result library) := by
  unfold addLibrary libraryEntry
  cases gitlabPrLibraries.get? library with
  | none => rfl
  | some weblogMap =>
      cases weblogMap with
      | none => rfl
      | some weblogMap =>
          simp only [Raised.ofOption_some, Raised.ok_bind, filteredWeblogs]
          by_cases hempty : weblogMap.items = []
          · simp only [hempty, if_true]
            rfl
          · simp only [hempty, if_false]
            cases (sortedItems weblogMap).foldlM (addWeblog repository selected) .empty with
            | error e => rfl
            | ok filteredMap =>
                by_cases hnone : filteredMap.items = []
                · simp only [Raised.ok_bind, hnone, if_true]
                  rfl
                · simp only [Raised.ok_bind, hnone, if_false]
                  rfl

/-- A library is run on a weblog with some scenarios. -/
def IsRun (weblogScenarios : Dict Str (Dict Str (List Str))) (library weblog : Str)
    (names : List Str) : Prop :=
  ∃ weblogs, weblogScenarios.get? library = some weblogs ∧ weblogs.get? weblog = some names

theorem exists_libraryEntry_iff {selected : Finset Str} {library : Str}
    {found : Option (Dict Str (List Str))}
    (h : libraryEntry repository selected library = .ok found) (weblog : Str) (names : List Str) :
    (∃ weblogs, found = some weblogs ∧ weblogs.get? weblog = some names) ↔
      ∃ weblogMap entries, gitlabPrLibraries.get? library = some (some weblogMap) ∧
        weblogMap.get? weblog = some entries ∧ RunsOn repository selected weblog entries names := by
  unfold libraryEntry at h
  obtain ⟨weblogMap, hmap, h⟩ := Raised.bind_eq_ok.mp h
  rw [Raised.ofOption_eq_ok_iff] at hmap
  rw [hmap]
  cases weblogMap with
  | none =>
      obtain rfl := Except.ok.inj h
      constructor
      · rintro ⟨weblogs, hnone, -⟩
        cases hnone
      · rintro ⟨weblogMap, entries, hnone, -⟩
        cases hnone
  | some weblogMap =>
      have hget : ∀ P : Dict Str (List Str) → Prop,
          (∃ weblogMap', some (some weblogMap) = some (some weblogMap') ∧ P weblogMap') ↔
            P weblogMap := by
        intro P
        constructor
        · rintro ⟨_, heq, hP⟩
          obtain rfl := Option.some.inj (Option.some.inj heq)
          exact hP
        · exact fun hP => ⟨weblogMap, rfl, hP⟩
      simp only [exists_and_left, hget]
      replace h : filteredWeblogs repository selected weblogMap = .ok found := h
      unfold filteredWeblogs at h
      by_cases hempty : weblogMap.items = []
      · rw [if_pos hempty] at h
        obtain rfl := Except.ok.inj h
        have hnone : weblogMap.get? weblog = none := by
          rw [Dict.get?_eq_none_iff, Dict.keys, hempty]
          exact List.not_mem_nil
        simp [hnone]
      · rw [if_neg hempty] at h
        obtain ⟨filteredMap, hfiltered, h⟩ := Raised.bind_eq_ok.mp h
        have hfound : (if filteredMap.items = [] then none else some filteredMap) = found :=
          Except.ok.inj h
        rw [← get?_foldlM_addWeblog hfiltered, ← hfound]
        by_cases hnone : filteredMap.items = []
        · have hmissing : filteredMap.get? weblog = none := by
            rw [Dict.get?_eq_none_iff, Dict.keys, hnone]
            exact List.not_mem_nil
          simp [hnone, hmissing]
        · simp [hnone]

/-- The scenarios and groups that are selected. -/
def selectedEntries (processors : Processors) : List Str :=
  sortedNames (processors.scenarioProcessor.scenarios ∪ processors.scenarioProcessor.scenarioGroups)

theorem get?_getGitlabLibraryWeblogScenarios {libraries : Finset Str} {entries : List Str}
    {result : Dict Str (Dict Str (List Str))}
    (h : getGitlabLibraryWeblogScenarios repository libraries entries = .ok result) :
    ∃ selected, expandScenarioEntries repository entries = .ok selected ∧
      ∀ library weblog names, IsRun result library weblog names ↔
        library ∈ libraries ∧ ∃ weblogMap weblogEntries,
          gitlabPrLibraries.get? library = some (some weblogMap) ∧
            weblogMap.get? weblog = some weblogEntries ∧
              RunsOn repository selected weblog weblogEntries names := by
  obtain ⟨selected, hselected, h⟩ := Raised.bind_eq_ok.mp h
  refine ⟨selected, hselected, fun library weblog names => ?_⟩
  have hnodup : ((sortedNames libraries).map id).Nodup := by
    rw [List.map_id]
    exact Finset.sort_nodup _ _
  have hget := Raised.get?_foldlM_set id (libraryEntry repository selected)
    (addLibrary_eq selected) hnodup (fun _ _ => Dict.get?_empty _) h
  have hok : ∀ library ∈ libraries, ∃ found,
      libraryEntry repository selected library = .ok found := by
    intro library hlibrary
    obtain ⟨_, _, d, d', -, -, hstep, -⟩ :=
      Raised.foldlM_eq_ok_split h (mem_sortedNames.mpr hlibrary)
    rw [addLibrary_eq] at hstep
    obtain ⟨found, hfound, -⟩ := Raised.map_eq_ok.mp hstep
    exact ⟨found, hfound⟩
  unfold IsRun
  simp only [hget]
  constructor
  · rintro ⟨weblogs, hnone | ⟨library', hlibrary, rfl, hfound⟩, hnames⟩
    · exact absurd hnone (by simp)
    · exact ⟨mem_sortedNames.mp hlibrary,
        (exists_libraryEntry_iff hfound weblog names).mp ⟨weblogs, rfl, hnames⟩⟩
  · rintro ⟨hlibrary, hruns⟩
    obtain ⟨found, hfound⟩ := hok library hlibrary
    obtain ⟨weblogs, rfl, hnames⟩ := (exists_libraryEntry_iff hfound weblog names).mpr hruns
    exact ⟨weblogs, Or.inr ⟨library, mem_sortedNames.mpr hlibrary, rfl, hfound⟩, hnames⟩

/-- **What a pull request runs on GitLab.**  A selected library of the rollout without a map
is listed; one with a map is run on its weblogs, each with the selected ones of its scenarios. -/
theorem getOutputs_gitlab (repository : Repository) (inputs : PipelineInputs)
    (processors : Processors) (source ref scenarios scenariosGroups : Str)
    (weblogScenarios : Option (Dict Str (Dict Str (List Str)))) (libraries : Option Str)
    (hpr : isGitlabPrPipeline inputs.toGitInfo = true)
    (h : getOutputs repository inputs processors =
      .ok (.gitlab source ref weblogScenarios libraries scenarios scenariosGroups)) :
    (∃ everyWeblog : Finset Str,
      (∀ library, library ∈ everyWeblog ↔ library ∈ processors.libraryProcessor.selected ∧
        library ∈ gitlabPrLibraries.keys ∧ hasWeblogMap library = false) ∧
      libraries = if everyWeblog = ∅ then none else some (join " " (sortedNames everyWeblog))) ∧
    ∃ selected,
      (∀ name, name ∈ selected ↔ Expands repository (fun entry =>
        entry ∈ processors.scenarioProcessor.scenarios ∨
          entry ∈ processors.scenarioProcessor.scenarioGroups) name) ∧
      ∀ library weblog names,
        (∃ result, weblogScenarios = some result ∧ IsRun result library weblog names) ↔
          library ∈ processors.libraryProcessor.selected ∧ ∃ weblogMap weblogEntries,
            gitlabPrLibraries.get? library = some (some weblogMap) ∧
              weblogMap.get? weblog = some weblogEntries ∧
                RunsOn repository selected weblog weblogEntries names := by
  unfold getOutputs at h
  by_cases hgitlab : inputs.isGitlab = true
  swap
  · rw [if_neg hgitlab] at h
    cases Except.ok.inj h
  rw [if_pos hgitlab] at h
  obtain ⟨runs, hresult, h⟩ := Raised.bind_eq_ok.mp h
  obtain ⟨rfl, rfl, rfl, rfl, rfl, rfl⟩ := Outputs.gitlab.inj (Except.ok.inj h)
  unfold gitlabRuns at hresult
  rw [if_pos hpr] at hresult
  obtain ⟨result, hmap, hresult⟩ := Raised.bind_eq_ok.mp hresult
  obtain rfl := Except.ok.inj hresult
  have hmain : ¬ inputs.ref = "refs/heads/main" := by
    intro hmain
    simp [isGitlabPrPipeline, hmain] at hpr
  have hlibraries : filterGitlabLibraries inputs.toGitInfo processors.libraryProcessor.selected =
      processors.libraryProcessor.selected ∩ gitlabPrLibraries.keys.toFinset := by
    rw [filterGitlabLibraries, if_neg fun h => hmain h.1, if_pos hpr]
  rw [hlibraries] at hmap ⊢
  constructor
  · refine ⟨_, fun library => ?_, rfl⟩
    rw [Finset.mem_filter, Finset.mem_inter, List.mem_toFinset, and_assoc, Bool.not_eq_true']
  · obtain ⟨selected, hselected, hruns⟩ := get?_getGitlabLibraryWeblogScenarios hmap
    refine ⟨selected, fun name => ?_, fun library weblog names => ?_⟩
    · rw [mem_expandScenarioEntries hselected]
      simp only [mem_sortedNames, Finset.mem_union]
    · have hnone : (∃ found, (if result.items = [] then none else some result) = some found ∧
          IsRun found library weblog names) ↔ IsRun result library weblog names := by
        by_cases hempty : result.items = []
        · have hmissing : result.get? library = none := by
            rw [Dict.get?_eq_none_iff, Dict.keys, hempty]
            exact List.not_mem_nil
          simp [hempty, IsRun, hmissing]
        · simp [hempty]
      rw [hnone, hruns, Finset.mem_inter, List.mem_toFinset, and_assoc]
      refine and_congr_right fun _ => ⟨fun h => h.2, fun h => ⟨?_, h⟩⟩
      obtain ⟨weblogMap, -, hget, -⟩ := h
      rw [← Dict.get?_isSome_iff, hget]
      rfl

/-- A pull request that selects one scenario of Python. -/
def smallRollout : PipelineInputs :=
  { smallDiff with isGitlab := true, ref := "refs/heads/branch" }

def oneScenario : Processors where
  scenarioProcessor := { ScenarioSelection.new ∅ with
    scenarios := {"APM_TRACING_E2E_SINGLE_SPAN".toList} }
  libraryProcessor := .new {"python".toList}
  rebuildLambdaProxy := false

def pythonScenarios : List Str :=
  ["APM_TRACING_E2E_SINGLE_SPAN", "FEATURE_FLAGGING_AND_EXPERIMENTATION_AGENTLESS",
    "FEATURE_FLAGGING_AND_EXPERIMENTATION_AGENTLESS_DIRECT",
    "FEATURE_FLAGGING_AND_EXPERIMENTATION_AGENTLESS_SERVERLESS"]

def pythonWeblogs : Dict Str (List Str) := .setAll .empty [("flask-poc", pythonScenarios)]

/-- The selected scenario is run on the only weblog of the map. -/
def oneRun : Dict Str (Dict Str (List Str)) :=
  .set .empty "python" (.set .empty "flask-poc" ["APM_TRACING_E2E_SINGLE_SPAN"])

theorem gitlabRuns_oneScenario :
    gitlabRuns smallRepository smallRollout.toGitInfo oneScenario = .ok (oneRun, ∅) := by
  have hlibraries : filterGitlabLibraries smallRollout.toGitInfo
      oneScenario.libraryProcessor.selected = {"python".toList} := by decide
  have hentries : sortedNames (oneScenario.scenarioProcessor.scenarios ∪
      oneScenario.scenarioProcessor.scenarioGroups) = ["APM_TRACING_E2E_SINGLE_SPAN".toList] :=
    Finset.sort_singleton ..
  have hselected : expandScenarioEntries smallRepository ["APM_TRACING_E2E_SINGLE_SPAN".toList] =
      .ok {"APM_TRACING_E2E_SINGLE_SPAN".toList} := rfl
  have hweblog : ∀ weblogEntries entries, expandScenarioEntries smallRepository weblogEntries =
      .ok entries → entries ∩ {"APM_TRACING_E2E_SINGLE_SPAN".toList} =
        {"APM_TRACING_E2E_SINGLE_SPAN".toList} →
      filteredEntries smallRepository {"APM_TRACING_E2E_SINGLE_SPAN".toList} "flask-poc"
        weblogEntries = .ok (some ["APM_TRACING_E2E_SINGLE_SPAN"]) := by
    intro weblogEntries entries hentries hinter
    rw [filteredEntries, if_neg (by decide), hentries, Raised.ok_bind, hinter, sortedNames,
      Finset.sort_singleton]
    rfl
  have hlibrary : libraryEntry smallRepository {"APM_TRACING_E2E_SINGLE_SPAN".toList} "python" =
      .ok (some (.set .empty "flask-poc" ["APM_TRACING_E2E_SINGLE_SPAN"])) := by
    have hsorted : sortedItems pythonWeblogs = pythonWeblogs.items := List.mergeSort_singleton _
    change filteredWeblogs smallRepository _ pythonWeblogs = _
    rw [filteredWeblogs, if_neg (by decide), hsorted]
    change ((addWeblog smallRepository _ .empty ("flask-poc", pythonScenarios) >>=
      fun filteredMap => .ok filteredMap) >>= _) = _
    rw [addWeblog_eq, hweblog pythonScenarios _ rfl (by decide)]
    rfl
  have hmap : getGitlabLibraryWeblogScenarios smallRepository {"python".toList}
      ["APM_TRACING_E2E_SINGLE_SPAN".toList] = .ok oneRun := by
    rw [getGitlabLibraryWeblogScenarios, hselected, Raised.ok_bind, sortedNames,
      Finset.sort_singleton]
    change (addLibrary smallRepository _ .empty "python" >>= fun result => .ok result) = _
    rw [addLibrary_eq, hlibrary]
    rfl
  unfold gitlabRuns
  rw [hlibraries, if_pos (by decide), hentries, hmap]
  rfl

theorem getOutputs_oneScenario :
    getOutputs smallRepository smallRollout oneScenario =
      .ok (.gitlab smallRollout.eventName smallRollout.ref (some oneRun) none
        oneScenario.scenarioProcessor.getOutputs.1 oneScenario.scenarioProcessor.getOutputs.2) := by
  change (gitlabRuns smallRepository smallRollout.toGitInfo oneScenario >>= _) = _
  rw [gitlabRuns_oneScenario]
  rfl

theorem getOutputs_gitlab_oneScenario :
    ∃ selected, ∀ library weblog names,
      (∃ result, some oneRun = some result ∧ IsRun result library weblog names) ↔
        library ∈ oneScenario.libraryProcessor.selected ∧ ∃ weblogMap weblogEntries,
          gitlabPrLibraries.get? library = some (some weblogMap) ∧
            weblogMap.get? weblog = some weblogEntries ∧
              RunsOn smallRepository selected weblog weblogEntries names := by
  obtain ⟨-, selected, -, hruns⟩ := getOutputs_gitlab smallRepository smallRollout oneScenario
    _ _ _ _ _ _ (by decide) getOutputs_oneScenario
  exact ⟨selected, hruns⟩

end Selection
end SystemTests
