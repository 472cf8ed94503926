import SystemTests.Foundation.Accumulation
import SystemTests.Selection.LibrariesAndScenarios

/-!
# What is selected from a diff

Every step of the selection only adds to what is selected, so the selection is the union
of what the manifests, the title and the modified files select.

**Results.**
* `addsMembers_append`, `addsMembers_add`, `addsMembers_processFile`: what each step adds.
* `mem_selected_iff`: the scenarios, groups and libraries that are selected.
* `process_modifiedFiles`: a larger diff selects more, and the outputs depend on the set of
  the modified files only.
-/

namespace SystemTests
namespace Selection

open Foundation Foundation.Text Foundation.Semver Foundation.Regex Manifest

/-- What the steps add to. -/
inductive Kind where
  | scenario
  | scenarioGroup
  | impactedLibrary
  | library
  | lambdaProxyFile
deriving DecidableEq

abbrev Impact := Kind → Finset Str

def only (kind : Kind) (names : Finset Str) : Impact := fun k => if k = kind then names else ∅

section States

def ScenarioProcessor.plus (processor : ScenarioProcessor) (found : Impact) : ScenarioProcessor where
  scenarios := processor.scenarios ∪ found .scenario
  impactedLibraries := processor.impactedLibraries ∪ found .impactedLibrary

def ScenarioSelection.plus (selection : ScenarioSelection) (found : Impact) :
    ScenarioSelection where
  toScenarioProcessor := selection.toScenarioProcessor.plus found
  scenarioGroups := selection.scenarioGroups ∪ found .scenarioGroup
  scenariosByFiles := selection.scenariosByFiles

def LibraryProcessor.plus (processor : LibraryProcessor) (found : Impact) : LibraryProcessor :=
  { processor with selected := processor.selected ∪ found .library }

def Processors.plus (processors : Processors) (found : Impact) : Processors where
  scenarioProcessor := processors.scenarioProcessor.plus found
  libraryProcessor := processors.libraryProcessor.plus found
  rebuildLambdaProxy := processors.rebuildLambdaProxy || decide (found .lambdaProxyFile ≠ ∅)

theorem ScenarioProcessor.plus_plus (processor : ScenarioProcessor) (x y : Impact) :
    (processor.plus x).plus y = processor.plus (x ⊔ y) := by
  simp [ScenarioProcessor.plus]

theorem ScenarioSelection.plus_plus (selection : ScenarioSelection) (x y : Impact) :
    (selection.plus x).plus y = selection.plus (x ⊔ y) := by
  simp [ScenarioSelection.plus, ScenarioProcessor.plus_plus]

theorem LibraryProcessor.plus_plus (processor : LibraryProcessor) (x y : Impact) :
    (processor.plus x).plus y = processor.plus (x ⊔ y) := by
  simp [LibraryProcessor.plus]

theorem ScenarioProcessor.plus_bot (processor : ScenarioProcessor) :
    processor.plus ⊥ = processor := by
  simp [ScenarioProcessor.plus]

theorem ScenarioSelection.plus_bot (selection : ScenarioSelection) :
    selection.plus ⊥ = selection := by
  simp [ScenarioSelection.plus, ScenarioProcessor.plus_bot]

theorem LibraryProcessor.plus_bot (processor : LibraryProcessor) :
    processor.plus ⊥ = processor := by
  simp [LibraryProcessor.plus]

theorem Processors.plus_bot (processors : Processors) : processors.plus ⊥ = processors := by
  simp [Processors.plus, ScenarioSelection.plus_bot, LibraryProcessor.plus_bot]

end States

section Steps

variable {repository : Repository}

/-- A scenario activates a library. -/
def Activates (repository : Repository) (scenarioName library : Str) : Prop :=
  ∃ scenario libraries, repository.scenarios (repository.lower scenarioName) = some scenario ∧
    scenario.libraries = some libraries ∧ library ∈ libraries

/-- What the scenarios of tests add. -/
def FromTests (repository : Repository) (names : Str → Prop) : Kind → Str → Prop
  | .scenario, name => names name
  | .impactedLibrary, library => ∃ name, names name ∧ Activates repository name library
  | _, _ => False

theorem fromTests_congr {names names' : Str → Prop} (h : ∀ name, names name ↔ names' name)
    (kind : Kind) (name : Str) :
    FromTests repository names kind name ↔ FromTests repository names' kind name := by
  cases kind with
  | scenario => exact h name
  | impactedLibrary => exact exists_congr fun name => and_congr_left' (h name)
  | scenarioGroup => exact Iff.rfl
  | library => exact Iff.rfl
  | lambdaProxyFile => exact Iff.rfl

theorem fromTests_or {names names' : Str → Prop} (kind : Kind) (name : Str) :
    FromTests repository names kind name ∨ FromTests repository names' kind name ↔
      FromTests repository (fun name => names name ∨ names' name) kind name := by
  cases kind with
  | scenario => exact Iff.rfl
  | impactedLibrary => simp only [FromTests, or_and_right, exists_or]
  | scenarioGroup => exact or_self_iff
  | library => exact or_self_iff
  | lambdaProxyFile => exact or_self_iff

theorem fromTests_exists {α : Type} {names : α → Str → Prop} (l : List α) (kind : Kind)
    (name : Str) :
    (∃ a ∈ l, FromTests repository (names a) kind name) ↔
      FromTests repository (fun name => ∃ a ∈ l, names a name) kind name := by
  cases kind with
  | scenario => exact Iff.rfl
  | impactedLibrary =>
      constructor
      · rintro ⟨a, ha, scenario, hscenario, hactivates⟩
        exact ⟨scenario, ⟨a, ha, hscenario⟩, hactivates⟩
      · rintro ⟨scenario, ⟨a, ha, hscenario⟩, hactivates⟩
        exact ⟨a, ha, scenario, hscenario, hactivates⟩
  | scenarioGroup => exact ⟨fun ⟨_, _, h⟩ => h, False.elim⟩
  | library => exact ⟨fun ⟨_, _, h⟩ => h, False.elim⟩
  | lambdaProxyFile => exact ⟨fun ⟨_, _, h⟩ => h, False.elim⟩

theorem addsMembers_addLibraries (processor : ScenarioProcessor) (name : Str) :
    Raised.AddsMembers processor.plus
      (fun p => addLibraries repository.lower repository.scenarios p name)
      fun kind library => kind = .impactedLibrary ∧ Activates repository name library := by
  refine ⟨do
    let scenario ← Raised.ofOption (.attributeError (repository.lower name))
      (repository.scenarios (repository.lower name))
    return only .impactedLibrary (scenario.libraries.getD ∅), ?_, ?_⟩
  · intro found
    change addLibraries repository.lower repository.scenarios (processor.plus found) name = _
    unfold addLibraries
    cases repository.scenarios (repository.lower name) with
    | none => rfl
    | some scenario =>
        obtain ⟨libraries⟩ := scenario
        cases libraries with
        | none =>
            refine congrArg Except.ok ?_
            simp [ScenarioProcessor.plus, only]
        | some libraries =>
            refine congrArg Except.ok ?_
            simp [ScenarioProcessor.plus, only]
  · intro z hz kind library
    obtain ⟨scenario, hscenario, hz⟩ := Raised.bind_eq_ok.mp hz
    rw [Raised.ofOption_eq_ok_iff] at hscenario
    obtain rfl := Except.ok.inj hz
    simp only [only, Activates, hscenario]
    by_cases hkind : kind = .impactedLibrary
    · cases hlibraries : scenario.libraries with
      | none => simp [hkind, hlibraries]
      | some libraries => simp [hkind, hlibraries]
    · simp [hkind]

/-- The scenarios of tests are added, with the libraries that they activate. -/
theorem addsMembers_appendScenarios (processor : ScenarioProcessor) (names : List Str) :
    Raised.AddsMembers processor.plus
      (fun p => appendScenariosFromTestFiles repository.lower repository.scenarios p names)
      (FromTests repository fun name => name ∈ names) := by
  obtain ⟨x, hx, hmem⟩ := Raised.AddsMembers.foldlM (l := names.dedup)
    fun name _ => @addsMembers_addLibraries repository processor name
  refine ⟨x.map (only .scenario names.toFinset ⊔ ·), ?_, ?_⟩
  · intro found
    have hstart : ({ processor.plus found with
        scenarios := (processor.plus found).scenarios ∪ names.toFinset } : ScenarioProcessor) =
          processor.plus (found ⊔ only .scenario names.toFinset) := by
      simp [ScenarioProcessor.plus, only]
    change names.dedup.foldlM _ _ = _
    rw [hstart]
    refine (hx _).trans ?_
    cases x with
    | error e => rfl
    | ok a => exact congrArg (fun y => Except.ok (processor.plus y)) (sup_assoc _ _ _)
  · intro z hz kind name
    obtain ⟨a, ha, rfl⟩ := Raised.map_eq_ok.mp hz
    rw [Pi.sup_apply, Finset.sup_eq_union, Finset.mem_union, hmem a ha kind name]
    cases kind with
    | scenario => simp [only, FromTests]
    | impactedLibrary => simp [only, FromTests]
    | scenarioGroup => simp [only, FromTests]
    | library => simp [only, FromTests]
    | lambdaProxyFile => simp [only, FromTests]

/-- What a step adds to a processor, it adds to a selection. -/
theorem addsMembers_lift (selection : ScenarioSelection)
    {f : ScenarioProcessor → Except Raised ScenarioProcessor} {names : Str → Prop}
    (h : Raised.AddsMembers selection.toScenarioProcessor.plus f (FromTests repository names)) :
    Raised.AddsMembers selection.plus
      (fun s => do
        let processor ← f s.toScenarioProcessor
        return { s with toScenarioProcessor := processor })
      (FromTests repository names) := by
  obtain ⟨x, hx, hmem⟩ := h
  refine ⟨x, ?_, hmem⟩
  intro found
  change (do
    let processor ← f (selection.toScenarioProcessor.plus found)
    return ({ selection.plus found with toScenarioProcessor := processor } :
      ScenarioSelection)) = _
  rw [hx]
  cases hfound : x with
  | error e => rfl
  | ok a =>
      refine congrArg Except.ok ?_
      have hgroup : a .scenarioGroup = ∅ :=
        Finset.eq_empty_of_forall_notMem fun name hname => (hmem a hfound _ _).mp hname
      simp [ScenarioSelection.plus, hgroup]

theorem addsMembers_append (selection : ScenarioSelection) (names : List Str) :
    Raised.AddsMembers selection.plus (fun s => s.append repository names)
      (FromTests repository fun name => name ∈ names) :=
  addsMembers_lift selection (addsMembers_appendScenarios _ names)

/-- A test in the file `subFile` has the scenario. -/
def HasScenario (scenariosByFiles : Dict Str (List Str)) (subFile name : Str) : Prop :=
  ∃ names, scenariosByFiles.get? subFile = some names ∧ name ∈ names

/-- A test in the folder has the scenario. -/
def FolderHasScenario (scenariosByFiles : Dict Str (List Str)) (folder name : Str) : Prop :=
  ∃ subFile, folder <+: subFile ∧ HasScenario scenariosByFiles subFile name

theorem addsMembers_appendFolder (selection : ScenarioSelection) (folder : Str) :
    Raised.AddsMembers selection.plus (fun s => s.appendFolder repository folder)
      (FromTests repository (FolderHasScenario selection.scenariosByFiles folder)) := by
  have hfold : Raised.AddsMembers selection.plus
      (fun s => selection.scenariosByFiles.items.foldlM
        (fun s (entry : Str × List Str) =>
          if folder <+: entry.1 then s.append repository entry.2 else return s) s)
      fun kind name => ∃ entry ∈ selection.scenariosByFiles.items, folder <+: entry.1 ∧
        FromTests repository (fun name => name ∈ entry.2) kind name :=
    Raised.AddsMembers.foldlM fun entry _ => (addsMembers_append selection entry.2).ite
  obtain ⟨x, hx, hmem⟩ := hfold
  refine ⟨x, fun found => hx found, fun z hz kind name => (hmem z hz kind name).trans ?_⟩
  have hpush : ∀ entry : Str × List Str,
      folder <+: entry.1 ∧ FromTests repository (fun name => name ∈ entry.2) kind name ↔
        FromTests repository (fun name => folder <+: entry.1 ∧ name ∈ entry.2) kind name := by
    intro entry
    cases kind with
    | scenario => exact Iff.rfl
    | impactedLibrary =>
        constructor
        · rintro ⟨hfolder, scenario, hscenario, h⟩
          exact ⟨scenario, ⟨hfolder, hscenario⟩, h⟩
        · rintro ⟨scenario, ⟨hfolder, hscenario⟩, h⟩
          exact ⟨hfolder, scenario, hscenario, h⟩
    | scenarioGroup => exact iff_of_eq (and_false _)
    | library => exact iff_of_eq (and_false _)
    | lambdaProxyFile => exact iff_of_eq (and_false _)
  simp only [hpush, fromTests_exists]
  refine fromTests_congr (fun name => ?_) kind name
  simp only [FolderHasScenario, HasScenario, Prod.exists, Dict.mem_items_iff]
  constructor
  · rintro ⟨subFile, names, hget, hfolder, hname⟩
    exact ⟨subFile, hfolder, names, hget, hname⟩
  · rintro ⟨subFile, hfolder, names, hget, hname⟩
    exact ⟨subFile, names, hget, hfolder, hname⟩

/-- What the rule of a file adds. -/
def FromRule (param : Option Param) : Kind → Str → Prop
  | .scenario, name => ∃ p, param = some p ∧ name ∈ p.scenarios
  | .scenarioGroup, name =>
      match param with
      | some p => name ∈ p.scenarioGroups
      | none => name = "all"
  | _, _ => False

/-- The scenarios of the tests in a file. -/
def appendFile (file : Str) (selection : ScenarioSelection) : Except Raised ScenarioSelection :=
  match selection.scenariosByFiles.get? file with
  | some scenarioNames => selection.append repository scenarioNames
  | none => return selection

def selectParam (param : Option Param) (selection : ScenarioSelection) : ScenarioSelection :=
  match param with
  | some param =>
      { selection with
        scenarioGroups := selection.scenarioGroups ∪ param.scenarioGroups
        scenarios := selection.scenarios ∪ param.scenarios }
  | none => { selection with scenarioGroups := selection.scenarioGroups ∪ {"all".toList} }

theorem processRegularFile_eq (selection : ScenarioSelection) (file : Str) (param : Option Param) :
    selection.processRegularFile repository file param =
      (Except.ok (selectParam param selection) >>= @appendFile repository file) := by
  cases param with
  | none => rfl
  | some param => rfl

theorem addsMembers_selectParam (selection : ScenarioSelection) (param : Option Param) :
    Raised.AddsMembers selection.plus (fun s => .ok (selectParam param s)) (FromRule param) := by
  cases param with
  | none =>
      refine ⟨.ok (only .scenarioGroup {"all".toList}), fun found => ?_, ?_⟩
      · refine congrArg Except.ok ?_
        simp [selectParam, ScenarioSelection.plus, ScenarioProcessor.plus, only]
      · rintro z hz kind name
        obtain rfl := Except.ok.inj hz
        cases kind <;> simp [only, FromRule]
  | some param =>
      refine ⟨.ok (only .scenarioGroup param.scenarioGroups ⊔ only .scenario param.scenarios),
        fun found => ?_, ?_⟩
      · refine congrArg Except.ok ?_
        simp [selectParam, ScenarioSelection.plus, ScenarioProcessor.plus, only]
      · rintro z hz kind name
        obtain rfl := Except.ok.inj hz
        cases kind <;> simp [only, FromRule]

theorem addsMembers_appendOption (selection : ScenarioSelection) (names : Option (List Str)) :
    Raised.AddsMembers selection.plus
      (fun s => match names with
        | some names => s.append repository names
        | none => .ok s)
      (FromTests repository fun name => ∃ ns, names = some ns ∧ name ∈ ns) := by
  cases names with
  | none =>
      refine Raised.AddsMembers.skip.congr fun kind name => ?_
      cases kind <;> simp [FromTests]
  | some names =>
      refine (addsMembers_append selection names).congr (fromTests_congr fun name => ?_)
      simp

theorem addsMembers_processRegularFile (selection : ScenarioSelection) (file : Str)
    (param : Option Param) :
    Raised.AddsMembers selection.plus (fun s => s.processRegularFile repository file param)
      fun kind name => FromRule param kind name ∨
        FromTests repository (HasScenario selection.scenariosByFiles file) kind name := by
  simp only [processRegularFile_eq]
  refine (addsMembers_selectParam selection param).bind ?_
  obtain ⟨x, hx, hmem⟩ := @addsMembers_appendOption repository selection
    (selection.scenariosByFiles.get? file)
  exact ⟨x, fun found => hx found, hmem⟩

theorem addsMembers_processTestFiles (selection : ScenarioSelection) (file : Str) :
    Raised.AddsMembers selection.plus (fun s => s.processTestFiles repository file)
      (FromTests repository fun name => ∃ folder, impactedFolder file = some folder ∧
        FolderHasScenario selection.scenariosByFiles folder name) := by
  cases hfolder : impactedFolder file with
  | none =>
      simp only [ScenarioSelection.processTestFiles, hfolder]
      refine Raised.AddsMembers.skip.congr fun kind name => ?_
      cases kind <;> simp [FromTests]
  | some folder =>
      simp only [ScenarioSelection.processTestFiles, hfolder]
      refine (addsMembers_appendFolder selection folder).congr (fromTests_congr fun name => ?_)
      simp

/-- A modified file adds the scenario because of a test or of its definition. -/
def FileHasScenario (repository : Repository) (scenariosByFiles : Dict Str (List Str))
    (file name : Str) : Prop :=
  (∃ folder, impactedFolder file = some folder ∧ FolderHasScenario scenariosByFiles folder name) ∨
    HasScenario scenariosByFiles file name ∨
    ∃ names, repository.scenariosByDefinitionFile.get? file = some names ∧ name ∈ names

theorem addsMembers_add (selection : ScenarioSelection) (file : Str) (param : Option Param) :
    Raised.AddsMembers selection.plus (fun s => s.add repository file param)
      fun kind name => FromRule param kind name ∨
        FromTests repository (FileHasScenario repository selection.scenariosByFiles file)
          kind name := by
  have hdefinition := @addsMembers_appendOption repository selection
    (repository.scenariosByDefinitionFile.get? file)
  refine ((addsMembers_processTestFiles selection file).bind
    ((addsMembers_processRegularFile selection file param).bind hdefinition)).congr
      fun kind name => ?_
  rw [or_assoc, or_left_comm, fromTests_or, fromTests_or]
  rfl

end Steps

section Files

variable {repository : Repository} {impacts : Dict Str Param}

/-- What a modified file adds. -/
def FromFile (repository : Repository) (impacts : Dict Str Param) (processors : Processors)
    (file : Str) : Kind → Str → Prop
  | .library, name => processors.libraryProcessor.isEnforced = false ∧
      name ∈ computeImpacted repository (matchPatterns file impacts)
  | .lambdaProxyFile, name => name = file ∧ isLambdaProxyFile file = true
  | kind, name => FromRule (matchPatterns file impacts) kind name ∨
      FromTests repository (FileHasScenario repository
        processors.scenarioProcessor.scenariosByFiles file) kind name

theorem plus_add (processor : LibraryProcessor) (found : Impact) (param : Option Param) :
    (processor.plus found).add repository param = processor.plus (found ⊔
      only .library (if processor.isEnforced then ∅ else computeImpacted repository param)) := by
  by_cases henforced : processor.isEnforced = true
  · have h : (processor.plus found).isEnforced = true := henforced
    rw [LibraryProcessor.add, if_pos h, if_pos henforced]
    simp [LibraryProcessor.plus, only]
  · have h : ¬ (processor.plus found).isEnforced = true := henforced
    rw [LibraryProcessor.add, if_neg h, if_neg henforced]
    simp [LibraryProcessor.plus, only]

theorem plus_rebuild (b : Bool) (found : Impact) (file : Str) :
    (b || decide (found .lambdaProxyFile ≠ ∅) || isLambdaProxyFile file) =
      (b || decide ((found ⊔ only .lambdaProxyFile
        (if isLambdaProxyFile file then {file} else ∅)) .lambdaProxyFile ≠ ∅)) := by
  by_cases hfile : isLambdaProxyFile file = true
  · simp [hfile, only, ← Finset.nonempty_iff_ne_empty]
  · simp [hfile, only]

theorem addsMembers_processFile (processors : Processors) (file : Str) :
    Raised.AddsMembers processors.plus (fun p => processFile repository impacts p file)
      (FromFile repository impacts processors file) := by
  obtain ⟨x, hx, hmem⟩ := @addsMembers_add repository
    processors.scenarioProcessor file (matchPatterns file impacts)
  refine ⟨x.map fun a => a ⊔ (only .library (if processors.libraryProcessor.isEnforced then ∅
    else computeImpacted repository (matchPatterns file impacts)) ⊔
      only .lambdaProxyFile (if isLambdaProxyFile file then {file} else ∅)), ?_, ?_⟩
  · intro found
    change (do
      let scenarioProcessor ← (processors.scenarioProcessor.plus found).add repository file
        (matchPatterns file impacts)
      return ({
        scenarioProcessor
        libraryProcessor := (processors.libraryProcessor.plus found).add repository
          (matchPatterns file impacts)
        rebuildLambdaProxy := processors.rebuildLambdaProxy ||
          decide (found .lambdaProxyFile ≠ ∅) || isLambdaProxyFile file } : Processors)) = _
    have hadd : (processors.scenarioProcessor.plus found).add repository file
        (matchPatterns file impacts) = _ := hx found
    rw [hadd, plus_add, plus_rebuild]
    cases hfound : x with
    | error e => rfl
    | ok a =>
        refine congrArg Except.ok ?_
        -- the scenarios of a file add no library themselves
        have hempty : ∀ kind, kind = .library ∨ kind = .lambdaProxyFile → a kind = ∅ := by
          rintro kind hkind
          refine Finset.eq_empty_of_forall_notMem fun name hname => ?_
          have h := (hmem a hfound kind name).mp hname
          rcases hkind with rfl | rfl
          · exact h.elim id id
          · exact h.elim id id
        simp [Processors.plus, ScenarioSelection.plus, ScenarioProcessor.plus,
          LibraryProcessor.plus, only, hempty]
  · intro z hz kind name
    obtain ⟨a, ha, rfl⟩ := Raised.map_eq_ok.mp hz
    have h := hmem a ha kind name
    cases kind with
    | scenario => simpa [only, FromFile] using h
    | scenarioGroup => simpa [only, FromFile] using h
    | impactedLibrary => simpa [only, FromFile] using h
    | library =>
        have hnone : name ∉ a .library := fun hname => (h.mp hname).elim id id
        by_cases henforced : processors.libraryProcessor.isEnforced = true
        · simp [only, FromFile, hnone, henforced]
        · simp [only, FromFile, hnone, henforced]
    | lambdaProxyFile =>
        have hnone : name ∉ a .lambdaProxyFile := fun hname => (h.mp hname).elim id id
        by_cases hfile : isLambdaProxyFile file = true
        · simp [only, FromFile, hnone, hfile]
        · simp [only, FromFile, hnone, hfile]

end Files

section Title

variable {repository : Repository}

/-- The title chooses a library, possibly with a branch: `[library] ..` or `[library@branch] ..` -/
inductive TitleChooses (repository : Repository) (prTitle library : Str) : Option Str → Prop
  | plain (rest : Str) (hlibrary : library ∈ repository.allLibraries)
      (htitle : prTitle = '[' :: library ++ ']' :: rest) :
      TitleChooses repository prTitle library none
  | branch (branch rest : Str) (hlibrary : library ∈ repository.allLibraries) (hne : branch ≠ [])
      (hbranch : ']' ∉ branch) (htitle : prTitle = '[' :: library ++ '@' :: branch ++ ']' :: rest) :
      TitleChooses repository prTitle library (some branch)

theorem mem_run_alternatives {libraries : List Str} {s : Str} {caps : List (Nat × Str)}
    {m : Match} :
    m ∈ Regex.run (libraries.foldr (fun library rx => .alt (.lit library) rx)
      (.chars fun _ => false)) (s, caps) ↔
        ∃ library rest, s = library ++ rest ∧ library ∈ libraries ∧ m = (rest, caps) := by
  induction libraries with
  | nil => simp [mem_run_chars]
  | cons l libraries ih =>
      rw [List.foldr_cons, Regex.run, List.mem_append, ih, mem_run_lit]
      constructor
      · rintro (⟨rest, rfl, rfl⟩ | ⟨library, rest, rfl, hmem, rfl⟩)
        · exact ⟨l, rest, rfl, List.mem_cons_self .., rfl⟩
        · exact ⟨library, rest, rfl, List.mem_cons_of_mem _ hmem, rfl⟩
      · rintro ⟨library, rest, rfl, hmem, rfl⟩
        rcases List.mem_cons.mp hmem with rfl | hmem
        · exact Or.inl ⟨rest, rfl, rfl⟩
        · exact Or.inr ⟨library, rest, rfl, hmem, rfl⟩

theorem mem_run_libraryGroup {s : Str} {caps : List (Nat × Str)} {m : Match} :
    m ∈ Regex.run (.group 1 (repository.allLibraries.foldr
      (fun library rx => .alt (.lit library) rx) (.chars fun _ => false))) (s, caps) ↔
        ∃ library rest, s = library ++ rest ∧ library ∈ repository.allLibraries ∧
          m = (rest, (1, library) :: caps) := by
  rw [mem_run_group (P := fun d _ caps' => d ∈ repository.allLibraries ∧ caps' = caps)]
  · constructor
    · rintro ⟨library, rest, _, hs, ⟨hlibrary, rfl⟩, hm⟩
      exact ⟨library, rest, hs, hlibrary, hm⟩
    · rintro ⟨library, rest, hs, hlibrary, hm⟩
      exact ⟨library, rest, caps, hs, ⟨hlibrary, rfl⟩, hm⟩
  · intro m'
    rw [mem_run_alternatives]
    constructor
    · rintro ⟨library, rest, hs, hlibrary, hm⟩
      exact ⟨library, rest, caps, hs, ⟨hlibrary, rfl⟩, hm⟩
    · rintro ⟨library, rest, _, hs, ⟨hlibrary, rfl⟩, hm⟩
      exact ⟨library, rest, hs, hlibrary, hm⟩

theorem mem_run_branch {s : Str} {caps : List (Nat × Str)} {m : Match} :
    m ∈ Regex.run (.seq (.char '@') (.group 2 (.plus (.chars (· != ']'))))) (s, caps) ↔
      ∃ branch rest, s = '@' :: branch ++ rest ∧ branch ≠ [] ∧ ']' ∉ branch ∧
        m = (rest, (2, branch) :: caps) := by
  rw [mem_run_seq]
  constructor
  · rintro ⟨x, hx, hm⟩
    obtain ⟨t, rfl, rfl⟩ := mem_run_char.mp hx
    obtain ⟨branch, rest, rfl, hne, hbranch, rfl⟩ := mem_run_group_plus_chars.mp hm
    refine ⟨branch, rest, rfl, hne, fun hmem => ?_, rfl⟩
    exact absurd (hbranch _ hmem) (by simp)
  · rintro ⟨branch, rest, rfl, hne, hbranch, rfl⟩
    refine ⟨(branch ++ rest, caps), mem_run_char.mpr ⟨_, rfl, rfl⟩, ?_⟩
    refine mem_run_group_plus_chars.mpr ⟨branch, rest, rfl, hne, fun c hc => ?_, rfl⟩
    rw [bne_iff_ne]
    rintro rfl
    exact hbranch hc

theorem mem_run_prTitlePattern {prTitle : Str} {m : Match} :
    m ∈ Regex.run (prTitlePattern repository) (prTitle, []) ↔
      ∃ library ∈ repository.allLibraries, ∃ rest,
        (prTitle = '[' :: library ++ ']' :: rest ∧ m = (rest, [(1, library)])) ∨
          ∃ branch, branch ≠ [] ∧ ']' ∉ branch ∧
            prTitle = '[' :: library ++ '@' :: branch ++ ']' :: rest ∧
              m = (rest, [(2, branch), (1, library)]) := by
  simp only [prTitlePattern, Rx.seqs, List.foldr_cons, List.foldr_nil, mem_run_seq]
  constructor
  · rintro ⟨x₁, h₁, x₂, h₂, x₃, h₃, x₄, h₄, h₅⟩
    obtain ⟨t, rfl, rfl⟩ := mem_run_char.mp h₁
    obtain ⟨library, rest, rfl, hlibrary, rfl⟩ := mem_run_libraryGroup.mp h₂
    obtain rfl : m = x₄ := List.mem_singleton.mp h₅
    rcases mem_run_opt.mp h₃ with h₃ | rfl
    · obtain ⟨branch, rest', rfl, hne, hbranch, rfl⟩ := mem_run_branch.mp h₃
      obtain ⟨rest, rfl, rfl⟩ := mem_run_char.mp h₄
      exact ⟨library, hlibrary, rest, Or.inr ⟨branch, hne, hbranch, by simp, rfl⟩⟩
    · obtain ⟨rest, rfl, rfl⟩ := mem_run_char.mp h₄
      exact ⟨library, hlibrary, rest, Or.inl ⟨rfl, rfl⟩⟩
  · rintro ⟨library, hlibrary, rest, ⟨rfl, rfl⟩ | ⟨branch, hne, hbranch, rfl, rfl⟩⟩
    · exact ⟨_, mem_run_char.mpr ⟨_, rfl, rfl⟩,
        _, mem_run_libraryGroup.mpr ⟨library, ']' :: rest, rfl, hlibrary, rfl⟩,
        _, mem_run_opt.mpr (Or.inr rfl), _, mem_run_char.mpr ⟨rest, rfl, rfl⟩,
        List.mem_singleton_self _⟩
    · refine ⟨(library ++ ('@' :: branch ++ ']' :: rest), []), mem_run_char.mpr ⟨_, by simp, rfl⟩,
        _, mem_run_libraryGroup.mpr ⟨library, '@' :: branch ++ ']' :: rest, rfl, hlibrary, rfl⟩,
        _, mem_run_opt.mpr (Or.inl (mem_run_branch.mpr ⟨branch, ']' :: rest, rfl, hne, hbranch,
          rfl⟩)), _, mem_run_char.mpr ⟨rest, rfl, rfl⟩, List.mem_singleton_self _⟩

/-- What ends the name of a library in a title. -/
def isMark (c : Char) : Bool := c = '@' || c = ']'

theorem TitleChooses.cut {prTitle library : Str} {branch : Option Str}
    (h : TitleChooses repository prTitle library branch) :
    (∀ c ∈ library, isMark c = false) ∧ ∃ mark rest, isMark mark = true ∧
      prTitle = '[' :: (library ++ mark :: rest) ∧
        ((mark = ']' ∧ branch = none) ∨ (mark = '@' ∧ ∃ name rest', branch = some name ∧
          ']' ∉ name ∧ rest = name ++ ']' :: rest')) := by
  have hmarks : ∀ library ∈ repository.allLibraries, ∀ c ∈ library, isMark c = false := by
    intro library hlibrary c hc
    obtain ⟨-, hat, hbracket⟩ := repository.plain_allLibraries _ hlibrary
    have hneat : c ≠ '@' := fun heq => hat (heq ▸ hc)
    have hnebracket : c ≠ ']' := fun heq => hbracket (heq ▸ hc)
    simp [isMark, hneat, hnebracket]
  cases h with
  | plain rest hlibrary htitle =>
      exact ⟨hmarks _ hlibrary, ']', rest, rfl, htitle, Or.inl ⟨rfl, rfl⟩⟩
  | branch name rest hlibrary hne hbranch htitle =>
      exact ⟨hmarks _ hlibrary, '@', _, rfl, by simpa using htitle,
        Or.inr ⟨rfl, name, rest, rfl, hbranch, rfl⟩⟩

/-- At most one library is chosen, whatever the order in which they are tried. -/
theorem TitleChooses.unique {prTitle library library' : Str} {branch branch' : Option Str}
    (h : TitleChooses repository prTitle library branch)
    (h' : TitleChooses repository prTitle library' branch') :
    library = library' ∧ branch = branch' := by
  obtain ⟨hlibrary, mark, rest, hmark, htitle, hbranch⟩ := h.cut
  obtain ⟨hlibrary', mark', rest', hmark', htitle', hbranch'⟩ := h'.cut
  rw [htitle] at htitle'
  obtain ⟨hname, hsame, hrest⟩ := append_cons_inj hmark hmark' hlibrary hlibrary'
    (List.cons.inj htitle').2
  refine ⟨hname, ?_⟩
  rcases hbranch with ⟨rfl, rfl⟩ | ⟨rfl, name, tail, rfl, hname, rfl⟩
  · rcases hbranch' with ⟨-, rfl⟩ | ⟨rfl, -⟩
    · rfl
    · exact absurd hsame (by decide)
  · rcases hbranch' with ⟨rfl, -⟩ | ⟨-, name', tail', rfl, hname', rfl⟩
    · exact absurd hsame (by decide)
    · rw [(append_cons_inj_of_not_mem hname hname' hrest).1]

theorem exists_mem_run_prTitlePattern {prTitle library : Str} {branch : Option Str}
    (h : TitleChooses repository prTitle library branch) :
    ∃ m, m ∈ Regex.run (prTitlePattern repository) (prTitle, []) := by
  cases h with
  | plain rest hlibrary htitle =>
      exact ⟨_, mem_run_prTitlePattern.mpr ⟨library, hlibrary, rest, Or.inl ⟨htitle, rfl⟩⟩⟩
  | branch name rest hlibrary hne hbranch htitle =>
      exact ⟨_, mem_run_prTitlePattern.mpr ⟨library, hlibrary, rest,
        Or.inr ⟨name, hne, hbranch, htitle, rfl⟩⟩⟩

theorem titleChooses_of_mem_run {prTitle : Str} {m : Match}
    (h : m ∈ Regex.run (prTitlePattern repository) (prTitle, [])) :
    ∃ library, capture 1 m = some library ∧
      TitleChooses repository prTitle library (capture 2 m) := by
  obtain ⟨library, hlibrary, rest, ⟨htitle, rfl⟩ | ⟨name, hne, hbranch, htitle, rfl⟩⟩ :=
    mem_run_prTitlePattern.mp h
  · exact ⟨library, rfl, .plain rest hlibrary htitle⟩
  · exact ⟨library, rfl, .branch name rest hlibrary hne hbranch htitle⟩

theorem processPrTitle_of_chooses (processor : LibraryProcessor) {prTitle library : Str}
    {branch : Option Str} (h : TitleChooses repository prTitle library branch) :
    processor.processPrTitle repository prTitle =
      ⟨processor.selected ∪ {library}, some library, branch⟩ := by
  obtain ⟨m, hm⟩ := exists_mem_run_prTitlePattern h
  have hsome : (matchStart (prTitlePattern repository) prTitle).isSome = true := by
    rw [matchStart, List.isSome_head?]
    exact List.ne_nil_of_mem hm
  obtain ⟨m', hm'⟩ := Option.isSome_iff_exists.mp hsome
  obtain ⟨library', hcapture, hchooses⟩ := titleChooses_of_mem_run (List.mem_of_mem_head? hm')
  obtain ⟨rfl, rfl⟩ := h.unique hchooses
  simp only [LibraryProcessor.processPrTitle, hm', hcapture, Option.getD_some]

theorem processPrTitle_of_forall_not (processor : LibraryProcessor) {prTitle : Str}
    (h : ∀ library branch, ¬ TitleChooses repository prTitle library branch) :
    processor.processPrTitle repository prTitle = processor := by
  cases hm : matchStart (prTitlePattern repository) prTitle with
  | none => rw [LibraryProcessor.processPrTitle, hm]
  | some m =>
      obtain ⟨library, -, hchooses⟩ := titleChooses_of_mem_run (List.mem_of_mem_head? hm)
      exact absurd hchooses (h _ _)

/-- The libraries that the title adds, and whether it enforces them. -/
theorem mem_processPrTitle {prTitle library : Str} :
    library ∈ ((LibraryProcessor.new ∅).processPrTitle repository prTitle).selected ↔
      ∃ branch, TitleChooses repository prTitle library branch := by
  by_cases hchooses : ∃ library branch, TitleChooses repository prTitle library branch
  · obtain ⟨library', branch, h⟩ := hchooses
    rw [processPrTitle_of_chooses _ h]
    constructor
    · intro hmem
      obtain rfl : library = library' := by simpa [LibraryProcessor.new] using hmem
      exact ⟨branch, h⟩
    · rintro ⟨branch', h'⟩
      simp [(h'.unique h).1]
  · have hnone : ∀ library branch, ¬ TitleChooses repository prTitle library branch :=
      fun library branch h => hchooses ⟨library, branch, h⟩
    rw [processPrTitle_of_forall_not _ hnone]
    simp [LibraryProcessor.new, hnone]

theorem isEnforced_processPrTitle {prTitle : Str} :
    ((LibraryProcessor.new ∅).processPrTitle repository prTitle).isEnforced = true ↔
      ∃ library branch, TitleChooses repository prTitle library (some branch) := by
  by_cases hchooses : ∃ library branch, TitleChooses repository prTitle library branch
  · obtain ⟨library, branch, h⟩ := hchooses
    rw [processPrTitle_of_chooses _ h]
    cases h with
    | plain rest hlibrary htitle =>
        refine ⟨fun henforced => absurd henforced (by simp [LibraryProcessor.isEnforced]), ?_⟩
        rintro ⟨library', branch', h'⟩
        exact absurd ((TitleChooses.plain rest hlibrary htitle).unique h').2 (by simp)
    | branch name rest hlibrary hne hbranch htitle =>
        have hname := (repository.plain_allLibraries _ hlibrary).1
        refine ⟨fun _ => ⟨library, name, .branch name rest hlibrary hne hbranch htitle⟩, fun _ => ?_⟩
        simp [LibraryProcessor.isEnforced, hname, hne]
  · have hnone : ∀ library branch, ¬ TitleChooses repository prTitle library branch :=
      fun library branch h => hchooses ⟨library, branch, h⟩
    rw [processPrTitle_of_forall_not _ hnone]
    refine ⟨fun henforced => absurd henforced (by simp [LibraryProcessor.new,
      LibraryProcessor.isEnforced]), ?_⟩
    rintro ⟨library, branch, h⟩
    exact absurd h (hnone _ _)

end Title

section Selected

variable {repository : Repository} {inputs : PipelineInputs}

/-- The manifests impact the scenario. -/
def ManifestHasScenario (repository : Repository) (inputs : PipelineInputs) (name : Str) : Prop :=
  ∃ scenarioMap nodeid names, inputs.scenarioMap = some scenarioMap ∧
    scenarioMap.get? nodeid = some names ∧ name ∈ names ∧
      ∃ modified ∈ modifiedNodeids repository.rangeEq inputs.toInputs, modified <+: nodeid

theorem addsMembers_processManifests (processor : ScenarioProcessor) :
    Raised.AddsMembers processor.plus
      (fun p => processManifests repository.rangeEq repository.lower repository.scenarios p
        inputs.toInputs)
      (FromTests repository (ManifestHasScenario repository inputs)) := by
  cases hmap : inputs.scenarioMap with
  | none =>
      simp only [processManifests, hmap]
      refine Raised.AddsMembers.skip.congr fun kind name => ?_
      cases kind <;> simp [FromTests, ManifestHasScenario, hmap]
  | some scenarioMap =>
      simp only [processManifests, hmap]
      have hnode : ∀ entry ∈ scenarioMap.items, Raised.AddsMembers processor.plus
          (fun p => processNode repository.lower repository.scenarios
            (modifiedNodeids repository.rangeEq inputs.toInputs) p entry)
          (FromTests repository fun name =>
            (modifiedNodeids repository.rangeEq inputs.toInputs).any (·.isPrefixOf entry.1) = true ∧
              name ∈ entry.2) := by
        intro entry _
        by_cases hany : (modifiedNodeids repository.rangeEq inputs.toInputs).any
            (·.isPrefixOf entry.1) = true
        · simp only [processNode, hany, if_true]
          exact (addsMembers_appendScenarios processor entry.2).congr
            (fromTests_congr fun name => by simp)
        · simp only [processNode, hany]
          refine Raised.AddsMembers.skip.congr fun kind name => ?_
          cases kind <;> simp [FromTests]
      refine (Raised.AddsMembers.foldlM hnode).congr fun kind name => ?_
      rw [fromTests_exists]
      refine fromTests_congr (fun name => ?_) kind name
      simp only [ManifestHasScenario, hmap, Prod.exists, Dict.mem_items_iff, List.any_eq_true,
        List.isPrefixOf_iff_prefix, Option.some.injEq]
      constructor
      · rintro ⟨nodeid, names, hget, hmodified, hname⟩
        exact ⟨scenarioMap, nodeid, names, rfl, hget, hname, hmodified⟩
      · rintro ⟨_, nodeid, names, rfl, hget, hname, hmodified⟩
        exact ⟨nodeid, names, hget, hmodified, hname⟩

theorem hasScenario_addScenarioOfFile {byFiles : Dict Str (List Str)} {file scenarioName : Str}
    (subFile name : Str) :
    HasScenario (addScenarioOfFile file byFiles scenarioName) subFile name ↔
      HasScenario byFiles subFile name ∨ (subFile = file ∧ name = scenarioName) := by
  unfold HasScenario addScenarioOfFile
  rw [Dict.get?_set]
  by_cases hfile : subFile = file
  · subst hfile
    cases hget : byFiles.get? subFile with
    | none => simp
    | some names =>
        by_cases hmem : scenarioName ∈ names
        · simp only [if_true, Option.getD_some, hmem, Option.some.injEq, exists_eq_left', true_and]
          exact ⟨Or.inl, fun h => h.elim id fun h => h ▸ hmem⟩
        · simp [hmem]
  · simp [hfile]

theorem hasScenario_foldl_addScenarioOfFile {file : Str} (subFile name : Str) :
    ∀ (scenarioNames : List Str) (byFiles : Dict Str (List Str)),
      HasScenario (scenarioNames.foldl (addScenarioOfFile file) byFiles) subFile name ↔
        HasScenario byFiles subFile name ∨ (subFile = file ∧ name ∈ scenarioNames)
  | [], byFiles => by simp
  | scenarioName :: scenarioNames, byFiles => by
      rw [List.foldl_cons, hasScenario_foldl_addScenarioOfFile subFile name scenarioNames,
        hasScenario_addScenarioOfFile, List.mem_cons, or_assoc, ← and_or_left]

/-- The scenarios of a file are those of its tests. -/
theorem hasScenario_computeScenariosByFiles {scenarioMap : Dict Str (List Str)}
    (subFile name : Str) :
    HasScenario (computeScenariosByFiles (some scenarioMap) .empty) subFile name ↔
      ∃ nodeid names, scenarioMap.get? nodeid = some names ∧ before ':' nodeid = subFile ∧
        name ∈ names := by
  have hfold : ∀ (items : List (Str × List Str)) (byFiles : Dict Str (List Str)),
      HasScenario (items.foldl (fun byFiles entry =>
        entry.2.foldl (addScenarioOfFile (before ':' entry.1)) byFiles) byFiles) subFile name ↔
          HasScenario byFiles subFile name ∨
            ∃ entry ∈ items, before ':' entry.1 = subFile ∧ name ∈ entry.2 := by
    intro items
    induction items with
    | nil => simp
    | cons entry items ih =>
        intro byFiles
        rw [List.foldl_cons, ih, hasScenario_foldl_addScenarioOfFile, or_assoc,
          List.exists_mem_cons_iff, eq_comm]
  refine (hfold scenarioMap.items .empty).trans ?_
  simp only [Prod.exists, Dict.mem_items_iff]
  refine ⟨fun h => h.elim ?_ id, Or.inr⟩
  rintro ⟨names, hget, -⟩
  exact absurd hget (by simp)

/-- A scenario is impacted by the manifests, or by a modified file. -/
def IsImpacted (repository : Repository) (inputs : PipelineInputs) (name : Str) : Prop :=
  ManifestHasScenario repository inputs name ∨ ∃ file ∈ inputs.modifiedFiles,
    FileHasScenario repository (computeScenariosByFiles inputs.scenarioMap .empty) file name

/-- What is known before anything is added: the title, and the scenarios of the tests. -/
def baseProcessors (repository : Repository) (inputs : PipelineInputs) : Processors where
  scenarioProcessor := { ScenarioSelection.new ∅ with
    scenariosByFiles := computeScenariosByFiles inputs.scenarioMap .empty }
  libraryProcessor := (LibraryProcessor.new ∅).processPrTitle repository inputs.prTitle
  rebuildLambdaProxy := false

theorem initialProcessors_eq (repository : Repository) (inputs : PipelineInputs) :
    ∃ found : Except Raised Impact,
      initialProcessors repository inputs = found.map (baseProcessors repository inputs).plus ∧
        ∀ z, found = .ok z → ∀ kind name,
          name ∈ z kind ↔ FromTests repository (ManifestHasScenario repository inputs) kind name := by
  obtain ⟨x, hx, hmem⟩ := @addsMembers_processManifests repository inputs
    (ScenarioSelection.new ∅).toScenarioProcessor
  refine ⟨x, ?_, hmem⟩
  have hmanifests : processManifests repository.rangeEq repository.lower repository.scenarios
      ((ScenarioSelection.new ∅).toScenarioProcessor.plus ⊥) inputs.toInputs = _ := hx ⊥
  rw [ScenarioProcessor.plus_bot] at hmanifests
  unfold initialProcessors
  change processManifests repository.rangeEq repository.lower repository.scenarios _ _ >>= _ = _
  rw [hmanifests]
  cases hfound : x with
  | error e => rfl
  | ok a =>
      refine congrArg Except.ok ?_
      have hempty : ∀ kind, kind ≠ .scenario → kind ≠ .impactedLibrary → a kind = ∅ := by
        intro kind hscenario himpacted
        refine Finset.eq_empty_of_forall_notMem fun name hname => ?_
        have h := (hmem a hfound kind name).mp hname
        cases kind with
        | scenario => exact hscenario rfl
        | impactedLibrary => exact himpacted rfl
        | scenarioGroup => exact h
        | library => exact h
        | lambdaProxyFile => exact h
      simp [baseProcessors, Processors.plus, ScenarioSelection.plus, LibraryProcessor.plus,
        ScenarioSelection.new, hempty]

/-- The selection from a diff: what the manifests add, and what each file adds. -/
theorem selectProcessors_eq (repository : Repository) (inputs : PipelineInputs)
    (hdiff : inputs.selectsScenariosFromDiff = true) :
    ∃ (found : Except Raised Impact) (amount : Str → Except Raised Impact),
      (∀ files, selectProcessors repository { inputs with modifiedFiles := files } = do
        let a ← found
        let b ← Raised.total amount files
        return activateImpacted ((baseProcessors repository inputs).plus (a ⊔ b))) ∧
      (∀ z, found = .ok z → ∀ kind name,
        name ∈ z kind ↔ FromTests repository (ManifestHasScenario repository inputs) kind name) ∧
      ∀ file z, amount file = .ok z → ∀ kind name,
        name ∈ z kind ↔
          FromFile repository inputs.impacts (baseProcessors repository inputs) file kind name := by
  obtain ⟨found, hfound, hmanifest⟩ := initialProcessors_eq repository inputs
  choose amount hadds hmem using fun file => @addsMembers_processFile repository
    inputs.impacts (baseProcessors repository inputs) file
  refine ⟨found, amount, fun files => ?_, hmanifest, hmem⟩
  have hfiles := Raised.Adds.foldlM files fun file _ => hadds file
  have hinitial : initialProcessors repository { inputs with modifiedFiles := files } =
      found.map (baseProcessors repository inputs).plus := hfound
  have hselects : ({ inputs with modifiedFiles := files } :
      PipelineInputs).selectsScenariosFromDiff = true := hdiff
  rw [selectProcessors, if_pos hselects, hinitial]
  cases found with
  | error e => rfl
  | ok a =>
      change (files.foldlM (processFile repository inputs.impacts)
        ((baseProcessors repository inputs).plus a) >>= _) = _
      rw [show files.foldlM (processFile repository inputs.impacts)
        ((baseProcessors repository inputs).plus a) = _ from hfiles a]
      cases Raised.total amount files with
      | error e => rfl
      | ok b => rfl

theorem mem_total {amount : Str → Except Raised Impact} {P : Str → Kind → Str → Prop}
    (hmem : ∀ file z, amount file = .ok z → ∀ kind name, name ∈ z kind ↔ P file kind name) :
    ∀ {files : List Str} {z : Impact}, Raised.total amount files = .ok z →
      ∀ kind name, name ∈ z kind ↔ ∃ file ∈ files, P file kind name
  | [], z, h, kind, name => by
      obtain rfl : ⊥ = z := Except.ok.inj h
      simp
  | file :: files, z, h, kind, name => by
      obtain ⟨x, y, hx, hy, rfl⟩ := Raised.total_cons_eq_ok.mp h
      rw [Pi.sup_apply, Finset.sup_eq_union, Finset.mem_union, hmem file x hx,
        mem_total hmem hy, List.exists_mem_cons_iff]

def smallRepository : Repository where
  libraries := {"python".toList}
  otelLibraries := ∅
  allLibraries := ["python"]
  mem_allLibraries library := by simp
  plain_allLibraries := by decide
  lower := id
  rangeEq range range' := range.expression = range'.expression
  scenarioNames := {"APPSEC".toList, "DEFAULT".toList}
  scenarios _ := some ⟨some {"python".toList}⟩
  scenarioGroups _ := some []
  groupNames := ["all"]
  scenariosByDefinitionFile := .empty
  reprSet _ := []

/-- A file that is shared by the tests of a folder, and a file that no rule matches. -/
def smallDiff : PipelineInputs where
  newManifests := .empty
  oldManifests := .empty
  scenarioMap := some (.setAll .empty [("tests/test_a.py::Test_A::test_b", ["APPSEC"])])
  isGitlab := false
  eventName := "pull_request"
  ref := []
  prTitle := "[python] fix"
  selectMainPushFromDiff := false
  impacts := .setAll .empty [("tests/*", ⟨{"python".toList}, ∅, ∅⟩)]
  modifiedFiles := ["tests/utils.py", "README.md"]

/-- **What a diff selects.** -/
theorem mem_selected_iff (repository : Repository) (inputs : PipelineInputs)
    (processors : Processors) (hdiff : inputs.selectsScenariosFromDiff = true)
    (h : selectProcessors repository inputs = .ok processors) :
    (∀ name, name ∈ processors.scenarioProcessor.scenarios ↔
      name = "DEFAULT" ∨ IsImpacted repository inputs name ∨
        ∃ file ∈ inputs.modifiedFiles, ∃ param,
          matchPatterns file inputs.impacts = some param ∧ name ∈ param.scenarios) ∧
    (∀ name, name ∈ processors.scenarioProcessor.scenarioGroups ↔
      ∃ file ∈ inputs.modifiedFiles, FromRule (matchPatterns file inputs.impacts)
        .scenarioGroup name) ∧
    (∀ library, library ∈ processors.libraryProcessor.selected ↔
      (∃ branch, TitleChooses repository inputs.prTitle library branch) ∨
        ((¬ ∃ chosen branch, TitleChooses repository inputs.prTitle chosen (some branch)) ∧
          ∃ file ∈ inputs.modifiedFiles,
            library ∈ computeImpacted repository (matchPatterns file inputs.impacts)) ∨
        ∃ name, IsImpacted repository inputs name ∧ Activates repository name library) ∧
    (processors.rebuildLambdaProxy = true ↔
      ∃ file ∈ inputs.modifiedFiles, isLambdaProxyFile file = true) := by
  obtain ⟨found, amount, hselect, hfound, hamount⟩ := selectProcessors_eq repository inputs hdiff
  rw [show inputs = { inputs with modifiedFiles := inputs.modifiedFiles } from rfl, hselect] at h
  obtain ⟨a, ha, h⟩ := Raised.bind_eq_ok.mp h
  obtain ⟨b, hb, h⟩ := Raised.bind_eq_ok.mp h
  obtain rfl := Except.ok.inj h
  have hmanifest := hfound a ha
  have hfiles := mem_total hamount hb
  refine ⟨fun name => ?_, fun name => ?_, fun library => ?_, ?_⟩
  · change name ∈ {"DEFAULT".toList} ∪ (a ⊔ b) .scenario ↔ _
    rw [Finset.mem_union, Finset.mem_singleton, Pi.sup_apply, Finset.sup_eq_union,
      Finset.mem_union, hmanifest, hfiles]
    simp only [FromFile, FromTests, FromRule, IsImpacted, and_or_left, exists_or]
    rw [or_assoc]
    exact or_congr_right (or_congr_right or_comm)
  · change name ∈ ∅ ∪ (a ⊔ b) .scenarioGroup ↔ _
    rw [Finset.empty_union, Pi.sup_apply, Finset.sup_eq_union, Finset.mem_union, hmanifest,
      hfiles]
    simp only [FromFile, FromTests, or_false, false_or]
  · change library ∈ ((LibraryProcessor.new ∅).processPrTitle repository inputs.prTitle).selected ∪
      (a ⊔ b) .library ∪ (∅ ∪ (a ⊔ b) .impactedLibrary) ↔ _
    rw [Finset.mem_union, Finset.mem_union, Finset.empty_union, mem_processPrTitle, Pi.sup_apply,
      Pi.sup_apply, Finset.sup_eq_union, Finset.sup_eq_union, Finset.mem_union, Finset.mem_union,
      hmanifest, hfiles, hmanifest, hfiles, or_assoc]
    have henforced := @isEnforced_processPrTitle repository inputs.prTitle
    refine or_congr_right (or_congr ?_ ?_)
    · rw [← henforced, Bool.not_eq_true]
      constructor
      · rintro (hnone | ⟨file, hfile, hnot, hlibrary⟩)
        · exact hnone.elim
        · exact ⟨hnot, file, hfile, hlibrary⟩
      · rintro ⟨hnot, file, hfile, hlibrary⟩
        exact Or.inr ⟨file, hfile, hnot, hlibrary⟩
    · have hpush := @fromTests_exists repository _ (fun file =>
        FileHasScenario repository (computeScenariosByFiles inputs.scenarioMap .empty) file)
        inputs.modifiedFiles .impactedLibrary library
      simp only [FromFile, FromRule, false_or]
      exact (or_congr_right hpush).trans (fromTests_or .impactedLibrary library)
  · change (false || decide ((a ⊔ b) .lambdaProxyFile ≠ ∅)) = true ↔ _
    rw [Bool.false_or, decide_eq_true_iff, ← Finset.nonempty_iff_ne_empty]
    unfold Finset.Nonempty
    simp only [Pi.sup_apply, Finset.sup_eq_union, Finset.mem_union, hmanifest, hfiles, FromTests,
      FromFile, false_or]
    constructor
    · rintro ⟨_, file, hfile, rfl, hlambda⟩
      exact ⟨_, hfile, hlambda⟩
    · rintro ⟨file, hfile, hlambda⟩
      exact ⟨file, file, hfile, rfl, hlambda⟩

theorem mem_selected_iff_smallDiff :
    ∃ processors, selectProcessors smallRepository smallDiff = .ok processors ∧
      ∀ name, name ∈ processors.scenarioProcessor.scenarioGroups ↔
        ∃ file ∈ smallDiff.modifiedFiles, FromRule (matchPatterns file smallDiff.impacts)
          .scenarioGroup name :=
  ⟨_, rfl, (mem_selected_iff smallRepository smallDiff _ rfl rfl).2.1⟩

/-- **A larger diff selects more.**  More modified files add to the selection; the same files
give the same outputs, in whatever order and however often they are listed. -/
theorem process_modifiedFiles (repository : Repository) (inputs : PipelineInputs)
    (files files' : List Str) (hdiff : inputs.selectsScenariosFromDiff = true) :
    (∀ processors', (∀ file ∈ files, file ∈ files') →
      selectProcessors repository { inputs with modifiedFiles := files' } = .ok processors' →
      ∃ processors, selectProcessors repository { inputs with modifiedFiles := files } =
          .ok processors ∧
        processors.scenarioProcessor.scenarios ⊆ processors'.scenarioProcessor.scenarios ∧
        processors.scenarioProcessor.scenarioGroups ⊆
          processors'.scenarioProcessor.scenarioGroups ∧
        processors.libraryProcessor.selected ⊆ processors'.libraryProcessor.selected) ∧
    (∀ outputs, (∀ file, file ∈ files ↔ file ∈ files') →
      process repository { inputs with modifiedFiles := files } = .ok outputs →
      process repository { inputs with modifiedFiles := files' } = .ok outputs) := by
  obtain ⟨found, amount, hselect, -, -⟩ := selectProcessors_eq repository inputs hdiff
  constructor
  · intro processors' hsub h
    rw [hselect] at h
    obtain ⟨a, ha, h⟩ := Raised.bind_eq_ok.mp h
    obtain ⟨b', hb', h⟩ := Raised.bind_eq_ok.mp h
    obtain rfl := Except.ok.inj h
    obtain ⟨b, hb, hle⟩ := Raised.total_of_subset hsub hb'
    have hkind : ∀ kind, (a ⊔ b) kind ⊆ (a ⊔ b') kind := fun kind => sup_le_sup_left (hle kind) _
    refine ⟨_, by rw [hselect, ha, Raised.ok_bind, hb]; rfl, ?_, ?_, ?_⟩
    · exact Finset.union_subset_union_right (hkind .scenario)
    · exact Finset.union_subset_union_right (hkind .scenarioGroup)
    · exact Finset.union_subset_union (Finset.union_subset_union_right (hkind .library))
        (Finset.union_subset_union_right (hkind .impactedLibrary))
  · intro outputs hsame h
    obtain ⟨processors, hprocessors, h⟩ := Raised.bind_eq_ok.mp h
    refine Raised.bind_eq_ok.mpr ⟨processors, ?_, h⟩
    rw [hselect] at hprocessors ⊢
    obtain ⟨a, ha, hprocessors⟩ := Raised.bind_eq_ok.mp hprocessors
    obtain ⟨b, hb, hprocessors⟩ := Raised.bind_eq_ok.mp hprocessors
    exact Raised.bind_eq_ok.mpr ⟨a, ha, Raised.bind_eq_ok.mpr
      ⟨b, Raised.total_congr hsame hb, hprocessors⟩⟩

/-- The files, listed in another order, one of them twice. -/
def listedTwice : List Str := ["README.md", "tests/utils.py", "README.md"]

theorem mem_listedTwice (file : Str) : file ∈ smallDiff.modifiedFiles ↔ file ∈ listedTwice := by
  have h : ∀ x y : Str, file ∈ [x, y] ↔ file ∈ [y, x, y] := by
    intro x y
    rw [List.mem_cons, List.mem_singleton, List.mem_cons, List.mem_cons, List.mem_singleton]
    exact ⟨Or.inr, fun h => h.elim Or.inr id⟩
  exact h "tests/utils.py" "README.md"

theorem process_modifiedFiles_smallDiff :
    ∃ outputs, process smallRepository smallDiff = .ok outputs ∧
      process smallRepository { smallDiff with modifiedFiles := listedTwice } = .ok outputs := by
  refine ⟨_, rfl, ?_⟩
  exact (process_modifiedFiles smallRepository smallDiff smallDiff.modifiedFiles listedTwice rfl).2
    _ mem_listedTwice rfl

end Selected

end Selection
end SystemTests
