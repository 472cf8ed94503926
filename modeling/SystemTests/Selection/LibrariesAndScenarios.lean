import Mathlib.Data.Char
import Mathlib.Data.Finset.Sort
import Mathlib.Data.List.Lex
import SystemTests.Foundation.Regex
import SystemTests.Selection.ProcessManifests

/-!
# Libraries and scenarios of a pipeline

`utils/scripts/compute_libraries_and_scenarios.py` selects what a pipeline runs: from the
files that a change modifies, the manifests before and after it and the title of the pull
request, or everything where a pipeline does not select from a diff.

What it reads of the scenarios and of the components is a `Repository`.
-/

namespace SystemTests
namespace Selection

open Foundation Foundation.Text Foundation.Semver Foundation.Regex Manifest

structure Repository where
  /-- `LIBRARIES` -/
  libraries : Finset Str
  /-- `OTEL_LIBRARIES` -/
  otelLibraries : Finset Str
  /-- `ALL_LIBRARIES`, in the order in which the set is gone through. -/
  allLibraries : List Str
  mem_allLibraries : ∀ library, library ∈ allLibraries ↔ library ∈ libraries ∪ otelLibraries
  plain_allLibraries : ∀ library ∈ allLibraries, library ≠ [] ∧ '@' ∉ library ∧ ']' ∉ library
  /-- `str.lower` -/
  lower : Str → Str
  rangeEq : SemverRange → SemverRange → Bool
  scenarioNames : Finset Str
  /-- `getattr(scenarios, ..)` -/
  scenarios : Str → Option Scenario
  /-- `getattr(all_scenario_groups, ..)`: the names of the scenarios of a group. -/
  scenarioGroups : Str → Option (List Str)
  groupNames : List Str
  scenariosByDefinitionFile : Dict Str (List Str)
  /-- The text of a set in a message. -/
  reprSet : Finset Str → Str

def githubExcludedLibraries : Finset Str := {"c".toList}

def gitlabPrLibraries : Dict Str (Option (Dict Str (List Str))) :=
  .setAll .empty [("c", none), ("python", some (.setAll .empty [("flask-poc",
    ["APM_TRACING_E2E_SINGLE_SPAN", "FEATURE_FLAGGING_AND_EXPERIMENTATION_AGENTLESS",
      "FEATURE_FLAGGING_AND_EXPERIMENTATION_AGENTLESS_DIRECT",
      "FEATURE_FLAGGING_AND_EXPERIMENTATION_AGENTLESS_SERVERLESS"])]))]

def gitlabMain : Finset Str := {"python".toList}

section Patterns

inductive Glob where
  | star
  | one (p : Char → Bool)

/-- The characters and ranges of a set. -/
def inSet : Str → Char → Bool
  | low :: '-' :: high :: stuff, c => (decide (low ≤ c) && decide (c ≤ high)) || inSet stuff c
  | x :: stuff, c => x == c || inSet stuff c
  | [], _ => false

def setOf : Str → Char → Bool
  | '!' :: stuff, c => !inSet stuff c
  | stuff, c => inSet stuff c

/-- What stands between `[` and its `]`, and what follows; a `]` in front is a member. -/
def bracket (p : Str) : Option (Str × Str) :=
  let negation : Str := if p.head? = some '!' then "!" else ""
  let body := p.drop negation.length
  let first : Str := if body.head? = some ']' then "]" else ""
  let rest := body.drop first.length
  if ']' ∈ rest then
    some (negation ++ first ++ before ']' rest, (rest.dropWhile (· ≠ ']')).tail)
  else none

def translate : Nat → Str → List Glob
  | 0, _ => []
  | _, [] => []
  | k + 1, '*' :: p => .star :: translate k p
  | k + 1, '?' :: p => .one (fun _ => true) :: translate k p
  | k + 1, '[' :: p =>
      match bracket p with
      | some (stuff, p) => .one (setOf stuff) :: translate k p
      | none => .one (· == '[') :: translate k p
  | k + 1, x :: p => .one (· == x) :: translate k p

def anyRest (f : Str → Bool) : Str → Bool
  | [] => f []
  | c :: s => f (c :: s) || anyRest f s

def matchesGlob : List Glob → Str → Bool
  | [], s => s.isEmpty
  | .star :: globs, s => anyRest (matchesGlob globs) s
  | .one _ :: _, [] => false
  | .one p :: globs, c :: s => p c && matchesGlob globs s

/-- `fnmatch.fnmatch` -/
def fnmatch (name pattern : Str) : Bool := matchesGlob (translate pattern.length pattern) name

example : fnmatch "utils/build/python/a.Dockerfile" "utils/*/python/?.[!a-c]*" = true := by decide

end Patterns

section Rules

variable (repository : Repository)

inductive Names where
  | null
  | set (names : Finset Str)
  | one (name : Str)
  | many (names : List Str)

def setify : Names → Finset Str
  | .null => ∅
  | .set names => names
  | .one name => {name}
  | .many names => names.toFinset

/-- The parameters of a rule; a member that is missing is `none`. -/
structure Parameters where
  libraries : Option Names
  scenarioGroups : Option Names
  scenarios : Option Names

structure Param where
  libraries : Finset Str
  scenarioGroups : Finset Str
  scenarios : Finset Str

def checkScenarios (names : Finset Str) : Bool := decide (∀ name ∈ names, name ∈ repository.scenarioNames)

def checkScenarioGroups (names : Finset Str) : Bool :=
  decide (∀ name ∈ names, (repository.scenarioGroups name).isSome)

def checkLibraries (names : Finset Str) : Bool :=
  decide (∀ name ∈ names, name ∈ repository.libraries ∪ repository.otelLibraries)

/-- `Param.__init__` -/
def Param.new (pattern : Str) (parameters : Parameters) : Except Raised Param := do
  let libraries := (parameters.libraries.map setify).getD repository.libraries
  let (scenarioGroups, scenarios) :=
    match parameters.scenarioGroups, parameters.scenarios with
    | none, none => ({"all".toList}, ∅)
    | scenarioGroups, scenarios =>
        (setify (scenarioGroups.getD .null), setify (scenarios.getD .null))
  if checkLibraries repository libraries = false then
    throw (Raised.valueError ("One or more of the libraries for " ++ pattern ++ " does not exist: " ++
      repository.reprSet libraries))
  if checkScenarioGroups repository scenarioGroups = false then
    throw (Raised.valueError ("One or more of the scenario groups for " ++ pattern ++
      " does not exist: " ++ repository.reprSet scenarioGroups))
  if checkScenarios repository scenarios = false then
    throw (Raised.valueError ("Scenario " ++ repository.reprSet scenarios ++ " for " ++ pattern ++
      " does not exist"))
  return { libraries, scenarioGroups, scenarios }

/-- `Inputs.load_raw_impacts`, from the `patterns` of the rules. -/
def loadRawImpacts (patterns : Dict Str (Option Parameters)) : Except Raised (Dict Str Param) := do
  let defaultParam ← Param.new repository ".*"
    ⟨some (.set repository.libraries), some (.one "all"), none⟩
  patterns.mapValuesM fun pattern parameters =>
    match parameters with
    | some parameters => Param.new repository pattern parameters
    | none => return defaultParam

def matchPatterns (modifiedFile : Str) (impacts : Dict Str Param) : Option Param :=
  (impacts.items.find? fun (pattern, _) => fnmatch modifiedFile pattern).map Prod.snd

def getPrefix (path pattern : Str) : Str :=
  let parts := split "/" path
  if pattern ∈ parts then
    let idx := parts.idxOf pattern
    if 0 < idx then join "/" (parts.take idx) ++ "/" else ""
  else path

end Rules

section Libraries

variable (repository : Repository)

/-- What is known of a pipeline. -/
structure GitInfo where
  isGitlab : Bool
  eventName : Str
  ref : Str
  prTitle : Str

def loadGitInfo (environ : Str → Option Str) : GitInfo :=
  if (environ "GITLAB_CI").isSome then
    let source := (environ "CI_PIPELINE_SOURCE").getD "push"
    let branch := (environ "CI_COMMIT_REF_NAME").getD []
    { isGitlab := true
      eventName := if source = "merge_request_event" then "pull_request" else source
      ref := if branch = [] then [] else "refs/heads/" ++ branch
      prTitle := [] }
  else
    { isGitlab := false
      eventName := (environ "GITHUB_EVENT_NAME").getD "pull_request"
      ref := (environ "GITHUB_REF").getD []
      prTitle := repository.lower ((environ "GITHUB_PR_TITLE").getD []) }

structure PipelineInputs extends Inputs, GitInfo where
  selectMainPushFromDiff : Bool
  impacts : Dict Str Param
  modifiedFiles : List Str

/-- `selects_scenarios_from_diff` -/
def PipelineInputs.selectsScenariosFromDiff (inputs : PipelineInputs) : Bool :=
  if inputs.eventName ≠ "pull_request" ∧ inputs.eventName ≠ "push" then false
  else if inputs.ref = "refs/heads/main" then
    inputs.eventName = "push" && inputs.selectMainPushFromDiff
  else true

/-- `Inputs.load_modified_files`, from the lines of `modified_files.txt`. -/
def loadModifiedFiles (lines : List Str) : List Str := lines.map strip

structure LibraryProcessor where
  selected : Finset Str
  userChoice : Option Str
  branchSelector : Option Str

def LibraryProcessor.new (libraries : Finset Str) : LibraryProcessor := ⟨libraries, none, none⟩

/-- `^\[({libraries})(?:@([^\]]+))?\]` -/
def prTitlePattern : Rx :=
  .seqs [.char '[',
    .group 1 (repository.allLibraries.foldr (fun library rx => .alt (.lit library) rx)
      (.chars fun _ => false)),
    .opt (.seq (.char '@') (.group 2 (.plus (.chars (· != ']'))))),
    .char ']']

def LibraryProcessor.processPrTitle (processor : LibraryProcessor) (prTitle : Str) :
    LibraryProcessor :=
  match matchStart (prTitlePattern repository) prTitle with
  | none => processor
  | some m =>
      let userChoice := (capture 1 m).getD []
      { selected := processor.selected ∪ {userChoice}
        userChoice := some userChoice
        branchSelector := capture 2 m }

/-- `compute_impacted` -/
def computeImpacted (param : Option Param) : Finset Str :=
  match param with
  | some param => param.libraries
  | none => repository.libraries

/-- A choice of the user with a branch is enforced. -/
def LibraryProcessor.isEnforced (processor : LibraryProcessor) : Bool :=
  (processor.userChoice.getD []) ≠ [] && (processor.branchSelector.getD []) ≠ []

def LibraryProcessor.add (processor : LibraryProcessor) (param : Option Param) :
    LibraryProcessor :=
  if processor.isEnforced then processor
  else { processor with selected := processor.selected ∪ computeImpacted repository param }

end Libraries

section Scenarios

variable (repository : Repository)

structure ScenarioSelection extends ScenarioProcessor where
  scenarioGroups : Finset Str
  scenariosByFiles : Dict Str (List Str)

def ScenarioSelection.new (scenarioGroups : Finset Str) : ScenarioSelection where
  scenarios := {"DEFAULT".toList}
  impactedLibraries := ∅
  scenarioGroups := scenarioGroups
  scenariosByFiles := .empty

/-- `self.scenarios_by_files[file].add(scenario_name)` -/
def addScenarioOfFile (file : Str) (scenariosByFiles : Dict Str (List Str)) (scenarioName : Str) :
    Dict Str (List Str) :=
  let names := (scenariosByFiles.get? file).getD []
  scenariosByFiles.set file (if scenarioName ∈ names then names else names ++ [scenarioName])

def computeScenariosByFiles (scenarioMap : Option (Dict Str (List Str)))
    (scenariosByFiles : Dict Str (List Str)) : Dict Str (List Str) :=
  match scenarioMap with
  | none => scenariosByFiles
  | some scenarioMap =>
      scenarioMap.items.foldl (fun byFiles (nodeid, scenarioNames) =>
        scenarioNames.foldl (addScenarioOfFile (before ':' nodeid)) byFiles) scenariosByFiles

/-- `_append_scenarios_from_test_files` -/
def ScenarioSelection.append (selection : ScenarioSelection) (scenarioNames : List Str) :
    Except Raised ScenarioSelection := do
  let processor ← appendScenariosFromTestFiles repository.lower repository.scenarios
    selection.toScenarioProcessor scenarioNames
  return { selection with toScenarioProcessor := processor }

/-- The scenarios of the test files in a folder are added. -/
def ScenarioSelection.appendFolder (selection : ScenarioSelection) (folder : Str) :
    Except Raised ScenarioSelection :=
  selection.scenariosByFiles.items.foldlM (fun selection (subFile, scenarioNames) =>
    if folder <+: subFile then selection.append repository scenarioNames else return selection)
    selection

/-- `file.split("/")[:-1]`, joined, with a slash. -/
def folderOf (file : Str) : Str := join "/" (split "/" file).dropLast ++ "/"

/-- The folder whose tests are impacted by a file that is no test itself. -/
def impactedFolder (file : Str) : Option Str :=
  if "tests/".toList <+: file then
    if "/utils/".toList <:+: file then some (getPrefix file "utils")
    else if "/utils.py".toList <:+ file ∨ "/conftest.py".toList <:+ file ∨
        ".json".toList <:+ file ∨ ".yml".toList <:+ file then
      some (folderOf file)
    else none
  else none

def ScenarioSelection.processTestFiles (selection : ScenarioSelection) (file : Str) :
    Except Raised ScenarioSelection :=
  match impactedFolder file with
  | some folder => selection.appendFolder repository folder
  | none => return selection

def ScenarioSelection.processRegularFile (selection : ScenarioSelection) (file : Str)
    (param : Option Param) : Except Raised ScenarioSelection :=
  let selection :=
    match param with
    | some param =>
        { selection with
          scenarioGroups := selection.scenarioGroups ∪ param.scenarioGroups
          scenarios := selection.scenarios ∪ param.scenarios }
    | none =>
        { selection with scenarioGroups := selection.scenarioGroups ∪ {"all".toList} }
  match selection.scenariosByFiles.get? file with
  | some scenarioNames => selection.append repository scenarioNames
  | none => return selection

def ScenarioSelection.add (selection : ScenarioSelection) (file : Str) (param : Option Param) :
    Except Raised ScenarioSelection := do
  let selection ← selection.processTestFiles repository file
  let selection ← selection.processRegularFile repository file param
  match repository.scenariosByDefinitionFile.get? file with
  | some scenarioNames => selection.append repository scenarioNames
  | none => return selection

end Scenarios

section Process

variable (repository : Repository)

/-- The state of the loop over the modified files. -/
structure Processors where
  scenarioProcessor : ScenarioSelection
  libraryProcessor : LibraryProcessor
  rebuildLambdaProxy : Bool

def isLambdaProxyFile (file : Str) : Bool :=
  file = "utils/build/docker/lambda_proxy/pyproject.toml" ||
    file = "utils/build/docker/lambda-proxy.Dockerfile"

def processFile (impacts : Dict Str Param) (processors : Processors) (file : Str) :
    Except Raised Processors := do
  let param := matchPatterns file impacts
  let scenarioProcessor ← processors.scenarioProcessor.add repository file param
  return {
    scenarioProcessor
    libraryProcessor := processors.libraryProcessor.add repository param
    rebuildLambdaProxy := processors.rebuildLambdaProxy || isLambdaProxyFile file }

/-- What is selected before the modified files are gone through. -/
def initialProcessors (inputs : PipelineInputs) : Except Raised Processors := do
  let new := ScenarioSelection.new ∅
  let processor ← processManifests repository.rangeEq repository.lower repository.scenarios
    new.toScenarioProcessor inputs.toInputs
  let scenariosByFiles := computeScenariosByFiles inputs.scenarioMap new.scenariosByFiles
  return {
    scenarioProcessor := { new with toScenarioProcessor := processor, scenariosByFiles }
    libraryProcessor := (LibraryProcessor.new ∅).processPrTitle repository inputs.prTitle
    rebuildLambdaProxy := false }

/-- The libraries impacted by modified tests are activated. -/
def activateImpacted (processors : Processors) : Processors :=
  { processors with libraryProcessor := { processors.libraryProcessor with
      selected := processors.libraryProcessor.selected ∪
        processors.scenarioProcessor.impactedLibraries } }

def selectProcessors (inputs : PipelineInputs) : Except Raised Processors :=
  if inputs.selectsScenariosFromDiff then do
    let processors ← initialProcessors repository inputs
    let processors ← inputs.modifiedFiles.foldlM (processFile repository inputs.impacts) processors
    return activateImpacted processors
  else
    return {
      scenarioProcessor := .new {"all".toList}
      libraryProcessor := .new repository.libraries
      rebuildLambdaProxy := false }

end Process

section Outputs

variable (repository : Repository)

/-- `sorted` of a set of texts. -/
def sortedNames (names : Finset Str) : List Str := names.sort (· ≤ ·)

structure MatrixEntry where
  library : Str
  version : Str
deriving DecidableEq

structure LibraryOutputs where
  libraryMatrix : List MatrixEntry
  librariesWithDev : List Str
  desiredExecutionTime : Nat

/-- `LibraryProcessor.get_outputs` -/
def LibraryProcessor.getOutputs (processor : LibraryProcessor) : LibraryOutputs :=
  let selected := processor.selected \ githubExcludedLibraries
  let populatedResult :=
    (sortedNames selected).map (fun library => ⟨library, "prod"⟩) ++
      ((sortedNames selected).filter fun library =>
        ¬ "otel".toList <:+: library ∧ library ≠ "otel_collector").map fun library =>
          (⟨library, "dev"⟩ : MatrixEntry)
  { libraryMatrix := populatedResult
    librariesWithDev := (populatedResult.filter fun item => item.version = "dev".toList).map
      MatrixEntry.library
    desiredExecutionTime :=
      if processor.selected.card = 1 then
        if processor.selected = {"nodejs".toList} then 300 else 600
      else 3600 }

/-- `ScenarioProcessor.get_outputs`: the scenarios and the scenario groups. -/
def ScenarioSelection.getOutputs (selection : ScenarioSelection) : Str × Str :=
  (join "," (sortedNames selection.scenarios), join "," (sortedNames selection.scenarioGroups))

def isGitlabPrPipeline (info : GitInfo) : Bool :=
  info.ref ≠ "refs/heads/main" && (info.eventName = "pull_request" || info.eventName = "push")

def filterGitlabLibraries (info : GitInfo) (libraries : Finset Str) : Finset Str :=
  if info.ref = "refs/heads/main" ∧ info.eventName ≠ "schedule" then libraries ∩ gitlabMain
  else if isGitlabPrPipeline info then libraries ∩ gitlabPrLibraries.keys.toFinset
  else ∅

/-- `str.islower`, of names in ASCII. -/
def isLowerName (s : Str) : Bool := s.any Char.isLower && !s.any Char.isUpper

/-- `all_scenario_groups[key]` -/
def scenarioGroup (key : Str) : Except Raised (List Str) :=
  let key := repository.lower (replace "-" "_" key)
  Raised.ofOption (.valueError ("Scenario group `" ++ key ++ "` does not exist. Valid values are:\n* " ++
    join "\n* " repository.groupNames)) (repository.scenarioGroups key)

/-- `_expand_scenario_entries` -/
def expandScenarioEntries (entries : List Str) : Except Raised (Finset Str) :=
  entries.foldlM (fun result entry =>
    if isLowerName entry then do
      let scenarios ← scenarioGroup repository entry
      return result ∪ scenarios.toFinset
    else return result ∪ {entry}) ∅

def parametricWeblog : Str := "parametric"

/-- `scenarios.parametric.name` -/
def parametricScenario : Str := "PARAMETRIC"

/-- The scenarios of a weblog that are selected; `parametric` is run without a list of them. -/
def filteredEntries (selected : Finset Str) (weblog : Str) (weblogEntries : List Str) :
    Except Raised (Option (List Str)) :=
  if weblog = parametricWeblog then
    return if parametricScenario ∈ selected then some [] else none
  else do
    let entries ← expandScenarioEntries repository weblogEntries
    let weblogScenarios := sortedNames (entries ∩ selected)
    return if weblogScenarios = [] then none else some weblogScenarios

def addWeblog (selected : Finset Str) (filteredMap : Dict Str (List Str))
    (entry : Str × List Str) : Except Raised (Dict Str (List Str)) := do
  match ← filteredEntries repository selected entry.1 entry.2 with
  | some weblogScenarios => return filteredMap.set entry.1 weblogScenarios
  | none => return filteredMap

/-- `sorted(weblog_map.items())`; no two weblogs have one name. -/
def sortedItems (weblogMap : Dict Str (List Str)) : List (Str × List Str) :=
  weblogMap.items.mergeSort fun a b => decide (a.1 ≤ b.1)

def addLibrary (selected : Finset Str) (result : Dict Str (Dict Str (List Str))) (library : Str) :
    Except Raised (Dict Str (Dict Str (List Str))) := do
  let weblogMap ← Raised.ofOption (.keyError library) (gitlabPrLibraries.get? library)
  match weblogMap with
  | none => return result
  | some weblogMap =>
      if weblogMap.items = [] then return result
      let filteredMap ← (sortedItems weblogMap).foldlM (addWeblog repository selected) .empty
      return if filteredMap.items = [] then result else result.set library filteredMap

/-- `get_gitlab_library_weblog_scenarios`; the entries are gone through in the order of the set. -/
def getGitlabLibraryWeblogScenarios (libraries : Finset Str) (entries : List Str) :
    Except Raised (Dict Str (Dict Str (List Str))) := do
  let selected ← expandScenarioEntries repository entries
  (sortedNames libraries).foldlM (addLibrary repository selected) .empty

inductive Outputs where
  | github (libraries : LibraryOutputs) (rebuildLambdaProxy : Bool)
      (scenarios scenariosGroups : Str)
  | gitlab (ciPipelineSource ciCommitRefName : Str)
      (libraryWeblogScenarios : Option (Dict Str (Dict Str (List Str)))) (libraries : Option Str)
      (scenarios scenariosGroups : Str)

/-- A library that is only run on some weblogs. -/
def hasWeblogMap (library : Str) : Bool :=
  match gitlabPrLibraries.get? library with
  | some (some weblogMap) => !weblogMap.items.isEmpty
  | _ => false

/-- The weblogs that are run for some libraries, and the libraries that are run on all. -/
def gitlabRuns (info : GitInfo) (processors : Processors) :
    Except Raised (Dict Str (Dict Str (List Str)) × Finset Str) :=
  let gitlabLibraries := filterGitlabLibraries info processors.libraryProcessor.selected
  if isGitlabPrPipeline info then do
    let weblogScenarios ← getGitlabLibraryWeblogScenarios repository gitlabLibraries
      (sortedNames (processors.scenarioProcessor.scenarios ∪
        processors.scenarioProcessor.scenarioGroups))
    return (weblogScenarios, gitlabLibraries.filter fun library => !hasWeblogMap library)
  else return (.empty, gitlabLibraries)

def getOutputs (inputs : PipelineInputs) (processors : Processors) : Except Raised Outputs :=
  let outputs := processors.scenarioProcessor.getOutputs
  if inputs.isGitlab then do
    let runs ← gitlabRuns repository inputs.toGitInfo processors
    return .gitlab inputs.eventName inputs.ref
      (if runs.1.items = [] then none else some runs.1)
      (if runs.2 = ∅ then none else some (join " " (sortedNames runs.2))) outputs.1 outputs.2
  else
    return .github processors.libraryProcessor.getOutputs processors.rebuildLambdaProxy
      outputs.1 outputs.2

def process (inputs : PipelineInputs) : Except Raised Outputs := do
  let processors ← selectProcessors repository inputs
  getOutputs repository inputs processors

end Outputs

end Selection
end SystemTests
