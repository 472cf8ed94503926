import SystemTests.EasyWins.ActivationStatus
import SystemTests.EasyWins.Matches
import SystemTests.Foundation.Trie
import SystemTests.Manifest.ComponentVersion

/-!
# Ingestion of the test reports (`activate_easy_wins/_internal/test_artifact.py`)

`parse_artifact_data` reads the reports of all artifact directories and collects,
for each context, the nodes that passed unexpectedly, the nodes that failed, and
a trie of activation statuses.  `get_deactivation` is the factory by which
`update_manifest` reads the trie.

A directory is read up to the first report of another library or without a
version: the loop over its scenarios is left there.

**Results.**
* `readScenarios_eq_ok_iff`: what is read of a directory that is not mixed.
* `parseArtifactData_eq_ok_iff`: what is read of all directories.
-/

namespace SystemTests
namespace EasyWins

open Foundation Foundation.Text Foundation.Semver Manifest

structure Test where
  nodeid : Str
  outcome : Outcome
  owners : Option (Finset Str) := none

/-- The content of a `report.json`. -/
structure Report where
  libraryName : Option Str
  library : Option Str
  weblogVariant : Option Str
  tests : List Test

/-- A directory of artifacts; a scenario directory may have no report. -/
structure Directory where
  name : Str
  scenarios : List (Option Report)

section ContextCreate

variable (sv : SemanticVersion)

def stripJavaBuildMetadata (library versionString : Str) : Str :=
  if library = "java" && versionString.contains '+' then before '+' versionString
  else versionString

/-- `Context.create` -/
def Context.create (library libraryVersionString : Option Str) (variant : Str) :
    Except Raised (Option Context) :=
  match library, libraryVersionString with
  | some library, some (c :: s) =>
      if library ∈ easyWin then do
        let libraryVersion ← versionOfText sv (stripJavaBuildMetadata library (c :: s))
        return some ⟨library, libraryVersion, variant⟩
      else return none
  | _, _ => return none

/-- The context of a report that is read; no context ends the reading of the directory. -/
def reportContext (libraries : List Str) (report : Report) : Except Raised (Option Context) := do
  let context ← Context.create sv report.libraryName report.library
    (report.weblogVariant.getD [])
  match context with
  | none => return none
  | some context =>
      if context.library ∈ libraries then
        match report.weblogVariant with
        | none => throw (.keyError "weblog_variant")
        | some _ => return some context
      else return none

end ContextCreate

section TestData

variable (lib : StringTrie ActivationStatus (List (List Str)))

structure TestData where
  xpassNodes : Finset Str := ∅
  xfailNodes : Finset Str := ∅
  trie : lib.T
  nodeidToOwners : Dict Str (Finset Str) := .empty

def TestData.empty : TestData lib := { trie := lib.empty }

/-- A test with an excluded owner is not activated. -/
def effectiveOutcome (excludedOwners : Finset Str) (test : Test) : Outcome :=
  if test.outcome = .xpassed ∧ (test.owners.getD ∅ ∩ excludedOwners).Nonempty then .xfailed
  else test.outcome

/-- The identifier of the test without its arguments. -/
def nodeOf (test : Test) : Str := before '[' test.nodeid

/-- The text up to the last slash of each prefix of the path, and whether it is the path. -/
def slices (nodeid : Str) : List (Str × Bool) :=
  let path := replace [':', ':'] ['/'] nodeid ++ ['/']
  ((List.range path.length).filter fun i => path[i]? = some '/').map fun i =>
    ((path.take (i + 1)).rdropWhile (· == '/'), i + 1 = path.length)

def setStatus (outcome : Outcome) (trie : lib.T) (slice : Str × Bool) : lib.T :=
  match assignedStatus outcome slice.2 (lib.get trie slice.1) with
  | some status => lib.set trie slice.1 status
  | none => trie

/-- The body of the loop over the tests. -/
def recordTest (excludedOwners : Finset Str) (data : TestData lib) (test : Test) :
    TestData lib :=
  let outcome := effectiveOutcome excludedOwners test
  let nodeid := nodeOf test
  let (xpassNodes, xfailNodes) :=
    if nodeid ∈ data.xfailNodes then (data.xpassNodes, data.xfailNodes)
    else if outcome = .xpassed then (insert nodeid data.xpassNodes, data.xfailNodes)
    else (data.xpassNodes.erase nodeid, insert nodeid data.xfailNodes)
  { xpassNodes, xfailNodes
    trie := (slices nodeid).foldl (setStatus lib outcome) data.trie
    nodeidToOwners := data.nodeidToOwners.set nodeid (test.owners.getD ∅) }

end TestData

section Parse

variable (sv : SemanticVersion) (lib : StringTrie ActivationStatus (List (List Str)))
variable (libraries : List Str) (excludedOwners : Finset Str) (useDev : Bool)

structure ArtifactData where
  testData : Dict Context (TestData lib) := .empty
  weblogs : Dict Str (Finset Str) := .empty
  owners : Finset Str := ∅

/-- The body of the loop over the scenarios, for a report that is read. -/
def readReport (state : ArtifactData lib) (context : Context) (report : Report) :
    ArtifactData lib where
  testData := state.testData.set context (report.tests.foldl (recordTest lib excludedOwners)
    ((state.testData.get? context).getD (.empty lib)))
  weblogs := state.weblogs.set context.library
    (insert context.variant ((state.weblogs.get? context.library).getD ∅))
  owners := report.tests.foldl (fun owners test => owners ∪ test.owners.getD ∅) state.owners

def readScenarios (state : ArtifactData lib) :
    List (Option Report) → Except Raised (ArtifactData lib)
  | [] => return state
  -- no `report.json`
  | none :: scenarios => readScenarios state scenarios
  | some report :: scenarios => do
      match ← reportContext sv libraries report with
      | none => return state
      | some context =>
          readScenarios (readReport lib excludedOwners state context report) scenarios

def isConsidered (directory : Directory) : Bool :=
  decide ("_dev_".toList <:+: directory.name) = useDev

def readDirectory (state : ArtifactData lib) (directory : Directory) :
    Except Raised (ArtifactData lib) :=
  if isConsidered useDev directory then
    readScenarios sv lib libraries excludedOwners state directory.scenarios
  else return state

def parseArtifactData (dataDir : List Directory) : Except Raised (ArtifactData lib) :=
  dataDir.foldlM (readDirectory sv lib libraries excludedOwners useDev) {}

end Parse

section Deactivation

/-- `get_deactivation` -/
def getDeactivation (path : List Str) (children : List (List (List Str)))
    (value : Option ActivationStatus) : List (List Str) :=
  match value.getD .none with
  | .xfail => [path]
  | .none => children.flatten
  | _ => []

end Deactivation

section ReadReports

variable {sv : SemanticVersion} {lib : StringTrie ActivationStatus (List (List Str))}
variable {libraries : List Str} {excludedOwners : Finset Str} {useDev : Bool}

/-- A report with its context, if it is read. -/
def scenarioReport (sv : SemanticVersion) (libraries : List Str) :
    Option Report → List (Context × Report)
  | none => []
  | some report =>
      match reportContext sv libraries report with
      | .ok (some context) => [(context, report)]
      | _ => []

/-- The reports of a directory that are read, when none ends the reading. -/
def scenarioReports (sv : SemanticVersion) (libraries : List Str)
    (scenarios : List (Option Report)) : List (Context × Report) :=
  scenarios.flatMap (scenarioReport sv libraries)

def directoryReports (sv : SemanticVersion) (libraries : List Str) (useDev : Bool)
    (directory : Directory) : List (Context × Report) :=
  if isConsidered useDev directory then scenarioReports sv libraries directory.scenarios else []

def readReports (sv : SemanticVersion) (libraries : List Str) (useDev : Bool)
    (dataDir : List Directory) : List (Context × Report) :=
  dataDir.flatMap (directoryReports sv libraries useDev)

/-- A report that ends the reading of a directory is among its like only. -/
def Unmixed (sv : SemanticVersion) (libraries : List Str) (scenarios : List (Option Report)) :
    Prop :=
  (∃ report, some report ∈ scenarios ∧ reportContext sv libraries report = .ok none) →
    ∀ report, some report ∈ scenarios → reportContext sv libraries report = .ok none

def Homogeneous (sv : SemanticVersion) (libraries : List Str) (useDev : Bool)
    (dataDir : List Directory) : Prop :=
  ∀ directory ∈ dataDir, isConsidered useDev directory = true →
    Unmixed sv libraries directory.scenarios

/-- Every considered report has a context or ends the reading. -/
def Readable (sv : SemanticVersion) (libraries : List Str) (useDev : Bool)
    (dataDir : List Directory) : Prop :=
  ∀ directory ∈ dataDir, isConsidered useDev directory = true →
    ∀ report, some report ∈ directory.scenarios →
      ∃ context, reportContext sv libraries report = .ok context

theorem readScenarios_rejected {scenarios : List (Option Report)} (state : ArtifactData lib)
    (h : ∀ report, some report ∈ scenarios → reportContext sv libraries report = .ok none) :
    readScenarios sv lib libraries excludedOwners state scenarios = .ok state := by
  induction scenarios with
  | nil => rfl
  | cons scenario scenarios ih =>
      cases scenario with
      | none => exact ih fun report hreport => h report (List.mem_cons_of_mem _ hreport)
      | some report =>
          rw [readScenarios, h report (List.mem_cons_self)]
          rfl

theorem scenarioReports_rejected {scenarios : List (Option Report)}
    (h : ∀ report, some report ∈ scenarios → reportContext sv libraries report = .ok none) :
    scenarioReports sv libraries scenarios = [] := by
  rw [scenarioReports, List.flatMap_eq_nil_iff]
  intro scenario hscenario
  cases scenario with
  | none => rfl
  | some report => rw [scenarioReport, h report hscenario]

/-- **The scenarios of one directory**, all of which are read or none. -/
theorem readScenarios_eq_ok_iff {scenarios : List (Option Report)}
    (hmix : Unmixed sv libraries scenarios) {state state' : ArtifactData lib} :
    readScenarios sv lib libraries excludedOwners state scenarios = .ok state' ↔
      (∀ report, some report ∈ scenarios →
        ∃ context, reportContext sv libraries report = .ok context) ∧
        state' = (scenarioReports sv libraries scenarios).foldl
          (fun s p => readReport lib excludedOwners s p.1 p.2) state := by
  by_cases hrejected :
      ∃ report, some report ∈ scenarios ∧ reportContext sv libraries report = .ok none
  · have hall := hmix hrejected
    rw [readScenarios_rejected state hall, scenarioReports_rejected hall, Except.ok.injEq]
    constructor
    · rintro rfl
      exact ⟨fun report hreport => ⟨none, hall report hreport⟩, rfl⟩
    · rintro ⟨-, rfl⟩
      rfl
  · clear hmix
    induction scenarios generalizing state with
    | nil =>
        rw [readScenarios, Raised.pure_eq_ok]
        simp [scenarioReports, eq_comm]
    | cons scenario scenarios ih =>
        have hrest : ¬ ∃ report, some report ∈ scenarios ∧
            reportContext sv libraries report = .ok none := by
          rintro ⟨report, hreport, hnone⟩
          exact hrejected ⟨report, List.mem_cons_of_mem _ hreport, hnone⟩
        cases scenario with
        | none =>
            rw [readScenarios, ih hrest]
            simp [scenarioReports, scenarioReport]
        | some report =>
            rw [readScenarios, scenarioReports, List.flatMap_cons, scenarioReport]
            cases hcontext : reportContext sv libraries report with
            | error e =>
                constructor
                · intro h
                  exact absurd h (by simp [bind, Except.bind])
                · rintro ⟨hall, -⟩
                  obtain ⟨context, hok⟩ := hall report List.mem_cons_self
                  rw [hcontext] at hok
                  exact absurd hok (by simp)
            | ok context =>
                cases context with
                | none => exact absurd ⟨report, List.mem_cons_self, hcontext⟩ hrejected
                | some context =>
                    rw [Raised.ok_bind, ih hrest]
                    simp only [List.mem_cons, Option.some.injEq, forall_eq_or_imp, hcontext,
                      List.singleton_append, List.foldl_cons]
                    constructor
                    · rintro ⟨hall, rfl⟩
                      exact ⟨⟨⟨_, rfl⟩, hall⟩, rfl⟩
                    · rintro ⟨⟨-, hall⟩, rfl⟩
                      exact ⟨hall, rfl⟩

theorem readable_cons_iff {directory : Directory} {dataDir : List Directory} :
    Readable sv libraries useDev (directory :: dataDir) ↔
      (isConsidered useDev directory = true → ∀ report, some report ∈ directory.scenarios →
        ∃ context, reportContext sv libraries report = .ok context) ∧
        Readable sv libraries useDev dataDir := by
  unfold Readable
  rw [List.forall_mem_cons]

/-- **What is read** when no directory is mixed. -/
theorem parseArtifactData_eq_ok_iff {dataDir : List Directory}
    (hmix : Homogeneous sv libraries useDev dataDir) {results : ArtifactData lib} :
    parseArtifactData sv lib libraries excludedOwners useDev dataDir = .ok results ↔
      Readable sv libraries useDev dataDir ∧
        results = (readReports sv libraries useDev dataDir).foldl
          (fun s p => readReport lib excludedOwners s p.1 p.2) {} := by
  unfold parseArtifactData
  generalize ({} : ArtifactData lib) = state
  induction dataDir generalizing state with
  | nil =>
      rw [List.foldlM_nil, Raised.pure_eq_ok]
      constructor
      · rintro rfl
        exact ⟨fun d hd => absurd hd (by simp), rfl⟩
      · rintro ⟨-, rfl⟩
        rfl
  | cons directory dataDir ih =>
      have hhere := hmix directory List.mem_cons_self
      have hrest : Homogeneous sv libraries useDev dataDir :=
        fun d hd => hmix d (List.mem_cons_of_mem _ hd)
      rw [List.foldlM_cons, readReports, List.flatMap_cons, List.foldl_append,
        Raised.bind_eq_ok, readable_cons_iff]
      have hdirectory : ∀ state', readDirectory sv lib libraries excludedOwners useDev state
            directory = .ok state' ↔
          (isConsidered useDev directory = true → ∀ report, some report ∈ directory.scenarios →
            ∃ context, reportContext sv libraries report = .ok context) ∧
          state' = (directoryReports sv libraries useDev directory).foldl
            (fun s p => readReport lib excludedOwners s p.1 p.2) state := by
        intro state'
        unfold readDirectory directoryReports
        split_ifs with hconsidered
        · rw [readScenarios_eq_ok_iff (hhere hconsidered)]
          simp only [hconsidered, forall_const]
        · rw [Raised.pure_eq_ok, List.foldl_nil]
          simp [hconsidered, eq_comm]
      constructor
      · rintro ⟨state', hstate', hresults⟩
        obtain ⟨hall, rfl⟩ := (hdirectory state').mp hstate'
        obtain ⟨hreadable, rfl⟩ := (ih hrest _).mp hresults
        exact ⟨⟨hall, hreadable⟩, rfl⟩
      · rintro ⟨⟨hall, hreadable⟩, rfl⟩
        exact ⟨_, (hdirectory _).mpr ⟨hall, rfl⟩, (ih hrest _).mpr ⟨hreadable, rfl⟩⟩

end ReadReports

end EasyWins
end SystemTests
