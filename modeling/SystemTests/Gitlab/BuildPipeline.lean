import SystemTests.Foundation.Dict
import SystemTests.Foundation.Exception
import SystemTests.Foundation.JsonDocument

/-!
# Generated GitLab pipelines (`utils/ci/gitlab/build_pipeline.py`)

The libraries are dealt out to chunks.  Each chunk is one file: a pipeline with
the jobs of all its libraries, or a stub.  The parameters of a library say which
weblogs are built, which scenarios run on them, and into how many groups the
parametric tests are split.

A chunk is a dictionary.  A job that is written under the name of another one
replaces it.
-/

namespace SystemTests
namespace Gitlab

open Foundation Foundation.Text

structure WeblogDef where
  name : Str

structure JobDef where
  weblog : Str
  scenarios : Option (List Str)
  weblogBuildRequired : Option Bool

structure EndtoendDefs where
  parallelEnable : Option Bool
  parallelWeblogs : Option (List WeblogDef)
  parallelJobs : Option (List JobDef)

structure Parametric where
  enable : Bool
  jobCount : Int
  jobMatrix : List Int
  workers : Int
  scenarios : List Str

structure Miscs where
  binariesArtifact : Str

/-- The parts of `params_<library>.json` that are used here. -/
structure Params where
  endtoendDefs : Option EndtoendDefs
  parametric : Parametric
  miscs : Miscs

namespace Params

/-- `params.get("endtoend_defs", {}).get("parallel_weblogs", [])` -/
def parallelWeblogs (params : Params) : List WeblogDef :=
  ((params.endtoendDefs.bind EndtoendDefs.parallelWeblogs).getD [])

/-- `params.get("endtoend_defs", {}).get("parallel_jobs", [])` -/
def parallelJobs (params : Params) : List JobDef :=
  ((params.endtoendDefs.bind EndtoendDefs.parallelJobs).getD [])

/-- `list(dict.fromkeys(...))` -/
def prebuiltWeblogs (params : Params) : List Str :=
  (Dict.fromKeys () (params.parallelWeblogs.map WeblogDef.name)).keys

end Params

/-- Without `pipeline`, the job is one of the same pipeline. -/
structure Need where
  job : Str
  artifacts : Bool
  pipeline : Option Str
deriving DecidableEq

inductive Extends where
  | one (parent : Str)
  | many (parents : List Str)
deriving DecidableEq

structure Job where
  parents : Extends
  jobVariables : Dict Str Str
  needs : Option (List Need)
  tags : Option (List Str)
deriving DecidableEq

structure Include where
  project : Str
  ref : Str
  file : Str
  inputs : Dict Str Str
deriving DecidableEq

/-- The values of the top-level keys of a pipeline. -/
inductive Entry where
  | workflow (name : Str)
  | includes (files : List Include)
  | stages (names : List Str)
  | globals (values : Dict Str Str)
  | job (job : Job)
deriving DecidableEq

/-- The arguments of `build` that all libraries share. -/
structure Inputs where
  stage : Str
  ciImage : Str
  ref : Str
  pushToTestOptimization : Bool
  binariesArtifactPath : Str
  binariesArtifacts : Str
  pipelineVariables : Dict Str Str

def textDict (items : List (Str × Str)) : Dict Str Str := Dict.empty.setAll items

def templatesFile : Str := "utils/ci/gitlab/templates.yml"

def childPipelineFile : Str := "utils/ci/gitlab/child-pipeline.yml"

def scenarioRunnerTags : Dict Str (List Str) :=
  Dict.empty.set "THREAD_CONTEXT_SHARING" ["docker-in-docker:amd64-cws"]

def noopStub (stage : Str) : Str :=
  "workflow:\n  name: \"System-tests end to end (empty chunk)\"\nstages:\n  - ".toList ++ stage ++
    "\nnoop:\n  stage: ".toList ++ stage ++
    ("\n  tags:\n    - arch:amd64\n  script:\n" ++
      "    - echo \"no libraries assigned to this chunk\"\n").toList

def pipelineHeader (inputs : Inputs) : Dict Str Entry :=
  let templates : Include :=
    { project := "DataDog/system-tests", ref := inputs.ref, file := templatesFile
      inputs := textDict [("stage", inputs.stage), ("ref", inputs.ref)] }
  let childPipeline : Include :=
    { project := "DataDog/system-tests", ref := inputs.ref, file := childPipelineFile
      inputs := Dict.empty }
  let globals := (textDict [("CI_IMAGE", inputs.ciImage)]).update inputs.pipelineVariables
  Dict.empty.setAll
    [("workflow", .workflow "System-tests end to end"),
      ("include", .includes [templates, childPipeline]), ("stages", .stages [inputs.stage]), ("variables", .globals globals)]

/-- `_upstream_artifact_jobs` -/
def upstreamArtifactJobs (binariesArtifacts binariesArtifact : Str) : List Str :=
  if binariesArtifacts ≠ [] then
    ((split [';'] binariesArtifacts).map strip).filter fun job => decide (job ≠ [])
  else if binariesArtifact ≠ [] then [binariesArtifact]
  else []

/-- `_build_job_name` -/
def buildJobName (library weblog : Str) : Str :=
  "system_tests_build_".toList ++ library ++ '_' :: weblog

def runJobName (library scenario weblog : Str) : Str :=
  "system_tests_run_".toList ++ library ++ '_' :: (scenario ++ '_' :: weblog)

def parametricJobName (library : Str) (group : Int) : Str :=
  "system_tests_run_".toList ++ library ++ "_PARAMETRIC_".toList ++ Json.intText group

/-- `_weblog_variables` -/
def weblogVariables (library weblog : Str) : Dict Str Str :=
  textDict [("TEST_LIBRARY", library), ("SYSTEM_TESTS_WEBLOG", weblog)]

/-- `_job` -/
def mkJob (parents : Extends) (jobVariables : Dict Str Str) (needs : List Need)
    (tags : Option (List Str)) : Job where
  parents := parents
  jobVariables := jobVariables
  needs := if needs = [] then none else some needs
  tags := if tags = some [] then none else tags

/-- `_bool` -/
def boolText (value : Bool) : Str := if value then "true" else "false"

section LibraryJobs

variable (inputs : Inputs) (library : Str) (params : Params)

def upstreamJobs : List Str :=
  upstreamArtifactJobs inputs.binariesArtifacts params.miscs.binariesArtifact

def upstreamNeeds : List Need :=
  (upstreamJobs inputs params).map fun job => ⟨job, true, some "$UPSTREAM_PIPELINE_ID"⟩

def copyBinaries : Dict Str Str :=
  if upstreamJobs inputs params ≠ [] ∧ inputs.binariesArtifactPath ≠ [] then
    textDict [("SYSTEM_TESTS_BINARIES_ARTIFACT_PATH", inputs.binariesArtifactPath)]
  else Dict.empty

def testMixins : List Str :=
  if inputs.pushToTestOptimization then [".push_to_test_optimization"] else []

def buildJob (weblog : Str) : Job :=
  mkJob (.one ".system_tests_build")
    ((weblogVariables library weblog).update (copyBinaries inputs params))
    (upstreamNeeds inputs params) none

def runJob (jobDef : JobDef) (scenario : Str) : Job :=
  let weblog := jobDef.weblog
  let jobVariables := (weblogVariables library weblog).update (textDict
    [("SYSTEM_TESTS_SCENARIO", scenario),
      ("SYSTEM_TESTS_WEBLOG_BUILD_REQUIRED", boolText (jobDef.weblogBuildRequired.getD true))])
  let parents := Extends.many (".system_tests_run" :: testMixins inputs)
  if weblog ∈ params.prebuiltWeblogs then
    mkJob parents jobVariables [⟨buildJobName library weblog, true, none⟩]
      (scenarioRunnerTags.get? scenario)
  else
    mkJob parents (jobVariables.update (copyBinaries inputs params)) (upstreamNeeds inputs params)
      (scenarioRunnerTags.get? scenario)

def parametricJob (group : Int) : Job :=
  mkJob (.many (".system_tests_parametric" :: testMixins inputs))
    ((textDict
      [("TEST_LIBRARY", library), ("SYSTEM_TESTS_PARAMETRIC_GROUP", Json.intText group),
        ("SYSTEM_TESTS_PARAMETRIC_JOB_COUNT", Json.intText params.parametric.jobCount),
        ("SYSTEM_TESTS_PARAMETRIC_WORKERS", Json.intText params.parametric.workers)]).update
      (copyBinaries inputs params))
    (upstreamNeeds inputs params) none

def libraryJobs : Dict Str Job :=
  let jobs := params.prebuiltWeblogs.foldl (fun jobs weblog =>
    jobs.set (buildJobName library weblog) (buildJob inputs library params weblog)) Dict.empty
  let jobs := params.parallelJobs.foldl (fun jobs jobDef =>
    (jobDef.scenarios.getD []).foldl (fun jobs scenario =>
      jobs.set (runJobName library scenario jobDef.weblog)
        (runJob inputs library params jobDef scenario)) jobs) jobs
  if params.parametric.enable then
    params.parametric.jobMatrix.foldl (fun jobs group =>
      jobs.set (parametricJobName library group) (parametricJob inputs library params group)) jobs
  else jobs

end LibraryJobs

/-- Round robin over the chunks. -/
def chunkLibraries (libraries : List Str) (chunks : Nat) : Except Raised (List (List Str)) :=
  if chunks = 0 ∧ libraries ≠ [] then .error .zeroDivisionError
  else .ok (libraries.zipIdx.foldl (fun assigned p =>
    assigned.modify (p.2 % chunks) (· ++ [p.1])) (List.replicate chunks []))

inductive FileContent where
  | text (t : Str)
  | yaml (pipeline : Dict Str Entry)
deriving DecidableEq

/-- `paramsFile` is what the file of a library holds, if there is one. -/
def chunkPipeline (inputs : Inputs) (paramsFile : Str → Option Params) (libraries : List Str) :
    Except Raised (Dict Str Entry) :=
  libraries.foldlM (fun pipeline library => do
    let params ← Raised.ofOption (.systemExit
      ("ERROR: params file not found for library '".toList ++ library ++ "'".toList)) (paramsFile library)
    return pipeline.update ((libraryJobs inputs library params).mapValues fun _ job => .job job))
    (pipelineHeader inputs)

def chunkFileName (chunk : Nat) : Str :=
  "generated-pipeline-chunk-".toList ++ Semver.decimal chunk ++ ".yml".toList

def chunkFile (inputs : Inputs) (paramsFile : Str → Option Params) (chunkLibs : List Str)
    (chunk : Nat) : Except Raised (Str × FileContent) :=
  if chunkLibs = [] then .ok (chunkFileName chunk, .text (noopStub inputs.stage))
  else do
    let pipeline ← chunkPipeline inputs paramsFile chunkLibs
    return (chunkFileName chunk, .yaml pipeline)

/-- The files that are written. -/
def build (inputs : Inputs) (paramsFile : Str → Option Params) (libraries : List Str)
    (chunks : Nat) : Except Raised (List (Str × FileContent)) := do
  let assigned ← chunkLibraries libraries chunks
  assigned.zipIdx.mapM fun p => chunkFile inputs paramsFile p.1 p.2

/-- `merge_params` -/
def mergeParams (weblogParams : List Params) (parametricParams : Option Params) :
    Except Raised Params := do
  let result ← Raised.ofOption (.indexError "list index out of range")
    (weblogParams ++ parametricParams.toList).head?
  let parallelJobs ← weblogParams.mapM fun p => do
    let defs ← Raised.ofOption (.keyError "endtoend_defs") p.endtoendDefs
    Raised.ofOption (.keyError "parallel_jobs") defs.parallelJobs
  let parallelWeblogs ← weblogParams.mapM fun p => do
    let defs ← Raised.ofOption (.keyError "endtoend_defs") p.endtoendDefs
    Raised.ofOption (.keyError "parallel_weblogs") defs.parallelWeblogs
  return {
    result with
    endtoendDefs := some {
      parallelEnable := some (decide (0 < parallelJobs.flatten.length))
      parallelWeblogs := some parallelWeblogs.flatten
      parallelJobs := some parallelJobs.flatten }
    parametric := match parametricParams with
      | some p => p.parametric
      | none => { result.parametric with enable := false, scenarios := [] } }

end Gitlab
end SystemTests
