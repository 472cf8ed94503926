import SystemTests.Foundation.Exception
import SystemTests.Foundation.JsonDocument
import SystemTests.Foundation.SetOrder
import SystemTests.SsiPipeline.UniquePrefix

/-!
# The SSI pipelines (`utils/scripts/ci_orchestrators/gitlab_exporter.py`)

Three matrices say what runs where: scenarios and weblogs on virtual machines,
in docker images, and on k8s.  All jobs are written into one dictionary, beside
the workflow, the stages and the jobs that they extend.
-/

namespace SystemTests
namespace SsiPipeline

open Foundation Foundation.Text

/-- `{image: runtimes, "arch": arch}` -/
structure DockerImage where
  image : Str
  runtimes : List Str
  arch : Str

structure MatrixData where
  aws : Dict Str (Dict Str (List Str))
  docker : Dict Str (Dict Str (List DockerImage))
  k8s : Dict Str (List Str)

inductive MatrixValue where
  | one (value : Str)
  | many (values : List Str)
deriving DecidableEq

abbrev MatrixEntry := Dict Str MatrixValue

structure Job where
  stage : Option Str
  parent : Str
  tags : List Str
  /-- `when: manual`, and `allow_failure: true` with it. -/
  manual : Bool
  jobVariables : Dict Str Str
  matrix : List MatrixEntry
  script : List Str

/-- A job of `.gitlab/ssi_gitlab-ci.yml` that others extend. -/
structure BaseJob where
  script : List Str
  jobVariables : Dict Str Json
  rest : Json

structure PipelineData where
  includes : Json
  jobVariables : Json
  ssiTests : Json
  onboarding : BaseJob
  dockerSsi : BaseJob
  k8s : BaseJob

inductive Entry where
  | workflow (name : Str)
  | data (value : Json)
  | stages (names : List Str)
  | base (job : BaseJob)
  | job (job : Job)

structure VirtualMachine where
  name : Str
  defaultVm : Bool

structure Scenario where
  name : Str
  withDatadogOperator : Bool
  withClusterAgent : Bool

/-- `k8s_components.json` -/
structure K8sComponents where
  plain : Dict Str (Dict Str Str)
  libInit : Dict Str (Dict Str Str)

/-- What the generation reads besides the matrices. -/
structure Context where
  language : Str
  ciEnvironment : Str
  getenv : Str → Option Str
  letterCase : UpperCase
  setOrder : SetOrder Str
  virtualMachines : List VirtualMachine
  scenarios : List Scenario
  components : K8sComponents
  pipelineData : PipelineData

def textDict (items : List (Str × Str)) : Dict Str Str := Dict.empty.setAll items

/-- A text that counts as true. -/
def truthy (value : Option Str) : Option Str := value.filter fun text => decide (text ≠ [])

/-- The item, if its value counts as true. -/
def optionalItem (key : Str) (value : Option Str) : List (Str × Str) :=
  (truthy value).toList.map fun text => (key, text)

section

variable (ctx : Context)

/-- `should_run_only_defaults_vm` -/
def shouldRunOnlyDefaultsVm : Bool :=
  if ctx.getenv "SYSTEM_TESTS_RUN_ALL_VMS" = some "true".toList then false
  else if ctx.getenv "CI_PIPELINE_SOURCE" = some "schedule".toList ∨
      (truthy (ctx.getenv "CI_COMMIT_TAG")).isSome then false
  else !(decide (ctx.getenv "CI_PROJECT_NAME" = some "system-tests".toList) &&
    decide (ctx.getenv "CI_COMMIT_BRANCH" = some "main".toList))

/-- `is_default_machine` -/
def isDefaultMachine (vm : Str) : Bool :=
  ctx.virtualMachines.any fun data => decide (data.name = vm) && data.defaultVm

/-- `os.getenv("CI_PROJECT_NAME") == "system-tests"` -/
def isSystemTests : Bool := decide (ctx.getenv "CI_PROJECT_NAME" = some "system-tests".toList)

def installerLibraryVersion : Option Str :=
  (truthy (ctx.getenv "DD_INSTALLER_LIBRARY_VERSION")).or
    (ctx.getenv ("DD_INSTALLER_LIBRARY_VERSION_".toList ++ ctx.letterCase.upper ctx.language))

def awsJob (scenario : Str) (weblogs : Dict Str (List Str)) (vm : Str) : Job where
  stage := some scenario
  parent := ".base_job_onboarding_system_tests"
  tags := []
  manual := shouldRunOnlyDefaultsVm ctx && !isDefaultMachine ctx vm
  jobVariables :=
    (textDict
      [("TEST_LIBRARY", ctx.language), ("SCENARIO", scenario), ("VM", vm),
        ("ONBOARDING_FILTER_ENV", ctx.ciEnvironment)]).setAll
      (optionalItem "DD_INSTALLER_LIBRARY_VERSION" (installerLibraryVersion ctx) ++
        optionalItem "DD_INSTALLER_INJECTOR_VERSION" (ctx.getenv "DD_INSTALLER_INJECTOR_VERSION") ++
        optionalItem "DD_INSTALL_SCRIPT_VERSION" (ctx.getenv "DD_INSTALL_SCRIPT_VERSION"))
  matrix := (weblogs.items.filter fun item => decide (vm ∈ item.2)).map fun item =>
    Dict.empty.set "WEBLOG" (.one item.1)
  script := []

def vmSet (weblogs : Dict Str (List Str)) : List Str :=
  ctx.setOrder.elements weblogs.values.flatten

/-- `result_pipeline["stages"].append(stage)` -/
def appendStage (pipeline : Dict Str Entry) (stage : Str) : Except Raised (Dict Str Entry) :=
  match pipeline.get? "stages" with
  | none => .error (.keyError "stages")
  | some (.stages names) => .ok (pipeline.set "stages" (.stages (names ++ [stage])))
  | some _ => .error (.attributeError "append")

def awsJobName (vm letters : Str) : Str := vm ++ '.' :: letters

def awsScenario (prefixes : Dict Str Str) (pipeline : Dict Str Entry)
    (item : Str × Dict Str (List Str)) : Except Raised (Dict Str Entry) := do
  let pipeline ← appendStage pipeline item.1
  (vmSet ctx item.2).foldlM (fun pipeline vm => do
    let letters ← Raised.ofOption (.keyError item.1) (prefixes.get? item.1)
    return pipeline.set (awsJobName vm letters) (.job (awsJob ctx item.1 item.2 vm))) pipeline

def printAwsGitlabPipeline (matrix : Dict Str (Dict Str (List Str))) (pipeline : Dict Str Entry) :
    Except Raised (Dict Str Entry) :=
  matrix.items.foldlM (awsScenario ctx (generateUniquePrefix ctx.letterCase matrix.keys)) pipeline

/-- The parameters of `run.sh` that depend on the installer versions. -/
def customExtraParams : Str :=
  ((truthy (installerLibraryVersion ctx)).map (" --ssi-library-version ".toList ++ ·)).getD [] ++
    ((truthy (ctx.getenv "DD_INSTALLER_INJECTOR_VERSION")).map
      (" --ssi-injector-version ".toList ++ ·)).getD []

def dockerScript : List Str :=
  let lines : List Str :=
    [("aws ecr get-login-password | docker login --username $\x7bPRIVATE_DOCKER_REGISTRY_USER\x7d " ++
        "--password-stdin $\x7bPRIVATE_DOCKER_REGISTRY\x7d").toList,
      "bash utils/scripts/use_prebuilt_runner_venv.sh".toList,
      "echo 'Running SSI tests'".toList,
      ("set -o pipefail\n" ++
          "PYTHONPATH=\"$\x7bPWD\x7d\" timeout 1200s ./run.sh $SCENARIO --ssi-weblog \"$WEBLOG\" " ++
          "--ssi-library \"$TEST_LIBRARY\" --ssi-base-image \"$IMAGE\" " ++
          "--ssi-arch \"$ARCH\" --ssi-installable-runtime \"$RUNTIME\" " ++
          "--ssi-env $ONBOARDING_FILTER_ENV").toList ++
        customExtraParams ctx ++
        " --report-run-url $\x7bCI_JOB_URL\x7d --report-environment ".toList ++
        ctx.ciEnvironment ++ " 2>&1 | tee \"$\x7bCI_PROJECT_DIR\x7d/run_output.log\"".toList]
  if isSystemTests ctx then lines
  else
    "cd /system-tests".toList ::
      (match truthy (ctx.getenv "SYSTEM_TESTS_REF") with
        | some ref => "git pull".toList :: ("git checkout ".toList ++ ref) :: lines
        | none => lines)

def dockerJob (scenario weblog : Str) (images : List DockerImage) (architecture : Str) : Job where
  stage := some scenario
  parent := ".base_docker_ssi_job"
  tags := [if architecture = "linux/amd64".toList then "docker-in-docker:amd64"
    else "docker-in-docker:arm64"]
  manual := false
  jobVariables :=
    (textDict
      [("KIND_EXPERIMENTAL_DOCKER_NETWORK", "bridge"), ("TEST_LIBRARY", ctx.language),
        ("SCENARIO", scenario), ("ONBOARDING_FILTER_ENV", ctx.ciEnvironment), ("WEBLOG", weblog)]).setAll
      (optionalItem "DD_INSTALLER_LIBRARY_VERSION" (installerLibraryVersion ctx) ++
        optionalItem "DD_INSTALLER_INJECTOR_VERSION" (ctx.getenv "DD_INSTALLER_INJECTOR_VERSION"))
  matrix := (images.filter fun image => decide (image.arch = architecture)).map fun image =>
    Dict.empty.setAll
      [("IMAGE", .one image.image), ("ARCH", .one image.arch), ("RUNTIME", .many image.runtimes)]
  script := dockerScript ctx

def architectures (images : List DockerImage) : List Str :=
  ctx.setOrder.elements (images.map DockerImage.arch)

/-- `architecture.replace("linux/", "")` -/
def shortArch (architecture : Str) : Str := replace "linux/".toList [] architecture

def dockerJobName (weblog architecture letters : Str) : Str :=
  weblog ++ '.' :: (shortArch architecture ++ '.' :: letters)

def dockerWeblog (prefixes : Dict Str Str) (scenario : Str) (pipeline : Dict Str Entry)
    (item : Str × List DockerImage) : Except Raised (Dict Str Entry) :=
  (architectures ctx item.2).foldlM (fun pipeline architecture => do
    let letters ← Raised.ofOption (.keyError scenario) (prefixes.get? scenario)
    return pipeline.set (dockerJobName item.1 architecture letters)
      (.job (dockerJob ctx scenario item.1 item.2 architecture))) pipeline

def dockerScenario (prefixes : Dict Str Str) (pipeline : Dict Str Entry)
    (item : Str × Dict Str (List DockerImage)) : Except Raised (Dict Str Entry) := do
  let pipeline ← appendStage pipeline item.1
  item.2.items.foldlM (dockerWeblog ctx prefixes item.1) pipeline

def printDockerSsiGitlabPipeline (matrix : Dict Str (Dict Str (List DockerImage)))
    (pipeline : Dict Str Entry) : Except Raised (Dict Str Entry) :=
  matrix.items.foldlM (dockerScenario ctx (generateUniquePrefix ctx.letterCase matrix.keys)) pipeline

namespace K8sComponents

variable (components : K8sComponents)

def componentData (component : Str) (lang : Option Str) : Except Raised (Dict Str Str) :=
  if component = "lib_init".toList then
    match lang with
    | none => .error (.valueError "Language parameter required for lib_init component")
    | some lang => Raised.ofOption (.keyError lang) (components.libInit.get? lang)
  else Raised.ofOption (.keyError component) (components.plain.get? component)

/-- `get_default_component_version` -/
def getDefaultComponentVersion (component : Str) (lang : Option Str) :
    Except Raised Str := do
  let data ← components.componentData component lang
  match data.get? "pinned" with
  | some version => return version
  | none => Raised.ofOption (.keyError "prod") (data.get? "prod")

/-- `get_all_component_versions` -/
def getAllComponentVersions (component : Str) (lang : Option Str) :
    Except Raised (List Str) := do
  let data ← components.componentData component lang
  return data.values

end K8sComponents

/-- `_short_image_ref` -/
def shortImageRef (value : Str) : Str :=
  let host := before '/' value
  let path := value.drop (host.length + 1)
  let registry := (ctx.getenv "PRIVATE_DOCKER_REGISTRY").getD
    "235494822917.dkr.ecr.us-east-1.amazonaws.com"
  if '/' ∈ value ∧ host = registry ∧ ("ssi/".toList <+: path ∨ "ssi-dev/".toList <+: path) then path
  else value

/-- `_as_job_name` -/
def asJobName : MatrixValue → MatrixValue
  | .one value => .one (shortImageRef ctx value)
  | .many values => .many (values.map (shortImageRef ctx))

/-- All versions of a component, or the one that is used by default. -/
def componentVersions (all : Bool) (component : Str) (lang : Option Str) :
    Except Raised MatrixValue :=
  if all then .many <$> ctx.components.getAllComponentVersions component lang
  else .one <$> ctx.components.getDefaultComponentVersion component lang

/-- `get_k8s_scenario_components` -/
def getK8sScenarioComponents (scenario : Str) : Except Raised (Dict Str MatrixValue) := do
  let found ← Raised.ofOption
    (.valueError ("Scenario '".toList ++ scenario ++
      ("' not found in utils/_context/_scenarios/__init__.py. " ++
        "Please ensure the scenario is properly defined.").toList))
    (ctx.scenarios.find? fun item => decide (item.name = scenario))
  let scheduled := isSystemTests ctx &&
    decide (ctx.getenv "CI_PIPELINE_SOURCE" = some "schedule".toList)
  let mut components : Dict Str MatrixValue := Dict.empty
  if found.withDatadogOperator then
    components := components.set "K8S_HELM_CHART_OPERATOR"
      (← componentVersions ctx scheduled "helm_chart_operator" none)
  if found.withClusterAgent then
    components := components.set "K8S_CLUSTER_IMG" (← componentVersions ctx scheduled "cluster_agent" none)
    components := components.set "K8S_INJECTOR_IMG"
      (← match truthy (ctx.getenv "K8S_INJECTOR_IMG") with
        | some image => pure (.one image)
        | none => componentVersions ctx (isSystemTests ctx) "injector" none)
  if found.withClusterAgent && !found.withDatadogOperator then
    components := components.set "K8S_HELM_CHART" (← componentVersions ctx scheduled "helm_chart" none)
  components := components.set "K8S_LIB_INIT_IMG"
    (← match truthy (ctx.getenv "K8S_LIB_INIT_IMG") with
      | some image => pure (.one image)
      | none => componentVersions ctx (isSystemTests ctx) "lib_init" (some ctx.language))
  return components.mapValues fun _ value => asJobName ctx value

def k8sJob (scenario : Str) (weblogs : List Str) (components : Dict Str MatrixValue) : Job where
  stage := none
  parent := ".k8s_lib_injection_base"
  tags := []
  manual := false
  jobVariables :=
    (textDict
      [("TEST_LIBRARY", ctx.language), ("K8S_SCENARIO", scenario),
        ("REPORT_ENVIRONMENT", ctx.ciEnvironment)]).setAll
      (optionalItem "K8S_WEBLOG_IMG" (ctx.getenv "K8S_WEBLOG_IMG"))
  matrix := weblogs.map fun weblog =>
    (Dict.empty.set "K8S_WEBLOG".toList (.one weblog)).update components
  script := []

def k8sScenario (pipeline : Dict Str Entry) (item : Str × List Str) :
    Except Raised (Dict Str Entry) := do
  let components ← getK8sScenarioComponents ctx item.1
  return pipeline.set item.1 (.job (k8sJob ctx item.1 item.2 components))

def printK8sGitlabPipeline (matrix : Dict Str (List Str)) (pipeline : Dict Str Entry) :
    Except Raised (Dict Str Entry) := do
  let pipeline ← appendStage pipeline "K8S_LIB_INJECTION"
  matrix.items.foldlM (k8sScenario ctx) pipeline

namespace BaseJob

/-- Where the scripts of the repository are, for a pipeline of another one. -/
def setDirectory (job : BaseJob) (directory : Str) : BaseJob :=
  { job with jobVariables :=
    job.jobVariables.set "SYSTEM_TESTS_DIR" (.string (Json.codePoints directory)) }

def insertScript (job : BaseJob) (line : Str) : BaseJob := { job with script := line :: job.script }

def checkout (job : BaseJob) : BaseJob :=
  match truthy (ctx.getenv "SYSTEM_TESTS_REF") with
  | some ref => job.insertScript ("git checkout ".toList ++ ref)
  | none => job

end BaseJob

def onboardingBase : BaseJob :=
  let job := ctx.pipelineData.onboarding
  if isSystemTests ctx then job
  else
    (((job.checkout ctx).insertScript "cd system-tests").insertScript
      "git clone https://github.com/DataDog/system-tests.git system-tests").setDirectory
      "$CI_PROJECT_DIR/system-tests"

def dockerSsiBase : BaseJob :=
  let job := ctx.pipelineData.dockerSsi
  if isSystemTests ctx then job else job.setDirectory "/system-tests"

def k8sBase : BaseJob :=
  let job := ctx.pipelineData.k8s
  if isSystemTests ctx then job
  else
    let job := match truthy (ctx.getenv "SYSTEM_TESTS_REF") with
      | some ref => (job.insertScript ("git checkout ".toList ++ ref)).insertScript "git pull"
      | none => job
    (job.insertScript "cd /system-tests").setDirectory "/system-tests"

def pipelineHeader : Dict Str Entry :=
  Dict.empty.setAll
    [("workflow", .workflow (ctx.language ++ " SSI".toList)),
      ("include", .data ctx.pipelineData.includes), ("stages", .stages []),
      ("variables", .data ctx.pipelineData.jobVariables)]

/-- The part of one kind of matrix, if there is anything in it. -/
def matrixPart {α : Type} (items : List α) (key : Str) (base : BaseJob)
    (print : Dict Str Entry → Except Raised (Dict Str Entry)) (pipeline : Dict Str Entry) :
    Except Raised (Dict Str Entry) :=
  if items = [] then .ok pipeline else print (pipeline.set key (.base base))

/-- Without anything to run, one job says so. -/
def pipelineStart (matrices : MatrixData) : Except Raised (Dict Str Entry) :=
  if matrices.aws.items = [] ∧ matrices.docker.items = [] ∧ matrices.k8s.items = [] then do
    let pipeline ← appendStage (pipelineHeader ctx) "SSI_TESTS"
    return pipeline.set "ssi_tests" (.data ctx.pipelineData.ssiTests)
  else .ok (pipelineHeader ctx)

def buildSsiGitlabPipeline (matrices : MatrixData) : Except Raised (Dict Str Entry) := do
  let pipeline ← pipelineStart ctx matrices
  let pipeline ← matrixPart matrices.aws.items ".base_job_onboarding_system_tests"
    (onboardingBase ctx) (printAwsGitlabPipeline ctx matrices.aws) pipeline
  let pipeline ← matrixPart matrices.docker.items ".base_docker_ssi_job" (dockerSsiBase ctx)
    (printDockerSsiGitlabPipeline ctx matrices.docker) pipeline
  matrixPart matrices.k8s.items ".k8s_lib_injection_base" (k8sBase ctx)
    (printK8sGitlabPipeline ctx matrices.k8s) pipeline

end

end SsiPipeline
end SystemTests
