import SystemTests.SsiPipeline.Exporter

/-!
# The jobs of an SSI pipeline (`utils/scripts/ci_orchestrators/gitlab_exporter.py`)

A job is for a scenario and a virtual machine, for a scenario, a weblog and an
architecture, or for a k8s scenario.

**Results.**
* `buildSsiGitlabPipeline_jobs`: the jobs of the pipeline are those that were
  written under their names, one after the other.
* `executes_of_mem_jobWrites`: what each of them is for.
-/

namespace SystemTests
namespace SsiPipeline

open Foundation Foundation.Text

inductive JobTask where
  | aws (scenario vm : Str)
  | docker (scenario weblog architecture : Str)
  | k8s (scenario : Str)
deriving DecidableEq

/-- The job is for this task. -/
def Job.Executes (job : Job) : JobTask → Prop
  | .aws scenario vm =>
      job.parent = ".base_job_onboarding_system_tests".toList ∧ job.stage = some scenario ∧
        job.jobVariables.get? "SCENARIO" = some scenario ∧ job.jobVariables.get? "VM" = some vm
  | .docker scenario weblog architecture =>
      job.parent = ".base_docker_ssi_job".toList ∧ job.stage = some scenario ∧
        job.jobVariables.get? "SCENARIO" = some scenario ∧
        job.jobVariables.get? "WEBLOG" = some weblog ∧
        job.matrix ≠ [] ∧ ∀ entry ∈ job.matrix, entry.get? "ARCH" = some (.one architecture)
  | .k8s scenario =>
      job.parent = ".k8s_lib_injection_base".toList ∧
        job.jobVariables.get? "K8S_SCENARIO" = some scenario

section Names

variable (ctx : Context) (matrices : MatrixData)

noncomputable def awsLetters (scenario : Str) : Str :=
  scenarioLetters ctx.letterCase matrices.aws.keys scenario

noncomputable def dockerLetters (scenario : Str) : Str :=
  scenarioLetters ctx.letterCase matrices.docker.keys scenario

noncomputable def jobName : JobTask → Str
  | .aws scenario vm => awsJobName vm (awsLetters ctx matrices scenario)
  | .docker scenario weblog architecture =>
      dockerJobName weblog architecture (dockerLetters ctx matrices scenario)
  | .k8s scenario => scenario

end Names

section Writes

variable (ctx : Context)

def awsWrites (item : Str × Dict Str (List Str)) : List (JobTask × Job) :=
  (vmSet ctx item.2).map fun vm => (.aws item.1 vm, awsJob ctx item.1 item.2 vm)

def dockerWeblogWrites (scenario : Str) (item : Str × List DockerImage) : List (JobTask × Job) :=
  (architectures ctx item.2).map fun architecture =>
    (.docker scenario item.1 architecture, dockerJob ctx scenario item.1 item.2 architecture)

def dockerWrites (item : Str × Dict Str (List DockerImage)) : List (JobTask × Job) :=
  item.2.items.flatMap (dockerWeblogWrites ctx item.1)

/-- The components of a scenario, where there are any. -/
def k8sComponentsOf (scenario : Str) : Dict Str MatrixValue :=
  match getK8sScenarioComponents ctx scenario with
  | .ok components => components
  | .error _ => Dict.empty

def k8sWrites (item : Str × List Str) : List (JobTask × Job) :=
  [(.k8s item.1, k8sJob ctx item.1 item.2 (k8sComponentsOf ctx item.1))]

/-- All jobs, in the order in which they are written. -/
def jobWrites (matrices : MatrixData) : List (JobTask × Job) :=
  matrices.aws.items.flatMap (awsWrites ctx) ++ matrices.docker.items.flatMap (dockerWrites ctx) ++
    matrices.k8s.items.flatMap (k8sWrites ctx)

end Writes

section Pipelines

/-- The jobs of a pipeline are those of a dictionary. -/
def HasJobs (pipeline : Dict Str Entry) (jobs : Dict Str Job) : Prop :=
  ∀ name job, pipeline.get? name = some (.job job) ↔ jobs.get? name = some job

/-- The list of stages is still there. -/
def StagesOpen (pipeline : Dict Str Entry) : Prop :=
  ∃ names, pipeline.get? "stages" = some (.stages names)

variable {pipeline : Dict Str Entry} {jobs : Dict Str Job}

theorem HasJobs.set_job (h : HasJobs pipeline jobs) (name : Str) (job : Job) :
    HasJobs (pipeline.set name (.job job)) (jobs.set name job) := by
  intro x j
  rw [Dict.get?_set, Dict.get?_set]
  by_cases hx : x = name
  · simp [hx]
  · simpa [hx] using h x j

theorem StagesOpen.set (h : StagesOpen pipeline) {name : Str} (hname : name ≠ "stages".toList)
    (entry : Entry) : StagesOpen (pipeline.set name entry) := by
  obtain ⟨names, hget⟩ := h
  exact ⟨names, by rw [Dict.get?_set_ne pipeline entry hname.symm, hget]⟩

/-- An entry that is no job is written where there was none. -/
theorem HasJobs.set_other (h : HasJobs pipeline jobs) {name : Str} {entry : Entry}
    (hentry : ∀ job, entry ≠ .job job) (hname : jobs.get? name = none) :
    HasJobs (pipeline.set name entry) jobs := by
  intro x j
  rw [Dict.get?_set]
  by_cases hx : x = name
  · subst hx
    simp [hname, hentry j]
  · simpa [hx] using h x j

theorem HasJobs.get?_eq_none (h : HasJobs pipeline jobs) {name : Str}
    (hname : ∀ job, pipeline.get? name ≠ some (.job job)) : jobs.get? name = none := by
  cases hget : jobs.get? name with
  | none => rfl
  | some job => exact absurd ((h name job).mpr hget) (hname job)

theorem appendStage_keeps (hjobs : HasJobs pipeline jobs) (hstages : StagesOpen pipeline)
    (stage : Str) : ∃ pipeline', appendStage pipeline stage = .ok pipeline' ∧
      HasJobs pipeline' jobs ∧ StagesOpen pipeline' := by
  obtain ⟨names, hget⟩ := hstages
  refine ⟨pipeline.set "stages" (.stages (names ++ [stage])), ?_, ?_, ?_⟩
  · rw [appendStage, hget]
  · refine hjobs.set_other (fun job => by simp) (hjobs.get?_eq_none ?_)
    intro job
    rw [hget]
    simp
  · exact ⟨names ++ [stage], Dict.get?_set_self _ _ _⟩

/-- A part of the generation writes these jobs, whatever was written before. -/
def Emits (Before After : Dict Str Entry → Prop)
    (part : Dict Str Entry → Except Raised (Dict Str Entry)) (writes : List (Str × Job)) : Prop :=
  ∀ pipeline jobs, HasJobs pipeline jobs → Before pipeline →
    ∃ pipeline', part pipeline = .ok pipeline' ∧ HasJobs pipeline' (jobs.setAll writes) ∧
      After pipeline'

variable {Keeps After : Dict Str Entry → Prop}

theorem Emits.foldlM {α : Type} {f : Dict Str Entry → α → Except Raised (Dict Str Entry)}
    {emit : α → List (Str × Job)} :
    ∀ {items : List α}, (∀ item ∈ items, Emits Keeps Keeps (fun p => f p item) (emit item)) →
      Emits Keeps Keeps (fun p => items.foldlM f p) (items.flatMap emit)
  | [], _, pipeline, _, hjobs, hkeeps => ⟨pipeline, rfl, hjobs, hkeeps⟩
  | item :: items, hstep, pipeline, jobs, hjobs, hkeeps => by
      obtain ⟨p₁, h₁, hjobs₁, hkeeps₁⟩ := hstep item List.mem_cons_self pipeline jobs hjobs hkeeps
      obtain ⟨p₂, h₂, hjobs₂, hkeeps₂⟩ :=
        Emits.foldlM (fun i hi => hstep i (List.mem_cons_of_mem item hi)) p₁ _ hjobs₁ hkeeps₁
      refine ⟨p₂, ?_, ?_, hkeeps₂⟩
      · simp only [List.foldlM_cons]
        rw [show f pipeline item = .ok p₁ from h₁]
        exact h₂
      · rwa [List.flatMap_cons, Dict.setAll_append]

theorem Emits.after_stage {part : Dict Str Entry → Except Raised (Dict Str Entry)}
    {writes : List (Str × Job)} (h : Emits StagesOpen After part writes) (stage : Str) :
    Emits StagesOpen After (fun p => appendStage p stage >>= part) writes := by
  intro pipeline jobs hjobs hstages
  obtain ⟨p₁, h₁, hjobs₁, hstages₁⟩ := appendStage_keeps hjobs hstages stage
  obtain ⟨p₂, h₂, hjobs₂, hafter⟩ := h p₁ jobs hjobs₁ hstages₁
  exact ⟨p₂, by simp only [h₁, Raised.ok_bind, h₂], hjobs₂, hafter⟩

theorem emits_set {name : Str} (hname : name ≠ "stages".toList) (job : Job) :
    Emits StagesOpen StagesOpen (fun p => .ok (p.set name (.job job))) [(name, job)] :=
  fun _ _ hjobs hstages => ⟨_, rfl, hjobs.set_job name job, hstages.set hname _⟩

end Pipelines

section Spec

variable {ctx : Context} {matrices : MatrixData}

/-- The names under which jobs are written. -/
noncomputable def named (ctx : Context) (matrices : MatrixData) (writes : List (JobTask × Job)) :
    List (Str × Job) :=
  writes.map fun p => (jobName ctx matrices p.1, p.2)

theorem named_append (writes writes' : List (JobTask × Job)) :
    named ctx matrices (writes ++ writes') =
      named ctx matrices writes ++ named ctx matrices writes' :=
  List.map_append

theorem named_flatMap {α : Type} (items : List α) (emit : α → List (JobTask × Job)) :
    named ctx matrices (items.flatMap emit) =
      items.flatMap fun item => named ctx matrices (emit item) :=
  List.map_flatMap

theorem ne_stages_of_dot {name : Str} (h : '.' ∈ name) : name ≠ "stages".toList := by
  rintro rfl
  exact absurd h (by decide)

/-- What follows the last dot of a name is a prefix, in upper case. -/
theorem ne_of_getLast_isLower {front letters name : Str}
    (hletters : ∀ c ∈ letters, c.isLower = false)
    (hname : ∃ c ∈ name.getLast?, c.isLower = true) : front ++ '.' :: letters ≠ name := by
  rintro rfl
  obtain ⟨c, hc, hlower⟩ := hname
  rw [List.getLast?_append_cons] at hc
  rcases List.mem_cons.mp (List.mem_of_getLast? hc) with rfl | hmem
  · exact absurd hlower (by decide)
  · rw [hletters c hmem] at hlower
    cases hlower

theorem get?_prefixes_aws {item : Str × Dict Str (List Str)} (h : item ∈ matrices.aws.items) :
    (generateUniquePrefix ctx.letterCase matrices.aws.keys).get? item.1 =
      some (awsLetters ctx matrices item.1) :=
  get?_generateUniquePrefix matrices.aws.nodup (List.mem_map_of_mem h)

theorem get?_prefixes_docker {item : Str × Dict Str (List DockerImage)}
    (h : item ∈ matrices.docker.items) :
    (generateUniquePrefix ctx.letterCase matrices.docker.keys).get? item.1 =
      some (dockerLetters ctx matrices item.1) :=
  get?_generateUniquePrefix matrices.docker.nodup (List.mem_map_of_mem h)

theorem emits_aws :
    Emits StagesOpen StagesOpen (printAwsGitlabPipeline ctx matrices.aws)
      (named ctx matrices (matrices.aws.items.flatMap (awsWrites ctx))) := by
  rw [named_flatMap]
  refine Emits.foldlM fun item hitem => Emits.after_stage ?_ item.1
  have hsingle : named ctx matrices (awsWrites ctx item) = (vmSet ctx item.2).flatMap fun vm =>
      [(awsJobName vm (awsLetters ctx matrices item.1), awsJob ctx item.1 item.2 vm)] := by
    rw [named, awsWrites, List.map_map, List.map_eq_flatMap]
    rfl
  rw [hsingle]
  refine Emits.foldlM fun vm _ => ?_
  simp only [get?_prefixes_aws hitem, Raised.ofOption_some, Raised.ok_bind]
  exact emits_set (ne_stages_of_dot (by simp [awsJobName])) _

theorem emits_dockerWeblog {item : Str × Dict Str (List DockerImage)}
    (hitem : item ∈ matrices.docker.items) (weblog : Str × List DockerImage) :
    Emits StagesOpen StagesOpen
      (fun p => dockerWeblog ctx (generateUniquePrefix ctx.letterCase matrices.docker.keys)
        item.1 p weblog)
      (named ctx matrices (dockerWeblogWrites ctx item.1 weblog)) := by
  have hsingle : named ctx matrices (dockerWeblogWrites ctx item.1 weblog) =
      (architectures ctx weblog.2).flatMap fun architecture =>
        [(dockerJobName weblog.1 architecture (dockerLetters ctx matrices item.1),
          dockerJob ctx item.1 weblog.1 weblog.2 architecture)] := by
    rw [named, dockerWeblogWrites, List.map_map, List.map_eq_flatMap]
    rfl
  rw [hsingle]
  refine Emits.foldlM fun architecture _ => ?_
  simp only [get?_prefixes_docker hitem, Raised.ofOption_some, Raised.ok_bind]
  exact emits_set (ne_stages_of_dot (by simp [dockerJobName])) _

theorem emits_docker :
    Emits StagesOpen StagesOpen (printDockerSsiGitlabPipeline ctx matrices.docker)
      (named ctx matrices (matrices.docker.items.flatMap (dockerWrites ctx))) := by
  rw [named_flatMap]
  refine Emits.foldlM fun item hitem => Emits.after_stage ?_ item.1
  rw [dockerWrites, named_flatMap]
  exact Emits.foldlM fun weblog _ => emits_dockerWeblog hitem weblog

/-- The components of each k8s scenario are known. -/
def K8sKnown (ctx : Context) (matrices : MatrixData) : Prop :=
  ∀ scenario ∈ matrices.k8s.keys, ∃ components,
    getK8sScenarioComponents ctx scenario = .ok components

theorem emits_k8s (hknown : K8sKnown ctx matrices) :
    Emits StagesOpen (fun _ => True) (printK8sGitlabPipeline ctx matrices.k8s)
      (named ctx matrices (matrices.k8s.items.flatMap (k8sWrites ctx))) := by
  refine Emits.after_stage ?_ "K8S_LIB_INJECTION".toList
  -- A k8s scenario may be called `stages`: from here on nothing is appended.
  have hloop : Emits (fun _ => True) (fun _ => True)
      (fun p => matrices.k8s.items.foldlM (k8sScenario ctx) p)
      (named ctx matrices (matrices.k8s.items.flatMap (k8sWrites ctx))) := by
    rw [named_flatMap]
    refine Emits.foldlM fun item hitem pipeline jobs hjobs _ => ?_
    obtain ⟨components, hcomponents⟩ := hknown item.1 (List.mem_map_of_mem hitem)
    have hwrites : named ctx matrices (k8sWrites ctx item) =
        [(item.1, k8sJob ctx item.1 item.2 components)] := by
      simp only [named, k8sWrites, k8sComponentsOf, hcomponents]
      rfl
    refine ⟨pipeline.set item.1 (.job (k8sJob ctx item.1 item.2 components)), ?_, ?_, trivial⟩
    · simp only [k8sScenario, hcomponents, Raised.ok_bind]
      rfl
    · rw [hwrites]
      exact hjobs.set_job item.1 _
  exact fun pipeline jobs hjobs _ => hloop pipeline jobs hjobs trivial

theorem not_mem_named {writes : List (JobTask × Job)} {name : Str}
    (h : ∀ p ∈ writes, jobName ctx matrices p.1 ≠ name) :
    name ∉ (named ctx matrices writes).map Prod.fst := by
  rw [named, List.map_map]
  intro hmem
  obtain ⟨p, hp, rfl⟩ := List.mem_map.mp hmem
  exact h p hp rfl

theorem jobName_aws_ne {p : JobTask × Job} {name : Str}
    (hp : p ∈ matrices.aws.items.flatMap (awsWrites ctx))
    (hname : ∃ c ∈ name.getLast?, c.isLower = true) : jobName ctx matrices p.1 ≠ name := by
  obtain ⟨item, -, hp⟩ := List.mem_flatMap.mp hp
  obtain ⟨vm, -, rfl⟩ := List.mem_map.mp hp
  exact ne_of_getLast_isLower (fun c hc => isLower_scenarioLetters hc) hname

theorem jobName_docker_ne {p : JobTask × Job} {name : Str}
    (hp : p ∈ matrices.docker.items.flatMap (dockerWrites ctx))
    (hname : ∃ c ∈ name.getLast?, c.isLower = true) : jobName ctx matrices p.1 ≠ name := by
  obtain ⟨item, -, hp⟩ := List.mem_flatMap.mp hp
  obtain ⟨weblog, -, hp⟩ := List.mem_flatMap.mp hp
  obtain ⟨architecture, -, rfl⟩ := List.mem_map.mp hp
  have hsplit : jobName ctx matrices (.docker item.1 weblog.1 architecture) =
      (weblog.1 ++ '.' :: shortArch architecture) ++ '.' :: dockerLetters ctx matrices item.1 := by
    simp [jobName, dockerJobName]
  rw [hsplit]
  exact ne_of_getLast_isLower (fun c hc => isLower_scenarioLetters hc) hname

/-- The base job of a matrix, and the jobs of the matrix after it. -/
theorem matrixPart_emits {α : Type} (items : List α) (key : Str) (base : BaseJob)
    {print : Dict Str Entry → Except Raised (Dict Str Entry)} {writes : List (Str × Job)}
    {pipeline : Dict Str Entry} {jobs : Dict Str Job} {After : Dict Str Entry → Prop}
    (hprint : Emits StagesOpen After print writes) (hempty : items = [] → writes = [])
    (hafter : StagesOpen pipeline → After pipeline) (hjobs : HasJobs pipeline jobs)
    (hstages : StagesOpen pipeline) (hstage : key ≠ "stages".toList) (hkey : jobs.get? key = none) :
    ∃ pipeline', matrixPart items key base print pipeline = .ok pipeline' ∧
      HasJobs pipeline' (jobs.setAll writes) ∧ After pipeline' := by
  by_cases hitems : items = []
  · refine ⟨pipeline, if_pos hitems, ?_, hafter hstages⟩
    rwa [hempty hitems]
  · obtain ⟨pipeline', hok, h⟩ :=
      hprint _ jobs (hjobs.set_other (fun job => by simp) hkey) (hstages.set hstage (.base base))
    exact ⟨pipeline', (if_neg hitems).trans hok, h⟩

theorem header_keeps (ctx : Context) :
    HasJobs (pipelineHeader ctx) Dict.empty ∧ StagesOpen (pipelineHeader ctx) := by
  constructor
  · intro name job
    rw [Dict.get?_empty]
    refine iff_of_false (fun hget => ?_) (fun h => Option.some_ne_none _ h.symm)
    rcases Dict.get?_setAll_cases hget with hmem | hempty
    · simp at hmem
    · rw [Dict.get?_empty] at hempty
      cases hempty
  · refine ⟨[], ?_⟩
    simp only [pipelineHeader, Dict.setAll_cons, Dict.setAll_nil]
    rw [Dict.get?_set_ne _ _ (by decide), Dict.get?_set_self]

theorem pipelineStart_keeps (ctx : Context) (matrices : MatrixData) :
    ∃ pipeline, pipelineStart ctx matrices = .ok pipeline ∧ HasJobs pipeline Dict.empty ∧
      StagesOpen pipeline := by
  obtain ⟨hjobs, hstages⟩ := header_keeps ctx
  rw [pipelineStart]
  split
  · obtain ⟨p, hp, hjobs, hstages⟩ := appendStage_keeps hjobs hstages "SSI_TESTS".toList
    refine ⟨p.set "ssi_tests" (.data ctx.pipelineData.ssiTests), ?_, ?_, ?_⟩
    · rw [hp, Raised.ok_bind]
      rfl
    · exact hjobs.set_other (fun job => by simp) (Dict.get?_empty _)
    · exact hstages.set (by decide) _
  · exact ⟨_, rfl, hjobs, hstages⟩

/-- The jobs of the pipeline. -/
theorem buildSsiGitlabPipeline_jobs (ctx : Context) (matrices : MatrixData)
    (hknown : K8sKnown ctx matrices) :
    ∃ pipeline, buildSsiGitlabPipeline ctx matrices = .ok pipeline ∧
      HasJobs pipeline (Naming.stored (jobName ctx matrices) (jobWrites ctx matrices)) := by
  obtain ⟨p₀, h₀, hjobs₀, hstages₀⟩ := pipelineStart_keeps ctx matrices
  obtain ⟨p₁, h₁, hjobs₁, hstages₁⟩ := matrixPart_emits matrices.aws.items
    ".base_job_onboarding_system_tests" (onboardingBase ctx) emits_aws (fun h => by rw [h]; rfl) id hjobs₀ hstages₀
    (by decide)
    (Dict.get?_empty _)
  have hdocker : (Dict.empty.setAll
      (named ctx matrices (matrices.aws.items.flatMap (awsWrites ctx)))).get?
      ".base_docker_ssi_job".toList = none :=
    Dict.get?_setAll_of_not_mem Dict.empty
      (not_mem_named fun p hp => jobName_aws_ne hp ⟨'b', by decide, by decide⟩)
  obtain ⟨p₂, h₂, hjobs₂, hstages₂⟩ := matrixPart_emits matrices.docker.items
    ".base_docker_ssi_job" (dockerSsiBase ctx) emits_docker (fun h => by rw [h]; rfl) id hjobs₁ hstages₁
    (by decide) hdocker
  rw [← Dict.setAll_append, ← named_append] at hjobs₂
  have hk8s : (Dict.empty.setAll (named ctx matrices
      (matrices.aws.items.flatMap (awsWrites ctx) ++
        matrices.docker.items.flatMap (dockerWrites ctx)))).get?
      ".k8s_lib_injection_base".toList = none := by
    refine Dict.get?_setAll_of_not_mem Dict.empty (not_mem_named fun p hp => ?_)
    rcases List.mem_append.mp hp with hp | hp
    · exact jobName_aws_ne hp ⟨'e', by decide, by decide⟩
    · exact jobName_docker_ne hp ⟨'e', by decide, by decide⟩
  obtain ⟨p₃, h₃, hjobs₃, -⟩ := matrixPart_emits matrices.k8s.items
    ".k8s_lib_injection_base" (k8sBase ctx) (emits_k8s hknown) (fun h => by rw [h]; rfl) (fun _ => trivial) hjobs₂ hstages₂
    (by decide) hk8s
  rw [← Dict.setAll_append, ← named_append] at hjobs₃
  refine ⟨p₃, ?_, hjobs₃⟩
  rw [buildSsiGitlabPipeline, h₀, Raised.ok_bind, h₁, Raised.ok_bind, h₂, Raised.ok_bind, h₃]

end Spec

section Executes

variable {ctx : Context}

theorem get?_setAll_optionalItem {items : List (Str × Str)} (d : Dict Str Str) {key : Str}
    (h : ∀ p ∈ items, p.1 ≠ key) : (d.setAll items).get? key = d.get? key := by
  refine Dict.get?_setAll_of_not_mem d fun hmem => ?_
  obtain ⟨p, hp, rfl⟩ := List.mem_map.mp hmem
  exact h p hp rfl

theorem key_of_mem_optionalItem {key : Str} {value : Option Str} {p : Str × Str}
    (h : p ∈ optionalItem key value) : p.1 = key := by
  obtain ⟨text, -, rfl⟩ := List.mem_map.mp h
  rfl

theorem awsJob_executes (scenario : Str) (weblogs : Dict Str (List Str)) (vm : Str) :
    (awsJob ctx scenario weblogs vm).Executes (.aws scenario vm) := by
  have hvariable : ∀ key : Str, key ≠ "DD_INSTALLER_LIBRARY_VERSION".toList →
      key ≠ "DD_INSTALLER_INJECTOR_VERSION".toList → key ≠ "DD_INSTALL_SCRIPT_VERSION".toList →
      (awsJob ctx scenario weblogs vm).jobVariables.get? key =
        (textDict
          [("TEST_LIBRARY", ctx.language), ("SCENARIO", scenario), ("VM", vm),
            ("ONBOARDING_FILTER_ENV", ctx.ciEnvironment)]).get? key := by
    intro key hlibrary hinjector hscript
    refine get?_setAll_optionalItem _ fun p hp => ?_
    rcases List.mem_append.mp hp with hp | hp
    · rcases List.mem_append.mp hp with hp | hp
      · rw [key_of_mem_optionalItem hp]
        exact hlibrary.symm
      · rw [key_of_mem_optionalItem hp]
        exact hinjector.symm
    · rw [key_of_mem_optionalItem hp]
      exact hscript.symm
  refine ⟨rfl, rfl, ?_, ?_⟩
  · rw [hvariable _ (by decide) (by decide) (by decide)]
    simp [textDict, Dict.get?_set]
  · rw [hvariable _ (by decide) (by decide) (by decide)]
    simp [textDict, Dict.get?_set]

theorem get?_dockerJob {scenario weblog architecture : Str} {images : List DockerImage} {key : Str}
    (hlibrary : key ≠ "DD_INSTALLER_LIBRARY_VERSION".toList)
    (hinjector : key ≠ "DD_INSTALLER_INJECTOR_VERSION".toList) :
    (dockerJob ctx scenario weblog images architecture).jobVariables.get? key =
      (textDict
        [("KIND_EXPERIMENTAL_DOCKER_NETWORK", "bridge"), ("TEST_LIBRARY", ctx.language),
          ("SCENARIO", scenario), ("ONBOARDING_FILTER_ENV", ctx.ciEnvironment),
          ("WEBLOG", weblog)]).get? key := by
  refine get?_setAll_optionalItem _ fun p hp => ?_
  rcases List.mem_append.mp hp with hp | hp
  · rw [key_of_mem_optionalItem hp]
    exact hlibrary.symm
  · rw [key_of_mem_optionalItem hp]
    exact hinjector.symm

theorem dockerJob_executes {images : List DockerImage} {architecture : Str}
    (h : architecture ∈ architectures ctx images) (scenario weblog : Str) :
    (dockerJob ctx scenario weblog images architecture).Executes
      (.docker scenario weblog architecture) := by
  obtain ⟨image, himage, harch⟩ := List.mem_map.mp ((ctx.setOrder.mem_iff _ _).mp h)
  refine ⟨rfl, rfl, ?_, ?_, ?_, ?_⟩
  · rw [get?_dockerJob (by decide) (by decide)]
    simp [textDict, Dict.get?_set]
  · rw [get?_dockerJob (by decide) (by decide)]
    simp [textDict]
  · refine List.ne_nil_of_mem (List.mem_map_of_mem (List.mem_filter.mpr ⟨himage, ?_⟩))
    exact decide_eq_true harch
  · intro entry hentry
    obtain ⟨image, himage, rfl⟩ := List.mem_map.mp hentry
    rw [← of_decide_eq_true (List.mem_filter.mp himage).2]
    simp [Dict.get?_set]

theorem k8sJob_executes (scenario : Str) (weblogs : List Str) (components : Dict Str MatrixValue) :
    (k8sJob ctx scenario weblogs components).Executes (.k8s scenario) := by
  refine ⟨rfl, ?_⟩
  rw [k8sJob, get?_setAll_optionalItem]
  · simp [textDict, Dict.get?_set]
  · intro p hp
    rw [key_of_mem_optionalItem hp]
    decide

/-- A job is for one task. -/
theorem Job.Executes.unique {job : Job} {t u : JobTask} (ht : job.Executes t)
    (hu : job.Executes u) : t = u := by
  have hparent : ∀ {x y : Str}, job.parent = x → job.parent = y → x = y :=
    fun hx hy => hx.symm.trans hy
  cases t with
  | aws scenario vm =>
      cases u with
      | aws scenario' vm' =>
          have hscenario := Option.some.inj (ht.2.1.symm.trans hu.2.1)
          have hvm := Option.some.inj (ht.2.2.2.symm.trans hu.2.2.2)
          rw [hscenario, hvm]
      | docker => exact absurd (hparent ht.1 hu.1) (by decide)
      | k8s => exact absurd (hparent ht.1 hu.1) (by decide)
  | docker scenario weblog architecture =>
      cases u with
      | aws => exact absurd (hparent ht.1 hu.1) (by decide)
      | docker scenario' weblog' architecture' =>
          obtain ⟨-, hstage, -, hweblog, hmatrix, harch⟩ := ht
          obtain ⟨-, hstage', -, hweblog', -, harch'⟩ := hu
          obtain ⟨entry, hentry⟩ := List.exists_mem_of_ne_nil _ hmatrix
          have hscenario := Option.some.inj (hstage.symm.trans hstage')
          have hweblogs := Option.some.inj (hweblog.symm.trans hweblog')
          have hvalues := Option.some.inj ((harch entry hentry).symm.trans (harch' entry hentry))
          rw [hscenario, hweblogs, MatrixValue.one.inj hvalues]
      | k8s => exact absurd (hparent ht.1 hu.1) (by decide)
  | k8s scenario =>
      cases u with
      | aws => exact absurd (hparent ht.1 hu.1) (by decide)
      | docker => exact absurd (hparent ht.1 hu.1) (by decide)
      | k8s scenario' => rw [Option.some.inj (ht.2.symm.trans hu.2)]

theorem executes_of_mem_jobWrites {matrices : MatrixData} {t : JobTask} {job : Job}
    (h : (t, job) ∈ jobWrites ctx matrices) : job.Executes t := by
  rw [jobWrites, List.mem_append, List.mem_append] at h
  rcases h with (h | h) | h
  · obtain ⟨item, -, h⟩ := List.mem_flatMap.mp h
    obtain ⟨vm, -, heq⟩ := List.mem_map.mp h
    obtain ⟨rfl, rfl⟩ := Prod.mk.inj heq
    exact awsJob_executes item.1 item.2 vm
  · obtain ⟨item, -, h⟩ := List.mem_flatMap.mp h
    obtain ⟨weblog, -, h⟩ := List.mem_flatMap.mp h
    obtain ⟨architecture, harch, heq⟩ := List.mem_map.mp h
    obtain ⟨rfl, rfl⟩ := Prod.mk.inj heq
    exact dockerJob_executes harch item.1 weblog.1
  · obtain ⟨item, -, h⟩ := List.mem_flatMap.mp h
    obtain ⟨rfl, rfl⟩ := Prod.mk.inj (List.mem_singleton.mp h)
    exact k8sJob_executes item.1 item.2 _

end Executes

end SsiPipeline
end SystemTests
