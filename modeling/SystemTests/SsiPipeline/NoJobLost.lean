import SystemTests.SsiPipeline.Tasks

/-!
# What an SSI pipeline loses (`utils/scripts/ci_orchestrators/gitlab_exporter.py`)

The job of one scenario replaces that of another one when their names agree.

**Results.**
* `namesApart_iff`: when the names of all jobs are different.
* `buildSsiGitlabPipeline_iff`: when a pipeline has every job, and every test
  run of the matrices once.
-/

namespace SystemTests
namespace SsiPipeline

open Foundation Foundation.Text

/-- One line of a matrix. -/
inductive TestRun where
  | aws (scenario vm weblog : Str)
  | docker (scenario weblog image architecture runtime : Str)

namespace MatrixData

/-- What the matrices have jobs for. -/
def AsksJob (matrices : MatrixData) : JobTask → Prop
  | .aws scenario vm => ∃ weblogs, matrices.aws.get? scenario = some weblogs ∧
      ∃ weblog vms, weblogs.get? weblog = some vms ∧ vm ∈ vms
  | .docker scenario weblog architecture => ∃ weblogs images,
      matrices.docker.get? scenario = some weblogs ∧ weblogs.get? weblog = some images ∧
        ∃ image ∈ images, image.arch = architecture
  | .k8s scenario => scenario ∈ matrices.k8s.keys

def AsksRun (matrices : MatrixData) : TestRun → Prop
  | .aws scenario vm weblog => ∃ weblogs vms, matrices.aws.get? scenario = some weblogs ∧
      weblogs.get? weblog = some vms ∧ vm ∈ vms
  | .docker scenario weblog image architecture runtime => ∃ weblogs images,
      matrices.docker.get? scenario = some weblogs ∧ weblogs.get? weblog = some images ∧
        ∃ i ∈ images, i.image = image ∧ i.arch = architecture ∧ runtime ∈ i.runtimes

/-- No dot in the names of virtual machines, weblogs and architectures. -/
def Dotless (matrices : MatrixData) : Prop :=
  (∀ scenario vm, matrices.AsksJob (.aws scenario vm) → '.' ∉ vm) ∧
    ∀ scenario weblog architecture, matrices.AsksJob (.docker scenario weblog architecture) →
      '.' ∉ weblog ∧ '.' ∉ architecture

end MatrixData

/-- The job runs this for an entry of its matrix, in the stage of the scenario. -/
def Job.Runs (job : Job) (entry : MatrixEntry) : TestRun → Prop
  | .aws scenario vm weblog =>
      job.Executes (.aws scenario vm) ∧ entry.get? "WEBLOG" = some (.one weblog)
  | .docker scenario weblog image architecture runtime =>
      job.parent = ".base_docker_ssi_job".toList ∧ job.stage = some scenario ∧
        job.jobVariables.get? "SCENARIO" = some scenario ∧
        job.jobVariables.get? "WEBLOG" = some weblog ∧
        entry.get? "IMAGE" = some (.one image) ∧ entry.get? "ARCH" = some (.one architecture) ∧
        ∃ runtimes, entry.get? "RUNTIME" = some (.many runtimes) ∧ runtime ∈ runtimes

/-- The pipeline has every job, and every test run in one entry of the matrix of one job. -/
structure LosesNoJob (ctx : Context) (matrices : MatrixData) (pipeline : Dict Str Entry) : Prop where
  awsPrefixes : PrefixesDistinct matrices.aws.keys
    (generateUniquePrefix ctx.letterCase matrices.aws.keys)
  dockerPrefixes : PrefixesDistinct matrices.docker.keys
    (generateUniquePrefix ctx.letterCase matrices.docker.keys)
  jobs : ∀ task, matrices.AsksJob task →
    ∃! name, ∃ job, pipeline.get? name = some (.job job) ∧ job.Executes task
  runs : ∀ run, matrices.AsksRun run →
    ∃! place : Str × Nat, ∃ job entry, pipeline.get? place.1 = some (.job job) ∧
      job.matrix[place.2]? = some entry ∧ job.Runs entry run

/-- What keeps the jobs of a pipeline apart. -/
structure Separable (ctx : Context) (matrices : MatrixData) : Prop where
  /-- A prefix with digits of a digest is not one that an earlier scenario has. -/
  aws : Naming.NoClash (firstLetters ctx.letterCase) (hashedLetters ctx.letterCase)
    matrices.aws.keys
  docker : Naming.NoClash (firstLetters ctx.letterCase) (hashedLetters ctx.letterCase)
    matrices.docker.keys
  /-- The architectures of a weblog are different without `linux/`. -/
  architectures : ∀ scenario weblog a b, matrices.AsksJob (.docker scenario weblog a) →
    matrices.AsksJob (.docker scenario weblog b) → shortArch a = shortArch b → a = b
  awsDocker : ∀ scenario scenario' vm architecture, matrices.AsksJob (.aws scenario vm) →
    matrices.AsksJob (.docker scenario' vm architecture) →
    awsLetters ctx matrices scenario ≠
      shortArch architecture ++ '.' :: dockerLetters ctx matrices scenario'
  k8sAws : ∀ scenario vm, matrices.AsksJob (.aws scenario vm) →
    awsJobName vm (awsLetters ctx matrices scenario) ∉ matrices.k8s.keys
  k8sDocker : ∀ scenario weblog architecture,
    matrices.AsksJob (.docker scenario weblog architecture) →
    dockerJobName weblog architecture (dockerLetters ctx matrices scenario) ∉ matrices.k8s.keys
  listedOnce : ∀ scenario weblog weblogs images, matrices.docker.get? scenario = some weblogs →
    weblogs.get? weblog = some images →
    images.Pairwise fun i j => i.image = j.image → i.arch = j.arch → ∀ r ∈ i.runtimes, r ∉ j.runtimes

section Writes

variable {ctx : Context} {matrices : MatrixData}

theorem mem_jobWrites_aws {scenario vm : Str} {job : Job} :
    (.aws scenario vm, job) ∈ jobWrites ctx matrices ↔
      ∃ weblogs, matrices.aws.get? scenario = some weblogs ∧ vm ∈ vmSet ctx weblogs ∧
        job = awsJob ctx scenario weblogs vm := by
  simp only [jobWrites, List.mem_append, List.mem_flatMap, awsWrites, dockerWrites,
    dockerWeblogWrites, k8sWrites, List.mem_map, List.mem_singleton, Prod.mk.injEq,
    JobTask.aws.injEq, reduceCtorEq, false_and, and_false, exists_false, or_false]
  constructor
  · rintro ⟨⟨s, weblogs⟩, hitem, vm', hvm, ⟨rfl, rfl⟩, rfl⟩
    exact ⟨weblogs, (Dict.mem_items_iff _ _ _).mp hitem, hvm, rfl⟩
  · rintro ⟨weblogs, hget, hvm, rfl⟩
    exact ⟨(scenario, weblogs), (Dict.mem_items_iff _ _ _).mpr hget, vm, hvm, ⟨rfl, rfl⟩, rfl⟩

theorem mem_jobWrites_docker {scenario weblog architecture : Str} {job : Job} :
    (.docker scenario weblog architecture, job) ∈ jobWrites ctx matrices ↔
      ∃ weblogs images, matrices.docker.get? scenario = some weblogs ∧
        weblogs.get? weblog = some images ∧ architecture ∈ architectures ctx images ∧
        job = dockerJob ctx scenario weblog images architecture := by
  simp only [jobWrites, List.mem_append, List.mem_flatMap, awsWrites, dockerWrites,
    dockerWeblogWrites, k8sWrites, List.mem_map, List.mem_singleton, Prod.mk.injEq,
    JobTask.docker.injEq, reduceCtorEq, false_and, and_false, exists_false, or_false, false_or]
  constructor
  · rintro ⟨⟨s, weblogs⟩, hitem, ⟨w, images⟩, hweblog, a, ha, ⟨rfl, rfl, rfl⟩, rfl⟩
    exact ⟨weblogs, images, (Dict.mem_items_iff _ _ _).mp hitem,
      (Dict.mem_items_iff _ _ _).mp hweblog, ha, rfl⟩
  · rintro ⟨weblogs, images, hget, hweblog, ha, rfl⟩
    exact ⟨(scenario, weblogs), (Dict.mem_items_iff _ _ _).mpr hget, (weblog, images),
      (Dict.mem_items_iff _ _ _).mpr hweblog, architecture, ha, ⟨rfl, rfl, rfl⟩, rfl⟩

theorem mem_jobWrites_k8s {scenario : Str} {job : Job} :
    (.k8s scenario, job) ∈ jobWrites ctx matrices ↔
      ∃ weblogs, matrices.k8s.get? scenario = some weblogs ∧
        job = k8sJob ctx scenario weblogs (k8sComponentsOf ctx scenario) := by
  simp only [jobWrites, List.mem_append, List.mem_flatMap, awsWrites, dockerWrites,
    dockerWeblogWrites, k8sWrites, List.mem_map, List.mem_singleton, Prod.mk.injEq,
    JobTask.k8s.injEq, reduceCtorEq, false_and, and_false, exists_false, false_or]
  constructor
  · rintro ⟨⟨s, weblogs⟩, hitem, rfl, rfl⟩
    exact ⟨weblogs, (Dict.mem_items_iff _ _ _).mp hitem, rfl⟩
  · rintro ⟨weblogs, hget, rfl⟩
    exact ⟨(scenario, weblogs), (Dict.mem_items_iff _ _ _).mpr hget, rfl, rfl⟩

theorem mem_vmSet {weblogs : Dict Str (List Str)} {vm : Str} :
    vm ∈ vmSet ctx weblogs ↔ ∃ weblog vms, weblogs.get? weblog = some vms ∧ vm ∈ vms := by
  rw [vmSet, ctx.setOrder.mem_iff, List.mem_flatten]
  constructor
  · rintro ⟨vms, hvms, hvm⟩
    obtain ⟨⟨weblog, _⟩, hitem, rfl⟩ := List.mem_map.mp hvms
    exact ⟨weblog, _, (Dict.mem_items_iff _ _ _).mp hitem, hvm⟩
  · rintro ⟨weblog, vms, hget, hvm⟩
    exact ⟨vms, List.mem_map.mpr ⟨(weblog, vms), (Dict.mem_items_iff _ _ _).mpr hget, rfl⟩, hvm⟩

theorem mem_architectures {images : List DockerImage} {architecture : Str} :
    architecture ∈ architectures ctx images ↔ ∃ image ∈ images, image.arch = architecture := by
  rw [architectures, ctx.setOrder.mem_iff, List.mem_map]

/-- There is a job for what the matrices ask for, and for nothing else. -/
theorem asksJob_iff {task : JobTask} :
    matrices.AsksJob task ↔ ∃ job, (task, job) ∈ jobWrites ctx matrices := by
  cases task with
  | aws scenario vm =>
      simp only [mem_jobWrites_aws, mem_vmSet, MatrixData.AsksJob]
      constructor
      · rintro ⟨weblogs, hget, hvm⟩
        exact ⟨_, weblogs, hget, hvm, rfl⟩
      · rintro ⟨_, weblogs, hget, hvm, -⟩
        exact ⟨weblogs, hget, hvm⟩
  | docker scenario weblog architecture =>
      simp only [mem_jobWrites_docker, mem_architectures, MatrixData.AsksJob]
      constructor
      · rintro ⟨weblogs, images, hget, hweblog, himage⟩
        exact ⟨_, weblogs, images, hget, hweblog, himage, rfl⟩
      · rintro ⟨_, weblogs, images, hget, hweblog, himage, -⟩
        exact ⟨weblogs, images, hget, hweblog, himage⟩
  | k8s scenario =>
      simp only [mem_jobWrites_k8s, MatrixData.AsksJob]
      rw [← Dict.get?_isSome_iff, Option.isSome_iff_exists]
      constructor
      · rintro ⟨weblogs, hget⟩
        exact ⟨_, weblogs, hget, rfl⟩
      · rintro ⟨_, weblogs, hget, -⟩
        exact ⟨weblogs, hget⟩

end Writes

section Names

variable {ctx : Context} {matrices : MatrixData}

/-- Different tasks have jobs of different names. -/
def NamesApart (ctx : Context) (matrices : MatrixData) : Prop :=
  ∀ t u, matrices.AsksJob t → matrices.AsksJob u → jobName ctx matrices t = jobName ctx matrices u →
    t = u

theorem cut_at_dot {s s' t u : Str} (hs : '.' ∉ s) (hs' : '.' ∉ s')
    (h : s ++ '.' :: t = s' ++ '.' :: u) : s = s' ∧ t = u :=
  append_cons_inj_of_not_mem hs hs' h

theorem dot_not_mem_shortArch {architecture : Str} (h : '.' ∉ architecture) :
    '.' ∉ shortArch architecture := by
  intro hmem
  rcases mem_of_mem_replace hmem with hnil | hmem
  · exact absurd hnil List.not_mem_nil
  · exact h hmem

theorem scenario_mem_aws {scenario vm : Str} (h : matrices.AsksJob (.aws scenario vm)) :
    scenario ∈ matrices.aws.keys := by
  obtain ⟨weblogs, hget, -⟩ := h
  exact (Dict.get?_isSome_iff _ _).mp (by rw [hget]; rfl)

theorem scenario_mem_docker {scenario weblog architecture : Str}
    (h : matrices.AsksJob (.docker scenario weblog architecture)) :
    scenario ∈ matrices.docker.keys := by
  obtain ⟨weblogs, images, hget, -⟩ := h
  exact (Dict.get?_isSome_iff _ _).mp (by rw [hget]; rfl)

theorem mem_k8s_of_name_eq {name scenario : Str} (h : matrices.AsksJob (.k8s scenario))
    (hname : name = jobName ctx matrices (.k8s scenario)) : name ∈ matrices.k8s.keys := by
  rw [hname]
  exact h

/-- Jobs of virtual machines and jobs of docker images share a name in one case only. -/
theorem awsJobName_eq_dockerJobName_iff {scenario vm scenario' weblog architecture : Str}
    (hdots : matrices.Dotless) (haws : matrices.AsksJob (.aws scenario vm))
    (hdocker : matrices.AsksJob (.docker scenario' weblog architecture)) :
    jobName ctx matrices (.aws scenario vm) =
        jobName ctx matrices (.docker scenario' weblog architecture) ↔
      vm = weblog ∧ awsLetters ctx matrices scenario =
        shortArch architecture ++ '.' :: dockerLetters ctx matrices scenario' := by
  constructor
  · exact cut_at_dot (hdots.1 _ _ haws) (hdots.2 _ _ _ hdocker).1
  · rintro ⟨rfl, hletters⟩
    simp only [jobName, awsJobName, dockerJobName, hletters]

/-- The parts of `Separable` that are about names, given that the prefixes are distinct. -/
theorem namesApart_iff (hdots : matrices.Dotless)
    (haws : PrefixesDistinct matrices.aws.keys
      (generateUniquePrefix ctx.letterCase matrices.aws.keys))
    (hdocker : PrefixesDistinct matrices.docker.keys
      (generateUniquePrefix ctx.letterCase matrices.docker.keys)) :
    NamesApart ctx matrices ↔
      (∀ scenario weblog a b, matrices.AsksJob (.docker scenario weblog a) →
        matrices.AsksJob (.docker scenario weblog b) → shortArch a = shortArch b → a = b) ∧
      (∀ scenario scenario' vm architecture, matrices.AsksJob (.aws scenario vm) →
        matrices.AsksJob (.docker scenario' vm architecture) →
        awsLetters ctx matrices scenario ≠
          shortArch architecture ++ '.' :: dockerLetters ctx matrices scenario') ∧
      (∀ scenario vm, matrices.AsksJob (.aws scenario vm) →
        awsJobName vm (awsLetters ctx matrices scenario) ∉ matrices.k8s.keys) ∧
      ∀ scenario weblog architecture, matrices.AsksJob (.docker scenario weblog architecture) →
        dockerJobName weblog architecture (dockerLetters ctx matrices scenario) ∉
          matrices.k8s.keys := by
  constructor
  · intro h
    refine ⟨?_, ?_, ?_, ?_⟩
    · intro scenario weblog a b ha hb hshort
      have heq := h _ _ ha hb (by simp only [jobName, dockerJobName, hshort])
      exact (JobTask.docker.inj heq).2.2
    · intro scenario scenario' vm architecture ha hd hletters
      have heq := h _ _ ha hd ((awsJobName_eq_dockerJobName_iff hdots ha hd).mpr ⟨rfl, hletters⟩)
      cases heq
    · intro scenario vm ha hk
      have heq := h (.aws scenario vm) (.k8s _) ha hk rfl
      cases heq
    · intro scenario weblog architecture hd hk
      have heq := h (.docker scenario weblog architecture) (.k8s _) hd hk rfl
      cases heq
  · rintro ⟨harch, hboth, hk8sAws, hk8sDocker⟩ t u ht hu hname
    cases t with
    | aws scenario vm =>
        cases u with
        | aws scenario' vm' =>
            obtain ⟨rfl, hletters⟩ := cut_at_dot (hdots.1 _ _ ht) (hdots.1 _ _ hu) hname
            rw [scenarioLetters_inj matrices.aws.nodup haws (scenario_mem_aws ht)
              (scenario_mem_aws hu) hletters]
        | docker scenario' weblog architecture =>
            obtain ⟨rfl, hletters⟩ := (awsJobName_eq_dockerJobName_iff hdots ht hu).mp hname
            exact absurd hletters (hboth _ _ _ _ ht hu)
        | k8s scenario' => exact absurd (mem_k8s_of_name_eq hu hname) (hk8sAws _ _ ht)
    | docker scenario weblog architecture =>
        cases u with
        | aws scenario' vm =>
            obtain ⟨rfl, hletters⟩ := (awsJobName_eq_dockerJobName_iff hdots hu ht).mp hname.symm
            exact absurd hletters (hboth _ _ _ _ hu ht)
        | docker scenario' weblog' architecture' =>
            obtain ⟨hweblog, ha⟩ := hdots.2 _ _ _ ht
            obtain ⟨hweblog', ha'⟩ := hdots.2 _ _ _ hu
            obtain ⟨rfl, hrest⟩ := cut_at_dot hweblog hweblog' hname
            obtain ⟨hshort, hletters⟩ :=
              cut_at_dot (dot_not_mem_shortArch ha) (dot_not_mem_shortArch ha') hrest
            have hscenario : scenario = scenario' :=
              scenarioLetters_inj matrices.docker.nodup hdocker (scenario_mem_docker ht)
                (scenario_mem_docker hu) hletters
            subst hscenario
            rw [harch _ _ _ _ ht hu hshort]
        | k8s scenario' => exact absurd (mem_k8s_of_name_eq hu hname) (hk8sDocker _ _ _ ht)
    | k8s scenario =>
        cases u with
        | aws scenario' vm => exact absurd (mem_k8s_of_name_eq ht hname.symm) (hk8sAws _ _ hu)
        | docker scenario' weblog architecture => exact absurd (mem_k8s_of_name_eq ht hname.symm) (hk8sDocker _ _ _ hu)
        | k8s scenario' => exact congrArg JobTask.k8s hname

end Names

section Runs

/-- A property holds at one place of a list. -/
theorem existsUnique_getElem?_iff {α : Type} {l : List α} {P : α → Prop} :
    (∃! i : Nat, ∃ a, l[i]? = some a ∧ P a) ↔
      (∃ a ∈ l, P a) ∧ l.Pairwise fun a b => ¬ (P a ∧ P b) := by
  rw [List.pairwise_iff_getElem]
  constructor
  · rintro ⟨i, ⟨a, hget, ha⟩, hunique⟩
    refine ⟨⟨a, List.mem_of_getElem? hget, ha⟩, ?_⟩
    rintro j k hj hk hjk ⟨hPj, hPk⟩
    have hji : j = i := hunique j ⟨_, List.getElem?_eq_getElem hj, hPj⟩
    have hki : k = i := hunique k ⟨_, List.getElem?_eq_getElem hk, hPk⟩
    omega
  · rintro ⟨⟨a, hmem, ha⟩, hpairwise⟩
    obtain ⟨i, hi, rfl⟩ := List.mem_iff_getElem.mp hmem
    refine ⟨i, ⟨_, List.getElem?_eq_getElem hi, ha⟩, ?_⟩
    rintro j ⟨b, hget, hb⟩
    obtain ⟨hj, rfl⟩ := List.getElem?_eq_some_iff.mp hget
    rcases Nat.lt_trichotomy i j with hlt | rfl | hlt
    · exact absurd ⟨ha, hb⟩ (hpairwise i j hi hj hlt)
    · rfl
    · exact absurd ⟨hb, ha⟩ (hpairwise j i hj hi hlt)

variable {ctx : Context} {matrices : MatrixData}

/-- The job that a test run belongs to. -/
def TestRun.task : TestRun → JobTask
  | .aws scenario vm _ => .aws scenario vm
  | .docker scenario weblog _ architecture _ => .docker scenario weblog architecture

theorem asksJob_task {run : TestRun} (h : matrices.AsksRun run) : matrices.AsksJob run.task := by
  cases run with
  | aws scenario vm weblog =>
      obtain ⟨weblogs, vms, hget, hweblog, hvm⟩ := h
      exact ⟨weblogs, hget, weblog, vms, hweblog, hvm⟩
  | docker scenario weblog image architecture runtime =>
      obtain ⟨weblogs, images, hget, hweblog, i, hi, -, harch, -⟩ := h
      exact ⟨weblogs, images, hget, hweblog, i, hi, harch⟩

/-- The matrices determine the job of a task. -/
theorem jobWrites_unique {task : JobTask} {job job' : Job}
    (h : (task, job) ∈ jobWrites ctx matrices) (h' : (task, job') ∈ jobWrites ctx matrices) :
    job = job' := by
  cases task with
  | aws scenario vm =>
      obtain ⟨weblogs, hget, -, rfl⟩ := mem_jobWrites_aws.mp h
      obtain ⟨weblogs', hget', -, rfl⟩ := mem_jobWrites_aws.mp h'
      rw [Option.some.inj (hget.symm.trans hget')]
  | docker scenario weblog architecture =>
      obtain ⟨weblogs, images, hget, hweblog, -, rfl⟩ := mem_jobWrites_docker.mp h
      obtain ⟨weblogs', images', hget', hweblog', -, rfl⟩ := mem_jobWrites_docker.mp h'
      obtain rfl := Option.some.inj (hget.symm.trans hget')
      rw [Option.some.inj (hweblog.symm.trans hweblog')]
  | k8s scenario =>
      obtain ⟨weblogs, hget, rfl⟩ := mem_jobWrites_k8s.mp h
      obtain ⟨weblogs', hget', rfl⟩ := mem_jobWrites_k8s.mp h'
      rw [Option.some.inj (hget.symm.trans hget')]

/-- What runs a test is the job of its task. -/
theorem task_of_runs {task : JobTask} {job : Job} {entry : MatrixEntry} {run : TestRun}
    (hmem : (task, job) ∈ jobWrites ctx matrices) (hentry : entry ∈ job.matrix)
    (hruns : job.Runs entry run) : task = run.task := by
  have hexecutes := executes_of_mem_jobWrites hmem
  cases run with
  | aws scenario vm weblog => exact hexecutes.unique hruns.1
  | docker scenario weblog image architecture runtime =>
      obtain ⟨hparent, hstage, hscenario, hweblog, -, harch, -⟩ := hruns
      refine hexecutes.unique ?_
      cases task with
      | aws => exact absurd (hexecutes.1.symm.trans hparent) (by decide)
      | k8s => exact absurd (hexecutes.1.symm.trans hparent) (by decide)
      | docker s w a =>
          have ha : a = architecture :=
            MatrixValue.one.inj (Option.some.inj ((hexecutes.2.2.2.2.2 entry hentry).symm.trans harch))
          exact ⟨hparent, hstage, hscenario, hweblog, hexecutes.2.2.2.2.1,
            fun e he => ha ▸ hexecutes.2.2.2.2.2 e he⟩

theorem stored_of_namesApart (hnames : NamesApart ctx matrices) {task : JobTask} {job : Job}
    (hmem : (task, job) ∈ jobWrites ctx matrices) :
    (Naming.stored (jobName ctx matrices) (jobWrites ctx matrices)).get?
      (jobName ctx matrices task) = some job := by
  obtain ⟨task', job', hget, hmem', hname⟩ := Naming.exists_stored (jobName ctx matrices) hmem
  have htask := hnames task' task (asksJob_iff.mpr ⟨job', hmem'⟩) (asksJob_iff.mpr ⟨job, hmem⟩) hname
  subst htask
  rw [hget, jobWrites_unique hmem' hmem]

/-- When no job is lost, the test runs are those of the matrix of each job. -/
theorem runs_place_iff {pipeline : Dict Str Entry} (hnames : NamesApart ctx matrices)
    (hpipeline : HasJobs pipeline (Naming.stored (jobName ctx matrices) (jobWrites ctx matrices)))
    (run : TestRun) {job : Job} (hmem : (run.task, job) ∈ jobWrites ctx matrices) :
    (∃! place : Str × Nat, ∃ job entry, pipeline.get? place.1 = some (.job job) ∧
        job.matrix[place.2]? = some entry ∧ job.Runs entry run) ↔
      ∃! i : Nat, ∃ entry, job.matrix[i]? = some entry ∧ job.Runs entry run := by
  have hplace : ∀ place : Str × Nat,
      (∃ job entry, pipeline.get? place.1 = some (.job job) ∧
        job.matrix[place.2]? = some entry ∧ job.Runs entry run) ↔
      place.1 = jobName ctx matrices run.task ∧
        ∃ entry, job.matrix[place.2]? = some entry ∧ job.Runs entry run := by
    rintro ⟨name, i⟩
    constructor
    · rintro ⟨job', entry, hget, hentry, hruns⟩
      obtain ⟨task, hmem', rfl⟩ := Naming.exists_of_stored ((hpipeline _ _).mp hget)
      have htask := task_of_runs hmem' (List.mem_of_getElem? hentry) hruns
      subst htask
      rw [jobWrites_unique hmem hmem']
      exact ⟨rfl, entry, hentry, hruns⟩
    · rintro ⟨rfl, entry, hentry, hruns⟩
      exact ⟨job, entry, (hpipeline _ _).mpr (stored_of_namesApart hnames hmem), hentry, hruns⟩
  constructor
  · rintro ⟨place, hexists, hunique⟩
    refine ⟨place.2, ((hplace place).mp hexists).2, fun i hi => ?_⟩
    exact congrArg Prod.snd (hunique (jobName ctx matrices run.task, i) ((hplace _).mpr ⟨rfl, hi⟩))
  · rintro ⟨i, hexists, hunique⟩
    refine ⟨(jobName ctx matrices run.task, i), (hplace _).mpr ⟨rfl, hexists⟩, ?_⟩
    rintro ⟨name, j⟩ hj
    obtain ⟨hname, hentry⟩ := (hplace _).mp hj
    exact Prod.ext hname (hunique j hentry)

theorem awsJob_runs_iff {scenario vm weblog weblog' : Str} {weblogs : Dict Str (List Str)} :
    (awsJob ctx scenario weblogs vm).Runs (Dict.empty.set "WEBLOG" (.one weblog'))
      (.aws scenario vm weblog) ↔ weblog' = weblog := by
  simp [Job.Runs, awsJob_executes]

/-- The jobs of virtual machines run each weblog once. -/
theorem awsJob_runs_once {scenario vm weblog : Str} {weblogs : Dict Str (List Str)}
    {vms : List Str} (hweblog : weblogs.get? weblog = some vms) (hvm : vm ∈ vms) :
    ∃! i : Nat, ∃ entry, (awsJob ctx scenario weblogs vm).matrix[i]? = some entry ∧
      (awsJob ctx scenario weblogs vm).Runs entry (.aws scenario vm weblog) := by
  refine existsUnique_getElem?_iff.mpr ⟨⟨Dict.empty.set "WEBLOG" (.one weblog), ?_,
    awsJob_runs_iff.mpr rfl⟩, ?_⟩
  · exact List.mem_map.mpr ⟨(weblog, vms),
      List.mem_filter.mpr ⟨(Dict.mem_items_iff _ _ _).mpr hweblog, decide_eq_true hvm⟩, rfl⟩
  · have hkeys : weblogs.items.Pairwise fun p q => p.1 ≠ q.1 := List.pairwise_map.mp weblogs.nodup
    refine List.pairwise_map.mpr ((hkeys.filter _).imp ?_)
    rintro p q hne ⟨hp, hq⟩
    exact hne ((awsJob_runs_iff.mp hp).trans (awsJob_runs_iff.mp hq).symm)

def dockerEntry (image : DockerImage) : MatrixEntry :=
  Dict.empty.setAll
    [("IMAGE", .one image.image), ("ARCH", .one image.arch), ("RUNTIME", .many image.runtimes)]

theorem dockerJob_runs_iff {scenario weblog image architecture architecture' runtime : Str}
    {images : List DockerImage} {i : DockerImage} :
    (dockerJob ctx scenario weblog images architecture').Runs (dockerEntry i)
        (.docker scenario weblog image architecture runtime) ↔
      i.image = image ∧ i.arch = architecture ∧ runtime ∈ i.runtimes := by
  have hscenario : (dockerJob ctx scenario weblog images architecture').jobVariables.get?
      "SCENARIO" = some scenario := by
    rw [get?_dockerJob (by decide) (by decide)]
    simp [textDict, Dict.get?_set]
  have hweblog : (dockerJob ctx scenario weblog images architecture').jobVariables.get?
      "WEBLOG" = some weblog := by
    rw [get?_dockerJob (by decide) (by decide)]
    simp [textDict]
  have hentry : (dockerEntry i).get? "IMAGE" = some (.one i.image) ∧
      (dockerEntry i).get? "ARCH" = some (.one i.arch) ∧
      (dockerEntry i).get? "RUNTIME" = some (.many i.runtimes) := by
    simp [dockerEntry, Dict.get?_set]
  simp only [Job.Runs, hscenario, hweblog, hentry.1, hentry.2.1, hentry.2.2, Option.some.injEq,
    MatrixValue.one.injEq, MatrixValue.many.injEq, exists_eq_left', true_and]
  constructor
  · exact fun h => h.2.2
  · exact fun h => ⟨rfl, rfl, h⟩

/-- A docker job runs once what is listed once. -/
theorem dockerJob_runs_once_iff {scenario weblog image architecture runtime : Str}
    {images : List DockerImage} :
    (∃! i : Nat, ∃ entry, (dockerJob ctx scenario weblog images architecture).matrix[i]? = some entry ∧
        (dockerJob ctx scenario weblog images architecture).Runs entry
          (.docker scenario weblog image architecture runtime)) ↔
      (∃ i ∈ images, i.image = image ∧ i.arch = architecture ∧ runtime ∈ i.runtimes) ∧
        images.Pairwise fun i j =>
          ¬ ((i.image = image ∧ i.arch = architecture ∧ runtime ∈ i.runtimes) ∧
            (j.image = image ∧ j.arch = architecture ∧ runtime ∈ j.runtimes)) := by
  have hmatrix : (dockerJob ctx scenario weblog images architecture).matrix =
      (images.filter fun i => decide (i.arch = architecture)).map dockerEntry := rfl
  rw [existsUnique_getElem?_iff, hmatrix, List.pairwise_map]
  simp only [dockerJob_runs_iff, List.mem_map, exists_exists_and_eq_and, List.mem_filter,
    decide_eq_true_eq]
  constructor
  · rintro ⟨⟨i, ⟨hi, -⟩, hruns⟩, hpairwise⟩
    refine ⟨⟨i, hi, hruns⟩, List.pairwise_iff_forall_sublist.mpr ?_⟩
    rintro a b hab ⟨ha, hb⟩
    have hsub := hab.filter fun i => decide (i.arch = architecture)
    simp only [List.filter_cons, List.filter_nil, ha.2.1, hb.2.1, decide_true, if_true] at hsub
    exact List.pairwise_iff_forall_sublist.mp hpairwise hsub ⟨ha, hb⟩
  · rintro ⟨⟨i, hi, hruns⟩, hpairwise⟩
    exact ⟨⟨i, ⟨hi, hruns.2.1⟩, hruns⟩, hpairwise.filter _⟩

/-- When no job is lost, every test is run once if the images are listed once. -/
theorem runs_iff {pipeline : Dict Str Entry} (hnames : NamesApart ctx matrices)
    (hpipeline : HasJobs pipeline (Naming.stored (jobName ctx matrices) (jobWrites ctx matrices))) :
    (∀ run, matrices.AsksRun run →
        ∃! place : Str × Nat, ∃ job entry, pipeline.get? place.1 = some (.job job) ∧
          job.matrix[place.2]? = some entry ∧ job.Runs entry run) ↔
      ∀ scenario weblog weblogs images, matrices.docker.get? scenario = some weblogs →
        weblogs.get? weblog = some images →
        images.Pairwise fun i j =>
          i.image = j.image → i.arch = j.arch → ∀ r ∈ i.runtimes, r ∉ j.runtimes := by
  have hdocker : ∀ {scenario weblog architecture : Str} {weblogs images},
      matrices.docker.get? scenario = some weblogs → weblogs.get? weblog = some images →
      (∃ i ∈ images, i.arch = architecture) →
      (JobTask.docker scenario weblog architecture,
        dockerJob ctx scenario weblog images architecture) ∈ jobWrites ctx matrices :=
    fun hget hweblog harch =>
      mem_jobWrites_docker.mpr ⟨_, _, hget, hweblog, mem_architectures.mpr harch, rfl⟩
  constructor
  · intro h scenario weblog weblogs images hget hweblog
    refine List.pairwise_iff_forall_sublist.mpr ?_
    intro i j hij himage harch r hri hrj
    have hi : i ∈ images := hij.subset List.mem_cons_self
    have hrun : matrices.AsksRun (.docker scenario weblog i.image i.arch r) :=
      ⟨weblogs, images, hget, hweblog, i, hi, rfl, rfl, hri⟩
    have hplace := (runs_place_iff hnames hpipeline
      (.docker scenario weblog i.image i.arch r)
      (hdocker hget hweblog ⟨i, hi, rfl⟩)).mp (h _ hrun)
    exact List.pairwise_iff_forall_sublist.mp (dockerJob_runs_once_iff.mp hplace).2 hij
      ⟨⟨rfl, rfl, hri⟩, himage.symm, harch.symm, hrj⟩
  · intro h run hrun
    cases run with
    | aws scenario vm weblog =>
        obtain ⟨weblogs, vms, hget, hweblog, hvm⟩ := hrun
        have hmem : (JobTask.aws scenario vm, awsJob ctx scenario weblogs vm) ∈
            jobWrites ctx matrices :=
          mem_jobWrites_aws.mpr ⟨weblogs, hget, mem_vmSet.mpr ⟨weblog, vms, hweblog, hvm⟩, rfl⟩
        exact (runs_place_iff hnames hpipeline (.aws scenario vm weblog) hmem).mpr
          (awsJob_runs_once hweblog hvm)
    | docker scenario weblog image architecture runtime =>
        obtain ⟨weblogs, images, hget, hweblog, i, hi, himage, harch, hr⟩ := hrun
        refine (runs_place_iff hnames hpipeline
          (.docker scenario weblog image architecture runtime)
          (hdocker hget hweblog ⟨i, hi, harch⟩)).mpr (dockerJob_runs_once_iff.mpr ⟨?_, ?_⟩)
        · exact ⟨i, hi, himage, harch, hr⟩
        · refine (h scenario weblog weblogs images hget hweblog).imp ?_
          rintro a b hab ⟨⟨rfl, rfl, hra⟩, himage', harch', hrb⟩
          exact hab himage'.symm harch'.symm runtime hra hrb

end Runs

section Main

variable {ctx : Context} {matrices : MatrixData}

theorem jobs_iff {pipeline : Dict Str Entry}
    (hpipeline : HasJobs pipeline (Naming.stored (jobName ctx matrices) (jobWrites ctx matrices))) :
    (∀ task, matrices.AsksJob task →
        ∃! name, ∃ job, pipeline.get? name = some (.job job) ∧ job.Executes task) ↔
      NamesApart ctx matrices := by
  have hdoes : ∀ p ∈ jobWrites ctx matrices, ∀ q ∈ jobWrites ctx matrices,
      p.2.Executes q.1 ↔ p.1 = q.1 := by
    intro p hp q hq
    have hexecutes : p.2.Executes p.1 := executes_of_mem_jobWrites hp
    exact ⟨hexecutes.unique, fun h => h ▸ hexecutes⟩
  have hstored := Naming.existsUnique_stored_iff (jobName ctx matrices) hdoes
  constructor
  · intro h t u ht hu hname
    obtain ⟨job, hmem⟩ := asksJob_iff.mp ht
    obtain ⟨job', hmem'⟩ := asksJob_iff.mp hu
    refine hstored.mp (fun p hp => ?_) (t, job) hmem (u, job') hmem' hname
    simpa only [hpipeline _ _] using h p.1 (asksJob_iff.mpr ⟨p.2, hp⟩)
  · intro h task htask
    obtain ⟨job, hmem⟩ := asksJob_iff.mp htask
    have hunique := hstored.mpr (fun p hp q hq =>
      h p.1 q.1 (asksJob_iff.mpr ⟨p.2, hp⟩) (asksJob_iff.mpr ⟨q.2, hq⟩)) (task, job) hmem
    simpa only [hpipeline _ _] using hunique

/-- The pipeline is generated, and it loses no job exactly when the matrices keep the jobs apart. -/
theorem buildSsiGitlabPipeline_iff (ctx : Context) (matrices : MatrixData)
    (hdots : matrices.Dotless) (hknown : K8sKnown ctx matrices) :
    ∃ pipeline, buildSsiGitlabPipeline ctx matrices = .ok pipeline ∧
      (LosesNoJob ctx matrices pipeline ↔ Separable ctx matrices) := by
  obtain ⟨pipeline, hok, hpipeline⟩ := buildSsiGitlabPipeline_jobs ctx matrices hknown
  have haws := prefixesDistinct_iff ctx.letterCase matrices.aws.nodup
  have hdocker := prefixesDistinct_iff ctx.letterCase matrices.docker.nodup
  refine ⟨pipeline, hok, ⟨fun h => ?_, fun h => ?_⟩⟩
  · have hnames := (jobs_iff hpipeline).mp h.jobs
    obtain ⟨harch, hboth, hk8sAws, hk8sDocker⟩ :=
      (namesApart_iff hdots h.awsPrefixes h.dockerPrefixes).mp hnames
    exact ⟨haws.mp h.awsPrefixes, hdocker.mp h.dockerPrefixes, harch, hboth, hk8sAws, hk8sDocker,
      (runs_iff hnames hpipeline).mp h.runs⟩
  · have hnames : NamesApart ctx matrices :=
      (namesApart_iff hdots (haws.mpr h.aws) (hdocker.mpr h.docker)).mpr
        ⟨h.architectures, h.awsDocker, h.k8sAws, h.k8sDocker⟩
    exact ⟨haws.mpr h.aws, hdocker.mpr h.docker, (jobs_iff hpipeline).mpr hnames,
      (runs_iff hnames hpipeline).mpr h.listedOnce⟩

end Main

section Example

def exampleContext : Context where
  language := "java"
  ciEnvironment := "dev"
  getenv _ := none
  letterCase := .ascii
  setOrder := .dedup
  virtualMachines := []
  scenarios := [⟨"K8S_LIB_INJECTION", false, false⟩]
  components :=
    { plain := Dict.empty
      libInit := Dict.empty.set "java" (Dict.empty.set "prod" "dd-lib-java-init:latest") }
  pipelineData :=
    { includes := .null, jobVariables := .null, ssiTests := .null
      onboarding := ⟨[], Dict.empty, .null⟩
      dockerSsi := ⟨[], Dict.empty, .null⟩
      k8s := ⟨[], Dict.empty, .null⟩ }

def exampleWeblogs : Dict Str (List DockerImage) :=
  Dict.empty.set "java-app" [⟨"ubuntu:22.04", ["17"], "linux/amd64"⟩]

/-- One application, in two docker scenarios, and another one on k8s. -/
def twoScenarios : MatrixData where
  aws := Dict.empty
  docker := Dict.empty.setAll [("DOCKER_SSI", exampleWeblogs), ("DOCKER_SSI_APPSEC", exampleWeblogs)]
  k8s := Dict.empty.set "K8S_LIB_INJECTION" ["dd-lib-java-init-test-app"]

theorem twoScenarios_images {scenario weblog : Str} {weblogs : Dict Str (List DockerImage)}
    {images : List DockerImage} (hget : twoScenarios.docker.get? scenario = some weblogs)
    (hweblog : weblogs.get? weblog = some images) :
    weblog = "java-app".toList ∧ images = [⟨"ubuntu:22.04", ["17"], "linux/amd64"⟩] := by
  have hweblogs : weblogs = exampleWeblogs := by
    rcases Dict.get?_setAll_cases hget with hmem | hempty
    · simp at hmem
      tauto
    · rw [Dict.get?_empty] at hempty
      cases hempty
  rw [hweblogs, exampleWeblogs, Dict.get?_set] at hweblog
  split at hweblog
  · rename_i hname
    exact ⟨hname, (Option.some.inj hweblog).symm⟩
  · cases hweblog

theorem twoScenarios_docker {scenario weblog architecture : Str}
    (h : twoScenarios.AsksJob (.docker scenario weblog architecture)) :
    weblog = "java-app".toList ∧ architecture = "linux/amd64".toList := by
  obtain ⟨weblogs, images, hget, hweblog, image, himage, rfl⟩ := h
  obtain ⟨hname, rfl⟩ := twoScenarios_images hget hweblog
  exact ⟨hname, by rw [List.mem_singleton.mp himage]⟩

theorem twoScenarios_losesNoJob :
    ∃ pipeline, buildSsiGitlabPipeline exampleContext twoScenarios = .ok pipeline ∧
      LosesNoJob exampleContext twoScenarios pipeline := by
  have hdots : twoScenarios.Dotless := by
    refine ⟨fun scenario vm h => ?_, fun scenario weblog architecture h => ?_⟩
    · obtain ⟨weblogs, hget, -⟩ := h
      cases hget
    · obtain ⟨rfl, rfl⟩ := twoScenarios_docker h
      decide
  have hknown : K8sKnown exampleContext twoScenarios := by
    intro scenario h
    rw [List.mem_singleton.mp h]
    exact ⟨_, rfl⟩
  obtain ⟨pipeline, hok, hiff⟩ :=
    buildSsiGitlabPipeline_iff exampleContext twoScenarios hdots hknown
  refine ⟨pipeline, hok, hiff.mpr ⟨?_, ?_, ?_, ?_, ?_, ?_, ?_⟩⟩
  · exact (prefixesDistinct_iff _ twoScenarios.aws.nodup).mp fun s hs => absurd hs List.not_mem_nil
  · refine (prefixesDistinct_iff _ twoScenarios.docker.nodup).mp ?_
    rw [PrefixesDistinct]
    decide +kernel
  · intro scenario weblog a b ha hb _
    rw [(twoScenarios_docker ha).2, (twoScenarios_docker hb).2]
  · rintro scenario scenario' vm architecture ⟨weblogs, hget, -⟩
    cases hget
  · rintro scenario vm ⟨weblogs, hget, -⟩
    cases hget
  · intro scenario weblog architecture _ hmem
    have hdot : ∀ name ∈ twoScenarios.k8s.keys, '.' ∉ name := by decide
    exact hdot _ hmem (by simp [dockerJobName])
  · intro scenario weblog weblogs images hget hweblog
    rw [(twoScenarios_images hget hweblog).2]
    exact List.pairwise_singleton _ _

/-- One application, in three docker scenarios. -/
def threeScenarios : MatrixData where
  aws := Dict.empty
  docker := Dict.empty.setAll
    [("DOCKER_SSI", exampleWeblogs), ("DOCKER_SSI_APPSEC", exampleWeblogs),
      ("DOCKER_SSI_UNSUPPORTED", exampleWeblogs)]
  k8s := Dict.empty

/-- The digests of two of the names begin with `a9`. -/
theorem threeScenarios_losesJob :
    ∃ pipeline, buildSsiGitlabPipeline exampleContext threeScenarios = .ok pipeline ∧
      ¬ LosesNoJob exampleContext threeScenarios pipeline := by
  obtain ⟨pipeline, hok, -⟩ := buildSsiGitlabPipeline_jobs exampleContext threeScenarios
    (fun scenario h => absurd h List.not_mem_nil)
  refine ⟨pipeline, hok, fun h => ?_⟩
  have heq := h.dockerPrefixes "DOCKER_SSI_APPSEC".toList (by decide)
    "DOCKER_SSI_UNSUPPORTED".toList (by decide) (by decide +kernel)
  exact absurd heq (by decide)

end Example

end SsiPipeline
end SystemTests
