import SystemTests.Gitlab.JobNames

/-!
# What a generated GitLab pipeline holds (`utils/ci/gitlab/build_pipeline.py`)

The parameters of a library ask for tasks: weblogs to build, scenarios to run on
weblogs, and groups of parametric tests.  The chunk of the library has one job
for each of them, and no other.

**Results.**
* `libraryJobs_spec`: the jobs of one library.
* `chunkPipeline_spec`: the jobs of a chunk, and what they need.
* `existsUnique_chunk`: a library is in one chunk.
* `mergeParams_spec`: the tasks of merged parameters.
* `build_complete`: all of this for the files that are written.
-/

namespace SystemTests
namespace Gitlab

open Foundation Foundation.Text

namespace Params

def buildTasks (library : Str) (params : Params) : List Task :=
  params.prebuiltWeblogs.map fun weblog => .build library weblog

def runTasks (library : Str) (params : Params) : List Task :=
  params.parallelJobs.flatMap fun jobDef =>
    (jobDef.scenarios.getD []).map fun scenario => .run library jobDef.weblog scenario

def parametricTasks (library : Str) (params : Params) : List Task :=
  if params.parametric.enable then
    params.parametric.jobMatrix.map fun group => .parametric library group
  else []

def tasks (library : Str) (params : Params) : List Task :=
  params.buildTasks library ++ params.runTasks library ++ params.parametricTasks library

end Params

section Library

variable (inputs : Inputs) (library : Str) (params : Params)

/-- What is written into the jobs of a library, in order. -/
def assignments : List (Str × Job) :=
  (params.prebuiltWeblogs.map fun weblog =>
    (buildJobName library weblog, buildJob inputs library params weblog)) ++
  (params.parallelJobs.flatMap fun jobDef => (jobDef.scenarios.getD []).map fun scenario =>
    (runJobName library scenario jobDef.weblog, runJob inputs library params jobDef scenario)) ++
  if params.parametric.enable then
    params.parametric.jobMatrix.map fun group =>
      (parametricJobName library group, parametricJob inputs library params group)
  else []

theorem libraryJobs_eq :
    libraryJobs inputs library params = Dict.empty.setAll (assignments inputs library params) := by
  rw [libraryJobs, assignments, Dict.setAll_append, Dict.setAll_append]
  simp only [Dict.setAll, List.foldl_map, List.foldl_flatMap]
  cases params.parametric.enable
  · rfl
  · simp [List.foldl_map]

variable {inputs library params}

section Variables

theorem get?_copyBinaries {key : Str} (h : key ≠ "SYSTEM_TESTS_BINARIES_ARTIFACT_PATH".toList) :
    (copyBinaries inputs params).get? key = none := by
  rw [copyBinaries]
  split
  · exact Dict.get?_set_ne Dict.empty _ h
  · rfl

theorem get?_update_copyBinaries (d : Dict Str Str) {key : Str}
    (h : key ≠ "SYSTEM_TESTS_BINARIES_ARTIFACT_PATH".toList) :
    (d.update (copyBinaries inputs params)).get? key = d.get? key := by
  rw [Dict.get?_update, get?_copyBinaries h, Option.none_or]

/-- The variables of a run job, before the binaries. -/
def runVariables (library : Str) (jobDef : JobDef) (scenario : Str) : Dict Str Str :=
  (weblogVariables library jobDef.weblog).update (textDict
    [("SYSTEM_TESTS_SCENARIO", scenario),
      ("SYSTEM_TESTS_WEBLOG_BUILD_REQUIRED", boolText (jobDef.weblogBuildRequired.getD true))])

theorem get?_runVariables (library : Str) (jobDef : JobDef) (scenario : Str) :
    (runVariables library jobDef scenario).get? "TEST_LIBRARY" = some library ∧
      (runVariables library jobDef scenario).get? "SYSTEM_TESTS_WEBLOG" = some jobDef.weblog ∧
      (runVariables library jobDef scenario).get? "SYSTEM_TESTS_SCENARIO" = some scenario := by
  simp only [runVariables, Dict.get?_update]
  simp [weblogVariables, textDict, Dict.get?_set]

end Variables

section Executes

theorem buildJob_executes (weblog : Str) :
    (buildJob inputs library params weblog).Executes (.build library weblog) := by
  refine ⟨rfl, ?_, ?_⟩
  · rw [buildJob, mkJob, get?_update_copyBinaries _ (by decide)]
    simp [weblogVariables, textDict, Dict.get?_set]
  · rw [buildJob, mkJob, get?_update_copyBinaries _ (by decide)]
    simp [weblogVariables, textDict]

theorem runJob_executes (jobDef : JobDef) (scenario : Str) :
    (runJob inputs library params jobDef scenario).Executes
      (.run library jobDef.weblog scenario) := by
  obtain ⟨hlibrary, hweblog, hscenario⟩ := get?_runVariables library jobDef scenario
  rw [runJob, ← runVariables]
  by_cases h : jobDef.weblog ∈ params.prebuiltWeblogs
  · simp only [if_pos h]
    exact ⟨rfl, hlibrary, hweblog, hscenario⟩
  · simp only [if_neg h]
    refine ⟨rfl, ?_, ?_, ?_⟩
    · rw [mkJob, get?_update_copyBinaries _ (by decide), hlibrary]
    · rw [mkJob, get?_update_copyBinaries _ (by decide), hweblog]
    · rw [mkJob, get?_update_copyBinaries _ (by decide), hscenario]

theorem parametricJob_executes (group : Int) :
    (parametricJob inputs library params group).Executes (.parametric library group) := by
  refine ⟨rfl, ?_, ?_⟩
  · rw [parametricJob, mkJob, get?_update_copyBinaries _ (by decide)]
    simp [textDict, Dict.get?_set]
  · rw [parametricJob, mkJob, get?_update_copyBinaries _ (by decide)]
    simp [textDict, Dict.get?_set]

end Executes

section Needs

/-- A job of another pipeline is named as such. -/
theorem pipeline_of_mem_upstreamNeeds {need : Need} (h : need ∈ upstreamNeeds inputs params) :
    need.pipeline ≠ none := by
  obtain ⟨job, -, rfl⟩ := List.mem_map.mp h
  exact Option.some_ne_none _

theorem getD_needs_mkJob (parents : Extends) (jobVariables : Dict Str Str) (needs : List Need)
    (tags : Option (List Str)) : (mkJob parents jobVariables needs tags).needs.getD [] = needs := by
  by_cases h : needs = [] <;> simp [mkJob, h]

/-- All that a job needs of its own pipeline is the build of a weblog. -/
theorem need_of_assignment {name : Str} {job : Job} {need : Need}
    (hjob : (name, job) ∈ assignments inputs library params) (hneed : need ∈ job.needs.getD [])
    (hpipeline : need.pipeline = none) :
    ∃ weblog ∈ params.prebuiltWeblogs, need.job = buildJobName library weblog := by
  have hupstream : need ∉ upstreamNeeds inputs params :=
    fun h => pipeline_of_mem_upstreamNeeds h hpipeline
  rw [assignments, List.mem_append, List.mem_append] at hjob
  rcases hjob with (hjob | hjob) | hjob
  · obtain ⟨weblog, -, heq⟩ := List.mem_map.mp hjob
    rw [← (Prod.mk.inj heq).2, buildJob, getD_needs_mkJob] at hneed
    exact absurd hneed hupstream
  · obtain ⟨jobDef, -, hjob⟩ := List.mem_flatMap.mp hjob
    obtain ⟨scenario, -, heq⟩ := List.mem_map.mp hjob
    rw [← (Prod.mk.inj heq).2, runJob] at hneed
    by_cases h : jobDef.weblog ∈ params.prebuiltWeblogs
    · simp only [if_pos h, getD_needs_mkJob, List.mem_singleton] at hneed
      exact ⟨jobDef.weblog, h, by rw [hneed]⟩
    · simp only [if_neg h, getD_needs_mkJob] at hneed
      exact absurd hneed hupstream
  · split at hjob
    · obtain ⟨group, -, heq⟩ := List.mem_map.mp hjob
      rw [← (Prod.mk.inj heq).2, parametricJob, getD_needs_mkJob] at hneed
      exact absurd hneed hupstream
    · exact absurd hjob List.not_mem_nil

end Needs

section LibraryJobs

theorem task_of_assignment {name : Str} {job : Job}
    (hjob : (name, job) ∈ assignments inputs library params) :
    ∃ t ∈ params.tasks library, name = t.jobName ∧ job.Executes t := by
  rw [assignments, List.mem_append, List.mem_append] at hjob
  simp only [Params.tasks, List.mem_append]
  rcases hjob with (hjob | hjob) | hjob
  · obtain ⟨weblog, hweblog, heq⟩ := List.mem_map.mp hjob
    obtain ⟨rfl, rfl⟩ := Prod.mk.inj heq
    exact ⟨.build library weblog, Or.inl (Or.inl (List.mem_map_of_mem hweblog)), rfl,
      buildJob_executes weblog⟩
  · obtain ⟨jobDef, hjobDef, hjob⟩ := List.mem_flatMap.mp hjob
    obtain ⟨scenario, hscenario, heq⟩ := List.mem_map.mp hjob
    obtain ⟨rfl, rfl⟩ := Prod.mk.inj heq
    refine ⟨.run library jobDef.weblog scenario, Or.inl (Or.inr ?_), rfl,
      runJob_executes jobDef scenario⟩
    exact List.mem_flatMap.mpr ⟨jobDef, hjobDef, List.mem_map.mpr ⟨scenario, hscenario, rfl⟩⟩
  · split at hjob
    · rename_i henable
      obtain ⟨group, hgroup, heq⟩ := List.mem_map.mp hjob
      obtain ⟨rfl, rfl⟩ := Prod.mk.inj heq
      refine ⟨.parametric library group, Or.inr ?_, rfl, parametricJob_executes group⟩
      rw [Params.parametricTasks, if_pos henable]
      exact List.mem_map_of_mem hgroup
    · exact absurd hjob List.not_mem_nil

theorem jobName_mem_assignments {t : Task} (ht : t ∈ params.tasks library) :
    t.jobName ∈ (assignments inputs library params).map Prod.fst := by
  simp only [Params.tasks, List.mem_append] at ht
  simp only [assignments, List.map_append, List.mem_append]
  rcases ht with (ht | ht) | ht
  · obtain ⟨weblog, hweblog, rfl⟩ := List.mem_map.mp ht
    exact Or.inl (Or.inl (List.mem_map.mpr ⟨_, List.mem_map_of_mem hweblog, rfl⟩))
  · obtain ⟨jobDef, hjobDef, ht⟩ := List.mem_flatMap.mp ht
    obtain ⟨scenario, hscenario, rfl⟩ := List.mem_map.mp ht
    refine Or.inl (Or.inr (List.mem_map.mpr ⟨(runJobName library scenario jobDef.weblog,
      runJob inputs library params jobDef scenario), ?_, rfl⟩))
    exact List.mem_flatMap.mpr ⟨jobDef, hjobDef, List.mem_map_of_mem hscenario⟩
  · rw [Params.parametricTasks] at ht
    split at ht
    · rename_i henable
      obtain ⟨group, hgroup, rfl⟩ := List.mem_map.mp ht
      rw [if_pos henable]
      exact Or.inr (List.mem_map.mpr ⟨_, List.mem_map_of_mem hgroup, rfl⟩)
    · exact absurd ht List.not_mem_nil

/-- The jobs of a library are those of its tasks, and what they need of their own pipeline are
builds of the library. -/
theorem libraryJobs_spec :
    (∀ t ∈ params.tasks library,
      ∃ job, (libraryJobs inputs library params).get? t.jobName = some job) ∧
      ∀ name job, (libraryJobs inputs library params).get? name = some job →
        (∃ t ∈ params.tasks library, name = t.jobName ∧ job.Executes t) ∧
          ∀ need ∈ job.needs.getD [], need.pipeline = none →
            ∃ t ∈ params.tasks library, need.job = t.jobName := by
  rw [libraryJobs_eq]
  constructor
  · intro t ht
    obtain ⟨job, hjob, -⟩ := Dict.exists_get?_setAll Dict.empty (jobName_mem_assignments ht)
    exact ⟨job, hjob⟩
  · intro name job hjob
    have hassigned : (name, job) ∈ assignments inputs library params := by
      rcases Dict.get?_setAll_cases hjob with h | h
      · exact h
      · exact absurd h (by simp)
    refine ⟨task_of_assignment hassigned, fun need hneed hpipeline => ?_⟩
    obtain ⟨weblog, hweblog, hname⟩ := need_of_assignment hassigned hneed hpipeline
    refine ⟨.build library weblog, ?_, hname⟩
    simp only [Params.tasks, List.mem_append]
    exact Or.inl (Or.inl (List.mem_map_of_mem hweblog))

end LibraryJobs

end Library

section Chunk

variable {inputs : Inputs} {paramsFile : Str → Option Params}

/-- The tasks of the libraries of a chunk. -/
def chunkTasks (paramsFile : Str → Option Params) (libraries : List Str) : List Task :=
  libraries.flatMap fun library =>
    match paramsFile library with
    | some params => params.tasks library
    | none => []

theorem mem_chunkTasks {libraries : List Str} {t : Task} :
    t ∈ chunkTasks paramsFile libraries ↔
      ∃ library ∈ libraries, ∃ params, paramsFile library = some params ∧
        t ∈ params.tasks library := by
  rw [chunkTasks, List.mem_flatMap]
  constructor
  · rintro ⟨library, hlibrary, ht⟩
    cases h : paramsFile library with
    | none => simp [h] at ht
    | some params =>
        rw [h] at ht
        exact ⟨library, hlibrary, params, h, ht⟩
  · rintro ⟨library, hlibrary, params, h, ht⟩
    exact ⟨library, hlibrary, by rwa [h]⟩

/-- A job of a chunk is one of a library of the chunk, and every job of a library has an entry. -/
def FromLibraries (inputs : Inputs) (paramsFile : Str → Option Params) (libraries : List Str)
    (pipeline : Dict Str Entry) : Prop :=
  (∀ name job, pipeline.get? name = some (.job job) →
    ∃ library ∈ libraries, ∃ params, paramsFile library = some params ∧
      (libraryJobs inputs library params).get? name = some job) ∧
  ∀ library ∈ libraries, ∀ params, paramsFile library = some params →
    ∀ name job, (libraryJobs inputs library params).get? name = some job →
      ∃ job', pipeline.get? name = some (.job job')

theorem FromLibraries.concat {libraries : List Str} {pipeline : Dict Str Entry} {library : Str}
    {params : Params} (h : FromLibraries inputs paramsFile libraries pipeline)
    (hparams : paramsFile library = some params) :
    FromLibraries inputs paramsFile (libraries ++ [library])
      (pipeline.update ((libraryJobs inputs library params).mapValues fun _ job => .job job)) := by
  constructor
  · intro name job hjob
    rw [Dict.get?_update, Dict.get?_mapValues] at hjob
    cases hname : (libraryJobs inputs library params).get? name with
    | none =>
        rw [hname, Option.map_none, Option.none_or] at hjob
        obtain ⟨other, hother, rest⟩ := h.1 name job hjob
        exact ⟨other, List.mem_append_left _ hother, rest⟩
    | some own =>
        rw [hname, Option.map_some, Option.some_or, Option.some.injEq, Entry.job.injEq] at hjob
        exact ⟨library, List.mem_concat_self, params, hparams, hjob ▸ hname⟩
  · intro other hother params' hparams' name job hjob
    rw [Dict.get?_update, Dict.get?_mapValues]
    rcases List.mem_append.mp hother with hother | hother
    · cases hname : (libraryJobs inputs library params).get? name with
      | none => exact h.2 other hother params' hparams' name job hjob
      | some own => exact ⟨own, rfl⟩
    · rw [List.mem_singleton] at hother
      subst hother
      rw [hparams, Option.some.injEq] at hparams'
      subst hparams'
      exact ⟨job, by rw [hjob]; rfl⟩

theorem fromLibraries_header :
    FromLibraries inputs paramsFile [] (pipelineHeader inputs) := by
  refine ⟨fun name job hjob => ?_, fun library hlibrary => absurd hlibrary List.not_mem_nil⟩
  rw [pipelineHeader] at hjob
  rcases Dict.get?_setAll_cases hjob with h | h
  · simp at h
  · simp at h

theorem chunkPipeline_fromLibraries {libraries : List Str}
    (hparams : ∀ library ∈ libraries, (paramsFile library).isSome) :
    ∃ pipeline, chunkPipeline inputs paramsFile libraries = .ok pipeline ∧
      FromLibraries inputs paramsFile libraries pipeline := by
  induction libraries using List.reverseRecOn with
  | nil => exact ⟨pipelineHeader inputs, rfl, fromLibraries_header⟩
  | append_singleton libraries library ih =>
      rw [List.forall_mem_append] at hparams
      obtain ⟨pipeline, hpipeline, hfrom⟩ := ih hparams.1
      obtain ⟨params, h⟩ := Option.isSome_iff_exists.mp
        (hparams.2 library (List.mem_singleton_self library))
      refine ⟨_, ?_, hfrom.concat h⟩
      rw [chunkPipeline] at hpipeline ⊢
      rw [List.foldlM_append, hpipeline, Raised.ok_bind, List.foldlM_cons, h]
      rfl

/-- The build of another library's weblog has the same name. -/
def Ambiguous (tasks : List Task) (t : Task) : Prop :=
  ∃ library weblog library' weblog', t = .build library weblog ∧
    .build library' weblog' ∈ tasks ∧ Task.build library' weblog' ≠ t ∧
    library ++ '_' :: weblog = library' ++ '_' :: weblog'

/-- What the pipeline of a chunk guarantees for its tasks. -/
structure Complete (tasks : List Task) (pipeline : Dict Str Entry) : Prop where
  distinct : ∀ t ∈ tasks, ∀ t' ∈ tasks, ¬ Ambiguous tasks t → t'.jobName = t.jobName → t' = t
  /-- No other job replaces the one of a task. -/
  executed : ∀ t ∈ tasks, ¬ Ambiguous tasks t →
    ∃! name, ∃ job, pipeline.get? name = some (.job job) ∧ job.Executes t
  only : ∀ name job, pipeline.get? name = some (.job job) →
    ∃ t ∈ tasks, name = t.jobName ∧ job.Executes t
  closed : ∀ name job, pipeline.get? name = some (.job job) →
    ∀ need ∈ job.needs.getD [], need.pipeline = none →
      ∃ job', pipeline.get? need.job = some (.job job')

theorem FromLibraries.complete {libraries : List Str} {pipeline : Dict Str Entry}
    (h : FromLibraries inputs paramsFile libraries pipeline)
    (hnames : ∀ t ∈ chunkTasks paramsFile libraries, t.WellNamed) :
    Complete (chunkTasks paramsFile libraries) pipeline := by
  have hexists : ∀ t ∈ chunkTasks paramsFile libraries,
      ∃ job, pipeline.get? t.jobName = some (.job job) := by
    intro t ht
    obtain ⟨library, hlibrary, params, hparams, ht⟩ := mem_chunkTasks.mp ht
    obtain ⟨job, hjob⟩ := libraryJobs_spec.1 t ht
    exact h.2 library hlibrary params hparams t.jobName job hjob
  have honly : ∀ name job, pipeline.get? name = some (.job job) →
      ∃ t ∈ chunkTasks paramsFile libraries, name = t.jobName ∧ job.Executes t := by
    intro name job hjob
    obtain ⟨library, hlibrary, params, hparams, hjob⟩ := h.1 name job hjob
    obtain ⟨t, ht, hname, hexecutes⟩ := (libraryJobs_spec.2 name job hjob).1
    exact ⟨t, mem_chunkTasks.mpr ⟨library, hlibrary, params, hparams, ht⟩, hname, hexecutes⟩
  have hdistinct : ∀ t ∈ chunkTasks paramsFile libraries, ∀ t' ∈ chunkTasks paramsFile libraries,
      ¬ Ambiguous (chunkTasks paramsFile libraries) t → t'.jobName = t.jobName → t' = t := by
    intro t ht t' ht' hunique hname
    rcases Task.jobName_injective (hnames t ht) (hnames t' ht') hname.symm with heq | heq
    · exact heq.symm
    · obtain ⟨library, weblog, library', weblog', rfl, rfl, htext⟩ := heq
      by_contra hne
      exact hunique ⟨library, weblog, library', weblog', rfl, ht', hne, htext⟩
  refine ⟨hdistinct, fun t ht hunique => ?_, honly, fun name job hjob need hneed hpipeline => ?_⟩
  · obtain ⟨job, hjob⟩ := hexists t ht
    obtain ⟨t', ht', hname, hexecutes⟩ := honly t.jobName job hjob
    have heq := hdistinct t ht t' ht' hunique hname.symm
    refine ⟨t.jobName, ⟨job, hjob, heq ▸ hexecutes⟩, ?_⟩
    rintro other ⟨job', hjob', hexecutes'⟩
    obtain ⟨t'', -, hother, hexecutes''⟩ := honly other job' hjob'
    rw [hother, hexecutes''.unique hexecutes']
  · obtain ⟨library, hlibrary, params, hparams, hjob⟩ := h.1 name job hjob
    obtain ⟨t, ht, hname⟩ := (libraryJobs_spec.2 name job hjob).2 need hneed hpipeline
    rw [hname]
    exact hexists t (mem_chunkTasks.mpr ⟨library, hlibrary, params, hparams, ht⟩)

end Chunk

section RoundRobin

/-- The libraries that are dealt out to one chunk, in order. -/
def dealt (chunks chunk : Nat) (libraries : List (Str × Nat)) : List Str :=
  (libraries.filter fun p => decide (p.2 % chunks = chunk)).map Prod.fst

theorem getElem?_foldl_modify (chunks chunk : Nat) :
    ∀ (libraries : List (Str × Nat)) (assigned : List (List Str)),
      (libraries.foldl (fun assigned p =>
        assigned.modify (p.2 % chunks) (· ++ [p.1])) assigned)[chunk]? =
          assigned[chunk]?.map (· ++ dealt chunks chunk libraries)
  | [], assigned => by simp [dealt]
  | p :: libraries, assigned => by
      rw [List.foldl_cons, getElem?_foldl_modify chunks chunk libraries, List.getElem?_modify]
      by_cases h : p.2 % chunks = chunk
      · simp [dealt, h, Option.map_map, Function.comp_def]
      · simp [dealt, h]

theorem length_foldl_modify (chunks : Nat) :
    ∀ (libraries : List (Str × Nat)) (assigned : List (List Str)),
      (libraries.foldl (fun assigned p =>
        assigned.modify (p.2 % chunks) (· ++ [p.1])) assigned).length = assigned.length
  | [], _ => rfl
  | p :: libraries, assigned => by
      rw [List.foldl_cons, length_foldl_modify chunks libraries, List.length_modify]

theorem chunkLibraries_eq_ok (libraries : List Str) {chunks : Nat} (hchunks : 0 < chunks) :
    ∃ assigned, chunkLibraries libraries chunks = .ok assigned ∧ assigned.length = chunks ∧
      ∀ i libs, assigned[i]? = some libs → libs = dealt chunks i libraries.zipIdx := by
  rw [chunkLibraries, if_neg (fun h => hchunks.ne' h.1)]
  refine ⟨_, rfl, ?_, fun i libs hlibs => ?_⟩
  · rw [length_foldl_modify, List.length_replicate]
  · rw [getElem?_foldl_modify] at hlibs
    obtain ⟨start, hstart, rfl⟩ := Option.map_eq_some_iff.mp hlibs
    rw [List.eq_of_mem_replicate (List.mem_of_getElem? hstart), List.nil_append]

theorem mem_dealt {libraries : List Str} {chunks chunk : Nat} {library : Str} :
    library ∈ dealt chunks chunk libraries.zipIdx ↔
      ∃ i, libraries[i]? = some library ∧ i % chunks = chunk := by
  simp only [dealt, List.mem_map, List.mem_filter, decide_eq_true_eq, Prod.exists,
    List.mem_zipIdx_iff_getElem?]
  constructor
  · rintro ⟨_, i, ⟨hi, hchunk⟩, rfl⟩
    exact ⟨i, hi, hchunk⟩
  · rintro ⟨i, hi, hchunk⟩
    exact ⟨library, i, ⟨hi, hchunk⟩, rfl⟩

theorem dealt_sublist (chunks chunk : Nat) (libraries : List Str) :
    (dealt chunks chunk libraries.zipIdx).Sublist libraries := by
  have h : (dealt chunks chunk libraries.zipIdx).Sublist (libraries.zipIdx.map Prod.fst) :=
    List.filter_sublist.map Prod.fst
  rwa [List.zipIdx_map_fst] at h

/-- A library is in one chunk. -/
theorem existsUnique_chunk {libraries : List Str} {chunks : Nat} {assigned : List (List Str)}
    (hnodup : libraries.Nodup) (hchunks : 0 < chunks) (hlength : assigned.length = chunks)
    (hassigned : ∀ (i : Nat) libs, assigned[i]? = some libs → libs = dealt chunks i libraries.zipIdx)
    {library : Str} (hlibrary : library ∈ libraries) :
    ∃! i : Nat, ∃ libs, assigned[i]? = some libs ∧ library ∈ libs := by
  obtain ⟨j, hj⟩ := List.mem_iff_getElem?.mp hlibrary
  have hlt : j % chunks < assigned.length := by
    rw [hlength]
    exact Nat.mod_lt j hchunks
  refine ⟨j % chunks, ⟨assigned[j % chunks], List.getElem?_eq_getElem hlt, ?_⟩, ?_⟩
  · rw [hassigned _ _ (List.getElem?_eq_getElem hlt)]
    exact mem_dealt.mpr ⟨j, hj, rfl⟩
  · rintro i ⟨libs, hlibs, hmem⟩
    rw [hassigned i libs hlibs] at hmem
    obtain ⟨j', hj', hchunk⟩ := mem_dealt.mp hmem
    obtain ⟨hjlt, hjget⟩ := List.getElem?_eq_some_iff.mp hj
    obtain ⟨hjlt', hjget'⟩ := List.getElem?_eq_some_iff.mp hj'
    have hsame : j' = j := (hnodup.getElem_inj_iff).mp (hjget'.trans hjget.symm)
    rw [← hchunk, hsame]

end RoundRobin

section Merge

/-- The parts that a merge reads are there. -/
def HasEndtoend (params : Params) : Prop :=
  ∃ defs jobs weblogs, params.endtoendDefs = some defs ∧ defs.parallelJobs = some jobs ∧
    defs.parallelWeblogs = some weblogs

theorem HasEndtoend.parallelJobs_eq {params : Params} (h : HasEndtoend params) :
    (do let defs ← Raised.ofOption (.keyError "endtoend_defs") params.endtoendDefs
        Raised.ofOption (.keyError "parallel_jobs") defs.parallelJobs) =
      Except.ok params.parallelJobs := by
  obtain ⟨defs, jobs, weblogs, hdefs, hjobs, -⟩ := h
  simp [Params.parallelJobs, hdefs, hjobs]

theorem HasEndtoend.parallelWeblogs_eq {params : Params} (h : HasEndtoend params) :
    (do let defs ← Raised.ofOption (.keyError "endtoend_defs") params.endtoendDefs
        Raised.ofOption (.keyError "parallel_weblogs") defs.parallelWeblogs) =
      Except.ok params.parallelWeblogs := by
  obtain ⟨defs, jobs, weblogs, hdefs, -, hweblogs⟩ := h
  simp [Params.parallelWeblogs, hdefs, hweblogs]

theorem Params.mem_buildTasks {library : Str} {params : Params} {t : Task} :
    t ∈ params.buildTasks library ↔
      ∃ weblog ∈ params.parallelWeblogs, t = .build library weblog.name := by
  simp only [Params.buildTasks, Params.prebuiltWeblogs, List.mem_map, Dict.mem_keys_fromKeys]
  constructor
  · rintro ⟨_, ⟨weblog, hweblog, rfl⟩, rfl⟩
    exact ⟨weblog, hweblog, rfl⟩
  · rintro ⟨weblog, hweblog, rfl⟩
    exact ⟨weblog.name, ⟨weblog, hweblog, rfl⟩, rfl⟩

theorem mapM_eq_ok {α β : Type} {f : α → Except Raised β} {g : α → β} {l : List α}
    (h : ∀ a ∈ l, f a = .ok (g a)) : l.mapM f = .ok (l.map g) := by
  rw [Raised.mapM_eq_ok_iff]
  induction l with
  | nil => exact List.Forall₂.nil
  | cons a l ih =>
      rw [List.forall_mem_cons] at h
      exact List.Forall₂.cons h.1 (ih h.2)

theorem mergeParams_eq_ok {weblogParams : List Params} {parametricParams : Option Params}
    (hsome : weblogParams ≠ [] ∨ parametricParams ≠ none)
    (hparams : ∀ p ∈ weblogParams, HasEndtoend p) :
    ∃ merged, mergeParams weblogParams parametricParams = .ok merged ∧
      merged.parallelJobs = weblogParams.flatMap Params.parallelJobs ∧
      merged.parallelWeblogs = weblogParams.flatMap Params.parallelWeblogs ∧
      (∀ p, parametricParams = some p → merged.parametric = p.parametric) ∧
      (parametricParams = none → merged.parametric.enable = false) := by
  obtain ⟨first, hfirst⟩ : ∃ first, (weblogParams ++ parametricParams.toList).head? = some first := by
    cases hall : weblogParams ++ parametricParams.toList with
    | cons first rest => exact ⟨first, rfl⟩
    | nil =>
        rw [List.append_eq_nil_iff, Option.toList_eq_nil_iff] at hall
        exact absurd hall (by tauto)
  have hjobs := mapM_eq_ok fun p hp => (hparams p hp).parallelJobs_eq
  have hweblogs := mapM_eq_ok fun p hp => (hparams p hp).parallelWeblogs_eq
  rw [mergeParams, hfirst, hjobs, hweblogs]
  simp only [Raised.ofOption_some, Raised.ok_bind]
  refine ⟨_, rfl, ?_, ?_, ?_, ?_⟩
  · rw [Params.parallelJobs, List.flatMap]
    rfl
  · rw [Params.parallelWeblogs, List.flatMap]
    rfl
  · rintro p rfl
    rfl
  · rintro rfl
    rfl

/-- The tasks of merged parameters: those of the weblogs, and the groups of the parametric
parameters. -/
theorem mergeParams_spec (library : Str) {weblogParams : List Params}
    {parametricParams : Option Params} (hsome : weblogParams ≠ [] ∨ parametricParams ≠ none)
    (hparams : ∀ p ∈ weblogParams, HasEndtoend p) :
    ∃ merged, mergeParams weblogParams parametricParams = .ok merged ∧
      merged.runTasks library = weblogParams.flatMap (Params.runTasks library) ∧
      (merged.buildTasks library).Nodup ∧
      (∀ t, t ∈ merged.buildTasks library ↔ ∃ p ∈ weblogParams, t ∈ p.buildTasks library) ∧
      merged.parametricTasks library =
        (parametricParams.map (Params.parametricTasks library)).getD [] := by
  obtain ⟨merged, hmerged, hjobs, hweblogs, hparametric, hnone⟩ := mergeParams_eq_ok hsome hparams
  refine ⟨merged, hmerged, ?_, ?_, fun t => ?_, ?_⟩
  · rw [Params.runTasks, hjobs, List.flatMap_assoc]
    rfl
  · exact (Dict.nodup _).map fun _ _ h => (Task.build.inj h).2
  · simp only [Params.mem_buildTasks, hweblogs, List.mem_flatMap]
    constructor
    · rintro ⟨weblog, ⟨p, hp, hweblog⟩, rfl⟩
      exact ⟨p, hp, weblog, hweblog, rfl⟩
    · rintro ⟨p, hp, weblog, hweblog, rfl⟩
      exact ⟨weblog, ⟨p, hp, hweblog⟩, rfl⟩
  · cases hcase : parametricParams with
    | none => simp [Params.parametricTasks, hnone hcase]
    | some p => simp [Params.parametricTasks, hparametric p hcase]

end Merge

section Build

theorem chunkFile_spec {inputs : Inputs} {paramsFile : Str → Option Params}
    {chunkLibs : List Str} (chunk : Nat)
    (hparams : ∀ library ∈ chunkLibs, (paramsFile library).isSome)
    (hnames : ∀ t ∈ chunkTasks paramsFile chunkLibs, t.WellNamed) :
    ∃ content, chunkFile inputs paramsFile chunkLibs chunk = .ok (chunkFileName chunk, content) ∧
      if chunkLibs = [] then content = .text (noopStub inputs.stage)
      else ∃ pipeline, content = .yaml pipeline ∧
        Complete (chunkTasks paramsFile chunkLibs) pipeline := by
  rw [chunkFile]
  by_cases h : chunkLibs = []
  · simp only [if_pos h]
    exact ⟨_, rfl, rfl⟩
  · simp only [if_neg h]
    obtain ⟨pipeline, hpipeline, hfrom⟩ := chunkPipeline_fromLibraries hparams
    rw [hpipeline]
    exact ⟨.yaml pipeline, rfl, pipeline, rfl, hfrom.complete hnames⟩

/-- What is generated for libraries that are listed once each: every library is in one chunk, and
every chunk that has libraries has one job for each of their tasks, and no other.  Only builds may
share a job, of weblogs and libraries that read the same with an underscore between them.  What a
job needs of its own pipeline is there.  Merged parameters have the tasks of the weblogs, and the
parametric groups of the parametric parameters only. -/
theorem build_complete (inputs : Inputs) (paramsFile : Str → Option Params)
    (libraries : List Str) (chunks : Nat) (hnodup : libraries.Nodup) (hchunks : 0 < chunks)
    (hparams : ∀ library ∈ libraries, (paramsFile library).isSome)
    (hnames : ∀ t ∈ chunkTasks paramsFile libraries, t.WellNamed) :
    (∃ assigned files, chunkLibraries libraries chunks = .ok assigned ∧
      build inputs paramsFile libraries chunks = .ok files ∧
      assigned.length = chunks ∧ files.length = chunks ∧
      (∀ library ∈ libraries, ∃! i : Nat, ∃ libs, assigned[i]? = some libs ∧ library ∈ libs) ∧
      ∀ (i : Nat) libs, assigned[i]? = some libs → libs.Sublist libraries ∧
        ∃ content, files[i]? = some (chunkFileName i, content) ∧
          if libs = [] then content = .text (noopStub inputs.stage)
          else ∃ pipeline, content = .yaml pipeline ∧
            Complete (chunkTasks paramsFile libs) pipeline) ∧
    ∀ (library : Str) (weblogParams : List Params) (parametricParams : Option Params),
      (weblogParams ≠ [] ∨ parametricParams ≠ none) → (∀ p ∈ weblogParams, HasEndtoend p) →
        ∃ merged, mergeParams weblogParams parametricParams = .ok merged ∧
          merged.runTasks library = weblogParams.flatMap (Params.runTasks library) ∧
          (merged.buildTasks library).Nodup ∧
          (∀ t, t ∈ merged.buildTasks library ↔ ∃ p ∈ weblogParams, t ∈ p.buildTasks library) ∧
          merged.parametricTasks library =
            (parametricParams.map (Params.parametricTasks library)).getD [] := by
  refine ⟨?_, fun library _ _ hsome hdefs => mergeParams_spec library hsome hdefs⟩
  obtain ⟨assigned, hok, hlength, hassigned⟩ := chunkLibraries_eq_ok libraries hchunks
  have hsublist : ∀ (i : Nat) libs, assigned[i]? = some libs → libs.Sublist libraries := by
    intro i libs hlibs
    rw [hassigned i libs hlibs]
    exact dealt_sublist chunks i libraries
  have hchunk : ∀ (i : Nat) libs, assigned[i]? = some libs →
      ∃ content, chunkFile inputs paramsFile libs i = .ok (chunkFileName i, content) ∧
        if libs = [] then content = .text (noopStub inputs.stage)
        else ∃ pipeline, content = .yaml pipeline ∧
          Complete (chunkTasks paramsFile libs) pipeline := by
    intro i libs hlibs
    have hsub := (hsublist i libs hlibs).subset
    refine chunkFile_spec i (fun library hlibrary => hparams library (hsub hlibrary)) ?_
    intro t ht
    obtain ⟨library, hlibrary, rest⟩ := mem_chunkTasks.mp ht
    exact hnames t (mem_chunkTasks.mpr ⟨library, hsub hlibrary, rest⟩)
  obtain ⟨files, hfiles⟩ : ∃ files, (assigned.zipIdx.mapM fun p =>
      chunkFile inputs paramsFile p.1 p.2) = .ok files := by
    refine Raised.exists_mapM_eq_ok fun p hp => ?_
    obtain ⟨content, hcontent, -⟩ := hchunk p.2 p.1 (List.mem_zipIdx_iff_getElem?.mp hp)
    exact ⟨_, hcontent⟩
  have hforall := List.forall₂_iff_get.mp (Raised.mapM_eq_ok_iff.mp hfiles)
  have hfileslength : files.length = assigned.length := by
    rw [← hforall.1, List.length_zipIdx]
  refine ⟨assigned, files, hok, by rw [build, hok, Raised.ok_bind, hfiles], hlength,
    hfileslength.trans hlength, fun library hlibrary =>
      existsUnique_chunk hnodup hchunks hlength hassigned hlibrary, fun i libs hlibs => ?_⟩
  refine ⟨hsublist i libs hlibs, ?_⟩
  obtain ⟨content, hcontent, hspec⟩ := hchunk i libs hlibs
  obtain ⟨hlt, hget⟩ := List.getElem?_eq_some_iff.mp hlibs
  have hfile := hforall.2 i (by rwa [List.length_zipIdx]) (hfileslength ▸ hlt)
  simp only [List.get_eq_getElem, List.getElem_zipIdx, hget, Nat.zero_add, hcontent,
    Except.ok.injEq] at hfile
  exact ⟨content, List.getElem?_eq_some_iff.mpr ⟨hfileslength ▸ hlt, hfile.symm⟩, hspec⟩

def exampleInputs : Inputs := ⟨"e2e", "ci-runner", "", false, "", "", Dict.empty⟩

def weblogParams (weblog scenario : Str) (parametric : Bool) : Params where
  endtoendDefs := some ⟨some true, some [⟨weblog⟩], some [⟨weblog, some [scenario], some true⟩]⟩
  parametric := ⟨parametric, 2, [1, 2], 4, []⟩
  miscs := ⟨""⟩

theorem build_complete_flask :
    ∃ assigned files, chunkLibraries ["python"] 1 = .ok assigned ∧
      build exampleInputs (fun _ => some (weblogParams "flask-poc" "DEFAULT" true)) ["python"] 1 =
        .ok files ∧ assigned.length = 1 ∧ files.length = 1 := by
  have hnames : ∀ t ∈ chunkTasks (fun _ => some (weblogParams "flask-poc" "DEFAULT" true))
      ["python".toList], t.WellNamed := by
    have hlibrary : LibraryName "python".toList := by
      unfold LibraryName
      decide
    have hscenario : ScenarioName "DEFAULT".toList :=
      ⟨⟨'D', "EFAULT".toList, rfl, rfl⟩, by decide⟩
    have htasks : chunkTasks (fun _ => some (weblogParams "flask-poc" "DEFAULT" true))
        ["python".toList] = [.build "python" "flask-poc", .run "python" "flask-poc" "DEFAULT",
          .parametric "python" 1, .parametric "python" 2] := by decide
    rw [htasks]
    simp only [List.forall_mem_cons]
    exact ⟨hlibrary, ⟨hlibrary, ⟨'f', "lask-poc".toList, rfl, rfl⟩, hscenario⟩, hlibrary,
      hlibrary, fun _ h => absurd h List.not_mem_nil⟩
  obtain ⟨⟨assigned, files, hassigned, hfiles, hlength, hlength', -⟩, -⟩ :=
    build_complete exampleInputs (fun _ => some (weblogParams "flask-poc" "DEFAULT" true))
      ["python"] 1 (List.nodup_singleton _) one_pos (fun _ _ => rfl) hnames
  exact ⟨assigned, files, hassigned, hfiles, hlength, hlength'⟩

/-- The names of the jobs of a chunk that execute a task. -/
def jobsOf (t : Task) (pipeline : Dict Str Entry) : List Str :=
  (pipeline.items.filter fun item =>
    match item.2 with
    | .job job => decide (job.Executes t)
    | _ => false).map Prod.fst

/-- The weblogs of two libraries whose builds have one name. -/
def cppParams (library : Str) : Option Params :=
  if library = "cpp" then some (weblogParams "httpd_poc" "DEFAULT" false)
  else some (weblogParams "poc" "DEFAULT" false)

/-- Two weblogs that are not written like weblogs. -/
def upperCaseParams (_ : Str) : Option Params :=
  some { weblogParams "E2E_app" "DEFAULT" false with
    endtoendDefs := some ⟨none, none, some [⟨"E2E_app", some ["OTEL"], none⟩,
      ⟨"app", some ["OTEL_E2E"], none⟩]⟩ }

/-- A library that is written with an upper case letter, and one whose scenario begins with it. -/
def upperCaseLibraryParams (library : Str) : Option Params :=
  if library = "c" then some (weblogParams "poc" "X_DEFAULT" false)
  else some (weblogParams "poc" "DEFAULT" false)

/-- A scenario that begins with a digit, and a library that ends in it. -/
def digitParams (library : Str) : Option Params :=
  if library = "c" then some (weblogParams "poc" "2_DEFAULT" false)
  else some (weblogParams "poc" "DEFAULT" false)

/-- Without these conditions a library is in two chunks or in none, a job is replaced by another
one, or the parametric groups of a weblog's parameters are dropped. -/
theorem not_generation_complete :
    chunkLibraries ["c", "c"] 2 = .ok [["c"], ["c"]] ∧
      chunkLibraries ["c"] 0 = .error .zeroDivisionError ∧
      (chunkPipeline exampleInputs cppParams ["cpp", "cpp_httpd"]).map
        (jobsOf (.build "cpp" "httpd_poc")) = .ok [] ∧
      (chunkPipeline exampleInputs upperCaseParams ["c"]).map
        (jobsOf (.run "c" "E2E_app" "OTEL")) = .ok [] ∧
      (chunkPipeline exampleInputs upperCaseLibraryParams ["c", "c_X"]).map
        (jobsOf (.run "c" "poc" "X_DEFAULT")) = .ok [] ∧
      (chunkPipeline exampleInputs digitParams ["c", "c_2"]).map
        (jobsOf (.run "c" "poc" "2_DEFAULT")) = .ok [] ∧
      (weblogParams "flask-poc" "DEFAULT" true).parametricTasks "python" =
        [.parametric "python" 1, .parametric "python" 2] ∧
      (mergeParams [weblogParams "flask-poc" "DEFAULT" true] none).map
        (Params.parametricTasks "python") = .ok [] := by
  refine ⟨?_, ?_, ?_, ?_, ?_, ?_, ?_, ?_⟩
  · decide
  · decide
  · decide
  · decide
  · decide
  · decide
  · decide
  · decide

end Build
end Gitlab
end SystemTests
