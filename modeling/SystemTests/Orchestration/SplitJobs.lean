import SystemTests.Foundation.Dict
import SystemTests.Foundation.Exception

/-!
# Splitting of end-to-end jobs (`utils/scripts/ci_orchestrators/workflow_data.py`)

A job runs scenarios on a weblog.  Every job is split into jobs that take about
the desired time; while there are too many of them, jobs are deleted, those with
the highest instance first, and their scenarios are given to the fastest job
that is left of the same weblog.

Times are of any type with the operations that the code applies to them.  Two
jobs of a list are told apart by their weblog and their instance, which the
splitting makes unique; the `while` loop has a bound on its rounds.

**Results.**
* `splitForParallelExecution_items`: the split of a job holds its scenarios.
* `Complete.delete`, `deletePass_ok`: a deletion loses nothing; one pass of them
  reaches the bound.
* `splitJobs_conserves`: the splitting ends, keeps to the bound, and every
  scenario of a weblog is in one of its jobs.
-/

namespace SystemTests
namespace Orchestration

open Foundation Foundation.Text

/-- A job; its scenarios with their times are a dictionary. -/
structure Job (W T : Type) where
  library : Str
  weblog : W
  weblogInstance : Nat
  scenariosTimes : Dict Str T
  buildTime : T

structure BackPack (T : Type) where
  scenarios : List Str
  executionTime : T

section Split

variable {W T : Type} [Zero T] [Add T] [Sub T] [LE T] [LT T]
variable [DecidableLE T] [DecidableLT T]

def Job.expectedJobTime (job : Job W T) : T := job.scenariosTimes.values.foldl (· + ·) 0

def Job.appendScenario (job : Job W T) (scenario : Str) (executionTime : T) :
    Except Raised (Job W T) :=
  if scenario ∈ job.scenariosTimes.keys then throw (.assertionError [])
  else return { job with scenariosTimes := job.scenariosTimes.set scenario executionTime }

/-- The scenario in the first backpack that has room for it. -/
def firstFit (scenario : Str) (executionTime desired : T) :
    List (BackPack T) → Option (List (BackPack T))
  | [] => none
  | backpack :: backpacks =>
      if backpack.executionTime + executionTime ≤ desired then
        some (⟨backpack.scenarios ++ [scenario], backpack.executionTime + executionTime⟩ ::
          backpacks)
      else (firstFit scenario executionTime desired backpacks).map (backpack :: ·)

def packScenario (desired : T) (backpacks : List (BackPack T)) (item : Str × T) :
    List (BackPack T) :=
  if desired < item.2 || backpacks.length = 0 then backpacks ++ [⟨[item.1], item.2⟩]
  else match firstFit item.1 item.2 desired backpacks with
    | some placed => placed
    | none => backpacks ++ [⟨[item.1], item.2⟩]

/-- First fit decreasing. -/
def splitScenariosForParallelExecution (scenarioTimes : Dict Str T) (desired : T) :
    List (List Str) :=
  let sorted := scenarioTimes.items.mergeSort fun a b => !decide (a.2 < b.2)
  (sorted.foldl (packScenario desired) []).map BackPack.scenarios

/-- `{scenario: times[scenario] for scenario in scenarios}` -/
def timesOf (times : Dict Str T) (scenarios : List Str) : Except Raised (Dict Str T) :=
  scenarios.foldlM (fun d scenario => do
    let time ← Raised.ofOption (.keyError scenario) (times.get? scenario)
    return d.set scenario time) .empty

def Job.splitForParallelExecution (job : Job W T) (desired : T) :
    Except Raised (List (Job W T)) :=
  (splitScenariosForParallelExecution job.scenariosTimes (desired - job.buildTime)).zipIdx.mapM
    fun p => do
      let times ← timesOf job.scenariosTimes p.1
      return { job with weblogInstance := p.2 + 1, scenariosTimes := times }

end Split

section Delete

variable {W T : Type} [DecidableEq W] [Zero T] [Add T] [LT T] [DecidableLT T]

/-- What tells the jobs of a result apart. -/
def Job.key (job : Job W T) : W × Nat := (job.weblog, job.weblogInstance)

/-- `min(jobs, key=lambda x: x.expected_job_time)` -/
def fastest : List (Job W T) → Option (Job W T)
  | [] => none
  | job :: jobs => some (jobs.foldl
      (fun best x => if x.expectedJobTime < best.expectedJobTime then x else best) job)

/-- A scenario of a deleted job is given to the fastest job of its weblog. -/
def giveScenario (weblog : W) (result : List (Job W T)) (item : Str × T) :
    Except Raised (List (Job W T)) := do
  let fastestJob ← Raised.ofOption (.valueError "min() iterable argument is empty")
    (fastest (result.filter fun job => job.weblog = weblog))
  let job ← fastestJob.appendScenario item.1 item.2
  return result.map fun x => if x.key = fastestJob.key then job else x

/-- The jobs of one pass, deleted one after the other until the bound is met. -/
def deletePass (maximum : Nat) : List (W × Nat) → List (Job W T) →
    Except Raised (List (Job W T))
  | [], result => return result
  | key :: keys, result => do
      let job ← Raised.ofOption (.valueError "list.remove(x): x not in list")
        (result.find? fun job => job.key = key)
      let result ← job.scenariosTimes.items.foldlM (giveScenario job.weblog)
        (result.eraseP fun job => job.key = key)
      if result.length ≤ maximum then return result
      else deletePass maximum keys result

/-- The jobs by descending instance, as they are at the start of a pass. -/
def deletionOrder (result : List (Job W T)) : List (W × Nat) :=
  (result.mergeSort fun a b => decide (b.weblogInstance ≤ a.weblogInstance)).map Job.key

/-- The `while` loop, with a bound on its rounds. -/
def reduceJobs (maximum : Nat) : Nat → List (Job W T) → Option (Except Raised (List (Job W T)))
  | 0, result => if result.length ≤ maximum then some (.ok result) else none
  | rounds + 1, result =>
      if result.length ≤ maximum then some (.ok result)
      else match deletePass maximum (deletionOrder result) result with
        | .error e => some (.error e)
        | .ok result => reduceJobs maximum rounds result

/-- `_split_jobs_for_parallel_execution` -/
def splitJobsForParallelExecution [Sub T] [LE T] [DecidableLE T] (rounds : Nat)
    (jobs : List (Job W T)) (desired : T) (maximum : Nat) :
    Option (Except Raised (List (Job W T))) :=
  match jobs.mapM fun job => job.splitForParallelExecution desired with
  | .error e => some (.error e)
  | .ok parts => reduceJobs maximum rounds parts.flatten

end Delete

section Conservation

variable {W T : Type}

/-- What a job runs: its weblog with each scenario and its time. -/
def Job.items (job : Job W T) : List (W × Str × T) :=
  job.scenariosTimes.items.map fun p => (job.weblog, p.1, p.2)

def allItems (jobs : List (Job W T)) : List (W × Str × T) := jobs.flatMap Job.items

@[simp] theorem allItems_cons (job : Job W T) (jobs : List (Job W T)) :
    allItems (job :: jobs) = job.items ++ allItems jobs :=
  List.flatMap_cons

@[simp] theorem allItems_append (jobs jobs' : List (Job W T)) :
    allItems (jobs ++ jobs') = allItems jobs ++ allItems jobs' :=
  List.flatMap_append

theorem mem_allItems {jobs : List (Job W T)} {weblog : W} {scenario : Str} {time : T} :
    (weblog, scenario, time) ∈ allItems jobs ↔
      ∃ job ∈ jobs, job.weblog = weblog ∧ job.scenariosTimes.get? scenario = some time := by
  simp only [allItems, List.mem_flatMap, Job.items, List.mem_map, Prod.exists, Prod.mk.injEq,
    ← Dict.mem_items_iff]
  refine exists_congr fun job => and_congr_right fun _ => ?_
  constructor
  · rintro ⟨s, t, hmem, hweblog, rfl, rfl⟩
    exact ⟨hweblog, hmem⟩
  · rintro ⟨hweblog, hmem⟩
    exact ⟨scenario, time, hmem, hweblog, rfl, rfl⟩

end Conservation

section Packing

variable {T : Type} [Add T] [LE T] [DecidableLE T]

theorem perm_of_firstFit {scenario : Str} {executionTime desired : T} :
    ∀ {backpacks placed : List (BackPack T)},
      firstFit scenario executionTime desired backpacks = some placed →
        (placed.flatMap BackPack.scenarios).Perm
          (backpacks.flatMap BackPack.scenarios ++ [scenario])
  | [], placed, h => by simp [firstFit] at h
  | backpack :: backpacks, placed, h => by
      unfold firstFit at h
      split_ifs at h with hfits
      · rw [Option.some.injEq] at h
        subst h
        simp only [List.flatMap_cons, List.append_assoc]
        exact List.perm_append_comm.append_left backpack.scenarios
      · obtain ⟨rest, hrest, rfl⟩ := Option.map_eq_some_iff.mp h
        simp only [List.flatMap_cons, List.append_assoc]
        exact (perm_of_firstFit hrest).append_left backpack.scenarios

variable [LT T] [DecidableLT T]

theorem packScenario_perm (desired : T) (backpacks : List (BackPack T)) (item : Str × T) :
    ((packScenario desired backpacks item).flatMap BackPack.scenarios).Perm
      (backpacks.flatMap BackPack.scenarios ++ [item.1]) := by
  unfold packScenario
  split_ifs with hnew
  · simp
  · split
    · rename_i placed hplaced
      exact perm_of_firstFit hplaced
    · simp

theorem foldl_packScenario_perm (desired : T) :
    ∀ (items : List (Str × T)) (backpacks : List (BackPack T)),
      ((items.foldl (packScenario desired) backpacks).flatMap BackPack.scenarios).Perm
        (backpacks.flatMap BackPack.scenarios ++ items.map Prod.fst)
  | [], backpacks => by simp
  | item :: items, backpacks => by
      refine (foldl_packScenario_perm desired items _).trans ?_
      refine ((packScenario_perm desired backpacks item).append_right _).trans ?_
      simp

/-- Every scenario is in one backpack, once. -/
theorem splitScenariosForParallelExecution_perm (scenarioTimes : Dict Str T) (desired : T) :
    (splitScenariosForParallelExecution scenarioTimes desired).flatten.Perm
      scenarioTimes.keys := by
  unfold splitScenariosForParallelExecution
  rw [← List.flatMap_def]
  refine (foldl_packScenario_perm desired _ []).trans ?_
  rw [List.flatMap_nil, List.nil_append]
  exact (List.mergeSort_perm _ _).map Prod.fst

end Packing

section Splitting

variable {W T : Type}

theorem timesOf_items (times : Dict Str T) :
    ∀ (items : List (Str × T)) (d : Dict Str T),
      (∀ p ∈ items, times.get? p.1 = some p.2) →
      (d.keys ++ items.map Prod.fst).Nodup →
      ∃ d', (items.map Prod.fst).foldlM (fun d scenario => do
          let time ← Raised.ofOption (.keyError scenario) (times.get? scenario)
          return d.set scenario time) d = .ok d' ∧ d'.items = d.items ++ items
  | [], d, _, _ => ⟨d, rfl, by simp⟩
  | (scenario, time) :: items, d, htimes, hnodup => by
      rw [List.forall_mem_cons] at htimes
      have hnew : scenario ∉ d.keys := fun hmem =>
        (List.nodup_append.mp hnodup).2.2 _ hmem _ (by simp) rfl
      have hitems := d.items_set_of_not_mem time hnew
      have hkeys : (d.set scenario time).keys = d.keys ++ [scenario] := by
        rw [Dict.keys, hitems]
        simp [Dict.keys]
      obtain ⟨d', hd', hd'items⟩ := timesOf_items times items (d.set scenario time) htimes.2 (by
        rw [hkeys]
        simpa using hnodup)
      refine ⟨d', ?_, ?_⟩
      · rw [List.map_cons, List.foldlM_cons, htimes.1]
        exact hd'
      · rw [hd'items, hitems, List.append_assoc]
        rfl

theorem exists_items_of_scenarios (times : Dict Str T) :
    ∀ {scenarios : List Str}, (∀ scenario ∈ scenarios, scenario ∈ times.keys) →
      ∃ items : List (Str × T), items.map Prod.fst = scenarios ∧
        ∀ p ∈ items, times.get? p.1 = some p.2
  | [], _ => ⟨[], rfl, by simp⟩
  | scenario :: scenarios, h => by
      rw [List.forall_mem_cons] at h
      obtain ⟨items, hitems, htimes⟩ := exists_items_of_scenarios times h.2
      obtain ⟨time, htime⟩ := Option.isSome_iff_exists.mp ((times.get?_isSome_iff scenario).mpr h.1)
      exact ⟨(scenario, time) :: items, by rw [List.map_cons, hitems],
        List.forall_mem_cons.mpr ⟨htime, htimes⟩⟩

theorem timesOf_eq_ok (times : Dict Str T) {scenarios : List Str} (hnodup : scenarios.Nodup)
    (h : ∀ scenario ∈ scenarios, scenario ∈ times.keys) :
    ∃ d, timesOf times scenarios = .ok d ∧ d.keys = scenarios ∧
      ∀ p ∈ d.items, times.get? p.1 = some p.2 := by
  obtain ⟨items, rfl, htimes⟩ := exists_items_of_scenarios times h
  obtain ⟨d, hd, hitems⟩ := timesOf_items times items .empty htimes (by
    simpa [Dict.empty, Dict.keys] using hnodup)
  rw [Dict.empty, List.nil_append] at hitems
  refine ⟨d, hd, ?_, ?_⟩
  · rw [Dict.keys, hitems]
  · rwa [hitems]

/-- The jobs that are made of some backpacks, the first with the instance `n + 1`. -/
theorem mapM_backpacks (job : Job W T) :
    ∀ (backpacks : List (List Str)) (n : Nat),
      (∀ scenarios ∈ backpacks, scenarios.Nodup ∧ ∀ s ∈ scenarios, s ∈ job.scenariosTimes.keys) →
      ∃ jobs : List (Job W T),
        (backpacks.zipIdx n).mapM (fun p => do
          let times ← timesOf job.scenariosTimes p.1
          return { job with weblogInstance := p.2 + 1, scenariosTimes := times }) = .ok jobs ∧
        jobs.map Job.key = (List.range' (n + 1) backpacks.length).map (job.weblog, ·) ∧
        (allItems jobs).map (fun x => x.2.1) = backpacks.flatten ∧
        ∀ x ∈ allItems jobs, x.1 = job.weblog ∧ job.scenariosTimes.get? x.2.1 = some x.2.2
  | [], n, _ => ⟨[], rfl, rfl, rfl, by simp [allItems]⟩
  | scenarios :: backpacks, n, h => by
      rw [List.forall_mem_cons] at h
      obtain ⟨d, hd, hkeys, hitems⟩ := timesOf_eq_ok job.scenariosTimes h.1.1 h.1.2
      obtain ⟨jobs, hjobs, hinstances, hnames, htimes⟩ := mapM_backpacks job backpacks (n + 1) h.2
      refine ⟨{ job with weblogInstance := n + 1, scenariosTimes := d } :: jobs, ?_, ?_, ?_, ?_⟩
      · rw [List.zipIdx_cons, List.mapM_cons, hd, Raised.ok_bind]
        simp only [pure_bind, hjobs]
        rfl
      · rw [List.map_cons, hinstances, List.length_cons, List.range'_succ]
        rfl
      · rw [allItems_cons, List.map_append, hnames, List.flatten_cons, ← hkeys]
        simp [Job.items, Dict.keys]
      · intro x hx
        rw [allItems_cons, List.mem_append] at hx
        rcases hx with hx | hx
        · obtain ⟨p, hp, rfl⟩ := List.mem_map.mp hx
          exact ⟨rfl, hitems p hp⟩
        · exact htimes x hx

/-- A weblog with one of its scenarios. -/
def scenarioKey (x : W × Str × T) : W × Str := (x.1, x.2.1)

theorem Job.nodup_scenarioKey_items (job : Job W T) : (job.items.map scenarioKey).Nodup := by
  have hkeys : job.items.map scenarioKey = job.scenariosTimes.keys.map (job.weblog, ·) := by
    simp only [Job.items, List.map_map, Dict.keys]
    rfl
  rw [hkeys]
  exact job.scenariosTimes.nodup.map (Prod.mk_right_injective job.weblog)

variable [Add T] [Sub T] [LE T] [LT T] [DecidableLE T] [DecidableLT T]

/-- The split of a job: instances from 1 on, and the scenarios of the job. -/
theorem splitForParallelExecution_items (job : Job W T) (desired : T) :
    ∃ jobs, job.splitForParallelExecution desired = .ok jobs ∧
      jobs.map Job.key = (List.range' 1 jobs.length).map (job.weblog, ·) ∧
      (allItems jobs).Perm job.items := by
  have hperm := splitScenariosForParallelExecution_perm job.scenariosTimes (desired - job.buildTime)
  have hnodup := hperm.nodup_iff.mpr job.scenariosTimes.nodup
  obtain ⟨jobs, hjobs, hinstances, hnames, htimes⟩ := mapM_backpacks job
    (splitScenariosForParallelExecution job.scenariosTimes (desired - job.buildTime)) 0
    fun scenarios hmem => ⟨(List.nodup_flatten.mp hnodup).1 scenarios hmem, fun s hs =>
      hperm.mem_iff.mp (List.mem_flatten.mpr ⟨scenarios, hmem, hs⟩)⟩
  have hlength := congrArg List.length hinstances
  simp only [List.length_map, List.length_range'] at hlength
  refine ⟨jobs, hjobs, by rw [hinstances, hlength], ?_⟩
  have hitems : (allItems jobs).Nodup := by
    refine List.Nodup.of_map (fun x => x.2.1) ?_
    rwa [hnames]
  refine (List.perm_ext_iff_of_nodup hitems (job.nodup_scenarioKey_items.of_map _)).mpr ?_
  rintro ⟨weblog, scenario, time⟩
  have hmem : scenario ∈ (allItems jobs).map (fun x => x.2.1) ↔
      scenario ∈ job.scenariosTimes.keys := by
    rw [hnames]
    exact hperm.mem_iff
  have hjob : (weblog, scenario, time) ∈ job.items ↔
      job.weblog = weblog ∧ job.scenariosTimes.get? scenario = some time := by
    have hone : (weblog, scenario, time) ∈ allItems [job] ↔ _ := mem_allItems
    simpa [allItems] using hone
  rw [hjob]
  constructor
  · intro hx
    exact ⟨(htimes _ hx).1.symm, (htimes _ hx).2⟩
  · rintro ⟨rfl, htime⟩
    obtain ⟨⟨w, s, t⟩, hx, rfl⟩ := List.mem_map.mp
      (hmem.mpr ((job.scenariosTimes.get?_isSome_iff _).mp (by rw [htime]; rfl)))
    obtain ⟨rfl, ht⟩ := htimes _ hx
    rw [ht, Option.some.injEq] at htime
    exact htime ▸ hx

end Splitting

section Deletion

variable {W T : Type}

/-- What holds of the jobs at every moment: their keys are distinct, no weblog
loses its first instance, and together they run `items`. -/
structure Complete (items : List (W × Str × T)) (result : List (Job W T)) : Prop where
  nodup_key : (result.map Job.key).Nodup
  instance_pos : ∀ job ∈ result, 1 ≤ job.weblogInstance
  first_instance : ∀ job ∈ result, (job.weblog, 1) ∈ result.map Job.key
  items_perm : (allItems result).Perm items

theorem allItems_perm_of_mem {job : Job W T} {A B : List (Job W T)} :
    (allItems (A ++ job :: B)).Perm (job.items ++ allItems (A ++ B)) := by
  simp only [allItems_append, allItems_cons, ← List.append_assoc]
  exact List.perm_append_comm.append_right (allItems B)

/-- Too many jobs are not all the first of their weblogs. -/
theorem exists_second_instance {items : List (W × Str × T)} {result : List (Job W T)}
    (h : Complete items result) {weblogs : List W} (hweblogs : ∀ job ∈ result, job.weblog ∈ weblogs)
    (hlength : weblogs.length < result.length) : ∃ job ∈ result, 2 ≤ job.weblogInstance := by
  by_contra hnone
  have hone : ∀ job ∈ result, job.weblogInstance = 1 := by
    intro job hjob
    have hpos := h.instance_pos job hjob
    have hlt : ¬ 2 ≤ job.weblogInstance := fun h2 => hnone ⟨job, hjob, h2⟩
    omega
  have hnodup : (result.map Job.weblog).Nodup := by
    have hkeys : result.map Job.key = (result.map Job.weblog).map (·, 1) := by
      rw [List.map_map]
      refine List.map_congr_left fun job hjob => ?_
      simp [Job.key, hone job hjob]
    exact (hkeys ▸ h.nodup_key).of_map _
  have hsub : result.map Job.weblog ⊆ weblogs := by
    intro weblog hmem
    obtain ⟨job, hjob, rfl⟩ := List.mem_map.mp hmem
    exact hweblogs job hjob
  have hle := (hnodup.subperm hsub).length_le
  rw [List.length_map] at hle
  omega

theorem deletionOrder_spec (result : List (Job W T)) :
    (deletionOrder result).Perm (result.map Job.key) ∧
      (deletionOrder result).Pairwise fun a b => b.2 ≤ a.2 := by
  constructor
  · exact (List.mergeSort_perm _ _).map Job.key
  · rw [deletionOrder, List.pairwise_map]
    refine (List.pairwise_mergeSort ?_ ?_ result).imp fun {a b} h => ?_
    · intro a b c hab hbc
      simp only [decide_eq_true_eq] at hab hbc ⊢
      omega
    · intro a b
      simp only [Bool.or_eq_true, decide_eq_true_eq]
      omega
    · simpa [Job.key] using h

theorem fastest_mem [Zero T] [Add T] [LT T] [DecidableLT T] {job : Job W T} {jobs : List (Job W T)} (h : fastest jobs = some job) :
    job ∈ jobs := by
  cases jobs with
  | nil => simp [fastest] at h
  | cons first jobs =>
      simp only [fastest, Option.some.injEq] at h
      have hfold : ∀ (jobs : List (Job W T)) (best : Job W T),
          jobs.foldl (fun best x => if x.expectedJobTime < best.expectedJobTime then x else best)
            best ∈ best :: jobs := by
        intro jobs
        induction jobs with
        | nil => simp
        | cons x jobs ih =>
            intro best
            rw [List.foldl_cons]
            split_ifs
            · exact List.mem_cons_of_mem _ (ih x)
            · rcases List.mem_cons.mp (ih best) with heq | hmem
              · rw [heq]
                exact List.mem_cons_self
              · exact List.mem_cons_of_mem _ (List.mem_cons_of_mem _ hmem)
      exact h ▸ hfold jobs first

variable [DecidableEq W]

theorem map_replace_key {job : Job W T} {A B : List (Job W T)}
    (hnodup : ((A ++ job :: B).map Job.key).Nodup) (job' : Job W T) :
    (A ++ job :: B).map (fun x => if x.key = job.key then job' else x) = A ++ job' :: B := by
  rw [List.map_append, List.map_cons, List.nodup_append] at hnodup
  have hB := (List.nodup_cons.mp hnodup.2.1).1
  have hid : ∀ l : List (Job W T), (∀ x ∈ l, x.key ≠ job.key) →
      l.map (fun x => if x.key = job.key then job' else x) = l := by
    intro l hl
    rw [List.map_congr_left (fun x hx => if_neg (hl x hx)), List.map_id']
  rw [List.map_append, List.map_cons, if_pos rfl, hid A, hid B]
  · exact fun x hx heq => hB (List.mem_map.mpr ⟨x, hx, heq⟩)
  · exact fun x hx heq => hnodup.2.2 _ (List.mem_map_of_mem hx) _ List.mem_cons_self heq

theorem find?_key_eq_some {result : List (Job W T)} {key : W × Nat}
    (h : key ∈ result.map Job.key) :
    ∃ job A B, result = A ++ job :: B ∧ job.key = key ∧
      result.find? (fun job => job.key = key) = some job ∧
      result.eraseP (fun job => job.key = key) = A ++ B := by
  obtain ⟨job, hjob, hkey⟩ := List.mem_map.mp h
  obtain ⟨job', A, B, hA, hkey', hsplit, herase⟩ :=
    List.exists_of_eraseP (p := fun job => decide (job.key = key)) hjob (by simpa using hkey)
  refine ⟨job', A, B, hsplit, by simpa using hkey', ?_, herase⟩
  rw [hsplit, List.find?_append]
  have hnone : A.find? (fun job => decide (job.key = key)) = none :=
    List.find?_eq_none.mpr fun x hx => hA x hx
  simp only [hnone, Option.none_or]
  exact List.find?_cons_of_pos hkey'

variable [Zero T] [Add T] [LT T] [DecidableLT T]

/-- A scenario that the weblog does not run yet finds a job of the weblog. -/
theorem giveScenario_eq_ok {weblog : W} {result : List (Job W T)} {item : Str × T}
    (hnodup : (result.map Job.key).Nodup) (hweblog : ∃ job ∈ result, job.weblog = weblog)
    (hnew : (weblog, item.1) ∉ (allItems result).map scenarioKey) :
    ∃ result', giveScenario weblog result item = .ok result' ∧
      result'.map Job.key = result.map Job.key ∧
      (allItems result').Perm (allItems result ++ [(weblog, item.1, item.2)]) := by
  obtain ⟨job, hfast⟩ : ∃ job, fastest (result.filter fun job => job.weblog = weblog) = some job := by
    obtain ⟨job, hjob, hw⟩ := hweblog
    have hmem : job ∈ result.filter fun job => job.weblog = weblog :=
      List.mem_filter.mpr ⟨hjob, by simpa using hw⟩
    obtain ⟨first, rest, hcons⟩ := List.exists_cons_of_ne_nil (List.ne_nil_of_mem hmem)
    rw [hcons]
    exact ⟨_, rfl⟩
  obtain ⟨hjob, hw⟩ := List.mem_filter.mp (fastest_mem hfast)
  obtain rfl : job.weblog = weblog := by simpa using hw
  have hscenario : item.1 ∉ job.scenariosTimes.keys := by
    intro hmem
    obtain ⟨p, hp, heq⟩ := List.mem_map.mp hmem
    refine hnew (List.mem_map.mpr ⟨(job.weblog, p.1, p.2), ?_, by rw [← heq]; rfl⟩)
    exact List.mem_flatMap.mpr ⟨job, hjob, List.mem_map.mpr ⟨p, hp, rfl⟩⟩
  obtain ⟨A, B, rfl⟩ := List.append_of_mem hjob
  refine ⟨A ++ { job with scenariosTimes := job.scenariosTimes.set item.1 item.2 } :: B, ?_, ?_, ?_⟩
  · simp only [giveScenario, hfast, Raised.ofOption_some, Raised.ok_bind, Job.appendScenario,
      if_neg hscenario, pure_bind]
    rw [map_replace_key hnodup]
    rfl
  · simp [Job.key]
  · refine allItems_perm_of_mem.trans ?_
    have hitems : (Job.items { job with scenariosTimes := job.scenariosTimes.set item.1 item.2 }) =
        job.items ++ [(job.weblog, item.1, item.2)] := by
      simp only [Job.items, Dict.items_set_of_not_mem _ item.2 hscenario, List.map_append]
      rfl
    rw [hitems, List.append_assoc]
    refine (List.perm_append_comm.append_left job.items).trans ?_
    rw [← List.append_assoc]
    exact (allItems_perm_of_mem.symm).append_right _

/-- All scenarios of a deleted job. -/
theorem giveScenarios_eq_ok {weblog : W} :
    ∀ {items : List (Str × T)} {result : List (Job W T)}, (result.map Job.key).Nodup →
      (∃ job ∈ result, job.weblog = weblog) →
      ((allItems result ++ items.map fun p => (weblog, p.1, p.2)).map scenarioKey).Nodup →
      ∃ result', items.foldlM (giveScenario weblog) result = .ok result' ∧
        result'.map Job.key = result.map Job.key ∧
        (allItems result').Perm (allItems result ++ items.map fun p => (weblog, p.1, p.2))
  | [], result, _, _, _ => ⟨result, rfl, rfl, by simp⟩
  | item :: items, result, hnodup, hweblog, hitems => by
      have hnew : (weblog, item.1) ∉ (allItems result).map scenarioKey := by
        rw [List.map_append, List.nodup_append] at hitems
        exact fun hmem => hitems.2.2 _ hmem _ (by simp [scenarioKey]) rfl
      obtain ⟨given, hgiven, hkeys, hperm⟩ := giveScenario_eq_ok hnodup hweblog hnew
      have hmem : ∃ job ∈ given, job.weblog = weblog := by
        obtain ⟨job, hjob, rfl⟩ := hweblog
        have hkey : job.key ∈ given.map Job.key := hkeys ▸ List.mem_map_of_mem hjob
        obtain ⟨job', hjob', heq⟩ := List.mem_map.mp hkey
        exact ⟨job', hjob', congrArg Prod.fst heq⟩
      have hperm' := hperm.append_right (items.map fun p => (weblog, p.1, p.2))
      rw [List.append_assoc, List.singleton_append] at hperm'
      obtain ⟨result', hresult', hkeys', hitems'⟩ := giveScenarios_eq_ok (hkeys ▸ hnodup) hmem
        ((hperm'.map scenarioKey).nodup_iff.mpr hitems)
      refine ⟨result', ?_, hkeys'.trans hkeys, hitems'.trans hperm'⟩
      rw [List.foldlM_cons, hgiven]
      exact hresult'

/-- The deletion of one job that is not the first of its weblog. -/
theorem Complete.delete {items : List (W × Str × T)} {result : List (Job W T)}
    (h : Complete items result) (hitems : (items.map scenarioKey).Nodup) {key : W × Nat}
    (hkey : key ∈ result.map Job.key) (hinstance : 2 ≤ key.2) :
    ∃ job result', result.find? (fun job => job.key = key) = some job ∧
      job.scenariosTimes.items.foldlM (giveScenario job.weblog)
        (result.eraseP fun job => job.key = key) = .ok result' ∧
      result'.map Job.key = (result.map Job.key).erase key ∧ Complete items result' := by
  obtain ⟨job, A, B, rfl, rfl, hfind, herase⟩ := find?_key_eq_some hkey
  have hnodup := h.nodup_key
  rw [(List.perm_middle.map Job.key).nodup_iff, List.map_cons, List.nodup_cons] at hnodup
  have hfirst : ∃ first ∈ A ++ B, first.key = (job.weblog, 1) := by
    obtain ⟨first, hmem, heq⟩ := List.mem_map.mp (h.first_instance job (by simp))
    refine ⟨first, ?_, heq⟩
    rcases List.mem_cons.mp (List.perm_middle.mem_iff.mp hmem) with rfl | hmem
    · have : first.weblogInstance = 1 := congrArg Prod.snd heq
      simp only [Job.key] at hinstance
      omega
    · exact hmem
  have hperm : (allItems (A ++ B) ++ job.items).Perm items :=
    (List.perm_append_comm.trans allItems_perm_of_mem.symm).trans h.items_perm
  obtain ⟨result', hresult', hkeys, hitems'⟩ := giveScenarios_eq_ok hnodup.2
    (hfirst.imp fun first hf => ⟨hf.1, congrArg Prod.fst hf.2⟩)
    ((hperm.map scenarioKey).nodup_iff.mpr hitems)
  have hmem : ∀ {x : Job W T}, x ∈ result' → x.key ∈ (A ++ B).map Job.key := fun hx =>
    hkeys ▸ List.mem_map_of_mem hx
  refine ⟨job, result', hfind, herase ▸ hresult', ?_, ?_, ?_, ?_, hitems'.trans hperm⟩
  · have hA : job.key ∉ A.map Job.key := fun hA => hnodup.1 (by
      rw [List.map_append]
      exact List.mem_append_left _ hA)
    rw [hkeys, List.map_append, List.map_append, List.map_cons, List.erase_append_right _ hA,
      List.erase_cons_head]
  · exact hkeys ▸ hnodup.2
  · intro x hx
    obtain ⟨y, hy, heq⟩ := List.mem_map.mp (hmem hx)
    have := h.instance_pos y (List.perm_middle.mem_iff.mpr (List.mem_cons_of_mem _ hy))
    rwa [show y.weblogInstance = x.weblogInstance from congrArg Prod.snd heq] at this
  · intro x hx
    obtain ⟨y, hy, heq⟩ := List.mem_map.mp (hmem hx)
    have hweblog : y.weblog = x.weblog := congrArg Prod.fst heq
    have hone := h.first_instance y (List.perm_middle.mem_iff.mpr (List.mem_cons_of_mem _ hy))
    rw [hweblog, (List.perm_middle.map Job.key).mem_iff, List.map_cons, List.mem_cons] at hone
    rw [hkeys]
    rcases hone with hone | hone
    · have : job.weblogInstance = 1 := (congrArg Prod.snd hone).symm
      simp only [Job.key] at hinstance
      omega
    · exact hone

/-- One pass over the jobs, those with the highest instance first. -/
theorem deletePass_ok {items : List (W × Str × T)} (hitems : (items.map scenarioKey).Nodup)
    {weblogs : List W} {maximum : Nat} (hmaximum : weblogs.length ≤ maximum) :
    ∀ {keys : List (W × Nat)} {result : List (Job W T)}, Complete items result →
      (∀ job ∈ result, job.weblog ∈ weblogs) → keys.Perm (result.map Job.key) →
      keys.Pairwise (fun a b => b.2 ≤ a.2) → maximum < result.length →
      ∃ result', deletePass maximum keys result = .ok result' ∧ Complete items result' ∧
        result'.length ≤ maximum
  | [], result, _, _, hperm, _, hlength => by
      have hnil : result = [] := by simpa using hperm
      rw [hnil] at hlength
      simp at hlength
  | key :: keys, result, hcomplete, hweblogs, hperm, hsorted, hlength => by
      have hkey : key ∈ result.map Job.key := hperm.mem_iff.mp List.mem_cons_self
      have hinstance : 2 ≤ key.2 := by
        obtain ⟨job, hjob, h2⟩ := exists_second_instance hcomplete hweblogs (by omega)
        have hmem : job.key ∈ key :: keys := hperm.mem_iff.mpr (List.mem_map_of_mem hjob)
        rcases List.mem_cons.mp hmem with heq | hmem
        · rw [← heq]
          exact h2
        · exact h2.trans ((List.pairwise_cons.mp hsorted).1 _ hmem)
      obtain ⟨job, result', hfind, hfold, hkeys, hcomplete'⟩ :=
        hcomplete.delete hitems hkey hinstance
      simp only [deletePass, hfind, Raised.ofOption_some, Raised.ok_bind, hfold]
      split_ifs with hdone
      · exact ⟨result', rfl, hcomplete', hdone⟩
      · refine deletePass_ok hitems hmaximum hcomplete' ?_ ?_ (List.pairwise_cons.mp hsorted).2
          (by omega)
        · intro x hx
          have hx' : x.key ∈ (result.map Job.key).erase key := hkeys ▸ List.mem_map_of_mem hx
          obtain ⟨y, hy, heq⟩ := List.mem_map.mp (List.mem_of_mem_erase hx')
          rw [← show y.weblog = x.weblog from congrArg Prod.fst heq]
          exact hweblogs y hy
        · rw [hkeys]
          exact (List.cons_perm_iff_perm_erase.mp hperm).2

/-- The loop ends after one pass. -/
theorem reduceJobs_ok {items : List (W × Str × T)} (hitems : (items.map scenarioKey).Nodup)
    {weblogs : List W} {maximum : Nat} (hmaximum : weblogs.length ≤ maximum) (rounds : Nat)
    {result : List (Job W T)} (h : Complete items result)
    (hweblogs : ∀ job ∈ result, job.weblog ∈ weblogs) :
    ∃ result', reduceJobs maximum (rounds + 1) result = some (.ok result') ∧
      Complete items result' ∧ result'.length ≤ maximum := by
  by_cases hlength : result.length ≤ maximum
  · exact ⟨result, by rw [reduceJobs, if_pos hlength], h, hlength⟩
  · obtain ⟨hperm, hsorted⟩ := deletionOrder_spec result
    obtain ⟨result', hpass, hcomplete, hle⟩ :=
      deletePass_ok hitems hmaximum h hweblogs hperm hsorted (by omega)
    refine ⟨result', ?_, hcomplete, hle⟩
    rw [reduceJobs, if_neg hlength, hpass]
    cases rounds with
    | zero => exact if_pos hle
    | succ rounds => exact if_pos hle

end Deletion

section Conserves

variable {W T : Type}

theorem weblog_of_mem_items {jobs : List (Job W T)} {x : W × Str × T} (h : x ∈ allItems jobs) :
    x.1 ∈ jobs.map Job.weblog := by
  obtain ⟨job, hjob, hweblog, _⟩ := mem_allItems.mp h
  exact hweblog ▸ List.mem_map_of_mem hjob

theorem nodup_scenarioKey_allItems :
    ∀ {jobs : List (Job W T)}, (jobs.map Job.weblog).Nodup →
      ((allItems jobs).map scenarioKey).Nodup
  | [], _ => by simp [allItems]
  | job :: jobs, h => by
      rw [List.map_cons, List.nodup_cons] at h
      rw [allItems_cons, List.map_append, List.nodup_append]
      refine ⟨job.nodup_scenarioKey_items, nodup_scenarioKey_allItems h.2, ?_⟩
      rintro _ ha _ hb rfl
      obtain ⟨x, hx, hxb⟩ := List.mem_map.mp hb
      obtain ⟨y, hy, hya⟩ := List.mem_map.mp ha
      obtain ⟨p, _, rfl⟩ := List.mem_map.mp hy
      refine h.1 ?_
      rw [show job.weblog = x.1 from congrArg Prod.fst (hya.trans hxb.symm)]
      exact weblog_of_mem_items hx

/-- Among jobs that run no scenario twice, a scenario of a weblog is in one job. -/
theorem eq_of_scenarioKey {result : List (Job W T)}
    (hnodup : ((allItems result).map scenarioKey).Nodup) {job job' : Job W T}
    (hjob : job ∈ result) (hjob' : job' ∈ result) (hweblog : job'.weblog = job.weblog)
    {scenario : Str} (hs : scenario ∈ job.scenariosTimes.keys)
    (hs' : scenario ∈ job'.scenariosTimes.keys) : job' = job := by
  obtain ⟨A, B, rfl⟩ := List.append_of_mem hjob
  rw [(allItems_perm_of_mem.map scenarioKey).nodup_iff, List.map_append, List.nodup_append] at hnodup
  have hkey : ∀ {x : Job W T}, scenario ∈ x.scenariosTimes.keys →
      (x.weblog, scenario) ∈ x.items.map scenarioKey := by
    intro x hx
    obtain ⟨p, hp, rfl⟩ := List.mem_map.mp hx
    exact List.mem_map.mpr ⟨_, List.mem_map_of_mem hp, rfl⟩
  rcases List.mem_cons.mp (List.perm_middle.mem_iff.mp hjob') with heq | hmem
  · exact heq
  · have hother : (job.weblog, scenario) ∈ (allItems (A ++ B)).map scenarioKey := by
      obtain ⟨x, hx, heq⟩ := List.mem_map.mp (hweblog ▸ hkey hs')
      exact List.mem_map.mpr ⟨x, List.mem_flatMap.mpr ⟨job', hmem, hx⟩, heq⟩
    exact absurd rfl (hnodup.2.2 _ (hkey hs) _ hother)

variable [Add T] [Sub T] [LE T] [LT T] [DecidableLE T] [DecidableLT T]

/-- After the splitting every scenario is in one job, before any is deleted. -/
theorem splitAll_complete (desired : T) :
    ∀ {jobs : List (Job W T)}, (jobs.map Job.weblog).Nodup →
      ∃ parts, jobs.mapM (fun job => job.splitForParallelExecution desired) = .ok parts ∧
        Complete (allItems jobs) parts.flatten ∧
        ∀ part ∈ parts.flatten, part.weblog ∈ jobs.map Job.weblog
  | [], _ => ⟨[], rfl, ⟨by simp, by simp, by simp, by simp [allItems]⟩, by simp⟩
  | job :: jobs, h => by
      rw [List.map_cons, List.nodup_cons] at h
      obtain ⟨split, hsplit, hkeys, hitems⟩ := splitForParallelExecution_items job desired
      obtain ⟨parts, hparts, hcomplete, hweblogs⟩ := splitAll_complete desired h.2
      have hkey : ∀ part ∈ split, part.weblog = job.weblog ∧ 1 ≤ part.weblogInstance ∧
          (job.weblog, 1) ∈ split.map Job.key := by
        intro part hpart
        have hmem : part.key ∈ split.map Job.key := List.mem_map_of_mem hpart
        rw [hkeys, List.mem_map] at hmem
        obtain ⟨i, hi, heq⟩ := hmem
        rw [List.mem_range'_1] at hi
        have hi' : part.weblogInstance = i := (congrArg Prod.snd heq).symm
        refine ⟨(congrArg Prod.fst heq).symm, by omega, ?_⟩
        rw [hkeys]
        exact List.mem_map_of_mem (List.mem_range'_1.mpr ⟨le_refl _, by omega⟩)
      refine ⟨split :: parts, ?_, ⟨?_, ?_, ?_, ?_⟩, ?_⟩
      · rw [List.mapM_cons, hsplit, Raised.ok_bind, hparts]
        rfl
      · rw [List.flatten_cons, List.map_append, List.nodup_append]
        refine ⟨?_, hcomplete.nodup_key, ?_⟩
        · rw [hkeys]
          exact (List.nodup_range' 1 (by decide)).map (Prod.mk_right_injective job.weblog)
        · rintro _ ha _ hb rfl
          obtain ⟨x, hx, hxb⟩ := List.mem_map.mp hb
          obtain ⟨y, hy, hya⟩ := List.mem_map.mp ha
          refine h.1 ?_
          rw [← (hkey y hy).1, show y.weblog = x.weblog from congrArg Prod.fst (hya.trans hxb.symm)]
          exact hweblogs x hx
      · intro part hpart
        rcases List.mem_append.mp (List.flatten_cons ▸ hpart) with hpart | hpart
        · exact (hkey part hpart).2.1
        · exact hcomplete.instance_pos part hpart
      · intro part hpart
        rw [List.flatten_cons, List.map_append, List.mem_append]
        rcases List.mem_append.mp (List.flatten_cons ▸ hpart) with hpart | hpart
        · exact Or.inl ((hkey part hpart).1 ▸ (hkey part hpart).2.2)
        · exact Or.inr (hcomplete.first_instance part hpart)
      · rw [List.flatten_cons, allItems_append, allItems_cons]
        exact hitems.append hcomplete.items_perm
      · intro part hpart
        rw [List.map_cons, List.mem_cons]
        rcases List.mem_append.mp (List.flatten_cons ▸ hpart) with hpart | hpart
        · exact Or.inl (hkey part hpart).1
        · exact Or.inr (hweblogs part hpart)

/-- The splitting ends with at most `maximum` jobs, told apart by weblog and
instance, and every scenario of a weblog is in one of them with its time. -/
theorem splitJobs_conserves [DecidableEq W] [Zero T] (rounds : Nat) {jobs : List (Job W T)}
    {maximum : Nat} (desired : T) (hweblogs : (jobs.map Job.weblog).Nodup)
    (hmaximum : jobs.length ≤ maximum) :
    ∃ result, splitJobsForParallelExecution (rounds + 1) jobs desired maximum = some (.ok result) ∧
      result.length ≤ maximum ∧ (result.map Job.key).Nodup ∧
      (allItems result).Perm (allItems jobs) ∧
      ∀ job ∈ jobs, ∀ scenario time, job.scenariosTimes.get? scenario = some time →
        ∃ r ∈ result, r.weblog = job.weblog ∧ r.scenariosTimes.get? scenario = some time ∧
          ∀ r' ∈ result, r'.weblog = job.weblog → scenario ∈ r'.scenariosTimes.keys → r' = r := by
  obtain ⟨parts, hparts, hcomplete, hpart⟩ := splitAll_complete desired hweblogs
  have hnodup := nodup_scenarioKey_allItems hweblogs
  have hlength : (jobs.map Job.weblog).length ≤ maximum := by rwa [List.length_map]
  obtain ⟨result, hresult, hcomplete', hle⟩ := reduceJobs_ok hnodup hlength rounds hcomplete hpart
  refine ⟨result, ?_, hle, hcomplete'.nodup_key, hcomplete'.items_perm, ?_⟩
  · rw [splitJobsForParallelExecution, hparts]
    exact hresult
  · intro job hjob scenario time htime
    have hmem : (job.weblog, scenario, time) ∈ allItems result :=
      hcomplete'.items_perm.mem_iff.mpr (mem_allItems.mpr ⟨job, hjob, rfl, htime⟩)
    obtain ⟨r, hr, hweblog, hrtime⟩ := mem_allItems.mp hmem
    refine ⟨r, hr, hweblog, hrtime, fun r' hr' hweblog' hs' => ?_⟩
    refine eq_of_scenarioKey ?_ hr hr' (hweblog'.trans hweblog.symm) ?_ hs'
    · exact (hcomplete'.items_perm.map scenarioKey).nodup_iff.mpr hnodup
    · exact (r.scenariosTimes.get?_isSome_iff scenario).mp (by rw [hrtime]; rfl)

theorem splitJobs_conserves_twoWeblogs :
    ∃ result, splitJobsForParallelExecution 1
        [⟨"java", 0, 1, ⟨[("DEFAULT", 5), ("APPSEC", 4), ("IAST", 3)], by decide⟩, 1⟩,
          ⟨"java", 1, 1, ⟨[("DEFAULT", 2)], by decide⟩, 1⟩] 6 2 = some (.ok result) ∧
      result.length ≤ 2 ∧ (result.map (Job.key (W := Nat) (T := Int))).Nodup :=
  (splitJobs_conserves 0 6 (by decide) (by decide)).imp
    fun _ h => ⟨h.1, h.2.1, h.2.2.1⟩

end Conserves

end Orchestration
end SystemTests
