import SystemTests.Foundation.Dict
import SystemTests.Foundation.Exception
import Mathlib.Logic.Relation

/-!
# The pipeline of other repositories (`utils/scripts/ci_orchestrators/external_gitlab_pipeline.py`)

The pipeline that a tracer's repository runs is the one of this repository, without the
jobs of other stages.  There the languages run at once, so a job needs `compute_pipeline`
only.  In a release, each language waits for a delayed job of its own instead.

**Results.**
* `get?_filterYaml`, `get?_prepared`: what stands under a key before the needs are rewritten.
* `updateNeeds_cases`: what the rewriting of the needs does.
* `acyclic_of_dead_ends`: a relation has no cycle if what is not part of it leads nowhere.
* `closed_iff`: when the pipeline that is generated names nothing that it has not.
-/

namespace SystemTests
namespace Gitlab
namespace External

open Foundation Foundation.Text

/-- An entry of a needs list: a name, or a mapping that may name a job. -/
inductive Need where
  | name (job : Str)
  | mapping (job : Option Str)
deriving DecidableEq

def Need.job : Need → Option Str
  | .name job => some job
  | .mapping job => job

/-- What is read and written of a mapping.  `needs` is the list that stands there, if a
list stands there; `extends` has one name or many. -/
structure Mapping where
  stage : Option Str
  parents : List Str
  needs : Option (List Need)
  startIn : Option Str
deriving DecidableEq

/-- What stands under a key of the file. -/
inductive Entry where
  | mapping (m : Mapping)
  | value
deriving DecidableEq

/-- The file: its `stages` section, and its other keys. -/
structure Pipeline where
  stages : Option (List Str)
  entries : Dict Str Entry
deriving DecidableEq

/-- `LANG_STAGES` -/
def langStages : List Str :=
  ["cpp_httpd", "cpp_nginx", "dotnet", "java", "nodejs", "php", "python", "ruby"]

def sections : List Str := ["include", "variables", "stages"]

def computePipeline : Str := "compute_pipeline"

def delayedBaseJob : Str := ".delayed_base_job"

/-- `job_name.startswith(".")` -/
def hidden (name : Str) : Bool := name.head? == some '.'

def isAllowedStage (stage language : Option Str) : Bool :=
  if language.getD [] = [] ∨ language.getD [] ∉ langStages then
    (∃ s ∈ stage, s ∈ langStages) ∨ stage = some "configure".toList ∨
      stage = some "pipeline-status".toList
  else
    stage = language ∨ stage = some "configure".toList ∨ stage = some "pipeline-status".toList

/-- The condition of `allowed_jobs`. -/
def isAllowedJob (language : Option Str) : Str × Entry → Bool
  | (name, .mapping m) => hidden name || isAllowedStage m.stage language
  | (_, .value) => false

def filterYaml (file : Pipeline) (language : Option Str) : Pipeline where
  stages := file.stages.map (·.filter fun stage => isAllowedStage (some stage) language)
  entries := Dict.empty.setAll
    ((sections.filterMap fun key => (file.entries.get? key).map (key, ·)) ++
      file.entries.items.filter (isAllowedJob language))

def delayedTrigger (stage : Str) : Str := "delayed_".toList ++ stage ++ "_trigger".toList

def triggerJob (stage : Str) (delayed : Nat) : Mapping where
  stage := some stage
  parents := [delayedBaseJob]
  needs := some [.name computePipeline]
  startIn := some (Nat.toDigits 10 delayed ++ " minutes".toList)

/-- The jobs that are added for the stages, each three minutes later than the one before. -/
def triggerJobs : Nat → List Str → List (Str × Entry)
  | _, [] => []
  | delayed, stage :: stages =>
      (delayedTrigger stage, .mapping (triggerJob stage delayed)) ::
        triggerJobs (delayed + 3) stages

/-- The stages of a file that are a language, as often as they are there. -/
def definedLangStages (file : Pipeline) : List Str :=
  (file.stages.getD []).filter (· ∈ langStages)

/-- `lang_stage_count > 1 and is_release` -/
def delaying (file : Pipeline) (ciCommitTag : Option Str) : Bool :=
  1 < (definedLangStages file).length ∧ ciCommitTag.getD [] ≠ []

/-- `'compute_pipeline'` is present and there is more than one value. -/
def Mapping.needsMore (m : Mapping) : Bool :=
  (m.needs.getD []).contains (.name computePipeline) && decide (1 < (m.needs.getD []).length)

def updateNeeds (delaying : Bool) (m : Mapping) : Except Raised Mapping :=
  if m.needsMore then
    if delaying then
      match m.stage with
      | none => .error (.keyError "stage")
      | some stage =>
          .ok { m with needs := some [.name computePipeline, .name (delayedTrigger stage)] }
    else .ok { m with needs := some [.name computePipeline] }
  else .ok m

def updateEntry (delaying : Bool) : Entry → Except Raised Entry
  | .mapping m => do
      let m ← updateNeeds delaying m
      return .mapping m
  | .value => .ok .value

/-- The entries with the delayed jobs among them. -/
def prepared (file : Pipeline) (ciCommitTag : Option Str) : Dict Str Entry :=
  if delaying file ciCommitTag then file.entries.setAll (triggerJobs 3 (definedLangStages file))
  else file.entries

def handleParallelism (file : Pipeline) (ciCommitTag : Option Str) : Except Raised Pipeline := do
  let entries ← (prepared file ciCommitTag).mapValuesM fun _ =>
    updateEntry (delaying file ciCommitTag)
  return ⟨file.stages, entries⟩

/-- What `main` prints, for a language and a value of `CI_COMMIT_TAG`. -/
def generate (file : Pipeline) (language ciCommitTag : Option Str) : Except Raised Pipeline :=
  handleParallelism (filterYaml file language) ciCommitTag

section Cycles

variable {α : Type}

def Acyclic (R : α → α → Prop) : Prop := ∀ a, ¬ Relation.TransGen R a a

theorem Acyclic.mono {R S : α → α → Prop} (hS : Acyclic S) (h : ∀ a b, R a b → S a b) :
    Acyclic R :=
  fun a hcycle => hS a (Relation.TransGen.mono (fun a b => h a b) a a hcycle)

/-- A relation has no cycle if every pair of it belongs to one that has none, or leads to
where at most one more step is possible. -/
theorem acyclic_of_dead_ends {R D : α → α → Prop} (hD : Acyclic D)
    (h : ∀ a b, R a b → D a b ∨ ∀ c, R b c → ∀ d, ¬ R c d) : Acyclic R := by
  have hpath : ∀ a b, Relation.TransGen R a b →
      Relation.TransGen D a b ∨ ∀ c, R b c → ∀ d, ¬ R c d := by
    intro a b hab
    induction hab with
    | single hab =>
        exact (h _ _ hab).imp_left Relation.TransGen.single
    | @tail b c _ hbc ih =>
        rcases ih with hD | hdead
        · exact (h _ _ hbc).imp_left hD.tail
        · exact Or.inr fun d hcd => absurd hcd (hdead c hbc d)
  intro a hcycle
  rcases hpath a a hcycle with hcycle' | hdead
  · exact hD a hcycle'
  · -- the cycle goes on from where it should end
    obtain ⟨b, hab, hba⟩ := Relation.TransGen.head'_iff.mp hcycle
    rcases Relation.ReflTransGen.cases_head hba with rfl | ⟨c, hbc, _⟩
    · exact hdead b hab b hab
    · exact hdead b hab c hbc

end Cycles

section Names

/-- A job that may run. -/
def IsJob (name : Str) : Prop := hidden name = false ∧ name ∉ sections

instance (name : Str) : Decidable (IsJob name) := by
  unfold IsJob
  infer_instance

theorem isJob_of_head {name : Str} {c : Char} (h : name.head? = some c)
    (hdot : c ≠ '.') (hsections : ∀ key ∈ sections, key.head? ≠ some c) : IsJob name := by
  refine ⟨?_, fun hmem => hsections name hmem h⟩
  rw [hidden, h]
  simpa using hdot

theorem head?_delayedTrigger (stage : Str) : (delayedTrigger stage).head? = some 'd' := rfl

theorem isJob_delayedTrigger (stage : Str) : IsJob (delayedTrigger stage) :=
  isJob_of_head (head?_delayedTrigger stage) (by decide) (by decide)

theorem isJob_computePipeline : IsJob computePipeline :=
  isJob_of_head (c := 'c') rfl (by decide) (by decide)

theorem delayedTrigger_ne_computePipeline (stage : Str) :
    delayedTrigger stage ≠ computePipeline := by
  intro h
  have hhead := congrArg List.head? h
  rw [head?_delayedTrigger] at hhead
  revert hhead
  decide

theorem delayedTrigger_ne_of_hidden {name : Str} (h : hidden name = true) (stage : Str) :
    delayedTrigger stage ≠ name := by
  rintro rfl
  rw [(isJob_delayedTrigger stage).1] at h
  cases h

theorem delayedTrigger_injective {s t : Str} (h : delayedTrigger s = delayedTrigger t) : s = t := by
  unfold delayedTrigger at h
  rwa [List.append_left_inj, List.append_right_inj] at h

theorem hidden_delayedBaseJob : hidden delayedBaseJob = true := rfl

theorem isAllowedStage_configure (language : Option Str) :
    isAllowedStage (some "configure".toList) language = true := by
  unfold isAllowedStage
  split_ifs <;> simp

theorem isAllowedStage_cases {stage : Str} {language : Option Str}
    (h : isAllowedStage (some stage) language = true) :
    stage ∈ langStages ∨ stage = "configure".toList ∨ stage = "pipeline-status".toList := by
  unfold isAllowedStage at h
  split_ifs at h with hlanguage
  · simpa using h
  · rw [not_or, not_not] at hlanguage
    rw [decide_eq_true_iff, Option.some.injEq, Option.some.injEq] at h
    refine h.imp_left ?_
    rintro rfl
    exact hlanguage.2

end Names

section Filtering

variable {file : Pipeline} {language : Option Str}

/-- What is kept of the file: the sections, the templates and the jobs of the stages. -/
theorem get?_filterYaml {name : Str} {e : Entry} :
    (filterYaml file language).entries.get? name = some e ↔
      file.entries.get? name = some e ∧
        (name ∈ sections ∨ isAllowedJob language (name, e) = true) := by
  have hitem : ∀ e, (name, e) ∈
      (sections.filterMap fun key => (file.entries.get? key).map (key, ·)) ++
        file.entries.items.filter (isAllowedJob language) ↔
      file.entries.get? name = some e ∧
        (name ∈ sections ∨ isAllowedJob language (name, e) = true) := by
    intro e
    rw [List.mem_append, List.mem_filterMap, List.mem_filter, Dict.mem_items_iff, and_or_left]
    refine or_congr_left ⟨?_, fun h => ⟨name, h.2, by rw [h.1]; rfl⟩⟩
    rintro ⟨key, hkey, he⟩
    obtain ⟨e', he', he⟩ := Option.map_eq_some_iff.mp he
    rw [Prod.mk.injEq] at he
    obtain ⟨rfl, rfl⟩ := he
    exact ⟨he', hkey⟩
  unfold filterYaml
  constructor
  · intro h
    rcases Dict.get?_setAll_cases h with hmem | hempty
    · exact (hitem e).mp hmem
    · rw [Dict.get?_empty] at hempty
      cases hempty
  · intro h
    obtain ⟨e', he', hmem⟩ := Dict.exists_get?_setAll Dict.empty
      (List.mem_map_of_mem (f := Prod.fst) ((hitem e).mpr h))
    obtain rfl : e' = e := by
      have hfile := ((hitem e').mp hmem).1
      rwa [h.1, Option.some.injEq, eq_comm] at hfile
    exact he'

theorem mem_stages_filterYaml {stage : Str} :
    stage ∈ (filterYaml file language).stages.getD [] ↔
      stage ∈ file.stages.getD [] ∧ isAllowedStage (some stage) language = true := by
  unfold filterYaml
  cases file.stages with
  | none => simp
  | some stages => simp

/-- The languages whose stages are kept. -/
def keptLangStages (file : Pipeline) (language : Option Str) : List Str :=
  (file.stages.getD []).filter fun stage => stage ∈ langStages ∧ isAllowedStage (some stage) language

theorem definedLangStages_filterYaml :
    definedLangStages (filterYaml file language) = keptLangStages file language := by
  unfold definedLangStages keptLangStages filterYaml
  cases file.stages with
  | none => rfl
  | some stages =>
      simp only [Option.map_some, Option.getD_some, List.filter_filter, Bool.decide_and,
        Bool.decide_eq_true]

end Filtering

section Updating

variable {file : Pipeline} {ciCommitTag : Option Str}

theorem mem_triggerJobs {name : Str} {e : Entry} :
    ∀ {delayed : Nat} {stages : List Str}, (name, e) ∈ triggerJobs delayed stages →
      ∃ stage ∈ stages, ∃ n, name = delayedTrigger stage ∧ e = .mapping (triggerJob stage n)
  | _, [], h => by simp [triggerJobs] at h
  | delayed, stage :: stages, h => by
      rw [triggerJobs, List.mem_cons, Prod.mk.injEq] at h
      rcases h with ⟨rfl, rfl⟩ | h
      · exact ⟨stage, List.mem_cons_self, delayed, rfl, rfl⟩
      · obtain ⟨stage', hmem, n, hname, he⟩ := mem_triggerJobs h
        exact ⟨stage', List.mem_cons_of_mem stage hmem, n, hname, he⟩

theorem keys_triggerJobs :
    ∀ (delayed : Nat) (stages : List Str),
      (triggerJobs delayed stages).map Prod.fst = stages.map delayedTrigger
  | _, [] => rfl
  | delayed, stage :: stages => by
      rw [triggerJobs, List.map_cons, List.map_cons, keys_triggerJobs (delayed + 3) stages]

theorem get?_prepared_trigger (hdelaying : delaying file ciCommitTag = true) {stage : Str}
    (hstage : stage ∈ definedLangStages file) :
    ∃ n, (prepared file ciCommitTag).get? (delayedTrigger stage) =
      some (.mapping (triggerJob stage n)) := by
  rw [prepared, if_pos hdelaying]
  have hkey : delayedTrigger stage ∈ (triggerJobs 3 (definedLangStages file)).map Prod.fst := by
    rw [keys_triggerJobs]
    exact List.mem_map_of_mem hstage
  obtain ⟨e, he, hmem⟩ := Dict.exists_get?_setAll file.entries hkey
  obtain ⟨stage', _, n, hname, rfl⟩ := mem_triggerJobs hmem
  obtain rfl := delayedTrigger_injective hname
  exact ⟨n, he⟩

/-- The other entries are those of the file. -/
theorem get?_prepared_of_ne {name : Str} (h : delaying file ciCommitTag = true →
      ∀ stage ∈ definedLangStages file, name ≠ delayedTrigger stage) :
    (prepared file ciCommitTag).get? name = file.entries.get? name := by
  unfold prepared
  split
  next hdelaying =>
    refine Dict.get?_setAll_of_not_mem _ ?_
    rw [keys_triggerJobs, List.mem_map]
    rintro ⟨stage, hstage, hname⟩
    exact h hdelaying stage hstage hname.symm
  next => rfl

theorem updateNeeds_cases {delaying : Bool} {m m' : Mapping}
    (h : updateNeeds delaying m = .ok m') :
    (m.needsMore = false ∧ m' = m) ∨
    (m.needsMore = true ∧ delaying = false ∧
      m' = { m with needs := some [.name computePipeline] }) ∨
    (m.needsMore = true ∧ delaying = true ∧ ∃ stage, m.stage = some stage ∧
      m' = { m with needs := some [.name computePipeline, .name (delayedTrigger stage)] }) := by
  unfold updateNeeds at h
  split_ifs at h with hmore hdelaying
  · split at h
    · cases h
    · next stage hstage =>
      exact Or.inr (Or.inr ⟨hmore, hdelaying, stage, hstage, (Except.ok.inj h).symm⟩)
  · exact Or.inr (Or.inl ⟨hmore, Bool.eq_false_iff.mpr hdelaying, (Except.ok.inj h).symm⟩)
  · exact Or.inl ⟨Bool.eq_false_iff.mpr hmore, (Except.ok.inj h).symm⟩

theorem updateNeeds_of_not_needsMore {delaying : Bool} {m : Mapping} (h : m.needsMore = false) :
    updateNeeds delaying m = .ok m := by
  rw [updateNeeds, if_neg (by rw [h]; exact Bool.false_ne_true)]

theorem updateNeeds_delaying {m : Mapping} {stage : Str} (hmore : m.needsMore = true)
    (hstage : m.stage = some stage) : updateNeeds true m =
      .ok { m with needs := some [.name computePipeline, .name (delayedTrigger stage)] } := by
  rw [updateNeeds, if_pos hmore, if_pos rfl, hstage]

/-- Only a job without a stage cannot be delayed. -/
theorem exists_updateNeeds {delaying : Bool} {m : Mapping}
    (h : delaying = true → m.needsMore = true → m.stage ≠ none) :
    ∃ m', updateNeeds delaying m = .ok m' := by
  unfold updateNeeds
  split_ifs with hmore hdelaying
  · obtain ⟨stage, hstage⟩ := Option.ne_none_iff_exists'.mp (h hdelaying hmore)
    rw [hstage]
    exact ⟨_, rfl⟩
  · exact ⟨_, rfl⟩
  · exact ⟨_, rfl⟩

theorem updateEntry_eq_mapping {delaying : Bool} {e : Entry} {m' : Mapping} :
    updateEntry delaying e = .ok (.mapping m') ↔
      ∃ m, e = .mapping m ∧ updateNeeds delaying m = .ok m' := by
  cases e with
  | value => simp [updateEntry]
  | mapping m => simp [updateEntry, Raised.map_eq_ok]

variable {result : Pipeline}

theorem handleParallelism_eq_ok (h : handleParallelism file ciCommitTag = .ok result) :
    result.stages = file.stages ∧
      ((prepared file ciCommitTag).mapValuesM fun _ =>
        updateEntry (delaying file ciCommitTag)) = .ok result.entries := by
  obtain ⟨entries, hentries, h⟩ := Raised.bind_eq_ok.mp h
  cases h
  exact ⟨rfl, hentries⟩

theorem get?_of_handleParallelism (h : handleParallelism file ciCommitTag = .ok result)
    (name : Str) (m' : Mapping) :
    result.entries.get? name = some (.mapping m') ↔
      ∃ m, (prepared file ciCommitTag).get? name = some (.mapping m) ∧
        updateNeeds (delaying file ciCommitTag) m = .ok m' := by
  rcases Dict.get?_of_mapValuesM (handleParallelism_eq_ok h).2 name with
    ⟨hbefore, hafter⟩ | ⟨e, e', hbefore, hupdate, hafter⟩
  · rw [hbefore, hafter]
    simp
  · rw [hbefore, hafter, Option.some.injEq]
    constructor
    · rintro rfl
      obtain ⟨m, rfl, hm⟩ := updateEntry_eq_mapping.mp hupdate
      exact ⟨m, rfl, hm⟩
    · rintro ⟨m, he, hm⟩
      rw [Option.some.injEq] at he
      have hmapping := updateEntry_eq_mapping.mpr ⟨m, he, hm⟩
      exact Except.ok.inj (hupdate.symm.trans hmapping)

theorem mem_keys_of_handleParallelism (h : handleParallelism file ciCommitTag = .ok result)
    (name : Str) :
    name ∈ result.entries.keys ↔ ∃ e, (prepared file ciCommitTag).get? name = some e := by
  rw [Dict.keys_of_mapValuesM (handleParallelism_eq_ok h).2, ← Dict.get?_isSome_iff,
    Option.isSome_iff_exists]

end Updating

section Closing

/-- The job `a` needs the job `b`. -/
def Needs (p : Pipeline) (a b : Str) : Prop :=
  IsJob a ∧ ∃ m, p.entries.get? a = some (.mapping m) ∧ ∃ need ∈ m.needs.getD [], need.job = some b

/-- What the pipelines are written by. -/
structure WellFormed (file : Pipeline) : Prop where
  parents : ∀ name m, file.entries.get? name = some (.mapping m) → ∀ parent ∈ m.parents,
    hidden parent = true ∧ ∃ m', file.entries.get? parent = some (.mapping m')
  needs : ∀ name m, file.entries.get? name = some (.mapping m) → ∀ need ∈ m.needs.getD [],
    ∀ job ∈ need.job, IsJob job ∧ ∃ m', file.entries.get? job = some (.mapping m')
  stages : ∀ name m, IsJob name → file.entries.get? name = some (.mapping m) →
    ∀ stage ∈ m.stage, stage ∈ file.stages.getD []
  configure : ∃ m, file.entries.get? computePipeline = some (.mapping m) ∧
    m.stage = some "configure".toList
  needsCompute : ∀ name m, IsJob name → file.entries.get? name = some (.mapping m) →
    ∀ stage ∈ m.stage, stage ∈ langStages ∨ stage = "configure".toList ∨
      stage = "pipeline-status".toList →
    m.needs.getD [] ≠ [] → Need.name computePipeline ∈ m.needs.getD []

/-- Every name that is used is there. -/
structure Closed (p : Pipeline) : Prop where
  parents : ∀ name m, p.entries.get? name = some (.mapping m) → ∀ parent ∈ m.parents,
    parent ∈ p.entries.keys
  needs : ∀ a b, Needs p a b → b ∈ p.entries.keys
  stages : ∀ name m, IsJob name → p.entries.get? name = some (.mapping m) →
    ∀ stage ∈ m.stage, stage ∈ p.stages.getD []

def GeneratesClosed (file : Pipeline) (language ciCommitTag : Option Str) : Prop :=
  ∃ result, generate file language ciCommitTag = .ok result ∧ Closed result ∧
    (Acyclic (Needs file) → Acyclic (Needs result))

/-- The mapping is kept. -/
def Kept (file : Pipeline) (language : Option Str) (name : Str) (m : Mapping) : Prop :=
  file.entries.get? name = some (.mapping m) ∧
    (name ∈ sections ∨ isAllowedJob language (name, .mapping m) = true)

/-- The mapping is kept, with more needs than one, and no added job takes its place. -/
structure Delayed (file : Pipeline) (language : Option Str) (name : Str) (m : Mapping) : Prop where
  kept : Kept file language name m
  needsMore : m.needsMore = true
  remains : ∀ stage ∈ keptLangStages file language, name ≠ delayedTrigger stage

/-- The job `a` is delayed by `b`, and its stage is no language. -/
def WaitsFor (file : Pipeline) (language : Option Str) (a b : Str) : Prop :=
  IsJob a ∧ ∃ m, Delayed file language a m ∧
    ∃ stage ∈ m.stage, stage ∉ langStages ∧ b = delayedTrigger stage

/-- What the delays of a release rest on. -/
structure Delayable (file : Pipeline) (language : Option Str) : Prop where
  base : ∃ m, file.entries.get? delayedBaseJob = some (.mapping m)
  staged : ∀ name m, Delayed file language name m → m.stage ≠ none
  triggers : ∀ a b, WaitsFor file language a b → ∃ m, Kept file language b m
  acyclic : Acyclic (Needs file) → Acyclic (WaitsFor file language)

variable {file : Pipeline} {language ciCommitTag : Option Str}

theorem Kept.get? {name : Str} {m : Mapping} (h : Kept file language name m) :
    (filterYaml file language).entries.get? name = some (.mapping m) :=
  get?_filterYaml.mpr h

theorem kept_of_hidden {name : Str} {m : Mapping} (h : hidden name = true)
    (hfile : file.entries.get? name = some (.mapping m)) : Kept file language name m :=
  ⟨hfile, Or.inr (by rw [isAllowedJob, h, Bool.true_or])⟩

theorem exists_mapping_of_kept {name : Str} {e : Entry} (hname : name ∉ sections)
    (h : (filterYaml file language).entries.get? name = some e) :
    ∃ m, Kept file language name m := by
  have hkept := get?_filterYaml.mp h
  cases e with
  | value => simp [isAllowedJob, hname] at hkept
  | mapping m => exact ⟨m, hkept⟩

/-- A job is kept for its stage. -/
theorem stage_of_kept {name : Str} {m : Mapping} (hjob : IsJob name)
    (h : Kept file language name m) : isAllowedStage m.stage language = true := by
  have hallowed := h.2.resolve_left hjob.2
  rwa [isAllowedJob, hjob.1, Bool.false_or] at hallowed

theorem not_isAllowedStage_none : isAllowedStage none language = false := by
  unfold isAllowedStage
  split_ifs with hlanguage
  · simp
  · cases language with
    | none => simp at hlanguage
    | some language => simp

theorem exists_stage_of_kept {name : Str} {m : Mapping} (hjob : IsJob name)
    (h : Kept file language name m) :
    ∃ stage, m.stage = some stage ∧ isAllowedStage (some stage) language = true := by
  have hstage := stage_of_kept hjob h
  cases hm : m.stage with
  | none =>
      rw [hm, not_isAllowedStage_none] at hstage
      cases hstage
  | some stage => exact ⟨stage, rfl, hm ▸ hstage⟩

/-- An entry of the pipeline that is generated is a delayed job, or one of the file. -/
theorem get?_generate {result : Pipeline} (h : generate file language ciCommitTag = .ok result)
    {name : Str} {m' : Mapping} (hname : result.entries.get? name = some (.mapping m')) :
    (delaying (filterYaml file language) ciCommitTag = true ∧
      ∃ stage ∈ keptLangStages file language, ∃ n,
        name = delayedTrigger stage ∧ m' = triggerJob stage n) ∨
    ((delaying (filterYaml file language) ciCommitTag = true →
        ∀ stage ∈ keptLangStages file language, name ≠ delayedTrigger stage) ∧
      ∃ m, Kept file language name m ∧
        updateNeeds (delaying (filterYaml file language) ciCommitTag) m = .ok m') := by
  obtain ⟨m, hm, hupdate⟩ := (get?_of_handleParallelism h name m').mp hname
  by_cases htrigger : delaying (filterYaml file language) ciCommitTag = true ∧
      ∃ stage ∈ keptLangStages file language, name = delayedTrigger stage
  · obtain ⟨hdelaying, stage, hstage, rfl⟩ := htrigger
    obtain ⟨n, hn⟩ := get?_prepared_trigger hdelaying
      (definedLangStages_filterYaml.symm ▸ hstage)
    rw [hn, Option.some.injEq, Entry.mapping.injEq] at hm
    rw [← hm, updateNeeds_of_not_needsMore rfl, Except.ok.injEq] at hupdate
    exact Or.inl ⟨hdelaying, stage, hstage, n, rfl, hupdate.symm⟩
  · have hremains : delaying (filterYaml file language) ciCommitTag = true →
        ∀ stage ∈ keptLangStages file language, name ≠ delayedTrigger stage :=
      fun hdelaying stage hstage hname => htrigger ⟨hdelaying, stage, hstage, hname⟩
    rw [get?_prepared_of_ne (by rwa [definedLangStages_filterYaml])] at hm
    exact Or.inr ⟨hremains, m, get?_filterYaml.mp hm, hupdate⟩

theorem get?_generate_of_kept {result : Pipeline}
    (h : generate file language ciCommitTag = .ok result) {name : Str} {m m' : Mapping}
    (hkept : Kept file language name m)
    (hremains : delaying (filterYaml file language) ciCommitTag = true →
      ∀ stage ∈ keptLangStages file language, name ≠ delayedTrigger stage)
    (hupdate : updateNeeds (delaying (filterYaml file language) ciCommitTag) m = .ok m') :
    result.entries.get? name = some (.mapping m') := by
  refine (get?_of_handleParallelism h name m').mpr ⟨m, ?_, hupdate⟩
  rw [get?_prepared_of_ne (by rwa [definedLangStages_filterYaml])]
  exact hkept.get?

theorem mem_keys_of_trigger {result : Pipeline}
    (h : generate file language ciCommitTag = .ok result)
    (hdelaying : delaying (filterYaml file language) ciCommitTag = true) {stage : Str}
    (hstage : stage ∈ keptLangStages file language) :
    delayedTrigger stage ∈ result.entries.keys := by
  obtain ⟨n, hn⟩ := get?_prepared_trigger hdelaying (definedLangStages_filterYaml.symm ▸ hstage)
  exact (mem_keys_of_handleParallelism h _).mpr ⟨_, hn⟩

theorem mem_keys_of_kept {result : Pipeline} (h : generate file language ciCommitTag = .ok result)
    {name : Str} {m : Mapping} (hkept : Kept file language name m) :
    name ∈ result.entries.keys := by
  by_cases htrigger : delaying (filterYaml file language) ciCommitTag = true ∧
      ∃ stage ∈ keptLangStages file language, name = delayedTrigger stage
  · obtain ⟨hdelaying, stage, hstage, rfl⟩ := htrigger
    exact mem_keys_of_trigger h hdelaying hstage
  · refine (mem_keys_of_handleParallelism h _).mpr ⟨.mapping m, ?_⟩
    rw [get?_prepared_of_ne]
    · exact hkept.get?
    · rw [definedLangStages_filterYaml]
      exact fun hdelaying stage hstage hname => htrigger ⟨hdelaying, stage, hstage, hname⟩

/-- A name that no job is added under is there if the file's entry is kept. -/
theorem get?_of_mem_keys {result : Pipeline} (h : generate file language ciCommitTag = .ok result)
    {name : Str} (hremains : ∀ stage ∈ keptLangStages file language, name ≠ delayedTrigger stage)
    (hsections : name ∉ sections) (hname : name ∈ result.entries.keys) :
    ∃ m, Kept file language name m := by
  obtain ⟨e, he⟩ := (mem_keys_of_handleParallelism h _).mp hname
  rw [get?_prepared_of_ne fun _ => by rwa [definedLangStages_filterYaml]] at he
  exact exists_mapping_of_kept hsections he

/-- The pipeline is generated if every job that is delayed has a stage. -/
theorem exists_generate (h : delaying (filterYaml file language) ciCommitTag = true →
      ∀ name m, Delayed file language name m → m.stage ≠ none) :
    ∃ result, generate file language ciCommitTag = .ok result := by
  obtain ⟨entries, hentries⟩ := Dict.exists_mapValuesM_eq_ok
    (d := prepared (filterYaml file language) ciCommitTag)
    (f := fun _ => updateEntry (delaying (filterYaml file language) ciCommitTag)) (by
      rintro ⟨name, e⟩ hitem
      rw [Dict.mem_items_iff] at hitem
      cases e with
      | value => exact ⟨_, rfl⟩
      | mapping m =>
          obtain ⟨m', hm'⟩ : ∃ m',
              updateNeeds (delaying (filterYaml file language) ciCommitTag) m = .ok m' := by
            refine exists_updateNeeds fun hdelaying hmore => ?_
            by_cases htrigger : ∃ stage ∈ keptLangStages file language, name = delayedTrigger stage
            · obtain ⟨stage, hstage, rfl⟩ := htrigger
              obtain ⟨n, hn⟩ := get?_prepared_trigger hdelaying
                (definedLangStages_filterYaml.symm ▸ hstage)
              rw [hn, Option.some.injEq, Entry.mapping.injEq] at hitem
              rw [← hitem]
              exact Option.some_ne_none stage
            · have hremains : ∀ stage ∈ keptLangStages file language,
                  name ≠ delayedTrigger stage :=
                fun stage hstage hname => htrigger ⟨stage, hstage, hname⟩
              rw [get?_prepared_of_ne fun _ => by rwa [definedLangStages_filterYaml]] at hitem
              exact h hdelaying name m ⟨get?_filterYaml.mp hitem, hmore, hremains⟩
          exact ⟨.mapping m', updateEntry_eq_mapping.mpr ⟨m, rfl, hm'⟩⟩)
  refine ⟨⟨(filterYaml file language).stages, entries⟩, ?_⟩
  rw [generate, handleParallelism, hentries]
  rfl

theorem mem_keptLangStages {stage : Str} :
    stage ∈ keptLangStages file language ↔ stage ∈ file.stages.getD [] ∧ stage ∈ langStages ∧
      isAllowedStage (some stage) language = true := by
  rw [keptLangStages, List.mem_filter, decide_eq_true_iff]

theorem WellFormed.kept_computePipeline (hfile : WellFormed file) :
    ∃ m, Kept file language computePipeline m := by
  obtain ⟨m, hm, hstage⟩ := hfile.configure
  refine ⟨m, hm, Or.inr ?_⟩
  rw [isAllowedJob, hstage, isAllowedStage_configure, Bool.or_true]

theorem WellFormed.mem_keptLangStages (hfile : WellFormed file) {name : Str} {m : Mapping}
    (hjob : IsJob name) (hkept : Kept file language name m) {stage : Str}
    (hstage : m.stage = some stage) (hlang : stage ∈ langStages) :
    stage ∈ keptLangStages file language := by
  have hallowed := stage_of_kept hjob hkept
  rw [hstage] at hallowed
  exact External.mem_keptLangStages.mpr
    ⟨hfile.stages name m hjob hkept.1 stage hstage, hlang, hallowed⟩

/-- What remains in a needs list that is not rewritten. -/
theorem WellFormed.eq_computePipeline (hfile : WellFormed file) {name : Str} {m : Mapping}
    (hjob : IsJob name) (hkept : Kept file language name m) (hmore : m.needsMore = false)
    {need : Need} (hneed : need ∈ m.needs.getD []) : need = .name computePipeline := by
  obtain ⟨stage, hstage, hallowed⟩ := exists_stage_of_kept hjob hkept
  have hcompute := hfile.needsCompute name m hjob hkept.1 stage hstage
    (isAllowedStage_cases hallowed) (List.ne_nil_of_mem hneed)
  rw [Mapping.needsMore, Bool.and_eq_false_iff, List.contains_iff_mem.mpr hcompute,
    decide_eq_false_iff_not, not_lt] at hmore
  have hlength := hmore.resolve_left (by decide)
  obtain ⟨other, hother⟩ := List.length_eq_one_iff.mp
    (le_antisymm hlength (List.length_pos_of_mem hneed))
  rw [hother, List.mem_singleton] at hneed hcompute
  rw [hneed, ← hcompute]

/-- What a job of the generated pipeline needs. -/
theorem needs_generate (hfile : WellFormed file) {result : Pipeline}
    (h : generate file language ciCommitTag = .ok result) {a b : Str} (hab : Needs result a b) :
    b = computePipeline ∨ (delaying (filterYaml file language) ciCommitTag = true ∧
      ((∃ stage ∈ keptLangStages file language, b = delayedTrigger stage) ∨
        WaitsFor file language a b)) := by
  obtain ⟨hjob, m', hm', need, hneed, hb⟩ := hab
  have hcompute : need = .name computePipeline → b = computePipeline := by
    rintro rfl
    exact (Option.some.inj hb).symm
  rcases get?_generate h hm' with ⟨_, stage, _, n, _, rfl⟩ | ⟨hremains, m, hkept, hupdate⟩
  · exact Or.inl (hcompute (List.mem_singleton.mp hneed))
  · rcases updateNeeds_cases hupdate with
      ⟨hmore, rfl⟩ | ⟨_, _, rfl⟩ | ⟨hmore, hdelaying, stage, hstage, rfl⟩
    · exact Or.inl (hcompute (hfile.eq_computePipeline hjob hkept hmore hneed))
    · exact Or.inl (hcompute (List.mem_singleton.mp hneed))
    · rcases List.mem_pair.mp hneed with hneed | rfl
      · exact Or.inl (hcompute hneed)
      · obtain rfl : delayedTrigger stage = b := Option.some.inj hb
        refine Or.inr ⟨hdelaying, ?_⟩
        by_cases hlang : stage ∈ langStages
        · exact Or.inl ⟨stage, hfile.mem_keptLangStages hjob hkept hstage hlang, rfl⟩
        · exact Or.inr ⟨hjob, m, ⟨hkept, hmore, hremains hdelaying⟩, stage, hstage, hlang, rfl⟩

theorem closed_generate (hfile : WellFormed file) {result : Pipeline}
    (h : generate file language ciCommitTag = .ok result)
    (hdelayable : delaying (filterYaml file language) ciCommitTag = true →
      Delayable file language) : Closed result := by
  constructor
  case parents =>
    intro name m' hm' parent hparent
    rcases get?_generate h hm' with ⟨hdelaying, stage, _, n, _, rfl⟩ | ⟨_, m, hkept, hupdate⟩
    · obtain ⟨base, hbase⟩ := (hdelayable hdelaying).base
      rw [List.mem_singleton.mp hparent]
      exact mem_keys_of_kept h (kept_of_hidden hidden_delayedBaseJob hbase)
    · have hparents : m'.parents = m.parents := by
        rcases updateNeeds_cases hupdate with ⟨_, rfl⟩ | ⟨_, _, rfl⟩ | ⟨_, _, _, _, rfl⟩ <;> rfl
      obtain ⟨hhidden, template, htemplate⟩ :=
        hfile.parents name m hkept.1 parent (hparents ▸ hparent)
      exact mem_keys_of_kept h (kept_of_hidden hhidden htemplate)
  case needs =>
    intro a b hab
    rcases needs_generate hfile h hab with rfl | ⟨hdelaying, ⟨stage, hstage, rfl⟩ | hwaits⟩
    · obtain ⟨m, hm⟩ := hfile.kept_computePipeline
      exact mem_keys_of_kept h hm
    · exact mem_keys_of_trigger h hdelaying hstage
    · obtain ⟨m, hm⟩ := (hdelayable hdelaying).triggers a b hwaits
      exact mem_keys_of_kept h hm
  case stages =>
    intro name m' hjob hm' stage hstage
    rw [(handleParallelism_eq_ok h).1, mem_stages_filterYaml]
    rcases get?_generate h hm' with ⟨_, stage', hstage', n, _, rfl⟩ | ⟨_, m, hkept, hupdate⟩
    · obtain rfl := Option.some.inj hstage
      exact ⟨(mem_keptLangStages.mp hstage').1, (mem_keptLangStages.mp hstage').2.2⟩
    · have hstages : m'.stage = m.stage := by
        rcases updateNeeds_cases hupdate with ⟨_, rfl⟩ | ⟨_, _, rfl⟩ | ⟨_, _, _, _, rfl⟩ <;> rfl
      rw [hstages] at hstage
      have hallowed := stage_of_kept hjob hkept
      rw [hstage] at hallowed
      exact ⟨hfile.stages name m hjob hkept.1 stage hstage, hallowed⟩

/-- In a file without cycles `compute_pipeline` needs no job. -/
theorem not_needs_computePipeline (hfile : WellFormed file) {result : Pipeline}
    (h : generate file language ciCommitTag = .ok result) (hacyclic : Acyclic (Needs file))
    (b : Str) : ¬ Needs result computePipeline b := by
  rintro ⟨hjob, m', hm', need, hneed, _⟩
  rcases get?_generate h hm' with ⟨_, stage, _, n, hname, _⟩ | ⟨_, m, hkept, hupdate⟩
  · exact delayedTrigger_ne_computePipeline stage hname.symm
  · have hnone : m.needs.getD [] = [] := by
      by_contra hne
      obtain ⟨stage, hstage, hallowed⟩ := exists_stage_of_kept hjob hkept
      have hcompute := hfile.needsCompute _ m hjob hkept.1 stage hstage
        (isAllowedStage_cases hallowed) hne
      exact hacyclic computePipeline
        (Relation.TransGen.single ⟨hjob, m, hkept.1, _, hcompute, rfl⟩)
    have hmore : m.needsMore = false := by
      rw [Mapping.needsMore, hnone]
      rfl
    rw [updateNeeds_of_not_needsMore hmore, Except.ok.injEq] at hupdate
    rw [← hupdate, hnone] at hneed
    simp at hneed

theorem acyclic_generate (hfile : WellFormed file) {result : Pipeline}
    (h : generate file language ciCommitTag = .ok result) (hacyclic : Acyclic (Needs file))
    (hwaits : delaying (filterYaml file language) ciCommitTag = true →
      Acyclic (WaitsFor file language)) : Acyclic (Needs result) := by
  have hcompute := not_needs_computePipeline hfile h hacyclic
  by_cases hdelaying : delaying (filterYaml file language) ciCommitTag = true
  · refine acyclic_of_dead_ends (hwaits hdelaying) fun a b hab => ?_
    rcases needs_generate hfile h hab with rfl | ⟨_, ⟨stage, hstage, rfl⟩ | hab⟩
    · exact Or.inr fun c hc => absurd hc (hcompute c)
    · -- an added job needs `compute_pipeline` only
      refine Or.inr fun c ⟨_, m, hm, need, hneed, hc⟩ => ?_
      rcases get?_generate h hm with ⟨_, _, _, n, _, rfl⟩ | ⟨hremains, _⟩
      · rw [List.mem_singleton.mp hneed] at hc
        obtain rfl : computePipeline = c := Option.some.inj hc
        exact hcompute
      · exact absurd rfl (hremains hdelaying stage hstage)
    · exact Or.inl hab
  · refine acyclic_of_dead_ends (D := fun _ _ => False) (fun a hcycle => ?_) fun a b hab => ?_
    · obtain ⟨b, hab, _⟩ := Relation.TransGen.head'_iff.mp hcycle
      exact hab
    · rcases needs_generate hfile h hab with rfl | ⟨hdelaying', _⟩
      · exact Or.inr fun c hc => absurd hc (hcompute c)
      · exact absurd hdelaying' hdelaying

/-- A delayed job of the file needs the job that is named for its stage. -/
theorem needs_of_waitsFor {result : Pipeline} (h : generate file language ciCommitTag = .ok result)
    (hdelaying : delaying (filterYaml file language) ciCommitTag = true) {a b : Str}
    (hab : WaitsFor file language a b) : Needs result a b := by
  obtain ⟨hjob, m, hm, stage, hstage, _, rfl⟩ := hab
  have hupdate := updateNeeds_delaying hm.needsMore hstage
  rw [← hdelaying] at hupdate
  exact ⟨hjob, _, get?_generate_of_kept h hm.kept (fun _ => hm.remains) hupdate, _,
    List.mem_cons_of_mem _ List.mem_cons_self, rfl⟩

theorem stage_of_generate {result : Pipeline} (h : generate file language ciCommitTag = .ok result)
    (hdelaying : delaying (filterYaml file language) ciCommitTag = true) {name : Str} {m : Mapping}
    (hm : Delayed file language name m) : m.stage ≠ none := by
  intro hstage
  have hprepared : (prepared (filterYaml file language) ciCommitTag).get? name =
      some (.mapping m) := by
    rw [get?_prepared_of_ne fun _ => by rw [definedLangStages_filterYaml]; exact hm.remains]
    exact hm.kept.get?
  have hupdate : updateNeeds true m = .error (.keyError "stage") := by
    rw [updateNeeds, if_pos hm.needsMore, if_pos rfl, hstage]
  rcases Dict.get?_of_mapValuesM (handleParallelism_eq_ok h).2 name with
    ⟨hbefore, _⟩ | ⟨e, e', hbefore, he, _⟩
  · rw [hprepared] at hbefore
    cases hbefore
  · rw [hprepared, Option.some.injEq] at hbefore
    rw [← hbefore, hdelaying, updateEntry, hupdate] at he
    cases he

theorem delayable_of_generatesClosed {result : Pipeline}
    (h : generate file language ciCommitTag = .ok result)
    (hdelaying : delaying (filterYaml file language) ciCommitTag = true) (hclosed : Closed result)
    (hacyclic : Acyclic (Needs file) → Acyclic (Needs result)) : Delayable file language where
  base := by
    have hcount : 1 < (definedLangStages (filterYaml file language)).length :=
      (decide_eq_true_iff.mp hdelaying).1
    obtain ⟨stage, hstage⟩ := List.exists_mem_of_length_pos (Nat.zero_lt_of_lt hcount)
    obtain ⟨n, hn⟩ := get?_prepared_trigger hdelaying hstage
    have htrigger := (get?_of_handleParallelism h _ _).mpr
      ⟨_, hn, updateNeeds_of_not_needsMore rfl⟩
    have hbase := hclosed.parents _ _ htrigger delayedBaseJob List.mem_cons_self
    obtain ⟨m, hm⟩ := get?_of_mem_keys h
      (fun stage _ hname => delayedTrigger_ne_of_hidden hidden_delayedBaseJob stage hname.symm)
      (by decide) hbase
    exact ⟨m, hm.1⟩
  staged _ _ hm := stage_of_generate h hdelaying hm
  triggers a b hab := by
    have hb := hclosed.needs a b (needs_of_waitsFor h hdelaying hab)
    obtain ⟨_, _, _, stage, _, hlang, rfl⟩ := hab
    refine get?_of_mem_keys h (fun stage' hstage' hname => ?_) (isJob_delayedTrigger stage).2 hb
    obtain rfl := delayedTrigger_injective hname
    exact hlang (mem_keptLangStages.mp hstage').2.1
  acyclic hfile := (hacyclic hfile).mono fun _ _ => needs_of_waitsFor h hdelaying

/--
The generated pipeline is closed exactly if no language is delayed, or if the template of the
added jobs is there and every other job that is delayed waits for a job that the file has.
-/
theorem generatesClosed_iff (hfile : WellFormed file) :
    GeneratesClosed file language ciCommitTag ↔
      (ciCommitTag.getD [] ≠ [] → 1 < (keptLangStages file language).length →
        Delayable file language) := by
  have hdelaying : delaying (filterYaml file language) ciCommitTag = true ↔
      1 < (keptLangStages file language).length ∧ ciCommitTag.getD [] ≠ [] := by
    rw [delaying, decide_eq_true_iff, definedLangStages_filterYaml]
  constructor
  · rintro ⟨result, h, hclosed, hacyclic⟩ htag hcount
    exact delayable_of_generatesClosed h (hdelaying.mpr ⟨hcount, htag⟩) hclosed hacyclic
  · intro hcondition
    have hdelayable : delaying (filterYaml file language) ciCommitTag = true →
        Delayable file language :=
      fun h => hcondition (hdelaying.mp h).2 (hdelaying.mp h).1
    obtain ⟨result, h⟩ := exists_generate fun h => (hdelayable h).staged
    exact ⟨result, h, closed_generate hfile h hdelayable,
      fun hacyclic => acyclic_generate hfile h hacyclic fun h => (hdelayable h).acyclic hacyclic⟩

def reportingJobs : List (Str × Mapping) :=
  [("compute_pipeline", ⟨some "configure".toList, [], none, none⟩),
    (".delayed_base_job", ⟨none, [], none, some "5 minutes".toList⟩),
    ("java_job", ⟨some "java".toList, [], some [.name "compute_pipeline"], none⟩),
    ("report", ⟨some "pipeline-status".toList, [],
      some [.name "compute_pipeline", .name "java_job"], none⟩)]

/-- A job reports on the languages after they have run. -/
def reportingFile : Pipeline where
  stages := some ["configure", "java", "python", "pipeline-status"]
  entries := Dict.empty.setAll (reportingJobs.map fun job => (job.1, .mapping job.2))

theorem mem_reportingJobs {name : Str} {m : Mapping}
    (h : reportingFile.entries.get? name = some (.mapping m)) : (name, m) ∈ reportingJobs := by
  rcases Dict.get?_setAll_cases h with hmem | hempty
  · obtain ⟨job, hjob, heq⟩ := List.mem_map.mp hmem
    rw [Prod.mk.injEq, Entry.mapping.injEq] at heq
    obtain ⟨rfl, rfl⟩ := heq
    exact hjob
  · cases hempty

theorem exists_reportingJob {name : Str} (h : name ∈ reportingJobs.map Prod.fst) :
    ∃ m, reportingFile.entries.get? name = some (.mapping m) := by
  have hkey : name ∈ (reportingJobs.map fun job => (job.1, Entry.mapping job.2)).map Prod.fst := by
    rwa [List.map_map]
  obtain ⟨e, he, hmem⟩ := Dict.exists_get?_setAll Dict.empty hkey
  obtain ⟨job, _, heq⟩ := List.mem_map.mp hmem
  rw [Prod.mk.injEq] at heq
  exact ⟨job.2, heq.2 ▸ he⟩

theorem wellFormed_reportingFile : WellFormed reportingFile where
  parents name m h parent hparent := by
    have hnone : ∀ job ∈ reportingJobs, job.2.parents = [] := by decide
    rw [hnone _ (mem_reportingJobs h)] at hparent
    cases hparent
  needs name m h need hneed job hjob := by
    have hneeds : ∀ job ∈ reportingJobs, ∀ need ∈ job.2.needs.getD [], ∀ name ∈ need.job,
        IsJob name ∧ name ∈ reportingJobs.map Prod.fst := by decide
    have hname := hneeds _ (mem_reportingJobs h) need hneed job hjob
    exact ⟨hname.1, exists_reportingJob hname.2⟩
  stages name m _ h stage hstage := by
    have hstages : ∀ job ∈ reportingJobs, ∀ stage ∈ job.2.stage,
        stage ∈ reportingFile.stages.getD [] := by decide
    exact hstages _ (mem_reportingJobs h) stage hstage
  configure := ⟨_, rfl, rfl⟩
  needsCompute name m _ h stage _ _ hne := by
    have hcompute : ∀ job ∈ reportingJobs, job.2.needs.getD [] ≠ [] →
        Need.name computePipeline ∈ job.2.needs.getD [] := by decide
    exact hcompute _ (mem_reportingJobs h) hne

/-- The report would wait for a job that is added for no stage. -/
theorem not_generatesClosed_reportingFile : WellFormed reportingFile ∧
    ¬ GeneratesClosed reportingFile none (some "v1.0.0".toList) := by
  refine ⟨wellFormed_reportingFile, ?_⟩
  rintro ⟨result, h, hclosed, _⟩
  have hstages : keptLangStages reportingFile none = ["java".toList, "python".toList] := by decide
  have hdelayed : ∀ stage ∈ ["java".toList, "python".toList],
      delayedTrigger "pipeline-status" ≠ delayedTrigger stage ∧
        "report".toList ≠ delayedTrigger stage := by decide
  have hwaits : WaitsFor reportingFile none "report" (delayedTrigger "pipeline-status") :=
    ⟨by decide, _, ⟨⟨rfl, by decide⟩, by decide, fun stage hstage =>
      (hdelayed stage (hstages ▸ hstage)).2⟩, _, rfl, by decide, rfl⟩
  have hdelaying : delaying (filterYaml reportingFile none) (some "v1.0.0".toList) = true := by
    rw [delaying, definedLangStages_filterYaml, hstages]
    decide
  have hmem := hclosed.needs _ _ (needs_of_waitsFor h hdelaying hwaits)
  obtain ⟨m, hm⟩ := get?_of_mem_keys h
    (fun stage hstage => (hdelayed stage (hstages ▸ hstage)).1) (by decide) hmem
  have hnone : reportingFile.entries.get? (delayedTrigger "pipeline-status") = none := by decide
  rw [hm.1] at hnone
  cases hnone

theorem generatesClosed_iff_reportingFile : GeneratesClosed reportingFile none none :=
  (generatesClosed_iff wellFormed_reportingFile).mpr fun htag => absurd rfl htag

end Closing

end External
end Gitlab
end SystemTests
