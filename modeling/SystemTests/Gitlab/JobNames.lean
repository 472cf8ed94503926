import SystemTests.Gitlab.BuildPipeline

/-!
# Names of generated jobs (`utils/ci/gitlab/build_pipeline.py`)

A task is what one generated job does.  The name of its job is put together from
the parts of the task with underscores between them, and parts may hold
underscores themselves.

Libraries are written in lower case, scenarios in upper case, and weblogs begin
with a lower case letter.  So the first upper case letter of a name shows where
the scenario begins, and the next lower case letter where the weblog does.
Between the library and the weblog of a build job nothing shows the end of the
library.

**Results.**
* `Executes.unique`: a job executes one task.
* `jobName_injective`: two tasks with one job name are equal, or both are builds.
-/

namespace SystemTests
namespace Gitlab

open Foundation Foundation.Text

inductive Task where
  | build (library weblog : Str)
  | run (library weblog scenario : Str)
  | parametric (library : Str) (group : Int)
deriving DecidableEq

namespace Task

def jobName : Task → Str
  | .build library weblog => buildJobName library weblog
  | .run library weblog scenario => runJobName library scenario weblog
  | .parametric library group => parametricJobName library group

end Task

/-- The hidden job that says what the job does. -/
def Extends.kind : Extends → Option Str
  | .one parent => some parent
  | .many parents => parents.head?

/-- What a job does, as its hidden job and its variables have it. -/
def Job.Executes (job : Job) : Task → Prop
  | .build library weblog =>
      job.parents.kind = some ".system_tests_build".toList ∧
        job.jobVariables.get? "TEST_LIBRARY" = some library ∧
        job.jobVariables.get? "SYSTEM_TESTS_WEBLOG" = some weblog
  | .run library weblog scenario =>
      job.parents.kind = some ".system_tests_run".toList ∧
        job.jobVariables.get? "TEST_LIBRARY" = some library ∧
        job.jobVariables.get? "SYSTEM_TESTS_WEBLOG" = some weblog ∧
        job.jobVariables.get? "SYSTEM_TESTS_SCENARIO" = some scenario
  | .parametric library group =>
      job.parents.kind = some ".system_tests_parametric".toList ∧
        job.jobVariables.get? "TEST_LIBRARY" = some library ∧
        job.jobVariables.get? "SYSTEM_TESTS_PARAMETRIC_GROUP" = some (Json.intText group)

instance (job : Job) : (t : Task) → Decidable (job.Executes t)
  | .build _ _ => inferInstanceAs (Decidable (_ ∧ _))
  | .run _ _ _ => inferInstanceAs (Decidable (_ ∧ _))
  | .parametric _ _ => inferInstanceAs (Decidable (_ ∧ _))

def LibraryName (library : Str) : Prop := ∀ c ∈ library, c.isUpper = false

def ScenarioName (scenario : Str) : Prop :=
  (∃ c rest, scenario = c :: rest ∧ c.isUpper = true) ∧ ∀ c ∈ scenario, c.isLower = false

def WeblogName (weblog : Str) : Prop :=
  ∃ c rest, weblog = c :: rest ∧ c.isLower = true

/-- The parts of the task are written as the names of libraries, weblogs and scenarios are. -/
def Task.WellNamed : Task → Prop
  | .build library _ => LibraryName library
  | .run library weblog scenario =>
      LibraryName library ∧ WeblogName weblog ∧ ScenarioName scenario
  | .parametric library _ => LibraryName library

section Names

theorem intText_injective : Function.Injective Json.intText := by
  intro m n h
  exact Json.int_injective (congrArg Json.number h)

theorem Job.Executes.unique {job : Job} {t t' : Task} (h : job.Executes t)
    (h' : job.Executes t') : t = t' := by
  cases t with
  | build library weblog =>
      cases t' with
      | build library' weblog' =>
          obtain ⟨-, hl, hw⟩ := h
          obtain ⟨-, hl', hw'⟩ := h'
          rw [hl, Option.some.injEq] at hl'
          rw [hw, Option.some.injEq] at hw'
          rw [hl', hw']
      | run _ _ _ => exact absurd (h.1.symm.trans h'.1) (by decide)
      | parametric _ _ => exact absurd (h.1.symm.trans h'.1) (by decide)
  | run library weblog scenario =>
      cases t' with
      | build _ _ => exact absurd (h.1.symm.trans h'.1) (by decide)
      | run library' weblog' scenario' =>
          obtain ⟨-, hl, hw, hs⟩ := h
          obtain ⟨-, hl', hw', hs'⟩ := h'
          rw [hl, Option.some.injEq] at hl'
          rw [hw, Option.some.injEq] at hw'
          rw [hs, Option.some.injEq] at hs'
          rw [hl', hw', hs']
      | parametric _ _ => exact absurd (h.1.symm.trans h'.1) (by decide)
  | parametric library group =>
      cases t' with
      | build _ _ => exact absurd (h.1.symm.trans h'.1) (by decide)
      | run _ _ _ => exact absurd (h.1.symm.trans h'.1) (by decide)
      | parametric library' group' =>
          obtain ⟨-, hl, hg⟩ := h
          obtain ⟨-, hl', hg'⟩ := h'
          rw [hl, Option.some.injEq] at hl'
          rw [hg, Option.some.injEq] at hg'
          rw [hl', intText_injective hg']

/-- The jobs that run tests: a library, and a rest that begins with an upper case letter. -/
def testJobName (library rest : Str) : Str :=
  "system_tests_run_".toList ++ library ++ '_' :: rest

theorem runJobName_eq (library scenario weblog : Str) :
    runJobName library scenario weblog = testJobName library (scenario ++ '_' :: weblog) := rfl

theorem parametricJobName_eq (library : Str) (group : Int) :
    parametricJobName library group =
      testJobName library ("PARAMETRIC_".toList ++ Json.intText group) := by
  have hsplit : "_PARAMETRIC_".toList = '_' :: "PARAMETRIC_".toList := rfl
  unfold parametricJobName testJobName
  rw [hsplit, List.append_assoc, List.cons_append]

theorem testJobName_injective {library library' rest rest' : Str} {c c' : Char}
    (hlibrary : LibraryName library) (hlibrary' : LibraryName library')
    (hc : c.isUpper = true) (hc' : c'.isUpper = true)
    (h : testJobName library (c :: rest) = testJobName library' (c' :: rest')) :
    library = library' ∧ c :: rest = c' :: rest' := by
  have hlower : ∀ {l : Str}, LibraryName l → ∀ d ∈ l ++ ['_'], d.isUpper = false := by
    intro l hl d hd
    rcases List.mem_append.mp hd with hd | hd
    · exact hl d hd
    · rw [List.mem_singleton.mp hd]
      decide
  have hparts : (library ++ ['_']) ++ c :: rest = (library' ++ ['_']) ++ c' :: rest' := by
    unfold testJobName at h
    generalize "system_tests_run_".toList = start at h
    simpa using h
  obtain ⟨hl, hcc, hrest⟩ := append_cons_inj hc hc' (hlower hlibrary) (hlower hlibrary') hparts
  exact ⟨List.append_cancel_right hl, by rw [hcc, hrest]⟩

theorem scenario_weblog_injective {scenario scenario' weblog weblog' : Str}
    (hscenario : ScenarioName scenario) (hscenario' : ScenarioName scenario')
    (hweblog : WeblogName weblog) (hweblog' : WeblogName weblog')
    (h : scenario ++ '_' :: weblog = scenario' ++ '_' :: weblog') :
    scenario = scenario' ∧ weblog = weblog' := by
  have hupper : ∀ {s : Str}, ScenarioName s → ∀ d ∈ s ++ ['_'], d.isLower = false := by
    intro s hs d hd
    rcases List.mem_append.mp hd with hd | hd
    · exact hs.2 d hd
    · rw [List.mem_singleton.mp hd]
      decide
  obtain ⟨c, rest, rfl, hc⟩ := hweblog
  obtain ⟨c', rest', rfl, hc'⟩ := hweblog'
  have hparts : (scenario ++ ['_']) ++ c :: rest = (scenario' ++ ['_']) ++ c' :: rest' := by
    simpa using h
  obtain ⟨hs, hcc, hrest⟩ := append_cons_inj hc hc' (hupper hscenario) (hupper hscenario') hparts
  exact ⟨List.append_cancel_right hs, by rw [hcc, hrest]⟩

/-- A number is written without letters. -/
theorem isLower_intText {n : Int} {c : Char} (hc : c ∈ Json.intText n) : c.isLower = false := by
  have hdigit : ∀ d : Char, d.isDigit = true → d.isLower = false := by
    intro d hd
    rw [isDigit_iff] at hd
    rw [Bool.eq_false_iff, Ne, isLower_iff]
    omega
  cases n with
  | ofNat n => exact hdigit c (Semver.isDigit_of_mem_decimal hc)
  | negSucc n =>
      rcases List.mem_cons.mp hc with rfl | hc
      · decide
      · exact hdigit c (Semver.isDigit_of_mem_decimal hc)

theorem runJobName_injective {library library' weblog weblog' scenario scenario' : Str}
    (ht : (Task.run library weblog scenario).WellNamed)
    (ht' : (Task.run library' weblog' scenario').WellNamed)
    (h : runJobName library scenario weblog = runJobName library' scenario' weblog') :
    library = library' ∧ weblog = weblog' ∧ scenario = scenario' := by
  obtain ⟨hlibrary, hweblog, hscenario⟩ := ht
  obtain ⟨hlibrary', hweblog', hscenario'⟩ := ht'
  obtain ⟨⟨c, rest, rfl, hc⟩, -⟩ := id hscenario
  obtain ⟨⟨c', rest', rfl, hc'⟩, -⟩ := id hscenario'
  rw [runJobName_eq, runJobName_eq] at h
  obtain ⟨hl, hrest⟩ := testJobName_injective hlibrary hlibrary' hc hc' h
  obtain ⟨hs, hw⟩ := scenario_weblog_injective hscenario hscenario' hweblog hweblog' hrest
  exact ⟨hl, hw, hs⟩

/-- The scenario of the parametric jobs, with the group. -/
theorem parametric_text (group : Int) :
    ∃ rest, "PARAMETRIC_".toList ++ Json.intText group = 'P' :: rest :=
  ⟨"ARAMETRIC_".toList ++ Json.intText group, rfl⟩

theorem isLower_parametric_text {group : Int} {c : Char}
    (hc : c ∈ "PARAMETRIC_".toList ++ Json.intText group) : c.isLower = false := by
  have hword : ∀ d ∈ "PARAMETRIC_".toList, d.isLower = false := by decide
  rcases List.mem_append.mp hc with hc | hc
  · exact hword c hc
  · exact isLower_intText hc

theorem run_ne_parametric {library library' weblog scenario : Str} {group : Int}
    (ht : (Task.run library weblog scenario).WellNamed) (hlibrary' : LibraryName library') :
    runJobName library scenario weblog ≠ parametricJobName library' group := by
  intro h
  obtain ⟨hlibrary, ⟨d, weblog, rfl, hd⟩, ⟨⟨c, rest, rfl, hc⟩, -⟩⟩ := ht
  obtain ⟨text, htext⟩ := parametric_text group
  rw [runJobName_eq, parametricJobName_eq, htext] at h
  obtain ⟨-, hrest⟩ := testJobName_injective hlibrary hlibrary' hc (by decide) h
  have hmem : d ∈ 'P' :: text := by
    rw [← hrest]
    simp
  have hlower := isLower_parametric_text (htext ▸ hmem)
  rw [hd] at hlower
  exact absurd hlower (by decide)

theorem parametricJobName_injective {library library' : Str} {group group' : Int}
    (hlibrary : LibraryName library) (hlibrary' : LibraryName library')
    (h : parametricJobName library group = parametricJobName library' group') :
    library = library' ∧ group = group' := by
  obtain ⟨text, htext⟩ := parametric_text group
  obtain ⟨text', htext'⟩ := parametric_text group'
  rw [parametricJobName_eq, parametricJobName_eq, htext, htext'] at h
  obtain ⟨hl, hrest⟩ := testJobName_injective hlibrary hlibrary' (by decide) (by decide) h
  rw [← htext, ← htext'] at hrest
  exact ⟨hl, intText_injective (List.append_cancel_left hrest)⟩

theorem build_ne_test (library weblog library' rest : Str) :
    buildJobName library weblog ≠ testJobName library' rest := by
  intro h
  have hbuild : (buildJobName library weblog)[13]? = some 'b' := rfl
  have htest : (testJobName library' rest)[13]? = some 'r' := rfl
  rw [h, htest] at hbuild
  exact absurd hbuild (by decide)

/-- Only the names of two builds may meet. -/
theorem Task.jobName_injective {t t' : Task} (ht : t.WellNamed) (ht' : t'.WellNamed)
    (h : t.jobName = t'.jobName) :
    t = t' ∨ ∃ library weblog library' weblog', t = .build library weblog ∧
      t' = .build library' weblog' ∧ library ++ '_' :: weblog = library' ++ '_' :: weblog' := by
  cases t with
  | build library weblog =>
      cases t' with
      | build library' weblog' =>
          simp only [Task.jobName] at h
          unfold buildJobName at h
          generalize "system_tests_build_".toList = start at h
          exact Or.inr ⟨library, weblog, library', weblog', rfl, rfl, by simpa using h⟩
      | run library' weblog' scenario' => exact absurd h (build_ne_test _ _ _ _)
      | parametric library' group' =>
          simp only [Task.jobName, parametricJobName_eq] at h
          exact absurd h (build_ne_test _ _ _ _)
  | run library weblog scenario =>
      cases t' with
      | build library' weblog' => exact absurd h.symm (build_ne_test _ _ _ _)
      | run library' weblog' scenario' =>
          obtain ⟨hl, hw, hs⟩ := runJobName_injective ht ht' h
          exact Or.inl (by rw [hl, hw, hs])
      | parametric library' group' => exact absurd h (run_ne_parametric ht ht')
  | parametric library group =>
      cases t' with
      | build library' weblog' =>
          simp only [Task.jobName, parametricJobName_eq] at h
          exact absurd h.symm (build_ne_test _ _ _ _)
      | run library' weblog' scenario' => exact absurd h.symm (run_ne_parametric ht' ht)
      | parametric library' group' =>
          obtain ⟨hl, hg⟩ := parametricJobName_injective ht ht' h
          exact Or.inl (by rw [hl, hg])

end Names

end Gitlab
end SystemTests
