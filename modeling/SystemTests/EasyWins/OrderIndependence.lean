import SystemTests.EasyWins.RecordedTests
import SystemTests.Manifest.InlineThreshold
import SystemTests.Foundation.Permutation

/-!
# Order of the test reports

The order in which the directories, the scenarios and the tests are read decides
the status of a path when its updates conflict, and nothing else.

**Results.**
* `get?_collected`, `weblogs_collected`: what is collected of a list of reports.
* `readReports_permuted`: the same reports are read in any order.
* `conflict_orders`: conflicting updates are decided by the order.
* `parseArtifactData_orderIndependent_iff`: when the order has no influence.
-/

namespace SystemTests
namespace EasyWins

open Foundation Foundation.Text Foundation.Semver Manifest

section Collected

variable {lib : StringTrie ActivationStatus (List (List Str))} {excludedOwners : Finset Str}

/-- The tests of the reports of one context, in the order of the reports. -/
def testsOf (context : Context) (reports : List (Context × Report)) : List Test :=
  reports.flatMap fun p => if p.1 = context then p.2.tests else []

/-- The reports read one after the other. -/
def collected (lib : StringTrie ActivationStatus (List (List Str))) (excludedOwners : Finset Str)
    (reports : List (Context × Report)) : ArtifactData lib :=
  reports.foldl (fun s p => readReport lib excludedOwners s p.1 p.2) {}

theorem collected_concat (reports : List (Context × Report)) (p : Context × Report) :
    collected lib excludedOwners (reports ++ [p]) =
      readReport lib excludedOwners (collected lib excludedOwners reports) p.1 p.2 := by
  rw [collected, List.foldl_append]
  rfl

theorem testsOf_eq_nil {context : Context} {reports : List (Context × Report)}
    (h : context ∉ reports.map Prod.fst) : testsOf context reports = [] := by
  rw [testsOf, List.flatMap_eq_nil_iff]
  intro p hp
  rw [if_neg]
  rintro rfl
  exact h (List.mem_map_of_mem hp)

/-- **The data of a context** is what is collected of its tests. -/
theorem get?_collected (reports : List (Context × Report)) (context : Context) :
    (collected lib excludedOwners reports).testData.get? context =
      if context ∈ reports.map Prod.fst then
        some (recorded lib excludedOwners (testsOf context reports))
      else none := by
  induction reports using List.reverseRecOn with
  | nil => rfl
  | append_singleton reports p ih =>
      rw [collected_concat, readReport]
      simp only [Dict.get?_set, List.map_append, List.map_singleton, List.mem_append,
        List.mem_singleton]
      by_cases hp : context = p.1
      · have htests : testsOf context (reports ++ [p]) =
            testsOf context reports ++ p.2.tests := by
          simp [testsOf, hp]
        rw [if_pos hp, if_pos (Or.inr hp), ← hp, ih, htests, recorded, recorded,
          List.foldl_append]
        split_ifs with hmem
        · rfl
        · rw [testsOf_eq_nil hmem]
          rfl
      · have htests : testsOf context (reports ++ [p]) = testsOf context reports := by
          simp [testsOf, Ne.symm hp]
        rw [if_neg hp, ih, htests]
        simp only [hp, or_false]

theorem weblogs_collected (reports : List (Context × Report)) (library : Str) :
    (collected lib excludedOwners reports).weblogs.get? library =
      if library ∈ reports.map (·.1.library) then
        some ((reports.filter (·.1.library = library)).map (·.1.variant)).toFinset
      else none := by
  induction reports using List.reverseRecOn with
  | nil => rfl
  | append_singleton reports p ih =>
      rw [collected_concat, readReport]
      simp only [Dict.get?_set, List.map_append, List.map_singleton, List.mem_append,
        List.mem_singleton, List.filter_append]
      by_cases hp : library = p.1.library
      · have hfilter : [p].filter (fun q => q.1.library = library) = [p] := by simp [hp]
        rw [if_pos hp, if_pos (Or.inr hp), ← hp, ih, hfilter]
        split_ifs with hmem
        · rw [Option.getD_some, Option.some.injEq]
          ext variant
          simp
        · have hnil : reports.filter (fun q => q.1.library = library) = [] := by
            rw [List.filter_eq_nil_iff]
            intro q hq hlibrary
            refine hmem (List.mem_map.mpr ⟨q, hq, ?_⟩)
            simpa using hlibrary
          rw [hnil]
          rfl
      · have hfilter : [p].filter (fun q => q.1.library = library) = [] := by
          simp [Ne.symm hp]
        rw [if_neg hp, ih, hfilter, List.map_nil, List.append_nil]
        simp only [hp, or_false]

end Collected

section Permuted

def ReportPermuted (report report' : Report) : Prop :=
  ∃ tests, report.tests.Perm tests ∧ report' = { report with tests }

def ScenarioPermuted : Option Report → Option Report → Prop
  | none, none => True
  | some report, some report' => ReportPermuted report report'
  | _, _ => False

def DirectoryPermuted (directory directory' : Directory) : Prop :=
  directory'.name = directory.name ∧
    PermBy ScenarioPermuted directory.scenarios directory'.scenarios

/-- The same reports with the directories, their scenarios and the tests in another order. -/
def Permuted : List Directory → List Directory → Prop := PermBy DirectoryPermuted

theorem ReportPermuted.refl (report : Report) : ReportPermuted report report :=
  ⟨report.tests, List.Perm.refl _, rfl⟩

theorem ScenarioPermuted.refl (scenario : Option Report) : ScenarioPermuted scenario scenario := by
  cases scenario with
  | none => trivial
  | some report => exact ReportPermuted.refl report

theorem DirectoryPermuted.refl (directory : Directory) : DirectoryPermuted directory directory :=
  ⟨rfl, PermBy.of_perm _ ScenarioPermuted.refl (List.Perm.refl _)⟩

variable {sv : SemanticVersion} {libraries : List Str} {useDev : Bool}
variable {dataDir dataDir' : List Directory}

theorem exists_scenario {scenarios scenarios' : List (Option Report)}
    (h : PermBy ScenarioPermuted scenarios scenarios') {report' : Report}
    (hreport' : some report' ∈ scenarios') :
    ∃ report, some report ∈ scenarios ∧ ReportPermuted report report' := by
  obtain ⟨scenario, hscenario, hpermuted⟩ := h.exists_left hreport'
  cases scenario with
  | none => exact absurd hpermuted (by simp [ScenarioPermuted])
  | some report => exact ⟨report, hscenario, hpermuted⟩

theorem reportContext_permuted {report report' : Report} (h : ReportPermuted report report') :
    reportContext sv libraries report' = reportContext sv libraries report := by
  obtain ⟨tests, -, rfl⟩ := h
  rfl

theorem isConsidered_permuted {directory directory' : Directory}
    (h : DirectoryPermuted directory directory') :
    isConsidered useDev directory' = isConsidered useDev directory := by
  rw [isConsidered, isConsidered, h.1]

theorem homogeneous_permuted (h : Permuted dataDir dataDir')
    (hmix : Homogeneous sv libraries useDev dataDir) :
    Homogeneous sv libraries useDev dataDir' := by
  rintro directory' hdirectory' hconsidered ⟨report', hreport', hnone⟩ other' hother'
  obtain ⟨directory, hdirectory, hpermuted⟩ := h.exists_left hdirectory'
  rw [isConsidered_permuted hpermuted] at hconsidered
  obtain ⟨report, hreport, hsame⟩ := exists_scenario hpermuted.2 hreport'
  obtain ⟨other, hother, hsameOther⟩ := exists_scenario hpermuted.2 hother'
  rw [reportContext_permuted hsame] at hnone
  rw [reportContext_permuted hsameOther]
  exact hmix directory hdirectory hconsidered ⟨report, hreport, hnone⟩ other hother

theorem readable_permuted (h : Permuted dataDir dataDir')
    (hreadable : Readable sv libraries useDev dataDir) :
    Readable sv libraries useDev dataDir' := by
  intro directory' hdirectory' hconsidered report' hreport'
  obtain ⟨directory, hdirectory, hpermuted⟩ := h.exists_left hdirectory'
  rw [isConsidered_permuted hpermuted] at hconsidered
  obtain ⟨report, hreport, hsame⟩ := exists_scenario hpermuted.2 hreport'
  rw [reportContext_permuted hsame]
  exact hreadable directory hdirectory hconsidered report hreport

/-- Two readings of one report. -/
def ReadPermuted (p p' : Context × Report) : Prop := p'.1 = p.1 ∧ ReportPermuted p.2 p'.2

theorem scenarioReport_permuted {scenario scenario' : Option Report}
    (h : ScenarioPermuted scenario scenario') :
    PermBy ReadPermuted (scenarioReport sv libraries scenario)
      (scenarioReport sv libraries scenario') := by
  cases scenario with
  | none =>
      cases scenario' with
      | none => exact ⟨[], List.Forall₂.nil, List.Perm.refl _⟩
      | some report' => exact absurd h (by simp [ScenarioPermuted])
  | some report =>
      cases scenario' with
      | none => exact absurd h (by simp [ScenarioPermuted])
      | some report' =>
          have hpermuted : ReportPermuted report report' := h
          rw [scenarioReport, scenarioReport, reportContext_permuted hpermuted]
          split
          · exact PermBy.singleton ⟨rfl, hpermuted⟩
          · exact ⟨[], List.Forall₂.nil, List.Perm.refl _⟩

/-- **The reports that are read** are the same up to their order. -/
theorem readReports_permuted (h : Permuted dataDir dataDir') :
    PermBy ReadPermuted (readReports sv libraries useDev dataDir)
      (readReports sv libraries useDev dataDir') := by
  refine PermBy.flatMap (fun directory directory' hpermuted => ?_) h
  rw [directoryReports, directoryReports, isConsidered_permuted hpermuted]
  split_ifs
  · exact PermBy.flatMap (fun scenario scenario' hscenario => scenarioReport_permuted hscenario)
      hpermuted.2
  · exact ⟨[], List.Forall₂.nil, List.Perm.refl _⟩

theorem testsOf_permuted {reports reports' : List (Context × Report)} (context : Context)
    (h : PermBy ReadPermuted reports reports') :
    (testsOf context reports).Perm (testsOf context reports') := by
  refine PermBy.eq_iff_perm.mp (PermBy.flatMap (fun p p' hp => ?_) h)
  obtain ⟨hcontext, tests, hperm, hreport⟩ := hp
  rw [PermBy.eq_iff_perm, hcontext, hreport]
  split_ifs
  · exact hperm
  · exact List.Perm.refl _

theorem contexts_permuted {reports reports' : List (Context × Report)}
    (h : PermBy ReadPermuted reports reports') :
    (reports.map Prod.fst).Perm (reports'.map Prod.fst) := by
  rw [List.map_eq_flatMap, List.map_eq_flatMap]
  refine PermBy.eq_iff_perm.mp (PermBy.flatMap (fun p p' hp => ?_) h)
  rw [PermBy.eq_iff_perm, hp.1]

/-- Where a test that is read comes from. -/
theorem exists_located {context : Context} {test : Test}
    (h : test ∈ testsOf context (readReports sv libraries useDev dataDir)) :
    ∃ directory ∈ dataDir, isConsidered useDev directory = true ∧
      ∃ report, some report ∈ directory.scenarios ∧
        reportContext sv libraries report = .ok (some context) ∧ test ∈ report.tests := by
  obtain ⟨p, hread, htest⟩ := List.mem_flatMap.mp h
  obtain ⟨directory, hdirectory, hread⟩ := List.mem_flatMap.mp hread
  have hconsidered : isConsidered useDev directory = true := by
    by_contra hnot
    rw [directoryReports, if_neg hnot] at hread
    exact absurd hread (by simp)
  rw [directoryReports, if_pos hconsidered] at hread
  obtain ⟨scenario, hscenario, hread⟩ := List.mem_flatMap.mp hread
  have hcontext : p.1 = context := by
    by_contra hne
    rw [if_neg hne] at htest
    exact absurd htest (by simp)
  rw [if_pos hcontext] at htest
  cases scenario with
  | none => exact absurd hread (by simp [scenarioReport])
  | some report =>
      rw [scenarioReport] at hread
      split at hread
      · rename_i context' hok
        obtain rfl := List.mem_singleton.mp hread
        exact ⟨directory, hdirectory, hconsidered, report, hscenario, hcontext ▸ hok, htest⟩
      · exact absurd hread (by simp)

theorem exists_perm_concat {α : Type} {a : α} {l : List α} (h : a ∈ l) :
    ∃ l', l.Perm (l' ++ [a]) := by
  obtain ⟨before, behind, rfl⟩ := List.append_of_mem h
  exact ⟨before ++ behind, List.perm_middle.trans (List.perm_append_singleton a _).symm⟩

theorem exists_perm_cons {α : Type} {a : α} {l : List α} (h : a ∈ l) :
    ∃ l', l.Perm (a :: l') := by
  obtain ⟨before, behind, rfl⟩ := List.append_of_mem h
  exact ⟨before ++ behind, List.perm_middle⟩

theorem readReports_append (l l' : List Directory) :
    readReports sv libraries useDev (l ++ l') =
      readReports sv libraries useDev l ++ readReports sv libraries useDev l' :=
  List.flatMap_append

theorem testsOf_append (context : Context) (l l' : List (Context × Report)) :
    testsOf context (l ++ l') = testsOf context l ++ testsOf context l' :=
  List.flatMap_append

/-- The tests of a directory with one more scenario. -/
theorem testsOf_directory {context : Context} {name : Str} {report : Report}
    {before behind : List (Option Report)}
    (hconsidered : isConsidered useDev ⟨name, before ++ some report :: behind⟩ = true)
    (hcontext : reportContext sv libraries report = .ok (some context)) :
    testsOf context
        (readReports sv libraries useDev [⟨name, before ++ some report :: behind⟩]) =
      testsOf context (scenarioReports sv libraries before) ++ report.tests ++
        testsOf context (scenarioReports sv libraries behind) := by
  have hreport : scenarioReport sv libraries (some report) = [(context, report)] := by
    rw [scenarioReport, hcontext]
  rw [readReports, List.flatMap_singleton, directoryReports, if_pos hconsidered, scenarioReports,
    List.flatMap_append, List.flatMap_cons, hreport, testsOf_append, testsOf_append,
    ← List.append_assoc]
  simp [testsOf, scenarioReports]

/-- Any test that is read can be read last. -/
theorem exists_read_last {context : Context} {test : Test}
    (h : test ∈ testsOf context (readReports sv libraries useDev dataDir)) :
    ∃ dataDir' tests, Permuted dataDir dataDir' ∧
      testsOf context (readReports sv libraries useDev dataDir') = tests ++ [test] := by
  obtain ⟨directory, hdirectory, hconsidered, report, hreport, hcontext, htest⟩ :=
    exists_located h
  obtain ⟨directories, hdirectories⟩ := exists_perm_concat hdirectory
  obtain ⟨scenarios, hscenarios⟩ := exists_perm_concat hreport
  obtain ⟨tests, htests⟩ := exists_perm_concat htest
  have hlast : DirectoryPermuted directory
      ⟨directory.name, scenarios ++ [some { report with tests := tests ++ [test] }]⟩ :=
    ⟨rfl, PermBy.perm_left hscenarios
      ((PermBy.of_perm _ ScenarioPermuted.refl (List.Perm.refl _)).append
        (PermBy.singleton ⟨_, htests, rfl⟩))⟩
  have hconsidered' := (isConsidered_permuted hlast).trans hconsidered
  have htestsOf : testsOf context (readReports sv libraries useDev (directories ++
        [⟨directory.name, scenarios ++ [some { report with tests := tests ++ [test] }]⟩])) =
      testsOf context (readReports sv libraries useDev directories) ++
        (testsOf context (scenarioReports sv libraries scenarios) ++ tests) ++ [test] := by
    rw [readReports_append, testsOf_append, testsOf_directory hconsidered' hcontext]
    simp only [scenarioReports, List.flatMap_nil, testsOf, List.append_nil, ← List.append_assoc]
  exact ⟨_, _, PermBy.perm_left hdirectories
    ((PermBy.of_perm _ DirectoryPermuted.refl (List.Perm.refl _)).append
      (PermBy.singleton hlast)), htestsOf⟩

/-- Any test that is read can be read first. -/
theorem exists_read_first {context : Context} {test : Test}
    (h : test ∈ testsOf context (readReports sv libraries useDev dataDir)) :
    ∃ dataDir' tests, Permuted dataDir dataDir' ∧
      testsOf context (readReports sv libraries useDev dataDir') = test :: tests := by
  obtain ⟨directory, hdirectory, hconsidered, report, hreport, hcontext, htest⟩ :=
    exists_located h
  obtain ⟨directories, hdirectories⟩ := exists_perm_cons hdirectory
  obtain ⟨scenarios, hscenarios⟩ := exists_perm_cons hreport
  obtain ⟨tests, htests⟩ := exists_perm_cons htest
  have hfirst : DirectoryPermuted directory
      ⟨directory.name, [] ++ some { report with tests := test :: tests } :: scenarios⟩ :=
    ⟨rfl, PermBy.perm_left hscenarios
      ((PermBy.singleton ⟨_, htests, rfl⟩).append
        (PermBy.of_perm _ ScenarioPermuted.refl (List.Perm.refl _)))⟩
  have hconsidered' := (isConsidered_permuted hfirst).trans hconsidered
  have htestsOf : testsOf context (readReports sv libraries useDev
        ([⟨directory.name, [] ++ some { report with tests := test :: tests } :: scenarios⟩] ++
          directories)) =
      test :: (tests ++ testsOf context (scenarioReports sv libraries scenarios) ++
        testsOf context (readReports sv libraries useDev directories)) := by
    rw [readReports_append, testsOf_append, testsOf_directory hconsidered' hcontext]
    simp only [scenarioReports, List.flatMap_nil, testsOf, List.nil_append, List.cons_append]
  exact ⟨_, _, PermBy.perm_left hdirectories
    ((PermBy.singleton hfirst).append
      (PermBy.of_perm _ DirectoryPermuted.refl (List.Perm.refl _))), htestsOf⟩

end Permuted

section Independence

variable {sv : SemanticVersion} {lib : StringTrie ActivationStatus (List (List Str))}
variable {libraries : List Str} {excludedOwners : Finset Str} {useDev : Bool}
variable {dataDir : List Directory}

/-- The observed parts of two results: contexts, nodes, weblogs and yielded rules. -/
structure SameResults (lib : StringTrie ActivationStatus (List (List Str)))
    (results results' : ArtifactData lib) : Prop where
  contexts : ∀ context, (results.testData.get? context).isSome =
    (results'.testData.get? context).isSome
  nodes : ∀ context data data', results.testData.get? context = some data →
    results'.testData.get? context = some data' →
      data.xpassNodes = data'.xpassNodes ∧ data.xfailNodes = data'.xfailNodes
  rules : ∀ context data data', results.testData.get? context = some data →
    results'.testData.get? context = some data' → ∀ rule,
      SameRules (lib.traverse getDeactivation data.trie rule)
        (lib.traverse getDeactivation data'.trie rule)
  weblogs : ∀ library, results.weblogs.get? library = results'.weblogs.get? library

/-- No path of a context has conflicting updates. -/
def NoConflict (excludedOwners : Finset Str) (reports : List (Context × Report)) : Prop :=
  ∀ context key, ¬ Conflict (updatesAt excludedOwners key (testsOf context reports))

/-- The outcomes of a node in a context. -/
def outcomesOf (excludedOwners : Finset Str) (context : Context) (node : Str)
    (reports : List (Context × Report)) : List Outcome :=
  ((testsOf context reports).filter (nodeOf · = node)).map (effectiveOutcome excludedOwners)

theorem mem_updatesAt_perm {key : Str} {tests tests' : List Test} (h : tests.Perm tests')
    (u : Update) :
    u ∈ updatesAt excludedOwners key tests ↔ u ∈ updatesAt excludedOwners key tests' :=
  (h.flatMap_right _).mem_iff

theorem recorded_perm {tests tests' : List Test} (h : tests.Perm tests') :
    (recorded lib excludedOwners tests).xpassNodes =
        (recorded lib excludedOwners tests').xpassNodes ∧
      (recorded lib excludedOwners tests).xfailNodes =
        (recorded lib excludedOwners tests').xfailNodes := by
  constructor
  · ext node
    simp only [mem_xpassNodes_iff, h.mem_iff]
  · ext node
    simp only [mem_xfailNodes_iff, h.mem_iff]

/-- **Without conflicts the order of the reports has no influence.** -/
theorem sameResults_collected (hdoc : lib.Documented) {reports reports' : List (Context × Report)}
    (h : PermBy ReadPermuted reports reports') (hconflict : NoConflict excludedOwners reports) :
    SameResults lib (collected lib excludedOwners reports)
      (collected lib excludedOwners reports') := by
  have hcontexts : ∀ context, context ∈ reports.map Prod.fst ↔ context ∈ reports'.map Prod.fst :=
    fun context => (contexts_permuted h).mem_iff
  have hdata : ∀ context data data',
      (collected lib excludedOwners reports).testData.get? context = some data →
        (collected lib excludedOwners reports').testData.get? context = some data' →
          data = recorded lib excludedOwners (testsOf context reports) ∧
            data' = recorded lib excludedOwners (testsOf context reports') := by
    intro context data data' hget hget'
    rw [get?_collected] at hget hget'
    split_ifs at hget hget'
    exact ⟨(Option.some.inj hget).symm, (Option.some.inj hget').symm⟩
  constructor
  · intro context
    rw [get?_collected, get?_collected]
    simp only [hcontexts context]
    split_ifs <;> rfl
  · intro context data data' hget hget'
    obtain ⟨rfl, rfl⟩ := hdata context data data' hget hget'
    exact recorded_perm (testsOf_permuted context h)
  · intro context data data' hget hget' rule
    obtain ⟨rfl, rfl⟩ := hdata context data data' hget hget'
    have hperm := testsOf_permuted context h
    refine sameRules_of_verdict hdoc (fun key => ?_) rule
    have hconflict' := (conflict_congr (mem_updatesAt_perm hperm)).not.mp (hconflict context key)
    rw [verdict_recorded hdoc, verdict_recorded hdoc,
      run_eq_verdictOf (hconflict context key), run_eq_verdictOf hconflict']
    exact verdictOf_congr (mem_updatesAt_perm hperm)
  · intro library
    rw [weblogs_collected, weblogs_collected]
    have hlibraries : library ∈ reports.map (·.1.library) ↔
        library ∈ reports'.map (·.1.library) := by
      have hmap := ((contexts_permuted h).map Context.library).mem_iff (a := library)
      simpa [List.map_map] using hmap
    have hvariants : ((reports.filter (·.1.library = library)).map (·.1.variant)).toFinset =
        ((reports'.filter (·.1.library = library)).map (·.1.variant)).toFinset := by
      ext variant
      have hmem := fun context => hcontexts context
      simp only [List.mem_map, Prod.exists, exists_and_right, exists_eq_right] at hmem
      simp only [List.mem_toFinset, List.mem_map, List.mem_filter, Prod.exists,
        decide_eq_true_eq]
      constructor
      · rintro ⟨context, report, ⟨hread, hlibrary⟩, hvariant⟩
        obtain ⟨report', hread'⟩ := (hmem context).mp ⟨report, hread⟩
        exact ⟨context, report', ⟨hread', hlibrary⟩, hvariant⟩
      · rintro ⟨context, report, ⟨hread, hlibrary⟩, hvariant⟩
        obtain ⟨report', hread'⟩ := (hmem context).mpr ⟨report, hread⟩
        exact ⟨context, report', ⟨hread', hlibrary⟩, hvariant⟩
    simp only [hlibraries, hvariants]

theorem SameRules.symm {x y : Except Raised (List (List Str))} (h : SameRules x y) :
    SameRules y x := by
  cases x with
  | error e =>
      cases y with
      | error e' => exact Eq.symm h
      | ok rules' => exact h.elim
  | ok rules =>
      cases y with
      | error e' => exact h.elim
      | ok rules' => exact fun q => (h q).symm

theorem SameRules.trans {x y z : Except Raised (List (List Str))} (hxy : SameRules x y)
    (hyz : SameRules y z) : SameRules x z := by
  cases x with
  | error e =>
      cases y with
      | ok rules' => exact hxy.elim
      | error e' =>
          cases z with
          | ok rules'' => exact hyz.elim
          | error e'' => exact Eq.trans hxy hyz
  | ok rules =>
      cases y with
      | error e' => exact hxy.elim
      | ok rules' =>
          cases z with
          | error e'' => exact hyz.elim
          | ok rules'' => exact fun q => (hxy q).trans (hyz q)

/-- A test updates paths only as a success or only as a failure. -/
theorem testUpdates_cases (key : Str) (test : Test) :
    (∀ u ∈ testUpdates excludedOwners key test, u = .good ∨ u = .leafXpass ∨ u = .ignored) ∨
      ∀ u ∈ testUpdates excludedOwners key test, u = .fail ∨ u = .leafXfail := by
  cases houtcome : effectiveOutcome excludedOwners test with
  | xfailed =>
      right
      intro u hu
      obtain ⟨slice, -, rfl⟩ := List.mem_map.mp hu
      rw [houtcome, Update.ofOutcome]
      split_ifs <;> simp
  | skipped =>
      right
      intro u hu
      obtain ⟨slice, -, rfl⟩ := List.mem_map.mp hu
      rw [houtcome, Update.ofOutcome]
      split_ifs <;> simp
  | xpassed =>
      left
      intro u hu
      obtain ⟨slice, -, rfl⟩ := List.mem_map.mp hu
      rw [houtcome, Update.ofOutcome]
      split_ifs <;> simp
  | passed =>
      left
      intro u hu
      obtain ⟨slice, -, rfl⟩ := List.mem_map.mp hu
      rw [houtcome]
      exact Or.inl rfl
  | other text =>
      left
      intro u hu
      obtain ⟨slice, -, rfl⟩ := List.mem_map.mp hu
      rw [houtcome]
      exact Or.inr (Or.inr rfl)

theorem not_failure_of_success {key : Str} {test : Test} {u u' : Update}
    (hu : u ∈ testUpdates excludedOwners key test) (hu' : u' ∈ testUpdates excludedOwners key test)
    (hsuccess : u = .good ∨ u = .leafXpass) : u' ≠ .fail ∧ u' ≠ .leafXfail := by
  have hcases := @testUpdates_cases excludedOwners key test
  rcases hcases with hall | hall
  · rcases hall u' hu' with rfl | rfl | rfl <;> decide
  · rcases hall u hu with rfl | rfl
    · exact absurd hsuccess (by decide)
    · exact absurd hsuccess (by decide)

/-- **A conflict is decided by the order.** -/
theorem conflict_orders {context : Context} {key : Str}
    (h : Conflict (updatesAt excludedOwners key
      (testsOf context (readReports sv libraries useDev dataDir)))) :
    ∃ dataDir₁ dataDir₂, Permuted dataDir dataDir₁ ∧ Permuted dataDir dataDir₂ ∧
      run (updatesAt excludedOwners key
        (testsOf context (readReports sv libraries useDev dataDir₁))) none = some .blocked ∧
      run (updatesAt excludedOwners key
        (testsOf context (readReports sv libraries useDev dataDir₂))) none = some .mixed := by
  have hmem : ∀ {dataDir' : List Directory}, Permuted dataDir dataDir' → ∀ u,
      u ∈ updatesAt excludedOwners key (testsOf context
          (readReports sv libraries useDev dataDir)) ↔
        u ∈ updatesAt excludedOwners key (testsOf context
          (readReports sv libraries useDev dataDir')) :=
    fun hpermuted => mem_updatesAt_perm (testsOf_permuted context (readReports_permuted hpermuted))
  rcases h with ⟨hleaf, hgood⟩ | ⟨hleafXpass, hfail, hnotGood, hnotLeaf⟩
  · obtain ⟨failed, hfailed, hleaf'⟩ := List.mem_flatMap.mp hleaf
    obtain ⟨passed, hpassed, hgood'⟩ := List.mem_flatMap.mp hgood
    obtain ⟨dataDir₁, tests₁, hpermuted₁, htests₁⟩ := exists_read_last hfailed
    obtain ⟨dataDir₂, tests₂, hpermuted₂, htests₂⟩ := exists_read_last hpassed
    refine ⟨dataDir₁, dataDir₂, hpermuted₁, hpermuted₂, ?_, ?_⟩
    · rw [htests₁, updatesAt, List.flatMap_append, List.flatMap_singleton, run_append]
      refine run_last_leafXfail (fun hmem' => ?_) hleaf'
      exact (not_failure_of_success hmem' hleaf' (Or.inl rfl)).2 rfl
    · have hleaf₂ := (hmem hpermuted₂ _).mp hleaf
      rw [htests₂, updatesAt, List.flatMap_append, List.flatMap_singleton] at hleaf₂
      have hnotLast : .leafXfail ∉ testUpdates excludedOwners key passed :=
        fun hmem' => (not_failure_of_success hgood' hmem' (Or.inl rfl)).2 rfl
      have hbefore := (List.mem_append.mp hleaf₂).resolve_right hnotLast
      rw [htests₂, updatesAt, List.flatMap_append, List.flatMap_singleton, run_append]
      exact run_last_good (isBad_of_leafXfail hbefore) hnotLast hgood'
  · obtain ⟨failed, hfailed, hfail'⟩ := List.mem_flatMap.mp hfail
    obtain ⟨passed, hpassed, hleafXpass'⟩ := List.mem_flatMap.mp hleafXpass
    obtain ⟨dataDir₁, tests₁, hpermuted₁, htests₁⟩ := exists_read_first hfailed
    obtain ⟨dataDir₂, tests₂, hpermuted₂, htests₂⟩ := exists_read_first hpassed
    refine ⟨dataDir₁, dataDir₂, hpermuted₁, hpermuted₂, ?_, ?_⟩
    · have hnotGood₁ := (hmem hpermuted₁ _).not.mp hnotGood
      rw [htests₁, updatesAt, List.flatMap_cons, List.mem_append, not_or] at hnotGood₁
      have hnotXpass : .leafXpass ∉ testUpdates excludedOwners key failed :=
        fun hmem' => (not_failure_of_success hmem' hfail' (Or.inr rfl)).1 rfl
      rw [htests₁, updatesAt, List.flatMap_cons, run_append,
        run_fail_only hnotGood₁.1 hnotXpass hfail']
      exact run_blocked hnotGood₁.2
    · have hnotLeaf₂ := (hmem hpermuted₂ _).not.mp hnotLeaf
      have hfail₂ := (hmem hpermuted₂ _).mp hfail
      rw [htests₂, updatesAt, List.flatMap_cons, List.mem_append, not_or] at hnotLeaf₂
      rw [htests₂, updatesAt, List.flatMap_cons, List.mem_append] at hfail₂
      have hnotFail : .fail ∉ testUpdates excludedOwners key passed :=
        fun hmem' => (not_failure_of_success hleafXpass' hmem' (Or.inr rfl)).1 rfl
      rw [htests₂, updatesAt, List.flatMap_cons, run_append,
        run_no_failure hnotLeaf₂.1 hnotFail, if_pos (Or.inr hleafXpass')]
      exact run_first_leafXpass hnotLeaf₂.2 (hfail₂.resolve_left hnotFail)

theorem mem_contexts_of_updates {context : Context} {key : Str} {u : Update}
    {reports : List (Context × Report)}
    (h : u ∈ updatesAt excludedOwners key (testsOf context reports)) :
    context ∈ reports.map Prod.fst := by
  by_contra hnot
  rw [testsOf_eq_nil hnot] at h
  exact absurd h (by simp [updatesAt])

/--
**When the order of the reports has no influence.**  For directories that are
not mixed, all orders of the directories, scenarios and tests give the same
nodes, weblogs and rules if and only if no path has conflicting updates.  The
nodes themselves depend on the outcomes of each node only.
-/
theorem parseArtifactData_orderIndependent_iff (sv : SemanticVersion)
    (lib : StringTrie ActivationStatus (List (List Str))) (hdoc : lib.Documented)
    (libraries : List Str) (excludedOwners : Finset Str) (useDev : Bool)
    (dataDir : List Directory) (results : ArtifactData lib)
    (h : parseArtifactData sv lib libraries excludedOwners useDev dataDir = .ok results)
    (hmix : Homogeneous sv libraries useDev dataDir) :
    ((∀ dataDir', Permuted dataDir dataDir' → ∃ results',
        parseArtifactData sv lib libraries excludedOwners useDev dataDir' = .ok results' ∧
          SameResults lib results results') ↔
      NoConflict excludedOwners (readReports sv libraries useDev dataDir)) ∧
    ∀ context data, results.testData.get? context = some data → ∀ node,
      (node ∈ data.xfailNodes ↔ ∃ outcome ∈ outcomesOf excludedOwners context node
        (readReports sv libraries useDev dataDir), outcome ≠ .xpassed) ∧
      (node ∈ data.xpassNodes ↔ outcomesOf excludedOwners context node
          (readReports sv libraries useDev dataDir) ≠ [] ∧
        ∀ outcome ∈ outcomesOf excludedOwners context node
          (readReports sv libraries useDev dataDir), outcome = .xpassed) := by
  obtain ⟨hreadable, hread⟩ := (parseArtifactData_eq_ok_iff hmix).mp h
  have hresults : results = collected lib excludedOwners
    (readReports sv libraries useDev dataDir) := hread
  have hparse : ∀ dataDir', Permuted dataDir dataDir' →
      parseArtifactData sv lib libraries excludedOwners useDev dataDir' = .ok
        (collected lib excludedOwners (readReports sv libraries useDev dataDir')) :=
    fun dataDir' hpermuted => (parseArtifactData_eq_ok_iff (homogeneous_permuted hpermuted hmix)).mpr
      ⟨readable_permuted hpermuted hreadable, rfl⟩
  refine ⟨⟨?_, ?_⟩, ?_⟩
  · intro hsame context key hconflict
    obtain ⟨dataDir₁, dataDir₂, hpermuted₁, hpermuted₂, hblocked, hmixed⟩ :=
      conflict_orders hconflict
    have hcontext : context ∈ (readReports sv libraries useDev dataDir).map Prod.fst := by
      rcases hconflict with ⟨hmem, -⟩ | ⟨hmem, -⟩
      · exact mem_contexts_of_updates hmem
      · exact mem_contexts_of_updates hmem
    have hdata : ∀ {dataDir'}, Permuted dataDir dataDir' →
        (collected lib excludedOwners (readReports sv libraries useDev dataDir')).testData.get?
            context = some (recorded lib excludedOwners (testsOf context
              (readReports sv libraries useDev dataDir'))) := by
      intro dataDir' hpermuted
      rw [get?_collected, if_pos]
      exact (contexts_permuted (readReports_permuted hpermuted)).mem_iff.mp hcontext
    have hrules : ∀ {dataDir'}, Permuted dataDir dataDir' →
        SameRules
          (lib.traverse getDeactivation (recorded lib excludedOwners (testsOf context
            (readReports sv libraries useDev dataDir))).trie key)
          (lib.traverse getDeactivation (recorded lib excludedOwners (testsOf context
            (readReports sv libraries useDev dataDir'))).trie key) := by
      intro dataDir' hpermuted
      obtain ⟨results', hresults', hsameResults⟩ := hsame dataDir' hpermuted
      rw [hparse dataDir' hpermuted] at hresults'
      obtain rfl := Except.ok.inj hresults'
      refine hsameResults.rules context _ _ ?_ (hdata hpermuted) key
      rw [hresults]
      exact hdata (PermBy.of_perm _ DirectoryPermuted.refl (List.Perm.refl _))
    refine @not_sameRules lib hdoc _ _ key ?_ ?_
      ((hrules hpermuted₁).symm.trans (hrules hpermuted₂))
    · rw [verdict_recorded hdoc, hblocked]
    · rw [verdict_recorded hdoc, hmixed]
  · intro hconflict dataDir' hpermuted
    refine ⟨_, hparse dataDir' hpermuted, ?_⟩
    rw [hresults]
    exact sameResults_collected hdoc (readReports_permuted hpermuted) hconflict
  · intro context data hget node
    rw [hresults, get?_collected] at hget
    split_ifs at hget
    obtain rfl := Option.some.inj hget
    have houtcomes : ∀ outcome, outcome ∈ outcomesOf excludedOwners context node
          (readReports sv libraries useDev dataDir) ↔
        ∃ test ∈ testsOf context (readReports sv libraries useDev dataDir),
          nodeOf test = node ∧ effectiveOutcome excludedOwners test = outcome := by
      intro outcome
      simp [outcomesOf, and_assoc]
    rw [mem_xfailNodes_iff, mem_xpassNodes_iff]
    simp only [houtcomes]
    constructor
    · constructor
      · rintro ⟨test, htest, hnode, hne⟩
        exact ⟨_, ⟨test, htest, hnode, rfl⟩, hne⟩
      · rintro ⟨_, ⟨test, htest, hnode, rfl⟩, hne⟩
        exact ⟨test, htest, hnode, hne⟩
    · constructor
      · rintro ⟨⟨test, htest, hnode⟩, hall⟩
        refine ⟨List.ne_nil_of_mem ((houtcomes _).mpr ⟨test, htest, hnode, rfl⟩), ?_⟩
        rintro _ ⟨test', htest', hnode', rfl⟩
        exact hall test' htest' hnode'
      · rintro ⟨hne, hall⟩
        obtain ⟨outcome, houtcome⟩ := List.exists_mem_of_ne_nil _ hne
        obtain ⟨test, htest, hnode, -⟩ := (houtcomes _).mp houtcome
        exact ⟨⟨test, htest, hnode⟩, fun test' htest' hnode' =>
          hall _ ⟨test', htest', hnode', rfl⟩⟩

/-- One scenario of one directory. -/
def oneReport (tests : List Test) : List Directory :=
  [⟨"test_run", [some ⟨some "python", some "2.0.0", some "flask", tests⟩]⟩]

def failedParameter : Test := ⟨"tests/test_a.py::Test_A::test_b[1]", .xfailed, none⟩

def passedParameter : Test := ⟨"tests/test_a.py::Test_A::test_b[2]", .passed, none⟩

theorem parseArtifactData_orderIndependent_iff_oneReport :
    ∃ results, parseArtifactData fullVersions .ofDict ["python".toList] ∅ false
        (oneReport [failedParameter]) = .ok results ∧
      ((∀ dataDir', Permuted (oneReport [failedParameter]) dataDir' → ∃ results',
          parseArtifactData fullVersions .ofDict ["python".toList] ∅ false dataDir' =
            .ok results' ∧ SameResults .ofDict results results') ↔
        NoConflict ∅ (readReports fullVersions ["python".toList] false
          (oneReport [failedParameter]))) := by
  refine ⟨_, rfl, (parseArtifactData_orderIndependent_iff fullVersions .ofDict
    StringTrie.ofDict_documented ["python".toList] ∅ false (oneReport [failedParameter]) _ rfl
    ?_).1⟩
  rintro directory hdirectory - ⟨report, hreport, hnone⟩
  obtain rfl := List.mem_singleton.mp hdirectory
  obtain rfl := Option.some.inj (List.mem_singleton.mp hreport)
  exact absurd hnone (by decide)

/-- The verdict on a node with a failed and a passed parameter depends on their order. -/
theorem parseArtifactData_order_matters :
    ¬ ∀ (dataDir dataDir' : List Directory) (results : ArtifactData .ofDict),
      parseArtifactData fullVersions .ofDict ["python".toList] ∅ false dataDir = .ok results →
        Permuted dataDir dataDir' → ∃ results',
          parseArtifactData fullVersions .ofDict ["python".toList] ∅ false dataDir' =
            .ok results' ∧ SameResults .ofDict results results' := by
  intro h
  have hpermuted : Permuted (oneReport [failedParameter, passedParameter])
      (oneReport [passedParameter, failedParameter]) :=
    PermBy.singleton ⟨rfl, PermBy.singleton ⟨_, List.Perm.swap _ _ _, rfl⟩⟩
  obtain ⟨results', hok, hsame⟩ := h _ _ _ rfl hpermuted
  obtain rfl := Except.ok.inj hok
  have hrules := hsame.rules ⟨"python", .release 2 0 0, "flask"⟩ _ _ rfl rfl
    "tests/test_a.py/Test_A/test_b"
  have hmem := (hrules (["tests", "test_a.py", "Test_A", "test_b"].map String.toList)).mpr
    (by decide)
  exact absurd hmem (by decide)

end Independence

end EasyWins
end SystemTests
