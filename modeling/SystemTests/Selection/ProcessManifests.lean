import SystemTests.Manifest.NodeId

/-!
# Scenarios impacted by a change of the manifests

`ScenarioProcessor.process_manifests` (`utils/scripts/compute_libraries_and_scenarios.py`)
compares the old and the new manifest data rule by rule, and selects the
scenarios of every test whose identifier starts with a modified rule.

How two version ranges are compared is up to the package that defines them.

**Result.**  `processManifests_selects`: a scenario that contains a test whose
applicable conditions changed is selected.
-/

namespace SystemTests
namespace Selection

open Foundation Foundation.Text Foundation.Semver Foundation.Regex Manifest

/-- What the selection reads of a scenario: the libraries it activates, if it does. -/
structure Scenario where
  libraries : Option (Finset Str)

structure Inputs where
  newManifests : ManifestData
  oldManifests : ManifestData
  scenarioMap : Option (Dict Str (List Str))

structure ScenarioProcessor where
  scenarios : Finset Str
  impactedLibraries : Finset Str

section Comparison

variable (rangeEq : SemverRange → SemverRange → Bool)

def optionEqv {α : Type} (eqv : α → α → Bool) : Option α → Option α → Bool
  | none, none => true
  | some a, some b => eqv a b
  | _, _ => false

/-- `==` of two conditions, which are dictionaries. -/
def sameCondition (c c' : Condition) : Bool :=
  c.component = c'.component && c.declaration = c'.declaration &&
    optionEqv rangeEq c.componentVersion c'.componentVersion &&
    optionEqv rangeEq c.excludedComponentVersion c'.excludedComponentVersion &&
    c.weblog = c'.weblog && c.excludedWeblog = c'.excludedWeblog

def isModified (inputs : Inputs) (nodeid : Str) : Bool :=
  match inputs.newManifests.get? nodeid, inputs.oldManifests.get? nodeid with
  | some new, some old => !new.isEqv old (sameCondition rangeEq)
  | _, _ => true

def modifiedNodeids (inputs : Inputs) : List Str :=
  (inputs.newManifests.keys ++ inputs.oldManifests.keys).dedup.filter (isModified rangeEq inputs)

end Comparison

section Process

variable (rangeEq : SemverRange → SemverRange → Bool)
variable (lower : Str → Str) (scenarios : Str → Option Scenario)

/-- The libraries that a scenario activates are added. -/
def addLibraries (processor : ScenarioProcessor) (scenarioName : Str) :
    Except Raised ScenarioProcessor := do
  let scenario ← Raised.ofOption (.attributeError (lower scenarioName))
    (scenarios (lower scenarioName))
  match scenario.libraries with
  | none => return processor
  | some libraries =>
      return { processor with impactedLibraries := processor.impactedLibraries ∪ libraries }

def appendScenariosFromTestFiles (processor : ScenarioProcessor) (scenarioNames : List Str) :
    Except Raised ScenarioProcessor :=
  scenarioNames.dedup.foldlM (addLibraries lower scenarios)
    { processor with scenarios := processor.scenarios ∪ scenarioNames.toFinset }

/-- One entry of the scenario map. -/
def processNode (modified : List Str) (processor : ScenarioProcessor)
    (entry : Str × List Str) : Except Raised ScenarioProcessor :=
  if modified.any (·.isPrefixOf entry.1) then
    appendScenariosFromTestFiles lower scenarios processor entry.2
  else return processor

def processManifests (processor : ScenarioProcessor) (inputs : Inputs) :
    Except Raised ScenarioProcessor :=
  match inputs.scenarioMap with
  | none => return processor
  | some scenarioMap =>
      scenarioMap.items.foldlM (processNode lower scenarios (modifiedNodeids rangeEq inputs))
        processor

end Process

section Impact

variable {rangeEq : SemverRange → SemverRange → Bool}

/-- The conditions of the rules that match a test. -/
def applicableConditions (data : ManifestData) (nodeid : Str) : List Condition :=
  data.items.flatMap fun p => if matchRule p.1 nodeid then p.2 else []

/-- Two lists of conditions hold the same ones. -/
def SameConditions (rangeEq : SemverRange → SemverRange → Bool) (old new : List Condition) :
    Prop :=
  (∀ c ∈ old, ∃ c' ∈ new, sameCondition rangeEq c' c = true) ∧
    ∀ c' ∈ new, ∃ c ∈ old, sameCondition rangeEq c' c = true

theorem mem_applicableConditions {data : ManifestData} {nodeid : Str} {c : Condition} :
    c ∈ applicableConditions data nodeid ↔
      ∃ rule cs, data.get? rule = some cs ∧ matchRule rule nodeid = true ∧ c ∈ cs := by
  simp only [applicableConditions, List.mem_flatMap, Prod.exists, Dict.mem_items_iff]
  refine exists_congr fun rule => exists_congr fun cs => ?_
  by_cases hmatch : matchRule rule nodeid = true
  · simp [hmatch]
  · simp [hmatch]

theorem isEqv_members {α : Type} {eqv : α → α → Bool} :
    ∀ {l l' : List α}, l.isEqv l' eqv = true →
      (∀ a ∈ l, ∃ b ∈ l', eqv a b = true) ∧ ∀ b ∈ l', ∃ a ∈ l, eqv a b = true
  | [], [], _ => by simp
  | [], _ :: _, h => by simp at h
  | _ :: _, [], h => by simp at h
  | a :: l, b :: l', h => by
      rw [List.isEqv_cons_cons, Bool.and_eq_true] at h
      obtain ⟨hab, hl⟩ := h
      obtain ⟨hleft, hright⟩ := isEqv_members hl
      constructor
      · intro x hx
        rcases List.mem_cons.mp hx with rfl | hx
        · exact ⟨b, by simp, hab⟩
        · obtain ⟨y, hy, hxy⟩ := hleft x hx
          exact ⟨y, List.mem_cons_of_mem _ hy, hxy⟩
      · intro y hy
        rcases List.mem_cons.mp hy with rfl | hy
        · exact ⟨a, by simp, hab⟩
        · obtain ⟨x, hx, hxy⟩ := hright y hy
          exact ⟨x, List.mem_cons_of_mem _ hx, hxy⟩

/-- A rule that is not modified has conditions that are the same one by one. -/
theorem isEqv_of_not_modified {inputs : Inputs} {rule : Str}
    (hkey : rule ∈ inputs.newManifests.keys ∨ rule ∈ inputs.oldManifests.keys)
    (h : rule ∉ modifiedNodeids rangeEq inputs) :
    ∃ new old, inputs.newManifests.get? rule = some new ∧
      inputs.oldManifests.get? rule = some old ∧
      new.isEqv old (sameCondition rangeEq) = true := by
  have hfalse : isModified rangeEq inputs rule = false := by
    rw [Bool.eq_false_iff]
    intro htrue
    refine h (List.mem_filter.mpr ⟨?_, htrue⟩)
    rw [List.mem_dedup, List.mem_append]
    exact hkey
  unfold isModified at hfalse
  split at hfalse
  · rename_i new old hnew hold
    exact ⟨new, old, hnew, hold, by simpa using hfalse⟩
  · exact absurd hfalse (by simp)

/-- Where no modified rule begins the identifier, the applicable conditions stay the same. -/
theorem sameConditions_of_not_modified {inputs : Inputs} {node : NodeId}
    (hnew : ∀ key ∈ inputs.newManifests.keys, ∃ rule : CanonicalRule, key = rule.str)
    (hold : ∀ key ∈ inputs.oldManifests.keys, ∃ rule : CanonicalRule, key = rule.str)
    (h : ∀ modified ∈ modifiedNodeids rangeEq inputs, ¬ modified <+: node.str) :
    SameConditions rangeEq (applicableConditions inputs.oldManifests node.str)
      (applicableConditions inputs.newManifests node.str) := by
  have hrule : ∀ key, key ∈ inputs.newManifests.keys ∨ key ∈ inputs.oldManifests.keys →
      matchRule key node.str = true → ∃ new old, inputs.newManifests.get? key = some new ∧
        inputs.oldManifests.get? key = some old ∧
        new.isEqv old (sameCondition rangeEq) = true := by
    intro key hkey hmatch
    obtain ⟨rule, rfl⟩ : ∃ rule : CanonicalRule, key = rule.str := by
      rcases hkey with hkey | hkey
      · exact hnew key hkey
      · exact hold key hkey
    exact isEqv_of_not_modified hkey fun hmem => h _ hmem (prefix_of_matchRule hmatch)
  constructor
  · intro c hc
    obtain ⟨key, cs, hget, hmatch, hc⟩ := mem_applicableConditions.mp hc
    have hkey : key ∈ inputs.oldManifests.keys :=
      (Dict.get?_isSome_iff _ _).mp (by rw [hget]; rfl)
    obtain ⟨new, old, hgetNew, hgetOld, heqv⟩ := hrule key (Or.inr hkey) hmatch
    obtain rfl : old = cs := by
      rw [hgetOld] at hget
      exact Option.some.inj hget
    obtain ⟨c', hc', hsame⟩ := (isEqv_members heqv).2 c hc
    exact ⟨c', mem_applicableConditions.mpr ⟨key, new, hgetNew, hmatch, hc'⟩, hsame⟩
  · intro c' hc'
    obtain ⟨key, cs, hget, hmatch, hc'⟩ := mem_applicableConditions.mp hc'
    have hkey : key ∈ inputs.newManifests.keys :=
      (Dict.get?_isSome_iff _ _).mp (by rw [hget]; rfl)
    obtain ⟨new, old, hgetNew, hgetOld, heqv⟩ := hrule key (Or.inl hkey) hmatch
    obtain rfl : new = cs := by
      rw [hgetNew] at hget
      exact Option.some.inj hget
    obtain ⟨c, hc, hsame⟩ := (isEqv_members heqv).1 c' hc'
    exact ⟨c, mem_applicableConditions.mpr ⟨key, old, hgetOld, hmatch, hc⟩, hsame⟩

end Impact

section Selection

variable {rangeEq : SemverRange → SemverRange → Bool}
variable {lower : Str → Str} {scenarios : Str → Option Scenario}

theorem addLibraries_scenarios {processor processor' : ScenarioProcessor} {name : Str}
    (h : addLibraries lower scenarios processor name = .ok processor') :
    processor'.scenarios = processor.scenarios := by
  simp only [addLibraries, Raised.bind_eq_ok] at h
  obtain ⟨scenario, -, h⟩ := h
  cases hlibraries : scenario.libraries with
  | none =>
      rw [hlibraries] at h
      rw [Raised.pure_eq_ok] at h
      rw [← h]
  | some libraries =>
      rw [hlibraries] at h
      rw [Raised.pure_eq_ok] at h
      rw [← h]

theorem appendScenariosFromTestFiles_scenarios {processor processor' : ScenarioProcessor}
    {names : List Str}
    (h : appendScenariosFromTestFiles lower scenarios processor names = .ok processor') :
    processor'.scenarios = processor.scenarios ∪ names.toFinset := by
  have hkept : ∀ p name p', addLibraries lower scenarios p name = .ok p' →
      p.scenarios = processor.scenarios ∪ names.toFinset →
        p'.scenarios = processor.scenarios ∪ names.toFinset := by
    intro p name p' hp heq
    rw [addLibraries_scenarios hp, heq]
  exact Raised.foldlM_invariant hkept h rfl

theorem processNode_scenarios {modified : List Str} {processor processor' : ScenarioProcessor}
    {entry : Str × List Str}
    (h : processNode lower scenarios modified processor entry = .ok processor') :
    processor'.scenarios = if modified.any (·.isPrefixOf entry.1) then
      processor.scenarios ∪ entry.2.toFinset else processor.scenarios := by
  unfold processNode at h
  split_ifs at h ⊢ with hany
  · exact appendScenariosFromTestFiles_scenarios h
  · rw [Raised.pure_eq_ok] at h
    rw [h]

theorem exists_processNode {modified : List Str} {entry : Str × List Str}
    (hknown : ∀ name ∈ entry.2, (scenarios (lower name)).isSome = true)
    (processor : ScenarioProcessor) :
    ∃ processor', processNode lower scenarios modified processor entry = .ok processor' := by
  unfold processNode
  split_ifs
  · refine Raised.exists_foldlM_eq_ok (fun name hname p => ?_) _
    obtain ⟨scenario, hscenario⟩ :=
      Option.isSome_iff_exists.mp (hknown name (List.mem_dedup.mp hname))
    unfold addLibraries
    rw [hscenario, Raised.ofOption_some, Raised.ok_bind]
    cases scenario.libraries with
    | none => exact ⟨_, rfl⟩
    | some libraries => exact ⟨_, rfl⟩
  · exact ⟨processor, rfl⟩

/--
**Changes of the manifests select the impacted scenarios.**  When the keys of
both manifests are canonical, every scenario of a test whose applicable
conditions differ is selected; the step returns whenever the scenarios of the
map are known.
-/
theorem processManifests_selects (rangeEq : SemverRange → SemverRange → Bool)
    (lower : Str → Str) (scenarios : Str → Option Scenario) (processor : ScenarioProcessor)
    (inputs : Inputs)
    (hnew : ∀ key ∈ inputs.newManifests.keys, ∃ rule : CanonicalRule, key = rule.str)
    (hold : ∀ key ∈ inputs.oldManifests.keys, ∃ rule : CanonicalRule, key = rule.str) :
    (∀ processor', processManifests rangeEq lower scenarios processor inputs = .ok processor' →
      ∀ scenarioMap (node : NodeId) names, inputs.scenarioMap = some scenarioMap →
        scenarioMap.get? node.str = some names →
        ¬ SameConditions rangeEq (applicableConditions inputs.oldManifests node.str)
          (applicableConditions inputs.newManifests node.str) →
        ∀ name ∈ names, name ∈ processor'.scenarios) ∧
      ((∀ scenarioMap nodeid names, inputs.scenarioMap = some scenarioMap →
        scenarioMap.get? nodeid = some names →
        ∀ name ∈ names, (scenarios (lower name)).isSome = true) →
      ∃ processor', processManifests rangeEq lower scenarios processor inputs =
        .ok processor') := by
  constructor
  · intro processor' h scenarioMap node names hmap hnames hdiffer name hname
    have hany : (modifiedNodeids rangeEq inputs).any (·.isPrefixOf node.str) = true := by
      by_contra hnone
      refine hdiffer (sameConditions_of_not_modified hnew hold fun modified hmem hpre => ?_)
      exact hnone (List.any_eq_true.mpr ⟨modified, hmem, List.isPrefixOf_iff_prefix.mpr hpre⟩)
    rw [processManifests, hmap] at h
    obtain ⟨l₁, l₂, p, p', -, -, hp, hrest⟩ :=
      Raised.foldlM_eq_ok_split h ((Dict.mem_items_iff _ _ _).mpr hnames)
    have hadded : name ∈ p'.scenarios := by
      rw [processNode_scenarios hp, if_pos hany, Finset.mem_union, List.mem_toFinset]
      exact Or.inr hname
    have hkept : ∀ q entry q', processNode lower scenarios (modifiedNodeids rangeEq inputs) q
        entry = .ok q' → name ∈ q.scenarios → name ∈ q'.scenarios := by
      intro q entry q' hq hmem
      rw [processNode_scenarios hq]
      split_ifs
      · exact Finset.mem_union_left _ hmem
      · exact hmem
    exact Raised.foldlM_invariant hkept hrest hadded
  · intro hknown
    unfold processManifests
    cases hmap : inputs.scenarioMap with
    | none => exact ⟨processor, rfl⟩
    | some scenarioMap =>
        refine Raised.exists_foldlM_eq_ok (fun entry hentry p => ?_) processor
        exact exists_processNode
          (hknown scenarioMap entry.1 entry.2 hmap ((Dict.mem_items_iff _ _ _).mp hentry)) p

/-- A test in the class `Test_A`. -/
def testA : NodeId where
  path := ["tests", "test_a.py"]
  names := ["Test_A", "test_b"]
  arguments := "[x/y]"
  isPart := by decide
  fileIsLast := by decide
  endsInFile := ⟨"test_a.py", rfl, by decide⟩
  bracket := by decide

/-- The rule of the directory. -/
def testsRule : CanonicalRule where
  path := ["tests"]
  names := []
  slash := true
  path_ne_nil := by decide
  isPart := by decide
  fileIsLast := by decide
  names_in_file := fun h => absurd rfl h
  slash_directory := by
    rintro - ⟨part, hpart, hfile⟩
    obtain rfl : "tests".toList = part := by simpa using hpart
    exact absurd hfile (by decide)

/-- The directory becomes irrelevant for Python instead of a missing feature. -/
def changedDirectory : Inputs where
  newManifests := Dict.empty.set testsRule.str
    [⟨"python", ⟨.irrelevant, none⟩, none, none, none, none⟩]
  oldManifests := Dict.empty.set testsRule.str
    [⟨"python", ⟨.missingFeature, none⟩, none, none, none, none⟩]
  scenarioMap := some (Dict.empty.set testA.str ["APPSEC".toList])

theorem processManifests_selects_changedDirectory :
    ∃ processor', processManifests (fun r r' => r.expression = r'.expression) id
        (fun _ => some ⟨none⟩) ⟨{"DEFAULT".toList}, ∅⟩ changedDirectory = .ok processor' ∧
      "APPSEC".toList ∈ processor'.scenarios := by
  have hkeys : ∀ key ∈ [testsRule.str], ∃ rule : CanonicalRule, key = rule.str := by
    intro key hkey
    exact ⟨testsRule, List.mem_singleton.mp hkey⟩
  obtain ⟨hselected, hreturns⟩ := processManifests_selects
    (fun r r' => r.expression = r'.expression) id (fun _ => some ⟨none⟩)
    ⟨{"DEFAULT".toList}, ∅⟩ changedDirectory hkeys hkeys
  obtain ⟨processor', hok⟩ := hreturns fun _ _ _ _ _ _ _ => rfl
  refine ⟨processor', hok, hselected processor' hok _ testA _ rfl (Dict.get?_set_self _ _ _) ?_ _
    (List.mem_singleton_self _)⟩
  rintro ⟨hold, -⟩
  exact absurd hold (by decide)

end Selection

end Selection
end SystemTests
