import SystemTests.Collection.Markers

/-!
# Kept and deselected tests (`conftest.py`)

The hook that pytest calls with the collected tests keeps those of the scenario, and counts those
that must pass.  Then the setups of the kept tests are called, and every test reports what is
declared about it.

**Results.**
* `modifyItems_spec`: which tests are kept, deselected, or lost.
* `mem_setupItems_iff`: the setups of the tests that run are called, and no other.
* `collectItemMetadata_prepared`: an irrelevant declaration hides all others in the report.
-/

namespace SystemTests
namespace Collection

open Foundation Foundation.Text Foundation.Semver Foundation.Regex Manifest

section Loop

variable {config : Config}

/-- The tests that the loop keeps. -/
def isKept (config : Config) (item : Item) : Bool :=
  !config.sleep && (declaredScenarios item).contains config.scenario

/-- `_item_must_pass`, for a test whose marks it can read. -/
def mustPass (item : Item) : Bool := (itemMustPass item).toOption.getD false

theorem filterMap_iterMarkers {β : Type} {f : Marker → Option β}
    (h : ∀ marker, marker.isLifted = true → f marker = none) (item : Item) :
    item.iterMarkers.filterMap f = (item.ownMarkers ++ item.parentMarkers).filterMap f := by
  unfold Item.iterMarkers
  split_ifs
  · rw [List.filterMap_filter]
    refine List.filterMap_congr fun marker _ => ?_
    cases hlifted : marker.isLifted with
    | true => simp [h marker hlifted]
    | false => simp
  · rfl

theorem scenario?_of_isLifted {marker : Marker} (h : marker.isLifted = true) :
    marker.scenario? = none := by
  cases marker <;> first | rfl | cases h

theorem declaration?_of_isLifted {marker : Marker} (h : marker.isLifted = true) :
    marker.declaration? = none := by
  cases marker <;> first | rfl | cases h

/-- Marks that name no scenario change none. -/
theorem declaredScenarios_append (item : Item) {markers : List Marker}
    (h : ∀ marker ∈ markers, marker.scenario? = none) :
    declaredScenarios { item with ownMarkers := item.ownMarkers ++ markers } =
      declaredScenarios item := by
  have hnone : markers.filterMap Marker.scenario? = [] := List.filterMap_eq_nil_iff.mpr h
  have hlifted : ∀ marker : Marker, marker.isLifted = true → marker.scenario? = none :=
    fun _ => scenario?_of_isLifted
  simp only [declaredScenarios, filterMap_iterMarkers hlifted, List.filterMap_append, hnone,
    List.append_nil]

theorem declaredScenarios_skipIfDeclared (item : Item) :
    declaredScenarios (skipIfDeclared item) = declaredScenarios item := by
  unfold skipIfDeclared
  split_ifs
  · cases lastDeclaration item with
    | none => rfl
    | some d => exact declaredScenarios_append item (by simp [Marker.scenario?])
  · rfl

theorem declaredScenarios_declared (rules : Dict Str (List RuleMatch)) (item : Item) :
    declaredScenarios (declared rules item) = declaredScenarios item := by
  refine declaredScenarios_append item fun marker hmarker => ?_
  obtain ⟨d, -, hmem⟩ := List.mem_flatMap.mp hmarker
  simp only [marksOf, List.mem_cons, List.not_mem_nil, or_false] at hmem
  rcases hmem with rfl | rfl
  · split_ifs <;> rfl
  · rfl

/-- What the loop has done, item by item. -/
theorem foldlM_select {items : List Item} :
    ∀ {found found' : Selection}, items.foldlM (select config) found = .ok found' →
      found'.selected = found.selected ++
        ((items.filter (isKept config)).map fun item => force config (skipIfDeclared item)) ∧
      found'.deselected = found.deselected ++
        (items.filter fun item => !isKept config item).map skipIfDeclared ∧
      found'.mustPassItemCount = found.mustPassItemCount +
        (items.filter (isKept config)).countP
          fun item => mustPass (force config (skipIfDeclared item)) := by
  induction items with
  | nil =>
      intro found found' h
      obtain rfl := Except.ok.inj h
      simp
  | cons item items ih =>
      intro found found' h
      rw [List.foldlM_cons, Raised.bind_eq_ok] at h
      obtain ⟨next, hnext, hrest⟩ := h
      obtain ⟨hselected, hdeselected, hcount⟩ := ih hrest
      have hscenarios := declaredScenarios_skipIfDeclared item
      unfold select at hnext
      simp only [hscenarios] at hnext
      have hdropped : ∀ (h : isKept config item = false) (d : Dict Str (List Str)),
          next = { found with
            allDeclaredScenarios := d
            deselected := found.deselected ++ [skipIfDeclared item] } →
          found'.selected = found.selected ++
            (((item :: items).filter (isKept config)).map
              fun item => force config (skipIfDeclared item)) ∧
          found'.deselected = found.deselected ++
            ((item :: items).filter fun item => !isKept config item).map skipIfDeclared ∧
          found'.mustPassItemCount = found.mustPassItemCount +
            ((item :: items).filter (isKept config)).countP
              fun item => mustPass (force config (skipIfDeclared item)) := by
        rintro h d rfl
        rw [List.filter_cons_of_neg (by simp [h]), List.filter_cons_of_pos (by simp [h]),
          List.map_cons]
        exact ⟨hselected, by rw [hdeselected, List.append_assoc]; rfl, hcount⟩
      split_ifs at hnext with hsleep hscenario
      · exact hdropped (by simp [isKept, hsleep]) _ (Except.ok.inj hnext).symm
      · obtain ⟨b, hb, hnext⟩ := Raised.bind_eq_ok.mp hnext
        obtain rfl := Except.ok.inj hnext
        have hkept : isKept config item = true := by
          rw [isKept, hscenario, Bool.and_true]
          simpa using hsleep
        have hmust : mustPass (force config (skipIfDeclared item)) = b := by
          rw [mustPass, hb]
          rfl
        rw [List.filter_cons_of_pos hkept, List.filter_cons_of_neg (by simp [hkept]),
          List.map_cons, List.countP_cons, hmust]
        refine ⟨by rw [hselected, List.append_assoc]; rfl, hdeselected, ?_⟩
        rw [hcount]
        change found.mustPassItemCount + _ + _ = _
        omega
      · exact hdropped (by simp only [isKept, Bool.and_eq_false_iff]; exact Or.inr (by simpa using hscenario)) _
          (Except.ok.inj hnext).symm

end Loop

section MustPass

variable {config : Config} {rules : Dict Str (List RuleMatch)} {item : Item}

/-- A forced test, or one that nothing skips, runs. -/
def Runs (config : Config) (declares : SkipDeclaration → Prop) (item : Item) : Prop :=
  isForced config item = true ∨
    ((∀ m ∈ item.marks, m.isSkip = false) ∧ (∀ d, declares d → skips d.value = false) ∧
      ¬ StopsDeclared declares item)

/-- A test whose failure fails the session. -/
def MustPass (config : Config) (declares : SkipDeclaration → Prop) (item : Item) : Prop :=
  .auxiliaryTest ∉ item.marks ∧
    (isForced config item = false →
      (∀ m ∈ item.marks, m.isSkip = false ∧ m.isXfail = false) ∧ (∀ d, ¬ declares d) ∧
        ¬ StopsDeclared declares item ∧
          ∀ conditions, .skipif conditions ∈ item.marks → ∃ cs, conditions = some cs ∧ false ∈ cs)

theorem skipifs_eq_ok_true {markers : List Marker} :
    itemMustPass.skipifs markers = .ok true ↔
      ∀ conditions, .skipif conditions ∈ markers → ∃ cs, conditions = some cs ∧ false ∈ cs := by
  induction markers with
  | nil => exact ⟨fun _ _ h => (nomatch h), fun _ => rfl⟩
  | cons m markers ih =>
      have hother : ∀ m : Marker, m.isSkipif = false →
          ((∀ conditions, .skipif conditions ∈ m :: markers →
              ∃ cs, conditions = some cs ∧ false ∈ cs) ↔
            ∀ conditions, .skipif conditions ∈ markers →
              ∃ cs, conditions = some cs ∧ false ∈ cs) := by
        intro m hm
        refine forall_congr' fun conditions => ?_
        rw [List.mem_cons, or_iff_right]
        rintro rfl
        cases hm
      cases m with
      | skipif conditions =>
          cases conditions with
          | none =>
              refine ⟨nofun, fun h => ?_⟩
              obtain ⟨cs, hcs, -⟩ := h none List.mem_cons_self
              cases hcs
          | some cs =>
              have hall : cs.all id = false ↔ false ∈ cs := by simp
              rw [itemMustPass.skipifs]
              split_ifs with hcs
              · refine ⟨nofun, fun h => ?_⟩
                obtain ⟨cs', hcs', hfalse⟩ := h _ List.mem_cons_self
                obtain rfl := Option.some.inj hcs'
                rw [hall.mpr hfalse] at hcs
                cases hcs
              · rw [ih]
                constructor
                · intro h conditions hmem
                  rcases List.mem_cons.mp hmem with heq | hmem
                  · obtain rfl := Marker.skipif.inj heq
                    exact ⟨cs, rfl, hall.mp (by simpa using hcs)⟩
                  · exact h conditions hmem
                · exact fun h conditions hmem => h conditions (List.mem_cons_of_mem _ hmem)
      | skip | xfail | declaration | scenario | features | owners | auxiliaryTest | skipIfXfail
      | other =>
          rw [itemMustPass.skipifs, hother _ rfl]
          · exact ih
          · nofun

theorem mustPass_eq_true :
    mustPass item = true ↔
      (∀ m ∈ item.iterMarkers, m.isSkip = false ∧ m.isXfail = false) ∧
        .auxiliaryTest ∉ item.iterMarkers ∧
          ∀ conditions, .skipif conditions ∈ item.iterMarkers →
            ∃ cs, conditions = some cs ∧ false ∈ cs := by
  have hauxiliary : item.iterMarkers.any Marker.isAuxiliaryTest = true ↔
      .auxiliaryTest ∈ item.iterMarkers := by
    rw [List.any_eq_true]
    constructor
    · rintro ⟨m, hm, hm'⟩
      cases m <;> first | exact hm | cases hm'
    · exact fun hm => ⟨_, hm, rfl⟩
  have hok : mustPass item = true ↔ itemMustPass item = .ok true := by
    rw [mustPass]
    cases itemMustPass item with
    | error e => exact ⟨nofun, nofun⟩
    | ok b => exact ⟨fun h => congrArg Except.ok h, Except.ok.inj⟩
  rw [hok, itemMustPass]
  split_ifs with hskip hxfail haux
  · obtain ⟨m, hm, hm'⟩ := List.any_eq_true.mp hskip
    refine ⟨nofun, fun h => ?_⟩
    cases hm'.symm.trans (h.1 m hm).1
  · obtain ⟨m, hm, hm'⟩ := List.any_eq_true.mp hxfail
    refine ⟨nofun, fun h => ?_⟩
    cases hm'.symm.trans (h.1 m hm).2
  · exact ⟨nofun, fun h => absurd (hauxiliary.mp haux) h.2.1⟩
  · rw [skipifs_eq_ok_true]
    refine ⟨fun h => ⟨fun m hm => ⟨?_, ?_⟩, fun hm => haux (hauxiliary.mpr hm), h⟩,
      fun h => h.2.2⟩
    · exact Bool.eq_false_iff.mpr fun hm' => hskip (List.any_eq_true.mpr ⟨m, hm, hm'⟩)
    · exact Bool.eq_false_iff.mpr fun hm' => hxfail (List.any_eq_true.mpr ⟨m, hm, hm'⟩)

/-- The marks of a prepared test, as pytest reads them. -/
theorem iterMarkers_prepared (h : item.forced = false) :
    (prepared config rules item).iterMarkers =
      if isForced config item then
        (skipIfDeclared (declared rules item)).marks.filter fun marker => !marker.isLifted
      else (skipIfDeclared (declared rules item)).marks := by
  have hnodeid : (skipIfDeclared (declared rules item)).nodeid = item.nodeid :=
    nodeid_skipIfDeclared _
  have hfresh : (skipIfDeclared (declared rules item)).forced = false :=
    (forced_skipIfDeclared _).trans h
  have hforced : isForced config (skipIfDeclared (declared rules item)) = isForced config item := by
    rw [isForced, isForced, hnodeid]
  rw [prepared, force, ← isForced, hforced]
  cases isForced config item with
  | true => rfl
  | false => exact iterMarkers_of_fresh hfresh

theorem itemIsSkipped_prepared (h : item.forced = false) :
    itemIsSkipped (prepared config rules item) = false ↔
      Runs config (· ∈ getDeclarations rules item.nodeid) item := by
  rw [itemIsSkipped, iterMarkers_prepared h, Runs]
  cases isForced config item with
  | true =>
      rw [if_pos rfl]
      refine ⟨fun _ => Or.inl rfl, fun _ => List.any_eq_false.mpr fun m hm hskip => ?_⟩
      have hlifted := (List.mem_filter.mp hm).2
      simp [Marker.isLifted, hskip] at hlifted
  | false =>
      rw [if_neg Bool.false_ne_true, or_iff_right Bool.false_ne_true]
      have hskip := @exists_skip_stopped rules item h
      rw [← Bool.not_eq_true, List.any_eq_true, hskip]
      constructor
      · intro hnot
        refine ⟨fun m hm => ?_, fun d hd => ?_, fun hstops => ?_⟩
        · exact Bool.eq_false_iff.mpr fun hm' => hnot (Or.inl ⟨m, hm, hm'⟩)
        · exact Bool.eq_false_iff.mpr fun hd' => hnot (Or.inr (Or.inl ⟨d, hd, hd'⟩))
        · exact hnot (Or.inr (Or.inr hstops))
      · rintro ⟨hmarks, hdeclared, hstops⟩ (⟨m, hm, hm'⟩ | ⟨d, hd, hd'⟩ | h)
        · cases hm'.symm.trans (hmarks m hm)
        · cases hd'.symm.trans (hdeclared d hd)
        · exact hstops h

/-- Without skips and expected failures, a test is not declared. -/
theorem unskipped_stopped_marks (h : item.forced = false) :
    (∀ m ∈ (skipIfDeclared (declared rules item)).marks, m.isSkip = false ∧ m.isXfail = false) ↔
      (∀ m ∈ item.marks, m.isSkip = false ∧ m.isXfail = false) ∧
        (∀ d, ¬ d ∈ getDeclarations rules item.nodeid) ∧
          ¬ StopsDeclared (· ∈ getDeclarations rules item.nodeid) item := by
  simp only [mem_stopped_marks h]
  constructor
  · intro hmarks
    refine ⟨fun m hm => hmarks m (Or.inl hm), fun d hd => ?_, fun hstops => ?_⟩
    · have hreason := hmarks _ (Or.inr (Or.inl ⟨d, hd, List.mem_cons_self⟩))
      cases hd' : skips d.value <;> simp [hd', Marker.isSkip, Marker.isXfail] at hreason
    · obtain ⟨value, details, hlast⟩ := (@lastDeclaration_ne_none (declared rules item) h).mpr
        (exists_declaration_declared.mpr hstops.2)
      cases (hmarks _ (Or.inr (Or.inr ⟨hstops, value, details, hlast, rfl⟩))).1
  · rintro ⟨hmarks, hnone, hstops⟩ m (hm | ⟨d, hd, -⟩ | ⟨h, -⟩)
    · exact hmarks m hm
    · exact absurd hd (hnone d)
    · exact absurd h hstops

theorem mustPass_prepared (h : item.forced = false) :
    mustPass (prepared config rules item) = true ↔
      MustPass config (· ∈ getDeclarations rules item.nodeid) item := by
  have hauxiliary := @mem_stopped_marks_other rules item .auxiliaryTest h rfl rfl rfl
  have hskipif := fun conditions => @mem_stopped_marks_other rules item (.skipif conditions) h
    rfl rfl rfl
  rw [mustPass_eq_true, iterMarkers_prepared h, MustPass]
  cases isForced config item with
  | true =>
      simp only [if_true, List.mem_filter, hauxiliary]
      constructor
      · rintro ⟨-, haux, -⟩
        exact ⟨fun hm => haux ⟨hm, rfl⟩, nofun⟩
      · rintro ⟨haux, -⟩
        refine ⟨fun m hm => ?_, fun hm => haux hm.1, fun conditions hm => ?_⟩
        · have hlifted : m.isSkip = false ∧ m.isSkipif = false ∧ m.isXfail = false := by
            simpa [Marker.isLifted, and_assoc] using hm.2
          exact ⟨hlifted.1, hlifted.2.2⟩
        · cases hm.2
  | false =>
      simp only [Bool.false_eq_true, if_false, hauxiliary, hskipif, true_implies,
        unskipped_stopped_marks h]
      constructor
      · rintro ⟨⟨hmarks, hnone, hstops⟩, haux, hskipifs⟩
        exact ⟨haux, hmarks, hnone, hstops, hskipifs⟩
      · rintro ⟨haux, hmarks, hnone, hstops, hskipifs⟩
        exact ⟨⟨hmarks, hnone, hstops⟩, haux, hskipifs⟩

end MustPass

section Session

variable {table : CharTable} {sv : SemanticVersion} {components : Components}
  {weblog : Option Str} {manifest : ManifestData} {config : Config}

theorem declares_eq (nodeid : Str) :
    (· ∈ getDeclarations (getRules sv components weblog manifest) nodeid) =
      Declares sv components weblog manifest nodeid :=
  funext fun _ => propext mem_getDeclarations_iff

theorem mapM_addDeclarations {rules : Dict Str (List RuleMatch)} {items items' : List Item} :
    items.mapM (addDeclarations table rules) = .ok items' ↔
      (∀ item ∈ items, ∀ d ∈ getDeclarations rules item.nodeid,
        Declaration.reasonIsValid table d.value d.details = true) ∧
          items' = items.map (declared rules) := by
  induction items generalizing items' with
  | nil =>
      rw [List.mapM_nil, List.map_nil, Raised.pure_eq_ok]
      exact ⟨fun h => ⟨nofun, h.symm⟩, fun h => h.2.symm⟩
  | cons item items ih =>
      simp only [List.mapM_cons, Raised.bind_eq_ok, Raised.pure_eq_ok, List.forall_mem_cons,
        addDeclarations_eq_ok_iff, ih, List.map_cons]
      constructor
      · rintro ⟨_, ⟨hvalid, rfl⟩, _, ⟨hvalids, rfl⟩, rfl⟩
        exact ⟨⟨hvalid, hvalids⟩, rfl⟩
      · rintro ⟨⟨hvalid, hvalids⟩, rfl⟩
        exact ⟨_, ⟨hvalid, rfl⟩, _, ⟨hvalids, rfl⟩, rfl⟩

theorem isKept_declared {rules : Dict Str (List RuleMatch)} (item : Item) :
    isKept config (declared rules item) = isKept config item := by
  rw [isKept, isKept, declaredScenarios_declared]

/-- A test of the scenario must pass. -/
def SomeMustPass (config : Config) (declares : Str → SkipDeclaration → Prop)
    (items : List Item) : Prop :=
  ∃ item ∈ items, isKept config item = true ∧ MustPass config (declares item.nodeid) item

/-- The tests of the scenario are those of the session, in their order, and the others are recorded
as deselected; or no test must pass, none is left and none is recorded. -/
def IsCollected (config : Config) (rules : Dict Str (List RuleMatch))
    (declares : Str → SkipDeclaration → Prop) (before items : List Item) (session : Session) :
    Prop :=
  (config.skipEmptyScenario = true ∧ ¬ SomeMustPass config declares items ∧
    session.items = [] ∧ session.deselectedItems = before) ∨
  ((config.skipEmptyScenario = false ∨ SomeMustPass config declares items) ∧
    session.items = (items.filter (isKept config)).map (prepared config rules) ∧
    session.deselectedItems = before ++ (items.filter fun item => !isKept config item).map
      fun item => skipIfDeclared (declared rules item))

/-- **What is kept and what is deselected.**  Tests that the user forces count as tests that must
pass, tests that are declared do not. -/
theorem modifyItems_spec {before items : List Item} {session : Session}
    (hfresh : ∀ item ∈ items, item.forced = false)
    (h : pytestCollectionModifyitems table config (getRules sv components weblog manifest) before
      items = .ok session) :
    IsCollected config (getRules sv components weblog manifest)
      (Declares sv components weblog manifest) before items session := by
  obtain ⟨items', hitems, h⟩ := Raised.bind_eq_ok.mp h
  obtain ⟨-, rfl⟩ := mapM_addDeclarations.mp hitems
  obtain ⟨found, hfound, h⟩ := Raised.bind_eq_ok.mp h
  obtain ⟨hselected, hdeselected, hcount⟩ := foldlM_select hfound
  simp only [Selection.empty, List.nil_append, Nat.zero_add] at hselected hdeselected hcount
  have hfilter : ∀ p : Item → Bool,
      (∀ item, p (declared (getRules sv components weblog manifest) item) = p item) →
        (items.map (declared (getRules sv components weblog manifest))).filter p =
          (items.filter p).map (declared (getRules sv components weblog manifest)) := by
    intro p hp
    rw [List.filter_map]
    simp only [Function.comp_def, hp]
  have hkept := hfilter (isKept config) isKept_declared
  have hdropped := hfilter (fun item => !isKept config item) fun item => by
    rw [isKept_declared]
  rw [hkept, List.map_map] at hselected
  rw [hdropped, List.map_map] at hdeselected
  have hzero : found.mustPassItemCount = 0 ↔
      ¬ SomeMustPass config (Declares sv components weblog manifest) items := by
    rw [hcount, hkept, List.countP_map, List.countP_eq_zero, SomeMustPass]
    simp only [List.mem_filter, and_imp, not_exists, not_and]
    refine forall₂_congr fun item hitem => forall_congr' fun _ => ?_
    rw [← declares_eq, ← mustPass_prepared (hfresh item hitem)]
    rfl
  by_cases hskip : found.mustPassItemCount = 0 ∧ config.skipEmptyScenario = true
  · rw [if_pos (by simp [hskip.1, hskip.2])] at h
    obtain rfl := Except.ok.inj h
    exact Or.inl ⟨hskip.2, hzero.mp hskip.1, rfl, List.append_nil _⟩
  · rw [if_neg (by simpa using hskip)] at h
    obtain rfl := Except.ok.inj h
    refine Or.inr ⟨?_, hselected, by rw [hdeselected]; rfl⟩
    rcases not_and_or.mp hskip with hcount | hskip
    · exact Or.inr (not_not.mp fun hnone => hcount (hzero.mpr hnone))
    · exact Or.inl (by simpa using hskip)

section Example

def exampleItems : List Item := [
  { nodeid := "tests/test_a.py::Test_A::test_run".toList
    definition := "tests/test_a.py::Test_A.test_run".toList
    ownMarkers := [.features 1], parentMarkers := [], hasInstance := true, hasSetup := true },
  { nodeid := "tests/test_a.py::Test_A::test_declared".toList
    definition := "tests/test_a.py::Test_A.test_declared".toList
    ownMarkers := [.skipIfXfail], parentMarkers := [], hasInstance := true, hasSetup := true },
  { nodeid := "tests/test_b.py::Test_B::test_other".toList
    definition := "tests/test_b.py::Test_B.test_other".toList
    ownMarkers := [], parentMarkers := [.scenario "OTHER".toList], hasInstance := true
    hasSetup := false }]

def exampleManifest : ManifestData :=
  ⟨[("tests/test_a.py::Test_A::test_declared".toList,
    [{ component := "python".toList, declaration := ⟨.missingFeature, none⟩ }])], by decide⟩

def exampleConfig : Config := ⟨"DEFAULT".toList, false, [], true⟩

def exampleVersions : SemanticVersion := .ofReading (fun _ => none) fun _ => none

def exampleComponents : Components := ⟨[("python".toList, .release 1 9 0)], by decide⟩

/-- Of two tests of the scenario one is declared. -/
theorem exists_exampleSession : ∃ session,
    pytestCollectionModifyitems .ascii exampleConfig
      (getRules exampleVersions exampleComponents none exampleManifest) [] exampleItems =
        .ok session ∧
      setupItems session.items ≠ [] := by
  have hok : (pytestCollectionModifyitems .ascii exampleConfig
      (getRules exampleVersions exampleComponents none exampleManifest) [] exampleItems).map
        (fun session => (setupItems session.items).length) = .ok 1 := by rfl
  obtain ⟨session, hsession, hlength⟩ := Raised.map_eq_ok.mp hok
  exact ⟨session, hsession, List.ne_nil_of_length_eq_add_one hlength⟩

end Example

theorem modifyItems_spec_example : ∃ session,
    pytestCollectionModifyitems .ascii exampleConfig
      (getRules exampleVersions exampleComponents none exampleManifest) [] exampleItems =
        .ok session ∧
      IsCollected exampleConfig (getRules exampleVersions exampleComponents none exampleManifest)
        (Declares exampleVersions exampleComponents none exampleManifest) [] exampleItems
        session := by
  obtain ⟨session, h, -⟩ := exists_exampleSession
  exact ⟨session, h, modifyItems_spec (by decide) h⟩

theorem hasInstance_prepared (rules : Dict Str (List RuleMatch)) (item : Item) :
    (prepared config rules item).hasInstance = item.hasInstance ∧
      (prepared config rules item).hasSetup = item.hasSetup := by
  unfold prepared force skipIfDeclared
  cases lastDeclaration (declared rules item) <;> split_ifs <;> exact ⟨rfl, rfl⟩

end Session

section Exposed

theorem eq_declaration_of_declaration? {marker : Marker} {value : Str} {details : Option Str}
    (h : marker.declaration? = some (value, details)) : marker = .declaration value details := by
  cases marker <;> simp [Marker.declaration?] at h
  rw [h.1, h.2]

theorem isIrrelevant_irrelevant (details : Option Str) :
    isIrrelevant ("irrelevant".toList, details) = true :=
  decide_eq_true rfl

/-- The first irrelevant mark is the exposed one, else the last mark. -/
theorem exposed_eq (last : Option (Str × Option Str)) (ds : List (Str × Option Str)) :
    exposed last ds = (ds.find? isIrrelevant).or (ds.getLast?.or last) := by
  induction ds generalizing last with
  | nil => rfl
  | cons d ds ih =>
      rw [exposed]
      split_ifs with h
      · rw [List.find?_cons_of_pos h]
        rfl
      · rw [ih, List.find?_cons_of_neg h, List.getLast?_cons]
        cases ds.getLast? <;> rfl

variable {sv : SemanticVersion} {components : Components} {weblog : Option Str}
  {manifest : ManifestData} {config : Config} {item : Item}

/-- The declaration marks of a prepared test. -/
theorem mem_declarations_prepared (h : item.forced = false) {value : Str} {details : Option Str} :
    (value, details) ∈ (prepared config (getRules sv components weblog manifest)
        item).iterMarkers.filterMap Marker.declaration? ↔
      .declaration value details ∈ item.marks ∨
        ∃ d, Declares sv components weblog manifest item.nodeid d ∧ d.value.value = value ∧
          d.details = details := by
  have hmem : (value, details) ∈ (prepared config (getRules sv components weblog manifest)
        item).iterMarkers.filterMap Marker.declaration? ↔
      .declaration value details ∈ (skipIfDeclared
        (declared (getRules sv components weblog manifest) item)).marks := by
    rw [iterMarkers_prepared h]
    constructor
    · intro hd
      obtain ⟨m, hm, hd⟩ := List.mem_filterMap.mp hd
      obtain rfl := eq_declaration_of_declaration? hd
      split_ifs at hm
      · exact (List.mem_filter.mp hm).1
      · exact hm
    · intro hm
      refine List.mem_filterMap.mpr ⟨.declaration value details, ?_, rfl⟩
      split_ifs
      · exact List.mem_filter.mpr ⟨hm, rfl⟩
      · exact hm
  rw [hmem, mem_stopped_marks h]
  refine or_congr_right ?_
  constructor
  · rintro (⟨d, hd, hm⟩ | ⟨-, _, _, -, hm⟩)
    · rcases mem_marksOf hm with ⟨hs, -⟩ | ⟨hx, -⟩ | heq
      · cases hs
      · cases hx
      · obtain ⟨rfl, rfl⟩ := Marker.declaration.inj heq
        exact ⟨d, mem_getDeclarations_iff.mp hd, rfl, rfl⟩
    · cases hm
  · rintro ⟨d, hd, rfl, rfl⟩
    exact Or.inl ⟨d, mem_getDeclarations_iff.mpr hd, List.mem_cons_of_mem _ List.mem_cons_self⟩

/-- **What the report says of a test**: it is declared as irrelevant when any manifest entry or
mark says so, else as one of its declarations, and as nothing when there is none.  Forcing a test
hides none of them. -/
theorem collectItemMetadata_prepared (h : item.forced = false) :
    let declares := fun value details => Marker.declaration value details ∈ item.marks ∨
      ∃ d, Declares sv components weblog manifest item.nodeid d ∧ d.value.value = value ∧
        d.details = details
    let metadata := collectItemMetadata
      (prepared config (getRules sv components weblog manifest) item)
    (metadata.testDeclaration = none ↔ ∀ value details, ¬ declares value details) ∧
    (metadata.testDeclaration = some "irrelevant".toList ↔
      ∃ details, declares "irrelevant".toList details) ∧
    ∀ value, metadata.testDeclaration = some value → ∃ details, declares value details ∧
      metadata.details = some (withDetails value details) := by
  intro declares metadata
  have hmem : ∀ value details, (value, details) ∈ (prepared config
      (getRules sv components weblog manifest) item).iterMarkers.filterMap Marker.declaration? ↔
        declares value details := fun _ _ => mem_declarations_prepared h
  have hdeclaration : metadata.testDeclaration = (exposed none ((prepared config
      (getRules sv components weblog manifest) item).iterMarkers.filterMap
        Marker.declaration?).reverse).map Prod.fst := rfl
  have hdetails : metadata.details = (exposed none ((prepared config
      (getRules sv components weblog manifest) item).iterMarkers.filterMap
        Marker.declaration?).reverse).map fun d => withDetails d.1 d.2 := rfl
  rw [exposed_eq, List.getLast?_reverse, Option.or_none] at hdeclaration hdetails
  generalize (prepared config (getRules sv components weblog manifest)
    item).iterMarkers.filterMap Marker.declaration? = ds at hmem hdeclaration hdetails
  rw [hdeclaration, hdetails]
  have hirrelevant : ∀ d, ds.reverse.find? isIrrelevant = some d →
      d ∈ ds ∧ d.1 = "irrelevant".toList := by
    intro d hd
    have hd' : isIrrelevant d = true := List.find?_some hd
    exact ⟨List.mem_reverse.mp (List.mem_of_find?_eq_some hd), of_decide_eq_true hd'⟩
  have hsome : ∀ d, (ds.reverse.find? isIrrelevant).or ds.head? = some d → d ∈ ds := by
    intro d hd
    rcases Option.or_eq_some_iff.mp hd with hd | ⟨-, hd⟩
    · exact (hirrelevant d hd).1
    · exact List.mem_of_mem_head? hd
  refine ⟨?_, ?_, ?_⟩
  · rw [Option.map_eq_none_iff]
    constructor
    · intro hnone value details hdeclares
      rw [Option.or_eq_none_iff, List.head?_eq_none_iff] at hnone
      have hd := (hmem value details).mpr hdeclares
      rw [hnone.2] at hd
      cases hd
    · intro hnone
      rw [Option.eq_none_iff_forall_not_mem]
      exact fun d hd => hnone d.1 d.2 ((hmem d.1 d.2).mp (hsome d hd))
  · constructor
    · intro hvalue
      obtain ⟨⟨_, details⟩, hd, rfl⟩ := Option.map_eq_some_iff.mp hvalue
      exact ⟨details, (hmem _ details).mp (hsome _ hd)⟩
    · rintro ⟨details, hdeclares⟩
      have hd := List.mem_reverse.mpr ((hmem _ details).mpr hdeclares)
      obtain ⟨d, hfind⟩ := Option.isSome_iff_exists.mp
        (List.find?_isSome.mpr ⟨_, hd, isIrrelevant_irrelevant details⟩)
      rw [hfind, Option.some_or, Option.map_some, (hirrelevant d hfind).2]
  · intro value hvalue
    obtain ⟨⟨_, details⟩, hd, rfl⟩ := Option.map_eq_some_iff.mp hvalue
    exact ⟨details, (hmem _ details).mp (hsome _ hd), by rw [hd]; rfl⟩

/-- The mark of a class is reported for a test with a mark of its own. -/
theorem collectItemMetadata_prepared_example :
    (collectItemMetadata (prepared exampleConfig
      (getRules exampleVersions exampleComponents none exampleManifest)
      { nodeid := [], definition := [], hasInstance := true, hasSetup := false
        ownMarkers := [.declaration "bug".toList none]
        parentMarkers := [.declaration "irrelevant".toList none] })).testDeclaration =
      some "irrelevant".toList :=
  (collectItemMetadata_prepared rfl).2.1.mpr ⟨none, Or.inl (by decide)⟩

end Exposed

end Collection
end SystemTests
