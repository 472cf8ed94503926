import SystemTests.Manifest.Rule

/-!
# Collected tests and their marks (`conftest.py`, `utils/_decorators.py`)

The tests that pytest has collected are marked with what the manifests declare about them.  A mark
stands on a test or on one of its parents (its class, its module, and so on); the marks of a test
are its own and then those of its parents.  A test that only runs when it is not declared gets one
more mark, and the marks of a test that the user forces are not all seen.

**Results.**
* `mem_getDeclarations_iff`: the declarations of a test are those of the conditions that apply.
* `addDeclarations_eq_ok_iff`: the marks that all declarations leave on a test.
* `mem_stopped_marks`: the marks of a test when the loop over the tests has seen it.
-/

namespace SystemTests
namespace Collection

open Foundation Foundation.Text Foundation.Semver Foundation.Regex Manifest

section Model

inductive Marker where
  | skip (reason : Option Str)
  | xfail (reason : Option Str)
  /-- The conditions of `skipif`, `none` if they cannot be gone through. -/
  | skipif (conditions : Option (List Bool))
  | declaration (declaration : Str) (details : Option Str)
  | scenario (name : Str)
  | features (featureId : Int)
  | owners (owner : Str)
  | auxiliaryTest
  | skipIfXfail
  | other (name : Str)
deriving DecidableEq

namespace Marker

def isSkip : Marker → Bool
  | skip _ => true
  | _ => false

def isXfail : Marker → Bool
  | xfail _ => true
  | _ => false

def isSkipif : Marker → Bool
  | skipif _ => true
  | _ => false

def isAuxiliaryTest : Marker → Bool
  | auxiliaryTest => true
  | _ => false

def isSkipIfXfail : Marker → Bool
  | skipIfXfail => true
  | _ => false

def declaration? : Marker → Option (Str × Option Str)
  | declaration value details => some (value, details)
  | _ => none

def scenario? : Marker → Option Str
  | scenario name => some name
  | _ => none

def featureId? : Marker → Option Int
  | features featureId => some featureId
  | _ => none

def owner? : Marker → Option Str
  | owners owner => some owner
  | _ => none

/-- The marks that a forced test does not have. -/
def isLifted (marker : Marker) : Bool := marker.isSkip || marker.isSkipif || marker.isXfail

end Marker

/-- A test; `definition` is the file and the qualified name of its function. -/
structure Item where
  nodeid : Str
  definition : Str
  ownMarkers : List Marker
  parentMarkers : List Marker
  hasInstance : Bool
  hasSetup : Bool
  forced : Bool := false

namespace Item

/-- `item.iter_markers()` -/
def iterMarkers (item : Item) : List Marker :=
  let markers := item.ownMarkers ++ item.parentMarkers
  if item.forced then markers.filter fun marker => !marker.isLifted else markers

def addMarker (item : Item) (marker : Marker) : Item :=
  { item with ownMarkers := item.ownMarkers ++ [marker] }

end Item

/-- `f"{declaration}" if details is None else f"{declaration} ({details})"` -/
def withDetails (declaration : Str) (details : Option Str) : Str :=
  match details with
  | none => declaration
  | some details => declaration ++ " (".toList ++ details ++ [')']

/-- `f"{declaration} ({details})"` -/
def skipMessage (declaration : Str) (details : Option Str) : Str :=
  declaration ++ " (".toList ++ details.getD "None" ++ [')']

/-- The tests of these declarations are not run. -/
def skips (declaration : TestDeclaration) : Bool :=
  declaration = .irrelevant || declaration = .flaky

section Declarations

variable (table : CharTable)

/-- `add_pytest_marker` -/
def addPytestMarker (item : Item) (declaration : TestDeclaration) (details : Option Str) :
    Except Raised Item :=
  match Declaration.validateDeclarationReason table declaration details with
  | .error _ => throw (.systemExit ("Please set a jira ticket for ".toList ++ item.definition ++
      ", instead of reason: ".toList ++ details.getD "None"))
  | .ok _ =>
      let reason := withDetails declaration.value details
      let marker := if skips declaration then Marker.skip (some reason) else .xfail (some reason)
      return (item.addMarker marker).addMarker (.declaration declaration.value details)

/-- The marks of all declarations of a test. -/
def addDeclarations (rules : Dict Str (List RuleMatch)) (item : Item) : Except Raised Item :=
  (getDeclarations rules item.nodeid).foldlM
    (fun item declaration => addPytestMarker table item declaration.value declaration.details) item

end Declarations

structure Config where
  scenario : Str
  sleep : Bool
  forceExecute : List Str
  skipEmptyScenario : Bool

/-- The last mark of a name is what the dictionary of the marks holds. -/
def lastDeclaration (item : Item) : Option (Str × Option Str) :=
  (item.iterMarkers.filterMap Marker.declaration?).getLast?

/-- A test that must not run when it is declared gets an unconditional skip. -/
def skipIfDeclared (item : Item) : Item :=
  if item.iterMarkers.any Marker.isSkipIfXfail then
    match lastDeclaration item with
    | some (declaration, details) => item.addMarker (.skip (some (skipMessage declaration details)))
    | none => item
  else item

/-- Scenario marks of the test itself, else of its parents, else the default scenario. -/
def declaredScenarios (item : Item) : List Str :=
  match item.ownMarkers.filterMap Marker.scenario? with
  | [] =>
      match item.iterMarkers.filterMap Marker.scenario? with
      | [] => ["DEFAULT".toList]
      | scenarios => scenarios
  | scenarios => scenarios

def force (config : Config) (item : Item) : Item :=
  if config.forceExecute.any fun forced => forced <+: item.nodeid then { item with forced := true }
  else item

/-- `_item_must_pass` -/
def itemMustPass (item : Item) : Except Raised Bool :=
  if item.iterMarkers.any Marker.isSkip then return false
  else if item.iterMarkers.any Marker.isXfail then return false
  else if item.iterMarkers.any Marker.isAuxiliaryTest then return false
  else skipifs item.iterMarkers
where
  skipifs : List Marker → Except Raised Bool
    | [] => return true
    | .skipif conditions :: markers =>
        match conditions with
        | none => throw (.typeError "'bool' object is not iterable")
        | some conditions => if conditions.all id then return false else skipifs markers
    | _ :: markers => skipifs markers

/-- `_item_is_skipped` -/
def itemIsSkipped (item : Item) : Bool := item.iterMarkers.any Marker.isSkip

structure Selection where
  selected : List Item
  deselected : List Item
  mustPassItemCount : Nat
  allDeclaredScenarios : Dict Str (List Str)

def Selection.empty : Selection := ⟨[], [], 0, .empty⟩

/-- One round of the loop that keeps or deselects the tests. -/
def select (config : Config) (found : Selection) (item : Item) : Except Raised Selection := do
  let item := skipIfDeclared item
  let scenarios := declaredScenarios item
  let found := { found with
    allDeclaredScenarios := found.allDeclaredScenarios.set item.nodeid scenarios }
  if config.sleep then return { found with deselected := found.deselected ++ [item] }
  else if scenarios.contains config.scenario then
    let item := force config item
    let mustPass ← itemMustPass item
    return { found with
      selected := found.selected ++ [item]
      mustPassItemCount := found.mustPassItemCount + (if mustPass then 1 else 0) }
  else return { found with deselected := found.deselected ++ [item] }

/-- The tests of the session, those that were deselected so far, and the report on scenarios. -/
structure Session where
  items : List Item
  deselectedItems : List Item
  allDeclaredScenarios : Dict Str (List Str)

/-- `pytest_collection_modifyitems`, with `pytest_deselected` -/
def pytestCollectionModifyitems (table : CharTable) (config : Config)
    (rules : Dict Str (List RuleMatch)) (deselectedItems items : List Item) :
    Except Raised Session := do
  let items ← items.mapM (addDeclarations table rules)
  let found ← items.foldlM (select config) .empty
  if found.mustPassItemCount = 0 && config.skipEmptyScenario then
    return ⟨[], deselectedItems ++ [], found.allDeclaredScenarios⟩
  else
    return ⟨found.selected, deselectedItems ++ found.deselected, found.allDeclaredScenarios⟩

/-- The tests whose setup `pytest_collection_finish` calls, in this order. -/
def setupItems (items : List Item) : List Item :=
  items.filter fun item => !itemIsSkipped item && item.hasInstance && item.hasSetup

def isIrrelevant (declaration : Str × Option Str) : Bool :=
  declaration.1 = "irrelevant".toList

/-- What `_collect_item_metadata` takes the declaration from: the marks from the last to the
first, up to one that is irrelevant. -/
def exposed : Option (Str × Option Str) → List (Str × Option Str) → Option (Str × Option Str)
  | last, [] => last
  | _, declaration :: rest =>
      if isIrrelevant declaration then some declaration else exposed (some declaration) rest

structure Metadata where
  details : Option Str
  testDeclaration : Option Str
  features : List Int
  owners : List Str
deriving DecidableEq

/-- `_collect_item_metadata`; the owners are a set. -/
def collectItemMetadata (item : Item) : Metadata :=
  let declared := exposed none (item.iterMarkers.filterMap Marker.declaration?).reverse
  { details := declared.map fun d => withDetails d.1 d.2
    testDeclaration := declared.map Prod.fst
    features := item.iterMarkers.filterMap Marker.featureId?
    owners := (item.iterMarkers.filterMap Marker.owner?).dedup }

end Model

section Manifests

variable (sv : SemanticVersion) (components : Components) (weblog : Option Str)
  (manifest : ManifestData)

/-- A condition of a rule about the test applies, and declares this. -/
def Declares (nodeid : Str) (declaration : SkipDeclaration) : Prop :=
  ∃ rule, matchRule rule nodeid = true ∧ ∃ c ∈ conditionsOf manifest rule,
    matchCondition sv c components weblog = true ∧ c.declaration = declaration

variable {sv components weblog manifest}

theorem exists_mem_trackMatches {conditions : List Condition} {declaration : SkipDeclaration} :
    (∃ m ∈ trackMatches sv components weblog 0 0 conditions, m.declaration = declaration) ↔
      ∃ c ∈ conditions, matchCondition sv c components weblog = true ∧
        c.declaration = declaration := by
  constructor
  · rintro ⟨m, hm, rfl⟩
    obtain ⟨k, c, hk, hmatch, heq⟩ := mem_trackMatches.mp hm
    exact ⟨c, List.mem_of_getElem? hk, hmatch, by rw [heq]⟩
  · rintro ⟨c, hc, hmatch, rfl⟩
    obtain ⟨k, hk⟩ := List.mem_iff_getElem?.mp hc
    exact ⟨_, mem_trackMatches.mpr ⟨k, c, hk, hmatch, rfl⟩, rfl⟩

/-- The declarations of a test are those of the conditions that apply to it. -/
theorem mem_getDeclarations_iff {nodeid : Str} {declaration : SkipDeclaration} :
    declaration ∈ getDeclarations (getRules sv components weblog manifest) nodeid ↔
      Declares sv components weblog manifest nodeid declaration := by
  constructor
  · intro hd
    obtain ⟨⟨rule, ms⟩, hsource, hd⟩ := List.mem_flatMap.mp hd
    obtain ⟨hitem, hrule⟩ := List.mem_filter.mp hsource
    obtain ⟨-, conditions, hget, rfl⟩ := get?_getRules.mp ((Dict.mem_items_iff _ _ _).mp hitem)
    refine ⟨rule, hrule, ?_⟩
    rw [conditionsOf, hget, Option.getD_some]
    exact exists_mem_trackMatches.mp (List.mem_map.mp hd)
  · rintro ⟨rule, hrule, hcondition⟩
    cases hget : manifest.get? rule with
    | none => simp [conditionsOf, hget] at hcondition
    | some conditions =>
        rw [conditionsOf, hget, Option.getD_some] at hcondition
        obtain ⟨m, hm, rfl⟩ := exists_mem_trackMatches.mpr hcondition
        refine List.mem_flatMap.mpr ⟨(rule, _), ?_, List.mem_map_of_mem hm⟩
        refine List.mem_filter.mpr ⟨(Dict.mem_items_iff _ _ _).mpr ?_, hrule⟩
        exact get?_getRules.mpr ⟨List.ne_nil_of_mem hm, conditions, hget, rfl⟩

end Manifests

section Marks

variable {table : CharTable} {rules : Dict Str (List RuleMatch)}

/-- The marks of one declaration. -/
def marksOf (declaration : SkipDeclaration) : List Marker :=
  let reason := withDetails declaration.value.value declaration.details
  [if skips declaration.value then .skip (some reason) else .xfail (some reason),
    .declaration declaration.value.value declaration.details]

/-- A test with the marks of its declarations. -/
def declared (rules : Dict Str (List RuleMatch)) (item : Item) : Item :=
  { item with ownMarkers := item.ownMarkers ++ (getDeclarations rules item.nodeid).flatMap marksOf }

theorem addPytestMarker_eq_ok_iff {item item' : Item} {declaration : SkipDeclaration} :
    addPytestMarker table item declaration.value declaration.details = .ok item' ↔
      Declaration.reasonIsValid table declaration.value declaration.details = true ∧
        item' = { item with ownMarkers := item.ownMarkers ++ marksOf declaration } := by
  unfold addPytestMarker Declaration.validateDeclarationReason
  cases Declaration.reasonIsValid table declaration.value declaration.details with
  | false => simp [throw, throwThe, MonadExceptOf.throw]
  | true =>
      have hmarks : (item.addMarker (if skips declaration.value then
          Marker.skip (some (withDetails declaration.value.value declaration.details))
          else .xfail (some (withDetails declaration.value.value declaration.details)))).addMarker
            (.declaration declaration.value.value declaration.details) =
          { item with ownMarkers := item.ownMarkers ++ marksOf declaration } := by
        rw [Item.addMarker, Item.addMarker, marksOf, List.append_assoc]
        rfl
      constructor
      · exact fun h => ⟨rfl, (Except.ok.inj h).symm.trans hmarks⟩
      · exact fun h => congrArg Except.ok (hmarks.trans h.2.symm)

/-- **A test is marked with all its declarations** when each of them has a valid reason. -/
theorem addDeclarations_eq_ok_iff {item item' : Item} :
    addDeclarations table rules item = .ok item' ↔
      (∀ d ∈ getDeclarations rules item.nodeid,
        Declaration.reasonIsValid table d.value d.details = true) ∧ item' = declared rules item := by
  have hloop : ∀ (ds : List SkipDeclaration) (item : Item),
      ds.foldlM (fun item d => addPytestMarker table item d.value d.details) item = .ok item' ↔
        (∀ d ∈ ds, Declaration.reasonIsValid table d.value d.details = true) ∧
          item' = { item with ownMarkers := item.ownMarkers ++ ds.flatMap marksOf } := by
    intro ds
    induction ds with
    | nil =>
        intro item
        rw [List.flatMap_nil, List.append_nil]
        exact ⟨fun h => ⟨nofun, (Except.ok.inj h).symm⟩, fun h => congrArg Except.ok h.2.symm⟩
    | cons d ds ih =>
        intro item
        rw [List.foldlM_cons, Raised.bind_eq_ok, List.forall_mem_cons]
        constructor
        · rintro ⟨marked, hmarked, hrest⟩
          obtain ⟨hvalid, rfl⟩ := addPytestMarker_eq_ok_iff.mp hmarked
          obtain ⟨hvalids, rfl⟩ := (ih _).mp hrest
          exact ⟨⟨hvalid, hvalids⟩, by simp [List.append_assoc]⟩
        · rintro ⟨⟨hvalid, hvalids⟩, rfl⟩
          exact ⟨_, addPytestMarker_eq_ok_iff.mpr ⟨hvalid, rfl⟩, (ih _).mpr
            ⟨hvalids, by simp [List.append_assoc]⟩⟩
  exact hloop _ item

end Marks

section Marked

variable {config : Config} {rules : Dict Str (List RuleMatch)} {item : Item}

/-- A test as the session has it when it is kept. -/
def prepared (config : Config) (rules : Dict Str (List RuleMatch)) (item : Item) : Item :=
  force config (skipIfDeclared (declared rules item))

/-- The user asks for the test to be run in any case. -/
def isForced (config : Config) (item : Item) : Bool :=
  config.forceExecute.any fun forced => forced <+: item.nodeid

/-- The marks of a test before the manifests are read. -/
def Item.marks (item : Item) : List Marker := item.ownMarkers ++ item.parentMarkers

/-- A mark that only runs when nothing is declared stops the test. -/
def StopsDeclared (declares : SkipDeclaration → Prop) (item : Item) : Prop :=
  .skipIfXfail ∈ item.marks ∧
    ((∃ d, declares d) ∨ ∃ value details, .declaration value details ∈ item.marks)

@[simp] theorem nodeid_skipIfDeclared (item : Item) : (skipIfDeclared item).nodeid = item.nodeid := by
  unfold skipIfDeclared
  split_ifs
  · cases lastDeclaration item <;> rfl
  · rfl

@[simp] theorem forced_skipIfDeclared (item : Item) : (skipIfDeclared item).forced = item.forced := by
  unfold skipIfDeclared
  split_ifs
  · cases lastDeclaration item <;> rfl
  · rfl

theorem iterMarkers_of_fresh (h : item.forced = false) : item.iterMarkers = item.marks := by
  rw [Item.iterMarkers, if_neg (by simp [h]), Item.marks]

theorem mem_declared_marks {marker : Marker} :
    marker ∈ (declared rules item).marks ↔
      marker ∈ item.marks ∨ ∃ d ∈ getDeclarations rules item.nodeid, marker ∈ marksOf d := by
  simp only [Item.marks, declared, List.mem_append, List.mem_flatMap]
  exact or_right_comm

/-- What `skipIfDeclared` adds. -/
theorem mem_skipIfDeclared_marks {marker : Marker} (h : item.forced = false) :
    marker ∈ (skipIfDeclared item).marks ↔ marker ∈ item.marks ∨
      (.skipIfXfail ∈ item.marks ∧ ∃ value details,
        lastDeclaration item = some (value, details) ∧
          marker = .skip (some (skipMessage value details))) := by
  have hany : item.iterMarkers.any Marker.isSkipIfXfail = true ↔ .skipIfXfail ∈ item.marks := by
    rw [iterMarkers_of_fresh h, List.any_eq_true]
    constructor
    · rintro ⟨m, hm, hskip⟩
      cases m <;> first | exact hm | cases hskip
    · exact fun hm => ⟨_, hm, rfl⟩
  unfold skipIfDeclared
  split_ifs with hskip
  · cases hlast : lastDeclaration item with
    | none => simp
    | some d =>
        simp only [Item.marks, Item.addMarker, List.mem_append, List.mem_singleton,
          Option.some.injEq]
        constructor
        · rintro ((hm | rfl) | hm)
          · exact Or.inl (Or.inl hm)
          · exact Or.inr ⟨List.mem_append.mp (hany.mp hskip), d.1, d.2, rfl, rfl⟩
          · exact Or.inl (Or.inr hm)
        · rintro ((hm | hm) | ⟨-, value, details, rfl, rfl⟩)
          · exact Or.inl (Or.inl hm)
          · exact Or.inr hm
          · exact Or.inl (Or.inr rfl)
  · constructor
    · exact Or.inl
    · rintro (hm | ⟨hm, -⟩)
      · exact hm
      · exact absurd (hany.mpr hm) hskip

theorem lastDeclaration_ne_none (h : item.forced = false) :
    (∃ value details, lastDeclaration item = some (value, details)) ↔
      ∃ value details, .declaration value details ∈ item.marks := by
  have hmem : (∃ value details, Marker.declaration value details ∈ item.marks) ↔
      item.marks.filterMap Marker.declaration? ≠ [] := by
    constructor
    · rintro ⟨value, details, hm⟩
      exact List.ne_nil_of_mem (List.mem_filterMap.mpr ⟨_, hm, rfl⟩)
    · intro hne
      obtain ⟨d, hd⟩ := List.exists_mem_of_ne_nil _ hne
      obtain ⟨m, hm, hd⟩ := List.mem_filterMap.mp hd
      cases m <;> simp [Marker.declaration?] at hd
      obtain ⟨rfl, rfl⟩ := hd
      exact ⟨_, _, hm⟩
  rw [hmem, lastDeclaration, iterMarkers_of_fresh h]
  constructor
  · rintro ⟨value, details, hlast⟩ hnil
    rw [hnil] at hlast
    cases hlast
  · intro hne
    exact ⟨_, _, List.getLast?_eq_some_getLast hne⟩

theorem isXfail_of_isSkip {marker : Marker} (h : marker.isSkip = true) :
    marker.isXfail = false := by
  cases marker <;> first | rfl | cases h

theorem mem_marksOf {marker : Marker} {d : SkipDeclaration} (h : marker ∈ marksOf d) :
    (marker.isSkip = true ∧ skips d.value = true) ∨ (marker.isXfail = true ∧ skips d.value = false) ∨
      marker = .declaration d.value.value d.details := by
  simp only [marksOf, List.mem_cons, List.not_mem_nil, or_false] at h
  rcases h with rfl | rfl
  · cases skips d.value with
    | true => exact Or.inl ⟨rfl, rfl⟩
    | false => exact Or.inr (Or.inl ⟨rfl, rfl⟩)
  · exact Or.inr (Or.inr rfl)

theorem exists_declaration_declared :
    (∃ value details, .declaration value details ∈ (declared rules item).marks) ↔
      (∃ d, d ∈ getDeclarations rules item.nodeid) ∨
        ∃ value details, .declaration value details ∈ item.marks := by
  simp only [mem_declared_marks]
  constructor
  · rintro ⟨value, details, hm | ⟨d, hd, -⟩⟩
    · exact Or.inr ⟨value, details, hm⟩
    · exact Or.inl ⟨d, hd⟩
  · rintro (⟨d, hd⟩ | ⟨value, details, hm⟩)
    · exact ⟨d.value.value, d.details, Or.inr ⟨d, hd, by simp [marksOf]⟩⟩
    · exact ⟨value, details, Or.inl hm⟩

/-- The marks of a kept test: its own, those of its declarations, and a skip if these stop it. -/
theorem mem_stopped_marks {marker : Marker} (h : item.forced = false) :
    marker ∈ (skipIfDeclared (declared rules item)).marks ↔
      marker ∈ item.marks ∨ (∃ d ∈ getDeclarations rules item.nodeid, marker ∈ marksOf d) ∨
        (StopsDeclared (· ∈ getDeclarations rules item.nodeid) item ∧ ∃ value details,
          lastDeclaration (declared rules item) = some (value, details) ∧
            marker = .skip (some (skipMessage value details))) := by
  have hfresh : (declared rules item).forced = false := h
  have hxfail : .skipIfXfail ∈ (declared rules item).marks ↔ .skipIfXfail ∈ item.marks := by
    rw [mem_declared_marks, or_iff_left]
    rintro ⟨d, -, hd⟩
    rcases mem_marksOf hd with ⟨hm, -⟩ | ⟨hm, -⟩ | hm <;> cases hm
  rw [mem_skipIfDeclared_marks hfresh, mem_declared_marks, hxfail, or_assoc]
  refine or_congr_right (or_congr_right ?_)
  constructor
  · rintro ⟨hx, value, details, hlast, rfl⟩
    exact ⟨⟨hx, exists_declaration_declared.mp
      ((lastDeclaration_ne_none hfresh).mp ⟨value, details, hlast⟩)⟩, value, details, hlast, rfl⟩
  · rintro ⟨hstops, value, details, hlast, rfl⟩
    exact ⟨hstops.1, value, details, hlast, rfl⟩

theorem exists_skip_stopped (h : item.forced = false) :
    (∃ m ∈ (skipIfDeclared (declared rules item)).marks, m.isSkip = true) ↔
      (∃ m ∈ item.marks, m.isSkip = true) ∨
        (∃ d ∈ getDeclarations rules item.nodeid, skips d.value = true) ∨
          StopsDeclared (· ∈ getDeclarations rules item.nodeid) item := by
  simp only [mem_stopped_marks h]
  constructor
  · rintro ⟨m, hm | ⟨d, hd, hm⟩ | ⟨hstops, -⟩, hskip⟩
    · exact Or.inl ⟨m, hm, hskip⟩
    · rcases mem_marksOf hm with ⟨-, hd'⟩ | ⟨hx, -⟩ | rfl
      · exact Or.inr (Or.inl ⟨d, hd, hd'⟩)
      · cases (isXfail_of_isSkip hskip).symm.trans hx
      · cases hskip
    · exact Or.inr (Or.inr hstops)
  · rintro (⟨m, hm, hskip⟩ | ⟨d, hd, hskip⟩ | hstops)
    · exact ⟨m, Or.inl hm, hskip⟩
    · refine ⟨.skip (some (withDetails d.value.value d.details)), Or.inr (Or.inl ⟨d, hd, ?_⟩), rfl⟩
      rw [marksOf, hskip]
      exact List.mem_cons_self ..
    · obtain ⟨value, details, hlast⟩ := (@lastDeclaration_ne_none (declared rules item) h).mpr
        (exists_declaration_declared.mpr hstops.2)
      exact ⟨_, Or.inr (Or.inr ⟨hstops, value, details, hlast, rfl⟩), rfl⟩

theorem exists_xfail_stopped (h : item.forced = false) :
    (∃ m ∈ (skipIfDeclared (declared rules item)).marks, m.isXfail = true) ↔
      (∃ m ∈ item.marks, m.isXfail = true) ∨
        ∃ d ∈ getDeclarations rules item.nodeid, skips d.value = false := by
  simp only [mem_stopped_marks h]
  constructor
  · rintro ⟨m, hm | ⟨d, hd, hm⟩ | ⟨-, value, details, -, rfl⟩, hxfail⟩
    · exact Or.inl ⟨m, hm, hxfail⟩
    · rcases mem_marksOf hm with ⟨hs, -⟩ | ⟨-, hd'⟩ | rfl
      · cases (isXfail_of_isSkip hs).symm.trans hxfail
      · exact Or.inr ⟨d, hd, hd'⟩
      · cases hxfail
    · cases hxfail
  · rintro (⟨m, hm, hxfail⟩ | ⟨d, hd, hskip⟩)
    · exact ⟨m, Or.inl hm, hxfail⟩
    · refine ⟨.xfail (some (withDetails d.value.value d.details)), Or.inr (Or.inl ⟨d, hd, ?_⟩), rfl⟩
      rw [marksOf, hskip]
      exact List.mem_cons_self ..

/-- Marks of other kinds are those of the test. -/
theorem mem_stopped_marks_other {marker : Marker} (h : item.forced = false)
    (hskip : marker.isSkip = false) (hxfail : marker.isXfail = false)
    (hdeclaration : marker.declaration? = none) :
    marker ∈ (skipIfDeclared (declared rules item)).marks ↔ marker ∈ item.marks := by
  rw [mem_stopped_marks h, or_iff_left]
  rintro (⟨d, -, hd⟩ | ⟨-, value, details, -, rfl⟩)
  · rcases mem_marksOf hd with ⟨hs, -⟩ | ⟨hx, -⟩ | rfl
    · rw [hskip] at hs
      cases hs
    · rw [hxfail] at hx
      cases hx
    · cases hdeclaration
  · cases hskip

end Marked

end Collection
end SystemTests
