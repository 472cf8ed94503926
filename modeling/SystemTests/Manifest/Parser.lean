import SystemTests.Foundation.Dict
import SystemTests.Manifest.Declaration

/-!
# Parser of the manifest files (`utils/manifest/_internal/parser.py`)

A manifest file maps rules to a raw value: an inline declaration, or a list of
entries.  An entry is a condition on the version and the weblog, or a
`weblog_declaration`, which becomes one condition for each of its keys.  The
files of all components are merged into one list of conditions for each rule.

A raw entry holds the fields that the parser knows and the names of any others;
the types that `check_condition` asks for are the types of the fields here.  In
the texts of the casting errors the rendering of the entry is left out.

**Results.**
* `loadEntries_getElem?`: `sourceOf` is the entry a parsed condition comes from.
* `conditionsOf_load`: a merged rule is the concatenation of the rules of the components.
-/

namespace SystemTests
namespace Manifest

open Foundation Foundation.Text Foundation.Semver Foundation.Regex

structure Condition where
  component : Str
  declaration : SkipDeclaration
  componentVersion : Option SemverRange := none
  excludedComponentVersion : Option SemverRange := none
  weblog : Option (List Str) := none
  excludedWeblog : Option (List Str) := none
deriving DecidableEq

abbrev ManifestData := Dict Str (List Condition)

/-- A field that is one text or a list of texts. -/
inductive OneOrMany where
  | one (s : Str)
  | many (l : List Str)
deriving DecidableEq

structure RawEntry where
  componentVersion : Option Str := none
  excludedComponentVersion : Option Str := none
  weblogDeclaration : Option (Dict Str Str) := none
  declaration : Option Str := none
  weblog : Option OneOrMany := none
  excludedWeblog : Option OneOrMany := none
  unknownFields : List Str := []
deriving DecidableEq

inductive RawValue where
  | inline (raw : Str)
  | mapping (entry : RawEntry)
  | entries (entries : List RawEntry)
deriving DecidableEq

abbrev RawManifest := Dict Str RawValue

section Processing

variable (sv : SemanticVersion) (table : CharTable)

def declaredVersionText (component raw : Str) : Str :=
  "declared version for ".toList ++ component ++ " is ".toList ++ raw

def processInline (raw component : Str) : Except Raised Condition := do
  let declaration ← Declaration.create sv table raw component true
  match declaration.value with
  | .skip d => return { component, declaration := ⟨d, declaration.reason⟩ }
  | .range r =>
      return {
        component
        declaration := ⟨.missingFeature, some (declaredVersionText component raw)⟩
        excludedComponentVersion := some r }

def parseWeblogs (weblogs : Str) : List Str := (split [','] weblogs).map strip

/-- `FieldProcessor.component_version`, also of `excluded_component_version` -/
def componentVersionField (component : Str) (field : Option Str) :
    Except Raised (Option DeclarationValue) :=
  match field with
  | none => return none
  | some raw => do
      let declaration ← Declaration.create sv table raw component true
      return some declaration.value

def declarationField (component : Str) (field : Option Str) :
    Except Raised (Option SkipDeclaration) :=
  match field with
  | none => return none
  | some raw => do
      let declaration ← Declaration.create sv table raw component false
      match declaration.value with
      | .skip d => return some ⟨d, declaration.reason⟩
      | .range _ => throw (.assertionError [])

/-- `FieldProcessor.ensure_list` of `weblog` -/
def weblogField : OneOrMany → List Str
  | .one s => parseWeblogs s
  | .many l => l.flatMap parseWeblogs

/-- `FieldProcessor.ensure_list` of `excluded_weblog` -/
def excludedWeblogField : OneOrMany → List Str
  | .one s => [s]
  | .many l => l

def explicitWeblogs (weblogDeclaration : Dict Str Str) : List Str :=
  (weblogDeclaration.keys.filter (· ≠ ['*'])).flatMap parseWeblogs

/-- The condition of one key of a `weblog_declaration`. -/
def weblogClause (component : Str) (allWeblogs : List Str) (clause : Str × Str) :
    Except Raised Condition := do
  let condition ← processInline sv table clause.2 component
  if clause.1 = ['*'] then return { condition with excludedWeblog := some allWeblogs }
  else return { condition with weblog := some (parseWeblogs clause.1) }

def weblogDeclarationField (component : Str) (weblogDeclaration : Dict Str Str) :
    Except Raised (List Condition) :=
  weblogDeclaration.items.mapM
    (weblogClause sv table component (explicitWeblogs weblogDeclaration))

/-- The conditions that the fields of an entry add by themselves. -/
def newConditions (component : Str) (field : Option (Dict Str Str)) :
    Except Raised (List Condition) :=
  match field with
  | none => return []
  | some weblogDeclaration => weblogDeclarationField sv table component weblogDeclaration

end Processing

/-- An entry after its fields were processed. -/
structure ProcessedEntry where
  componentVersion : Option DeclarationValue
  excludedComponentVersion : Option DeclarationValue
  declaration : Option SkipDeclaration
  weblog : Option (List Str)
  excludedWeblog : Option (List Str)
  unknownFields : List Str

section Casting

/-- `check_condition` on a version field -/
def checkRange (key : Str) (field : Option DeclarationValue) :
    Except Raised (Option SemverRange) :=
  match field with
  | none => return none
  | some (.range r) => return some r
  | some (.skip _) => throw (.typeError ("Wrong type for ".toList ++ key ++
      ", expected <class 'utils.manifest._internal.types.SemverRange'> got <enum 'TestDeclaration'>".toList))

def castToCondition (entry : ProcessedEntry) (component : Str) : Except Raised Condition :=
  match entry.declaration with
  | none => throw (.keyError "declaration")
  | some declaration => do
      let componentVersion ← checkRange "component_version" entry.componentVersion
      let excludedComponentVersion ←
        checkRange "excluded_component_version" entry.excludedComponentVersion
      match entry.unknownFields with
      | key :: _ => throw (.valueError ("Field ".toList ++ key ++ " unknown".toList))
      | [] =>
          return {
            component, declaration, componentVersion, excludedComponentVersion
            weblog := entry.weblog
            excludedWeblog := entry.excludedWeblog }

def castingErrorText (nodeid component : Str) : Str :=
  "Error while casting ".toList ++ nodeid ++ " to Condition in ".toList ++ component ++
    " manifest.".toList

/-- The errors of a cast are raised again with the place they occurred in. -/
def castingError (nodeid component : Str) : Raised → Raised
  | .keyError key => .valueError (castingErrorText nodeid component ++
      " Field '".toList ++ key ++ "' is missing.".toList)
  | .valueError _ => .valueError (castingErrorText nodeid component)
  | .typeError _ => .typeError (castingErrorText nodeid component ++
      " Make sure you are not missing a FieldProcessor".toList)
  | e => e

def castEntry (nodeid component : Str) (entry : ProcessedEntry) : Except Raised Condition :=
  (castToCondition entry component).mapError (castingError nodeid component)

end Casting

section Loading

variable (sv : SemanticVersion) (table : CharTable) (component : Str)

/-- The conditions of one entry; a `weblog_declaration` is not cast itself. -/
def loadEntry (nodeid : Str) (entry : RawEntry) : Except Raised (List Condition) := do
  let componentVersion ← componentVersionField sv table component entry.componentVersion
  let excludedComponentVersion ←
    componentVersionField sv table component entry.excludedComponentVersion
  let new ← newConditions sv table component entry.weblogDeclaration
  let declaration ← declarationField sv table component entry.declaration
  if entry.weblogDeclaration.isSome then return new
  else do
    let condition ← castEntry nodeid component {
      componentVersion, excludedComponentVersion, declaration
      weblog := entry.weblog.map weblogField
      excludedWeblog := entry.excludedWeblog.map excludedWeblogField
      unknownFields := entry.unknownFields }
    return [condition]

def loadEntries (nodeid : Str) : List RawEntry → Except Raised (List Condition)
  | [] => return []
  | entry :: entries => do
      let conditions ← loadEntry sv table component nodeid entry
      let rest ← loadEntries nodeid entries
      return conditions ++ rest

/-- The conditions of a rule. -/
def loadValue (nodeid : Str) : RawValue → Except Raised (List Condition)
  | .inline raw => do
      let condition ← processInline sv table raw component
      return [condition]
  | .entries entries => loadEntries sv table component nodeid entries
  -- the keys of a mapping are taken for entries
  | .mapping entry =>
      if entry = {} then return []
      else throw (.typeError "string indices must be integers, not 'str'")

/-- `_load_file`; a missing file has no rules -/
def loadFile (file : Option RawManifest) : Except Raised ManifestData :=
  match file with
  | none => return .empty
  | some manifest => manifest.mapValuesM (loadValue sv table component)

end Loading

/-- The components whose files `load` reads, in its order. -/
def loadedComponents : List Str :=
  ["agent", "c", "cpp", "cpp_httpd", "cpp_kong", "cpp_nginx", "dotnet", "golang", "java",
    "java_lambda", "java_otel", "nodejs", "nodejs_lambda", "nodejs_otel", "php", "python",
    "python_otel", "ruby", "rust", "dd_apm_inject", "k8s_cluster_agent", "python_lambda",
    "ruby_lambda", "envoy", "haproxy"].map String.toList

/-- `result[nodeid] += value` after a missing rule was made empty -/
def mergeRule (result : ManifestData) (rule : Str × List Condition) : ManifestData :=
  result.set rule.1 ((result.get? rule.1).getD [] ++ rule.2)

def merge (result data : ManifestData) : ManifestData := data.items.foldl mergeRule result

/-- The manifest files of a directory: one for each component, or none. -/
abbrev ManifestFiles := Str → Option RawManifest

section Load

variable (sv : SemanticVersion) (table : CharTable) (files : ManifestFiles)

def loadFrom (result : ManifestData) : List Str → Except Raised ManifestData
  | [] => return result
  | component :: components => do
      let data ← loadFile sv table component (files component)
      loadFrom (merge result data) components

def load : Except Raised ManifestData := loadFrom sv table files .empty loadedComponents

end Load

section Conditions

variable {sv : SemanticVersion} {table : CharTable} {component : Str}

/-- An inline declaration gives a condition on the component alone. -/
theorem processInline_eq_ok_iff {raw : Str} {c : Condition} :
    processInline sv table raw component = .ok c ↔
      ∃ decl, Declaration.create sv table raw component true = .ok decl ∧
        ((∃ d, decl.value = .skip d ∧ c = { component, declaration := ⟨d, decl.reason⟩ }) ∨
          ∃ r, decl.value = .range r ∧
            c = {
              component
              declaration := ⟨.missingFeature, some (declaredVersionText component raw)⟩
              excludedComponentVersion := some r }) := by
  unfold processInline
  rw [Raised.bind_eq_ok]
  refine exists_congr fun decl => and_congr_right fun _ => ?_
  cases decl.value with
  | skip d => simp [eq_comm (a := c)]
  | range r => simp [eq_comm (a := c)]

theorem component_of_processInline {raw : Str} {c : Condition}
    (h : processInline sv table raw component = .ok c) : c.component = component := by
  obtain ⟨decl, -, ⟨d, -, rfl⟩ | ⟨r, -, rfl⟩⟩ := processInline_eq_ok_iff.mp h
  · rfl
  · rfl

theorem weblogClause_eq_ok_iff {allWeblogs : List Str} {clause : Str × Str} {c : Condition} :
    weblogClause sv table component allWeblogs clause = .ok c ↔
      ∃ inline, processInline sv table clause.2 component = .ok inline ∧
        c = if clause.1 = ['*'] then { inline with excludedWeblog := some allWeblogs }
          else { inline with weblog := some (parseWeblogs clause.1) } := by
  unfold weblogClause
  rw [Raised.bind_eq_ok]
  refine exists_congr fun inline => and_congr_right fun _ => ?_
  split_ifs <;> simp [eq_comm (a := c)]

/-- The conditions of a `weblog_declaration`, one for each key in order. -/
theorem weblogDeclarationField_eq_ok_iff {weblogDeclaration : Dict Str Str}
    {cs : List Condition} :
    weblogDeclarationField sv table component weblogDeclaration = .ok cs ↔
      List.Forall₂ (fun clause c => weblogClause sv table component
        (explicitWeblogs weblogDeclaration) clause = .ok c) weblogDeclaration.items cs :=
  Raised.mapM_eq_ok_iff

theorem component_of_castEntry {nodeid : Str} {entry : ProcessedEntry} {c : Condition}
    (h : castEntry nodeid component entry = .ok c) : c.component = component := by
  unfold castEntry at h
  cases hcast : castToCondition entry component with
  | error e => simp [hcast, Except.mapError] at h
  | ok c' =>
      obtain rfl : c' = c := by simpa [hcast, Except.mapError] using h
      unfold castToCondition at hcast
      split at hcast
      · exact absurd hcast (by simp)
      · simp only [Raised.bind_eq_ok] at hcast
        obtain ⟨v, -, e, -, hcast⟩ := hcast
        split at hcast
        · exact absurd hcast (by simp)
        · rw [Raised.pure_eq_ok] at hcast
          rw [← hcast]

/-- An accepted entry gives the conditions of its `weblog_declaration` or one of its own. -/
theorem loadEntry_cases {nodeid : Str} {entry : RawEntry} {cs : List Condition}
    (h : loadEntry sv table component nodeid entry = .ok cs) :
    (∃ wd, entry.weblogDeclaration = some wd ∧
        weblogDeclarationField sv table component wd = .ok cs) ∨
      (entry.weblogDeclaration = none ∧ ∃ cv ecv declaration c,
        componentVersionField sv table component entry.componentVersion = .ok cv ∧
        componentVersionField sv table component entry.excludedComponentVersion = .ok ecv ∧
        declarationField sv table component entry.declaration = .ok declaration ∧
        castEntry nodeid component {
          componentVersion := cv
          excludedComponentVersion := ecv
          declaration
          weblog := entry.weblog.map weblogField
          excludedWeblog := entry.excludedWeblog.map excludedWeblogField
          unknownFields := entry.unknownFields } = .ok c ∧
        cs = [c]) := by
  unfold loadEntry at h
  simp only [Raised.bind_eq_ok] at h
  obtain ⟨cv, hcv, ecv, hecv, new, hnew, declaration, hdecl, h⟩ := h
  cases hwd : entry.weblogDeclaration with
  | none =>
      rw [hwd] at h
      simp only [Option.isSome_none, Bool.false_eq_true, if_false, Raised.bind_eq_ok,
        Raised.pure_eq_ok] at h
      obtain ⟨c, hc, hcs⟩ := h
      exact Or.inr ⟨rfl, cv, ecv, declaration, c, hcv, hecv, hdecl, hc, hcs.symm⟩
  | some wd =>
      rw [hwd] at h hnew
      simp only [Option.isSome_some, if_true, Raised.pure_eq_ok] at h
      exact Or.inl ⟨wd, rfl, h ▸ hnew⟩

theorem component_of_loadEntry {nodeid : Str} {entry : RawEntry} {cs : List Condition}
    (h : loadEntry sv table component nodeid entry = .ok cs) :
    ∀ c ∈ cs, c.component = component := by
  intro c hc
  rcases loadEntry_cases h with ⟨wd, -, hwd⟩ | ⟨-, cv, ecv, d, c', -, -, -, hcast, rfl⟩
  · obtain ⟨clause, -, hclause⟩ := Raised.exists_of_mem_mapM hwd hc
    obtain ⟨inline, hinline, rfl⟩ := weblogClause_eq_ok_iff.mp hclause
    have hcomp := component_of_processInline hinline
    split_ifs <;> exact hcomp
  · rw [List.mem_singleton] at hc
    rw [hc]
    exact component_of_castEntry hcast

theorem component_of_loadEntries {nodeid : Str} :
    ∀ {entries : List RawEntry} {cs : List Condition},
      loadEntries sv table component nodeid entries = .ok cs →
        ∀ c ∈ cs, c.component = component
  | [], cs, h => by
      rw [loadEntries, Raised.pure_eq_ok] at h
      simp [← h]
  | entry :: entries, cs, h => by
      simp only [loadEntries, Raised.bind_eq_ok, Raised.pure_eq_ok] at h
      obtain ⟨here, hhere, rest, hrest, rfl⟩ := h
      intro c hc
      rcases List.mem_append.mp hc with hc | hc
      · exact component_of_loadEntry hhere c hc
      · exact component_of_loadEntries hrest c hc

/-- All conditions of a file are about its component. -/
theorem component_of_loadValue {nodeid : Str} {value : RawValue} {cs : List Condition}
    (h : loadValue sv table component nodeid value = .ok cs) :
    ∀ c ∈ cs, c.component = component := by
  cases value with
  | inline raw =>
      simp only [loadValue, Raised.bind_eq_ok, Raised.pure_eq_ok] at h
      obtain ⟨c, hc, rfl⟩ := h
      simpa using component_of_processInline hc
  | mapping entry =>
      simp only [loadValue] at h
      split_ifs at h
      rw [Raised.pure_eq_ok] at h
      simp [← h]
  | entries entries => exact component_of_loadEntries h

end Conditions

section Sources

/-- What a condition was read from: the entry, and the key of its `weblog_declaration`. -/
structure Source where
  entry : Nat
  key : Option Str
deriving DecidableEq

/-- The sources of the conditions of one entry. -/
def entrySources (index : Nat) (entry : RawEntry) : List Source :=
  match entry.weblogDeclaration with
  | none => [⟨index, none⟩]
  | some weblogDeclaration => weblogDeclaration.keys.map fun key => ⟨index, some key⟩

/-- The sources of the conditions of a list of entries, numbered from an index. -/
def sourcesFrom : Nat → List RawEntry → List Source
  | _, [] => []
  | index, entry :: entries => entrySources index entry ++ sourcesFrom (index + 1) entries

/-- The entry from which the parser produces the condition at a position. -/
def sourceOf (entries : List RawEntry) (position : Nat) : Option Source :=
  (sourcesFrom 0 entries)[position]?

variable {sv : SemanticVersion} {table : CharTable} {component : Str}

/-- A condition comes from a source: the parser makes it of that entry and key. -/
def ComesFrom (sv : SemanticVersion) (table : CharTable) (component : Str)
    (entry : RawEntry) (key : Option Str) (c : Condition) : Prop :=
  match entry.weblogDeclaration, key with
  | none, none => ∃ nodeid, loadEntry sv table component nodeid entry = .ok [c]
  | some wd, some key => ∃ raw, wd.get? key = some raw ∧
      weblogClause sv table component (explicitWeblogs wd) (key, raw) = .ok c
  | _, _ => False

theorem entrySources_forall₂ {nodeid : Str} {entry : RawEntry} {cs : List Condition}
    (h : loadEntry sv table component nodeid entry = .ok cs) (index : Nat) :
    List.Forall₂ (fun s c => s.entry = index ∧ ComesFrom sv table component entry s.key c)
      (entrySources index entry) cs := by
  rcases loadEntry_cases h with ⟨wd, hwd, hcs⟩ | ⟨hwd, cv, ecv, d, c, -, -, -, -, rfl⟩
  · have hitems : ∀ clause ∈ wd.items, wd.get? clause.1 = some clause.2 := by
      intro clause hclause
      exact (wd.mem_items_iff _ _).mp hclause
    simp only [entrySources, hwd, Dict.keys, List.map_map, List.forall₂_map_left_iff,
      Function.comp_apply]
    have hclauses := (List.forall₂_and_left _ _).mpr
      ⟨hitems, weblogDeclarationField_eq_ok_iff.mp hcs⟩
    refine hclauses.imp ?_
    rintro clause c ⟨hclause, hc⟩
    refine ⟨trivial, ?_⟩
    simp only [ComesFrom, hwd]
    exact ⟨clause.2, hclause, hc⟩
  · simp only [entrySources, hwd, List.forall₂_cons, List.Forall₂.nil, and_true, true_and]
    simp only [ComesFrom, hwd]
    exact ⟨nodeid, h⟩

theorem sourcesFrom_forall₂ {nodeid : Str} :
    ∀ {entries : List RawEntry} {cs : List Condition} (index : Nat),
      loadEntries sv table component nodeid entries = .ok cs →
        List.Forall₂ (fun s c => ∃ i entry, s.entry = index + i ∧
            entries[i]? = some entry ∧ ComesFrom sv table component entry s.key c)
          (sourcesFrom index entries) cs
  | [], cs, index, h => by
      rw [loadEntries, Raised.pure_eq_ok] at h
      rw [← h]
      exact List.Forall₂.nil
  | entry :: entries, cs, index, h => by
      simp only [loadEntries, Raised.bind_eq_ok, Raised.pure_eq_ok] at h
      obtain ⟨here, hhere, rest, hrest, rfl⟩ := h
      refine List.rel_append ?_ ?_
      · refine (entrySources_forall₂ hhere index).imp ?_
        rintro s c ⟨hs, hc⟩
        exact ⟨0, entry, hs, rfl, hc⟩
      · refine (sourcesFrom_forall₂ (index + 1) hrest).imp ?_
        rintro s c ⟨i, entry', hs, hentry, hc⟩
        refine ⟨i + 1, entry', ?_, hentry, hc⟩
        omega

/-- **Sources.**  Every condition of a rule comes from the source at its position. -/
theorem loadEntries_getElem? {nodeid : Str} {entries : List RawEntry} {cs : List Condition}
    (h : loadEntries sv table component nodeid entries = .ok cs) {position : Nat}
    {c : Condition} (hc : cs[position]? = some c) :
    ∃ s entry, sourceOf entries position = some s ∧ entries[s.entry]? = some entry ∧
      ComesFrom sv table component entry s.key c := by
  have hall := sourcesFrom_forall₂ 0 h
  obtain ⟨hlt, hget⟩ := List.getElem?_eq_some_iff.mp hc
  have hlt' : position < (sourcesFrom 0 entries).length := by
    rw [hall.length_eq]
    exact hlt
  obtain ⟨i, entry, hs, hentry, hcomes⟩ := hall.get hlt' hlt
  simp only [List.get_eq_getElem, Nat.zero_add, hget] at hs hcomes
  exact ⟨_, entry, List.getElem?_eq_getElem hlt', hs ▸ hentry, hcomes⟩

end Sources

section Merged

variable (sv : SemanticVersion) (table : CharTable) (files : ManifestFiles)

/-- The conditions of a rule, none where it is absent. -/
def conditionsOf (data : ManifestData) (rule : Str) : List Condition :=
  (data.get? rule).getD []

/-- What the file of a component is read as. -/
def parsedFile (component : Str) : ManifestData :=
  match loadFile sv table component (files component) with
  | .ok data => data
  | .error _ => .empty

theorem get?_foldl_mergeRule (rule : Str) :
    ∀ (items : List (Str × List Condition)) (result : ManifestData),
      (items.map Prod.fst).Nodup →
        (items.foldl mergeRule result).get? rule =
          match Dict.find rule items with
          | none => result.get? rule
          | some conditions => some (conditionsOf result rule ++ conditions)
  | [], result, _ => rfl
  | p :: items, result, hnodup => by
      rw [List.map_cons, List.nodup_cons] at hnodup
      rw [List.foldl_cons, get?_foldl_mergeRule rule items _ hnodup.2]
      by_cases hp : p.1 = rule
      · subst hp
        have hnone : Dict.find p.1 items = none :=
          (Dict.find_eq_none_iff _ _).mpr hnodup.1
        simp [Dict.find, hnone, mergeRule, conditionsOf]
      · have hne : rule ≠ p.1 := fun h => hp h.symm
        simp only [Dict.find, if_neg hp]
        have hget : (mergeRule result p).get? rule = result.get? rule :=
          Dict.get?_set_ne _ _ hne
        simp only [hget, conditionsOf]

theorem conditionsOf_merge (result data : ManifestData) (rule : Str) :
    conditionsOf (merge result data) rule =
      conditionsOf result rule ++ conditionsOf data rule := by
  unfold merge
  rw [conditionsOf, get?_foldl_mergeRule rule _ _ data.nodup]
  have hfind : Dict.find rule data.items = data.get? rule := rfl
  rw [hfind]
  cases hget : data.get? rule with
  | none => simp [conditionsOf, hget]
  | some conditions => simp [conditionsOf, hget]

theorem mem_keys_merge (result data : ManifestData) (rule : Str) :
    rule ∈ (merge result data).keys ↔ rule ∈ result.keys ∨ rule ∈ data.keys := by
  rw [← Dict.get?_isSome_iff, ← Dict.get?_isSome_iff, ← Dict.get?_isSome_iff, merge,
    get?_foldl_mergeRule rule _ _ data.nodup]
  have hfind : Dict.find rule data.items = data.get? rule := rfl
  rw [hfind]
  cases data.get? rule <;> simp

theorem loadFrom_spec (rule : Str) :
    ∀ {components : List Str} {result data : ManifestData},
      loadFrom sv table files result components = .ok data →
        (∀ c ∈ components, loadFile sv table c (files c) = .ok (parsedFile sv table files c)) ∧
        conditionsOf data rule = conditionsOf result rule ++
          components.flatMap (fun c => conditionsOf (parsedFile sv table files c) rule) ∧
        (rule ∈ data.keys ↔ rule ∈ result.keys ∨
          ∃ c ∈ components, rule ∈ (parsedFile sv table files c).keys)
  | [], result, data, h => by
      rw [loadFrom, Raised.pure_eq_ok] at h
      simp [h]
  | component :: components, result, data, h => by
      rw [loadFrom, Raised.bind_eq_ok] at h
      obtain ⟨file, hfile, h⟩ := h
      have hparsed : parsedFile sv table files component = file := by
        rw [parsedFile, hfile]
      obtain ⟨hfiles, hconditions, hkeys⟩ := loadFrom_spec rule h
      refine ⟨?_, ?_, ?_⟩
      · rw [List.forall_mem_cons, hparsed]
        exact ⟨hfile, hfiles⟩
      · rw [hconditions, conditionsOf_merge, List.flatMap_cons, hparsed, List.append_assoc]
      · rw [hkeys, mem_keys_merge, List.exists_mem_cons_iff, hparsed, or_assoc]

variable {sv table files}

/-- **The merged manifest**: a rule has the conditions of all components, in their order. -/
theorem conditionsOf_load {data : ManifestData} (h : load sv table files = .ok data)
    (rule : Str) :
    conditionsOf data rule =
      loadedComponents.flatMap fun c => conditionsOf (parsedFile sv table files c) rule := by
  have hempty : conditionsOf (Dict.empty : ManifestData) rule = [] := rfl
  rw [(loadFrom_spec sv table files rule h).2.1, hempty, List.nil_append]

theorem mem_keys_load {data : ManifestData} (h : load sv table files = .ok data)
    (rule : Str) :
    rule ∈ data.keys ↔ ∃ c ∈ loadedComponents, rule ∈ (parsedFile sv table files c).keys := by
  rw [(loadFrom_spec sv table files rule h).2.2]
  have hempty : rule ∉ (Dict.empty : ManifestData).keys := by
    simp [Dict.empty, Dict.keys]
  simp [hempty]

theorem loadFile_of_load {data : ManifestData} (h : load sv table files = .ok data)
    {component : Str} (hc : component ∈ loadedComponents) :
    loadFile sv table component (files component) = .ok (parsedFile sv table files component) :=
  (loadFrom_spec sv table files [] h).1 component hc

/-- The conditions of a rule in the file of a component, read from its raw value. -/
theorem conditionsOf_parsedFile {component : Str} (rule : Str)
    (h : loadFile sv table component (files component) = .ok (parsedFile sv table files component)) :
    (conditionsOf (parsedFile sv table files component) rule = []) ∨
      ∃ manifest value, files component = some manifest ∧ manifest.get? rule = some value ∧
        loadValue sv table component rule value =
          .ok (conditionsOf (parsedFile sv table files component) rule) := by
  cases hfile : files component with
  | none =>
      rw [hfile, loadFile, Raised.pure_eq_ok] at h
      rw [← h]
      exact Or.inl rfl
  | some manifest =>
      rw [hfile, loadFile] at h
      rcases Dict.get?_of_mapValuesM h rule with ⟨-, hnone⟩ | ⟨value, cs, hvalue, hcs, hget⟩
      · exact Or.inl (by rw [conditionsOf, hnone, Option.getD_none])
      · refine Or.inr ⟨manifest, value, rfl, hvalue, ?_⟩
        rw [hcs, conditionsOf, hget, Option.getD_some]

theorem component_of_mem_conditionsOf {component rule : Str}
    (h : loadFile sv table component (files component) = .ok (parsedFile sv table files component)) :
    ∀ c ∈ conditionsOf (parsedFile sv table files component) rule,
      c.component = component := by
  intro c hc
  rcases conditionsOf_parsedFile rule h with hnil | ⟨_, value, -, -, hload⟩
  · rw [hnil] at hc
    simp at hc
  · exact component_of_loadValue hload c hc

end Merged

end Manifest
end SystemTests
