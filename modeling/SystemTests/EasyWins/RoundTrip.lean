import SystemTests.EasyWins.Serialization

/-!
# Round trip of serialized conditions

A condition keeps its meaning when the entry it is written as is parsed to
conditions that apply, taken together, to the same versions and weblogs and that
all carry its declaration.

**Result.**  `serialize_roundTrips_iff`: which parsed conditions keep their
meaning.  A missing feature for a version of some weblogs is written as a
`weblog_declaration`, whose versions are those that run the test.
-/

namespace SystemTests
namespace EasyWins

open Foundation Foundation.Text Foundation.Semver Foundation.Regex Manifest

section RoundTrips

variable (sv : SemanticVersion) (table : CharTable)

/-- The parsed conditions mean what the condition meant. -/
def SameMeaning (c : Condition) (cs : List Condition) : Prop :=
  (∀ components weblog, matchCondition sv c components weblog =
      cs.any fun c' => matchCondition sv c' components weblog) ∧
    ∀ c' ∈ cs, c'.declaration = c.declaration

def RoundTrips (nodeid : Str) (c : Condition) : Prop :=
  ∃ cs, loadEntry sv table c.component nodeid (serializeCondition c) = .ok cs ∧
    SameMeaning sv c cs

/-- No version satisfies the two version fields of a condition. -/
def NoVersion (c : Condition) : Prop :=
  ∀ t, (inRange sv c.componentVersion t && outOfRange sv c.excludedComponentVersion t) = false

/-- The conditions that keep their meaning, for each of the three written shapes. -/
def Serializable (c : Condition) : Prop :=
  if isVersionedWeblog c then c.weblog = some [] ∧ NoVersion sv c
  else if isPlainWeblog c then
    c.weblog ≠ some [] ∧ ['*'] ∉ c.weblog.getD [] ∧ c.declaration.details ≠ some []
  else
    (∀ r, c.componentVersion = some r → r.expression ≠ []) ∧
      (∀ r, c.excludedComponentVersion = some r → r.expression ≠ []) ∧
      c.declaration.details ≠ some [] ∧ ∀ e, c.declaration.details = some e → '\n' ∉ e

end RoundTrips

section Matching

variable {sv : SemanticVersion} {table : CharTable} {read : Str → Option Npm.Block}
variable {c : Condition}

def onlyComponent (component : Str) (t : Version) : Components := Dict.empty.set component t

theorem matchCondition_of_get? {components : Components} {t : Version} {weblog : Option Str}
    (h : components.get? c.component = some t) :
    matchCondition sv c components weblog =
      (inRange sv c.componentVersion t && outOfRange sv c.excludedComponentVersion t &&
        weblogListed c.weblog weblog && weblogNotListed c.excludedWeblog weblog) := by
  unfold matchCondition
  rw [h]

theorem matchCondition_of_unknown {components : Components} {weblog : Option Str}
    (h : components.get? c.component = none) :
    matchCondition sv c components weblog = false := by
  unfold matchCondition
  rw [h]

theorem weblogNotListed_none_right (field : Option (List Str)) :
    weblogNotListed field none = true := by
  unfold weblogNotListed
  split
  · rename_i h
    exact absurd h (by simp)
  · rfl

theorem weblogListed_none_right (field : Option (List Str)) :
    weblogListed field none = true := by
  unfold weblogListed
  split
  · rename_i h
    exact absurd h (by simp)
  · rfl

/-- Without a weblog only the versions decide. -/
theorem matchCondition_no_weblog (t : Version) :
    matchCondition sv c (onlyComponent c.component t) none =
      (inRange sv c.componentVersion t && outOfRange sv c.excludedComponentVersion t) := by
  have hget : (onlyComponent c.component t).get? c.component = some t :=
    Dict.get?_set_self _ _ _
  rw [matchCondition_of_get? hget, weblogListed_none_right,
    weblogNotListed_none_right, Bool.and_true, Bool.and_true]

/-- Versions are compared with the clauses of a range only. -/
theorem inRange_congr {field field' : Option SemverRange}
    (h : field.map SemverRange.clause = field'.map SemverRange.clause) (t : Version) :
    inRange sv field t = inRange sv field' t := by
  cases field with
  | none =>
      cases field' with
      | none => rfl
      | some r' => simp at h
  | some r =>
      cases field' with
      | none => simp at h
      | some r' =>
          have hclause : r.clause = r'.clause := by simpa using h
          simp [inRange, SemverRange.contains, hclause]

theorem outOfRange_congr {field field' : Option SemverRange}
    (h : field.map SemverRange.clause = field'.map SemverRange.clause) (t : Version) :
    outOfRange sv field t = outOfRange sv field' t := by
  cases field with
  | none =>
      cases field' with
      | none => rfl
      | some r' => simp at h
  | some r =>
      cases field' with
      | none => simp at h
      | some r' =>
          have hclause : r.clause = r'.clause := by simpa using h
          simp [outOfRange, SemverRange.contains, hclause]

theorem loadEntry_weblogDeclaration (component nodeid : Str) (wd : Dict Str Str) :
    loadEntry sv table component nodeid { weblogDeclaration := some wd } =
      weblogDeclarationField sv table component wd := by
  unfold loadEntry
  simp only [componentVersionField, declarationField, newConditions, Option.isSome_some, if_true]
  cases weblogDeclarationField sv table component wd <;> rfl

end Matching

section VersionedWeblog

variable {sv : SemanticVersion} {table : CharTable} {read : Str → Option Npm.Block}
variable {c : Condition} {nodeid : Str}

theorem declaredVersionText_ne_nil (component raw : Str) :
    declaredVersionText component raw ≠ [] := by
  unfold declaredVersionText
  rw [List.append_assoc, List.append_assoc]
  exact List.append_ne_nil_of_left_ne_nil (by decide) _

theorem isVersionedWeblog_iff :
    isVersionedWeblog c = true ↔
      (∃ ws r, c.weblog = some ws ∧ c.componentVersion = some r) ∧
        c.declaration.value = .missingFeature ∧ c.declaration.details.getD [] = [] := by
  unfold isVersionedWeblog
  cases c.weblog <;> cases c.componentVersion <;> simp

/-- **A versioned weblog** keeps its meaning only when it has none to keep. -/
theorem roundTrips_versionedWeblog (hdoc : sv.Documented read) (hkinds : RefusesKinds read)
    (hc : ParsedCondition sv table c) (h : isVersionedWeblog c = true) :
    RoundTrips sv table nodeid c ↔ c.weblog = some [] ∧ NoVersion sv c := by
  obtain ⟨⟨ws, r, hws, hr⟩, hvalue, hdetails⟩ := isVersionedWeblog_iff.mp h
  have hload : loadEntry sv table c.component nodeid (serializeCondition c) =
      weblogDeclarationField sv table c.component (Dict.fromKeys r.expression ws) := by
    rw [serializeCondition, if_pos h, hws, hr, loadEntry_weblogDeclaration]
    rfl
  constructor
  · rintro ⟨cs, hcs, hmatch, hdecl⟩
    rw [hload] at hcs
    obtain rfl : ws = [] := by
      by_contra hne
      obtain ⟨w, hw⟩ := List.exists_mem_of_ne_nil _ hne
      have hitem : (w, r.expression) ∈ (Dict.fromKeys r.expression ws).items :=
        (Dict.mem_items_fromKeys _ _ _ _).mpr ⟨hw, rfl⟩
      obtain ⟨c', hc', hclause⟩ := Raised.mem_mapM_of_mem hcs hitem
      obtain ⟨inline, hinline, hc'eq⟩ := weblogClause_eq_ok_iff.mp hclause
      obtain ⟨decl, hcreate, hcases⟩ := processInline_eq_ok_iff.mp hinline
      have hne' := (Declaration.create_eq_ok_iff.mp hcreate).1
      obtain ⟨decl', r', hcreate', hvalue', -⟩ :=
        reparse_range hdoc hkinds (hc.componentVersion r hr) hne' c.component
      obtain rfl : decl = decl' := by
        rw [hcreate] at hcreate'
        exact Except.ok.inj hcreate'
      rcases hcases with ⟨d, hd, -⟩ | ⟨r'', -, hrange⟩
      · rw [hvalue'] at hd
        exact absurd hd (by simp)
      · have hdecl' := hdecl c' hc'
        have hinl : c'.declaration = inline.declaration := by
          rw [hc'eq]
          split_ifs <;> rfl
        rw [hinl, hrange] at hdecl'
        rw [← hdecl'] at hdetails
        exact absurd hdetails (declaredVersionText_ne_nil _ _)
    refine ⟨hws, ?_⟩
    have hnil : cs = [] := by
      have := weblogDeclarationField_eq_ok_iff.mp hcs
      simpa [Dict.fromKeys, Dict.empty] using this
    intro t
    rw [← matchCondition_no_weblog t, hmatch, hnil]
    rfl
  · rintro ⟨hws', hno⟩
    obtain rfl : ws = [] := by
      rw [hws] at hws'
      exact Option.some.inj hws'
    refine ⟨[], by rw [hload]; rfl, ?_, by simp⟩
    intro components weblog
    rw [List.any_nil]
    cases hget : components.get? c.component with
    | none => exact matchCondition_of_unknown hget
    | some t =>
        rw [matchCondition_of_get? hget, hno t]
        rfl

end VersionedWeblog

section PlainWeblog

variable {sv : SemanticVersion} {table : CharTable} {c : Condition} {nodeid : Str}

theorem isPlainWeblog_iff :
    isPlainWeblog c = true ↔
      (∃ ws, c.weblog = some ws) ∧ c.componentVersion = none ∧
        c.excludedComponentVersion = none ∧ c.excludedWeblog = none := by
  unfold isPlainWeblog conditionLength
  cases c.weblog <;> cases c.componentVersion <;> cases c.excludedComponentVersion <;>
    cases c.excludedWeblog <;> simp

theorem parseWeblogs_eq_self {w : Str} (hcomma : ',' ∉ w) (hstrip : strip w = w) :
    parseWeblogs w = [w] := by
  rw [parseWeblogs, split_of_not_mem hcomma, List.map_singleton, hstrip]

theorem flatMap_parseWeblogs {ws : List Str} (h : ∀ w ∈ ws, ',' ∉ w ∧ strip w = w) :
    ws.flatMap parseWeblogs = ws := by
  have hself : ∀ w ∈ ws, parseWeblogs w = [w] :=
    fun w hw => parseWeblogs_eq_self (h w hw).1 (h w hw).2
  rw [List.flatMap_congr hself]
  simp

/-- The inline declaration of a condition without version fields. -/
def plainCondition (component : Str) (d : SkipDeclaration) : Condition where
  component := component
  declaration := ⟨d.value, writtenDetails d⟩

/-- The condition that the key of a weblog is read as. -/
def clauseCondition (component : Str) (d : SkipDeclaration) (allWeblogs : List Str) (key : Str) :
    Condition :=
  if key = ['*'] then { plainCondition component d with excludedWeblog := some allWeblogs }
  else { plainCondition component d with weblog := some (parseWeblogs key) }

theorem declaration_clauseCondition (component : Str) (d : SkipDeclaration)
    (allWeblogs : List Str) (key : Str) :
    (clauseCondition component d allWeblogs key).declaration = ⟨d.value, writtenDetails d⟩ := by
  unfold clauseCondition
  split_ifs <;> rfl

theorem component_clauseCondition (component : Str) (d : SkipDeclaration)
    (allWeblogs : List Str) (key : Str) :
    (clauseCondition component d allWeblogs key).component = component := by
  unfold clauseCondition
  split_ifs <;> rfl

theorem loadEntry_plainWeblog (htable : table.Documented) (hc : ParsedCondition sv table c)
    (hversioned : isVersionedWeblog c = false) (h : isPlainWeblog c = true) {ws : List Str}
    (hws : c.weblog = some ws) :
    loadEntry sv table c.component nodeid (serializeCondition c) =
      .ok ((Dict.fromKeys c.declaration.str ws).keys.map (clauseCondition c.component c.declaration
        (explicitWeblogs (Dict.fromKeys c.declaration.str ws)))) := by
  obtain ⟨-, -, hecv, -⟩ := isPlainWeblog_iff.mp h
  obtain ⟨decl, hcreate, hvalue, hreason⟩ :=
    @reparse_declaration sv table c.component true htable c.declaration hc.reason
      (hc.newline hecv)
  have hinline : processInline sv table c.declaration.str c.component =
      .ok (plainCondition c.component c.declaration) := by
    refine processInline_eq_ok_iff.mpr ⟨decl, hcreate, Or.inl ⟨_, hvalue, ?_⟩⟩
    rw [hreason]
    rfl
  rw [serializeCondition, hversioned, if_neg (by simp), if_pos h, hws,
    Option.getD_some, loadEntry_weblogDeclaration, weblogDeclarationField_eq_ok_iff,
    Dict.keys, List.map_map, List.forall₂_map_right_iff, List.forall₂_same]
  rintro ⟨key, raw⟩ hitem
  obtain ⟨-, rfl⟩ := (Dict.mem_items_fromKeys _ _ _ _).mp hitem
  exact weblogClause_eq_ok_iff.mpr ⟨_, hinline, rfl⟩

/-- **A declaration for some weblogs** keeps its meaning when it names plain weblogs. -/
theorem roundTrips_plainWeblog (htable : table.Documented) (hc : ParsedCondition sv table c)
    (hversioned : isVersionedWeblog c = false) (h : isPlainWeblog c = true) :
    RoundTrips sv table nodeid c ↔
      c.weblog ≠ some [] ∧ ['*'] ∉ c.weblog.getD [] ∧ c.declaration.details ≠ some [] := by
  obtain ⟨⟨ws, hws⟩, hcv, hecv, hew⟩ := isPlainWeblog_iff.mp h
  have hparsed := hc.weblog ws hws
  let wd := Dict.fromKeys c.declaration.str ws
  have hkeys : ∀ k, k ∈ wd.keys ↔ k ∈ ws := fun k => Dict.mem_keys_fromKeys _ _ _
  have hround : RoundTrips sv table nodeid c ↔ SameMeaning sv c
      (wd.keys.map (clauseCondition c.component c.declaration (explicitWeblogs wd))) := by
    unfold RoundTrips
    rw [loadEntry_plainWeblog htable hc hversioned h hws]
    simp only [Except.ok.injEq, exists_eq_left']
    exact Iff.rfl
  have hplain : ∀ (components : Components) (weblog : Option Str) (t : Version),
      components.get? c.component = some t →
        matchCondition sv c components weblog = weblogListed (some ws) weblog := by
    intro components weblog t ht
    rw [matchCondition_of_get? ht, hcv, hecv, hew, hws]
    simp [inRange, outOfRange, weblogNotListed]
  have hclause : ∀ (components : Components) (weblog : Option Str) (t : Version) (k : Str),
      components.get? c.component = some t →
        matchCondition sv (clauseCondition c.component c.declaration (explicitWeblogs wd) k)
            components weblog =
          if k = ['*'] then weblogNotListed (some (explicitWeblogs wd)) weblog
          else weblogListed (some (parseWeblogs k)) weblog := by
    intro components weblog t k ht
    have ht' : components.get?
        (clauseCondition c.component c.declaration (explicitWeblogs wd) k).component = some t := by
      rw [component_clauseCondition]
      exact ht
    rw [matchCondition_of_get? ht']
    unfold clauseCondition
    split_ifs <;> simp [plainCondition, inRange, outOfRange, weblogListed, weblogNotListed]
  have hget : (onlyComponent c.component (.release 0 0 0)).get? c.component =
      some (.release 0 0 0) := Dict.get?_set_self _ _ _
  rw [hround, hws]
  constructor
  · rintro ⟨hmatch, hdecl⟩
    have hne : ws ≠ [] := by
      rintro rfl
      have hnone := hmatch (onlyComponent c.component (.release 0 0 0)) none
      rw [hplain _ _ _ hget, weblogListed_none_right] at hnone
      exact absurd hnone (by simp [wd, Dict.fromKeys, Dict.empty, Dict.keys])
    refine ⟨by simpa using hne, ?_, ?_⟩
    · intro hstar
      obtain ⟨w, hw⟩ := Infinite.exists_notMem_finset ([] :: ws).toFinset
      simp only [List.mem_toFinset, List.mem_cons, not_or] at hw
      obtain ⟨hwne, hwws⟩ := hw
      obtain ⟨x, t, rfl⟩ := List.exists_cons_of_ne_nil hwne
      have hboth := hmatch (onlyComponent c.component (.release 0 0 0)) (some (x :: t))
      rw [hplain _ _ _ hget] at hboth
      have hfalse : weblogListed (some ws) (some (x :: t)) = false := by
        obtain ⟨y, ys, rfl⟩ := List.exists_cons_of_ne_nil hne
        simpa [weblogListed] using hwws
      rw [hfalse] at hboth
      have hexplicit : x :: t ∉ explicitWeblogs wd := by
        intro hmem
        obtain ⟨k, hk, hmem⟩ := List.mem_flatMap.mp hmem
        have hk' := (hkeys k).mp (List.mem_filter.mp hk).1
        rw [parseWeblogs_eq_self (hparsed k hk').1 (hparsed k hk').2, List.mem_singleton] at hmem
        exact hwws (hmem ▸ hk')
      have hdefault : matchCondition sv
          (clauseCondition c.component c.declaration (explicitWeblogs wd) ['*'])
          (onlyComponent c.component (.release 0 0 0)) (some (x :: t)) = true := by
        rw [hclause _ _ _ _ hget, if_pos rfl]
        unfold weblogNotListed
        split
        · rename_i heq hw
          rw [Option.some.injEq] at heq hw
          rw [← heq, ← hw]
          simpa using hexplicit
        · rfl
      rw [eq_comm, List.any_eq_false] at hboth
      exact hboth _ (List.mem_map_of_mem ((hkeys _).mpr hstar)) hdefault
    · intro hdetails
      obtain ⟨w, hw⟩ := List.exists_mem_of_ne_nil _ hne
      have hd := hdecl _ (List.mem_map_of_mem ((hkeys w).mpr hw))
      rw [declaration_clauseCondition] at hd
      have hd' := congrArg SkipDeclaration.details hd
      simp [writtenDetails, hdetails] at hd'
  · rintro ⟨hne, hstar, hdetails⟩
    have hne' : ws ≠ [] := by simpa using hne
    have hstar' : ['*'] ∉ ws := by simpa using hstar
    refine ⟨?_, ?_⟩
    · intro components weblog
      cases hget : components.get? c.component with
      | none =>
          rw [matchCondition_of_unknown hget, eq_comm, List.any_eq_false]
          intro c' hc'
          obtain ⟨k, -, rfl⟩ := List.mem_map.mp hc'
          rw [matchCondition_of_unknown (by rw [component_clauseCondition]; exact hget)]
          simp
      | some t =>
          rw [hplain _ _ _ hget, Bool.eq_iff_iff, List.any_eq_true]
          have hkey : ∀ k ∈ ws, matchCondition sv
              (clauseCondition c.component c.declaration (explicitWeblogs wd) k)
              components weblog = weblogListed (some [k]) weblog := by
            intro k hk
            have hkstar : k ≠ ['*'] := by
              rintro rfl
              exact hstar' hk
            rw [hclause _ _ _ _ hget, if_neg hkstar,
              parseWeblogs_eq_self (hparsed k hk).1 (hparsed k hk).2]
          constructor
          · intro hlisted
            obtain ⟨k, hk, hmatch⟩ : ∃ k ∈ ws, weblogListed (some [k]) weblog = true := by
              obtain ⟨y, ys, rfl⟩ := List.exists_cons_of_ne_nil hne'
              cases weblog with
              | none => exact ⟨y, by simp, rfl⟩
              | some w =>
                  cases w with
                  | nil => exact ⟨y, by simp, rfl⟩
                  | cons x u =>
                      have hmem : x :: u ∈ y :: ys := by simpa [weblogListed] using hlisted
                      exact ⟨x :: u, hmem, by simp [weblogListed]⟩
            exact ⟨_, List.mem_map_of_mem ((hkeys k).mpr hk), by rw [hkey k hk, hmatch]⟩
          · rintro ⟨c', hc', hmatch⟩
            obtain ⟨k, hk, rfl⟩ := List.mem_map.mp hc'
            have hk' := (hkeys k).mp hk
            rw [hkey k hk'] at hmatch
            obtain ⟨y, ys, rfl⟩ := List.exists_cons_of_ne_nil hne'
            cases weblog with
            | none => rfl
            | some w =>
                cases w with
                | nil => rfl
                | cons x u =>
                    have hxk : x :: u = k := by simpa [weblogListed] using hmatch
                    subst hxk
                    simpa [weblogListed] using hk'
    · intro c' hc'
      obtain ⟨k, -, rfl⟩ := List.mem_map.mp hc'
      rw [declaration_clauseCondition]
      rw [writtenDetails_eq_self hdetails]

end PlainWeblog

section Fields

variable {sv : SemanticVersion} {table : CharTable} {read : Str → Option Npm.Block}
variable {c : Condition} {nodeid : Str}

theorem loadEntry_of_fields {component : Str} {entry : RawEntry}
    {cv ecv : Option DeclarationValue} {declaration : Option SkipDeclaration} {c : Condition}
    (hwd : entry.weblogDeclaration = none)
    (hcv : componentVersionField sv table component entry.componentVersion = .ok cv)
    (hecv : componentVersionField sv table component entry.excludedComponentVersion = .ok ecv)
    (hdecl : declarationField sv table component entry.declaration = .ok declaration)
    (hcast : castToCondition {
      componentVersion := cv
      excludedComponentVersion := ecv
      declaration
      weblog := entry.weblog.map weblogField
      excludedWeblog := entry.excludedWeblog.map excludedWeblogField
      unknownFields := entry.unknownFields } component = .ok c) :
    loadEntry sv table component nodeid entry = .ok [c] := by
  unfold loadEntry
  rw [hcv, hecv, hdecl, hwd]
  simp only [newConditions, Raised.ok_bind, Option.isSome_none, Bool.false_eq_true, if_false]
  rw [castEntry_eq_ok_iff.mpr hcast]
  rfl

theorem weblogField_oneOrMany {ws : List Str} (h : ∀ w ∈ ws, ',' ∉ w ∧ strip w = w) :
    weblogField (oneOrMany ws) = ws := by
  have hmany : weblogField (.many ws) = ws := flatMap_parseWeblogs h
  match ws with
  | [] => rfl
  | [w] => exact parseWeblogs_eq_self (h w (by simp)).1 (h w (by simp)).2
  | _ :: _ :: _ => exact hmany

theorem excludedWeblogField_oneOrMany (ws : List Str) :
    excludedWeblogField (oneOrMany ws) = ws := by
  match ws with
  | [] => rfl
  | [_] => rfl
  | _ :: _ :: _ => rfl

/-- A version field is read again when its expression is not empty. -/
theorem reparse_componentVersionField (hdoc : sv.Documented read) (hkinds : RefusesKinds read)
    {field : Option SemverRange} (hfield : ∀ r, field = some r → DeclaredRange sv table r)
    (hne : ∀ r, field = some r → r.expression ≠ []) (component : Str) (key : String) :
    ∃ value range, componentVersionField sv table component (field.map SemverRange.expression) =
        .ok value ∧ checkRange key value = .ok range ∧
        range.map SemverRange.clause = field.map SemverRange.clause := by
  cases field with
  | none => exact ⟨none, none, rfl, rfl, rfl⟩
  | some r =>
      obtain ⟨decl, r', hcreate, hvalue, hclause⟩ :=
        reparse_range hdoc hkinds (hfield r rfl) (hne r rfl) component
      refine ⟨some (.range r'), some r', ?_, rfl, by simp [hclause]⟩
      simp only [componentVersionField, Option.map_some]
      rw [hcreate, Raised.ok_bind, hvalue]
      rfl

theorem expression_ne_nil_of_componentVersionField {field : Option SemverRange}
    {component : Str} {value : Option DeclarationValue}
    (h : componentVersionField sv table component (field.map SemverRange.expression) =
      .ok value) :
    ∀ r, field = some r → r.expression ≠ [] := by
  rintro r rfl
  simp only [componentVersionField, Option.map_some, Raised.bind_eq_ok] at h
  obtain ⟨decl, hcreate, -⟩ := h
  exact (Declaration.create_eq_ok_iff.mp hcreate).1

theorem serializeCondition_of_fields (hversioned : isVersionedWeblog c = false)
    (hplain : isPlainWeblog c = false) :
    serializeCondition c = {
      declaration := some c.declaration.str
      componentVersion := c.componentVersion.map SemverRange.expression
      excludedComponentVersion := c.excludedComponentVersion.map SemverRange.expression
      weblog := c.weblog.map oneOrMany
      excludedWeblog := c.excludedWeblog.map oneOrMany } := by
  unfold serializeCondition
  simp only [hversioned, hplain, Bool.false_eq_true, if_false]

/-- **Conditions written field by field** keep their meaning when every field can be read. -/
theorem roundTrips_fields (hdoc : sv.Documented read) (hkinds : RefusesKinds read)
    (htable : table.Documented) (hc : ParsedCondition sv table c)
    (hversioned : isVersionedWeblog c = false) (hplain : isPlainWeblog c = false) :
    RoundTrips sv table nodeid c ↔
      (∀ r, c.componentVersion = some r → r.expression ≠ []) ∧
        (∀ r, c.excludedComponentVersion = some r → r.expression ≠ []) ∧
        c.declaration.details ≠ some [] ∧
        ∀ e, c.declaration.details = some e → '\n' ∉ e := by
  have hserialize := serializeCondition_of_fields hversioned hplain
  constructor
  · rintro ⟨cs, hload, -, hsame⟩
    rw [hserialize] at hload
    rcases loadEntry_cases hload with
      ⟨wd, hwd, -⟩ | ⟨-, cv, ecv, d, c', hcv, hecv, hd, hcast, rfl⟩
    · exact absurd hwd (by simp)
    obtain ⟨decl, k, hcreate, hk, rfl⟩ := declarationField_eq_ok_iff.mp hd
    have hnl : ∀ e, c.declaration.details = some e → '\n' ∉ e :=
      fun e he hmem => reparse_newline he hmem hcreate
    refine ⟨expression_ne_nil_of_componentVersionField hcv,
      expression_ne_nil_of_componentVersionField hecv, ?_, hnl⟩
    intro hempty
    obtain ⟨decl', hcreate', -, hreason⟩ :=
      @reparse_declaration sv table c.component false htable c.declaration hc.reason hnl
    obtain rfl : decl = decl' := by
      rw [hcreate] at hcreate'
      exact Except.ok.inj hcreate'
    obtain ⟨declaration, _, _, hdeclaration, -, -, -, rfl⟩ :=
      castToCondition_eq_ok_iff.mp (castEntry_eq_ok_iff.mp hcast)
    obtain rfl : ⟨k, decl.reason⟩ = declaration := Option.some.inj hdeclaration
    have hdetails := congrArg SkipDeclaration.details (hsame _ (List.mem_singleton_self _))
    rw [hempty] at hdetails
    simp [hreason, writtenDetails, hempty] at hdetails
  · rintro ⟨hcvne, hecvne, hempty, hnl⟩
    obtain ⟨cv, cvRange, hcv, hcvCheck, hcvClause⟩ :=
      reparse_componentVersionField hdoc hkinds hc.componentVersion hcvne c.component
        "component_version"
    obtain ⟨ecv, ecvRange, hecv, hecvCheck, hecvClause⟩ :=
      reparse_componentVersionField hdoc hkinds hc.excludedComponentVersion hecvne c.component
        "excluded_component_version"
    obtain ⟨decl, hcreate, hvalue, hreason⟩ :=
      @reparse_declaration sv table c.component false htable c.declaration hc.reason hnl
    have hdeclaration : (⟨c.declaration.value, decl.reason⟩ : SkipDeclaration) =
        c.declaration := by
      rw [hreason, writtenDetails_eq_self hempty]
    have hweblog : (c.weblog.map oneOrMany).map weblogField = c.weblog := by
      cases hws : c.weblog with
      | none => rfl
      | some ws => simp [weblogField_oneOrMany (hc.weblog ws hws)]
    have hexcluded : (c.excludedWeblog.map oneOrMany).map excludedWeblogField =
        c.excludedWeblog := by
      cases c.excludedWeblog with
      | none => rfl
      | some ws => simp [excludedWeblogField_oneOrMany]
    let c' : Condition := {
      c with
      componentVersion := cvRange
      excludedComponentVersion := ecvRange }
    have hload : loadEntry sv table c.component nodeid (serializeCondition c) = .ok [c'] := by
      rw [hserialize]
      refine loadEntry_of_fields rfl hcv hecv
        (declarationField_eq_ok_iff.mpr ⟨decl, _, hcreate, hvalue, rfl⟩) ?_
      refine castToCondition_eq_ok_iff.mpr
        ⟨_, cvRange, ecvRange, rfl, hcvCheck, hecvCheck, rfl, ?_⟩
      simp only [hdeclaration, hweblog, hexcluded, c']
    refine ⟨[c'], hload, ?_, ?_⟩
    · intro components weblog
      rw [List.any_cons, List.any_nil, Bool.or_false]
      cases hget : components.get? c.component with
      | none =>
          have hget' : components.get? c'.component = none := hget
          rw [matchCondition_of_unknown hget, matchCondition_of_unknown hget']
      | some t =>
          have hget' : components.get? c'.component = some t := hget
          rw [matchCondition_of_get? hget, matchCondition_of_get? hget',
            inRange_congr hcvClause, outOfRange_congr hecvClause]
    · intro c'' hc''
      obtain rfl := List.mem_singleton.mp hc''
      rfl

end Fields

section Serialized

/--
**Which conditions survive a round trip.**  The entry that a parsed condition is
written as is read as conditions of the same meaning if and only if the
condition is serializable.
-/
theorem serialize_roundTrips_iff (sv : SemanticVersion) (table : CharTable)
    (read : Str → Option Npm.Block) (hdoc : sv.Documented read) (hkinds : RefusesKinds read)
    (htable : table.Documented) {component nodeid : Str} {value : RawValue}
    {cs : List Condition} {c : Condition}
    (h : loadValue sv table component nodeid value = .ok cs) (hc : c ∈ cs) (nodeid' : Str) :
    RoundTrips sv table nodeid' c ↔ Serializable sv c := by
  have hparsed := parsedCondition_of_loadValue htable h c hc
  unfold Serializable
  split_ifs with hversioned hplain
  · exact roundTrips_versionedWeblog hdoc hkinds hparsed hversioned
  · exact roundTrips_plainWeblog htable hparsed (by simpa using hversioned) hplain
  · exact roundTrips_fields hdoc hkinds htable hparsed (by simpa using hversioned)
      (by simpa using hplain)

theorem refusesKinds_ofStr : RefusesKinds Npm.Block.ofStr := by
  intro d
  cases d <;> decide

/-- A missing feature of the versions below `2.0.0`, for one weblog. -/
def missingBelow : RawValue :=
  .entries [{
    declaration := some "missing_feature"
    componentVersion := some "<2.0.0"
    weblog := some (.one "flask") }]

theorem serialize_roundTrips_iff_missingBelow :
    ∃ c, loadValue fullVersions .ascii "python" "tests/test_a.py" missingBelow = .ok [c] ∧
      (RoundTrips fullVersions .ascii "tests/test_a.py" c ↔ Serializable fullVersions c) := by
  obtain ⟨c, hc⟩ : ∃ c,
      loadValue fullVersions .ascii "python" "tests/test_a.py" missingBelow = .ok [c] := ⟨_, rfl⟩
  exact ⟨c, hc, serialize_roundTrips_iff fullVersions .ascii Npm.Block.ofStr
    fullVersions_documented refusesKinds_ofStr CharTable.ascii_documented hc
    (List.mem_singleton_self c) "tests/test_a.py"⟩

/-- The versions that were skipped run after the round trip, and the others are skipped. -/
theorem serialize_inverts_range :
    ¬ ∀ (component nodeid : Str) (value : RawValue) (cs : List Condition) (c : Condition),
      loadValue fullVersions .ascii component nodeid value = .ok cs → c ∈ cs →
        RoundTrips fullVersions .ascii nodeid c := by
  intro h
  obtain ⟨cs, hload, hmatch, -⟩ :=
    h "python" "tests/test_a.py" missingBelow _ _ rfl (List.mem_singleton_self _)
  obtain rfl := Except.ok.inj hload
  have hskipped := hmatch (onlyComponent "python" (.release 1 0 0)) (some "flask")
  exact absurd hskipped (by decide)

end Serialized

end EasyWins
end SystemTests
