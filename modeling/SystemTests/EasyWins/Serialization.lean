import SystemTests.EasyWins.EditLocation

/-!
# Serialized conditions (`ManifestEditor.serialize_condition`)

The editor writes a condition back as a raw entry of one of three shapes.

**Results.**
* `reparse_range`: a range is read again from its expression.
* `parsedCondition_of_loadValue`: what holds of every parsed condition.
* `reparse_declaration`: a declaration is read again from its text.
-/

namespace SystemTests
namespace EasyWins

open Foundation Foundation.Text Foundation.Semver Foundation.Regex Manifest

section Serialize

/-- A condition with one weblog is written as that weblog, else as a list. -/
def oneOrMany : List Str → OneOrMany
  | [w] => .one w
  | ws => .many ws

/-- `len(condition)` -/
def conditionLength (c : Condition) : Nat :=
  2 + (if c.componentVersion.isSome then 1 else 0) +
    (if c.excludedComponentVersion.isSome then 1 else 0) +
    (if c.weblog.isSome then 1 else 0) + (if c.excludedWeblog.isSome then 1 else 0)

/-- Missing features without details for a version of some weblogs. -/
def isVersionedWeblog (c : Condition) : Bool :=
  c.weblog.isSome && c.componentVersion.isSome &&
    c.declaration.value = .missingFeature && c.declaration.details.getD [] = []

/-- A declaration for some weblogs and nothing else. -/
def isPlainWeblog (c : Condition) : Bool :=
  c.weblog.isSome && c.componentVersion.isNone && conditionLength c ≤ 3

/-- `ManifestEditor.serialize_condition` -/
def serializeCondition (c : Condition) : RawEntry :=
  let weblogs := c.weblog.getD []
  if isVersionedWeblog c then
    { weblogDeclaration := some
        (Dict.fromKeys ((c.componentVersion.map SemverRange.expression).getD []) weblogs) }
  else if isPlainWeblog c then
    { weblogDeclaration := some (Dict.fromKeys c.declaration.str weblogs) }
  else {
    declaration := some c.declaration.str
    componentVersion := c.componentVersion.map SemverRange.expression
    excludedComponentVersion := c.excludedComponentVersion.map SemverRange.expression
    weblog := c.weblog.map oneOrMany
    excludedWeblog := c.excludedWeblog.map oneOrMany }

end Serialize

section ParsedConditions

variable (sv : SemanticVersion) (table : CharTable)

/-- A range that the parser made of a declared version. -/
def DeclaredRange (r : SemverRange) : Prop :=
  ∃ raw component decl,
    Declaration.parseDeclaration sv table (strip raw) component true = .ok decl ∧
      decl.value = .range r

/-- What holds of every condition that the parser returns. -/
structure ParsedCondition (c : Condition) : Prop where
  weblog : ∀ ws, c.weblog = some ws → ∀ w ∈ ws, ',' ∉ w ∧ strip w = w
  componentVersion : ∀ r, c.componentVersion = some r → DeclaredRange sv table r
  excludedComponentVersion : ∀ r, c.excludedComponentVersion = some r →
    DeclaredRange sv table r
  reason : Declaration.reasonIsValid table c.declaration.value c.declaration.details = true
  newline : c.excludedComponentVersion = none →
    ∀ d, c.declaration.details = some d → '\n' ∉ d

variable {sv table} {component : Str}

theorem parsed_weblog {s w : Str} (h : w ∈ parseWeblogs s) : ',' ∉ w ∧ strip w = w := by
  obtain ⟨p, hp, rfl⟩ := List.mem_map.mp h
  refine ⟨?_, stripOf_stripOf _ _⟩
  intro hmem
  obtain ⟨l, r, hlr, -, -⟩ := exists_stripOf isSpace p
  refine not_mem_of_mem_split hp ?_
  rw [hlr]
  simp only [List.mem_append]
  exact Or.inl (Or.inr hmem)

/-- The declaration and the ranges of an inline declaration. -/
theorem parsedCondition_of_processInline (htable : table.Documented) {raw : Str} {c : Condition}
    (h : processInline sv table raw component = .ok c) : ParsedCondition sv table c := by
  obtain ⟨decl, hdecl, hcases⟩ := processInline_eq_ok_iff.mp h
  have hparse := (Declaration.create_eq_ok_iff.mp hdecl).2
  rcases hcases with ⟨d, hd, rfl⟩ | ⟨r, hr, rfl⟩
  · obtain ⟨-, d', reason, -, -, rfl⟩ | ⟨-, -, m, -, text, -, r, -, rfl⟩ :=
      Declaration.parseDeclaration_eq_ok_iff.mp hparse
    · obtain rfl : d' = d := by simpa using hd
      obtain ⟨hraw, hnl, hvalid⟩ := (Declaration.parseDeclaration_skip_iff htable).mp hparse
      refine ⟨by simp, by simp, by simp, hvalid, ?_⟩
      rintro - e rfl hmem
      rw [hraw] at hnl
      exact hnl (by simp [Declaration.skipText, hmem])
    · simp at hd
  · refine ⟨by simp, by simp, ?_, rfl, by simp⟩
    intro r' hr'
    obtain rfl : r = r' := by simpa using hr'
    exact ⟨raw, component, decl, hparse, hr⟩

theorem parsedCondition_of_weblogClause (htable : table.Documented) {allWeblogs : List Str}
    {clause : Str × Str} {c : Condition}
    (h : weblogClause sv table component allWeblogs clause = .ok c) :
    ParsedCondition sv table c := by
  obtain ⟨inline, hinline, rfl⟩ := weblogClause_eq_ok_iff.mp h
  have hparsed := parsedCondition_of_processInline htable hinline
  split_ifs
  · exact ⟨hparsed.weblog, hparsed.componentVersion, hparsed.excludedComponentVersion,
      hparsed.reason, hparsed.newline⟩
  · refine ⟨?_, hparsed.componentVersion, hparsed.excludedComponentVersion,
      hparsed.reason, hparsed.newline⟩
    intro ws hws w hw
    obtain rfl : parseWeblogs clause.1 = ws := by simpa using hws
    exact parsed_weblog hw

theorem declaredRange_of_field {field : Option Str} {value : Option DeclarationValue}
    {key : Str} {range : Option SemverRange}
    (h : componentVersionField sv table component field = .ok value)
    (hcheck : checkRange key value = .ok range) :
    ∀ r, range = some r → DeclaredRange sv table r := by
  rintro r rfl
  cases value with
  | none =>
      rw [checkRange, Raised.pure_eq_ok] at hcheck
      exact absurd hcheck (by simp)
  | some v =>
      cases v with
      | skip d => simp [checkRange] at hcheck
      | range r' =>
          obtain rfl : r' = r := by simpa [checkRange] using hcheck
          cases field with
          | none => simp [componentVersionField] at h
          | some raw =>
              simp only [componentVersionField, Raised.bind_eq_ok, Raised.pure_eq_ok,
                Option.some.injEq] at h
              obtain ⟨decl, hdecl, hvalue⟩ := h
              exact ⟨raw, component, decl, (Declaration.create_eq_ok_iff.mp hdecl).2, hvalue⟩

theorem castToCondition_eq_ok_iff {entry : ProcessedEntry} {c : Condition} :
    castToCondition entry component = .ok c ↔
      ∃ declaration cv ecv, entry.declaration = some declaration ∧
        checkRange "component_version" entry.componentVersion = .ok cv ∧
        checkRange "excluded_component_version" entry.excludedComponentVersion = .ok ecv ∧
        entry.unknownFields = [] ∧
        c = {
          component, declaration
          componentVersion := cv
          excludedComponentVersion := ecv
          weblog := entry.weblog
          excludedWeblog := entry.excludedWeblog } := by
  unfold castToCondition
  cases entry.declaration with
  | none => simp
  | some declaration =>
      simp only [Raised.bind_eq_ok, Option.some.injEq]
      cases entry.unknownFields with
      | nil =>
          constructor
          · rintro ⟨cv, hcv, ecv, hecv, h⟩
            rw [Raised.pure_eq_ok] at h
            exact ⟨declaration, cv, ecv, rfl, hcv, hecv, rfl, h.symm⟩
          · rintro ⟨_, cv, ecv, rfl, hcv, hecv, -, rfl⟩
            exact ⟨cv, hcv, ecv, hecv, rfl⟩
      | cons key keys => simp

theorem castEntry_eq_ok_iff {nodeid : Str} {entry : ProcessedEntry} {c : Condition} :
    castEntry nodeid component entry = .ok c ↔ castToCondition entry component = .ok c := by
  unfold castEntry
  cases castToCondition entry component <;> simp [Except.mapError]

theorem declarationField_eq_ok_iff {raw : Str} {d : Option SkipDeclaration} :
    declarationField sv table component (some raw) = .ok d ↔
      ∃ decl k, Declaration.create sv table raw component false = .ok decl ∧
        decl.value = .skip k ∧ d = some ⟨k, decl.reason⟩ := by
  simp only [declarationField, Raised.bind_eq_ok]
  refine exists_congr fun decl => ?_
  cases decl.value with
  | skip k => simp [eq_comm (a := d)]
  | range r => simp

theorem parsedCondition_of_loadEntry (htable : table.Documented) {nodeid : Str}
    {entry : RawEntry} {cs : List Condition}
    (h : loadEntry sv table component nodeid entry = .ok cs) :
    ∀ c ∈ cs, ParsedCondition sv table c := by
  intro c hc
  rcases loadEntry_cases h with
    ⟨wd, -, hwd⟩ | ⟨-, cv, ecv, d, c', hcv, hecv, hd, hcast, rfl⟩
  · obtain ⟨clause, -, hclause⟩ := Raised.exists_of_mem_mapM hwd hc
    exact parsedCondition_of_weblogClause htable hclause
  · obtain rfl := List.mem_singleton.mp hc
    obtain ⟨declaration, r₁, r₂, hdecl, h₁, h₂, -, rfl⟩ :=
      castToCondition_eq_ok_iff.mp (castEntry_eq_ok_iff.mp hcast)
    simp only at hdecl
    subst hdecl
    have hskip : Declaration.reasonIsValid table declaration.value declaration.details = true ∧
        ∀ e, declaration.details = some e → '\n' ∉ e := by
      cases hraw : entry.declaration with
      | none => simp [hraw, declarationField] at hd
      | some raw =>
          rw [hraw] at hd
          obtain ⟨decl, k, hcreate, hk, hdetails⟩ := declarationField_eq_ok_iff.mp hd
          obtain rfl : declaration = ⟨k, decl.reason⟩ := Option.some.inj hdetails
          have hparse := (Declaration.create_eq_ok_iff.mp hcreate).2
          obtain ⟨-, k', reason, -, -, rfl⟩ | ⟨-, hfalse, -⟩ :=
            Declaration.parseDeclaration_eq_ok_iff.mp hparse
          · obtain rfl : k' = k := by simpa using hk
            obtain ⟨htext, hnl, hvalid⟩ := (Declaration.parseDeclaration_skip_iff htable).mp hparse
            refine ⟨hvalid, ?_⟩
            rintro e rfl hmem
            rw [htext] at hnl
            exact hnl (by simp [Declaration.skipText, hmem])
          · exact absurd hfalse (by simp)
    refine ⟨?_, declaredRange_of_field hcv h₁, declaredRange_of_field hecv h₂,
      hskip.1, fun _ => hskip.2⟩
    intro ws hws w hw
    simp only [Option.map_eq_some_iff] at hws
    obtain ⟨field, -, rfl⟩ := hws
    cases field with
    | one s => exact parsed_weblog hw
    | many l =>
        obtain ⟨s, -, hw⟩ := List.mem_flatMap.mp hw
        exact parsed_weblog hw

theorem parsedCondition_of_loadValue (htable : table.Documented) {nodeid : Str}
    {value : RawValue} {cs : List Condition}
    (h : loadValue sv table component nodeid value = .ok cs) :
    ∀ c ∈ cs, ParsedCondition sv table c := by
  cases value with
  | inline raw =>
      simp only [loadValue, Raised.bind_eq_ok, Raised.pure_eq_ok] at h
      obtain ⟨c, hc, rfl⟩ := h
      simpa using parsedCondition_of_processInline htable hc
  | mapping entry =>
      simp only [loadValue] at h
      split_ifs at h
      rw [Raised.pure_eq_ok] at h
      simp [← h]
  | entries entries =>
      rw [loadValue] at h
      intro c hc
      induction entries generalizing cs with
      | nil =>
          rw [loadEntries, Raised.pure_eq_ok] at h
          simp [← h] at hc
      | cons entry entries ih =>
          simp only [loadEntries, Raised.bind_eq_ok, Raised.pure_eq_ok] at h
          obtain ⟨here, hhere, rest, hrest, rfl⟩ := h
          rcases List.mem_append.mp hc with hc | hc
          · exact parsedCondition_of_loadEntry htable hhere c hc
          · exact ih hrest hc

end ParsedConditions

section Reparse

variable {sv : SemanticVersion} {table : CharTable} {read : Str → Option Npm.Block}

/-- No kind of a skip declaration is a block of a version range. -/
def RefusesKinds (read : Str → Option Npm.Block) : Prop :=
  ∀ d : TestDeclaration, read d.value = none

theorem expression_of_ofExpression {e : Str} {r : SemverRange}
    (h : SemverRange.ofExpression sv e = some r) : r.expression = e := by
  obtain ⟨clause, -, rfl⟩ := Option.map_eq_some_iff.mp h
  rfl

/-- The name of a kind is not accepted as a range. -/
theorem ofExpression_kind (hdoc : sv.Documented read) (hkinds : RefusesKinds read)
    (d : TestDeclaration) : SemverRange.ofExpression sv d.value = none := by
  have hsplit : split CustomParser.joiner d.value = [d.value] := by
    cases d <;> decide
  have hgroup : CustomParser.groupText d.value = d.value := by
    cases d <;> decide
  have hhyphen : ¬ CustomParser.hyphen <:+: d.value := by
    cases d <;> decide
  have hblocks : split [' '] d.value = [d.value] := by
    cases d <;> decide
  have hblock : CustomParser.parseBlock sv d.value = none := by
    unfold CustomParser.parseBlock
    rw [hdoc.parseSimple, hkinds d]
    simp
  rw [SemverRange.ofExpression, CustomParser.parse, hsplit, CustomParser.parseGroups, hgroup,
    CustomParser.parseGroup, if_neg hhyphen, hblocks, CustomParser.parseBlocks, hblock]
  rfl

/-- A text without parentheses is a skip declaration only when it is a kind. -/
theorem eq_kind_of_skip {s : Str} (hparen : ∀ c ∈ s, Declaration.notParen c = true)
    (hstrip : strip s = s) (h : (fullmatch Declaration.skipDeclarationRegex s).isSome = true) :
    ∃ d : TestDeclaration, s = d.value := by
  obtain ⟨d, r, rfl, space, hspace, hr⟩ :=
    Declaration.isSome_fullmatch_skipDeclarationRegex.mp h
  have hr' : r = space := by
    rcases hr with hr | ⟨e, -, rfl⟩
    · exact hr
    · have hopen := hparen '(' (by simp)
      exact absurd hopen (by decide)
  subst hr'
  simp only [List.mem_cons, List.not_mem_nil, or_false] at hspace
  rcases hspace with rfl | rfl
  · exact ⟨d, by simp⟩
  · have hlen := congrArg List.length hstrip
    rw [strip, stripOf_concat (by decide), stripOf_of_forall] at hlen
    · simp at hlen
    · cases d <;> decide

theorem notParen_of_mem_lowerBound {v : Version} {c : Char} (h : c ∈ '>' :: '=' :: v.str) :
    Declaration.notParen c = true := by
  have hstr : c ∈ v.str → c ≠ '(' ∧ c ≠ ')' := by
    intro hc
    constructor
    · rintro rfl
      exact absurd (mem_str_cases hc) (by decide)
    · rintro rfl
      exact absurd (mem_str_cases hc) (by decide)
  rcases List.mem_cons.mp h with rfl | h
  · decide
  rcases List.mem_cons.mp h with rfl | h
  · decide
  simpa [Declaration.notParen] using hstr h

/-- The expression of a declared range has no parenthesis and starts with neither a
space nor a `v`. -/
theorem expression_of_declaredRange {r : SemverRange} (h : DeclaredRange sv table r) :
    SemverRange.ofExpression sv r.expression = some r ∧
      (∀ c ∈ r.expression, Declaration.notParen c = true) ∧
      ∀ c ∈ r.expression.head?, isSpace c = false ∧ c ≠ 'v' := by
  obtain ⟨raw, component, decl, hparse, hr⟩ := h
  obtain ⟨-, -, hrange⟩ := Declaration.range_of_parseDeclaration hparse hr
  split_ifs at hrange with hv
  · obtain ⟨cv, -, hexpr⟩ := hrange
    have he := expression_of_ofExpression hexpr
    rw [he]
    refine ⟨hexpr, ?_, ?_⟩
    · intro c hc
      exact notParen_of_mem_lowerBound hc
    · intro c hc
      obtain rfl : '>' = c := by simpa using hc
      decide
  · have he := expression_of_ofExpression hrange
    rw [he]
    have htext : Declaration.versionText (strip raw) =
        (strip raw).takeWhile Declaration.notParen := by
      rw [Declaration.versionText, if_neg hv]
    rw [htext] at hrange ⊢
    refine ⟨hrange, fun c hc => List.mem_takeWhile_imp hc, ?_⟩
    intro c hc
    have hhead : (strip raw).head? = some c := by
      cases hs : strip raw with
      | nil => simp [hs] at hc
      | cons x t =>
          rw [hs, List.takeWhile_cons] at hc
          split_ifs at hc
          · simpa using hc
          · simp at hc
    refine ⟨stripOf_head? isSpace raw c hhead, ?_⟩
    rintro rfl
    refine hv ?_
    cases hs : strip raw with
    | nil => simp [hs] at hhead
    | cons x t =>
        obtain rfl : x = 'v' := by simpa [hs] using hhead
        exact List.prefix_append ['v'] t

/-- **A range is read again** from its expression, unless the expression is empty. -/
theorem reparse_range (hdoc : sv.Documented read) (hkinds : RefusesKinds read)
    {r : SemverRange} (hr : DeclaredRange sv table r) (hne : r.expression ≠ [])
    (component : Str) :
    ∃ decl r', Declaration.create sv table r.expression component true = .ok decl ∧
      decl.value = .range r' ∧ r'.clause = r.clause := by
  obtain ⟨hexpr, hparen, hhead⟩ := expression_of_declaredRange hr
  have hstripped := ofExpression_strip hexpr
  obtain ⟨l, t, hlt, hl, ht⟩ := exists_stripOf isSpace r.expression
  have hparen' : ∀ c ∈ strip r.expression, Declaration.notParen c = true := by
    intro c hc
    refine hparen c ?_
    rw [hlt]
    simp only [List.mem_append]
    exact Or.inl (Or.inr hc)
  -- stripping takes nothing off the front
  have hfront : strip r.expression ++ t = r.expression := by
    cases l with
    | nil => exact hlt.symm
    | cons x l =>
        have hx := (hhead x (by rw [hlt]; rfl)).1
        rw [hl x (by simp)] at hx
        exact absurd hx (by simp)
  have hv : ¬ ['v'] <+: strip r.expression := by
    intro hpre
    obtain ⟨rest, hrest⟩ := hpre
    have hhead' : r.expression.head? = some 'v' := by
      rw [← hfront, ← hrest]
      rfl
    exact (hhead 'v' hhead').2 rfl
  have hskip : (fullmatch Declaration.skipDeclarationRegex (strip r.expression)).isSome = false := by
    cases hs : (fullmatch Declaration.skipDeclarationRegex (strip r.expression)).isSome with
    | false => rfl
    | true =>
        obtain ⟨d, hd⟩ := eq_kind_of_skip hparen' (stripOf_stripOf _ _) hs
        rw [hd, ofExpression_kind hdoc hkinds d] at hstripped
        exact absurd hstripped (by simp)
  obtain ⟨decl, hdecl, hvalue⟩ :=
    @Declaration.parseDeclaration_range sv table _ component _ hparen' hv hskip hstripped
  exact ⟨decl, _, Declaration.create_eq_ok_iff.mpr ⟨hne, hdecl⟩, hvalue, rfl⟩

end Reparse

section ReparsedDeclaration

variable {sv : SemanticVersion} {table : CharTable} {component : Str} {isInline : Bool}

theorem jira_refuses_nil : fullmatch (Declaration.jiraTicketPattern table) [] = none := rfl

/-- Empty details are not written. -/
def writtenDetails (d : SkipDeclaration) : Option Str :=
  match d.details with
  | some [] => none
  | details => details

theorem writtenDetails_eq_self {d : SkipDeclaration} (h : d.details ≠ some []) :
    writtenDetails d = d.details := by
  unfold writtenDetails
  split
  · rename_i hnil
    exact absurd hnil h
  · rfl

theorem str_eq_skipText (d : SkipDeclaration) :
    d.str = Declaration.skipText d.value (writtenDetails d) := by
  obtain ⟨value, details⟩ := d
  match details with
  | none => rfl
  | some [] => rfl
  | some (c :: cs) => simp [SkipDeclaration.str, Declaration.skipText, writtenDetails]

theorem strip_skipText (d : TestDeclaration) (reason : Option Str) :
    strip (Declaration.skipText d reason) = Declaration.skipText d reason := by
  have hkind : (∀ c ∈ d.value.head?, isSpace c = false) ∧
      ∀ c ∈ d.value.getLast?, isSpace c = false := by
    cases d <;> decide
  cases reason with
  | none => exact stripOf_eq_self hkind.1 hkind.2
  | some e =>
      refine stripOf_eq_self ?_ ?_
      · intro c hc
        rw [Declaration.skipText, List.head?_append_of_ne_nil _ (Declaration.value_ne_nil d)] at hc
        exact hkind.1 c hc
      · intro c hc
        have hlast : (Declaration.skipText d (some e)).getLast? = some ')' := by
          simp [Declaration.skipText, List.getLast?_cons]
        rw [hlast] at hc
        obtain rfl : ')' = c := by simpa using hc
        decide

theorem skipText_ne_nil (d : TestDeclaration) (reason : Option Str) :
    Declaration.skipText d reason ≠ [] := by
  cases reason <;> simp [Declaration.skipText, Declaration.value_ne_nil]

theorem newline_not_mem_skipText {d : TestDeclaration} {reason : Option Str}
    (h : ∀ e, reason = some e → '\n' ∉ e) : '\n' ∉ Declaration.skipText d reason := by
  have hkind := Declaration.newline_not_mem_value d
  cases reason with
  | none => exact hkind
  | some e => simp [Declaration.skipText, hkind, h e rfl]

/-- **A declaration is read again** from its text, without empty details. -/
theorem reparse_declaration (htable : table.Documented) {d : SkipDeclaration}
    (hvalid : Declaration.reasonIsValid table d.value d.details = true)
    (hnl : ∀ e, d.details = some e → '\n' ∉ e) :
    ∃ decl, Declaration.create sv table d.str component isInline = .ok decl ∧
      decl.value = .skip d.value ∧ decl.reason = writtenDetails d := by
  have hwritten : ∀ e, writtenDetails d = some e → d.details = some e := by
    intro e he
    unfold writtenDetails at he
    split at he
    · exact absurd he (by simp)
    · exact he
  have hvalid' : Declaration.reasonIsValid table d.value (writtenDetails d) = true := by
    obtain ⟨value, details⟩ := d
    match details with
    | none => exact hvalid
    | some [] =>
        cases value with
        | bug => exact absurd hvalid (by simp [Declaration.reasonIsValid, jira_refuses_nil])
        | flaky => exact absurd hvalid (by simp [Declaration.reasonIsValid, jira_refuses_nil])
        | incompleteTestApp => rfl
        | irrelevant => rfl
        | missingFeature => rfl
    | some (c :: cs) => exact hvalid
  have hnl' := newline_not_mem_skipText (d := d.value)
    fun e he => hnl e (hwritten e he)
  refine ⟨⟨d.str, component, isInline, .skip d.value, writtenDetails d⟩, ?_, rfl, rfl⟩
  rw [Declaration.create_eq_ok_iff, str_eq_skipText, strip_skipText]
  exact ⟨skipText_ne_nil _ _,
    (Declaration.parseDeclaration_skip_iff htable).mpr ⟨rfl, hnl', hvalid'⟩⟩

/-- Details with a line break are not read again. -/
theorem reparse_newline {d : SkipDeclaration} {e : Str} (he : d.details = some e)
    (hnl : '\n' ∈ e) {decl : Declaration} :
    Declaration.create sv table d.str component false ≠ .ok decl := by
  have hwritten : writtenDetails d = some e := by
    unfold writtenDetails
    split
    · rename_i h
      rw [he, Option.some.injEq] at h
      simp [h] at hnl
    · exact he
  intro h
  have hparse := (Declaration.create_eq_ok_iff.mp h).2
  rw [str_eq_skipText, strip_skipText, hwritten] at hparse
  rcases Declaration.parseDeclaration_eq_ok_iff.mp hparse with ⟨hskip, -⟩ | ⟨-, hfalse, -⟩
  · obtain ⟨k, r, hkr, hr⟩ := Declaration.isSome_fullmatch_skipDeclarationRegex.mp hskip
    have hmem : '\n' ∈ Declaration.skipText d.value (some e) := by
      simp [Declaration.skipText, hnl]
    rw [hkr, List.mem_append] at hmem
    rcases hmem with hmem | hmem
    · exact Declaration.newline_not_mem_value k hmem
    · exact Declaration.newline_not_mem_of_reasonText hr hmem
  · exact absurd hfalse (by simp)

end ReparsedDeclaration

end EasyWins
end SystemTests
