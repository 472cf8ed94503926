import SystemTests.Manifest.RangePattern
import SystemTests.Manifest.Rule

/-!
# Versions ahead of the current one (`Manifest.assert_versions_not_ahead_of_current`)

In development mode no version that the manifests declare may be greater than the
version under test.  Only the versions that `rangeRegex` recognises are compared.

**Results.**
* `reported_iff`: a rule is reported when a recognised version is ahead.
* `reported_iff_versionAhead_iff`: when a rule is reported exactly if a version that
  is written in its ranges is ahead.
-/

namespace SystemTests
namespace Manifest

open Foundation Foundation.Text Foundation.Semver Foundation.Regex

section Check

/-- An entry of the list of errors. -/
structure VersionError where
  nodeid : Str
  component : Str
  declared : Version
  current : Version

/-- `f"{nodeid} [{component}]: declared version {declared} exceeds current version {current}"` -/
def VersionError.text (e : VersionError) : Str :=
  e.nodeid ++ " [".toList ++ e.component ++ "]: declared version ".toList ++ e.declared.str ++
    " exceeds current version ".toList ++ e.current.str

variable (sv : SemanticVersion) (table : CharTable) (components : Components)

/-- `Version(match.group(1))`; a text that is no version is passed over. -/
def declaredVersion (text : Str) : Except Raised (Option Version) :=
  match versionOfText sv text with
  | .ok declared => .ok (some declared)
  | .error e => if e.isValueError || e.isTypeError then .ok none else .error e

/-- The version fields of a condition in the order they are checked. -/
def semverRanges (condition : Condition) : List SemverRange :=
  condition.componentVersion.toList ++ condition.excludedComponentVersion.toList

/-- The body of the loop over the matches. -/
def matchErrors (nodeid component : Str) (current : Version) (text : Str) :
    Except Raised (List VersionError) := do
  match ← declaredVersion sv text with
  | none => return []
  | some declared =>
      if current < declared then return [⟨nodeid, component, declared, current⟩] else return []

def rangeErrors (nodeid component : Str) (current : Version) (semRange : SemverRange) :
    Except Raised (List VersionError) :=
  Raised.flatMapM (matchErrors sv nodeid component current)
    (captured (rangeRegex table) 1 semRange.expression)

/-- The body of the loop over the conditions of a rule. -/
def conditionErrors (nodeid : Str) (condition : Condition) :
    Except Raised (List VersionError) :=
  match components.get? condition.component with
  | none => return []
  | some current =>
      Raised.flatMapM (rangeErrors sv table nodeid condition.component current)
        (semverRanges condition)

def versionErrors (data : ManifestData) : Except Raised (List VersionError) :=
  Raised.flatMapM
    (fun rule => Raised.flatMapM (conditionErrors sv table components rule.1) rule.2) data.items

/-- `Manifest.assert_versions_not_ahead_of_current` -/
def assertVersionsNotAheadOfCurrent (data : ManifestData) : Except Raised (List Str) := do
  let errors ← versionErrors sv table components data
  return errors.map VersionError.text

end Check

section Errors

variable {sv : SemanticVersion} {spell : Str → Option Npm.Spelling} {table : CharTable}

/-- The written version is greater than the version under test. -/
def Written.Ahead (w : Written) (current : Version) : Prop :=
  ∃ v, w.spelling.boundary = some v ∧ current < v

theorem exists_spell_of_mem_writtenIn {expression : Str} {w : Written}
    (hw : w ∈ writtenIn spell expression) : ∃ text, spell text = some w.spelling := by
  obtain ⟨group, -, hw⟩ := List.mem_flatMap.mp hw
  obtain ⟨b, hb, rfl⟩ := List.mem_map.mp hw
  obtain ⟨text, -, htext⟩ := List.mem_filterMap.mp hb
  exact ⟨text, htext⟩

/-- A declared version starts with a number. -/
theorem not_v_prefix_declaredText {b : Npm.Spelling} (h : b.numbers.hasMinor = true) :
    ¬ ['v'] <+: declaredText b := by
  obtain ⟨M, c, s, htext, -⟩ := Npm.Numbers.text_of_hasMinor h
  obtain ⟨x, d, hxd⟩ := List.exists_cons_of_ne_nil (decimal_ne_nil M)
  have hx : x.isDigit = true := isDigit_of_mem_decimal (n := M) (by rw [hxd]; simp)
  have hne : x ≠ '*' := by
    rintro rfl
    exact absurd hx (by decide)
  rw [declaredText, Npm.Spelling.versionText, htext, hxd, List.cons_append, List.cons_append,
    List.takeWhile_cons_of_pos (by simpa using hne), List.cons_prefix_cons]
  rintro ⟨rfl, -⟩
  exact absurd hx (by decide)

/-- A recognised version is read as what is written. -/
theorem matchErrors_of_recognised (hspell : sv.SpelledOut spell) {expression : Str}
    {w : Written} (hw : w ∈ writtenIn spell expression) (hrecognised : w.recognised = true)
    (nodeid component : Str) (current : Version) :
    ∃ errors, matchErrors sv nodeid component current (declaredText w.spelling) = .ok errors ∧
      (errors ≠ [] ↔ w.Ahead current) ∧
      ∀ e ∈ errors, e.nodeid = nodeid ∧ e.component = component := by
  simp only [Written.recognised, Bool.and_eq_true] at hrecognised
  have hminor := hrecognised.1.2
  obtain ⟨v, hv⟩ := Npm.Numbers.exists_release_of_hasMinor hminor
  have hboundary : w.spelling.boundary =
      some { v with prerelease := w.spelling.prerelease, build := w.spelling.build } := by
    rw [Npm.Spelling.boundary, hv]
    rfl
  obtain ⟨text, htext⟩ := exists_spell_of_mem_writtenIn hw
  obtain ⟨declared, hcoerce, hkey⟩ := hspell.coerce text w.spelling _ htext hminor hboundary
  have hversion : versionOfText sv (declaredText w.spelling) = .ok declared := by
    simp [versionOfText, not_v_prefix_declaredText hminor, hcoerce]
  have hahead : w.Ahead current ↔ current < declared := by
    simp [Written.Ahead, hboundary, Version.lt_def, hkey]
  have hdeclared : declaredVersion sv (declaredText w.spelling) = .ok (some declared) := by
    rw [declaredVersion, hversion]
  rw [matchErrors, hdeclared, Raised.ok_bind, hahead]
  by_cases hlt : current < declared
  · refine ⟨[⟨nodeid, component, declared, current⟩], by simp [hlt], ?_, ?_⟩
    · simp [hlt]
    · simp
  · exact ⟨[], by simp [hlt], by simp [hlt], by simp⟩

/-- The errors of one expression are those of the recognised versions. -/
theorem rangeErrors_spec (hspell : sv.SpelledOut spell) (hdoc : CharsDocumented table)
    {semRange : SemverRange}
    (h : SemverRange.ofExpression sv semRange.expression = some semRange)
    (nodeid component : Str) (current : Version) :
    ∃ errors, rangeErrors sv table nodeid component current semRange = .ok errors ∧
      (errors ≠ [] ↔ ∃ w ∈ writtenIn spell semRange.expression,
        w.recognised = true ∧ w.Ahead current) ∧
      ∀ e ∈ errors, e.nodeid = nodeid ∧ e.component = component := by
  have hmem : ∀ text, text ∈ captured (rangeRegex table) 1 semRange.expression ↔
      ∃ w ∈ writtenIn spell semRange.expression, w.recognised = true ∧
        declaredText w.spelling = text := by
    intro text
    rw [captured_expression hspell hdoc h, List.mem_flatMap]
    refine exists_congr fun w => and_congr_right fun _ => ?_
    unfold Written.declaredTexts
    split_ifs with hrecognised
    · simp [hrecognised, eq_comm]
    · simp [hrecognised]
  have hok : ∀ text ∈ captured (rangeRegex table) 1 semRange.expression, ∃ part,
      matchErrors sv nodeid component current text = .ok part := by
    intro text htext
    obtain ⟨w, hw, hrecognised, rfl⟩ := (hmem text).mp htext
    obtain ⟨part, hpart, -⟩ :=
      matchErrors_of_recognised hspell hw hrecognised nodeid component current
    exact ⟨part, hpart⟩
  obtain ⟨errors, herrors⟩ := Raised.exists_flatMapM_eq_ok hok
  have hall : ∀ e, e ∈ errors ↔ ∃ w ∈ writtenIn spell semRange.expression,
      w.recognised = true ∧ ∃ part,
        matchErrors sv nodeid component current (declaredText w.spelling) = .ok part ∧
          e ∈ part := by
    intro e
    rw [Raised.mem_flatMapM herrors]
    constructor
    · rintro ⟨text, htext, part, hpart, he⟩
      obtain ⟨w, hw, hrecognised, rfl⟩ := (hmem text).mp htext
      exact ⟨w, hw, hrecognised, part, hpart, he⟩
    · rintro ⟨w, hw, hrecognised, part, hpart, he⟩
      exact ⟨_, (hmem _).mpr ⟨w, hw, hrecognised, rfl⟩, part, hpart, he⟩
  refine ⟨errors, herrors, ?_, ?_⟩
  · constructor
    · intro hne
      obtain ⟨e, he⟩ := List.exists_mem_of_ne_nil _ hne
      obtain ⟨w, hw, hrecognised, part, hpart, hep⟩ := (hall e).mp he
      obtain ⟨part', hpart', hahead, -⟩ :=
        matchErrors_of_recognised hspell hw hrecognised nodeid component current
      obtain rfl : part = part' := Except.ok.inj (hpart.symm.trans hpart')
      exact ⟨w, hw, hrecognised, hahead.mp (List.ne_nil_of_mem hep)⟩
    · rintro ⟨w, hw, hrecognised, hahead⟩
      obtain ⟨part, hpart, hiff, -⟩ :=
        matchErrors_of_recognised hspell hw hrecognised nodeid component current
      obtain ⟨e, he⟩ := List.exists_mem_of_ne_nil _ (hiff.mpr hahead)
      exact List.ne_nil_of_mem ((hall e).mpr ⟨w, hw, hrecognised, part, hpart, he⟩)
  · intro e he
    obtain ⟨w, hw, hrecognised, part, hpart, hep⟩ := (hall e).mp he
    obtain ⟨part', hpart', -, hnames⟩ :=
      matchErrors_of_recognised hspell hw hrecognised nodeid component current
    obtain rfl : part = part' := Except.ok.inj (hpart.symm.trans hpart')
    exact hnames e hep

variable {components : Components}

/-- The version fields are what their expressions are parsed as. -/
def FieldsParsed (sv : SemanticVersion) (conditions : List Condition) : Prop :=
  ∀ c ∈ conditions, ∀ r ∈ semverRanges c, SemverRange.ofExpression sv r.expression = some r

/-- The errors of a condition are those of its version fields. -/
theorem conditionErrors_spec (hspell : sv.SpelledOut spell) (hdoc : CharsDocumented table)
    {condition : Condition} (h : FieldsParsed sv [condition]) (nodeid : Str) :
    ∃ errors, conditionErrors sv table components nodeid condition = .ok errors ∧
      ∀ e, e ∈ errors ↔ ∃ current, components.get? condition.component = some current ∧
        ∃ r ∈ semverRanges condition, ∃ part,
          rangeErrors sv table nodeid condition.component current r = .ok part ∧ e ∈ part := by
  unfold conditionErrors
  cases hcurrent : components.get? condition.component with
  | none => exact ⟨[], rfl, by simp⟩
  | some current =>
      have hok : ∀ r ∈ semverRanges condition, ∃ part,
          rangeErrors sv table nodeid condition.component current r = .ok part := by
        intro r hr
        obtain ⟨part, hpart, -⟩ := rangeErrors_spec hspell hdoc
          (h condition (List.mem_singleton_self _) r hr) nodeid condition.component current
        exact ⟨part, hpart⟩
      obtain ⟨errors, herrors⟩ := Raised.exists_flatMapM_eq_ok hok
      refine ⟨errors, herrors, fun e => ?_⟩
      rw [Raised.mem_flatMapM herrors]
      simp

variable (components) in
/-- The conditions of all rules are checked, and the check raises nothing. -/
theorem versionErrors_spec (hspell : sv.SpelledOut spell) (hdoc : CharsDocumented table)
    {data : ManifestData} (h : ∀ rule ∈ data.items, FieldsParsed sv rule.2) :
    ∃ errors, versionErrors sv table components data = .ok errors ∧
      ∀ e, e ∈ errors ↔ ∃ rule ∈ data.items, ∃ c ∈ rule.2, ∃ current,
        components.get? c.component = some current ∧ ∃ r ∈ semverRanges c, ∃ part,
          rangeErrors sv table rule.1 c.component current r = .ok part ∧ e ∈ part := by
  have hcondition : ∀ rule ∈ data.items, ∀ c ∈ rule.2, ∃ part,
      conditionErrors sv table components rule.1 c = .ok part ∧
        ∀ e, e ∈ part ↔ ∃ current, components.get? c.component = some current ∧
          ∃ r ∈ semverRanges c, ∃ part',
            rangeErrors sv table rule.1 c.component current r = .ok part' ∧ e ∈ part' := by
    intro rule hrule c hc
    refine conditionErrors_spec hspell hdoc ?_ rule.1
    intro c' hc'
    obtain rfl := List.mem_singleton.mp hc'
    exact h rule hrule c' hc
  have hrule : ∀ rule ∈ data.items, ∃ part,
      Raised.flatMapM (conditionErrors sv table components rule.1) rule.2 = .ok part := by
    intro rule hrule
    refine Raised.exists_flatMapM_eq_ok fun c hc => ?_
    obtain ⟨part, hpart, -⟩ := hcondition rule hrule c hc
    exact ⟨part, hpart⟩
  obtain ⟨errors, herrors⟩ := Raised.exists_flatMapM_eq_ok hrule
  refine ⟨errors, herrors, fun e => ?_⟩
  rw [Raised.mem_flatMapM herrors]
  refine exists_congr fun rule => and_congr_right fun hmem => ?_
  constructor
  · rintro ⟨part, hpart, he⟩
    obtain ⟨c, hc, part', hpart', he'⟩ := (Raised.mem_flatMapM hpart).mp he
    obtain ⟨part'', hpart'', hiff⟩ := hcondition rule hmem c hc
    obtain rfl : part' = part'' := Except.ok.inj (hpart'.symm.trans hpart'')
    exact ⟨c, hc, (hiff e).mp he'⟩
  · rintro ⟨c, hc, he⟩
    obtain ⟨part', hpart', hiff⟩ := hcondition rule hmem c hc
    obtain ⟨part, hpart⟩ := hrule rule hmem
    exact ⟨part, hpart, (Raised.mem_flatMapM hpart).mpr ⟨c, hc, part', hpart', (hiff e).mpr he⟩⟩

/-- The version ranges of a component under a rule. -/
def rangesOf (data : ManifestData) (nodeid component : Str) : List SemverRange :=
  ((conditionsOf data nodeid).filter (·.component = component)).flatMap semverRanges

/-- There is an error for the rule and the component. -/
def Reported (errors : List VersionError) (nodeid component : Str) : Prop :=
  ∃ e ∈ errors, e.nodeid = nodeid ∧ e.component = component

/-- **What is reported**: a recognised version that is ahead. -/
theorem reported_iff (hspell : sv.SpelledOut spell) (hdoc : CharsDocumented table)
    {data : ManifestData} (h : ∀ rule ∈ data.items, FieldsParsed sv rule.2)
    {errors : List VersionError} (herrors : versionErrors sv table components data = .ok errors)
    {nodeid component : Str} {current : Version}
    (hcurrent : components.get? component = some current) :
    Reported errors nodeid component ↔ ∃ r ∈ rangesOf data nodeid component,
      ∃ w ∈ writtenIn spell r.expression, w.recognised = true ∧ w.Ahead current := by
  obtain ⟨errors', herrors', hmem⟩ := versionErrors_spec components hspell hdoc h
  obtain rfl : errors = errors' := Except.ok.inj (herrors.symm.trans herrors')
  have hranges : ∀ r, r ∈ rangesOf data nodeid component ↔ ∃ rule ∈ data.items,
      rule.1 = nodeid ∧ ∃ c ∈ rule.2, c.component = component ∧ r ∈ semverRanges c := by
    intro r
    simp only [rangesOf, conditionsOf, List.mem_flatMap, List.mem_filter, decide_eq_true_eq]
    constructor
    · rintro ⟨c, ⟨hc, hcomponent⟩, hr⟩
      cases hget : data.get? nodeid with
      | none =>
          rw [hget] at hc
          cases hc
      | some conditions =>
          rw [hget] at hc
          exact ⟨(nodeid, conditions), (Dict.mem_items_iff data nodeid conditions).mpr hget, rfl, c, hc, hcomponent, hr⟩
    · rintro ⟨rule, hrule, rfl, c, hc, hcomponent, hr⟩
      rw [(Dict.mem_items_iff data rule.1 rule.2).mp hrule]
      exact ⟨c, ⟨hc, hcomponent⟩, hr⟩
  have hspec : ∀ rule ∈ data.items, ∀ c ∈ rule.2, ∀ r ∈ semverRanges c, ∃ part,
      rangeErrors sv table rule.1 c.component current r = .ok part ∧
        (part ≠ [] ↔ ∃ w ∈ writtenIn spell r.expression,
          w.recognised = true ∧ w.Ahead current) ∧
        ∀ e ∈ part, e.nodeid = rule.1 ∧ e.component = c.component :=
    fun rule hrule c hc r hr =>
      rangeErrors_spec hspell hdoc (h rule hrule c hc r hr) rule.1 c.component current
  constructor
  · rintro ⟨e, he, hnodeid, hcomponent⟩
    obtain ⟨rule, hrule, c, hc, current', hcurrent', r, hr, part, hpart, hep⟩ := (hmem e).mp he
    obtain ⟨part', hpart', -, hnames'⟩ :=
      rangeErrors_spec hspell hdoc (h rule hrule c hc r hr) rule.1 c.component current'
    obtain rfl : part = part' := Except.ok.inj (hpart.symm.trans hpart')
    obtain ⟨hrule₁, hc₁⟩ := hnames' e hep
    have hsame : c.component = component := hc₁.symm.trans hcomponent
    obtain rfl : current = current' := by
      rw [hsame, hcurrent] at hcurrent'
      exact Option.some.inj hcurrent'
    obtain ⟨part', hpart', hahead, -⟩ := hspec rule hrule c hc r hr
    obtain rfl : part = part' := Except.ok.inj (hpart.symm.trans hpart')
    exact ⟨r, (hranges r).mpr ⟨rule, hrule, hrule₁.symm.trans hnodeid, c, hc, hsame, hr⟩,
      hahead.mp (List.ne_nil_of_mem hep)⟩
  · rintro ⟨r, hr, hahead⟩
    obtain ⟨rule, hrule, rfl, c, hc, rfl, hrc⟩ := (hranges r).mp hr
    obtain ⟨part, hpart, hiff, hnames⟩ := hspec rule hrule c hc r hrc
    obtain ⟨e, he⟩ := List.exists_mem_of_ne_nil _ (hiff.mpr hahead)
    exact ⟨e, (hmem e).mpr ⟨rule, hrule, c, hc, current, hcurrent, r, hrc, part, hpart, he⟩,
      hnames e he⟩

end Errors

/-- Some version that is written in the ranges is ahead. -/
def VersionAhead (spell : Str → Option Npm.Spelling) (ranges : List SemverRange)
    (current : Version) : Prop :=
  ∃ r ∈ ranges, ∃ w ∈ writtenIn spell r.expression, w.Ahead current

/-- Some version that the pattern recognises is ahead. -/
def RecognisedAhead (spell : Str → Option Npm.Spelling) (ranges : List SemverRange)
    (current : Version) : Prop :=
  ∃ r ∈ ranges, ∃ w ∈ writtenIn spell r.expression, w.recognised = true ∧ w.Ahead current

theorem VersionAhead.of_recognisedAhead {spell : Str → Option Npm.Spelling}
    {ranges : List SemverRange} {current : Version}
    (h : RecognisedAhead spell ranges current) : VersionAhead spell ranges current := by
  obtain ⟨r, hr, w, hw, -, hahead⟩ := h
  exact ⟨r, hr, w, hw, hahead⟩

/-- A sufficient test is exact where the property implies it. -/
theorem iff_iff_imp_of_imp {report recognised ahead : Prop} (hreport : report ↔ recognised)
    (himp : recognised → ahead) : (report ↔ ahead) ↔ (ahead → recognised) := by
  rw [hreport]
  constructor
  · intro h
    exact h.mpr
  · intro h
    exact ⟨himp, h⟩

/--
**The check of the declared versions.**  It raises nothing, and it reports a rule
exactly when a version written in its ranges is ahead, if and only if some version
that is ahead stands behind an operator of the pattern with two numbers.
-/
theorem reported_iff_versionAhead_iff (sv : SemanticVersion)
    (spell : Str → Option Npm.Spelling) (hspell : sv.SpelledOut spell) (table : CharTable)
    (hdoc : CharsDocumented table) (components : Components) (data : ManifestData)
    (h : ∀ rule ∈ data.items, FieldsParsed sv rule.2) :
    ∃ errors, versionErrors sv table components data = .ok errors ∧
      assertVersionsNotAheadOfCurrent sv table components data =
        .ok (errors.map VersionError.text) ∧
      ∀ nodeid component current, components.get? component = some current →
        ((Reported errors nodeid component ↔
            VersionAhead spell (rangesOf data nodeid component) current) ↔
          (VersionAhead spell (rangesOf data nodeid component) current →
            RecognisedAhead spell (rangesOf data nodeid component) current)) ∧
        ∀ r ∈ rangesOf data nodeid component, ∃ part,
          rangeErrors sv table nodeid component current r = .ok part ∧
            ((part ≠ [] ↔ VersionAhead spell [r] current) ↔
              (VersionAhead spell [r] current → RecognisedAhead spell [r] current)) := by
  obtain ⟨errors, herrors, -⟩ := versionErrors_spec components hspell hdoc h
  refine ⟨errors, herrors, ?_, ?_⟩
  · rw [assertVersionsNotAheadOfCurrent, herrors]
    rfl
  intro nodeid component current hcurrent
  refine ⟨iff_iff_imp_of_imp (reported_iff hspell hdoc h herrors hcurrent)
    VersionAhead.of_recognisedAhead, ?_⟩
  intro r hr
  obtain ⟨c, hc, hrc⟩ := List.mem_flatMap.mp hr
  have hparsed : SemverRange.ofExpression sv r.expression = some r := by
    have hmem := (List.mem_filter.mp hc).1
    rw [conditionsOf] at hmem
    cases hget : data.get? nodeid with
    | none =>
        rw [hget] at hmem
        cases hmem
    | some conditions =>
        rw [hget] at hmem
        exact h _ ((Dict.mem_items_iff data nodeid conditions).mpr hget) c hmem r hrc
  obtain ⟨part, hpart, hiff, -⟩ := rangeErrors_spec hspell hdoc hparsed nodeid component current
  refine ⟨part, hpart, iff_iff_imp_of_imp ?_ VersionAhead.of_recognisedAhead⟩
  simpa [RecognisedAhead] using hiff

section Example

/-- The spelling of the blocks `6.0.0` and `>=6.0.0`. -/
def aheadSpell (text : Str) : Option Npm.Spelling :=
  let numbers := Npm.Numbers.three (.number 6) (.number 0) (.number 0)
  if text = "6.0.0".toList then some ⟨false, .bare, numbers, [], [], false⟩
  else if text = ">=6.0.0".toList then some ⟨false, .gte, numbers, [], [], false⟩
  else none

def aheadRead (text : Str) : Option Npm.Block :=
  (aheadSpell text).map fun b =>
    ⟨.compare (if b.sign = .gte then .gte else .eq), .full (.release 6 0 0)⟩

def aheadSemver : SemanticVersion := .ofReading aheadRead Version.ofStr

theorem aheadSpell_cases {text : Str} {b : Npm.Spelling} (h : aheadSpell text = some b) :
    b.text = text ∧ declaredText b = (Version.release 6 0 0).str ∧
      b.boundary = some (.release 6 0 0) := by
  unfold aheadSpell at h
  split_ifs at h with h₁ h₂
  · obtain rfl := Option.some.inj h
    rw [h₁]
    exact ⟨by decide, by decide, rfl⟩
  · obtain rfl := Option.some.inj h
    rw [h₂]
    exact ⟨by decide, by decide, rfl⟩

theorem aheadSemver_spelledOut : aheadSemver.SpelledOut aheadSpell where
  accepted := by
    intro text h
    change ((aheadRead text).bind _).isSome = true at h
    cases hspell : aheadSpell text with
    | none =>
        rw [aheadRead, hspell] at h
        cases h
    | some b => rfl
  text := fun text b h => (aheadSpell_cases h).1
  coerce := by
    intro text b v h _ hv
    obtain ⟨-, htext, hboundary⟩ := aheadSpell_cases h
    obtain rfl := Option.some.inj (hboundary.symm.trans hv)
    refine ⟨.release 6 0 0, ?_, rfl⟩
    rw [htext]
    exact Version.ofStr_str (.release 6 0 0)

theorem CharTable.ascii_charsDocumented : CharsDocumented CharTable.ascii where
  toDocumented := CharTable.ascii_documented
  isWord_of_isDigit := by
    intro c hc
    have hdigit : c.isDigit = true := hc
    simp [CharTable.ascii, Char.isAlphanum, hdigit]
  isWord_of_isSpace := by
    intro c hc
    by_contra hword
    rw [Bool.not_eq_false, CharTable.ascii, Bool.or_eq_true, beq_iff_eq] at hword
    simp only [isSpace, Bool.or_eq_true, Bool.and_eq_true, decide_eq_true_eq, beq_iff_eq] at hc
    rcases hword with hword | rfl
    · have hrange := isAlphanum_iff.mp hword
      omega
    · exact absurd hc (by decide)

/-- The range of one comparison with `6.0.0`. -/
def aheadRange (expression : Str) (op : Operator) : SemverRange :=
  ⟨expression, [[CustomParser.range op (.release 6 0 0)]]⟩

/-- A rule of one condition on the version. -/
def aheadData (semRange : SemverRange) : ManifestData :=
  Dict.empty.set "tests/foo.py::TestFoo" [{
    component := "nodejs", declaration := ⟨.missingFeature, none⟩,
    componentVersion := some semRange }]

def aheadComponents : Components := Dict.empty.set "nodejs" (.release 5 2 0)

theorem aheadData_parsed {semRange : SemverRange}
    (h : SemverRange.ofExpression aheadSemver semRange.expression = some semRange) :
    ∀ rule ∈ (aheadData semRange).items, FieldsParsed aheadSemver rule.2 := by
  intro rule hrule c hc r hr
  obtain rfl := List.mem_singleton.mp hrule
  obtain rfl := List.mem_singleton.mp hc
  obtain rfl : r = semRange := List.mem_singleton.mp hr
  exact h

/-- `>=6.0.0` is reported while `5.2.0` is tested. -/
theorem reported_iff_versionAhead_iff_gte :
    ∃ errors, versionErrors aheadSemver .ascii aheadComponents
        (aheadData (aheadRange ">=6.0.0" .gte)) = .ok errors ∧
      Reported errors "tests/foo.py::TestFoo" "nodejs" := by
  obtain ⟨errors, herrors, -, hall⟩ := reported_iff_versionAhead_iff aheadSemver aheadSpell
    aheadSemver_spelledOut .ascii CharTable.ascii_charsDocumented aheadComponents
    (aheadData (aheadRange ">=6.0.0" .gte)) (aheadData_parsed rfl)
  have hiff := (hall "tests/foo.py::TestFoo" "nodejs" (.release 5 2 0) rfl).1
  have hahead : RecognisedAhead aheadSpell
      (rangesOf (aheadData (aheadRange ">=6.0.0" .gte)) "tests/foo.py::TestFoo" "nodejs")
      (.release 5 2 0) :=
    ⟨_, List.mem_singleton_self _, _, List.mem_singleton_self _, rfl, .release 6 0 0, rfl,
      by decide⟩
  have hreport := hiff.mpr fun _ => hahead
  exact ⟨errors, herrors, hreport.mpr (.of_recognisedAhead hahead)⟩

/-- `6.0.0` is not reported while `5.2.0` is tested. -/
theorem not_reported_bare :
    aheadSemver.SpelledOut aheadSpell ∧ CharsDocumented .ascii ∧
      (∀ rule ∈ (aheadData (aheadRange "6.0.0" .eq)).items, FieldsParsed aheadSemver rule.2) ∧
      ∃ errors, versionErrors aheadSemver .ascii aheadComponents
          (aheadData (aheadRange "6.0.0" .eq)) = .ok errors ∧
        ¬ (Reported errors "tests/foo.py::TestFoo" "nodejs" ↔
          VersionAhead aheadSpell
            (rangesOf (aheadData (aheadRange "6.0.0" .eq)) "tests/foo.py::TestFoo" "nodejs")
            (.release 5 2 0)) := by
  refine ⟨aheadSemver_spelledOut, CharTable.ascii_charsDocumented, aheadData_parsed rfl,
    [], rfl, ?_⟩
  intro hiff
  obtain ⟨e, he, -⟩ := hiff.mpr
    ⟨_, List.mem_singleton_self _, _, List.mem_singleton_self _, .release 6 0 0, rfl, by decide⟩
  cases he

end Example

end Manifest
end SystemTests
