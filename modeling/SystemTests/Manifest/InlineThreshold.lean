import SystemTests.Foundation.SemverText
import SystemTests.Manifest.Rule

/-!
# Inline versions are thresholds

An inline declaration `vX` is turned into the range `>=` of the version that `X`
normalizes to, and the test is skipped outside that range.

**Result.**  `matchCondition_inline_iff_lt`: the test is skipped for exactly the
versions below `X` in precedence, so that once a version runs the test every
higher version runs it.
-/

namespace SystemTests
namespace Manifest

open Foundation Foundation.Text Foundation.Semver Foundation.Regex

/-- The text of a version after `>=` is a block that bounds by that version. -/
def ReadsVersions (read : Str → Option Npm.Block) : Prop :=
  ∀ v : Version, read ('>' :: '=' :: v.str) = some ⟨.compare .gte, .full v⟩

section LowerBound

variable {sv : SemanticVersion} {read : Str → Option Npm.Block}

theorem lowerBound_char {v : Version} {c : Char} (h : c ∈ '>' :: '=' :: v.str) :
    isSpace c = false ∧ c ≠ ' ' ∧ c ≠ '|' := by
  have hident : isIdentChar c = true → isSpace c = false ∧ c ≠ ' ' ∧ c ≠ '|' := by
    intro hc
    refine ⟨?_, ?_, ?_⟩
    · rw [isIdentChar, Bool.or_eq_true, isAlphanum_iff, beq_iff_eq] at hc
      rcases hc with hc | rfl
      · simp only [isSpace, Bool.or_eq_false_iff, Bool.and_eq_false_iff,
          decide_eq_false_iff_not, beq_eq_false_iff_ne, ne_eq]
        omega
      · decide
    · rintro rfl
      exact absurd hc (by decide)
    · rintro rfl
      exact absurd hc (by decide)
  rcases List.mem_cons.mp h with rfl | h
  · decide
  rcases List.mem_cons.mp h with rfl | h
  · decide
  rcases mem_str_cases h with hc | rfl | rfl
  · exact hident hc
  · decide
  · decide

/-- A lower bound is an expression of one group with one block. -/
theorem groups_lowerBound (v : Version) :
    groups ('>' :: '=' :: v.str) = ['>' :: '=' :: v.str] := by
  have hbar : '|' ∉ '>' :: '=' :: v.str := fun h => (lowerBound_char h).2.2 rfl
  have hstrip : strip ('>' :: '=' :: v.str) = '>' :: '=' :: v.str :=
    stripOf_of_forall fun c hc => (lowerBound_char hc).1
  rw [groups, CustomParser.joiner, split_of_not_mem hbar, List.map_singleton,
    CustomParser.groupText, hstrip, if_neg (by simp)]

theorem groupBlocks_lowerBound (v : Version) :
    groupBlocks ('>' :: '=' :: v.str) = ['>' :: '=' :: v.str] := by
  have hspace : ' ' ∉ '>' :: '=' :: v.str := fun h => (lowerBound_char h).2.1 rfl
  have hhyphen : ¬ CustomParser.hyphen <:+: '>' :: '=' :: v.str := by
    intro hmid
    exact hspace (hmid.subset (by simp [CustomParser.hyphen]))
  rw [groupBlocks, if_neg hhyphen, split_of_not_mem hspace]

/-- The range of a lower bound holds the versions from the bound on. -/
theorem contains_lowerBound_iff (hdoc : sv.Documented read) (hread : ReadsVersions read)
    {v : Version} {r : SemverRange}
    (h : SemverRange.ofExpression sv ('>' :: '=' :: v.str) = some r) (t : Version) :
    r.contains sv t = true ↔ v ≤ t := by
  rw [contains_iff hdoc h, groups_lowerBound]
  simp only [List.mem_singleton, exists_eq_left, GroupSat, groupBlocks_lowerBound,
    forall_eq]
  rw [blockSat_of_not_caret (by decide), hread v]
  simp only [Option.some.injEq, exists_eq_left']
  exact Version.withoutBuild_le v t

end LowerBound

section Threshold

variable {sv : SemanticVersion} {table : CharTable} {read : Str → Option Npm.Block}

/-- No kind of a skip declaration starts with a `v`. -/
theorem not_skip_of_v {raw : Str} (hv : ['v'] <+: raw) :
    (fullmatch Declaration.skipDeclarationRegex raw).isSome = false := by
  have hhead : ∀ d : TestDeclaration, d.value.head? ≠ some 'v' := by
    intro d
    cases d <;> decide
  cases hskip : (fullmatch Declaration.skipDeclarationRegex raw).isSome with
  | false => rfl
  | true =>
      obtain ⟨d, r, rfl, -⟩ := Declaration.isSome_fullmatch_skipDeclarationRegex.mp hskip
      obtain ⟨t, ht⟩ := hv
      have hv := congrArg List.head? ht
      rw [List.head?_append_of_ne_nil _ (Declaration.value_ne_nil d)] at hv
      exact absurd hv.symm (hhead d)

/-- The condition of an inline version declaration. -/
theorem processInline_version {component raw : Str} {c : Condition}
    (h : processInline sv table raw component = .ok c) (hv : ['v'] <+: strip raw) :
    ∃ cv r, ComponentVersion.create sv table component
          (Declaration.versionText (strip raw)) = .ok cv ∧
      SemverRange.ofExpression sv ('>' :: '=' :: cv.version.str) = some r ∧
      c = {
        component
        declaration := ⟨.missingFeature, some (declaredVersionText component raw)⟩
        excludedComponentVersion := some r } := by
  obtain ⟨decl, hdecl, hcases⟩ := processInline_eq_ok_iff.mp h
  have hparse := (Declaration.create_eq_ok_iff.mp hdecl).2
  rcases hcases with ⟨d, hd, -⟩ | ⟨r, hr, hc⟩
  · rcases Declaration.parseDeclaration_eq_ok_iff.mp hparse with
      ⟨hskip, -⟩ | ⟨-, -, m, -, text, -, r, -, rfl⟩
    · rw [not_skip_of_v hv] at hskip
      exact absurd hskip (by simp)
    · simp at hd
  · obtain ⟨-, -, hrange⟩ := Declaration.range_of_parseDeclaration hparse hr
    rw [if_pos hv] at hrange
    obtain ⟨cv, hcv, hexpr⟩ := hrange
    exact ⟨cv, r, hcv, hexpr, hc⟩

/--
**Inline versions are thresholds.**  The condition of an accepted declaration
`vX` applies to exactly the tested versions below the version that `X` stands
for, and a version above one that runs the test runs it too.
-/
theorem matchCondition_inline_iff_lt (sv : SemanticVersion) (table : CharTable)
    (read : Str → Option Npm.Block) (hdoc : sv.Documented read)
    (hread : ReadsVersions read) (component raw : Str) (c : Condition)
    (h : processInline sv table raw component = .ok c) (hv : ['v'] <+: strip raw) :
    ∃ cv, ComponentVersion.create sv table component
        (Declaration.versionText (strip raw)) = .ok cv ∧
      (∀ components weblog t, components.get? component = some t →
        (matchCondition sv c components weblog = true ↔ t < cv.version)) ∧
      (∀ components components' weblog weblog' t t',
        components.get? component = some t → components'.get? component = some t' →
          t ≤ t' → matchCondition sv c components weblog = false →
            matchCondition sv c components' weblog' = false) := by
  obtain ⟨cv, r, hcv, hexpr, rfl⟩ := processInline_version h hv
  have hiff : ∀ components weblog t, components.get? component = some t →
      (matchCondition sv {
          component
          declaration := ⟨.missingFeature, some (declaredVersionText component raw)⟩
          excludedComponentVersion := some r } components weblog = true ↔
        t < cv.version) := by
    intro components weblog t ht
    rw [← Version.not_le_iff_lt, ← contains_lowerBound_iff hdoc hread hexpr]
    simp [matchCondition, ht, inRange, outOfRange, weblogListed, weblogNotListed]
  refine ⟨cv, hcv, hiff, ?_⟩
  intro components components' weblog weblog' t t' ht ht' hle hfalse
  rw [Bool.eq_false_iff, ne_eq, hiff _ _ _ ht] at hfalse
  rw [Bool.eq_false_iff, ne_eq, hiff _ _ _ ht']
  intro hlt
  exact hfalse (lt_of_le_of_lt hle hlt)

/-- The package with blocks of full versions and a coercion that reads full versions. -/
def fullVersions : SemanticVersion := .ofReading Npm.Block.ofStr Version.ofStr

theorem fullVersions_documented : fullVersions.Documented Npm.Block.ofStr :=
  SemanticVersion.ofReading_documented fun _ _ => Npm.Block.ofStr_caret

/-- With `v2.1.0` a Python prerelease `2.1.0-dev` is skipped and `2.1.0` runs. -/
theorem matchCondition_inline_iff_lt_python :
    ∃ c, processInline fullVersions .ascii "v2.1.0" "python" = .ok c ∧
      ∃ cv, ComponentVersion.create fullVersions .ascii "python"
          (Declaration.versionText (strip "v2.1.0")) = .ok cv ∧
        ∀ components weblog t, components.get? "python".toList = some t →
          (matchCondition fullVersions c components weblog = true ↔ t < cv.version) := by
  obtain ⟨c, hc⟩ : ∃ c, processInline fullVersions .ascii "v2.1.0" "python" = .ok c :=
    ⟨_, rfl⟩
  obtain ⟨cv, hcv, hiff, -⟩ := matchCondition_inline_iff_lt fullVersions .ascii
    Npm.Block.ofStr fullVersions_documented Npm.Block.ofStr_compare_gte "python" "v2.1.0" c hc
    (by decide)
  exact ⟨c, hc, cv, hcv, hiff⟩

end Threshold

end Manifest
end SystemTests
