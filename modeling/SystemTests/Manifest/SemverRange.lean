import SystemTests.Foundation.Exception
import SystemTests.Foundation.NpmRange

/-!
# Version ranges of the manifests (`utils/manifest/_internal/types.py`)

`SemverRange` reads a range expression with an npm parser of which `parse` and
`range` are overridden: groups separated by `||`, each of them a hyphen pair or
blocks separated by one space, every comparison with the policy that does not
special-case prereleases, and the upper bound of a caret block moved to the
earliest prerelease of that bound.

The `semantic_version` package is not part of the repository.  What the code
calls of it is a parameter, `SemanticVersion`; `Documented` is what the code
relies on: `parse_simple` expands a block as npm documents it, and `Range.match`
compares by precedence under the policy that admits prereleases.

**Result.**  `mem_semverRange_iff`: the versions in a range are those that
satisfy all blocks of some group under precedence, and a range of one group
without build metadata is convex in precedence.
-/

namespace SystemTests
namespace Manifest

open Foundation Foundation.Text Foundation.Semver

inductive PrereleasePolicy where
  | always | natural | samepatch
deriving DecidableEq

/-- `semantic_version.base.Range`. -/
structure Range where
  operator : Operator
  target : Version
  prereleasePolicy : PrereleasePolicy
deriving DecidableEq

/-- What the code calls of the `semantic_version` package; for `none` see what it raises. -/
structure SemanticVersion where
  /-- `NpmSpec.Parser.NPM_SPEC_BLOCK.match` -/
  npmSpecBlock : Str → Bool
  /-- `NpmSpec.Parser.parse_simple`, with the `range` of the class it runs in -/
  parseSimple : (Operator → Version → Range) → Str → Option (List Range)
  /-- `Range.match` -/
  rangeMatch : Range → Version → Bool
  /-- What `parse_simple` raises for a text that it refuses. -/
  parseSimpleRaises : Str → Raised
  /-- `Version.coerce` -/
  coerce : Str → Option Version
  coerceRaises : Str → Raised

namespace SemanticVersion

/-- Admission by a range whose policy does not special-case prereleases. -/
def Admitted (r : Range) (v : Version) : Prop :=
  match r.operator with
  | .eq =>
      if r.target.build = [] then v.withoutBuild = r.target
      else v.withoutBuild = r.target.withoutBuild ∧ v.build = r.target.build
  | op => op.Holds v.withoutBuild r.target

/--
The documented behaviour the manifests rely on.  `read` gives a block its
operator and version, `none` where the block is refused.
-/
structure Documented (sv : SemanticVersion) (read : Str → Option Npm.Block) : Prop where
  parseSimple : ∀ range text,
    sv.parseSimple range text =
      (read text).bind fun b =>
        b.comparators.map fun cs => cs.map fun c => range c.operator c.target
  caret : ∀ text b, read ('^' :: text) = some b → b.op = .caret
  rangeMatch : ∀ r v, r.prereleasePolicy = .always →
    (sv.rangeMatch r v = true ↔ Admitted r v)

instance (r : Range) (v : Version) : Decidable (Admitted r v) := by
  unfold Admitted
  split <;> infer_instance

/-- The package as documented, for a reading of blocks and a coercion of versions. -/
def ofReading (read : Str → Option Npm.Block) (coerce : Str → Option Version) :
    SemanticVersion where
  npmSpecBlock text := (read text).isSome
  parseSimple range text :=
    (read text).bind fun b =>
      b.comparators.map fun cs => cs.map fun c => range c.operator c.target
  rangeMatch r v := decide (Admitted r v)
  parseSimpleRaises text :=
    if (read text).isSome then .valueError ("Invalid expression ".toList ++ text)
    else .attributeError "groups"
  coerce := coerce
  coerceRaises text := .valueError ("Version string lacks a numerical component: ".toList ++ text)

theorem ofReading_documented {read : Str → Option Npm.Block}
    {coerce : Str → Option Version}
    (h : ∀ text b, read ('^' :: text) = some b → b.op = .caret) :
    (ofReading read coerce).Documented read where
  parseSimple _ _ := rfl
  caret := h
  rangeMatch _ _ _ := decide_eq_true_iff

end SemanticVersion

namespace CustomParser

def joiner : Str := ['|', '|']

def hyphen : Str := [' ', '-', ' ']

/-- `_CustomParser.range` -/
def range (operator : Operator) (target : Version) : Range :=
  ⟨operator, target, .always⟩

/-- The bound of a caret block moved to `X.Y.Z-0`. -/
def caretClause (clause : Range) : Range :=
  if clause.operator = .lt ∧ clause.target.prerelease = [] then
    range .lt clause.target.earliest
  else clause

variable (sv : SemanticVersion)

def parseBlock (block : Str) : Option (List Range) :=
  if sv.npmSpecBlock block then
    (sv.parseSimple range block).map fun parsed =>
      if ['^'] <+: block then parsed.map caretClause else parsed
  else none

def parseBlocks : List Str → Option (List Range)
  | [] => some []
  | block :: blocks => do
      let parsed ← parseBlock sv block
      let rest ← parseBlocks blocks
      return parsed ++ rest

/-- `raw_group.strip() or ">=0.0.0"` -/
def groupText (rawGroup : Str) : Str :=
  if strip rawGroup = [] then ">=0.0.0" else strip rawGroup

def parseGroup (group : Str) : Option (List Range) :=
  if hyphen <:+: group then
    match split hyphen group with
    | [low, high] => do
        let lower ← sv.parseSimple range ('>' :: '=' :: low)
        let upper ← sv.parseSimple range ('<' :: '=' :: high)
        return lower ++ upper
    -- unpacking any other number of pieces raises
    | _ => none
  else parseBlocks sv (split [' '] group)

def parseGroups : List Str → Option (List (List Range))
  | [] => some []
  | rawGroup :: rawGroups => do
      let clauses ← parseGroup sv (groupText rawGroup)
      let rest ← parseGroups rawGroups
      return clauses :: rest

/-- `_CustomParser.parse`: the groups of an `AnyOf`, each an `AllOf`. -/
def parse (expression : Str) : Option (List (List Range)) :=
  parseGroups sv (split joiner expression)

/-- What `parse` raises for a block that it refuses. -/
def blockRaises (block : Str) : Raised :=
  if sv.npmSpecBlock block then sv.parseSimpleRaises block
  else .valueError ("Invalid NPM block: ".toList ++ block)

def blocksRaise (blocks : List Str) : Raised :=
  match blocks.find? fun block => (parseBlock sv block).isNone with
  | some block => blockRaises sv block
  | none => .valueError []

/-- The side of a hyphen pair that is refused; the lower one is read first. -/
def refusedSide (low high : Str) : Str :=
  if (sv.parseSimple range ('>' :: '=' :: low)).isNone then '>' :: '=' :: low
  else '<' :: '=' :: high

/-- The sides of a hyphen pair are read without a check that they are blocks. -/
def groupRaises (group : Str) : Raised :=
  if hyphen <:+: group then
    match split hyphen group with
    | [low, high] => sv.parseSimpleRaises (refusedSide sv low high)
    | _ => .valueError "too many values to unpack (expected 2)"
  else blocksRaise sv (split [' '] group)

def refusedGroup (expression : Str) : Option Str :=
  (split joiner expression).find? fun rawGroup => (parseGroup sv (groupText rawGroup)).isNone

/-- What `parse` raises for an expression that it refuses: the first group decides. -/
def raises (expression : Str) : Raised :=
  match refusedGroup sv expression with
  | some rawGroup => groupRaises sv (groupText rawGroup)
  | none => .valueError []

end CustomParser

/-- A range with the expression it was read from. -/
structure SemverRange where
  expression : Str
  clause : List (List Range)
deriving DecidableEq

namespace SemverRange

/-- `SemverRange(expression)` -/
def ofExpression (sv : SemanticVersion) (expression : Str) : Option SemverRange :=
  (CustomParser.parse sv expression).map fun clause => ⟨expression, clause⟩

/-- `SemverRange(expression)`, with what it raises. -/
def create (sv : SemanticVersion) (expression : Str) : Except Raised SemverRange :=
  Raised.ofOption (CustomParser.raises sv expression) (ofExpression sv expression)

/-- `version in self` -/
def contains (sv : SemanticVersion) (r : SemverRange) (v : Version) : Bool :=
  r.clause.any fun group => group.all fun clause => sv.rangeMatch clause v

end SemverRange

section Strip

variable {sv : SemanticVersion}

/-- Of a raw group only the stripped text is read. -/
theorem parseGroups_congr :
    ∀ {gs hs : List Str}, gs.map strip = hs.map strip →
      CustomParser.parseGroups sv gs = CustomParser.parseGroups sv hs
  | [], [], _ => rfl
  | [], h :: hs, heq => by simp at heq
  | g :: gs, [], heq => by simp at heq
  | g :: gs, h :: hs, heq => by
      rw [List.map_cons, List.map_cons, List.cons.injEq] at heq
      have htext : CustomParser.groupText g = CustomParser.groupText h := by
        rw [CustomParser.groupText, CustomParser.groupText, heq.1]
      rw [CustomParser.parseGroups, CustomParser.parseGroups, htext, parseGroups_congr heq.2]

/-- White space around an expression does not matter. -/
theorem parse_strip (expression : Str) :
    CustomParser.parse sv (strip expression) = CustomParser.parse sv expression := by
  refine parseGroups_congr (map_stripOf_split ?_ expression)
  decide

theorem ofExpression_strip {expression : Str} {r : SemverRange}
    (h : SemverRange.ofExpression sv expression = some r) :
    SemverRange.ofExpression sv (strip expression) =
      some ⟨strip expression, r.clause⟩ := by
  obtain ⟨clause, hclause, rfl⟩ := Option.map_eq_some_iff.mp h
  rw [SemverRange.ofExpression, parse_strip, hclause]
  rfl

end Strip

section Meaning

/-- The groups of an expression, an empty one read as `>=0.0.0`. -/
def groups (expression : Str) : List Str :=
  (split CustomParser.joiner expression).map CustomParser.groupText

/-- The blocks of a group; a hyphen pair gives a lower and an upper block. -/
def groupBlocks (group : Str) : List Str :=
  if CustomParser.hyphen <:+: group then
    match split CustomParser.hyphen group with
    | [low, high] => ['>' :: '=' :: low, '<' :: '=' :: high]
    | _ => []
  else split [' '] group

variable (read : Str → Option Npm.Block)

/--
A version satisfies a block under precedence; a block that starts with a caret
has its implied bound `X.Y.Z` read as `X.Y.Z-0`.
-/
def BlockSat (block : Str) (v : Version) : Prop :=
  ∃ b, read block = some b ∧
    b.Admits (if ['^'] <+: block then Version.earliest else id) v

def GroupSat (group : Str) (v : Version) : Prop :=
  ∀ block ∈ groupBlocks group, BlockSat read block v

/-- No equality block of the group carries build metadata. -/
def GroupWithoutBuild (group : Str) : Prop :=
  ∀ block ∈ groupBlocks group, ∀ b, read block = some b → ¬ b.HasBuild

end Meaning

section Matching

variable {sv : SemanticVersion} {read : Str → Option Npm.Block}

/-- Admission by a range is satisfaction of its comparison. -/
theorem admitted_iff_sat (op : Operator) (t v : Version) :
    SemanticVersion.Admitted (CustomParser.range op t) v ↔
      (⟨op, t⟩ : Comparator).Sat v := by
  cases op with
  | eq =>
      have hkey : ∀ w : Version, v.withoutBuild = w.withoutBuild ↔ v.key = w.key := by
        intro w
        rw [Version.key_eq_iff]
        simp [Version.withoutBuild]
      simp only [SemanticVersion.Admitted, CustomParser.range, Comparator.Sat,
        Operator.Holds, true_implies]
      split_ifs with hbuild
      · have ht : t.withoutBuild = t := by
          rw [Version.withoutBuild, ← hbuild]
        rw [← hkey t, ht]
        simp [hbuild]
      · rw [hkey t]
        simp [hbuild]
  | lt => simp [SemanticVersion.Admitted, CustomParser.range, Comparator.Sat,
      Operator.Holds, Version.lt_def]
  | lte => simp [SemanticVersion.Admitted, CustomParser.range, Comparator.Sat,
      Operator.Holds, Version.le_def]
  | gt => simp [SemanticVersion.Admitted, CustomParser.range, Comparator.Sat,
      Operator.Holds, Version.lt_def]
  | gte => simp [SemanticVersion.Admitted, CustomParser.range, Comparator.Sat,
      Operator.Holds, Version.le_def]

theorem rangeMatch_iff_sat (hdoc : sv.Documented read) (op : Operator) (t v : Version) :
    sv.rangeMatch (CustomParser.range op t) v = true ↔
      (⟨op, t⟩ : Comparator).Sat v := by
  rw [hdoc.rangeMatch _ _ rfl, admitted_iff_sat]

/-- The ranges made from comparators match when the comparators hold. -/
theorem rangeMatch_map_iff (hdoc : sv.Documented read) (cs : List Comparator)
    (v : Version) :
    (∀ r ∈ cs.map (fun c => CustomParser.range c.operator c.target),
        sv.rangeMatch r v = true) ↔
      ∀ c ∈ cs, c.Sat v := by
  simp only [List.forall_mem_map, rangeMatch_iff_sat hdoc]

/-- What `parse_simple` returns matches the versions the block admits. -/
theorem parseSimple_match_iff (hdoc : sv.Documented read)
    {text : Str} {rs : List Range}
    (h : sv.parseSimple CustomParser.range text = some rs) (v : Version) :
    (∀ r ∈ rs, sv.rangeMatch r v = true) ↔
      ∃ b, read text = some b ∧ b.Admits id v := by
  rw [hdoc.parseSimple] at h
  obtain ⟨b, hb, h⟩ := Option.bind_eq_some_iff.mp h
  obtain ⟨cs, hcs, rfl⟩ := Option.map_eq_some_iff.mp h
  rw [rangeMatch_map_iff hdoc, Npm.Block.sat_comparators_iff hcs]
  simp [hb]

/-- A caret block keeps its lower bound and has its upper bound moved. -/
theorem caret_match_iff (hdoc : sv.Documented read)
    {text : Str} {rs : List Range}
    (h : sv.parseSimple CustomParser.range ('^' :: text) = some rs) (v : Version) :
    (∀ r ∈ rs.map CustomParser.caretClause, sv.rangeMatch r v = true) ↔
      ∃ b, read ('^' :: text) = some b ∧ b.Admits Version.earliest v := by
  rw [hdoc.parseSimple] at h
  obtain ⟨b, hb, h⟩ := Option.bind_eq_some_iff.mp h
  obtain ⟨cs, hcs, rfl⟩ := Option.map_eq_some_iff.mp h
  have hop := hdoc.caret _ _ hb
  obtain ⟨op, core⟩ := b
  obtain rfl : op = .caret := hop
  obtain ⟨M, m, p, hhigh⟩ := core.caretHigh_eq_release
  have hpre : core.caretHigh.prerelease = [] := by rw [hhigh]; rfl
  have hspan : (∀ r ∈ [CustomParser.range .gte core.low,
        CustomParser.range .lt core.caretHigh.earliest], sv.rangeMatch r v = true) ↔
      core.low ≤ v ∧ v < core.caretHigh.earliest := by
    have hbuild : core.caretHigh.earliest.build = [] := rfl
    have hs := Npm.Block.sat_span_iff core.low_build hbuild v
    rw [← hs]
    simp only [List.forall_mem_cons, rangeMatch_iff_sat hdoc]
    simp
  cases core with
  | any => simp [Npm.Block.comparators] at hcs
  | major | minor | full =>
      simp only [Npm.Block.comparators, Option.some.injEq] at hcs
      subst hcs
      simp only [List.map_cons, List.map_nil, CustomParser.caretClause,
        CustomParser.range, reduceCtorEq, false_and, if_false, true_and, hpre, if_true]
      rw [hb]
      simpa [Npm.Block.Admits, CustomParser.range] using hspan

/-- A parsed block matches the versions that satisfy the block. -/
theorem parseBlock_match_iff (hdoc : sv.Documented read)
    {block : Str} {rs : List Range}
    (h : CustomParser.parseBlock sv block = some rs) (v : Version) :
    (∀ r ∈ rs, sv.rangeMatch r v = true) ↔ BlockSat read block v := by
  unfold CustomParser.parseBlock at h
  split_ifs at h with hblock hcaret
  · obtain ⟨parsed, hparsed, rfl⟩ := Option.map_eq_some_iff.mp h
    obtain ⟨text, rfl⟩ := hcaret
    simpa [BlockSat] using caret_match_iff hdoc hparsed v
  · obtain ⟨parsed, hparsed, rfl⟩ := Option.map_eq_some_iff.mp h
    simpa [BlockSat, hcaret] using parseSimple_match_iff hdoc hparsed v

theorem parseBlocks_match_iff (hdoc : sv.Documented read) (v : Version) :
    ∀ {blocks : List Str} {rs : List Range},
      CustomParser.parseBlocks sv blocks = some rs →
        ((∀ r ∈ rs, sv.rangeMatch r v = true) ↔
          ∀ block ∈ blocks, BlockSat read block v)
  | [], rs, h => by
      simp only [CustomParser.parseBlocks, Option.some.injEq] at h
      simp [← h]
  | block :: blocks, rs, h => by
      simp only [CustomParser.parseBlocks, Option.bind_eq_bind, Option.pure_def,
        Option.bind_eq_some_iff, Option.some.injEq] at h
      obtain ⟨parsed, hparsed, rest, hrest, rfl⟩ := h
      rw [List.forall_mem_append, List.forall_mem_cons,
        parseBlock_match_iff hdoc hparsed, parseBlocks_match_iff hdoc v hrest]

/-- A block that starts with an operator other than a caret keeps its bound. -/
theorem blockSat_of_not_caret {c : Char} (hc : c ≠ '^') (text : Str) (v : Version) :
    BlockSat read (c :: text) v ↔
      ∃ b, read (c :: text) = some b ∧ b.Admits id v := by
  have h : ¬ ['^'] <+: c :: text := by
    simpa [List.cons_prefix_cons] using hc.symm
  simp [BlockSat, h]

/-- A parsed group matches the versions that satisfy all its blocks. -/
theorem parseGroup_match_iff (hdoc : sv.Documented read)
    {group : Str} {rs : List Range}
    (h : CustomParser.parseGroup sv group = some rs) (v : Version) :
    (∀ r ∈ rs, sv.rangeMatch r v = true) ↔ GroupSat read group v := by
  unfold CustomParser.parseGroup at h
  unfold GroupSat groupBlocks
  split_ifs at h ⊢ with hhyphen
  · split at h
    · rename_i low high hsplit
      simp only [Option.bind_eq_bind, Option.pure_def, Option.bind_eq_some_iff,
        Option.some.injEq] at h
      obtain ⟨lower, hlower, upper, hupper, rfl⟩ := h
      simp only [List.forall_mem_append, List.forall_mem_cons]
      rw [parseSimple_match_iff hdoc hlower, parseSimple_match_iff hdoc hupper,
        blockSat_of_not_caret (by decide), blockSat_of_not_caret (by decide)]
      simp
    · cases h
  · exact parseBlocks_match_iff hdoc v h

theorem parseGroups_match_iff (hdoc : sv.Documented read) (v : Version) :
    ∀ {rawGroups : List Str} {clause : List (List Range)},
      CustomParser.parseGroups sv rawGroups = some clause →
        ((∃ rs ∈ clause, ∀ r ∈ rs, sv.rangeMatch r v = true) ↔
          ∃ group ∈ rawGroups.map CustomParser.groupText, GroupSat read group v)
  | [], clause, h => by
      simp only [CustomParser.parseGroups, Option.some.injEq] at h
      simp [← h]
  | rawGroup :: rawGroups, clause, h => by
      simp only [CustomParser.parseGroups, Option.bind_eq_bind, Option.pure_def,
        Option.bind_eq_some_iff, Option.some.injEq] at h
      obtain ⟨clauses, hclauses, rest, hrest, rfl⟩ := h
      rw [List.map_cons, List.exists_mem_cons_iff, List.exists_mem_cons_iff,
        parseGroup_match_iff hdoc hclauses, parseGroups_match_iff hdoc v hrest]

/-- Membership in a range is satisfaction of one of its groups. -/
theorem contains_iff (hdoc : sv.Documented read)
    {expression : Str} {r : SemverRange}
    (h : SemverRange.ofExpression sv expression = some r) (v : Version) :
    r.contains sv v = true ↔
      ∃ group ∈ groups expression, GroupSat read group v := by
  obtain ⟨clause, hclause, rfl⟩ := Option.map_eq_some_iff.mp h
  have hgroups := parseGroups_match_iff hdoc v hclause
  simpa [SemverRange.contains, groups] using hgroups

/-- The versions that satisfy a group without build metadata are convex. -/
theorem groupSat_ordConnected {group : Str} (h : GroupWithoutBuild read group) :
    Set.OrdConnected {v | GroupSat read group v} := by
  refine ⟨fun u hu w hw v hv => ?_⟩
  intro block hblock
  obtain ⟨b, hb, hub⟩ := hu block hblock
  obtain ⟨b', hb', hwb⟩ := hw block hblock
  obtain rfl : b = b' := by
    rw [hb] at hb'
    exact Option.some.inj hb'
  have hconvex := Npm.Block.admits_ordConnected (h block hblock b hb)
    (if ['^'] <+: block then Version.earliest else id)
  exact ⟨b, hb, hconvex.out hub hwb hv⟩

end Matching

/-- Reading of the two blocks of `^1.2.3 || >=3.0.0`. -/
def exampleRead (text : Str) : Option Npm.Block :=
  if text = "^1.2.3".toList then some ⟨.caret, .full (.release 1 2 3)⟩
  else if text = ">=3.0.0".toList then some ⟨.compare .gte, .full (.release 3 0 0)⟩
  else none

theorem exampleRead_caret (text : Str) (b : Npm.Block)
    (h : exampleRead ('^' :: text) = some b) : b.op = .caret := by
  unfold exampleRead at h
  split_ifs at h with h₁ h₂
  · simp only [Option.some.injEq] at h
    rw [← h]
  · simp at h₂

end Manifest
end SystemTests
