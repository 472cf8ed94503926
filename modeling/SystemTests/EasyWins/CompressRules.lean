import SystemTests.EasyWins.EditLocation
import SystemTests.EasyWins.Serialization
import SystemTests.Foundation.SetOrder

/-!
# New rules (`ManifestEditor.build_new_rules`, `compress_rules`)

The rules that stay deactivated are added with the views they come from, one for
each context.  They become one condition for each context, and conditions that
differ in the weblog only are put together again.

**Results.**
* `groupConditions_spec`, `groupRules_spec`: the groups of the conditions.
* `compressGroup_spec`: a group becomes one condition.
* `compressRules_spec`: what applies to a weblog under a rule stays the same.
-/

namespace SystemTests
namespace EasyWins

open Foundation Foundation.Text Foundation.Semver Manifest
open Foundation.Regex (CharTable)

section NewRules

/-- The pairs a rule was added with, in the order they were added. -/
abbrev AddedRules := Dict Str (List (View × Context))

def addRule (parent : View) (context : Context) (added : AddedRules) (rule : Str) : AddedRules :=
  added.set rule ((added.get? rule).getD [] ++ [(parent, context)])

/-- `ManifestEditor.add_rules` -/
def addRules (context : Context) (added : AddedRules) (rules : List Str) (parent : View) :
    AddedRules :=
  if parent.condition.excludedComponentVersion.isSome then added
  else rules.foldl (addRule parent context) added

/-- `ManifestEditor.specialize` -/
def specialize (condition : Condition) (context : Context) : Condition :=
  { condition with excludedWeblog := none, weblog := some [context.variant] }

/-- The conditions of an added rule; a rule without any is left out. -/
def newConditionsOf (order : SetOrder (View × Context)) (skippedViews : List View)
    (sources : List (View × Context)) : Option (List Condition) :=
  match (order.elements sources).filter fun source => source.1 ∉ skippedViews with
  | [] => none
  | kept => some (kept.map fun source => specialize source.1.condition source.2)

/-- `ManifestEditor.build_new_rules` -/
def buildNewRules (order : SetOrder (View × Context)) (skippedViews : List View)
    (added : AddedRules) : Dict Str (List Condition) :=
  added.filterMapValues fun _ sources => newConditionsOf order skippedViews sources

end NewRules

section Compress

/-- The fields of a condition with their texts. -/
structure ConditionKey where
  component : Str
  componentVersion : Option Str
  declaration : Str
  excludedComponentVersion : Option Str
  excludedWeblog : Option (List Str)
  weblog : Option (List Str)
deriving DecidableEq

/-- `ManifestEditor.condition_key` -/
def conditionKey (condition : Condition) : ConditionKey where
  component := condition.component
  componentVersion := condition.componentVersion.map SemverRange.expression
  declaration := condition.declaration.str
  excludedComponentVersion := condition.excludedComponentVersion.map SemverRange.expression
  excludedWeblog := condition.excludedWeblog
  weblog := condition.weblog

/-- `ManifestEditor.component_weblogs` -/
def componentWeblogs (weblogs : Dict Str (Finset Str)) (data : ManifestData) (component : Str) :
    Finset Str :=
  (weblogs.get? component).getD ∅ ∪
    ((data.values.flatten.filter (·.component = component)).flatMap fun condition =>
      condition.weblog.getD [] ++ condition.excludedWeblog.getD []).toFinset

/-- The weblogs of a key, as a set in the order they were met. -/
abbrev Groups := Dict ConditionKey (List Str)

def withoutWeblog (condition : Condition) : Condition := { condition with weblog := none }

/-- The body of the loop over the conditions. -/
def groupCondition (acc : Groups × Dict ConditionKey Condition) (condition : Condition) :
    Except Raised (Groups × Dict ConditionKey Condition) :=
  match condition.weblog with
  | none => throw (.keyError "weblog")
  | some weblogs =>
      let nonVarCondition := withoutWeblog condition
      let key := conditionKey nonVarCondition
      return (acc.1.set key ((acc.1.get? key).getD [] ++ weblogs), acc.2.set key nonVarCondition)

/-- The body of the loop over the rules; the conditions by their keys are shared by all rules. -/
def groupRule (acc : Dict Str Groups × Dict ConditionKey Condition)
    (rule : Str × List Condition) :
    Except Raised (Dict Str Groups × Dict ConditionKey Condition) := do
  let (groups, nonVarConditions) ← rule.2.foldlM groupCondition (.empty, acc.2)
  return (acc.1.set rule.1 groups, nonVarConditions)

variable (order : SetOrder Str) (weblogs : Dict Str (Finset Str)) (data : ManifestData)

def isParametric (weblog : Str) : Bool := decide ("parametric-".toList <:+: weblog)

/-- The condition of a key and its weblogs. -/
def compressGroup (nonVarConditions : Dict ConditionKey Condition)
    (group : ConditionKey × List Str) : Except Raised Condition := do
  let condition ← Raised.ofOption (.keyError "condition_key") (nonVarConditions.get? group.1)
  if group.2.toFinset = componentWeblogs weblogs data condition.component then return condition
  else
    match order.elements group.2 with
    | [] => throw .stopIteration
    | weblog :: rest =>
        if isParametric weblog then return condition
        else return { condition with weblog := some (weblog :: rest) }

/-- `ManifestEditor.compress_rules` -/
def compressRules (rules : Dict Str (List Condition)) :
    Except Raised (Dict Str (List Condition)) := do
  let (compressed, nonVarConditions) ← rules.items.foldlM groupRule (.empty, .empty)
  compressed.mapValuesM fun _ groups =>
    groups.items.mapM (compressGroup order weblogs data nonVarConditions)

end Compress

section Grouping

def keyOf (condition : Condition) : ConditionKey := conditionKey (withoutWeblog condition)

/-- The groups of some conditions: their keys, each with all weblogs. -/
structure Grouped (conditions : List Condition) (groups : Groups) : Prop where
  isSome_iff : ∀ key, (groups.get? key).isSome = true ↔ ∃ c ∈ conditions, keyOf c = key
  mem_iff : ∀ key weblogs, groups.get? key = some weblogs → ∀ weblog, weblog ∈ weblogs ↔
    ∃ c ∈ conditions, keyOf c = key ∧ weblog ∈ c.weblog.getD []

/-- The conditions by their keys. -/
structure Keyed (conditions : List Condition) (nonVar : Dict ConditionKey Condition) : Prop where
  complete : ∀ c ∈ conditions, (nonVar.get? (keyOf c)).isSome = true
  sound : ∀ key c, nonVar.get? key = some c →
    ∃ c' ∈ conditions, keyOf c' = key ∧ c = withoutWeblog c'

theorem Grouped.concat {conditions : List Condition} {groups : Groups}
    (h : Grouped conditions groups) {condition : Condition} {weblogs : List Str}
    (hweblogs : condition.weblog = some weblogs) :
    Grouped (conditions ++ [condition]) (groups.set (keyOf condition)
      ((groups.get? (keyOf condition)).getD [] ++ weblogs)) where
  isSome_iff := by
    intro key
    rw [Dict.get?_set]
    simp only [List.mem_append, List.mem_singleton, or_and_right, exists_or, exists_eq_left]
    split_ifs with hkey
    · exact iff_of_true rfl (Or.inr hkey.symm)
    · rw [h.isSome_iff, or_iff_left (Ne.symm hkey)]
  mem_iff := by
    intro key ws hget weblog
    rw [Dict.get?_set] at hget
    simp only [List.mem_append, List.mem_singleton, or_and_right, exists_or, exists_eq_left]
    split_ifs at hget with hkey
    · subst hkey
      rw [Option.some.injEq] at hget
      rw [← hget, List.mem_append, hweblogs, Option.getD_some]
      refine or_congr ?_ (by simp)
      cases hgroup : groups.get? (keyOf condition) with
      | some ws' => exact h.mem_iff _ ws' hgroup weblog
      | none =>
          have hno : ¬ ∃ c ∈ conditions, keyOf c = keyOf condition := by
            rw [← h.isSome_iff, hgroup]
            simp
          constructor
          · intro hmem
            exact absurd hmem List.not_mem_nil
          · rintro ⟨c, hc, hkey, -⟩
            exact absurd ⟨c, hc, hkey⟩ hno
    · rw [h.mem_iff key ws hget, or_iff_left]
      rintro ⟨hkey', -⟩
      exact hkey hkey'.symm

theorem Keyed.concat {conditions : List Condition} {nonVar : Dict ConditionKey Condition}
    (h : Keyed conditions nonVar) (condition : Condition) :
    Keyed (conditions ++ [condition]) (nonVar.set (keyOf condition) (withoutWeblog condition)) where
  complete := by
    intro c hc
    rw [Dict.get?_set]
    split_ifs with hkey
    · rfl
    · rcases List.mem_append.mp hc with hc | hc
      · exact h.complete c hc
      · rw [List.mem_singleton.mp hc] at hkey
        exact absurd rfl hkey
  sound := by
    intro key c hget
    rw [Dict.get?_set] at hget
    split_ifs at hget with hkey
    · rw [Option.some.injEq] at hget
      exact ⟨condition, by simp, hkey.symm, hget.symm⟩
    · obtain ⟨c', hc', hkey', heq⟩ := h.sound key c hget
      exact ⟨c', List.mem_append_left _ hc', hkey', heq⟩

/-- **The groups of one rule.** -/
theorem groupConditions_spec {seen conditions : List Condition}
    {nonVar : Dict ConditionKey Condition} (hseen : Keyed seen nonVar)
    (hweblog : ∀ c ∈ conditions, c.weblog.isSome = true) :
    ∃ groups nonVar', conditions.foldlM groupCondition (.empty, nonVar) = .ok (groups, nonVar') ∧
      Grouped conditions groups ∧ Keyed (seen ++ conditions) nonVar' := by
  induction conditions using List.reverseRecOn with
  | nil =>
      refine ⟨.empty, nonVar, rfl, ⟨by simp, by simp⟩, ?_⟩
      rwa [List.append_nil]
  | append_singleton conditions condition ih =>
      obtain ⟨groups, nonVar', hfold, hgrouped, hkeyed⟩ :=
        ih fun c hc => hweblog c (List.mem_append_left _ hc)
      obtain ⟨weblogs, hweblogs⟩ := Option.isSome_iff_exists.mp (hweblog condition (by simp))
      refine ⟨_, nonVar'.set (keyOf condition) (withoutWeblog condition), ?_,
        hgrouped.concat hweblogs, ?_⟩
      · rw [List.foldlM_append, hfold, Raised.ok_bind, List.foldlM_cons, groupCondition, hweblogs]
        rfl
      · rw [← List.append_assoc]
        exact hkeyed.concat condition

/-- **The groups of all rules.** -/
theorem groupRules_spec {items : List (Str × List Condition)}
    (hnodup : (items.map Prod.fst).Nodup)
    (hweblog : ∀ item ∈ items, ∀ c ∈ item.2, c.weblog.isSome = true) :
    ∃ compressed nonVar, items.foldlM groupRule (.empty, .empty) = .ok (compressed, nonVar) ∧
      (∀ rule, rule ∉ items.map Prod.fst → compressed.get? rule = none) ∧
      (∀ item ∈ items, ∃ groups, compressed.get? item.1 = some groups ∧ Grouped item.2 groups) ∧
      Keyed (items.flatMap Prod.snd) nonVar := by
  induction items using List.reverseRecOn with
  | nil => exact ⟨.empty, .empty, rfl, by simp, by simp, by simp, by simp⟩
  | append_singleton items item ih =>
      rw [List.map_append, List.nodup_append] at hnodup
      have hnew : ∀ other ∈ items, other.1 ≠ item.1 := fun other hother =>
        hnodup.2.2 other.1 (List.mem_map_of_mem hother) item.1 (by simp)
      obtain ⟨compressed, nonVar, hfold, hmissing, hgroups, hkeyed⟩ :=
        ih hnodup.1 fun other hother => hweblog other (List.mem_append_left _ hother)
      obtain ⟨groups, nonVar', hfold', hgrouped, hkeyed'⟩ :=
        groupConditions_spec hkeyed (hweblog item (by simp))
      refine ⟨compressed.set item.1 groups, nonVar', ?_, ?_, ?_, ?_⟩
      · rw [List.foldlM_append, hfold, Raised.ok_bind, List.foldlM_cons, groupRule, hfold']
        rfl
      · intro rule hrule
        rw [List.map_append, List.mem_append, not_or] at hrule
        rw [Dict.get?_set_ne _ _ (by simpa using hrule.2)]
        exact hmissing rule hrule.1
      · intro other hother
        rcases List.mem_append.mp hother with hother | hother
        · obtain ⟨groups', hget, hgrouped'⟩ := hgroups other hother
          exact ⟨groups', by rw [Dict.get?_set_ne _ _ (hnew other hother), hget], hgrouped'⟩
        · rw [List.mem_singleton.mp hother]
          exact ⟨groups, Dict.get?_set_self _ _ _, hgrouped⟩
      · rw [List.flatMap_append, List.flatMap_singleton]
        exact hkeyed'

end Grouping

section Meaning

variable {sv : SemanticVersion}

/-- The version fields are what their expressions are parsed as. -/
def RangesParsed (sv : SemanticVersion) (condition : Condition) : Prop :=
  (∀ r, condition.componentVersion = some r →
      SemverRange.ofExpression sv r.expression = some r) ∧
    ∀ r, condition.excludedComponentVersion = some r →
      SemverRange.ofExpression sv r.expression = some r

/-- A condition that `specialize` makes. -/
structure Specialized (sv : SemanticVersion) (condition : Condition) : Prop where
  weblog : ∃ variant, condition.weblog = some [variant]
  excludedWeblog : condition.excludedWeblog = none
  ranges : RangesParsed sv condition

/-- What a condition says besides the weblogs: its kind and its version fields. -/
structure Statement where
  declaration : Str
  componentVersion : Option SemverRange
  excludedComponentVersion : Option SemverRange

def statementOf (condition : Condition) : Statement where
  declaration := condition.declaration.str
  componentVersion := condition.componentVersion
  excludedComponentVersion := condition.excludedComponentVersion

def AppliesTo (condition : Condition) (component weblog : Str) : Prop :=
  condition.component = component ∧ weblogListed condition.weblog (some weblog) = true ∧
    weblogNotListed condition.excludedWeblog (some weblog) = true

/-- What applies to a weblog of a component under a rule. -/
def statementsFor (rules : Dict Str (List Condition)) (rule component weblog : Str) :
    Set Statement :=
  { s | ∃ c ∈ (rules.get? rule).getD [], AppliesTo c component weblog ∧ statementOf c = s }

theorem range_eq_of_expression {field field' : Option SemverRange}
    (h : ∀ r, field = some r → SemverRange.ofExpression sv r.expression = some r)
    (h' : ∀ r, field' = some r → SemverRange.ofExpression sv r.expression = some r)
    (heq : field.map SemverRange.expression = field'.map SemverRange.expression) :
    field = field' := by
  cases field with
  | none =>
      cases field' with
      | none => rfl
      | some r' => cases heq
  | some r =>
      cases field' with
      | none => cases heq
      | some r' =>
          have hexpression : r.expression = r'.expression := Option.some.inj heq
          rw [← h r rfl, ← h' r' rfl, hexpression]

/-- **Distinct conditions have distinct keys.** -/
theorem statement_eq_of_keyOf_eq {c c' : Condition} (h : RangesParsed sv c)
    (h' : RangesParsed sv c') (hkey : keyOf c = keyOf c') :
    c.component = c'.component ∧ statementOf c = statementOf c' := by
  simp only [keyOf, conditionKey, withoutWeblog, ConditionKey.mk.injEq] at hkey
  obtain ⟨hcomponent, hversion, hdeclaration, hexcluded, -⟩ := hkey
  refine ⟨hcomponent, ?_⟩
  rw [statementOf, statementOf, hdeclaration,
    range_eq_of_expression h.1 h'.1 hversion, range_eq_of_expression h.2 h'.2 hexcluded]

theorem weblogListed_iff {weblogs : List Str} (hne : weblogs ≠ []) {weblog : Str} :
    weblogListed (some weblogs) (some weblog) = true ↔ weblog = [] ∨ weblog ∈ weblogs := by
  obtain ⟨w, ws, rfl⟩ := List.exists_cons_of_ne_nil hne
  cases weblog with
  | nil => simp [weblogListed]
  | cons c s => simp [weblogListed]

theorem appliesTo_iff {c : Condition} (hexcluded : c.excludedWeblog = none) {ws : List Str}
    (hne : ws ≠ []) (hws : c.weblog = some ws) {component weblog : Str} :
    AppliesTo c component weblog ↔ c.component = component ∧ (weblog = [] ∨ weblog ∈ ws) := by
  rw [AppliesTo, hws, hexcluded, weblogListed_iff hne]
  simp [weblogNotListed]

theorem appliesTo_of_unrestricted {c : Condition} (hexcluded : c.excludedWeblog = none)
    (hweblog : c.weblog = none) {component weblog : Str} :
    AppliesTo c component weblog ↔ c.component = component := by
  rw [AppliesTo, hweblog, hexcluded]
  simp [weblogListed, weblogNotListed]

end Meaning

section Preservation

variable {sv : SemanticVersion} {order order' : SetOrder Str} {weblogs : Dict Str (Finset Str)}
variable {data : ManifestData} {seen conditions : List Condition}
variable {nonVar : Dict ConditionKey Condition} {groups : Groups}

def NotParametric (conditions : List Condition) : Prop :=
  ∀ c ∈ conditions, ∀ weblog ∈ c.weblog.getD [], isParametric weblog = false

/-- What a group is compressed to: its condition, without weblogs when it has all weblogs. -/
structure CompressedTo (order : SetOrder Str) (weblogs : Dict Str (Finset Str))
    (data : ManifestData) (nonVar : Dict ConditionKey Condition)
    (group : ConditionKey × List Str) (c : Condition) : Prop where
  condition : nonVar.get? group.1 = some (withoutWeblog c)
  weblog : (c.weblog = none ∧ group.2.toFinset = componentWeblogs weblogs data c.component) ∨
    (c.weblog = some (order.elements group.2) ∧ order.elements group.2 ≠ [] ∧
      group.2.toFinset ≠ componentWeblogs weblogs data c.component)

variable (order weblogs data) in
/-- **A group becomes one condition.** -/
theorem compressGroup_spec (hkeyed : Keyed seen nonVar) (hsub : ∀ c ∈ conditions, c ∈ seen)
    (hspecialized : ∀ c ∈ conditions, Specialized sv c) (hparametric : NotParametric conditions)
    (hgrouped : Grouped conditions groups) {group : ConditionKey × List Str}
    (hgroup : group ∈ groups.items) :
    ∃ c, compressGroup order weblogs data nonVar group = .ok c ∧
      CompressedTo order weblogs data nonVar group c := by
  have hget := (Dict.mem_items_iff _ _ _).mp hgroup
  obtain ⟨c₀, hc₀, hkey₀⟩ := (hgrouped.isSome_iff group.1).mp (by rw [hget]; rfl)
  have hfound := hkeyed.complete c₀ (hsub c₀ hc₀)
  rw [hkey₀] at hfound
  obtain ⟨c, hc⟩ := Option.isSome_iff_exists.mp hfound
  obtain ⟨c', hc', hkey, rfl⟩ := hkeyed.sound group.1 c hc
  have hmem : ∀ weblog, weblog ∈ order.elements group.2 ↔
      ∃ c ∈ conditions, keyOf c = group.1 ∧ weblog ∈ c.weblog.getD [] := fun weblog =>
    (order.mem_iff _ _).trans (hgrouped.mem_iff group.1 group.2 hget weblog)
  rw [compressGroup, hc, Raised.ofOption_some, Raised.ok_bind]
  split_ifs with hall
  · exact ⟨_, rfl, hc, Or.inl ⟨rfl, hall⟩⟩
  · obtain ⟨variant, hvariant⟩ := (hspecialized c₀ hc₀).weblog
    have hin : variant ∈ order.elements group.2 :=
      (hmem variant).mpr ⟨c₀, hc₀, hkey₀, by rw [hvariant]; simp⟩
    cases helements : order.elements group.2 with
    | nil =>
        rw [helements] at hin
        exact absurd hin List.not_mem_nil
    | cons weblog rest =>
        obtain ⟨c₁, hc₁, -, hweblog⟩ := (hmem weblog).mp (by rw [helements]; simp)
        have hplain := hparametric c₁ hc₁ weblog hweblog
        refine ⟨{ withoutWeblog c' with weblog := some (weblog :: rest) }, ?_, hc,
          Or.inr ⟨helements ▸ rfl, helements ▸ List.cons_ne_nil _ _, hall⟩⟩
        simp only [hplain]
        rfl

/-- What a compressed condition applies to is what some condition of its group applies to. -/
theorem appliesTo_compressed_iff (hspecialized : ∀ c ∈ conditions, Specialized sv c)
    (hseen : ∀ c ∈ seen, Specialized sv c) (hgrouped : Grouped conditions groups)
    (hkeyed : Keyed seen nonVar) {group : ConditionKey × List Str} (hgroup : group ∈ groups.items)
    {c : Condition} (hc : CompressedTo order weblogs data nonVar group c) {component weblog : Str} (hknown : weblog ∈ componentWeblogs weblogs data component) :
    (∀ c' ∈ conditions, keyOf c' = group.1 → statementOf c' = statementOf c) ∧
      (AppliesTo c component weblog ↔
        ∃ c' ∈ conditions, keyOf c' = group.1 ∧ AppliesTo c' component weblog) := by
  have hget := (Dict.mem_items_iff _ _ _).mp hgroup
  obtain ⟨c₀, hc₀, hkey₀⟩ := (hgrouped.isSome_iff group.1).mp (by rw [hget]; rfl)
  obtain ⟨c₁, hc₁, hkey₁, hsame⟩ := hkeyed.sound group.1 _ hc.condition
  simp only [withoutWeblog, Condition.mk.injEq] at hsame
  obtain ⟨hcomponent, hdeclaration, hversion, hexcluded, -, hexcludedWeblog⟩ := hsame
  rw [(hseen c₁ hc₁).excludedWeblog] at hexcludedWeblog
  have hstatement : ∀ c' ∈ conditions, keyOf c' = group.1 →
      c'.component = c.component ∧ statementOf c' = statementOf c := by
    intro c' hc' hkey
    obtain ⟨hcomponent', hstatement⟩ := statement_eq_of_keyOf_eq (hspecialized c' hc').ranges
      (hseen c₁ hc₁).ranges (hkey.trans hkey₁.symm)
    rw [hcomponent', hstatement, statementOf, statementOf, hcomponent, hdeclaration, hversion,
      hexcluded]
    exact ⟨rfl, rfl⟩
  have happlies : ∀ c' ∈ conditions, keyOf c' = group.1 → (AppliesTo c' component weblog ↔
      c.component = component ∧ (weblog = [] ∨ weblog ∈ c'.weblog.getD [])) := by
    intro c' hc' hkey
    obtain ⟨variant, hvariant⟩ := (hspecialized c' hc').weblog
    rw [appliesTo_iff (hspecialized c' hc').excludedWeblog (List.cons_ne_nil _ _) hvariant,
      (hstatement c' hc' hkey).1, hvariant, Option.getD_some]
  have hgroupApplies : (∃ c' ∈ conditions, keyOf c' = group.1 ∧ AppliesTo c' component weblog) ↔
      c.component = component ∧ (weblog = [] ∨ weblog ∈ group.2) := by
    constructor
    · rintro ⟨c', hc', hkey, h⟩
      obtain ⟨hcomp, hw⟩ := (happlies c' hc' hkey).mp h
      refine ⟨hcomp, hw.imp_right fun hw => ?_⟩
      exact (hgrouped.mem_iff group.1 group.2 hget weblog).mpr ⟨c', hc', hkey, hw⟩
    · rintro ⟨hcomp, hnil | hw⟩
      · exact ⟨c₀, hc₀, hkey₀, (happlies c₀ hc₀ hkey₀).mpr ⟨hcomp, Or.inl hnil⟩⟩
      · obtain ⟨c', hc', hkey, hw⟩ := (hgrouped.mem_iff group.1 group.2 hget weblog).mp hw
        exact ⟨c', hc', hkey, (happlies c' hc' hkey).mpr ⟨hcomp, Or.inr hw⟩⟩
  refine ⟨fun c' hc' hkey => (hstatement c' hc' hkey).2, ?_⟩
  rw [hgroupApplies]
  rcases hc.weblog with ⟨hnone, hall⟩ | ⟨hsome, hne, -⟩
  · rw [appliesTo_of_unrestricted hexcludedWeblog hnone]
    constructor
    · rintro rfl
      rw [← hall, List.mem_toFinset] at hknown
      exact ⟨rfl, Or.inr hknown⟩
    · exact And.left
  · rw [appliesTo_iff hexcludedWeblog hne hsome, order.mem_iff]

/-- What is known of the two loops of `compress_rules` for the rules that are compressed. -/
theorem exists_groups {rules : Dict Str (List Condition)}
    (hspecialized : ∀ item ∈ rules.items, ∀ c ∈ item.2, Specialized sv c) :
    ∃ compressed nonVar, rules.items.foldlM groupRule (.empty, .empty) =
        .ok (compressed, nonVar) ∧
      Keyed (rules.items.flatMap Prod.snd) nonVar ∧
      ∀ rule, (rules.get? rule = none ∧ compressed.get? rule = none) ∨
        ∃ conditions groups, rules.get? rule = some conditions ∧
          compressed.get? rule = some groups ∧ Grouped conditions groups := by
  obtain ⟨compressed, nonVar, hfold, hmissing, hgroups, hkeyed⟩ :=
    groupRules_spec rules.nodup fun item hitem c hc => by
      obtain ⟨variant, hvariant⟩ := (hspecialized item hitem c hc).weblog
      rw [hvariant]
      rfl
  refine ⟨compressed, nonVar, hfold, hkeyed, fun rule => ?_⟩
  cases hrule : rules.get? rule with
  | none => exact Or.inl ⟨rfl, hmissing rule ((Dict.get?_eq_none_iff rules rule).mp hrule)⟩
  | some conditions =>
      obtain ⟨groups, hget, hgrouped⟩ :=
        hgroups (rule, conditions) ((Dict.mem_items_iff _ _ _).mpr hrule)
      exact Or.inr ⟨conditions, groups, rfl, hget, hgrouped⟩

/-- Equal conditions up to the order of their weblogs. -/
def Reordered (c c' : Condition) : Prop :=
  withoutWeblog c = withoutWeblog c' ∧
    ((c.weblog = none ∧ c'.weblog = none) ∨
      ∃ ws ws', c.weblog = some ws ∧ c'.weblog = some ws' ∧ ws.Perm ws')

theorem CompressedTo.reordered {group : ConditionKey × List Str} {c c' : Condition}
    (h : CompressedTo order weblogs data nonVar group c)
    (h' : CompressedTo order' weblogs data nonVar group c') : Reordered c c' := by
  have hsame : withoutWeblog c = withoutWeblog c' :=
    Option.some.inj (h.condition.symm.trans h'.condition)
  have hcomponent : (withoutWeblog c).component = (withoutWeblog c').component := by rw [hsame]
  replace hcomponent : c.component = c'.component := hcomponent
  have hweblog := h.weblog
  rw [hcomponent] at hweblog
  refine ⟨hsame, ?_⟩
  rcases hweblog with ⟨hnone, hall⟩ | ⟨hsome, -, hnot⟩
  · rcases h'.weblog with ⟨hnone', -⟩ | ⟨-, -, hnot'⟩
    · exact Or.inl ⟨hnone, hnone'⟩
    · exact absurd hall hnot'
  · rcases h'.weblog with ⟨-, hall'⟩ | ⟨hsome', -, -⟩
    · exact absurd hall' hnot
    · exact Or.inr ⟨_, _, hsome, hsome', order.perm order' group.2⟩

theorem forall₂_of_common {α β γ : Type} {R : α → β → Prop} {S : α → γ → Prop} {T : β → γ → Prop}
    {l : List α} {bs : List β} {cs : List γ} (hbs : List.Forall₂ R l bs)
    (hcs : List.Forall₂ S l cs) (h : ∀ a ∈ l, ∀ b c, R a b → S a c → T b c) :
    List.Forall₂ T bs cs := by
  induction hbs generalizing cs with
  | nil =>
      cases hcs
      exact .nil
  | @cons a b l bs hab _ ih =>
      cases hcs with
      | cons hac hcs =>
          rw [List.forall_mem_cons] at h
          exact .cons (h.1 b _ hab hac) (ih hcs h.2)

/-- **One rule** is compressed without a change of its meaning, in any order. -/
theorem compressGroups_spec (hkeyed : Keyed seen nonVar) (hsub : ∀ c ∈ conditions, c ∈ seen)
    (hseen : ∀ c ∈ seen, Specialized sv c) (hparametric : NotParametric conditions)
    (hgrouped : Grouped conditions groups) :
    ∃ cs cs', groups.items.mapM (compressGroup order weblogs data nonVar) = .ok cs ∧
      groups.items.mapM (compressGroup order' weblogs data nonVar) = .ok cs' ∧
      List.Forall₂ Reordered cs cs' ∧
      ∀ component weblog, weblog ∈ componentWeblogs weblogs data component → ∀ s,
        (∃ c ∈ cs, AppliesTo c component weblog ∧ statementOf c = s) ↔
          ∃ c ∈ conditions, AppliesTo c component weblog ∧ statementOf c = s := by
  have hspecialized : ∀ c ∈ conditions, Specialized sv c := fun c hc => hseen c (hsub c hc)
  have hgroup : ∀ order : SetOrder Str, ∀ group ∈ groups.items, ∃ c,
      compressGroup order weblogs data nonVar group = .ok c ∧
        CompressedTo order weblogs data nonVar group c := fun order group hmem =>
    compressGroup_spec order weblogs data hkeyed hsub hspecialized hparametric hgrouped hmem
  have hcompressed : ∀ order : SetOrder Str, ∀ group ∈ groups.items, ∀ c,
      compressGroup order weblogs data nonVar group = .ok c →
        CompressedTo order weblogs data nonVar group c := by
    intro order group hmem c hok
    obtain ⟨c', hok', hc'⟩ := hgroup order group hmem
    rw [hok, Except.ok.injEq] at hok'
    rwa [hok']
  obtain ⟨cs, hcs⟩ := Raised.exists_mapM_eq_ok fun group hmem =>
    (hgroup order group hmem).imp fun _ h => h.1
  obtain ⟨cs', hcs'⟩ := Raised.exists_mapM_eq_ok fun group hmem =>
    (hgroup order' group hmem).imp fun _ h => h.1
  refine ⟨cs, cs', hcs, hcs', ?_, ?_⟩
  · refine forall₂_of_common (Raised.mapM_eq_ok_iff.mp hcs) (Raised.mapM_eq_ok_iff.mp hcs') ?_
    intro group hmem c c' hok hok'
    exact (hcompressed order group hmem c hok).reordered (hcompressed order' group hmem c' hok')
  · intro component weblog hknown s
    constructor
    · rintro ⟨c, hc, happlies, rfl⟩
      obtain ⟨group, hmem, hok⟩ := Raised.exists_of_mem_mapM hcs hc
      obtain ⟨hstatement, hiff⟩ := appliesTo_compressed_iff hspecialized hseen hgrouped hkeyed hmem
        (hcompressed order group hmem c hok) hknown
      obtain ⟨c', hc', hkey, happlies'⟩ := hiff.mp happlies
      exact ⟨c', hc', happlies', hstatement c' hc' hkey⟩
    · rintro ⟨c', hc', happlies, rfl⟩
      obtain ⟨ws, hws⟩ := Option.isSome_iff_exists.mp
        ((hgrouped.isSome_iff (keyOf c')).mpr ⟨c', hc', rfl⟩)
      have hmem := (Dict.mem_items_iff _ _ _).mpr hws
      obtain ⟨c, hc, hok⟩ := Raised.mem_mapM_of_mem hcs hmem
      obtain ⟨hstatement, hiff⟩ := appliesTo_compressed_iff hspecialized hseen hgrouped hkeyed hmem
        (hcompressed order _ hmem c hok) hknown
      exact ⟨c, hc, hiff.mpr ⟨c', hc', rfl, happlies⟩, (hstatement c' hc' rfl).symm⟩

end Preservation

section Editor

variable {sv : SemanticVersion} {table : CharTable} {files : ManifestFiles}
variable (order order' : SetOrder Str) {sourceOrder : SetOrder (View × Context)}
variable {weblogs : Dict Str (Finset Str)} {data : ManifestData} {skippedViews : List View}
variable {added : AddedRules}

/-- The views that rules were added with are views of parsed conditions. -/
def Sourced (data : ManifestData) (added : AddedRules) : Prop :=
  ∀ rule sources, added.get? rule = some sources → ∀ source ∈ sources,
    source.1.condition ∈ conditionsOf data source.1.rule

theorem sourced_empty : Sourced data .empty := by
  intro rule sources h
  cases h

theorem Sourced.addRule (h : Sourced data added) {parent : View}
    (hparent : parent.condition ∈ conditionsOf data parent.rule) (context : Context) (rule : Str) :
    Sourced data (addRule parent context added rule) := by
  intro rule' sources hget source hsource
  rw [EasyWins.addRule, Dict.get?_set] at hget
  split_ifs at hget with hrule
  · rw [Option.some.injEq] at hget
    rw [← hget, List.mem_append, List.mem_singleton] at hsource
    rcases hsource with hsource | rfl
    · cases hold : added.get? rule with
      | none =>
          rw [hold] at hsource
          exact absurd hsource List.not_mem_nil
      | some old =>
          rw [hold] at hsource
          exact h rule old hold source hsource
    · exact hparent
  · exact h rule' sources hget source hsource

/-- **Whatever rules are added**, with views of parsed conditions. -/
theorem Sourced.addRules (h : Sourced data added) {parent : View}
    (hparent : parent.condition ∈ conditionsOf data parent.rule) (context : Context)
    (rules : List Str) : Sourced data (addRules context added rules parent) := by
  unfold EasyWins.addRules
  split_ifs
  · exact h
  · induction rules generalizing added with
    | nil => exact h
    | cons rule rules ih => exact ih (h.addRule hparent context rule)

theorem ofExpression_of_declaredRange {r : SemverRange} (h : DeclaredRange sv table r) :
    SemverRange.ofExpression sv r.expression = some r := by
  obtain ⟨raw, component, decl, hparse, hr⟩ := h
  obtain ⟨-, -, hrange⟩ := Declaration.range_of_parseDeclaration hparse hr
  split_ifs at hrange
  · obtain ⟨cv, -, hrange⟩ := hrange
    rwa [expression_of_ofExpression hrange]
  · rwa [expression_of_ofExpression hrange]

theorem parsedCondition_of_load (htable : table.Documented) (hload : load sv table files = .ok data)
    {rule : Str} {c : Condition} (hc : c ∈ conditionsOf data rule) : ParsedCondition sv table c := by
  rw [conditionsOf_load hload, List.mem_flatMap] at hc
  obtain ⟨component, hcomponent, hc⟩ := hc
  rcases conditionsOf_parsedFile rule (loadFile_of_load hload hcomponent) with hnil | ⟨_, value, -, -, hvalue⟩
  · rw [hnil] at hc
    exact absurd hc List.not_mem_nil
  · exact parsedCondition_of_loadValue htable hvalue c hc

/-- **The new rules** consist of specialized conditions. -/
theorem specialized_of_buildNewRules (htable : table.Documented)
    (hload : load sv table files = .ok data) (hadded : Sourced data added)
    {rule : Str} {conditions : List Condition}
    (hget : (buildNewRules sourceOrder skippedViews added).get? rule = some conditions) :
    ∀ c ∈ conditions, Specialized sv c := by
  rw [buildNewRules, Dict.get?_filterMapValues, Option.bind_eq_some_iff] at hget
  obtain ⟨sources, hsources, hnew⟩ := hget
  unfold newConditionsOf at hnew
  cases hkept : (sourceOrder.elements sources).filter fun source => source.1 ∉ skippedViews with
  | nil =>
    rw [hkept] at hnew
    cases hnew
  | cons first kept =>
    rw [hkept, Option.some.injEq] at hnew
    subst hnew
    intro c hc
    obtain ⟨source, hsource, rfl⟩ := List.mem_map.mp hc
    rw [← hkept] at hsource
    have hmem := (sourceOrder.mem_iff _ _).mp (List.mem_of_mem_filter hsource)
    have hparsed := parsedCondition_of_load htable hload (hadded rule sources hsources source hmem)
    exact ⟨⟨_, rfl⟩, rfl, fun r hr => ofExpression_of_declaredRange (hparsed.componentVersion r hr),
      fun r hr => ofExpression_of_declaredRange (hparsed.excludedComponentVersion r hr)⟩

/-- **`compress_rules` keeps the meaning of the new rules**: what applies to a known weblog under a
rule stays the same.  Only the order of the weblogs in a condition depends on the sets. -/
theorem compressRules_spec (htable : table.Documented) (hload : load sv table files = .ok data)
    (hadded : Sourced data added)
    (hparametric : ∀ rule conditions,
      (buildNewRules sourceOrder skippedViews added).get? rule = some conditions →
        NotParametric conditions) :
    ∃ rules rules',
      compressRules order weblogs data (buildNewRules sourceOrder skippedViews added) =
          .ok rules ∧
        compressRules order' weblogs data (buildNewRules sourceOrder skippedViews added) =
          .ok rules' ∧
        (∀ rule component weblog, weblog ∈ componentWeblogs weblogs data component →
          statementsFor rules rule component weblog =
            statementsFor (buildNewRules sourceOrder skippedViews added) rule component weblog) ∧
        rules.keys = rules'.keys ∧
        ∀ rule, Option.Rel (List.Forall₂ Reordered) (rules.get? rule) (rules'.get? rule) := by
  set old := buildNewRules sourceOrder skippedViews added with hold
  have hspecialized : ∀ item ∈ old.items, ∀ c ∈ item.2, Specialized sv c := fun item hitem =>
    specialized_of_buildNewRules htable hload hadded ((Dict.mem_items_iff _ _ _).mp hitem)
  obtain ⟨compressed, nonVar, hfold, hkeyed, hgroups⟩ := exists_groups hspecialized
  have hseen : ∀ c ∈ old.items.flatMap Prod.snd, Specialized sv c := by
    intro c hc
    obtain ⟨item, hitem, hc⟩ := List.mem_flatMap.mp hc
    exact hspecialized item hitem c hc
  have hcompressed : ∀ rule groups, compressed.get? rule = some groups →
      ∃ conditions cs cs', old.get? rule = some conditions ∧
        groups.items.mapM (compressGroup order weblogs data nonVar) = .ok cs ∧
        groups.items.mapM (compressGroup order' weblogs data nonVar) = .ok cs' ∧
        List.Forall₂ Reordered cs cs' ∧
        ∀ component weblog, weblog ∈ componentWeblogs weblogs data component → ∀ s,
          (∃ c ∈ cs, AppliesTo c component weblog ∧ statementOf c = s) ↔
            ∃ c ∈ conditions, AppliesTo c component weblog ∧ statementOf c = s := by
    intro rule groups hget
    rcases hgroups rule with ⟨-, hnone⟩ | ⟨conditions, groups', hconditions, hget', hgrouped⟩
    · rw [hget] at hnone
      cases hnone
    · obtain rfl : groups = groups' := Option.some.inj (hget.symm.trans hget')
      obtain ⟨cs, cs', hcs, hcs', hreordered, hmeaning⟩ := compressGroups_spec hkeyed
        (fun c hc => List.mem_flatMap.mpr ⟨_, (Dict.mem_items_iff _ _ _).mpr hconditions, hc⟩)
        hseen (hparametric rule conditions hconditions) hgrouped
      exact ⟨conditions, cs, cs', hconditions, hcs, hcs', hreordered, hmeaning⟩
  obtain ⟨rules, hrules⟩ := Dict.exists_mapValuesM_eq_ok (d := compressed)
    (f := fun _ groups => groups.items.mapM (compressGroup order weblogs data nonVar))
    fun p hp => by
      obtain ⟨-, cs, -, -, hcs, -⟩ := hcompressed p.1 p.2 ((Dict.mem_items_iff _ _ _).mp hp)
      exact ⟨cs, hcs⟩
  obtain ⟨rules', hrules'⟩ := Dict.exists_mapValuesM_eq_ok (d := compressed)
    (f := fun _ groups => groups.items.mapM (compressGroup order' weblogs data nonVar))
    fun p hp => by
      obtain ⟨-, -, cs', -, -, hcs', -⟩ := hcompressed p.1 p.2 ((Dict.mem_items_iff _ _ _).mp hp)
      exact ⟨cs', hcs'⟩
  have hkeys : rules.keys = rules'.keys :=
    (Dict.keys_of_mapValuesM hrules).trans (Dict.keys_of_mapValuesM hrules').symm
  refine ⟨rules, rules', by rw [compressRules, hfold]; exact hrules,
    by rw [compressRules, hfold]; exact hrules', ?_, hkeys, fun rule => ?_⟩
  · intro rule component weblog hknown
    ext s
    rcases Dict.get?_of_mapValuesM hrules rule with ⟨hnone, hget⟩ | ⟨groups, cs, hsome, hcs, hget⟩
    · rcases hgroups rule with ⟨hold', -⟩ | ⟨_, groups, -, hsome, -⟩
      · simp only [statementsFor, hget, hold']
      · rw [hnone] at hsome
        cases hsome
    · obtain ⟨conditions, cs₁, -, hconditions, hcs₁, -, -, hmeaning⟩ := hcompressed rule groups hsome
      obtain rfl : cs = cs₁ := Except.ok.inj (hcs.symm.trans hcs₁)
      simp only [statementsFor, hget, hconditions, Option.getD_some, Set.mem_ofPred_eq]
      exact hmeaning component weblog hknown s
  · rcases Dict.get?_of_mapValuesM hrules rule with ⟨hnone, hget⟩ | ⟨groups, cs, hsome, hcs, hget⟩
    · rcases Dict.get?_of_mapValuesM hrules' rule with ⟨-, hget'⟩ | ⟨groups, -, hsome, -⟩
      · rw [hget, hget']
        exact .none
      · rw [hnone] at hsome
        cases hsome
    · rcases Dict.get?_of_mapValuesM hrules' rule with ⟨hnone, -⟩ | ⟨groups', cs', hsome', hcs', hget'⟩
      · rw [hnone] at hsome
        cases hsome
      · obtain rfl : groups = groups' := Option.some.inj (hsome.symm.trans hsome')
        obtain ⟨-, cs₁, cs₁', -, hcs₁, hcs₁', hreordered, -⟩ := hcompressed rule groups hsome
        obtain rfl : cs = cs₁ := Except.ok.inj (hcs.symm.trans hcs₁)
        obtain rfl : cs' = cs₁' := Except.ok.inj (hcs'.symm.trans hcs₁')
        rw [hget, hget']
        exact .some hreordered

/-- A missing feature of three weblogs. -/
def threeWeblogs : ManifestFiles :=
  oneRule "python" "tests/test_a.py" [
    { declaration := some "missing_feature"
      weblog := some (.many ["django-poc", "flask-poc", "uwsgi-poc"]) }]

def threeWeblogsData : ManifestData :=
  ((load fullVersions .ascii threeWeblogs).toOption).getD .empty

theorem load_threeWeblogs : load fullVersions .ascii threeWeblogs = .ok threeWeblogsData := rfl

def threeWeblogsView : View where
  rule := "tests/test_a.py"
  condition := {
    component := "python"
    declaration := ⟨.missingFeature, none⟩
    weblog := some ["django-poc", "flask-poc", "uwsgi-poc"] }
  conditionIndex := 0
  clauseKey := none
  isInline := false

def pythonContext (variant : Str) : Context := ⟨"python", .release 2 0 0, variant⟩

/-- A test fails on two of the weblogs. -/
def addedForTwo : AddedRules :=
  addRules (pythonContext "flask-poc")
    (addRules (pythonContext "django-poc") .empty ["tests/test_a.py::Test_A::test_one"]
      threeWeblogsView)
    ["tests/test_a.py::Test_A::test_one"] threeWeblogsView

theorem sourced_addedForTwo : Sourced threeWeblogsData addedForTwo := by
  have hview : threeWeblogsView.condition ∈
      conditionsOf threeWeblogsData threeWeblogsView.rule := by
    decide
  exact (sourced_empty.addRules hview _ _).addRules hview _ _

theorem compressRules_spec_addedForTwo :
    ∃ rules, compressRules .dedup .empty threeWeblogsData
        (buildNewRules .dedup [] addedForTwo) = .ok rules ∧
      ∀ weblog ∈ componentWeblogs .empty threeWeblogsData "python",
        statementsFor rules "tests/test_a.py::Test_A::test_one" "python" weblog =
          statementsFor (buildNewRules .dedup [] addedForTwo)
            "tests/test_a.py::Test_A::test_one" "python" weblog := by
  have hplain : ∀ item ∈ (buildNewRules .dedup [] addedForTwo).items, ∀ c ∈ item.2,
      ∀ weblog ∈ c.weblog.getD [], isParametric weblog = false := by
    decide
  obtain ⟨rules, -, hrules, -, hmeaning, -, -⟩ :=
    compressRules_spec .dedup .dedup CharTable.ascii_documented load_threeWeblogs
      sourced_addedForTwo fun rule conditions hget =>
        hplain (rule, conditions) ((Dict.mem_items_iff _ _ _).mpr hget)
  exact ⟨rules, hrules, fun weblog hweblog => hmeaning _ _ weblog hweblog⟩

/-- The list of weblogs is in the order of the set. -/
theorem compressRules_order :
    compressRules .dedup .empty threeWeblogsData (buildNewRules .dedup [] addedForTwo) ≠
      compressRules (.reversed .dedup) .empty threeWeblogsData
        (buildNewRules .dedup [] addedForTwo) := by
  intro h
  have hlists := congrArg (fun result => (result.toOption.bind fun rules =>
    rules.get? "tests/test_a.py::Test_A::test_one").map fun cs => cs.map Condition.weblog) h
  revert hlists
  decide

end Editor

end EasyWins
end SystemTests
