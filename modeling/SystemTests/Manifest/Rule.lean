import SystemTests.Manifest.Parser

/-!
# Applicable declarations (`utils/manifest/_internal/rule.py`, `core.py`)

`match_condition` tells whether a condition applies to the tested components and
the weblog, `match_rule` whether a rule is about a test.  `get_rules` keeps the
declarations of the conditions that apply, each with its position among all
conditions of the rule and among those of the tested components.

**Results.**
* `matchRule_iff`: a rule is about a test when its path is a prefix of the
  test's path, parameters left out.
* `mem_trackMatches`: which positions are kept.
-/

namespace SystemTests
namespace Manifest

open Foundation Foundation.Text Foundation.Semver

abbrev Components := Dict Str Version

section MatchCondition

variable (sv : SemanticVersion)

/-- A version field of a condition; an absent field admits every version. -/
def inRange (field : Option SemverRange) (tested : Version) : Bool :=
  match field with
  | none => true
  | some r => r.contains sv tested

def outOfRange (field : Option SemverRange) (tested : Version) : Bool :=
  match field with
  | none => true
  | some r => !r.contains sv tested

/-- The weblog fields; an absent or empty list, or no weblog at all, decides nothing. -/
def weblogListed (field : Option (List Str)) (weblog : Option Str) : Bool :=
  match field, weblog with
  | some (w :: ws), some (c :: s) => (w :: ws).contains (c :: s)
  | _, _ => true

def weblogNotListed (field : Option (List Str)) (weblog : Option Str) : Bool :=
  match field, weblog with
  | some (w :: ws), some (c :: s) => !(w :: ws).contains (c :: s)
  | _, _ => true

def matchCondition (condition : Condition) (components : Components) (weblog : Option Str) :
    Bool :=
  match components.get? condition.component with
  | none => false
  | some tested =>
      inRange sv condition.componentVersion tested &&
        outOfRange sv condition.excludedComponentVersion tested &&
        weblogListed condition.weblog weblog &&
        weblogNotListed condition.excludedWeblog weblog

end MatchCondition

section MatchRule

/-- `rule.strip("/").replace("::", "/").split("/")` -/
def ruleElements (rule : Str) : List Str :=
  split ['/'] (replace [':', ':'] ['/'] (stripOf (· == '/') rule))

/-- The path of a test without the arguments in brackets. -/
def nodeidElements (nodeid : Str) : List Str :=
  split ['/'] (replace [':', ':'] ['/'] (before '[' nodeid))

def matchRule (rule nodeid : Str) : Bool :=
  if (ruleElements rule).length > (nodeidElements nodeid).length then false
  else (nodeidElements nodeid).take (ruleElements rule).length == ruleElements rule

/-- **Rules are path prefixes.** -/
theorem matchRule_iff {rule nodeid : Str} :
    matchRule rule nodeid = true ↔ ruleElements rule <+: nodeidElements nodeid := by
  unfold matchRule
  rw [List.prefix_iff_eq_take]
  split_ifs with hlen
  · constructor
    · intro h
      exact absurd h (by simp)
    · intro h
      have hlen' := congrArg List.length h
      rw [List.length_take] at hlen'
      omega
  · rw [beq_iff_eq]
    exact eq_comm

end MatchRule

/-- A condition that applies, with its two positions. -/
structure RuleMatch where
  declaration : SkipDeclaration
  conditionIndex : Nat
  inComponentIndex : Nat
deriving DecidableEq

section GetRules

variable (sv : SemanticVersion) (components : Components) (weblog : Option Str)

/--
The applicable conditions of a rule; `seen` is the number of conditions of the
tested components so far, one more than `in_component_index`.
-/
def trackMatches (conditionIndex seen : Nat) : List Condition → List RuleMatch
  | [] => []
  | condition :: conditions =>
      let known := (components.get? condition.component).isSome
      let rest := trackMatches (conditionIndex + 1) (if known then seen + 1 else seen) conditions
      if matchCondition sv condition components weblog then
        ⟨condition.declaration, conditionIndex, seen⟩ :: rest
      else rest

/-- `get_rules`: the rules and the tracker, for the rules with an applicable condition -/
def getRules (manifest : ManifestData) : Dict Str (List RuleMatch) :=
  manifest.filterMapValues fun _ conditions =>
    match trackMatches sv components weblog 0 0 conditions with
    | [] => none
    | ms => some ms

/-- The rules about a test with their applicable conditions. -/
def declarationSources (rules : Dict Str (List RuleMatch)) (nodeid : Str) :
    List (Str × List RuleMatch) :=
  rules.items.filter fun rule => matchRule rule.1 nodeid

/-- `Manifest.get_declarations` -/
def getDeclarations (rules : Dict Str (List RuleMatch)) (nodeid : Str) :
    List SkipDeclaration :=
  (declarationSources rules nodeid).flatMap fun rule => rule.2.map RuleMatch.declaration

variable {sv components weblog}

theorem known_of_matchCondition {condition : Condition}
    (h : matchCondition sv condition components weblog = true) :
    (components.get? condition.component).isSome = true := by
  unfold matchCondition at h
  split at h
  · exact absurd h (by simp)
  · rename_i tested htested
    rw [htested]
    rfl

/-- **The tracked positions** are those of the conditions that apply. -/
theorem mem_trackMatches {conditions : List Condition} {conditionIndex seen : Nat}
    {m : RuleMatch} :
    m ∈ trackMatches sv components weblog conditionIndex seen conditions ↔
      ∃ k c, conditions[k]? = some c ∧ matchCondition sv c components weblog = true ∧
        m = ⟨c.declaration, conditionIndex + k,
          seen + (conditions.take k).countP fun c => (components.get? c.component).isSome⟩ := by
  induction conditions generalizing conditionIndex seen with
  | nil => simp [trackMatches]
  | cons c cs ih =>
      have hstep : m ∈ trackMatches sv components weblog conditionIndex seen (c :: cs) ↔
          (matchCondition sv c components weblog = true ∧
              m = ⟨c.declaration, conditionIndex, seen⟩) ∨
            m ∈ trackMatches sv components weblog (conditionIndex + 1)
              (if (components.get? c.component).isSome then seen + 1 else seen) cs := by
        rw [trackMatches]
        split_ifs with hmatch <;> simp [hmatch]
      rw [hstep, ih]
      constructor
      · rintro (⟨hmatch, rfl⟩ | ⟨k, d, hk, hmatch, rfl⟩)
        · exact ⟨0, c, rfl, hmatch, by simp⟩
        · refine ⟨k + 1, d, hk, hmatch, ?_⟩
          rw [List.take_succ_cons, List.countP_cons]
          split_ifs with hknown
          · simp only [RuleMatch.mk.injEq, true_and]
            constructor <;> omega
          · simp only [RuleMatch.mk.injEq, true_and]
            constructor <;> omega
      · rintro ⟨k, d, hk, hmatch, rfl⟩
        cases k with
        | zero =>
            obtain rfl : c = d := by simpa using hk
            exact Or.inl ⟨hmatch, by simp⟩
        | succ k =>
            refine Or.inr ⟨k, d, hk, hmatch, ?_⟩
            rw [List.take_succ_cons, List.countP_cons]
            split_ifs with hknown
            · simp only [RuleMatch.mk.injEq, true_and]
              constructor <;> omega
            · simp only [RuleMatch.mk.injEq, true_and]
              constructor <;> omega

/-- A kept element is found in the filtered list after the kept ones before it. -/
theorem getElem?_filter_countP {α : Type} {p : α → Bool} :
    ∀ {l : List α} {k : Nat} {a : α}, l[k]? = some a → p a = true →
      (l.filter p)[(l.take k).countP p]? = some a
  | [], k, a, h, _ => by simp at h
  | x :: l, 0, a, h, ha => by
      obtain rfl : x = a := by simpa using h
      simp [ha]
  | x :: l, k + 1, a, h, ha => by
      have ih := getElem?_filter_countP (l := l) (k := k) (by simpa using h) ha
      rw [List.take_succ_cons, List.countP_cons, List.filter_cons]
      split_ifs with hx
      · simpa using ih
      · simpa using ih

/-- The second position of a kept condition is that among the tested components. -/
theorem getElem?_of_mem_trackMatches {conditions : List Condition} {m : RuleMatch}
    (h : m ∈ trackMatches sv components weblog 0 0 conditions) :
    ∃ c, conditions[m.conditionIndex]? = some c ∧
      matchCondition sv c components weblog = true ∧ m.declaration = c.declaration ∧
      (conditions.filter fun c => (components.get? c.component).isSome)[m.inComponentIndex]? =
        some c := by
  obtain ⟨k, c, hk, hmatch, rfl⟩ := mem_trackMatches.mp h
  refine ⟨c, by simpa using hk, hmatch, rfl, ?_⟩
  simpa using getElem?_filter_countP hk (known_of_matchCondition hmatch)

theorem trackMatches_ne_nil_iff {conditions : List Condition} {conditionIndex seen : Nat} :
    trackMatches sv components weblog conditionIndex seen conditions ≠ [] ↔
      ∃ c ∈ conditions, matchCondition sv c components weblog = true := by
  constructor
  · intro hne
    obtain ⟨m, hm⟩ := List.exists_mem_of_ne_nil _ hne
    obtain ⟨k, c, hk, hmatch, -⟩ := mem_trackMatches.mp hm
    exact ⟨c, List.mem_of_getElem? hk, hmatch⟩
  · rintro ⟨c, hc, hmatch⟩
    obtain ⟨k, hk⟩ := List.mem_iff_getElem?.mp hc
    exact List.ne_nil_of_mem (mem_trackMatches.mpr ⟨k, c, hk, hmatch, rfl⟩)

theorem get?_getRules {manifest : ManifestData} {rule : Str} {ms : List RuleMatch} :
    (getRules sv components weblog manifest).get? rule = some ms ↔
      ms ≠ [] ∧ ∃ conditions, manifest.get? rule = some conditions ∧
        ms = trackMatches sv components weblog 0 0 conditions := by
  rw [getRules, Dict.get?_filterMapValues]
  cases manifest.get? rule with
  | none => simp
  | some conditions =>
      simp only [Option.bind_some, Option.some.injEq, exists_eq_left']
      cases htrack : trackMatches sv components weblog 0 0 conditions with
      | nil => simp
      | cons m rest =>
          simp only [Option.some.injEq]
          constructor
          · rintro rfl
            exact ⟨by simp, rfl⟩
          · rintro ⟨-, rfl⟩
            rfl

/-- **A test has a declaration** when a condition of a rule about it applies. -/
theorem getDeclarations_ne_nil_iff {manifest : ManifestData} {nodeid : Str} :
    getDeclarations (getRules sv components weblog manifest) nodeid ≠ [] ↔
      ∃ rule, matchRule rule nodeid = true ∧ ∃ c ∈ conditionsOf manifest rule,
        matchCondition sv c components weblog = true := by
  constructor
  · intro hne
    obtain ⟨d, hd⟩ := List.exists_mem_of_ne_nil _ hne
    obtain ⟨⟨rule, ms⟩, hsource, hd⟩ := List.mem_flatMap.mp hd
    obtain ⟨hitem, hrule⟩ := List.mem_filter.mp hsource
    obtain ⟨hne, conditions, hget, rfl⟩ := get?_getRules.mp ((Dict.mem_items_iff _ _ _).mp hitem)
    refine ⟨rule, hrule, ?_⟩
    rw [conditionsOf, hget, Option.getD_some]
    exact trackMatches_ne_nil_iff.mp hne
  · rintro ⟨rule, hrule, c, hc, hmatch⟩
    cases hget : manifest.get? rule with
    | none => simp [conditionsOf, hget] at hc
    | some conditions =>
        rw [conditionsOf, hget, Option.getD_some] at hc
        have hne : trackMatches sv components weblog 0 0 conditions ≠ [] :=
          trackMatches_ne_nil_iff.mpr ⟨c, hc, hmatch⟩
        obtain ⟨m, hm⟩ := List.exists_mem_of_ne_nil _ hne
        refine List.ne_nil_of_mem
          (List.mem_flatMap.mpr ⟨(rule, _), ?_, List.mem_map_of_mem hm⟩)
        refine List.mem_filter.mpr ⟨(Dict.mem_items_iff _ _ _).mpr ?_, hrule⟩
        exact get?_getRules.mpr ⟨hne, conditions, hget, rfl⟩

end GetRules

end Manifest
end SystemTests
