import SystemTests.EasyWins.Matches
import SystemTests.Manifest.InlineThreshold

/-!
# Edit locations

A view should designate the raw entry that the parser made its condition of.
The parser turns a `weblog_declaration` into one condition for each key;
`compute_edit_loc` counts both the keys and the entry itself, one too many for
each such entry.

**Results.**
* `computeEditLoc_designates_iff`: the positions that are located correctly.
* `getMatches_designates_iff`: when all views of a test are located correctly.
-/

namespace SystemTests
namespace EasyWins

open Foundation Foundation.Text Foundation.Semver Foundation.Regex Manifest

section Positions

/-- Number of conditions that the parser makes of the first entries. -/
def conditionsBefore (entries : List RawEntry) (k : Nat) : Nat :=
  ((entries.take k).map fun entry => (entrySources 0 entry).length).sum

/-- Number of `weblog_declaration` entries among the first entries. -/
def declarationsBefore (entries : List RawEntry) (k : Nat) : Nat :=
  (entries.take k).countP fun entry => entry.weblogDeclaration.isSome

theorem length_entrySources (index : Nat) (entry : RawEntry) :
    (entrySources index entry).length + (if entry.weblogDeclaration.isSome then 1 else 0) =
      keyCount entry + 1 := by
  unfold entrySources keyCount
  cases entry.weblogDeclaration <;> simp

/-- The parser counts one for an entry, or one for each of its keys. -/
theorem conditionsBefore_add (entries : List RawEntry) :
    ∀ k ≤ entries.length,
      conditionsBefore entries k + declarationsBefore entries k = k + keysBefore entries k
  | 0, _ => rfl
  | k + 1, hk => by
      have ih := conditionsBefore_add entries k (by omega)
      have hget : entries[k]? = some entries[k] := List.getElem?_eq_getElem (by omega)
      have hentry := length_entrySources 0 entries[k]
      unfold conditionsBefore declarationsBefore keysBefore at ih ⊢
      rw [List.take_add_one, hget]
      simp only [Option.toList_some, List.map_append, List.map_cons, List.map_nil,
        List.sum_append, List.sum_cons, List.sum_nil, List.countP_append, List.countP_cons,
        List.countP_nil]
      split_ifs at hentry ⊢ <;> omega

theorem sourcesFrom_getElem? :
    ∀ {entries : List RawEntry} {index p : Nat} {s : Source},
      (sourcesFrom index entries)[p]? = some s →
        ∃ i entry q, s.entry = index + i ∧ entries[i]? = some entry ∧
          p = conditionsBefore entries i + q ∧ (entrySources s.entry entry)[q]? = some s
  | [], index, p, s, h => by simp [sourcesFrom] at h
  | e :: entries, index, p, s, h => by
      rw [sourcesFrom] at h
      by_cases hp : p < (entrySources index e).length
      · rw [List.getElem?_append_left hp] at h
        have hs : s.entry = index := by
          have hmem := List.mem_of_getElem? h
          unfold entrySources at hmem
          split at hmem
          · rw [List.mem_singleton] at hmem
            rw [hmem]
          · obtain ⟨key, -, rfl⟩ := List.mem_map.mp hmem
            rfl
        exact ⟨0, e, p, by omega, rfl, by simp [conditionsBefore], hs ▸ h⟩
      · rw [List.getElem?_append_right (by omega)] at h
        obtain ⟨i, entry, q, hs, hentry, hq, hget⟩ := sourcesFrom_getElem? h
        refine ⟨i + 1, entry, q, by omega, hentry, ?_, hget⟩
        have hlen : (entrySources index e).length = (entrySources 0 e).length := by
          unfold entrySources
          cases e.weblogDeclaration <;> simp
        have hsucc : conditionsBefore (e :: entries) (i + 1) =
            (entrySources 0 e).length + conditionsBefore entries i := by
          simp [conditionsBefore]
        omega

/-- The position of a condition in terms of its entry. -/
theorem sourceOf_eq_some {entries : List RawEntry} {p : Nat} {s : Source}
    (h : sourceOf entries p = some s) :
    ∃ entry q, entries[s.entry]? = some entry ∧
      p = conditionsBefore entries s.entry + q ∧ (entrySources s.entry entry)[q]? = some s := by
  obtain ⟨i, entry, q, hs, hentry, hq, hget⟩ := sourcesFrom_getElem? h
  obtain rfl : s.entry = i := by omega
  exact ⟨entry, q, hentry, hq, hget⟩

theorem keysBefore_le {entries : List RawEntry} {i j : Nat} (h : i ≤ j) :
    keysBefore entries i ≤ keysBefore entries j := by
  have hprefix : entries.take i <+: entries.take j := List.take_prefix_take_left h
  obtain ⟨rest, hrest⟩ := hprefix
  rw [keysBefore, keysBefore, ← hrest, List.map_append, List.sum_append]
  omega

theorem declarationsBefore_eq_zero_iff {entries : List RawEntry} {k : Nat} :
    declarationsBefore entries k = 0 ↔
      ∀ entry ∈ entries.take k, entry.weblogDeclaration = none := by
  simp [declarationsBefore, List.countP_eq_zero]

end Positions

section Located

/-- What a raw key stands for in a view; a key of several weblogs stands for none. -/
def keyAsClause (key : Str) : Option Str :=
  if key = ['*'] then some ['*']
  else
    match parseWeblogs key with
    | [weblog] => some weblog
    | _ => none

/-- The location of a view is the source of the condition at a position. -/
def Designates (value : RawValue) (position : Nat) (view : View) : Prop :=
  match value with
  | .inline _ => view.isInline = true ∧ view.conditionIndex = 0 ∧ view.clauseKey = none
  | .mapping _ => False
  | .entries entries =>
      view.isInline = false ∧ ∃ s, sourceOf entries position = some s ∧
        view.conditionIndex = s.entry ∧ view.clauseKey = s.key.bind keyAsClause

/--
The positions that the index arithmetic locates: a condition entry that no
`weblog_declaration` precedes, or a condition of the last entry when no earlier
entry `i` has `i` plus the number of keys up to it equal to the position.
-/
def WellPlaced (value : RawValue) (position : Nat) : Prop :=
  match value with
  | .inline _ => True
  | .mapping _ => False
  | .entries entries =>
      ∃ s, sourceOf entries position = some s ∧
        ((s.key = none ∧
            ∀ entry ∈ entries.take s.entry, entry.weblogDeclaration = none) ∨
          (s.entry + 1 = entries.length ∧
            ∀ i, i + 1 < entries.length → i + keysBefore entries (i + 1) ≠ position))

variable {sv : SemanticVersion} {table : CharTable} {component : Str}

/-- The clause key of a condition made of a `weblog_declaration` is that of its raw key. -/
theorem clauseKeyOf_weblogClause {allWeblogs : List Str} {key raw : Str} {c : Condition}
    (h : weblogClause sv table component allWeblogs (key, raw) = .ok c) :
    clauseKeyOf c = keyAsClause key := by
  obtain ⟨inline, hinline, rfl⟩ := weblogClause_eq_ok_iff.mp h
  have hweblog : inline.weblog = none := by
    obtain ⟨decl, -, ⟨d, -, rfl⟩ | ⟨r, -, rfl⟩⟩ := processInline_eq_ok_iff.mp hinline
    · rfl
    · rfl
  unfold keyAsClause clauseKeyOf
  split_ifs
  · simp [hweblog]
  · rfl

/-- **The positions located correctly** in a list of entries. -/
theorem computeEditLoc_designates_iff {entries : List RawEntry} {p : Nat} {s : Source}
    {entry : RawEntry} {c : Condition} (hs : sourceOf entries p = some s)
    (hentry : entries[s.entry]? = some entry)
    (hc : ComesFrom sv table component entry s.key c) :
    ((computeEditLoc entries p).1 = s.entry ∧
        (if (computeEditLoc entries p).2 then clauseKeyOf c else none) =
          s.key.bind keyAsClause) ↔
      WellPlaced (.entries entries) p := by
  have hne : entries ≠ [] := by
    rintro rfl
    simp at hentry
  have hlt : s.entry < entries.length := (List.getElem?_eq_some_iff.mp hentry).1
  obtain ⟨entry', q, hentry', hq, hget⟩ := sourceOf_eq_some hs
  obtain rfl : entry = entry' := by
    rw [hentry] at hentry'
    exact Option.some.inj hentry'
  obtain ⟨i, e, he, hindex, hstop, hbefore, hclause⟩ := computeEditLoc_spec hne p
  have hi : i < entries.length := (List.getElem?_eq_some_iff.mp he).1
  have hcount := conditionsBefore_add entries s.entry (by omega)
  have hkeys := keysBefore_succ hentry
  -- a condition entry has one source, a `weblog_declaration` one for each key
  have hkind : (s.key = none ∧ q = 0 ∧ keyCount entry = 0) ∨
      (∃ key raw wd, s.key = some key ∧ q < keyCount entry ∧
        weblogClause sv table component (explicitWeblogs wd) (key, raw) = .ok c) := by
    unfold entrySources at hget
    unfold ComesFrom at hc
    cases hwd : entry.weblogDeclaration with
    | none =>
        left
        rw [hwd] at hget
        obtain ⟨hq', hs'⟩ := List.getElem?_eq_some_iff.mp hget
        have hq0 : q = 0 := by simpa using hq'
        subst hq0
        refine ⟨?_, rfl, by simp [keyCount, hwd]⟩
        rw [← hs']
        rfl
    | some wd =>
        right
        rw [hwd] at hget hc
        rw [List.getElem?_map] at hget
        obtain ⟨key, hkey, hs'⟩ := Option.map_eq_some_iff.mp hget
        have hskey : s.key = some key := by
          rw [← hs']
        rw [hskey] at hc
        obtain ⟨raw, -, hclause'⟩ := hc
        refine ⟨key, raw, wd, hskey, ?_, hclause'⟩
        rw [keyCount, hwd]
        exact (List.getElem?_eq_some_iff.mp hkey).1
  have hindex_iff : (computeEditLoc entries p).1 = s.entry ↔ i = s.entry := by
    rw [hindex]
    exact Int.ofNat_inj
  have hclauseKey : i = s.entry →
      (if (computeEditLoc entries p).2 then clauseKeyOf c else none) =
        s.key.bind keyAsClause := by
    rintro rfl
    obtain rfl : e = entry := by
      rw [he] at hentry
      exact Option.some.inj hentry
    rcases hkind with ⟨hkey, -, hzero⟩ | ⟨key, raw, wd, hkey, hqk, hcl⟩
    · rw [hclause, hkey]
      simp [hzero]
    · have htrue : (computeEditLoc entries p).2 = true := by
        rw [hclause, decide_eq_true_eq]
        omega
      rw [if_pos htrue, hkey, clauseKeyOf_weblogClause hcl]
      rfl
  have hmono : ∀ {a b : Nat}, a < b → a + keysBefore entries (a + 1) <
      b + keysBefore entries (b + 1) := by
    intro a b hab
    have hle := @keysBefore_le entries (a + 1) (b + 1) (by omega)
    omega
  rw [hindex_iff, and_iff_left_of_imp hclauseKey]
  constructor
  · rintro rfl
    refine ⟨s, hs, ?_⟩
    by_cases hlast : s.entry + 1 = entries.length
    · right
      refine ⟨hlast, ?_⟩
      intro j hj
      exact hbefore j (by omega)
    · left
      have hp := hstop (by omega)
      rcases hkind with ⟨hkey, hq0, hzero⟩ | ⟨key, raw, wd, -, hqk, -⟩
      · refine ⟨hkey, declarationsBefore_eq_zero_iff.mp ?_⟩
        omega
      · omega
  · rintro ⟨s', hs', hplace⟩
    obtain rfl : s = s' := by
      rw [hs] at hs'
      exact Option.some.inj hs'
    rcases hplace with ⟨hkey, hplain⟩ | ⟨hlast, hnone⟩
    · have hzero := declarationsBefore_eq_zero_iff.mpr hplain
      have hp : s.entry + keysBefore entries (s.entry + 1) = p := by
        rcases hkind with ⟨-, hq0, hkeys0⟩ | ⟨key, raw, wd, hkey', -, -⟩
        · omega
        · rw [hkey] at hkey'
          exact absurd hkey' (by simp)
      by_contra hne'
      rcases Nat.lt_or_gt_of_ne hne' with hlt' | hgt
      · have hi' := hstop (by omega)
        have := hmono hlt'
        omega
      · exact hbefore s.entry hgt hp
    · by_contra hne'
      have hlt' : i + 1 < entries.length := by omega
      exact hnone i hlt' (hstop hlt')

end Located

section Views

variable {sv : SemanticVersion} {table : CharTable} {files : ManifestFiles}
variable {data : ManifestData}

def rawValue (files : ManifestFiles) (component rule : Str) : Option RawValue :=
  (files component).bind fun manifest => manifest.get? rule

/-- The rules of the editor in a context. -/
def contextRules (sv : SemanticVersion) (data : ManifestData) (context : Context) :
    Dict Str (List RuleMatch) :=
  getRules sv context.components (some context.variant) data

theorem isSome_get?_components (context : Context) (component : Str) :
    (context.components.get? component).isSome = decide (component = context.library) := by
  rw [Context.components, Dict.get?_set]
  split_ifs with h <;> simp [h, Dict.empty, Dict.get?, Dict.find]

/-- The conditions of one component among those of all. -/
theorem filter_component_load (hload : load sv table files = .ok data) {component : Str}
    (hmem : component ∈ loadedComponents) (rule : Str) :
    (conditionsOf data rule).filter (fun c => decide (c.component = component)) =
      conditionsOf (parsedFile sv table files component) rule := by
  have hpiece : ∀ c ∈ loadedComponents,
      (conditionsOf (parsedFile sv table files c) rule).filter
          (fun condition => decide (condition.component = component)) =
        if c = component then conditionsOf (parsedFile sv table files c) rule else [] := by
    intro c hc
    have hcomp : ∀ condition ∈ conditionsOf (parsedFile sv table files c) rule,
        condition.component = c :=
      component_of_mem_conditionsOf (loadFile_of_load hload hc)
    split_ifs with h
    · rw [List.filter_eq_self]
      intro condition hcondition
      rw [decide_eq_true_eq, hcomp condition hcondition, h]
    · rw [List.filter_eq_nil_iff]
      intro condition hcondition
      rw [decide_eq_true_eq, hcomp condition hcondition]
      exact h
  have hone : ∀ (cs : List Str) (f : Str → List Condition), cs.Nodup → component ∈ cs →
      cs.flatMap (fun c => if c = component then f c else []) = f component := by
    intro cs f hnodup hin
    induction cs with
    | nil => simp at hin
    | cons c cs ih =>
        rw [List.nodup_cons] at hnodup
        rw [List.flatMap_cons]
        rcases List.mem_cons.mp hin with rfl | hin
        · have hrest : cs.flatMap (fun c => if c = component then f c else []) = [] := by
            rw [List.flatMap_eq_nil_iff]
            intro c hc
            rw [if_neg]
            rintro rfl
            exact hnodup.1 hc
          rw [if_pos rfl, hrest, List.append_nil]
        · have hne : c ≠ component := by
            rintro rfl
            exact hnodup.1 hin
          rw [if_neg hne, List.nil_append, ih hnodup.2 hin]
  rw [conditionsOf_load hload, List.filter_flatMap, List.flatMap_congr hpiece]
  exact hone loadedComponents _ (by decide) hmem

/-- What is known of an applicable condition of the tested library. -/
theorem applicable_cases (hload : load sv table files = .ok data) {context : Context}
    {nodeid rule : Str} {m : RuleMatch}
    (h : (rule, m) ∈ applicable (contextRules sv data context) nodeid) :
    ∃ conditions c value parsed, data.get? rule = some conditions ∧
      conditions[m.conditionIndex]? = some c ∧ c.component = context.library ∧
      rawValue files context.library rule = some value ∧
      loadValue sv table context.library rule value = .ok parsed ∧
      parsed[m.inComponentIndex]? = some c := by
  obtain ⟨⟨rule', ms⟩, hsource, hm⟩ := List.mem_flatMap.mp h
  obtain ⟨m', hm', heq⟩ := List.mem_map.mp hm
  obtain ⟨rfl, rfl⟩ := Prod.mk.inj heq
  have hitem := (List.mem_filter.mp hsource).1
  obtain ⟨-, conditions, hget, rfl⟩ := get?_getRules.mp ((Dict.mem_items_iff _ _ _).mp hitem)
  obtain ⟨c, hc, hmatch, -, hfilter⟩ := getElem?_of_mem_trackMatches hm'
  have hlibrary : c.component = context.library := by
    have hknown := known_of_matchCondition hmatch
    rw [isSome_get?_components, decide_eq_true_eq] at hknown
    exact hknown
  simp only [isSome_get?_components] at hfilter
  have hconditions : conditionsOf data rule' = conditions := by
    rw [conditionsOf, hget, Option.getD_some]
  obtain ⟨component, hcomponent, hin⟩ :
      ∃ component ∈ loadedComponents, c ∈ conditionsOf (parsedFile sv table files component) rule' := by
    have hin : c ∈ conditionsOf data rule' := by
      rw [hconditions]
      exact List.mem_of_getElem? hc
    rw [conditionsOf_load hload, List.mem_flatMap] at hin
    exact hin
  have hfile := loadFile_of_load hload hcomponent
  obtain rfl : component = context.library := by
    rw [← component_of_mem_conditionsOf hfile c hin, hlibrary]
  rw [← hconditions, filter_component_load hload hcomponent] at hfilter
  rcases conditionsOf_parsedFile rule' hfile with hnil | ⟨manifest, value, hm, hvalue, hparsed⟩
  · rw [hnil] at hin
    simp at hin
  · refine ⟨conditions, c, value, _, hget, hc, hlibrary, ?_, hparsed, hfilter⟩
    rw [rawValue, hm, Option.bind_some, hvalue]

/-- The view of an applicable condition, and when it is located correctly. -/
theorem viewOf_applicable (hload : load sv table files = .ok data) {context : Context}
    {nodeid rule : Str} {m : RuleMatch}
    (h : (rule, m) ∈ applicable (contextRules sv data context) nodeid) :
    ∃ value, rawValue files context.library rule = some value ∧
      ((context.library ∉ easyWin ∧ viewOf files data rule m = .ok none) ∨
        (context.library ∈ easyWin ∧ ∃ view, viewOf files data rule m = .ok (some view) ∧
          (Designates value m.inComponentIndex view ↔
            WellPlaced value m.inComponentIndex))) := by
  obtain ⟨conditions, c, value, parsed, hget, hc, hlibrary, hvalue, hparsed, hposition⟩ :=
    applicable_cases hload h
  refine ⟨value, hvalue, ?_⟩
  obtain ⟨manifest, hmanifest, hraw⟩ := Option.bind_eq_some_iff.mp hvalue
  by_cases hwin : context.library ∈ easyWin
  · right
    refine ⟨hwin, ?_⟩
    have hview : viewOf files data rule m =
        viewAt rule c m.inComponentIndex value >>= fun view => return some view := by
      rw [viewOf, hget, Raised.ofOption_some, Raised.ok_bind, hc, Raised.ofOption_some,
        Raised.ok_bind, hlibrary, if_pos hwin, hmanifest, Raised.ofOption_some,
        Raised.ok_bind, hraw, Raised.ofOption_some, Raised.ok_bind]
    cases value with
    | inline raw =>
        refine ⟨_, hview, ?_⟩
        have hzero : m.inComponentIndex = 0 := by
          simp only [loadValue, Raised.bind_eq_ok, Raised.pure_eq_ok] at hparsed
          obtain ⟨c', -, rfl⟩ := hparsed
          have hlt := (List.getElem?_eq_some_iff.mp hposition).1
          simpa using hlt
        simp [Designates, WellPlaced, hzero]
    | mapping entry =>
        simp only [loadValue] at hparsed
        split_ifs at hparsed
        rw [Raised.pure_eq_ok] at hparsed
        rw [← hparsed] at hposition
        simp at hposition
    | entries entries =>
        refine ⟨_, hview, ?_⟩
        obtain ⟨s, entry, hs, hentry, hcomes⟩ := loadEntries_getElem? hparsed hposition
        rw [← computeEditLoc_designates_iff hs hentry hcomes]
        simp only [Designates, hs, Option.some.injEq, exists_eq_left', true_and]
        exact Iff.rfl
  · left
    refine ⟨hwin, ?_⟩
    rw [viewOf, hget, Raised.ofOption_some, Raised.ok_bind, hc, Raised.ofOption_some,
      Raised.ok_bind, hlibrary, if_neg hwin]
    rfl

/-- One rule of one component; the other components have an empty manifest. -/
def oneRule (component rule : Str) (entries : List RawEntry) : ManifestFiles :=
  fun c => some (if c = component then Dict.empty.set rule (.entries entries) else .empty)

/-- A `weblog_declaration` in front of a condition entry. -/
def weblogThenEntry : ManifestFiles :=
  oneRule "python" "tests/test_a.py" [
    { weblogDeclaration := some (Dict.empty.set "flask".toList "missing_feature".toList) },
    { declaration := some "irrelevant" }]

def djangoContext : Context := ⟨"python", .release 2 0 0, "django"⟩

end Views

end EasyWins
end SystemTests
