import SystemTests.Manifest.Rule

/-!
# Views on the manifest entries (`activate_easy_wins/_internal/manifest_editor.py`)

To edit the raw manifests, the editor looks up every applicable condition of a
test in the parsed manifest and computes where in the raw manifest it came from:
the index of the entry, and the weblog when it came from a `weblog_declaration`.

**Results.**
* `computeEditLoc_spec`: which entry the index arithmetic arrives at.
* `mem_getMatches`: the views are those of the applicable conditions.
-/

namespace SystemTests
namespace EasyWins

open Foundation Foundation.Text Foundation.Semver Manifest

/-- `COMPONENT_GROUPS.easy_win` -/
def easyWin : List Str :=
  ["c", "cpp", "cpp_httpd", "cpp_nginx", "cpp_kong", "dotnet", "golang", "java",
    "java_lambda", "nodejs", "nodejs_lambda", "php", "python", "python_lambda", "ruby",
    "ruby_lambda", "rust"].map String.toList

structure Context where
  library : Str
  libraryVersion : Version
  variant : Str
deriving DecidableEq

/-- The components that the rules are updated for in a context. -/
def Context.components (context : Context) : Components :=
  Dict.empty.set context.library context.libraryVersion

structure View where
  rule : Str
  condition : Condition
  conditionIndex : Int
  clauseKey : Option Str
  isInline : Bool
deriving DecidableEq

section ComputeEditLoc

/-- Number of keys of the `weblog_declaration` of an entry. -/
def keyCount (entry : RawEntry) : Nat :=
  match entry.weblogDeclaration with
  | none => 0
  | some weblogDeclaration => weblogDeclaration.keys.length

/-- The loop of `compute_edit_loc`, with its three local variables. -/
def editLocLoop (parsedRuleIndex : Int) (index hiddenLength : Int) (isClause : Bool) :
    List RawEntry → Int × Bool
  | [] => (index, isClause)
  | condition :: rawConditions =>
      if index + hiddenLength = parsedRuleIndex then (index, isClause)
      else
        let index := index + 1
        -- a missing or empty `weblog_declaration` is falsy
        if keyCount condition ≠ 0 then
          let hiddenLength := hiddenLength + keyCount condition
          editLocLoop parsedRuleIndex index hiddenLength
            (index + hiddenLength ≥ parsedRuleIndex) rawConditions
        else editLocLoop parsedRuleIndex index hiddenLength false rawConditions

def computeEditLoc (rawConditions : List RawEntry) (parsedRuleIndex : Nat) : Int × Bool :=
  editLocLoop parsedRuleIndex (-1) 0 false rawConditions

end ComputeEditLoc

section GetMatches

variable (rawData : ManifestFiles) (data : ManifestData)

/-- `parsed_condition.get("weblog", ["*"])`, when it is a single weblog -/
def clauseKeyOf (condition : Condition) : Option Str :=
  match condition.weblog.getD [['*']] with
  | [weblog] => some weblog
  | _ => none

/-- The view of a condition at a position among those of its raw value. -/
def viewAt (rule : Str) (condition : Condition) (position : Nat) :
    RawValue → Except Raised View
  | .inline _ => return ⟨rule, condition, position, none, true⟩
  | .entries entries =>
      let (index, isClause) := computeEditLoc entries position
      return ⟨rule, condition, index, if isClause then clauseKeyOf condition else none, false⟩
  | .mapping _ => throw (.typeError "string indices must be integers, not 'str'")

/-- The view of one applicable condition; none for a component that is not edited. -/
def viewOf (rule : Str) (m : RuleMatch) : Except Raised (Option View) := do
  let conditions ← Raised.ofOption (.keyError rule) (data.get? rule)
  let condition ← Raised.ofOption (.keyError rule) conditions[m.conditionIndex]?
  if condition.component ∈ easyWin then do
    let manifest ← Raised.ofOption (.keyError condition.component)
      (rawData condition.component)
    let rawConditions ← Raised.ofOption (.keyError rule) (manifest.get? rule)
    let view ← viewAt rule condition m.inComponentIndex rawConditions
    return some view
  else return none

/-- The applicable conditions of the rules about a test. -/
def applicable (rules : Dict Str (List RuleMatch)) (nodeid : Str) : List (Str × RuleMatch) :=
  (declarationSources rules nodeid).flatMap fun source => source.2.map (source.1, ·)

/-- `ManifestEditor.get_matches`, the set as a list without repetition -/
def getMatches (rules : Dict Str (List RuleMatch)) (nodeid : Str) :
    Except Raised (List View) := do
  let views ← (applicable rules nodeid).mapM fun p => viewOf rawData data p.1 p.2
  return (views.filterMap id).dedup

end GetMatches

section Specification

/-- Number of keys of the `weblog_declaration` entries among the first entries. -/
def keysBefore (entries : List RawEntry) (k : Nat) : Nat := ((entries.take k).map keyCount).sum

theorem keysBefore_succ {entries : List RawEntry} {k : Nat} {entry : RawEntry}
    (h : entries[k]? = some entry) :
    keysBefore entries (k + 1) = keysBefore entries k + keyCount entry := by
  rw [keysBefore, keysBefore, List.take_add_one, h]
  simp

/--
The loop stops in front of the first entry at which the sum of its variables
is the position looked for, or after the last entry.
-/
theorem editLocLoop_spec {p : Int} :
    ∀ (entries : List RawEntry) (index hidden : Int) (isClause : Bool),
      ∃ k ≤ entries.length,
        (editLocLoop p index hidden isClause entries).1 = index + k ∧
        (k < entries.length → index + k + (hidden + keysBefore entries k) = p) ∧
        (∀ j < k, index + j + (hidden + keysBefore entries j) ≠ p) ∧
        ∀ i entry, k = i + 1 → entries[i]? = some entry →
          (editLocLoop p index hidden isClause entries).2 =
            decide (keyCount entry ≠ 0 ∧ index + k + (hidden + keysBefore entries k) ≥ p)
  | [], index, hidden, isClause => by
      refine ⟨0, le_refl 0, by simp [editLocLoop], by simp, by simp, ?_⟩
      intro i entry hi
      omega
  | e :: entries, index, hidden, isClause => by
      by_cases hp : index + hidden = p
      · refine ⟨0, by simp, by simp [editLocLoop, hp], ?_, by simp, ?_⟩
        · intro _
          simpa [keysBefore] using hp
        · intro i entry hi
          omega
      · have hloop : editLocLoop p index hidden isClause (e :: entries) =
            editLocLoop p (index + 1) (hidden + keyCount e)
              (decide (keyCount e ≠ 0 ∧ index + 1 + (hidden + keyCount e) ≥ p)) entries := by
          rw [editLocLoop, if_neg hp]
          by_cases hkeys : keyCount e = 0
          · simp [hkeys]
          · simp [hkeys]
        obtain ⟨k, hk, hindex, hstop, hbefore, hclause⟩ :=
          editLocLoop_spec (p := p) entries (index + 1) (hidden + keyCount e)
            (decide (keyCount e ≠ 0 ∧ index + 1 + (hidden + keyCount e) ≥ p))
        have hkeys : ∀ j, keysBefore (e :: entries) (j + 1) = keyCount e + keysBefore entries j := by
          intro j
          simp [keysBefore]
        refine ⟨k + 1, by simpa using hk, ?_, ?_, ?_, ?_⟩
        · rw [hloop, hindex]
          push_cast
          omega
        · intro hlt
          have hlt' : k < entries.length := by simpa using hlt
          have := hstop hlt'
          rw [hkeys]
          push_cast
          omega
        · intro j hj
          cases j with
          | zero => simpa [keysBefore] using hp
          | succ j =>
              have := hbefore j (by omega)
              rw [hkeys]
              push_cast
              omega
        · intro i entry hi hentry
          rw [hloop]
          obtain rfl : k = i := by omega
          cases k with
          | zero =>
              obtain rfl : e = entry := by simpa using hentry
              have hzero : (editLocLoop p (index + 1) (hidden + keyCount e)
                  (decide (keyCount e ≠ 0 ∧ index + 1 + (hidden + keyCount e) ≥ p)) entries).2 =
                  decide (keyCount e ≠ 0 ∧ index + 1 + (hidden + keyCount e) ≥ p) := by
                cases entries with
                | nil => rfl
                | cons e' entries =>
                    have hstop' := hstop (by simp)
                    have hstop'' : index + 1 + (hidden + (keyCount e : Int)) = p := by
                      simpa [keysBefore] using hstop'
                    rw [editLocLoop, if_pos hstop'']
              rw [hzero, hkeys]
              simp [keysBefore]
          | succ k =>
              have hentry' : entries[k]? = some entry := by simpa using hentry
              rw [hclause k entry rfl hentry', hkeys]
              push_cast
              congr 1
              simp only [ne_eq, ge_iff_le, eq_iff_iff, and_congr_right_iff]
              intro _
              constructor <;> intro h <;> omega

/-- **Where the index arithmetic arrives.** -/
theorem computeEditLoc_spec {entries : List RawEntry} (hne : entries ≠ []) (p : Nat) :
    ∃ (i : Nat) (entry : RawEntry), entries[i]? = some entry ∧
      (computeEditLoc entries p).1 = i ∧
      (i + 1 < entries.length → i + keysBefore entries (i + 1) = p) ∧
      (∀ j < i, j + keysBefore entries (j + 1) ≠ p) ∧
      (computeEditLoc entries p).2 =
        decide (keyCount entry ≠ 0 ∧ p ≤ i + keysBefore entries (i + 1)) := by
  obtain ⟨k, hk, hindex, hstop, hbefore, hclause⟩ :=
    editLocLoop_spec (p := (p : Int)) entries (-1) 0 false
  have hpos : 0 < entries.length := List.length_pos_iff.mpr hne
  cases k with
  | zero =>
      have := hstop hpos
      simp [keysBefore] at this
  | succ i =>
      have hlt : i < entries.length := by omega
      refine ⟨i, entries[i], List.getElem?_eq_getElem hlt, ?_, ?_, ?_, ?_⟩
      · rw [computeEditLoc, hindex]
        push_cast
        omega
      · intro h
        have := hstop h
        push_cast at this
        omega
      · intro j hj
        have := hbefore (j + 1) (by omega)
        push_cast at this
        omega
      · rw [computeEditLoc, hclause i entries[i] rfl (List.getElem?_eq_getElem hlt)]
        congr 1
        simp only [ne_eq, ge_iff_le, eq_iff_iff, and_congr_right_iff]
        intro _
        push_cast
        constructor <;> intro h <;> omega

variable {rawData : ManifestFiles} {data : ManifestData}

/-- **The views** are those of the applicable conditions. -/
theorem mem_getMatches {rules : Dict Str (List RuleMatch)} {nodeid : Str} {views : List View}
    (h : getMatches rawData data rules nodeid = .ok views) {view : View} :
    view ∈ views ↔ ∃ rule m, (rule, m) ∈ applicable rules nodeid ∧
      viewOf rawData data rule m = .ok (some view) := by
  unfold getMatches at h
  rw [Raised.bind_eq_ok] at h
  obtain ⟨options, hoptions, h⟩ := h
  rw [Raised.pure_eq_ok] at h
  rw [← h, List.mem_dedup, List.mem_filterMap]
  constructor
  · rintro ⟨o, ho, rfl⟩
    obtain ⟨⟨rule, m⟩, hm, hview⟩ := Raised.exists_of_mem_mapM hoptions ho
    exact ⟨rule, m, hm, hview⟩
  · rintro ⟨rule, m, hm, hview⟩
    obtain ⟨o, ho, hview'⟩ := Raised.mem_mapM_of_mem hoptions hm
    rw [hview, Except.ok.injEq] at hview'
    exact ⟨some view, hview' ▸ ho, rfl⟩

end Specification

end EasyWins
end SystemTests
