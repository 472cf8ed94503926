import SystemTests.Manifest.InlineThreshold

/-!
# Clauses of a `weblog_declaration` (`utils/manifest/_internal/parser.py`, `rule.py`)

A `weblog_declaration` maps weblogs, or lists of them between commas, to inline
declarations.  The clause `*` stands for the weblogs that no other key lists;
the parser writes it as a condition that excludes those weblogs.

**Results.**
* `weblogClause_weblogMatches_iff`: which weblogs one clause is about.
* `weblogDeclaration_partition`: a weblog has the clauses that list it, or else
  the clause `*`, and never both.
-/

namespace SystemTests
namespace Manifest

open Foundation Foundation.Text Foundation.Semver Foundation.Regex

/-- A key lists a weblog: its name stands between two commas, with or without blanks. -/
def Lists (key weblog : Str) : Prop := ∃ piece, IsPiece ',' piece key ∧ strip piece = weblog

theorem mem_parseWeblogs_iff {key weblog : Str} : weblog ∈ parseWeblogs key ↔ Lists key weblog := by
  rw [parseWeblogs, List.mem_map]
  exact exists_congr fun piece => and_congr_left fun _ => mem_split_iff

theorem parseWeblogs_ne_nil (key : Str) : parseWeblogs key ≠ [] := by
  rw [parseWeblogs, ne_eq, List.map_eq_nil_iff]
  exact split_ne_nil _ _

/-- The weblog is listed by a key other than `*`. -/
def Named (weblogDeclaration : Dict Str Str) (weblog : Str) : Prop :=
  ∃ key ∈ weblogDeclaration.keys, key ≠ ['*'] ∧ Lists key weblog

theorem mem_explicitWeblogs_iff {weblogDeclaration : Dict Str Str} {weblog : Str} :
    weblog ∈ explicitWeblogs weblogDeclaration ↔ Named weblogDeclaration weblog := by
  simp only [explicitWeblogs, List.mem_flatMap, List.mem_filter, decide_eq_true_eq, and_assoc,
    mem_parseWeblogs_iff, Named]

/-- The part of a condition that is about the weblog. -/
def Condition.weblogMatches (condition : Condition) (weblog : Option Str) : Bool :=
  weblogListed condition.weblog weblog && weblogNotListed condition.excludedWeblog weblog

section Fields

variable {sv : SemanticVersion}

theorem weblogMatches_of_matchCondition {condition : Condition} {components : Components}
    {weblog : Option Str} (h : matchCondition sv condition components weblog = true) :
    condition.weblogMatches weblog = true := by
  unfold matchCondition at h
  split at h
  · cases h
  · rw [Bool.and_assoc, Bool.and_eq_true] at h
    exact h.2

theorem weblogListed_some {weblogs : List Str} {weblog : Str} (hne : weblogs ≠ [])
    (hweblog : weblog ≠ []) :
    weblogListed (some weblogs) (some weblog) = true ↔ weblog ∈ weblogs := by
  obtain ⟨w, ws, rfl⟩ := List.exists_cons_of_ne_nil hne
  obtain ⟨c, s, rfl⟩ := List.exists_cons_of_ne_nil hweblog
  exact List.contains_iff_mem

/-- A list that excludes nothing excludes no weblog. -/
theorem weblogNotListed_some {weblogs : List Str} {weblog : Str} (hweblog : weblog ≠ []) :
    weblogNotListed (some weblogs) (some weblog) = true ↔ weblog ∉ weblogs := by
  obtain ⟨c, s, rfl⟩ := List.exists_cons_of_ne_nil hweblog
  cases weblogs with
  | nil => simp [weblogNotListed]
  | cons w ws =>
      rw [weblogNotListed, Bool.not_eq_true', ← Bool.not_eq_true, List.contains_iff_mem]

end Fields

section Partition

variable {sv : SemanticVersion} {table : CharTable} {component nodeid : Str}

theorem weblogFields_of_processInline {raw : Str} {c : Condition}
    (h : processInline sv table raw component = .ok c) :
    c.weblog = none ∧ c.excludedWeblog = none := by
  obtain ⟨decl, -, ⟨d, -, rfl⟩ | ⟨r, -, rfl⟩⟩ := processInline_eq_ok_iff.mp h
  · exact ⟨rfl, rfl⟩
  · exact ⟨rfl, rfl⟩

/-- **One clause.**  It is about the weblogs of its key; the clause `*` is about those that
no other clause is about. -/
theorem weblogClause_weblogMatches_iff {weblogDeclaration : Dict Str Str} {clause : Str × Str}
    {c : Condition}
    (h : weblogClause sv table component (explicitWeblogs weblogDeclaration) clause = .ok c)
    {weblog : Str} (hweblog : weblog ≠ []) :
    c.weblogMatches (some weblog) = true ↔
      if clause.1 = ['*'] then ¬ Named weblogDeclaration weblog else Lists clause.1 weblog := by
  obtain ⟨inline, hinline, rfl⟩ := weblogClause_eq_ok_iff.mp h
  obtain ⟨hlisted, hexcluded⟩ := weblogFields_of_processInline hinline
  split_ifs with hstar
  · have hfields : ({ inline with
        excludedWeblog := some (explicitWeblogs weblogDeclaration) } : Condition).weblogMatches
          (some weblog) =
        weblogNotListed (some (explicitWeblogs weblogDeclaration)) (some weblog) := by
      rw [Condition.weblogMatches]
      simp only [hlisted]
      exact Bool.true_and _
    rw [hfields, weblogNotListed_some hweblog, mem_explicitWeblogs_iff]
  · have hfields : ({ inline with
        weblog := some (parseWeblogs clause.1) } : Condition).weblogMatches (some weblog) =
        weblogListed (some (parseWeblogs clause.1)) (some weblog) := by
      rw [Condition.weblogMatches]
      simp only [hexcluded]
      exact Bool.and_true _
    rw [hfields, weblogListed_some (parseWeblogs_ne_nil _) hweblog, mem_parseWeblogs_iff]

/--
**The clauses are a partition.**  The conditions of a `weblog_declaration` that
are about a weblog are those of the keys that list it if there are any, and else
that of the key `*`; the two kinds never apply together.
-/
theorem weblogDeclaration_partition {entry : RawEntry} {weblogDeclaration : Dict Str Str}
    (hfield : entry.weblogDeclaration = some weblogDeclaration) {conditions : List Condition}
    (h : loadEntry sv table component nodeid entry = .ok conditions) {weblog : Str}
    (hweblog : weblog ≠ []) :
    (Named weblogDeclaration weblog →
      List.Forall₂ (fun clause c => c.weblogMatches (some weblog) = true ↔
        clause.1 ≠ ['*'] ∧ Lists clause.1 weblog) weblogDeclaration.items conditions) ∧
    (¬ Named weblogDeclaration weblog →
      List.Forall₂ (fun clause c => c.weblogMatches (some weblog) = true ↔ clause.1 = ['*'])
        weblogDeclaration.items conditions) ∧
    ∀ components clause c clause' c', (clause, c) ∈ weblogDeclaration.items.zip conditions →
      (clause', c') ∈ weblogDeclaration.items.zip conditions →
        matchCondition sv c components (some weblog) = true →
          matchCondition sv c' components (some weblog) = true →
            (clause.1 = ['*'] ↔ clause'.1 = ['*']) := by
  have hclauses : List.Forall₂ (fun clause c => c.weblogMatches (some weblog) = true ↔
      if clause.1 = ['*'] then ¬ Named weblogDeclaration weblog else Lists clause.1 weblog)
      weblogDeclaration.items conditions := by
    rcases loadEntry_cases h with ⟨wd, hwd, hcs⟩ | ⟨hnone, -⟩
    · rw [hfield, Option.some.injEq] at hwd
      subst hwd
      exact (weblogDeclarationField_eq_ok_iff.mp hcs).imp
        fun _ _ hclause => weblogClause_weblogMatches_iff hclause hweblog
    · rw [hfield] at hnone
      cases hnone
  have hkeys : ∀ clause ∈ weblogDeclaration.items, clause.1 ≠ ['*'] → Lists clause.1 weblog →
      Named weblogDeclaration weblog :=
    fun clause hclause hstar hlists => ⟨clause.1, List.mem_map_of_mem hclause, hstar, hlists⟩
  refine ⟨fun hnamed => hclauses.imp fun clause c hc => ?_, fun hnamed => ?_, ?_⟩
  · rw [hc]
    split_ifs with hstar
    · exact iff_of_false (not_not_intro hnamed) fun h => h.1 hstar
    · exact (and_iff_right hstar).symm
  · refine ((List.forall₂_and_left _ _).mpr ⟨hkeys, hclauses⟩).imp ?_
    rintro clause c ⟨hkey, hc⟩
    rw [hc]
    split_ifs with hstar
    · exact iff_of_true hnamed hstar
    · exact iff_of_false (fun hlists => hnamed (hkey hstar hlists)) hstar
  · intro components clause c clause' c' hmem hmem' hmatch hmatch'
    have hc := ((List.forall₂_iff_zip.mp hclauses).2 hmem).mp (weblogMatches_of_matchCondition hmatch)
    have hc' := ((List.forall₂_iff_zip.mp hclauses).2 hmem').mp (weblogMatches_of_matchCondition hmatch')
    split_ifs at hc hc' with hstar hstar' hstar'
    · exact iff_of_true hstar hstar'
    · exact absurd (hkeys clause' (List.of_mem_zip hmem').1 hstar' hc') hc
    · exact absurd (hkeys clause (List.of_mem_zip hmem).1 hstar hc) hc'
    · exact iff_of_false hstar hstar'

def defaultAndListed : Dict Str Str :=
  (Dict.empty.set "*".toList "missing_feature".toList).set "flask, django".toList "irrelevant".toList

theorem defaultAndListed_partition :
    ∃ conditions, loadEntry fullVersions .ascii "python".toList "tests/test_a.py".toList
        { weblogDeclaration := some defaultAndListed } = .ok conditions ∧
      List.Forall₂ (fun clause c => c.weblogMatches (some "django".toList) = true ↔
        clause.1 ≠ ['*'] ∧ Lists clause.1 "django".toList) defaultAndListed.items conditions := by
  obtain ⟨conditions, hload⟩ : ∃ conditions, loadEntry fullVersions .ascii "python".toList
      "tests/test_a.py".toList { weblogDeclaration := some defaultAndListed } = .ok conditions :=
    ⟨_, rfl⟩
  have hnamed : Named defaultAndListed "django".toList :=
    mem_explicitWeblogs_iff.mp (by decide)
  exact ⟨conditions, hload, (weblogDeclaration_partition rfl hload (by decide)).1 hnamed⟩

end Partition

end Manifest
end SystemTests
