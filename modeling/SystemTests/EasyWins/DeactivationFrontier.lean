import SystemTests.EasyWins.RecordedTests
import SystemTests.Manifest.NodeId

/-!
# The rules that stay deactivated (`activate_easy_wins/_internal/core.py`)

When a rule is activated, the paths below it that must not be are read off the
trie and written as rules of their own.

**Results.**
* `pairwise_deactivation`: no path that a traversal yields is above another.
* `mem_slices_iff`, `mem_updatesAt_iff`: the updates of a path are those of the
  tests below it.
* `mem_frontier_iff`: the paths that are yielded are the highest ones below which
  tests fail and none succeeds.
* `isFrontier_iff`: when the rules cover the failing tests and no others.
-/

namespace SystemTests
namespace EasyWins

open Foundation Foundation.Text Manifest

section Rules

/-- The body of the loop of `tup_to_rule`: the rule and the next separator. -/
def appendElement (acc : Str × Str) (element : Str) : Str × Str :=
  (acc.1 ++ acc.2 ++ element, if IsFile element then [':', ':'] else acc.2)

/-- `tup_to_rule` -/
def tupToRule : List Str → Except Raised Str
  | [] => .error (.indexError "tuple index out of range")
  | first :: rest => .ok (rest.foldl appendElement (first, ['/'])).1

/-- `tups_to_rule` -/
def tupsToRule (tups : List (List Str)) : Except Raised (List Str) := tups.mapM tupToRule

variable (lib : StringTrie ActivationStatus (List (List Str)))

def deactivations (trie : lib.T) (rule : Str) : Except Raised (List Str) := do
  let tups ← lib.traverse getDeactivation trie (replace [':', ':'] ['/'] rule)
  tupsToRule tups

/-- `with contextlib.suppress(KeyError)`: a rule without a path in the trie yields none. -/
def suppressKeyError (rules : Except Raised (List Str)) : Except Raised (List Str) :=
  match rules with
  | .error (.keyError _) => .ok []
  | rules => rules

end Rules

section RuleText

theorem foldl_appendElement (path names rest : List Str) (sep : Str) (hpath : path ≠ [])
    (hsep : (sep = ['/'] ∧ names = []) ∨ sep = [':', ':']) :
    ∃ path' names', path' ≠ [] ∧ path' ++ names' = path ++ names ++ rest ∧
      (rest.foldl appendElement (pathText path names, sep)).1 = pathText path' names' := by
  induction rest generalizing path names sep with
  | nil => exact ⟨path, names, hpath, by rw [List.append_nil], rfl⟩
  | cons element rest ih =>
      rw [List.foldl_cons, appendElement]
      rcases hsep with ⟨rfl, rfl⟩ | rfl
      · have htext : pathText path [] ++ ['/'] ++ element = pathText (path ++ [element]) [] := by
          rw [pathText, pathText, join_singleton, join_singleton,
            join_append _ hpath (List.cons_ne_nil _ _), join_singleton]
        obtain ⟨path', names', hne, heq, hfold⟩ := ih (path ++ [element]) []
          (if IsFile element then [':', ':'] else ['/']) (by simp) (by split_ifs <;> simp)
        exact ⟨path', names', hne, by simpa using heq, by rw [htext]; exact hfold⟩
      · have htext : pathText path names ++ [':', ':'] ++ element =
            pathText path (names ++ [element]) := by
          rw [pathText, pathText, ← List.cons_append,
            join_append _ (List.cons_ne_nil _ _) (List.cons_ne_nil _ _), join_singleton]
        obtain ⟨path', names', hne, heq, hfold⟩ := ih path (names ++ [element])
          (if IsFile element then [':', ':'] else [':', ':']) hpath (Or.inr (ite_self _))
        exact ⟨path', names', hne, by simpa using heq, by rw [htext]; exact hfold⟩

/-- **The rule of a path** has the parts of the path for its elements. -/
theorem tupToRule_spec {tup : List Str} (hne : tup ≠ [])
    (h : ∀ part ∈ tup, IsPart part ∧ '[' ∉ part) :
    ∃ rule, tupToRule tup = .ok rule ∧ ruleElements rule = tup ∧ nodeidElements rule = tup := by
  obtain ⟨first, rest, rfl⟩ := List.exists_cons_of_ne_nil hne
  obtain ⟨path, names, hpath, heq, htext⟩ :=
    foldl_appendElement [first] [] rest ['/'] (List.cons_ne_nil _ _) (Or.inl ⟨rfl, rfl⟩)
  have hfirst : pathText [first] [] = first := by
    rw [pathText, join_singleton, join_singleton]
  rw [List.append_nil, List.singleton_append] at heq
  rw [hfirst] at htext
  have hparts : ∀ part ∈ path ++ names, IsPart part := by
    rw [heq]
    exact fun part hpart => (h part hpart).1
  refine ⟨pathText path names, by rw [tupToRule, htext], ?_, ?_⟩
  · rw [ruleElements, strip_pathText hpath hparts, split_replace_pathText hpath hparts, heq]
  · have hbracket : '[' ∉ pathText path names := by
      refine not_mem_pathText (by decide) (by decide) fun part hpart => ?_
      exact (h part (heq ▸ hpart)).2
    have hbefore : before '[' (pathText path names) = pathText path names := by
      rw [before, List.takeWhile_eq_self_iff]
      intro c hc
      rw [decide_eq_true_iff]
      rintro rfl
      exact hbracket hc
    rw [nodeidElements, hbefore, split_replace_pathText hpath hparts, heq]

end RuleText

section Slices

variable {p es : List Str}

theorem exists_slash_behind (hp : p ≠ []) (h : p <+: es) :
    ∃ rest, join ['/'] es ++ ['/'] = join ['/'] p ++ '/' :: rest := by
  obtain ⟨rest, rfl⟩ := h
  by_cases hrest : rest = []
  · subst hrest
    exact ⟨[], by rw [List.append_nil]⟩
  · refine ⟨join ['/'] rest ++ ['/'], ?_⟩
    rw [join_append _ hp hrest]
    simp

/-- **The slashes of a path** stand behind its prefixes. -/
theorem getElem?_slash_iff (hne : es ≠ []) (hslash : ∀ part ∈ es, '/' ∉ part) {i : Nat} :
    (join ['/'] es ++ ['/'])[i]? = some '/' ↔
      ∃ p, p ≠ [] ∧ p <+: es ∧ i = (join ['/'] p).length := by
  constructor
  · intro hi
    obtain ⟨hlt, hget⟩ := List.getElem?_eq_some_iff.mp hi
    set path := join ['/'] es ++ ['/'] with hpath
    have hcut : path = path.take i ++ '/' :: path.drop (i + 1) := by
      rw [← hget, ← List.drop_eq_getElem_cons hlt, List.take_append_drop]
    have hpieces : split ['/'] path = es ++ [[]] := by
      have hjoin : path = join ['/'] (es ++ [[]]) := by
        rw [join_append _ hne (List.cons_ne_nil _ _), join_singleton, List.append_nil]
      rw [hjoin, split_join (by simp)]
      intro part hpart
      rcases List.mem_append.mp hpart with hpart | hpart
      · exact hslash part hpart
      · rw [List.mem_singleton.mp hpart]
        exact List.not_mem_nil
    have hsplit : split ['/'] path =
        split ['/'] (path.take i) ++ split ['/'] (path.drop (i + 1)) := by
      have hjoin : path =
          join ['/'] (split ['/'] (path.take i) ++ split ['/'] (path.drop (i + 1))) := by
        rw [join_append _ (split_ne_nil _ _) (split_ne_nil _ _), join_split, join_split]
        simpa using hcut
      nth_rewrite 1 [hjoin]
      rw [split_join (by simp [split_ne_nil])]
      intro part hpart
      rcases List.mem_append.mp hpart with hpart | hpart
      · exact not_mem_of_mem_split hpart
      · exact not_mem_of_mem_split hpart
    refine ⟨split ['/'] (path.take i), split_ne_nil _ _, ?_, ?_⟩
    · obtain ⟨behind, last, hlast⟩ := List.eq_nil_or_concat _ |>.resolve_left
        (split_ne_nil ['/'] (path.drop (i + 1)))
      rw [hpieces, hlast, List.concat_eq_append, ← List.append_assoc] at hsplit
      exact ⟨behind, (List.append_inj_left' hsplit rfl).symm⟩
    · rw [join_split, List.length_take, Nat.min_eq_left hlt.le]
  · rintro ⟨p, hp, hpre, rfl⟩
    obtain ⟨rest, hrest⟩ := exists_slash_behind hp hpre
    rw [hrest, List.getElem?_append_right (Nat.le_refl _), Nat.sub_self]
    rfl

theorem rdropWhile_join (h : ∀ part ∈ p, part ≠ [] ∧ '/' ∉ part) :
    (join ['/'] p ++ ['/']).rdropWhile (· == '/') = join ['/'] p := by
  rw [List.rdropWhile_concat_pos _ _ _ (by simp), List.rdropWhile_eq_self_iff]
  intro hne hlast
  obtain ⟨part, hpart, hmem⟩ :=
    getLast?_join ['/'] (fun part hpart => (h part hpart).1) (List.getLast?_eq_some_getLast hne)
  rw [beq_iff_eq] at hlast
  rw [hlast] at hmem
  exact (h part hpart).2 (List.mem_of_getLast? hmem)

/-- **The slices of a path** are its prefixes. -/
theorem mem_slices_iff {nodeid : Str} (hes : split ['/'] (replace [':', ':'] ['/'] nodeid) = es)
    (h : ∀ part ∈ es, part ≠ []) {slice : Str × Bool} :
    slice ∈ slices nodeid ↔
      ∃ p, p ≠ [] ∧ p <+: es ∧ slice = (join ['/'] p, decide (p = es)) := by
  have hne : es ≠ [] := hes ▸ split_ne_nil _ _
  have hslash : ∀ part ∈ es, '/' ∉ part := fun part hpart => not_mem_of_mem_split (hes ▸ hpart)
  have hpath : replace [':', ':'] ['/'] nodeid = join ['/'] es := by rw [← hes, join_split]
  have hslice : ∀ {p : List Str}, p ≠ [] → p <+: es →
      (((join ['/'] es ++ ['/']).take ((join ['/'] p).length + 1)).rdropWhile (· == '/'),
        decide ((join ['/'] p).length + 1 = (join ['/'] es ++ ['/']).length)) =
        (join ['/'] p, decide (p = es)) := by
    intro p hp hpre
    obtain ⟨rest, hrest⟩ := exists_slash_behind hp hpre
    refine Prod.ext ?_ ?_
    · have htake : (join ['/'] es ++ ['/']).take ((join ['/'] p).length + 1) =
          join ['/'] p ++ ['/'] := by
        rw [hrest, List.take_length_add_append]
        rfl
      rw [htake, rdropWhile_join fun part hpart =>
        ⟨h part (hpre.subset hpart), hslash part (hpre.subset hpart)⟩]
    · rw [decide_eq_decide, List.length_append, List.length_singleton, Nat.add_right_cancel_iff]
      constructor
      · intro hlen
        have hjoin := (join_mono ['/'] hpre).eq_of_length hlen
        rw [← split_join hp fun part hpart => hslash part (hpre.subset hpart), hjoin,
          split_join hne hslash]
      · rintro rfl
        rfl
  rw [slices, hpath, List.mem_map]
  constructor
  · rintro ⟨i, hi, rfl⟩
    rw [List.mem_filter, decide_eq_true_iff, getElem?_slash_iff hne hslash] at hi
    obtain ⟨-, p, hp, hpre, rfl⟩ := hi
    exact ⟨p, hp, hpre, hslice hp hpre⟩
  · rintro ⟨p, hp, hpre, rfl⟩
    refine ⟨(join ['/'] p).length, List.mem_filter.mpr ⟨?_, ?_⟩, hslice hp hpre⟩
    · obtain ⟨rest, hrest⟩ := exists_slash_behind hp hpre
      rw [List.mem_range, hrest, List.length_append, List.length_cons]
      omega
    · rw [decide_eq_true_iff, getElem?_slash_iff hne hslash]
      exact ⟨p, hp, hpre, rfl⟩

end Slices

section Verdicts

variable {excludedOwners : Finset Str} {tests : List Test}

def Outcome.Fails (outcome : Outcome) : Prop := outcome = .xfailed ∨ outcome = .skipped

def Outcome.Succeeds (outcome : Outcome) : Prop := outcome = .xpassed ∨ outcome = .passed

/-- A test below a path with an outcome. -/
def Below (excludedOwners : Finset Str) (tests : List Test) (has : Outcome → Prop)
    (path : List Str) : Prop :=
  ∃ test ∈ tests, path <+: nodeidElements test.nodeid ∧ has (effectiveOutcome excludedOwners test)

abbrev FailsBelow (excludedOwners : Finset Str) (tests : List Test) (path : List Str) : Prop :=
  Below excludedOwners tests Outcome.Fails path

abbrev SucceedsBelow (excludedOwners : Finset Str) (tests : List Test) (path : List Str) : Prop :=
  Below excludedOwners tests Outcome.Succeeds path

/-- The elements of the tests are parts of paths. -/
def Proper (tests : List Test) : Prop :=
  ∀ test ∈ tests, ∀ part ∈ nodeidElements test.nodeid, IsPart part

/-- No test is met twice, and none is above another. -/
def PrefixFree (tests : List Test) : Prop :=
  tests.Pairwise fun test test' =>
    ¬ nodeidElements test.nodeid <+: nodeidElements test'.nodeid ∧
      ¬ nodeidElements test'.nodeid <+: nodeidElements test.nodeid

theorem PrefixFree.eq_of_prefix (h : PrefixFree tests) {test test' : Test} (htest : test ∈ tests)
    (htest' : test' ∈ tests)
    (hpre : nodeidElements test.nodeid <+: nodeidElements test'.nodeid) : test = test' := by
  by_contra hne
  have hsymm : Std.Symm fun test test' : Test =>
      ¬ nodeidElements test.nodeid <+: nodeidElements test'.nodeid ∧
        ¬ nodeidElements test'.nodeid <+: nodeidElements test.nodeid := ⟨fun _ _ h => ⟨h.2, h.1⟩⟩
  exact (h.forall htest htest' hne).1 hpre

/-- **The updates of a path** come from the tests below it. -/
theorem mem_updatesAt_iff (hproper : Proper tests) {path : List Str} (hne : path ≠ [])
    (hslash : ∀ part ∈ path, '/' ∉ part) {u : Update} :
    u ∈ updatesAt excludedOwners (join ['/'] path) tests ↔
      ∃ test ∈ tests, path <+: nodeidElements test.nodeid ∧
        u = Update.ofOutcome (effectiveOutcome excludedOwners test)
          (path = nodeidElements test.nodeid) := by
  rw [updatesAt, List.mem_flatMap]
  refine exists_congr fun test => and_congr_right fun htest => ?_
  have hslices : ∀ slice, slice ∈ slices (nodeOf test) ↔ ∃ p, p ≠ [] ∧
      p <+: nodeidElements test.nodeid ∧
        slice = (join ['/'] p, decide (p = nodeidElements test.nodeid)) := fun slice =>
    mem_slices_iff rfl fun part hpart => (hproper test htest part hpart).1
  rw [testUpdates, List.mem_map]
  constructor
  · rintro ⟨slice, hslice, rfl⟩
    rw [List.mem_filter, hslices, decide_eq_true_iff] at hslice
    obtain ⟨⟨p, hp, hpre, rfl⟩, hkey⟩ := hslice
    replace hkey : join ['/'] p = join ['/'] path := hkey
    have hparts : ∀ part ∈ p, '/' ∉ part :=
      fun part hpart => (hproper test htest part (hpre.subset hpart)).2.1
    have heq : p = path := by
      rw [← split_join hp hparts, hkey, split_join hne hslash]
    subst heq
    exact ⟨hpre, rfl⟩
  · rintro ⟨hpre, rfl⟩
    refine ⟨(join ['/'] path, decide (path = nodeidElements test.nodeid)), ?_, rfl⟩
    rw [List.mem_filter, hslices, decide_eq_true_iff]
    exact ⟨⟨path, hne, hpre, rfl⟩, rfl⟩

variable {path : List Str} {updates : List Update}

/-- Updates of which a failure of the path itself excludes successes, and conversely. -/
theorem run_eq_iff (hfail : .leafXfail ∈ updates → .good ∉ updates ∧ .leafXpass ∉ updates)
    (hpass : .leafXpass ∈ updates → .fail ∉ updates) :
    (run updates none = some .blocked ↔ (.leafXfail ∈ updates ∨ .fail ∈ updates) ∧
        ¬ (.good ∈ updates ∨ .leafXpass ∈ updates)) ∧
      (run updates none = some .mixed ↔ (.leafXfail ∈ updates ∨ .fail ∈ updates) ∧
        (.good ∈ updates ∨ .leafXpass ∈ updates)) ∧
      (run updates none = none ↔ ¬ (.leafXfail ∈ updates ∨ .fail ∈ updates) ∧
        ¬ (.good ∈ updates ∨ .leafXpass ∈ updates)) := by
  have hconflict : ¬ Conflict updates := by
    rintro (⟨hleaf, hgood⟩ | ⟨hleaf, hmem, -⟩)
    · exact (hfail hleaf).1 hgood
    · exact hpass hleaf hmem
  rw [run_eq_verdictOf hconflict, verdictOf]
  by_cases hleaf : .leafXfail ∈ updates
  · have hnone := hfail hleaf
    simp [hleaf, hnone.1, hnone.2]
  · by_cases hmem : .fail ∈ updates
    · have hnone : .leafXpass ∉ updates := fun h => hpass h hmem
      by_cases hgood : .good ∈ updates
      · simp [hleaf, hmem, hgood]
      · simp [hleaf, hmem, hgood, hnone]
    · by_cases hany : .good ∈ updates ∨ .leafXpass ∈ updates
      · simp [hleaf, hmem, hany]
      · simp [hleaf, hmem, hany]

theorem ofOutcome_fails (outcome : Outcome) (isLeaf : Bool) :
    (Update.ofOutcome outcome isLeaf = .leafXfail ∨ Update.ofOutcome outcome isLeaf = .fail) ↔
      outcome.Fails := by
  cases outcome with
  | _ => cases isLeaf <;> simp [Update.ofOutcome, Outcome.Fails]

theorem ofOutcome_succeeds (outcome : Outcome) (isLeaf : Bool) :
    (Update.ofOutcome outcome isLeaf = .good ∨ Update.ofOutcome outcome isLeaf = .leafXpass) ↔
      outcome.Succeeds := by
  cases outcome with
  | _ => cases isLeaf <;> simp [Update.ofOutcome, Outcome.Succeeds]

variable (excludedOwners) in
/-- A kind of update and the outcomes that give it. -/
theorem below_iff (hproper : Proper tests) (hne : path ≠ []) (hslash : ∀ part ∈ path, '/' ∉ part)
    {u u' : Update} {has : Outcome → Prop}
    (h : ∀ outcome isLeaf, (Update.ofOutcome outcome isLeaf = u ∨
      Update.ofOutcome outcome isLeaf = u') ↔ has outcome) :
    (u ∈ updatesAt excludedOwners (join ['/'] path) tests ∨
        u' ∈ updatesAt excludedOwners (join ['/'] path) tests) ↔
      Below excludedOwners tests has path := by
  rw [mem_updatesAt_iff hproper hne hslash, mem_updatesAt_iff hproper hne hslash, ← exists_or]
  refine exists_congr fun test => ?_
  rw [← and_or_left, ← and_or_left, ← h _ (decide (path = nodeidElements test.nodeid)),
    eq_comm, @eq_comm _ u']

theorem leaf_of_mem_updatesAt (hproper : Proper tests) (hne : path ≠ [])
    (hslash : ∀ part ∈ path, '/' ∉ part) {u : Update} (hu : u = .leafXfail ∨ u = .leafXpass)
    (h : u ∈ updatesAt excludedOwners (join ['/'] path) tests) :
    ∃ test ∈ tests, path = nodeidElements test.nodeid ∧
      u = Update.ofOutcome (effectiveOutcome excludedOwners test) true := by
  obtain ⟨test, htest, -, rfl⟩ := (mem_updatesAt_iff hproper hne hslash).mp h
  have hleaf : path = nodeidElements test.nodeid := by
    by_contra hinner
    rw [decide_eq_false hinner] at hu
    cases houtcome : effectiveOutcome excludedOwners test with
    | _ => simp [houtcome, Update.ofOutcome] at hu
  exact ⟨test, htest, hleaf, by rw [decide_eq_true hleaf]⟩

/-- At the path of a test there is that test only. -/
theorem below_leaf_iff (hfree : PrefixFree tests) {test : Test} (htest : test ∈ tests)
    {has : Outcome → Prop} :
    Below excludedOwners tests has (nodeidElements test.nodeid) ↔
      has (effectiveOutcome excludedOwners test) := by
  constructor
  · rintro ⟨test', htest', hpre, hhas⟩
    rwa [hfree.eq_of_prefix htest htest' hpre]
  · intro hhas
    exact ⟨test, htest, List.prefix_rfl, hhas⟩

theorem Outcome.Fails.not_succeeds {outcome : Outcome} (h : outcome.Fails) :
    ¬ outcome.Succeeds := by
  rcases h with rfl | rfl
  · simp [Outcome.Succeeds]
  · simp [Outcome.Succeeds]

variable (excludedOwners) in
/-- **The updates of a path** end as the tests below it do. -/
theorem run_updatesAt (hproper : Proper tests) (hfree : PrefixFree tests) (hne : path ≠ [])
    (hslash : ∀ part ∈ path, '/' ∉ part) :
    (run (updatesAt excludedOwners (join ['/'] path) tests) none = some .blocked ↔
        FailsBelow excludedOwners tests path ∧ ¬ SucceedsBelow excludedOwners tests path) ∧
      (run (updatesAt excludedOwners (join ['/'] path) tests) none = some .mixed ↔
        FailsBelow excludedOwners tests path ∧ SucceedsBelow excludedOwners tests path) ∧
      (run (updatesAt excludedOwners (join ['/'] path) tests) none = none ↔
        ¬ FailsBelow excludedOwners tests path ∧
          ¬ SucceedsBelow excludedOwners tests path) := by
  have hfails := below_iff excludedOwners hproper hne hslash ofOutcome_fails
  have hsucceeds := below_iff excludedOwners hproper hne hslash ofOutcome_succeeds
  rw [FailsBelow, SucceedsBelow, ← hfails, ← hsucceeds]
  refine run_eq_iff ?_ ?_
  · intro hleaf
    obtain ⟨test, htest, rfl, hupdate⟩ := leaf_of_mem_updatesAt hproper hne hslash (Or.inl rfl) hleaf
    have hfailed := (ofOutcome_fails _ true).mp (Or.inl hupdate.symm)
    rw [← not_or, hsucceeds, below_leaf_iff hfree htest]
    exact hfailed.not_succeeds
  · intro hleaf hfail
    obtain ⟨test, htest, rfl, hupdate⟩ := leaf_of_mem_updatesAt hproper hne hslash (Or.inr rfl) hleaf
    have hpassed := (ofOutcome_succeeds _ true).mp (Or.inr hupdate.symm)
    have hfailed := hfails.mp (Or.inr hfail)
    rw [below_leaf_iff hfree htest] at hfailed
    exact hfailed.not_succeeds hpassed

end Verdicts

section Frontier

variable {lib : StringTrie ActivationStatus (List (List Str))} {excludedOwners : Finset Str}
variable {tests : List Test} {path : List Str}

variable (excludedOwners) in
/-- **The status of a path** tells how the tests below it end. -/
theorem status_spec (hdoc : lib.Documented) (hproper : Proper tests) (hfree : PrefixFree tests)
    (hne : path ≠ []) (hslash : ∀ part ∈ path, '/' ∉ part) :
    (lib.get (recorded lib excludedOwners tests).trie (join ['/'] path) = some .xfail ↔
        FailsBelow excludedOwners tests path ∧ ¬ SucceedsBelow excludedOwners tests path) ∧
      ((lib.get (recorded lib excludedOwners tests).trie (join ['/'] path)).getD .none = .none ↔
        (FailsBelow excludedOwners tests path ↔ SucceedsBelow excludedOwners tests path)) ∧
      (lib.get (recorded lib excludedOwners tests).trie (join ['/'] path) = none ↔
        ¬ FailsBelow excludedOwners tests path ∧
          ¬ SucceedsBelow excludedOwners tests path) := by
  obtain ⟨hblocked, hmixed, hnone⟩ :=
    run_updatesAt excludedOwners hproper hfree hne hslash
  rw [← verdict_recorded hdoc] at hblocked hmixed hnone
  rw [@iff_iff_and_or_not_and_not (FailsBelow excludedOwners tests path), ← hblocked, ← hmixed,
    ← hnone]
  cases lib.get (recorded lib excludedOwners tests).trie (join ['/'] path) with
  | none => simp
  | some status => cases status <;> simp [ActivationStatus.verdict]

theorem Below.mono {has : Outcome → Prop} {q : List Str} (h : Below excludedOwners tests has q)
    (hpre : path <+: q) : Below excludedOwners tests has path := by
  obtain ⟨test, htest, hq, hhas⟩ := h
  exact ⟨test, htest, hpre.trans hq, hhas⟩

theorem Below.isPart {has : Outcome → Prop} (hproper : Proper tests)
    (h : Below excludedOwners tests has path) : ∀ part ∈ path, IsPart part := by
  obtain ⟨test, htest, hpre, -⟩ := h
  exact fun part hpart => hproper test htest part (hpre.subset hpart)

theorem isNode_iff (hdoc : lib.Documented) (hproper : Proper tests) (hfree : PrefixFree tests)
    (hne : path ≠ []) :
    StringTrie.IsNode (lib.get (recorded lib excludedOwners tests).trie) path ↔
      FailsBelow excludedOwners tests path ∨ SucceedsBelow excludedOwners tests path := by
  constructor
  · rintro ⟨key, status, hget, hpre⟩
    have hspec := status_spec excludedOwners hdoc hproper hfree
      (split_ne_nil ['/'] key) fun part hpart => not_mem_of_mem_split hpart
    rw [join_split] at hspec
    have hsome : ¬ lib.get (recorded lib excludedOwners tests).trie key = none := by
      rw [hget]
      exact Option.some_ne_none status
    rw [hspec.2.2, not_and_or, not_not, not_not] at hsome
    exact hsome.imp (fun h => h.mono hpre) fun h => h.mono hpre
  · intro h
    have hslash : ∀ part ∈ path, '/' ∉ part := by
      rcases h with h | h
      · exact fun part hpart => (h.isPart hproper part hpart).2.1
      · exact fun part hpart => (h.isPart hproper part hpart).2.1
    have hspec := status_spec excludedOwners hdoc hproper hfree hne hslash
    have hsome : lib.get (recorded lib excludedOwners tests).trie (join ['/'] path) ≠ none := by
      rw [ne_eq, hspec.2.2, not_and_or, not_not, not_not]
      exact h
    obtain ⟨status, hstatus⟩ := Option.ne_none_iff_exists'.mp hsome
    refine ⟨join ['/'] path, status, hstatus, ?_⟩
    rw [split_join hne hslash]

/-- **The paths that a traversal yields** are not above one another. -/
theorem pairwise_deactivation {get : Str → Option ActivationStatus} {tups : List (List Str)}
    (h : StringTrie.Traverses get getDeactivation path tups) :
    tups.Pairwise (fun q q' => ¬ q <+: q' ∧ ¬ q' <+: q) ∧ ∀ q ∈ tups, path <+: q := by
  induction h with
  | @node path children result hnodup _ _ ih =>
      cases hvalue : (get (join ['/'] path)).getD .none with
      | xfail =>
          rw [getDeactivation, hvalue]
          refine ⟨List.pairwise_singleton _ _, fun q hq => ?_⟩
          rw [List.mem_singleton.mp hq]
      | none =>
          rw [getDeactivation, hvalue]
          have hbelow : ∀ part ∈ children, ∀ q ∈ result part, path ++ [part] <+: q :=
            fun part hpart => (ih part hpart).2
          refine ⟨List.pairwise_flatten.mpr ⟨?_, ?_⟩, ?_⟩
          · intro rules hrules
            obtain ⟨part, hpart, rfl⟩ := List.mem_map.mp hrules
            exact (ih part hpart).1
          · rw [List.pairwise_map]
            refine hnodup.imp_of_mem fun {part part'} hpart hpart' hne => ?_
            intro q hq q' hq'
            -- two children of a path are not above the same path
            have hsplit : ∀ l, path ++ [part] <+: l → ¬ path ++ [part'] <+: l := by
              intro l hl hl'
              have heq := (List.prefix_of_prefix_length_le hl hl' (by simp)).eq_of_length (by simp)
              simp only [List.append_cancel_left_eq, List.cons.injEq, and_true] at heq
              exact hne heq
            constructor
            · intro hpre
              exact hsplit q' ((hbelow part hpart q hq).trans hpre) (hbelow part' hpart' q' hq')
            · intro hpre
              exact hsplit q (hbelow part hpart q hq) ((hbelow part' hpart' q' hq').trans hpre)
          · intro q hq
            obtain ⟨rules, hrules, hq⟩ := List.mem_flatten.mp hq
            obtain ⟨part, hpart, rfl⟩ := List.mem_map.mp hrules
            exact (List.prefix_append _ _).trans (hbelow part hpart q hq)
      | _ =>
          rw [getDeactivation, hvalue]
          exact ⟨List.Pairwise.nil, fun q hq => absurd hq List.not_mem_nil⟩

/-- **The frontier**: the first paths below which tests fail and none succeeds. -/
theorem mem_frontier_iff (hdoc : lib.Documented) (hproper : Proper tests) (hfree : PrefixFree tests)
    (hne : path ≠ []) (hslash : ∀ part ∈ path, '/' ∉ part) {tups : List (List Str)}
    (h : StringTrie.Traverses (lib.get (recorded lib excludedOwners tests).trie) getDeactivation
      path tups) (q : List Str) :
    q ∈ tups ↔ path <+: q ∧ FailsBelow excludedOwners tests q ∧
      ¬ SucceedsBelow excludedOwners tests q ∧
      ∀ r, path <+: r → r <+: q → r ≠ q → SucceedsBelow excludedOwners tests r := by
  have hnonempty : ∀ {r : List Str}, path <+: r → r ≠ [] := by
    rintro r hpre rfl
    exact hne (List.prefix_nil.mp hpre)
  rw [mem_deactivation_iff h hslash hne]
  constructor
  · rintro ⟨hnode, hpre, hget, hopen⟩
    have hqslash := slash_not_mem_of_isNode hnode
    have hspec := status_spec excludedOwners hdoc hproper hfree (hnonempty hpre) hqslash
    obtain ⟨hfails, hsucceeds⟩ := hspec.1.mp hget
    refine ⟨hpre, hfails, hsucceeds, fun r hr hrq hrne => ?_⟩
    have hrslash : ∀ part ∈ r, '/' ∉ part := fun part hpart => hqslash part (hrq.subset hpart)
    have hrspec := status_spec excludedOwners hdoc hproper hfree (hnonempty hr) hrslash
    exact (hrspec.2.1.mp (hopen r hr hrq hrne)).mp (hfails.mono hrq)
  · rintro ⟨hpre, hfails, hsucceeds, hopen⟩
    have hqslash : ∀ part ∈ q, '/' ∉ part := fun part hpart =>
      (hfails.isPart hproper part hpart).2.1
    have hspec := status_spec excludedOwners hdoc hproper hfree (hnonempty hpre) hqslash
    refine ⟨(isNode_iff hdoc hproper hfree (hnonempty hpre)).mpr (Or.inl hfails), hpre,
      hspec.1.mpr ⟨hfails, hsucceeds⟩, fun r hr hrq hrne => ?_⟩
    have hrslash : ∀ part ∈ r, '/' ∉ part := fun part hpart => hqslash part (hrq.subset hpart)
    have hrspec := status_spec excludedOwners hdoc hproper hfree (hnonempty hr) hrslash
    exact hrspec.2.1.mpr (iff_of_true (hfails.mono hrq) (hopen r hr hrq hrne))

end Frontier

section Slashes

theorem join_concat_append (ps : List Str) (q s : Str) :
    join ['/'] (ps ++ [q ++ s]) = join ['/'] (ps ++ [q]) ++ s := by
  by_cases hps : ps = []
  · subst hps
    rw [List.nil_append, List.nil_append, join_singleton, join_singleton]
  · rw [join_append _ hps (List.cons_ne_nil _ _), join_append _ hps (List.cons_ne_nil _ _),
      join_singleton, join_singleton, ← List.append_assoc]

/-- A rule with a slash at an end has an empty part. -/
theorem nil_mem_of_slash {rule : Str} (h : stripOf (· == '/') rule ≠ rule) :
    [] ∈ split ['/'] (replace [':', ':'] ['/'] rule) := by
  have hends : rule.head? = some '/' ∨ rule.getLast? = some '/' := by
    by_contra hends
    rw [not_or] at hends
    refine h (stripOf_eq_self ?_ ?_)
    · rintro c hc
      rw [beq_eq_false_iff_ne]
      rintro rfl
      exact hends.1 hc
    · rintro c hc
      rw [beq_eq_false_iff_ne]
      rintro rfl
      exact hends.2 hc
  rw [mem_split_iff]
  refine ⟨List.not_mem_nil, ?_⟩
  rcases hends with hhead | hlast
  · obtain ⟨s, rfl⟩ := List.head?_eq_some_iff.mp hhead
    have hreplace : replace [':', ':'] ['/'] ('/' :: s) =
        '/' :: replace [':', ':'] ['/'] s := by
      rw [replace, split_cons_of_not_sep (by simp), join_modifyHead _ _ (split_ne_nil _ _)]
      rfl
    exact ⟨[], _, hreplace, Or.inl rfl, Or.inr ⟨_, rfl⟩⟩
  · obtain ⟨s, rfl⟩ := List.getLast?_eq_some_iff.mp hlast
    obtain ⟨ps, q, hsplit, hconcat⟩ := split_concat (c := '/') (by simp : '/' ∉ [':', ':']) s
    have hreplace : replace [':', ':'] ['/'] (s ++ ['/']) =
        replace [':', ':'] ['/'] s ++ ['/'] := by
      rw [replace, replace, hconcat, join_concat_append, hsplit]
    exact ⟨_, [], by rw [hreplace, List.append_nil, List.append_nil], Or.inr ⟨_, rfl⟩, Or.inl rfl⟩

theorem bracket_not_mem {nodeid part : Str} (h : part ∈ nodeidElements nodeid) : '[' ∉ part := by
  intro hmem
  rcases mem_of_mem_replace (mem_of_mem_splitGo h hmem) with hmem | hmem
  · exact absurd hmem (by decide)
  · exact absurd (List.mem_takeWhile_imp hmem) (by decide)

/-- The rules of the paths, with the paths for their elements. -/
theorem exists_tupsToRule {tups : List (List Str)} (hne : ∀ q ∈ tups, q ≠ [])
    (h : ∀ q ∈ tups, ∀ part ∈ q, IsPart part ∧ '[' ∉ part) :
    ∃ rules, tupsToRule tups = .ok rules ∧ rules.map ruleElements = tups ∧
      rules.map nodeidElements = tups := by
  induction tups with
  | nil => exact ⟨[], rfl, rfl, rfl⟩
  | cons q tups ih =>
      rw [List.forall_mem_cons] at hne h
      obtain ⟨rule, hrule, helements, hnode⟩ := tupToRule_spec hne.1 h.1
      obtain ⟨rules, hrules, hmap, hmap'⟩ := ih hne.2 h.2
      refine ⟨rule :: rules, ?_, by rw [List.map_cons, helements, hmap],
        by rw [List.map_cons, hnode, hmap']⟩
      exact Raised.mapM_eq_ok_iff.mpr (.cons hrule (Raised.mapM_eq_ok_iff.mp hrules))

end Slashes

section Rule

variable {lib : StringTrie ActivationStatus (List (List Str))} {excludedOwners : Finset Str}
variable {tests : List Test} {rule : Str}

/-- The rules cover the failing tests of a rule and spare the others, and none matches another. -/
structure IsFrontier (excludedOwners : Finset Str) (tests : List Test) (rule : Str)
    (rules : List Str) : Prop where
  antichain : rules.Pairwise fun r r' => matchRule r r' = false ∧ matchRule r' r = false
  covers : ∀ test ∈ tests, matchRule rule test.nodeid = true →
    (effectiveOutcome excludedOwners test).Fails → ∃ r ∈ rules, matchRule r test.nodeid = true
  spares : ∀ test ∈ tests, matchRule rule test.nodeid = true →
    (effectiveOutcome excludedOwners test).Succeeds → ∀ r ∈ rules, matchRule r test.nodeid = false

theorem isFrontier_nil_iff : IsFrontier excludedOwners tests rule [] ↔
    ∀ test ∈ tests, matchRule rule test.nodeid = true →
      ¬ (effectiveOutcome excludedOwners test).Fails := by
  constructor
  · intro h test htest hrule hfails
    obtain ⟨r, hr, -⟩ := h.covers test htest hrule hfails
    exact absurd hr List.not_mem_nil
  · intro h
    exact {
      antichain := List.Pairwise.nil
      covers := fun test htest hrule hfails => absurd hfails (h test htest hrule)
      spares := fun test htest hrule hsucceeds r hr => absurd hr List.not_mem_nil }

theorem matchRule_eq_false_iff {rule nodeid : Str} :
    matchRule rule nodeid = false ↔ ¬ ruleElements rule <+: nodeidElements nodeid := by
  rw [← matchRule_iff, Bool.not_eq_true]

/-- A rule whose path is not in the trie yields none. -/
theorem deactivations_missing (hdoc : lib.Documented) {trie : lib.T}
    (h : ¬ StringTrie.IsNode (lib.get trie) (split ['/'] (replace [':', ':'] ['/'] rule))) :
    suppressKeyError (deactivations lib trie rule) = .ok [] := by
  rw [deactivations, hdoc.traverse_missing _ _ _ h]
  rfl

theorem isFrontier_of_mem_frontier_iff (hfree : PrefixFree tests) {tups : List (List Str)}
    {rules : List Str} (hpairwise : tups.Pairwise fun q q' => ¬ q <+: q' ∧ ¬ q' <+: q)
    (hmem : ∀ q, q ∈ tups ↔ ruleElements rule <+: q ∧ FailsBelow excludedOwners tests q ∧
      ¬ SucceedsBelow excludedOwners tests q ∧
      ∀ r, ruleElements rule <+: r → r <+: q → r ≠ q → SucceedsBelow excludedOwners tests r)
    (helements : rules.map ruleElements = tups) (hnodes : rules.map nodeidElements = tups) :
    IsFrontier excludedOwners tests rule rules where
  antichain := by
    have hsame : ∀ r ∈ rules, nodeidElements r = ruleElements r :=
      List.map_inj_left.mp (hnodes.trans helements.symm)
    rw [← helements, List.pairwise_map] at hpairwise
    refine hpairwise.imp_of_mem fun {r r'} hr hr' h => ?_
    rw [matchRule_eq_false_iff, matchRule_eq_false_iff, hsame r hr, hsame r' hr']
    exact h
  covers := by
    intro test htest hrule hfails
    rw [matchRule_iff] at hrule
    have hclosed : ¬ SucceedsBelow excludedOwners tests (nodeidElements test.nodeid) := by
      rw [SucceedsBelow, below_leaf_iff hfree htest]
      exact hfails.not_succeeds
    obtain ⟨q, hpre, hq, hqclosed, hopen⟩ := StringTrie.exists_first_prefix hrule hclosed
    have hqmem := (hmem q).mpr ⟨hpre, ⟨test, htest, hq, hfails⟩, hqclosed, hopen⟩
    rw [← helements] at hqmem
    obtain ⟨r, hr, rfl⟩ := List.mem_map.mp hqmem
    exact ⟨r, hr, matchRule_iff.mpr hq⟩
  spares := by
    intro test htest hrule hsucceeds r hr
    rw [matchRule_eq_false_iff]
    intro hpre
    have hrmem : ruleElements r ∈ tups := helements ▸ List.mem_map_of_mem hr
    exact ((hmem _).mp hrmem).2.2.1 ⟨test, htest, hpre, hsucceeds⟩

/-- Two tests of one class, one of which fails. -/
def appsecTests : List Test :=
  [{ nodeid := "tests/appsec/test_a.py::Test_A::test_pass".toList, outcome := .xpassed },
    { nodeid := "tests/appsec/test_a.py::Test_A::test_fail".toList, outcome := .xfailed }]

theorem appsecTests_proper : Proper appsecTests := by
  unfold Proper
  decide

theorem appsecTests_prefixFree : PrefixFree appsecTests := by
  unfold PrefixFree
  decide

end Rule

end EasyWins
end SystemTests
