import SystemTests.EasyWins.TestArtifact

/-!
# What is collected of the tests of a context

**Results.**
* `mem_xfailNodes_iff`, `mem_xpassNodes_iff`: the nodes that failed and passed.
* `verdict_recorded`: the verdict on a path is the run of its updates.
* `mem_deactivation_iff`: the paths that a traversal of the statuses yields.
* `sameRules_of_verdict`: the verdicts decide what is yielded.
-/

namespace SystemTests
namespace EasyWins

open Foundation Foundation.Text

section Recorded

variable {lib : StringTrie ActivationStatus (List (List Str))} {excludedOwners : Finset Str}

/-- What is collected of the tests of one context. -/
def recorded (lib : StringTrie ActivationStatus (List (List Str))) (excludedOwners : Finset Str)
    (tests : List Test) : TestData lib :=
  tests.foldl (recordTest lib excludedOwners) (.empty lib)

theorem recorded_concat (tests : List Test) (test : Test) :
    recorded lib excludedOwners (tests ++ [test]) =
      recordTest lib excludedOwners (recorded lib excludedOwners tests) test := by
  rw [recorded, List.foldl_append]
  rfl

/-- **The failed nodes** are those with some outcome other than an unexpected success. -/
theorem mem_xfailNodes_iff (tests : List Test) (node : Str) :
    node ∈ (recorded lib excludedOwners tests).xfailNodes ↔
      ∃ test ∈ tests, nodeOf test = node ∧ effectiveOutcome excludedOwners test ≠ .xpassed := by
  induction tests using List.reverseRecOn with
  | nil => simp [recorded, TestData.empty]
  | append_singleton tests test ih =>
      have hsplit : (∃ t ∈ tests ++ [test], nodeOf t = node ∧
            effectiveOutcome excludedOwners t ≠ .xpassed) ↔
          node ∈ (recorded lib excludedOwners tests).xfailNodes ∨
            (nodeOf test = node ∧ effectiveOutcome excludedOwners test ≠ .xpassed) := by
        rw [ih]
        simp [or_and_right, exists_or]
      rw [recorded_concat, hsplit, recordTest]
      by_cases hknown : nodeOf test ∈ (recorded lib excludedOwners tests).xfailNodes
      · simp only [hknown, if_true]
        constructor
        · exact Or.inl
        · rintro (h | ⟨rfl, -⟩)
          · exact h
          · exact hknown
      · simp only [hknown, if_false]
        split_ifs with houtcome
        · simp [houtcome]
        · rw [Finset.mem_insert]
          constructor
          · rintro (rfl | h)
            · exact Or.inr ⟨rfl, houtcome⟩
            · exact Or.inl h
          · rintro (h | ⟨rfl, -⟩)
            · exact Or.inr h
            · exact Or.inl rfl

/-- **The passed nodes** are those with unexpected successes only. -/
theorem mem_xpassNodes_iff (tests : List Test) (node : Str) :
    node ∈ (recorded lib excludedOwners tests).xpassNodes ↔
      (∃ test ∈ tests, nodeOf test = node) ∧
        ∀ test ∈ tests, nodeOf test = node →
          effectiveOutcome excludedOwners test = .xpassed := by
  induction tests using List.reverseRecOn with
  | nil => simp [recorded, TestData.empty]
  | append_singleton tests test ih =>
      have hfailed := @mem_xfailNodes_iff lib excludedOwners tests (nodeOf test)
      have hsplit : ((∃ t ∈ tests ++ [test], nodeOf t = node) ∧
            ∀ t ∈ tests ++ [test], nodeOf t = node →
              effectiveOutcome excludedOwners t = .xpassed) ↔
          ((∃ t ∈ tests, nodeOf t = node) ∨ nodeOf test = node) ∧
            (∀ t ∈ tests, nodeOf t = node → effectiveOutcome excludedOwners t = .xpassed) ∧
              (nodeOf test = node → effectiveOutcome excludedOwners test = .xpassed) := by
        simp [or_and_right, exists_or, or_imp, forall_and]
      rw [recorded_concat, hsplit, recordTest]
      by_cases hknown : nodeOf test ∈ (recorded lib excludedOwners tests).xfailNodes
      · simp only [hknown, if_true]
        obtain ⟨t, ht, hnode, houtcome⟩ := hfailed.mp hknown
        rw [ih]
        constructor
        · rintro ⟨hex, hall⟩
          refine ⟨Or.inl hex, hall, ?_⟩
          rintro rfl
          exact absurd (hall t ht hnode) houtcome
        · rintro ⟨hex | rfl, hall, -⟩
          · exact ⟨hex, hall⟩
          · exact absurd (hall t ht hnode) houtcome
      · simp only [hknown, if_false]
        have hpassed : ∀ t ∈ tests, nodeOf t = nodeOf test →
            effectiveOutcome excludedOwners t = .xpassed := by
          intro t ht hnode
          by_contra houtcome
          exact hknown (hfailed.mpr ⟨t, ht, hnode, houtcome⟩)
        split_ifs with houtcome
        · rw [Finset.mem_insert, ih]
          constructor
          · rintro (rfl | ⟨hex, hall⟩)
            · exact ⟨Or.inr rfl, hpassed, fun _ => houtcome⟩
            · exact ⟨Or.inl hex, hall, fun _ => houtcome⟩
          · rintro ⟨hex | hnode, hall, -⟩
            · exact Or.inr ⟨hex, hall⟩
            · exact Or.inl hnode.symm
        · rw [Finset.mem_erase, ih]
          constructor
          · rintro ⟨hne, hex, hall⟩
            exact ⟨Or.inl hex, hall, fun hnode => absurd hnode.symm hne⟩
          · rintro ⟨hex | hnode, hall, himp⟩
            · refine ⟨?_, hex, hall⟩
              rintro rfl
              exact houtcome (himp rfl)
            · exact absurd (himp hnode) houtcome

/-- The updates of a path by a test. -/
def testUpdates (excludedOwners : Finset Str) (key : Str) (test : Test) : List Update :=
  ((slices (nodeOf test)).filter (·.1 = key)).map fun slice =>
    Update.ofOutcome (effectiveOutcome excludedOwners test) slice.2

def updatesAt (excludedOwners : Finset Str) (key : Str) (tests : List Test) : List Update :=
  tests.flatMap (testUpdates excludedOwners key)

theorem get_setStatus (hdoc : lib.Documented) (outcome : Outcome) (trie : lib.T)
    (slice : Str × Bool) (key : Str) :
    lib.get (setStatus lib outcome trie slice) key =
      if slice.1 = key then nextStatus outcome slice.2 (lib.get trie key)
      else lib.get trie key := by
  unfold setStatus nextStatus
  split_ifs with hkey
  · subst hkey
    cases hassigned : assignedStatus outcome slice.2 (lib.get trie slice.1) with
    | none => rfl
    | some status => simp [hdoc.get_set]
  · cases hassigned : assignedStatus outcome slice.2 (lib.get trie slice.1) with
    | none => rfl
    | some status => simp [hdoc.get_set, Ne.symm hkey]

theorem verdict_foldl_setStatus (hdoc : lib.Documented) (outcome : Outcome) (key : Str) :
    ∀ (slices : List (Str × Bool)) (trie : lib.T),
      (lib.get (slices.foldl (setStatus lib outcome) trie) key).map ActivationStatus.verdict =
        run ((slices.filter (·.1 = key)).map fun slice => Update.ofOutcome outcome slice.2)
          ((lib.get trie key).map ActivationStatus.verdict)
  | [], _ => rfl
  | slice :: slices, trie => by
      rw [List.foldl_cons, verdict_foldl_setStatus hdoc outcome key slices,
        get_setStatus hdoc]
      by_cases hkey : slice.1 = key
      · simp [hkey, verdict_nextStatus]
      · simp [hkey]

/-- **The verdict on a path** is the run of its updates. -/
theorem verdict_recorded (hdoc : lib.Documented) (tests : List Test) (key : Str) :
    (lib.get (recorded lib excludedOwners tests).trie key).map ActivationStatus.verdict =
      run (updatesAt excludedOwners key tests) none := by
  induction tests using List.reverseRecOn with
  | nil =>
      rw [recorded, List.foldl_nil, TestData.empty, hdoc.get_empty]
      rfl
  | append_singleton tests test ih =>
      have htrie : (recorded lib excludedOwners (tests ++ [test])).trie =
          (slices (nodeOf test)).foldl (setStatus lib (effectiveOutcome excludedOwners test))
            (recorded lib excludedOwners tests).trie := by
        rw [recorded_concat]
        rfl
      rw [htrie, verdict_foldl_setStatus hdoc, ih, updatesAt, updatesAt, List.flatMap_append,
        run_append]
      simp [testUpdates]

end Recorded

section Traversal

variable {get get' : Str → Option ActivationStatus}

theorem isNode_of_prefix {path q : List Str} (h : StringTrie.IsNode get q) (hpath : path <+: q) :
    StringTrie.IsNode get path := by
  obtain ⟨key, a, hget, hq⟩ := h
  exact ⟨key, a, hget, hpath.trans hq⟩

theorem slash_not_mem_of_isNode {path : List Str} (h : StringTrie.IsNode get path) :
    ∀ part ∈ path, '/' ∉ part := by
  obtain ⟨key, a, -, hpath⟩ := h
  exact fun part hpart => not_mem_of_mem_split (hpath.subset hpart)

/-- **The paths that a traversal yields**: those that are blocked and are reached through
paths that leave the decision to others. -/
theorem mem_deactivation_iff {path : List Str} {rules : List (List Str)}
    (h : StringTrie.Traverses get getDeactivation path rules) :
    (∀ part ∈ path, '/' ∉ part) → path ≠ [] →
      ∀ q, q ∈ rules ↔ StringTrie.IsNode get q ∧ path <+: q ∧
        get (join ['/'] q) = some .xfail ∧
        ∀ r, path <+: r → r <+: q → r ≠ q → (get (join ['/'] r)).getD .none = .none := by
  induction h with
  | @node path children result _ hmem _ ih =>
      intro hparts hne q
      cases hvalue : (get (join ['/'] path)).getD .none with
      | xfail =>
          have hget : get (join ['/'] path) = some .xfail := by
            cases hg : get (join ['/'] path) with
            | none => simp [hg] at hvalue
            | some s => simpa [hg] using hvalue
          rw [getDeactivation, hvalue, List.mem_singleton]
          constructor
          · rintro rfl
            refine ⟨⟨_, _, hget, ?_⟩, List.prefix_rfl, hget, ?_⟩
            · rw [split_join hne hparts]
            · intro r hpr hrp hrne
              exact absurd (hrp.eq_of_length_le hpr.length_le) hrne
          · rintro ⟨-, hpath, -, hopen⟩
            by_contra hqne
            have hnone := hopen path List.prefix_rfl hpath (Ne.symm hqne)
            rw [hvalue] at hnone
            exact absurd hnone (by simp)
      | none =>
          rw [getDeactivation, hvalue, List.mem_flatten]
          constructor
          · rintro ⟨rules', hrules', hq⟩
            obtain ⟨part, hpart, rfl⟩ := List.mem_map.mp hrules'
            have hnode := (hmem part).mp hpart
            obtain ⟨hqnode, hpq, hget, hopen⟩ :=
              (ih part hpart (slash_not_mem_of_isNode hnode) (by simp) q).mp hq
            refine ⟨hqnode, (List.prefix_append path [part]).trans hpq, hget, ?_⟩
            intro r hpr hrq hrne
            by_cases hr : r = path
            · rw [hr, hvalue]
            · -- a longer path below goes through the same child
              have hlen : (path ++ [part]).length ≤ r.length := by
                have hlt : path.length < r.length := by
                  rcases Nat.lt_or_ge path.length r.length with hlt | hge
                  · exact hlt
                  · exact absurd (hpr.eq_of_length_le hge).symm hr
                simpa using hlt
              exact hopen r (List.prefix_of_prefix_length_le hpq hrq hlen) hrq hrne
          · rintro ⟨hqnode, ⟨rest, rfl⟩, hget, hopen⟩
            cases rest with
            | nil =>
                rw [List.append_nil] at hget
                rw [hget] at hvalue
                exact absurd hvalue (by simp)
            | cons part rest =>
                have hpq : path ++ [part] <+: path ++ part :: rest := ⟨rest, by simp⟩
                have hnode := isNode_of_prefix hqnode hpq
                have hpart := (hmem part).mpr hnode
                refine ⟨_, List.mem_map_of_mem hpart, ?_⟩
                refine (ih part hpart (slash_not_mem_of_isNode hnode) (by simp) _).mpr
                  ⟨hqnode, hpq, hget, ?_⟩
                intro r hpr hrq hrne
                exact hopen r ((List.prefix_append path [part]).trans hpr) hrq hrne
      | _ =>
          rw [getDeactivation, hvalue]
          constructor
          · intro hq
            exact absurd hq (by simp)
          · rintro ⟨-, hpath, hget, hopen⟩
            by_cases hq : path = q
            · rw [hq, hget] at hvalue
              exact absurd hvalue (by simp)
            · have hnone := hopen path List.prefix_rfl hpath hq
              rw [hvalue] at hnone
              exact absurd hnone (by simp)

/-- Two traversals that yield the same set of paths, or the same exception. -/
def SameRules : Except Raised (List (List Str)) → Except Raised (List (List Str)) → Prop
  | .ok rules, .ok rules' => ∀ q, q ∈ rules ↔ q ∈ rules'
  | .error e, .error e' => e = e'
  | _, _ => False

variable {lib : StringTrie ActivationStatus (List (List Str))}

/-- Verdicts tell which paths are blocked. -/
theorem eq_xfail_iff_of_verdict {s s' : Option ActivationStatus}
    (h : s.map ActivationStatus.verdict = s'.map ActivationStatus.verdict) :
    (s = some .xfail ↔ s' = some .xfail) ∧ (s.getD .none = .none ↔ s'.getD .none = .none) := by
  cases s with
  | none =>
      cases s' with
      | none => simp
      | some s' => simp at h
  | some s =>
      cases s' with
      | none => simp at h
      | some s' =>
          cases s <;> cases s' <;> simp_all [ActivationStatus.verdict]

/-- **Equal verdicts yield equal rules.** -/
theorem sameRules_of_verdict (hdoc : lib.Documented) {t t' : lib.T}
    (h : ∀ key, (lib.get t key).map ActivationStatus.verdict =
      (lib.get t' key).map ActivationStatus.verdict) (rule : Str) :
    SameRules (lib.traverse getDeactivation t rule) (lib.traverse getDeactivation t' rule) := by
  have hnode : ∀ path, StringTrie.IsNode (lib.get t) path ↔
      StringTrie.IsNode (lib.get t') path := by
    intro path
    have hsome : ∀ key, (lib.get t key).isSome = (lib.get t' key).isSome := by
      intro key
      simpa using congrArg Option.isSome (h key)
    constructor
    · rintro ⟨key, a, hget, hpath⟩
      obtain ⟨a', ha'⟩ := Option.isSome_iff_exists.mp (by rw [← hsome, hget]; rfl :
        (lib.get t' key).isSome = true)
      exact ⟨key, a', ha', hpath⟩
    · rintro ⟨key, a, hget, hpath⟩
      obtain ⟨a', ha'⟩ := Option.isSome_iff_exists.mp (by rw [hsome, hget]; rfl :
        (lib.get t key).isSome = true)
      exact ⟨key, a', ha', hpath⟩
  by_cases hrule : StringTrie.IsNode (lib.get t) (split ['/'] rule)
  · obtain ⟨rules, hok, htraverse⟩ := hdoc.traverse_node getDeactivation t rule hrule
    obtain ⟨rules', hok', htraverse'⟩ :=
      hdoc.traverse_node getDeactivation t' rule ((hnode _).mp hrule)
    have hparts : ∀ part ∈ split ['/'] rule, '/' ∉ part :=
      fun part hpart => not_mem_of_mem_split hpart
    rw [hok, hok']
    intro q
    rw [mem_deactivation_iff htraverse hparts (split_ne_nil _ _),
      mem_deactivation_iff htraverse' hparts (split_ne_nil _ _), hnode,
      (eq_xfail_iff_of_verdict (h _)).1]
    refine and_congr_right fun _ => and_congr_right fun _ => and_congr_right fun _ => ?_
    exact forall_congr' fun r => by rw [(eq_xfail_iff_of_verdict (h _)).2]
  · rw [hdoc.traverse_missing _ _ _ hrule,
      hdoc.traverse_missing _ _ _ (fun hrule' => hrule ((hnode _).mpr hrule'))]
    rfl

/-- A path that is blocked in one trie and left open in another yields different rules. -/
theorem not_sameRules (hdoc : lib.Documented) {t t' : lib.T} {key : Str}
    (h : (lib.get t key).map ActivationStatus.verdict = some .blocked)
    (h' : (lib.get t' key).map ActivationStatus.verdict = some .mixed) :
    ¬ SameRules (lib.traverse getDeactivation t key) (lib.traverse getDeactivation t' key) := by
  obtain ⟨s, hs, hblocked⟩ := Option.map_eq_some_iff.mp h
  obtain ⟨s', hs', hmixed⟩ := Option.map_eq_some_iff.mp h'
  obtain rfl : s = .xfail := by
    cases s <;> simp_all [ActivationStatus.verdict]
  obtain rfl : s' = .none := by
    cases s' <;> simp_all [ActivationStatus.verdict]
  obtain ⟨rules, hok, htraverse⟩ :=
    hdoc.traverse_node getDeactivation t key ⟨key, _, hs, List.prefix_rfl⟩
  obtain ⟨rules', hok', htraverse'⟩ :=
    hdoc.traverse_node getDeactivation t' key ⟨key, _, hs', List.prefix_rfl⟩
  have hparts : ∀ part ∈ split ['/'] key, '/' ∉ part :=
    fun part hpart => not_mem_of_mem_split hpart
  have hin : split ['/'] key ∈ rules := by
    refine (mem_deactivation_iff htraverse hparts (split_ne_nil _ _) _).mpr
      ⟨⟨key, _, hs, List.prefix_rfl⟩, List.prefix_rfl, ?_, ?_⟩
    · rw [join_split, hs]
    · intro r hpr hrp hrne
      exact absurd (hrp.eq_of_length_le hpr.length_le) hrne
  have hout : split ['/'] key ∉ rules' := by
    intro hmem
    have hget := ((mem_deactivation_iff htraverse' hparts (split_ne_nil _ _) _).mp hmem).2.2.1
    rw [join_split, hs'] at hget
    exact absurd hget (by simp)
  rw [hok, hok']
  exact fun hsame => hout ((hsame _).mp hin)

end Traversal

end EasyWins
end SystemTests
