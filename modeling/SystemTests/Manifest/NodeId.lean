import SystemTests.Manifest.Rule

/-!
# Canonical rules and test identifiers

The identifier of a test is the path of its file, the names of the class and the
method behind `::`, and the arguments in brackets.  The key of a rule in its
canonical form is written with the same separators: a directory, or a file with
the names of a class and a method in it.

**Results.**
* `ruleElements_str`, `nodeidElements_str`: the elements that rules are matched by.
* `prefix_of_matchRule`: the key of a canonical rule that matches a test is a
  prefix of the identifier of the test.
-/

namespace SystemTests
namespace Manifest

open Foundation Foundation.Text

section Paths

/-- The name of a test file. -/
abbrev IsFile (part : Str) : Prop := ['.', 'p', 'y'] <:+ part

/-- Parts of a path, and the names behind `::`. -/
def pathText (path names : List Str) : Str := join [':', ':'] (join ['/'] path :: names)

abbrev IsPart (part : Str) : Prop := part ≠ [] ∧ '/' ∉ part ∧ ':' ∉ part

/-- Only the last part of the path may be a file. -/
abbrev FileIsLast (path : List Str) : Prop := ∀ part ∈ path.dropLast, ¬ IsFile part

def EndsInFile (path : List Str) : Prop := ∃ part ∈ path.getLast?, IsFile part

variable {path names path' names' : List Str}

/-- With one separator the path and the names are the elements. -/
theorem split_replace_pathText (hpath : path ≠ []) (h : ∀ part ∈ path ++ names, IsPart part) :
    split ['/'] (replace [':', ':'] ['/'] (pathText path names)) = path ++ names := by
  have hcolon : ∀ part ∈ join ['/'] path :: names, ':' ∉ part := by
    intro part hpart
    rcases List.mem_cons.mp hpart with rfl | hpart
    · intro hmem
      rcases mem_join_cases hmem with hmem | ⟨p, hp, hmem⟩
      · exact absurd hmem (by decide)
      · exact (h p (List.mem_append_left _ hp)).2.2 hmem
    · exact (h part (List.mem_append_right _ hpart)).2.2
  have hne : path ++ names ≠ [] := by simp [hpath]
  rw [replace, pathText, split_join (by simp) hcolon, join_join_cons _ hpath,
    split_join hne fun p hp => (h p hp).2.1]

theorem strip_pathText (hpath : path ≠ []) (h : ∀ part ∈ path ++ names, IsPart part) :
    stripOf (· == '/') (pathText path names) = pathText path names := by
  have hparts : ∀ part ∈ join ['/'] path :: names, part ≠ [] := by
    intro part hpart
    rcases List.mem_cons.mp hpart with rfl | hpart
    · exact join_ne_nil _ hpath fun p hp => (h p (List.mem_append_left _ hp)).1
    · exact (h part (List.mem_append_right _ hpart)).1
  have hend : ∀ part ∈ path ++ names, ∀ c ∈ part, (c == '/') = false := by
    intro part hpart c hc
    have hslash := (h part hpart).2.1
    rw [beq_eq_false_iff_ne]
    rintro rfl
    exact hslash hc
  refine stripOf_eq_self ?_ ?_
  · intro c hc
    obtain ⟨part, hpart, hc⟩ := head?_join _ hparts hc
    rcases List.mem_cons.mp hpart with rfl | hpart
    · obtain ⟨p, hp, hc⟩ := head?_join _ (fun p hp => (h p (List.mem_append_left _ hp)).1) hc
      exact hend p (List.mem_append_left _ hp) c (List.mem_of_head? hc)
    · exact hend part (List.mem_append_right _ hpart) c (List.mem_of_head? hc)
  · intro c hc
    obtain ⟨part, hpart, hc⟩ := getLast?_join _ hparts hc
    rcases List.mem_cons.mp hpart with rfl | hpart
    · obtain ⟨p, hp, hc⟩ :=
        getLast?_join _ (fun p hp => (h p (List.mem_append_left _ hp)).1) hc
      exact hend p (List.mem_append_left _ hp) c (List.mem_of_getLast? hc)
    · exact hend part (List.mem_append_right _ hpart) c (List.mem_of_getLast? hc)

theorem not_mem_pathText {c : Char} (hslash : c ≠ '/') (hcolon : c ≠ ':')
    (h : ∀ part ∈ path ++ names, c ∉ part) : c ∉ pathText path names := by
  intro hc
  rcases mem_join_cases hc with hc | ⟨part, hpart, hc⟩
  · exact hcolon (by simpa using hc)
  rcases List.mem_cons.mp hpart with rfl | hpart
  · rcases mem_join_cases hc with hc | ⟨part, hpart, hc⟩
    · exact hslash (by simpa using hc)
    · exact h part (List.mem_append_left _ hpart) hc
  · exact h part (List.mem_append_right _ hpart) hc

/-- A shorter path whose end is not a file, or the names of one file. -/
theorem path_prefix_cases (hfile : FileIsLast path) (hfile' : FileIsLast path')
    (hend : EndsInFile path') (hnames : names ≠ [] → EndsInFile path)
    (h : path ++ names <+: path' ++ names') :
    (names = [] ∧ path <+: path') ∨ (path = path' ∧ names <+: names') := by
  have hlast : ∀ {p q : List Str}, EndsInFile p → FileIsLast q → p <+: q → p = q := by
    rintro p q ⟨part, hpart, hisFile⟩ hq ⟨rest, rfl⟩
    by_contra hne
    have hrest : rest ≠ [] := by
      rintro rfl
      exact hne (by simp)
    refine hq part ?_ hisFile
    rw [List.dropLast_append_of_ne_nil hrest]
    exact List.mem_append_left _ (List.mem_of_getLast? hpart)
  have hpre : path <+: path' ++ names' := (List.prefix_append path names).trans h
  rcases List.prefix_or_prefix_of_prefix hpre (List.prefix_append path' names') with hle | hle
  · by_cases hnil : names = []
    · exact Or.inl ⟨hnil, hle⟩
    · obtain rfl := hlast (hnames hnil) hfile' hle
      exact Or.inr ⟨rfl, (List.prefix_append_right_inj path).mp h⟩
  · obtain rfl := hlast hend hfile hle
    exact Or.inr ⟨rfl, (List.prefix_append_right_inj path').mp h⟩

end Paths

/-- The key of a rule: a directory, perhaps with a slash at its end, or a file and names in it. -/
structure CanonicalRule where
  path : List Str
  names : List Str
  slash : Bool
  path_ne_nil : path ≠ []
  isPart : ∀ part ∈ path ++ names, IsPart part
  fileIsLast : FileIsLast path
  names_in_file : names ≠ [] → EndsInFile path
  slash_directory : slash = true → ¬ EndsInFile path

def CanonicalRule.str (rule : CanonicalRule) : Str :=
  pathText rule.path rule.names ++ if rule.slash then ['/'] else []

/-- The identifier of a test: its file, names and arguments. -/
structure NodeId where
  path : List Str
  names : List Str
  arguments : Str
  isPart : ∀ part ∈ path ++ names, IsPart part ∧ '[' ∉ part
  fileIsLast : FileIsLast path
  endsInFile : EndsInFile path
  bracket : ∀ c ∈ arguments.head?, c = '['

def NodeId.str (node : NodeId) : Str := pathText node.path node.names ++ node.arguments

section Elements

theorem CanonicalRule.names_of_slash (rule : CanonicalRule) (h : rule.slash = true) :
    rule.names = [] := by
  by_contra hne
  exact rule.slash_directory h (rule.names_in_file hne)

@[simp] theorem ruleElements_str (rule : CanonicalRule) :
    ruleElements rule.str = rule.path ++ rule.names := by
  have hstrip : stripOf (· == '/') rule.str = pathText rule.path rule.names := by
    unfold CanonicalRule.str
    split_ifs
    · rw [stripOf_concat rfl, strip_pathText rule.path_ne_nil rule.isPart]
    · rw [List.append_nil, strip_pathText rule.path_ne_nil rule.isPart]
  rw [ruleElements, hstrip, split_replace_pathText rule.path_ne_nil rule.isPart]

theorem NodeId.path_ne_nil (node : NodeId) : node.path ≠ [] := by
  obtain ⟨part, hpart, -⟩ := node.endsInFile
  rintro h
  simp [h] at hpart

@[simp] theorem nodeidElements_str (node : NodeId) :
    nodeidElements node.str = node.path ++ node.names := by
  have hbracket : ∀ c ∈ pathText node.path node.names, decide (c ≠ '[') = true := by
    intro c hc
    rw [decide_eq_true_iff]
    rintro rfl
    exact not_mem_pathText (by decide) (by decide)
      (fun part hpart => (node.isPart part hpart).2) hc
  have hbefore : before '[' node.str = pathText node.path node.names := by
    rw [before, NodeId.str, List.takeWhile_append_of_pos hbracket]
    cases harguments : node.arguments with
    | nil => simp
    | cons c s =>
        obtain rfl := node.bracket c (by simp [harguments])
        simp
  rw [nodeidElements, hbefore, split_replace_pathText node.path_ne_nil
    fun part hpart => (node.isPart part hpart).1]

/-- **Canonical rules are prefixes** of the tests they match. -/
theorem prefix_of_matchRule {rule : CanonicalRule} {node : NodeId}
    (h : matchRule rule.str node.str = true) : rule.str <+: node.str := by
  rw [matchRule_iff, ruleElements_str, nodeidElements_str] at h
  refine List.IsPrefix.trans ?_ (List.prefix_append _ node.arguments)
  rcases path_prefix_cases rule.fileIsLast node.fileIsLast node.endsInFile rule.names_in_file h
    with ⟨hnames, rest, hrest⟩ | ⟨hpath, hnames⟩
  · have hpaths : join ['/'] node.path <+: pathText node.path node.names := by
      have hone : [join ['/'] node.path] <+: join ['/'] node.path :: node.names :=
        List.prefix_append _ _
      simpa [pathText] using join_mono [':', ':'] hone
    refine List.IsPrefix.trans ?_ hpaths
    have hstr : rule.str = join ['/'] rule.path ++ if rule.slash then ['/'] else [] := by
      rw [CanonicalRule.str, hnames, pathText, join_singleton]
    rw [hstr, ← hrest]
    split_ifs with hslash
    · -- the test is in the directory, so the path of the test goes on behind the slash
      have hne : rest ≠ [] := by
        rintro rfl
        rw [List.append_nil] at hrest
        exact rule.slash_directory hslash (hrest ▸ node.endsInFile)
      rw [join_append _ rule.path_ne_nil hne, List.append_assoc]
      exact (List.prefix_append_right_inj _).mpr (List.prefix_append _ _)
    · rw [List.append_nil]
      exact join_mono _ (List.prefix_append _ _)
  · have hslash : rule.slash = false := by
      cases hs : rule.slash with
      | false => rfl
      | true => exact absurd (hpath ▸ node.endsInFile) (rule.slash_directory hs)
    rw [CanonicalRule.str, hslash, hpath, if_neg (by simp), List.append_nil]
    exact join_mono _ (List.cons_prefix_cons.mpr ⟨rfl, hnames⟩)

end Elements

end Manifest
end SystemTests
