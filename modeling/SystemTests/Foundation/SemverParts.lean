import SystemTests.Foundation.SemverText

/-!
# Coercing a text to a semantic version

A text in `Parts` has up to three numbers, what stands behind a hyphen and what
stands behind the first plus.  Coercion completes it: the missing numbers are
zeroes, an empty part is dropped, and a further plus is a dot.  `Coerces` says this
of a function that may read other texts in its own way.

**Results.**
* `Parts.str_injective`: a text has one division into parts.
* `Version.completed_parts`: the text of a version is complete.
* `Parts.exists_of_tail`: what may stand behind the numbers.
* `exactCoerce_coerces`: the reader that accepts only the texts of versions coerces.
-/

namespace Foundation
namespace Semver

open Text

section Marked

/-- A part behind its mark. -/
def marked (c : Char) : Option Str → Str
  | none => []
  | some s => c :: s

@[simp] theorem marked_none (c : Char) : marked c none = [] := rfl

@[simp] theorem marked_some (c : Char) (s : Str) : marked c (some s) = c :: s := rfl

theorem mem_marked_iff {c x : Char} {o : Option Str} :
    x ∈ marked c o ↔ ∃ s ∈ o, x = c ∨ x ∈ s := by
  cases o with
  | none => simp
  | some s => simp

theorem cut_marked {c : Char} {s : Str} (h : c ∉ s) (o : Option Str) :
    cut c (s ++ marked c o) = (s, o) := by
  cases o with
  | none => rw [marked_none, List.append_nil, cut_of_not_mem h]
  | some t => rw [marked_some, cut_append h]

theorem marked_filter_sublist (c : Char) (p : Str → Bool) (o : Option Str) :
    (marked c (o.filter p)).Sublist (marked c o) := by
  cases o with
  | none => exact List.Sublist.refl _
  | some s =>
      rw [Option.filter_some]
      split
      · exact List.Sublist.refl _
      · exact List.nil_sublist _

theorem filter_ne_nil {o : Option Str} (h : o ≠ some []) : o.filter (· ≠ []) = o := by
  cases o with
  | none => rfl
  | some s =>
      have hs : s ≠ [] := fun hs => h (by rw [hs])
      simp [Option.filter_some, hs]

end Marked

/-- What an identifier or the dot between two of them is written with. -/
def isPartChar (c : Char) : Bool := isIdentChar c || c == '.'

@[ext] structure Parts where
  release : List Nat
  prerelease : Option Str
  build : Option Str
  release_ne_nil : release ≠ []
  length_release_le : release.length ≤ 3
  prerelease_char : ∀ s ∈ prerelease, ∀ c ∈ s, isPartChar c = true
  build_char : ∀ s ∈ build, ∀ c ∈ s, isPartChar c = true ∨ c = '+'

namespace Parts

/-- The numbers as text. -/
def numbers (release : List Nat) : Str := join ['.'] (release.map decimal)

def str (p : Parts) : Str :=
  numbers p.release ++ marked '-' p.prerelease ++ marked '+' p.build

def dotForPlus (c : Char) : Char := if c = '+' then '.' else c

def completed (p : Parts) : Str :=
  numbers (p.release ++ List.replicate (3 - p.release.length) 0) ++
    marked '-' (p.prerelease.filter (· ≠ [])) ++
      marked '+' ((p.build.filter (· ≠ [])).map (List.map dotForPlus))

end Parts

/-- What a coercion does with the texts of versions and with texts in parts. -/
structure Coerces (coerce : Str → Option Version) : Prop where
  str : ∀ v : Version, coerce v.str = some v
  parts : ∀ (p : Parts) (v : Version), coerce p.str = some v → v.str = p.completed

section Numbers

theorem isPartChar_of_mem_decimal {n : Nat} : ∀ c ∈ decimal n, isPartChar c = true := by
  intro c hc
  rw [isPartChar, isIdentChar_of_mem_decimal c hc, Bool.true_or]

theorem not_mem_numbers {c : Char} (hdigit : c.isDigit = false) (hdot : c ≠ '.')
    (release : List Nat) : c ∉ Parts.numbers release := by
  intro hmem
  rcases mem_join_cases hmem with hmem | ⟨p, hp, hmem⟩
  · exact hdot (List.mem_singleton.mp hmem)
  · obtain ⟨n, -, rfl⟩ := List.mem_map.mp hp
    exact not_mem_decimal hdigit n hmem

theorem numbers_injective {release release' : List Nat} (hne : release ≠ [])
    (hne' : release' ≠ []) (h : Parts.numbers release = Parts.numbers release') :
    release = release' := by
  have hsplit : ∀ l : List Nat, l ≠ [] → split ['.'] (Parts.numbers l) = l.map decimal := by
    intro l hl
    refine split_join (by simpa using hl) ?_
    simpa using fun n _ => not_mem_decimal (by decide) n
  have hmap : release.map decimal = release'.map decimal := by
    rw [← hsplit release hne, h, hsplit release' hne']
  exact List.map_injective_iff.mpr decimal_injective hmap

end Numbers

namespace Parts

/-- The text starts with a digit. -/
theorem head?_str (p : Parts) : ∃ c ∈ p.str.head?, c.isDigit = true := by
  obtain ⟨n, rest, hrelease⟩ := List.exists_cons_of_ne_nil p.release_ne_nil
  have hpieces : ∀ d ∈ p.release.map decimal, d ≠ [] := by
    intro d hd
    obtain ⟨m, -, rfl⟩ := List.mem_map.mp hd
    exact decimal_ne_nil m
  have hne : numbers p.release ≠ [] :=
    join_ne_nil _ (by simpa using p.release_ne_nil) hpieces
  obtain ⟨c, s, hs⟩ := List.exists_cons_of_ne_nil hne
  have hc : c ∈ (numbers p.release).head? := by
    rw [hs]
    rfl
  refine ⟨c, by rw [str, List.append_assoc, List.head?_append_of_ne_nil _ hne]; exact hc, ?_⟩
  obtain ⟨d, hd, hcd⟩ := head?_join _ hpieces hc
  obtain ⟨m, -, rfl⟩ := List.mem_map.mp hd
  exact isDigit_of_mem_decimal (List.mem_of_mem_head? hcd)

theorem plus_not_mem (p : Parts) : '+' ∉ numbers p.release ++ marked '-' p.prerelease := by
  rw [List.mem_append, mem_marked_iff]
  rintro (hmem | ⟨s, hs, hmem | hmem⟩)
  · exact not_mem_numbers (by decide) (by decide) _ hmem
  · exact absurd hmem (by decide)
  · exact absurd (p.prerelease_char s hs _ hmem) (by decide)

/-- **A text has one division into parts.** -/
theorem str_injective : Function.Injective str := by
  intro p q h
  have hcut := congrArg (cut '+') h
  rw [str, str, cut_marked p.plus_not_mem, cut_marked q.plus_not_mem, Prod.mk.injEq] at hcut
  have hminus : ∀ release : List Nat, '-' ∉ numbers release :=
    not_mem_numbers (by decide) (by decide)
  have hcore := congrArg (cut '-') hcut.1
  rw [cut_marked (hminus _), cut_marked (hminus _), Prod.mk.injEq] at hcore
  exact Parts.ext (numbers_injective p.release_ne_nil q.release_ne_nil hcore.1) hcore.2 hcut.2

/-- Nothing but zeroes is added. -/
theorem count_completed_le (p : Parts) :
    p.completed.count '-' ≤ p.str.count '-' := by
  have hzero : ∀ release : List Nat, (numbers release).count '-' = 0 := fun release =>
    List.count_eq_zero.mpr (not_mem_numbers (by decide) (by decide) release)
  have hpre := (marked_filter_sublist '-' (· ≠ []) p.prerelease).count_le '-'
  have hbuild : (marked '+' ((p.build.filter (· ≠ [])).map (List.map dotForPlus))).count '-' ≤
      (marked '+' p.build).count '-' := by
    refine le_trans (le_of_eq ?_) ((marked_filter_sublist '+' (· ≠ []) p.build).count_le '-')
    cases p.build.filter (· ≠ []) with
    | none => rfl
    | some s =>
        have hcount : ∀ c : Char, dotForPlus c = '-' ↔ c = '-' := by
          intro c
          rw [dotForPlus]
          split_ifs with hc
          · rw [hc]
            decide
          · rfl
        rw [Option.map_some, marked_some, marked_some, List.count_cons, List.count_cons,
          List.count, List.countP_map]
        congr 1
        refine List.countP_congr fun c _ => ?_
        simp [hcount c]
  simp only [completed, str, List.count_append, hzero]
  omega

theorem length_completed_le {p : Parts} (h : p.release.length = 3) :
    p.completed.length ≤ p.str.length := by
  have hpre := (marked_filter_sublist '-' (· ≠ []) p.prerelease).length_le
  have hbuild : (marked '+' ((p.build.filter (· ≠ [])).map (List.map dotForPlus))).length ≤
      (marked '+' p.build).length := by
    refine le_trans (le_of_eq ?_) (marked_filter_sublist '+' (· ≠ []) p.build).length_le
    cases p.build.filter (· ≠ []) with
    | none => rfl
    | some s => simp
  rw [completed, h, Nat.sub_self, List.replicate_zero, List.append_nil, str]
  simp only [List.length_append]
  omega

/-- What is filled in makes the text longer, unless a part is empty. -/
theorem length_completed {p : Parts} (hpre : p.prerelease ≠ some [])
    (hbuild : p.build ≠ some []) :
    p.completed.length = p.str.length + 2 * (3 - p.release.length) := by
  have hfill : ∀ (k : Nat) (l : List Nat), l ≠ [] →
      (numbers (l ++ List.replicate k 0)).length = (numbers l).length + 2 * k := by
    intro k l hl
    induction k with
    | zero => simp
    | succ k ih =>
        have hne : (l ++ List.replicate k 0).map decimal ≠ [] := by simp [hl]
        have hzero : (join ['.'] (List.map decimal [0])).length = 1 := by decide
        rw [List.replicate_succ', ← List.append_assoc, numbers, List.map_append,
          join_append _ hne (by simp), List.length_append, List.length_append, ← numbers, ih,
          hzero, List.length_singleton]
        omega
  have hmap : (marked '+' (p.build.map (List.map dotForPlus))).length =
      (marked '+' p.build).length := by
    cases p.build with
    | none => rfl
    | some s => simp
  rw [completed, str, filter_ne_nil hpre, filter_ne_nil hbuild]
  simp only [List.length_append, hfill _ _ p.release_ne_nil, hmap]
  omega

theorem completed_eq_str {p : Parts} (h : p.release.length = 3) (hpre : p.prerelease ≠ some [])
    (hbuild : p.build ≠ some []) (hplus : ∀ s ∈ p.build, '+' ∉ s) : p.completed = p.str := by
  have hmap : p.build.map (List.map dotForPlus) = p.build := by
    cases hs : p.build with
    | none => rfl
    | some s =>
        have hchars : ∀ c ∈ s, dotForPlus c = c := by
          intro c hc
          refine if_neg ?_
          rintro rfl
          exact hplus s hs hc
        rw [Option.map_some, List.map_congr_left hchars, List.map_id']
  rw [completed, h, Nat.sub_self, List.replicate_zero, List.append_nil, filter_ne_nil hpre,
    filter_ne_nil hbuild, hmap, str]

/-- **What may stand behind the numbers**: nothing, or a mark and part characters. -/
theorem exists_of_tail {release : List Nat} (hne : release ≠ []) (hle : release.length ≤ 3)
    {tail : Str} (hhead : ∀ c ∈ tail.head?, c = '-' ∨ c = '+')
    (htail : ∀ c ∈ tail, isPartChar c = true ∨ c = '+') :
    ∃ p : Parts, p.release = release ∧ p.str = numbers release ++ tail := by
  cases tail with
  | nil =>
      exact ⟨⟨release, none, none, hne, hle, by simp, by simp⟩, rfl, by simp [str]⟩
  | cons c rest =>
      rw [List.forall_mem_cons] at htail
      rcases hhead c rfl with rfl | rfl
      · have hcut := List.takeWhile_append_dropWhile (p := (· ≠ '+')) (l := rest)
        have hpre : ∀ x ∈ rest.takeWhile (· ≠ '+'), isPartChar x = true := by
          intro x hx
          have hne := List.mem_takeWhile_imp hx
          rw [decide_eq_true_eq] at hne
          rcases htail.2 x (List.takeWhile_sublist _ |>.subset hx) with h | h
          · exact h
          · exact absurd h hne
        cases hdrop : rest.dropWhile (· ≠ '+') with
        | nil =>
            rw [hdrop, List.append_nil] at hcut
            refine ⟨⟨release, some rest, none, hne, hle, ?_, by simp⟩, rfl, by simp [str]⟩
            rintro s hs x hx
            obtain rfl := Option.some.inj hs
            exact hpre x (by rwa [hcut])
        | cons y b =>
            have hy : y = '+' := by
              have hhead := List.head?_dropWhile_not (· ≠ '+') rest
              rw [hdrop] at hhead
              simpa using hhead
            rw [hdrop, hy] at hcut
            refine ⟨⟨release, some (rest.takeWhile (· ≠ '+')), some b, hne, hle, ?_, ?_⟩, rfl, ?_⟩
            · rintro s hs x hx
              obtain rfl := Option.some.inj hs
              exact hpre x hx
            · rintro s hs x hx
              obtain rfl := Option.some.inj hs
              refine htail.2 x ?_
              rw [← hcut, List.mem_append, List.mem_cons]
              exact Or.inr (Or.inr hx)
            · simp only [str, marked_some, List.append_assoc, List.cons_append, hcut]
      · refine ⟨⟨release, none, some rest, hne, hle, by simp, ?_⟩, rfl, by simp [str]⟩
        rintro s hs x hx
        obtain rfl := Option.some.inj hs
        exact htail.2 x hx

end Parts

section Versions

theorem isPartChar_join {ps : List Str} (hps : ∀ p ∈ ps, ∀ c ∈ p, isIdentChar c = true) :
    ∀ c ∈ join ['.'] ps, isPartChar c = true := by
  intro c hc
  rcases mem_join_idents_cases hps hc with hc | rfl
  · rw [isPartChar, hc, Bool.true_or]
  · decide

/-- The identifiers of a part, as text; no identifiers are no part. -/
def identsText (idents : List Str) : Option Str :=
  if idents = [] then none else some (join ['.'] idents)

theorem identsText_char {idents : List Str}
    (h : ∀ p ∈ idents, p ≠ [] ∧ ∀ c ∈ p, isIdentChar c = true) :
    ∀ s ∈ identsText idents, s ≠ [] ∧ ∀ c ∈ s, isPartChar c = true := by
  intro s hs
  rw [identsText] at hs
  split_ifs at hs with hnil
  · simp at hs
  · obtain rfl := Option.some.inj hs
    exact ⟨join_ne_nil _ hnil fun p hp => (h p hp).1, isPartChar_join fun p hp => (h p hp).2⟩

variable (v : Version)

theorem identsText_prerelease :
    ∀ s ∈ identsText (v.prerelease.map PreId.str), s ≠ [] ∧ ∀ c ∈ s, isPartChar c = true := by
  refine identsText_char fun p hp => ?_
  obtain ⟨i, -, rfl⟩ := List.mem_map.mp hp
  exact ⟨i.str_ne_nil, isIdentChar_of_mem_str i⟩

theorem identsText_build :
    ∀ s ∈ identsText (v.build.map Subtype.val), s ≠ [] ∧ ∀ c ∈ s, isPartChar c = true := by
  refine identsText_char fun p hp => ?_
  obtain ⟨i, -, rfl⟩ := List.mem_map.mp hp
  exact i.2

def Version.parts : Parts where
  release := [v.major, v.minor, v.patch]
  prerelease := identsText (v.prerelease.map PreId.str)
  build := identsText (v.build.map Subtype.val)
  release_ne_nil := by simp
  length_release_le := le_rfl
  prerelease_char s hs := (identsText_prerelease v s hs).2
  build_char s hs c hc := Or.inl ((identsText_build v s hs).2 c hc)

theorem Version.str_parts : v.parts.str = v.str := by
  have hmarked : ∀ (c : Char) (l : List Str), marked c (identsText l) =
      if l = [] then [] else c :: join ['.'] l := by
    intro c l
    rw [identsText]
    split_ifs <;> rfl
  rw [str_eq_coreStr, coreStr, Parts.str]
  simp only [Version.parts, hmarked, List.map_eq_nil_iff]
  rfl

theorem Version.prerelease_parts_ne : v.parts.prerelease ≠ some [] := fun h =>
  (identsText_prerelease v [] h).1 rfl

theorem Version.build_parts_ne : v.parts.build ≠ some [] := fun h =>
  (identsText_build v [] h).1 rfl

/-- **The text of a version is complete.** -/
theorem Version.completed_parts : v.parts.completed = v.str := by
  rw [← v.str_parts]
  refine Parts.completed_eq_str rfl v.prerelease_parts_ne v.build_parts_ne ?_
  intro s hs hplus
  exact absurd ((identsText_build v s hs).2 _ hplus) (by decide)

end Versions

section Exact

/-- The reader that accepts the texts of versions and no others. -/
def exactCoerce (s : Str) : Option Version := (Version.ofStr s).filter (·.str = s)

theorem exactCoerce_coerces : Coerces exactCoerce where
  str v := by
    rw [exactCoerce, Version.ofStr_str]
    simp
  parts p v h := by
    obtain ⟨-, hstr⟩ := Option.filter_eq_some_iff.mp h
    rw [decide_eq_true_eq] at hstr
    have hparts : p = v.parts := Parts.str_injective (by rw [← hstr, v.str_parts])
    rw [hparts, v.completed_parts]

end Exact

end Semver
end Foundation
