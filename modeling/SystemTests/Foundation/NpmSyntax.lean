import SystemTests.Foundation.SemverText

/-!
# The spelling of npm blocks

A block of an npm range is spelled with an operator and a version of which parts
may be missing or replaced by a wildcard: `>=1.2.3-rc.1`, `~1.2`, `^1.x`, `*`.
The version that is written in a block is its boundary; missing parts and
wildcards count as zero, and a block with no number at all has no boundary.

**Results.**
* `Numbers.text_of_hasMinor`, `Numbers.text_of_not_hasMinor`: a text of numbers
  starts with two numbers when the minor version is given, and only then.
* `Spelling.mem_versionText_cases`: the characters of a version.
-/

namespace Foundation
namespace Semver
namespace Npm

open Text

inductive Wildcard where
  | lowerX | upperX | star
deriving DecidableEq

def Wildcard.char : Wildcard → Char
  | lowerX => 'x'
  | upperX => 'X'
  | star => '*'

/-- A part of a version: a number or a wildcard. -/
inductive Xr where
  | number (n : Nat)
  | wildcard (w : Wildcard)
deriving DecidableEq

def Xr.text : Xr → Str
  | number n => decimal n
  | wildcard w => [w.char]

inductive Numbers where
  | one (M : Xr)
  | two (M m : Xr)
  | three (M m p : Xr)
deriving DecidableEq

namespace Numbers

def text : Numbers → Str
  | one M => M.text
  | two M m => M.text ++ '.' :: m.text
  | three M m p => M.text ++ '.' :: (m.text ++ '.' :: p.text)

/-- The release that is written; what follows a wildcard does not count. -/
def release : Numbers → Option Version
  | one (.number M) | two (.number M) (.wildcard _) | three (.number M) (.wildcard _) _ =>
      some (.release M 0 0)
  | two (.number M) (.number m) | three (.number M) (.number m) (.wildcard _) =>
      some (.release M m 0)
  | three (.number M) (.number m) (.number p) => some (.release M m p)
  | one (.wildcard _) | two (.wildcard _) _ | three (.wildcard _) _ _ => none

/-- The major and the minor version are given as numbers. -/
def hasMinor : Numbers → Bool
  | two (.number _) (.number _) | three (.number _) (.number _) _ => true
  | _ => false

theorem exists_release_of_hasMinor {numbers : Numbers} (h : numbers.hasMinor = true) :
    ∃ v, numbers.release = some v := by
  unfold hasMinor at h
  split at h
  · exact ⟨_, rfl⟩
  · rename_i p
    cases p with
    | number p => exact ⟨_, rfl⟩
    | wildcard w => exact ⟨_, rfl⟩
  · exact absurd h Bool.false_ne_true

end Numbers

inductive Sign where
  | bare | eq | tilde | caret | lt | lte | gt | gte
deriving DecidableEq

def Sign.text : Sign → Str
  | bare => []
  | eq => ['=']
  | tilde => ['~']
  | caret => ['^']
  | lt => ['<']
  | lte => ['<', '=']
  | gt => ['>']
  | gte => ['>', '=']

/-- A block as it is written. -/
structure Spelling where
  /-- A leading `v`. -/
  leadingV : Bool
  sign : Sign
  numbers : Numbers
  prerelease : List PreId
  build : List Ident
  /-- A newline at the end, which the pattern of blocks lets pass. -/
  newline : Bool

namespace Spelling

variable (b : Spelling)

def qualifier : Str :=
  (if b.prerelease = [] then [] else '-' :: join ['.'] (b.prerelease.map PreId.str)) ++
    (if b.build = [] then [] else '+' :: join ['.'] (b.build.map Subtype.val))

def versionText : Str := b.numbers.text ++ b.qualifier

def text : Str :=
  (if b.leadingV then ['v'] else []) ++
    (b.sign.text ++ (b.versionText ++ if b.newline then ['\n'] else []))

/-- The version that is written in the block. -/
def boundary : Option Version :=
  b.numbers.release.map fun v => { v with prerelease := b.prerelease, build := b.build }

end Spelling

section Shape

theorem Wildcard.isDigit_char (w : Wildcard) : w.char.isDigit = false := by
  cases w <;> decide

theorem Xr.text_cases (x : Xr) :
    (∃ n, x = .number n ∧ ∃ c s, x.text = c :: s ∧ c.isDigit = true) ∨
      (∃ w, x = .wildcard w ∧ ∃ c s, x.text = c :: s ∧ c.isDigit = false) := by
  cases x with
  | number n =>
      refine Or.inl ⟨n, rfl, ?_⟩
      obtain ⟨c, s, hcs⟩ := List.exists_cons_of_ne_nil (decimal_ne_nil n)
      refine ⟨c, s, hcs, isDigit_of_mem_decimal (n := n) ?_⟩
      rw [hcs]
      exact List.mem_cons_self
  | wildcard w => exact Or.inr ⟨w, rfl, w.char, [], rfl, w.isDigit_char⟩

theorem Numbers.text_of_hasMinor {numbers : Numbers} (h : numbers.hasMinor = true) :
    ∃ M c s, numbers.text = decimal M ++ '.' :: c :: s ∧ c.isDigit = true := by
  have htwo : ∀ M m : Nat, ∀ rest : Str,
      ∃ c s, decimal M ++ '.' :: (decimal m ++ rest) = decimal M ++ '.' :: c :: s ∧
        c.isDigit = true := by
    intro M m rest
    rcases (Xr.number m).text_cases with ⟨_, -, c, s, hcs, hc⟩ | ⟨_, hw, -⟩
    · refine ⟨c, s ++ rest, ?_, hc⟩
      rw [Xr.text] at hcs
      rw [hcs, List.cons_append]
    · cases hw
  unfold hasMinor at h
  split at h
  · rename_i M m
    obtain ⟨c, s, hcs, hc⟩ := htwo M m []
    rw [List.append_nil] at hcs
    exact ⟨M, c, s, hcs, hc⟩
  · rename_i M m p
    obtain ⟨c, s, hcs, hc⟩ := htwo M m ('.' :: p.text)
    exact ⟨M, c, s, hcs, hc⟩
  · exact absurd h Bool.false_ne_true

/-- Without a minor version the numbers end, or a wildcard stands in the place of one. -/
theorem Numbers.text_of_not_hasMinor {numbers : Numbers} (h : numbers.hasMinor = false) :
    (∃ c s, numbers.text = c :: s ∧ c.isDigit = false) ∨
      (∃ M, numbers.text = decimal M) ∨
      (∃ M c s, numbers.text = decimal M ++ '.' :: c :: s ∧ c.isDigit = false) := by
  cases numbers with
  | one M =>
      cases M with
      | number M => exact Or.inr (Or.inl ⟨M, rfl⟩)
      | wildcard w => exact Or.inl ⟨w.char, [], rfl, w.isDigit_char⟩
  | two M m =>
      cases M with
      | number M =>
          cases m with
          | number m => exact absurd h (by simp [hasMinor])
          | wildcard w => exact Or.inr (Or.inr ⟨M, w.char, [], rfl, w.isDigit_char⟩)
      | wildcard w => exact Or.inl ⟨w.char, _, rfl, w.isDigit_char⟩
  | three M m p =>
      cases M with
      | number M =>
          cases m with
          | number m => exact absurd h (by simp [hasMinor])
          | wildcard w => exact Or.inr (Or.inr ⟨M, w.char, _, rfl, w.isDigit_char⟩)
      | wildcard w => exact Or.inl ⟨w.char, _, rfl, w.isDigit_char⟩

/-- A qualifier starts with its sign. -/
theorem Spelling.head?_qualifier (b : Spelling) :
    ∀ c ∈ b.qualifier.head?, c = '-' ∨ c = '+' := by
  intro c hc
  by_cases hpre : b.prerelease = []
  · by_cases hbuild : b.build = []
    · simp [qualifier, hpre, hbuild] at hc
    · simp only [qualifier, hpre, hbuild, if_true, if_false, List.nil_append,
        List.head?_cons, Option.mem_some_iff] at hc
      exact Or.inr hc.symm
  · simp only [qualifier, hpre, if_false, List.cons_append, List.head?_cons,
      Option.mem_some_iff] at hc
    exact Or.inl hc.symm

theorem Xr.mem_text_cases {x : Xr} {c : Char} (h : c ∈ x.text) :
    isIdentChar c = true ∨ c = '*' := by
  cases x with
  | number n => exact Or.inl (isIdentChar_of_mem_decimal c h)
  | wildcard w =>
      rw [text, List.mem_singleton] at h
      subst h
      cases w with
      | lowerX => exact Or.inl (by decide)
      | upperX => exact Or.inl (by decide)
      | star => exact Or.inr rfl

theorem Numbers.mem_text_cases {numbers : Numbers} {c : Char} (h : c ∈ numbers.text) :
    isIdentChar c = true ∨ c = '*' ∨ c = '.' := by
  have hx : ∀ x : Xr, c ∈ x.text → isIdentChar c = true ∨ c = '*' ∨ c = '.' := by
    intro x hc
    rcases Xr.mem_text_cases hc with hc | hc
    · exact Or.inl hc
    · exact Or.inr (Or.inl hc)
  cases numbers with
  | one M => exact hx M h
  | two M m =>
      rw [text, List.mem_append, List.mem_cons] at h
      rcases h with h | h | h
      · exact hx M h
      · exact Or.inr (Or.inr h)
      · exact hx m h
  | three M m p =>
      rw [text, List.mem_append, List.mem_cons, List.mem_append, List.mem_cons] at h
      rcases h with h | h | h | h | h
      · exact hx M h
      · exact Or.inr (Or.inr h)
      · exact hx m h
      · exact Or.inr (Or.inr h)
      · exact hx p h

theorem Spelling.mem_qualifier_cases {b : Spelling} {c : Char} (h : c ∈ b.qualifier) :
    isIdentChar c = true ∨ c = '.' ∨ c = '+' := by
  have hjoin : ∀ {ps : List Str}, (∀ p ∈ ps, ∀ c ∈ p, isIdentChar c = true) →
      c ∈ join ['.'] ps → isIdentChar c = true ∨ c = '.' ∨ c = '+' := by
    intro ps hps hc
    rcases mem_join_idents_cases hps hc with hc | hc
    · exact Or.inl hc
    · exact Or.inr (Or.inl hc)
  have hpre : ∀ p ∈ b.prerelease.map PreId.str, ∀ c ∈ p, isIdentChar c = true := by
    rw [List.forall_mem_map]
    exact fun p _ => isIdentChar_of_mem_str p
  have hbuild : ∀ p ∈ b.build.map Subtype.val, ∀ c ∈ p, isIdentChar c = true := by
    rw [List.forall_mem_map]
    exact fun i _ => i.2.2
  rw [qualifier, List.mem_append] at h
  rcases h with h | h
  · split_ifs at h
    · cases h
    · rcases List.mem_cons.mp h with rfl | h
      · exact Or.inl (by decide)
      · exact hjoin hpre h
  · split_ifs at h
    · cases h
    · rcases List.mem_cons.mp h with rfl | h
      · exact Or.inr (Or.inr rfl)
      · exact hjoin hbuild h

/-- A version is written with identifier characters, stars, dots and a plus. -/
theorem Spelling.mem_versionText_cases {b : Spelling} {c : Char} (h : c ∈ b.versionText) :
    isIdentChar c = true ∨ c = '*' ∨ c = '.' ∨ c = '+' := by
  rw [versionText, List.mem_append] at h
  rcases h with h | h
  · rcases Numbers.mem_text_cases h with h | h | h
    · exact Or.inl h
    · exact Or.inr (Or.inl h)
    · exact Or.inr (Or.inr (Or.inl h))
  · rcases mem_qualifier_cases h with h | h
    · exact Or.inl h
    · exact Or.inr (Or.inr h)

end Shape

end Npm
end Semver
end Foundation
