import SystemTests.Foundation.Text
import Mathlib.Data.List.Lex
import Mathlib.Data.Char
import Mathlib.Data.Prod.Lex
import Mathlib.Data.Sum.Order
import Mathlib.Order.WithBot
import Mathlib.Order.Interval.Set.OrdConnected

/-!
# Semantic versions and their precedence

A semantic version is a release triple with an optional prerelease and
optional build metadata.  Identifiers carry the proof that they are
well formed, so that a prerelease identifier reads in exactly one way.

**Precedence.**  `Version.key` maps a version into a linear order: the triple
lexicographically, then the prerelease, where no prerelease is greatest,
numeric identifiers precede alphanumeric ones, and a shorter list of
identifiers precedes its extensions.  Build metadata is not part of the key,
so precedence is a preorder on versions.

**Results.**
* `key_eq_iff`: two versions of the same precedence differ in build metadata only.
* `Comparator.sat_ordConnected`: a comparator without build metadata denotes a
  set that is convex in precedence.
-/

namespace Foundation
namespace Semver

open Text

def isIdentChar (c : Char) : Bool := c.isAlphanum || c == '-'

/-- An identifier: a non-empty text over letters, digits and hyphens. -/
abbrev Ident := {s : Str // s ≠ [] ∧ ∀ c ∈ s, isIdentChar c = true}

/-- A prerelease identifier, read as a number when it has digits only. -/
inductive PreId where
  | numeric (n : Nat)
  | alpha (s : Ident) (h : ∃ c ∈ s.1, c.isDigit = false)
deriving DecidableEq

structure Version where
  major : Nat
  minor : Nat
  patch : Nat
  prerelease : List PreId := []
  build : List Ident := []
deriving DecidableEq

def decimal (n : Nat) : Str := Nat.toDigits 10 n

def PreId.str : PreId → Str
  | .numeric n => decimal n
  | .alpha s _ => s.1

def PreId.key : PreId → ℕ ⊕ₗ Str
  | .numeric n => toLex (.inl n)
  | .alpha s _ => toLex (.inr s.1)

theorem PreId.key_injective : Function.Injective PreId.key := by
  intro x y h
  cases x <;> cases y <;> simp [PreId.key, Subtype.ext_iff] at h ⊢ <;> exact h

namespace Version

/-- The linear order in which versions are compared. -/
abbrev Key := ℕ ×ₗ ℕ ×ₗ ℕ ×ₗ WithTop (List (ℕ ⊕ₗ Str))

/-- Comparison key of a prerelease: none at all is greatest. -/
def prereleaseKey : List PreId → WithTop (List (ℕ ⊕ₗ Str))
  | [] => ⊤
  | p :: ps => ((p :: ps).map PreId.key : List (ℕ ⊕ₗ Str))

def key (v : Version) : Key :=
  toLex (v.major, toLex (v.minor, toLex (v.patch, prereleaseKey v.prerelease)))

instance : Preorder Version := Preorder.lift key

instance : DecidableLE Version := fun v w => inferInstanceAs (Decidable (v.key ≤ w.key))

instance : DecidableLT Version := fun v w => inferInstanceAs (Decidable (v.key < w.key))

theorem le_def {v w : Version} : v ≤ w ↔ v.key ≤ w.key := Iff.rfl

theorem lt_def {v w : Version} : v < w ↔ v.key < w.key := Iff.rfl

theorem not_le_iff_lt {v w : Version} :
    ¬ v ≤ w ↔ w < v := by
  rw [le_def, lt_def]
  exact not_le

theorem prereleaseKey_injective : Function.Injective prereleaseKey := by
  intro ps qs h
  cases ps with
  | nil =>
      cases qs with
      | nil => rfl
      | cons q qs => exact absurd h (WithTop.top_ne_coe)
  | cons p ps =>
      cases qs with
      | nil => exact absurd h (WithTop.coe_ne_top)
      | cons q qs =>
          have hmap : (p :: ps).map PreId.key = (q :: qs).map PreId.key :=
            WithTop.coe_injective h
          exact List.map_injective_iff.mpr PreId.key_injective hmap

/-- Two versions of one precedence differ in build metadata only. -/
theorem key_eq_iff {v w : Version} :
    v.key = w.key ↔
      v.major = w.major ∧ v.minor = w.minor ∧ v.patch = w.patch ∧
        v.prerelease = w.prerelease := by
  simp only [key, EmbeddingLike.apply_eq_iff_eq, Prod.mk.injEq,
    prereleaseKey_injective.eq_iff]

def withoutBuild (v : Version) : Version := { v with build := [] }

@[simp] theorem key_withoutBuild (v : Version) : v.withoutBuild.key = v.key := rfl

@[simp] theorem withoutBuild_le (v w : Version) : v.withoutBuild ≤ w ↔ v ≤ w := Iff.rfl

@[simp] theorem le_withoutBuild (v w : Version) : v ≤ w.withoutBuild ↔ v ≤ w := Iff.rfl

def release (major minor patch : Nat) : Version := { major, minor, patch }

/-- The next major release; a prerelease of a major release leads to that release. -/
def nextMajor (v : Version) : Version :=
  if v.prerelease ≠ [] ∧ v.minor = 0 ∧ v.patch = 0 then release v.major 0 0
  else release (v.major + 1) 0 0

/-- The next minor release; a prerelease of a minor release leads to that release. -/
def nextMinor (v : Version) : Version :=
  if v.prerelease ≠ [] ∧ v.patch = 0 then release v.major v.minor 0
  else release v.major (v.minor + 1) 0

def str (v : Version) : Str :=
  decimal v.major ++ '.' :: decimal v.minor ++ '.' :: decimal v.patch ++
    (if v.prerelease = [] then [] else '-' :: join ['.'] (v.prerelease.map PreId.str)) ++
    (if v.build = [] then [] else '+' :: join ['.'] (v.build.map Subtype.val))

/-- The earliest prerelease of a release, below all the others. -/
def earliest (v : Version) : Version :=
  { major := v.major, minor := v.minor, patch := v.patch, prerelease := [.numeric 0] }

end Version

inductive Operator where
  | eq | lt | lte | gt | gte
deriving DecidableEq

/-- A comparison operator between a version and a target, by precedence. -/
def Operator.Holds : Operator → Version → Version → Prop
  | .eq, v, t => v.key = t.key
  | .lt, v, t => v < t
  | .lte, v, t => v ≤ t
  | .gt, v, t => t < v
  | .gte, v, t => t ≤ v

instance : ∀ (op : Operator) (v t : Version), Decidable (op.Holds v t)
  | .eq, v, t => inferInstanceAs (Decidable (v.key = t.key))
  | .lt, v, t => inferInstanceAs (Decidable (v < t))
  | .lte, v, t => inferInstanceAs (Decidable (v ≤ t))
  | .gt, v, t => inferInstanceAs (Decidable (t < v))
  | .gte, v, t => inferInstanceAs (Decidable (t ≤ v))

structure Comparator where
  operator : Operator
  target : Version
deriving DecidableEq

namespace Comparator

/--
The versions a comparator admits: precedence decides, and an equality whose
target carries build metadata asks for the same build metadata.
-/
def Sat (c : Comparator) (v : Version) : Prop :=
  c.operator.Holds v c.target ∧
    (c.operator = .eq → c.target.build ≠ [] → v.build = c.target.build)

instance (c : Comparator) (v : Version) : Decidable (c.Sat v) :=
  inferInstanceAs (Decidable (_ ∧ _))

theorem sat_iff_of_build_nil {c : Comparator} (h : c.target.build = []) (v : Version) :
    c.Sat v ↔ c.operator.Holds v c.target := by
  simp [Sat, h]

theorem sat_ordConnected {c : Comparator} (h : c.target.build = []) :
    Set.OrdConnected {v | c.Sat v} := by
  refine ⟨fun u hu w hw v hv => ?_⟩
  obtain ⟨huv, hvw⟩ := hv
  simp only [Set.mem_ofPred_eq, sat_iff_of_build_nil h] at hu hw ⊢
  rw [Version.le_def] at huv hvw
  cases hop : c.operator with
  | eq =>
      simp only [hop, Operator.Holds] at hu hw ⊢
      exact le_antisymm (hw ▸ hvw) (hu ▸ huv)
  | lt =>
      simp only [hop, Operator.Holds, Version.lt_def] at hu hw ⊢
      exact lt_of_le_of_lt hvw hw
  | lte =>
      simp only [hop, Operator.Holds, Version.le_def] at hu hw ⊢
      exact le_trans hvw hw
  | gt =>
      simp only [hop, Operator.Holds, Version.lt_def] at hu hw ⊢
      exact lt_of_lt_of_le hu huv
  | gte =>
      simp only [hop, Operator.Holds, Version.le_def] at hu hw ⊢
      exact le_trans hu huv

end Comparator

end Semver
end Foundation
