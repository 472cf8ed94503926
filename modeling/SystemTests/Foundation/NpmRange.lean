import SystemTests.Foundation.Semver

/-!
# Comparator blocks of npm ranges

A block of an npm range is an operator applied to a version, which may be
partial (`1.x`, `1.2`).  `Block.comparators` expands a block into plain
comparisons: `^1.2.3` into `>=1.2.3 <2.0.0`, `~1.2.3` into `>=1.2.3 <1.3.0`,
`1.2` into `>=1.2.0 <1.3.0`, `>1.2` into `>=1.3.0`.

`Block.Admits` gives the same blocks their meaning as sets of versions.  How the
bound that a caret implies is read is a parameter of the meaning, because the
readers of npm ranges disagree about the prereleases of that bound.

**Results.**
* `Block.sat_comparators_iff`: the comparators of a block denote its meaning.
* `Block.admits_ordConnected`: a block without build metadata denotes a convex
  set, whatever its caret bound is read as.
-/

namespace Foundation
namespace Semver
namespace Npm

/-- A version of which trailing parts may be missing. -/
inductive Core where
  | any
  | major (M : Nat)
  | minor (M m : Nat)
  | full (v : Version)
deriving DecidableEq

inductive Prefix where
  | compare (op : Operator)
  | caret
  | tilde
deriving DecidableEq

structure Block where
  op : Prefix
  core : Core
deriving DecidableEq

namespace Core

/-- The least version of a core. -/
def low : Core → Version
  | any => .release 0 0 0
  | major M => .release M 0 0
  | minor M m => .release M m 0
  | full v => v.withoutBuild

/-- The first release after the versions that a partial core stands for. -/
def next : Core → Version
  | any => .release 0 0 0
  | major M => .release (M + 1) 0 0
  | minor M m => .release M (m + 1) 0
  | full v => v.withoutBuild

/-- Upper bound implied by a caret: the leftmost non-zero part may not change. -/
def caretHigh : Core → Version
  | any => .release 0 0 0
  | major M => .release (M + 1) 0 0
  | minor M m => if M ≠ 0 then .release (M + 1) 0 0 else .release 0 (m + 1) 0
  | full v =>
      if v.major ≠ 0 then .release (v.major + 1) 0 0
      else if v.minor ≠ 0 then .release 0 (v.minor + 1) 0
      else .release 0 0 (v.patch + 1)

/-- Upper bound implied by a tilde: the minor version may not change, where given. -/
def tildeHigh : Core → Version
  | any => .release 0 0 0
  | major M => .release (M + 1) 0 0
  | minor M m => .release M (m + 1) 0
  | full v => v.nextMinor

theorem low_build (core : Core) :
    core.low.build = [] := by
  cases core <;> rfl

theorem next_build (core : Core) :
    core.next.build = [] := by
  cases core <;> rfl

theorem caretHigh_eq_release (core : Core) :
    ∃ M m p, core.caretHigh = Version.release M m p := by
  cases core with
  | any => exact ⟨0, 0, 0, rfl⟩
  | major M => exact ⟨M + 1, 0, 0, rfl⟩
  | minor M m =>
      simp only [caretHigh]
      split_ifs
      · exact ⟨M + 1, 0, 0, rfl⟩
      · exact ⟨0, m + 1, 0, rfl⟩
  | full v =>
      simp only [caretHigh]
      split_ifs
      · exact ⟨v.major + 1, 0, 0, rfl⟩
      · exact ⟨0, v.minor + 1, 0, rfl⟩
      · exact ⟨0, 0, v.patch + 1, rfl⟩

theorem tildeHigh_build (core : Core) :
    core.tildeHigh.build = [] := by
  cases core with
  | any => rfl
  | major M => rfl
  | minor M m => rfl
  | full v =>
      simp only [tildeHigh, Version.nextMinor]
      split_ifs <;> rfl

end Core

namespace Block

/--
The comparisons a block stands for, or none when the operator does not apply
to the core (`>*`).  Build metadata is kept by an equality only.
-/
def comparators (b : Block) : Option (List Comparator) :=
  match b.op, b.core with
  | .compare .eq, .any => some [⟨.gte, .release 0 0 0⟩]
  | .compare .gte, .any => some [⟨.gte, .release 0 0 0⟩]
  | _, .any => none
  | .caret, core => some [⟨.gte, core.low⟩, ⟨.lt, core.caretHigh⟩]
  | .tilde, core => some [⟨.gte, core.low⟩, ⟨.lt, core.tildeHigh⟩]
  | .compare .eq, .full v => some [⟨.eq, v⟩]
  | .compare .eq, core => some [⟨.gte, core.low⟩, ⟨.lt, core.next⟩]
  | .compare .gt, .full v => some [⟨.gt, v.withoutBuild⟩]
  | .compare .gt, core => some [⟨.gte, core.next⟩]
  | .compare .gte, core => some [⟨.gte, core.low⟩]
  | .compare .lt, core => some [⟨.lt, core.low⟩]
  | .compare .lte, .full v => some [⟨.lte, v.withoutBuild⟩]
  | .compare .lte, core => some [⟨.lt, core.next⟩]

/--
The versions a block admits under precedence.  `bound` says how the bound
implied by a caret is read.
-/
def Admits (bound : Version → Version) (b : Block) (v : Version) : Prop :=
  match b.op, b.core with
  | .compare .eq, .any => Version.release 0 0 0 ≤ v
  | .compare .gte, .any => Version.release 0 0 0 ≤ v
  | _, .any => False
  | .caret, core => core.low ≤ v ∧ v < bound core.caretHigh
  | .tilde, core => core.low ≤ v ∧ v < core.tildeHigh
  | .compare .eq, .full t => v.key = t.key ∧ (t.build ≠ [] → v.build = t.build)
  | .compare .eq, core => core.low ≤ v ∧ v < core.next
  | .compare .gt, .full t => t < v
  | .compare .gt, core => core.next ≤ v
  | .compare .gte, core => core.low ≤ v
  | .compare .lt, core => v < core.low
  | .compare .lte, .full t => v ≤ t
  | .compare .lte, core => v < core.next

/-- The block compares with build metadata. -/
def HasBuild (b : Block) : Prop :=
  match b.op, b.core with
  | .compare .eq, .full t => t.build ≠ []
  | _, _ => False

theorem sat_span_iff {low high : Version}
    (hlow : low.build = []) (hhigh : high.build = []) (v : Version) :
    (∀ c ∈ [(⟨.gte, low⟩ : Comparator), ⟨.lt, high⟩], c.Sat v) ↔
      low ≤ v ∧ v < high := by
  have h₁ := Comparator.sat_iff_of_build_nil (c := ⟨.gte, low⟩) hlow v
  have h₂ := Comparator.sat_iff_of_build_nil (c := ⟨.lt, high⟩) hhigh v
  simp [h₁, h₂, Operator.Holds]

theorem sat_one_iff {op : Operator} {target : Version}
    (h : target.build = []) (v : Version) :
    (∀ c ∈ [(⟨op, target⟩ : Comparator)], c.Sat v) ↔ op.Holds v target := by
  have h₁ := Comparator.sat_iff_of_build_nil (c := ⟨op, target⟩) h v
  simpa using h₁

/-- **The comparators of a block denote its meaning**, the caret bound read as it is. -/
theorem sat_comparators_iff {b : Block} {cs : List Comparator}
    (h : b.comparators = some cs) (v : Version) :
    (∀ c ∈ cs, c.Sat v) ↔ b.Admits id v := by
  obtain ⟨op, core⟩ := b
  cases op with
  | caret =>
      obtain ⟨M, m, p, hhigh⟩ := core.caretHigh_eq_release
      have hb : core.caretHigh.build = [] := by rw [hhigh]; rfl
      cases core <;> simp only [comparators, Option.some.injEq, reduceCtorEq] at h
      all_goals
        subst h
        exact sat_span_iff (Core.low_build _) hb v
  | tilde =>
      have hb := core.tildeHigh_build
      cases core <;> simp only [comparators, Option.some.injEq, reduceCtorEq] at h
      all_goals
        subst h
        exact sat_span_iff (Core.low_build _) hb v
  | compare op =>
      have hlow := core.low_build
      have hnext := core.next_build
      cases op <;> cases core <;>
        simp only [comparators, Option.some.injEq, reduceCtorEq] at h
      all_goals subst h
      case eq.full t =>
        simp [Admits, Comparator.Sat, Operator.Holds]
      all_goals first
        | exact sat_span_iff hlow hnext v
        | exact sat_one_iff rfl v

/-- A block without build metadata denotes a convex set of versions. -/
theorem admits_ordConnected {b : Block} (h : ¬ b.HasBuild)
    (bound : Version → Version) :
    Set.OrdConnected {v | b.Admits bound v} := by
  obtain ⟨op, core⟩ := b
  cases op with
  | caret =>
      cases core with
      | any => exact Set.ordConnected_empty
      | major M => exact Set.ordConnected_Ico
      | minor M m => exact Set.ordConnected_Ico
      | full t => exact Set.ordConnected_Ico
  | tilde =>
      cases core with
      | any => exact Set.ordConnected_empty
      | major M => exact Set.ordConnected_Ico
      | minor M m => exact Set.ordConnected_Ico
      | full t => exact Set.ordConnected_Ico
  | compare op =>
      cases op with
      | eq =>
          cases core with
          | any => exact Set.ordConnected_Ici
          | major M => exact Set.ordConnected_Ico
          | minor M m => exact Set.ordConnected_Ico
          | full t =>
              have hbuild : t.build = [] := not_not.mp h
              simpa [Admits, Comparator.Sat, Operator.Holds] using
                Comparator.sat_ordConnected (c := ⟨.eq, t⟩) hbuild
      | lt =>
          cases core with
          | any => exact Set.ordConnected_empty
          | major M => exact Set.ordConnected_Iio
          | minor M m => exact Set.ordConnected_Iio
          | full t => exact Set.ordConnected_Iio
      | lte =>
          cases core with
          | any => exact Set.ordConnected_empty
          | major M => exact Set.ordConnected_Iio
          | minor M m => exact Set.ordConnected_Iio
          | full t => exact Set.ordConnected_Iic
      | gt =>
          cases core with
          | any => exact Set.ordConnected_empty
          | major M => exact Set.ordConnected_Ici
          | minor M m => exact Set.ordConnected_Ici
          | full t => exact Set.ordConnected_Ioi
      | gte =>
          cases core with
          | any => exact Set.ordConnected_Ici
          | major M => exact Set.ordConnected_Ici
          | minor M m => exact Set.ordConnected_Ici
          | full t => exact Set.ordConnected_Ici

end Block
end Npm
end Semver
end Foundation
