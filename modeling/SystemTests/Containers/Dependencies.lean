import Mathlib.Data.Fintype.Card
import Mathlib.Data.List.Chain
import Mathlib.Logic.Relation
import Mathlib.Tactic
import SystemTests.Foundation.Exception

/-!
# Dependencies of containers (`utils/_context/containers.py`)

A container lists the containers that have to run before it.  Before the main
thread starts a container, it follows these lists and raises if a path meets a
container twice.

Containers are objects: `α` are the references, and `containers` says which
attributes the object behind a reference has.

**Results.**
* `checkCircularDependencies_eq_error`: what is raised names a path of
  dependencies that ends in a container it met before.
* `checkCircularDependencies_raises_iff`: the check raises if and only if a
  cycle can be reached.
* `Acyclic.wellFounded`: without cycles, dependencies allow for induction.
-/

namespace SystemTests
namespace Containers

open Foundation Foundation.Text Relation

universe u

structure TestedContainer (α : Type u) where
  name : Str
  allowOldContainer : Bool
  dependsOn : List α

section Dependencies

variable {α : Type u} [DecidableEq α] (containers : α → TestedContainer α)

def circularDependency (path : List α) : Raised :=
  .runtimeError ("Circular dependency detected between containers: ".toList ++
    join " -> ".toList (path.map fun s => (containers s).name))

theorem card_unseen_lt [Fintype α] {seen : List α} {self : α} (h : self ∉ seen) :
    (Finset.univ \ (seen ++ [self]).toFinset).card < (Finset.univ \ seen.toFinset).card := by
  apply Finset.card_lt_card
  rw [Finset.ssubset_iff_of_subset]
  · exact ⟨self, by simp [h], by simp⟩
  · intro x hx
    simp only [Finset.mem_sdiff, Finset.mem_univ, true_and, List.mem_toFinset,
      List.mem_append] at hx ⊢
    exact fun hseen => hx (Or.inl hseen)

/-- Every dependency gets a copy of the path of its own. -/
def checkCircularDependencies [Fintype α] (seen : List α) (self : α) : Except Raised Unit :=
  if _h : self ∈ seen then
    .error (circularDependency containers (seen ++ [self]))
  else
    (containers self).dependsOn.forM fun dependency =>
      checkCircularDependencies (seen ++ [self]) dependency
termination_by (Finset.univ \ seen.toFinset).card
decreasing_by exact card_unseen_lt _h

def DependsOn (c d : α) : Prop := d ∈ (containers c).dependsOn

/-- A container is on a cycle if following dependencies leads back to it. -/
def OnCycle (c : α) : Prop := TransGen (DependsOn containers) c c

def Acyclic : Prop := ∀ c, ¬ OnCycle containers c

variable {containers} [Fintype α]

theorem checkCircularDependencies_eq_ok_iff {seen : List α} {self : α} :
    checkCircularDependencies containers seen self = .ok () ↔
      self ∉ seen ∧ ∀ d, DependsOn containers self d →
        checkCircularDependencies containers (seen ++ [self]) d = .ok () := by
  rw [checkCircularDependencies]
  by_cases h : self ∈ seen
  · simp [h]
  · rw [dif_neg h, Raised.forM_eq_ok_iff]
    exact ⟨fun hall => ⟨h, hall⟩, fun hall => hall.2⟩

/-- The path that the exception names is one of dependencies, it continues what was seen, and
its last container is on it twice. -/
theorem checkCircularDependencies_eq_error {seen : List α} {self : α} {e : Raised}
    (h : checkCircularDependencies containers seen self = .error e)
    (hseen : (seen ++ [self]).IsChain (DependsOn containers)) :
    ∃ path last, seen ++ [self] <+: path ++ [last] ∧
      (path ++ [last]).IsChain (DependsOn containers) ∧ last ∈ path ∧
      e = circularDependency containers (path ++ [last]) := by
  induction seen, self using checkCircularDependencies.induct with
  | case1 seen self hmem =>
      rw [checkCircularDependencies, dif_pos hmem] at h
      exact ⟨seen, self, List.prefix_rfl, hseen, hmem, (Except.error.inj h).symm⟩
  | case2 seen self hmem ih =>
      rw [checkCircularDependencies, dif_neg hmem] at h
      obtain ⟨d, hd, h⟩ := Raised.exists_of_forM_eq_error h
      have hchain : ((seen ++ [self]) ++ [d]).IsChain (DependsOn containers) := by
        rw [List.append_assoc, List.singleton_append, List.isChain_split]
        exact ⟨hseen, List.isChain_pair.mpr hd⟩
      obtain ⟨path, last, hprefix, hpath, hlast, he⟩ := ih d h hchain
      exact ⟨path, last, (List.prefix_append _ _).trans hprefix, hpath, hlast, he⟩

omit [DecidableEq α] [Fintype α] in
/-- A path whose last container is on it twice leads to a cycle. -/
theorem onCycle_of_isChain {path : List α} {last : α}
    (hpath : (path ++ [last]).IsChain (DependsOn containers)) (hlast : last ∈ path) :
    OnCycle containers last ∧
      ∀ c, (path ++ [last]).head? = some c → ReflTransGen (DependsOn containers) c last := by
  obtain ⟨before, after, rfl⟩ := List.append_of_mem hlast
  rw [List.append_assoc, List.cons_append, List.isChain_split] at hpath
  obtain ⟨hbefore, hafter⟩ := hpath
  constructor
  · cases after with
    | nil =>
        rw [List.nil_append, List.isChain_pair] at hafter
        exact TransGen.single hafter
    | cons d after =>
        rw [List.cons_append, List.isChain_cons_cons] at hafter
        have hback := List.relationReflTransGen_of_exists_isChain_cons _ hafter.2
          (List.getLast_append_singleton (d :: after))
        exact TransGen.head' hafter.1 hback
  · intro c hc
    have hreach := List.relationReflTransGen_of_exists_isChain _ hbefore (by simp)
    rw [List.getLast_append_singleton] at hreach
    have hhead : (before ++ [last]).head (by simp) = c := by
      cases before <;> simpa using hc
    rwa [hhead] at hreach

/-- Where the check returns, so do the checks that it makes along a path. -/
theorem exists_check_of_transGen {seen : List α} {c d : α}
    (h : checkCircularDependencies containers seen c = .ok ())
    (hpath : TransGen (DependsOn containers) c d) :
    ∃ seen', c ∈ seen' ∧ checkCircularDependencies containers seen' d = .ok () := by
  induction hpath with
  | single hd =>
      exact ⟨seen ++ [c], by simp, (checkCircularDependencies_eq_ok_iff.mp h).2 _ hd⟩
  | tail _ hd ih =>
      obtain ⟨seen', hc, hcheck⟩ := ih
      exact ⟨_, List.mem_append_left _ hc, (checkCircularDependencies_eq_ok_iff.mp hcheck).2 _ hd⟩

theorem not_onCycle_of_check {seen : List α} {c : α}
    (h : checkCircularDependencies containers seen c = .ok ()) : ¬ OnCycle containers c := by
  intro hcycle
  obtain ⟨seen', hc, hcheck⟩ := exists_check_of_transGen h hcycle
  exact (checkCircularDependencies_eq_ok_iff.mp hcheck).1 hc

theorem checkCircularDependencies_raises_iff {c : α} :
    (∃ e, checkCircularDependencies containers [] c = .error e) ↔
      ∃ d, ReflTransGen (DependsOn containers) c d ∧ OnCycle containers d := by
  constructor
  · rintro ⟨e, he⟩
    obtain ⟨path, last, ⟨rest, hpath⟩, hchain, hlast, -⟩ :=
      checkCircularDependencies_eq_error he (List.isChain_singleton c)
    obtain ⟨hcycle, hreach⟩ := onCycle_of_isChain hchain hlast
    exact ⟨last, hreach c (by rw [← hpath]; rfl), hcycle⟩
  · rintro ⟨d, hreach, hcycle⟩
    cases hcheck : checkCircularDependencies containers [] c with
    | error e => exact ⟨e, rfl⟩
    | ok u =>
        rcases reflTransGen_iff_eq_or_transGen.mp hreach with rfl | hpath
        · exact absurd hcycle (not_onCycle_of_check hcheck)
        · obtain ⟨seen, -, hcheck⟩ := exists_check_of_transGen hcheck hpath
          exact absurd hcycle (not_onCycle_of_check hcheck)

theorem Acyclic.check_eq_ok (h : Acyclic containers) (c : α) :
    checkCircularDependencies containers [] c = .ok () := by
  cases hcheck : checkCircularDependencies containers [] c with
  | ok u => rfl
  | error e =>
      obtain ⟨d, -, hcycle⟩ := checkCircularDependencies_raises_iff.mp ⟨e, hcheck⟩
      exact absurd hcycle (h d)

omit [DecidableEq α] in
theorem Acyclic.wellFounded (h : Acyclic containers) :
    WellFounded fun d c => DependsOn containers c d := by
  have htrans : IsTrans α (fun d c => TransGen (DependsOn containers) c d) :=
    ⟨fun _ _ _ hab hbc => hbc.trans hab⟩
  have hirrefl : Std.Irrefl (fun d c => TransGen (DependsOn containers) c d) := ⟨h⟩
  have hwf := Finite.wellFounded_of_trans_of_irrefl
    (fun d c => TransGen (DependsOn containers) c d)
  exact hwf.mono fun d c hd => TransGen.single hd

end Dependencies
end Containers
end SystemTests
