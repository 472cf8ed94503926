import SystemTests.Orchestration.SplitJobs
import Mathlib.Algebra.Order.BigOperators.Group.List
import Mathlib.Algebra.Order.Monoid.Defs

/-!
# First fit decreasing (`_split_scenarios_for_parallel_execution`)

Scenarios are packed one after the other, each into the first backpack that has
room for it.  The loads of the backpacks only grow, so a backpack that has no room
for a scenario once never has room for it again: at the end no scenario of a later
backpack fits in an earlier one.

Times are of any ordered commutative monoid: the naturals, the integers, the
rationals.

**Results.**
* `Packed.place`, `Packed.open`: a step keeps the invariant of the backpacks.
* `splitScenariosForParallelExecution_spec`: the packing of a run.
-/

namespace SystemTests
namespace Orchestration

open Foundation Foundation.Text

variable {T : Type} [AddCommMonoid T]

/-- The time of a scenario. -/
def timeOf (times : Dict Str T) (scenario : Str) : T := (times.get? scenario).getD 0

/-- The total of a backpack. -/
def load (times : Dict Str T) (scenarios : List Str) : T := (scenarios.map (timeOf times)).sum

theorem load_append (times : Dict Str T) (p q : List Str) :
    load times (p ++ q) = load times p + load times q := by
  rw [load, List.map_append, List.sum_append]
  rfl

theorem load_singleton (times : Dict Str T) (scenario : Str) :
    load times [scenario] = timeOf times scenario := by
  simp [load]

variable [LinearOrder T]

/-- The budget holds, or a scenario that is longer than the budget is alone. -/
def WithinBudget (times : Dict Str T) (desired : T) (scenarios : List Str) : Prop :=
  load times scenarios ≤ desired ∨
    ∃ scenario, scenarios = [scenario] ∧ desired < timeOf times scenario

/-- No scenario of the later backpack that fits the budget fits in the earlier one. -/
def NoRoom (times : Dict Str T) (desired : T) (earlier later : List Str) : Prop :=
  ∀ scenario ∈ later, timeOf times scenario ≤ desired →
    desired < load times earlier + timeOf times scenario

/-- The invariant of the backpacks. -/
structure Packed (times : Dict Str T) (desired : T) (backpacks : List (BackPack T)) : Prop where
  time : ∀ p ∈ backpacks, p.executionTime = load times p.scenarios
  nonempty : ∀ p ∈ backpacks, p.scenarios ≠ []
  budget : ∀ p ∈ backpacks, WithinBudget times desired p.scenarios
  noRoom : (backpacks.map BackPack.scenarios).Pairwise (NoRoom times desired)

section Steps

variable {times : Dict Str T} {desired : T}

theorem firstFit_cases {scenario : Str} {executionTime : T} :
    ∀ {backpacks placed : List (BackPack T)},
      firstFit scenario executionTime desired backpacks = some placed →
        ∃ before p after, backpacks = before ++ p :: after ∧
          placed = before ++
            ⟨p.scenarios ++ [scenario], p.executionTime + executionTime⟩ :: after ∧
          p.executionTime + executionTime ≤ desired ∧
          ∀ q ∈ before, desired < q.executionTime + executionTime
  | [], placed, h => by simp [firstFit] at h
  | backpack :: backpacks, placed, h => by
      unfold firstFit at h
      split_ifs at h with hfits
      · rw [Option.some.injEq] at h
        exact ⟨[], backpack, backpacks, rfl, h.symm, hfits, by simp⟩
      · obtain ⟨rest, hrest, rfl⟩ := Option.map_eq_some_iff.mp h
        obtain ⟨before, p, after, rfl, rfl, hp, hbefore⟩ := firstFit_cases hrest
        refine ⟨backpack :: before, p, after, rfl, rfl, hp, ?_⟩
        rw [List.forall_mem_cons]
        exact ⟨not_le.mp hfits, hbefore⟩

theorem firstFit_eq_none {scenario : Str} {executionTime : T} :
    ∀ {backpacks : List (BackPack T)},
      firstFit scenario executionTime desired backpacks = none →
        ∀ q ∈ backpacks, desired < q.executionTime + executionTime
  | [], _ => by simp
  | backpack :: backpacks, h => by
      unfold firstFit at h
      split_ifs at h with hfits
      rw [Option.map_eq_none_iff] at h
      rw [List.forall_mem_cons]
      exact ⟨not_le.mp hfits, firstFit_eq_none h⟩

theorem Packed.nil : Packed times desired [] where
  time := by simp
  nonempty := by simp
  budget := by simp
  noRoom := List.Pairwise.nil

/-- A new backpack, when no other has room for the scenario. -/
theorem Packed.open {backpacks : List (BackPack T)} (h : Packed times desired backpacks)
    {scenario : Str}
    (hfull : timeOf times scenario ≤ desired →
      ∀ q ∈ backpacks, desired < q.executionTime + timeOf times scenario) :
    Packed times desired (backpacks ++ [⟨[scenario], timeOf times scenario⟩]) where
  time := by
    rw [List.forall_mem_append]
    refine ⟨h.time, ?_⟩
    rw [List.forall_mem_singleton, load_singleton]
  nonempty := by
    rw [List.forall_mem_append]
    exact ⟨h.nonempty, by simp⟩
  budget := by
    rw [List.forall_mem_append]
    refine ⟨h.budget, ?_⟩
    rw [List.forall_mem_singleton, WithinBudget, load_singleton]
    rcases le_or_gt (timeOf times scenario) desired with hle | hlt
    · exact Or.inl hle
    · exact Or.inr ⟨scenario, rfl, hlt⟩
  noRoom := by
    rw [List.map_append, List.pairwise_append]
    refine ⟨h.noRoom, List.pairwise_singleton _ _, ?_⟩
    intro earlier hearlier later hlater
    obtain ⟨q, hq, rfl⟩ := List.mem_map.mp hearlier
    obtain rfl : later = [scenario] := by simpa using hlater
    intro s hs hfits
    obtain rfl : s = scenario := List.mem_singleton.mp hs
    rw [← h.time q hq]
    exact hfull hfits q hq

variable [IsOrderedAddMonoid T]

/-- A larger load leaves no more room. -/
theorem NoRoom.append {earlier later added : List Str} (h : NoRoom times desired earlier later)
    (hadded : 0 ≤ load times added) : NoRoom times desired (earlier ++ added) later := by
  intro scenario hscenario hfits
  have hlt := h scenario hscenario hfits
  have hle : load times earlier ≤ load times earlier + load times added :=
    le_add_of_nonneg_right hadded
  calc desired < load times earlier + timeOf times scenario := hlt
    _ ≤ load times earlier + load times added + timeOf times scenario := by gcongr
    _ = load times (earlier ++ added) + timeOf times scenario := by rw [load_append]

/-- A scenario in the first backpack that has room for it. -/
theorem Packed.place {before after : List (BackPack T)} {p : BackPack T}
    (h : Packed times desired (before ++ p :: after)) {scenario : Str}
    (hnonneg : 0 ≤ timeOf times scenario)
    (hfits : p.executionTime + timeOf times scenario ≤ desired)
    (hbefore : ∀ q ∈ before, desired < q.executionTime + timeOf times scenario) :
    Packed times desired (before ++
      ⟨p.scenarios ++ [scenario], p.executionTime + timeOf times scenario⟩ :: after) := by
  have htime := h.time
  have hnonempty := h.nonempty
  have hbudget := h.budget
  have hnoRoom := h.noRoom
  rw [List.forall_mem_append, List.forall_mem_cons] at htime hnonempty hbudget
  rw [List.map_append, List.map_cons, List.pairwise_append, List.pairwise_cons] at hnoRoom
  obtain ⟨hpairs, ⟨hp, hafter⟩, hcross⟩ := hnoRoom
  have hload : load times (p.scenarios ++ [scenario]) =
      p.executionTime + timeOf times scenario := by
    rw [load_append, load_singleton, htime.2.1]
  refine ⟨?_, ?_, ?_, ?_⟩
  · rw [List.forall_mem_append, List.forall_mem_cons]
    exact ⟨htime.1, hload.symm, htime.2.2⟩
  · rw [List.forall_mem_append, List.forall_mem_cons]
    exact ⟨hnonempty.1, by simp, hnonempty.2.2⟩
  · rw [List.forall_mem_append, List.forall_mem_cons]
    refine ⟨hbudget.1, Or.inl ?_, hbudget.2.2⟩
    rw [hload]
    exact hfits
  · rw [List.map_append, List.map_cons, List.pairwise_append, List.pairwise_cons]
    refine ⟨hpairs, ⟨?_, hafter⟩, ?_⟩
    · intro later hlater
      refine (hp later hlater).append ?_
      rw [load_singleton]
      exact hnonneg
    · intro earlier hearlier later hlater
      rcases List.mem_cons.mp hlater with rfl | hlater
      · -- the scenario had no room in the earlier backpacks
        intro s hs hle
        rcases List.mem_append.mp hs with hs | hs
        · exact hcross earlier hearlier p.scenarios List.mem_cons_self s hs hle
        · obtain rfl : s = scenario := List.mem_singleton.mp hs
          obtain ⟨q, hq, rfl⟩ := List.mem_map.mp hearlier
          rw [← htime.1 q hq]
          exact hbefore q hq
      · exact hcross earlier hearlier later (List.mem_cons_of_mem _ hlater)

theorem Packed.step {backpacks : List (BackPack T)} (h : Packed times desired backpacks)
    {scenario : Str} (hnonneg : 0 ≤ timeOf times scenario) :
    Packed times desired
      (packScenario desired backpacks (scenario, timeOf times scenario)) := by
  unfold packScenario
  split_ifs with hnew
  · refine h.open ?_
    intro hle q hq
    simp only [Bool.or_eq_true, decide_eq_true_eq, List.length_eq_zero_iff] at hnew
    rcases hnew with hlong | hempty
    · exact absurd hle (not_le.mpr hlong)
    · rw [hempty] at hq
      cases hq
  · split
    · rename_i placed hplaced
      obtain ⟨before, p, after, rfl, rfl, hfits, hbefore⟩ := firstFit_cases hplaced
      exact h.place hnonneg hfits hbefore
    · rename_i hnone
      exact h.open fun _ => firstFit_eq_none hnone

theorem Packed.run : ∀ {items : List (Str × T)} {backpacks : List (BackPack T)},
    (∀ item ∈ items, item.2 = timeOf times item.1 ∧ 0 ≤ item.2) →
      Packed times desired backpacks →
        Packed times desired (items.foldl (packScenario desired) backpacks)
  | [], _, _, h => h
  | (scenario, time) :: items, backpacks, hitems, h => by
      rw [List.forall_mem_cons] at hitems
      obtain ⟨⟨htime, hnonneg⟩, hitems⟩ := hitems
      change time = timeOf times scenario at htime
      change 0 ≤ time at hnonneg
      rw [List.foldl_cons, htime]
      rw [htime] at hnonneg
      exact Packed.run hitems (h.step hnonneg)

/-- Of two backpacks that leave no room one after the other, one is more than half full. -/
theorem NoRoom.half {earlier later : List Str} (h : NoRoom times desired earlier later)
    (hnonneg : ∀ scenario ∈ later, 0 ≤ timeOf times scenario) (hne : later ≠ []) :
    ¬ (load times earlier + load times earlier ≤ desired ∧
      load times later + load times later ≤ desired) := by
  rintro ⟨hearlier, hlater⟩
  obtain ⟨scenario, rest, rfl⟩ := List.exists_cons_of_ne_nil hne
  rw [List.forall_mem_cons] at hnonneg
  have hrest : 0 ≤ load times rest := by
    refine List.sum_nonneg ?_
    simpa using hnonneg.2
  have htime : timeOf times scenario ≤ load times (scenario :: rest) := by
    have hcons : load times (scenario :: rest) = timeOf times scenario + load times rest := by
      simp [load]
    rw [hcons]
    exact le_add_of_nonneg_right hrest
  have htotal : 0 ≤ load times (scenario :: rest) := hnonneg.1.trans htime
  have hfits : timeOf times scenario ≤ desired :=
    htime.trans ((le_add_of_nonneg_right htotal).trans hlater)
  have hlt := h scenario List.mem_cons_self hfits
  -- the smaller of the two loads, taken twice, is above the budget
  rcases le_total (load times earlier) (load times (scenario :: rest)) with hle | hle
  · have hsum : load times earlier + timeOf times scenario ≤
        load times (scenario :: rest) + load times (scenario :: rest) := add_le_add hle htime
    exact absurd (hlt.trans_le (hsum.trans hlater)) (lt_irrefl _)
  · have hsum : load times earlier + timeOf times scenario ≤
        load times earlier + load times earlier :=
      add_le_add le_rfl (htime.trans hle)
    exact absurd (hlt.trans_le (hsum.trans hearlier)) (lt_irrefl _)

end Steps

section Run

variable [IsOrderedAddMonoid T]

/-- At most one element of a list has a property that no two of them share. -/
theorem length_filter_le_one {α : Type} {p : α → Bool} {l : List α}
    (h : l.Pairwise fun x y => ¬ (p x = true ∧ p y = true)) : (l.filter p).length ≤ 1 := by
  have hsub : (l.filter p).Sublist l := List.filter_sublist
  have hfilter := h.sublist hsub
  have hall : ∀ x ∈ l.filter p, p x = true := fun x hx => (List.mem_filter.mp hx).2
  match hl : l.filter p with
  | [] => simp
  | [x] => simp
  | x :: y :: rest =>
      rw [hl] at hfilter hall
      rw [List.forall_mem_cons, List.forall_mem_cons] at hall
      exact absurd ⟨hall.1, hall.2.1⟩ ((List.pairwise_cons.mp hfilter).1 y List.mem_cons_self)

/-- **First fit decreasing.** -/
theorem splitScenariosForParallelExecution_spec (times : Dict Str T) (desired : T)
    (hnonneg : ∀ scenario ∈ times.keys, 0 ≤ timeOf times scenario) :
    (splitScenariosForParallelExecution times desired).flatten.Perm times.keys ∧
      (∀ p ∈ splitScenariosForParallelExecution times desired,
        p ≠ [] ∧ WithinBudget times desired p) ∧
      (splitScenariosForParallelExecution times desired).Pairwise (NoRoom times desired) ∧
      ((splitScenariosForParallelExecution times desired).filter fun p =>
        load times p + load times p ≤ desired).length ≤ 1 := by
  have hperm := splitScenariosForParallelExecution_perm times desired
  have hitems : ∀ item ∈ times.items.mergeSort fun a b => !decide (a.2 < b.2),
      item.2 = timeOf times item.1 ∧ 0 ≤ item.2 := by
    intro item hitem
    have hmem : (item.1, item.2) ∈ times.items := (List.mergeSort_perm _ _).mem_iff.mp hitem
    have htime : timeOf times item.1 = item.2 := by
      rw [timeOf, (times.mem_items_iff item.1 item.2).mp hmem]
      rfl
    have hkey : item.1 ∈ times.keys := List.mem_map_of_mem hmem
    exact ⟨htime.symm, htime ▸ hnonneg item.1 hkey⟩
  have hpacked : Packed times desired ((times.items.mergeSort
      fun a b => !decide (a.2 < b.2)).foldl (packScenario desired) []) :=
    Packed.run hitems Packed.nil
  have hspec : ∀ p ∈ splitScenariosForParallelExecution times desired,
      p ≠ [] ∧ WithinBudget times desired p := by
    intro p hp
    obtain ⟨q, hq, rfl⟩ := List.mem_map.mp hp
    exact ⟨hpacked.nonempty q hq, hpacked.budget q hq⟩
  refine ⟨hperm, hspec, hpacked.noRoom, length_filter_le_one ?_⟩
  have hlater : ∀ p ∈ splitScenariosForParallelExecution times desired,
      ∀ scenario ∈ p, 0 ≤ timeOf times scenario := by
    intro p hp scenario hscenario
    exact hnonneg scenario (hperm.mem_iff.mp (List.mem_flatten.mpr ⟨p, hp, hscenario⟩))
  refine hpacked.noRoom.imp_of_mem ?_
  intro earlier later _ hlater' hroom
  simp only [decide_eq_true_eq]
  exact hroom.half (hlater later hlater') (hspec later hlater').1

/-- Scenarios of 5, 4, 3 and 12 minutes with a budget of 8. -/
theorem splitScenariosForParallelExecution_spec_eight :
    (splitScenariosForParallelExecution
      (⟨[("A", 5), ("B", 4), ("C", 3), ("D", 12)], by decide⟩ : Dict Str ℕ) 8).flatten.Perm
        ["A", "B", "C", "D"] := by
  refine (splitScenariosForParallelExecution_spec _ 8 ?_).1
  simp

end Run

end Orchestration
end SystemTests
