import SystemTests.Foundation.Dict

/-!
# Names with a fallback

Names are given out one after the other.  Each comer takes its first choice, or
its second one when the first is taken.  Nobody looks whether the second choice
is taken.

**Results.**
* `assign_eq_map`: who gets which name, without the list of taken names.
* `nodup_assign_iff`: when the names are distinct.
* `existsUnique_stored_iff`: what is stored under names is found again, task by
  task, when different tasks have different names.
-/

namespace Foundation
namespace Naming

universe u v w

section Assignment

variable {α : Type u} {β : Type v}

/-- `a` comes before `b`. -/
def Earlier (as : List α) (a b : α) : Prop := [a, b].Sublist as

theorem earlier_iff_of_nodup {done rest : List α} {a b : α} (h : (done ++ b :: rest).Nodup) :
    Earlier (done ++ b :: rest) a b ↔ a ∈ done := by
  rw [List.nodup_append] at h
  obtain ⟨-, hrest, hdisjoint⟩ := h
  constructor
  · intro hab
    obtain ⟨l₁, l₂, heq, h₁, h₂⟩ := List.sublist_append_iff.mp hab
    match l₁, h₁, heq with
    | [], _, heq =>
        rw [List.nil_append] at heq
        rw [← heq] at h₂
        have hb : b ∈ rest := by
          cases h₂ with
          | cons _ h => exact h.subset (by simp)
          | cons_cons _ h => exact List.singleton_sublist.mp h
        exact absurd hb (List.nodup_cons.mp hrest).1
    | x :: _, h₁, heq =>
        obtain ⟨rfl, -⟩ := List.cons.inj heq
        exact h₁.subset List.mem_cons_self
  · intro ha
    exact (List.singleton_sublist.mpr ha).append (List.singleton_sublist.mpr List.mem_cons_self)

variable (first second : α → β)

/-- The first choice of `b` is gone when `b` comes. -/
inductive FallsBack (as : List α) : α → Prop where
  | same {a b : α} (hab : Earlier as a b) (heq : first a = first b) : FallsBack as b
  | second {a b : α} (hab : Earlier as a b) (ha : FallsBack as a) (heq : second a = first b) :
      FallsBack as b

open Classical in
noncomputable def nameOf (as : List α) (a : α) : β :=
  if FallsBack first second as a then second a else first a

variable {first second}

theorem nameOf_of_fallsBack {as : List α} {a : α} (h : FallsBack first second as a) :
    nameOf first second as a = second a := if_pos h

theorem nameOf_of_not_fallsBack {as : List α} {a : α} (h : ¬ FallsBack first second as a) :
    nameOf first second as a = first a := if_neg h

/-- A first choice is gone exactly when someone who came earlier has it. -/
theorem fallsBack_iff {as : List α} :
    ∀ {done rest : List α} {b : α}, as = done ++ b :: rest → as.Nodup →
      (FallsBack first second as b ↔ ∃ a ∈ done, nameOf first second as a = first b) := by
  intro done
  induction hn : done.length using Nat.strong_induction_on generalizing done with
  | _ n ih =>
    intro rest b has hnodup
    have hearlier : ∀ a, Earlier as a b ↔ a ∈ done := fun a => by
      subst has
      exact earlier_iff_of_nodup hnodup
    constructor
    · rintro (⟨hab, heq⟩ | ⟨hab, ha, heq⟩)
      · rename_i a
        have hmem := (hearlier a).mp hab
        by_cases ha : FallsBack first second as a
        · obtain ⟨l₁, l₂, rfl⟩ := List.append_of_mem hmem
          have hlt : l₁.length < n := by
            rw [← hn, List.length_append, List.length_cons]
            omega
          rw [List.append_assoc, List.cons_append] at has
          obtain ⟨a', ha', hname⟩ := (ih l₁.length hlt rfl has hnodup).mp ha
          exact ⟨a', List.mem_append_left _ ha', hname.trans heq⟩
        · exact ⟨a, hmem, (nameOf_of_not_fallsBack ha).trans heq⟩
      · exact ⟨_, (hearlier _).mp hab, (nameOf_of_fallsBack ha).trans heq⟩
    · rintro ⟨a, hmem, hname⟩
      have hab := (hearlier a).mpr hmem
      by_cases ha : FallsBack first second as a
      · exact .second hab ha ((nameOf_of_fallsBack ha).symm.trans hname)
      · exact .same hab ((nameOf_of_not_fallsBack ha).symm.trans hname)

variable (first second) in
/-- No second choice was already given out. -/
def NoClash (as : List α) : Prop :=
  ∀ a b, Earlier as a b → FallsBack first second as b → nameOf first second as a ≠ second b

theorem nodup_map_nameOf_iff {as : List α} :
    (as.map (nameOf first second as)).Nodup ↔ NoClash first second as := by
  rw [List.Nodup, List.pairwise_map, List.pairwise_iff_forall_sublist]
  constructor
  · intro hdistinct a b hab hb
    rw [← nameOf_of_fallsBack hb]
    exact hdistinct hab
  · intro hclash a b hab heq
    by_cases hb : FallsBack first second as b
    · exact hclash a b hab hb (heq.trans (nameOf_of_fallsBack hb))
    · rw [nameOf_of_not_fallsBack hb] at heq
      by_cases ha : FallsBack first second as a
      · exact hb (.second hab ha ((nameOf_of_fallsBack ha).symm.trans heq))
      · exact hb (.same hab ((nameOf_of_not_fallsBack ha).symm.trans heq))

variable (first second) [DecidableEq β]

def choose (taken : List β) (a : α) : β := if first a ∈ taken then second a else first a

def assign : List β → List α → List (α × β)
  | _, [] => []
  | taken, a :: as =>
      (a, choose first second taken a) :: assign (choose first second taken a :: taken) as

variable {first second}

theorem assign_eq_map_aux {as : List α} (hnodup : as.Nodup) :
    ∀ {rest done : List α} {taken : List β}, as = done ++ rest →
      (∀ n, n ∈ taken ↔ ∃ a ∈ done, nameOf first second as a = n) →
      assign first second taken rest = rest.map fun a => (a, nameOf first second as a)
  | [], _, _, _, _ => rfl
  | b :: rest, done, taken, has, htaken => by
      have hname : choose first second taken b = nameOf first second as b := by
        rw [choose]
        by_cases hb : first b ∈ taken
        · rw [if_pos hb, nameOf_of_fallsBack]
          exact (fallsBack_iff has hnodup).mpr ((htaken (first b)).mp hb)
        · rw [if_neg hb, nameOf_of_not_fallsBack]
          exact fun h => hb ((htaken (first b)).mpr ((fallsBack_iff has hnodup).mp h))
      have hdone : as = (done ++ [b]) ++ rest := by rw [has, List.append_assoc]; rfl
      rw [assign, hname, List.map_cons, assign_eq_map_aux hnodup hdone]
      intro n
      rw [List.mem_cons, htaken]
      constructor
      · rintro (rfl | ⟨a, ha, rfl⟩)
        · exact ⟨b, by simp, rfl⟩
        · exact ⟨a, by simp [ha], rfl⟩
      · rintro ⟨a, ha, rfl⟩
        rcases List.mem_append.mp ha with ha | ha
        · exact Or.inr ⟨a, ha, rfl⟩
        · rw [List.mem_singleton.mp ha]
          exact Or.inl rfl

theorem assign_eq_map {as : List α} (h : as.Nodup) :
    assign first second [] as = as.map fun a => (a, nameOf first second as a) := by
  refine assign_eq_map_aux h (List.nil_append as).symm ?_
  simp

theorem nodup_assign_iff {as : List α} (h : as.Nodup) :
    ((assign first second [] as).map Prod.snd).Nodup ↔ NoClash first second as := by
  rw [assign_eq_map h, List.map_map, ← nodup_map_nameOf_iff]
  rfl

end Assignment

section Storage

variable {σ : Type u} {κ : Type v} {ν : Type w} [DecidableEq κ]

/-- The values are stored under the names of their tasks, one after the other. -/
def stored (name : σ → κ) (writes : List (σ × ν)) : Dict κ ν :=
  Dict.empty.setAll (writes.map fun p => (name p.1, p.2))

variable {name : σ → κ} {writes : List (σ × ν)} {Does : ν → σ → Prop}

theorem exists_of_stored {k : κ} {value : ν} (h : (stored name writes).get? k = some value) :
    ∃ task, (task, value) ∈ writes ∧ name task = k := by
  rcases Dict.get?_setAll_cases h with hmem | hempty
  · obtain ⟨p, hp, heq⟩ := List.mem_map.mp hmem
    obtain ⟨rfl, rfl⟩ := Prod.mk.inj heq
    exact ⟨p.1, hp, rfl⟩
  · rw [Dict.get?_empty] at hempty
    cases hempty

variable (name) in
theorem exists_stored {task : σ} {value : ν} (h : (task, value) ∈ writes) :
    ∃ task' value', (stored name writes).get? (name task) = some value' ∧
      (task', value') ∈ writes ∧ name task' = name task := by
  have hkey : name task ∈ (writes.map fun p => (name p.1, p.2)).map Prod.fst :=
    List.mem_map.mpr ⟨(name task, value), List.mem_map.mpr ⟨(task, value), h, rfl⟩, rfl⟩
  obtain ⟨value', hget, -⟩ := Dict.exists_get?_setAll Dict.empty hkey
  obtain ⟨task', hmem, hname⟩ := exists_of_stored hget
  exact ⟨task', value', hget, hmem, hname⟩

variable (name) in
/-- Every task is done under one name, unless two tasks share a name. -/
theorem existsUnique_stored_iff
    (hdoes : ∀ p ∈ writes, ∀ q ∈ writes, Does p.2 q.1 ↔ p.1 = q.1) :
    (∀ p ∈ writes, ∃! k, ∃ value, (stored name writes).get? k = some value ∧ Does value p.1) ↔
      ∀ p ∈ writes, ∀ q ∈ writes, name p.1 = name q.1 → p.1 = q.1 := by
  constructor
  · intro hall p hp q hq hname
    -- The last value that was written under the common name decides.
    obtain ⟨task, value, hget, hmem, -⟩ := exists_stored name hp
    have hlast : ∀ r ∈ writes, name r.1 = name p.1 → task = r.1 := by
      intro r hr hrp
      obtain ⟨k, ⟨value', hk, hdone⟩, -⟩ := hall r hr
      obtain ⟨task', hmem', rfl⟩ := exists_of_stored hk
      have htask : task' = r.1 := (hdoes (task', value') hmem' r hr).mp hdone
      rw [htask, hrp, hget, Option.some.injEq] at hk
      rw [← hk] at hdone
      exact (hdoes (task, value) hmem r hr).mp hdone
    exact (hlast p hp rfl).symm.trans (hlast q hq hname.symm)
  · intro hinj p hp
    obtain ⟨task, value, hget, hmem, hname⟩ := exists_stored name hp
    have htask : task = p.1 := hinj (task, value) hmem p hp hname
    refine ⟨name p.1, ⟨value, hget, (hdoes (task, value) hmem p hp).mpr htask⟩, ?_⟩
    rintro k ⟨value', hk, hdone⟩
    obtain ⟨task', hmem', rfl⟩ := exists_of_stored hk
    exact congrArg name ((hdoes (task', value') hmem' p hp).mp hdone)

end Storage

end Naming
end Foundation
