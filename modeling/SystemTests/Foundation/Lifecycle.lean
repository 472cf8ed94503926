import Mathlib.Data.List.Infix
import Mathlib.Tactic

/-!
# Life of keyed resources

Resources are opened for a key, made ready, used, and closed.  A trace is the
list of what happened, the oldest first.  It is disciplined if a resource is
opened once and only while no other is open for its key, used only when it was
made ready after its last use, and closed only while it is open.

**Results.**
* `Disciplined.of_prefix`: what happened before was disciplined too.
* `Disciplined.eq_of_openFor`: at most one resource is open for a key.
* `Disciplined.count_closed_le_one`: no resource is closed twice.
* `Disciplined.isReady_of_used`: a resource is used only when it is ready.
-/

namespace Foundation

universe u v

inductive LifeEvent (ρ : Type u) (κ : Type v) where
  | opened (r : ρ) (k : κ)
  | ready (r : ρ)
  | spoiled (r : ρ)
  | used (r : ρ)
  | closed (r : ρ)
deriving DecidableEq

namespace LifeEvent

variable {ρ : Type u} {κ : Type v}

def OpenFor (trace : List (LifeEvent ρ κ)) (r : ρ) (k : κ) : Prop :=
  opened r k ∈ trace ∧ closed r ∉ trace

/-- The resource was made ready, and neither used nor spoiled since. -/
def IsReady (trace : List (LifeEvent ρ κ)) (r : ρ) : Prop :=
  ∃ before since, trace = before ++ ready r :: since ∧ used r ∉ since ∧ spoiled r ∉ since

inductive Disciplined : List (LifeEvent ρ κ) → Prop
  | nil : Disciplined []
  | onOpened {trace : List (LifeEvent ρ κ)} {r : ρ} {k : κ} (h : Disciplined trace)
      (hfresh : ∀ k', opened r k' ∉ trace) (hfree : ∀ r', ¬ OpenFor trace r' k) :
      Disciplined (trace ++ [opened r k])
  | onReady {trace : List (LifeEvent ρ κ)} (r : ρ) (h : Disciplined trace) :
      Disciplined (trace ++ [ready r])
  | onSpoiled {trace : List (LifeEvent ρ κ)} (r : ρ) (h : Disciplined trace) :
      Disciplined (trace ++ [spoiled r])
  | onUsed {trace : List (LifeEvent ρ κ)} {r : ρ} (h : Disciplined trace)
      (hready : IsReady trace r) : Disciplined (trace ++ [used r])
  | onClosed {trace : List (LifeEvent ρ κ)} {r : ρ} {k : κ} (h : Disciplined trace)
      (hopen : OpenFor trace r k) : Disciplined (trace ++ [closed r])

theorem isReady_concat_ready (trace : List (LifeEvent ρ κ)) (r : ρ) :
    IsReady (trace ++ [ready r]) r :=
  ⟨trace, [], by simp⟩

@[simp] theorem openFor_concat_opened (trace : List (LifeEvent ρ κ)) (r r' : ρ) (k k' : κ) :
    OpenFor (trace ++ [opened r k]) r' k' ↔
      OpenFor trace r' k' ∨ (r' = r ∧ k' = k ∧ closed r ∉ trace) := by
  simp only [OpenFor, List.mem_append, List.mem_singleton, opened.injEq, reduceCtorEq, or_false]
  constructor
  · rintro ⟨hopened | ⟨rfl, rfl⟩, hclosed⟩
    · exact Or.inl ⟨hopened, hclosed⟩
    · exact Or.inr ⟨rfl, rfl, hclosed⟩
  · rintro (⟨hopened, hclosed⟩ | ⟨rfl, rfl, hclosed⟩)
    · exact ⟨Or.inl hopened, hclosed⟩
    · exact ⟨Or.inr ⟨rfl, rfl⟩, hclosed⟩

@[simp] theorem openFor_concat_ready (trace : List (LifeEvent ρ κ)) (r r' : ρ) (k : κ) :
    OpenFor (trace ++ [ready r]) r' k ↔ OpenFor trace r' k := by
  simp [OpenFor]

@[simp] theorem openFor_concat_spoiled (trace : List (LifeEvent ρ κ)) (r r' : ρ) (k : κ) :
    OpenFor (trace ++ [spoiled r]) r' k ↔ OpenFor trace r' k := by
  simp [OpenFor]

@[simp] theorem openFor_concat_used (trace : List (LifeEvent ρ κ)) (r r' : ρ) (k : κ) :
    OpenFor (trace ++ [used r]) r' k ↔ OpenFor trace r' k := by
  simp [OpenFor]

@[simp] theorem openFor_concat_closed (trace : List (LifeEvent ρ κ)) (r r' : ρ) (k : κ) :
    OpenFor (trace ++ [closed r]) r' k ↔ OpenFor trace r' k ∧ r' ≠ r := by
  simp only [OpenFor, List.mem_append, List.mem_singleton, reduceCtorEq, or_false, closed.injEq,
    not_or, and_assoc]

namespace Disciplined

variable {trace : List (LifeEvent ρ κ)}

theorem of_prefix (h : Disciplined trace) : ∀ {before : List (LifeEvent ρ κ)},
    before <+: trace → Disciplined before := by
  induction h with
  | nil =>
      intro before hbefore
      rw [List.prefix_nil.mp hbefore]
      exact Disciplined.nil
  | onOpened h hfresh hfree ih =>
      intro before hbefore
      rcases List.prefix_concat_iff.mp hbefore with rfl | hbefore
      · exact Disciplined.onOpened h hfresh hfree
      · exact ih hbefore
  | onReady r h ih =>
      intro before hbefore
      rcases List.prefix_concat_iff.mp hbefore with rfl | hbefore
      · exact Disciplined.onReady r h
      · exact ih hbefore
  | onSpoiled r h ih =>
      intro before hbefore
      rcases List.prefix_concat_iff.mp hbefore with rfl | hbefore
      · exact Disciplined.onSpoiled r h
      · exact ih hbefore
  | onUsed h hready ih =>
      intro before hbefore
      rcases List.prefix_concat_iff.mp hbefore with rfl | hbefore
      · exact Disciplined.onUsed h hready
      · exact ih hbefore
  | onClosed h hopen ih =>
      intro before hbefore
      rcases List.prefix_concat_iff.mp hbefore with rfl | hbefore
      · exact Disciplined.onClosed h hopen
      · exact ih hbefore

/-- A closed resource was opened. -/
theorem exists_opened_of_closed (h : Disciplined trace) {r : ρ} :
    closed r ∈ trace → ∃ k, opened r k ∈ trace := by
  induction h with
  | nil => simp
  | onOpened h hfresh hfree ih =>
      intro hr
      obtain ⟨k, hk⟩ := ih (by simpa using hr)
      exact ⟨k, List.mem_append_left _ hk⟩
  | onReady r h ih =>
      intro hr
      obtain ⟨k, hk⟩ := ih (by simpa using hr)
      exact ⟨k, List.mem_append_left _ hk⟩
  | onSpoiled r h ih =>
      intro hr
      obtain ⟨k, hk⟩ := ih (by simpa using hr)
      exact ⟨k, List.mem_append_left _ hk⟩
  | onUsed h hready ih =>
      intro hr
      obtain ⟨k, hk⟩ := ih (by simpa using hr)
      exact ⟨k, List.mem_append_left _ hk⟩
  | onClosed h hopen ih =>
      intro hr
      rcases List.mem_append.mp hr with hr | hr
      · obtain ⟨k, hk⟩ := ih hr
        exact ⟨k, List.mem_append_left _ hk⟩
      · rw [List.mem_singleton, LifeEvent.closed.injEq] at hr
        subst hr
        exact ⟨_, List.mem_append_left _ hopen.1⟩

theorem eq_of_openFor (h : Disciplined trace) {r r' : ρ} {k : κ} :
    OpenFor trace r k → OpenFor trace r' k → r = r' := by
  induction h with
  | nil => simp [OpenFor]
  | onOpened h hfresh hfree ih =>
      rw [openFor_concat_opened, openFor_concat_opened]
      rintro (hr | ⟨rfl, rfl, -⟩) (hr' | ⟨rfl, hk, -⟩)
      · exact ih hr hr'
      · subst hk
        exact absurd hr (hfree _)
      · exact absurd hr' (hfree _)
      · rfl
  | onReady r h ih => simpa using ih
  | onSpoiled r h ih => simpa using ih
  | onUsed h hready ih => simpa using ih
  | onClosed h hopen ih =>
      rw [openFor_concat_closed, openFor_concat_closed]
      exact fun hr hr' => ih hr.1 hr'.1

/-- A resource is opened for one key. -/
theorem key_unique (h : Disciplined trace) {r : ρ} {k k' : κ} :
    opened r k ∈ trace → opened r k' ∈ trace → k = k' := by
  induction h with
  | nil => simp
  | onOpened h hfresh hfree ih =>
      simp only [List.mem_append, List.mem_singleton, LifeEvent.opened.injEq]
      rintro (hk | ⟨rfl, rfl⟩) (hk' | ⟨hr, rfl⟩)
      · exact ih hk hk'
      · subst hr
        exact absurd hk (hfresh _)
      · exact absurd hk' (hfresh _)
      · rfl
  | onReady r h ih => simpa using ih
  | onSpoiled r h ih => simpa using ih
  | onUsed h hready ih => simpa using ih
  | onClosed h hopen ih => simpa using ih

theorem count_closed_le_one [DecidableEq ρ] [DecidableEq κ] (h : Disciplined trace) (r : ρ) :
    trace.count (closed r) ≤ 1 := by
  induction h with
  | nil => simp
  | onOpened h hfresh hfree ih => simpa [List.count_append] using ih
  | onReady r h ih => simpa [List.count_append] using ih
  | onSpoiled r h ih => simpa [List.count_append] using ih
  | onUsed h hready ih => simpa [List.count_append] using ih
  | @onClosed trace r' k h hopen ih =>
      by_cases hr : r' = r
      · subst hr
        rw [List.count_append, List.count_eq_zero.mpr hopen.2]
        simp
      · simpa [List.count_append, hr] using ih

/-- A resource is used only when it is ready. -/
theorem isReady_of_used (h : Disciplined trace) {r : ρ} {before after : List (LifeEvent ρ κ)}
    (htrace : trace = before ++ used r :: after) : IsReady before r := by
  have hprefix : Disciplined (before ++ [used r]) :=
    h.of_prefix ⟨after, by rw [htrace, List.append_assoc]; rfl⟩
  generalize hlast : before ++ [used r] = trace' at hprefix
  cases hprefix with
  | nil => simp at hlast
  | onOpened h _ _ => simp [List.append_singleton_inj] at hlast
  | onReady r h => simp [List.append_singleton_inj] at hlast
  | onSpoiled r h => simp [List.append_singleton_inj] at hlast
  | onClosed h _ => simp [List.append_singleton_inj] at hlast
  | onUsed h hready =>
      obtain ⟨rfl, hr⟩ := List.append_singleton_inj.mp hlast
      rw [LifeEvent.used.injEq] at hr
      exact hr ▸ hready

end Disciplined
end LifeEvent
end Foundation
