import Mathlib.Order.Lattice
import Mathlib.Tactic

/-!
# A decision that is taken once

What can be seen grows.  From time to time somebody looks: the look may fail, and
what is seen may not be enough to decide.  The first decision is kept and is the
answer to every later look.

**Results.**
* `memo_run`: what is kept is the decision on what the first conclusive look saw.
* `memo_run_right_iff`: when it is the decision on everything that is seen in the end.
-/

namespace Foundation
namespace Memo

universe u v

section Memo

variable {α : Type u} {β : Type v}

inductive Event (α : Type u) where
  | grow (more : α)
  | look (sees : Bool)

structure State (α : Type u) (β : Type v) where
  seen : α
  memo : Option β

/-- What is kept after a look. -/
def consult (decide : α → Option β) (memo : Option β) (look : Option α) : Option β :=
  memo.or (look.bind decide)

variable [SemilatticeSup α] (decide : α → Option β)

def step (s : State α β) : Event α → State α β
  | .grow more => { s with seen := s.seen ⊔ more }
  | .look sees => { s with memo := consult decide s.memo (if sees then some s.seen else none) }

def run (s : State α β) (events : List (Event α)) : State α β := events.foldl (step decide) s

/-- What the first look saw that was enough to decide. -/
def firstConclusive (seen : α) : List (Event α) → Option α
  | [] => none
  | .grow more :: events => firstConclusive (seen ⊔ more) events
  | .look sees :: events =>
      if sees ∧ (decide seen).isSome then some seen else firstConclusive seen events

variable {decide}

@[simp] theorem run_nil (s : State α β) : run decide s [] = s := rfl

@[simp] theorem run_cons (s : State α β) (event : Event α) (events : List (Event α)) :
    run decide s (event :: events) = run decide (step decide s event) events := rfl

theorem run_append (s : State α β) (events events' : List (Event α)) :
    run decide s (events ++ events') = run decide (run decide s events) events' :=
  List.foldl_append

theorem seen_le_seen_run (s : State α β) (events : List (Event α)) :
    s.seen ≤ (run decide s events).seen := by
  induction events generalizing s with
  | nil => exact le_refl _
  | cons event events ih =>
      cases event with
      | grow more => exact le_sup_left.trans (ih (step decide s (.grow more)))
      | look sees => exact ih (step decide s (.look sees))

theorem firstConclusive_le {s : State α β} {events : List (Event α)} {a : α}
    (h : firstConclusive decide s.seen events = some a) : a ≤ (run decide s events).seen := by
  induction events generalizing s with
  | nil => simp [firstConclusive] at h
  | cons event events ih =>
      cases event with
      | grow more => exact ih (s := step decide s (.grow more)) h
      | look sees =>
          rw [firstConclusive] at h
          split at h
          · cases h
            exact seen_le_seen_run s (.look sees :: events)
          · exact ih (s := step decide s (.look sees)) h

theorem decide_of_firstConclusive {seen a : α} {events : List (Event α)}
    (h : firstConclusive decide seen events = some a) : (decide a).isSome := by
  induction events generalizing seen with
  | nil => simp [firstConclusive] at h
  | cons event events ih =>
      cases event with
      | grow more => exact ih h
      | look sees =>
          rw [firstConclusive] at h
          split at h
          next hlook =>
            cases h
            exact hlook.2
          next => exact ih h

/-- What is kept stays. -/
theorem memo_run_of_some {s : State α β} {b : β} (hs : s.memo = some b)
    (events : List (Event α)) : (run decide s events).memo = some b := by
  induction events generalizing s with
  | nil => exact hs
  | cons event events ih =>
      cases event with
      | grow more => exact ih hs
      | look sees => exact ih (by simp [step, consult, hs])

/-- What is kept is the decision on what the first conclusive look saw. -/
theorem memo_run {s : State α β} (hs : s.memo = none) (events : List (Event α)) :
    (run decide s events).memo = (firstConclusive decide s.seen events).bind decide := by
  induction events generalizing s with
  | nil => simp [firstConclusive, hs]
  | cons event events ih =>
      cases event with
      | grow more => exact ih (s := step decide s (.grow more)) hs
      | look sees =>
          rw [firstConclusive, run_cons]
          split
          next hlook =>
            obtain ⟨b, hb⟩ := Option.isSome_iff_exists.mp hlook.2
            have hstep : (step decide s (.look sees)).memo = some b := by
              simp [step, consult, hs, hlook.1, hb]
            rw [memo_run_of_some hstep, Option.bind_some, hb]
          next hlook =>
            refine ih (s := step decide s (.look sees)) ?_
            cases sees with
            | false => simp [step, consult, hs]
            | true => simpa [step, consult, hs] using hlook

variable (decide) in
/-- The decision that is kept is the one on everything that is seen in the end. -/
theorem memo_run_right_iff {s : State α β} (hs : s.memo = none) (events : List (Event α)) :
    (∀ b, (run decide s events).memo = some b → decide (run decide s events).seen = some b) ↔
      ∀ a, firstConclusive decide s.seen events = some a →
        decide (run decide s events).seen = decide a := by
  rw [memo_run hs]
  constructor
  · intro h a ha
    obtain ⟨b, hb⟩ := Option.isSome_iff_exists.mp (decide_of_firstConclusive ha)
    rw [h b (by rw [ha, Option.bind_some, hb]), hb]
  · intro h b hb
    obtain ⟨a, ha, hab⟩ := Option.bind_eq_some_iff.mp hb
    rw [h a ha, hab]

end Memo

end Memo
end Foundation
