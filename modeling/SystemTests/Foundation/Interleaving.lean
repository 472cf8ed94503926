import Mathlib.Tactic

/-!
# Interleaved activities

Several activities write events into one trace, each event is of one activity.  What an
activity does is its own part of the trace; the order of this part is the order in the
trace.

**Results.**
* `eventsOf_append_own`, `eventsOf_append_other`: the parts after a step of one activity.
* `exists_split`: an event of a part stands in the trace, with the rest of the part around.
* `eq_of_nodup_filterMap`: an event is known by what it alone has.
-/

namespace Foundation

universe u v w

section Interleaving

variable {ι : Type u} {ε : Type v} [DecidableEq ι] (owner : ε → ι)

/-- The part of an activity. -/
def eventsOf (i : ι) (trace : List ε) : List ε := trace.filter fun e => owner e = i

variable {owner} {i j : ι} {trace events : List ε}

@[simp] theorem eventsOf_nil : eventsOf owner i [] = [] := rfl

theorem eventsOf_append (trace' : List ε) :
    eventsOf owner i (trace ++ trace') = eventsOf owner i trace ++ eventsOf owner i trace' :=
  List.filter_append ..

theorem mem_eventsOf {e : ε} : e ∈ eventsOf owner i trace ↔ e ∈ trace ∧ owner e = i := by
  rw [eventsOf, List.mem_filter, decide_eq_true_iff]

theorem eventsOf_append_own (h : ∀ e ∈ events, owner e = i) :
    eventsOf owner i (trace ++ events) = eventsOf owner i trace ++ events := by
  rw [eventsOf_append]
  congr 1
  exact List.filter_eq_self.mpr fun e he => decide_eq_true (h e he)

theorem eventsOf_append_other (h : ∀ e ∈ events, owner e = i) (hne : j ≠ i) :
    eventsOf owner j (trace ++ events) = eventsOf owner j trace := by
  have hnone : eventsOf owner j events = [] :=
    List.filter_eq_nil_iff.mpr fun e he => by simpa [h e he] using hne.symm
  rw [eventsOf_append, hnone, List.append_nil]

/-- An event of a part, with what the activity did before and after it. -/
theorem exists_split {e : ε} {before after : List ε}
    (h : eventsOf owner i trace = before ++ e :: after) :
    ∃ front back, trace = front ++ e :: back ∧ eventsOf owner i front = before ∧
      eventsOf owner i back = after := by
  obtain ⟨front, rest, rfl, hfront, hrest⟩ := List.filter_eq_append_iff.mp h
  obtain ⟨others, back, rfl, hothers, -, hback⟩ := List.filter_eq_cons_iff.mp hrest
  refine ⟨front ++ others, back, (List.append_assoc ..).symm, ?_, hback⟩
  have hnone : others.filter (fun e => decide (owner e = i)) = [] :=
    List.filter_eq_nil_iff.mpr hothers
  rw [eventsOf, List.filter_append, hnone, List.append_nil]
  exact hfront

/-- Two events of a part stand in the trace in their order. -/
theorem exists_split_two {a b : ε} {before between after : List ε}
    (h : eventsOf owner i trace = before ++ a :: (between ++ b :: after)) :
    ∃ front middle back, trace = front ++ a :: (middle ++ b :: back) ∧
      eventsOf owner i front = before ∧ eventsOf owner i middle = between ∧
      eventsOf owner i back = after := by
  obtain ⟨front, rest, rfl, hfront, hrest⟩ := exists_split h
  obtain ⟨middle, back, rfl, hmiddle, hback⟩ := exists_split hrest
  exact ⟨front, middle, back, rfl, hfront, hmiddle, hback⟩

/-- Where no value is found twice, two events with one value are the same. -/
theorem eq_of_nodup_filterMap {β : Type w} {f : ε → Option β} {a b : ε} {x : β}
    (h : (trace.filterMap f).Nodup) (ha : a ∈ trace) (hb : b ∈ trace) (hfa : f a = some x)
    (hfb : f b = some x) : a = b := by
  induction trace with
  | nil => cases ha
  | cons e trace ih =>
      rcases List.mem_cons.mp ha with rfl | ha' <;> rcases List.mem_cons.mp hb with rfl | hb'
      · rfl
      · rw [List.filterMap_cons_some hfa, List.nodup_cons] at h
        exact absurd (List.mem_filterMap.mpr ⟨b, hb', hfb⟩) h.1
      · rw [List.filterMap_cons_some hfb, List.nodup_cons] at h
        exact absurd (List.mem_filterMap.mpr ⟨a, ha', hfa⟩) h.1
      · refine ih ?_ ha' hb'
        cases hfe : f e with
        | none => rwa [List.filterMap_cons_none hfe] at h
        | some y =>
            rw [List.filterMap_cons_some hfe] at h
            exact (List.nodup_cons.mp h).2

end Interleaving

end Foundation
