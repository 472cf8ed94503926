import Mathlib.Data.List.Basic

/-!
# Waiting for an event

A callback with a state reads events one by one until it accepts one.

**Results.**
* `waitFor_inv`: what every reading keeps holds of the events read when the wait ends.
* `exists_accepted`: a wait that succeeds ends with an accepted event.
* `waitFor_fst`: a wait whose callback looks at the event only succeeds if and
  only if some event is accepted.
-/

namespace Foundation

universe u v

section Wait

variable {σ : Type u} {α : Type v} (accept : σ → α → Bool × σ)

/-- Whether an event was accepted, and the state at the end. -/
def waitFor (s : σ) : List α → Bool × σ
  | [] => (false, s)
  | a :: as =>
      if (accept s a).1 then (true, (accept s a).2)
      else waitFor (accept s a).2 as

/-- The events that were read. -/
def eventsRead (s : σ) : List α → List α
  | [] => []
  | a :: as => if (accept s a).1 then [a] else a :: eventsRead (accept s a).2 as

variable {accept}

theorem prefix_eventsRead :
    ∀ (as : List α) (s : σ), eventsRead accept s as <+: as
  | [], _ => List.nil_prefix
  | a :: as, s => by
      unfold eventsRead
      split_ifs
      · exact List.prefix_append [a] as
      · exact List.cons_prefix_cons.mpr ⟨rfl, prefix_eventsRead as _⟩

/-- **The invariant rule.** -/
theorem waitFor_inv {Inv : List α → σ → Prop}
    (hstep : ∀ done s a, Inv done s → Inv (done ++ [a]) (accept s a).2) :
    ∀ (as done : List α) (s : σ), Inv done s →
      Inv (done ++ eventsRead accept s as) (waitFor accept s as).2
  | [], done, s, h => by simpa [eventsRead, waitFor] using h
  | a :: as, done, s, h => by
      have hnext := hstep done s a h
      unfold eventsRead waitFor
      split_ifs
      · exact hnext
      · have hrest := waitFor_inv hstep as (done ++ [a]) _ hnext
        rwa [List.append_assoc, List.singleton_append] at hrest

/-- A wait that succeeds ends with an accepted event, read in a state of the wait. -/
theorem exists_accepted {P : σ → Prop} (hstep : ∀ s a, P s → P (accept s a).2) :
    ∀ {as : List α} {s : σ}, P s → (waitFor accept s as).1 = true →
      ∃ a ∈ as, ∃ t, P t ∧ (accept t a).1 = true ∧ (accept t a).2 = (waitFor accept s as).2
  | [], s, _, h => by simp [waitFor] at h
  | a :: as, s, hs, h => by
      unfold waitFor at h ⊢
      split_ifs at h ⊢ with haccept
      · exact ⟨a, List.mem_cons_self, s, hs, haccept, rfl⟩
      · obtain ⟨b, hb, ht⟩ := exists_accepted hstep (hstep s a hs) h
        exact ⟨b, List.mem_cons_of_mem _ hb, ht⟩

/-- While nothing is accepted, what every refusal keeps stays. -/
theorem waitFor_refused {P : σ → Prop}
    (hstep : ∀ s a, P s → (accept s a).1 = false → P (accept s a).2) :
    ∀ {as : List α} {s : σ}, P s → (waitFor accept s as).1 = false →
      P (waitFor accept s as).2
  | [], _, hs, _ => hs
  | a :: as, s, hs, h => by
      unfold waitFor at h ⊢
      split_ifs at h ⊢ with haccept
      · exact waitFor_refused hstep (hstep s a hs (by simpa using haccept)) h

theorem waitFor_fst {p : α → Bool} (hp : ∀ s a, (accept s a).1 = p a) :
    ∀ (as : List α) (s : σ), (waitFor accept s as).1 = as.any p
  | [], _ => rfl
  | a :: as, s => by
      unfold waitFor
      rw [List.any_cons, ← hp s a]
      split_ifs with haccept
      · simp [haccept]
      · simp [haccept, waitFor_fst hp as]

end Wait

end Foundation
