import Mathlib.Tactic

/-!
# Runs of a step function

A step function says what an action does in a state, if it can happen there.
A run is a list of actions that happen one after the other.

**Results.**  `run_append`: a run is a run followed by a run.
`run_invariant`: what every allowed step keeps, a run of allowed steps keeps.
`run_length_le`, `exists_run_to_end`: where every step uses up some of a measure,
no run is longer than the measure, and a run can be continued until no action
can happen.
-/

namespace Foundation

universe u v

section Run

variable {σ : Type u} {α : Type v} (step : σ → α → Option σ)

def run : σ → List α → Option σ
  | s, [] => some s
  | s, a :: as => (step s a).bind fun s' => run s' as

/-- Every action of the run is allowed in the state that it happens in. -/
def Along (allowed : σ → α → Prop) : σ → List α → Prop
  | _, [] => True
  | s, a :: as => allowed s a ∧ ∀ s', step s a = some s' → Along allowed s' as

variable {step}

theorem run_cons_eq_some {s s' : σ} {a : α} {as : List α} :
    run step s (a :: as) = some s' ↔ ∃ t, step s a = some t ∧ run step t as = some s' :=
  Option.bind_eq_some_iff

theorem run_append {s s' : σ} {as bs : List α} :
    run step s (as ++ bs) = some s' ↔ ∃ t, run step s as = some t ∧ run step t bs = some s' := by
  induction as generalizing s with
  | nil => simp [run]
  | cons a as ih =>
      simp only [List.cons_append, run_cons_eq_some, ih]
      constructor
      · rintro ⟨t, ht, u, hu, hs'⟩
        exact ⟨u, ⟨t, ht, hu⟩, hs'⟩
      · rintro ⟨u, ⟨t, ht, hu⟩, hs'⟩
        exact ⟨t, ht, u, hu, hs'⟩

/-- What every allowed step keeps, a run of allowed steps keeps. -/
theorem run_invariant {allowed : σ → α → Prop} {P : σ → Prop}
    (hstep : ∀ s a s', P s → allowed s a → step s a = some s' → P s') {as : List α} :
    ∀ {s s' : σ}, P s → Along step allowed s as → run step s as = some s' → P s' := by
  induction as with
  | nil =>
      intro s s' hs _ hrun
      rw [run, Option.some.injEq] at hrun
      exact hrun ▸ hs
  | cons a as ih =>
      intro s s' hs hallowed hrun
      obtain ⟨t, ht, hrun⟩ := run_cons_eq_some.mp hrun
      exact ih (hstep s a t hs hallowed.1 ht) (hallowed.2 t ht) hrun

/-- Actions that are allowed in every state. -/
theorem along_of_forall {allowed : α → Prop} {as : List α} (h : ∀ a ∈ as, allowed a) :
    ∀ s : σ, Along step (fun _ a => allowed a) s as := by
  induction as with
  | nil => exact fun _ => trivial
  | cons a as ih =>
      intro s
      rw [List.forall_mem_cons] at h
      exact ⟨h.1, fun s' _ => ih h.2 s'⟩

theorem along_cons {allowed : σ → α → Prop} {s t : σ} {a : α} {as : List α}
    (h : step s a = some t) (ha : allowed s a) (has : Along step allowed t as) :
    Along step allowed s (a :: as) :=
  ⟨ha, fun _ hs' => Option.some.inj (h.symm.trans hs') ▸ has⟩

theorem along_append {allowed : σ → α → Prop} {s s' : σ} {as bs : List α}
    (h : run step s as = some s') :
    Along step allowed s (as ++ bs) ↔ Along step allowed s as ∧ Along step allowed s' bs := by
  induction as generalizing s with
  | nil =>
      rw [run, Option.some.injEq] at h
      subst h
      simp [Along]
  | cons a as ih =>
      obtain ⟨t, ht, hrun⟩ := run_cons_eq_some.mp h
      simp only [List.cons_append, Along, ht, Option.some.injEq, forall_eq', ih hrun, and_assoc]

theorem along_iff {allowed : σ → α → Prop} {as : List α} {s : σ} :
    Along step allowed s as ↔
      ∀ before a after t, as = before ++ a :: after → run step s before = some t → allowed t a := by
  induction as generalizing s with
  | nil => simp [Along]
  | cons b bs ih =>
      constructor
      · rintro ⟨hb, hrest⟩ before a after t heq hrun
        cases before with
        | nil =>
            obtain ⟨rfl, -⟩ := List.cons.inj heq
            rw [run, Option.some.injEq] at hrun
            exact hrun ▸ hb
        | cons c before =>
            rw [List.cons_append, List.cons.injEq] at heq
            obtain ⟨rfl, hbs⟩ := heq
            obtain ⟨u, hu, hrun⟩ := run_cons_eq_some.mp hrun
            exact ih.mp (hrest u hu) before a after t hbs hrun
      · intro h
        refine ⟨h [] b bs s rfl rfl, fun u hu => ih.mpr ?_⟩
        intro before a after t heq hrun
        exact h (b :: before) a after t (by rw [heq, List.cons_append])
          (run_cons_eq_some.mpr ⟨u, hu, hrun⟩)

/-- What every step keeps, a run keeps. -/
theorem run_keeps {P : σ → Prop} (hstep : ∀ s a s', P s → step s a = some s' → P s')
    {as : List α} {s s' : σ} (hs : P s) (hrun : run step s as = some s') : P s' := by
  have hallowed : Along step (fun _ _ => True) s as := along_of_forall (fun _ _ => trivial) s
  exact run_invariant (fun s a s' hs _ => hstep s a s' hs) hs hallowed hrun

/-- No action can happen. -/
def Over (step : σ → α → Option σ) (s : σ) : Prop :=
  ∀ a, step s a = none

section Measure

variable {μ : σ → Nat} (hμ : ∀ s a s', step s a = some s' → μ s' < μ s)
include hμ

theorem run_length_le {as : List α} :
    ∀ {s s' : σ}, run step s as = some s' → as.length + μ s' ≤ μ s := by
  induction as with
  | nil =>
      intro s s' hrun
      rw [run, Option.some.injEq] at hrun
      rw [hrun, List.length_nil, Nat.zero_add]
  | cons a as ih =>
      intro s s' hrun
      obtain ⟨t, ht, hrun⟩ := run_cons_eq_some.mp hrun
      have hstep := hμ s a t ht
      have hrest := ih hrun
      rw [List.length_cons]
      omega

theorem exists_run_to_end (s : σ) : ∃ as s', run step s as = some s' ∧ Over step s' := by
  induction h : μ s using Nat.strong_induction_on generalizing s with
  | _ n ih =>
      by_cases hover : Over step s
      · exact ⟨[], s, rfl, hover⟩
      · obtain ⟨a, ha⟩ := not_forall.mp hover
        obtain ⟨t, ht⟩ := Option.ne_none_iff_exists'.mp ha
        obtain ⟨as, s', hrun, hend⟩ := ih (μ t) (h ▸ hμ s a t ht) t rfl
        exact ⟨a :: as, s', run_cons_eq_some.mpr ⟨t, ht, hrun⟩, hend⟩

end Measure

end Run

end Foundation
