import SystemTests.Foundation.Text

/-!
# Activation statuses of test paths (`activate_easy_wins/_internal/test_artifact.py`)

The outcome of a test updates the status of the path of the test and of every
path above it.  A status forbids the activation of its path (`XFAIL`), leaves
the decision to the paths below (`NONE`) or allows it (`XPASS`, `PASS`).

**Results.**
* `run_eq_verdictOf`: unless the updates of a path conflict, its verdict depends
  only on which updates there were.
* `run_last_good`, `run_last_leafXfail`, `run_first_leafXpass`, `run_blocked`:
  how the order of conflicting updates decides.
-/

namespace SystemTests
namespace EasyWins

open Foundation Foundation.Text

inductive ActivationStatus where
  | xpass
  | xfail
  | pass
  | none
deriving DecidableEq

inductive Outcome where
  | xpassed
  | xfailed
  | skipped
  | passed
  | other (text : Str)
deriving DecidableEq

section Status

/-- The status that a path is assigned by an outcome, if any; `isLeaf` says whether the
path is the one of the test. -/
def assignedStatus (outcome : Outcome) (isLeaf : Bool) (previous : Option ActivationStatus) :
    Option ActivationStatus :=
  match outcome with
  | .xpassed =>
      if isLeaf && previous.isSome then Option.none
      else if previous = some .xfail || previous = some .none then some .none
      else some .xpass
  | .xfailed | .skipped =>
      if isLeaf then some .xfail
      else if previous = some .xpass || previous = some .pass || previous = some .none then
        some .none
      else some .xfail
  | .passed =>
      if previous = some .xfail || previous = some .none then some .none else some .pass
  | .other _ => Option.none

def nextStatus (outcome : Outcome) (isLeaf : Bool) (previous : Option ActivationStatus) :
    Option ActivationStatus :=
  (assignedStatus outcome isLeaf previous).or previous

end Status

/-- What a status says about the activation of its path. -/
inductive Verdict where
  | active
  | blocked
  | mixed
deriving DecidableEq

def ActivationStatus.verdict : ActivationStatus → Verdict
  | xpass => .active
  | pass => .active
  | xfail => .blocked
  | none => .mixed

/-- The kinds of updates that act differently on verdicts. -/
inductive Update where
  | leafXpass
  | good
  | leafXfail
  | fail
  | ignored
deriving DecidableEq

def Update.ofOutcome (outcome : Outcome) (isLeaf : Bool) : Update :=
  match outcome with
  | .xpassed => if isLeaf then leafXpass else good
  | .xfailed | .skipped => if isLeaf then leafXfail else fail
  | .passed => good
  | .other _ => ignored

def Update.next : Update → Option Verdict → Option Verdict
  | leafXpass, none => some .active
  | leafXpass, v => v
  | good, none => some .active
  | good, some .active => some .active
  | good, _ => some .mixed
  | leafXfail, _ => some .blocked
  | fail, none => some .blocked
  | fail, some .blocked => some .blocked
  | fail, _ => some .mixed
  | ignored, v => v

/-- The verdicts follow the statuses. -/
theorem verdict_nextStatus (outcome : Outcome) (isLeaf : Bool)
    (previous : Option ActivationStatus) :
    (nextStatus outcome isLeaf previous).map ActivationStatus.verdict =
      (Update.ofOutcome outcome isLeaf).next (previous.map ActivationStatus.verdict) := by
  cases outcome with
  | other text => rfl
  | _ =>
      cases isLeaf with
      | _ =>
          cases previous with
          | none => rfl
          | some s => cases s <;> rfl

section Run

/-- The verdict after some updates of a path. -/
def run (updates : List Update) (v : Option Verdict) : Option Verdict :=
  updates.foldl (fun v u => u.next v) v

variable {updates : List Update} {v : Option Verdict}

@[simp] theorem run_nil : run [] v = v := rfl

@[simp] theorem run_cons (u : Update) (updates : List Update) (v : Option Verdict) :
    run (u :: updates) v = run updates (u.next v) := rfl

@[simp] theorem run_append (updates updates' : List Update) (v : Option Verdict) :
    run (updates ++ updates') v = run updates' (run updates v) :=
  List.foldl_append

def IsBad (v : Option Verdict) : Prop := v = some .blocked ∨ v = some .mixed

theorem isBad_next {u : Update} (h : IsBad v) : IsBad (u.next v) := by
  unfold IsBad at h ⊢
  rcases h with rfl | rfl
  · cases u <;> decide
  · cases u <;> decide

theorem isBad_run (h : IsBad v) : IsBad (run updates v) := by
  induction updates generalizing v with
  | nil => exact h
  | cons u updates ih => exact ih (isBad_next h)

theorem isBad_of_leafXfail (h : .leafXfail ∈ updates) : IsBad (run updates v) := by
  obtain ⟨before, behind, rfl⟩ := List.append_of_mem h
  rw [run_append, run_cons]
  exact isBad_run (Or.inl rfl)

theorem isBad_of_fail (h : .fail ∈ updates) : IsBad (run updates v) := by
  obtain ⟨before, behind, rfl⟩ := List.append_of_mem h
  rw [run_append, run_cons]
  refine isBad_run ?_
  unfold IsBad
  cases run before v with
  | none => decide
  | some w => cases w <;> decide

/-- Nothing leaves `mixed` but the failure of the test of the path itself. -/
theorem run_mixed (hleaf : .leafXfail ∉ updates) : run updates (some .mixed) = some .mixed := by
  induction updates with
  | nil => rfl
  | cons u updates ih =>
      simp only [List.mem_cons, not_or] at hleaf
      have hnext : u.next (some .mixed) = some .mixed := by
        cases u with
        | leafXfail => exact absurd rfl hleaf.1
        | _ => rfl
      rw [run_cons, hnext]
      exact ih hleaf.2

/-- Only a good update leaves `blocked`. -/
theorem run_blocked (hgood : .good ∉ updates) :
    run updates (some .blocked) = some .blocked := by
  induction updates with
  | nil => rfl
  | cons u updates ih =>
      simp only [List.mem_cons, not_or] at hgood
      have hnext : u.next (some .blocked) = some .blocked := by
        cases u with
        | good => exact absurd rfl hgood.1
        | _ => rfl
      rw [run_cons, hnext]
      exact ih hgood.2

/-- Only failures leave `active`. -/
theorem run_active (hleaf : .leafXfail ∉ updates) (hfail : .fail ∉ updates) :
    run updates (some .active) = some .active := by
  induction updates with
  | nil => rfl
  | cons u updates ih =>
      simp only [List.mem_cons, not_or] at hleaf hfail
      have hnext : u.next (some .active) = some .active := by
        cases u with
        | leafXfail => exact absurd rfl hleaf.1
        | fail => exact absurd rfl hfail.1
        | _ => rfl
      rw [run_cons, hnext]
      exact ih hleaf.2 hfail.2

/-- Behind a failure of another path a good update, once met, decides. -/
theorem run_last_good (hv : IsBad v) (hleaf : .leafXfail ∉ updates) (hgood : .good ∈ updates) :
    run updates v = some .mixed := by
  obtain ⟨before, behind, rfl⟩ := List.append_of_mem hgood
  have hbehind : .leafXfail ∉ behind := fun hmem => hleaf (by simp [hmem])
  rw [run_append, run_cons]
  have hnext : Update.good.next (run before v) = some .mixed := by
    have hbad : IsBad (run before v) := isBad_run hv
    rcases hbad with hb | hm
    · rw [hb]
      rfl
    · rw [hm]
      rfl
  rw [hnext]
  exact run_mixed hbehind

theorem run_last_leafXfail (hgood : .good ∉ updates) (hleaf : .leafXfail ∈ updates) :
    run updates v = some .blocked := by
  obtain ⟨before, behind, rfl⟩ := List.append_of_mem hleaf
  have hbehind : .good ∉ behind := fun hmem => hgood (by simp [hmem])
  rw [run_append, run_cons]
  exact run_blocked hbehind

theorem run_first_leafXpass (hleaf : .leafXfail ∉ updates) (hfail : .fail ∈ updates) :
    run updates (some .active) = some .mixed := by
  obtain ⟨before, behind, rfl, hbefore⟩ := List.eq_append_cons_of_mem hfail
  have hactive : run before (some .active) = some .active :=
    run_active (fun hmem => hleaf (by simp [hmem])) hbefore
  rw [run_append, hactive, run_cons]
  exact run_mixed fun hmem => hleaf (by simp [hmem])

/-- A failure of the test of a path against a good update, or its unexpected success
against failures below it, without anything else that decides. -/
def Conflict (updates : List Update) : Prop :=
  (.leafXfail ∈ updates ∧ .good ∈ updates) ∨
    (.leafXpass ∈ updates ∧ .fail ∈ updates ∧ .good ∉ updates ∧ .leafXfail ∉ updates)

def verdictOf (updates : List Update) : Option Verdict :=
  if .leafXfail ∈ updates then some .blocked
  else if .fail ∈ updates then
    if .good ∈ updates then some .mixed else some .blocked
  else if .good ∈ updates ∨ .leafXpass ∈ updates then some .active
  else none

/-- A first failure, before any good update or success. -/
theorem run_fail_only (hgood : .good ∉ updates) (hleafXpass : .leafXpass ∉ updates)
    (hfail : .fail ∈ updates) : run updates none = some .blocked := by
  obtain ⟨before, behind, rfl⟩ := List.append_of_mem hfail
  simp only [List.mem_append, List.mem_cons, not_or] at hgood hleafXpass
  have hbefore : ∀ (l : List Update) (v : Option Verdict), .good ∉ l → .leafXpass ∉ l →
      (v = none ∨ v = some .blocked) → (run l v = none ∨ run l v = some .blocked) := by
    intro l
    induction l with
    | nil =>
        intro v _ _ hv
        exact hv
    | cons u l ih =>
        intro v hg hx hv
        simp only [List.mem_cons, not_or] at hg hx
        refine ih _ hg.2 hx.2 ?_
        cases u with
        | good => exact absurd rfl hg.1
        | leafXpass => exact absurd rfl hx.1
        | leafXfail => exact Or.inr rfl
        | ignored => exact hv
        | fail =>
            rcases hv with rfl | rfl
            · exact Or.inr rfl
            · exact Or.inr rfl
  have hnext : Update.fail.next (run before none) = some .blocked := by
    rcases hbefore before none hgood.1 hleafXpass.1 (Or.inl rfl) with hn | hb
    · rw [hn]
      rfl
    · rw [hb]
      rfl
  rw [run_append, run_cons, hnext]
  exact run_blocked hgood.2.2

/-- Without failures everything that is not ignored allows the activation. -/
theorem run_no_failure (hleaf : .leafXfail ∉ updates) (hfail : .fail ∉ updates) :
    run updates none =
      if .good ∈ updates ∨ .leafXpass ∈ updates then some .active else none := by
  induction updates with
  | nil => rfl
  | cons u updates ih =>
      simp only [List.mem_cons, not_or] at hleaf hfail
      cases u with
      | leafXfail => exact absurd rfl hleaf.1
      | fail => exact absurd rfl hfail.1
      | good => simpa [Update.next] using run_active hleaf.2 hfail.2
      | leafXpass => simpa [Update.next] using run_active hleaf.2 hfail.2
      | ignored => simpa [Update.next] using ih hleaf.2 hfail.2

/-- **Without conflict the verdict depends on which updates there were.** -/
theorem run_eq_verdictOf (h : ¬ Conflict updates) : run updates none = verdictOf updates := by
  unfold Conflict at h
  unfold verdictOf
  split_ifs with hleaf hfail hgood hany
  · exact run_last_leafXfail (fun hgood => h (Or.inl ⟨hleaf, hgood⟩)) hleaf
  · obtain ⟨before, behind, rfl⟩ := List.append_of_mem hgood
    have hsplit : .fail ∈ before ∨ .fail ∈ behind := by simpa using hfail
    have hbehind : .leafXfail ∉ behind := fun hmem => hleaf (by simp [hmem])
    rcases hsplit with hbefore | hafter
    · exact run_append _ _ _ ▸ run_last_good (isBad_of_fail hbefore)
        (fun hmem => hleaf (by simpa using Or.inr hmem)) (by simp)
    · -- the good update is first: what follows ends mixed, whatever came before
      rw [run_append, run_cons]
      have hnotNone : Update.good.next (run before none) = some .active ∨
          Update.good.next (run before none) = some .mixed := by
        cases run before none with
        | none => exact Or.inl rfl
        | some w => cases w <;> simp [Update.next]
      rcases hnotNone with ha | hm
      · rw [ha]
        exact run_first_leafXpass hbehind hafter
      · rw [hm]
        exact run_mixed hbehind
  · refine run_fail_only hgood (fun hx => h (Or.inr ⟨hx, hfail, hgood, hleaf⟩)) hfail
  · rw [run_no_failure hleaf hfail, if_pos hany]
  · rw [run_no_failure hleaf hfail, if_neg hany]

theorem verdictOf_congr {updates' : List Update} (h : ∀ u, u ∈ updates ↔ u ∈ updates') :
    verdictOf updates = verdictOf updates' := by
  simp only [verdictOf, h]

theorem conflict_congr {updates' : List Update} (h : ∀ u, u ∈ updates ↔ u ∈ updates') :
    Conflict updates ↔ Conflict updates' := by
  simp only [Conflict, h]

end Run

end EasyWins
end SystemTests
