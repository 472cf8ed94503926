import Mathlib.Algebra.BigOperators.Group.Finset.Basic
import Mathlib.Algebra.Order.BigOperators.Group.Finset
import SystemTests.Containers.Startup

/-!
# How a start of containers ends (`utils/_context/containers.py`)

Without cycles, no run of the threads is endless, and no thread waits forever:
one that waits, waits for a dependency.  Which containers are started does not
depend on the order in which the threads run.

The main thread exits the session if a container that was started is not
healthy.  It does not ask whether all of them were started, and the health of
an old container that is restarted stays unknown.

**Results.**
* `step_remaining_lt`: every step uses up some of what remains.
* `ended_of_over`, `main_of_over`: where nothing can happen, every thread ended.
* `outcome_cases`: how one `start` may end.
* `startContainers_iff`: when every listed container is started.
-/

namespace SystemTests
namespace Containers

open Foundation Foundation.Text

universe u

section Startup

variable {α : Type u} [DecidableEq α]

section Termination

variable [Fintype α] (containers : α → TestedContainer α) (listed : List α)

/-- The steps that a thread may take from a place, where its container has `n` dependencies. -/
def weight (n : Nat) : Phase α → Nat
  | .notCreated => 3 * n + 6
  | .spawning todo => todo.length + 2 * n + 5
  | .joining todo => todo.length + n + 4
  | .checking todo => todo.length + 3
  | .starting => 1
  | .skipped => 0
  | .started => 0

def mainWeight (n : Nat) : MainPhase α → Nat
  | .spawning todo => todo.length + 2 * n + 3
  | .joining todo => todo.length + n + 2
  | .checking todo => todo.length + 1
  | .returned => 0
  | .exited _ => 0
  | .raised _ => 0

def remaining (s : State α) : Nat :=
  ∑ c, weight (containers c).dependsOn.length (s.phase c) + mainWeight listed.length s.main

variable {containers listed} {attempt : α → Attempt} {s s' : State α} {c : α}

theorem remaining_setPhase_lt (phase : Phase α)
    (h : weight (containers c).dependsOn.length phase <
      weight (containers c).dependsOn.length (s.phase c)) :
    remaining containers listed (s.setPhase c phase) < remaining containers listed s := by
  apply Nat.add_lt_add_right
  refine Finset.sum_lt_sum (fun d _ => ?_) ⟨c, Finset.mem_univ c, by simpa using h⟩
  by_cases hd : d = c
  · subst hd
    simpa using h.le
  · rw [State.setPhase_of_ne s phase hd]

theorem remaining_asyncStartRecursive_le (d : α) :
    remaining containers listed (asyncStartRecursive containers d s) ≤
      remaining containers listed s := by
  rw [asyncStartRecursive]
  by_cases h : s.phase d = .notCreated
  · rw [if_pos h]
    refine (remaining_setPhase_lt _ ?_).le
    rw [h, weight, weight]
    omega
  · rw [if_neg h]

theorem stepThread_remaining_lt (hstep : stepThread containers attempt s c = some s') :
    remaining containers listed s' < remaining containers listed s := by
  rw [stepThread] at hstep
  split at hstep
  next => simp at hstep
  next d todo hc =>
    rw [Option.some.injEq] at hstep
    subst hstep
    refine lt_of_lt_of_le (remaining_setPhase_lt _ ?_) (remaining_asyncStartRecursive_le d)
    rw [asyncStartRecursive_phase d (by simp [Created, hc]), hc, weight, weight, List.length_cons]
    omega
  next hc =>
    rw [Option.some.injEq] at hstep
    subst hstep
    refine remaining_setPhase_lt _ ?_
    rw [hc, weight, weight, List.length_nil]
    omega
  next d todo hc =>
    by_cases hd : (s.phase d).isEnded
    · rw [if_pos hd, Option.some.injEq] at hstep
      subst hstep
      refine remaining_setPhase_lt _ ?_
      rw [hc, weight, weight, List.length_cons]
      omega
    · simp [hd] at hstep
  next hc =>
    rw [Option.some.injEq] at hstep
    subst hstep
    refine remaining_setPhase_lt _ ?_
    rw [hc, weight, weight, List.length_nil]
    omega
  next d todo hc =>
    split at hstep
    · rw [Option.some.injEq] at hstep
      subst hstep
      refine remaining_setPhase_lt _ ?_
      rw [hc, weight, weight, List.length_cons]
      omega
    · rw [Option.some.injEq] at hstep
      subst hstep
      refine remaining_setPhase_lt _ ?_
      rw [hc, weight, weight]
      omega
  next hc =>
    rw [Option.some.injEq] at hstep
    subst hstep
    refine remaining_setPhase_lt .starting ?_
    rw [hc, weight, weight]
    omega
  next hc =>
    rw [Option.some.injEq] at hstep
    subst hstep
    refine remaining_setPhase_lt .started ?_
    rw [hc, weight, weight]
    omega
  next => simp at hstep
  next => simp at hstep

theorem stepMain_remaining_lt (hstep : stepMain containers listed s = some s') :
    remaining containers listed s' < remaining containers listed s := by
  rw [stepMain] at hstep
  split at hstep
  next c todo hs =>
    cases hcheck : checkCircularDependencies containers [] c with
    | error e =>
        rw [hcheck, Option.some.injEq] at hstep
        subst hstep
        simp only [remaining, State.setMain, hs, mainWeight]
        omega
    | ok u =>
        rw [hcheck, Option.some.injEq] at hstep
        subst hstep
        have hle : remaining containers listed (asyncStartRecursive containers c s) ≤
            remaining containers listed s := remaining_asyncStartRecursive_le c
        have hmain : (asyncStartRecursive containers c s).main = s.main := by
          rw [asyncStartRecursive]
          split <;> rfl
        simp only [remaining, State.setMain, hs, hmain, mainWeight, List.length_cons] at hle ⊢
        omega
  next hs =>
    rw [Option.some.injEq] at hstep
    subst hstep
    simp only [remaining, State.setMain, hs, mainWeight, List.length_nil]
    omega
  next c todo hs =>
    by_cases hc : (s.phase c).isEnded
    · rw [if_pos hc, Option.some.injEq] at hstep
      subst hstep
      simp only [remaining, State.setMain, hs, mainWeight, List.length_cons]
      omega
    · simp [hc] at hstep
  next hs =>
    rw [Option.some.injEq] at hstep
    subst hstep
    simp only [remaining, State.setMain, hs, mainWeight, List.length_nil]
    omega
  next c todo hs =>
    split at hstep
    · rw [Option.some.injEq] at hstep
      subst hstep
      simp only [remaining, State.setMain, hs, mainWeight]
      omega
    · rw [Option.some.injEq] at hstep
      subst hstep
      simp only [remaining, State.setMain, hs, mainWeight, List.length_cons]
      omega
  next hs =>
    rw [Option.some.injEq] at hstep
    subst hstep
    simp only [remaining, State.setMain, hs, mainWeight]
    omega
  next => simp at hstep
  next => simp at hstep
  next => simp at hstep

theorem step_remaining_lt (a : Action α)
    (hstep : step containers listed attempt s a = some s') :
    remaining containers listed s' < remaining containers listed s := by
  cases a with
  | main => exact stepMain_remaining_lt hstep
  | thread c => exact stepThread_remaining_lt hstep

end Termination

section Progress

variable [Fintype α] {containers : α → TestedContainer α} {listed : List α}
  {attempt : α → Attempt} {s : State α}

/-- Where nothing can happen, every thread ended: one that waits, waits for a dependency. -/
theorem ended_of_over (hacyclic : Acyclic containers) (hinv : Inv containers listed attempt s)
    (hover : Over (step containers listed attempt) s) (c : α) : Created s c → Ended s c := by
  induction c using hacyclic.wellFounded.induction with
  | _ c ih =>
      intro hcreated
      have hphase := hinv.phase c
      have hstep : stepThread containers attempt s c = none := hover (.thread c)
      rw [stepThread] at hstep
      split at hstep
      next hc => exact absurd hc hcreated
      next d todo hc => simp at hstep
      next hc => simp at hstep
      next d todo hc =>
        rw [hc] at hphase
        have hd : d ∈ (containers c).dependsOn := (List.cons_subset.mp hphase.2).1
        have hended : (s.phase d).isEnded := ih d hd (hphase.1 d hd).1
        simp [hended] at hstep
      next hc => simp at hstep
      next d todo hc => split at hstep <;> simp at hstep
      next hc => simp at hstep
      next hc => simp at hstep
      next hc => rw [Ended, hc, Phase.isEnded]
      next hc => rw [Ended, hc, Phase.isEnded]

theorem main_of_over (hacyclic : Acyclic containers) (hinv : Inv containers listed attempt s)
    (hover : Over (step containers listed attempt) s) :
    s.main = .returned ∨ ∃ message, s.main = .exited message := by
  have hmain := hinv.main
  have hstep : stepMain containers listed s = none := hover .main
  rw [stepMain] at hstep
  split at hstep
  next c todo hs => simp [hacyclic.check_eq_ok c] at hstep
  next hs => simp at hstep
  next c todo hs =>
    rw [hs] at hmain
    have hc := (hmain.1 c (List.cons_subset.mp hmain.2).1).1
    have hended : (s.phase c).isEnded := ended_of_over hacyclic hinv hover c hc
    simp [hended] at hstep
  next hs => simp at hstep
  next c todo hs => split at hstep <;> simp at hstep
  next hs => simp at hstep
  next hs => exact Or.inl hs
  next message hs => exact Or.inr ⟨message, hs⟩
  next e hs =>
    rw [hs] at hmain
    obtain ⟨c, -, hcheck⟩ := hmain
    simp [hacyclic.check_eq_ok c] at hcheck

theorem step_main_create (hacyclic : Acyclic containers) {c : α} {todo : List α}
    (hs : s.main = .spawning (c :: todo)) : step containers listed attempt s .main =
      some ((asyncStartRecursive containers c s).setMain (.spawning todo)) := by
  simp only [step, stepMain, hs, hacyclic.check_eq_ok c]

end Progress

section Outcome

variable (containers : α → TestedContainer α) (listed : List α) (attempt : α → Attempt)

/-- An old container that may be used, and that restarts. -/
def Restarted (c : α) : Prop :=
  (attempt c).existing = some true ∧ (containers c).allowOldContainer = true ∧
    (attempt c).restart = some ()

/-- All that the container depends on starts and is healthy. -/
inductive Begins : α → Prop
  | intro {c : α} (hbegins : ∀ d ∈ (containers c).dependsOn, Begins d)
      (hhealthy : ∀ d ∈ (containers c).dependsOn,
        (outcome containers attempt d).healthy = some true) : Begins c

/-- A listed container is started and turns out not to be healthy. -/
def SessionExits : Prop :=
  ∃ c ∈ listed, Begins containers attempt c ∧
    (outcome containers attempt c).healthy = some false

/-- What a start of the listed containers has to guarantee, in whatever order its threads run. -/
structure StartsCorrectly [Fintype α] : Prop where
  once : ∀ {as s}, run (step containers listed attempt) (initial listed) as = some s →
    s.begun.Nodup
  afterDependencies : ∀ {as s},
    run (step containers listed attempt) (initial listed) as = some s →
      ∀ c ∈ s.begun, ∀ d ∈ (containers c).dependsOn, Succeeded s d
  bounded : ∃ bound, ∀ {as s},
    run (step containers listed attempt) (initial listed) as = some s → as.length ≤ bound
  ends : ∀ {as s}, run (step containers listed attempt) (initial listed) as = some s →
    Over (step containers listed attempt) s →
      (∀ c, Created s c → Ended s c) ∧ (s.main = .returned ∨ ∃ message, s.main = .exited message)
  allStarted : ∀ {as s}, run (step containers listed attempt) (initial listed) as = some s →
    s.main = .returned → ∀ c ∈ listed, Ended s c ∧ (s.status c).container = true

omit [DecidableEq α] in
/-- `start` leaves the health unset where it restarts, and only there. -/
theorem outcome_cases (c : α) :
    (Restarted containers attempt c ∧ outcome containers attempt c = ⟨true, none⟩) ∨
      (¬ Restarted containers attempt c ∧ (outcome containers attempt c = ⟨true, some true⟩ ∨
        (outcome containers attempt c).healthy = some false)) := by
  rw [outcome, Restarted, Status.tryStart, Status.start, Status.new]
  generalize attempt c = a
  obtain ⟨existing, restart, run, waitForHealth, warmup, reload⟩ := a
  rcases existing with _ | _ | _
  · simp
  · rcases run with _ | _
    · simp
    · rcases waitForHealth with _ | _ | _
      · simp
      · cases reload <;> simp
      · rcases warmup with _ | _ | _ <;> cases reload <;> simp
  · cases (containers c).allowOldContainer
    · simp
    · cases restart <;> simp

end Outcome

section Started

variable [Fintype α] {containers : α → TestedContainer α} {listed : List α}
  {attempt : α → Attempt} {s : State α}

theorem Inv.status_of_started (hinv : Inv containers listed attempt s) {c : α}
    (hc : s.phase c = .started) : s.status c = outcome containers attempt c := by
  rw [hinv.status c, if_pos hc]

/-- Only what a `start` left behind is not new. -/
theorem Inv.started_of_status (hinv : Inv containers listed attempt s) {c : α}
    (hc : s.status c ≠ .new) : s.phase c = .started := by
  by_contra h
  exact hc (by rw [hinv.status c, if_neg h])

theorem Inv.started_of_succeeded (hinv : Inv containers listed attempt s) {c : α}
    (hc : Succeeded s c) : s.phase c = .started :=
  hinv.started_of_status fun h => by simp [Succeeded, h, Status.new] at hc

/-- A container is started after all that it depends on. -/
theorem Inv.begins_of_started (hacyclic : Acyclic containers)
    (hinv : Inv containers listed attempt s) (c : α) :
    s.phase c = .started → Begins containers attempt c := by
  induction c using hacyclic.wellFounded.induction with
  | _ c ih =>
      intro hc
      have hdeps := hinv.phase c
      rw [hc] at hdeps
      have hstarted : ∀ d ∈ (containers c).dependsOn, s.phase d = .started :=
        fun d hd => hinv.started_of_succeeded (hdeps d hd)
      refine Begins.intro (fun d hd => ih d hd (hstarted d hd)) fun d hd => ?_
      rw [← hinv.status_of_started (hstarted d hd)]
      exact (hdeps d hd).2

theorem Inv.started_of_begins (hinv : Inv containers listed attempt s) {c : α}
    (hbegins : Begins containers attempt c) : Ended s c → s.phase c = .started := by
  induction hbegins with
  | @intro c _ hhealthy ih =>
      intro hended
      have hphase := hinv.phase c
      cases hc : s.phase c with
      | started => rfl
      | skipped =>
          rw [hc] at hphase
          obtain ⟨d, hd, hdended, hnot⟩ := hphase
          have hstatus := hinv.status_of_started (ih d hd hdended)
          exact absurd ⟨hdended, by rw [hstatus]; exact hhealthy d hd⟩ hnot
      | _ => simp [Ended, hc, Phase.isEnded] at hended

/-- A thread that ended without a start left a dependency that was restarted, or one whose thread
did the same. -/
theorem Inv.started_of_returned (hacyclic : Acyclic containers)
    (hclosed : ∀ c ∈ listed, ∀ d ∈ (containers c).dependsOn, d ∈ listed)
    (hinv : Inv containers listed attempt s) (hs : s.main = .returned)
    (hnone : ∀ c ∈ listed, ∀ d ∈ (containers c).dependsOn, ¬ Restarted containers attempt d)
    (c : α) : c ∈ listed → s.phase c = .started := by
  have hmain := hinv.main
  rw [hs] at hmain
  induction c using hacyclic.wellFounded.induction with
  | _ c ih =>
      intro hc
      have hended := (hmain c hc).1
      have hphase := hinv.phase c
      cases hcphase : s.phase c with
      | started => rfl
      | skipped =>
          rw [hcphase] at hphase
          obtain ⟨d, hd, hdended, hnot⟩ := hphase
          have hdlisted := hclosed c hc d hd
          have hstatus := hinv.status_of_started (ih d hd hdlisted)
          have hhealthy := (hmain d hdlisted).2
          rcases outcome_cases containers attempt d with
            ⟨hd', -⟩ | ⟨-, hd' | hd'⟩
          · exact absurd hd' (hnone c hc d hd)
          · exact absurd ⟨hdended, by rw [hstatus, hd']⟩ hnot
          · exact absurd (hstatus ▸ hd') hhealthy
      | _ => simp [Ended, hcphase, Phase.isEnded] at hended

theorem Inv.allStarted_of_returned (hacyclic : Acyclic containers)
    (hclosed : ∀ c ∈ listed, ∀ d ∈ (containers c).dependsOn, d ∈ listed)
    (hinv : Inv containers listed attempt s) (hs : s.main = .returned)
    (hnone : ∀ c ∈ listed, ∀ d ∈ (containers c).dependsOn, ¬ Restarted containers attempt d) :
    ∀ c ∈ listed, Ended s c ∧ (s.status c).container = true := by
  have hmain := hinv.main
  rw [hs] at hmain
  intro c hc
  have hstatus := hinv.status_of_started
    (hinv.started_of_returned hacyclic hclosed hs hnone c hc)
  refine ⟨(hmain c hc).1, ?_⟩
  rcases outcome_cases containers attempt c with ⟨-, h⟩ | ⟨-, h | h⟩
  · rw [hstatus, h]
  · rw [hstatus, h]
  · exact absurd (hstatus ▸ h) (hmain c hc).2

/-- The main thread exits only because of a container that was started and is not healthy. -/
theorem Inv.sessionExits_of_exited (hacyclic : Acyclic containers)
    (hinv : Inv containers listed attempt s) {message : Str} (hs : s.main = .exited message) :
    SessionExits containers listed attempt := by
  have hmain := hinv.main
  rw [hs] at hmain
  obtain ⟨c, hc, -, hhealthy⟩ := hmain
  have hnew : s.status c ≠ .new := fun h => by simp [h, Status.new] at hhealthy
  have hstarted := hinv.started_of_status hnew
  refine ⟨c, hc, hinv.begins_of_started hacyclic c hstarted, ?_⟩
  rwa [hinv.status_of_started hstarted] at hhealthy

theorem Inv.not_sessionExits_of_returned (hinv : Inv containers listed attempt s)
    (hs : s.main = .returned) : ¬ SessionExits containers listed attempt := by
  have hmain := hinv.main
  rw [hs] at hmain
  rintro ⟨c, hc, hbegins, hhealthy⟩
  have hstarted := hinv.started_of_begins hbegins (hmain c hc).1
  exact (hmain c hc).2 (hinv.status_of_started hstarted ▸ hhealthy)

/-- What depends on a restarted container is not started. -/
theorem Inv.not_restarted_of_started (hinv : Inv containers listed attempt s) {c d : α}
    (hc : (s.status c).container = true) (hd : d ∈ (containers c).dependsOn) :
    ¬ Restarted containers attempt d := by
  have hnew : s.status c ≠ .new := fun h => by simp [h, Status.new] at hc
  have hstarted := hinv.started_of_status hnew
  have hdeps := hinv.phase c
  rw [hstarted] at hdeps
  have hhealthy := (hdeps d hd).2
  rw [hinv.status_of_started (hinv.started_of_succeeded (hdeps d hd))] at hhealthy
  intro hrestarted
  rcases outcome_cases containers attempt d with ⟨-, h⟩ | ⟨h, -⟩
  · simp [h] at hhealthy
  · exact h hrestarted

theorem startsCorrectly_of_allStarted (hacyclic : Acyclic containers)
    (hall : ∀ {as s}, run (step containers listed attempt) (initial listed) as = some s →
      s.main = .returned → ∀ c ∈ listed, Ended s c ∧ (s.status c).container = true) :
    StartsCorrectly containers listed attempt where
  once hrun := (run_inv hrun).begun_nodup
  afterDependencies {as s} hrun c hc := by
    have hinv := run_inv hrun
    have hdeps := hinv.phase c
    rcases (hinv.mem_begun c).mp hc with h | h
    · rw [h] at hdeps
      exact hdeps
    · rw [h] at hdeps
      exact hdeps
  bounded := ⟨remaining containers listed (initial listed), fun hrun =>
    (Nat.le_add_right _ _).trans (run_length_le (fun _ a _ => step_remaining_lt a) hrun)⟩
  ends hrun hover :=
    ⟨ended_of_over hacyclic (run_inv hrun) hover, main_of_over hacyclic (run_inv hrun) hover⟩
  allStarted := hall

/-- The check before the start finds every cycle.  Without cycles, the threads of a list that
holds what its containers depend on start them in order and once, and end.  The main thread
returns with all of them started, if and only if a start fails or no container depends on one
that is restarted: nobody asks a restarted container for its health, so what depends on it is
not started, and the main thread takes that for a success. -/
theorem startContainers_iff (containers : α → TestedContainer α) :
    (∀ c, (∃ e, checkCircularDependencies containers [] c = .error e) ↔
      ∃ d, Relation.ReflTransGen (DependsOn containers) c d ∧ OnCycle containers d) ∧
    (Acyclic containers → ∀ (listed : List α) (attempt : α → Attempt),
      (∀ c ∈ listed, ∀ d ∈ (containers c).dependsOn, d ∈ listed) →
        (StartsCorrectly containers listed attempt ↔
          SessionExits containers listed attempt ∨
            ∀ c ∈ listed, ∀ d ∈ (containers c).dependsOn, ¬ Restarted containers attempt d)) := by
  refine ⟨fun c => checkCircularDependencies_raises_iff, fun hacyclic listed attempt hclosed => ?_⟩
  constructor
  · intro hcorrect
    by_cases hexits : SessionExits containers listed attempt
    · exact Or.inl hexits
    · have hless : ∀ s a s', step containers listed attempt s a = some s' →
          remaining containers listed s' < remaining containers listed s :=
        fun _ a _ => step_remaining_lt a
      obtain ⟨as, s, hrun, hover⟩ := exists_run_to_end hless (initial listed)
      have hinv := run_inv hrun
      rcases main_of_over hacyclic hinv hover with hs | ⟨message, hs⟩
      · exact Or.inr fun c hc d hd =>
          hinv.not_restarted_of_started (hcorrect.allStarted hrun hs c hc).2 hd
      · exact absurd (hinv.sessionExits_of_exited hacyclic hs) hexits
  · intro hcondition
    refine startsCorrectly_of_allStarted hacyclic fun hrun hs => ?_
    have hinv := run_inv hrun
    rcases hcondition with hexits | hnone
    · exact absurd hexits (hinv.not_sessionExits_of_returned hs)
    · exact hinv.allStarted_of_returned hacyclic hclosed hs hnone

end Started


section MongoDb

/-- A weblog (`false`) that depends on a database (`true`) of which an old container may be used. -/
def weblogAndMongoDb : Bool → TestedContainer Bool
  | false => ⟨"weblog".toList, false, [true]⟩
  | true => ⟨"mongodb".toList, true, []⟩

/-- No container exists yet, and all goes well. -/
def freshAttempt : Bool → Attempt :=
  fun _ => ⟨some false, some (), some (), some true, some true, some ()⟩

/-- The container of the database is an old one. -/
def oldMongoDbAttempt : Bool → Attempt
  | false => freshAttempt false
  | true => { freshAttempt true with existing := some true }

theorem acyclic_weblogAndMongoDb : Acyclic weblogAndMongoDb := by
  have hdepends : ∀ c d, DependsOn weblogAndMongoDb c d → c = false ∧ d = true := by
    intro c d h
    cases c
    · exact ⟨rfl, List.mem_singleton.mp h⟩
    · exact absurd h List.not_mem_nil
  intro c hcycle
  obtain ⟨d, hd, -⟩ := Relation.TransGen.head'_iff.mp hcycle
  obtain ⟨e, -, he⟩ := Relation.TransGen.tail'_iff.mp hcycle
  have hfirst := (hdepends c d hd).1
  have hlast := (hdepends e c he).2
  simp [hfirst] at hlast

theorem closed_weblogAndMongoDb :
    ∀ c ∈ [true, false], ∀ d ∈ (weblogAndMongoDb c).dependsOn, d ∈ [true, false] := by
  decide

theorem startContainers_freshMongoDb :
    StartsCorrectly weblogAndMongoDb [true, false] freshAttempt :=
  ((startContainers_iff weblogAndMongoDb).2 acyclic_weblogAndMongoDb [true, false] freshAttempt
    closed_weblogAndMongoDb).mpr (Or.inr fun _ _ d _ h => absurd h.1 (by simp [freshAttempt]))

/-- The old database is restarted, the weblog is not started, and the main thread returns. -/
theorem oldMongoDb_not_startsCorrectly :
    Acyclic weblogAndMongoDb ∧
      (∀ c ∈ [true, false], ∀ d ∈ (weblogAndMongoDb c).dependsOn, d ∈ [true, false]) ∧
      ¬ StartsCorrectly weblogAndMongoDb [true, false] oldMongoDbAttempt := by
  refine ⟨acyclic_weblogAndMongoDb, closed_weblogAndMongoDb, fun hcorrect => ?_⟩
  have hrun : ∃ s, run (step weblogAndMongoDb [true, false] oldMongoDbAttempt)
      (initial [true, false])
      [.main, .main, .main, .thread true, .thread true, .thread true, .thread true,
        .thread false, .thread false, .thread false, .thread false, .thread false,
        .main, .main, .main, .main, .main, .main] = some s ∧
      s.main = .returned ∧ (s.status false).container = false := by
    have hacyclic := acyclic_weblogAndMongoDb
    exact ⟨_, run_cons_eq_some.mpr ⟨_, step_main_create hacyclic rfl,
      run_cons_eq_some.mpr ⟨_, step_main_create hacyclic rfl, rfl⟩⟩, rfl, rfl⟩
  obtain ⟨s, hrun, hs, hweblog⟩ := hrun
  have hstarted := (hcorrect.allStarted hrun hs false (by decide)).2
  rw [hweblog] at hstarted
  exact absurd hstarted (by decide)

end MongoDb

end Startup
end Containers
end SystemTests
