import SystemTests.Containers.Dependencies
import SystemTests.Foundation.Run

/-!
# Starting containers (`utils/_context/containers.py`, `utils/_context/_scenarios/_core/endtoend.py`)

The main thread creates a thread for each container of its list and joins them
all.  The thread of a container first creates the threads of its dependencies,
joins them, looks at the health of each dependency, and only then starts its
container.  A thread is created under the lock of its container: at most once,
by whoever comes first.

A program counter is the list of what its loop has left to do.  An action is one
iteration of one thread, or the whole body of one `start`: what that body
writes is read by nobody who has not joined its thread.

**Results.**
* `Inv.move`: one thread moves on, and the invariant holds after it.
* `Inv.stepThread`, `Inv.stepMain`: so it does after every step.
* `run_inv`: what every run from the beginning keeps.
-/

namespace SystemTests
namespace Containers

open Foundation Foundation.Text

universe u

/-- What the calls of one `start` do; `none` if the call raises. -/
structure Attempt where
  existing : Option Bool
  restart : Option Unit
  run : Option Unit
  waitForHealth : Option Bool
  /-- Some containers find out here that they are not healthy. -/
  warmup : Option Bool
  reload : Option Unit

/-- Whether `_container` is set, and `healthy`. -/
structure Status where
  container : Bool
  healthy : Option Bool
deriving DecidableEq

namespace Status

def new : Status := ⟨false, none⟩

/-- `start`: whether it returns, and what it leaves.  An old container that may be used is
restarted, and nobody asks for its health. -/
def start (allowOldContainer : Bool) (attempt : Attempt) (self : Status) : Option Unit × Status :=
  if self.container then (some (), self)
  else
    match attempt.existing with
    | none => (none, self)
    | some true =>
        if allowOldContainer then (attempt.restart, { self with container := true })
        else (none, self)
    | some false =>
        match attempt.run with
        | none => (none, self)
        | some () =>
            match attempt.waitForHealth with
            | none => (none, { self with container := true })
            | some false => (attempt.reload, ⟨true, some false⟩)
            | some true =>
                match attempt.warmup with
                | none => (none, ⟨true, some true⟩)
                | some healthy => (attempt.reload, ⟨true, some healthy⟩)

/-- The end of `_start_with_dependencies`: an exception is logged only. -/
def tryStart (allowOldContainer : Bool) (attempt : Attempt) (self : Status) : Status :=
  match self.start allowOldContainer attempt with
  | (some (), self) => self
  | (none, self) => { self with healthy := some false }

end Status

/-- Where the thread of a container is. -/
inductive Phase (α : Type u) where
  | notCreated
  | spawning (todo : List α)
  | joining (todo : List α)
  | checking (todo : List α)
  | starting
  | skipped
  | started
deriving DecidableEq

def Phase.isEnded {α : Type u} : Phase α → Bool
  | .skipped => true
  | .started => true
  | _ => false

/-- Where the main thread is in `_start_containers`. -/
inductive MainPhase (α : Type u) where
  | spawning (todo : List α)
  | joining (todo : List α)
  | checking (todo : List α)
  | returned
  | exited (message : Str)
  | raised (e : Raised)

/-- `begun` are the containers whose `start` was called, the oldest first. -/
structure State (α : Type u) where
  phase : α → Phase α
  status : α → Status
  main : MainPhase α
  begun : List α

inductive Action (α : Type u) where
  | main
  | thread (c : α)

section Startup

variable {α : Type u} [DecidableEq α]

namespace State

def setPhase (s : State α) (c : α) (phase : Phase α) : State α :=
  { s with phase := Function.update s.phase c phase }

@[simp] theorem setPhase_self (s : State α) (c : α) (phase : Phase α) :
    (s.setPhase c phase).phase c = phase := by
  simp [setPhase]

@[simp] theorem setPhase_of_ne (s : State α) {c d : α} (phase : Phase α) (h : d ≠ c) :
    (s.setPhase c phase).phase d = s.phase d := by
  simp [setPhase, h]

@[simp] theorem setPhase_status (s : State α) (c : α) (phase : Phase α) :
    (s.setPhase c phase).status = s.status := rfl

@[simp] theorem setPhase_main (s : State α) (c : α) (phase : Phase α) :
    (s.setPhase c phase).main = s.main := rfl

@[simp] theorem setPhase_begun (s : State α) (c : α) (phase : Phase α) :
    (s.setPhase c phase).begun = s.begun := rfl

def setMain (s : State α) (main : MainPhase α) : State α :=
  { s with main := main }

end State

section Steps

variable [Fintype α]
variable (containers : α → TestedContainer α) (listed : List α) (attempt : α → Attempt)

def initial : State α where
  phase _ := .notCreated
  status _ := .new
  main := .spawning listed
  begun := []

/-- `async_start_recursive` -/
def asyncStartRecursive (c : α) (s : State α) : State α :=
  if s.phase c = .notCreated then s.setPhase c (.spawning (containers c).dependsOn) else s

/-- `_start_with_dependencies` -/
def stepThread (s : State α) (c : α) : Option (State α) :=
  match s.phase c with
  | .notCreated => none
  | .spawning (dependency :: todo) =>
      some ((asyncStartRecursive containers dependency s).setPhase c (.spawning todo))
  | .spawning [] => some (s.setPhase c (.joining (containers c).dependsOn))
  | .joining (dependency :: todo) =>
      if (s.phase dependency).isEnded then some (s.setPhase c (.joining todo)) else none
  | .joining [] => some (s.setPhase c (.checking (containers c).dependsOn))
  | .checking (dependency :: todo) =>
      if (s.status dependency).healthy = some true then some (s.setPhase c (.checking todo))
      else some (s.setPhase c .skipped)
  | .checking [] => some { s.setPhase c .starting with begun := s.begun ++ [c] }
  | .starting =>
      some { s.setPhase c .started with
        status := Function.update s.status c
          ((s.status c).tryStart (containers c).allowOldContainer (attempt c)) }
  | .skipped => none
  | .started => none

def cannotBeStarted (c : α) : Str :=
  "Container ".toList ++ (containers c).name ++ " can't be started".toList

/-- `_start_containers` -/
def stepMain (s : State α) : Option (State α) :=
  match s.main with
  | .spawning (c :: todo) =>
      match checkCircularDependencies containers [] c with
      | .error e => some (s.setMain (.raised e))
      | .ok () => some ((asyncStartRecursive containers c s).setMain (.spawning todo))
  | .spawning [] => some (s.setMain (.joining listed))
  | .joining (c :: todo) =>
      if (s.phase c).isEnded then some (s.setMain (.joining todo)) else none
  | .joining [] => some (s.setMain (.checking listed))
  | .checking (c :: todo) =>
      if (s.status c).healthy = some false then
        some (s.setMain (.exited (cannotBeStarted containers c)))
      else some (s.setMain (.checking todo))
  | .checking [] => some (s.setMain .returned)
  | .returned => none
  | .exited _ => none
  | .raised _ => none

def step (s : State α) : Action α → Option (State α)
  | .main => stepMain containers listed s
  | .thread c => stepThread containers attempt s c

end Steps

section Invariant

variable [Fintype α] {containers : α → TestedContainer α} {listed : List α} {attempt : α → Attempt}

def Created (s : State α) (c : α) : Prop := s.phase c ≠ .notCreated

def Ended (s : State α) (c : α) : Prop := (s.phase c).isEnded = true

/-- The thread of the container ended, and the container is healthy. -/
def Succeeded (s : State α) (c : α) : Prop := Ended s c ∧ (s.status c).healthy = some true

/-- What the place of a thread says about the dependencies of its container. -/
def PhaseOk (containers : α → TestedContainer α) (s : State α) (c : α) : Phase α → Prop
  | .notCreated => True
  | .spawning todo => ∀ d ∈ (containers c).dependsOn, d ∈ todo ∨ Created s d
  | .joining todo =>
      (∀ d ∈ (containers c).dependsOn, Created s d ∧ (d ∈ todo ∨ Ended s d)) ∧
        todo ⊆ (containers c).dependsOn
  | .checking todo =>
      (∀ d ∈ (containers c).dependsOn, Ended s d ∧ (d ∈ todo ∨ Succeeded s d)) ∧
        todo ⊆ (containers c).dependsOn
  | .starting => ∀ d ∈ (containers c).dependsOn, Succeeded s d
  | .skipped => ∃ d ∈ (containers c).dependsOn, Ended s d ∧ ¬ Succeeded s d
  | .started => ∀ d ∈ (containers c).dependsOn, Succeeded s d

/-- What the place of the main thread says about the containers of its list. -/
def MainOk (containers : α → TestedContainer α) (listed : List α) (s : State α) :
    MainPhase α → Prop
  | .spawning todo => (∀ c ∈ listed, c ∈ todo ∨ Created s c) ∧ todo ⊆ listed
  | .joining todo => (∀ c ∈ listed, Created s c ∧ (c ∈ todo ∨ Ended s c)) ∧ todo ⊆ listed
  | .checking todo =>
      (∀ c ∈ listed, Ended s c ∧ (c ∈ todo ∨ (s.status c).healthy ≠ some false)) ∧ todo ⊆ listed
  | .returned => ∀ c ∈ listed, Ended s c ∧ (s.status c).healthy ≠ some false
  | .exited _ => ∃ c ∈ listed, Ended s c ∧ (s.status c).healthy = some false
  | .raised e => ∃ c ∈ listed, checkCircularDependencies containers [] c = .error e

/-- How the `start` of a container ends. -/
def outcome (containers : α → TestedContainer α) (attempt : α → Attempt) (c : α) : Status :=
  Status.new.tryStart (containers c).allowOldContainer (attempt c)

structure Inv (containers : α → TestedContainer α) (listed : List α) (attempt : α → Attempt)
    (s : State α) : Prop where
  phase : ∀ c, PhaseOk containers s c (s.phase c)
  status : ∀ c, s.status c =
    if s.phase c = .started then outcome containers attempt c else .new
  begun_nodup : s.begun.Nodup
  mem_begun : ∀ c, c ∈ s.begun ↔ s.phase c = .starting ∨ s.phase c = .started
  main : MainOk containers listed s s.main

/-- What never changes back. -/
structure Later (s s' : State α) : Prop where
  created : ∀ c, Created s c → Created s' c
  ended : ∀ c, Ended s c → Ended s' c ∧ s'.status c = s.status c

omit [DecidableEq α] [Fintype α] in
theorem Later.refl (s : State α) : Later s s :=
  ⟨fun _ h => h, fun _ h => ⟨h, rfl⟩⟩

namespace Later

variable {s s' : State α}

omit [DecidableEq α] [Fintype α] in
theorem succeeded (h : Later s s') {c : α} (hc : Succeeded s c) : Succeeded s' c := by
  obtain ⟨hended, hstatus⟩ := h.ended c hc.1
  exact ⟨hended, hstatus ▸ hc.2⟩

omit [DecidableEq α] [Fintype α] in
theorem succeeded_iff (h : Later s s') {c : α} (hc : Ended s c) :
    Succeeded s' c ↔ Succeeded s c := by
  obtain ⟨hended, hstatus⟩ := h.ended c hc
  simp only [Succeeded, hc, hended, hstatus]

omit [DecidableEq α] [Fintype α] in
theorem phaseOk (h : Later s s') {c : α} {phase : Phase α}
    (hphase : PhaseOk containers s c phase) : PhaseOk containers s' c phase := by
  cases phase with
  | notCreated => trivial
  | spawning todo => exact fun d hd => (hphase d hd).imp_right (h.created d)
  | joining todo =>
      refine ⟨fun d hd => ?_, hphase.2⟩
      obtain ⟨hcreated, hended⟩ := hphase.1 d hd
      exact ⟨h.created d hcreated, hended.imp_right fun hd => (h.ended d hd).1⟩
  | checking todo =>
      refine ⟨fun d hd => ?_, hphase.2⟩
      obtain ⟨hended, hhealthy⟩ := hphase.1 d hd
      exact ⟨(h.ended d hended).1, hhealthy.imp_right h.succeeded⟩
  | starting => exact fun d hd => h.succeeded (hphase d hd)
  | skipped =>
      obtain ⟨d, hd, hended, hnot⟩ := hphase
      exact ⟨d, hd, (h.ended d hended).1, fun hs => hnot ((h.succeeded_iff hended).mp hs)⟩
  | started => exact fun d hd => h.succeeded (hphase d hd)

theorem mainOk (h : Later s s') {main : MainPhase α} (hmain : MainOk containers listed s main) :
    MainOk containers listed s' main := by
  cases main with
  | spawning todo => exact ⟨fun c hc => (hmain.1 c hc).imp_right (h.created c), hmain.2⟩
  | joining todo =>
      refine ⟨fun c hc => ?_, hmain.2⟩
      obtain ⟨hcreated, hended⟩ := hmain.1 c hc
      exact ⟨h.created c hcreated, hended.imp_right fun hc => (h.ended c hc).1⟩
  | checking todo =>
      refine ⟨fun c hc => ?_, hmain.2⟩
      obtain ⟨hended, hhealthy⟩ := hmain.1 c hc
      obtain ⟨hended', hstatus⟩ := h.ended c hended
      exact ⟨hended', hstatus ▸ hhealthy⟩
  | returned =>
      intro c hc
      obtain ⟨hended, hstatus⟩ := h.ended c (hmain c hc).1
      exact ⟨hended, hstatus ▸ (hmain c hc).2⟩
  | exited message =>
      obtain ⟨c, hc, hended, hhealthy⟩ := hmain
      obtain ⟨hended', hstatus⟩ := h.ended c hended
      exact ⟨c, hc, hended', hstatus ▸ hhealthy⟩
  | raised e => exact hmain

end Later

omit [DecidableEq α] [Fintype α] in
/-- One iteration of a loop that makes `P` true of every element. -/
theorem todo_of_cons {P : α → Prop} {d x : α} {todo : List α} (h : x ∈ d :: todo ∨ P x)
    (hd : P d) : x ∈ todo ∨ P x := by
  rcases h with hmem | hx
  · rcases List.mem_cons.mp hmem with rfl | hmem
    · exact Or.inr hd
    · exact Or.inl hmem
  · exact Or.inr hx

section Move

variable {s s' : State α} {c : α}

omit [Fintype α]

/-- The thread of `c` moves on, and no other does. -/
theorem later_of_move (hother : ∀ d, d ≠ c → s'.phase d = s.phase d ∧ s'.status d = s.status d)
    (hc : ¬ Ended s c) (hphase : s'.phase c ≠ .notCreated) : Later s s' := by
  constructor
  · intro d hd
    by_cases h : d = c
    · exact h ▸ hphase
    · rwa [Created, (hother d h).1]
  · intro d hd
    have h : d ≠ c := fun h => hc (h ▸ hd)
    refine ⟨?_, (hother d h).2⟩
    rwa [Ended, (hother d h).1]

theorem later_setPhase {phase : Phase α} (hc : ¬ Ended s c) (hphase : phase ≠ .notCreated) :
    Later s (s.setPhase c phase) :=
  later_of_move (fun _ h => ⟨s.setPhase_of_ne phase h, rfl⟩) hc (by simpa using hphase)

theorem later_asyncStartRecursive (d : α) : Later s (asyncStartRecursive containers d s) := by
  rw [asyncStartRecursive]
  by_cases h : s.phase d = .notCreated
  · rw [if_pos h]
    exact later_setPhase (by simp [Ended, h, Phase.isEnded]) (by simp)
  · rw [if_neg h]
    exact Later.refl s

theorem created_asyncStartRecursive (d : α) : Created (asyncStartRecursive containers d s) d := by
  rw [asyncStartRecursive]
  by_cases h : s.phase d = .notCreated
  · simp [h, Created]
  · rwa [if_neg h]

/-- A thread that exists stays where it is. -/
theorem asyncStartRecursive_phase (d : α) (h : Created s c) :
    (asyncStartRecursive containers d s).phase c = s.phase c := by
  rw [asyncStartRecursive]
  by_cases hd : s.phase d = .notCreated
  · have hne : c ≠ d := fun heq => h (heq ▸ hd)
    rw [if_pos hd, State.setPhase_of_ne s _ hne]
  · rw [if_neg hd]

end Move

namespace Inv

variable {s s' : State α} {c : α} (hinv : Inv containers listed attempt s)
include hinv

theorem setMain {main : MainPhase α} (hmain : MainOk containers listed s main) :
    Inv containers listed attempt (s.setMain main) where
  phase c := Later.phaseOk (s := s) ⟨fun _ h => h, fun _ h => ⟨h, rfl⟩⟩ (hinv.phase c)
  status := hinv.status
  begun_nodup := hinv.begun_nodup
  mem_begun := hinv.mem_begun
  main := Later.mainOk (s := s) ⟨fun _ h => h, fun _ h => ⟨h, rfl⟩⟩ hmain

/-- The thread of `c` moves on, and no other does. -/
theorem move (hother : ∀ d, d ≠ c → s'.phase d = s.phase d ∧ s'.status d = s.status d)
    (hbegun : ∀ d, d ≠ c → (d ∈ s'.begun ↔ d ∈ s.begun)) (hmain : s'.main = s.main)
    (hc : ¬ Ended s c) (hcreated : s'.phase c ≠ .notCreated)
    (hphase : PhaseOk containers s c (s'.phase c))
    (hstatus : s'.status c = if s'.phase c = .started then outcome containers attempt c else .new)
    (hnodup : s'.begun.Nodup)
    (hmem : c ∈ s'.begun ↔ s'.phase c = .starting ∨ s'.phase c = .started) :
    Inv containers listed attempt s' := by
  have hlater : Later s s' := later_of_move hother hc hcreated
  refine ⟨fun d => ?_, fun d => ?_, hnodup, fun d => ?_, hmain ▸ hlater.mainOk hinv.main⟩
  · by_cases h : d = c
    · exact h ▸ hlater.phaseOk hphase
    · rw [(hother d h).1]
      exact hlater.phaseOk (hinv.phase d)
  · by_cases h : d = c
    · exact h ▸ hstatus
    · rw [(hother d h).1, (hother d h).2]
      exact hinv.status d
  · by_cases h : d = c
    · exact h ▸ hmem
    · rw [(hother d h).1, hbegun d h]
      exact hinv.mem_begun d

/-- A thread moves on before it calls `start`. -/
theorem setPhase {phase : Phase α} (hc : s.phase c ≠ .starting) (hended : ¬ Ended s c)
    (hphase : PhaseOk containers s c phase)
    (hne : phase ≠ .notCreated ∧ phase ≠ .starting ∧ phase ≠ .started) :
    Inv containers listed attempt (s.setPhase c phase) := by
  have hstarted : s.phase c ≠ .started := fun h => hended (by rw [Ended, h]; rfl)
  have hstatus := hinv.status c
  have hmem := hinv.mem_begun c
  rw [if_neg hstarted] at hstatus
  simp only [hc, hstarted, or_self, iff_false] at hmem
  exact hinv.move (fun d h => ⟨s.setPhase_of_ne phase h, rfl⟩) (fun _ _ => Iff.rfl) rfl hended
    (by simpa using hne.1) (by simpa using hphase) (by simpa [hne] using hstatus)
    hinv.begun_nodup (by simpa [hne] using hmem)

theorem asyncStartRecursive (d : α) :
    Inv containers listed attempt (asyncStartRecursive containers d s) := by
  rw [Containers.asyncStartRecursive]
  by_cases h : s.phase d = .notCreated
  · rw [if_pos h]
    exact hinv.setPhase (by simp [h]) (by simp [Ended, h, Phase.isEnded])
      (fun d hd => Or.inl hd) (by simp)
  · rwa [if_neg h]

/-- A thread calls `start`. -/
theorem begin (hc : s.phase c = .checking []) :
    Inv containers listed attempt { s.setPhase c .starting with begun := s.begun ++ [c] } := by
  have hdeps := hinv.phase c
  have hstatus := hinv.status c
  have hfresh := hinv.mem_begun c
  rw [hc] at hdeps hstatus hfresh
  simp only [reduceCtorEq, or_self, iff_false] at hfresh
  refine hinv.move (c := c) (fun d h => ⟨s.setPhase_of_ne _ h, rfl⟩) (fun d h => ?_) rfl
    ?_ ?_ ?_ ?_ ?_ ?_
  · simp [h]
  · simp [Ended, hc, Phase.isEnded]
  · simp
  · simp only [State.setPhase_self]
    exact fun d hd => (hdeps.1 d hd).2.resolve_left List.not_mem_nil
  · simpa using hstatus
  · rw [List.nodup_append]
    refine ⟨hinv.begun_nodup, List.nodup_singleton c, fun a ha b hb hab => ?_⟩
    rw [List.mem_singleton] at hb
    exact hfresh (hb ▸ hab ▸ ha)
  · simp

/-- The call of `start` is over. -/
theorem finish (hc : s.phase c = .starting) :
    Inv containers listed attempt { s.setPhase c .started with
      status := Function.update s.status c
        ((s.status c).tryStart (containers c).allowOldContainer (attempt c)) } := by
  have hdeps := hinv.phase c
  have hstatus := hinv.status c
  have hmem := hinv.mem_begun c
  rw [hc] at hdeps hstatus hmem
  simp only [reduceCtorEq, if_false] at hstatus
  refine hinv.move (c := c) (fun d h => ⟨s.setPhase_of_ne _ h, ?_⟩) (fun _ _ => Iff.rfl) rfl
    ?_ ?_ ?_ ?_ hinv.begun_nodup ?_
  · simp [h]
  · simp [Ended, hc, Phase.isEnded]
  · simp
  · simp only [State.setPhase_self]
    exact hdeps
  · simp [hstatus, outcome]
  · simpa using hmem

theorem stepThread (hstep : stepThread containers attempt s c = some s') :
    Inv containers listed attempt s' := by
  have hphase := hinv.phase c
  rw [Containers.stepThread] at hstep
  split at hstep
  next => simp at hstep
  next d todo hc =>
    rw [hc] at hphase
    rw [Option.some.injEq] at hstep
    subst hstep
    have hcreated : Created s c := by simp [Created, hc]
    have hpc : (Containers.asyncStartRecursive containers d s).phase c = .spawning (d :: todo) :=
      (asyncStartRecursive_phase d hcreated).trans hc
    refine (hinv.asyncStartRecursive d).setPhase (by simp [hpc])
      (by simp [Ended, hpc, Phase.isEnded]) ?_ (by simp)
    exact fun x hx => todo_of_cons ((later_asyncStartRecursive d).phaseOk hphase x hx)
      (created_asyncStartRecursive d)
  next hc =>
    rw [hc] at hphase
    rw [Option.some.injEq] at hstep
    subst hstep
    refine hinv.setPhase (by simp [hc]) (by simp [Ended, hc, Phase.isEnded])
      ⟨fun d hd => ⟨?_, Or.inl hd⟩, List.Subset.refl _⟩ (by simp)
    exact (hphase d hd).resolve_left List.not_mem_nil
  next d todo hc =>
    rw [hc] at hphase
    by_cases hd : (s.phase d).isEnded
    · rw [if_pos hd, Option.some.injEq] at hstep
      subst hstep
      refine hinv.setPhase (by simp [hc]) (by simp [Ended, hc, Phase.isEnded])
        ⟨fun x hx => ⟨(hphase.1 x hx).1, ?_⟩, (List.cons_subset.mp hphase.2).2⟩ (by simp)
      exact todo_of_cons (hphase.1 x hx).2 hd
    · simp [hd] at hstep
  next hc =>
    rw [hc] at hphase
    rw [Option.some.injEq] at hstep
    subst hstep
    refine hinv.setPhase (by simp [hc]) (by simp [Ended, hc, Phase.isEnded])
      ⟨fun d hd => ⟨?_, Or.inl hd⟩, List.Subset.refl _⟩ (by simp)
    exact (hphase.1 d hd).2.resolve_left List.not_mem_nil
  next d todo hc =>
    rw [hc] at hphase
    have hmem := List.cons_subset.mp hphase.2
    have hended := (hphase.1 d hmem.1).1
    by_cases hd : (s.status d).healthy = some true
    · rw [if_pos hd, Option.some.injEq] at hstep
      subst hstep
      refine hinv.setPhase (by simp [hc]) (by simp [Ended, hc, Phase.isEnded])
        ⟨fun x hx => ⟨(hphase.1 x hx).1, ?_⟩, hmem.2⟩ (by simp)
      exact todo_of_cons (hphase.1 x hx).2 ⟨hended, hd⟩
    · rw [if_neg hd, Option.some.injEq] at hstep
      subst hstep
      exact hinv.setPhase (by simp [hc]) (by simp [Ended, hc, Phase.isEnded])
        ⟨d, hmem.1, hended, fun h => hd h.2⟩ (by simp)
  next hc =>
    rw [Option.some.injEq] at hstep
    exact hstep ▸ hinv.begin hc
  next hc =>
    rw [Option.some.injEq] at hstep
    exact hstep ▸ hinv.finish hc
  next => simp at hstep
  next => simp at hstep

theorem stepMain (hstep : stepMain containers listed s = some s') :
    Inv containers listed attempt s' := by
  have hmain := hinv.main
  rw [Containers.stepMain] at hstep
  split at hstep
  next c todo hs =>
    rw [hs] at hmain
    have hmem := List.cons_subset.mp hmain.2
    cases hcheck : checkCircularDependencies containers [] c with
    | error e =>
        rw [hcheck, Option.some.injEq] at hstep
        subst hstep
        exact hinv.setMain ⟨c, hmem.1, hcheck⟩
    | ok u =>
        rw [hcheck, Option.some.injEq] at hstep
        subst hstep
        refine (hinv.asyncStartRecursive c).setMain ⟨fun x hx => ?_, hmem.2⟩
        exact todo_of_cons (((later_asyncStartRecursive c).mainOk hmain).1 x hx)
          (created_asyncStartRecursive c)
  next hs =>
    rw [hs] at hmain
    rw [Option.some.injEq] at hstep
    subst hstep
    refine hinv.setMain ⟨fun c hc => ⟨?_, Or.inl hc⟩, List.Subset.refl _⟩
    exact (hmain.1 c hc).resolve_left List.not_mem_nil
  next c todo hs =>
    rw [hs] at hmain
    by_cases hc : (s.phase c).isEnded
    · rw [if_pos hc, Option.some.injEq] at hstep
      subst hstep
      refine hinv.setMain ⟨fun x hx => ⟨(hmain.1 x hx).1, ?_⟩, (List.cons_subset.mp hmain.2).2⟩
      exact todo_of_cons (hmain.1 x hx).2 hc
    · simp [hc] at hstep
  next hs =>
    rw [hs] at hmain
    rw [Option.some.injEq] at hstep
    subst hstep
    refine hinv.setMain ⟨fun c hc => ⟨?_, Or.inl hc⟩, List.Subset.refl _⟩
    exact (hmain.1 c hc).2.resolve_left List.not_mem_nil
  next c todo hs =>
    rw [hs] at hmain
    have hmem := List.cons_subset.mp hmain.2
    by_cases hc : (s.status c).healthy = some false
    · rw [if_pos hc, Option.some.injEq] at hstep
      subst hstep
      exact hinv.setMain ⟨c, hmem.1, (hmain.1 c hmem.1).1, hc⟩
    · rw [if_neg hc, Option.some.injEq] at hstep
      subst hstep
      refine hinv.setMain ⟨fun x hx => ⟨(hmain.1 x hx).1, ?_⟩, hmem.2⟩
      exact todo_of_cons (P := fun x => (s.status x).healthy ≠ some false) (hmain.1 x hx).2 hc
  next hs =>
    rw [hs] at hmain
    rw [Option.some.injEq] at hstep
    subst hstep
    refine hinv.setMain fun c hc => ⟨(hmain.1 c hc).1, ?_⟩
    exact (hmain.1 c hc).2.resolve_left List.not_mem_nil
  next => simp at hstep
  next => simp at hstep
  next => simp at hstep

omit hinv in
theorem initial : Inv containers listed attempt (initial listed) where
  phase _ := trivial
  status _ := rfl
  begun_nodup := List.nodup_nil
  mem_begun _ := by simp [Containers.initial]
  main := ⟨fun _ hc => Or.inl hc, List.Subset.refl _⟩

end Inv

theorem run_inv {as : List (Action α)} {s : State α}
    (hrun : run (step containers listed attempt) (initial listed) as = some s) :
    Inv containers listed attempt s := by
  refine run_keeps (fun s a s' hinv hstep => ?_) Inv.initial hrun
  cases a with
  | main => exact hinv.stepMain hstep
  | thread c => exact hinv.stepThread hstep

end Invariant

end Startup
end Containers
end SystemTests
