import Mathlib.Data.Char
import Mathlib.Data.List.Lex
import Mathlib.Data.Prod.Lex
import SystemTests.Foundation.Dict
import SystemTests.Foundation.Lifecycle
import SystemTests.Foundation.Text

/-!
# The pool of test agents (`utils/docker_fixtures/_test_agent_pool.py`)

A pool keeps one agent for each environment open for the whole session of a
worker.  An agent is handed out after its state was reset; one whose reset
fails is closed and replaced.

An agent is the number of agents that were opened before it.  Every call of a
creator or of an agent may raise; what it raises is an argument of the step.
The trace of a pool is what happened to its agents.

**Results.**
* `agentEnvKey_eq_iff`: two environments have one key if and only if they are
  equal up to the order of their items.
* `acquire_tracks`, `closeEntries_spec`: the trace stays disciplined, and the
  entries are the agents that are open.
* `workerAgentPool_invariant`: what a whole session guarantees, and when.
-/

namespace SystemTests
namespace DockerFixtures

open Foundation Foundation.Text Foundation.LifeEvent

/-- An exception, or one that `except Exception` lets pass. -/
inductive Failure where
  | exception
  | baseException
deriving DecidableEq

abbrev Agent := Nat

abbrev EnvKey := List (Str × Str)

abbrev Event := LifeEvent Agent EnvKey

/-- `tuple(sorted(agent_env.items()))` -/
def agentEnvKey (agentEnv : Dict Str Str) : EnvKey :=
  agentEnv.items.mergeSort fun a b => decide (toLex a ≤ toLex b)

structure WorkerAgentPool where
  entries : Dict EnvKey Agent
  created : Nat
  trace : List Event

namespace WorkerAgentPool

/-- What the calls of one reset raise. -/
structure ResetOutcome where
  clear : Option Failure
  resetRemoteConfig : Option Failure

/-- What the calls of one `_open_entry` raise. -/
structure OpenOutcome where
  create : Option Failure
  reset : ResetOutcome
  close : Option Failure

/-- What the calls of one `acquire` raise. -/
structure AcquireOutcome where
  rebind : Option Failure
  reset : ResetOutcome
  close : Option Failure
  opening : OpenOutcome

def new : WorkerAgentPool := ⟨.empty, 0, []⟩

def record (pool : WorkerAgentPool) (event : Event) : WorkerAgentPool :=
  { pool with trace := pool.trace ++ [event] }

/-- `_reset` -/
def reset (outcome : ResetOutcome) (api : Agent) (pool : WorkerAgentPool) :
    Option Failure × WorkerAgentPool :=
  match outcome.clear with
  | some e => (some e, pool.record (.spoiled api))
  | none =>
      match outcome.resetRemoteConfig with
      | some e => (some e, pool.record (.spoiled api))
      | none => (none, pool.record (.ready api))

/-- `_close_entry`: an `Exception` is logged only. -/
def closeEntry (close : Option Failure) (key : EnvKey) (pool : WorkerAgentPool) :
    Option Failure × WorkerAgentPool :=
  match pool.entries.get? key with
  | none => (none, pool)
  | some api =>
      let pool := { pool with entries := pool.entries.erase key }.record (.closed api)
      match close with
      | some .baseException => (some .baseException, pool)
      | some .exception => (none, pool)
      | none => (none, pool)

/-- `_open_entry`: what the closing of the stack raises replaces the failure that led to it. -/
def openEntry (outcome : OpenOutcome) (key : EnvKey) (pool : WorkerAgentPool) :
    Except Failure Agent × WorkerAgentPool :=
  match outcome.create with
  | some e => (.error e, pool)
  | none =>
      let api := pool.created
      let pool := { pool with created := api + 1 }.record (.opened api key)
      match reset outcome.reset api pool with
      | (some e, pool) => (.error (outcome.close.getD e), pool.record (.closed api))
      | (none, pool) =>
          (.ok api, { pool with entries := pool.entries.set key api }.record (.used api))

def acquire (outcome : AcquireOutcome) (agentEnv : Dict Str Str) (pool : WorkerAgentPool) :
    Except Failure Agent × WorkerAgentPool :=
  let key := agentEnvKey agentEnv
  match pool.entries.get? key with
  | none => openEntry outcome.opening key pool
  | some api =>
      match outcome.rebind with
      | some e => (.error e, pool)
      | none =>
          match reset outcome.reset api pool with
          | (none, pool) => (.ok api, pool.record (.used api))
          | (some .baseException, pool) => (.error .baseException, pool)
          | (some .exception, pool) =>
              match closeEntry outcome.close key pool with
              | (some e, pool) => (.error e, pool)
              | (none, pool) => openEntry outcome.opening key pool

/-- The loop of `__exit__`; `closing` is what the closing of an entry raises. -/
def closeEntries (closing : EnvKey → Option Failure) :
    List EnvKey → WorkerAgentPool → Option Failure × WorkerAgentPool
  | [], pool => (none, pool)
  | key :: keys, pool =>
      match closeEntry (closing key) key pool with
      | (some e, pool) => (some e, pool)
      | (none, pool) => closeEntries closing keys pool

/-- `__exit__` -/
def exit (closing : EnvKey → Option Failure) (pool : WorkerAgentPool) :
    Option Failure × WorkerAgentPool :=
  closeEntries closing pool.entries.keys pool

/-- The calls of `acquire` of a session, each with what its calls raise. -/
def acquireAll (pool : WorkerAgentPool) (acquires : List (AcquireOutcome × Dict Str Str)) :
    WorkerAgentPool :=
  acquires.foldl (fun pool p => (acquire p.1 p.2 pool).2) pool

end WorkerAgentPool

section Key

theorem agentEnvKey_perm (agentEnv : Dict Str Str) :
    (agentEnvKey agentEnv).Perm agentEnv.items :=
  List.mergeSort_perm _ _

theorem agentEnvKey_sorted (agentEnv : Dict Str Str) :
    (agentEnvKey agentEnv).Pairwise fun a b => toLex a ≤ toLex b := by
  refine (List.pairwise_mergeSort ?_ ?_ _).imp fun h => by simpa using h
  · intro a b c hab hbc
    simp only [decide_eq_true_eq] at hab hbc ⊢
    exact le_trans hab hbc
  · intro a b
    simp only [Bool.or_eq_true, decide_eq_true_eq]
    exact le_total _ _

/-- The key forgets the order of the items, and nothing else. -/
theorem agentEnvKey_eq_iff {agentEnv agentEnv' : Dict Str Str} :
    agentEnvKey agentEnv = agentEnvKey agentEnv' ↔ agentEnv.items.Perm agentEnv'.items := by
  constructor
  · intro h
    exact (agentEnvKey_perm agentEnv).symm.trans (h ▸ agentEnvKey_perm agentEnv')
  · intro h
    refine List.Perm.eq_of_pairwise ?_ (agentEnvKey_sorted agentEnv) (agentEnvKey_sorted agentEnv')
      ((agentEnvKey_perm agentEnv).trans (h.trans (agentEnvKey_perm agentEnv').symm))
    intro a b _ _ hab hba
    exact toLex.injective (le_antisymm hab hba)

end Key

namespace WorkerAgentPool

/-- The trace is disciplined, and the entries are the agents that are open. -/
structure Mirrors (pool : WorkerAgentPool) : Prop where
  disciplined : Disciplined pool.trace
  get?_entries : ∀ key api, pool.entries.get? key = some api ↔ OpenFor pool.trace api key

/-- Before the exit an agent is closed only after its reset failed. -/
structure Tracks (pool : WorkerAgentPool) : Prop extends Mirrors pool where
  fresh : ∀ api key, opened api key ∈ pool.trace → api < pool.created
  spoiled_of_closed : ∀ api, closed api ∈ pool.trace → spoiled api ∈ pool.trace

section Steps

variable {pool : WorkerAgentPool}

theorem tracks_new : Tracks new :=
  ⟨⟨Disciplined.nil, by simp [new, OpenFor, Dict.empty, Dict.get?, Dict.find]⟩, by simp [new],
    by simp [new]⟩

theorem Tracks.record_ready (h : Tracks pool) (api : Agent) : Tracks (pool.record (.ready api)) :=
  ⟨⟨h.disciplined.onReady api, by simpa [record] using h.get?_entries⟩,
    by simpa [record] using h.fresh, by simpa [record] using h.spoiled_of_closed⟩

theorem Tracks.record_spoiled (h : Tracks pool) (api : Agent) :
    Tracks (pool.record (.spoiled api)) :=
  ⟨⟨h.disciplined.onSpoiled api, by simpa [record] using h.get?_entries⟩,
    by simpa [record] using h.fresh, fun x hx => List.mem_append_left _
      (h.spoiled_of_closed x (by simpa [record] using hx))⟩

theorem Tracks.record_used (h : Tracks pool) {api : Agent} (hready : IsReady pool.trace api) :
    Tracks (pool.record (.used api)) :=
  ⟨⟨h.disciplined.onUsed hready, by simpa [record] using h.get?_entries⟩,
    by simpa [record] using h.fresh, by simpa [record] using h.spoiled_of_closed⟩

theorem reset_cases (outcome : ResetOutcome) (api : Agent) (pool : WorkerAgentPool) :
    reset outcome api pool = (none, pool.record (.ready api)) ∨
      ∃ e, reset outcome api pool = (some e, pool.record (.spoiled api)) := by
  unfold reset
  cases outcome.clear with
  | some e => exact Or.inr ⟨e, rfl⟩
  | none =>
      cases outcome.resetRemoteConfig with
      | some e => exact Or.inr ⟨e, rfl⟩
      | none => exact Or.inl rfl

/-- The closing of an entry that is there. -/
theorem closeEntry_of_get? {close : Option Failure} {key : EnvKey} {api : Agent}
    (h : pool.entries.get? key = some api) :
    closeEntry close key pool =
      (if close = some .baseException then some .baseException else none,
        { pool with entries := pool.entries.erase key }.record (.closed api)) := by
  unfold closeEntry
  rw [h]
  rcases close with _ | _ | _ <;> rfl

theorem Mirrors.closeEntry (h : Mirrors pool) {key : EnvKey} {api : Agent}
    (hapi : pool.entries.get? key = some api) (close : Option Failure) :
    Mirrors (closeEntry close key pool).2 := by
  have hopen := (h.get?_entries key api).mp hapi
  rw [closeEntry_of_get? hapi]
  refine ⟨h.disciplined.onClosed hopen, fun k a => ?_⟩
  rw [record, Dict.get?_erase, openFor_concat_closed, ← h.get?_entries]
  by_cases hk : k = key
  · subst hk
    simp [hapi, eq_comm]
  · rw [if_neg hk]
    refine (and_iff_left_of_imp fun ha => ?_).symm
    rintro rfl
    exact hk (h.disciplined.key_unique ((h.get?_entries k a).mp ha).1 hopen.1)

theorem Tracks.closeEntry_spoiled (h : Tracks pool) {key : EnvKey} {api : Agent}
    (hapi : pool.entries.get? key = some api) (hspoiled : spoiled api ∈ pool.trace)
    (close : Option Failure) : Tracks (closeEntry close key pool).2 := by
  refine ⟨h.closeEntry hapi close, ?_, fun x hx => ?_⟩
  · rw [closeEntry_of_get? hapi]
    simpa [record] using h.fresh
  rw [closeEntry_of_get? hapi] at hx ⊢
  refine List.mem_append_left _ ?_
  rcases List.mem_append.mp hx with hx | hx
  · exact h.spoiled_of_closed x hx
  · rw [List.mem_singleton, LifeEvent.closed.injEq] at hx
    exact hx ▸ hspoiled

/-- The opening of an entry that is not there. -/
theorem Tracks.openEntry (h : Tracks pool) {key : EnvKey} (hkey : pool.entries.get? key = none)
    (outcome : OpenOutcome) : Tracks (openEntry outcome key pool).2 := by
  unfold WorkerAgentPool.openEntry
  cases outcome.create with
  | some e => exact h
  | none =>
      have hfresh : ∀ k, opened pool.created k ∉ pool.trace := fun k hk =>
        absurd (h.fresh _ k hk) (lt_irrefl _)
      have hfree : ∀ a, ¬ OpenFor pool.trace a key := fun a ha => by
        rw [← h.get?_entries, hkey] at ha
        cases ha
      have hunclosed : closed pool.created ∉ pool.trace := fun hclosed => by
        obtain ⟨k, hk⟩ := h.disciplined.exists_opened_of_closed hclosed
        exact hfresh k hk
      have hopened := h.disciplined.onOpened hfresh hfree
      have hcreated : ∀ a k, opened a k ∈ pool.trace ∨ (a = pool.created ∧ k = key) →
          a < pool.created + 1 := by
        rintro a k (hk | ⟨rfl, -⟩)
        · exact Nat.lt_succ_of_lt (h.fresh a k hk)
        · exact Nat.lt_succ_self _
      rcases reset_cases outcome.reset pool.created
          (record { pool with created := pool.created + 1 } (.opened pool.created key))
        with hreset | ⟨e, hreset⟩
      · simp only [hreset]
        refine ⟨⟨(hopened.onReady _).onUsed (isReady_concat_ready _ _), fun k a => ?_⟩, ?_, ?_⟩
        · simp only [record, openFor_concat_used, openFor_concat_ready, openFor_concat_opened,
            Dict.get?_set, ← h.get?_entries]
          by_cases hk : k = key
          · subst hk
            simp [hkey, hunclosed, eq_comm]
          · simp [hk]
        · intro a k hk
          simp only [record, List.mem_append, List.mem_singleton, opened.injEq, reduceCtorEq,
            or_false] at hk
          exact hcreated a k hk
        · intro a ha
          simp only [record, List.mem_append, List.mem_singleton, reduceCtorEq, or_false] at ha ⊢
          exact h.spoiled_of_closed a ha
      · simp only [hreset]
        have hopen : OpenFor (pool.trace ++ [opened pool.created key] ++ [spoiled pool.created])
            pool.created key := by
          rw [openFor_concat_spoiled, openFor_concat_opened]
          exact Or.inr ⟨rfl, rfl, hunclosed⟩
        refine ⟨⟨(hopened.onSpoiled _).onClosed hopen, fun k a => ?_⟩, ?_, ?_⟩
        · simp only [record, openFor_concat_closed, openFor_concat_spoiled, openFor_concat_opened,
            ← h.get?_entries]
          constructor
          · intro ha
            refine ⟨Or.inl ha, ?_⟩
            rintro rfl
            exact hfresh k ((h.get?_entries k _).mp ha).1
          · rintro ⟨ha | ⟨rfl, -⟩, hne⟩
            · exact ha
            · exact absurd rfl hne
        · intro a k hk
          simp only [record, List.mem_append, List.mem_singleton, opened.injEq, reduceCtorEq,
            or_false] at hk
          exact hcreated a k hk
        · intro a ha
          simp only [record, List.mem_append, List.mem_singleton, reduceCtorEq, or_false,
            closed.injEq, spoiled.injEq] at ha ⊢
          exact ha.imp_left (h.spoiled_of_closed a)

theorem prefix_openEntry (outcome : OpenOutcome) (key : EnvKey) (pool : WorkerAgentPool) :
    pool.trace <+: (WorkerAgentPool.openEntry outcome key pool).2.trace := by
  unfold WorkerAgentPool.openEntry
  cases outcome.create with
  | some e => exact List.prefix_refl _
  | none =>
      rcases reset_cases outcome.reset pool.created
          (record { pool with created := pool.created + 1 } (.opened pool.created key))
        with hreset | ⟨e, hreset⟩
      · simp only [hreset]
        simp only [record, List.append_assoc]
        exact List.prefix_append _ _
      · simp only [hreset]
        simp only [record, List.append_assoc]
        exact List.prefix_append _ _

theorem openEntry_eq_ok {outcome : OpenOutcome} {key : EnvKey} {api : Agent}
    (h : (WorkerAgentPool.openEntry outcome key pool).1 = .ok api) :
    (WorkerAgentPool.openEntry outcome key pool).2.entries.get? key = some api ∧
      ∃ before, (WorkerAgentPool.openEntry outcome key pool).2.trace = before ++ [used api] ∧
        IsReady before api := by
  unfold WorkerAgentPool.openEntry at h ⊢
  cases hcreate : outcome.create with
  | some e => simp [hcreate] at h
  | none =>
      rcases reset_cases outcome.reset pool.created
          (record { pool with created := pool.created + 1 } (.opened pool.created key))
        with hreset | ⟨e, hreset⟩
      · simp only [hcreate, hreset, Except.ok.injEq] at h ⊢
        subst h
        exact ⟨Dict.get?_set_self _ _ _, _, rfl, isReady_concat_ready _ _⟩
      · simp [hcreate, hreset] at h

/-- What a call of `acquire` can do. -/
theorem acquire_cases (outcome : AcquireOutcome) (agentEnv : Dict Str Str)
    (pool : WorkerAgentPool) :
    (pool.entries.get? (agentEnvKey agentEnv) = none ∧ acquire outcome agentEnv pool =
      WorkerAgentPool.openEntry outcome.opening (agentEnvKey agentEnv) pool) ∨
    ∃ api, pool.entries.get? (agentEnvKey agentEnv) = some api ∧
      ((∃ e, acquire outcome agentEnv pool = (.error e, pool)) ∨
        acquire outcome agentEnv pool =
          (.ok api, (pool.record (.ready api)).record (.used api)) ∨
        (∃ e, acquire outcome agentEnv pool = (.error e, pool.record (.spoiled api))) ∨
        (∃ e, acquire outcome agentEnv pool = (.error e,
          (closeEntry outcome.close (agentEnvKey agentEnv) (pool.record (.spoiled api))).2)) ∨
        acquire outcome agentEnv pool =
          WorkerAgentPool.openEntry outcome.opening (agentEnvKey agentEnv)
            (closeEntry outcome.close (agentEnvKey agentEnv) (pool.record (.spoiled api))).2) := by
  unfold acquire
  cases hapi : pool.entries.get? (agentEnvKey agentEnv) with
  | none => exact Or.inl ⟨rfl, by simp only [hapi]⟩
  | some api =>
      refine Or.inr ⟨api, rfl, ?_⟩
      simp only [hapi]
      cases outcome.rebind with
      | some e => exact Or.inl ⟨e, rfl⟩
      | none =>
          refine Or.inr ?_
          rcases reset_cases outcome.reset api pool with hreset | ⟨e, hreset⟩
          · exact Or.inl (by simp only [hreset])
          · refine Or.inr ?_
            cases e with
            | baseException => exact Or.inl ⟨_, by simp only [hreset]; rfl⟩
            | exception =>
                refine Or.inr ?_
                simp only [hreset]
                rcases closeEntry outcome.close (agentEnvKey agentEnv)
                  (pool.record (.spoiled api)) with ⟨_ | e, closedPool⟩
                · exact Or.inr rfl
                · exact Or.inl ⟨e, rfl⟩

theorem Tracks.dropped (h : Tracks pool) {key : EnvKey} {api : Agent}
    (hapi : pool.entries.get? key = some api) (close : Option Failure) :
    Tracks (closeEntry close key (pool.record (.spoiled api))).2 ∧
      (closeEntry close key (pool.record (.spoiled api))).2.entries.get? key = none ∧
      pool.trace <+: (closeEntry close key (pool.record (.spoiled api))).2.trace := by
  have hspoiled : (pool.record (.spoiled api)).entries.get? key = some api := hapi
  refine ⟨(h.record_spoiled api).closeEntry_spoiled hspoiled (by simp [record]) close, ?_, ?_⟩
  · rw [closeEntry_of_get? hspoiled]
    exact (Dict.get?_erase _ _ _).trans (if_pos rfl)
  · rw [closeEntry_of_get? hspoiled]
    simp only [record, List.append_assoc]
    exact List.prefix_append _ _

theorem acquire_tracks (h : Tracks pool) (outcome : AcquireOutcome) (agentEnv : Dict Str Str) :
    Tracks (acquire outcome agentEnv pool).2 := by
  rcases acquire_cases outcome agentEnv pool with
    ⟨hkey, heq⟩ | ⟨api, hapi, ⟨e, heq⟩ | heq | ⟨e, heq⟩ | ⟨e, heq⟩ | heq⟩
  · rw [heq]
    exact h.openEntry hkey outcome.opening
  · rw [heq]
    exact h
  · rw [heq]
    exact (h.record_ready api).record_used (isReady_concat_ready _ _)
  · rw [heq]
    exact h.record_spoiled api
  · rw [heq]
    exact (h.dropped hapi outcome.close).1
  · obtain ⟨hdropped, hkey, _⟩ := h.dropped hapi outcome.close
    rw [heq]
    exact hdropped.openEntry hkey outcome.opening

theorem prefix_acquire (h : Tracks pool) (outcome : AcquireOutcome) (agentEnv : Dict Str Str) :
    pool.trace <+: (acquire outcome agentEnv pool).2.trace := by
  rcases acquire_cases outcome agentEnv pool with
    ⟨hkey, heq⟩ | ⟨api, hapi, ⟨e, heq⟩ | heq | ⟨e, heq⟩ | ⟨e, heq⟩ | heq⟩
  · rw [heq]
    exact prefix_openEntry _ _ _
  · rw [heq]
  · rw [heq]
    simp only [record, List.append_assoc]
    exact List.prefix_append _ _
  · rw [heq]
    exact List.prefix_append _ _
  · rw [heq]
    exact (h.dropped hapi outcome.close).2.2
  · rw [heq]
    exact (h.dropped hapi outcome.close).2.2.trans (prefix_openEntry _ _ _)

/-- An agent that is handed out is the one open for the environment, and ready. -/
theorem acquire_eq_ok {outcome : AcquireOutcome} {agentEnv : Dict Str Str} {api : Agent}
    (h : (acquire outcome agentEnv pool).1 = .ok api) :
    (acquire outcome agentEnv pool).2.entries.get? (agentEnvKey agentEnv) = some api ∧
      ∃ before, (acquire outcome agentEnv pool).2.trace = before ++ [used api] ∧
        IsReady before api := by
  rcases acquire_cases outcome agentEnv pool with
    ⟨hkey, heq⟩ | ⟨api', hapi, ⟨e, heq⟩ | heq | ⟨e, heq⟩ | ⟨e, heq⟩ | heq⟩
  · rw [heq] at h ⊢
    exact openEntry_eq_ok h
  · simp [heq] at h
  · rw [heq] at h ⊢
    rw [Except.ok.injEq] at h
    subst h
    exact ⟨hapi, _, rfl, isReady_concat_ready _ _⟩
  · simp [heq] at h
  · simp [heq] at h
  · rw [heq] at h ⊢
    exact openEntry_eq_ok h

theorem acquireAll_tracks :
    ∀ {pool : WorkerAgentPool}, Tracks pool →
      ∀ acquires : List (AcquireOutcome × Dict Str Str), Tracks (pool.acquireAll acquires)
  | _, h, [] => h
  | pool, h, p :: acquires => by
      have hrest : Tracks ((acquire p.1 p.2 pool).2.acquireAll acquires) :=
        acquireAll_tracks (acquire_tracks h p.1 p.2) acquires
      exact hrest

theorem prefix_acquireAll :
    ∀ {pool : WorkerAgentPool}, Tracks pool →
      ∀ acquires : List (AcquireOutcome × Dict Str Str),
        pool.trace <+: (pool.acquireAll acquires).trace
  | _, _, [] => List.prefix_refl _
  | pool, h, p :: acquires => by
      have hrest : (acquire p.1 p.2 pool).2.trace <+:
          ((acquire p.1 p.2 pool).2.acquireAll acquires).trace :=
        prefix_acquireAll (acquire_tracks h p.1 p.2) acquires
      exact (prefix_acquire h p.1 p.2).trans hrest

end Steps

section Exit

variable {closing : EnvKey → Option Failure}

/-- The keys that the loop of `__exit__` comes to. -/
def reached (closing : EnvKey → Option Failure) : List EnvKey → List EnvKey
  | [] => []
  | key :: keys =>
      if closing key = some .baseException then [key] else key :: reached closing keys

theorem forall_mem_reached_iff :
    ∀ {keys : List EnvKey}, keys.Nodup →
      ((∀ key ∈ keys, key ∈ reached closing keys) ↔
        ∀ key ∈ keys.dropLast, closing key ≠ some .baseException)
  | [], _ => by simp
  | [key], _ => by
      unfold reached
      split_ifs <;> simp
  | key :: next :: keys, hnodup => by
      rw [List.nodup_cons] at hnodup
      have ih := forall_mem_reached_iff hnodup.2
      have hdrop : (∀ x ∈ (key :: next :: keys).dropLast, closing x ≠ some .baseException) ↔
          closing key ≠ some .baseException ∧ ∀ x ∈ next :: keys, x ∈ reached closing (next :: keys) := by
        rw [List.dropLast_cons_cons, List.forall_mem_cons, ← ih]
      rw [hdrop, reached]
      by_cases hkey : closing key = some .baseException
      · rw [if_pos hkey]
        refine iff_of_false (fun h => ?_) (fun h => h.1 hkey)
        have hnext := h next (by simp)
        rw [List.mem_singleton] at hnext
        exact hnodup.1 (hnext ▸ List.mem_cons_self)
      · rw [if_neg hkey, List.forall_mem_cons]
        constructor
        · rintro ⟨-, h⟩
          refine ⟨hkey, fun x hx => ?_⟩
          rcases List.mem_cons.mp (h x hx) with rfl | hx'
          · exact absurd hx hnodup.1
          · exact hx'
        · rintro ⟨-, h⟩
          exact ⟨List.mem_cons_self, fun x hx => List.mem_cons_of_mem _ (h x hx)⟩

/-- What the loop of `__exit__` closes. -/
theorem closeEntries_spec :
    ∀ {keys : List EnvKey} {pool : WorkerAgentPool}, Mirrors pool → keys.Nodup →
      (∀ key ∈ keys, key ∈ pool.entries.keys) →
      Mirrors (closeEntries closing keys pool).2 ∧
        (∀ key, (closeEntries closing keys pool).2.entries.get? key =
          if key ∈ reached closing keys then none else pool.entries.get? key) ∧
        pool.trace <+: (closeEntries closing keys pool).2.trace ∧
        ∀ api key, opened api key ∈ (closeEntries closing keys pool).2.trace ↔
          opened api key ∈ pool.trace
  | [], pool, h, _, _ => ⟨h, by simp [closeEntries, reached], List.prefix_refl _, fun _ _ => Iff.rfl⟩
  | key :: keys, pool, h, hnodup, hkeys => by
      rw [List.nodup_cons] at hnodup
      rw [List.forall_mem_cons] at hkeys
      obtain ⟨api, hapi⟩ := Option.isSome_iff_exists.mp ((Dict.get?_isSome_iff _ _).mpr hkeys.1)
      have hmirrors := h.closeEntry hapi (closing key)
      have hget : ∀ x, (closeEntry (closing key) key pool).2.entries.get? x =
          if x = key then none else pool.entries.get? x := by
        rw [closeEntry_of_get? hapi]
        exact Dict.get?_erase _ _
      have hprefix : pool.trace <+: (closeEntry (closing key) key pool).2.trace := by
        rw [closeEntry_of_get? hapi]
        exact List.prefix_append _ _
      have hopened : ∀ a k, opened a k ∈ (closeEntry (closing key) key pool).2.trace ↔
          opened a k ∈ pool.trace := by
        rw [closeEntry_of_get? hapi]
        simp [record]
      have hfirst : (closeEntry (closing key) key pool).1 =
          if closing key = some .baseException then some .baseException else none := by
        rw [closeEntry_of_get? hapi]
      unfold closeEntries reached
      by_cases hbase : closing key = some .baseException
      · rw [if_pos hbase] at hfirst ⊢
        split
        · rename_i e closedPool heq
          rw [heq] at hmirrors hget hprefix hopened
          exact ⟨hmirrors, by simpa using hget, hprefix, hopened⟩
        · rename_i closedPool heq
          rw [heq] at hfirst
          cases hfirst
      · rw [if_neg hbase] at hfirst ⊢
        split
        · rename_i e closedPool heq
          rw [heq] at hfirst
          cases hfirst
        · rename_i closedPool heq
          rw [heq] at hmirrors hget hprefix hopened
          have hkeys' : ∀ k ∈ keys, k ∈ closedPool.entries.keys := by
            intro k hk
            have hne : k ≠ key := by
              rintro rfl
              exact hnodup.1 hk
            rw [← Dict.get?_isSome_iff, hget, if_neg hne, Dict.get?_isSome_iff]
            exact hkeys.2 k hk
          obtain ⟨hm, hg, hp, ho⟩ := closeEntries_spec hmirrors hnodup.2 hkeys'
          refine ⟨hm, fun x => ?_, hprefix.trans hp, fun a k => (ho a k).trans (hopened a k)⟩
          rw [hg, hget]
          by_cases hx : x = key
          · simp [hx]
          · simp [hx]

end Exit

section Session

/-- What happened to the agents of a session, its exit included. -/
def sessionTrace (acquires : List (AcquireOutcome × Dict Str Str))
    (closing : EnvKey → Option Failure) : List Event :=
  (exit closing (new.acquireAll acquires)).2.trace

/-- What a session guarantees. -/
structure SessionInvariant (acquires : List (AcquireOutcome × Dict Str Str))
    (closing : EnvKey → Option Failure) : Prop where
  /-- At any time at most one agent is open for a key. -/
  one_open : ∀ before, before <+: sessionTrace acquires closing → ∀ key api api',
    OpenFor before api key → OpenFor before api' key → api = api'
  closed_once : ∀ api key, opened api key ∈ sessionTrace acquires closing →
    (sessionTrace acquires closing).count (closed api) = 1
  /-- What is handed out was reset with success after its last use. -/
  handed_out : ∀ xs outcome agentEnv ys, acquires = xs ++ (outcome, agentEnv) :: ys →
    ∀ api, (acquire outcome agentEnv (new.acquireAll xs)).1 = .ok api →
      ∃ before, (acquire outcome agentEnv (new.acquireAll xs)).2.trace = before ++ [used api] ∧
        IsReady before api
  /-- Environments equal up to the order of their items share an agent until its reset fails. -/
  shared : ∀ xs outcome agentEnv ys outcome' agentEnv' zs,
    acquires = xs ++ (outcome, agentEnv) :: (ys ++ (outcome', agentEnv') :: zs) →
    agentEnv.items.Perm agentEnv'.items → ∀ api api',
    (acquire outcome agentEnv (new.acquireAll xs)).1 = .ok api →
    (acquire outcome' agentEnv' (new.acquireAll (xs ++ (outcome, agentEnv) :: ys))).1 = .ok api' →
      api' = api ∨ spoiled api ∈
        (acquire outcome' agentEnv' (new.acquireAll (xs ++ (outcome, agentEnv) :: ys))).2.trace

theorem acquireAll_append (pool : WorkerAgentPool) (xs ys : List (AcquireOutcome × Dict Str Str)) :
    pool.acquireAll (xs ++ ys) = (pool.acquireAll xs).acquireAll ys :=
  List.foldl_append

theorem shared_of_tracks {outcome outcome' : AcquireOutcome} {agentEnv agentEnv' : Dict Str Str}
    (hperm : agentEnv.items.Perm agentEnv'.items) {pool : WorkerAgentPool} (h : Tracks pool)
    (ys : List (AcquireOutcome × Dict Str Str)) {api api' : Agent}
    (hapi : (acquire outcome agentEnv pool).1 = .ok api)
    (hapi' : (acquire outcome' agentEnv'
      ((acquire outcome agentEnv pool).2.acquireAll ys)).1 = .ok api') :
    api' = api ∨ spoiled api ∈ (acquire outcome' agentEnv'
      ((acquire outcome agentEnv pool).2.acquireAll ys)).2.trace := by
  have hfirst := acquire_tracks h outcome agentEnv
  have hlast := acquire_tracks (acquireAll_tracks hfirst ys) outcome' agentEnv'
  have hopen := (hfirst.get?_entries _ _).mp (acquire_eq_ok hapi).1
  have hopen' := (hlast.get?_entries _ _).mp (acquire_eq_ok hapi').1
  rw [← agentEnvKey_eq_iff.mpr hperm] at hopen'
  have hprefix := (prefix_acquireAll hfirst ys).trans
    (prefix_acquire (acquireAll_tracks hfirst ys) outcome' agentEnv')
  by_cases hclosed : closed api ∈ (acquire outcome' agentEnv'
      ((acquire outcome agentEnv pool).2.acquireAll ys)).2.trace
  · exact Or.inr (hlast.spoiled_of_closed api hclosed)
  · exact Or.inl (hlast.disciplined.eq_of_openFor hopen' ⟨List.IsPrefix.subset hprefix hopen.1, hclosed⟩)

theorem exit_spec (acquires : List (AcquireOutcome × Dict Str Str))
    (closing : EnvKey → Option Failure) :
    Mirrors (exit closing (new.acquireAll acquires)).2 ∧
      (∀ key, (exit closing (new.acquireAll acquires)).2.entries.get? key =
        if key ∈ reached closing (new.acquireAll acquires).entries.keys then none
        else (new.acquireAll acquires).entries.get? key) ∧
      (new.acquireAll acquires).trace <+: (exit closing (new.acquireAll acquires)).2.trace ∧
      ∀ api key, opened api key ∈ (exit closing (new.acquireAll acquires)).2.trace ↔
        opened api key ∈ (new.acquireAll acquires).trace :=
  closeEntries_spec (acquireAll_tracks tracks_new acquires).toMirrors (Dict.nodup _) fun _ h => h

/-- Every agent is closed if and only if the loop of `__exit__` comes to every key. -/
theorem closed_once_iff (acquires : List (AcquireOutcome × Dict Str Str))
    (closing : EnvKey → Option Failure) :
    (∀ api key, opened api key ∈ sessionTrace acquires closing →
      (sessionTrace acquires closing).count (closed api) = 1) ↔
    ∀ key ∈ (new.acquireAll acquires).entries.keys,
      key ∈ reached closing (new.acquireAll acquires).entries.keys := by
  obtain ⟨hmirrors, hget, hprefix, hopened⟩ := exit_spec acquires closing
  constructor
  · intro h key hkey
    by_contra hunreached
    obtain ⟨api, hapi⟩ := Option.isSome_iff_exists.mp ((Dict.get?_isSome_iff _ _).mpr hkey)
    have hopen : OpenFor (sessionTrace acquires closing) api key := by
      rw [sessionTrace, ← hmirrors.get?_entries, hget, if_neg hunreached, hapi]
    have hcount := h api key hopen.1
    rw [List.count_eq_zero.mpr hopen.2] at hcount
    cases hcount
  · intro h api key hapi
    refine le_antisymm (hmirrors.disciplined.count_closed_le_one api) ?_
    refine List.one_le_count_iff.mpr ?_
    by_contra hunclosed
    have hsome := (hmirrors.get?_entries key api).mpr ⟨hapi, hunclosed⟩
    rw [hget] at hsome
    split_ifs at hsome with hreached
    refine hreached (h key ?_)
    exact (Dict.get?_isSome_iff _ _).mp (by rw [hsome]; rfl)

/-- A session keeps its guarantees if and only if, during its exit, only the
closing of the last entry raises what is not an `Exception`. -/
theorem workerAgentPool_invariant (acquires : List (AcquireOutcome × Dict Str Str))
    (closing : EnvKey → Option Failure) :
    SessionInvariant acquires closing ↔
      ∀ key ∈ (new.acquireAll acquires).entries.keys.dropLast,
        closing key ≠ some .baseException := by
  have hnodup : (new.acquireAll acquires).entries.keys.Nodup := Dict.nodup _
  rw [← forall_mem_reached_iff hnodup, ← closed_once_iff]
  refine ⟨SessionInvariant.closed_once, fun h => ⟨?_, h, ?_, ?_⟩⟩
  · intro before hbefore key api api' hopen hopen'
    exact ((exit_spec acquires closing).1.disciplined.of_prefix hbefore).eq_of_openFor hopen hopen'
  · intro xs outcome agentEnv ys _ api hapi
    exact (acquire_eq_ok hapi).2
  · rintro xs outcome agentEnv ys outcome' agentEnv' zs - hperm api api' hapi hapi'
    rw [acquireAll_append] at hapi' ⊢
    exact shared_of_tracks hperm (acquireAll_tracks tracks_new xs) ys hapi hapi'

/-- What raises nothing. -/
def quiet : AcquireOutcome := ⟨none, ⟨none, none⟩, none, ⟨none, ⟨none, none⟩, none⟩⟩

/-- The closing of the first agent is interrupted, and the second stays open. -/
theorem sessionInvariant_interrupted :
    ¬ SessionInvariant [(quiet, .empty), (quiet, ⟨[("DD_ENV", "prod")], by decide⟩)]
      (fun _ => some .baseException) := by
  intro h
  have hcount := h.closed_once 1 [("DD_ENV", "prod")] (by decide +kernel)
  exact absurd hcount (by decide +kernel)

end Session

end WorkerAgentPool

end DockerFixtures
end SystemTests
