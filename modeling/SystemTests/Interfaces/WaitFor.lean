import SystemTests.Foundation.Run

/-!
# Waiting for a message (`ProxyBasedInterfaceValidator`, `utils/interfaces/_core.py`)

Two threads share an interface that is not in replay mode.  The thread of the
watchdog appends a message under the lock; after that it reads the wait function,
reads it again to call it, evaluates it on the message, and sets the event.
The thread of the tests scans the data, clears the event and registers its
function under the lock; after that it waits, and deregisters.

What a thread does under the lock with data that only the lock guards is one
step.  The event and the wait function are read and written outside of the lock
too, so that each access to them is a step of its own.

**Results.**
* `step_inv`, `inv_of_run`: what holds in every state of a run.
* `waitFor_correct`: a wait returns `True` if and only if its own function is true
  on a message that was ingested, provided that every step is timely.
* `waitFor_reports_nothing`: a run in which it is not.
-/

namespace SystemTests
namespace Interfaces

open Foundation

variable {M : Type}

/-- Where the thread of the watchdog is in `ingest_file`. -/
inductive Ingestion (M : Type) where
  | idle
  /-- The message is in the data, the lock is released. -/
  | appended (data : M)
  /-- The wait function was not `None`. -/
  | checked (data : M)
  /-- The wait function was read again, to be called. -/
  | called (data : M) (function : M → Bool)
  /-- The wait function returned `True`. -/
  | setting (data : M) (function : M → Bool)
  /-- `None` was called: the thread of the watchdog ends. -/
  | stopped

/-- Where the thread of the tests is in `wait_for`. -/
inductive Waiter (M : Type) where
  | idle
  /-- No message satisfies the function; the lock is held. -/
  | clearing (function : M → Bool)
  /-- The event is cleared; the lock is held. -/
  | registering (function : M → Bool)
  | waiting (function : M → Bool)
  | leaving (function : M → Bool)

structure State (M : Type) where
  dataList : List M
  waitForEvent : Bool
  waitForFunction : Option (M → Bool)
  ingestion : Ingestion M
  waiter : Waiter M

inductive Action (M : Type) where
  | append (data : M)
  | check
  | call
  | evaluate
  | setEvent
  | scan (function : M → Bool)
  | clear
  | register
  | wake
  | timeout
  | deregister

def State.init : State M := ⟨[], false, none, .idle, .idle⟩

def step (s : State M) : Action M → Option (State M)
  | .append data =>
      match s.ingestion, s.waiter with
      | .idle, .clearing _ => none
      | .idle, .registering _ => none
      | .idle, _ => some { s with dataList := s.dataList ++ [data], ingestion := .appended data }
      | _, _ => none
  | .check =>
      match s.ingestion, s.waitForFunction with
      | .appended data, some _ => some { s with ingestion := .checked data }
      | .appended _, none => some { s with ingestion := .idle }
      | _, _ => none
  | .call =>
      match s.ingestion, s.waitForFunction with
      | .checked data, some function => some { s with ingestion := .called data function }
      | .checked _, none => some { s with ingestion := .stopped }
      | _, _ => none
  | .evaluate =>
      match s.ingestion with
      | .called data function =>
          if function data then some { s with ingestion := .setting data function }
          else some { s with ingestion := .idle }
      | _ => none
  | .setEvent =>
      match s.ingestion with
      | .setting _ _ => some { s with waitForEvent := true, ingestion := .idle }
      | _ => none
  | .scan function =>
      match s.waiter with
      | .idle =>
          if s.dataList.any function then some s else some { s with waiter := .clearing function }
      | _ => none
  | .clear =>
      match s.waiter with
      | .clearing function => some { s with waitForEvent := false, waiter := .registering function }
      | _ => none
  | .register =>
      match s.waiter with
      | .registering function =>
          some { s with waitForFunction := some function, waiter := .waiting function }
      | _ => none
  | .wake =>
      match s.waiter with
      | .waiting function => if s.waitForEvent then some { s with waiter := .leaving function } else none
      | _ => none
  | .timeout =>
      match s.waiter with
      | .waiting function => if s.waitForEvent then none else some { s with waiter := .leaving function }
      | _ => none
  | .deregister =>
      match s.waiter with
      | .leaving _ => some { s with waitForFunction := none, waiter := .idle }
      | _ => none

/-- The function of a wait and its return value, if the action decides it. -/
def answer (s : State M) : Action M → Option ((M → Bool) × Bool)
  | .scan function => if s.dataList.any function then some (function, true) else none
  | .wake =>
      match s.waiter with
      | .waiting function => some (function, true)
      | _ => none
  | .timeout =>
      match s.waiter with
      | .waiting function => some (function, false)
      | _ => none
  | _ => none

/-- The message that is ingested, once it is in the data. -/
def Ingestion.message : Ingestion M → Option M
  | .appended data => some data
  | .checked data => some data
  | .called data _ => some data
  | .setting data _ => some data
  | _ => none

/-- The event will be set for the wait function that was read. -/
def Ingestion.willSet : Ingestion M → Bool
  | .called data function => function data
  | .setting _ _ => true
  | _ => false

/-- The event is not cleared while it is about to be set for an earlier function, and
no wait times out while a message that satisfies its function is ingested. -/
def Timely (s : State M) : Action M → Prop
  | .clear => s.ingestion.willSet = false
  | .timeout => ∀ function data, s.waiter = .waiting function →
      s.ingestion.message = some data → function data = false
  | _ => True

/-- A wait returns `True` if and only if its function is true on an ingested message. -/
def Correct (s : State M) (action : Action M) : Prop :=
  ∀ function result, answer s action = some (function, result) →
    (result = true ↔ ∃ data ∈ s.dataList, function data = true)

/-- The ingestion of the message will read or has read the function. -/
def Ingestion.Pending (ingestion : Ingestion M) (data : M) (function : M → Bool) : Prop :=
  ingestion = .appended data ∨ ingestion = .checked data ∨ ingestion = .called data function ∨
    ingestion = .setting data function

/-- What holds of a wait, by where its thread is. -/
def WaiterInv (s : State M) : Waiter M → Prop
  | .idle => s.waitForFunction = none
  | .clearing function => s.waitForFunction = none ∧ ∀ data ∈ s.dataList, function data = false
  | .registering function => s.waitForFunction = none ∧ s.waitForEvent = false ∧
      s.ingestion.willSet = false ∧ ∀ data ∈ s.dataList, function data = false
  | .waiting function => s.waitForFunction = some function ∧
      (s.ingestion.willSet = true → ∃ data ∈ s.dataList, function data = true) ∧
      (s.waitForEvent = true → ∃ data ∈ s.dataList, function data = true) ∧
      (s.waitForEvent = false → ∀ data ∈ s.dataList, function data = true →
        s.ingestion.Pending data function)
  | .leaving function => s.waitForFunction = some function

structure Inv (s : State M) : Prop where
  message_mem : ∀ data, s.ingestion.message = some data → data ∈ s.dataList
  waiter : WaiterInv s s.waiter

theorem inv_init : Inv (State.init : State M) :=
  ⟨by simp [State.init, Ingestion.message], rfl⟩

section Steps

variable {s s' : State M}

theorem step_append {data : M} (hi : Inv s) (h : step s (.append data) = some s') : Inv s' := by
  obtain ⟨dataList, event, function, ingestion, waiter⟩ := s
  cases ingestion with
  | idle =>
      have hw := hi.waiter
      cases waiter with
      | clearing f => cases h
      | registering f => cases h
      | idle =>
          cases h
          exact ⟨by simp [Ingestion.message], hw⟩
      | leaving f =>
          cases h
          exact ⟨by simp [Ingestion.message], hw⟩
      | waiting f =>
          cases h
          obtain ⟨hf, -, htrue, hfalse⟩ := hw
          refine ⟨by simp [Ingestion.message], hf, by simp [Ingestion.willSet], ?_, ?_⟩
          · intro he
            obtain ⟨x, hx, hfx⟩ := htrue he
            exact ⟨x, List.mem_append_left _ hx, hfx⟩
          · intro he x hx hfx
            rcases List.mem_append.mp hx with hx | hx
            · have hnone := hfalse he x hx hfx
              simp [Ingestion.Pending] at hnone
            · rw [List.mem_singleton] at hx
              exact Or.inl (by rw [hx])
  | appended x => cases h
  | checked x => cases h
  | called x f => cases h
  | setting x f => cases h
  | stopped => cases h

/-- A step of the ingestion that leaves the data, the event and the function alone. -/
theorem Inv.ingest (hi : Inv s) {ingestion : Ingestion M}
    (hmessage : ∀ data, ingestion.message = some data → s.ingestion.message = some data)
    (hwillSet : ingestion.willSet = true → s.ingestion.willSet = true ∨
      ∃ data ∈ s.dataList, ∃ function, s.waitForFunction = some function ∧ function data = true)
    (hpending : ∀ data function, s.waitForFunction = some function → function data = true →
      s.ingestion.Pending data function → ingestion.Pending data function) :
    Inv { s with ingestion := ingestion } := by
  refine ⟨fun data hdata => hi.message_mem data (hmessage data hdata), ?_⟩
  have hw := hi.waiter
  revert hw
  cases s.waiter with
  | idle => exact id
  | clearing f => exact id
  | leaving f => exact id
  | registering f =>
      rintro ⟨hnone, he, hset, hdata⟩
      refine ⟨hnone, he, ?_, hdata⟩
      by_contra hnew
      rcases hwillSet (by simpa using hnew) with hold | ⟨data, -, f', hf', -⟩
      · rw [hset] at hold
        cases hold
      · rw [hnone] at hf'
        cases hf'
  | waiting f =>
      rintro ⟨hf, hset, htrue, hfalse⟩
      refine ⟨hf, fun hnew => ?_, htrue, fun he x hx hfx => ?_⟩
      · rcases hwillSet hnew with hold | ⟨data, hdata, f', hf', hfd⟩
        · exact hset hold
        · obtain rfl : f = f' := Option.some.inj (hf.symm.trans hf')
          exact ⟨data, hdata, hfd⟩
      · exact hpending x f hf hfx (hfalse he x hx hfx)

theorem step_check (hi : Inv s) (h : step s .check = some s') : Inv s' := by
  simp only [step] at h
  split at h
  · rename_i data f hdata hf
    cases h
    refine hi.ingest ?_ ?_ ?_
    · rw [hdata]
      exact fun _ => id
    · intro hset
      cases hset
    · rw [hdata]
      rintro x g - - (hx | hx | hx | hx) <;> cases hx
      exact Or.inr (Or.inl rfl)
  · rename_i data hdata hf
    cases h
    refine hi.ingest ?_ ?_ ?_
    · intro x hx
      cases hx
    · intro hset
      cases hset
    · intro x g hg
      rw [hf] at hg
      cases hg
  · cases h

theorem step_call (hi : Inv s) (h : step s .call = some s') : Inv s' := by
  simp only [step] at h
  split at h
  · rename_i data f hdata hf
    cases h
    have hmem := hi.message_mem data (by rw [hdata]; rfl)
    refine hi.ingest ?_ ?_ ?_
    · rw [hdata]
      exact fun _ => id
    · intro hset
      exact Or.inr ⟨data, hmem, f, hf, hset⟩
    · rw [hdata]
      rintro x g hg - (hx | hx | hx | hx) <;> cases hx
      obtain rfl : f = g := Option.some.inj (hf.symm.trans hg)
      exact Or.inr (Or.inr (Or.inl rfl))
  · rename_i data hdata hf
    cases h
    refine hi.ingest ?_ ?_ ?_
    · intro x hx
      cases hx
    · intro hset
      cases hset
    · intro x g hg
      rw [hf] at hg
      cases hg
  · cases h

theorem step_evaluate (hi : Inv s) (h : step s .evaluate = some s') : Inv s' := by
  simp only [step] at h
  split at h
  · rename_i data f hdata
    split_ifs at h with hfd
    · cases h
      refine hi.ingest ?_ ?_ ?_
      · rw [hdata]
        exact fun _ => id
      · intro _
        rw [hdata]
        exact Or.inl hfd
      · rw [hdata]
        rintro x g - - (hx | hx | hx | hx) <;> cases hx
        exact Or.inr (Or.inr (Or.inr rfl))
    · cases h
      refine hi.ingest ?_ ?_ ?_
      · intro x hx
        cases hx
      · intro hset
        cases hset
      · rw [hdata]
        rintro x g - hgx (hx | hx | hx | hx) <;> cases hx
        exact absurd hgx hfd
  · cases h

theorem step_setEvent (hi : Inv s) (h : step s .setEvent = some s') : Inv s' := by
  simp only [step] at h
  split at h
  · rename_i data f hdata
    cases h
    refine ⟨fun x hx => (by cases hx), ?_⟩
    have hw := hi.waiter
    have hset : s.ingestion.willSet = true := by rw [hdata]; rfl
    revert hw
    cases s.waiter with
    | idle => exact id
    | clearing f => exact id
    | leaving f => exact id
    | registering f =>
        rintro ⟨-, -, hunset, -⟩
        rw [hset] at hunset
        cases hunset
    | waiting f =>
        rintro ⟨hf, hmatch, -, -⟩
        exact ⟨hf, fun _ => hmatch hset, fun _ => hmatch hset, fun he => by cases he⟩
  · cases h

theorem step_scan {function : M → Bool} (hi : Inv s) (h : step s (.scan function) = some s') :
    Inv s' := by
  simp only [step] at h
  split at h
  · rename_i hwaiter
    have hw := hi.waiter
    rw [hwaiter] at hw
    split_ifs at h with hany
    · cases h
      exact hi
    · cases h
      refine ⟨hi.message_mem, hw, fun data hdata => ?_⟩
      rw [List.any_eq_true] at hany
      by_contra htrue
      exact hany ⟨data, hdata, by simpa using htrue⟩
  · cases h

theorem step_clear (hi : Inv s) (htimely : Timely s .clear) (h : step s .clear = some s') :
    Inv s' := by
  simp only [step] at h
  split at h
  · rename_i f hwaiter
    have hw := hi.waiter
    rw [hwaiter] at hw
    cases h
    exact ⟨hi.message_mem, hw.1, rfl, htimely, hw.2⟩
  · cases h

theorem step_register (hi : Inv s) (h : step s .register = some s') : Inv s' := by
  simp only [step] at h
  split at h
  · rename_i f hwaiter
    have hw := hi.waiter
    rw [hwaiter] at hw
    obtain ⟨-, he, hset, hdata⟩ := hw
    cases h
    refine ⟨hi.message_mem, rfl, fun htrue => ?_, fun htrue => ?_, fun _ x hx hfx => ?_⟩
    · rw [hset] at htrue
      cases htrue
    · rw [he] at htrue
      cases htrue
    · rw [hdata x hx] at hfx
      cases hfx
  · cases h

theorem step_leave (hi : Inv s) (h : step s .wake = some s' ∨ step s .timeout = some s') :
    Inv s' := by
  simp only [step] at h
  split at h
  · rename_i f hwaiter
    have hw := hi.waiter
    rw [hwaiter] at hw
    split_ifs at h <;> rcases h with h | h <;> cases h
    · exact ⟨hi.message_mem, hw.1⟩
    · exact ⟨hi.message_mem, hw.1⟩
  · rcases h with h | h <;> cases h

theorem step_deregister (hi : Inv s) (h : step s .deregister = some s') : Inv s' := by
  simp only [step] at h
  split at h
  · cases h
    exact ⟨hi.message_mem, rfl⟩
  · cases h

theorem step_inv {action : Action M} (hi : Inv s) (htimely : Timely s action)
    (h : step s action = some s') : Inv s' := by
  cases action with
  | append data => exact step_append hi h
  | check => exact step_check hi h
  | call => exact step_call hi h
  | evaluate => exact step_evaluate hi h
  | setEvent => exact step_setEvent hi h
  | scan f => exact step_scan hi h
  | clear => exact step_clear hi htimely h
  | register => exact step_register hi h
  | wake => exact step_leave hi (Or.inl h)
  | timeout => exact step_leave hi (Or.inr h)
  | deregister => exact step_deregister hi h

theorem inv_of_run {actions : List (Action M)} (hrun : run step State.init actions = some s)
    (htimely : Along step Timely State.init actions) : Inv s :=
  run_invariant (fun _ _ _ hi ht h => step_inv hi ht h) inv_init htimely hrun

theorem correct_of_inv {action : Action M} (hi : Inv s) (htimely : Timely s action)
    (h : step s action = some s') : Correct s action := by
  intro f result hanswer
  have hw := hi.waiter
  cases action with
  | scan g =>
      simp only [answer] at hanswer
      split_ifs at hanswer with hany
      cases hanswer
      simpa using hany
  | wake =>
      simp only [answer] at hanswer
      simp only [step] at h
      split at hanswer
      · rename_i g hwaiter
        rw [hwaiter] at hw h
        cases hanswer
        simp only at h
        split_ifs at h with he
        exact iff_of_true rfl (hw.2.2.1 he)
      · cases hanswer
  | timeout =>
      simp only [answer] at hanswer
      simp only [step] at h
      split at hanswer
      · rename_i g hwaiter
        rw [hwaiter] at hw h
        cases hanswer
        simp only at h
        split_ifs at h with he
        refine iff_of_false (by simp) ?_
        rintro ⟨data, hdata, hfd⟩
        have hmessage : s.ingestion.message = some data := by
          rcases hw.2.2.2 (by simpa using he) data hdata hfd with hp | hp | hp | hp <;> rw [hp] <;> rfl
        rw [htimely f data hwaiter hmessage] at hfd
        cases hfd
      · cases hanswer
  | append data => cases hanswer
  | check => cases hanswer
  | call => cases hanswer
  | evaluate => cases hanswer
  | setEvent => cases hanswer
  | clear => cases hanswer
  | register => cases hanswer
  | deregister => cases hanswer

end Steps

/-- Waits that follow one another: in a run of timely steps every wait returns
`True` if and only if its own function is true on a message ingested by then. -/
theorem waitFor_correct {actions : List (Action M)} {action : Action M} {s s' : State M}
    (hrun : run step State.init actions = some s)
    (htimely : Along step Timely State.init (actions ++ [action]))
    (h : step s action = some s') : Correct s action := by
  obtain ⟨hactions, haction⟩ := (along_append hrun).mp htimely
  exact correct_of_inv (inv_of_run hrun hactions) haction.1 h

theorem waitFor_correct_woken :
    Correct (M := Nat) ⟨[2], true, some (· == 2), .idle, .waiting (· == 2)⟩ .wake := by
  have hrun : run step State.init [.scan (· == 2), .clear, .register, .append 2, .check, .call,
      .evaluate, .setEvent] =
        some (⟨[2], true, some (· == 2), .idle, .waiting (· == 2)⟩ : State Nat) := rfl
  exact waitFor_correct hrun
    (along_cons rfl trivial <| along_cons rfl rfl <| along_cons rfl trivial <|
      along_cons rfl trivial <| along_cons rfl trivial <| along_cons rfl trivial <|
      along_cons rfl trivial <| along_cons rfl trivial <| along_cons rfl trivial trivial) rfl

/-- A wait times out while a message is evaluated with its function; the next wait
is woken for that message, which its own function is false on. -/
theorem waitFor_reports_nothing :
    ∃ (actions : List (Action Nat)) (s s' : State Nat), run step State.init actions = some s ∧
      step s .wake = some s' ∧ ¬ Correct s .wake := by
  refine ⟨[.scan (· == 1), .clear, .register, .append 1, .check, .call, .evaluate, .timeout,
    .deregister, .scan (· == 2), .clear, .register, .setEvent], _, _, rfl, rfl, ?_⟩
  intro hcorrect
  have hanswer := (hcorrect (· == 2) true rfl).mp rfl
  revert hanswer
  decide

/-- A wait times out between the append of its message and the event. -/
theorem waitFor_misses_message :
    ∃ (actions : List (Action Nat)) (s s' : State Nat), run step State.init actions = some s ∧
      step s .timeout = some s' ∧ ¬ Correct s .timeout := by
  refine ⟨[.scan (· == 1), .clear, .register, .append 1], _, _, rfl, rfl, ?_⟩
  intro hcorrect
  have hanswer := (hcorrect (· == 1) false rfl).mpr ⟨1, by simp, rfl⟩
  cases hanswer

end Interfaces
end SystemTests
