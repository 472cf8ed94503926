import SystemTests.Foundation.Exception

/-!
# Random choices

A computation that makes random choices reads them from a tape of numbers.  What it
does for every tape is what it does whatever is drawn.

`Returns m tape post` says that a computation returns for a tape, and that what it
returns has a property; `Always m post` says so for every tape.

**Results.**
* `Returns.bind`, `Always.bind`, `Always.ite`, `Always.imp`: rules for composed computations.
* `always_randrange`, `always_choice`, `always_choices`: a draw from something that
  is not empty returns one of its elements.
-/

namespace Foundation

open Text

abbrev Tape := Nat → Nat

abbrev Draw := StateT Tape (Except Raised)

namespace Draw

variable {α β : Type}

def next : Draw Nat := fun tape => .ok (tape 0, fun n => tape (n + 1))

/-- `random.randrange(start, stop)`, which is `random.randint(start, stop - 1)` -/
def randrange (start stop : Nat) : Draw Nat :=
  if stop ≤ start then throw (.valueError "empty range in randrange")
  else do
    let n ← next
    return start + n % (stop - start)

def pick (message : Str) (population : List α) : Draw α :=
  if h : population = [] then throw (.indexError message)
  else do
    let n ← next
    return population.get ⟨n % population.length,
      Nat.mod_lt n (List.length_pos_of_ne_nil h)⟩

/-- `random.choice` -/
def choice (population : List α) : Draw α := pick "Cannot choose from an empty sequence" population

/-- `[f() for _ in range(k)]` -/
def replicate (m : Draw α) : Nat → Draw (List α)
  | 0 => pure []
  | k + 1 => do
      let x ← m
      let xs ← replicate m k
      return x :: xs

/-- `random.choices` -/
def choices (population : List α) (k : Nat) : Draw (List α) :=
  replicate (pick "list index out of range" population) k

/-- For this tape the computation returns something with the property. -/
def Returns (m : Draw α) (tape : Tape) (post : α → Prop) : Prop :=
  ∃ a tape', m tape = .ok (a, tape') ∧ post a

/-- Whatever is drawn, the computation returns something with the property. -/
def Always (m : Draw α) (post : α → Prop) : Prop := ∀ tape, Returns m tape post

variable {m : Draw α} {post : α → Prop}

theorem always_pure {a : α} (h : post a) : Always (pure a) post :=
  fun tape => ⟨a, tape, rfl, h⟩

theorem Always.imp {post' : α → Prop} (h : Always m post) (himp : ∀ a, post a → post' a) :
    Always m post' := by
  intro tape
  obtain ⟨a, tape', hm, ha⟩ := h tape
  exact ⟨a, tape', hm, himp a ha⟩

theorem bind_apply {f : α → Draw β} {tape tape' : Tape} {a : α} (h : m tape = .ok (a, tape')) :
    (m >>= f) tape = f a tape' := by
  calc (m >>= f) tape = (m tape >>= fun p => f p.1 p.2) := rfl
    _ = f a tape' := by rw [h, Raised.ok_bind]

theorem bind_eq_ok {f : α → Draw β} {tape tape'' : Tape} {b : β} :
    (m >>= f) tape = .ok (b, tape'') ↔
      ∃ a tape', m tape = .ok (a, tape') ∧ f a tape' = .ok (b, tape'') := by
  have hbind : (m >>= f) tape = (m tape >>= fun p => f p.1 p.2) := rfl
  rw [hbind, Raised.bind_eq_ok, Prod.exists]

theorem Returns.bind {f : α → Draw β} {post' : β → Prop} {tape : Tape} (h : Returns m tape post)
    (hf : ∀ a, post a → Always (f a) post') : Returns (m >>= f) tape post' := by
  obtain ⟨a, tape', hm, ha⟩ := h
  obtain ⟨b, tape'', hfa, hb⟩ := hf a ha tape'
  exact ⟨b, tape'', (bind_apply hm).trans hfa, hb⟩

theorem Always.bind {f : α → Draw β} {post' : β → Prop} (h : Always m post)
    (hf : ∀ a, post a → Always (f a) post') : Always (m >>= f) post' :=
  fun tape => (h tape).bind hf

theorem Always.ite {c : Prop} [Decidable c] {m' : Draw α} (h : c → Always m post)
    (h' : ¬ c → Always m' post) : Always (if c then m else m') post := by
  split_ifs with hc
  · exact h hc
  · exact h' hc

theorem always_next : Always next fun _ => True :=
  fun tape => ⟨tape 0, fun n => tape (n + 1), rfl, trivial⟩

theorem always_randrange {start stop : Nat} (h : start < stop) :
    Always (randrange start stop) fun n => start ≤ n ∧ n < stop := by
  rw [randrange, if_neg (Nat.not_le.mpr h)]
  refine always_next.bind fun n _ => always_pure ?_
  have hlt := Nat.mod_lt n (Nat.sub_pos_of_lt h)
  omega

theorem always_pick {message : Str} {population : List α} (h : population ≠ []) :
    Always (pick message population) (· ∈ population) := by
  rw [pick, dif_neg h]
  exact always_next.bind fun n _ => always_pure (List.get_mem _ _)

theorem always_choice {population : List α} (h : population ≠ []) :
    Always (choice population) (· ∈ population) := always_pick h

theorem always_replicate (h : Always m post) :
    ∀ k, Always (replicate m k) fun xs => xs.length = k ∧ ∀ x ∈ xs, post x
  | 0 => always_pure ⟨rfl, by simp⟩
  | k + 1 => by
      refine h.bind fun x hx => (always_replicate h k).bind fun xs hxs => always_pure ?_
      exact ⟨by rw [List.length_cons, hxs.1], List.forall_mem_cons.mpr ⟨hx, hxs.2⟩⟩

theorem always_choices {population : List α} (h : population ≠ []) (k : Nat) :
    Always (choices population k) fun xs => xs.length = k ∧ ∀ x ∈ xs, x ∈ population :=
  always_replicate (always_pick h) k

end Draw
end Foundation
