import SystemTests.Foundation.Exception

/-!
# Programs that run commands

A program runs a command, goes on with what is answered, and ends with a result or an
exception.  Its environment may answer anything, also depending on all that happened before.

`Keeps allowed p history Q` says that every command of the program is allowed after what
happened so far, and that what holds when it returns is `Q`.

**Results.**
* `Keeps.bind`, `Keeps.attempt`, `Keeps.forEach`: rules for composed programs and loops.
* `Keeps.invariant`: what every allowed command keeps.
* `Keeps.exec`: what holds of a run in any environment.
* `Total.exec`: a run that catches what is raised returns.
-/

namespace Foundation

universe u v w

inductive Program (γ : Type u) (α : Type v) (β : Type w) where
  | done (result : Except Raised β)
  | call (command : γ) (next : α → Program γ α β)

namespace Program

variable {γ : Type u} {α : Type v} {β δ ι : Type w}

def bind : Program γ α β → (β → Program γ α δ) → Program γ α δ
  | .done (.ok b), f => f b
  | .done (.error e), _ => .done (.error e)
  | .call c next, f => .call c fun a => bind (next a) f

instance instMonad : Monad (Program γ α) where
  pure b := .done (.ok b)
  bind := bind

def raise (e : Raised) : Program γ α β := .done (.error e)

/-- A command and what is answered. -/
def ask {α : Type w} (c : γ) : Program γ α α := .call c fun a => .done (.ok a)

/-- `try: ... except Exception as exc: ...` -/
def attempt : Program γ α β → Program γ α (Except Raised β)
  | .done r => .done (.ok r)
  | .call c next => .call c fun a => attempt (next a)

/-- `for x in xs: ...`, with a value that the rounds change -/
def forEach (body : β → ι → Program γ α β) : List ι → β → Program γ α β
  | [], b => pure b
  | x :: xs, b => do forEach body xs (← body b x)

/-- What happened, with the last answer at the end. -/
abbrev History (γ : Type u) (α : Type v) := List (γ × α)

/-- A run in an environment, after what happened before. -/
def exec (answer : History γ α → γ → α) : Program γ α β → History γ α →
    History γ α × Except Raised β
  | .done r, history => (history, r)
  | .call c next, history =>
      exec answer (next (answer history c)) (history ++ [(c, answer history c)])

section Rules

variable {allowed : History γ α → γ → Prop} {Q : History γ α → β → Prop} {p : Program γ α β}
  {history : History γ α}

/-- Every command is allowed, and `Q` holds when the program returns. -/
def Keeps (allowed : History γ α → γ → Prop) : Program γ α β → History γ α →
    (History γ α → β → Prop) → Prop
  | .done (.ok b), history, Q => Q history b
  | .done (.error _), _, _ => True
  | .call c next, history, Q =>
      allowed history c ∧ ∀ a, Keeps allowed (next a) (history ++ [(c, a)]) Q

theorem Keeps.pure {b : β} (h : Q history b) :
    Keeps allowed (Pure.pure b : Program γ α β) history Q := h

theorem Keeps.done {r : Except Raised β} (h : ∀ b, r = .ok b → Q history b) :
    Keeps allowed (.done r) history Q := by
  cases r with
  | error e => trivial
  | ok b => exact h b rfl

theorem Keeps.raise (e : Raised) :
    Keeps allowed (Program.raise e : Program γ α β) history Q := trivial

theorem Keeps.ask {α : Type w} {allowed : History γ α → γ → Prop} {history : History γ α}
    {Q : History γ α → α → Prop} {c : γ} (hallowed : allowed history c)
    (h : ∀ a, Q (history ++ [(c, a)]) a) : Keeps allowed (Program.ask c) history Q :=
  ⟨hallowed, h⟩

theorem Keeps.imp {R : History γ α → β → Prop} (h : Keeps allowed p history Q)
    (himp : ∀ history b, Q history b → R history b) : Keeps allowed p history R := by
  induction p generalizing history with
  | done r =>
      cases r with
      | error e => trivial
      | ok b => exact himp history b h
  | call c next ih => exact ⟨h.1, fun a => ih a (h.2 a)⟩

/-- One program after another. -/
theorem Keeps.bind {f : β → Program γ α δ} {R : History γ α → δ → Prop}
    (h : Keeps allowed p history Q)
    (hf : ∀ history b, Q history b → Keeps allowed (f b) history R) :
    Keeps allowed (p >>= f) history R := by
  induction p generalizing history with
  | done r =>
      cases r with
      | error e => trivial
      | ok b => exact hf history b h
  | call c next ih => exact ⟨h.1, fun a => ih a (h.2 a)⟩

/-- A program whose exception is caught. -/
theorem Keeps.attempt {R : History γ α → Except Raised β → Prop}
    (h : Keeps allowed p history fun history b => R history (.ok b))
    (herror : ∀ history e, R history (.error e)) :
    Keeps allowed (attempt p) history R := by
  induction p generalizing history with
  | done r =>
      cases r with
      | error e => exact herror history e
      | ok b => exact h
  | call c next ih => exact ⟨h.1, fun a => ih a (h.2 a)⟩

/-- **A loop**: what one round keeps, all rounds keep. -/
theorem Keeps.forEach {body : β → ι → Program γ α β} {J : List ι → History γ α → β → Prop}
    {xs : List ι} {b : β}
    (hbody : ∀ passed x rest history b, xs = passed ++ x :: rest → J passed history b →
      Keeps allowed (body b x) history (J (passed ++ [x])))
    (h : J [] history b) : Keeps allowed (forEach body xs b) history (J xs) := by
  suffices hgo : ∀ rest passed history b, xs = passed ++ rest → J passed history b →
      Keeps allowed (Program.forEach body rest b) history (J xs) from hgo xs [] history b rfl h
  intro rest
  induction rest with
  | nil =>
      intro passed history b hxs hinv
      rw [List.append_nil] at hxs
      rw [hxs]
      exact Keeps.pure hinv
  | cons x rest ih =>
      intro passed history b hxs hinv
      refine (hbody passed x rest history b hxs hinv).bind fun history b hinv => ?_
      refine ih (passed ++ [x]) history b ?_ hinv
      rw [hxs, List.append_assoc]
      rfl

/-- What every allowed command keeps holds at the end. -/
theorem Keeps.invariant {I : History γ α → Prop}
    (hstep : ∀ history c a, I history → allowed history c → I (history ++ [(c, a)]))
    (hI : I history) (h : Keeps allowed p history Q) :
    Keeps allowed p history fun history b => I history ∧ Q history b := by
  induction p generalizing history with
  | done r =>
      cases r with
      | error e => trivial
      | ok b => exact ⟨hI, h⟩
  | call c next ih => exact ⟨h.1, fun a => ih a (hstep history c a hI h.1) (h.2 a)⟩

/-- What happened stays. -/
theorem Keeps.extends (h : Keeps allowed p history Q) :
    Keeps allowed p history fun history' b => history ⊆ history' ∧ Q history' b :=
  h.invariant (I := fun history' => history ⊆ history')
    (fun _ _ _ hsub _ => List.subset_append_of_subset_left _ hsub) (List.Subset.refl _)

/-- More may be allowed. -/
theorem Keeps.weaken {allowed' : History γ α → γ → Prop}
    (himp : ∀ history c, allowed history c → allowed' history c)
    (h : Keeps allowed p history Q) : Keeps allowed' p history Q := by
  induction p generalizing history with
  | done r =>
      cases r with
      | error e => trivial
      | ok b => exact h
  | call c next ih => exact ⟨himp history c h.1, fun a => ih a (h.2 a)⟩

/-- Every command that ran was allowed after what happened before it. -/
def Respects (allowed : History γ α → γ → Prop) (history : History γ α) : Prop :=
  ∀ before c a after, history = before ++ (c, a) :: after → allowed before c

theorem respects_nil : Respects allowed ([] : History γ α) := by
  intro before c a after h
  exact absurd h.symm (List.append_ne_nil_of_right_ne_nil _ (List.cons_ne_nil _ _))

theorem Respects.concat (h : Respects allowed history) {c : γ} (hallowed : allowed history c)
    (a : α) : Respects allowed (history ++ [(c, a)]) := by
  intro before c' a' after hsplit
  rcases List.eq_nil_or_concat' after with rfl | ⟨after, last, rfl⟩
  · obtain ⟨hbefore, hlast⟩ := List.append_inj' hsplit rfl
    obtain ⟨rfl, rfl⟩ := Prod.mk.inj (List.cons.inj hlast).1
    rw [← hbefore]
    exact hallowed
  · rw [← List.cons_append, ← List.append_assoc] at hsplit
    exact h before c' a' after (List.append_inj' hsplit rfl).1

/-- **Any environment**: a run respects what is allowed, and `Q` holds when it returns. -/
theorem Keeps.exec (answer : History γ α → γ → α) (h : Keeps allowed p history Q)
    (hrespects : Respects allowed history) :
    Respects allowed (exec answer p history).1 ∧
      ∀ b, (Program.exec answer p history).2 = .ok b →
        Q (Program.exec answer p history).1 b := by
  induction p generalizing history with
  | done r =>
      refine ⟨hrespects, fun b hb => ?_⟩
      cases r with
      | error e => cases hb
      | ok b' =>
          rw [← Except.ok.inj hb]
          exact h
  | call c next ih => exact ih _ (h.2 _) (hrespects.concat h.1 _)

/-- A program that raises nothing, whatever is answered. -/
def Total : Program γ α β → Prop
  | .done r => ∃ b, r = .ok b
  | .call _ next => ∀ a, Total (next a)

theorem Total.pure (b : β) : Total (Pure.pure b : Program γ α β) := ⟨b, rfl⟩

theorem Total.bind {f : β → Program γ α δ} (h : Total p) (hf : ∀ b, Total (f b)) :
    Total (p >>= f) := by
  induction p with
  | done r =>
      obtain ⟨b, rfl⟩ := h
      exact hf b
  | call c next ih => exact fun a => ih a (h a)

/-- What is caught is not raised. -/
theorem Total.attempt (p : Program γ α β) : Total (Program.attempt p) := by
  induction p with
  | done r => exact ⟨r, rfl⟩
  | call c next ih => exact ih

theorem Total.forEach {body : β → ι → Program γ α β} (h : ∀ b x, Total (body b x)) :
    ∀ (xs : List ι) (b : β), Total (Program.forEach body xs b)
  | [], b => Total.pure b
  | x :: xs, b => (h b x).bind (Total.forEach h xs)

theorem Total.exec (h : Total p) (answer : History γ α → γ → α) (history : History γ α) :
    ∃ b, (Program.exec answer p history).2 = .ok b := by
  induction p generalizing history with
  | done r => exact h
  | call c next ih => exact ih _ (h _) _

end Rules

end Program
end Foundation
