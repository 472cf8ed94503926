import Mathlib.Data.List.Forall2
import SystemTests.Foundation.Dict
import SystemTests.Foundation.Exception

/-!
# Two computations side by side

Two computations agree when they raise the same exception, or return values that are
related.  The items of two dictionaries are related when they have the same keys in
the same order and related values.

**Results.**
* `Agree.bind`, `Agree.map`, `Agree.mapM`: composed computations agree when their parts do.
* `Agree.eq`: computations that agree up to equality are equal.
* `Yields.flatMapM`: a loop that returns a list, against a list that is built without exceptions.
* `forall₂_setItems`, `forall₂_setItems_of_nodup`: dictionaries with related items stay so.
-/

namespace Foundation

universe u v w

namespace Raised

variable {α β γ δ : Type u}

inductive Agree (R : α → β → Prop) : Except Raised α → Except Raised β → Prop
  | ok {a : α} {b : β} (h : R a b) : Agree R (.ok a) (.ok b)
  | error (e : Raised) : Agree R (.error e) (.error e)

variable {R : α → β → Prop} {S : γ → δ → Prop} {x : Except Raised α} {y : Except Raised β}

theorem Agree.bind {f : α → Except Raised γ} {g : β → Except Raised δ} (h : Agree R x y)
    (hfg : ∀ a b, R a b → Agree S (f a) (g b)) : Agree S (x >>= f) (y >>= g) := by
  cases h with
  | ok hab => exact hfg _ _ hab
  | error e => exact .error e

theorem Agree.map {f : α → γ} {g : β → δ} (h : Agree R x y) (hfg : ∀ a b, R a b → S (f a) (g b)) :
    Agree S (f <$> x) (g <$> y) := by
  cases h with
  | ok hab => exact .ok (hfg _ _ hab)
  | error e => exact .error e

theorem Agree.refl {R : α → α → Prop} (hR : ∀ a, R a a) (x : Except Raised α) : Agree R x x := by
  cases x with
  | ok a => exact .ok (hR a)
  | error e => exact .error e

theorem Agree.of_eq {x y : Except Raised α} (h : x = y) : Agree Eq x y := h ▸ .refl Eq.refl x

theorem Agree.eq {x y : Except Raised α} (h : Agree Eq x y) : x = y := by
  cases h with
  | ok h => rw [h]
  | error e => rfl

theorem Agree.mono {T : α → β → Prop} (h : Agree R x y) (hRT : ∀ a b, R a b → T a b) :
    Agree T x y := by
  cases h with
  | ok hab => exact .ok (hRT _ _ hab)
  | error e => exact .error e

theorem Agree.mapM {ι κ : Type v} {f : ι → Except Raised α} {g : κ → Except Raised β} {l : List ι}
    {m : List κ} (h : List.Forall₂ (fun a b => Agree R (f a) (g b)) l m) :
    Agree (List.Forall₂ R) (l.mapM f) (m.mapM g) := by
  induction h with
  | nil => exact .ok .nil
  | cons hab _ ih =>
      rw [List.mapM_cons, List.mapM_cons]
      exact hab.bind fun a b hR => ih.bind fun as bs hRs => .ok (.cons hR hRs)

section Yields

variable {ι κ : Type v} {Q : ι → α → Prop}

/-- The computation returns a list that is related to the given one. -/
def Yields (Q : ι → α → Prop) (x : Except Raised (List α)) (is : List ι) : Prop :=
  ∃ out, x = .ok out ∧ List.Forall₂ Q is out

theorem Yields.nil : Yields Q (.ok []) [] := ⟨[], rfl, .nil⟩

theorem Yields.singleton {i : ι} {a : α} (h : Q i a) : Yields Q (.ok [a]) [i] :=
  ⟨[a], rfl, .cons h .nil⟩

theorem Yields.flatMapM {ι₀ : Type w} {γ : Type u} {R : ι₀ → γ → Prop}
    {f : γ → Except Raised (List α)} {g : ι₀ → List ι} {is : List ι₀} {l : List γ}
    (h : ∀ i a, R i a → Yields Q (f a) (g i)) (hl : List.Forall₂ R is l) :
    Yields Q (Raised.flatMapM f l) (is.flatMap g) := by
  induction hl with
  | nil => exact ⟨[], rfl, .nil⟩
  | cons hR _ ih =>
      obtain ⟨part, hpart, hQ⟩ := h _ _ hR
      obtain ⟨rest, hrest, hQs⟩ := ih
      exact ⟨part ++ rest, flatMapM_cons_eq_ok.mpr ⟨part, rest, hpart, hrest, rfl⟩,
        List.rel_append hQ hQs⟩

end Yields

end Raised

namespace Dict

variable {κ : Type u} {α β : Type v}

/-- The same key, and values that are related under it. -/
def Related (P : κ → α → β → Prop) (a : κ × α) (b : κ × β) : Prop := a.1 = b.1 ∧ P a.1 a.2 b.2

theorem eq_of_forall₂_related {l m : List (κ × α)}
    (h : List.Forall₂ (Related fun _ a b => a = b) l m) : l = m := by
  induction h with
  | nil => rfl
  | cons hpq _ ih => rw [ih, Prod.ext hpq.1 hpq.2]

variable [DecidableEq κ] {P : κ → α → β → Prop} {l : List (κ × α)} {m : List (κ × β)}

theorem forall₂_setItems {k : κ} {a : α} {b : β} (h : List.Forall₂ (Related P) l m)
    (hab : P k a b) : List.Forall₂ (Related P) (setItems k a l) (setItems k b m) := by
  induction h with
  | nil => exact .cons ⟨rfl, hab⟩ .nil
  | @cons p q l m hpq hlm ih =>
      rw [setItems, setItems, hpq.1]
      split_ifs with hk
      · exact .cons ⟨rfl, hab⟩ hlm
      · exact .cons hpq ih

theorem forall₂_of_find_eq_none {Q : κ → α → β → Prop} {k : κ} (h : List.Forall₂ (Related P) l m)
    (hnone : find k l = none) (hPQ : ∀ x ≠ k, ∀ a b, P x a b → Q x a b) :
    List.Forall₂ (Related Q) l m := by
  induction h with
  | nil => exact .nil
  | @cons p q l m hpq _ ih =>
      rw [find] at hnone
      split_ifs at hnone with hk
      exact .cons ⟨hpq.1, hPQ _ hk _ _ hpq.2⟩ (ih hnone)

/-- Values that are set under a key may be related in another way than those before. -/
theorem forall₂_setItems_of_nodup {Q : κ → α → β → Prop} {k : κ} {a : α} {b : β}
    (h : List.Forall₂ (Related P) l m) (hnodup : (l.map Prod.fst).Nodup)
    (hPQ : ∀ x ≠ k, ∀ a b, P x a b → Q x a b) (hab : Q k a b) :
    List.Forall₂ (Related Q) (setItems k a l) (setItems k b m) := by
  induction h with
  | nil => exact .cons ⟨rfl, hab⟩ .nil
  | @cons p q l m hpq hlm ih =>
      rw [List.map_cons, List.nodup_cons] at hnodup
      rw [setItems, setItems, ← hpq.1]
      split_ifs with hk
      · have hnone : find k l = none := (find_eq_none_iff k l).mpr (hk ▸ hnodup.1)
        exact .cons ⟨rfl, hab⟩ (forall₂_of_find_eq_none hlm hnone hPQ)
      · exact .cons ⟨hpq.1, hPQ _ hk _ _ hpq.2⟩ (ih hnodup.2)

theorem related_find {k : κ} (h : List.Forall₂ (Related P) l m) :
    Option.Rel (P k) (find k l) (find k m) := by
  induction h with
  | nil => exact .none
  | @cons p q l m hpq _ ih =>
      rw [find, find, hpq.1]
      split_ifs with hk
      · have hP := hpq.2
        rw [hpq.1, hk] at hP
        exact .some hP
      · exact ih

end Dict
end Foundation
