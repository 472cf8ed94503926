import Mathlib.Data.List.Forall2
import Mathlib.Data.List.Perm.Basic

/-!
# Permutations up to a relation

`PermBy R l l'` says that `l'` is a permutation of a list whose elements are
related to those of `l` one by one.

**Results.**
* `PermBy.flatMap`: lists flattened from such permutations are such permutations.
* `PermBy.exists_left`: every element of `l'` comes from an element of `l`.
-/

namespace Foundation

universe u v

variable {α : Type u} {β : Type v}

def PermBy (R : α → β → Prop) (l : List α) (l' : List β) : Prop :=
  ∃ m, List.Forall₂ R l m ∧ m.Perm l'

namespace PermBy

section Basic

variable {R : α → β → Prop} {l₁ l₂ : List α} {l₁' l₂' : List β}

theorem of_perm {l l' : List α} (R : α → α → Prop) (hR : ∀ a, R a a) (h : l.Perm l') :
    PermBy R l l' :=
  ⟨l, List.forall₂_same.mpr fun a _ => hR a, h⟩

theorem eq_iff_perm {l l' : List α} : PermBy Eq l l' ↔ l.Perm l' := by
  constructor
  · rintro ⟨m, hm, hperm⟩
    rw [List.forall₂_eq_eq_eq] at hm
    exact hm ▸ hperm
  · intro h
    exact of_perm Eq (fun _ => rfl) h

theorem perm_right (h : PermBy R l₁ l₁') (hperm : l₁'.Perm l₂') : PermBy R l₁ l₂' := by
  obtain ⟨m, hm, hm'⟩ := h
  exact ⟨m, hm, hm'.trans hperm⟩

theorem perm_left (hperm : l₁.Perm l₂) (h : PermBy R l₂ l₁') : PermBy R l₁ l₁' := by
  obtain ⟨m, hm, hm'⟩ := h
  obtain ⟨m', hrelated, hm''⟩ := List.perm_comp_forall₂ hperm hm
  exact ⟨m', hrelated, hm''.trans hm'⟩

theorem singleton {a : α} {b : β} (h : R a b) : PermBy R [a] [b] :=
  ⟨[b], List.Forall₂.cons h List.Forall₂.nil, List.Perm.refl _⟩

theorem append (h₁ : PermBy R l₁ l₁') (h₂ : PermBy R l₂ l₂') :
    PermBy R (l₁ ++ l₂) (l₁' ++ l₂') := by
  obtain ⟨m₁, hm₁, hp₁⟩ := h₁
  obtain ⟨m₂, hm₂, hp₂⟩ := h₂
  exact ⟨m₁ ++ m₂, List.rel_append hm₁ hm₂, hp₁.append hp₂⟩

/-- Every element of the permuted list comes from one of the list. -/
theorem exists_left (h : PermBy R l₁ l₁') {b : β} (hb : b ∈ l₁') : ∃ a ∈ l₁, R a b := by
  obtain ⟨m, hm, hperm⟩ := h
  have hmem := hperm.mem_iff.mpr hb
  clear hperm
  induction hm with
  | nil => simp at hmem
  | cons hab _ ih =>
      rcases List.mem_cons.mp hmem with rfl | hmem
      · exact ⟨_, List.mem_cons_self, hab⟩
      · obtain ⟨a, ha, hr⟩ := ih hmem
        exact ⟨a, List.mem_cons_of_mem _ ha, hr⟩

end Basic

section FlatMap

universe w

variable {γ : Type w} {R : α → β → Prop} {S : γ → γ → Prop}

theorem flatMap {f : α → List γ} {g : β → List γ} (h : ∀ a b, R a b → PermBy S (f a) (g b))
    {l : List α} {l' : List β} (hl : PermBy R l l') :
    PermBy S (l.flatMap f) (l'.flatMap g) := by
  obtain ⟨m, hm, hperm⟩ := hl
  have hrelated : PermBy S (l.flatMap f) (m.flatMap g) := by
    clear hperm
    induction hm with
    | nil => exact ⟨[], List.Forall₂.nil, List.Perm.refl []⟩
    | cons hab _ ih =>
        rw [List.flatMap_cons, List.flatMap_cons]
        exact append (h _ _ hab) ih
  exact hrelated.perm_right (hperm.flatMap_right g)

end FlatMap

end PermBy

end Foundation
