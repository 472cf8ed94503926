import SystemTests.Foundation.Text

/-!
# Computations that may raise

`Except Raised α` is the result of a computation that returns a value or raises
an exception.  An exception is its class and its message; what a package raises
inside its own code is known by the package only.

**Results.**
* `bind_eq_ok`, `map_eq_ok`, `mapM_eq_ok_iff`: a composed computation returns if
  and only if its parts do.
* `mapM_forall₂_iff`, `mem_flatMapM`: lists that are computed element by element.
* `foldlM_invariant`, `foldlM_eq_ok_split`: rules for loops that may raise.
-/

namespace Foundation

open Text

universe u v w

inductive Raised where
  | assertionError (message : Str)
  | attributeError (name : Str)
  | indexError (message : Str)
  | keyError (key : Str)
  | runtimeError (message : Str)
  | stopIteration
  | systemExit (message : Str)
  | typeError (message : Str)
  | valueError (message : Str)
  | zeroDivisionError
  | inPackage (package : Str)
deriving DecidableEq

namespace Raised

def isValueError : Raised → Bool
  | .valueError _ => true
  | _ => false

def isTypeError : Raised → Bool
  | .typeError _ => true
  | _ => false

variable {α : Type u} {β : Type u}

/-- The value of an optional result, or the exception that its absence means. -/
def ofOption (e : Raised) : Option α → Except Raised α
  | some a => .ok a
  | none => .error e

@[simp] theorem ofOption_eq_ok_iff {e : Raised} {x : Option α} {a : α} :
    ofOption e x = .ok a ↔ x = some a := by
  cases x <;> simp [ofOption]

theorem ofOption_eq_error_iff {e e' : Raised} {x : Option α} :
    ofOption e x = .error e' ↔ x = none ∧ e = e' := by
  cases x <;> simp [ofOption]

@[simp] theorem ofOption_some {e : Raised} {a : α} : ofOption e (some a) = .ok a := rfl

@[simp] theorem ok_bind {a : α} {f : α → Except Raised β} : (.ok a >>= f) = f a := rfl

theorem bind_eq_ok {x : Except Raised α} {f : α → Except Raised β} {b : β} :
    (x >>= f) = .ok b ↔ ∃ a, x = .ok a ∧ f a = .ok b := by
  cases x <;> simp [bind, Except.bind]

theorem bind_eq_error {x : Except Raised α} {f : α → Except Raised β} {e : Raised} :
    (x >>= f) = .error e ↔ x = .error e ∨ ∃ a, x = .ok a ∧ f a = .error e := by
  cases x <;> simp [bind, Except.bind]

theorem map_eq_ok {x : Except Raised α} {f : α → β} {b : β} :
    (f <$> x) = .ok b ↔ ∃ a, x = .ok a ∧ f a = b := by
  cases x <;> simp [Functor.map, Except.map]

@[simp] theorem pure_eq_ok {a b : α} :
    (pure a : Except Raised α) = .ok b ↔ a = b := by
  simp [pure, Except.pure]

@[simp] theorem throw_ne_ok {e : Raised} {a : α} :
    (throw e : Except Raised α) ≠ .ok a := by
  simp [throw, throwThe, MonadExceptOf.throw]

/-- A list computed element by element. -/
theorem mapM_eq_ok_iff {γ : Type v} {f : γ → Except Raised α} :
    ∀ {l : List γ} {l' : List α},
      l.mapM f = .ok l' ↔ List.Forall₂ (fun a b => f a = .ok b) l l'
  | [], l' => by
      cases l' <;> simp
  | a :: l, l' => by
      simp only [List.mapM_cons, bind_eq_ok, pure_eq_ok, mapM_eq_ok_iff]
      constructor
      · rintro ⟨b, hb, bs, hbs, rfl⟩
        exact List.Forall₂.cons hb hbs
      · intro h
        cases h with
        | cons hb hbs => exact ⟨_, hb, _, hbs, rfl⟩

/-- A list is computed as its source says when every element can be. -/
theorem mapM_forall₂_iff {γ : Type v} {ι : Type w} {f : γ → Except Raised α}
    {R : γ → ι → Prop} {Q : ι → α → Prop} {ok : ι → Prop}
    (h : ∀ a i, R a i → ((∃ b, f a = .ok b ∧ Q i b) ↔ ok i)) {l : List γ} {is : List ι}
    (hl : List.Forall₂ R l is) :
    (∃ l', l.mapM f = .ok l' ∧ List.Forall₂ Q is l') ↔ ∀ i ∈ is, ok i := by
  induction hl with
  | nil => exact iff_of_true ⟨[], rfl, List.Forall₂.nil⟩ (by simp)
  | @cons a i l is hai _ ih =>
      rw [List.forall_mem_cons, ← h a i hai, ← ih]
      constructor
      · rintro ⟨l', hl', hQ⟩
        rw [mapM_eq_ok_iff] at hl'
        cases hl' with
        | cons hb hbs =>
            cases hQ with
            | cons hq hqs => exact ⟨⟨_, hb, hq⟩, _, mapM_eq_ok_iff.mpr hbs, hqs⟩
      · rintro ⟨⟨b, hb, hq⟩, bs, hbs, hqs⟩
        exact ⟨b :: bs, mapM_eq_ok_iff.mpr (List.Forall₂.cons hb (mapM_eq_ok_iff.mp hbs)),
          List.Forall₂.cons hq hqs⟩

theorem exists_of_mem_mapM {γ : Type v} {f : γ → Except Raised α} {l : List γ}
    {l' : List α} (h : l.mapM f = .ok l') {b : α} (hb : b ∈ l') :
    ∃ a ∈ l, f a = .ok b := by
  rw [mapM_eq_ok_iff] at h
  induction h with
  | nil => simp at hb
  | cons hab _ ih =>
      rcases List.mem_cons.mp hb with rfl | hb
      · exact ⟨_, List.mem_cons_self, hab⟩
      · obtain ⟨a, ha, hab⟩ := ih hb
        exact ⟨a, List.mem_cons_of_mem _ ha, hab⟩

theorem mem_mapM_of_mem {γ : Type v} {f : γ → Except Raised α} {l : List γ}
    {l' : List α} (h : l.mapM f = .ok l') {a : γ} (ha : a ∈ l) :
    ∃ b ∈ l', f a = .ok b := by
  rw [mapM_eq_ok_iff] at h
  induction h with
  | nil => simp at ha
  | cons hab _ ih =>
      rcases List.mem_cons.mp ha with rfl | ha
      · exact ⟨_, List.mem_cons_self, hab⟩
      · obtain ⟨b, hb, hab⟩ := ih ha
        exact ⟨b, List.mem_cons_of_mem _ hb, hab⟩

/-- A list is computed when every element is. -/
theorem exists_mapM_eq_ok {γ : Type v} {f : γ → Except Raised α} {l : List γ}
    (h : ∀ a ∈ l, ∃ b, f a = .ok b) : ∃ l', l.mapM f = .ok l' := by
  induction l with
  | nil => exact ⟨[], rfl⟩
  | cons a l ih =>
      rw [List.forall_mem_cons] at h
      obtain ⟨⟨b, hb⟩, hl⟩ := h
      obtain ⟨bs, hbs⟩ := ih hl
      exact ⟨b :: bs, mapM_eq_ok_iff.mpr (List.Forall₂.cons hb (mapM_eq_ok_iff.mp hbs))⟩

/-- The lists computed for the elements, one after the other. -/
def flatMapM {γ : Type v} (f : γ → Except Raised (List α)) (l : List γ) :
    Except Raised (List α) := do
  let parts ← l.mapM f
  return parts.flatten

theorem flatMapM_eq_ok {γ : Type v} {f : γ → Except Raised (List α)} {g : γ → List α} {l : List γ}
    (h : ∀ a ∈ l, f a = .ok (g a)) : flatMapM f l = .ok (l.flatMap g) := by
  have hparts : l.mapM f = .ok (l.map g) := by
    rw [mapM_eq_ok_iff, List.forall₂_map_right_iff, List.forall₂_same]
    exact h
  rw [flatMapM, hparts]
  rfl

theorem flatMapM_cons_eq_ok {γ : Type v} {f : γ → Except Raised (List α)} {a : γ} {l : List γ}
    {l' : List α} : flatMapM f (a :: l) = .ok l' ↔
      ∃ part rest, f a = .ok part ∧ flatMapM f l = .ok rest ∧ l' = part ++ rest := by
  simp only [flatMapM, List.mapM_cons, bind_eq_ok, pure_eq_ok]
  constructor
  · rintro ⟨_, ⟨part, hpart, parts, hparts, rfl⟩, rfl⟩
    exact ⟨part, _, hpart, ⟨parts, hparts, rfl⟩, rfl⟩
  · rintro ⟨part, _, hpart, ⟨parts, hparts, rfl⟩, rfl⟩
    exact ⟨_, ⟨part, hpart, parts, hparts, rfl⟩, rfl⟩

theorem mem_flatMapM {γ : Type v} {f : γ → Except Raised (List α)} {l : List γ}
    {l' : List α} (h : flatMapM f l = .ok l') {b : α} :
    b ∈ l' ↔ ∃ a ∈ l, ∃ part, f a = .ok part ∧ b ∈ part := by
  obtain ⟨parts, hparts, heq⟩ := bind_eq_ok.mp h
  obtain rfl := pure_eq_ok.mp heq
  rw [List.mem_flatten]
  constructor
  · rintro ⟨part, hpart, hb⟩
    obtain ⟨a, ha, hfa⟩ := exists_of_mem_mapM hparts hpart
    exact ⟨a, ha, part, hfa, hb⟩
  · rintro ⟨a, ha, part, hfa, hb⟩
    obtain ⟨part', hpart', hfa'⟩ := mem_mapM_of_mem hparts ha
    obtain rfl : part = part' := Except.ok.inj (hfa.symm.trans hfa')
    exact ⟨part, hpart', hb⟩

theorem exists_flatMapM_eq_ok {γ : Type v} {f : γ → Except Raised (List α)} {l : List γ}
    (h : ∀ a ∈ l, ∃ part, f a = .ok part) : ∃ l', flatMapM f l = .ok l' := by
  obtain ⟨parts, hparts⟩ := exists_mapM_eq_ok h
  refine ⟨parts.flatten, ?_⟩
  rw [flatMapM, hparts]
  rfl

/-- A list that was computed is made of the lists computed for the elements. -/
theorem exists_of_flatMapM_eq_ok {γ : Type v} {f : γ → Except Raised (List α)} {l : List γ}
    {l' : List α} (h : flatMapM f l = .ok l') :
    ∃ g : γ → List α, (∀ a ∈ l, f a = .ok (g a)) ∧ l' = l.flatMap g := by
  have hg : ∀ a ∈ l, f a = .ok ((f a).toOption.getD []) := by
    obtain ⟨parts, hparts, -⟩ := bind_eq_ok.mp h
    intro a ha
    obtain ⟨part, -, hpart⟩ := mem_mapM_of_mem hparts ha
    rw [hpart]
    rfl
  refine ⟨fun a => (f a).toOption.getD [], hg, ?_⟩
  exact Except.ok.inj (h.symm.trans (flatMapM_eq_ok hg))

theorem forM_eq_ok_iff {γ : Type v} {f : γ → Except Raised Unit} {l : List γ} :
    l.forM f = .ok () ↔ ∀ a ∈ l, f a = .ok () := by
  induction l with
  | nil => simp [pure, Except.pure]
  | cons a l ih =>
      rw [List.forM_eq_forM] at ih ⊢
      rw [List.forM_cons, bind_eq_ok, List.forall_mem_cons, ← ih]
      constructor
      · rintro ⟨u, ha, hl⟩
        exact ⟨ha, hl⟩
      · rintro ⟨ha, hl⟩
        exact ⟨(), ha, hl⟩

theorem exists_of_forM_eq_error {γ : Type v} {f : γ → Except Raised Unit} {l : List γ} {e : Raised} (h : l.forM f = .error e) : ∃ a ∈ l, f a = .error e := by
  induction l with
  | nil => simp [pure, Except.pure] at h
  | cons a l ih =>
      rw [List.forM_eq_forM] at ih h
      rw [List.forM_cons] at h
      cases ha : f a with
      | error e' =>
          rw [ha] at h
          exact ⟨a, List.mem_cons_self, ha.trans h⟩
      | ok u =>
          rw [ha, ok_bind] at h
          obtain ⟨b, hb, hfb⟩ := ih h
          exact ⟨b, List.mem_cons_of_mem a hb, hfb⟩

/-- A loop that returns runs every iteration to its end. -/
theorem foldlM_eq_ok_split {γ : Type v} {f : β → γ → Except Raised β} {a : γ} :
    ∀ {l : List γ} {b b' : β}, l.foldlM f b = .ok b' → a ∈ l →
      ∃ l₁ l₂ s s', l = l₁ ++ a :: l₂ ∧ l₁.foldlM f b = .ok s ∧ f s a = .ok s' ∧
        l₂.foldlM f s' = .ok b'
  | [], _, _, _, ha => by simp at ha
  | x :: l, b, b', h, ha => by
      rw [List.foldlM_cons, bind_eq_ok] at h
      obtain ⟨s, hs, hl⟩ := h
      rcases List.mem_cons.mp ha with rfl | ha
      · exact ⟨[], l, b, s, rfl, rfl, hs, hl⟩
      · obtain ⟨l₁, l₂, t, t', rfl, h₁, ht, h₂⟩ := foldlM_eq_ok_split hl ha
        refine ⟨x :: l₁, l₂, t, t', rfl, ?_, ht, h₂⟩
        rw [List.foldlM_cons, hs]
        exact h₁

/-- What the iteration for every element keeps, the loop keeps. -/
theorem foldlM_invariant_of_mem {γ : Type v} {f : β → γ → Except Raised β} {P : β → Prop}
    {l : List γ} (hstep : ∀ b, ∀ a ∈ l, ∀ b', f b a = .ok b' → P b → P b') {b b' : β}
    (h : l.foldlM f b = .ok b') (hb : P b) : P b' := by
  induction l generalizing b with
  | nil =>
      rw [List.foldlM_nil, pure_eq_ok] at h
      exact h ▸ hb
  | cons a l ih =>
      rw [List.foldlM_cons, bind_eq_ok] at h
      obtain ⟨s, hs, hl⟩ := h
      exact ih (fun b a ha => hstep b a (List.mem_cons_of_mem _ ha)) hl
        (hstep b a List.mem_cons_self s hs hb)

/-- What every iteration keeps, the loop keeps. -/
theorem foldlM_invariant {γ : Type v} {f : β → γ → Except Raised β} {P : β → Prop}
    (hstep : ∀ b a b', f b a = .ok b' → P b → P b') {l : List γ} {b b' : β}
    (h : l.foldlM f b = .ok b') (hb : P b) : P b' :=
  foldlM_invariant_of_mem (fun b a _ => hstep b a) h hb

theorem exists_foldlM_eq_ok {γ : Type v} {f : β → γ → Except Raised β} {l : List γ}
    (h : ∀ a ∈ l, ∀ b, ∃ b', f b a = .ok b') (b : β) : ∃ b', l.foldlM f b = .ok b' := by
  induction l generalizing b with
  | nil => exact ⟨b, rfl⟩
  | cons a l ih =>
      rw [List.forall_mem_cons] at h
      obtain ⟨s, hs⟩ := h.1 b
      obtain ⟨b', hb'⟩ := ih h.2 s
      refine ⟨b', ?_⟩
      rw [List.foldlM_cons, hs]
      exact hb'

end Raised
end Foundation
