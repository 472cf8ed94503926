import Mathlib.Order.Lattice
import Mathlib.Data.Finset.Lattice.Basic
import SystemTests.Foundation.Dict
import SystemTests.Foundation.Exception

/-!
# Steps that only add

A step adds to what was found before what it finds itself, or raises.  Findings are
joined, so a run of such steps depends on which steps there are, and neither on their
order nor on how often each is taken.

**Results.**
* `Adds.bind`, `Adds.foldlM`: steps that only add are composed.
* `total_eq_ok_iff`: several steps find the least upper bound of what each finds.
* `total_of_subset`: fewer steps find less.
* `total_congr`: the same steps find the same, in any order.
* `AddsMembers.bind`, `AddsMembers.foldlM`: which elements are added to some sets.
* `get?_foldlM_set`: a dictionary into which one entry is put after the other.
-/

namespace Foundation

universe u v

namespace Raised

variable {σ δ : Type u} [SemilatticeSup δ]

/-- A step finds `x`, whatever was found before; `state` is the state of what was found. -/
def Adds (state : δ → σ) (step : σ → Except Raised σ) (x : Except Raised δ) : Prop :=
  ∀ found, step (state found) = x.map fun a => state (found ⊔ a)

theorem Adds.bind {state : δ → σ} {f g : σ → Except Raised σ} {x y : Except Raised δ}
    (hf : Adds state f x) (hg : Adds state g y) :
    Adds state (fun s => f s >>= g) (do let a ← x; let b ← y; return a ⊔ b) := by
  intro found
  change f (state found) >>= g = _
  rw [hf found]
  cases x with
  | error e => rfl
  | ok a =>
      change g (state (found ⊔ a)) = _
      rw [hg (found ⊔ a)]
      cases y with
      | error e => rfl
      | ok b => exact congrArg (fun x => Except.ok (state x)) (sup_assoc found a b)

variable [OrderBot δ]

/-- What several steps find. -/
def total {γ : Type v} (amount : γ → Except Raised δ) : List γ → Except Raised δ
  | [] => .ok ⊥
  | a :: l => do
      let x ← amount a
      let y ← total amount l
      return x ⊔ y

variable {state : δ → σ}

theorem Adds.skip : Adds state (fun s => .ok s) (.ok ⊥) := by
  intro found
  exact congrArg (fun x => Except.ok (state x)) (sup_bot_eq found).symm

theorem Adds.foldlM {γ : Type v} {step : σ → γ → Except Raised σ} {amount : γ → Except Raised δ} :
    ∀ l : List γ, (∀ a ∈ l, Adds state (fun s => step s a) (amount a)) →
      Adds state (fun s => l.foldlM step s) (total amount l)
  | [], _ => .skip
  | a :: l, h => by
      intro found
      change (a :: l).foldlM step (state found) = _
      rw [List.foldlM_cons]
      exact Adds.bind (h a (List.mem_cons_self ..))
        (Adds.foldlM l fun b hb => h b (List.mem_cons_of_mem _ hb)) found

section Totals

variable {γ : Type v} {amount : γ → Except Raised δ}

theorem total_cons_eq_ok {a : γ} {l : List γ} {z : δ} :
    total amount (a :: l) = .ok z ↔
      ∃ x y, amount a = .ok x ∧ total amount l = .ok y ∧ x ⊔ y = z := by
  constructor
  · intro h
    obtain ⟨x, hx, h⟩ := bind_eq_ok.mp h
    obtain ⟨y, hy, h⟩ := bind_eq_ok.mp h
    exact ⟨x, y, hx, hy, Except.ok.inj h⟩
  · rintro ⟨x, y, hx, hy, rfl⟩
    exact bind_eq_ok.mpr ⟨x, hx, bind_eq_ok.mpr ⟨y, hy, rfl⟩⟩

theorem exists_total :
    ∀ {l : List γ}, (∀ a ∈ l, ∃ x, amount a = .ok x) → ∃ y, total amount l = .ok y
  | [], _ => ⟨⊥, rfl⟩
  | a :: l, h => by
      obtain ⟨x, hx⟩ := h a (List.mem_cons_self ..)
      obtain ⟨y, hy⟩ := exists_total fun b hb => h b (List.mem_cons_of_mem _ hb)
      exact ⟨x ⊔ y, total_cons_eq_ok.mpr ⟨x, y, hx, hy, rfl⟩⟩

/-- The total of some steps is the least upper bound of what each finds. -/
theorem total_eq_ok_iff :
    ∀ {l : List γ} {z : δ}, total amount l = .ok z ↔
      (∀ a ∈ l, ∃ x, amount a = .ok x ∧ x ≤ z) ∧
        ∀ w, (∀ a ∈ l, ∀ x, amount a = .ok x → x ≤ w) → z ≤ w
  | [], z => by
      constructor
      · intro h
        obtain rfl : ⊥ = z := Except.ok.inj h
        exact ⟨fun a ha => absurd ha (List.not_mem_nil), fun w _ => bot_le⟩
      · rintro ⟨-, hleast⟩
        have hz : z ≤ ⊥ := hleast ⊥ fun a ha => absurd ha (List.not_mem_nil)
        rw [le_bot_iff.mp hz]
        rfl
  | a :: l, z => by
      rw [total_cons_eq_ok]
      constructor
      · rintro ⟨x, y, hx, hy, rfl⟩
        obtain ⟨hbound, hleast⟩ := total_eq_ok_iff.mp hy
        constructor
        · intro b hb
          rcases List.mem_cons.mp hb with rfl | hb
          · exact ⟨x, hx, le_sup_left⟩
          · obtain ⟨x', hx', hle⟩ := hbound b hb
            exact ⟨x', hx', le_sup_of_le_right hle⟩
        · intro w hw
          refine sup_le (hw a (List.mem_cons_self ..) x hx) (hleast w fun b hb x' hx' => ?_)
          exact hw b (List.mem_cons_of_mem _ hb) x' hx'
      · rintro ⟨hbound, hleast⟩
        obtain ⟨x, hx, hxz⟩ := hbound a (List.mem_cons_self ..)
        have hok : ∃ y, total amount l = .ok y :=
          exists_total fun b hb => (hbound b (List.mem_cons_of_mem _ hb)).imp fun _ h => h.1
        obtain ⟨y, hy⟩ := hok
        obtain ⟨hbound', hleast'⟩ := total_eq_ok_iff.mp hy
        refine ⟨x, y, hx, hy, le_antisymm (sup_le hxz (hleast' z fun b hb x' hx' => ?_))
          (hleast _ fun b hb x' hx' => ?_)⟩
        · obtain ⟨x'', hx'', hle⟩ := hbound b (List.mem_cons_of_mem _ hb)
          rw [hx''] at hx'
          exact Except.ok.inj hx' ▸ hle
        · rcases List.mem_cons.mp hb with rfl | hb
          · rw [hx] at hx'
            exact Except.ok.inj hx' ▸ le_sup_left
          · obtain ⟨x'', hx'', hle⟩ := hbound' b hb
            rw [hx''] at hx'
            exact Except.ok.inj hx' ▸ le_sup_of_le_right hle

/-- Fewer steps find less. -/
theorem total_of_subset {l l' : List γ} {z' : δ} (hsub : ∀ a ∈ l, a ∈ l')
    (h : total amount l' = .ok z') : ∃ z, total amount l = .ok z ∧ z ≤ z' := by
  obtain ⟨hbound, -⟩ := total_eq_ok_iff.mp h
  have hok : ∃ z, total amount l = .ok z :=
    exists_total fun a ha => (hbound a (hsub a ha)).imp fun _ h => h.1
  obtain ⟨z, hz⟩ := hok
  refine ⟨z, hz, (total_eq_ok_iff.mp hz).2 z' fun a ha x hx => ?_⟩
  obtain ⟨x', hx', hle⟩ := hbound a (hsub a ha)
  rw [hx'] at hx
  exact Except.ok.inj hx ▸ hle

theorem total_congr {l l' : List γ} {z : δ} (h : ∀ a, a ∈ l ↔ a ∈ l') (hz : total amount l = .ok z) :
    total amount l' = .ok z := by
  obtain ⟨z', hz', hle⟩ := total_of_subset (fun a ha => (h a).mpr ha) hz
  obtain ⟨z'', hz'', hle'⟩ := total_of_subset (fun a ha => (h a).mp ha) hz'
  rw [hz] at hz''
  obtain rfl : z = z'' := Except.ok.inj hz''
  rw [hz', le_antisymm hle hle']

end Totals

section Members

variable {ι α : Type u} [DecidableEq α] {state : (ι → Finset α) → σ}

/-- A step adds to each of some sets the elements for which `P` holds, or raises. -/
def AddsMembers (state : (ι → Finset α) → σ) (step : σ → Except Raised σ) (P : ι → α → Prop) :
    Prop :=
  ∃ x, Adds state step x ∧ ∀ z, x = .ok z → ∀ i a, a ∈ z i ↔ P i a

variable {P Q : ι → α → Prop} {f g : σ → Except Raised σ}

theorem AddsMembers.congr (h : AddsMembers state f P) (hPQ : ∀ i a, P i a ↔ Q i a) :
    AddsMembers state f Q := by
  obtain ⟨x, hx, hmem⟩ := h
  exact ⟨x, hx, fun z hz i a => (hmem z hz i a).trans (hPQ i a)⟩

theorem AddsMembers.skip : AddsMembers state (fun s => .ok s) fun _ _ => False := by
  refine ⟨.ok ⊥, .skip, ?_⟩
  rintro z hz i a
  obtain rfl : ⊥ = z := Except.ok.inj hz
  simp

theorem AddsMembers.bind (hf : AddsMembers state f P) (hg : AddsMembers state g Q) :
    AddsMembers state (fun s => f s >>= g) fun i a => P i a ∨ Q i a := by
  obtain ⟨x, hx, hP⟩ := hf
  obtain ⟨y, hy, hQ⟩ := hg
  refine ⟨_, hx.bind hy, ?_⟩
  intro z hz i a
  obtain ⟨v, hv, hz⟩ := bind_eq_ok.mp hz
  obtain ⟨w, hw, hz⟩ := bind_eq_ok.mp hz
  obtain rfl : v ⊔ w = z := Except.ok.inj hz
  rw [Pi.sup_apply, Finset.sup_eq_union, Finset.mem_union, hP v hv i a, hQ w hw i a]

theorem AddsMembers.ite {c : Prop} [Decidable c] (hf : AddsMembers state f P) :
    AddsMembers state (fun s => if c then f s else .ok s) fun i a => c ∧ P i a := by
  by_cases hc : c
  · simp only [if_pos hc]
    exact hf.congr fun i a => (and_iff_right hc).symm
  · simp only [if_neg hc]
    exact AddsMembers.skip.congr fun i a => (iff_false_intro fun h => hc h.1).symm

theorem AddsMembers.foldlM {γ : Type v} {step : σ → γ → Except Raised σ} {P : γ → ι → α → Prop} :
    ∀ {l : List γ}, (∀ c ∈ l, AddsMembers state (fun s => step s c) (P c)) →
      AddsMembers state (fun s => l.foldlM step s) fun i a => ∃ c ∈ l, P c i a
  | [], _ => AddsMembers.skip.congr fun i a => by simp
  | c :: l, h => by
      have hl := AddsMembers.foldlM fun d hd => h d (List.mem_cons_of_mem c hd)
      refine ((h c (List.mem_cons_self ..)).bind hl).congr fun i a => ?_
      simp

end Members

section Entries

variable {κ α γ : Type u} [DecidableEq κ]

/-- What was found for a key, if anything, is put into the dictionary. -/
def setFound (d : Dict κ α) (k : κ) : Option α → Dict κ α
  | some v => d.set k v
  | none => d

theorem get?_foldlM_set {step : Dict κ α → γ → Except Raised (Dict κ α)} (key : γ → κ)
    (f : γ → Except Raised (Option α))
    (hstep : ∀ d a, step d a = (f a).map (setFound d (key a))) :
    ∀ {l : List γ} {d d' : Dict κ α}, (l.map key).Nodup → (∀ a ∈ l, d.get? (key a) = none) →
      l.foldlM step d = .ok d' →
        ∀ k v, d'.get? k = some v ↔ d.get? k = some v ∨ ∃ a ∈ l, key a = k ∧ f a = .ok (some v)
  | [], d, d', _, _, h, k, v => by
      obtain rfl : d = d' := Except.ok.inj h
      simp
  | a :: l, d, d', hnodup, hfresh, h, k, v => by
      rw [List.map_cons, List.nodup_cons] at hnodup
      rw [List.foldlM_cons, hstep] at h
      obtain ⟨e, he, h⟩ := bind_eq_ok.mp h
      obtain ⟨found, hfound, rfl⟩ := map_eq_ok.mp he
      have hkey : ∀ b ∈ l, key b ≠ key a := by
        intro b hb heq
        exact hnodup.1 (heq ▸ List.mem_map_of_mem hb)
      cases found with
      | none =>
          rw [get?_foldlM_set key f hstep hnodup.2 (fun b hb => hfresh b (List.mem_cons_of_mem _ hb)) h,
            List.exists_mem_cons_iff, hfound]
          simp
      | some w =>
          have hrest : ∀ b ∈ l, (d.set (key a) w).get? (key b) = none := by
            intro b hb
            rw [Dict.get?_set_ne d w (hkey b hb)]
            exact hfresh b (List.mem_cons_of_mem _ hb)
          rw [get?_foldlM_set key f hstep hnodup.2 hrest h, Dict.get?_set, List.exists_mem_cons_iff,
            hfound, ← or_assoc]
          refine or_congr_left ?_
          by_cases hk : k = key a
          · rw [if_pos hk, hk, hfresh a (List.mem_cons_self ..)]
            simp
          · rw [if_neg hk]
            refine ⟨Or.inl, fun h => h.elim id fun h => absurd h.1.symm hk⟩

end Entries

end Raised

end Foundation
