import SystemTests.Foundation.Dict

/-!
# Grouping a list by a key

The groups are built by a fold that appends each element to the group of its key; the
keys stand in the order in which they are met.

**Results.**
* `get?_group`: the group of a key are the elements with that key, in order.
* `head?_group`: the first group is the group of the first element.
* `eq_of_filter_length`, `flatMap_eq_of_sublist`: a part of a list whose groups are as
  long as the groups of the list is the whole list.
-/

namespace Foundation
namespace Dict

variable {κ α : Type} [DecidableEq κ]

section Groups

variable (key : α → κ)

/-- An element added to the group of its key. -/
def addTo (d : Dict κ (List α)) (a : α) : Dict κ (List α) :=
  d.set (key a) ((d.get? (key a)).getD [] ++ [a])

def group (l : List α) : Dict κ (List α) := l.foldl (addTo key) .empty

theorem getD_foldl_addTo (k : κ) :
    ∀ (l : List α) (d : Dict κ (List α)),
      ((l.foldl (addTo key) d).get? k).getD [] =
        (d.get? k).getD [] ++ l.filter fun a => key a = k
  | [], d => by simp
  | a :: l, d => by
      rw [List.foldl_cons, getD_foldl_addTo k l, addTo, get?_set]
      by_cases h : key a = k
      · simp [h]
      · have h' : k ≠ key a := fun heq => h heq.symm
        simp [h, h']

theorem isSome_foldl_addTo {k : κ} :
    ∀ (l : List α) {d : Dict κ (List α)},
      ((l.foldl (addTo key) d).get? k).isSome = true ↔
        (d.get? k).isSome = true ∨ ∃ a ∈ l, key a = k
  | [], d => by simp
  | a :: l, d => by
      rw [List.foldl_cons, isSome_foldl_addTo l, addTo, get?_set]
      by_cases h : k = key a
      · simp [h]
      · have h' : key a ≠ k := fun heq => h heq.symm
        simp [h, h']

theorem getD_group (l : List α) (k : κ) :
    ((group key l).get? k).getD [] = l.filter fun a => key a = k := by
  rw [group, getD_foldl_addTo, get?_empty]
  rfl

theorem get?_group_eq_some {l : List α} {k : κ} {part : List α} :
    (group key l).get? k = some part ↔ part = (l.filter fun a => key a = k) ∧ part ≠ [] := by
  have hgetD := getD_group key l k
  have hsome : ((group key l).get? k).isSome = true ↔ ∃ a ∈ l, key a = k := by
    rw [group, isSome_foldl_addTo, get?_empty]
    simp
  have hne : (l.filter fun a => key a = k) ≠ [] ↔ ∃ a ∈ l, key a = k := by
    rw [ne_eq, List.filter_eq_nil_iff]
    simp
  constructor
  · intro h
    rw [h] at hgetD hsome
    have hpart : part = l.filter fun a => key a = k := hgetD
    exact ⟨hpart, hpart ▸ hne.mpr (hsome.mp rfl)⟩
  · rintro ⟨rfl, hpart⟩
    obtain ⟨part', hpart'⟩ := Option.isSome_iff_exists.mp (hsome.mpr (hne.mp hpart))
    rw [hpart'] at hgetD
    rw [hpart']
    exact congrArg some hgetD

theorem head?_keys_set {d : Dict κ (List α)} {x k : κ} {part : List α}
    (h : d.keys.head? = some x) : (d.set k part).keys.head? = some x := by
  unfold keys at h ⊢
  change ((setItems k part d.items).map Prod.fst).head? = some x
  cases hitems : d.items with
  | nil =>
      rw [hitems] at h
      cases h
  | cons item items =>
      rw [hitems] at h
      unfold setItems
      split_ifs with hk
      · rw [← h, List.map_cons, List.map_cons, List.head?_cons, List.head?_cons, hk]
      · exact h

theorem head?_keys_foldl {x : κ} :
    ∀ (l : List α) {d : Dict κ (List α)}, d.keys.head? = some x →
      (l.foldl (addTo key) d).keys.head? = some x
  | [], _, h => h
  | _ :: l, _, h => head?_keys_foldl l (head?_keys_set h)

/-- The first group is the group of the first element. -/
theorem head?_group (a : α) (l : List α) :
    (group key (a :: l)).items.head? =
      some (key a, (a :: l).filter fun b => key b = key a) := by
  have hkeys : (group key (a :: l)).keys.head? = some (key a) :=
    head?_keys_foldl key l (d := addTo key .empty a) rfl
  rw [keys, List.head?_map, Option.map_eq_some_iff] at hkeys
  obtain ⟨⟨k, part⟩, hhead, hk⟩ := hkeys
  obtain rfl : k = key a := hk
  have hget : (group key (a :: l)).get? (key a) = some part :=
    (mem_items_iff _ _ _).mp (List.mem_of_head? hhead)
  rw [hhead, ((get?_group_eq_some key).mp hget).1]

theorem group_nil : group key ([] : List α) = .empty := rfl

end Groups

section Parts

variable (key : α → κ)

/-- A part of a list with groups of the same lengths is the list. -/
theorem eq_of_filter_length {l l' : List α} (hsub : l.Sublist l')
    (h : ∀ k, (l.filter fun a => key a = k).length = (l'.filter fun a => key a = k).length) :
    l = l' := by
  induction hsub with
  | slnil => rfl
  | @cons l l' a hsub _ =>
      have hk := h (key a)
      have hle := (hsub.filter fun b => key b = key a).length_le
      rw [List.filter_cons_of_pos (by simp)] at hk
      rw [List.length_cons] at hk
      omega
  | @cons_cons l l' a _ ih =>
      refine congrArg (List.cons a) (ih ?_)
      intro k
      have hk := h k
      by_cases ha : key a = k
      · simpa [ha] using hk
      · simpa [ha] using hk

theorem flatMap_eq_of_sublist {β : Type} {f g : β → List α} (hsub : ∀ b, (f b).Sublist (g b)) :
    ∀ {l : List β}, l.flatMap f = l.flatMap g → ∀ b ∈ l, f b = g b
  | [], _ => by simp
  | b :: l, h => by
      rw [List.flatMap_cons, List.flatMap_cons] at h
      have hrest : (l.flatMap f).Sublist (l.flatMap g) :=
        List.Sublist.flatMap_right l fun b _ => hsub b
      have hlength := congrArg List.length h
      rw [List.length_append, List.length_append] at hlength
      have hle := (hsub b).length_le
      have hle' := hrest.length_le
      rw [List.forall_mem_cons]
      exact ⟨(hsub b).eq_of_length (by omega),
        flatMap_eq_of_sublist hsub (hrest.eq_of_length (by omega))⟩

end Parts

end Dict
end Foundation
