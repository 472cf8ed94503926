import Mathlib.Data.List.Sort
import Mathlib.Data.List.Perm.Basic

/-!
# Sorting by a key

**Results.**
* `pairwise_mergeSort_key`: a list that was sorted by a key is in the order of the keys.
* `mergeSort_key_eq_iff`: sorting forgets the order of the elements, and nothing else, if
  no two of them have one key.
* `pairwise_mergeSort_iff`: the order of the sorted elements, for any other relation.
-/

namespace Foundation
namespace Sorting

universe u v

variable {α : Type u} {β : Type v} [LinearOrder β] (key : α → β)

theorem pairwise_mergeSort_key (l : List α) :
    (l.mergeSort fun a b => decide (key a ≤ key b)).Pairwise fun a b => key a ≤ key b := by
  refine (List.pairwise_mergeSort ?_ ?_ l).imp fun h => of_decide_eq_true h
  · intro a b c hab hbc
    simp only [decide_eq_true_eq] at hab hbc ⊢
    exact le_trans hab hbc
  · intro a b
    simp only [Bool.or_eq_true, decide_eq_true_eq]
    exact le_total _ _

theorem mergeSort_key_of_pairwise {l : List α} (h : l.Pairwise fun a b => key a ≤ key b) :
    (l.mergeSort fun a b => decide (key a ≤ key b)) = l :=
  List.mergeSort_of_pairwise (h.imp fun h => decide_eq_true h)

/-- Elements with keys of their own are sorted in one way. -/
theorem mergeSort_key_eq_iff {l l' : List α}
    (hkey : ∀ a ∈ l, ∀ b ∈ l, key a = key b → a = b) :
    (l.mergeSort fun a b => decide (key a ≤ key b)) =
        (l'.mergeSort fun a b => decide (key a ≤ key b)) ↔ l.Perm l' := by
  constructor
  · intro h
    exact (List.mergeSort_perm l _).symm.trans (h ▸ List.mergeSort_perm l' _)
  · intro h
    refine List.Perm.eq_of_pairwise ?_ (pairwise_mergeSort_key key l)
      (pairwise_mergeSort_key key l')
      ((List.mergeSort_perm l _).trans (h.trans (List.mergeSort_perm l' _).symm))
    intro a b ha hb hab hba
    rw [List.mem_mergeSort] at ha hb
    exact hkey a ha b (h.mem_iff.mpr hb) (le_antisymm hab hba)

/-- The sort is stable. -/
theorem sublist_mergeSort_key {c l : List α} (h : c.Pairwise fun a b => key a ≤ key b)
    (hc : c.Sublist l) : c.Sublist (l.mergeSort fun a b => decide (key a ≤ key b)) := by
  refine List.sublist_mergeSort ?_ ?_ (h.imp fun h => decide_eq_true h) hc
  · intro a b c hab hbc
    simp only [decide_eq_true_eq] at hab hbc ⊢
    exact le_trans hab hbc
  · intro a b
    simp only [Bool.or_eq_true, decide_eq_true_eq]
    exact le_total _ _

/-- The elements of one key keep their order. -/
theorem filter_mergeSort_key (l : List α) (k : β) :
    (l.mergeSort fun a b => decide (key a ≤ key b)).filter (fun a => decide (key a = k)) =
      l.filter fun a => decide (key a = k) := by
  have hkeys : (l.filter fun a => decide (key a = k)).Pairwise fun a b => key a ≤ key b := by
    refine List.pairwise_of_forall_mem_list fun a ha b hb => ?_
    rw [of_decide_eq_true (List.mem_filter.mp ha).2, of_decide_eq_true (List.mem_filter.mp hb).2]
  have hsub := (sublist_mergeSort_key key hkeys List.filter_sublist).filter
    fun a => decide (key a = k)
  rw [List.filter_filter, List.filter_congr fun a _ => Bool.and_self _] at hsub
  refine (hsub.eq_of_length ?_).symm
  exact ((List.mergeSort_perm l _).filter _).length_eq.symm

theorem pair_sublist_of_lt {l : List α} {a b : α} (hsorted : l.Pairwise fun a b => key a ≤ key b)
    (ha : a ∈ l) (hb : b ∈ l) (hlt : key a < key b) : [a, b].Sublist l := by
  obtain ⟨p, q, rfl⟩ := List.append_of_mem ha
  rw [List.pairwise_append] at hsorted
  rcases List.mem_append.mp hb with hb | hb
  · exact absurd (hsorted.2.2 b hb a List.mem_cons_self) (not_le_of_gt hlt)
  · rcases List.mem_cons.mp hb with rfl | hb
    · exact absurd hlt (lt_irrefl _)
    · exact ((List.singleton_sublist.mpr hb).cons_cons a).trans (List.sublist_append_right _ _)

/-- What holds of any two elements of the sorted list, in their order. -/
theorem pairwise_mergeSort_iff {r : α → α → Prop} {l : List α} :
    (l.mergeSort fun a b => decide (key a ≤ key b)).Pairwise r ↔
      (∀ a ∈ l, ∀ b ∈ l, key a < key b → r a b) ∧
        ∀ a b, key a = key b → [a, b].Sublist l → r a b := by
  have hsorted := pairwise_mergeSort_key key l
  rw [List.pairwise_iff_forall_sublist]
  constructor
  · intro h
    refine ⟨fun a ha b hb hlt => h ?_, fun a b heq hsub => h ?_⟩
    · exact pair_sublist_of_lt key hsorted (List.mem_mergeSort.mpr ha) (List.mem_mergeSort.mpr hb)
        hlt
    · exact sublist_mergeSort_key key (List.pairwise_pair.mpr heq.le) hsub
  · rintro ⟨hlt, heq⟩ a b hsub
    have hmem : ∀ c ∈ [a, b], c ∈ l := fun c hc => List.mem_mergeSort.mp (hsub.subset hc)
    rcases (hsorted.forall_sublist hsub).lt_or_eq with h | h
    · exact hlt a (hmem a (by simp)) b (hmem b (by simp)) h
    · refine heq a b h ?_
      have hfilter := hsub.filter fun c => decide (key c = key b)
      rw [filter_mergeSort_key] at hfilter
      simp only [h, List.filter_cons, decide_true, if_true, List.filter_nil] at hfilter
      exact hfilter.trans List.filter_sublist

end Sorting
end Foundation
