import Mathlib.Data.List.Dedup

/-!
# In which order sets are gone through

A set that was filled from a list has its elements, once each, in some order.

**Results.**  `SetOrder.perm`: two orders differ by a permutation.
-/

namespace Foundation

universe u

structure SetOrder (α : Type u) where
  elements : List α → List α
  nodup : ∀ xs, (elements xs).Nodup
  mem_iff : ∀ xs x, x ∈ elements xs ↔ x ∈ xs

namespace SetOrder

variable {α : Type u}

def dedup [DecidableEq α] : SetOrder α where
  elements := List.dedup
  nodup := List.nodup_dedup
  mem_iff _ _ := List.mem_dedup

def reversed (order : SetOrder α) : SetOrder α where
  elements xs := (order.elements xs).reverse
  nodup xs := List.nodup_reverse.mpr (order.nodup xs)
  mem_iff xs x := List.mem_reverse.trans (order.mem_iff xs x)

theorem perm (order order' : SetOrder α) (xs : List α) :
    (order.elements xs).Perm (order'.elements xs) :=
  (List.perm_ext_iff_of_nodup (order.nodup xs) (order'.nodup xs)).mpr fun x =>
    (order.mem_iff xs x).trans (order'.mem_iff xs x).symm

end SetOrder

end Foundation
