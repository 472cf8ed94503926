import SystemTests.Foundation.RegexSub

/-!
# The first match anywhere in a text

A search tries a pattern at each place of a text, from left to right.

**Results.**
* `search_eq_none_iff`: nothing is found when the pattern matches at no place.
* `search_append_of_none`: what is found behind a front that starts no match.
* `matchStart_of_unique`: a pattern with at most one match at a place finds that one.
-/

namespace Foundation
namespace Regex

open Text

/-- `re.search` -/
def search (r : Rx) : Str → Option Match
  | [] => matchStart r []
  | c :: s => (matchStart r (c :: s)).or (search r s)

section Search

variable {r : Rx}

theorem matchStart_eq_none_iff {s : Str} : matchStart r s = none ↔ run r (s, []) = [] :=
  List.head?_eq_none_iff

theorem search_eq_none_iff {s : Str} :
    search r s = none ↔ ∀ a t, s = a ++ t → matchStart r t = none := by
  induction s with
  | nil =>
      rw [search]
      constructor
      · rintro h a t hs
        rw [(List.append_eq_nil_iff.mp hs.symm).2]
        exact h
      · exact fun h => h [] [] rfl
  | cons c s ih =>
      rw [search, Option.or_eq_none_iff, ih]
      constructor
      · rintro ⟨hhead, htail⟩ a t hs
        cases a with
        | nil =>
            rw [List.nil_append] at hs
            rw [← hs]
            exact hhead
        | cons x a => exact htail a t (List.cons.inj hs).2
      · exact fun h => ⟨h [] (c :: s) rfl, fun a t hs => h (c :: a) t (by rw [hs]; rfl)⟩

theorem exists_of_search_eq_some {s : Str} {m : Match} (h : search r s = some m) :
    ∃ a t, s = a ++ t ∧ matchStart r t = some m := by
  induction s with
  | nil => exact ⟨[], [], rfl, h⟩
  | cons c s ih =>
      rw [search, Option.or_eq_some_iff] at h
      rcases h with h | ⟨-, h⟩
      · exact ⟨[], c :: s, rfl, h⟩
      · obtain ⟨a, t, rfl, ht⟩ := ih h
        exact ⟨c :: a, t, rfl, ht⟩

/-- No match starts in the front of the text. -/
theorem search_append_of_none {a s : Str}
    (h : ∀ b c, a = b ++ c → c ≠ [] → matchStart r (c ++ s) = none) :
    search r (a ++ s) = search r s := by
  induction a with
  | nil => rfl
  | cons x a ih =>
      have hhead := h [] (x :: a) rfl (List.cons_ne_nil x a)
      rw [List.cons_append] at hhead ⊢
      rw [search, hhead, Option.none_or]
      exact ih fun b c hbc hne => h (x :: b) c (by rw [hbc]; rfl) hne

theorem search_of_matchStart {s : Str} {m : Match} (h : matchStart r s = some m) :
    search r s = some m := by
  cases s with
  | nil => exact h
  | cons c s => rw [search, h, Option.some_or]

/-- All matches at a place are one, so it is the first one. -/
theorem matchStart_of_unique {s : Str} {m : Match} (hmem : m ∈ run r (s, []))
    (hunique : ∀ m' ∈ run r (s, []), m' = m) : matchStart r s = some m := by
  rw [matchStart]
  cases hrun : run r (s, []) with
  | nil =>
      rw [hrun] at hmem
      cases hmem
  | cons m' ms =>
      rw [List.head?_cons, hunique m' (by rw [hrun]; exact List.mem_cons_self)]

end Search

end Regex
end Foundation
