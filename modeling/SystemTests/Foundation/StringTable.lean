import Mathlib.Data.List.Basic
import Mathlib.Tactic

/-!
# Tables of what was sent before

A stream sends each entry as it is, or as its position among the entries that were sent
as they are.  Position 0 is an entry that both sides know.  An entry may be of a kind
that a reader does not put into its table.

**Results.**
* `lt_length_table`: a position that is streamed is in the table.
* `getElem?_seen`: a table without some entries has the same entries before the first of them.
-/

namespace Foundation
namespace StringTable

variable {α : Type}

/-- What is sent for an entry. -/
inductive Ref (α : Type) where
  | lit (a : α)
  | idx (n : Nat)
deriving DecidableEq

def Ref.lit? : Ref α → Option α
  | .lit a => some a
  | .idx _ => none

/-- Every position is one of an entry that was sent before; `k` entries already were. -/
def Streamed : Nat → List (Ref α) → Prop
  | _, [] => True
  | k, .lit _ :: refs => Streamed (k + 1) refs
  | k, .idx n :: refs => n < k ∧ Streamed k refs

/-- The entries by their positions. -/
def table (first : α) (refs : List (Ref α)) : List α := first :: refs.filterMap Ref.lit?

def Ref.resolve (entries : List α) : Ref α → Ref α
  | .lit a => .lit a
  | .idx n =>
      match entries[n]? with
      | some a => .lit a
      | none => .idx n

@[simp] theorem Ref.resolve_lit (entries : List α) (a : α) :
    (Ref.lit a).resolve entries = .lit a := rfl

theorem Ref.resolve_idx {entries : List α} {n : Nat} {a : α} (h : entries[n]? = some a) :
    (Ref.idx n : Ref α).resolve entries = .lit a := by
  rw [Ref.resolve, h]

theorem lt_of_streamed {n : Nat} :
    ∀ {k : Nat} {refs : List (Ref α)}, Streamed k refs → .idx n ∈ refs →
      n < k + (refs.filterMap Ref.lit?).length
  | k, .lit a :: refs, h, hmem => by
      have hrefs : Streamed (k + 1) refs := h
      have hrest := lt_of_streamed hrefs ((List.mem_cons.mp hmem).resolve_left nofun)
      rw [List.filterMap_cons_some (show Ref.lit? (.lit a) = some a from rfl), List.length_cons]
      omega
  | k, .idx m :: refs, h, hmem => by
      rw [List.filterMap_cons_none (show Ref.lit? (.idx m) = none from rfl)]
      rcases List.mem_cons.mp hmem with heq | hmem
      · obtain rfl := Ref.idx.inj heq
        exact h.1.trans_le (Nat.le_add_right _ _)
      · exact lt_of_streamed h.2 hmem

theorem lt_length_table {first : α} {refs : List (Ref α)} (h : Streamed 1 refs) {n : Nat}
    (hmem : .idx n ∈ refs) : n < (table first refs).length := by
  have hlt := lt_of_streamed h hmem
  rw [table, List.length_cons]
  omega

section Seen

/-- Entries with their kind. -/
def lits (refs : List (Bool × Ref α)) : List (Bool × α) :=
  refs.filterMap fun r => r.2.lit?.map (Prod.mk r.1)

/-- The table of a reader that passes over the entries of one kind. -/
def seen (first : α) (refs : List (Bool × Ref α)) : List α :=
  first :: ((lits refs).filter Prod.fst).map Prod.snd

/-- The number of positions before the first entry that is passed over. -/
def agreed (refs : List (Bool × Ref α)) : Nat := 1 + ((lits refs).takeWhile Prod.fst).length

theorem map_snd_lits (refs : List (Bool × Ref α)) :
    (lits refs).map Prod.snd = (refs.map Prod.snd).filterMap Ref.lit? := by
  rw [lits, List.map_filterMap, List.filterMap_map]
  refine List.filterMap_congr fun r _ => ?_
  obtain ⟨b, a | n⟩ := r <;> rfl

theorem getElem?_filter_takeWhile :
    ∀ {entries : List (Bool × α)} {n : Nat}, n < (entries.takeWhile Prod.fst).length →
      ((entries.filter Prod.fst).map Prod.snd)[n]? = (entries.map Prod.snd)[n]?
  | (true, a) :: entries, 0, _ => rfl
  | (true, a) :: entries, n + 1, h => by
      rw [List.takeWhile_cons_of_pos rfl, List.length_cons, Nat.succ_lt_succ_iff] at h
      rw [List.filter_cons_of_pos rfl, List.map_cons, List.map_cons, List.getElem?_cons_succ,
        List.getElem?_cons_succ]
      exact getElem?_filter_takeWhile h

/-- Before the first entry that is passed over, both tables have the same entries. -/
theorem getElem?_seen (first : α) {refs : List (Bool × Ref α)} {n : Nat} (h : n < agreed refs) :
    (seen first refs)[n]? = (table first (refs.map Prod.snd))[n]? := by
  rw [seen, table, ← map_snd_lits]
  cases n with
  | zero => rfl
  | succ n =>
      rw [List.getElem?_cons_succ, List.getElem?_cons_succ]
      rw [agreed] at h
      exact getElem?_filter_takeWhile (by omega)

end Seen

end StringTable
end Foundation
