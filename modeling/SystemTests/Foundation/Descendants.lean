import Mathlib.Data.Finset.Sort
import Mathlib.Tactic

/-!
# Descendants, marked in place

Elements of a list may have a key and may name the key of a parent.  The members are
the elements of a seed and all their descendants.  They are marked by passes over the
list: a pass marks every element whose parent's key was met, and the keys that are met
in a pass count at once.  Passes follow one another until one of them marks nothing.

**Results.**
* `close_eq_some`: with one pass more than there are elements the passes come to an end.
* `Sound.mem_indexes_iff`, `filterMap_sort`: the marked elements are the members, in the
  order of the list.
* `Member.congr`: members depend on which elements there are, not on their order.
-/

namespace Foundation
namespace Descendants

variable {α : Type} {κ : Type}

section Members

variable (seed : α → Bool) (key parent : α → Option κ)

/-- The least set that has the seed and the children of its members. -/
inductive Member (all : List α) : α → Prop
  | seed {a : α} (ha : a ∈ all) (h : seed a = true) : Member all a
  | child {a b : α} {k : κ} (hb : Member all b) (ha : a ∈ all) (hkey : key b = some k)
      (hparent : parent a = some k) : Member all a

variable {seed key parent} {all all' : List α}

theorem Member.mem {a : α} (h : Member seed key parent all a) : a ∈ all := by
  cases h with
  | seed ha => exact ha
  | child _ ha => exact ha

theorem Member.mono {a : α} (h : Member seed key parent all a) (hsub : all ⊆ all') :
    Member seed key parent all' a := by
  induction h with
  | seed ha h => exact Member.seed (hsub ha) h
  | child _ ha hkey hparent ih => exact Member.child ih (hsub ha) hkey hparent

theorem Member.congr {a : α} (h : ∀ b, b ∈ all ↔ b ∈ all') :
    Member seed key parent all a ↔ Member seed key parent all' a :=
  ⟨fun hmember => hmember.mono fun _ => (h _).mp, fun hmember => hmember.mono fun _ => (h _).mpr⟩

/-- No smaller set has the seed and the children of its members. -/
theorem Member.least {S : α → Prop} (hseed : ∀ a ∈ all, seed a = true → S a)
    (hchild : ∀ a ∈ all, ∀ b k, S b → key b = some k → parent a = some k → S a) {a : α}
    (h : Member seed key parent all a) : S a := by
  induction h with
  | seed ha h => exact hseed _ ha h
  | child _ ha hkey hparent ih => exact hchild _ ha _ _ ih hkey hparent

theorem Member.of_map {β : Type} {f : β → α} {list : List β} {a : α}
    (h : Member seed key parent (list.map f) a) {b : β} (hb : b ∈ list) (hab : f b = a) :
    Member (fun b => seed (f b)) (fun b => key (f b)) (fun b => parent (f b)) list b := by
  induction h generalizing b with
  | seed _ hseed =>
      subst hab
      exact Member.seed hb hseed
  | child hc _ hkey hparent ih =>
      subst hab
      obtain ⟨c, hcmem, rfl⟩ := List.mem_map.mp hc.mem
      exact Member.child (ih hcmem rfl) hb hkey hparent

variable (seed key parent) in
/-- Elements that carry more data have the members of what they carry. -/
theorem Member.map_iff {β : Type} (f : β → α) {list : List β} {b : β} (hb : b ∈ list) :
    Member (fun b => seed (f b)) (fun b => key (f b)) (fun b => parent (f b)) list b ↔
      Member seed key parent (list.map f) (f b) := by
  constructor
  · intro h
    induction h with
    | seed ha hseed => exact Member.seed (List.mem_map_of_mem ha) hseed
    | child hc ha hkey hparent ih =>
        exact Member.child (ih hc.mem) (List.mem_map_of_mem ha) hkey hparent
  · intro h
    exact h.of_map hb rfl

end Members

section Passes

variable [DecidableEq κ] (seed : α → Bool) (key parent : α → Option κ)

/-- The indexes of the marked elements, and their keys. -/
structure Marks (κ : Type) where
  indexes : Finset ℕ
  keys : Finset κ

def Marks.mark (m : Marks κ) (a : α) (i : ℕ) : Marks κ where
  indexes := insert i m.indexes
  keys := match key a with
    | some k => insert k m.keys
    | none => m.keys

def Marks.hasParent (m : Marks κ) (a : α) : Bool :=
  match parent a with
  | some k => decide (k ∈ m.keys)
  | none => false

def markSeed (m : Marks κ) (entry : α × ℕ) : Marks κ :=
  if seed entry.1 then m.mark key entry.1 entry.2 else m

def markSeeds (all : List α) : Marks κ := all.zipIdx.foldl (markSeed seed key) ⟨∅, ∅⟩

/-- One element of a pass, and whether the pass has marked anything. -/
def visit (state : Marks κ × Bool) (entry : α × ℕ) : Marks κ × Bool :=
  if entry.2 ∈ state.1.indexes ∨ state.1.hasParent parent entry.1 = false then state
  else (state.1.mark key entry.1 entry.2, true)

def pass (all : List α) (m : Marks κ) : Marks κ × Bool :=
  all.zipIdx.foldl (visit key parent) (m, false)

/-- The passes; `none` is for more of them than the bound. -/
def close (all : List α) : ℕ → Marks κ → Option (Marks κ)
  | 0, _ => none
  | bound + 1, m =>
      if (pass key parent all m).2 then close all bound (pass key parent all m).1
      else some (pass key parent all m).1

end Passes

section Marking

variable {seed : α → Bool} {key parent : α → Option κ} {all : List α}

/-- What is marked are members, and the keys are theirs. -/
structure Sound (seed : α → Bool) (key parent : α → Option κ) (all : List α)
    (m : Marks κ) : Prop where
  index : ∀ i ∈ m.indexes, ∃ a, all[i]? = some a ∧ Member seed key parent all a
  keys : ∀ k, k ∈ m.keys ↔ ∃ i ∈ m.indexes, ∃ a, all[i]? = some a ∧ key a = some k

theorem Sound.empty : Sound seed key parent all ⟨∅, ∅⟩ where
  index := by simp
  keys := by simp

theorem Sound.card_le {m : Marks κ} (h : Sound seed key parent all m) :
    m.indexes.card ≤ all.length := by
  have hsub : m.indexes ⊆ Finset.range all.length := by
    intro i hi
    obtain ⟨a, ha, -⟩ := h.index i hi
    rw [Finset.mem_range]
    exact (List.getElem?_eq_some_iff.mp ha).1
  have hcard := Finset.card_le_card hsub
  rwa [Finset.card_range] at hcard

theorem getElem?_of_mem_zipIdx {entry : α × ℕ} (h : entry ∈ all.zipIdx) :
    all[entry.2]? = some entry.1 :=
  List.mem_zipIdx_iff_getElem?.mp h

variable [DecidableEq κ]

theorem Sound.mark {m : Marks κ} (h : Sound seed key parent all m) {a : α} {i : ℕ}
    (hi : all[i]? = some a) (ha : Member seed key parent all a) :
    Sound seed key parent all (m.mark key a i) where
  index := by
    intro j hj
    rcases Finset.mem_insert.mp hj with rfl | hj
    · exact ⟨a, hi, ha⟩
    · exact h.index j hj
  keys := by
    intro k
    have hkeys : k ∈ (m.mark key a i).keys ↔ key a = some k ∨ k ∈ m.keys := by
      unfold Marks.mark
      cases hkey : key a with
      | none => simp
      | some k' =>
          rw [Finset.mem_insert, Option.some.injEq]
          exact or_congr_left eq_comm
    rw [hkeys, h.keys]
    constructor
    · rintro (hkey | ⟨j, hj, b, hb, hkey⟩)
      · exact ⟨i, Finset.mem_insert_self i _, a, hi, hkey⟩
      · exact ⟨j, Finset.mem_insert_of_mem hj, b, hb, hkey⟩
    · rintro ⟨j, hj, b, hb, hkey⟩
      rcases Finset.mem_insert.mp hj with rfl | hj
      · obtain rfl : a = b := Option.some.inj (hi.symm.trans hb)
        exact Or.inl hkey
      · exact Or.inr ⟨j, hj, b, hb, hkey⟩

theorem Sound.hasParent_iff {m : Marks κ} (h : Sound seed key parent all m) {a : α} :
    m.hasParent parent a = true ↔ ∃ i ∈ m.indexes, ∃ b k, all[i]? = some b ∧ key b = some k ∧
      parent a = some k := by
  unfold Marks.hasParent
  cases hparent : parent a with
  | none => simp
  | some k =>
      rw [decide_eq_true_eq, h.keys]
      constructor
      · rintro ⟨i, hi, b, hb, hkey⟩
        exact ⟨i, hi, b, k, hb, hkey, rfl⟩
      · rintro ⟨i, hi, b, k', hb, hkey, hk⟩
        rw [Option.some.injEq] at hk
        exact ⟨i, hi, b, hb, hk ▸ hkey⟩

theorem Sound.member_of_hasParent {m : Marks κ} (h : Sound seed key parent all m) {a : α}
    (ha : a ∈ all) (hparent : m.hasParent parent a = true) : Member seed key parent all a := by
  obtain ⟨i, hi, b, k, hb, hkey, hk⟩ := h.hasParent_iff.mp hparent
  obtain ⟨b', hb', hmember⟩ := h.index i hi
  obtain rfl : b = b' := Option.some.inj (hb.symm.trans hb')
  exact Member.child hmember ha hkey hk

/-- What visiting some elements does: it marks members, or it does nothing at all. -/
structure Visited (seed : α → Bool) (key parent : α → Option κ) (all : List α)
    (entries : List (α × ℕ)) (s s' : Marks κ × Bool) : Prop where
  sound : Sound seed key parent all s'.1
  subset : s.1.indexes ⊆ s'.1.indexes
  found : s'.2 = true → s.2 = true ∨ s.1.indexes.card < s'.1.indexes.card
  idle : s'.2 = false → s' = s ∧
    ∀ entry ∈ entries, entry.2 ∈ s.1.indexes ∨ s.1.hasParent parent entry.1 = false

theorem visited_foldl :
    ∀ {entries : List (α × ℕ)} {s : Marks κ × Bool},
      (∀ entry ∈ entries, all[entry.2]? = some entry.1) → Sound seed key parent all s.1 →
        Visited seed key parent all entries s (entries.foldl (visit key parent) s)
  | [], s, _, hs => ⟨hs, Finset.Subset.refl _, Or.inl, fun _ => ⟨rfl, by simp⟩⟩
  | entry :: entries, s, hentries, hs => by
      rw [List.forall_mem_cons] at hentries
      obtain ⟨hentry, hentries⟩ := hentries
      rw [List.foldl_cons, visit]
      split_ifs with hskip
      · have hrest := visited_foldl hentries hs
        refine ⟨hrest.sound, hrest.subset, hrest.found, ?_⟩
        intro hidle
        obtain ⟨heq, hall⟩ := hrest.idle hidle
        rw [List.forall_mem_cons]
        exact ⟨heq, hskip, hall⟩
      · rw [not_or, Bool.not_eq_false] at hskip
        have hmember := hs.member_of_hasParent (List.mem_of_getElem? hentry) hskip.2
        have hrest := visited_foldl (s := (s.1.mark key entry.1 entry.2, true)) hentries
          (hs.mark hentry hmember)
        have hcard : s.1.indexes.card < (s.1.mark key entry.1 entry.2).indexes.card := by
          have hinsert : (s.1.mark key entry.1 entry.2).indexes.card = s.1.indexes.card + 1 :=
            Finset.card_insert_of_notMem hskip.1
          omega
        refine ⟨hrest.sound, (Finset.subset_insert _ _).trans hrest.subset, ?_, ?_⟩
        · intro _
          exact Or.inr (hcard.trans_le (Finset.card_le_card hrest.subset))
        · intro hidle
          obtain ⟨heq, -⟩ := hrest.idle hidle
          rw [heq] at hidle
          cases hidle

theorem visited_pass {m : Marks κ} (h : Sound seed key parent all m) :
    Visited seed key parent all all.zipIdx (m, false) (pass key parent all m) :=
  visited_foldl (fun _ => getElem?_of_mem_zipIdx) h

/-- No element is left that a pass would mark. -/
def Closed (parent : α → Option κ) (all : List α) (m : Marks κ) : Prop :=
  ∀ i a, all[i]? = some a → i ∈ m.indexes ∨ m.hasParent parent a = false

theorem close_eq_some (bound : ℕ) :
    ∀ {m : Marks κ}, Sound seed key parent all m → all.length < bound + m.indexes.card →
      ∃ m', close key parent all bound m = some m' ∧ Sound seed key parent all m' ∧
        m.indexes ⊆ m'.indexes ∧ Closed parent all m' := by
  induction bound with
  | zero =>
      intro m h hbound
      have hcard := h.card_le
      omega
  | succ bound ih =>
      intro m h hbound
      have hpass := visited_pass h
      rw [close]
      split_ifs with hfound
      · have hcard : m.indexes.card < (pass key parent all m).1.indexes.card :=
          (hpass.found hfound).resolve_left Bool.false_ne_true
        obtain ⟨m', hm', hsound, hsub, hclosed⟩ := ih hpass.sound (by omega)
        exact ⟨m', hm', hsound, hpass.subset.trans hsub, hclosed⟩
      · obtain ⟨heq, hall⟩ := hpass.idle (by simpa using hfound)
        refine ⟨_, rfl, hpass.sound, hpass.subset, ?_⟩
        rw [heq]
        intro i a ha
        exact hall (a, i) (List.mem_zipIdx_iff_getElem?.mpr ha)

theorem Sound.foldl_seed :
    ∀ {entries : List (α × ℕ)} {m : Marks κ},
      (∀ entry ∈ entries, all[entry.2]? = some entry.1) → Sound seed key parent all m →
        Sound seed key parent all (entries.foldl (markSeed seed key) m) ∧
          m.indexes ⊆ (entries.foldl (markSeed seed key) m).indexes ∧
          ∀ entry ∈ entries, seed entry.1 = true →
            entry.2 ∈ (entries.foldl (markSeed seed key) m).indexes
  | [], m, _, h => ⟨h, Finset.Subset.refl _, by simp⟩
  | entry :: entries, m, hentries, h => by
      rw [List.forall_mem_cons] at hentries
      obtain ⟨hentry, hentries⟩ := hentries
      rw [List.foldl_cons, List.forall_mem_cons, markSeed]
      split_ifs with hseed
      · have hmember : Member seed key parent all entry.1 :=
          Member.seed (List.mem_of_getElem? hentry) hseed
        obtain ⟨hsound, hsub, hall⟩ := Sound.foldl_seed hentries (h.mark hentry hmember)
        refine ⟨hsound, (Finset.subset_insert _ _).trans hsub, ?_, hall⟩
        intro _
        exact hsub (Finset.mem_insert_self _ _)
      · obtain ⟨hsound, hsub, hall⟩ := Sound.foldl_seed hentries h
        exact ⟨hsound, hsub, fun hseed' => absurd hseed' hseed, hall⟩

variable (seed key parent all) in
theorem Sound.markSeeds : Sound seed key parent all (markSeeds seed key all) ∧
    ∀ i a, all[i]? = some a → seed a = true → i ∈ (markSeeds seed key all).indexes := by
  have hempty : Sound seed key parent all ⟨∅, ∅⟩ := Sound.empty
  obtain ⟨hsound, -, hall⟩ := Sound.foldl_seed (fun _ => getElem?_of_mem_zipIdx) hempty
  refine ⟨hsound, ?_⟩
  intro i a ha hseed
  exact hall (a, i) (List.mem_zipIdx_iff_getElem?.mpr ha) hseed

/-- What is sound, has the seeds and is closed are all the members. -/
theorem Sound.mem_indexes_iff {m : Marks κ} (h : Sound seed key parent all m)
    (hseeds : ∀ i a, all[i]? = some a → seed a = true → i ∈ m.indexes)
    (hclosed : Closed parent all m) {i : ℕ} {a : α} (hi : all[i]? = some a) :
    i ∈ m.indexes ↔ Member seed key parent all a := by
  constructor
  · intro hmem
    obtain ⟨b, hb, hmember⟩ := h.index i hmem
    obtain rfl : a = b := Option.some.inj (hi.symm.trans hb)
    exact hmember
  · intro hmember
    induction hmember generalizing i with
    | seed _ hseed => exact hseeds i _ hi hseed
    | @child a b k hb _ hkey hparent ih =>
        obtain ⟨j, hj⟩ := List.mem_iff_getElem?.mp hb.mem
        have hhas : m.hasParent parent a = true :=
          h.hasParent_iff.mpr ⟨j, ih hj, b, k, hj, hkey, hparent⟩
        rcases hclosed i a hi with hmem | hnot
        · exact hmem
        · rw [hhas] at hnot
          cases hnot

end Marking

section Order

theorem filterMap_range (p : α → Bool) (all : List α) :
    ((List.range all.length).filter fun i => (all[i]?).any p).filterMap (all[·]?) =
      all.filter p := by
  induction all using List.reverseRecOn with
  | nil => rfl
  | append_singleton all a ih =>
      have hsame : ∀ i ∈ List.range all.length, (all ++ [a])[i]? = all[i]? := by
        intro i hi
        exact List.getElem?_append_left (List.mem_range.mp hi)
      rw [List.length_append, List.length_singleton, List.range_succ, List.filter_append,
        List.filterMap_append, List.filter_append, ← ih]
      congr 1
      · rw [List.filter_congr fun i hi => by rw [hsame i hi]]
        refine List.filterMap_congr ?_
        intro i hi
        exact hsame i (List.mem_of_mem_filter hi)
      · cases hp : p a with
        | true => simp [hp]
        | false => simp [hp]

/-- The elements at some indexes, in the order of the indexes. -/
theorem filterMap_sort {all : List α} {indexes : Finset ℕ} {p : α → Bool}
    (hlt : ∀ i ∈ indexes, i < all.length)
    (h : ∀ i a, all[i]? = some a → (i ∈ indexes ↔ p a = true)) :
    (indexes.sort (· ≤ ·)).filterMap (all[·]?) = all.filter p := by
  have hsort : indexes.sort (· ≤ ·) =
      (List.range all.length).filter fun i => (all[i]?).any p := by
    refine List.Perm.eq_of_pairwise ?_ (Finset.pairwise_sort _ _) ?_ ?_
    · intro i j _ _ hij hji
      exact le_antisymm hij hji
    · exact List.pairwise_le_range.filter _
    · rw [List.perm_ext_iff_of_nodup (Finset.sort_nodup _ _) (List.nodup_range.filter _)]
      intro i
      rw [Finset.mem_sort, List.mem_filter, List.mem_range]
      constructor
      · intro hi
        have hget := List.getElem?_eq_getElem (hlt i hi)
        refine ⟨hlt i hi, ?_⟩
        rw [hget]
        exact (h i _ hget).mp hi
      · rintro ⟨hi, hp⟩
        have hget := List.getElem?_eq_getElem hi
        rw [hget] at hp
        exact (h i _ hget).mpr hp
  rw [hsort, filterMap_range]

end Order

end Descendants
end Foundation
