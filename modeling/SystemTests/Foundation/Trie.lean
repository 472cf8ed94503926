import SystemTests.Foundation.Dict
import SystemTests.Foundation.Exception

/-!
# Tries of paths

A trie maps texts, read as paths of parts behind slashes, to values, and can be
traversed from a path downwards: a factory is applied to every node, after its
children, with the path, the results of the children and the value if there is
one.  `StringTrie` are the operations of a package that provides such tries, and
`StringTrie.Documented` is what the package documents of them.

**Results.**
* `ofDict_documented`: a dictionary with a recursive traversal is such a package.
-/

namespace Foundation

open Text

/-- The operations of a package of tries, with results of traversals in `β`. -/
structure StringTrie (α β : Type) where
  T : Type
  empty : T
  get : T → Str → Option α
  set : T → Str → α → T
  traverse : (List Str → List β → Option α → β) → T → Str → Except Raised β

namespace StringTrie

variable {α β : Type}

/-- A path that leads to a value. -/
def IsNode (get : Str → Option α) (path : List Str) : Prop :=
  ∃ key a, get key = some a ∧ path <+: split ['/'] key

/-- The results of a traversal, bottom up; the order of the children is not fixed. -/
inductive Traverses (get : Str → Option α) (factory : List Str → List β → Option α → β) :
    List Str → β → Prop
  | node {path : List Str} (children : List Str) (result : Str → β)
      (hnodup : children.Nodup)
      (hmem : ∀ part, part ∈ children ↔ IsNode get (path ++ [part]))
      (hresult : ∀ part ∈ children, Traverses get factory (path ++ [part]) (result part)) :
      Traverses get factory path (factory path (children.map result) (get (join ['/'] path)))

/-- Of the paths from one to another, the first that is not open. -/
theorem exists_first_prefix {γ : Type} {isOpen : List γ → Prop} {path l : List γ} (h : path <+: l)
    (hl : ¬ isOpen l) :
    ∃ q, path <+: q ∧ q <+: l ∧ ¬ isOpen q ∧ ∀ r, path <+: r → r <+: q → r ≠ q → isOpen r := by
  induction hn : l.length using Nat.strong_induction_on generalizing l with
  | _ n ih =>
      by_cases hfirst : ∀ r, path <+: r → r <+: l → r ≠ l → isOpen r
      · exact ⟨l, h, List.prefix_rfl, hl, hfirst⟩
      · push Not at hfirst
        obtain ⟨r, hpath, hr, hne, hopen⟩ := hfirst
        have hlt : r.length < n := by
          rw [← hn]
          exact lt_of_le_of_ne hr.length_le fun hlen => hne (hr.eq_of_length hlen)
        obtain ⟨q, hpq, hqr, hq, hmin⟩ := ih r.length hlt hpath hopen rfl
        exact ⟨q, hpq, hqr.trans hr, hq, hmin⟩

structure Documented (lib : StringTrie α β) : Prop where
  get_empty : ∀ key, lib.get lib.empty key = none
  get_set : ∀ t key a key', lib.get (lib.set t key a) key' =
    if key' = key then some a else lib.get t key'
  traverse_node : ∀ factory t key, IsNode (lib.get t) (split ['/'] key) →
    ∃ b, lib.traverse factory t key = .ok b ∧
      Traverses (lib.get t) factory (split ['/'] key) b
  traverse_missing : ∀ factory t key, ¬ IsNode (lib.get t) (split ['/'] key) →
    lib.traverse factory t key = .error (.keyError key)

section OfDict

variable (t : Dict Str α) (factory : List Str → List β → Option α → β)

/-- The parts behind a path. -/
def childrenOf (path : List Str) : List Str :=
  (t.keys.filterMap fun key =>
    if path <+: split ['/'] key then (split ['/'] key)[path.length]? else none).dedup

/-- The traversal to a depth. -/
def visit : Nat → List Str → β
  | 0, path => factory path [] (t.get? (join ['/'] path))
  | depth + 1, path =>
      factory path ((childrenOf t path).map fun part => visit depth (path ++ [part]))
        (t.get? (join ['/'] path))

def depth : Nat := (t.keys.map fun key => (split ['/'] key).length).sum

def ofDict : StringTrie α β where
  T := Dict Str α
  empty := .empty
  get := Dict.get?
  set := Dict.set
  traverse factory t key :=
    if t.keys.any fun k => split ['/'] key <+: split ['/'] k then
      .ok (visit t factory (depth t) (split ['/'] key))
    else .error (.keyError key)

variable {t factory}

theorem concat_prefix_iff {path l : List Str} {part : Str} :
    path ++ [part] <+: l ↔ path <+: l ∧ l[path.length]? = some part := by
  constructor
  · rintro ⟨rest, rfl⟩
    refine ⟨⟨part :: rest, by simp⟩, ?_⟩
    simp
  · rintro ⟨⟨rest, rfl⟩, hpart⟩
    rw [List.getElem?_append_right (Nat.le_refl _), Nat.sub_self] at hpart
    cases rest with
    | nil => simp at hpart
    | cons x rest =>
        obtain rfl : x = part := by simpa using hpart
        exact ⟨rest, by simp⟩

theorem isNode_iff_mem_keys {path : List Str} :
    IsNode t.get? path ↔ ∃ key ∈ t.keys, path <+: split ['/'] key := by
  constructor
  · rintro ⟨key, a, hget, hpath⟩
    exact ⟨key, (Dict.get?_isSome_iff _ _).mp (by rw [hget]; rfl), hpath⟩
  · rintro ⟨key, hkey, hpath⟩
    obtain ⟨a, ha⟩ := Option.isSome_iff_exists.mp ((Dict.get?_isSome_iff t key).mpr hkey)
    exact ⟨key, a, ha, hpath⟩

theorem mem_childrenOf {path : List Str} {part : Str} :
    part ∈ childrenOf t path ↔ IsNode t.get? (path ++ [part]) := by
  rw [childrenOf, List.mem_dedup, List.mem_filterMap, isNode_iff_mem_keys]
  refine exists_congr fun key => and_congr_right fun _ => ?_
  rw [concat_prefix_iff]
  split_ifs with hpath
  · simp [hpath]
  · simp [hpath]

theorem visit_traverses :
    ∀ (n : Nat) (path : List Str),
      (∀ key ∈ t.keys, (split ['/'] key).length ≤ path.length + n) →
        Traverses t.get? factory path (visit t factory n path)
  | 0, path, hdepth => by
      have hchildren : ∀ part, part ∈ ([] : List Str) ↔ IsNode t.get? (path ++ [part]) := by
        intro part
        rw [isNode_iff_mem_keys]
        constructor
        · intro h
          exact absurd h (by simp)
        · rintro ⟨key, hkey, hpath⟩
          have hlen := hpath.length_le
          have hle := hdepth key hkey
          simp at hlen
          omega
      exact Traverses.node [] (fun _ => factory path [] none) List.nodup_nil hchildren (by simp)
  | n + 1, path, hdepth => by
      refine Traverses.node (childrenOf t path) (fun part => visit t factory n (path ++ [part]))
        (List.nodup_dedup _) (fun part => mem_childrenOf) ?_
      intro part _
      refine visit_traverses n (path ++ [part]) fun key hkey => ?_
      have hle := hdepth key hkey
      rw [List.length_append, List.length_singleton]
      omega

theorem ofDict_documented : (ofDict : StringTrie α β).Documented where
  get_empty _ := rfl
  get_set t key a key' := Dict.get?_set t key key' a
  traverse_node factory t key hnode := by
    obtain ⟨k, hk, hpath⟩ := isNode_iff_mem_keys.mp hnode
    have hany : (t.keys.any fun k => split ['/'] key <+: split ['/'] k) = true :=
      List.any_eq_true.mpr ⟨k, hk, by simpa using hpath⟩
    refine ⟨_, if_pos hany, visit_traverses _ _ fun key' hkey' => ?_⟩
    have hle : (split ['/'] key').length ≤ depth t :=
      List.single_le_sum (fun _ _ => Nat.zero_le _) _ (List.mem_map_of_mem hkey')
    omega
  traverse_missing factory t key hnode := by
    refine if_neg fun hany => hnode ?_
    obtain ⟨k, hk, hpath⟩ := List.any_eq_true.mp hany
    exact isNode_iff_mem_keys.mpr ⟨k, hk, by simpa using hpath⟩

end OfDict

end StringTrie

end Foundation
