import Mathlib.Data.List.Nodup
import Mathlib.Tactic

/-!
# Insertion-ordered dictionaries

A dictionary is its list of items together with the proof that no key occurs
twice.  `set` replaces the value of a present key in place and appends a new
key at the end; `erase` drops a key.

**Results.**  `get?_set`, `get?_erase`: how a lookup sees an update.
`mem_items_iff`: the items are exactly what lookups find.
`exists_get?_setAll`, `get?_setAll_cases`: a lookup after several assignments.
`get?_update`: a lookup in two dictionaries, one written over the other.
`get?_of_mapValuesM`: a lookup after all values were computed anew.
-/

namespace Foundation

universe u v w

structure Dict (κ : Type u) (α : Type v) where
  items : List (κ × α)
  nodup : (items.map Prod.fst).Nodup

namespace Dict

variable {κ : Type u} {α : Type v} {β : Type w}

instance [DecidableEq κ] [DecidableEq α] : DecidableEq (Dict κ α) :=
  fun d e => decidable_of_iff (d.items = e.items) <| by
    cases d
    cases e
    simp

@[ext] theorem ext_items {d e : Dict κ α} (h : d.items = e.items) : d = e := by
  cases d
  cases e
  simpa using h

def empty : Dict κ α := ⟨[], List.nodup_nil⟩

def keys (d : Dict κ α) : List κ := d.items.map Prod.fst

def values (d : Dict κ α) : List α := d.items.map Prod.snd

/-- The values changed, the keys kept. -/
def mapValues (f : κ → α → β) (d : Dict κ α) : Dict κ β :=
  ⟨d.items.map fun p => (p.1, f p.1 p.2), by
    have h : (d.items.map fun p => (p.1, f p.1 p.2)).map Prod.fst =
        d.items.map Prod.fst := by simp
    rw [h]
    exact d.nodup⟩

section Lookup

variable [DecidableEq κ]

def find (k : κ) : List (κ × α) → Option α
  | [] => none
  | p :: ps => if p.1 = k then some p.2 else find k ps

def get? (d : Dict κ α) (k : κ) : Option α := find k d.items

def setItems (k : κ) (a : α) : List (κ × α) → List (κ × α)
  | [] => [(k, a)]
  | p :: ps => if p.1 = k then (k, a) :: ps else p :: setItems k a ps

theorem mem_keys_setItems (k : κ) (a : α) (x : κ) :
    ∀ ps : List (κ × α),
      x ∈ (setItems k a ps).map Prod.fst ↔ x = k ∨ x ∈ ps.map Prod.fst
  | [] => by simp [setItems]
  | p :: ps => by
      have ih := mem_keys_setItems k a x ps
      unfold setItems
      split_ifs with h
      · simp only [List.map_cons, List.mem_cons, h]
        tauto
      · rw [List.map_cons, List.map_cons, List.mem_cons, List.mem_cons, ih]
        tauto

theorem nodup_setItems (k : κ) (a : α) :
    ∀ {ps : List (κ × α)}, (ps.map Prod.fst).Nodup →
      ((setItems k a ps).map Prod.fst).Nodup
  | [], _ => by simp [setItems]
  | p :: ps, hps => by
      rw [List.map_cons, List.nodup_cons] at hps
      obtain ⟨hp, hps⟩ := hps
      unfold setItems
      split_ifs with h
      · rw [List.map_cons, List.nodup_cons]
        exact ⟨h ▸ hp, hps⟩
      · rw [List.map_cons, List.nodup_cons, mem_keys_setItems]
        refine ⟨?_, nodup_setItems k a hps⟩
        rintro (hk | hk)
        · exact h hk
        · exact hp hk

def set (d : Dict κ α) (k : κ) (a : α) : Dict κ α :=
  ⟨setItems k a d.items, nodup_setItems k a d.nodup⟩

def erase (d : Dict κ α) (k : κ) : Dict κ α :=
  ⟨d.items.filter (fun p => p.1 ≠ k),
    d.nodup.sublist (List.filter_sublist.map Prod.fst)⟩

theorem find_setItems (k x : κ) (a : α) :
    ∀ ps : List (κ × α),
      find x (setItems k a ps) = if x = k then some a else find x ps
  | [] => by
      simp only [setItems, find, eq_comm]
  | p :: ps => by
      have ih := find_setItems k x a ps
      unfold setItems
      by_cases hx : x = k
      · rw [if_pos hx] at ih ⊢
        split_ifs with h
        · simp [find, hx]
        · have hpx : ¬ p.1 = x := fun hk => h (hk.trans hx)
          simpa [find, hpx] using ih
      · split_ifs with h
        · have hkx : ¬ k = x := fun hk => hx hk.symm
          simp [find, hkx, h]
        · simp only [find, ih, hx, if_false]

/-- A lookup after an update. -/
theorem get?_set (d : Dict κ α) (k x : κ) (a : α) :
    (d.set k a).get? x = if x = k then some a else d.get? x :=
  find_setItems k x a d.items

@[simp] theorem get?_set_self (d : Dict κ α) (k : κ) (a : α) :
    (d.set k a).get? k = some a := by
  simp [get?_set]

theorem get?_set_ne (d : Dict κ α) {k x : κ} (a : α) (h : x ≠ k) :
    (d.set k a).get? x = d.get? x := by
  simp [get?_set, h]

theorem find_append (k : κ) (qs : List (κ × α)) :
    ∀ ps : List (κ × α), find k (ps ++ qs) = (find k ps).or (find k qs)
  | [] => rfl
  | p :: ps => by
      have ih := find_append k qs ps
      rw [List.cons_append, find, find]
      split_ifs with h
      · rfl
      · exact ih

theorem find_eq_none_iff (k : κ) :
    ∀ ps : List (κ × α), find k ps = none ↔ k ∉ ps.map Prod.fst
  | [] => by simp [find]
  | p :: ps => by
      have ih := find_eq_none_iff k ps
      unfold find
      split_ifs with h
      · simp [h]
      · have h' : ¬ k = p.1 := fun hk => h hk.symm
        rw [ih, List.map_cons, List.mem_cons]
        tauto

theorem get?_eq_none_iff (d : Dict κ α) (k : κ) :
    d.get? k = none ↔ k ∉ d.keys :=
  find_eq_none_iff k d.items

theorem find_eq_some_iff {k : κ} {a : α} :
    ∀ {ps : List (κ × α)}, (ps.map Prod.fst).Nodup →
      (find k ps = some a ↔ (k, a) ∈ ps)
  | [], _ => by simp [find]
  | p :: ps, hps => by
      rw [List.map_cons, List.nodup_cons] at hps
      obtain ⟨hp, hps⟩ := hps
      have ih := find_eq_some_iff (k := k) (a := a) hps
      unfold find
      split_ifs with h
      · subst h
        constructor
        · intro ha
          rw [Option.some.injEq] at ha
          subst ha
          exact List.mem_cons_self
        · intro ha
          rcases List.mem_cons.mp ha with ha | ha
          · rw [← ha]
          · exact absurd (List.mem_map.mpr ⟨_, ha, rfl⟩) hp
      · rw [ih, List.mem_cons]
        constructor
        · exact Or.inr
        · rintro (ha | ha)
          · exact absurd (by rw [← ha]) h
          · exact ha

/-- The items of a dictionary are what its lookups find. -/
theorem mem_items_iff (d : Dict κ α) (k : κ) (a : α) :
    (k, a) ∈ d.items ↔ d.get? k = some a :=
  (find_eq_some_iff d.nodup).symm

theorem get?_isSome_iff (d : Dict κ α) (k : κ) :
    (d.get? k).isSome = true ↔ k ∈ d.keys := by
  rw [← Option.ne_none_iff_isSome, ne_eq, get?_eq_none_iff, not_not]

theorem get?_erase (d : Dict κ α) (k x : κ) :
    (d.erase k).get? x = if x = k then none else d.get? x := by
  split_ifs with h
  · rw [get?_eq_none_iff]
    simp [keys, erase, h]
  · cases hx : d.get? x with
    | none =>
        rw [get?_eq_none_iff] at hx ⊢
        intro hmem
        obtain ⟨p, hp, rfl⟩ := List.mem_map.mp hmem
        exact hx (List.mem_map.mpr ⟨p, (List.mem_filter.mp hp).1, rfl⟩)
    | some a =>
        rw [← mem_items_iff] at hx ⊢
        exact List.mem_filter.mpr ⟨hx, by simpa using h⟩

theorem find_map (f : κ → α → β) (k : κ) :
    ∀ ps : List (κ × α),
      find k (ps.map fun p => (p.1, f p.1 p.2)) = (find k ps).map (f k)
  | [] => rfl
  | p :: ps => by
      have ih := find_map f k ps
      by_cases h : p.1 = k
      · simp [find, h]
      · simp [find, h, ih]

@[simp] theorem get?_mapValues (f : κ → α → β) (d : Dict κ α) (k : κ) :
    (d.mapValues f).get? k = (d.get? k).map (f k) :=
  find_map f k d.items

theorem setItems_of_not_mem {k : κ} (a : α) :
    ∀ {ps : List (κ × α)}, k ∉ ps.map Prod.fst → setItems k a ps = ps ++ [(k, a)]
  | [], _ => rfl
  | p :: ps, h => by
      simp only [List.map_cons, List.mem_cons, not_or] at h
      rw [setItems, if_neg (Ne.symm h.1), setItems_of_not_mem a h.2]
      rfl

/-- A new key comes last. -/
theorem items_set_of_not_mem (d : Dict κ α) {k : κ} (a : α) (h : k ∉ d.keys) :
    (d.set k a).items = d.items ++ [(k, a)] :=
  setItems_of_not_mem a h

/-- The dictionary of some keys with one value, in the order of their first occurrence. -/
def fromKeys (a : α) (ks : List κ) : Dict κ α := ks.foldl (fun d k => d.set k a) empty

theorem get?_foldl_set (a : α) (x : κ) :
    ∀ (ks : List κ) (d : Dict κ α),
      (ks.foldl (fun d k => d.set k a) d).get? x = if x ∈ ks then some a else d.get? x
  | [], d => by simp
  | k :: ks, d => by
      rw [List.foldl_cons, get?_foldl_set a x ks, get?_set]
      by_cases hx : x = k
      · simp [hx]
      · simp [hx]

theorem get?_fromKeys (a : α) (ks : List κ) (x : κ) :
    (fromKeys a ks).get? x = if x ∈ ks then some a else none := by
  rw [fromKeys, get?_foldl_set]
  simp [empty, get?, find]

theorem mem_keys_fromKeys (a : α) (ks : List κ) (x : κ) :
    x ∈ (fromKeys a ks).keys ↔ x ∈ ks := by
  rw [← get?_isSome_iff, get?_fromKeys]
  split_ifs with h <;> simp [h]

theorem mem_items_fromKeys (a b : α) (ks : List κ) (x : κ) :
    (x, b) ∈ (fromKeys a ks).items ↔ x ∈ ks ∧ b = a := by
  rw [mem_items_iff, get?_fromKeys]
  split_ifs with h <;> simp [h, eq_comm]

/-- Assignments, one after the other. -/
def setAll (d : Dict κ α) (ps : List (κ × α)) : Dict κ α :=
  ps.foldl (fun d p => d.set p.1 p.2) d

@[simp] theorem setAll_nil (d : Dict κ α) : d.setAll [] = d := rfl

@[simp] theorem setAll_cons (d : Dict κ α) (p : κ × α) (ps : List (κ × α)) :
    d.setAll (p :: ps) = (d.set p.1 p.2).setAll ps := rfl

theorem setAll_append (d : Dict κ α) (ps qs : List (κ × α)) :
    d.setAll (ps ++ qs) = (d.setAll ps).setAll qs :=
  List.foldl_append

/-- New keys come last, in their order. -/
theorem items_setAll_of_nodup :
    ∀ {ps : List (κ × α)} (d : Dict κ α), ((d.items ++ ps).map Prod.fst).Nodup →
      (d.setAll ps).items = d.items ++ ps
  | [], d, _ => (List.append_nil _).symm
  | p :: ps, d, h => by
      have hp : p.1 ∉ d.keys := by
        rw [List.map_append, List.nodup_append] at h
        intro hmem
        exact h.2.2 p.1 hmem p.1 List.mem_cons_self rfl
      have hitems : (d.set p.1 p.2).items ++ ps = d.items ++ p :: ps := by
        rw [items_set_of_not_mem d p.2 hp, List.append_assoc, List.singleton_append]
      rw [setAll_cons, items_setAll_of_nodup _ (hitems ▸ h), hitems]

theorem items_setAll_empty {ps : List (κ × α)} (h : (ps.map Prod.fst).Nodup) :
    (empty.setAll ps).items = ps :=
  items_setAll_of_nodup empty h

@[simp] theorem get?_empty (x : κ) : (empty : Dict κ α).get? x = none := rfl

theorem get?_setAll_of_not_mem {x : κ} :
    ∀ {ps : List (κ × α)} (d : Dict κ α), x ∉ ps.map Prod.fst → (d.setAll ps).get? x = d.get? x
  | [], _, _ => rfl
  | p :: ps, d, h => by
      rw [List.map_cons, List.mem_cons, not_or] at h
      rw [setAll_cons, get?_setAll_of_not_mem _ h.2, get?_set_ne d p.2 h.1]

/-- An assigned key has a value that was assigned to it. -/
theorem exists_get?_setAll {x : κ} :
    ∀ {ps : List (κ × α)} (d : Dict κ α), x ∈ ps.map Prod.fst →
      ∃ a, (d.setAll ps).get? x = some a ∧ (x, a) ∈ ps
  | p :: ps, d, h => by
      by_cases hps : x ∈ ps.map Prod.fst
      · obtain ⟨a, ha, hmem⟩ := exists_get?_setAll (d.set p.1 p.2) hps
        exact ⟨a, ha, List.mem_cons_of_mem p hmem⟩
      · rw [List.map_cons, List.mem_cons] at h
        have hx : x = p.1 := h.resolve_right hps
        refine ⟨p.2, ?_, hx ▸ List.mem_cons_self⟩
        rw [setAll_cons, get?_setAll_of_not_mem _ hps, hx, get?_set_self]

theorem get?_setAll_cases {d : Dict κ α} {ps : List (κ × α)} {x : κ} {a : α}
    (h : (d.setAll ps).get? x = some a) : (x, a) ∈ ps ∨ d.get? x = some a := by
  by_cases hx : x ∈ ps.map Prod.fst
  · obtain ⟨b, hb, hmem⟩ := exists_get?_setAll d hx
    rw [h, Option.some.injEq] at hb
    exact Or.inl (hb ▸ hmem)
  · rw [get?_setAll_of_not_mem d hx] at h
    exact Or.inr h

theorem get?_setAll_empty {ps : List (κ × α)} (h : (ps.map Prod.fst).Nodup) (x : κ) :
    (empty.setAll ps).get? x = find x ps := by
  cases hfind : find x ps with
  | none => exact get?_setAll_of_not_mem _ ((find_eq_none_iff _ _).mp hfind)
  | some a =>
      have hmem := (find_eq_some_iff h).mp hfind
      obtain ⟨b, hb, hitem⟩ := exists_get?_setAll empty (List.mem_map_of_mem (f := Prod.fst) hmem)
      rw [hb, ← hfind, (find_eq_some_iff h).mpr hitem]

/-- `d | e` -/
def update (d e : Dict κ α) : Dict κ α := d.setAll e.items

theorem get?_update (d e : Dict κ α) (x : κ) :
    (d.update e).get? x = (e.get? x).or (d.get? x) := by
  cases hx : e.get? x with
  | none =>
      rw [get?_eq_none_iff] at hx
      rw [Option.none_or]
      exact get?_setAll_of_not_mem d hx
  | some a =>
      have hmem : x ∈ e.items.map Prod.fst :=
        List.mem_map.mpr ⟨(x, a), (mem_items_iff e x a).mpr hx, rfl⟩
      obtain ⟨b, hb, hitem⟩ := exists_get?_setAll d hmem
      rw [mem_items_iff, hx, Option.some.injEq] at hitem
      rw [Option.some_or, hitem]
      exact hb

/-- The items whose value is kept, with the new value. -/
def filterMapValues (f : κ → α → Option β) (d : Dict κ α) : Dict κ β :=
  ⟨d.items.filterMap fun p => (f p.1 p.2).map (p.1, ·), by
    have hkeys : ∀ ps : List (κ × α),
        List.Sublist ((ps.filterMap fun p => (f p.1 p.2).map (p.1, ·)).map Prod.fst)
          (ps.map Prod.fst) := by
      intro ps
      induction ps with
      | nil => exact List.Sublist.slnil
      | cons p ps ih =>
          rw [List.filterMap_cons]
          cases f p.1 p.2 with
          | none => exact ih.cons p.1
          | some b => exact ih.cons_cons p.1
    exact d.nodup.sublist (hkeys d.items)⟩

theorem find_filterMap (f : κ → α → Option β) (k : κ) :
    ∀ {ps : List (κ × α)}, (ps.map Prod.fst).Nodup →
      find k (ps.filterMap fun p => (f p.1 p.2).map (p.1, ·)) = (find k ps).bind (f k)
  | [], _ => rfl
  | p :: ps, hps => by
      rw [List.map_cons, List.nodup_cons] at hps
      have ih := find_filterMap f k hps.2
      rw [List.filterMap_cons]
      by_cases hk : p.1 = k
      · subst hk
        have hnone : find p.1 ps = none := (find_eq_none_iff _ _).mpr hps.1
        rw [hnone] at ih
        cases hf : f p.1 p.2 with
        | none => simpa [find, hf] using ih
        | some b => simp [find, hf]
      · cases hf : f p.1 p.2 with
        | none => simpa [find, hk] using ih
        | some b => simpa [find, hk] using ih

theorem get?_filterMapValues (f : κ → α → Option β) (d : Dict κ α) (k : κ) :
    (d.filterMapValues f).get? k = (d.get? k).bind (f k) :=
  find_filterMap f k d.nodup

end Lookup

section MapValuesM

variable {ε : Type w} {β : Type v}

/-- The items with their values computed one after the other. -/
def mapItemsM (f : κ → α → Except ε β) : List (κ × α) → Except ε (List (κ × β))
  | [] => .ok []
  | p :: ps =>
      match f p.1 p.2 with
      | .error e => .error e
      | .ok b =>
          match mapItemsM f ps with
          | .error e => .error e
          | .ok qs => .ok ((p.1, b) :: qs)

theorem mapItemsM_eq_ok_iff (f : κ → α → Except ε β) :
    ∀ (ps : List (κ × α)) (qs : List (κ × β)),
      mapItemsM f ps = .ok qs ↔
        List.Forall₂ (fun p q => q.1 = p.1 ∧ f p.1 p.2 = .ok q.2) ps qs
  | [], qs => by
      cases qs <;> simp [mapItemsM]
  | p :: ps, qs => by
      have ih := mapItemsM_eq_ok_iff f ps
      unfold mapItemsM
      cases hf : f p.1 p.2 with
      | error e => cases qs <;> simp [hf]
      | ok b =>
          cases hps : mapItemsM f ps with
          | error e =>
              cases qs with
              | nil => simp
              | cons q qs =>
                  have hno : ¬ List.Forall₂ (fun p q => q.1 = p.1 ∧ f p.1 p.2 = .ok q.2) ps qs := by
                    rw [← ih, hps]
                    simp
                  simp [hno]
          | ok rest =>
              cases qs with
              | nil => simp
              | cons q qs =>
                  obtain ⟨k, b'⟩ := q
                  rw [List.forall₂_cons, ← ih, hps, hf]
                  simp only [Except.ok.injEq, List.cons.injEq, Prod.mk.injEq]
                  tauto

theorem keys_of_mapItemsM {f : κ → α → Except ε β} {ps : List (κ × α)} {qs : List (κ × β)}
    (h : mapItemsM f ps = .ok qs) : qs.map Prod.fst = ps.map Prod.fst := by
  rw [mapItemsM_eq_ok_iff] at h
  induction h with
  | nil => rfl
  | cons hpq _ ih => rw [List.map_cons, List.map_cons, hpq.1, ih]

/-- The values computed one after the other, the keys kept. -/
def mapValuesM (f : κ → α → Except ε β) (d : Dict κ α) : Except ε (Dict κ β) :=
  match h : mapItemsM f d.items with
  | .error e => .error e
  | .ok items => .ok ⟨items, by
      rw [keys_of_mapItemsM h]
      exact d.nodup⟩

theorem exists_mapItemsM_eq_ok {f : κ → α → Except ε β} :
    ∀ {ps : List (κ × α)}, (∀ p ∈ ps, ∃ b, f p.1 p.2 = .ok b) → ∃ qs, mapItemsM f ps = .ok qs
  | [], _ => ⟨[], rfl⟩
  | p :: ps, h => by
      obtain ⟨b, hb⟩ := h p List.mem_cons_self
      obtain ⟨qs, hqs⟩ := exists_mapItemsM_eq_ok fun q hq => h q (List.mem_cons_of_mem p hq)
      refine ⟨(p.1, b) :: qs, ?_⟩
      simp only [mapItemsM, hb, hqs]

theorem mapItemsM_of_mapValuesM {f : κ → α → Except ε β} {d : Dict κ α} {d' : Dict κ β}
    (h : d.mapValuesM f = .ok d') : mapItemsM f d.items = .ok d'.items := by
  unfold mapValuesM at h
  split at h
  · cases h
  · rename_i items hitems
    rw [Except.ok.injEq] at h
    rw [hitems, ← h]

theorem exists_mapValuesM_eq_ok {f : κ → α → Except ε β} {d : Dict κ α}
    (h : ∀ p ∈ d.items, ∃ b, f p.1 p.2 = .ok b) : ∃ d', d.mapValuesM f = .ok d' := by
  obtain ⟨qs, hqs⟩ := exists_mapItemsM_eq_ok h
  unfold mapValuesM
  split
  · rename_i e he
    rw [hqs] at he
    cases he
  · exact ⟨_, rfl⟩

theorem keys_of_mapValuesM {f : κ → α → Except ε β} {d : Dict κ α} {d' : Dict κ β}
    (h : d.mapValuesM f = .ok d') : d'.keys = d.keys :=
  keys_of_mapItemsM (mapItemsM_of_mapValuesM h)

variable [DecidableEq κ]

theorem find_of_mapItemsM {f : κ → α → Except ε β} {ps : List (κ × α)}
    {qs : List (κ × β)} (h : mapItemsM f ps = .ok qs) (k : κ) :
    (find k ps = none ∧ find k qs = none) ∨
      ∃ a b, find k ps = some a ∧ f k a = .ok b ∧ find k qs = some b := by
  rw [mapItemsM_eq_ok_iff] at h
  induction h with
  | nil => exact Or.inl ⟨rfl, rfl⟩
  | @cons p q ps qs hpq _ ih =>
      unfold find
      rw [hpq.1]
      split_ifs with hk
      · subst hk
        exact Or.inr ⟨p.2, q.2, rfl, hpq.2, rfl⟩
      · exact ih

/-- A lookup after all values were computed. -/
theorem get?_of_mapValuesM {f : κ → α → Except ε β} {d : Dict κ α} {d' : Dict κ β}
    (h : d.mapValuesM f = .ok d') (k : κ) :
    (d.get? k = none ∧ d'.get? k = none) ∨
      ∃ a b, d.get? k = some a ∧ f k a = .ok b ∧ d'.get? k = some b :=
  find_of_mapItemsM (mapItemsM_of_mapValuesM h) k

end MapValuesM

end Dict
end Foundation
