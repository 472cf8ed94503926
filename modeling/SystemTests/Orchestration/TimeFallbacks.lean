import SystemTests.Orchestration.TimeStatistics

/-!
# The fallbacks of the scheduler (`utils/scripts/ci_orchestrators/compute-time-stats.py`, `workflow_data.py`)

The scheduler takes the average of a library, of a scenario, or of everything
where it knows no better.

**Results.**
* `exists_sortStat_iff`: what can be sorted.
* `load_spec`: what the lines of a CSV leave in the statistics.
* `exists_timeStats_iff`: when the statistics can be written.
* `LoadSpec.found`: where the scheduler finds a time.
* `timeStats_closes_never`: the average of all scenarios is in no file.
-/

namespace SystemTests
namespace Orchestration
namespace TimeStats

open Foundation Foundation.Text

section Sorting

variable {N : Type}

theorem sortRows_eq_ok_iff {rows sorted : List (Option Str × Stat N)} :
    sortRows rows = .ok sorted ↔
      List.Forall₂ (fun p q => q.1 = p.1 ∧ sortStat p.2 = .ok q.2) rows sorted := by
  induction rows generalizing sorted with
  | nil => cases sorted <;> simp [sortRows]
  | cons row rows ih =>
      rw [sortRows, Raised.bind_eq_ok]
      constructor
      · rintro ⟨value, hvalue, h⟩
        obtain ⟨rest, hrest, h⟩ := Raised.bind_eq_ok.mp h
        rw [Raised.pure_eq_ok] at h
        rw [← h]
        exact List.Forall₂.cons ⟨rfl, hvalue⟩ (ih.mp hrest)
      · intro h
        cases h with
        | @cons _ q _ rest hrow hrows =>
            refine ⟨q.2, hrow.2, ?_⟩
            rw [ih.mpr hrows, Raised.ok_bind, Raised.pure_eq_ok, ← hrow.1]

theorem find_of_forall₂ {rows sorted : List (Option Str × Stat N)}
    (h : List.Forall₂ (fun p q => q.1 = p.1 ∧ sortStat p.2 = .ok q.2) rows sorted)
    (k : Option Str) :
    (Dict.find k rows = none ∧ Dict.find k sorted = none) ∨
      ∃ v v', Dict.find k rows = some v ∧ sortStat v = .ok v' ∧ Dict.find k sorted = some v' := by
  induction h with
  | nil => exact Or.inl ⟨rfl, rfl⟩
  | @cons p q ps qs hpq _ ih =>
      unfold Dict.find
      rw [hpq.1]
      split_ifs with hk
      · exact Or.inr ⟨p.2, q.2, rfl, hpq.2, rfl⟩
      · exact ih

theorem find_filterMap_keys (rows : List (Option Str × Stat N)) (k : Option Str) :
    ∀ keys : List (Option Str),
      Dict.find k (keys.filterMap fun k => (Dict.find k rows).map fun value => (k, value)) =
        if k ∈ keys then Dict.find k rows else none
  | [] => by simp [Dict.find]
  | key :: keys => by
      have ih := find_filterMap_keys rows k keys
      rw [List.filterMap_cons]
      by_cases hk : key = k
      · subst hk
        rw [if_pos List.mem_cons_self]
        cases hfind : Dict.find key rows with
        | none =>
            rw [Option.map_none, ih, hfind]
            exact ite_self none
        | some v => simp [Dict.find]
      · have hmem : k ∈ key :: keys ↔ k ∈ keys := by simp [Ne.symm hk]
        cases hfind : Dict.find key rows with
        | none => simp only [Option.map_none, ih, hmem]
        | some v =>
            simp only [Option.map_some, Dict.find, if_neg hk, ih, hmem]

/-- A sorted dictionary has the keys it had, and their sorted values. -/
theorem sortStat_table {rows : List (Option Str × Stat N)} {t : Stat N}
    (h : sortStat (.table rows) = .ok t) :
    ∃ rows', t = .table rows' ∧ ∀ k,
      (Dict.find k rows = none ∧ Dict.find k rows' = none) ∨
        ∃ v v', Dict.find k rows = some v ∧ sortStat v = .ok v' ∧ Dict.find k rows' = some v' := by
  rw [sortStat, Raised.bind_eq_ok] at h
  obtain ⟨keys, hkeys, h⟩ := h
  obtain ⟨sorted, hsorted, h⟩ := Raised.bind_eq_ok.mp h
  rw [Raised.pure_eq_ok] at h
  have hmem : ∀ k, k ∈ keys ↔ k ∈ rows.map Prod.fst := by
    rw [sortedKeys] at hkeys
    split at hkeys
    · cases hkeys
    · rw [← Except.ok.inj hkeys]
      exact fun k => List.mem_mergeSort
  refine ⟨_, h.symm, fun k => ?_⟩
  rw [find_filterMap_keys]
  rcases find_of_forall₂ (sortRows_eq_ok_iff.mp hsorted) k with ⟨hnone, hnone'⟩ | ⟨v, v', hv, hs, hv'⟩
  · rw [hnone', ite_self]
    exact Or.inl ⟨hnone, rfl⟩
  · have hk : k ∈ rows.map Prod.fst := by
      by_contra hk
      rw [← Dict.find_eq_none_iff, hv] at hk
      cases hk
    rw [if_pos ((hmem k).mpr hk)]
    exact Or.inr ⟨v, v', hv, hs, hv'⟩

/-- A dictionary can be sorted when its values can, and `None` is not one of several keys. -/
theorem exists_sortStat_iff {rows : List (Option Str × Stat N)} :
    (∃ t, sortStat (.table rows) = .ok t) ↔
      ¬ (none ∈ rows.map Prod.fst ∧ 2 ≤ rows.length) ∧
        ∀ row ∈ rows, ∃ t, sortStat row.2 = .ok t := by
  have hrows : (∃ sorted, sortRows rows = .ok sorted) ↔ ∀ row ∈ rows, ∃ t, sortStat row.2 = .ok t := by
    induction rows with
    | nil => simp [sortRows]
    | cons row rows ih =>
        rw [List.forall_mem_cons, ← ih, sortRows]
        constructor
        · rintro ⟨sorted, h⟩
          obtain ⟨value, hvalue, h⟩ := Raised.bind_eq_ok.mp h
          obtain ⟨rest, hrest, -⟩ := Raised.bind_eq_ok.mp h
          exact ⟨⟨value, hvalue⟩, rest, hrest⟩
        · rintro ⟨⟨value, hvalue⟩, rest, hrest⟩
          exact ⟨_, by rw [hvalue, Raised.ok_bind, hrest, Raised.ok_bind]; rfl⟩
  rw [← hrows, sortStat, sortedKeys, List.length_map]
  constructor
  · rintro ⟨t, h⟩
    obtain ⟨keys, hkeys, h⟩ := Raised.bind_eq_ok.mp h
    obtain ⟨sorted, hsorted, -⟩ := Raised.bind_eq_ok.mp h
    refine ⟨fun hnone => ?_, sorted, hsorted⟩
    rw [if_pos hnone] at hkeys
    cases hkeys
  · rintro ⟨hnone, sorted, hsorted⟩
    exact ⟨_, by rw [if_neg hnone, Raised.ok_bind, hsorted, Raised.ok_bind]; rfl⟩

end Sorting

section Tables

variable {N : Type}

/-- Numbers, and one of them under `*`. -/
def IsWeblogTable (t : Stat N) : Prop :=
  ∃ rows, t = .table rows ∧ (∃ x, Dict.find (some star) rows = some (.number x)) ∧
    ∀ k v, Dict.find k rows = some v → ∃ x, v = .number x

/-- Statistics of libraries, and a number under `*`. -/
def IsLibraryTable (t : Stat N) : Prop :=
  ∃ rows, t = .table rows ∧ (∃ x, Dict.find (some star) rows = some (.number x)) ∧
    ∀ library v, library ≠ star → Dict.find (some library) rows = some v → IsWeblogTable v

theorem IsWeblogTable.sort {t t' : Stat N} (h : IsWeblogTable t) (hsort : sortStat t = .ok t') :
    IsWeblogTable t' := by
  obtain ⟨rows, rfl, ⟨x, hstar⟩, hnumbers⟩ := h
  obtain ⟨rows', rfl, hfind⟩ := sortStat_table hsort
  have hnumber : ∀ k v, Dict.find k rows' = some v → ∃ x, v = .number x := by
    intro k v hv
    rcases hfind k with ⟨-, hnone⟩ | ⟨w, w', hw, hsorted, hw'⟩
    · rw [hnone] at hv
      cases hv
    · obtain ⟨y, rfl⟩ := hnumbers k w hw
      rw [sortStat, Except.ok.injEq] at hsorted
      rw [hw', Option.some.injEq] at hv
      exact ⟨y, by rw [← hv, hsorted]⟩
  refine ⟨rows', rfl, ?_, hnumber⟩
  rcases hfind (some star) with ⟨hnone, -⟩ | ⟨w, w', -, -, hw'⟩
  · rw [hstar] at hnone
    cases hnone
  · obtain ⟨y, rfl⟩ := hnumber _ _ hw'
    exact ⟨y, hw'⟩

theorem IsLibraryTable.sort {t t' : Stat N} (h : IsLibraryTable t) (hsort : sortStat t = .ok t') :
    IsLibraryTable t' := by
  obtain ⟨rows, rfl, ⟨x, hstar⟩, htables⟩ := h
  obtain ⟨rows', rfl, hfind⟩ := sortStat_table hsort
  refine ⟨rows', rfl, ?_, fun library v hlibrary hv => ?_⟩
  · rcases hfind (some star) with ⟨hnone, -⟩ | ⟨w, w', hw, hsorted, hw'⟩
    · rw [hstar] at hnone
      cases hnone
    · rw [hstar, Option.some.injEq] at hw
      rw [← hw, sortStat, Except.ok.injEq] at hsorted
      exact ⟨x, by rw [hw', hsorted]⟩
  · rcases hfind (some library) with ⟨-, hnone⟩ | ⟨w, w', hw, hsorted, hw'⟩
    · rw [hnone] at hv
      cases hv
    · rw [hw', Option.some.injEq] at hv
      exact hv ▸ (htables library w hlibrary hw).sort hsorted

theorem weblogTable_isWeblogTable (durations : Dict (Option Str) N) (x : N) :
    IsWeblogTable (weblogTable durations x) := by
  have hfind : ∀ k, Dict.find k
      ((durations.set (some star) x).mapValues fun _ x => Stat.number x).items =
        ((durations.set (some star) x).get? k).map Stat.number :=
    fun k => Dict.get?_mapValues (fun _ x => Stat.number x) (durations.set (some star) x) k
  refine ⟨_, rfl, ⟨x, ?_⟩, fun k v hv => ?_⟩
  · rw [hfind, Dict.get?_set_self, Option.map_some]
  · rw [hfind, Option.map_eq_some_iff] at hv
    obtain ⟨y, -, rfl⟩ := hv
    exact ⟨y, rfl⟩

theorem find_map_some {α : Type} (k : Str) :
    ∀ items : List (Str × α),
      Dict.find (some k) (items.map fun p => (some p.1, p.2)) = Dict.find k items
  | [] => rfl
  | p :: items => by
      have ih := find_map_some k items
      simp only [List.map_cons, Dict.find, Option.some.injEq, ih]

theorem find_libraryTable (libraries : Dict Str (N × Stat N)) (x : N) (k : Str) :
    Dict.find (some k) (((libraries.mapValues fun _ p => p.2).set star (.number x)).items.map
        fun p => (some p.1, p.2)) =
      if k = star then some (.number x) else (libraries.get? k).map Prod.snd := by
  rw [find_map_some]
  have hset := Dict.get?_set (libraries.mapValues fun _ p => p.2) star k (Stat.number x)
  rw [Dict.get?_mapValues] at hset
  exact hset

theorem libraryTable_isLibraryTable {libraries : Dict Str (N × Stat N)} (x : N)
    (h : ∀ library p, libraries.get? library = some p → IsWeblogTable p.2) :
    IsLibraryTable (libraryTable libraries x) := by
  refine ⟨_, rfl, ⟨x, ?_⟩, fun library v hlibrary hv => ?_⟩
  · rw [find_libraryTable, if_pos rfl]
  · rw [find_libraryTable, if_neg hlibrary, Option.map_eq_some_iff] at hv
    obtain ⟨p, hp, rfl⟩ := hv
    exact h library p hp

/-- The durations of a library can be sorted if they are all those of a weblog. -/
theorem exists_sort_weblogTable_iff (durations : Dict (Option Str) N) (x : N) :
    (∃ t, sortStat (weblogTable durations x) = .ok t) ↔ none ∉ durations.keys := by
  have hkeys : ∀ k, k ∈ (((durations.set (some star) x).mapValues
      fun _ x => Stat.number x).items.map Prod.fst) ↔ k = some star ∨ k ∈ durations.keys := by
    intro k
    have hmap : (((durations.set (some star) x).mapValues fun _ x => Stat.number x).items.map
        Prod.fst) = (durations.set (some star) x).items.map Prod.fst := by
      simp [Dict.mapValues]
    rw [hmap]
    exact Dict.mem_keys_setItems (some star) x k durations.items
  rw [weblogTable, exists_sortStat_iff]
  constructor
  · rintro ⟨hnone, -⟩ hmem
    refine hnone ⟨(hkeys none).mpr (Or.inr hmem), ?_⟩
    have hsub : [none, some star] ⊆ (((durations.set (some star) x).mapValues
        fun _ x => Stat.number x).items.map Prod.fst) := by
      intro k hk
      rcases List.mem_cons.mp hk with rfl | hk
      · exact (hkeys _).mpr (Or.inr hmem)
      · rw [List.mem_singleton.mp hk]
        exact (hkeys _).mpr (Or.inl rfl)
    have hlength := (List.subperm_of_subset (by simp) hsub).length_le
    rwa [List.length_map] at hlength
  · intro hnone
    refine ⟨fun h => ?_, fun row hrow => ?_⟩
    · rcases (hkeys none).mp h.1 with h | h
      · cases h
      · exact hnone h
    · obtain ⟨item, -, rfl⟩ := List.mem_map.mp hrow
      exact ⟨_, sortStat.eq_1 item.2⟩

theorem exists_sort_libraryTable_iff {libraries : Dict Str (N × Stat N)} (x : N)
    (hstar : star ∉ libraries.keys) :
    (∃ t, sortStat (libraryTable libraries x) = .ok t) ↔
      ∀ library p, libraries.get? library = some p → ∃ t, sortStat p.2 = .ok t := by
  rw [libraryTable, exists_sortStat_iff]
  have hitems : ∀ k v, (k, v) ∈ ((libraries.mapValues fun _ p => p.2).set star (.number x)).items ↔
      (if k = star then some (.number x) else (libraries.get? k).map Prod.snd) = some v := by
    intro k v
    rw [Dict.mem_items_iff, Dict.get?_set, Dict.get?_mapValues]
  constructor
  · rintro ⟨-, hrows⟩ library p hp
    have hne : library ≠ star := by
      rintro rfl
      exact hstar ((Dict.get?_isSome_iff _ _).mp (by rw [hp]; rfl))
    refine hrows (some library, p.2) (List.mem_map.mpr ⟨(library, p.2), (hitems _ _).mpr ?_, rfl⟩)
    rw [if_neg hne, hp]
    rfl
  · intro h
    refine ⟨fun hnone => ?_, fun row hrow => ?_⟩
    · obtain ⟨row, hrow, hkey⟩ := List.mem_map.mp hnone.1
      obtain ⟨item, -, rfl⟩ := List.mem_map.mp hrow
      cases hkey
    · obtain ⟨⟨k, v⟩, hitem, rfl⟩ := List.mem_map.mp hrow
      have hvalue := (hitems k v).mp hitem
      split at hvalue
      · rw [← Option.some.inj hvalue]
        exact ⟨_, sortStat.eq_1 x⟩
      · obtain ⟨p, hp, rfl⟩ := Option.map_eq_some_iff.mp hvalue
        exact h k p hp

end Tables

section Load

variable {N : Type} {py : Python N} {order : SetOrder Str}

/-- A run of a scenario that was measured. -/
def RunRecorded (data : Data N) (scenario lang : Str) (weblog : Option Str) : Prop :=
  weblog ∈ (Data.entry (Data.entry data.scenarioDurations scenario) lang).keys

def BuildRecorded (data : Data N) (lang : Str) (weblog : Option Str) : Prop :=
  weblog ∈ (Data.entry data.buildDurations lang).keys.map fun key => key.2.2

/-- No dictionary of the statistics is empty. -/
structure Filled (data : Data N) : Prop where
  scenarios : ∀ scenario langs, data.scenarioDurations.get? scenario = some langs → langs.keys ≠ []
  langs : ∀ scenario langs lang weblogs, data.scenarioDurations.get? scenario = some langs →
    langs.get? lang = some weblogs → weblogs.keys ≠ []
  builds : ∀ lang durations, data.buildDurations.get? lang = some durations → durations.keys ≠ []

theorem mem_keys_set {κ α : Type} [DecidableEq κ] (d : Dict κ α) (k x : κ) (a : α) :
    x ∈ (d.set k a).keys ↔ x = k ∨ x ∈ d.keys :=
  Dict.mem_keys_setItems k a x d.items

theorem entry_set {κ α β : Type} [DecidableEq κ] (d : Dict κ (Dict α β)) (k x : κ)
    (e : Dict α β) : Data.entry (d.set k e) x = if x = k then e else Data.entry d x := by
  rw [Data.entry, Dict.get?_set]
  split
  · rfl
  · rfl

theorem entry_of_get? {κ α β : Type} [DecidableEq κ] {d : Dict κ (Dict α β)} {k : κ}
    {e : Dict α β} (h : d.get? k = some e) : Data.entry d k = e := by
  rw [Data.entry, h]
  rfl

theorem get?_of_mem_entry {κ α β : Type} [DecidableEq κ] {d : Dict κ (Dict α β)} {k : κ} {x : α}
    (h : x ∈ (Data.entry d k).keys) : d.get? k = some (Data.entry d k) := by
  cases hget : d.get? k with
  | none =>
      rw [Data.entry, hget] at h
      exact absurd h List.not_mem_nil
  | some e => rw [entry_of_get? hget]

theorem ne_nil_of_mem_keys {κ α : Type} {d : Dict κ α} {k : κ} (h : k ∈ d.keys) : d.keys ≠ [] :=
  List.ne_nil_of_mem h

theorem Filled.new : Filled (Data.new : Data N) where
  scenarios _ _ h := by cases h
  langs _ _ _ _ h := by cases h
  builds _ _ h := by cases h

theorem Filled.store {data : Data N} (h : Filled data) (m : Measurement N) :
    Filled (data.store m) := by
  cases m with
  | run scenario lang weblog duration =>
      refine ⟨fun s langs hs => ?_, fun s langs l weblogs hs hl => ?_, h.builds⟩
      · rw [Data.store, Dict.get?_set] at hs
        split at hs
        · rw [← Option.some.inj hs]
          exact ne_nil_of_mem_keys ((mem_keys_set _ _ _ _).mpr (Or.inl rfl))
        · exact h.scenarios s langs hs
      · rw [Data.store, Dict.get?_set] at hs
        split at hs
        · rw [← Option.some.inj hs, Dict.get?_set] at hl
          split at hl
          · rw [← Option.some.inj hl]
            exact ne_nil_of_mem_keys ((mem_keys_set _ _ _ _).mpr (Or.inl rfl))
          · rw [Data.entry] at hl
            cases hget : data.scenarioDurations.get? scenario with
            | none =>
                rw [hget] at hl
                cases hl
            | some langs' =>
                rw [hget] at hl
                exact h.langs scenario langs' l weblogs hget hl
        · exact h.langs s langs l weblogs hs hl
  | build lang workflow job weblog seconds =>
      refine ⟨h.scenarios, h.langs, fun l durations hl => ?_⟩
      rw [Data.store, Dict.get?_set] at hl
      split at hl
      · rw [← Option.some.inj hl]
        exact ne_nil_of_mem_keys ((mem_keys_set _ _ _ _).mpr (Or.inl rfl))
      · exact h.builds l durations hl

theorem runRecorded_store_run (data : Data N) (scenario lang s l : Str) (weblog w : Option Str)
    (duration : N) :
    RunRecorded (data.store (.run scenario lang weblog duration)) s l w ↔
      RunRecorded data s l w ∨ (s = scenario ∧ l = lang ∧ w = weblog) := by
  simp only [RunRecorded, Data.store, entry_set]
  by_cases hs : s = scenario
  · subst hs
    rw [if_pos rfl, entry_set]
    by_cases hl : l = lang
    · subst hl
      rw [if_pos rfl, mem_keys_set, or_comm]
      simp
    · rw [if_neg hl]
      simp [hl]
  · rw [if_neg hs]
    simp [hs]

theorem buildRecorded_store_build (data : Data N) (lang workflow job l : Str)
    (weblog w : Option Str) (seconds : Int) :
    BuildRecorded (data.store (.build lang workflow job weblog seconds)) l w ↔
      BuildRecorded data l w ∨ (l = lang ∧ w = weblog) := by
  simp only [BuildRecorded, Data.store, entry_set]
  by_cases hl : l = lang
  · subst hl
    simp only [if_true, List.mem_map, mem_keys_set]
    constructor
    · rintro ⟨key, rfl | hkey, rfl⟩
      · exact Or.inr ⟨trivial, rfl⟩
      · exact Or.inl ⟨key, hkey, rfl⟩
    · rintro (⟨key, hkey, rfl⟩ | ⟨-, rfl⟩)
      · exact ⟨key, Or.inr hkey, rfl⟩
      · exact ⟨(workflow, job, w), Or.inl rfl, rfl⟩
  · rw [if_neg hl]
    simp [hl]

/-- A line was measured, and this is what it adds. -/
def Measured (py : Python N) (order : SetOrder Str) (lines : List Str) (m : Measurement N) : Prop :=
  ∃ line ∈ lines, measure py order line = .ok (some m)

/-- What the statistics hold after some lines. -/
structure LoadSpec (py : Python N) (order : SetOrder Str) (lines : List Str) (data : Data N) :
    Prop where
  filled : Filled data
  runs : ∀ scenario lang weblog, RunRecorded data scenario lang weblog ↔
    ∃ duration, Measured py order lines (.run scenario lang weblog duration)
  builds : ∀ lang weblog, BuildRecorded data lang weblog ↔
    ∃ workflow job seconds, Measured py order lines (.build lang workflow job weblog seconds)

theorem measured_append {lines : List Str} {line : Str} {m : Measurement N} :
    Measured py order (lines ++ [line]) m ↔
      Measured py order lines m ∨ measure py order line = .ok (some m) := by
  simp only [Measured, List.mem_append, List.mem_singleton]
  constructor
  · rintro ⟨l, hl | rfl, h⟩
    · exact Or.inl ⟨l, hl, h⟩
    · exact Or.inr h
  · rintro (⟨l, hl, h⟩ | h)
    · exact ⟨l, Or.inl hl, h⟩
    · exact ⟨line, Or.inr rfl, h⟩

theorem LoadSpec.append {lines : List Str} {line : Str} {data data' : Data N}
    (h : LoadSpec py order lines data) (happend : append py order data line = .ok data') :
    LoadSpec py order (lines ++ [line]) data' := by
  obtain ⟨result, hmeasure, hresult⟩ := Raised.bind_eq_ok.mp happend
  cases result with
  | none =>
      rw [Raised.pure_eq_ok] at hresult
      subst hresult
      have hsame : ∀ m, Measured py order (lines ++ [line]) m ↔ Measured py order lines m := by
        intro m
        rw [measured_append, hmeasure]
        simp
      exact ⟨h.filled, by simpa only [hsame] using h.runs, by simpa only [hsame] using h.builds⟩
  | some m =>
      rw [Raised.pure_eq_ok] at hresult
      subst hresult
      have hnew : ∀ m', Measured py order (lines ++ [line]) m' ↔
          Measured py order lines m' ∨ m' = m := by
        intro m'
        rw [measured_append, hmeasure, Except.ok.injEq, Option.some.injEq, eq_comm (a := m)]
      refine ⟨h.filled.store m, fun scenario lang weblog => ?_, fun lang weblog => ?_⟩
      · simp only [hnew]
        cases m with
        | run s l w d =>
            rw [runRecorded_store_run, h.runs]
            simp only [Measurement.run.injEq]
            constructor
            · rintro (⟨duration, hm⟩ | ⟨rfl, rfl, rfl⟩)
              · exact ⟨duration, Or.inl hm⟩
              · exact ⟨d, Or.inr ⟨rfl, rfl, rfl, rfl⟩⟩
            · rintro ⟨duration, hm | ⟨rfl, rfl, rfl, -⟩⟩
              · exact Or.inl ⟨duration, hm⟩
              · exact Or.inr ⟨rfl, rfl, rfl⟩
        | build l wf j w n =>
            simp only [reduceCtorEq, or_false]
            exact h.runs scenario lang weblog
      · simp only [hnew]
        cases m with
        | run s l w d =>
            simp only [reduceCtorEq, or_false]
            exact h.builds lang weblog
        | build l wf j w n =>
            rw [buildRecorded_store_build, h.builds]
            simp only [Measurement.build.injEq]
            constructor
            · rintro (⟨workflow, job, seconds, hm⟩ | ⟨rfl, rfl⟩)
              · exact ⟨workflow, job, seconds, Or.inl hm⟩
              · exact ⟨wf, j, n, Or.inr ⟨rfl, rfl, rfl, rfl, rfl⟩⟩
            · rintro ⟨workflow, job, seconds, hm | ⟨rfl, -, -, rfl, -⟩⟩
              · exact Or.inl ⟨workflow, job, seconds, hm⟩
              · exact Or.inr ⟨rfl, rfl⟩

theorem load_spec {lines : List Str} {data : Data N} (h : load py order lines = .ok data) :
    LoadSpec py order lines data := by
  have hrun : ∀ (rest done : List Str) (start : Data N), LoadSpec py order done start →
      rest.foldlM (append py order) start = .ok data → LoadSpec py order (done ++ rest) data := by
    intro rest
    induction rest with
    | nil =>
        intro done start hstart hfold
        rw [List.foldlM_nil, Raised.pure_eq_ok] at hfold
        rw [List.append_nil]
        exact hfold ▸ hstart
    | cons line rest ih =>
        intro done start hstart hfold
        rw [List.foldlM_cons] at hfold
        obtain ⟨next, hnext, hfold⟩ := Raised.bind_eq_ok.mp hfold
        rw [List.append_cons]
        exact ih (done ++ [line]) next (hstart.append hnext) hfold
  refine hrun lines [] Data.new ⟨Filled.new, fun _ _ _ => ?_, fun _ _ => ?_⟩ h
  · simp [RunRecorded, Data.new, Measured, Data.entry, Dict.empty, Dict.keys, Dict.get?, Dict.find]
  · simp [BuildRecorded, Data.new, Measured, Data.entry, Dict.empty, Dict.keys, Dict.get?, Dict.find]

end Load

section Statistics

variable {N : Type} (py : Python N)

theorem average_eq_ok {xs : List N} (h : xs ≠ []) :
    average py xs = .ok (py.divide (py.sum xs) xs.length) := if_neg h

theorem values_ne_nil {κ α : Type} {d : Dict κ α} (h : d.keys ≠ []) : d.values ≠ [] := by
  rw [Dict.values, ne_eq, List.map_eq_nil_iff]
  rintro hitems
  exact h (by rw [Dict.keys, hitems, List.map_nil])

theorem libraryStatistics_eq_ok {weblogs : Dict (Option Str) N} (h : weblogs.keys ≠ []) :
    ∃ x, libraryStatistics py weblogs = .ok (x, weblogTable weblogs x) :=
  ⟨_, by rw [libraryStatistics, average_eq_ok py (values_ne_nil h)]; rfl⟩

/-- The statistics of libraries, each of the weblogs that were recorded for it. -/
structure Describes (libraries : Dict Str (N × Stat N)) (recorded : Str → Option Str → Prop) :
    Prop where
  tables : ∀ lang p, libraries.get? lang = some p → ∃ durations x, p.2 = weblogTable durations x ∧
    ∀ weblog, weblog ∈ durations.keys ↔ recorded lang weblog
  known : ∀ lang weblog, recorded lang weblog → lang ∈ libraries.keys

theorem Describes.isLibraryTable {libraries : Dict Str (N × Stat N)}
    {recorded : Str → Option Str → Prop} (h : Describes libraries recorded) (x : N) :
    IsLibraryTable (libraryTable libraries x) := by
  refine libraryTable_isLibraryTable x fun lang p hp => ?_
  obtain ⟨durations, y, hy, -⟩ := h.tables lang p hp
  rw [hy]
  exact weblogTable_isWeblogTable durations y

theorem Describes.exists_sort_iff {libraries : Dict Str (N × Stat N)}
    {recorded : Str → Option Str → Prop} (h : Describes libraries recorded) (x : N)
    (hstar : star ∉ libraries.keys) :
    (∃ t, sortStat (libraryTable libraries x) = .ok t) ↔ ∀ lang, ¬ recorded lang none := by
  rw [exists_sort_libraryTable_iff x hstar]
  constructor
  · intro hsort lang hnone
    obtain ⟨p, hp⟩ := Option.isSome_iff_exists.mp
      ((Dict.get?_isSome_iff _ _).mpr (h.known lang none hnone))
    obtain ⟨durations, y, hy, hkeys⟩ := h.tables lang p hp
    have hsorted := hsort lang p hp
    rw [hy, exists_sort_weblogTable_iff, hkeys] at hsorted
    exact hsorted hnone
  · intro hnone lang p hp
    obtain ⟨durations, y, hy, hkeys⟩ := h.tables lang p hp
    rw [hy, exists_sort_weblogTable_iff, hkeys]
    exact hnone lang

/-- The statistics of a scenario can be computed. -/
theorem scenarioStatistics_spec {langs : Dict Str (Dict (Option Str) N)}
    (h : ∀ lang weblogs, langs.get? lang = some weblogs → weblogs.keys ≠ []) :
    ∃ (libraries : Dict Str (N × Stat N)) (x : N),
      scenarioStatistics py langs = .ok (libraryTable libraries x) ∧ libraries.keys = langs.keys ∧
      Describes libraries fun lang weblog => weblog ∈ (Data.entry langs lang).keys := by
  obtain ⟨libraries, hlibraries⟩ := Dict.exists_mapValuesM_eq_ok (d := langs)
    (f := fun _ weblogs => libraryStatistics py weblogs) fun p hp => by
      obtain ⟨x, hx⟩ := libraryStatistics_eq_ok py
        (h p.1 p.2 ((Dict.mem_items_iff _ _ _).mp hp))
      exact ⟨_, hx⟩
  refine ⟨libraries, averageOfAverages py (libraries.values.map Prod.fst), ?_,
    Dict.keys_of_mapValuesM hlibraries, ⟨fun lang p hp => ?_, fun lang weblog hmem => ?_⟩⟩
  · rw [scenarioStatistics, hlibraries]
    rfl
  · rcases Dict.get?_of_mapValuesM hlibraries lang with ⟨-, hnone⟩ | ⟨weblogs, q, hw, hq, hget⟩
    · rw [hnone] at hp
      cases hp
    · obtain ⟨x, hx⟩ := libraryStatistics_eq_ok py (h lang weblogs hw)
      rw [hx, Except.ok.injEq] at hq
      rw [hp, Option.some.injEq] at hget
      refine ⟨weblogs, x, by rw [hget, ← hq], fun weblog => ?_⟩
      rw [entry_of_get? hw]
  · rw [Dict.keys_of_mapValuesM hlibraries, ← Dict.get?_isSome_iff, get?_of_mem_entry hmem]
    rfl

theorem mem_keys_byWeblog (durations : Dict (Str × Str × Option Str) Int) (weblog : Option Str) :
    weblog ∈ (byWeblog durations).keys ↔ weblog ∈ durations.keys.map fun key => key.2.2 := by
  have hkeys : (durations.items.map fun p => (p.1.2.2, p.2)).map Prod.fst =
      durations.keys.map fun key => key.2.2 := by
    simp [Dict.keys]
  rw [← hkeys, ← Dict.get?_isSome_iff, byWeblog]
  constructor
  · intro hsome
    obtain ⟨n, hn⟩ := Option.isSome_iff_exists.mp hsome
    rcases Dict.get?_setAll_cases hn with hmem | hempty
    · exact List.mem_map.mpr ⟨_, hmem, rfl⟩
    · rw [Dict.get?_empty] at hempty
      cases hempty
  · intro hmem
    obtain ⟨n, hn, -⟩ := Dict.exists_get?_setAll Dict.empty hmem
    rw [hn]
    rfl

theorem keys_mapValues {κ α β : Type} (f : κ → α → β) (d : Dict κ α) :
    (d.mapValues f).keys = d.keys := by
  simp [Dict.keys, Dict.mapValues]

/-- What the build statistics are when they can be computed. -/
theorem getBuildStatistics_spec {data : Data N} {build : Stat N}
    (h : getBuildStatistics py data = .ok build) :
    ∃ (libraries : Dict Str (N × Stat N)) (x : N), build = libraryTable libraries x ∧
      libraries.keys = data.buildDurations.keys ∧ Describes libraries (BuildRecorded data) := by
  obtain ⟨libraries, hlibraries, hbuild⟩ := Raised.bind_eq_ok.mp h
  rw [Raised.pure_eq_ok] at hbuild
  refine ⟨libraries, _, hbuild.symm, Dict.keys_of_mapValuesM hlibraries,
    ⟨fun lang p hp => ?_, fun lang weblog hmem => ?_⟩⟩
  · rcases Dict.get?_of_mapValuesM hlibraries lang with ⟨-, hnone⟩ | ⟨durations, q, hd, hq, hget⟩
    · rw [hnone] at hp
      cases hp
    · obtain ⟨x, -, hx⟩ := Raised.bind_eq_ok.mp hq
      rw [Raised.pure_eq_ok] at hx
      rw [hp, Option.some.injEq] at hget
      refine ⟨_, x, by rw [hget, ← hx], fun weblog => ?_⟩
      rw [keys_mapValues, mem_keys_byWeblog, BuildRecorded, entry_of_get? hd]
  · obtain ⟨key, hkey, -⟩ := List.mem_map.mp hmem
    rw [Dict.keys_of_mapValuesM hlibraries, ← Dict.get?_isSome_iff, get?_of_mem_entry hkey]
    rfl

/-- The run statistics can be computed, scenario by scenario. -/
theorem getRunStatistics_spec {data : Data N} (h : Filled data) :
    ∃ scenarios : Dict Str (Stat N),
      getRunStatistics py data = .ok (.table (scenarios.items.map fun p => (some p.1, p.2))) ∧
      scenarios.keys = data.scenarioDurations.keys ∧
      ∀ scenario t, scenarios.get? scenario = some t → ∃ (libraries : Dict Str (N × Stat N)) (x : N),
        t = libraryTable libraries x ∧
        libraries.keys = (Data.entry data.scenarioDurations scenario).keys ∧
        Describes libraries (RunRecorded data scenario) := by
  obtain ⟨scenarios, hscenarios⟩ := Dict.exists_mapValuesM_eq_ok (d := data.scenarioDurations)
    (f := fun _ langs => scenarioStatistics py langs) fun p hp => by
      obtain ⟨libraries, x, hx, -⟩ := scenarioStatistics_spec py
        (h.langs p.1 p.2 · · ((Dict.mem_items_iff _ _ _).mp hp))
      exact ⟨_, hx⟩
  refine ⟨scenarios, ?_, Dict.keys_of_mapValuesM hscenarios, fun scenario t ht => ?_⟩
  · rw [getRunStatistics, hscenarios]
    rfl
  · rcases Dict.get?_of_mapValuesM hscenarios scenario with ⟨-, hnone⟩ | ⟨langs, q, hl, hq, hget⟩
    · rw [hnone] at ht
      cases ht
    · obtain ⟨libraries, x, hx, hkeys, hdescribes⟩ :=
        scenarioStatistics_spec py (h.langs scenario langs · · hl)
      rw [hx, Except.ok.injEq] at hq
      rw [ht, Option.some.injEq] at hget
      refine ⟨libraries, x, hget.trans hq.symm, ?_, ?_⟩
      · rw [entry_of_get? hl, hkeys]
      · have hrecorded : RunRecorded data scenario =
            fun lang weblog => weblog ∈ (Data.entry langs lang).keys := by
          funext lang weblog
          rw [RunRecorded, entry_of_get? hl]
        rw [hrecorded]
        exact hdescribes

end Statistics

section Words

variable {N : Type} {py : Python N} {order : SetOrder Str}

def Measurement.lang : Measurement N → Str
  | .run _ lang _ _ => lang
  | .build lang _ _ _ _ => lang

theorem addWord_lang {jobName key : Str} {words words' : JobWords}
    (h : addWord py jobName words key = .ok words')
    (hlang : ∀ lang, words.lang = some lang → lang ∈ languages) :
    ∀ lang, words'.lang = some lang → lang ∈ languages := by
  unfold addWord at h
  split_ifs at h with hskip hdecimal hci hnone hkey hlangNone
  · exact Except.ok.inj h ▸ hlang
  · exact Except.ok.inj h ▸ hlang
  · rw [← Except.ok.inj h]
    exact hlang
  · rw [← Except.ok.inj h]
    rintro lang hl
    rw [← Option.some.inj hl]
    exact hkey
  · split at h
    · rw [← Except.ok.inj h]
      exact hlang
    · cases h

/-- What is measured is of a language that the statistics know. -/
theorem measure_lang {line : Str} {m : Measurement N} (h : measure py order line = .ok (some m)) :
    m.lang ∈ languages := by
  unfold measure at h
  dsimp only at h
  split at h
  · rename_i jobName _ _ _ _ _ _
    split at h
    · cases h
    · split at h
      · cases h
      · obtain ⟨words, hwords, h⟩ := Raised.bind_eq_ok.mp h
        obtain ⟨ci, -, h⟩ := Raised.bind_eq_ok.mp h
        obtain ⟨lang, hlang, h⟩ := Raised.bind_eq_ok.mp h
        obtain ⟨category, -, h⟩ := Raised.bind_eq_ok.mp h
        obtain ⟨seconds, -, h⟩ := Raised.bind_eq_ok.mp h
        have hknown : lang ∈ languages := by
          have hwordLang := Raised.foldlM_invariant
            (P := fun words => ∀ lang, words.lang = some lang → lang ∈ languages)
            (fun _ _ _ hstep hlang => addWord_lang hstep hlang) hwords fun _ hl => by cases hl
          rw [Raised.ofOption_eq_ok_iff] at hlang
          split at hlang
          · rw [← Option.some.inj hlang]
            decide
          · exact hwordLang lang hlang
        split_ifs at h
        · rw [Raised.pure_eq_ok, Option.some.injEq] at h
          rw [← h]
          exact hknown
        · obtain ⟨n, -, h⟩ := Raised.bind_eq_ok.mp h
          rw [Raised.pure_eq_ok, Option.some.injEq] at h
          rw [← h]
          exact hknown
        · cases h
  · cases h

theorem star_not_mem_languages : star ∉ languages := by decide

variable {lines : List Str} {data : Data N}

theorem LoadSpec.star_not_mem_builds (h : LoadSpec py order lines data) :
    star ∉ data.buildDurations.keys := by
  intro hmem
  obtain ⟨durations, hget⟩ := Option.isSome_iff_exists.mp ((Dict.get?_isSome_iff _ _).mpr hmem)
  obtain ⟨key, hkey⟩ := List.exists_mem_of_ne_nil _ (h.filled.builds star durations hget)
  have hrecorded : BuildRecorded data star key.2.2 := by
    rw [BuildRecorded, entry_of_get? hget]
    exact List.mem_map_of_mem hkey
  obtain ⟨workflow, job, seconds, line, -, hmeasure⟩ := (h.builds star key.2.2).mp hrecorded
  exact star_not_mem_languages (measure_lang hmeasure)

theorem LoadSpec.star_not_mem_runs (h : LoadSpec py order lines data) (scenario : Str) :
    star ∉ (Data.entry data.scenarioDurations scenario).keys := by
  intro hmem
  obtain ⟨weblogs, hget⟩ := Option.isSome_iff_exists.mp ((Dict.get?_isSome_iff _ _).mpr hmem)
  obtain ⟨weblog, hweblog⟩ := List.exists_mem_of_ne_nil _
    (h.filled.langs scenario _ star weblogs (get?_of_mem_entry hmem) hget)
  have hrecorded : RunRecorded data scenario star weblog := by
    rw [RunRecorded, entry_of_get? hget]
    exact hweblog
  obtain ⟨duration, line, -, hmeasure⟩ := (h.runs scenario star weblog).mp hrecorded
  exact star_not_mem_languages (measure_lang hmeasure)

theorem LoadSpec.mem_scenarios_iff (h : LoadSpec py order lines data) (scenario : Str) :
    scenario ∈ data.scenarioDurations.keys ↔
      ∃ lang weblog duration, Measured py order lines (.run scenario lang weblog duration) := by
  constructor
  · intro hmem
    obtain ⟨langs, hget⟩ := Option.isSome_iff_exists.mp ((Dict.get?_isSome_iff _ _).mpr hmem)
    obtain ⟨lang, hlang⟩ := List.exists_mem_of_ne_nil _ (h.filled.scenarios scenario langs hget)
    obtain ⟨weblogs, hweblogs⟩ := Option.isSome_iff_exists.mp
      ((Dict.get?_isSome_iff _ _).mpr hlang)
    obtain ⟨weblog, hweblog⟩ := List.exists_mem_of_ne_nil _
      (h.filled.langs scenario langs lang weblogs hget hweblogs)
    refine ⟨lang, weblog, (h.runs scenario lang weblog).mp ?_⟩
    rw [RunRecorded, entry_of_get? hget, entry_of_get? hweblogs]
    exact hweblog
  · rintro ⟨lang, weblog, hmeasured⟩
    have hlang := get?_of_mem_entry ((h.runs scenario lang weblog).mpr hmeasured)
    have hmem : lang ∈ (Data.entry data.scenarioDurations scenario).keys := by
      rw [← Dict.get?_isSome_iff, hlang]
      rfl
    rw [← Dict.get?_isSome_iff, get?_of_mem_entry hmem]
    rfl

end Words

section Scheduler

variable {N : Type} {py : Python N}

/-- The time of a weblog, or the average of its library, or that of all libraries. -/
def lookUp (libraries : Stat N) (library weblog : Str) : Except Raised (Stat N) := do
  if (← libraries.contains library) = false then libraries.get star
  else
    let weblogs ← libraries.get library
    if (← weblogs.contains weblog) = false then weblogs.get star
    else weblogs.get weblog

theorem lookUp_number_iff {t : Stat N} (h : IsLibraryTable t) (library weblog : Str) :
    (∃ x, lookUp t library weblog = .ok (.number x)) ↔ library ≠ star := by
  obtain ⟨rows, rfl, ⟨x, hstar⟩, htables⟩ := h
  unfold lookUp
  cases hfind : Dict.find (some library) rows with
  | none =>
      refine iff_of_true ⟨x, ?_⟩ ?_
      · simp [Stat.contains, Stat.get, hfind, hstar]
      · rintro rfl
        rw [hstar] at hfind
        cases hfind
  | some t =>
      by_cases hlibrary : library = star
      · subst hlibrary
        rw [hstar, Option.some.injEq] at hfind
        subst hfind
        refine iff_of_false ?_ (not_not_intro rfl)
        rintro ⟨y, hy⟩
        simp [Stat.contains, Stat.get, hstar, bind, Except.bind] at hy
      · refine iff_of_true ?_ hlibrary
        obtain ⟨weblogs, rfl, ⟨z, hz⟩, hnumbers⟩ := htables library t hlibrary hfind
        cases hweblog : Dict.find (some weblog) weblogs with
        | none => exact ⟨z, by simp [Stat.contains, Stat.get, hfind, hweblog, hz]⟩
        | some v =>
            obtain ⟨y, rfl⟩ := hnumbers _ v hweblog
            exact ⟨y, by simp [Stat.contains, Stat.get, hfind, hweblog]⟩

theorem getBuildTime_number_iff {build : Stat N} (h : IsLibraryTable build) (library : Str)
    (weblog : Weblog) :
    (∃ x, getBuildTime py library weblog build = .ok (.number x)) ↔
      library ≠ star ∨ weblog.prebuild = false := by
  have hsplit : getBuildTime py library weblog build =
      if weblog.prebuild = false then .ok (.number py.zero)
      else lookUp build library weblog.name := rfl
  rw [hsplit]
  split_ifs with hprebuild
  · exact iff_of_true ⟨py.zero, rfl⟩ (Or.inr hprebuild)
  · rw [or_iff_left hprebuild, lookUp_number_iff h]

theorem getExecutionTime_number_iff {rows : List (Option Str × Stat N)}
    (h : ∀ scenario t, Dict.find (some scenario) rows = some t → IsLibraryTable t)
    (library weblog scenario : Str) :
    (∃ x, getExecutionTime library weblog scenario (.table rows) = .ok (.number x)) ↔
      library ≠ star ∧ (Dict.find (some scenario) rows).isSome := by
  have hsplit : getExecutionTime library weblog scenario (.table rows) =
      if (Dict.find (some scenario) rows).isSome = false then (Stat.table rows).get star
      else (Stat.table rows).get scenario >>= fun libraries => lookUp libraries library weblog := rfl
  rw [hsplit]
  cases hfind : Dict.find (some scenario) rows with
  | none =>
      refine iff_of_false ?_ fun hsome => Bool.false_ne_true hsome.2
      rintro ⟨x, hx⟩
      -- what a scenario called `*` leaves there is a table
      have hx : Dict.find (some star) rows = some (.number x) := Raised.ofOption_eq_ok_iff.mp hx
      obtain ⟨_, hnumber, -⟩ := h star _ hx
      cases hnumber
  | some t =>
      have hget : (Stat.table rows).get scenario = .ok t := Raised.ofOption_eq_ok_iff.mpr hfind
      rw [Option.isSome_some, if_neg Bool.true_eq_false_eq_False, hget, Raised.ok_bind,
        lookUp_number_iff (h scenario t hfind), and_iff_left rfl]

/-- The statistics can be written, and the scheduler always finds a time in them. -/
def ClosesFallbacks (py : Python N) (data : Data N) : Prop :=
  ∃ result build run, timeStats py data = .ok result ∧
    result.get "build".toList = .ok build ∧ result.get "run".toList = .ok run ∧
    (∀ library weblog, library ≠ star →
      ∃ x, getBuildTime py library weblog build = .ok (.number x)) ∧
    ∀ library weblog scenario, library ≠ star →
      ∃ x, getExecutionTime library weblog scenario run = .ok (.number x)

variable {order : SetOrder Str} {lines : List Str} {data : Data N}

/-- The statistics of the scenarios are sorted if none of them is of no weblog. -/
theorem exists_sort_runStatistics_iff (h : LoadSpec py order lines data) {run : Stat N}
    (hrun : getRunStatistics py data = .ok run) :
    (∃ t, sortStat run = .ok t) ↔ ∀ scenario lang, ¬ RunRecorded data scenario lang none := by
  obtain ⟨scenarios, hscenarios, hkeys, htables⟩ := getRunStatistics_spec py h.filled
  rw [hscenarios, Except.ok.injEq] at hrun
  rw [← hrun, exists_sortStat_iff]
  have hsort : ∀ scenario t, scenarios.get? scenario = some t →
      ((∃ t', sortStat t = .ok t') ↔ ∀ lang, ¬ RunRecorded data scenario lang none) := by
    intro scenario t ht
    obtain ⟨libraries, x, rfl, hlibraries, hdescribes⟩ := htables scenario t ht
    exact hdescribes.exists_sort_iff x (hlibraries ▸ h.star_not_mem_runs scenario)
  constructor
  · rintro ⟨-, hrows⟩ scenario lang hrecorded
    have hmem : scenario ∈ scenarios.keys := by
      rw [hkeys, h.mem_scenarios_iff]
      exact ⟨lang, none, (h.runs scenario lang none).mp hrecorded⟩
    obtain ⟨t, ht⟩ := Option.isSome_iff_exists.mp ((Dict.get?_isSome_iff _ _).mpr hmem)
    exact (hsort scenario t ht).mp (hrows (some scenario, t)
      (List.mem_map.mpr ⟨(scenario, t), (Dict.mem_items_iff _ _ _).mpr ht, rfl⟩)) lang hrecorded
  · intro hnone
    refine ⟨fun hkey => ?_, fun row hrow => ?_⟩
    · obtain ⟨row, hrow, hkey⟩ := List.mem_map.mp hkey.1
      obtain ⟨item, -, rfl⟩ := List.mem_map.mp hrow
      cases hkey
    · obtain ⟨⟨scenario, t⟩, hitem, rfl⟩ := List.mem_map.mp hrow
      exact (hsort scenario t ((Dict.mem_items_iff _ _ _).mp hitem)).mpr (hnone scenario)

/-- Sorting fails on a line without a weblog, and on nothing else. -/
theorem exists_timeStats_iff (h : LoadSpec py order lines data) {build : Stat N}
    (hbuild : getBuildStatistics py data = .ok build) :
    (∃ result, timeStats py data = .ok result) ↔
      ∀ m, Measured py order lines m → m.weblog ≠ none := by
  obtain ⟨scenarios, hrun, -, -⟩ := getRunStatistics_spec py h.filled
  obtain ⟨libraries, x, rfl, hlibraries, hdescribes⟩ := getBuildStatistics_spec py hbuild
  rw [timeStats, hbuild, Raised.ok_bind, hrun, Raised.ok_bind, exists_sortStat_iff,
    List.forall_mem_cons, List.forall_mem_singleton, exists_sort_runStatistics_iff h hrun,
    hdescribes.exists_sort_iff x (hlibraries ▸ h.star_not_mem_builds)]
  constructor
  · rintro ⟨-, hbuilds, hruns⟩ m hm hnone
    cases m with
    | run scenario lang weblog duration =>
        obtain rfl : weblog = none := hnone
        exact hruns scenario lang ((h.runs scenario lang none).mpr ⟨duration, hm⟩)
    | build lang workflow job weblog seconds =>
        obtain rfl : weblog = none := hnone
        exact hbuilds lang ((h.builds lang none).mpr ⟨workflow, job, seconds, hm⟩)
  · intro hnone
    refine ⟨fun hkeys => ?_, fun lang hrecorded => ?_, fun scenario lang hrecorded => ?_⟩
    · simp at hkeys
    · obtain ⟨workflow, job, seconds, hm⟩ := (h.builds lang none).mp hrecorded
      exact hnone _ hm rfl
    · obtain ⟨duration, hm⟩ := (h.runs scenario lang none).mp hrecorded
      exact hnone _ hm rfl

/-- The file holds the statistics of the builds and those of the scenarios, sorted. -/
theorem timeStats_entries {result : Stat N} (hresult : timeStats py data = .ok result) :
    ∃ builds runs build run, getBuildStatistics py data = .ok builds ∧
      getRunStatistics py data = .ok runs ∧
      (sortStat builds = .ok build ∧ result.get "build".toList = .ok build) ∧
      sortStat runs = .ok run ∧ result.get "run".toList = .ok run := by
  obtain ⟨builds, hbuilds, hresult⟩ := Raised.bind_eq_ok.mp hresult
  obtain ⟨runs, hruns, hresult⟩ := Raised.bind_eq_ok.mp hresult
  obtain ⟨rows, rfl, hfind⟩ := sortStat_table hresult
  have hsorted : ∀ key t, Dict.find (some key)
      [(some "build".toList, builds), (some "run".toList, runs)] = some t →
      ∃ t', sortStat t = .ok t' ∧ (Stat.table rows).get key = .ok t' := by
    intro key t ht
    rcases hfind (some key) with ⟨hnone, -⟩ | ⟨v, v', hv, hsort, hv'⟩
    · rw [ht] at hnone
      cases hnone
    · rw [ht, Option.some.injEq] at hv
      exact ⟨v', hv ▸ hsort, by rw [Stat.get, hv', Raised.ofOption_some]⟩
  obtain ⟨build, hbuild⟩ := hsorted "build".toList builds rfl
  obtain ⟨run, hrun⟩ := hsorted "run".toList runs rfl
  exact ⟨builds, runs, build, run, hbuilds, hruns, hbuild, hrun⟩

/-- What the scheduler reads of the scenarios: those that were measured, each with an average. -/
structure Scheduled (py : Python N) (order : SetOrder Str) (lines : List Str)
    (rows : List (Option Str × Stat N)) : Prop where
  isLibraryTable : ∀ scenario t, Dict.find (some scenario) rows = some t → IsLibraryTable t
  measured : ∀ scenario, (Dict.find (some scenario) rows).isSome ↔
    ∃ lang weblog duration, Measured py order lines (.run scenario lang weblog duration)

theorem LoadSpec.scheduled (h : LoadSpec py order lines data) {runs run : Stat N}
    (hruns : getRunStatistics py data = .ok runs) (hrun : sortStat runs = .ok run) :
    ∃ rows, run = .table rows ∧ Scheduled py order lines rows := by
  obtain ⟨scenarios, hscenarios, hkeys, htables⟩ := getRunStatistics_spec py h.filled
  rw [hscenarios, Except.ok.injEq] at hruns
  rw [← hruns] at hrun
  obtain ⟨rows, rfl, hrows⟩ := sortStat_table hrun
  refine ⟨rows, rfl, fun scenario t ht => ?_, fun scenario => ?_⟩
  · rcases hrows (some scenario) with ⟨-, hnone⟩ | ⟨v, v', hv, hsort, hv'⟩
    · rw [hnone] at ht
      cases ht
    · rw [hv', Option.some.injEq] at ht
      rw [find_map_some] at hv
      obtain ⟨libraries, x, rfl, -, hdescribes⟩ := htables scenario v hv
      exact ht ▸ (hdescribes.isLibraryTable x).sort hsort
  · rw [← h.mem_scenarios_iff, ← hkeys, ← Dict.get?_isSome_iff]
    rcases hrows (some scenario) with ⟨hnone, hnone'⟩ | ⟨v, v', hv, -, hv'⟩
    · rw [find_map_some] at hnone
      rw [hnone', Dict.get?, hnone]
    · rw [find_map_some] at hv
      rw [hv', Dict.get?, hv]
      exact iff_of_true rfl rfl

theorem Scheduled.find_eq_none {rows : List (Option Str × Stat N)}
    (h : Scheduled py order lines rows) {scenario : Str}
    (hscenario : ∀ m, Measured py order lines m → m.scenario ≠ some scenario) :
    Dict.find (some scenario) rows = none := by
  rw [← Option.not_isSome_iff_eq_none, h.measured]
  rintro ⟨lang, weblog, duration, hm⟩
  exact hscenario _ hm rfl

/-- A scenario that was not measured is looked for under `*`. -/
theorem Scheduled.getExecutionTime_of_not_measured {rows : List (Option Str × Stat N)}
    (h : Scheduled py order lines rows) {scenario : Str}
    (hscenario : ∀ m, Measured py order lines m → m.scenario ≠ some scenario)
    (hstar : ∀ m, Measured py order lines m → m.scenario ≠ some star) (library weblog : Str) :
    getExecutionTime library weblog scenario (.table rows) = .error (.keyError star) := by
  have hnone := h.find_eq_none hscenario
  have hnone' := h.find_eq_none hstar
  unfold getExecutionTime
  simp [Stat.contains, Stat.get, hnone, hnone', Raised.ofOption]

theorem exists_not_measured (h : load py order lines = .ok data) :
    ∃ scenario, ¬ ∃ lang weblog duration,
      Measured py order lines (.run scenario lang weblog duration) := by
  obtain ⟨scenario, hscenario⟩ := Infinite.exists_notMem_finset data.scenarioDurations.keys.toFinset
  rw [List.mem_toFinset, (load_spec h).mem_scenarios_iff] at hscenario
  exact ⟨scenario, hscenario⟩

/-- Where the scheduler finds a time. -/
theorem LoadSpec.found (h : LoadSpec py order lines data) {result : Stat N}
    (hresult : timeStats py data = .ok result) :
    ∃ build run, result.get "build".toList = .ok build ∧ result.get "run".toList = .ok run ∧
      (∀ library weblog, (∃ x, getBuildTime py library weblog build = .ok (.number x)) ↔
        library ≠ star ∨ weblog.prebuild = false) ∧
      ∀ library weblog scenario,
        (∃ x, getExecutionTime library weblog scenario run = .ok (.number x)) ↔
          library ≠ star ∧
            ∃ lang weblog duration, Measured py order lines (.run scenario lang weblog duration) := by
  obtain ⟨builds, runs, build, run, hbuilds, hruns, ⟨hbuild, hgetBuild⟩, hrun, hgetRun⟩ :=
    timeStats_entries hresult
  obtain ⟨libraries, x, rfl, -, hdescribes⟩ := getBuildStatistics_spec py hbuilds
  obtain ⟨rows, rfl, hrows⟩ := h.scheduled hruns hrun
  refine ⟨build, .table rows, hgetBuild, hgetRun,
    getBuildTime_number_iff ((hdescribes.isLibraryTable x).sort hbuild),
    fun library weblog scenario => ?_⟩
  rw [getExecutionTime_number_iff hrows.isLibraryTable, hrows.measured]

/-- No file has a time for every scenario, since none has the average of them.  It can be
written if every line that was measured is of a weblog; for the libraries, it then has a time for
every build and for every scenario that was measured. -/
theorem timeStats_closes_never (h : load py order lines = .ok data) :
    ¬ ClosesFallbacks py data ∧
    ((∃ build, getBuildStatistics py data = .ok build) →
      ((∃ result, timeStats py data = .ok result) ↔
        ∀ m, Measured py order lines m → m.weblog ≠ none)) ∧
    ∀ result, timeStats py data = .ok result → ∃ build run,
      result.get "build".toList = .ok build ∧ result.get "run".toList = .ok run ∧
      (∀ library weblog, (∃ x, getBuildTime py library weblog build = .ok (.number x)) ↔
        library ≠ star ∨ weblog.prebuild = false) ∧
      ∀ library weblog scenario,
        (∃ x, getExecutionTime library weblog scenario run = .ok (.number x)) ↔
          library ≠ star ∧
            ∃ lang weblog duration, Measured py order lines (.run scenario lang weblog duration) := by
  have hspec := load_spec h
  refine ⟨?_, fun ⟨build, hbuild⟩ => exists_timeStats_iff hspec hbuild, fun _ => hspec.found⟩
  rintro ⟨result, build, run, hresult, -, hrun, -, hexecution⟩
  obtain ⟨scenario, hscenario⟩ := exists_not_measured h
  obtain ⟨_, run', -, hrun', -, hmeasured⟩ := hspec.found hresult
  rw [hrun, Except.ok.injEq] at hrun'
  subst hrun'
  exact hscenario ((hmeasured "java".toList star scenario).mp
    (hexecution "java".toList star scenario (by decide))).2

end Scheduler

section OneRun

def readNatural (s : Str) : Option Int :=
  if s ≠ [] ∧ s.all Char.isDigit then
    some (s.foldl (fun n c => 10 * n + (c.toNat - '0'.toNat : Nat)) 0)
  else none

/-- A Python that knows ASCII, and floats without a fraction. -/
def integralPython : Python Int where
  lower s := s.map Char.toLower
  upper s := s.map Char.toUpper
  isdecimal s := decide (s ≠ []) && s.all Char.isDigit
  classes := Regex.CharTable.ascii
  float s := readNatural (if ".0".toList <:+ s then s.dropLast.dropLast else s)
  int x := .ok x
  ofInt n := n
  zero := 0
  add a b := a + b
  sum xs := xs.sum
  divide x n := x / n
  divideInt x n := .ok (x / n)

def oneRun : Str :=
  "1;2;java dev spring-boot;Run DEFAULT scenario;completed;success;12.0;1;True\n".toList

def noWeblog : Str :=
  "1;2;java dev;Build weblog;completed;success;12.0;1;True\n".toList

theorem measure_oneRun : measure integralPython .dedup oneRun =
    .ok (some (.run "DEFAULT".toList "java".toList (some "spring-boot".toList) 12)) := by
  decide +kernel

theorem measure_noWeblog : measure integralPython .dedup noWeblog =
    .ok (some (.build "java".toList "1".toList "2".toList none 12)) := by
  decide +kernel

theorem load_singleton {N : Type} {py : Python N} {order : SetOrder Str} {line : Str}
    {m : Measurement N} (h : measure py order line = .ok (some m)) :
    load py order [line] = .ok (Data.new.store m) := by
  rw [load, List.foldlM_cons, append, h]
  rfl

theorem measured_singleton_iff {N : Type} {py : Python N} {order : SetOrder Str} {line : Str}
    {m : Measurement N} (h : measure py order line = .ok (some m)) (m' : Measurement N) :
    Measured py order [line] m' ↔ m' = m := by
  simp only [Measured, List.mem_singleton, exists_eq_left, h, Except.ok.injEq, Option.some.injEq]
  exact eq_comm

/-- A run of the scenario `DEFAULT` is scheduled again by its own time. -/
theorem oneRun_found : ∃ data, load integralPython .dedup [oneRun] = .ok data ∧
    ¬ ClosesFallbacks integralPython data ∧
    ∀ result, timeStats integralPython data = .ok result → ∃ run, result.get "run".toList = .ok run ∧
      ∃ x, getExecutionTime "java".toList "spring-boot".toList "DEFAULT".toList run =
        .ok (.number x) := by
  have hload := load_singleton measure_oneRun
  obtain ⟨hnever, -, hfound⟩ := timeStats_closes_never hload
  refine ⟨_, hload, hnever, fun result hresult => ?_⟩
  obtain ⟨build, run, -, hrun, -, hexecution⟩ := hfound result hresult
  refine ⟨run, hrun, (hexecution _ _ _).mpr ⟨by decide, ?_⟩⟩
  exact ⟨_, _, _, (measured_singleton_iff measure_oneRun _).mpr rfl⟩

/-- A scenario that was not run is a missing key `*`, and a build of no weblog is not sorted. -/
theorem oneRun_not_closesFallbacks :
    (∃ data result run, load integralPython .dedup [oneRun] = .ok data ∧
      timeStats integralPython data = .ok result ∧ result.get "run".toList = .ok run ∧
      getExecutionTime "java".toList "spring-boot".toList "APPSEC".toList run =
        .error (.keyError star) ∧
      ¬ ClosesFallbacks integralPython data) ∧
    ∃ data, load integralPython .dedup [noWeblog] = .ok data ∧
      ¬ ∃ result, timeStats integralPython data = .ok result := by
  constructor
  · have hload := load_singleton measure_oneRun
    have hspec := load_spec hload
    have hscenario : ∀ m, Measured integralPython .dedup [oneRun] m →
        m.scenario = some "DEFAULT".toList := by
      intro m hm
      rw [(measured_singleton_iff measure_oneRun m).mp hm]
      rfl
    obtain ⟨result, hresult⟩ := (exists_timeStats_iff hspec rfl).mpr fun m hm => by
      rw [(measured_singleton_iff measure_oneRun m).mp hm]
      exact Option.some_ne_none _
    obtain ⟨builds, runs, build, run, -, hruns, -, hrun, hget⟩ := timeStats_entries hresult
    obtain ⟨rows, rfl, hrows⟩ := hspec.scheduled hruns hrun
    have hmissing : getExecutionTime "java".toList "spring-boot".toList "APPSEC".toList
        (.table rows) = .error (.keyError star) :=
      hrows.getExecutionTime_of_not_measured
        (fun m hm => by rw [hscenario m hm]; decide) (fun m hm => by rw [hscenario m hm]; decide) _ _
    refine ⟨_, result, _, hload, hresult, hget, hmissing, ?_⟩
    rintro ⟨result', _, run', hresult', -, hrun', -, hexecution⟩
    rw [hresult, Except.ok.injEq] at hresult'
    subst hresult'
    rw [hget, Except.ok.injEq] at hrun'
    subst hrun'
    obtain ⟨x, hx⟩ := hexecution "java".toList "spring-boot".toList "APPSEC".toList (by decide)
    rw [hmissing] at hx
    cases hx
  · have hload := load_singleton measure_noWeblog
    refine ⟨_, hload, fun hresult => ?_⟩
    obtain ⟨builds, -, -, -, hbuilds, -⟩ := timeStats_entries hresult.choose_spec
    exact (exists_timeStats_iff (load_spec hload) hbuilds).mp hresult _
      ((measured_singleton_iff measure_noWeblog _).mpr rfl) rfl

end OneRun

end TimeStats
end Orchestration
end SystemTests
