import SystemTests.Foundation.Md5
import SystemTests.Foundation.Naming

/-!
# Prefixes of scenarios (`_generate_unique_prefix`)

A scenario is known by its first letters.  When these are taken, it is known by
fewer of them and two digits of the digest of its name.

**Results.**
* `get?_generateUniquePrefix`: the prefix of a scenario, without the loop.
* `prefixesDistinct_iff`: when no two scenarios have the same prefix.
-/

namespace SystemTests
namespace SsiPipeline

open Foundation Foundation.Text

/-- `str.upper`.  Of the case mappings only this is used: they leave no lower case ASCII letter. -/
structure UpperCase where
  upper : Str → Str
  isLower_upper : ∀ s, ∀ c ∈ upper s, c.isLower = false

/-- The mapping of the ASCII letters. -/
def UpperCase.ascii : UpperCase where
  upper s := s.map fun c => if c.isLower then Char.ofNat (c.toNat - 32) else c
  isLower_upper s c hc := by
    obtain ⟨d, -, rfl⟩ := List.mem_map.mp hc
    have hletters : ∀ n < 123, 97 ≤ n → (Char.ofNat (n - 32)).isLower = false := by decide
    by_cases hd : d.isLower
    · have hrange : 97 ≤ d.toNat ∧ d.toNat < 123 := by
        exact ⟨(isLower_iff.mp hd).1, Nat.lt_succ_iff.mpr (isLower_iff.mp hd).2⟩
      rw [if_pos hd]
      exact hletters d.toNat hrange.2 hrange.1
    · rw [if_neg hd]
      exact Bool.eq_false_iff.mpr hd

/-- The default of `prefix_length`, which no caller changes. -/
def prefixLength : Nat := 3

section

variable (letterCase : UpperCase)

/-- `scenario[:prefix_length].upper()` -/
def firstLetters (scenario : Str) : Str := letterCase.upper (scenario.take prefixLength)

def hashSuffix (scenario : Str) : Str :=
  letterCase.upper ((Md5.hexdigest (Utf8.encode scenario)).take 2)

def hashedLetters (scenario : Str) : Str :=
  (firstLetters letterCase scenario).take (prefixLength - 1) ++ hashSuffix letterCase scenario

/-- The prefixes so far, and `used_prefixes`. -/
abbrev PrefixState := Dict Str Str × List Str

def addPrefix (state : PrefixState) (scenario : Str) : PrefixState :=
  let letters :=
    if firstLetters letterCase scenario ∈ state.2 then hashedLetters letterCase scenario
    else firstLetters letterCase scenario
  (state.1.set scenario letters, letters :: state.2)

def generateUniquePrefix (scenarios : List Str) : Dict Str Str :=
  (scenarios.foldl (addPrefix letterCase) (Dict.empty, [])).1

/-- The prefix of a scenario of a matrix. -/
noncomputable def scenarioLetters (scenarios : List Str) (scenario : Str) : Str :=
  Naming.nameOf (firstLetters letterCase) (hashedLetters letterCase) scenarios scenario

variable {letterCase}

theorem addPrefix_eq (state : PrefixState) (scenario : Str) :
    addPrefix letterCase state scenario =
      let letters := Naming.choose (firstLetters letterCase) (hashedLetters letterCase) state.2 scenario
      (state.1.set scenario letters, letters :: state.2) := by
  by_cases h : firstLetters letterCase scenario ∈ state.2
  · simp only [addPrefix, Naming.choose, if_pos h]
  · simp only [addPrefix, Naming.choose, if_neg h]

theorem foldl_addPrefix (scenarios : List Str) (state : PrefixState) :
    (scenarios.foldl (addPrefix letterCase) state).1 =
      state.1.setAll (Naming.assign (firstLetters letterCase) (hashedLetters letterCase)
        state.2 scenarios) := by
  induction scenarios generalizing state with
  | nil => rfl
  | cons scenario scenarios ih =>
      rw [List.foldl_cons, ih, addPrefix_eq]
      rfl

theorem generateUniquePrefix_eq {scenarios : List Str} (h : scenarios.Nodup) :
    generateUniquePrefix letterCase scenarios =
      Dict.empty.setAll
        (scenarios.map fun scenario => (scenario, scenarioLetters letterCase scenarios scenario)) := by
  rw [generateUniquePrefix, foldl_addPrefix, Naming.assign_eq_map h]
  rfl

theorem get?_generateUniquePrefix {scenarios : List Str} (h : scenarios.Nodup) {scenario : Str}
    (hscenario : scenario ∈ scenarios) :
    (generateUniquePrefix letterCase scenarios).get? scenario =
      some (scenarioLetters letterCase scenarios scenario) := by
  rw [generateUniquePrefix_eq h]
  have hkey : scenario ∈ (scenarios.map fun scenario =>
      (scenario, scenarioLetters letterCase scenarios scenario)).map Prod.fst := by
    rw [List.map_map]
    exact List.mem_map.mpr ⟨scenario, hscenario, rfl⟩
  obtain ⟨letters, hget, hmem⟩ := Dict.exists_get?_setAll Dict.empty hkey
  obtain ⟨scenario', -, heq⟩ := List.mem_map.mp hmem
  obtain ⟨rfl, rfl⟩ := Prod.mk.inj heq
  exact hget

/-- Two scenarios have two prefixes. -/
def PrefixesDistinct (scenarios : List Str) (prefixes : Dict Str Str) : Prop :=
  ∀ s ∈ scenarios, ∀ t ∈ scenarios, prefixes.get? s = prefixes.get? t → s = t

variable (letterCase) in
theorem prefixesDistinct_iff {scenarios : List Str} (h : scenarios.Nodup) :
    PrefixesDistinct scenarios (generateUniquePrefix letterCase scenarios) ↔
      Naming.NoClash (firstLetters letterCase) (hashedLetters letterCase) scenarios := by
  rw [← Naming.nodup_map_nameOf_iff, List.nodup_map_iff_inj_on h]
  constructor
  · intro hdistinct s hs t ht heq
    refine hdistinct s hs t ht ?_
    rw [get?_generateUniquePrefix h hs, get?_generateUniquePrefix h ht]
    exact congrArg some heq
  · intro hinj s hs t ht heq
    rw [get?_generateUniquePrefix h hs, get?_generateUniquePrefix h ht, Option.some.injEq] at heq
    exact hinj s hs t ht heq

theorem scenarioLetters_inj {scenarios : List Str} (h : scenarios.Nodup)
    (hdistinct : PrefixesDistinct scenarios (generateUniquePrefix letterCase scenarios)) {s t : Str}
    (hs : s ∈ scenarios) (ht : t ∈ scenarios)
    (heq : scenarioLetters letterCase scenarios s = scenarioLetters letterCase scenarios t) :
    s = t := by
  refine hdistinct s hs t ht ?_
  rw [get?_generateUniquePrefix h hs, get?_generateUniquePrefix h ht]
  exact congrArg some heq

theorem isLower_firstLetters {scenario : Str} {c : Char}
    (h : c ∈ firstLetters letterCase scenario) : c.isLower = false :=
  letterCase.isLower_upper _ c h

/-- A prefix has no lower case letter. -/
theorem isLower_scenarioLetters {scenarios : List Str} {scenario : Str} {c : Char}
    (h : c ∈ scenarioLetters letterCase scenarios scenario) : c.isLower = false := by
  by_cases hback : Naming.FallsBack (firstLetters letterCase) (hashedLetters letterCase) scenarios
      scenario
  · rw [scenarioLetters, Naming.nameOf_of_fallsBack hback, hashedLetters] at h
    rcases List.mem_append.mp h with h | h
    · exact isLower_firstLetters (List.mem_of_mem_take h)
    · exact letterCase.isLower_upper _ c h
  · rw [scenarioLetters, Naming.nameOf_of_not_fallsBack hback] at h
    exact isLower_firstLetters h

end

end SsiPipeline
end SystemTests
