import SystemTests.Foundation.NpmRange

/-!
# Texts of semantic versions

`Version.ofStr` reads the text that `Version.str` writes: the build metadata
after the first `+`, the prerelease after the first `-` before it, and the
release triple.  `Npm.Block.ofStr` reads a block with a full version.

**Results.**
* `Version.ofStr_str`: reading undoes writing, for every version.
* `Npm.Block.ofStr_compare_gte`: a lower bound is read from its text.
-/

namespace Foundation
namespace Semver

open Text

section Cut

/-- A text cut at the first occurrence of a character. -/
def cut (c : Char) (s : Str) : Str × Option Str :=
  (s.takeWhile (· ≠ c), (s.dropWhile (· ≠ c)).tail?)

theorem cut_of_not_mem {c : Char} {s : Str} (h : c ∉ s) : cut c s = (s, none) := by
  have hall : ∀ x ∈ s, decide (x ≠ c) = true := by
    intro x hx
    rw [decide_eq_true_eq]
    rintro rfl
    exact h hx
  rw [cut, List.takeWhile_eq_self_iff.mpr hall, List.dropWhile_eq_nil_iff.mpr hall]
  rfl

theorem cut_append {c : Char} {s t : Str} (h : c ∉ s) : cut c (s ++ c :: t) = (s, some t) := by
  have hall : ∀ x ∈ s, decide (x ≠ c) = true := by
    intro x hx
    rw [decide_eq_true_eq]
    rintro rfl
    exact h hx
  rw [cut, List.takeWhile_append_of_pos hall, List.dropWhile_append_of_pos hall]
  simp

end Cut

section Reading

def readNat (s : Str) : Option Nat :=
  if s ≠ [] ∧ ∀ c ∈ s, c.isDigit = true then some (Nat.ofDigitChars 10 s 0) else none

def Ident.ofStr (s : Str) : Option Ident :=
  if h : s ≠ [] ∧ ∀ c ∈ s, isIdentChar c = true then some ⟨s, h⟩ else none

def PreId.ofStr (s : Str) : Option PreId :=
  if h : s ≠ [] ∧ ∀ c ∈ s, isIdentChar c = true then
    if hd : ∃ c ∈ s, c.isDigit = false then some (.alpha ⟨s, h⟩ hd)
    else some (.numeric (Nat.ofDigitChars 10 s 0))
  else none

/-- The identifiers between dots; no text has none. -/
def readIdents {α : Type} (read : Str → Option α) : Option Str → Option (List α)
  | none => some []
  | some s => (split ['.'] s).mapM read

def Version.ofStr (s : Str) : Option Version :=
  let (core, build) := cut '+' s
  let (release, prerelease) := cut '-' core
  match split ['.'] release with
  | [major, minor, patch] => do
      let major ← readNat major
      let minor ← readNat minor
      let patch ← readNat patch
      let prerelease ← readIdents PreId.ofStr prerelease
      let build ← readIdents Ident.ofStr build
      return { major, minor, patch, prerelease, build }
  | _ => none

end Reading

section RoundTrip

theorem isDigit_of_mem_decimal {n : Nat} {c : Char} (h : c ∈ decimal n) :
    c.isDigit = true :=
  Nat.isDigit_of_mem_toDigits (by decide) (by decide) h

theorem decimal_ne_nil (n : Nat) : decimal n ≠ [] := Nat.toDigits_ne_nil

theorem readNat_decimal (n : Nat) : readNat (decimal n) = some n := by
  rw [readNat, if_pos ⟨decimal_ne_nil n, fun c hc => isDigit_of_mem_decimal hc⟩, decimal,
    Nat.ofDigitChars_ten_toDigits]

theorem decimal_injective : Function.Injective decimal := by
  intro m n h
  have hm := readNat_decimal m
  rw [h, readNat_decimal, Option.some.injEq] at hm
  exact hm.symm

theorem not_mem_decimal {c : Char} (h : c.isDigit = false) (n : Nat) : c ∉ decimal n := by
  intro hmem
  rw [isDigit_of_mem_decimal hmem] at h
  exact absurd h (by simp)

theorem Ident.ofStr_val (i : Ident) : Ident.ofStr i.1 = some i := by
  rw [Ident.ofStr, dif_pos i.2]

theorem isIdentChar_of_mem_str (p : PreId) : ∀ c ∈ p.str, isIdentChar c = true := by
  cases p with
  | numeric n =>
      intro c hc
      have hdigit := isDigit_of_mem_decimal hc
      simp [isIdentChar, Char.isAlphanum, hdigit]
  | alpha s h => exact s.2.2

theorem PreId.str_ne_nil (p : PreId) : p.str ≠ [] := by
  cases p with
  | numeric n => exact decimal_ne_nil n
  | alpha s h => exact s.2.1

theorem PreId.ofStr_str (p : PreId) : PreId.ofStr p.str = some p := by
  rw [PreId.ofStr, dif_pos ⟨p.str_ne_nil, isIdentChar_of_mem_str p⟩]
  cases p with
  | numeric n =>
      have hdigits : ¬ ∃ c ∈ (PreId.numeric n).str, c.isDigit = false := by
        rintro ⟨c, hc, hfalse⟩
        rw [isDigit_of_mem_decimal hc] at hfalse
        exact absurd hfalse (by simp)
      rw [dif_neg hdigits]
      exact congrArg (some ∘ PreId.numeric) Nat.ofDigitChars_ten_toDigits
  | alpha s h =>
      have hd : ∃ c ∈ (PreId.alpha s h).str, c.isDigit = false := h
      rw [dif_pos hd]
      rfl

theorem mapM_map_eq_some {α : Type} {read : Str → Option α} {write : α → Str}
    (h : ∀ a, read (write a) = some a) : ∀ l : List α, (l.map write).mapM read = some l
  | [] => rfl
  | a :: l => by
      rw [List.map_cons, List.mapM_cons, h, mapM_map_eq_some h l]
      rfl

theorem readIdents_join {α : Type} {read : Str → Option α} {write : α → Str}
    (h : ∀ a, read (write a) = some a) (hdot : ∀ a, '.' ∉ write a) {l : List α}
    (hne : l ≠ []) :
    readIdents read (some (join ['.'] (l.map write))) = some l := by
  have hsplit : split ['.'] (join ['.'] (l.map write)) = l.map write := by
    refine split_join (by simpa using hne) ?_
    simpa using fun a _ => hdot a
  rw [readIdents, hsplit, mapM_map_eq_some h]

theorem dot_not_mem {s : Str} (h : ∀ c ∈ s, isIdentChar c = true) : '.' ∉ s := by
  intro hmem
  exact absurd (h _ hmem) (by decide)

/-- The release triple of a version as text. -/
def releaseStr (v : Version) : Str :=
  join ['.'] [decimal v.major, decimal v.minor, decimal v.patch]

theorem not_mem_releaseStr {v : Version} {c : Char} (hdigit : c.isDigit = false)
    (hdot : c ≠ '.') : c ∉ releaseStr v := by
  simp [releaseStr, not_mem_decimal hdigit, hdot]

theorem split_releaseStr (v : Version) :
    split ['.'] (releaseStr v) = [decimal v.major, decimal v.minor, decimal v.patch] := by
  have hdot : ∀ n, '.' ∉ decimal n := not_mem_decimal (by decide)
  exact split_join (by simp) (by simp [hdot])

/-- The text of a version up to the build metadata. -/
def coreStr (v : Version) : Str :=
  releaseStr v ++
    (if v.prerelease = [] then [] else '-' :: join ['.'] (v.prerelease.map PreId.str))

theorem str_eq_coreStr (v : Version) :
    v.str = coreStr v ++
      (if v.build = [] then [] else '+' :: join ['.'] (v.build.map Subtype.val)) := by
  simp [Version.str, coreStr, releaseStr]

theorem cut_coreStr (v : Version) :
    cut '-' (coreStr v) = (releaseStr v,
      if v.prerelease = [] then none else some (join ['.'] (v.prerelease.map PreId.str))) := by
  have hminus : '-' ∉ releaseStr v := not_mem_releaseStr (by decide) (by decide)
  unfold coreStr
  split_ifs
  · rw [List.append_nil, cut_of_not_mem hminus]
  · rw [cut_append hminus]

theorem cut_str (v : Version) :
    cut '+' v.str = (coreStr v,
      if v.build = [] then none else some (join ['.'] (v.build.map Subtype.val))) := by
  have hplus : '+' ∉ coreStr v := by
    unfold coreStr
    rw [List.mem_append]
    rintro (hmem | hmem)
    · exact not_mem_releaseStr (by decide) (by decide) hmem
    · split_ifs at hmem
      · simp at hmem
      · rcases List.mem_cons.mp hmem with hmem | hmem
        · exact absurd hmem (by decide)
        · rcases mem_join_cases hmem with hmem | ⟨p, hp, hmem⟩
          · simp at hmem
          · obtain ⟨i, -, rfl⟩ := List.mem_map.mp hp
            exact absurd (isIdentChar_of_mem_str i _ hmem) (by decide)
  rw [str_eq_coreStr]
  split_ifs
  · rw [List.append_nil, cut_of_not_mem hplus]
  · rw [cut_append hplus]

/-- **Reading undoes writing.** -/
theorem Version.ofStr_str (v : Version) : Version.ofStr v.str = some v := by
  have hpre : readIdents PreId.ofStr (if v.prerelease = [] then none
      else some (join ['.'] (v.prerelease.map PreId.str))) = some v.prerelease := by
    split_ifs with h
    · rw [h]
      rfl
    · exact readIdents_join PreId.ofStr_str (fun p => dot_not_mem (isIdentChar_of_mem_str p)) h
  have hbuild : readIdents Ident.ofStr (if v.build = [] then none
      else some (join ['.'] (v.build.map Subtype.val))) = some v.build := by
    split_ifs with h
    · rw [h]
      rfl
    · exact readIdents_join Ident.ofStr_val (fun i => dot_not_mem i.2.2) h
  unfold Version.ofStr
  simp only [cut_str, cut_coreStr, split_releaseStr, readNat_decimal, hpre, hbuild,
    Option.bind_eq_bind, Option.bind_some, Option.pure_def]

theorem isIdentChar_of_mem_decimal {n : Nat} : ∀ c ∈ decimal n, isIdentChar c = true :=
  isIdentChar_of_mem_str (.numeric n)

theorem mem_join_idents_cases {c : Char} {ps : List Str}
    (hps : ∀ p ∈ ps, ∀ c ∈ p, isIdentChar c = true) (hc : c ∈ join ['.'] ps) :
    isIdentChar c = true ∨ c = '.' := by
  rcases mem_join_cases hc with hc | ⟨p, hp, hc⟩
  · exact Or.inr (List.mem_singleton.mp hc)
  · exact Or.inl (hps p hp c hc)

/-- A version is written with identifier characters, dots and a plus. -/
theorem mem_str_cases {v : Version} {c : Char} (h : c ∈ v.str) :
    isIdentChar c = true ∨ c = '.' ∨ c = '+' := by
  have hjoin : ∀ {ps : List Str}, (∀ p ∈ ps, ∀ c ∈ p, isIdentChar c = true) →
      c ∈ join ['.'] ps → isIdentChar c = true ∨ c = '.' ∨ c = '+' := by
    intro ps hps hc
    rcases mem_join_idents_cases hps hc with hc | hc
    · exact Or.inl hc
    · exact Or.inr (Or.inl hc)
  rw [str_eq_coreStr, coreStr, List.mem_append, List.mem_append] at h
  rcases h with (h | h) | h
  · refine hjoin ?_ h
    simp only [List.forall_mem_cons, List.not_mem_nil, false_implies, implies_true, and_true]
    exact ⟨isIdentChar_of_mem_decimal, isIdentChar_of_mem_decimal, isIdentChar_of_mem_decimal⟩
  · split_ifs at h
    · simp at h
    · rcases List.mem_cons.mp h with rfl | h
      · exact Or.inl (by decide)
      · refine hjoin ?_ h
        intro p hp
        obtain ⟨i, -, rfl⟩ := List.mem_map.mp hp
        exact isIdentChar_of_mem_str i
  · split_ifs at h
    · simp at h
    · rcases List.mem_cons.mp h with rfl | h
      · exact Or.inr (Or.inr rfl)
      · refine hjoin ?_ h
        intro p hp
        obtain ⟨i, -, rfl⟩ := List.mem_map.mp hp
        exact i.2.2

end RoundTrip

section Blocks

/-- A block of an operator and a full version. -/
def Npm.Block.ofStr : Str → Option Npm.Block
  | '>' :: '=' :: s => (Version.ofStr s).map fun v => ⟨.compare .gte, .full v⟩
  | '<' :: '=' :: s => (Version.ofStr s).map fun v => ⟨.compare .lte, .full v⟩
  | '>' :: s => (Version.ofStr s).map fun v => ⟨.compare .gt, .full v⟩
  | '<' :: s => (Version.ofStr s).map fun v => ⟨.compare .lt, .full v⟩
  | '=' :: s => (Version.ofStr s).map fun v => ⟨.compare .eq, .full v⟩
  | '^' :: s => (Version.ofStr s).map fun v => ⟨.caret, .full v⟩
  | '~' :: s => (Version.ofStr s).map fun v => ⟨.tilde, .full v⟩
  | s => (Version.ofStr s).map fun v => ⟨.compare .eq, .full v⟩

theorem Npm.Block.ofStr_compare_gte (v : Version) :
    Npm.Block.ofStr ('>' :: '=' :: v.str) = some ⟨.compare .gte, .full v⟩ := by
  rw [Npm.Block.ofStr, Version.ofStr_str]
  rfl

theorem Npm.Block.ofStr_caret {s : Str} {b : Npm.Block}
    (h : Npm.Block.ofStr ('^' :: s) = some b) : b.op = .caret := by
  rw [Npm.Block.ofStr] at h
  · obtain ⟨v, -, rfl⟩ := Option.map_eq_some_iff.mp h
    rfl

end Blocks

end Semver
end Foundation
