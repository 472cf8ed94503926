import SystemTests.Foundation.RegexSub
import SystemTests.Foundation.SemverParts
import SystemTests.Manifest.InlineThreshold

/-!
# Printed versions read again (`utils/_context/component_version.py`)

The text of a normalized version goes through the rule of its component a second
time before it is coerced.  The rules for Ruby, Java and libddwaf leave it alone.
The rules for .NET, PHP and Python rewrite some texts of versions, and then the
version that is read is another one.

**Results.**
* `normalize_str`: a text of a version that is not `Rewritten` stands.
* `not_coerced_of_rewritten`: a rewritten text is read as another version, or not at all.
* `create_str_iff`: a printed version is read again exactly when it is not rewritten.
-/

namespace SystemTests
namespace Manifest
namespace ComponentVersion

open Foundation Foundation.Text Foundation.Semver Foundation.Regex Foundation.Regex.Rx

section Conditions

/-- The texts around a version in the name of a package. -/
def packagePrefix : Str := "datadog-dotnet-apm-"

def packageSuffix : Str := ".tar.gz"

def NamesPackage (s : Str) : Prop := packagePrefix <:+: s ∨ packageSuffix <:+: s

def isCommitChar (c : Char) : Bool := ('0' ≤ c && c ≤ '9') || ('a' ≤ c && c ≤ 'f')

/-- What stands behind the last hyphen looks like a commit. -/
def EndsInCommit (s : Str) : Prop :=
  ∃ a h, s = a ++ '-' :: h ∧ (32 ≤ h.length ∧ h.length ≤ 100) ∧ ∀ c ∈ h, isCommitChar c = true

def IsDigits (table : CharTable) (d : Str) : Prop := d ≠ [] ∧ ∀ c ∈ d, table.isDigit c = true

/-- Digits, a dot, digits, any character, digits and a dot before something else. -/
def FollowsDotted (table : CharTable) (s : Str) : Prop :=
  ∃ d e f c x t, s = d ++ '.' :: (e ++ c :: (f ++ '.' :: x :: t)) ∧
    (IsDigits table d ∧ IsDigits table e ∧ IsDigits table f) ∧ c ≠ '\n' ∧ x ≠ '.'

def HasDotted (table : CharTable) (s : Str) : Prop := ∃ a t, s = a ++ t ∧ FollowsDotted table t

/-- The texts that the rule of a component rewrites. -/
def Rewritten (table : CharTable) (name s : Str) : Prop :=
  (name = "dotnet" ∧ NamesPackage s) ∨ (name = "php" ∧ EndsInCommit s) ∨
    (name = "python" ∧ HasDotted table s)

end Conditions

section Printed

variable {table : CharTable} {v : Version}

theorem str_eq_numbers (v : Version) : v.str = releaseStr v ++
    (marked '-' v.parts.prerelease ++ marked '+' v.parts.build) := by
  rw [← List.append_assoc, ← v.str_parts]
  rfl

theorem releaseStr_eq (v : Version) : releaseStr v =
    decimal v.major ++ '.' :: (decimal v.minor ++ '.' :: decimal v.patch) := by
  simp [releaseStr]

theorem head?_str (v : Version) : ∃ c ∈ v.str.head?, c.isDigit = true := by
  rw [← v.str_parts]
  exact v.parts.head?_str

theorem str_ne_nil (v : Version) : v.str ≠ [] := by
  obtain ⟨c, hc, -⟩ := head?_str v
  rintro hnil
  rw [hnil] at hc
  cases hc

theorem isSpace_of_mem_str {c : Char} (h : c ∈ v.str) : isSpace c = false :=
  (lowerBound_char (List.mem_cons_of_mem _ (List.mem_cons_of_mem _ h))).1

theorem strip_str (v : Version) : strip v.str = v.str :=
  stripOf_of_forall fun _ hc => isSpace_of_mem_str hc

theorem newline_not_mem_str (v : Version) : '\n' ∉ v.str := fun h =>
  absurd (isSpace_of_mem_str h) (by decide)

/-- Behind the numbers comes nothing, a hyphen or a plus. -/
theorem head?_tail (v : Version) :
    ∀ c ∈ (marked '-' v.parts.prerelease ++ marked '+' v.parts.build).head?, c = '-' ∨ c = '+' := by
  intro c hc
  cases hpre : v.parts.prerelease with
  | some s =>
      rw [hpre] at hc
      exact Or.inl (Option.some.inj hc).symm
  | none =>
      cases hbuild : v.parts.build with
      | some s =>
          rw [hpre, hbuild] at hc
          exact Or.inr (Option.some.inj hc).symm
      | none =>
          rw [hpre, hbuild] at hc
          cases hc

theorem tail_char (v : Version) : ∀ c ∈ marked '-' v.parts.prerelease ++ marked '+' v.parts.build,
    isPartChar c = true ∨ c = '+' := by
  intro c hc
  rw [List.mem_append, mem_marked_iff, mem_marked_iff] at hc
  rcases hc with ⟨s, hs, rfl | hc⟩ | ⟨s, hs, rfl | hc⟩
  · exact Or.inl (by decide)
  · exact Or.inl (v.parts.prerelease_char s hs c hc)
  · exact Or.inr rfl
  · exact v.parts.build_char s hs c hc

/-- What has the numbers of a version in front is a text in parts. -/
theorem exists_parts_releaseStr (v : Version) {tail : Str}
    (hhead : ∀ c ∈ tail.head?, c = '-' ∨ c = '+')
    (htail : ∀ c ∈ tail, isPartChar c = true ∨ c = '+') :
    ∃ q : Parts, q.release.length = 3 ∧ q.str = releaseStr v ++ tail := by
  have hne : [v.major, v.minor, v.patch] ≠ [] := by simp
  obtain ⟨q, hrelease, hq⟩ := Parts.exists_of_tail hne le_rfl hhead htail
  exact ⟨q, by rw [hrelease]; rfl, hq⟩

end Printed

section Ruby

variable {table : CharTable} {v : Version}

theorem tableDigit_of_mem_decimal (hdoc : table.Documented) {n : Nat} {c : Char}
    (h : c ∈ decimal n) : table.isDigit c = true := by
  have hdigit := isDigit_of_mem_decimal h
  rw [hdoc.isDigit c (lt_of_le_of_lt (isDigit_iff.mp hdigit).2 (by decide)), hdigit]

theorem not_tableDigit (hdoc : table.Documented) {c : Char} (hc : c.toNat < 128)
    (h : c.isDigit = false) : table.isDigit c = false := by
  rw [hdoc.isDigit c hc, h]

/-- What is left over when digits are taken off the digits that a text starts with. -/
theorem head?_of_digits_append {p : Char → Bool} {d s t u : Str} (hd : ∀ c ∈ d, p c = true)
    (ht : ∀ c ∈ t.head?, p c = false) (h : s ++ t = d ++ u) : ∃ e, s = d ++ e ∧ u = e ++ t := by
  rcases List.append_eq_append_iff.mp h with ⟨e, he, hu⟩ | ⟨e, he, hu⟩
  · cases e with
    | nil =>
        rw [List.append_nil] at he
        exact ⟨[], by rw [he, List.append_nil], by simpa using hu.symm⟩
    | cons c e =>
        have hc : p c = true := hd c (by rw [he]; simp)
        rw [ht c (by rw [hu]; rfl)] at hc
        exact absurd hc (by simp)
  · exact ⟨e, he, hu⟩

/-- Behind three numbers of a printed version comes neither a dot nor a blank. -/
theorem run_base_str (hdoc : table.Documented) {m : Match} (h : m ∈ run (base table) (v.str, [])) :
    ∀ c ∈ m.1.head?, c ≠ '.' ∧ c ≠ ' ' := by
  have hdot : table.isDigit '.' = false := not_tableDigit hdoc (by decide) (by decide)
  have hnot : ∀ {d : Str}, (∀ c ∈ d, table.isDigit c = true) → '.' ∉ d := by
    intro d hd hmem
    rw [hd _ hmem] at hdot
    exact absurd hdot (by simp)
  simp only [base, seqs, List.foldr_cons, List.foldr_nil] at h
  obtain ⟨m₁, h₁, h⟩ := mem_run_seq.mp h
  obtain ⟨d, t₁, hstr, -, hd, rfl⟩ := mem_run_plus_chars.mp h₁
  obtain ⟨m₂, h₂, h⟩ := mem_run_seq.mp h
  obtain ⟨t₂, rfl, rfl⟩ := mem_run_char.mp h₂
  obtain ⟨m₃, h₃, h⟩ := mem_run_seq.mp h
  obtain ⟨e, t₃, rfl, -, he, rfl⟩ := mem_run_plus_chars.mp h₃
  obtain ⟨m₄, h₄, h⟩ := mem_run_seq.mp h
  obtain ⟨t₄, rfl, rfl⟩ := mem_run_char.mp h₄
  obtain ⟨m₅, h₅, h⟩ := mem_run_seq.mp h
  obtain ⟨f, t₅, rfl, -, hf, rfl⟩ := mem_run_plus_chars.mp h₅
  rw [Regex.run, List.mem_singleton] at h
  subst h
  rw [str_eq_numbers, releaseStr_eq] at hstr
  simp only [List.append_assoc, List.cons_append] at hstr
  have hdigits := fun n => hnot fun c (hc : c ∈ decimal n) => tableDigit_of_mem_decimal hdoc hc
  obtain ⟨-, hstr⟩ := append_cons_inj_of_not_mem (hdigits _) (hnot hd) hstr
  obtain ⟨-, hstr⟩ := append_cons_inj_of_not_mem (hdigits _) (hnot he) hstr
  have hhead : ∀ c ∈ (marked '-' v.parts.prerelease ++ marked '+' v.parts.build).head?,
      table.isDigit c = false := by
    intro c hc
    rcases head?_tail v c hc with rfl | rfl
    · exact not_tableDigit hdoc (by decide) (by decide)
    · exact not_tableDigit hdoc (by decide) (by decide)
  obtain ⟨g, hg, rfl⟩ := head?_of_digits_append hf hhead hstr
  intro c hc
  cases g with
  | nil =>
      rcases head?_tail v c hc with rfl | rfl
      · decide
      · decide
  | cons x g =>
      obtain rfl : x = c := by simpa using hc
      have hx : x.isDigit = true := isDigit_of_mem_decimal (n := v.patch) (by rw [hg]; simp)
      constructor
      · rintro rfl
        exact absurd hx (by decide)
      · rintro rfl
        exact absurd hx (by decide)

theorem matchStart_base_str (hdoc : table.Documented) {p : Char → Bool} (r : Rx)
    (hp : ∀ c, p c = true → c = '.' ∨ c = ' ') :
    matchStart (.seq (base table) (.seq (.chars p) r)) v.str = none := by
  rw [matchStart, List.head?_eq_none_iff, List.eq_nil_iff_forall_not_mem]
  intro m hm
  obtain ⟨⟨s, caps⟩, hbase, hm⟩ := mem_run_seq.mp hm
  obtain ⟨x, hx, -⟩ := mem_run_seq.mp hm
  obtain ⟨c, t, rfl, hc, -⟩ := mem_run_chars.mp hx
  obtain ⟨hdot, hblank⟩ := run_base_str hdoc hbase c rfl
  rcases hp c hc with hc | hc
  · exact hdot hc
  · exact hblank hc

theorem ruby_str (hdoc : table.Documented) : ruby table v.str = v.str := by
  have hseparator : ∀ c, (c == '.' || c == ' ') = true → c = '.' ∨ c = ' ' := by simp
  have hblank : ∀ c, (c == ' ') = true → c = '.' ∨ c = ' ' := by
    intro c hc
    exact Or.inr (beq_iff_eq.mp hc)
  rw [ruby, if_neg, if_neg, if_neg]
  · rw [seqs, List.foldr_cons, List.foldr_cons, separator,
      matchStart_base_str hdoc _ hseparator]
    simp
  · rw [seqs, List.foldr_cons, List.foldr_cons, char, matchStart_base_str hdoc _ hblank]
    simp
  · rw [seqs, List.foldr_cons, List.foldr_cons, separator,
      matchStart_base_str hdoc _ hseparator]
    simp

end Ruby

section Marks

variable {v : Version}

theorem libddwaf_str : libddwaf v.str = v.str := by
  refine if_neg ?_
  rintro ⟨t, ht⟩
  obtain ⟨c, hc, hdigit⟩ := head?_str v
  rw [← ht] at hc
  obtain rfl := Option.some.inj hc
  exact absurd hdigit (by decide)

theorem java_str : java v.str = v.str := by
  have htilde : '~' ∉ v.str := by
    intro h
    rcases mem_str_cases h with h | h | h
    · exact absurd h (by decide)
    · exact absurd h (by decide)
    · exact absurd h (by decide)
  rw [java, replace, split_of_not_mem htilde, join_singleton]

end Marks

section Php

/-- The prerelease that looks like a commit, at the end of the text. -/
def commitRegex : Rx := seqs [char '-', .group 1 (between 32 100 (.chars isCommitChar)), .atEnd]

theorem php_eq (s : Str) : php s = sub commitRegex [.lit "+", .ref 1] s := rfl

theorem mem_run_commitRegex {s : Str} {m : Match} : m ∈ run commitRegex (s, []) ↔
    ∃ h t, s = '-' :: (h ++ t) ∧ (32 ≤ h.length ∧ h.length ≤ 100) ∧
      (∀ c ∈ h, isCommitChar c = true) ∧ (t = [] ∨ t = ['\n']) ∧ m = (t, [(1, h)]) := by
  have hgroup : ∀ (s : Str) (m : Match),
      m ∈ run (.group 1 (between 32 100 (.chars isCommitChar))) (s, []) ↔
        ∃ h t caps, s = h ++ t ∧ ((32 ≤ h.length ∧ h.length ≤ 100) ∧
          (∀ c ∈ h, isCommitChar c = true) ∧ caps = []) ∧ m = (t, (1, h) :: caps) := by
    intro s m
    refine mem_run_group (P := fun h _ caps => (32 ≤ h.length ∧ h.length ≤ 100) ∧
      (∀ c ∈ h, isCommitChar c = true) ∧ caps = []) fun m' => ?_
    rw [mem_run_between_chars (by decide)]
    constructor
    · rintro ⟨h, t, hs, hlength, hh, hm⟩
      exact ⟨h, t, [], hs, ⟨hlength, hh, rfl⟩, hm⟩
    · rintro ⟨h, t, _, hs, ⟨hlength, hh, rfl⟩, hm⟩
      exact ⟨h, t, hs, hlength, hh, hm⟩
  simp only [commitRegex, seqs, List.foldr_cons, List.foldr_nil, mem_run_seq, mem_run_char]
  constructor
  · rintro ⟨x, ⟨t, rfl, rfl⟩, y, hy, z, hz, hm⟩
    obtain ⟨h, t, _, rfl, ⟨hlength, hh, rfl⟩, rfl⟩ := (hgroup _ _).mp hy
    obtain ⟨hend, rfl⟩ := mem_run_atEnd.mp hz
    exact ⟨h, t, rfl, hlength, hh, hend, List.mem_singleton.mp hm⟩
  · rintro ⟨h, t, rfl, hlength, hh, hend, rfl⟩
    refine ⟨(h ++ t, []), ⟨h ++ t, rfl, rfl⟩, (t, [(1, h)]), ?_, (t, [(1, h)]), ?_, ?_⟩
    · exact (hgroup _ _).mpr ⟨h, t, [], rfl, ⟨hlength, hh, rfl⟩, rfl⟩
    · exact mem_run_atEnd.mpr ⟨hend, rfl⟩
    · exact List.mem_singleton_self _

theorem consuming_commitRegex : Consuming commitRegex := by
  intro s m hm
  rw [mem_run_commitRegex] at hm
  obtain ⟨h, t, rfl, -, -, -, rfl⟩ := hm
  simp

theorem php_eq_self {s : Str} (hline : '\n' ∉ s) (h : ¬ EndsInCommit s) : php s = s := by
  rw [php_eq]
  refine sub_eq_self (P := fun s => '\n' ∉ s ∧ ¬ EndsInCommit s) ?_ ?_ ⟨hline, h⟩
  · rintro c s ⟨hline, h⟩
    refine ⟨fun hmem => hline (List.mem_cons_of_mem c hmem), ?_⟩
    rintro ⟨a, b, rfl, hb⟩
    exact h ⟨c :: a, b, rfl, hb⟩
  · rintro s ⟨hline, h⟩ m hm
    rw [mem_run_commitRegex] at hm
    obtain ⟨b, t, rfl, hlength, hb, ht, rfl⟩ := hm
    rcases ht with rfl | rfl
    · exact absurd ⟨[], b, by simp, hlength, hb⟩ h
    · exact absurd (by simp) hline

/-- The hyphen before the commit becomes a plus. -/
theorem php_of_endsInCommit {s : Str} (hline : '\n' ∉ s) (h : EndsInCommit s) :
    ∃ a b, s = a ++ '-' :: b ∧ php s = a ++ '+' :: b := by
  obtain ⟨a, b, rfl, hlength, hb⟩ := h
  have hmem : ([], [(1, b)]) ∈ run commitRegex ('-' :: b, []) := by
    rw [mem_run_commitRegex]
    exact ⟨b, [], by simp, hlength, hb, Or.inl rfl, rfl⟩
  obtain ⟨before, s', m, k, b', hcut, hm, hsub⟩ :=
    exists_sub_eq consuming_commitRegex [.lit "+", .ref 1] (a := a) (List.ne_nil_of_mem hmem)
  rw [mem_run_commitRegex] at hm
  obtain ⟨b₁, t, rfl, -, -, ht, rfl⟩ := hm
  rcases ht with rfl | rfl
  · refine ⟨before, b₁, by rw [hcut, List.append_nil], ?_⟩
    rw [php_eq, hsub, subGo_nil consuming_commitRegex]
    simp [expand, capture]
  · exact absurd (by rw [hcut]; simp) hline

/-- The build metadata of the printed version are not those that are read. -/
theorem exists_parts_php {v : Version} (h : EndsInCommit v.str) :
    ∃ q : Parts, q.str = php v.str ∧ q.completed ≠ v.str := by
  obtain ⟨a, b, hstr, hphp⟩ := php_of_endsInCommit (newline_not_mem_str v) h
  have hminus : '-' ∉ releaseStr v := not_mem_releaseStr (by decide) (by decide)
  obtain ⟨y, rfl, htail⟩ : ∃ y, a = releaseStr v ++ y ∧
      marked '-' v.parts.prerelease ++ marked '+' v.parts.build = y ++ '-' :: b := by
    rw [str_eq_numbers] at hstr
    rcases List.append_eq_append_iff.mp hstr with ⟨y, ha, htail⟩ | ⟨y, hrelease, hcons⟩
    · exact ⟨y, ha, htail⟩
    · cases y with
      | nil => exact ⟨[], by rw [hrelease]; simp, hcons.symm⟩
      | cons c y =>
          obtain ⟨rfl, -⟩ := List.cons.inj hcons
          exact absurd (by rw [hrelease]; simp) hminus
  have hchar := tail_char v
  have hhead := head?_tail v
  rw [htail] at hchar hhead
  rw [List.forall_mem_append, List.forall_mem_cons] at hchar
  obtain ⟨q, -, hq⟩ : ∃ q : Parts, q.release.length = 3 ∧
      q.str = releaseStr v ++ (y ++ '+' :: b) := by
    refine exists_parts_releaseStr v ?_ ?_
    · intro c hc
      cases y with
      | nil => exact Or.inr (Option.some.inj hc).symm
      | cons x y => exact hhead c hc
    · rw [List.forall_mem_append, List.forall_mem_cons]
      exact ⟨hchar.1, Or.inr rfl, hchar.2.2⟩
  have hqstr : q.str = php v.str := by
    rw [hq, hphp, List.append_assoc]
  refine ⟨q, hqstr, fun heq => ?_⟩
  have hle := q.count_completed_le
  rw [heq, hqstr, hphp, hstr] at hle
  simp only [List.count_append, List.count_cons] at hle
  simp at hle

end Php

section Dashed

/-- Some of the dots have become hyphens. -/
def Dashed : Str → Str → Prop := List.Forall₂ fun c c' => c' = c ∨ (c = '.' ∧ c' = '-')

theorem Dashed.refl (s : Str) : Dashed s s := List.forall₂_same.mpr fun _ _ => Or.inl rfl

theorem Dashed.append {a a' b b' : Str} (ha : Dashed a a') (hb : Dashed b b') :
    Dashed (a ++ b) (a' ++ b') :=
  List.rel_append ha hb

theorem Dashed.exists_append {b s : Str} : ∀ {a : Str}, Dashed (a ++ b) s →
    ∃ a' b', s = a' ++ b' ∧ Dashed a a' ∧ Dashed b b'
  | [], h => ⟨[], s, rfl, Dashed.refl [], h⟩
  | c :: a, h => by
      obtain ⟨c', s', hc, hs, rfl⟩ := List.forall₂_cons_left_iff.mp h
      obtain ⟨a', b', rfl, ha, hb⟩ := Dashed.exists_append hs
      exact ⟨c' :: a', b', rfl, .cons hc ha, hb⟩

theorem Dashed.exists_cons {c : Char} {b s : Str} (h : Dashed (c :: b) s) :
    ∃ c' b', s = c' :: b' ∧ (c' = c ∨ (c = '.' ∧ c' = '-')) ∧ Dashed b b' := by
  obtain ⟨c', b', hc, hb, hs⟩ := List.forall₂_cons_left_iff.mp h
  exact ⟨c', b', hs, hc, hb⟩

theorem Dashed.eq_self {a a' : Str} (h : Dashed a a') (hdot : '.' ∉ a) : a' = a := by
  induction h with
  | nil => rfl
  | cons hc _ ih =>
      rw [List.mem_cons, not_or] at hdot
      rcases hc with rfl | ⟨rfl, -⟩
      · rw [ih hdot.2]
      · exact absurd rfl hdot.1

theorem Dashed.forall_mem {p : Char → Prop} (hp : p '-') {a a' : Str} (h : Dashed a a')
    (ha : ∀ c ∈ a, p c) : ∀ c ∈ a', p c := by
  induction h with
  | nil => simp
  | cons hc _ ih =>
      rw [List.forall_mem_cons] at ha ⊢
      refine ⟨?_, ih ha.2⟩
      rcases hc with rfl | ⟨-, rfl⟩
      · exact ha.1
      · exact hp

theorem Dashed.exists_marked {c : Char} (hc : c ≠ '.') {o : Option Str} {b s : Str}
    (h : Dashed (marked c o ++ b) s) :
    ∃ o' b', s = marked c o' ++ b' ∧ (∀ t' ∈ o', ∃ t ∈ o, Dashed t t') ∧ Dashed b b' := by
  cases o with
  | none => exact ⟨none, s, rfl, by simp, h⟩
  | some t =>
      obtain ⟨c', s', rfl, hc', h⟩ := Dashed.exists_cons h
      obtain ⟨t', b', rfl, ht, hb⟩ := Dashed.exists_append h
      rcases hc' with rfl | ⟨hdot, -⟩
      · refine ⟨some t', b', rfl, ?_, hb⟩
        rintro u hu
        obtain rfl := Option.some.inj hu
        exact ⟨t, rfl, ht⟩
      · exact absurd hdot hc

end Dashed

section Python

variable {table : CharTable}

/-- Three numbers, of which any character ends the second, and what stands behind the next dot. -/
def dottedRegex (table : CharTable) : Rx :=
  seqs [.group 1 (seqs [plus (digit table), char '.', plus (digit table), dot,
    plus (digit table)]), char '.', .group 2 (plus (.chars (· != '.')))]

theorem python_eq (s : Str) :
    python table s = sub (dottedRegex table) [.ref 1, .lit "-", .ref 2] s := rfl

theorem mem_run_dottedRegex {s : Str} {m : Match} : m ∈ run (dottedRegex table) (s, []) ↔
    ∃ d e c f w t, s = (d ++ '.' :: (e ++ c :: f)) ++ '.' :: (w ++ t) ∧
      (IsDigits table d ∧ IsDigits table e ∧ IsDigits table f) ∧ c ≠ '\n' ∧
      (w ≠ [] ∧ '.' ∉ w) ∧ m = (t, [(2, w), (1, d ++ '.' :: (e ++ c :: f))]) := by
  have hnumbers : ∀ (s : Str) (m : Match),
      m ∈ run (.group 1 (seqs [plus (digit table), char '.', plus (digit table), dot,
        plus (digit table)])) (s, []) ↔
        ∃ u t caps, s = u ++ t ∧ ((∃ d e c f, u = d ++ '.' :: (e ++ c :: f) ∧
          (IsDigits table d ∧ IsDigits table e ∧ IsDigits table f) ∧ c ≠ '\n') ∧ caps = []) ∧
          m = (t, (1, u) :: caps) := by
    intro s m
    refine mem_run_group (P := fun u _ caps => (∃ d e c f, u = d ++ '.' :: (e ++ c :: f) ∧
      (IsDigits table d ∧ IsDigits table e ∧ IsDigits table f) ∧ c ≠ '\n') ∧ caps = [])
      fun m' => ?_
    simp only [seqs, List.foldr_cons, List.foldr_nil, mem_run_seq, dot]
    constructor
    · rintro ⟨x₁, h₁, x₂, h₂, x₃, h₃, x₄, h₄, x₅, h₅, hm⟩
      obtain ⟨d, t, rfl, hd, hd', rfl⟩ := mem_run_plus_chars.mp h₁
      obtain ⟨t, rfl, rfl⟩ := mem_run_char.mp h₂
      obtain ⟨e, t, rfl, he, he', rfl⟩ := mem_run_plus_chars.mp h₃
      obtain ⟨c, t, rfl, hc, rfl⟩ := mem_run_chars.mp h₄
      obtain ⟨f, t, rfl, hf, hf', rfl⟩ := mem_run_plus_chars.mp h₅
      refine ⟨d ++ '.' :: (e ++ c :: f), t, [], by simp, ⟨⟨d, e, c, f, rfl, ?_, ?_⟩, rfl⟩, ?_⟩
      · exact ⟨⟨hd, hd'⟩, ⟨he, he'⟩, hf, hf'⟩
      · simpa using hc
      · exact List.mem_singleton.mp hm
    · rintro ⟨_, t, _, rfl, ⟨⟨d, e, c, f, rfl, ⟨hd, he, hf⟩, hc⟩, rfl⟩, rfl⟩
      refine ⟨_, mem_run_plus_chars.mpr ⟨d, '.' :: (e ++ c :: (f ++ t)), by simp, hd.1, hd.2, rfl⟩,
        _, mem_run_char.mpr ⟨_, rfl, rfl⟩,
        _, mem_run_plus_chars.mpr ⟨e, c :: (f ++ t), rfl, he.1, he.2, rfl⟩,
        _, mem_run_chars.mpr ⟨c, f ++ t, rfl, by simpa using hc, rfl⟩,
        _, mem_run_plus_chars.mpr ⟨f, t, rfl, hf.1, hf.2, rfl⟩, List.mem_singleton_self _⟩
  simp only [dottedRegex, seqs, List.foldr_cons, List.foldr_nil, mem_run_seq]
  constructor
  · rintro ⟨x₁, h₁, x₂, h₂, x₃, h₃, hm⟩
    obtain ⟨_, t, _, rfl, ⟨⟨d, e, c, f, rfl, hdigits, hc⟩, rfl⟩, rfl⟩ := (hnumbers _ _).mp h₁
    obtain ⟨t, rfl, rfl⟩ := mem_run_char.mp h₂
    obtain ⟨w, t, rfl, hw, hdot, rfl⟩ := mem_run_group_plus_chars.mp h₃
    refine ⟨d, e, c, f, w, t, rfl, hdigits, hc, ⟨hw, fun hmem => ?_⟩, List.mem_singleton.mp hm⟩
    exact absurd (hdot _ hmem) (by decide)
  · rintro ⟨d, e, c, f, w, t, rfl, hdigits, hc, ⟨hw, hdot⟩, rfl⟩
    refine ⟨_, (hnumbers _ _).mpr ⟨_, '.' :: (w ++ t), [], rfl, ⟨⟨d, e, c, f, rfl, hdigits, hc⟩,
      rfl⟩, rfl⟩, _, mem_run_char.mpr ⟨w ++ t, rfl, rfl⟩, _,
      mem_run_group_plus_chars.mpr ⟨w, t, rfl, hw, ?_, rfl⟩, List.mem_singleton_self _⟩
    intro x hx
    rw [bne_iff_ne]
    rintro rfl
    exact hdot hx

theorem expand_dottedRegex (u w t : Str) :
    expand [.ref 1, .lit "-", .ref 2] (t, [(2, w), (1, u)]) = u ++ '-' :: w := by
  simp [expand, capture, List.lookup_cons]

theorem consuming_dottedRegex : Consuming (dottedRegex table) := by
  intro s m hm
  rw [mem_run_dottedRegex] at hm
  obtain ⟨d, e, c, f, w, t, rfl, -, -, -, rfl⟩ := hm
  simp only [List.length_append, List.length_cons]
  omega

theorem followsDotted_of_mem {s : Str} {m : Match} (hm : m ∈ run (dottedRegex table) (s, [])) :
    FollowsDotted table s := by
  rw [mem_run_dottedRegex] at hm
  obtain ⟨d, e, c, f, w, t, rfl, hdigits, hc, ⟨hw, hdot⟩, -⟩ := hm
  obtain ⟨x, w, rfl⟩ := List.exists_cons_of_ne_nil hw
  refine ⟨d, e, f, c, x, w ++ t, by simp, hdigits, hc, ?_⟩
  rintro rfl
  exact hdot List.mem_cons_self

theorem run_dottedRegex_ne_nil {s : Str} (h : FollowsDotted table s) :
    run (dottedRegex table) (s, []) ≠ [] := by
  obtain ⟨d, e, f, c, x, t, rfl, hdigits, hc, hx⟩ := h
  have hmem : (t, [(2, [x]), (1, d ++ '.' :: (e ++ c :: f))]) ∈
      run (dottedRegex table) (d ++ '.' :: (e ++ c :: (f ++ '.' :: x :: t)), []) := by
    rw [mem_run_dottedRegex]
    exact ⟨d, e, c, f, [x], t, by simp, hdigits, hc, ⟨by simp, by simpa using hx.symm⟩, rfl⟩
  exact List.ne_nil_of_mem hmem

theorem dashed_subGo (k : Nat) (b : Bool) (s : Str) :
    Dashed s (subGo (dottedRegex table) [.ref 1, .lit "-", .ref 2] k b s) := by
  refine subGo_related (P := fun _ => True) (fun _ _ _ => trivial) Dashed.refl
    (fun c s t h => .cons (Or.inl rfl) h) ?_ k b s trivial
  intro s _ m hm t ht
  rw [mem_run_dottedRegex] at hm
  obtain ⟨d, e, c, f, w, u, rfl, -, -, -, rfl⟩ := hm
  have hdashed : Dashed ((d ++ '.' :: (e ++ c :: f)) ++ '.' :: (w ++ u))
      ((d ++ '.' :: (e ++ c :: f)) ++ '-' :: (w ++ t)) :=
    (Dashed.refl _).append (.cons (Or.inr ⟨rfl, rfl⟩) ((Dashed.refl w).append ht))
  rw [expand_dottedRegex]
  simpa only [List.append_assoc, List.cons_append] using hdashed

theorem python_eq_self {s : Str} (h : ¬ HasDotted table s) : python table s = s := by
  refine sub_eq_self (P := fun s => ¬ HasDotted table s) ?_ ?_ h
  · rintro c s h ⟨a, t, rfl, ht⟩
    exact h ⟨c :: a, t, rfl, ht⟩
  · intro s h m hm
    exact absurd ⟨[], s, rfl, followsDotted_of_mem hm⟩ h

theorem python_ne_self {s : Str} (h : HasDotted table s) : python table s ≠ s := by
  obtain ⟨a, t, rfl, ht⟩ := h
  obtain ⟨before, s', m, k, b, hcut, hm, hsub⟩ := exists_sub_eq consuming_dottedRegex
    [.ref 1, .lit "-", .ref 2] (a := a) (run_dottedRegex_ne_nil ht)
  rw [mem_run_dottedRegex] at hm
  obtain ⟨d, e, c, f, w, u, rfl, -, -, -, rfl⟩ := hm
  rw [python_eq, hsub, hcut, expand_dottedRegex]
  simp

theorem forall_mem_part {o o' : Option Str} (h : ∀ t' ∈ o', ∃ t ∈ o, Dashed t t')
    (ho : ∀ t ∈ o, t ≠ [] ∧ ∀ c ∈ t, isPartChar c = true) :
    ∀ t' ∈ o', t' ≠ [] ∧ ∀ c ∈ t', isPartChar c = true := by
  intro t' ht'
  obtain ⟨t, ht, hdashed⟩ := h t' ht'
  refine ⟨?_, hdashed.forall_mem (by decide) (ho t ht).2⟩
  rintro rfl
  exact (ho t ht).1 (List.forall₂_nil_right_iff.mp hdashed)

/-- A text with a hyphen for a dot is longer when it is completed, or complete as it stands. -/
theorem exists_parts_of_dashed {v : Version} {s : Str} (h : Dashed v.str s) (hne : s ≠ v.str) :
    ∃ q : Parts, q.str = s ∧ q.completed ≠ v.str := by
  have hlength := h.length_eq
  have hdigits : ∀ n : Nat, '.' ∉ decimal n := not_mem_decimal (by decide)
  rw [str_eq_numbers, releaseStr_eq] at h
  simp only [List.append_assoc, List.cons_append] at h
  obtain ⟨major, s, rfl, hmajor, h⟩ := h.exists_append
  obtain ⟨x, s, rfl, hx, h⟩ := h.exists_cons
  obtain ⟨minor, s, rfl, hminor, h⟩ := h.exists_append
  obtain ⟨y, s, rfl, hy, h⟩ := h.exists_cons
  obtain ⟨patch, s, rfl, hpatch, h⟩ := h.exists_append
  obtain ⟨pre, s, rfl, hpre, h⟩ := h.exists_marked (by decide)
  rw [← List.append_nil (marked '+' _)] at h
  obtain ⟨build, s, rfl, hbuild, h⟩ := h.exists_marked (by decide)
  obtain rfl := List.forall₂_nil_left_iff.mp h
  obtain rfl := hmajor.eq_self (hdigits _)
  obtain rfl := hminor.eq_self (hdigits _)
  obtain rfl := hpatch.eq_self (hdigits _)
  have hpre := forall_mem_part hpre (identsText_prerelease v)
  have hbuild := forall_mem_part hbuild (identsText_build v)
  have hbuildne : build ≠ some [] := fun hnil => (hbuild [] hnil).1 rfl
  have hmarked : ∀ c ∈ marked '-' pre, isPartChar c = true := by
    intro c hc
    rw [mem_marked_iff] at hc
    rcases hc with ⟨t, ht, rfl | hc⟩
    · decide
    · exact (hpre t ht).2 c hc
  have hlonger : ∀ q : Parts, q.str.length = v.str.length → q.prerelease ≠ some [] →
      q.build ≠ some [] → q.release.length < 3 → q.completed ≠ v.str := by
    intro q hq hqpre hqbuild hqrelease heq
    have hcompleted := Parts.length_completed hqpre hqbuild
    rw [heq] at hcompleted
    omega
  rcases hx with rfl | ⟨-, rfl⟩
  · rcases hy with rfl | ⟨-, rfl⟩
    · let q : Parts := ⟨[v.major, v.minor, v.patch], pre, build, by simp, le_rfl,
        fun t ht => (hpre t ht).2, fun t ht c hc => Or.inl ((hbuild t ht).2 c hc)⟩
      refine ⟨q, by simp [q, Parts.str, Parts.numbers], ?_⟩
      rw [Parts.completed_eq_str rfl (fun hnil => (hpre [] hnil).1 rfl) hbuildne]
      · simpa [q, Parts.str, Parts.numbers] using hne
      · intro t ht hplus
        exact absurd ((hbuild t ht).2 _ hplus) (by decide)
    · let q : Parts := ⟨[v.major, v.minor], some (decimal v.patch ++ marked '-' pre), build,
        by simp, by simp, by
          rintro t ht
          obtain rfl := Option.some.inj ht
          rw [List.forall_mem_append]
          exact ⟨isPartChar_of_mem_decimal, hmarked⟩,
        fun t ht c hc => Or.inl ((hbuild t ht).2 c hc)⟩
      have hstr : q.str = decimal v.major ++ '.' :: (decimal v.minor ++ '-' ::
          (decimal v.patch ++ (marked '-' pre ++ (marked '+' build ++ [])))) := by
        simp [q, Parts.str, Parts.numbers]
      refine ⟨q, hstr, hlonger q (by rw [hstr, hlength]) ?_ hbuildne (by simp [q])⟩
      simp [q, decimal_ne_nil]
  · let q : Parts := ⟨[v.major], some (decimal v.minor ++ y :: (decimal v.patch ++ marked '-' pre)),
      build, by simp, by simp, by
        rintro t ht
        obtain rfl := Option.some.inj ht
        rw [List.forall_mem_append, List.forall_mem_cons, List.forall_mem_append]
        refine ⟨isPartChar_of_mem_decimal, ?_, isPartChar_of_mem_decimal, hmarked⟩
        rcases hy with rfl | ⟨-, rfl⟩
        · decide
        · decide,
      fun t ht c hc => Or.inl ((hbuild t ht).2 c hc)⟩
    have hstr : q.str = decimal v.major ++ '-' :: (decimal v.minor ++ y ::
        (decimal v.patch ++ (marked '-' pre ++ (marked '+' build ++ [])))) := by
      simp [q, Parts.str, Parts.numbers]
    refine ⟨q, hstr, hlonger q (by rw [hstr, hlength]) ?_ hbuildne (by simp [q])⟩
    simp [q, decimal_ne_nil]

theorem exists_parts_python {v : Version} (h : HasDotted table v.str) :
    ∃ q : Parts, q.str = python table v.str ∧ q.completed ≠ v.str :=
  exists_parts_of_dashed (dashed_subGo _ _ _) (python_ne_self h)

end Python

section Deleted

/-- Some texts around a version have been deleted. -/
inductive Deleted : Str → Str → Prop
  | nil : Deleted [] []
  | keep (c : Char) {s t : Str} : Deleted s t → Deleted (c :: s) (c :: t)
  | drop {d s t : Str} : d = packagePrefix ∨ d = packageSuffix → Deleted s t → Deleted (d ++ s) t

theorem Deleted.refl : ∀ s : Str, Deleted s s
  | [] => .nil
  | c :: s => .keep c (Deleted.refl s)

theorem Deleted.append {s t : Str} (h : Deleted s t) : ∀ d : Str, Deleted (d ++ s) (d ++ t)
  | [] => h
  | c :: d => .keep c (h.append d)

theorem Deleted.sublist {s t : Str} (h : Deleted s t) : t.Sublist s := by
  induction h with
  | nil => exact List.Sublist.refl _
  | keep c _ ih => exact ih.cons_cons c
  | drop _ _ ih => exact ih.trans (List.sublist_append_right _ _)

/-- What starts neither text is kept. -/
theorem Deleted.exists_cons {c : Char} {s t : Str} (h : Deleted (c :: s) t)
    (hstart : ¬ packagePrefix <+: c :: s) (hend : ¬ packageSuffix <+: c :: s) :
    ∃ t', t = c :: t' ∧ Deleted s t' := by
  generalize hs : c :: s = l at h
  cases h with
  | nil => cases hs
  | keep x h =>
      obtain ⟨rfl, rfl⟩ := List.cons.inj hs
      exact ⟨_, rfl, h⟩
  | drop hd h =>
      rw [hs] at hstart hend
      rcases hd with rfl | rfl
      · exact absurd (List.prefix_append _ _) hstart
      · exact absurd (List.prefix_append _ _) hend

theorem not_packagePrefix {c : Char} (h : c ≠ 'd') (s : Str) : ¬ packagePrefix <+: c :: s := by
  rintro ⟨t, ht⟩
  exact h (List.cons.inj ht).1.symm

theorem not_packageSuffix {c : Char} (h : c ≠ '.') (s : Str) : ¬ packageSuffix <+: c :: s := by
  rintro ⟨t, ht⟩
  exact h (List.cons.inj ht).1.symm

theorem Deleted.exists_digits {s : Str} : ∀ {d t : Str}, (∀ c ∈ d, c.isDigit = true) →
    Deleted (d ++ s) t → ∃ t', t = d ++ t' ∧ Deleted s t'
  | [], t, _, h => ⟨t, rfl, h⟩
  | c :: d, t, hd, h => by
      rw [List.forall_mem_cons] at hd
      have hne : ∀ x : Char, x.isDigit = false → c ≠ x := by
        rintro x hx rfl
        rw [hd.1] at hx
        exact absurd hx (by simp)
      obtain ⟨t₁, rfl, h₁⟩ := Deleted.exists_cons h (not_packagePrefix (hne 'd' (by decide)) _)
        (not_packageSuffix (hne '.' (by decide)) _)
      obtain ⟨t₂, rfl, h₂⟩ := Deleted.exists_digits hd.2 h₁
      exact ⟨t₂, rfl, h₂⟩

/-- A dot before a number is kept. -/
theorem Deleted.exists_dot {n : Nat} {s t : Str} (h : Deleted ('.' :: (decimal n ++ s)) t) :
    ∃ t', t = '.' :: (decimal n ++ t') ∧ Deleted s t' := by
  have hsuffix : ¬ packageSuffix <+: '.' :: (decimal n ++ s) := by
    rintro ⟨u, hu⟩
    obtain ⟨c, d, hd⟩ := List.exists_cons_of_ne_nil (decimal_ne_nil n)
    have hdigit : c.isDigit = true := isDigit_of_mem_decimal (n := n) (by rw [hd]; simp)
    rw [hd] at hu
    obtain rfl := (List.cons.inj (List.cons.inj hu).2).1
    exact absurd hdigit (by decide)
  obtain ⟨t₁, rfl, h₁⟩ := h.exists_cons (not_packagePrefix (by decide) _) hsuffix
  obtain ⟨t₂, rfl, h₂⟩ := h₁.exists_digits fun c hc => isDigit_of_mem_decimal hc
  exact ⟨t₂, rfl, h₂⟩

/-- The numbers of a version are kept, and so is the mark behind them. -/
theorem Deleted.exists_releaseStr {v : Version} {t : Str} (h : Deleted v.str t) :
    ∃ tail, t = releaseStr v ++ tail ∧ (∀ c ∈ tail.head?, c = '-' ∨ c = '+') ∧
      ∀ c ∈ tail, isPartChar c = true ∨ c = '+' := by
  rw [str_eq_numbers, releaseStr_eq] at h
  simp only [List.append_assoc, List.cons_append] at h
  obtain ⟨t₁, rfl, h₁⟩ := h.exists_digits fun c hc => isDigit_of_mem_decimal hc
  obtain ⟨t₂, rfl, h₂⟩ := h₁.exists_dot
  obtain ⟨t₃, rfl, h₃⟩ := h₂.exists_dot
  refine ⟨t₃, by rw [releaseStr_eq]; simp, ?_, fun c hc => tail_char v c (h₃.sublist.subset hc)⟩
  have hhead := head?_tail v
  generalize marked '-' v.parts.prerelease ++ marked '+' v.parts.build = tail at h₃ hhead
  cases tail with
  | nil =>
      rw [List.sublist_nil.mp h₃.sublist]
      simp
  | cons x tail =>
      have hx := hhead x rfl
      have hne : x ≠ 'd' ∧ x ≠ '.' := by
        rcases hx with rfl | rfl
        · decide
        · decide
      obtain ⟨t₄, rfl, -⟩ := h₃.exists_cons (not_packagePrefix hne.1 _) (not_packageSuffix hne.2 _)
      intro c hc
      obtain rfl := Option.some.inj hc
      exact hx

end Deleted

section Dotnet

/-- `(\.tar\.gz)?` -/
def suffixRegex : Rx := opt (.group 3 (lit packageSuffix))

/-- `(.*?)(\.tar\.gz)?` -/
def innerRegex : Rx := .seq (.group 2 (.lazyStar dot)) (.seq suffixRegex .eps)

/-- `(datadog-dotnet-apm-)?(.*?)(\.tar\.gz)?` -/
def packageRegex : Rx := .seq (opt (.group 1 (lit packagePrefix))) innerRegex

theorem dotnet_eq (s : Str) : dotnet s = sub packageRegex [.ref 2] s := rfl

theorem expand_ref (n : Nat) (m : Match) : expand [.ref n] m = (capture n m).getD [] := by
  simp [expand]

/-- A match is what group 2 captures, with the prefix before it or the suffix behind it. -/
theorem mem_run_packageRegex {s : Str} {m : Match} (hm : m ∈ run packageRegex (s, [])) :
    ∃ a d b, s = a ++ (d ++ (b ++ m.1)) ∧ (a = [] ∨ a = packagePrefix) ∧
      (b = [] ∨ b = packageSuffix) ∧ capture 2 m = some d := by
  have hlit : ∀ (n : Nat) (l s : Str) (caps : List (Nat × Str)) (m : Match),
      m ∈ run (opt (.group n (lit l))) (s, caps) → ∃ d t, s = d ++ t ∧ (d = [] ∨ d = l) ∧
        m.1 = t ∧ (m.2 = caps ∨ m.2 = (n, d) :: caps) := by
    intro n l s caps m hm
    rcases mem_run_opt.mp hm with hm | rfl
    · obtain ⟨x, hx, rfl⟩ := List.mem_map.mp hm
      obtain ⟨t, rfl, rfl⟩ := mem_run_lit.mp hx
      exact ⟨l, t, rfl, Or.inr rfl, rfl, Or.inr (by simp)⟩
    · exact ⟨[], s, rfl, Or.inl rfl, rfl, Or.inl rfl⟩
  obtain ⟨⟨s₁, caps₁⟩, h₁, hinner⟩ := mem_run_seq.mp hm
  obtain ⟨a, t, rfl, ha, rfl, -⟩ := hlit _ _ _ _ _ h₁
  obtain ⟨x, hx, hsuffix⟩ := mem_run_seq.mp hinner
  obtain ⟨y, hy, rfl⟩ := List.mem_map.mp hx
  obtain ⟨d, u, rfl, -, rfl⟩ := mem_run_lazyStar_chars.mp hy
  obtain ⟨z, hz, hend⟩ := mem_run_seq.mp hsuffix
  obtain rfl := List.mem_singleton.mp hend
  obtain ⟨b, w, rfl, hb, hw, hcaps⟩ := hlit _ _ _ _ _ hz
  refine ⟨a, d, b, by rw [hw], ha, hb, ?_⟩
  rcases hcaps with hcaps | hcaps
  · simp [capture, hcaps]
  · simp [capture, hcaps, List.lookup_cons]

theorem deleted_subGo (k : Nat) (b : Bool) (s : Str) :
    Deleted s (subGo packageRegex [.ref 2] k b s) := by
  refine subGo_related (P := fun _ => True) (fun _ _ _ => trivial) Deleted.refl
    (fun c s t h => .keep c h) ?_ k b s trivial
  intro s _ m hm t ht
  obtain ⟨a, d, b, rfl, ha, hb, hd⟩ := mem_run_packageRegex hm
  have hinner : Deleted (d ++ (b ++ m.1)) (d ++ t) := by
    refine Deleted.append ?_ d
    rcases hb with rfl | rfl
    · exact ht
    · exact .drop (Or.inr rfl) ht
  rw [expand_ref, hd, Option.getD_some]
  rcases ha with rfl | rfl
  · exact hinner
  · exact .drop (Or.inl rfl) hinner

theorem NamesPackage.cons {c : Char} {s : Str} (h : NamesPackage s) : NamesPackage (c :: s) :=
  h.imp (fun h => h.trans (List.suffix_cons c s).isInfix)
    fun h => h.trans (List.suffix_cons c s).isInfix

theorem dotnet_eq_self {s : Str} (h : ¬ NamesPackage s) : dotnet s = s := by
  refine sub_eq_self (P := fun s => ¬ NamesPackage s) ?_ ?_ h
  · exact fun c s h hs => h hs.cons
  · intro s h m hm
    obtain ⟨a, d, b, rfl, ha, hb, hd⟩ := mem_run_packageRegex hm
    rw [expand_ref, hd, Option.getD_some]
    rcases ha with rfl | rfl
    · rcases hb with rfl | rfl
      · rfl
      · exact absurd (Or.inr ⟨d, m.1, by simp⟩) h
    · exact absurd (Or.inl ⟨[], d ++ (b ++ m.1), by simp⟩) h

def StartsPackage (s : Str) : Prop := packagePrefix <+: s ∨ packageSuffix <+: s

theorem run_suffix_of_not {s : Str} (caps : List (Nat × Str)) (h : ¬ packageSuffix <+: s) :
    run (.seq suffixRegex .eps) (s, caps) = [(s, caps)] := by
  rw [run_seq, suffixRegex, run_opt, run_group, run_lit_of_not_prefix h]
  rfl

/-- The suffix is taken where it stands. -/
theorem exists_suffix_match (s : Str) (caps : List (Nat × Str)) :
    ∃ m ms, run (.seq suffixRegex .eps) (s, caps) = m :: ms ∧
      capture 2 m = capture 2 (s, caps) ∧
      (s = packageSuffix ++ m.1 ∨ ¬ packageSuffix <+: s ∧ m.1 = s) := by
  by_cases h : packageSuffix <+: s
  · obtain ⟨t, rfl⟩ := h
    refine ⟨(t, (3, packageSuffix) :: caps), [(packageSuffix ++ t, caps)], ?_, ?_, Or.inl rfl⟩
    · rw [run_seq, suffixRegex, run_opt, run_group, run_lit_append]
      simp [Regex.run]
    · simp [capture, List.lookup_cons]
  · exact ⟨(s, caps), [], run_suffix_of_not caps h, rfl, Or.inr ⟨h, rfl⟩⟩

theorem exists_inner_match (s : Str) (caps : List (Nat × Str)) :
    ∃ m ms, run innerRegex (s, caps) = m :: ms ∧ capture 2 m = some [] ∧
      (s = packageSuffix ++ m.1 ∨ ¬ packageSuffix <+: s ∧ m.1 = s) := by
  obtain ⟨rest, hlazy⟩ := run_lazyStar_chars_head (p := (· != '\n')) s caps
  obtain ⟨m, ms, hm, hcapture, hs⟩ := exists_suffix_match s ((2, []) :: caps)
  obtain ⟨rest, hrun⟩ : ∃ rest, run innerRegex (s, caps) = m :: rest :=
    ⟨_, by rw [innerRegex, run_seq, run_group, dot, hlazy, List.map_cons, List.flatMap_cons,
      Nat.sub_self, List.take_zero, hm, List.cons_append]⟩
  exact ⟨m, rest, hrun, by rw [hcapture]; simp [capture], hs⟩

/-- The first match takes the prefix and the suffix where they stand, and nothing else. -/
theorem exists_package_match (s : Str) :
    ∃ m ms, run packageRegex (s, []) = m :: ms ∧ capture 2 m = some [] ∧
      (m.1.length < s.length ∨ ¬ StartsPackage s ∧ m.1 = s) := by
  have hsuffix : 0 < packageSuffix.length := by decide
  by_cases h : packagePrefix <+: s
  · obtain ⟨t, rfl⟩ := h
    have hprefix : 0 < packagePrefix.length := by decide
    obtain ⟨m, ms, hm, hcapture, ht⟩ := exists_inner_match t [(1, packagePrefix)]
    refine ⟨m, ms ++ run innerRegex (packagePrefix ++ t, []), ?_, hcapture, Or.inl ?_⟩
    · have hopt : run (opt (.group 1 (lit packagePrefix))) (packagePrefix ++ t, []) =
          [(t, [(1, packagePrefix)]), (packagePrefix ++ t, [])] := by
        rw [run_opt, run_group, run_lit_append]
        simp
      rw [packageRegex, run_seq, hopt, List.flatMap_cons, hm, List.flatMap_cons,
        List.flatMap_nil, List.append_nil, List.cons_append]
    · rw [List.length_append]
      rcases ht with ht | ⟨-, ht⟩
      · have hlength := congrArg List.length ht
        rw [List.length_append] at hlength
        omega
      · rw [ht]
        omega
  · obtain ⟨m, ms, hm, hcapture, hs⟩ := exists_inner_match s []
    refine ⟨m, ms, ?_, hcapture, ?_⟩
    · rw [packageRegex, run_seq, run_opt, run_group, run_lit_of_not_prefix h, List.map_nil,
        List.nil_append, List.flatMap_cons, List.flatMap_nil, List.append_nil, hm]
    · rcases hs with hs | ⟨hnot, hs⟩
      · have hlength := congrArg List.length hs
        rw [List.length_append] at hlength
        exact Or.inl (by omega)
      · exact Or.inr ⟨not_or.mpr ⟨h, hnot⟩, hs⟩

/-- Where neither text starts, the match after the empty one takes a character. -/
theorem run_packageRegex_cons {c : Char} {s : Str} (h : ¬ StartsPackage (c :: s)) :
    ∃ ms, run packageRegex (c :: s, []) = (c :: s, [(2, [])]) :: ms ∧
      if c = '\n' then ms = []
      else ∃ m ms', ms = m :: ms' ∧ capture 2 m = some [c] ∧
        (s = packageSuffix ++ m.1 ∨ ¬ packageSuffix <+: s ∧ m.1 = s) := by
  rw [StartsPackage, not_or] at h
  rw [packageRegex, run_seq, run_opt, run_group, run_lit_of_not_prefix h.1, List.map_nil,
    List.nil_append, List.flatMap_cons, List.flatMap_nil, List.append_nil, innerRegex, run_seq,
    run_group, dot, run_lazyStar_chars_cons, List.map_cons, List.flatMap_cons, Nat.sub_self,
    List.take_zero, run_suffix_of_not _ h.2]
  refine ⟨_, rfl, ?_⟩
  by_cases hc : c = '\n'
  · rw [if_pos hc, if_neg (by simpa using hc)]
    rfl
  · obtain ⟨rest, hlazy⟩ := run_lazyStar_chars_head (p := (· != '\n')) s []
    obtain ⟨m, ms, hm, hcapture, hs⟩ := exists_suffix_match s [(2, [c])]
    have htake : (c :: s).take ((c :: s).length - s.length) = [c] := by simp
    rw [if_neg hc, if_pos (by simpa using hc), hlazy, List.map_cons, List.flatMap_cons, htake, hm]
    exact ⟨m, _, rfl, by rw [hcapture]; simp [capture], hs⟩

/-- **Something is deleted** from a text that names a package. -/
theorem length_subGo_lt : ∀ (k : Nat) (b : Bool) (s : Str),
    2 * s.length + (if b then 1 else 2) ≤ k → (b = true → ¬ StartsPackage s) → NamesPackage s →
      (subGo packageRegex [.ref 2] k b s).length < s.length
  | 0, b, s, hk, _, _ => by
      split at hk <;> omega
  | k + 1, b, s, hk, hb, h => by
      have hle : ∀ k b s, (subGo packageRegex [.ref 2] k b s).length ≤ s.length := fun k b s =>
        (deleted_subGo k b s).sublist.length_le
      obtain ⟨m, ms, hm, hcapture, hfirst⟩ := exists_package_match s
      rw [subGo.eq_def]
      cases b with
      | false =>
          simp only [hm, Bool.false_and, Bool.not_false, List.find?_cons, expand_ref, hcapture,
            Option.getD_some, List.nil_append]
          rcases hfirst with hlt | ⟨hnot, heq⟩
          · exact lt_of_le_of_lt (hle _ _ _) hlt
          · rw [heq, decide_eq_true rfl]
            refine length_subGo_lt k true s ?_ (fun _ => hnot) h
            simp only [if_true, Bool.false_eq_true, if_false] at hk ⊢
            omega
      | true =>
          cases s with
          | nil =>
              have hnil : ¬ NamesPackage [] := by
                rintro (h | h)
                · exact absurd (List.infix_nil.mp h) (by decide)
                · exact absurd (List.infix_nil.mp h) (by decide)
              exact absurd h hnil
          | cons c s =>
              have hnot := hb rfl
              obtain ⟨ms, hrun, hms⟩ := run_packageRegex_cons hnot
              have hrest : NamesPackage s := by
                rcases h with h | h
                · rcases List.infix_cons_iff.mp h with h | h
                  · exact absurd (Or.inl h) hnot
                  · exact Or.inl h
                · rcases List.infix_cons_iff.mp h with h | h
                  · exact absurd (Or.inr h) hnot
                  · exact Or.inr h
              rw [List.length_cons] at hk ⊢
              split_ifs at hms with hc
              · simp only [hrun, hms, List.find?_cons, decide_true, Bool.and_self, Bool.not_true,
                  List.find?_nil, List.length_cons]
                have ih := length_subGo_lt k false s (by simp at hk ⊢; omega) (by simp) hrest
                omega
              · obtain ⟨m, ms', rfl, hcapture, hm⟩ := hms
                have hlt : m.1.length ≤ s.length := by
                  rcases hm with hm | ⟨-, hm⟩
                  · rw [hm, List.length_append]
                    omega
                  · rw [hm]
                have hne : m.1 ≠ c :: s := by
                  intro heq
                  rw [heq, List.length_cons] at hlt
                  omega
                simp only [hrun, List.find?_cons, decide_true, Bool.and_self, Bool.not_true,
                  decide_eq_false hne, Bool.and_false, Bool.not_false, expand_ref, hcapture,
                  Option.getD_some, List.length_append, List.length_singleton]
                rcases hm with hm | ⟨hsuffix, hm⟩
                · have hbound := hle k false m.1
                  have hlength := congrArg List.length hm
                  have hpos : 0 < packageSuffix.length := by decide
                  rw [List.length_append] at hlength
                  omega
                · rw [hm]
                  have ih := length_subGo_lt k false s (by simp at hk ⊢; omega) (by simp) hrest
                  omega

theorem exists_parts_dotnet {v : Version} (h : NamesPackage v.str) :
    ∃ q : Parts, q.str = dotnet v.str ∧ q.completed ≠ v.str := by
  obtain ⟨tail, htail, hhead, hchar⟩ := (deleted_subGo _ _ v.str).exists_releaseStr
  obtain ⟨q, hrelease, hq⟩ := exists_parts_releaseStr v hhead hchar
  have hstr : q.str = dotnet v.str := by
    rw [hq, dotnet_eq, sub, htail]
  refine ⟨q, hstr, fun heq => ?_⟩
  have hle := Parts.length_completed_le hrelease
  have hlt := length_subGo_lt (2 * v.str.length + 2) false v.str le_rfl (by simp) h
  rw [heq, hstr, dotnet_eq, sub] at hle
  omega

end Dotnet

section Again

variable {sv : SemanticVersion} {table : CharTable} {name : Str} {v : Version}

/-- **What is not rewritten stands.** -/
theorem normalize_str (hdoc : table.Documented) (h : ¬ Rewritten table name v.str) :
    normalize table name v.str = v.str := by
  rw [Rewritten, not_or, not_or, not_and, not_and, not_and] at h
  obtain ⟨hdotnet, hphp, hpython⟩ := h
  unfold normalize
  split_ifs with _ _ _ hname hname hname
  · exact ruby_str hdoc
  · exact libddwaf_str
  · exact java_str
  · exact dotnet_eq_self (hdotnet hname)
  · exact php_eq_self (newline_not_mem_str v) (hphp hname)
  · exact python_eq_self (hpython hname)
  · rfl

theorem exists_parts_of_rewritten (h : Rewritten table name v.str) :
    ∃ q : Parts, q.str = normalize table name v.str ∧ q.completed ≠ v.str := by
  rcases h with ⟨rfl, h⟩ | ⟨rfl, h⟩ | ⟨rfl, h⟩
  · rw [normalize, if_neg (by decide), if_neg (by decide), if_neg (by decide), if_pos rfl]
    exact exists_parts_dotnet h
  · rw [normalize, if_neg (by decide), if_neg (by decide), if_neg (by decide),
      if_neg (by decide), if_pos rfl]
    exact exists_parts_php h
  · rw [normalize, if_neg (by decide), if_neg (by decide), if_neg (by decide),
      if_neg (by decide), if_neg (by decide), if_pos rfl]
    exact exists_parts_python h

theorem versionOfText_parts (q : Parts) :
    versionOfText sv q.str = Raised.ofOption (sv.coerceRaises q.str) (sv.coerce q.str) := by
  have hv : ¬ ['v'] <+: q.str := by
    rintro ⟨t, ht⟩
    obtain ⟨c, hc, hdigit⟩ := q.head?_str
    rw [← ht] at hc
    obtain rfl := Option.some.inj hc
    exact absurd hdigit (by decide)
  rw [versionOfText, if_neg hv]

theorem create_str (hname : '@' ∉ name) :
    create sv table name v.str =
      (versionOfText sv (normalize table name v.str)).map fun w => ⟨name, v.str, w⟩ := by
  rw [create, if_neg hname, if_neg (str_ne_nil v), strip_str]
  rfl

/-- **A rewritten text is not read as the version that was printed.** -/
theorem not_coerced_of_rewritten (hcoerce : Coerces sv.coerce) (h : Rewritten table name v.str) :
    versionOfText sv (normalize table name v.str) ≠ .ok v := by
  obtain ⟨q, hq, hne⟩ := exists_parts_of_rewritten h
  rw [← hq, versionOfText_parts, Ne, Raised.ofOption_eq_ok_iff]
  exact fun hv => hne (hcoerce.parts q v hv).symm

/--
**Printed versions read again.**  A version that a component was given is read
from its text exactly when the rule of the component does not rewrite that text.
-/
theorem create_str_iff (sv : SemanticVersion) (table : CharTable) (hdoc : table.Documented)
    (hcoerce : Coerces sv.coerce) (name raw : Str) (cv : ComponentVersion)
    (h : create sv table name raw = .ok cv) :
    (∃ cv', create sv table name cv.version.str = .ok cv' ∧ cv'.version = cv.version) ↔
      ¬ Rewritten table name cv.version.str := by
  have hname : '@' ∉ name := by
    intro hmem
    rw [create, if_pos hmem] at h
    cases h
  rw [create_str hname]
  constructor
  · rintro ⟨cv', hcv', hversion⟩ hrewritten
    refine not_coerced_of_rewritten hcoerce hrewritten ?_
    cases hw : versionOfText sv (normalize table name cv.version.str) with
    | error e =>
        rw [hw] at hcv'
        cases hcv'
    | ok w =>
        rw [hw] at hcv'
        obtain rfl := Except.ok.inj hcv'
        rw [← hversion]
  · intro hstands
    refine ⟨⟨name, cv.version.str, cv.version⟩, ?_, rfl⟩
    rw [normalize_str hdoc hstands, ← cv.version.str_parts, versionOfText_parts,
      cv.version.str_parts, hcoerce.str]
    rfl

/-- The package that reads the texts of versions and no others. -/
def exactVersions : SemanticVersion := .ofReading Npm.Block.ofStr exactCoerce

theorem create_str_iff_dev :
    ∃ cv, create exactVersions .ascii "python" "4.3.0.dev0" = .ok cv ∧
      ((∃ cv', create exactVersions .ascii "python" cv.version.str = .ok cv' ∧
          cv'.version = cv.version) ↔ ¬ Rewritten .ascii "python" cv.version.str) := by
  obtain ⟨cv, hcv⟩ : ∃ cv, create exactVersions .ascii "python" "4.3.0.dev0" = .ok cv := ⟨_, rfl⟩
  exact ⟨cv, hcv, create_str_iff exactVersions .ascii CharTable.ascii_documented
    exactCoerce_coerces "python" "4.3.0.dev0" cv hcv⟩

/-- `4.3.0.1.dev0` is printed as `4.3.0-1.dev0`, which is read as `4.3.0-1-dev0`. -/
theorem not_create_str_python :
    ∃ cv, create exactVersions .ascii "python" "4.3.0.1.dev0" = .ok cv ∧
      cv.version.str = "4.3.0-1.dev0".toList ∧
      ¬ ∃ cv', create exactVersions .ascii "python" cv.version.str = .ok cv' ∧
        cv'.version = cv.version := by
  obtain ⟨cv, hcv, hstr⟩ : ∃ cv, create exactVersions .ascii "python" "4.3.0.1.dev0" = .ok cv ∧
      cv.version.str = "4.3.0-1.dev0".toList := ⟨_, rfl, by decide⟩
  obtain ⟨again, hagain, hagainstr⟩ : ∃ again,
      create exactVersions .ascii "python" "4.3.0-1.dev0" = .ok again ∧
        again.version.str = "4.3.0-1-dev0".toList := ⟨_, rfl, by decide⟩
  refine ⟨cv, hcv, hstr, ?_⟩
  rintro ⟨cv', hcv', hversion⟩
  rw [hstr, hagain] at hcv'
  obtain rfl := Except.ok.inj hcv'
  rw [hversion, hstr] at hagainstr
  exact absurd hagainstr (by decide)

end Again

end ComponentVersion
end Manifest
end SystemTests
