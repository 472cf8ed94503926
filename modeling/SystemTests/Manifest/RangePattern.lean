import SystemTests.Foundation.NpmSyntax
import SystemTests.Foundation.RegexFind
import SystemTests.Manifest.SemverRange

/-!
# The pattern of declared versions (`_RANGE_RE` of `utils/manifest/_internal/core.py`)

The versions that a range declares are found in its text by a pattern of its own,
not by the parser of ranges.  The pattern knows the operators `>`, `>=`, `<`, `<=`
and `^` before at least two numbers.  The parser also accepts a version without
operator, after `=` or `~`, with one number, or on a side of a hyphen pair.

**Results.**
* `captured_text`: what the pattern captures of a block, whatever follows it.
* `captured_expression`: what it captures of an expression that the parser accepts
  are the recognised versions, each up to a star.
-/

namespace SystemTests
namespace Manifest

open Foundation Foundation.Text Foundation.Semver Foundation.Regex Foundation.Regex.Rx

section Pattern

variable (table : CharTable)

/-- `[.\w+-]` -/
def rangeChar (c : Char) : Bool := c == '.' || table.isWord c || c == '+' || c == '-'

/-- `\d+\.\d+(?:\.\d+)?` -/
def releaseRegex : Rx :=
  seqs [plus (.chars table.isDigit), char '.', plus (.chars table.isDigit),
    opt (.seq (char '.') (plus (.chars table.isDigit)))]

/-- `(?:>=?|<=?|\^)` -/
def operatorRegex : Rx :=
  .alt (.seq (char '>') (opt (char '='))) (.alt (.seq (char '<') (opt (char '='))) (char '^'))

/-- `_RANGE_RE` -/
def rangeRegex : Rx :=
  .seq operatorRegex
    (.group 1 (.seq (releaseRegex table) (.star (.chars (rangeChar table)))))

end Pattern

section Written

/-- A version that is written in an expression. -/
structure Written where
  spelling : Npm.Spelling
  /-- It is one side of a hyphen pair, whose operator is not written. -/
  inHyphen : Bool

variable (spell : Str → Option Npm.Spelling)

def groupWritten (group : Str) : List Written :=
  ((groupBlocks group).filterMap spell).map fun b => ⟨b, decide (CustomParser.hyphen <:+: group)⟩

/-- The versions written in an expression; nothing is written in a blank group. -/
def writtenIn (expression : Str) : List Written :=
  (((split CustomParser.joiner expression).map strip).filter (· ≠ [])).flatMap
    (groupWritten spell)

/-- The operators of the pattern. -/
def rangeOperators : List Npm.Sign := [.gt, .gte, .lt, .lte, .caret]

/-- The version is behind an operator of the pattern and has two numbers. -/
def Written.recognised (w : Written) : Bool :=
  !w.inHyphen && w.spelling.numbers.hasMinor && decide (w.spelling.sign ∈ rangeOperators)

/-- The version up to a star. -/
def declaredText (b : Npm.Spelling) : Str := b.versionText.takeWhile (· ≠ '*')

/-- What the pattern captures of a version. -/
def Written.declaredTexts (w : Written) : List Str :=
  if w.recognised then [declaredText w.spelling] else []

/--
What the check relies on in the package.  `spell` is how an accepted block is
written; the part of a version up to a star is coerced to the written version,
with the missing parts zero and further parts as build metadata.
-/
structure SemanticVersion.SpelledOut (sv : SemanticVersion) : Prop where
  accepted : ∀ text, (sv.parseSimple CustomParser.range text).isSome = true →
    (spell text).isSome = true
  text : ∀ text b, spell text = some b → b.text = text
  coerce : ∀ text b v, spell text = some b → b.numbers.hasMinor = true → b.boundary = some v →
    ∃ w, sv.coerce (declaredText b) = some w ∧ w.key = v.key

/-- Digits are word characters and white space is not. -/
structure CharsDocumented (table : CharTable) : Prop extends table.Documented where
  isWord_of_isDigit : ∀ c, table.isDigit c = true → table.isWord c = true
  isWord_of_isSpace : ∀ c, isSpace c = true → table.isWord c = false

end Written

section Captures

variable {table : CharTable}

/-- The characters that a match can start with. -/
def startChar (c : Char) : Bool := c == '<' || c == '>' || c == '^'

/-- The characters at which a match ends. -/
def delimChar (table : CharTable) (c : Char) : Bool := !rangeChar table c

theorem mem_run_operatorRegex {s : Str} {caps : List (Nat × Str)} {m : Match}
    (hm : m ∈ run operatorRegex (s, caps)) :
    ∃ c t, s = c :: t ∧ startChar c = true ∧ (m.1 = t ∨ t = '=' :: m.1) := by
  have htwo : ∀ x, startChar x = true → m ∈ run (.seq (char x) (opt (char '='))) (s, caps) →
      ∃ c t, s = c :: t ∧ startChar c = true ∧ (m.1 = t ∨ t = '=' :: m.1) := by
    intro x hx hm
    obtain ⟨m', hm', hm⟩ := mem_run_seq.mp hm
    obtain ⟨t, rfl, rfl⟩ := mem_run_char.mp hm'
    refine ⟨x, t, rfl, hx, ?_⟩
    rcases mem_run_opt.mp hm with hm | rfl
    · obtain ⟨u, rfl, rfl⟩ := mem_run_char.mp hm
      exact Or.inr rfl
    · exact Or.inl rfl
  rcases List.mem_append.mp hm with hm | hm
  · exact htwo '>' (by decide) hm
  · rcases List.mem_append.mp hm with hm | hm
    · exact htwo '<' (by decide) hm
    · obtain ⟨t, rfl, rfl⟩ := mem_run_char.mp hm
      exact ⟨'^', t, rfl, by decide, Or.inl rfl⟩

theorem rangeRegex_startsIn : StartsIn startChar (rangeRegex table) := by
  intro c s hc
  rw [List.eq_nil_iff_forall_not_mem]
  intro m hm
  obtain ⟨m', hm', -⟩ := mem_run_seq.mp hm
  obtain ⟨c', t, hs, hc', -⟩ := mem_run_operatorRegex hm'
  obtain ⟨rfl, rfl⟩ := List.cons.inj hs
  rw [hc] at hc'
  exact Bool.false_ne_true hc'

theorem rangeRegex_consuming : Consuming (rangeRegex table) := by
  intro s m hm
  obtain ⟨m', hm', hmm'⟩ := mem_run_seq.mp hm
  obtain ⟨c, t, rfl, -, ht⟩ := mem_run_operatorRegex hm'
  have hwithin : Within (fun _ => true)
      (.group 1 (.seq (releaseRegex table) (.star (.chars (rangeChar table))))) := by
    simp [Within, releaseRegex, seqs, plus, opt, char]
  obtain ⟨d, hd, -⟩ := mem_run_within hwithin m' m hmm'
  have hle := congrArg List.length hd
  rw [List.length_append] at hle
  rw [List.length_cons]
  rcases ht with ht | ht
  · rw [← ht]
    omega
  · rw [ht, List.length_cons]
    omega

/-- The release starts with two numbers. -/
theorem run_releaseRegex_ne_nil_iff {s : Str} {caps : List (Nat × Str)} :
    run (releaseRegex table) (s, caps) ≠ [] ↔
      ∃ d c t, s = d ++ '.' :: c :: t ∧ d ≠ [] ∧ (∀ x ∈ d, table.isDigit x = true) ∧
        table.isDigit c = true := by
  constructor
  · intro hne
    obtain ⟨m, hm⟩ := List.exists_mem_of_ne_nil _ hne
    obtain ⟨m₁, hm₁, hm⟩ := mem_run_seq.mp hm
    obtain ⟨d, t₁, rfl, hd, hdigits, rfl⟩ := mem_run_plus_chars.mp hm₁
    obtain ⟨m₂, hm₂, hm⟩ := mem_run_seq.mp hm
    obtain ⟨t₂, rfl, rfl⟩ := mem_run_char.mp hm₂
    obtain ⟨m₃, hm₃, -⟩ := mem_run_seq.mp hm
    obtain ⟨e, t₃, rfl, he, hdigits', -⟩ := mem_run_plus_chars.mp hm₃
    obtain ⟨c, e, rfl⟩ := List.exists_cons_of_ne_nil he
    exact ⟨d, c, e ++ t₃, by simp, hd, hdigits, hdigits' c List.mem_cons_self⟩
  · rintro ⟨d, c, t, rfl, hd, hdigits, hc⟩
    have hmem : (t, caps) ∈ run (releaseRegex table) (d ++ '.' :: c :: t, caps) := by
      refine mem_run_seq.mpr ⟨('.' :: c :: t, caps), ?_, ?_⟩
      · exact mem_run_plus_chars.mpr ⟨d, _, rfl, hd, hdigits, rfl⟩
      · refine mem_run_seq.mpr ⟨(c :: t, caps), mem_run_char.mpr ⟨_, rfl, rfl⟩, ?_⟩
        refine mem_run_seq.mpr ⟨(t, caps), ?_, ?_⟩
        · exact mem_run_plus_chars.mpr ⟨[c], t, rfl, by simp, by simpa using hc, rfl⟩
        · refine mem_run_seq.mpr ⟨(t, caps), mem_run_opt.mpr (Or.inr rfl), ?_⟩
          exact List.mem_singleton_self _
    exact List.ne_nil_of_mem hmem

theorem releaseRegex_within (hdoc : CharsDocumented table) :
    Within (rangeChar table) (releaseRegex table) := by
  have hdigit : ∀ c, table.isDigit c = true → rangeChar table c = true := by
    intro c hc
    simp [rangeChar, hdoc.isWord_of_isDigit c hc]
  have hdot : rangeChar table '.' = true := rfl
  simpa [Within, releaseRegex, seqs, plus, opt, char, hdot] using hdigit

/-- The group of the pattern takes all it can. -/
theorem head?_run_version (hdoc : CharsDocumented table) (t : Str)
    (caps : List (Nat × Str)) :
    (run (.group 1 (.seq (releaseRegex table) (.star (.chars (rangeChar table)))))
        (t, caps)).head?.map (fun m => (m.1, capture 1 m)) =
      if run (releaseRegex table) (t, caps) = [] then none
      else some (t.dropWhile (rangeChar table), some (t.takeWhile (rangeChar table))) := by
  have hhead := head?_run_seq_star (releaseRegex_within hdoc) (t, caps)
  rw [run_group, List.head?_map, Option.map_map]
  split_ifs at hhead ⊢ with hnil
  · rw [Option.map_eq_none_iff] at hhead ⊢
    exact hhead
  · obtain ⟨m, hm, hfst⟩ := Option.map_eq_some_iff.mp hhead
    rw [hm, Option.map_some, Function.comp_apply, hfst, take_length_sub_dropWhile]
    simp [capture]

theorem run_releaseRegex_eq_nil {c : Char} (hc : table.isDigit c = false) (t : Str)
    (caps : List (Nat × Str)) : run (releaseRegex table) (c :: t, caps) = [] := by
  by_contra hne
  obtain ⟨d, c', t', hs, hd, hdigits, -⟩ := run_releaseRegex_ne_nil_iff.mp hne
  obtain ⟨x, d, rfl⟩ := List.exists_cons_of_ne_nil hd
  obtain ⟨rfl, -⟩ := List.cons.inj hs
  rw [hdigits c List.mem_cons_self] at hc
  exact Bool.false_ne_true hc.symm

/-- After an operator of the pattern only the version decides. -/
theorem matchStart_rangeRegex (hdoc : CharsDocumented table) {sign : Npm.Sign}
    (hsign : sign ∈ rangeOperators) {t : Str} (ht : '=' ∉ t.head?) :
    matchStart (rangeRegex table) (sign.text ++ t) =
      (run (.group 1 (.seq (releaseRegex table) (.star (.chars (rangeChar table)))))
        (t, [])).head? := by
  have hdigit : table.isDigit '=' = false := hdoc.isDigit '=' (by decide)
  have heq : run (char '=') (t, []) = [] := by
    rw [List.eq_nil_iff_forall_not_mem]
    intro m hm
    obtain ⟨u, rfl, -⟩ := mem_run_char.mp hm
    exact ht rfl
  have hskip : run (.group 1 (.seq (releaseRegex table) (.star (.chars (rangeChar table)))))
      ('=' :: t, []) = [] := by
    rw [run_group, run_seq, run_releaseRegex_eq_nil hdigit, List.flatMap_nil, List.map_nil]
  have hrun : run operatorRegex (sign.text ++ t, []) = [(t, [])] ∨
      run operatorRegex (sign.text ++ t, []) = [(t, []), ('=' :: t, [])] := by
    simp only [rangeOperators, List.mem_cons, List.not_mem_nil, or_false] at hsign
    rcases hsign with rfl | rfl | rfl | rfl | rfl
    all_goals
      simp [operatorRegex, Regex.run, Npm.Sign.text, run_char_cons, run_opt, heq]
  rw [matchStart, rangeRegex, run_seq]
  rcases hrun with hrun | hrun
  · rw [hrun, List.flatMap_cons, List.flatMap_nil, List.append_nil]
  · rw [hrun, List.flatMap_cons, List.flatMap_cons, List.flatMap_nil, hskip, List.append_nil,
      List.append_nil]

end Captures

section Blocks

variable {table : CharTable} {b : Npm.Spelling}

theorem toNat_lt_of_isAlphanum {c : Char} (h : c.isAlphanum = true) : c.toNat < 128 := by
  have hrange := isAlphanum_iff.mp h
  omega

theorem startChar_of_mem_versionText {c : Char} (h : c ∈ b.versionText) :
    startChar c = false := by
  rcases Npm.Spelling.mem_versionText_cases h with h | rfl | rfl | rfl
  · by_contra hstart
    rw [Bool.not_eq_false] at hstart
    simp only [startChar, Bool.or_eq_true, beq_iff_eq] at hstart
    rcases hstart with (rfl | rfl) | rfl
    all_goals exact absurd h (by decide)
  all_goals decide

/-- All of a version but a star belongs to the class that the pattern repeats. -/
theorem rangeChar_of_mem_versionText (hdoc : CharsDocumented table) {c : Char}
    (h : c ∈ b.versionText) : rangeChar table c = decide (c ≠ '*') := by
  rcases Npm.Spelling.mem_versionText_cases h with h | rfl | rfl | rfl
  · have hne : c ≠ '*' := by
      rintro rfl
      exact absurd h (by decide)
    rw [isIdentChar, Bool.or_eq_true, beq_iff_eq] at h
    rcases h with h | rfl
    · have hword := hdoc.isWord c (toNat_lt_of_isAlphanum h)
      simp [rangeChar, hword, h, hne]
    · simp [rangeChar]
  · have hword := hdoc.isWord '*' (by decide)
    rw [rangeChar, hword]
    decide
  · rfl
  · simp [rangeChar]

theorem versionText_ne_nil (b : Npm.Spelling) : b.versionText ≠ [] := by
  have hnumbers : b.numbers.text ≠ [] := by
    cases hminor : b.numbers.hasMinor with
    | true =>
        obtain ⟨M, c, s, htext, -⟩ := Npm.Numbers.text_of_hasMinor hminor
        simp [htext]
    | false =>
        rcases Npm.Numbers.text_of_not_hasMinor hminor with
          ⟨c, s, htext, -⟩ | ⟨M, htext⟩ | ⟨M, c, s, htext, -⟩
        · simp [htext]
        · rw [htext]
          exact decimal_ne_nil M
        · simp [htext]
  simp [Npm.Spelling.versionText, hnumbers]

theorem run_releaseRegex_of_hasMinor (hdoc : CharsDocumented table)
    (h : b.numbers.hasMinor = true) (tail : Str) (caps : List (Nat × Str)) :
    run (releaseRegex table) (b.versionText ++ tail, caps) ≠ [] := by
  have hdigit : ∀ c : Char, c.isDigit = true → table.isDigit c = true := by
    intro c hc
    rw [hdoc.isDigit c (toNat_lt_of_isAlphanum (by simp [Char.isAlphanum, hc])), hc]
  obtain ⟨M, c, s, htext, hc⟩ := Npm.Numbers.text_of_hasMinor h
  refine run_releaseRegex_ne_nil_iff.mpr
    ⟨decimal M, c, s ++ (b.qualifier ++ tail), ?_, decimal_ne_nil M, ?_, hdigit c hc⟩
  · simp [Npm.Spelling.versionText, htext]
  · intro x hx
    exact hdigit x (isDigit_of_mem_decimal hx)

theorem toNat_lt_of_mem_versionText {c : Char} (h : c ∈ b.versionText) : c.toNat < 128 := by
  rcases Npm.Spelling.mem_versionText_cases h with h | rfl | rfl | rfl
  · rw [isIdentChar, Bool.or_eq_true, beq_iff_eq] at h
    rcases h with h | rfl
    · exact toNat_lt_of_isAlphanum h
    · decide
  all_goals decide

theorem isDigit_of_delimChar (hdoc : CharsDocumented table) {c : Char}
    (h : delimChar table c = true) : table.isDigit c = false ∧ c ≠ '.' := by
  rw [delimChar, Bool.not_eq_true'] at h
  simp only [rangeChar, Bool.or_eq_false_iff, beq_eq_false_iff_ne] at h
  refine ⟨?_, h.1.1.1⟩
  by_contra hdigit
  rw [Bool.not_eq_false] at hdigit
  rw [hdoc.isWord_of_isDigit c hdigit] at h
  exact absurd h.1.1.2 (by decide)

/-- Where numbers end, no further number follows a dot. -/
theorem run_releaseRegex_of_not_hasMinor (hdoc : CharsDocumented table)
    (h : b.numbers.hasMinor = false) {tail : Str}
    (htail : ∀ c ∈ tail.head?, delimChar table c = true) (caps : List (Nat × Str)) :
    run (releaseRegex table) (b.versionText ++ tail, caps) = [] := by
  have hdigit : ∀ c ∈ b.versionText, table.isDigit c = c.isDigit := fun c hc =>
    hdoc.isDigit c (toNat_lt_of_mem_versionText hc)
  have hversion : b.versionText ++ tail = b.numbers.text ++ (b.qualifier ++ tail) := by
    rw [Npm.Spelling.versionText, List.append_assoc]
  have hdot : (!table.isDigit '.') = true := by
    rw [hdoc.isDigit '.' (by decide)]
    rfl
  have hdecimal : ∀ M : Nat, ∀ x ∈ decimal M, (!table.isDigit x) = false := by
    intro M x hx
    have hx' := isDigit_of_mem_decimal hx
    rw [hdoc.isDigit x (toNat_lt_of_isAlphanum (by simp [Char.isAlphanum, hx'])), hx']
    rfl
  by_contra hne
  obtain ⟨d, c', t, hs, hd, hdigits, hc'⟩ := run_releaseRegex_ne_nil_iff.mp hne
  have hd' : ∀ x ∈ d, (!table.isDigit x) = false := by
    intro x hx
    rw [hdigits x hx]
    rfl
  rcases Npm.Numbers.text_of_not_hasMinor h with
    ⟨c, s, htext, hc⟩ | ⟨M, htext⟩ | ⟨M, c, s, htext, hc⟩
  · -- the numbers start with a wildcard
    have hmem : c ∈ b.versionText := by simp [Npm.Spelling.versionText, htext]
    rw [hversion, htext, List.cons_append] at hne
    exact hne (run_releaseRegex_eq_nil (by rw [hdigit c hmem, hc]) _ caps)
  · -- one number only
    rw [hversion, htext] at hs
    have hrest : ∀ c ∈ (b.qualifier ++ tail).head?, (!table.isDigit c) = true ∧ c ≠ '.' := by
      intro c hc
      cases hqualifier : b.qualifier with
      | nil =>
          rw [hqualifier, List.nil_append] at hc
          obtain ⟨hdelim, hne⟩ := isDigit_of_delimChar hdoc (htail c hc)
          exact ⟨by rw [hdelim]; rfl, hne⟩
      | cons x q =>
          rw [hqualifier, List.cons_append, List.head?_cons, Option.mem_some_iff] at hc
          subst hc
          rcases b.head?_qualifier x (by rw [hqualifier]; rfl) with rfl | rfl
          all_goals
            rw [hdoc.isDigit _ (by decide)]
            decide
    cases hr : b.qualifier ++ tail with
    | nil =>
        have hmem : '.' ∈ decimal M := by
          rw [hr, List.append_nil] at hs
          rw [hs]
          simp
        rw [hdecimal M '.' hmem] at hdot
        exact Bool.false_ne_true hdot
    | cons x r =>
        rw [hr] at hs hrest
        obtain ⟨hx, hne⟩ := hrest x rfl
        obtain ⟨-, hxdot, -⟩ :=
          append_cons_inj (p := fun c => !table.isDigit c) hx hdot (hdecimal M) hd' hs
        exact hne hxdot
  · -- a wildcard in the place of the minor version
    have hmem : c ∈ b.versionText := by simp [Npm.Spelling.versionText, htext]
    rw [hversion, htext, List.append_assoc, List.cons_append, List.cons_append] at hs
    obtain ⟨-, -, hrest⟩ :=
      append_cons_inj (p := fun c => !table.isDigit c) hdot hdot (hdecimal M) hd' hs
    obtain ⟨rfl, -⟩ := List.cons.inj hrest
    rw [hdigit c hmem, hc] at hc'
    exact Bool.false_ne_true hc'

/-- The version is captured up to a star or to its end. -/
theorem takeWhile_rangeChar (hdoc : CharsDocumented table) {tail : Str}
    (htail : ∀ c ∈ tail.head?, delimChar table c = true) :
    (b.versionText ++ tail).takeWhile (rangeChar table) = declaredText b := by
  have hwhile : ∀ s : Str, (∀ c ∈ s, c ∈ b.versionText) →
      (s ++ tail).takeWhile (rangeChar table) = s.takeWhile (· ≠ '*') := by
    intro s hs
    induction s with
    | nil =>
        cases tail with
        | nil => rfl
        | cons x tail =>
            have hx : rangeChar table x = false := by
              simpa [delimChar] using htail x rfl
            rw [List.nil_append, List.takeWhile_cons, hx]
            rfl
    | cons c s ih =>
        rw [List.forall_mem_cons] at hs
        rw [List.cons_append, List.takeWhile_cons, List.takeWhile_cons,
          rangeChar_of_mem_versionText hdoc hs.1, ih hs.2]
  exact hwhile b.versionText fun c hc => hc

variable (b) in
theorem exists_dropWhile_rangeChar (hdoc : CharsDocumented table) {tail : Str}
    (htail : ∀ c ∈ tail.head?, delimChar table c = true) :
    ∃ e, (b.versionText ++ tail).dropWhile (rangeChar table) = e ++ tail ∧
      ∀ c ∈ e, startChar c = false := by
  have htake := takeWhile_rangeChar (b := b) hdoc htail
  have happend : (b.versionText ++ tail).takeWhile (rangeChar table) ++
      (b.versionText ++ tail).dropWhile (rangeChar table) = b.versionText ++ tail :=
    List.takeWhile_append_dropWhile
  have hself : declaredText b ++ b.versionText.dropWhile (· ≠ '*') = b.versionText :=
    List.takeWhile_append_dropWhile
  refine ⟨b.versionText.dropWhile (· ≠ '*'), ?_, ?_⟩
  · rw [htake] at happend
    conv_rhs at happend => rw [← hself]
    rw [List.append_assoc] at happend
    exact List.append_cancel_left happend
  · intro c hc
    refine startChar_of_mem_versionText (b := b) ?_
    rw [← hself]
    exact List.mem_append_right _ hc

/-- White space ends a match and starts none. -/
theorem delimChar_of_isSpace (hdoc : CharsDocumented table) {c : Char}
    (h : isSpace c = true) : delimChar table c = true ∧ startChar c = false := by
  have hne : ∀ x : Char, isSpace x = false → c ≠ x := by
    rintro x hx rfl
    rw [h] at hx
    exact Bool.false_ne_true hx.symm
  have hword := hdoc.isWord_of_isSpace c h
  constructor
  · simp [delimChar, rangeChar, hword, hne '.' (by decide), hne '+' (by decide),
      hne '-' (by decide)]
  · simp [startChar, hne '<' (by decide), hne '>' (by decide), hne '^' (by decide)]

/-- The signs start with the only character of theirs that a match can start with. -/
theorem Sign.text_of_mem_rangeOperators {sign : Npm.Sign} (h : sign ∈ rangeOperators) :
    ∃ x s, sign.text = x :: s ∧ ∀ c ∈ s, startChar c = false := by
  simp only [rangeOperators, List.mem_cons, List.not_mem_nil, or_false] at h
  rcases h with rfl | rfl | rfl | rfl | rfl
  all_goals exact ⟨_, _, rfl, by decide⟩

theorem Sign.startChar_of_not_mem {sign : Npm.Sign} (h : sign ∉ rangeOperators) :
    ∀ c ∈ sign.text, startChar c = false := by
  cases sign with
  | bare => decide
  | eq => decide
  | tilde => decide
  | caret | lt | lte | gt | gte => exact absurd (by decide) h

/-- What is captured of a version with its sign. -/
theorem captured_sign (hdoc : CharsDocumented table) (b : Npm.Spelling) {tail : Str}
    (htail : ∀ c ∈ tail.head?, delimChar table c = true) :
    captured (rangeRegex table) 1 (b.sign.text ++ (b.versionText ++ tail)) =
      (⟨b, false⟩ : Written).declaredTexts ++ captured (rangeRegex table) 1 tail := by
  have hskip : ∀ {d : Str}, (∀ c ∈ d, startChar c = false) → ∀ s,
      captured (rangeRegex table) 1 (d ++ s) = captured (rangeRegex table) 1 s :=
    captured_skip rangeRegex_consuming rangeRegex_startsIn 1
  have hversion : ∀ c ∈ b.versionText, startChar c = false :=
    fun c hc => startChar_of_mem_versionText hc
  by_cases hsign : b.sign ∈ rangeOperators
  · have hhead : '=' ∉ (b.versionText ++ tail).head? := by
      obtain ⟨c, s, hcs⟩ := List.exists_cons_of_ne_nil (versionText_ne_nil b)
      rw [hcs, List.cons_append, List.head?_cons, Option.mem_some_iff]
      rintro rfl
      have hmem : '=' ∈ b.versionText := by rw [hcs]; exact List.mem_cons_self
      rcases Npm.Spelling.mem_versionText_cases hmem with h | h | h | h
      all_goals exact absurd h (by decide)
    have hmatch := matchStart_rangeRegex hdoc hsign hhead
    have hrun := head?_run_version hdoc (b.versionText ++ tail) []
    rw [← hmatch] at hrun
    cases hminor : b.numbers.hasMinor with
    | true =>
        rw [if_neg (run_releaseRegex_of_hasMinor hdoc hminor tail [])] at hrun
        obtain ⟨m, hm, hpair⟩ := Option.map_eq_some_iff.mp hrun
        obtain ⟨hrest, hcapture⟩ := Prod.mk.inj hpair
        obtain ⟨e, hdrop, he⟩ := exists_dropWhile_rangeChar b hdoc htail
        rw [takeWhile_rangeChar hdoc htail] at hcapture
        have htexts : (⟨b, false⟩ : Written).declaredTexts = [declaredText b] := by
          simp [Written.declaredTexts, Written.recognised, hminor, hsign]
        rw [captured, finditer_of_matchStart rangeRegex_consuming hm, List.map_cons, hcapture,
          hrest, hdrop, ← captured, hskip he, htexts]
        rfl
    | false =>
        rw [if_pos (run_releaseRegex_of_not_hasMinor hdoc hminor htail []),
          Option.map_eq_none_iff] at hrun
        obtain ⟨x, s, hxs, hs⟩ := Sign.text_of_mem_rangeOperators hsign
        have htexts : (⟨b, false⟩ : Written).declaredTexts = [] := by
          simp [Written.declaredTexts, Written.recognised, hminor]
        rw [hxs, List.cons_append] at hrun ⊢
        rw [captured, finditer_cons_of_none rangeRegex_consuming hrun, ← captured, hskip hs,
          hskip hversion, htexts, List.nil_append]
  · have htexts : (⟨b, false⟩ : Written).declaredTexts = [] := by
      simp [Written.declaredTexts, Written.recognised, hsign]
    rw [hskip (Sign.startChar_of_not_mem hsign), hskip hversion, htexts, List.nil_append]

/-- The newline that may end a block. -/
def newlineText (b : Npm.Spelling) : Str := if b.newline then ['\n'] else []

theorem isSpace_of_mem_newlineText (b : Npm.Spelling) : ∀ c ∈ newlineText b, isSpace c = true := by
  unfold newlineText
  split_ifs <;> decide

theorem delimChar_head?_newlineText (hdoc : CharsDocumented table) (b : Npm.Spelling)
    {tail : Str} (htail : ∀ c ∈ tail.head?, delimChar table c = true) :
    ∀ c ∈ (newlineText b ++ tail).head?, delimChar table c = true := by
  intro c hc
  cases hnewline : newlineText b with
  | nil =>
      rw [hnewline] at hc
      exact htail c hc
  | cons x s =>
      rw [hnewline, List.cons_append, List.head?_cons, Option.mem_some_iff] at hc
      subst hc
      refine (delimChar_of_isSpace hdoc (isSpace_of_mem_newlineText b x ?_)).1
      rw [hnewline]
      exact List.mem_cons_self

theorem captured_newlineText (hdoc : CharsDocumented table) (b : Npm.Spelling) (tail : Str) :
    captured (rangeRegex table) 1 (newlineText b ++ tail) =
      captured (rangeRegex table) 1 tail :=
  captured_skip rangeRegex_consuming rangeRegex_startsIn 1
    (fun c hc => (delimChar_of_isSpace hdoc (isSpace_of_mem_newlineText b c hc)).2) tail

/-- **What is captured of a block**, whatever follows it. -/
theorem captured_text (hdoc : CharsDocumented table) (b : Npm.Spelling) :
    captured (rangeRegex table) 1 b.text = (⟨b, false⟩ : Written).declaredTexts ∧
      Delimited (rangeRegex table) 1 (delimChar table) b.text := by
  have hleading : ∀ c ∈ (if b.leadingV then ['v'] else []), startChar c = false := by
    split_ifs <;> decide
  have hall : ∀ tail : Str, (∀ c ∈ tail.head?, delimChar table c = true) →
      captured (rangeRegex table) 1 (b.text ++ tail) =
        (⟨b, false⟩ : Written).declaredTexts ++ captured (rangeRegex table) 1 tail := by
    intro tail htail
    have htext : b.text ++ tail = (if b.leadingV then ['v'] else []) ++
        (b.sign.text ++ (b.versionText ++ (newlineText b ++ tail))) := by
      simp [Npm.Spelling.text, newlineText]
    rw [htext, captured_skip rangeRegex_consuming rangeRegex_startsIn 1 hleading,
      captured_sign hdoc b (delimChar_head?_newlineText hdoc b htail),
      captured_newlineText hdoc]
  have hself : captured (rangeRegex table) 1 b.text = (⟨b, false⟩ : Written).declaredTexts := by
    have hnil := hall [] (by simp)
    rwa [List.append_nil, captured_nil rangeRegex_consuming, List.append_nil] at hnil
  refine ⟨hself, ?_⟩
  intro tail htail
  rw [hself, hall tail htail]

end Blocks

section Expressions

variable {sv : SemanticVersion} {spell : Str → Option Npm.Spelling} {table : CharTable}

/-- A block has one character at most that a match can start with. -/
theorem countP_startChar_text (b : Npm.Spelling) : b.text.countP startChar ≤ 1 := by
  have hleading : (if b.leadingV then ['v'] else []).countP startChar = 0 := by
    split_ifs <;> decide
  have hsign : b.sign.text.countP startChar ≤ 1 := by
    cases b.sign <;> decide
  have hversion : b.versionText.countP startChar = 0 := by
    rw [List.countP_eq_zero]
    intro c hc
    rw [startChar_of_mem_versionText hc]
    exact Bool.false_ne_true
  have hnewline : (if b.newline then ['\n'] else []).countP startChar = 0 := by
    split_ifs <;> decide
  rw [Npm.Spelling.text, List.countP_append, List.countP_append, List.countP_append, hleading,
    hversion, hnewline]
  omega

/-- What follows the operator that is put before a side of a hyphen pair. -/
theorem startChar_of_mem_side {b : Npm.Spelling} {x : Char} {side : Str}
    (hx : startChar x = true) (htext : b.text = x :: '=' :: side) :
    ∀ c ∈ side, startChar c = false := by
  have hcount := countP_startChar_text b
  have heq : startChar '=' = false := by decide
  rw [htext, List.countP_cons, List.countP_cons, hx, heq] at hcount
  have hzero : side.countP startChar = 0 := by
    simp at hcount
    rw [List.countP_eq_zero]
    simpa using hcount
  intro c hc
  simpa using List.countP_eq_zero.mp hzero c hc

theorem exists_spelling (hspell : sv.SpelledOut spell) {text : Str} {rs : List Range}
    (h : sv.parseSimple CustomParser.range text = some rs) :
    ∃ b, spell text = some b ∧ b.text = text := by
  obtain ⟨b, hb⟩ := Option.isSome_iff_exists.mp (hspell.accepted text (by rw [h]; rfl))
  exact ⟨b, hb, hspell.text text b hb⟩

theorem exists_parseSimple_of_parseBlocks :
    ∀ {blocks : List Str} {rs : List Range}, CustomParser.parseBlocks sv blocks = some rs →
      ∀ block ∈ blocks, ∃ parsed, sv.parseSimple CustomParser.range block = some parsed
  | [], _, _ => by simp
  | block :: blocks, rs, h => by
      simp only [CustomParser.parseBlocks, Option.bind_eq_bind, Option.pure_def,
        Option.bind_eq_some_iff, Option.some.injEq] at h
      obtain ⟨parsed, hparsed, rest, hrest, -⟩ := h
      rw [List.forall_mem_cons]
      refine ⟨?_, exists_parseSimple_of_parseBlocks hrest⟩
      unfold CustomParser.parseBlock at hparsed
      split_ifs at hparsed
      all_goals
        obtain ⟨parsed', hparsed', -⟩ := Option.map_eq_some_iff.mp hparsed
        exact ⟨parsed', hparsed'⟩

theorem exists_parseGroup_of_parseGroups :
    ∀ {rawGroups : List Str} {clause : List (List Range)},
      CustomParser.parseGroups sv rawGroups = some clause → ∀ rawGroup ∈ rawGroups,
        ∃ rs, CustomParser.parseGroup sv (CustomParser.groupText rawGroup) = some rs
  | [], _, _ => by simp
  | rawGroup :: rawGroups, clause, h => by
      simp only [CustomParser.parseGroups, Option.bind_eq_bind, Option.pure_def,
        Option.bind_eq_some_iff, Option.some.injEq] at h
      obtain ⟨rs, hrs, rest, hrest, -⟩ := h
      rw [List.forall_mem_cons]
      exact ⟨⟨rs, hrs⟩, exists_parseGroup_of_parseGroups hrest⟩

/-- What is captured of the blocks that a spelling is known of. -/
theorem flatMap_captured_eq {blocks : List Str} {hyphen : Bool}
    (h : ∀ block ∈ blocks, ∃ b, spell block = some b ∧
      captured (rangeRegex table) 1 block = (⟨b, hyphen⟩ : Written).declaredTexts) :
    blocks.flatMap (captured (rangeRegex table) 1) =
      ((blocks.filterMap spell).map fun b => (⟨b, hyphen⟩ : Written)).flatMap
        Written.declaredTexts := by
  induction blocks with
  | nil => rfl
  | cons block blocks ih =>
      rw [List.forall_mem_cons] at h
      obtain ⟨⟨b, hb, hcaptured⟩, hblocks⟩ := h
      rw [List.filterMap_cons_some hb, List.map_cons, List.flatMap_cons, List.flatMap_cons,
        hcaptured, ih hblocks]

variable (table) in
/-- Nothing is captured of a hyphen pair. -/
theorem captured_hyphenPair {low high : Str} {b b' : Npm.Spelling}
    (hb : b.text = '>' :: '=' :: low) (hb' : b'.text = '<' :: '=' :: high) :
    captured (rangeRegex table) 1 (join CustomParser.hyphen [low, high]) = [] ∧
      Delimited (rangeRegex table) 1 (delimChar table) (join CustomParser.hyphen [low, high]) := by
  have hlow := startChar_of_mem_side (by decide) hb
  have hhigh := startChar_of_mem_side (by decide) hb'
  have hpair : ∀ c ∈ join CustomParser.hyphen [low, high], startChar c = false := by
    intro c hc
    rw [join_cons_cons, join_singleton, List.mem_append, List.mem_append] at hc
    rcases hc with (hc | hc) | hc
    · exact hlow c hc
    · revert c
      decide
    · exact hhigh c hc
  exact ⟨captured_eq_nil rangeRegex_consuming rangeRegex_startsIn 1 hpair,
    Delimited.of_skip rangeRegex_consuming rangeRegex_startsIn hpair⟩

/-- **What is captured of a group** that the parser accepts. -/
theorem captured_group (hspell : sv.SpelledOut spell) (hdoc : CharsDocumented table)
    {group : Str} {rs : List Range} (h : CustomParser.parseGroup sv group = some rs) :
    captured (rangeRegex table) 1 group =
        (groupWritten spell group).flatMap Written.declaredTexts ∧
      Delimited (rangeRegex table) 1 (delimChar table) group := by
  unfold CustomParser.parseGroup at h
  unfold groupWritten groupBlocks
  split_ifs at h ⊢ with hhyphen
  · split at h
    · rename_i low high hsplit
      simp only [Option.bind_eq_bind, Option.pure_def, Option.bind_eq_some_iff,
        Option.some.injEq] at h
      obtain ⟨lower, hlower, upper, hupper, -⟩ := h
      obtain ⟨b, hb, hbtext⟩ := exists_spelling hspell hlower
      obtain ⟨b', hb', hbtext'⟩ := exists_spelling hspell hupper
      have hjoin : join CustomParser.hyphen [low, high] = group := by
        rw [← hsplit, CustomParser.hyphen, join_split]
      have hwritten : ∀ b : Npm.Spelling, (⟨b, true⟩ : Written).declaredTexts = [] := by
        intro b
        simp [Written.declaredTexts, Written.recognised]
      have hcaptured := captured_hyphenPair table hbtext hbtext'
      rw [hjoin] at hcaptured
      refine ⟨?_, hcaptured.2⟩
      rw [hcaptured.1]
      simp [hb, hb', hhyphen, hwritten]
    · cases h
  · have hspace := delimChar_of_isSpace hdoc (c := ' ') (by decide)
    have hblocks : ∀ block ∈ split [' '] group, ∃ b, spell block = some b ∧
        captured (rangeRegex table) 1 block = (⟨b, false⟩ : Written).declaredTexts ∧
        Delimited (rangeRegex table) 1 (delimChar table) block := by
      intro block hblock
      obtain ⟨parsed, hparsed⟩ := exists_parseSimple_of_parseBlocks h block hblock
      obtain ⟨b, hb, rfl⟩ := exists_spelling hspell hparsed
      exact ⟨b, hb, captured_text hdoc b⟩
    have hdelimited : ∀ block ∈ split [' '] group,
        Delimited (rangeRegex table) 1 (delimChar table) block := by
      intro block hblock
      obtain ⟨b, -, -, hdelimited⟩ := hblocks block hblock
      exact hdelimited
    have hsep : ∀ c ∈ [' '], startChar c = false := by decide
    have hcaptured := Delimited.join rangeRegex_consuming rangeRegex_startsIn hsep hspace.1
      hdelimited
    rw [join_split] at hcaptured
    refine ⟨?_, hcaptured.1⟩
    rw [hcaptured.2, decide_eq_false hhyphen]
    refine flatMap_captured_eq fun block hblock => ?_
    obtain ⟨b, hb, htexts, -⟩ := hblocks block hblock
    exact ⟨b, hb, htexts⟩

/-- White space around a group does not matter, and a blank group holds nothing. -/
theorem captured_rawGroup (hspell : sv.SpelledOut spell) (hdoc : CharsDocumented table)
    {rawGroup : Str} {rs : List Range}
    (h : CustomParser.parseGroup sv (CustomParser.groupText rawGroup) = some rs) :
    captured (rangeRegex table) 1 rawGroup =
        (if strip rawGroup = [] then [] else groupWritten spell (strip rawGroup)).flatMap
          Written.declaredTexts ∧
      Delimited (rangeRegex table) 1 (delimChar table) rawGroup := by
  have hinner : captured (rangeRegex table) 1 (strip rawGroup) =
        (if strip rawGroup = [] then [] else groupWritten spell (strip rawGroup)).flatMap
          Written.declaredTexts ∧
      Delimited (rangeRegex table) 1 (delimChar table) (strip rawGroup) := by
    unfold CustomParser.groupText at h
    split_ifs at h ⊢ with hblank
    · rw [hblank]
      exact ⟨captured_nil rangeRegex_consuming 1,
        Delimited.of_skip rangeRegex_consuming rangeRegex_startsIn (by simp)⟩
    · exact captured_group hspell hdoc h
  obtain ⟨l, r, heq, hl, hr⟩ := exists_stripOf isSpace rawGroup
  have hpad := hinner.2.pad rangeRegex_consuming rangeRegex_startsIn (a := l) (b := r)
    (fun c hc => (delimChar_of_isSpace hdoc (hl c hc)).2)
    (fun c hc => (delimChar_of_isSpace hdoc (hr c hc)).2)
    (fun c hc => (delimChar_of_isSpace hdoc (hr c hc)).1)
  rw [← List.append_assoc, strip, ← heq] at hpad
  exact ⟨hpad.2.trans hinner.1, hpad.1⟩

theorem flatMap_captured_rawGroups {rawGroups : List Str}
    (h : ∀ rawGroup ∈ rawGroups, captured (rangeRegex table) 1 rawGroup =
      (if strip rawGroup = [] then [] else groupWritten spell (strip rawGroup)).flatMap
        Written.declaredTexts) :
    rawGroups.flatMap (captured (rangeRegex table) 1) =
      (((rawGroups.map strip).filter (· ≠ [])).flatMap (groupWritten spell)).flatMap
        Written.declaredTexts := by
  induction rawGroups with
  | nil => rfl
  | cons rawGroup rawGroups ih =>
      rw [List.forall_mem_cons] at h
      rw [List.flatMap_cons, h.1, ih h.2, List.map_cons, List.filter_cons]
      by_cases hblank : strip rawGroup = []
      · simp [hblank]
      · simp [hblank, List.flatMap_append]

/-- **What is captured of an expression** that the parser accepts. -/
theorem captured_expression (hspell : sv.SpelledOut spell) (hdoc : CharsDocumented table)
    {expression : Str} {r : SemverRange} (h : SemverRange.ofExpression sv expression = some r) :
    captured (rangeRegex table) 1 expression =
      (writtenIn spell expression).flatMap Written.declaredTexts := by
  obtain ⟨clause, hclause, -⟩ := Option.map_eq_some_iff.mp h
  have hgroups : ∀ rawGroup ∈ split CustomParser.joiner expression,
      captured (rangeRegex table) 1 rawGroup =
          (if strip rawGroup = [] then [] else groupWritten spell (strip rawGroup)).flatMap
            Written.declaredTexts ∧
        Delimited (rangeRegex table) 1 (delimChar table) rawGroup := by
    intro rawGroup hrawGroup
    obtain ⟨rs, hrs⟩ := exists_parseGroup_of_parseGroups hclause rawGroup hrawGroup
    exact captured_rawGroup hspell hdoc hrs
  have hbar : delimChar table '|' = true := by
    rw [delimChar, rangeChar, hdoc.isWord '|' (by decide)]
    decide
  have hjoin : join ['|', '|'] (split CustomParser.joiner expression) = expression :=
    join_split expression
  have hsep : ∀ c ∈ ['|', '|'], startChar c = false := by decide
  have hcaptured := (Delimited.join rangeRegex_consuming rangeRegex_startsIn hsep hbar
    fun g hg => (hgroups g hg).2).2
  rw [hjoin] at hcaptured
  rw [hcaptured, writtenIn]
  exact flatMap_captured_rawGroups fun g hg => (hgroups g hg).1

end Expressions

end Manifest
end SystemTests
