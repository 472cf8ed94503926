import SystemTests.Manifest.ComponentVersion

/-!
# Declarations (`utils/manifest/_internal/declaration.py`, `const.py`)

A raw declaration is either a skip declaration, `bug (XYZ-123)`, or a version,
`v1.2.3`, `>=1.2 || ^0.9`, where versions are allowed inline only.

**Results.**
* `fullmatch_fullRegex`: the version text of an accepted declaration is what
  stands before the first parenthesis, without a leading `v`.
* `parseDeclaration_skip_iff`: the text of a skip declaration, and no other, is
  read as that declaration.
* `range_of_parseDeclaration`: the range of an accepted version declaration.
-/

namespace SystemTests
namespace Manifest

open Foundation Foundation.Text Foundation.Semver Foundation.Regex Foundation.Regex.Rx

inductive TestDeclaration where
  | bug | flaky | incompleteTestApp | irrelevant | missingFeature
deriving DecidableEq

namespace TestDeclaration

def value : TestDeclaration → Str
  | bug => "bug"
  | flaky => "flaky"
  | incompleteTestApp => "incomplete_test_app"
  | irrelevant => "irrelevant"
  | missingFeature => "missing_feature"

def all : List TestDeclaration :=
  [bug, flaky, incompleteTestApp, irrelevant, missingFeature]

/-- `TestDeclaration(text)` -/
def ofText (text : Str) : Option TestDeclaration := all.find? (·.value = text)

theorem ofText_value (d : TestDeclaration) : ofText d.value = some d := by
  cases d <;> decide

theorem mem_all (d : TestDeclaration) : d ∈ all := by
  cases d <;> decide

end TestDeclaration

/-- A skip declaration with its details. -/
structure SkipDeclaration where
  value : TestDeclaration
  details : Option Str := none
deriving DecidableEq

/-- `f"{self.value} ({self.details})" if self.details else f"{self.value}"` -/
def SkipDeclaration.str (d : SkipDeclaration) : Str :=
  match d.details with
  | none | some [] => d.value.value
  | some details => d.value.value ++ " (".toList ++ details ++ [')']

inductive DeclarationValue where
  | range (r : SemverRange)
  | skip (d : TestDeclaration)
deriving DecidableEq

/-- A version declaration without a reason has no such attribute. -/
structure Declaration where
  raw : Str
  component : Str
  isInline : Bool
  value : DeclarationValue
  reason : Option Str
deriving DecidableEq

namespace Declaration

/-- `self.reason` -/
def getReason (decl : Declaration) : Except Raised (Option Str) :=
  match decl.value, decl.reason with
  | .range _, none => .error (.attributeError "reason")
  | _, reason => .ok reason

section Patterns

/-- ` ?(?:\((.*)\))?`, its group numbered `n` -/
def reasonRegex (n : Nat) : Rx :=
  .seq (opt (char ' ')) (opt (.seq (char '(') (.seq (.group n (.star dot)) (char ')'))))

/-- `(bug|flaky|incomplete_test_app|irrelevant|missing_feature)` and a reason -/
def skipDeclarationRegex : Rx :=
  .seq (.group 1 (TestDeclaration.all.foldr (fun d r => .alt (lit d.value) r) (.chars fun _ => false)))
    (reasonRegex 2)

def notParen (c : Char) : Bool := c != '(' && c != ')'

/-- `(v)?([^()]*)` and a reason -/
def fullRegex : Rx :=
  .seq (opt (.group 1 (char 'v'))) (.seq (.group 2 (.star (.chars notParen))) (reasonRegex 3))

variable (table : CharTable)

/-- `^(\w+)( \((.*)\))?$` -/
def detailsRegex : Rx :=
  .seq (.group 1 (plus (.chars table.isWord)))
    (.seq (opt (.group 2 (.seq (lit " (") (.seq (.group 3 (.star dot)) (char ')'))))) .atEnd)

/-- `[A-Z]{3,}-\d+` -/
def jiraTicket : Rx :=
  let upper := Rx.chars fun c => 'A' ≤ c && c ≤ 'Z'
  seqs [times 3 upper, .star upper, char '-', plus (.chars table.isDigit)]

def jiraTicketPattern : Rx :=
  .seq (.group 1 (jiraTicket table)) (.star (.group 2 (.seq (lit ", ") (jiraTicket table))))

end Patterns

section Parsing

variable (sv : SemanticVersion) (table : CharTable)

/-- Whether a declaration may carry a reason. -/
def reasonIsValid (declaration : TestDeclaration) (reason : Option Str) : Bool :=
  match declaration with
  | .bug | .flaky =>
      match reason with
      | none => false
      | some reason => (fullmatch (jiraTicketPattern table) reason).isSome
  | _ => true

def validateDeclarationReason (declaration : TestDeclaration) (reason : Option Str) :
    Except Raised Unit :=
  if reasonIsValid table declaration reason then return ()
  else throw (.valueError
    ("Please set a jira ticket instead of reason: ".toList ++ reason.getD "None"))

def parseSkipDeclaration (text : Str) : Except Raised (TestDeclaration × Option Str) :=
  if TestDeclaration.all.any fun d => d.value <+: text then
    match matchStart (detailsRegex table) text with
    | none => throw (.assertionError [])
    | some m => do
        let d ← Raised.ofOption
          (.valueError ((capture 1 m).getD [] ++ " is not a valid TestDeclaration".toList))
          (TestDeclaration.ofText ((capture 1 m).getD []))
        return (d, capture 3 m)
  else throw (.valueError
    ("The declaration must be a skip declaration: ".toList ++ text))

def inlineText (isInline : Bool) : Str :=
  " (is inline: ".toList ++ (if isInline then "True".toList else "False") ++ [')']

/-- `f">={ComponentVersion(component, raw_version).version}"` after a `v` -/
def sanitizedVersion (component : Str) (m : Match) : Except Raised Str :=
  let rawVersion := (capture 2 m).getD []
  if capture 1 m = some ['v'] then do
    let cv ← ComponentVersion.create sv table component rawVersion
    return '>' :: '=' :: cv.version.str
  else return rawVersion

def parseDeclaration (raw component : Str) (isInline : Bool) : Except Raised Declaration :=
  if (fullmatch skipDeclarationRegex raw).isSome then do
    let (d, reason) ← parseSkipDeclaration table raw
    validateDeclarationReason table d reason
    return ⟨raw, component, isInline, .skip d, reason⟩
  else if isInline then
    match fullmatch fullRegex raw with
    | none => throw (.valueError ("Wrong version format: ".toList ++ raw ++ inlineText isInline))
    | some m => do
        let text ← sanitizedVersion sv table component m
        let r ← SemverRange.create sv text
        -- the last group but one is the version text
        return ⟨raw, component, isInline, .range r, (capture 2 m).filter (· ≠ [])⟩
  else throw (.valueError ("Wrong declaration format: ".toList ++ raw ++ inlineText isInline))

/-- `Declaration(raw_declaration, component, is_inline=is_inline)` -/
def create (rawDeclaration component : Str) (isInline : Bool) : Except Raised Declaration :=
  if rawDeclaration = [] then
    throw (.valueError "raw_declaration must not be None or an empty string")
  else parseDeclaration sv table (strip rawDeclaration) component isInline

end Parsing

section ReasonText

/-- What the pattern of a reason matches. -/
def ReasonText (s : Str) : Prop :=
  ∃ space ∈ [[], [' ']], s = space ∨ ∃ d, '\n' ∉ d ∧ s = space ++ '(' :: d ++ [')']

theorem forall_dot_iff {d : Str} : (∀ c ∈ d, (c != '\n') = true) ↔ '\n' ∉ d := by
  simp only [bne_iff_ne, ne_eq]
  constructor
  · intro h hd
    exact h _ hd rfl
  · rintro h c hc rfl
    exact h hc

/-- A parenthesis to the end, or nothing. -/
theorem exists_mem_run_opt_paren {n : Nat} (s : Str) (caps : List (Nat × Str)) :
    (∃ m ∈ run (opt (.seq (char '(') (.seq (.group n (.star dot)) (char ')')))) (s, caps),
        m.1 = []) ↔
      s = [] ∨ ∃ d, '\n' ∉ d ∧ s = '(' :: d ++ [')'] := by
  constructor
  · rintro ⟨m, hm, hend⟩
    rcases mem_run_opt.mp hm with hm | rfl
    · obtain ⟨m₁, h₁, hm⟩ := mem_run_seq.mp hm
      obtain ⟨m₂, h₂, hm⟩ := mem_run_seq.mp hm
      obtain ⟨t, rfl, rfl⟩ := mem_run_char.mp h₁
      obtain ⟨d, u, rfl, hd, rfl⟩ := mem_run_group_star_chars.mp h₂
      obtain ⟨v, rfl, rfl⟩ := mem_run_char.mp hm
      obtain rfl : v = [] := hend
      exact Or.inr ⟨d, forall_dot_iff.mp hd, rfl⟩
    · exact Or.inl hend
  · rintro (rfl | ⟨d, hd, rfl⟩)
    · exact ⟨_, mem_run_opt.mpr (Or.inr rfl), rfl⟩
    · refine ⟨([], (n, d) :: caps), mem_run_opt.mpr (Or.inl ?_), rfl⟩
      refine mem_run_seq.mpr ⟨_, mem_run_char.mpr ⟨_, rfl, rfl⟩, ?_⟩
      refine mem_run_seq.mpr ⟨([')'], (n, d) :: caps), ?_, mem_run_char.mpr ⟨_, rfl, rfl⟩⟩
      exact mem_run_group_star_chars.mpr ⟨d, [')'], rfl, forall_dot_iff.mpr hd, rfl⟩

/-- The pattern of a reason matches a text to its end when the text is a reason. -/
theorem isSome_find?_reason {n : Nat} {s : Str} {caps : List (Nat × Str)} :
    ((run (reasonRegex n) (s, caps)).find? (·.1 = [])).isSome ↔ ReasonText s := by
  simp only [List.find?_isSome, decide_eq_true_eq, reasonRegex]
  constructor
  · rintro ⟨m, hm, hend⟩
    obtain ⟨m₁, h₁, h₂⟩ := mem_run_seq.mp hm
    rcases mem_run_opt.mp h₁ with h₁ | rfl
    · obtain ⟨t, rfl, rfl⟩ := mem_run_char.mp h₁
      refine ⟨[' '], by simp, ?_⟩
      rcases (exists_mem_run_opt_paren t caps).mp ⟨m, h₂, hend⟩ with rfl | ⟨d, hd, rfl⟩
      · exact Or.inl rfl
      · exact Or.inr ⟨d, hd, rfl⟩
    · exact ⟨[], by simp, (exists_mem_run_opt_paren s caps).mp ⟨m, h₂, hend⟩⟩
  · rintro ⟨space, hspace, hs⟩
    simp only [List.mem_cons, List.not_mem_nil, or_false] at hspace
    rcases hspace with rfl | rfl
    · obtain ⟨m, hm, hend⟩ := (exists_mem_run_opt_paren (n := n) s caps).mpr hs
      exact ⟨m, mem_run_seq.mpr ⟨_, mem_run_opt.mpr (Or.inr rfl), hm⟩, hend⟩
    · obtain ⟨t, rfl, ht⟩ : ∃ t, s = ' ' :: t ∧
          (t = [] ∨ ∃ d, '\n' ∉ d ∧ t = '(' :: d ++ [')']) := by
        rcases hs with rfl | ⟨d, hd, rfl⟩
        · exact ⟨[], rfl, Or.inl rfl⟩
        · exact ⟨'(' :: d ++ [')'], rfl, Or.inr ⟨d, hd, rfl⟩⟩
      obtain ⟨m, hm, hend⟩ := (exists_mem_run_opt_paren (n := n) t caps).mpr ht
      have hspace : (t, caps) ∈ run (opt (char ' ')) (' ' :: t, caps) :=
        mem_run_opt.mpr (Or.inl (mem_run_char.mpr ⟨t, rfl, rfl⟩))
      exact ⟨m, mem_run_seq.mpr ⟨_, hspace, hm⟩, hend⟩

/-- In front of a reason stands nothing but one space outside the parentheses. -/
theorem reasonText_of_cons {c : Char} {t : Str} (hc : notParen c = true)
    (h : ReasonText (c :: t)) : c = ' ' ∧ ReasonText t := by
  simp only [notParen, Bool.and_eq_true, bne_iff_ne, ne_eq] at hc
  obtain ⟨space, hspace, h⟩ := h
  simp only [List.mem_cons, List.not_mem_nil, or_false] at hspace
  rcases hspace with rfl | rfl
  · rcases h with h | ⟨d, -, h⟩
    · exact absurd h (by simp)
    · simp only [List.nil_append, List.cons_append, List.cons.injEq] at h
      exact absurd h.1 hc.1
  · rcases h with h | ⟨d, hd, h⟩
    · simp only [List.cons.injEq] at h
      obtain ⟨rfl, rfl⟩ := h
      exact ⟨rfl, [], by simp, Or.inl rfl⟩
    · simp only [List.cons_append, List.nil_append, List.cons.injEq] at h
      obtain ⟨rfl, rfl⟩ := h
      exact ⟨rfl, [], by simp, Or.inr ⟨d, hd, rfl⟩⟩

end ReasonText

section SkipText

/-- The text of a kind with a reason. -/
def skipText (d : TestDeclaration) : Option Str → Str
  | none => d.value
  | some reason => d.value ++ ' ' :: '(' :: (reason ++ [')'])

theorem isSome_fullmatch_skipDeclarationRegex {s : Str} :
    (fullmatch skipDeclarationRegex s).isSome ↔
      ∃ d : TestDeclaration, ∃ r, s = d.value ++ r ∧ ReasonText r := by
  have hkinds : ∀ (ds : List TestDeclaration) (m : Match),
      m ∈ run (ds.foldr (fun d r => .alt (lit d.value) r) (.chars fun _ => false)) (s, []) ↔
        ∃ d ∈ ds, ∃ r, s = d.value ++ r ∧ m = (r, []) := by
    intro ds m
    induction ds with
    | nil =>
        cases s <;> simp [Regex.run]
    | cons d ds ih =>
        rw [List.foldr_cons, Regex.run, List.mem_append, ih, mem_run_lit,
          List.exists_mem_cons_iff]
  rw [fullmatch, skipDeclarationRegex, run_seq, List.find?_flatMap, run_group,
    List.findSome?_map, List.findSome?_isSome_iff]
  constructor
  · rintro ⟨m, hm, hsome⟩
    obtain ⟨d, -, r, rfl, rfl⟩ := (hkinds _ _).mp hm
    exact ⟨d, r, rfl, isSome_find?_reason.mp hsome⟩
  · rintro ⟨d, r, rfl, hr⟩
    exact ⟨(r, []), (hkinds _ _).mpr ⟨d, d.mem_all, r, rfl, rfl⟩,
      isSome_find?_reason.mpr hr⟩

variable {table : CharTable}

/-- A word, or a word and a parenthesis after one space, up to the end. -/
theorem mem_run_detailsRegex {s : Str} {m : Match} :
    m ∈ run (detailsRegex table) (s, []) ↔
      ∃ w, w ≠ [] ∧ (∀ c ∈ w, table.isWord c = true) ∧ (m.1 = [] ∨ m.1 = ['\n']) ∧
        ((s = w ++ m.1 ∧ m.2 = [(1, w)]) ∨
          ∃ d, '\n' ∉ d ∧ s = w ++ ' ' :: '(' :: d ++ ')' :: m.1 ∧
            m.2 = [(2, ' ' :: '(' :: d ++ [')']), (3, d), (1, w)]) := by
  have hparen : ∀ {t : Str} {caps : List (Nat × Str)} {m : Match},
      m ∈ run (.group 2 (.seq (lit " (") (.seq (.group 3 (.star dot)) (char ')'))))
          (t, caps) ↔
        ∃ d u caps', t = d ++ u ∧ (∃ e, '\n' ∉ e ∧ d = ' ' :: '(' :: e ++ [')'] ∧
          caps' = (3, e) :: caps) ∧ m = (u, (2, d) :: caps') := by
    intro t caps m
    refine mem_run_group fun m' => ?_
    constructor
    · intro hm'
      obtain ⟨m₁, h₁, hm'⟩ := mem_run_seq.mp hm'
      obtain ⟨m₂, h₂, hm'⟩ := mem_run_seq.mp hm'
      obtain ⟨u, rfl, rfl⟩ := mem_run_lit.mp h₁
      obtain ⟨e, v, rfl, he, rfl⟩ := mem_run_group_star_chars.mp h₂
      obtain ⟨w, rfl, rfl⟩ := mem_run_char.mp hm'
      exact ⟨' ' :: '(' :: e ++ [')'], w, _, by simp,
        ⟨e, forall_dot_iff.mp he, rfl, rfl⟩, rfl⟩
    · rintro ⟨d, u, _, rfl, ⟨e, he, rfl, rfl⟩, rfl⟩
      refine mem_run_seq.mpr ⟨(e ++ ')' :: u, caps), mem_run_lit.mpr ⟨_, by simp, rfl⟩, ?_⟩
      refine mem_run_seq.mpr ⟨(')' :: u, (3, e) :: caps), ?_, mem_run_char.mpr ⟨_, rfl, rfl⟩⟩
      exact mem_run_group_star_chars.mpr ⟨e, _, rfl, forall_dot_iff.mpr he, rfl⟩
  constructor
  · intro hm
    obtain ⟨m₁, h₁, hm₁⟩ := mem_run_seq.mp hm
    obtain ⟨w, t, rfl, hne, hw, rfl⟩ := mem_run_group_plus_chars.mp h₁
    obtain ⟨m₂, h₂, hm₂⟩ := mem_run_seq.mp hm₁
    obtain ⟨hend, rfl⟩ := mem_run_atEnd.mp hm₂
    refine ⟨w, hne, hw, hend, ?_⟩
    rcases mem_run_opt.mp h₂ with h₂ | rfl
    · obtain ⟨d, u, _, rfl, ⟨e, he, rfl, rfl⟩, rfl⟩ := hparen.mp h₂
      exact Or.inr ⟨e, he, by simp, rfl⟩
    · exact Or.inl ⟨rfl, rfl⟩
  · rintro ⟨w, hne, hw, hend, hm⟩
    obtain ⟨t, caps⟩ := m
    have hword : ∀ u : Str, (u, [(1, w)]) ∈
        run (.group 1 (plus (.chars table.isWord))) (w ++ u, []) :=
      fun u => mem_run_group_plus_chars.mpr ⟨w, u, rfl, hne, hw, rfl⟩
    rcases hm with ⟨rfl, rfl⟩ | ⟨d, hd, rfl, rfl⟩
    · refine mem_run_seq.mpr ⟨_, hword t, mem_run_seq.mpr ⟨(t, [(1, w)]), ?_, ?_⟩⟩
      · exact mem_run_opt.mpr (Or.inr rfl)
      · exact mem_run_atEnd.mpr ⟨hend, rfl⟩
    · have hs : w ++ ' ' :: '(' :: d ++ ')' :: t =
          w ++ ((' ' :: '(' :: d ++ [')']) ++ t) := by simp
      rw [hs]
      have hopt := mem_run_opt.mpr (Or.inl (hparen.mpr
        ⟨' ' :: '(' :: d ++ [')'], t, (3, d) :: [(1, w)], rfl, ⟨d, hd, rfl, rfl⟩, rfl⟩))
      exact mem_run_seq.mpr ⟨_, hword _, mem_run_seq.mpr
        ⟨_, hopt, mem_run_atEnd.mpr ⟨hend, rfl⟩⟩⟩

theorem isWord_of_mem_value (htable : table.Documented) (d : TestDeclaration) :
    ∀ c ∈ d.value, table.isWord c = true := by
  have hascii : ∀ c ∈ d.value, c.toNat < 128 ∧ (c.isAlphanum || c == '_') = true := by
    cases d <;> decide
  intro c hc
  rw [htable.isWord c (hascii c hc).1]
  exact (hascii c hc).2

theorem isWord_space (htable : table.Documented) : table.isWord ' ' = false := by
  rw [htable.isWord ' ' (by decide)]
  decide

theorem value_ne_nil (d : TestDeclaration) : d.value ≠ [] := by
  cases d <;> decide

/-- A word in front of a space is found again. -/
theorem word_eq_of_append_space (htable : table.Documented) {w w' t t' : Str}
    (hw : ∀ c ∈ w, table.isWord c = true) (hw' : ∀ c ∈ w', table.isWord c = true)
    (h : w ++ ' ' :: t = w' ++ ' ' :: t') : w = w' ∧ t = t' := by
  have htake : ∀ {v u : Str}, (∀ c ∈ v, table.isWord c = true) →
      (v ++ ' ' :: u).takeWhile table.isWord = v := by
    intro v u hv
    rw [List.takeWhile_append_of_pos hv, List.takeWhile_cons, isWord_space htable]
    simp
  obtain rfl : w = w' := by
    rw [← htake hw (u := t), h, htake hw']
  exact ⟨rfl, (List.cons.inj (List.append_cancel_left h)).2⟩

/-- **A skip declaration** is read from its text only. -/
theorem parseSkipDeclaration_eq_ok_iff (htable : table.Documented) {s : Str}
    (hs : '\n' ∉ s) {d : TestDeclaration} {reason : Option Str} :
    parseSkipDeclaration table s = .ok (d, reason) ↔ s = skipText d reason := by
  have hend : ∀ {w : Str} {t : Str}, s = w ++ t → t = [] ∨ t = ['\n'] → t = [] := by
    rintro w t rfl (ht | rfl)
    · exact ht
    · simp at hs
  have hmatch : ∀ m, matchStart (detailsRegex table) s = some m →
      ∃ w, (∀ c ∈ w, table.isWord c = true) ∧ capture 1 m = some w ∧
        ((s = w ∧ capture 3 m = none) ∨
          ∃ e, s = w ++ ' ' :: '(' :: e ++ [')'] ∧ capture 3 m = some e) := by
    intro m hm
    obtain ⟨w, -, hw, hm₁, h⟩ := mem_run_detailsRegex.mp (List.mem_of_head? hm)
    refine ⟨w, hw, ?_⟩
    rcases h with ⟨h, hcaps⟩ | ⟨e, -, h, hcaps⟩
    · rw [hend h hm₁, List.append_nil] at h
      simp [capture, hcaps, h]
    · have hnil : m.1 = [] := by
        refine hend (w := w ++ ' ' :: '(' :: e ++ [')']) ?_ hm₁
        rw [h]
        simp
      rw [hnil] at h
      simp [capture, hcaps, h, List.lookup_cons]
  constructor
  · intro h
    unfold parseSkipDeclaration at h
    split_ifs at h
    split at h
    · exact absurd h (by simp)
    · rename_i m hm
      obtain ⟨w, -, hcap, hcases⟩ := hmatch m hm
      rw [hcap, Option.getD_some, Raised.bind_eq_ok] at h
      obtain ⟨d', hd', h⟩ := h
      rw [Raised.ofOption_eq_ok_iff] at hd'
      have hw : d'.value = w := by
        simpa using List.find?_some hd'
      rw [Raised.pure_eq_ok, Prod.mk.injEq] at h
      obtain ⟨rfl, rfl⟩ := h
      rcases hcases with ⟨rfl, hnone⟩ | ⟨e, rfl, hsome⟩
      · rw [hnone, skipText, hw]
      · simp [hsome, skipText, hw]
  · rintro rfl
    have hstart : (TestDeclaration.all.any fun e => e.value <+: skipText d reason) = true := by
      rw [List.any_eq_true]
      refine ⟨d, d.mem_all, ?_⟩
      rw [decide_eq_true_eq]
      cases reason with
      | none => exact List.prefix_refl _
      | some reason => exact List.prefix_append _ _
    obtain ⟨m, hm⟩ : ∃ m, matchStart (detailsRegex table) (skipText d reason) = some m := by
      have hword := isWord_of_mem_value htable d
      have hmem : ∃ m, m ∈ run (detailsRegex table) (skipText d reason, []) := by
        cases reason with
        | none =>
            refine ⟨([], [(1, d.value)]), mem_run_detailsRegex.mpr ?_⟩
            exact ⟨d.value, value_ne_nil d, hword, Or.inl rfl, Or.inl ⟨by simp [skipText], rfl⟩⟩
        | some e =>
            have he : '\n' ∉ e := by
              intro hmem
              exact hs (by simp [skipText, hmem])
            refine ⟨([], [(2, ' ' :: '(' :: e ++ [')']), (3, e), (1, d.value)]),
              mem_run_detailsRegex.mpr ?_⟩
            exact ⟨d.value, value_ne_nil d, hword, Or.inl rfl,
              Or.inr ⟨e, he, by simp [skipText], rfl⟩⟩
      obtain ⟨m, hm⟩ := hmem
      exact Option.isSome_iff_exists.mp (List.isSome_head?.mpr (List.ne_nil_of_mem hm))
    obtain ⟨w, hw, hcap, hcases⟩ := hmatch m hm
    have hd := isWord_of_mem_value htable d
    have hno : ∀ {v t : Str}, (∀ c ∈ v, table.isWord c = true) → v ≠ d.value ++ ' ' :: t := by
      rintro v t hv rfl
      have hsp := hv ' ' (by simp)
      rw [isWord_space htable] at hsp
      exact absurd hsp (by simp)
    obtain ⟨rfl, hreason⟩ : w = d.value ∧ capture 3 m = reason := by
      cases reason with
      | none =>
          rcases hcases with ⟨h, hnone⟩ | ⟨e, h, -⟩
          · exact ⟨h.symm, hnone⟩
          · have hsp := hd ' ' (by
              have h' : d.value = w ++ ' ' :: '(' :: e ++ [')'] := h
              rw [h']
              simp)
            rw [isWord_space htable] at hsp
            exact absurd hsp (by simp)
      | some x =>
          rcases hcases with ⟨h, -⟩ | ⟨e, h, hsome⟩
          · exact absurd h.symm (hno (t := '(' :: (x ++ [')'])) hw)
          · simp only [skipText, List.cons_append, List.append_assoc] at h
            obtain ⟨rfl, hrest⟩ := word_eq_of_append_space htable hd hw h
            have hx : x = e := List.append_cancel_right (List.cons.inj hrest).2
            exact ⟨rfl, by rw [hsome, hx]⟩
    unfold parseSkipDeclaration
    rw [if_pos hstart, hm]
    simp [hcap, hreason, TestDeclaration.ofText_value, Raised.ofOption, pure, Except.pure,
      bind, Except.bind]

end SkipText

section VersionText

/-- The version group and a reason, from a position on. -/
def versionEnd (m : Match) : Option Match :=
  (run (.seq (.group 2 (.star (.chars notParen))) (reasonRegex 3)) m).find? (·.1 = [])

theorem versionEnd_eq (s : Str) (caps : List (Nat × Str)) :
    versionEnd (s, caps) =
      (run (reasonRegex 3) (s.dropWhile notParen, (2, s.takeWhile notParen) :: caps)).find?
        (·.1 = []) := by
  have hgroup : versionEnd (s, caps) =
      (run (.star (.chars notParen)) (s, caps)).findSome? fun m =>
        (run (reasonRegex 3)
          (m.1, (2, s.take (s.length - m.1.length)) :: m.2)).find? (·.1 = []) := by
    rw [versionEnd, run_seq, List.find?_flatMap, run_group, List.findSome?_map]
    rfl
  rw [hgroup, findSome?_star_chars, take_length_sub_dropWhile]
  intro c t hc hsome
  rw [isSome_find?_reason] at hsome ⊢
  exact (reasonText_of_cons hc hsome).2

theorem fullmatch_fullRegex (s : Str) :
    fullmatch fullRegex s =
      if ['v'] <+: s then versionEnd (s.drop 1, [(1, ['v'])]) else versionEnd (s, []) := by
  have hopt : fullmatch fullRegex s =
      (run (opt (.group 1 (char 'v'))) (s, [])).findSome? versionEnd := by
    rw [fullmatch, fullRegex, run_seq, List.find?_flatMap]
    rfl
  rw [hopt, run_opt, run_group]
  cases s with
  | nil => simp [run_char_nil]
  | cons x s =>
      rw [run_char_cons]
      by_cases hx : x = 'v'
      · subst hx
        have hpre : ['v'] <+: 'v' :: s := List.prefix_append ['v'] s
        have hlen : ('v' :: s).take (('v' :: s).length - s.length) = ['v'] := by
          simp
        simp only [if_true, List.map_cons, List.map_nil, List.cons_append, List.nil_append,
          List.findSome?_cons, List.findSome?_nil, hpre, List.drop_succ_cons, List.drop_zero,
          hlen]
        cases hv : versionEnd (s, [(1, ['v'])]) with
        | some m => rfl
        | none =>
            -- dropping the leading `v` does not change where the reason starts
            have hnone : versionEnd ('v' :: s, []) = none := by
              rw [versionEnd_eq] at hv ⊢
              have hv' : ('v' :: s).dropWhile notParen = s.dropWhile notParen := rfl
              rw [← Option.not_isSome_iff_eq_none, isSome_find?_reason] at hv ⊢
              rwa [hv']
            rw [hnone]
      · have hpre : ¬ ['v'] <+: x :: s := by
          rw [List.cons_prefix_cons]
          rintro ⟨rfl, -⟩
          exact hx rfl
        simp [hx, hpre]

/-- **The version text** of an accepted inline declaration. -/
theorem capture_fullRegex {s : Str} {m : Match} (h : fullmatch fullRegex s = some m) :
    (capture 1 m = if ['v'] <+: s then some ['v'] else none) ∧
      capture 2 m = some ((if ['v'] <+: s then s.drop 1 else s).takeWhile notParen) := by
  have hgroups : ∀ {t : Str} {caps : List (Nat × Str)}, versionEnd (t, caps) = some m →
      m.2.lookup 1 = caps.lookup 1 ∧ m.2.lookup 2 = some (t.takeWhile notParen) := by
    intro t caps ht
    rw [versionEnd_eq] at ht
    have hm := List.mem_of_find?_eq_some ht
    have h₁ := lookup_run (n := 1) (reasonRegex 3) (by decide) _ m hm
    have h₂ := lookup_run (n := 2) (reasonRegex 3) (by decide) _ m hm
    exact ⟨h₁, h₂⟩
  rw [fullmatch_fullRegex] at h
  split_ifs at h ⊢
  · exact hgroups h
  · exact hgroups h

/-- A text without parentheses is all version. -/
theorem isSome_fullmatch_fullRegex {s : Str} (h : ∀ c ∈ s, notParen c = true) :
    (fullmatch fullRegex s).isSome := by
  have hend : ∀ {t : Str} {caps : List (Nat × Str)}, (∀ c ∈ t, notParen c = true) →
      (versionEnd (t, caps)).isSome := by
    intro t caps ht
    rw [versionEnd_eq, isSome_find?_reason, List.dropWhile_eq_nil_iff.mpr ht]
    exact ⟨[], by simp, Or.inl rfl⟩
  rw [fullmatch_fullRegex]
  split_ifs
  · exact hend fun c hc => h c (List.mem_of_mem_drop hc)
  · exact hend h

end VersionText

section Specification

variable {sv : SemanticVersion} {table : CharTable}
variable {raw component : Str} {isInline : Bool} {decl : Declaration}

/-- The version a declaration names: up to the first parenthesis, without a leading `v`. -/
def versionText (raw : Str) : Str :=
  (if ['v'] <+: raw then raw.drop 1 else raw).takeWhile notParen

theorem sanitizedVersion_eq {m : Match} (h : fullmatch fullRegex raw = some m) :
    sanitizedVersion sv table component m =
      if ['v'] <+: raw then do
        let cv ← ComponentVersion.create sv table component (versionText raw)
        return '>' :: '=' :: cv.version.str
      else return versionText raw := by
  obtain ⟨h₁, h₂⟩ := capture_fullRegex h
  unfold sanitizedVersion
  rw [h₁, h₂]
  by_cases hv : ['v'] <+: raw
  · simp [hv, versionText]
  · simp [hv, versionText]

theorem validateDeclarationReason_eq_ok_iff {d : TestDeclaration} {reason : Option Str}
    {u : Unit} :
    validateDeclarationReason table d reason = .ok u ↔ reasonIsValid table d reason = true := by
  unfold validateDeclarationReason
  split_ifs with h
  · simp [h]
  · simp [h]

/-- The two ways in which a declaration is accepted. -/
theorem parseDeclaration_eq_ok_iff :
    parseDeclaration sv table raw component isInline = .ok decl ↔
      ((fullmatch skipDeclarationRegex raw).isSome = true ∧
        ∃ d reason, parseSkipDeclaration table raw = .ok (d, reason) ∧
          reasonIsValid table d reason = true ∧
          decl = ⟨raw, component, isInline, .skip d, reason⟩) ∨
      ((fullmatch skipDeclarationRegex raw).isSome = false ∧ isInline = true ∧
        ∃ m, fullmatch fullRegex raw = some m ∧
          ∃ text, sanitizedVersion sv table component m = .ok text ∧
            ∃ r, SemverRange.ofExpression sv text = some r ∧
              decl = ⟨raw, component, isInline, .range r, (capture 2 m).filter (· ≠ [])⟩) := by
  unfold parseDeclaration
  by_cases hskip : (fullmatch skipDeclarationRegex raw).isSome = true
  · rw [if_pos hskip]
    simp only [Raised.bind_eq_ok, validateDeclarationReason_eq_ok_iff, Raised.pure_eq_ok,
      hskip, Prod.exists, exists_const, true_and, false_and, or_false,
      Bool.true_eq_false]
    constructor
    · rintro ⟨d, reason, hparse, hvalid, hdecl⟩
      exact ⟨d, reason, hparse, hvalid, hdecl.symm⟩
    · rintro ⟨d, reason, hparse, hvalid, hdecl⟩
      exact ⟨d, reason, hparse, hvalid, hdecl.symm⟩
  · rw [if_neg hskip]
    have hfalse : (fullmatch skipDeclarationRegex raw).isSome = false := by
      simpa using hskip
    simp only [hfalse, Bool.false_eq_true, false_and, true_and, false_or]
    cases isInline with
    | false => simp
    | true =>
        cases hm : fullmatch fullRegex raw with
        | none => simp
        | some m =>
            simp only [if_true, Raised.bind_eq_ok, SemverRange.create, Raised.ofOption_eq_ok_iff,
              Raised.pure_eq_ok, Option.some.injEq, exists_eq_left', true_and]
            constructor
            · rintro ⟨text, htext, r, hr, hdecl⟩
              exact ⟨text, htext, r, hr, hdecl.symm⟩
            · rintro ⟨text, htext, r, hr, hdecl⟩
              exact ⟨text, htext, r, hr, hdecl.symm⟩

theorem create_eq_ok_iff :
    create sv table raw component isInline = .ok decl ↔
      raw ≠ [] ∧ parseDeclaration sv table (strip raw) component isInline = .ok decl := by
  unfold create
  split_ifs with h
  · simp [h]
  · simp [h]

theorem newline_not_mem_value (d : TestDeclaration) : '\n' ∉ d.value := by
  cases d <;> decide

theorem newline_not_mem_of_reasonText {s : Str} (h : ReasonText s) : '\n' ∉ s := by
  obtain ⟨space, hspace, rfl | ⟨d, hd, rfl⟩⟩ := h
  · simp only [List.mem_cons, List.not_mem_nil, or_false] at hspace
    rcases hspace with rfl | rfl <;> simp
  · simp only [List.mem_cons, List.not_mem_nil, or_false] at hspace
    rcases hspace with rfl | rfl <;> simp [hd]

theorem reasonText_of_skipText (d : TestDeclaration) {reason : Option Str}
    (h : '\n' ∉ skipText d reason) :
    ∃ r, skipText d reason = d.value ++ r ∧ ReasonText r := by
  cases reason with
  | none => exact ⟨[], by simp [skipText], [], by simp, Or.inl rfl⟩
  | some e =>
      have he : '\n' ∉ e := by
        intro hmem
        exact h (by simp [skipText, hmem])
      refine ⟨' ' :: '(' :: (e ++ [')']), rfl, [' '], by simp, Or.inr ⟨e, he, by simp⟩⟩

/-- **The text of a skip declaration**, and no other, is read as that declaration. -/
theorem parseDeclaration_skip_iff (htable : table.Documented) {d : TestDeclaration}
    {reason : Option Str} :
    parseDeclaration sv table raw component isInline =
        .ok ⟨raw, component, isInline, .skip d, reason⟩ ↔
      raw = skipText d reason ∧ '\n' ∉ raw ∧ reasonIsValid table d reason = true := by
  rw [parseDeclaration_eq_ok_iff]
  constructor
  · rintro (⟨hskip, d', reason', hparse, hvalid, hdecl⟩ | ⟨-, -, m, -, text, -, r, -, hdecl⟩)
    · obtain ⟨e, r, rfl, hr⟩ := isSome_fullmatch_skipDeclarationRegex.mp hskip
      have hnl : '\n' ∉ e.value ++ r := by
        rw [List.mem_append, not_or]
        exact ⟨newline_not_mem_value e, newline_not_mem_of_reasonText hr⟩
      simp only [Declaration.mk.injEq, DeclarationValue.skip.injEq, true_and] at hdecl
      obtain ⟨rfl, rfl⟩ := hdecl
      exact ⟨(parseSkipDeclaration_eq_ok_iff htable hnl).mp hparse, hnl, hvalid⟩
    · simp at hdecl
  · rintro ⟨rfl, hnl, hvalid⟩
    refine Or.inl ⟨?_, d, reason, ?_, hvalid, rfl⟩
    · exact isSome_fullmatch_skipDeclarationRegex.mpr ⟨d, reasonText_of_skipText d hnl⟩
    · exact (parseSkipDeclaration_eq_ok_iff htable hnl).mpr rfl

/-- **A version declaration** that is accepted: its range is read from its version text. -/
theorem range_of_parseDeclaration {r : SemverRange}
    (h : parseDeclaration sv table raw component isInline = .ok decl)
    (hr : decl.value = .range r) :
    isInline = true ∧ (fullmatch skipDeclarationRegex raw).isSome = false ∧
      if ['v'] <+: raw then
        ∃ cv, ComponentVersion.create sv table component (versionText raw) = .ok cv ∧
          SemverRange.ofExpression sv ('>' :: '=' :: cv.version.str) = some r
      else SemverRange.ofExpression sv (versionText raw) = some r := by
  rcases parseDeclaration_eq_ok_iff.mp h with
    ⟨-, d, reason, -, -, rfl⟩ | ⟨hskip, hinline, m, hm, text, htext, r', hr', rfl⟩
  · simp at hr
  · simp only [DeclarationValue.range.injEq] at hr
    subst hr
    refine ⟨hinline, hskip, ?_⟩
    rw [sanitizedVersion_eq hm] at htext
    split_ifs at htext ⊢
    · rw [Raised.bind_eq_ok] at htext
      obtain ⟨cv, hcv, htext⟩ := htext
      rw [Raised.pure_eq_ok] at htext
      exact ⟨cv, hcv, by rw [htext, hr']⟩
    · rw [Raised.pure_eq_ok] at htext
      rw [htext, hr']

/-- A text without parentheses that is no kind is read as a range inline. -/
theorem parseDeclaration_range {r : SemverRange} (hparen : ∀ c ∈ raw, notParen c = true)
    (hv : ¬ ['v'] <+: raw) (hskip : (fullmatch skipDeclarationRegex raw).isSome = false)
    (hr : SemverRange.ofExpression sv raw = some r) :
    ∃ decl, parseDeclaration sv table raw component true = .ok decl ∧
      decl.value = .range r := by
  obtain ⟨m, hm⟩ := Option.isSome_iff_exists.mp (isSome_fullmatch_fullRegex hparen)
  have htext : versionText raw = raw := by
    rw [versionText, if_neg hv]
    exact List.takeWhile_eq_self_iff.mpr hparen
  have hsan : sanitizedVersion sv table component m = .ok raw := by
    rw [sanitizedVersion_eq hm, if_neg hv, htext]
    rfl
  exact ⟨_, parseDeclaration_eq_ok_iff.mpr
    (Or.inr ⟨hskip, rfl, m, hm, raw, hsan, r, hr, rfl⟩), rfl⟩

end Specification

end Declaration
end Manifest
end SystemTests
