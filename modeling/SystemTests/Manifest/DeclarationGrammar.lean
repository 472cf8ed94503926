import SystemTests.Manifest.InlineThreshold

/-!
# The grammar of declarations (`utils/manifest/_internal/declaration.py`, `types.py`)

What a raw declaration stands for is said here by its text alone, and compared
with what `Declaration` reads or raises.

**Results.**
* `isValueError_of_create`: which refused ranges are a `ValueError`.
* `followsGrammar_iff`: when a declaration is read as its text says.
-/

namespace SystemTests
namespace Manifest

open Foundation Foundation.Text Foundation.Semver Foundation.Regex Foundation.Regex.Rx

section Refusals

/--
What the package raises.  A text that is no block has no groups, which
`parse_simple` does not check.
-/
structure SemanticVersion.RaisesDocumented (sv : SemanticVersion) : Prop where
  coerce : ∀ text, (sv.coerceRaises text).isValueError = true
  block : ∀ text, sv.npmSpecBlock text = true → (sv.parseSimpleRaises text).isValueError = true
  noBlock : ∀ text, sv.npmSpecBlock text = false →
    sv.parseSimpleRaises text = .attributeError "groups"

theorem SemanticVersion.ofReading_raisesDocumented (read : Str → Option Npm.Block)
    (coerce : Str → Option Version) : (ofReading read coerce).RaisesDocumented where
  coerce _ := rfl
  block text h := by
    change Raised.isValueError (if (read text).isSome = true then _ else _) = true
    rw [if_pos (show (read text).isSome = true from h)]
    rfl
  noBlock text h := by
    change (if (read text).isSome = true then _ else _) = Raised.attributeError "groups"
    rw [if_neg (ne_true_of_eq_false (show (read text).isSome = false from h))]

namespace CustomParser

variable {sv : SemanticVersion}

theorem parseBlocks_isNone_iff (blocks : List Str) :
    parseBlocks sv blocks = none ↔ ∃ block ∈ blocks, parseBlock sv block = none := by
  induction blocks with
  | nil => simp [parseBlocks]
  | cons block blocks ih =>
      rw [parseBlocks, List.exists_mem_cons_iff, ← ih]
      cases parseBlock sv block with
      | none => simp
      | some parsed => cases parseBlocks sv blocks <;> simp

theorem parseGroups_isNone_iff (rawGroups : List Str) :
    parseGroups sv rawGroups = none ↔
      ∃ rawGroup ∈ rawGroups, parseGroup sv (groupText rawGroup) = none := by
  induction rawGroups with
  | nil => simp [parseGroups]
  | cons rawGroup rawGroups ih =>
      rw [parseGroups, List.exists_mem_cons_iff, ← ih]
      cases parseGroup sv (groupText rawGroup) with
      | none => simp
      | some clauses => cases parseGroups sv rawGroups <;> simp

theorem refusedGroup_isSome_iff (expression : Str) :
    (refusedGroup sv expression).isSome ↔ parse sv expression = none := by
  rw [refusedGroup, List.find?_isSome, parse, parseGroups_isNone_iff]
  simp only [Option.isNone_iff_eq_none]

variable (sv) in
/-- A hyphen pair whose refused side is no block. -/
def UnreadPair (group : Str) : Prop :=
  ∃ low high, split hyphen group = [low, high] ∧ sv.npmSpecBlock (refusedSide sv low high) = false

theorem isValueError_parseSimpleRaises (hraises : sv.RaisesDocumented) (text : Str) :
    (sv.parseSimpleRaises text).isValueError = sv.npmSpecBlock text := by
  cases hblock : sv.npmSpecBlock text with
  | true => exact hraises.block text hblock
  | false =>
      rw [hraises.noBlock text hblock]
      rfl

theorem isValueError_blocksRaise (hraises : sv.RaisesDocumented) (blocks : List Str) :
    (blocksRaise sv blocks).isValueError = true := by
  unfold blocksRaise
  split
  · rename_i block _
    unfold blockRaises
    split_ifs with hblock
    · exact hraises.block block hblock
    · rfl
  · rfl

/-- A refused group is a `ValueError` unless it is such a pair. -/
theorem isValueError_groupRaises_iff (hraises : sv.RaisesDocumented) (group : Str) :
    (groupRaises sv group).isValueError = true ↔ ¬ UnreadPair sv group := by
  have hpairs : ∀ low high, split hyphen group = [low, high] →
      (UnreadPair sv group ↔ sv.npmSpecBlock (refusedSide sv low high) = false) := by
    intro low high hsplit
    simp [UnreadPair, hsplit]
  unfold groupRaises
  by_cases hpair : hyphen <:+: group
  · rw [if_pos hpair]
    split
    · rename_i low high hsplit
      rw [hpairs low high hsplit, isValueError_parseSimpleRaises hraises, Bool.not_eq_false]
    · rename_i hother
      refine iff_of_true rfl ?_
      rintro ⟨low, high, hsplit, -⟩
      exact hother low high hsplit
  · rw [if_neg hpair]
    refine iff_of_true (isValueError_blocksRaise hraises _) ?_
    rintro ⟨low, high, hsplit, -⟩
    -- a text that is cut into two holds the separator
    have hjoin : join hyphen (split hyphen group) = group := join_split group
    rw [hsplit, join_cons_cons, join_singleton] at hjoin
    exact hpair ⟨low, high, hjoin⟩

end CustomParser

open CustomParser

variable {sv : SemanticVersion}

/-- The first group that is refused is such a pair. -/
def RefusedForPair (sv : SemanticVersion) (expression : Str) : Prop :=
  ∃ rawGroup, refusedGroup sv expression = some rawGroup ∧ UnreadPair sv (groupText rawGroup)

theorem SemverRange.create_cases (sv : SemanticVersion) (expression : Str) :
    (∃ r, SemverRange.create sv expression = .ok r ∧
        ofExpression sv expression = some r ∧ ¬ RefusedForPair sv expression) ∨
      ∃ e, SemverRange.create sv expression = .error e ∧ ofExpression sv expression = none ∧
        e = raises sv expression := by
  unfold SemverRange.create
  cases hr : ofExpression sv expression with
  | none => exact Or.inr ⟨_, rfl, rfl, rfl⟩
  | some r =>
      refine Or.inl ⟨r, rfl, rfl, ?_⟩
      rintro ⟨rawGroup, hrefused, -⟩
      have hnone := (refusedGroup_isSome_iff expression).mp (by rw [hrefused]; rfl)
      rw [ofExpression, hnone] at hr
      cases hr

/-- **A refused range** is a `ValueError` unless a side of a hyphen pair is no block. -/
theorem isValueError_of_create (hraises : sv.RaisesDocumented) {expression : Str} {e : Raised}
    (h : SemverRange.create sv expression = .error e) :
    e.isValueError = true ↔ ¬ RefusedForPair sv expression := by
  rcases SemverRange.create_cases sv expression with ⟨r, hr, -⟩ | ⟨e', he, hnone, rfl⟩
  · rw [hr] at h
    cases h
  · rw [he, Except.error.injEq] at h
    obtain ⟨rawGroup, hrefused⟩ := Option.isSome_iff_exists.mp
      ((refusedGroup_isSome_iff expression).mpr (Option.map_eq_none_iff.mp hnone))
    rw [← h, raises, hrefused]
    simp [RefusedForPair, hrefused, isValueError_groupRaises_iff hraises]

end Refusals

namespace Declaration

section Reasons

/-- A text with a reference `ABC-123` to a ticket. -/
def CarriesTicket (table : CharTable) (reason : Str) : Prop :=
  ∃ left letters digits right, reason = left ++ letters ++ '-' :: digits ++ right ∧
    3 ≤ letters.length ∧ (∀ c ∈ letters, 'A' ≤ c ∧ c ≤ 'Z') ∧
    digits ≠ [] ∧ ∀ c ∈ digits, table.isDigit c = true

/-- What the parentheses of a declaration hold. -/
def ReasonOf (raw : Str) : Option Str → Prop
  | none => ∀ c ∈ raw, notParen c = true
  | some reason => ∃ front, (∀ c ∈ front, notParen c = true) ∧ raw = front ++ '(' :: reason ++ [')']

/-- The kind of a skip declaration with a parenthesis right behind it. -/
def GluedReason (raw : Str) : Prop :=
  ∃ (d : TestDeclaration) (reason : Str), '\n' ∉ reason ∧ raw = d.value ++ '(' :: reason ++ [')']

/-- The parentheses of a version repeat the text of the version. -/
def EchoesVersion (raw : Str) : Prop :=
  versionText raw ≠ [] ∧ ReasonOf raw (some (versionText raw))

variable {table : CharTable}

theorem text_of_jiraTicket {s : Str} {caps : List (Nat × Str)} {m : Match}
    (h : m ∈ run (jiraTicket table) (s, caps)) :
    ∃ letters digits, s = letters ++ '-' :: digits ++ m.1 ∧ 3 ≤ letters.length ∧
      (∀ c ∈ letters, 'A' ≤ c ∧ c ≤ 'Z') ∧ digits ≠ [] ∧ ∀ c ∈ digits, table.isDigit c = true := by
  obtain ⟨m₁, h₁, h⟩ := mem_run_seq.mp h
  obtain ⟨m₂, h₂, h⟩ := mem_run_seq.mp h
  obtain ⟨m₃, h₃, h⟩ := mem_run_seq.mp h
  obtain ⟨m₄, h₄, h⟩ := mem_run_seq.mp h
  obtain ⟨a, ha, h₁⟩ := mem_run_seq.mp h₁
  obtain ⟨b, hb, h₁⟩ := mem_run_seq.mp h₁
  obtain ⟨c, hc, h₁⟩ := mem_run_seq.mp h₁
  obtain ⟨x, t, rfl, hx, rfl⟩ := mem_run_chars.mp ha
  obtain ⟨y, t, rfl, hy, rfl⟩ := mem_run_chars.mp hb
  obtain ⟨z, t, rfl, hz, rfl⟩ := mem_run_chars.mp hc
  obtain rfl := List.mem_singleton.mp h₁
  obtain ⟨more, t, rfl, hmore, rfl⟩ := mem_run_star_chars.mp h₂
  obtain ⟨t, rfl, rfl⟩ := mem_run_char.mp h₃
  obtain ⟨digits, t, rfl, hne, hdigits, rfl⟩ := mem_run_plus_chars.mp h₄
  obtain rfl := List.mem_singleton.mp h
  refine ⟨x :: y :: z :: more, digits, by simp, by simp, ?_, hne, hdigits⟩
  simp only [Bool.and_eq_true, decide_eq_true_eq] at hx hy hz hmore
  simpa using ⟨hx, hy, hz, hmore⟩

/-- An accepted reason of a bug carries a ticket. -/
theorem carriesTicket_of_reasonIsValid {d : TestDeclaration} (hd : d = .bug ∨ d = .flaky)
    {reason : Option Str} (h : reasonIsValid table d reason = true) :
    ∃ text, reason = some text ∧ CarriesTicket table text := by
  have htext : ∃ text, reason = some text ∧ (fullmatch (jiraTicketPattern table) text).isSome := by
    rcases hd with rfl | rfl
    · cases reason with
      | none => cases h
      | some text => exact ⟨text, rfl, h⟩
    · cases reason with
      | none => cases h
      | some text => exact ⟨text, rfl, h⟩
  obtain ⟨text, rfl, hmatch⟩ := htext
  obtain ⟨m, hm⟩ := Option.isSome_iff_exists.mp hmatch
  obtain ⟨m', hm', -⟩ := mem_run_seq.mp (List.mem_of_find?_eq_some hm)
  rw [run_group, List.mem_map] at hm'
  obtain ⟨m₁, hticket, -⟩ := hm'
  obtain ⟨letters, digits, rfl, hparts⟩ := text_of_jiraTicket hticket
  exact ⟨_, rfl, [], letters, digits, m₁.1, by simp, hparts⟩

end Reasons

section Skips

variable {table : CharTable} {raw : Str}

theorem isWord_paren (htable : table.Documented) : table.isWord '(' = false := by
  rw [htable.isWord '(' (by decide)]
  decide

theorem notParen_of_mem_value (d : TestDeclaration) : ∀ c ∈ d.value, notParen c = true := by
  cases d <;> decide

/-- A kind with a parenthesis right behind it is no text of a skip declaration. -/
theorem GluedReason.ne_skipText (h : GluedReason raw) (d : TestDeclaration) (reason : Option Str) :
    raw ≠ skipText d reason := by
  obtain ⟨d', reason', -, rfl⟩ := h
  intro heq
  have hfront := congrArg (List.takeWhile notParen) heq
  rw [List.append_assoc, List.takeWhile_append_of_pos (notParen_of_mem_value d')] at hfront
  cases reason with
  | none =>
      have hlast := congrArg List.getLast? heq
      rw [skipText, List.getLast?_concat] at hlast
      have hparen := notParen_of_mem_value d ')' (List.mem_of_getLast? hlast.symm)
      cases hparen
  | some text =>
      rw [skipText, List.takeWhile_append_of_pos (notParen_of_mem_value d)] at hfront
      have hspace : ' ' ∈ d'.value := by
        have hmem : ' ' ∈ d'.value ++ List.takeWhile notParen ('(' :: reason' ++ [')']) := by
          rw [hfront]
          exact List.mem_append_right _ List.mem_cons_self
        exact (List.mem_append.mp hmem).resolve_right fun h => by cases h
      cases d' <;> revert hspace <;> decide

/-- The three forms of what the pattern of skip declarations matches. -/
theorem skip_cases {s : Str} (h : (fullmatch skipDeclarationRegex (strip s)).isSome) :
    '\n' ∉ strip s ∧
      ((∃ d reason, strip s = skipText d reason) ∨ GluedReason (strip s)) := by
  obtain ⟨d, r, hr, hreason⟩ := isSome_fullmatch_skipDeclarationRegex.mp h
  have hnewline : '\n' ∉ strip s := by
    rw [hr, List.mem_append, not_or]
    exact ⟨newline_not_mem_value d, newline_not_mem_of_reasonText hreason⟩
  refine ⟨hnewline, ?_⟩
  obtain ⟨space, hspace, rfl | ⟨reason, hline, rfl⟩⟩ := hreason
  · rcases List.mem_cons.mp hspace with rfl | hspace
    · exact Or.inl ⟨d, none, by rw [hr, List.append_nil, skipText]⟩
    · -- stripped texts do not end in a space
      obtain rfl := List.mem_singleton.mp hspace
      have hlast := stripOf_getLast? isSpace s ' ' (by
        rw [show stripOf isSpace s = d.value ++ [' '] from hr, List.getLast?_concat]
        rfl)
      cases hlast
  · rcases List.mem_cons.mp hspace with rfl | hspace
    · exact Or.inr ⟨d, reason, hline, by rw [hr]; simp⟩
    · obtain rfl := List.mem_singleton.mp hspace
      exact Or.inl ⟨d, some reason, by rw [hr, skipText]; simp⟩

end Skips

section Grammar

/-- The result of reading a text: a `ValueError`, or what the text says. -/
def FollowsGrammar (table : CharTable) (text : Str) (result : Except Raised Declaration) : Prop :=
  match result with
  | .error e => e.isValueError = true
  | .ok decl =>
      ((∃ d, decl.value = .skip d) ↔ ∃ d reason, strip text = skipText d reason) ∧
      (∀ d, decl.value = .skip d → strip text = skipText d decl.reason ∧
        (d = .bug ∨ d = .flaky → ∃ reason, decl.reason = some reason ∧ CarriesTicket table reason)) ∧
      ∀ r, decl.value = .range r →
        ∃ reason, decl.getReason = .ok reason ∧ ReasonOf (strip text) reason

variable {sv : SemanticVersion} {table : CharTable} {text component : Str} {isInline : Bool}

/-- The assertion of `_parse_skip_declaration` fails on a parenthesis right behind the kind. -/
theorem parseSkipDeclaration_of_glued (htable : table.Documented) {raw : Str}
    (h : GluedReason raw) : parseSkipDeclaration table raw = .error (.assertionError []) := by
  obtain ⟨d, reason, -, rfl⟩ := h
  have hstart : (TestDeclaration.all.any fun e =>
      e.value <+: d.value ++ '(' :: reason ++ [')']) = true := by
    rw [List.any_eq_true]
    refine ⟨d, d.mem_all, ?_⟩
    rw [decide_eq_true_eq, List.append_assoc]
    exact List.prefix_append _ _
  have hrest : (d.value ++ '(' :: reason ++ [')']).dropWhile table.isWord =
      '(' :: reason ++ [')'] := by
    rw [List.append_assoc, List.dropWhile_append_of_pos (isWord_of_mem_value htable d)]
    exact List.dropWhile_cons_of_neg (by rw [isWord_paren htable]; exact Bool.false_ne_true)
  have hnone : matchStart (detailsRegex table) (d.value ++ '(' :: reason ++ [')']) = none := by
    rw [← Option.not_isSome_iff_eq_none]
    intro hsome
    obtain ⟨m, hm⟩ := Option.isSome_iff_exists.mp hsome
    obtain ⟨w, -, hw, hend, h⟩ := mem_run_detailsRegex.mp (List.mem_of_head? hm)
    rcases h with ⟨h, -⟩ | ⟨e, -, h, -⟩
    · rw [h, List.dropWhile_append_of_pos hw] at hrest
      rcases hend with hnil | hnewline
      · rw [hnil] at hrest
        cases hrest
      · rw [hnewline] at hrest
        cases hword : table.isWord '\n' with
        | true =>
            rw [List.dropWhile_cons_of_pos hword] at hrest
            cases hrest
        | false =>
            rw [List.dropWhile_cons_of_neg (by rw [hword]; exact Bool.false_ne_true)] at hrest
            cases hrest
    · rw [h, List.append_assoc, List.dropWhile_append_of_pos hw, List.cons_append,
        List.dropWhile_cons_of_neg (by rw [isWord_space htable]; exact Bool.false_ne_true)] at hrest
      cases hrest
  rw [parseSkipDeclaration, if_pos hstart, hnone]
  rfl

theorem followsGrammar_skip_iff (htable : table.Documented)
    (hskip : (fullmatch skipDeclarationRegex (strip text)).isSome = true) :
    FollowsGrammar table text (parseDeclaration sv table (strip text) component isInline) ↔
      ¬ GluedReason (strip text) := by
  obtain ⟨hnewline, ⟨d, reason, hraw⟩ | hglued⟩ := skip_cases hskip
  · refine iff_of_true ?_ fun hglued => hglued.ne_skipText d reason hraw
    unfold parseDeclaration
    rw [if_pos hskip, (parseSkipDeclaration_eq_ok_iff htable hnewline).mpr hraw, Raised.ok_bind]
    dsimp only
    cases hvalid : reasonIsValid table d reason with
    | true =>
        rw [(validateDeclarationReason_eq_ok_iff (u := ())).mpr hvalid, Raised.ok_bind]
        refine ⟨iff_of_true ⟨d, rfl⟩ ⟨d, reason, hraw⟩, fun d' hd' => ?_, fun r hr => by cases hr⟩
        obtain rfl : d = d' := DeclarationValue.skip.inj hd'
        exact ⟨hraw, fun hkind => carriesTicket_of_reasonIsValid hkind hvalid⟩
    | false =>
        rw [validateDeclarationReason, if_neg (by rw [hvalid]; exact Bool.false_ne_true)]
        rfl
  · refine iff_of_false ?_ (not_not_intro hglued)
    unfold parseDeclaration
    rw [if_pos hskip, parseSkipDeclaration_of_glued htable hglued]
    exact Bool.false_ne_true

variable (sv table) in
/-- The text that is read as a range. -/
def rangeText (component raw : Str) : Except Raised Str :=
  if ['v'] <+: raw then do
    let cv ← ComponentVersion.create sv table component (versionText raw)
    return '>' :: '=' :: cv.version.str
  else return versionText raw

theorem isValueError_of_create_version (hraises : sv.RaisesDocumented) {version : Str} {e : Raised}
    (h : ComponentVersion.create sv table component version = .error e) :
    e.isValueError = true := by
  have hversion : ∀ bare, versionOfText sv bare = .error e → e.isValueError = true := by
    intro bare herror
    obtain ⟨-, rfl⟩ := Raised.ofOption_eq_error_iff.mp herror
    exact hraises.coerce _
  unfold ComponentVersion.create at h
  split_ifs at h
  · rw [← Except.error.inj h]
    rfl
  · rcases Raised.bind_eq_error.mp h with h | ⟨v, -, h⟩
    · exact hversion _ h
    · cases h
  · rcases Raised.bind_eq_error.mp h with h | ⟨v, -, h⟩
    · exact hversion _ h
    · cases h

theorem isValueError_of_rangeText (hraises : sv.RaisesDocumented) {raw : Str} {e : Raised}
    (h : rangeText sv table component raw = .error e) : e.isValueError = true := by
  unfold rangeText at h
  split_ifs at h
  · rcases Raised.bind_eq_error.mp h with h | ⟨cv, -, h⟩
    · exact isValueError_of_create_version hraises h
    · cases h
  · cases h

theorem head?_value_ne (d : TestDeclaration) : d.value.head? ≠ some 'v' := by
  cases d <;> decide

/-- A text that is read as a version is no text of a skip declaration. -/
theorem ne_skipText_of_fullRegex {raw : Str}
    (hskip : (fullmatch skipDeclarationRegex raw).isSome = false)
    (hfull : (fullmatch fullRegex raw).isSome = true) (d : TestDeclaration) (reason : Option Str) :
    raw ≠ skipText d reason := by
  rintro rfl
  have hnewline : '\n' ∉ skipText d reason := by
    cases reason with
    | none => exact newline_not_mem_value d
    | some reason =>
        -- what follows the kind is a reason, which has no newline
        have hend : ReasonText ('(' :: reason ++ [')']) := by
          have hv : ¬ ['v'] <+: skipText d (some reason) := by
            rintro ⟨t, ht⟩
            have hhead := congrArg List.head? ht
            rw [skipText, List.head?_append_of_ne_nil _ (value_ne_nil d)] at hhead
            exact head?_value_ne d hhead.symm
          rw [fullmatch_fullRegex, if_neg hv, versionEnd_eq, isSome_find?_reason, skipText,
            List.dropWhile_append_of_pos (notParen_of_mem_value d),
            List.dropWhile_cons_of_pos (by decide)] at hfull
          exact hfull
        have hreason := newline_not_mem_of_reasonText hend
        simp only [skipText, List.mem_append, List.mem_cons, not_or]
        simp only [List.cons_append, List.mem_cons, List.mem_append, not_or] at hreason
        exact ⟨newline_not_mem_value d, by decide, hreason⟩
  have hmatch := isSome_fullmatch_skipDeclarationRegex.mpr ⟨d, reasonText_of_skipText d hnewline⟩
  rw [hskip] at hmatch
  cases hmatch

/-- The reason that is kept of a version is the text of the version. -/
theorem getReason_range (raw component : Str) (isInline : Bool) (r : SemverRange) (reason : Str) :
    (Declaration.mk raw component isInline (.range r) ((some reason).filter (· ≠ []))).getReason =
      if reason = [] then .error (.attributeError "reason") else .ok (some reason) := by
  cases reason <;> rfl

theorem followsGrammar_version_iff (hraises : sv.RaisesDocumented)
    (hskip : (fullmatch skipDeclarationRegex (strip text)).isSome = false) :
    FollowsGrammar table text (parseDeclaration sv table (strip text) component true) ↔
      ((fullmatch fullRegex (strip text)).isSome = true →
        ∀ range, rangeText sv table component (strip text) = .ok range →
          ¬ RefusedForPair sv range ∧
            ((SemverRange.ofExpression sv range).isSome → EchoesVersion (strip text))) := by
  unfold parseDeclaration
  rw [if_neg (by rw [hskip]; exact Bool.false_ne_true), if_pos rfl]
  cases hm : fullmatch fullRegex (strip text) with
  | none => exact iff_of_true rfl fun h => by cases h
  | some m =>
      have hfull : (fullmatch fullRegex (strip text)).isSome = true := by rw [hm]; rfl
      have hsanitized : sanitizedVersion sv table component m =
          rangeText sv table component (strip text) := sanitizedVersion_eq hm
      have hversion : capture 2 m = some (versionText (strip text)) := (capture_fullRegex hm).2
      dsimp only
      rw [hsanitized]
      cases hrange : rangeText sv table component (strip text) with
      | error e =>
          refine iff_of_true (isValueError_of_rangeText hraises hrange) fun _ range h => ?_
          cases h
      | ok range =>
          simp only [Option.isSome_some, true_imp_iff, Except.ok.injEq, forall_eq', Raised.ok_bind]
          rcases SemverRange.create_cases sv range with
            ⟨r, hcreate, hr, hread⟩ | ⟨e, hcreate, hr, -⟩
          · rw [hcreate, Raised.ok_bind, hr, and_iff_right hread]
            simp only [Option.isSome_some, true_imp_iff]
            have hnot : ¬ ∃ d reason, strip text = skipText d reason := by
              rintro ⟨d, reason, hraw⟩
              exact ne_skipText_of_fullRegex hskip hfull d reason hraw
            rw [hversion]
            constructor
            · rintro ⟨-, -, hreason⟩
              obtain ⟨reason, hget, hof⟩ := hreason r rfl
              rw [getReason_range] at hget
              split_ifs at hget with hnil
              rw [Except.ok.injEq] at hget
              exact ⟨hnil, hget ▸ hof⟩
            · rintro ⟨hne, hof⟩
              refine ⟨iff_of_false ?_ hnot, ?_, ?_⟩
              · rintro ⟨d, hd⟩
                cases hd
              · intro d hd
                cases hd
              · intro _ _
                exact ⟨_, by rw [getReason_range, if_neg hne], hof⟩
          · rw [hcreate, hr]
            simp only [Option.isSome_none, Bool.false_eq_true, false_imp_iff, and_true]
            exact isValueError_of_create hraises hcreate

/-- What has to be the case for a text to be read as it says. -/
def Regular (sv : SemanticVersion) (table : CharTable) (text component : Str) (isInline : Bool) :
    Prop :=
  ¬ GluedReason (strip text) ∧
    (text ≠ [] → isInline = true → (fullmatch skipDeclarationRegex (strip text)).isSome = false →
      (fullmatch fullRegex (strip text)).isSome = true →
        ∀ range, rangeText sv table component (strip text) = .ok range →
          ¬ RefusedForPair sv range ∧
            ((SemverRange.ofExpression sv range).isSome → EchoesVersion (strip text)))

/--
**When a declaration is read as its text says**, or refused with a `ValueError`:
no parenthesis stands right behind a kind, no range is refused for a side of a
hyphen pair that is no block, and the parentheses of an accepted version repeat
the version.
-/
theorem followsGrammar_iff (hraises : sv.RaisesDocumented) (htable : table.Documented) :
    FollowsGrammar table text (Declaration.create sv table text component isInline) ↔
      Regular sv table text component isInline := by
  unfold Declaration.create Regular
  by_cases hempty : text = []
  · subst hempty
    have hglued : ¬ GluedReason (strip []) := by
      rintro ⟨d, reason, -, h⟩
      have hlength := congrArg List.length h
      simp [strip] at hlength
    rw [if_pos rfl]
    exact iff_of_true rfl ⟨hglued, fun h => absurd rfl h⟩
  · rw [if_neg hempty]
    simp only [ne_eq, hempty, not_false_eq_true, true_imp_iff]
    cases hskip : (fullmatch skipDeclarationRegex (strip text)).isSome with
    | true =>
        rw [followsGrammar_skip_iff htable hskip]
        simp
    | false =>
        have hglued : ¬ GluedReason (strip text) := by
          rintro ⟨d, reason, hline, hraw⟩
          have hmatch : (fullmatch skipDeclarationRegex (strip text)).isSome = true :=
            isSome_fullmatch_skipDeclarationRegex.mpr
              ⟨d, '(' :: reason ++ [')'], by rw [hraw, List.append_assoc], [], by simp,
                Or.inr ⟨reason, hline, rfl⟩⟩
          rw [hskip] at hmatch
          cases hmatch
        rw [and_iff_right hglued]
        simp only [true_imp_iff]
        cases isInline with
        | true => simpa using followsGrammar_version_iff hraises hskip
        | false =>
            unfold parseDeclaration
            rw [if_neg (by rw [hskip]; exact Bool.false_ne_true),
              if_neg Bool.false_ne_true]
            simp [FollowsGrammar, Raised.isValueError, throw, throwThe, MonadExceptOf.throw]

theorem followsGrammar_ticket :
    FollowsGrammar .ascii "bug (APMRP-1)".toList
        (Declaration.create fullVersions .ascii "bug (APMRP-1)".toList "python".toList false) ↔
      Regular fullVersions .ascii "bug (APMRP-1)".toList "python".toList false :=
  followsGrammar_iff (SemanticVersion.ofReading_raisesDocumented _ _)
    CharTable.ascii_documented

def gluedTicket : Str := "bug(APMRP-1)"

def versionWithReason : Str := "1.2.3 (known upstream)"

/-- A missing space is an assertion error, and the reason of a version is the version. -/
theorem gluedTicket_versionWithReason_not_followsGrammar :
    (Declaration.create fullVersions .ascii gluedTicket "python".toList false =
        .error (.assertionError []) ∧
      ¬ FollowsGrammar .ascii gluedTicket
        (Declaration.create fullVersions .ascii gluedTicket "python".toList false)) ∧
    ∃ decl, Declaration.create fullVersions .ascii versionWithReason "python".toList true = .ok decl ∧
      decl.getReason = .ok (some "1.2.3 ".toList) ∧
      ¬ FollowsGrammar .ascii versionWithReason
        (Declaration.create fullVersions .ascii versionWithReason "python".toList true) := by
  constructor
  · have hraised : Declaration.create fullVersions .ascii gluedTicket "python".toList false =
        .error (.assertionError []) := by
      decide
    refine ⟨hraised, ?_⟩
    rw [hraised]
    exact Bool.false_ne_true
  · have hread : Declaration.create fullVersions .ascii versionWithReason "python".toList true =
        .ok ⟨versionWithReason, "python".toList, true,
          .range ⟨"1.2.3 ".toList, [[CustomParser.range .eq (.release 1 2 3)]]⟩,
          some "1.2.3 ".toList⟩ := by
      decide
    refine ⟨_, hread, rfl, ?_⟩
    rw [hread]
    rintro ⟨-, -, hreason⟩
    obtain ⟨reason, hget, hof⟩ := hreason _ rfl
    obtain rfl : some "1.2.3 ".toList = reason := Except.ok.inj hget
    obtain ⟨front, hfront, hraw⟩ := hof
    have hparens := congrArg (List.dropWhile notParen) hraw
    rw [List.append_assoc, List.dropWhile_append_of_pos hfront] at hparens
    exact absurd hparens (by decide)

end Grammar

end Declaration

end Manifest
end SystemTests
