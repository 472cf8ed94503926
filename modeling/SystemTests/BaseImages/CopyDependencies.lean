import SystemTests.Foundation.Exception
import SystemTests.Foundation.Json
import SystemTests.Foundation.Lines

/-!
# The files that a base image copies (`utils/base_images/build_base_images.py`)

`parse_copy_dependencies` reads the sources of the `COPY` instructions of a Dockerfile.  What
Docker itself copies is `dockerSources`: comments and blank lines are dropped wherever they
stand, the lines of an instruction are joined without anything between them, and only the words
in front of the first source are options.

**Results.**
* `logicalLines_alike`: the instructions that are joined have the words of Docker's.
* `parseCopyDependencies_eq`: the sources of a clear Dockerfile are those that Docker copies.
-/

namespace SystemTests
namespace BaseImages

open Foundation Foundation.Text Foundation.Json

/-- `str.upper`, for what is compared to an instruction: its letters come from ASCII ones only. -/
def upper (s : Str) : Str := s.map Char.toUpper

def isFlag (token : Str) : Bool := "--".toList.isPrefixOf token

def isFrom (token : Str) : Bool := "--from=".toList.isPrefixOf token

section Source

/-- The loop of `_dockerfile_logical_lines`, with its buffer. -/
def logicalLinesGo : Str → List Str → List Str
  | buffer, [] => if buffer = [] then [] else [strip buffer]
  | buffer, rawLine :: rawLines =>
      let line := rstrip rawLine
      let stripped := strip line
      if buffer = [] ∧ (stripped = [] ∨ stripped.head? = some '#') then
        logicalLinesGo buffer rawLines
      else if line.getLast? = some '\\' then
        logicalLinesGo (buffer ++ line.dropLast ++ [' ']) rawLines
      else strip (buffer ++ line) :: logicalLinesGo [] rawLines

/-- `_dockerfile_logical_lines` -/
def logicalLines (content : Str) : List Str := logicalLinesGo [] (readLines content)

/-- `line.partition(" ")` without the blank. -/
def partition (line : Str) : Str × Str :=
  (line.takeWhile (· ≠ ' '), (line.dropWhile (· ≠ ' ')).tail)

variable (repr : Str → Str) (dockerfile : Str)

/-- The message about a line. -/
def refused (message line : Str) : Raised :=
  .valueError (dockerfile ++ ": ".toList ++ message ++ repr line)

/-- The loop body of `parse_copy_dependencies`. -/
def parseLine (dependencies : List Str) (line : Str) : Except Raised (List Str) :=
  let instruction := upper (partition line).1
  let rest := (partition line).2
  if instruction = "ADD" then
    .error (refused repr dockerfile
      "ADD is not allowed in a base Dockerfile, use COPY instead: " line)
  else if instruction = "RUN" ∧ "--mount".toList <:+: rest then
    .error (refused repr dockerfile "RUN --mount is not allowed in a base Dockerfile: " line)
  else if instruction ≠ "COPY" then .ok dependencies
  else
    let tokens := words rest
    let flags := tokens.filter isFlag
    let paths := tokens.filter (! isFlag ·)
    if flags.any isFrom then .ok dependencies
    else if paths.head?.any ("[".toList.isPrefixOf ·) then
      .error (refused repr dockerfile
        "exec-form (JSON array) COPY is not supported, use 'COPY <source> <dest>': " line)
    else match paths with
      | [source, _] => .ok (dependencies ++ [source])
      | _ =>
          .error (refused repr dockerfile
            "COPY must be of the form 'COPY [flags] <source> <dest>' (exactly one source), got: "
            line)

/-- `parse_copy_dependencies`, for the content of the file. -/
def parseCopyDependencies (content : Str) : Except Raised (List Str) :=
  (logicalLines content).foldlM (parseLine repr dockerfile) []

end Source

section Docker

def dockerLines (content : Str) : List Str := (linesOf (· = '\n') content).map dropReturn

/-- A comment or a blank line. -/
def ignored (line : Str) : Bool :=
  match line.dropWhile isSpace with
  | [] => true
  | c :: _ => c = '#'

/-- The text in front of the backslash that continues a line. -/
def continued (line : Str) : Option Str :=
  if (rstrip line).getLast? = some '\\' then some (rstrip line).dropLast else none

/-- The instructions of some lines, the first of which may have begun before. -/
def joinLines : Option Str → List Str → List Str
  | none, [] => []
  | some text, [] => [text]
  | begun, line :: lines =>
      if ignored line then joinLines begun lines
      else match continued line with
        | some text => joinLines (some (begun.getD [] ++ text)) lines
        | none => (begun.getD [] ++ line) :: joinLines none lines

def dockerInstructions (content : Str) : List Str := joinLines none (dockerLines content)

/-- The sources of a JSON array, whose last text is the destination. -/
def execSources (arguments : Str) : Option (List Str) :=
  match jsonLoad arguments with
  | some (.array elements) =>
      (elements.mapM fun element : Json => match element with
        | .string codePoints => some (codePoints.map Char.ofNat)
        | _ => none).map List.dropLast
  | _ => none

/-- The sources of an instruction that copies from the local context. -/
def localSources (instruction : Str) : List Str :=
  match words instruction with
  | [] => []
  | name :: arguments =>
      let options := arguments.takeWhile isFlag
      let paths := arguments.dropWhile isFlag
      if upper name ≠ "COPY" ∨ options.any isFrom then []
      else if paths.head?.any ("[".toList.isPrefixOf ·) then
        (execSources (afterKeyword^[options.length + 1] instruction)).getD paths.dropLast
      else paths.dropLast

def dockerSources (content : Str) : List Str := (dockerInstructions content).flatMap localSources

end Docker

section Clear

/-- A blank stands behind the name of a `COPY` instruction. -/
def Separated (s : Str) : Prop :=
  upper (keyword s) = "COPY" → ∀ c ∈ (afterKeyword s).head?, c = ' '

/-- No word goes on from the end of a text to the start of a line. -/
def Apart (text line : Str) : Prop :=
  (∀ c ∈ text.getLast?, isSpace c = true) ∨ ∀ c ∈ line.head?, isSpace c = true

/-- What a line adds to its instruction. -/
def lineText (line : Str) : Str := (continued line).getD line

/-- The lines are joined as they stand: no comment comes between them, and no word is cut. -/
def Joinable : Option Str → List Str → Prop
  | _, [] => True
  | none, line :: lines =>
      if ignored line then Joinable none lines
      else Separated (lineText line) ∧ Joinable (continued line) lines
  | some text, line :: lines =>
      ignored line = false ∧ Apart text (lineText line) ∧
        (words text = [] → Separated (lineText line)) ∧
        Joinable ((continued line).map (text ++ ·)) lines

/-- No word that looks like an option stands behind a source. -/
def OptionsFirst (instruction : Str) : Prop :=
  upper (keyword instruction) = "COPY" →
    ∀ word ∈ (words instruction).tail.dropWhile isFlag, isFlag word = false

structure Clear (content : Str) : Prop where
  newlines : ∀ line ∈ dockerLines content, ∀ c ∈ line, isLineBoundary c = false
  joins : Joinable none (dockerLines content)
  options : ∀ instruction ∈ dockerInstructions content, OptionsFirst instruction

instance (s : Str) : Decidable (Separated s) :=
  inferInstanceAs (Decidable (_ → ∀ c ∈ (afterKeyword s).head?, c = ' '))

instance (text line : Str) : Decidable (Apart text line) :=
  inferInstanceAs (Decidable ((∀ c ∈ text.getLast?, _) ∨ ∀ c ∈ line.head?, _))

instance (instruction : Str) : Decidable (OptionsFirst instruction) :=
  inferInstanceAs (Decidable (_ → ∀ word ∈ (words instruction).tail.dropWhile isFlag, _))

instance decidableJoinable : ∀ begun lines, Decidable (Joinable begun lines)
  | none, [] => .isTrue trivial
  | some _, [] => .isTrue trivial
  | none, line :: lines =>
      have := decidableJoinable none lines
      have := decidableJoinable (continued line) lines
      inferInstanceAs (Decidable (if ignored line then _ else _ ∧ _))
  | some text, line :: lines =>
      have := decidableJoinable ((continued line).map (text ++ ·)) lines
      inferInstanceAs (Decidable (_ ∧ _ ∧ (_ → _) ∧ _))

instance (content : Str) : Decidable (Clear content) :=
  decidable_of_iff
    ((∀ line ∈ dockerLines content, ∀ c ∈ line, isLineBoundary c = false) ∧
      Joinable none (dockerLines content) ∧
      ∀ instruction ∈ dockerInstructions content, OptionsFirst instruction)
    ⟨fun ⟨newlines, joins, options⟩ => ⟨newlines, joins, options⟩,
      fun ⟨newlines, joins, options⟩ => ⟨newlines, joins, options⟩⟩

end Clear

section Separated

variable {s t : Str}

theorem separated_of_blank (h : words s = []) : Separated s := by
  intro hcopy
  rw [keyword, List.dropWhile_eq_nil_iff.mpr (words_eq_nil_iff.mp h)] at hcopy
  exact absurd hcopy (by decide)

theorem Separated.of_append (h : Separated (s ++ t)) : Separated s := by
  intro hcopy c hc
  have hne : afterKeyword s ≠ [] := by
    intro hnil
    rw [hnil] at hc
    cases hc
  obtain ⟨hkeyword, hafter⟩ := append_of_afterKeyword hne t
  refine h (hkeyword ▸ hcopy) c ?_
  rw [hafter, List.head?_append, Option.mem_def.mp hc]
  rfl

theorem Separated.append_left {l : Str} (hl : ∀ c ∈ l, isSpace c = true) :
    Separated (l ++ s) ↔ Separated s := by
  rw [Separated, keyword_append_left hl, afterKeyword_append_left hl, Separated]

/-- What is put behind the first word does not change what separates it. -/
theorem Separated.append (h : Separated s) (hafter : afterKeyword s ≠ []) (t : Str) :
    Separated (s ++ t) := by
  obtain ⟨hkeyword, happend⟩ := append_of_afterKeyword hafter t
  obtain ⟨d, rest, hd⟩ := List.exists_cons_of_ne_nil hafter
  intro hcopy c hc
  rw [happend, hd] at hc
  refine h (hkeyword ▸ hcopy) c ?_
  rw [hd]
  exact hc

/-- A blank is put where the backslash was. -/
theorem Separated.append_blank (h : Separated s) : Separated (s ++ [' ']) := by
  by_cases hafter : afterKeyword s = []
  · intro _ c hc
    by_cases hs : s.dropWhile isSpace = []
    · rw [afterKeyword_append_left (List.dropWhile_eq_nil_iff.mp hs)] at hc
      cases hc
    · rw [afterKeyword, List.dropWhile_append, if_neg (by simpa using hs),
        List.dropWhile_append, if_pos (by simpa [afterKeyword] using hafter)] at hc
      exact (Option.some.inj hc).symm
  · exact h.append hafter [' ']

theorem Separated.strip (h : Separated s) : Separated (strip s) := by
  obtain ⟨l, r, hs, hl, _⟩ := exists_stripOf isSpace s
  rw [hs, List.append_assoc, Separated.append_left hl] at h
  exact h.of_append

theorem Separated.rstrip (h : Separated s) : Separated (rstrip s) := by
  have hs : Text.rstrip s ++ s.rtakeWhile isSpace = s := List.rdropWhile_append_rtakeWhile ..
  rw [← hs] at h
  exact h.of_append

end Separated

section Joined

variable {line text buffer : Str} {begun : Option Str}

/-- Whether a line is dropped can be told from its first word. -/
theorem ignored_iff : ignored line = true ↔ ∀ word ∈ (words line).head?, word.head? = some '#' := by
  have hnot := List.head?_dropWhile_not isSpace line
  cases hline : line.dropWhile isSpace with
  | nil =>
      have hwords : words line = [] := words_eq_nil_iff.mpr (List.dropWhile_eq_nil_iff.mp hline)
      simp [ignored, hline, hwords]
  | cons c rest =>
      rw [hline] at hnot
      have hc : isSpace c = false := by simpa using hnot
      have hne : words line ≠ [] := by
        rw [ne_eq, words_eq_nil_iff, ← List.dropWhile_eq_nil_iff, hline]
        exact List.cons_ne_nil c rest
      rw [words_eq_keyword_cons hne]
      simp [ignored, hline, keyword, hc]

theorem ignored_strip_rstrip (line : Str) :
    strip (rstrip line) = [] ∨ (strip (rstrip line)).head? = some '#' ↔ ignored line = true := by
  have hwords : words (strip (rstrip line)) = words line := by rw [words_strip, words_rstrip]
  have hhead := stripOf_head? isSpace (rstrip line)
  rw [ignored_iff, ← hwords, ← ignored_iff, ignored]
  rw [show stripOf isSpace (rstrip line) = strip (rstrip line) from rfl] at hhead
  cases hs : strip (rstrip line) with
  | nil => simp
  | cons c rest =>
      rw [hs] at hhead
      have hc : isSpace c = false := hhead c rfl
      simp [hc]

/-- What the two joiners hold in the middle of an instruction. -/
inductive Follows : Str → Option Str → Prop
  | start : Follows [] none
  | begun {buffer text : Str} (blank : buffer.getLast? = some ' ')
      (words_eq : words buffer = words text)
      (separated : Separated buffer) : Follows buffer (some text)

/-- The line that is joined, and Docker's one. -/
structure Alike (line instruction : Str) : Prop where
  words_eq : words line = words instruction
  separated : Separated line
  stripped : strip line = line

theorem ne_nil_of_getLast? {c : Char} (h : buffer.getLast? = some c) : buffer ≠ [] := by
  rintro rfl
  cases h

theorem afterKeyword_ne_nil (hlast : buffer.getLast? = some ' ') (hwords : words buffer ≠ []) :
    afterKeyword buffer ≠ [] := by
  intro hnil
  have hall : keyword buffer = buffer.dropWhile isSpace := by
    rw [← keyword_append_afterKeyword, hnil, List.append_nil]
  have hne : buffer.dropWhile isSpace ≠ [] := by
    rwa [ne_eq, List.dropWhile_eq_nil_iff, ← words_eq_nil_iff]
  have hmem : ' ' ∈ keyword buffer := by
    rw [hall]
    refine List.mem_of_getLast? ?_
    rw [← hlast]
    have hsuffix : buffer.takeWhile isSpace ++ buffer.dropWhile isSpace = buffer :=
      List.takeWhile_append_dropWhile
    conv_rhs => rw [← hsuffix]
    rw [List.getLast?_append_of_ne_nil _ hne]
  exact absurd (not_isSpace_of_mem_keyword ' ' hmem) (by decide)

/-- The text of a line comes to an instruction that has begun, or begins one. -/
theorem Follows.words_append (h : Follows buffer begun)
    (hapart : ∀ t ∈ begun, Apart t line) :
    words (buffer ++ line) = words (begun.getD [] ++ line) := by
  cases h with
  | start => rfl
  | begun blank words_eq _ =>
      have hbuffer : words (buffer ++ line) = words buffer ++ words line :=
        words_append_of_last (fun c hc => by
          rw [blank] at hc
          cases hc
          decide) line
      rw [hbuffer, words_eq, Option.getD_some]
      rcases hapart _ rfl with hlast | hhead
      · rw [words_append_of_last hlast]
      · rw [words_append_of_head hhead]

theorem Follows.separated_append (h : Follows buffer begun)
    (hline : words (begun.getD []) = [] → Separated line) : Separated (buffer ++ line) := by
  cases h with
  | start => exact hline rfl
  | @begun _ text blank words_eq separated =>
      by_cases hwords : words text = []
      · rw [Separated.append_left (words_eq_nil_iff.mp (words_eq.trans hwords))]
        exact hline hwords
      · exact separated.append (afterKeyword_ne_nil blank (words_eq ▸ hwords)) line

/-- A line that is not continued ends its instruction. -/
theorem Follows.alike (h : Follows buffer begun) (hapart : ∀ t ∈ begun, Apart t line)
    (hline : words (begun.getD []) = [] → Separated line) :
    Alike (strip (buffer ++ rstrip line)) (begun.getD [] ++ line) where
  words_eq := by rw [words_strip, words_append_rstrip, h.words_append hapart]
  separated := (h.separated_append fun hblank => (hline hblank).rstrip).strip
  stripped := stripOf_stripOf isSpace _

/-- A blank stands in the buffer where the backslash was. -/
theorem Follows.append (h : Follows buffer begun) (hapart : ∀ t ∈ begun, Apart t text)
    (htext : words (begun.getD []) = [] → Separated text) :
    Follows (buffer ++ text ++ [' ']) (some (begun.getD [] ++ text)) := by
  refine .begun List.getLast?_concat ?_ (h.separated_append htext).append_blank
  have hblank : ∀ c ∈ [' '].head?, isSpace c = true := fun c hc => by
    cases hc
    decide
  have hnil : words [' '] = [] := by decide
  rw [words_append_of_head hblank, hnil, List.append_nil, h.words_append hapart]

theorem Joinable.cons {lines : List Str} (h : Joinable begun (line :: lines))
    (hskip : ¬ (ignored line = true ∧ begun = none)) :
    ignored line = false ∧ (∀ t ∈ begun, Apart t (lineText line)) ∧
      (words (begun.getD []) = [] → Separated (lineText line)) ∧
      Joinable ((continued line).map (begun.getD [] ++ ·)) lines := by
  cases begun with
  | none =>
      have hline : ¬ ignored line = true := fun hline => hskip ⟨hline, rfl⟩
      rw [Joinable, if_neg hline] at h
      refine ⟨Bool.not_eq_true _ ▸ hline, by simp, fun _ => h.1, ?_⟩
      rw [Option.getD_none, show ([] ++ · : Str → Str) = id from rfl, Option.map_id]
      exact h.2
  | some text =>
      obtain ⟨hline, hapart, hblank, hrest⟩ := h
      refine ⟨hline, fun t ht => ?_, hblank, hrest⟩
      obtain rfl : text = t := Option.some.inj ht
      exact hapart

/-- By induction on the lines: the buffer and Docker's text have the same words. -/
theorem logicalLinesGo_alike : ∀ (lines : List Str) {buffer : Str} {begun : Option Str},
    Follows buffer begun → Joinable begun lines →
      List.Forall₂ Alike (logicalLinesGo buffer lines) (joinLines begun lines)
  | [], _, _, .start, _ => .nil
  | [], buffer, some text, .begun blank words_eq separated, _ => by
      rw [logicalLinesGo, if_neg (ne_nil_of_getLast? blank), joinLines]
      exact .cons ⟨by rw [words_strip, words_eq], separated.strip, stripOf_stripOf isSpace _⟩ .nil
  | line :: lines, buffer, begun, hfollows, hjoin => by
      have hignored := ignored_strip_rstrip line
      by_cases hskip : ignored line = true ∧ begun = none
      · obtain ⟨hline, rfl⟩ := hskip
        cases hfollows
        rw [Joinable, if_pos hline] at hjoin
        rw [logicalLinesGo, if_pos ⟨rfl, hignored.mpr hline⟩, joinLines, if_pos hline]
        exact logicalLinesGo_alike lines .start hjoin
      · obtain ⟨hline, hapart, hblank, hrest⟩ := hjoin.cons hskip
        have hkept : ¬ (buffer = [] ∧ (strip (rstrip line) = [] ∨
            (strip (rstrip line)).head? = some '#')) := by
          rintro ⟨-, hdropped⟩
          exact absurd (hignored.mp hdropped) (ne_true_of_eq_false hline)
        rw [logicalLinesGo, if_neg hkept, joinLines, hline, if_neg Bool.false_ne_true]
        by_cases hend : (rstrip line).getLast? = some '\\'
        · have hcontinued : continued line = some (rstrip line).dropLast := if_pos hend
          rw [lineText, hcontinued, Option.getD_some] at hapart hblank
          rw [hcontinued, Option.map_some] at hrest
          rw [if_pos hend, hcontinued]
          exact logicalLinesGo_alike lines (hfollows.append hapart hblank) hrest
        · have hcontinued : continued line = none := if_neg hend
          rw [lineText, hcontinued, Option.getD_none] at hapart hblank
          rw [hcontinued, Option.map_none] at hrest
          rw [if_neg hend, hcontinued]
          exact .cons (hfollows.alike hapart hblank) (logicalLinesGo_alike lines .start hrest)

end Joined

section Sources

variable {repr : Str → Str} {dockerfile line instruction : Str} {dependencies result : List Str}

theorem toUpper_of_isSpace {c : Char} (h : isSpace c = true) : c.toUpper = c := by
  have hlow : ¬ (c.val ≥ 'a'.val ∧ c.val ≤ 'z'.val) := by
    rintro ⟨hge, hle⟩
    have hge' : 97 ≤ c.toNat := hge
    have hle' : c.toNat ≤ 122 := hle
    simp only [isSpace, Bool.or_eq_true, Bool.and_eq_true, decide_eq_true_eq, beq_iff_eq] at h
    omega
  exact dif_neg hlow

/-- The name of an instruction has no white space. -/
theorem not_isSpace_of_upper {s : Str} (h : upper s = "COPY") : ∀ c ∈ s, isSpace c = false := by
  intro c hc
  by_contra hspace
  have hspace : isSpace c = true := by simpa using hspace
  have hmem : c ∈ upper s := by
    rw [← toUpper_of_isSpace hspace]
    exact List.mem_map_of_mem hc
  rw [h] at hmem
  have hletters : ∀ d ∈ "COPY".toList, isSpace d = false := by decide
  rw [hletters c hmem] at hspace
  cases hspace

theorem partition_eq (line : Str) : line = (partition line).1 ∧ (partition line).2 = [] ∨
    line = (partition line).1 ++ ' ' :: (partition line).2 := by
  have hline : line.takeWhile (· ≠ ' ') ++ line.dropWhile (· ≠ ' ') = line :=
    List.takeWhile_append_dropWhile
  have hnot := List.head?_dropWhile_not (fun c : Char => decide (c ≠ ' ')) line
  cases hdrop : line.dropWhile (· ≠ ' ') with
  | nil =>
      rw [hdrop, List.append_nil] at hline
      exact Or.inl ⟨hline.symm, by rw [partition, hdrop]; rfl⟩
  | cons c rest =>
      rw [hdrop] at hnot
      obtain rfl : c = ' ' := by simpa using hnot
      refine Or.inr ?_
      rw [partition, hdrop]
      exact (hdrop ▸ hline).symm

/-- The words of a `COPY` instruction, as its line is cut. -/
theorem words_of_partition (h : upper (partition line).1 = "COPY") :
    words line = (partition line).1 :: words (partition line).2 := by
  have hne : (partition line).1 ≠ [] := by
    intro hnil
    rw [hnil] at h
    exact absurd h (by decide)
  have hwords := words_of_forall_not hne (not_isSpace_of_upper h)
  rcases partition_eq line with ⟨hline, hrest⟩ | hline
  · rw [hrest]
    conv_lhs => rw [hline]
    exact hwords
  · conv_lhs => rw [hline]
    rw [words_append_cons (by decide), hwords]
    rfl

/-- The name of a `COPY` instruction is cut off, since a blank stands behind it. -/
theorem Alike.partition (h : Alike line instruction) (hcopy : upper (keyword line) = "COPY") :
    (partition line).1 = keyword line := by
  have hhead := stripOf_head? isSpace line
  rw [show stripOf isSpace line = strip line from rfl, h.stripped] at hhead
  have hdrop : line.dropWhile isSpace = line := by
    cases line with
    | nil => rfl
    | cons c rest => rw [List.dropWhile_cons_of_neg (by rw [hhead c rfl]; exact Bool.false_ne_true)]
  have hline : keyword line ++ afterKeyword line = line :=
    (keyword_append_afterKeyword line).trans hdrop
  have hkeyword : ∀ c ∈ keyword line, decide (c ≠ ' ') = true := by
    intro c hc
    refine decide_eq_true ?_
    rintro rfl
    exact absurd (not_isSpace_of_mem_keyword ' ' hc) (by decide)
  rw [BaseImages.partition]
  conv_lhs => rw [← hline]
  rw [List.takeWhile_append_of_pos hkeyword]
  cases hafter : afterKeyword line with
  | nil => simp
  | cons c rest =>
      obtain rfl : c = ' ' := h.separated hcopy c (by rw [hafter]; rfl)
      simp

theorem filter_of_dropWhile {p : Str → Bool} {l : List Str}
    (h : ∀ word ∈ l.dropWhile p, p word = false) :
    l.filter p = l.takeWhile p ∧ l.filter (! p ·) = l.dropWhile p := by
  have htake : ∀ word ∈ l.takeWhile p, p word = true := fun word hword =>
    List.mem_takeWhile_imp hword
  have hl : l.takeWhile p ++ l.dropWhile p = l := List.takeWhile_append_dropWhile
  constructor
  · conv_lhs => rw [← hl]
    rw [List.filter_append, List.filter_eq_self.mpr htake,
      List.filter_eq_nil_iff.mpr fun word hword => by simp [h word hword], List.append_nil]
  · conv_lhs => rw [← hl]
    rw [List.filter_append, List.filter_eq_nil_iff.mpr fun word hword => by simp [htake word hword],
      List.filter_eq_self.mpr fun word hword => by simp [h word hword], List.nil_append]

theorem localSources_of_ne (h : Alike line instruction)
    (hcopy : upper (partition line).1 ≠ "COPY") : localSources instruction = [] := by
  rw [localSources, ← h.words_eq]
  by_cases hwords : words line = []
  · rw [hwords]
  · rw [words_eq_keyword_cons hwords]
    exact if_pos (Or.inl fun hname => hcopy (by rw [h.partition hname, hname]))

theorem parseLine_of_ne (hcopy : upper (partition line).1 ≠ "COPY")
    (hparse : parseLine repr dockerfile dependencies line = .ok result) :
    result = dependencies := by
  rw [parseLine] at hparse
  by_cases hadd : upper (partition line).1 = "ADD"
  · rw [if_pos hadd] at hparse
    cases hparse
  rw [if_neg hadd] at hparse
  by_cases hrun : upper (partition line).1 = "RUN" ∧ "--mount".toList <:+: (partition line).2
  · rw [if_pos hrun] at hparse
    cases hparse
  rw [if_neg hrun, if_pos hcopy] at hparse
  exact (Except.ok.inj hparse).symm

/-- A `COPY` instruction that is accepted has one source, or copies from somewhere else. -/
theorem parseLine_of_copy (h : Alike line instruction) (hoptions : OptionsFirst instruction)
    (hcopy : upper (partition line).1 = "COPY")
    (hparse : parseLine repr dockerfile dependencies line = .ok result) :
    result = dependencies ++ localSources instruction := by
  have hwords := (h.words_eq.symm).trans (words_of_partition hcopy)
  have hkeyword := words_eq_keyword_cons (hwords ▸ List.cons_ne_nil _ _)
  rw [hwords, List.cons.injEq] at hkeyword
  rw [OptionsFirst, ← hkeyword.1, hwords, List.tail_cons] at hoptions
  obtain ⟨hflags, hpaths⟩ := filter_of_dropWhile (hoptions hcopy)
  rw [parseLine, hcopy, if_neg (by decide), if_neg fun hrun => absurd hrun.1 (by decide),
    if_neg (fun hne => hne rfl)] at hparse
  simp only [hflags, hpaths] at hparse
  rw [localSources, hwords]
  simp only [hcopy, ne_eq, not_true_eq_false, false_or]
  by_cases hfrom : ((words (partition line).2).takeWhile isFlag).any isFrom = true
  · rw [if_pos hfrom] at hparse ⊢
    rw [List.append_nil]
    exact (Except.ok.inj hparse).symm
  rw [if_neg hfrom] at hparse ⊢
  by_cases hexec : (((words (partition line).2).dropWhile isFlag).head?.any
      ("[".toList.isPrefixOf ·)) = true
  · rw [if_pos hexec] at hparse
    cases hparse
  rw [if_neg hexec] at hparse ⊢
  cases hfiles : (words (partition line).2).dropWhile isFlag with
  | nil =>
      rw [hfiles] at hparse
      cases hparse
  | cons source rest =>
      match rest with
      | [] =>
          rw [hfiles] at hparse
          cases hparse
      | [destination] =>
          rw [hfiles] at hparse
          exact (Except.ok.inj hparse).symm
      | _ :: _ :: _ =>
          rw [hfiles] at hparse
          cases hparse

theorem parseLine_eq (h : Alike line instruction) (hoptions : OptionsFirst instruction)
    (hparse : parseLine repr dockerfile dependencies line = .ok result) :
    result = dependencies ++ localSources instruction := by
  by_cases hcopy : upper (partition line).1 = "COPY"
  · exact parseLine_of_copy h hoptions hcopy hparse
  · rw [localSources_of_ne h hcopy, List.append_nil]
    exact parseLine_of_ne hcopy hparse

/-- By induction on the instructions: the sources are collected in their order. -/
theorem foldlM_parseLine {lines instructions : List Str} (h : List.Forall₂ Alike lines instructions)
    (hoptions : ∀ instruction ∈ instructions, OptionsFirst instruction)
    (hparse : lines.foldlM (parseLine repr dockerfile) dependencies = .ok result) :
    result = dependencies ++ instructions.flatMap localSources := by
  induction h generalizing dependencies with
  | nil =>
      rw [List.flatMap_nil, List.append_nil]
      exact (Except.ok.inj hparse).symm
  | cons head _ ih =>
      rw [List.forall_mem_cons] at hoptions
      rw [List.foldlM_cons, Raised.bind_eq_ok] at hparse
      obtain ⟨collected, hhead, hrest⟩ := hparse
      rw [ih hoptions.2 hrest, parseLine_eq head hoptions.1 hhead, List.flatMap_cons,
        List.append_assoc]

end Sources

end BaseImages
end SystemTests
