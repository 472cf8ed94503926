import SystemTests.Foundation.Text

/-!
# Lines and words

**Results.**
* `readLines_unlines`: the lines that were written are read.
* `readLines_eq_linesOf`: a text is read as its lines, unless something else ends a line.
* `words_append_of_isSpace`: white space separates words, wherever it stands.
* `words_eq_keyword_cons`: the first word and the others.
-/

namespace Foundation
namespace Text

/-- A character in front of the first line. -/
def consLine (c : Char) : List Str → List Str
  | [] => [[c]]
  | l :: ls => (c :: l) :: ls

/-- The lines of a text, without the characters that end them. -/
def linesOf (ends : Char → Bool) : Str → List Str
  | [] => []
  | c :: s => if ends c then [] :: linesOf ends s else consLine c (linesOf ends s)

/-- Where `str.splitlines` ends a line. -/
def isLineBoundary (c : Char) : Bool :=
  let n := c.toNat
  (0x0A ≤ n && n ≤ 0x0D) || (0x1C ≤ n && n ≤ 0x1E) || n == 0x85 || n == 0x2028 || n == 0x2029

/-- The newlines of a text, with the knowledge whether a return stands in front of it. -/
def newlinesGo : Bool → Str → Str
  | _, [] => []
  | afterReturn, c :: s =>
      if afterReturn && c = '\n' then newlinesGo false s
      else if c = '\r' then '\n' :: newlinesGo true s
      else c :: newlinesGo false s

/-- `"\r\n"` and `"\r"` are read as `"\n"`. -/
def universalNewlines (s : Str) : Str := newlinesGo false s

/-- `path.read_text().splitlines()` -/
def readLines (content : Str) : List Str := linesOf isLineBoundary (universalNewlines content)

/-- Lines, each with its newline. -/
def unlines (lines : List Str) : Str := lines.flatMap (· ++ ['\n'])

/-- A line without the return in front of its newline. -/
def dropReturn (line : Str) : Str :=
  if line.getLast? = some '\r' then line.dropLast else line

/-- `str.split()` -/
def words : Str → List Str
  | [] => []
  | c :: s =>
      if isSpace c then words s
      else match s with
        | [] => [[c]]
        | d :: _ => if isSpace d then [c] :: words s else consLine c (words s)

/-- What stands in front of the first white space, after that at the start of a text. -/
def keyword (s : Str) : Str := (s.dropWhile isSpace).takeWhile (! isSpace ·)

/-- What stands behind the first word. -/
def afterKeyword (s : Str) : Str := (s.dropWhile isSpace).dropWhile (! isSpace ·)

/-- `str.rstrip` -/
def rstrip (s : Str) : Str := s.rdropWhile isSpace

section Lines

theorem linesOf_cons_of_ends {ends : Char → Bool} {c : Char} (hc : ends c = true) (s : Str) :
    linesOf ends (c :: s) = [] :: linesOf ends s := by
  rw [linesOf, if_pos hc]

theorem linesOf_cons_of_not {ends : Char → Bool} {c : Char} (hc : ends c = false) (s : Str) :
    linesOf ends (c :: s) = consLine c (linesOf ends s) := by
  rw [linesOf, hc, if_neg Bool.false_ne_true]

theorem dropReturn_cons_of_ne {c : Char} (hc : c ≠ '\r') (l : Str) :
    dropReturn (c :: l) = c :: dropReturn l := by
  cases l with
  | nil => simp [dropReturn, hc]
  | cons d l =>
      rw [dropReturn, dropReturn, List.getLast?_cons_cons, List.dropLast_cons_cons]
      split_ifs <;> rfl

theorem dropReturn_return_cons {d : Char} (l : Str) :
    dropReturn ('\r' :: d :: l) = '\r' :: dropReturn (d :: l) := by
  rw [dropReturn, dropReturn, List.getLast?_cons_cons, List.dropLast_cons_cons]
  split_ifs <;> rfl

theorem map_consLine {c : Char} (hc : c ≠ '\r') (ls : List Str) :
    (consLine c ls).map dropReturn = consLine c (ls.map dropReturn) := by
  cases ls with
  | nil => simp [consLine, dropReturn, hc]
  | cons l ls => rw [consLine, List.map_cons, dropReturn_cons_of_ne hc, List.map_cons, consLine]

theorem forall_consLine {c : Char} {ls : List Str} {p : Char → Prop}
    (h : ∀ l ∈ consLine c ls, ∀ x ∈ l, p x) : p c ∧ ∀ l ∈ ls, ∀ x ∈ l, p x := by
  cases ls with
  | nil => exact ⟨h [c] (List.mem_singleton.mpr rfl) c (List.mem_singleton.mpr rfl), by simp⟩
  | cons l ls =>
      rw [consLine, List.forall_mem_cons] at h
      refine ⟨h.1 c List.mem_cons_self, List.forall_mem_cons.mpr ⟨fun x hx => ?_, h.2⟩⟩
      exact h.1 x (List.mem_cons_of_mem c hx)

theorem readLines_cons {c : Char} (hnewline : c ≠ '\n') (hreturn : c ≠ '\r')
    (hc : isLineBoundary c = false) (s : Str) : readLines (c :: s) = consLine c (readLines s) := by
  have hgo : universalNewlines (c :: s) = c :: universalNewlines s := by
    simp [universalNewlines, newlinesGo, hnewline, hreturn]
  rw [readLines, hgo, linesOf_cons_of_not hc, readLines]

theorem readLines_append {line : Str} (h : ∀ c ∈ line, isLineBoundary c = false) (s : Str) :
    readLines (line ++ '\n' :: s) = line :: readLines s := by
  induction line with
  | nil => rfl
  | cons c line ih =>
      rw [List.forall_mem_cons] at h
      have hnewline : c ≠ '\n' := by
        rintro rfl
        exact absurd h.1 (by decide)
      have hreturn : c ≠ '\r' := by
        rintro rfl
        exact absurd h.1 (by decide)
      rw [List.cons_append, readLines_cons hnewline hreturn h.1, ih h.2]
      rfl

/-- The lines that were written are read. -/
theorem readLines_unlines {lines : List Str}
    (h : ∀ line ∈ lines, ∀ c ∈ line, isLineBoundary c = false) :
    readLines (unlines lines) = lines := by
  induction lines with
  | nil => rfl
  | cons line lines ih =>
      rw [List.forall_mem_cons] at h
      rw [unlines, List.flatMap_cons, List.append_assoc, List.singleton_append,
        readLines_append h.1, ← unlines, ih h.2]

/--
If no other character ends a line, the lines that are read are those between the newlines.  By
induction on the text; a return and its newline are passed over together.
-/
theorem readLines_eq_linesOf :
    ∀ s : Str, (∀ l ∈ (linesOf (· = '\n') s).map dropReturn, ∀ c ∈ l, isLineBoundary c = false) →
      readLines s = (linesOf (· = '\n') s).map dropReturn
  | [], _ => rfl
  | c :: s, h => by
      by_cases hnewline : c = '\n'
      · subst hnewline
        rw [linesOf_cons_of_ends rfl, List.map_cons, List.forall_mem_cons] at h
        rw [linesOf_cons_of_ends rfl, List.map_cons, ← readLines_eq_linesOf s h.2]
        rfl
      rw [linesOf_cons_of_not (by simpa using hnewline)] at h ⊢
      by_cases hreturn : c = '\r'
      · subst hreturn
        cases s with
        | nil => rfl
        | cons d t =>
            by_cases hd : d = '\n'
            · subst hd
              rw [linesOf_cons_of_ends rfl, consLine, List.map_cons, List.forall_mem_cons] at h
              rw [linesOf_cons_of_ends rfl, consLine, List.map_cons, ← readLines_eq_linesOf t h.2]
              rfl
            · -- a return that no newline follows ends a line of its own
              rw [linesOf_cons_of_not (by simpa using hd)] at h
              obtain ⟨l, ls, hlines⟩ : ∃ l ls, consLine d (linesOf (· = '\n') t) = (d :: l) :: ls := by
                cases linesOf (· = '\n') t <;> exact ⟨_, _, rfl⟩
              rw [hlines, consLine, List.map_cons, dropReturn_return_cons] at h
              have hboundary := h _ List.mem_cons_self '\r' List.mem_cons_self
              exact absurd hboundary (by decide)
      · rw [map_consLine hreturn] at h ⊢
        obtain ⟨hc, hrest⟩ := forall_consLine h
        rw [readLines_cons hnewline hreturn hc, readLines_eq_linesOf s hrest]

end Lines

section Words

theorem words_cons_of_isSpace {c : Char} (hc : isSpace c = true) (s : Str) :
    words (c :: s) = words s := by
  rw [words.eq_def]
  exact if_pos hc

theorem words_cons_cons {c : Char} (hc : isSpace c = false) (d : Char) (s : Str) :
    words (c :: d :: s) =
      if isSpace d then [c] :: words (d :: s) else consLine c (words (d :: s)) := by
  rw [words.eq_def]
  exact if_neg (ne_true_of_eq_false hc)

theorem words_cons_of_not {c : Char} (hc : isSpace c = false) (s : Str) :
    words (c :: s) = keyword (c :: s) :: words (afterKeyword (c :: s)) := by
  have hkeyword : ∀ s : Str, keyword (c :: s) = c :: s.takeWhile (! isSpace ·) := by
    intro s
    simp [keyword, hc]
  have hafter : ∀ s : Str, afterKeyword (c :: s) = s.dropWhile (! isSpace ·) := by
    intro s
    simp [afterKeyword, hc]
  rw [hkeyword, hafter]
  induction s generalizing c with
  | nil => simp [words, hc]
  | cons d s ih =>
      rw [words_cons_cons hc]
      cases hd : isSpace d with
      | true => simp [hd]
      | false =>
          rw [if_neg Bool.false_ne_true, ih hd (by simp [keyword, hd]) (by simp [afterKeyword, hd])]
          simp [consLine, hd]

theorem words_eq_nil_iff {s : Str} : words s = [] ↔ ∀ c ∈ s, isSpace c = true := by
  induction s with
  | nil => simp [words]
  | cons c s ih =>
      cases hc : isSpace c with
      | true => rw [words_cons_of_isSpace hc, ih, List.forall_mem_cons, hc]; simp
      | false => rw [words_cons_of_not hc, List.forall_mem_cons, hc]; simp

/-- The first word and the others. -/
theorem words_eq_keyword_cons {s : Str} (h : words s ≠ []) :
    words s = keyword s :: words (afterKeyword s) := by
  induction s with
  | nil => exact absurd rfl h
  | cons c s ih =>
      cases hc : isSpace c with
      | true =>
          rw [words_cons_of_isSpace hc] at h ⊢
          rw [ih h]
          simp [keyword, afterKeyword, hc]
      | false => exact words_cons_of_not hc s

/-- White space separates words. -/
theorem words_append_cons {c : Char} (hc : isSpace c = true) (t : Str) :
    ∀ s : Str, words (s ++ c :: t) = words s ++ words t
  | [] => words_cons_of_isSpace hc t
  | d :: s => by
      have ih := words_append_cons hc t s
      cases hd : isSpace d with
      | true =>
          rw [List.cons_append, words_cons_of_isSpace hd, words_cons_of_isSpace hd, ih]
      | false =>
          cases s with
          | nil => simp [words, hc, hd]
          | cons e s =>
              rw [List.cons_append] at ih ⊢
              rw [List.cons_append, words_cons_cons hd, words_cons_cons hd]
              cases he : isSpace e with
              | true => simp [ih]
              | false =>
                  rw [if_neg Bool.false_ne_true, if_neg Bool.false_ne_true, ih,
                    words_cons_of_not he]
                  rfl

theorem words_append_of_last {s : Str} (h : ∀ c ∈ s.getLast?, isSpace c = true) (t : Str) :
    words (s ++ t) = words s ++ words t := by
  rcases List.eq_nil_or_concat s with rfl | ⟨init, c, rfl⟩
  · rfl
  · rw [List.concat_eq_append] at h ⊢
    have hc : isSpace c = true := h c (by simp)
    have hnil : words [] = [] := rfl
    rw [List.append_assoc, List.singleton_append, words_append_cons hc, words_append_cons hc, hnil,
      List.append_nil]

theorem words_append_of_head {t : Str} (h : ∀ c ∈ t.head?, isSpace c = true) (s : Str) :
    words (s ++ t) = words s ++ words t := by
  cases t with
  | nil => rw [List.append_nil, words, List.append_nil]
  | cons c t =>
      have hc : isSpace c = true := h c rfl
      rw [words_append_cons hc, words_cons_of_isSpace hc]

theorem words_strip (s : Str) : words (strip s) = words s := by
  obtain ⟨l, r, hs, hl, hr⟩ := exists_stripOf isSpace s
  have hwords : ∀ {t : Str}, (∀ c ∈ t, isSpace c = true) → words t = [] := words_eq_nil_iff.mpr
  conv_rhs => rw [hs]
  rw [words_append_of_head fun c hc => hr c (List.mem_of_head? hc), hwords hr, List.append_nil,
    words_append_of_last fun c hc => hl c (List.mem_of_getLast? hc), hwords hl, List.nil_append]
  rfl

/-- White space at the end does not count. -/
theorem words_append_rstrip (s t : Str) : words (s ++ rstrip t) = words (s ++ t) := by
  have ht : rstrip t ++ t.rtakeWhile isSpace = t := List.rdropWhile_append_rtakeWhile ..
  have hspace : ∀ c ∈ t.rtakeWhile isSpace, isSpace c = true := fun c hc =>
    List.mem_rtakeWhile_imp hc
  conv_rhs => rw [← ht, ← List.append_assoc]
  rw [words_append_of_head fun c hc => hspace c (List.mem_of_head? hc),
    words_eq_nil_iff.mpr hspace, List.append_nil]

theorem words_rstrip (s : Str) : words (rstrip s) = words s :=
  words_append_rstrip [] s

theorem words_of_forall_not {s : Str} (hne : s ≠ []) (h : ∀ c ∈ s, isSpace c = false) :
    words s = [s] := by
  cases s with
  | nil => exact absurd rfl hne
  | cons c s =>
      rw [List.forall_mem_cons] at h
      have hafter : ∀ d ∈ s, (! isSpace d) = true := fun d hd => by rw [h.2 d hd]; rfl
      have hnil : words [] = [] := rfl
      rw [words_cons_of_not h.1, keyword, afterKeyword, List.dropWhile_cons_of_neg (by simp [h.1]),
        List.takeWhile_eq_self_iff.mpr, List.dropWhile_eq_nil_iff.mpr, hnil]
      all_goals exact List.forall_mem_cons.mpr ⟨by rw [h.1]; rfl, hafter⟩

/-- White space in front does not count. -/
theorem dropWhile_append_of_forall {l : Str} (hl : ∀ c ∈ l, isSpace c = true) (s : Str) :
    (l ++ s).dropWhile isSpace = s.dropWhile isSpace :=
  List.dropWhile_append_of_pos hl

theorem keyword_append_left {l : Str} (hl : ∀ c ∈ l, isSpace c = true) (s : Str) :
    keyword (l ++ s) = keyword s := by
  rw [keyword, dropWhile_append_of_forall hl, keyword]

theorem afterKeyword_append_left {l : Str} (hl : ∀ c ∈ l, isSpace c = true) (s : Str) :
    afterKeyword (l ++ s) = afterKeyword s := by
  rw [afterKeyword, dropWhile_append_of_forall hl, afterKeyword]

theorem keyword_append_afterKeyword (s : Str) :
    keyword s ++ afterKeyword s = s.dropWhile isSpace :=
  List.takeWhile_append_dropWhile

theorem head?_afterKeyword (s : Str) : ∀ c ∈ (afterKeyword s).head?, isSpace c = true := by
  intro c hc
  have hnot := List.head?_dropWhile_not (! isSpace ·) (s.dropWhile isSpace)
  rw [afterKeyword] at hc
  rw [Option.mem_def.mp hc] at hnot
  simpa using hnot

theorem not_isSpace_of_mem_keyword {s : Str} : ∀ c ∈ keyword s, isSpace c = false := by
  intro c hc
  simpa using List.mem_takeWhile_imp hc

/-- The first word is found, and what stands behind it goes on. -/
theorem append_of_afterKeyword {s : Str} (h : afterKeyword s ≠ []) (t : Str) :
    keyword (s ++ t) = keyword s ∧ afterKeyword (s ++ t) = afterKeyword s ++ t := by
  have hne : s.dropWhile isSpace ≠ [] := by
    intro hnil
    rw [afterKeyword, hnil] at h
    exact h rfl
  have hdrop : (s ++ t).dropWhile isSpace = s.dropWhile isSpace ++ t := by
    rw [List.dropWhile_append, if_neg (by simpa using hne)]
  have hlength : ((s.dropWhile isSpace).takeWhile (! isSpace ·)).length ≠
      (s.dropWhile isSpace).length := by
    intro hlength
    have hsum := congrArg List.length (keyword_append_afterKeyword s)
    rw [List.length_append, keyword, hlength] at hsum
    exact h (List.eq_nil_of_length_eq_zero (by omega))
  constructor
  · rw [keyword, hdrop, List.takeWhile_append, if_neg hlength, keyword]
  · rw [afterKeyword, hdrop, List.dropWhile_append, if_neg (by simpa [afterKeyword] using h),
      afterKeyword]

end Words

end Text
end Foundation
