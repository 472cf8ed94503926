import SystemTests.Foundation.Text

/-!
# Reading JSON

The reader takes a value from the front of a text.  A number stays the text that
was read; a string is the list of its code points, where two escapes that are a
surrogate pair are one code point.  A value ends at its last character, only a
number ends where no character of a number follows.

**Results.**
* `codeUnits_append`, `parseNumber_append`, `parse_append`: a value is read in the
  same way when more text follows.
* `jsonLoad_unfinished`: no proper prefix of an object's text can be loaded.
-/

namespace Foundation

open Text

inductive Json where
  | null
  | bool (b : Bool)
  | number (literal : Str)
  | string (codePoints : List Nat)
  | array (elements : List Json)
  | object (members : List (List Nat × Json))

namespace Json

def isWhitespace (c : Char) : Bool := c = ' ' || c = '\t' || c = '\n' || c = '\r'

def skipWhitespace (s : Str) : Str := s.dropWhile isWhitespace

def hexValue (c : Char) : Option Nat :=
  if '0' ≤ c && c ≤ '9' then some (c.toNat - '0'.toNat)
  else if 'a' ≤ c && c ≤ 'f' then some (c.toNat - 'a'.toNat + 10)
  else if 'A' ≤ c && c ≤ 'F' then some (c.toNat - 'A'.toNat + 10)
  else none

/-- The number of four hexadecimal digits. -/
def hexUnit (a b c d : Char) : Option Nat := do
  let a ← hexValue a
  let b ← hexValue b
  let c ← hexValue c
  let d ← hexValue d
  return ((a * 16 + b) * 16 + c) * 16 + d

def unescape : Char → Option Nat
  | '"' => some 0x22
  | '\\' => some 0x5C
  | '/' => some 0x2F
  | 'b' => some 0x08
  | 'f' => some 0x0C
  | 'n' => some 0x0A
  | 'r' => some 0x0D
  | 't' => some 0x09
  | _ => none

/-- What follows the opening quote of a string, up to its closing quote. -/
def codeUnits : Str → Option (List Nat × Str)
  | [] => none
  | '"' :: s => some ([], s)
  | '\\' :: 'u' :: a :: b :: c :: d :: s => do
      let u ← hexUnit a b c d
      let (us, rest) ← codeUnits s
      return (u :: us, rest)
  | '\\' :: e :: s => do
      let u ← unescape e
      let (us, rest) ← codeUnits s
      return (u :: us, rest)
  | c :: s =>
      if c = '\\' || c.toNat < 0x20 then none
      else do
        let (us, rest) ← codeUnits s
        return (c.toNat :: us, rest)

def joinSurrogates : List Nat → List Nat
  | [] => []
  | [u] => [u]
  | u :: v :: us =>
      if 0xD800 ≤ u && u < 0xDC00 && 0xDC00 ≤ v && v < 0xE000 then
        (0x10000 + (u - 0xD800) * 0x400 + (v - 0xDC00)) :: joinSurrogates us
      else u :: joinSurrogates (v :: us)

def parseString (s : Str) : Option (List Nat × Str) :=
  (codeUnits s).map fun p => (joinSurrogates p.1, p.2)

def isExponent : Str → Bool
  | [] => true
  | c :: s =>
      (c = 'e' || c = 'E') &&
        (let digits := if s.head? = some '+' || s.head? = some '-' then s.tail else s
         !digits.isEmpty && digits.all Char.isDigit)

def isFraction (s : Str) : Bool :=
  match s with
  | '.' :: s => !(s.takeWhile Char.isDigit).isEmpty && isExponent (s.dropWhile Char.isDigit)
  | s => isExponent s

/-- `-?(?:0|[1-9]\d*)(\.\d+)?([eE][-+]?\d+)?` -/
def isNumber (s : Str) : Bool :=
  let s := if s.head? = some '-' then s.tail else s
  let digits := s.takeWhile Char.isDigit
  (digits = ['0'] || (!digits.isEmpty && digits.head? ≠ some '0')) &&
    isFraction (s.dropWhile Char.isDigit)

def isNumberChar (c : Char) : Bool :=
  c.isDigit || c = '+' || c = '-' || c = '.' || c = 'e' || c = 'E'

def parseNumber (s : Str) : Option (Json × Str) :=
  if isNumber (s.takeWhile isNumberChar) then
    some (.number (s.takeWhile isNumberChar), s.dropWhile isNumberChar)
  else none

def parseLiteral : Str → Option (Json × Str)
  | 'n' :: 'u' :: 'l' :: 'l' :: s => some (.null, s)
  | 't' :: 'r' :: 'u' :: 'e' :: s => some (.bool true, s)
  | 'f' :: 'a' :: 'l' :: 's' :: 'e' :: s => some (.bool false, s)
  | 'N' :: 'a' :: 'N' :: s => some (.number "NaN", s)
  | 'I' :: 'n' :: 'f' :: 'i' :: 'n' :: 'i' :: 't' :: 'y' :: s => some (.number "Infinity", s)
  | '-' :: 'I' :: 'n' :: 'f' :: 'i' :: 'n' :: 'i' :: 't' :: 'y' :: s =>
      some (.number "-Infinity", s)
  | _ => none

mutual

/-- The value at the front of a text, with a bound on its depth and width. -/
def parseValue : Nat → Str → Option (Json × Str)
  | 0, _ => none
  | n + 1, s =>
      match s with
      | '"' :: s => (parseString s).map fun p => (.string p.1, p.2)
      | '{' :: s =>
          if (skipWhitespace s).head? = some '}' then some (.object [], (skipWhitespace s).tail)
          else (parseMembers n (skipWhitespace s)).map fun p => (.object p.1, p.2)
      | '[' :: s =>
          if (skipWhitespace s).head? = some ']' then some (.array [], (skipWhitespace s).tail)
          else (parseElements n (skipWhitespace s)).map fun p => (.array p.1, p.2)
      | s => (parseNumber s).or (parseLiteral s)

/-- The members of an object, up to its closing brace. -/
def parseMembers : Nat → Str → Option (List (List Nat × Json) × Str)
  | 0, _ => none
  | n + 1, s =>
      match s with
      | '"' :: s =>
          match parseString s with
          | none => none
          | some (key, s) =>
              match skipWhitespace s with
              | ':' :: s =>
                  match parseValue n (skipWhitespace s) with
                  | none => none
                  | some (value, s) =>
                      match skipWhitespace s with
                      | '}' :: rest => some ([(key, value)], rest)
                      | ',' :: s =>
                          (parseMembers n (skipWhitespace s)).map fun p =>
                            ((key, value) :: p.1, p.2)
                      | _ => none
              | _ => none
      | _ => none

/-- The elements of an array, up to its closing bracket. -/
def parseElements : Nat → Str → Option (List Json × Str)
  | 0, _ => none
  | n + 1, s =>
      match parseValue n s with
      | none => none
      | some (value, s) =>
          match skipWhitespace s with
          | ']' :: rest => some ([value], rest)
          | ',' :: s =>
              (parseElements n (skipWhitespace s)).map fun p => (value :: p.1, p.2)
          | _ => none

end

/-- `json.loads`, `none` for a `JSONDecodeError`. -/
def jsonLoad (s : Str) : Option Json :=
  match parseValue (2 * s.length + 2) (skipWhitespace s) with
  | some (value, rest) => if skipWhitespace rest = [] then some value else none
  | none => none

section Append

variable (more : Str)

theorem takeWhile_append_of_dropWhile {p : Char → Bool} {s : Str} (h : s.dropWhile p ≠ []) :
    (s ++ more).takeWhile p = s.takeWhile p ∧ (s ++ more).dropWhile p = s.dropWhile p ++ more := by
  induction s with
  | nil => exact absurd rfl h
  | cons c s ih =>
      by_cases hc : p c = true
      · rw [List.dropWhile_cons_of_pos hc] at h
        simp only [List.cons_append, List.takeWhile_cons_of_pos hc, List.dropWhile_cons_of_pos hc]
        exact ⟨by rw [(ih h).1], (ih h).2⟩
      · simp [hc]

theorem skipWhitespace_append {s : Str} (h : skipWhitespace s ≠ []) :
    skipWhitespace (s ++ more) = skipWhitespace s ++ more :=
  (takeWhile_append_of_dropWhile more h).2

/-- A string that is closed is read in the same way when more text follows. -/
theorem codeUnits_append (s : Str) :
    ∀ {us : List Nat} {rest : Str}, codeUnits s = some (us, rest) →
      codeUnits (s ++ more) = some (us, rest ++ more) := by
  fun_induction codeUnits s with
  | case1 => intro us rest h; cases h
  | case2 s =>
      intro us rest h
      cases h
      rfl
  | case3 a b c d s ih =>
      intro us rest h
      simp only [Option.bind_eq_bind, Option.bind_eq_some_iff, Option.pure_def, Prod.exists,
        Option.some.injEq, Prod.mk.injEq] at h
      obtain ⟨u, hu, vs, r, hvs, rfl, rfl⟩ := h
      simp [codeUnits, hu, ih hvs]
  | case4 e s hu ih =>
      intro us rest h
      simp only [Option.bind_eq_bind, Option.bind_eq_some_iff, Option.pure_def, Prod.exists,
        Option.some.injEq, Prod.mk.injEq] at h
      obtain ⟨u, hu, vs, r, hvs, rfl, rfl⟩ := h
      have hne : e ≠ 'u' := by
        rintro rfl
        cases hu
      rw [List.cons_append, List.cons_append, codeUnits]
      · simp [hu, ih hvs]
      · intro a b c d s' heq
        exact absurd heq hne
  | case5 c s hquote hescape hbad =>
      intro us rest h
      cases h
  | case6 c s hquote hescape hunicode hgood ih =>
      intro us rest h
      simp only [Option.bind_eq_bind, Option.bind_eq_some_iff, Option.pure_def, Prod.exists,
        Option.some.injEq, Prod.mk.injEq] at h
      obtain ⟨vs, r, hvs, rfl, rfl⟩ := h
      have hc : c ≠ '\\' := by
        rintro rfl
        simp at hgood
      rw [List.cons_append, codeUnits]
      · simp [hgood, ih hvs]
      · exact hquote
      · exact fun _ _ _ _ _ heq _ => hc heq
      · exact fun _ _ heq _ => hc heq

theorem parseString_append {s : Str} {us : List Nat} {rest : Str}
    (h : parseString s = some (us, rest)) : parseString (s ++ more) = some (us, rest ++ more) := by
  simp only [parseString, Option.map_eq_some_iff, Prod.exists, Prod.mk.injEq] at h ⊢
  obtain ⟨vs, r, hvs, rfl, rfl⟩ := h
  exact ⟨vs, r ++ more, codeUnits_append more s hvs, rfl, rfl⟩

theorem parseNumber_append {s : Str} {v : Json} {rest : Str} (h : parseNumber s = some (v, rest))
    (hrest : rest ≠ []) : parseNumber (s ++ more) = some (v, rest ++ more) := by
  unfold parseNumber at h ⊢
  split_ifs at h with hnumber
  cases h
  obtain ⟨htake, hdrop⟩ := takeWhile_append_of_dropWhile more hrest
  rw [htake, hdrop, if_pos hnumber]

/-- A literal is read in the same way when more text follows, and not as a number. -/
theorem parseLiteral_append {s : Str} {v : Json} {rest : Str}
    (h : parseLiteral s = some (v, rest)) :
    parseLiteral (s ++ more) = some (v, rest ++ more) ∧ parseNumber (s ++ more) = none := by
  unfold parseLiteral at h
  split at h
  · cases h
    exact ⟨rfl, rfl⟩
  · cases h
    exact ⟨rfl, rfl⟩
  · cases h
    exact ⟨rfl, rfl⟩
  · cases h
    exact ⟨rfl, rfl⟩
  · cases h
    exact ⟨rfl, rfl⟩
  · cases h
    exact ⟨rfl, rfl⟩
  · cases h

theorem parseScalar_append {s : Str} {v : Json} {rest : Str}
    (h : (parseNumber s).or (parseLiteral s) = some (v, rest)) (hrest : rest ≠ []) :
    (parseNumber (s ++ more)).or (parseLiteral (s ++ more)) = some (v, rest ++ more) := by
  rcases Option.or_eq_some_iff.mp h with hnumber | ⟨-, hliteral⟩
  · rw [parseNumber_append more hnumber hrest, Option.some_or]
  · obtain ⟨hl, hn⟩ := parseLiteral_append more hliteral
    rw [hn, Option.none_or, hl]

theorem parseValue_scalar {n : Nat} {c : Char} {s : Str} (hc : c ≠ '"' ∧ c ≠ '{' ∧ c ≠ '[') :
    parseValue (n + 1) (c :: s) = (parseNumber (c :: s)).or (parseLiteral (c :: s)) := by
  rw [parseValue]
  · exact fun _ heq => hc.1 (List.cons.inj heq).1
  · exact fun _ heq => hc.2.1 (List.cons.inj heq).1
  · exact fun _ heq => hc.2.2 (List.cons.inj heq).1

/-- What is read with `n` is read with `m` when more text follows. -/
structure Extends (n m : Nat) : Prop where
  value : ∀ {s : Str} {v : Json} {rest : Str}, parseValue n s = some (v, rest) →
    (rest ≠ [] ∨ ∃ members, v = .object members) →
    parseValue m (s ++ more) = some (v, rest ++ more)
  members : ∀ {s : Str} {ms : List (List Nat × Json)} {rest : Str},
    parseMembers n s = some (ms, rest) → parseMembers m (s ++ more) = some (ms, rest ++ more)
  elements : ∀ {s : Str} {vs : List Json} {rest : Str},
    parseElements n s = some (vs, rest) → parseElements m (s ++ more) = some (vs, rest ++ more)

variable {more}

theorem skipWhitespace_append_of_cons {s t : Str} {c : Char} (h : skipWhitespace s = c :: t) :
    skipWhitespace (s ++ more) = c :: (t ++ more) := by
  rw [skipWhitespace_append more (by rw [h]; simp), h, List.cons_append]

theorem ne_nil_of_skipWhitespace {s t : Str} {c : Char} (h : skipWhitespace s = c :: t) :
    s ≠ [] := by
  rintro rfl
  cases h

theorem Extends.parseValue_succ {n m : Nat} (ih : Extends more n m) {s : Str} {v : Json}
    {rest : Str} (h : parseValue (n + 1) s = some (v, rest))
    (hrest : rest ≠ [] ∨ ∃ members, v = .object members) :
    parseValue (m + 1) (s ++ more) = some (v, rest ++ more) := by
  cases s with
  | nil => cases h
  | cons c s =>
      by_cases hc : c ≠ '"' ∧ c ≠ '{' ∧ c ≠ '['
      · rw [parseValue_scalar hc] at h
        rw [List.cons_append, parseValue_scalar hc, ← List.cons_append]
        rcases hrest with hrest | ⟨members, rfl⟩
        · exact parseScalar_append more h hrest
        · rcases Option.or_eq_some_iff.mp h with hnumber | ⟨-, hliteral⟩
          · unfold parseNumber at hnumber
            split_ifs at hnumber
            cases hnumber
          · unfold parseLiteral at hliteral
            split at hliteral <;> cases hliteral
      · obtain rfl | rfl | rfl : c = '"' ∨ c = '{' ∨ c = '[' := by tauto
        · simp only [parseValue, List.cons_append, Option.map_eq_some_iff, Prod.exists,
            Prod.mk.injEq] at h ⊢
          obtain ⟨us, r, hus, rfl, rfl⟩ := h
          exact ⟨us, _, parseString_append more hus, rfl, rfl⟩
        · simp only [parseValue, List.cons_append] at h ⊢
          cases hs : skipWhitespace s with
          | nil =>
              rw [hs] at h
              cases n <;> cases h
          | cons c t =>
              rw [hs, List.head?_cons, List.tail_cons] at h
              rw [skipWhitespace_append_of_cons hs, List.head?_cons, List.tail_cons]
              split_ifs at h ⊢
              · cases h
                rfl
              · simp only [Option.map_eq_some_iff, Prod.exists, Prod.mk.injEq] at h ⊢
                obtain ⟨ms, r, hms, rfl, rfl⟩ := h
                exact ⟨ms, _, ih.members hms, rfl, rfl⟩
        · simp only [parseValue, List.cons_append] at h ⊢
          cases hs : skipWhitespace s with
          | nil =>
              rw [hs] at h
              cases n with
              | zero => cases h
              | succ n => cases n <;> cases h
          | cons c t =>
              rw [hs, List.head?_cons, List.tail_cons] at h
              rw [skipWhitespace_append_of_cons hs, List.head?_cons, List.tail_cons]
              split_ifs at h ⊢
              · cases h
                rfl
              · simp only [Option.map_eq_some_iff, Prod.exists, Prod.mk.injEq] at h ⊢
                obtain ⟨vs, r, hvs, rfl, rfl⟩ := h
                exact ⟨vs, _, ih.elements hvs, rfl, rfl⟩

theorem Extends.parseElements_succ {n m : Nat} (ih : Extends more n m) {s : Str} {vs : List Json}
    {rest : Str} (h : parseElements (n + 1) s = some (vs, rest)) :
    parseElements (m + 1) (s ++ more) = some (vs, rest ++ more) := by
  simp only [parseElements] at h ⊢
  split at h
  · cases h
  · rename_i v t hv
    split at h
    · rename_i r hs
      rw [ih.value hv (Or.inl (ne_nil_of_skipWhitespace hs))]
      cases h
      simp only [skipWhitespace_append_of_cons hs]
    · rename_i t' hs
      rw [ih.value hv (Or.inl (ne_nil_of_skipWhitespace hs))]
      simp only [skipWhitespace_append_of_cons hs, Option.map_eq_some_iff, Prod.exists,
        Prod.mk.injEq] at h ⊢
      obtain ⟨ws, r, hws, rfl, rfl⟩ := h
      refine ⟨ws, _, ?_, rfl, rfl⟩
      cases hs' : skipWhitespace t' with
      | nil =>
          rw [hs'] at hws
          cases n with
          | zero => cases hws
          | succ n => cases n <;> cases hws
      | cons c u =>
          rw [skipWhitespace_append_of_cons hs', ← List.cons_append, ← hs']
          exact ih.elements hws
    · cases h

theorem Extends.parseMembers_succ {n m : Nat} (ih : Extends more n m) {s : Str}
    {ms : List (List Nat × Json)} {rest : Str} (h : parseMembers (n + 1) s = some (ms, rest)) :
    parseMembers (m + 1) (s ++ more) = some (ms, rest ++ more) := by
  simp only [parseMembers] at h
  split at h
  · rename_i s
    simp only [parseMembers, List.cons_append]
    split at h
    · cases h
    · rename_i key t hkey
      rw [parseString_append more hkey]
      split at h
      · rename_i t' hcolon
        simp only [skipWhitespace_append_of_cons hcolon]
        split at h
        · cases h
        · rename_i v u hv
          have hvalue : ∀ {c : Char} {w : Str}, skipWhitespace u = c :: w →
              parseValue m (skipWhitespace (t' ++ more)) = some (v, u ++ more) := by
            intro c w hu
            have hext := ih.value hv (Or.inl (ne_nil_of_skipWhitespace hu))
            cases ht' : skipWhitespace t' with
            | nil =>
                rw [ht'] at hv
                cases n <;> cases hv
            | cons d x =>
                rw [ht'] at hext
                rw [skipWhitespace_append_of_cons ht', ← List.cons_append]
                exact hext
          split at h
          · rename_i r hclose
            rw [hvalue hclose]
            cases h
            simp only [skipWhitespace_append_of_cons hclose]
          · rename_i t'' hcomma
            rw [hvalue hcomma]
            simp only [skipWhitespace_append_of_cons hcomma, Option.map_eq_some_iff, Prod.exists,
              Prod.mk.injEq] at h ⊢
            obtain ⟨ns, r, hns, rfl, rfl⟩ := h
            refine ⟨ns, _, ?_, rfl, rfl⟩
            cases ht'' : skipWhitespace t'' with
            | nil =>
                rw [ht''] at hns
                cases n <;> cases hns
            | cons d x =>
                rw [skipWhitespace_append_of_cons ht'', ← List.cons_append, ← ht'']
                exact ih.members hns
          · cases h
      · cases h
  · cases h

/-- A value is read in the same way with a larger bound and more text behind it. -/
theorem parse_append (n : Nat) : ∀ m, n ≤ m → Extends more n m := by
  induction n with
  | zero =>
      intro m _
      constructor
      · intro s v rest h
        cases h
      · intro s ms rest h
        cases h
      · intro s vs rest h
        cases h
  | succ n ih =>
      intro m hm
      obtain ⟨m, rfl⟩ : ∃ k, m = k + 1 := ⟨m - 1, by omega⟩
      have hext := ih m (by omega)
      exact ⟨hext.parseValue_succ, hext.parseMembers_succ, hext.parseElements_succ⟩

end Append

/-- A small bound is enough for a small value. -/
theorem jsonLoad_of_parseValue {n : Nat} {s : Str} {members : List (List Nat × Json)}
    (hn : n ≤ 2 * s.length + 2) (hskip : skipWhitespace s = s)
    (h : parseValue n s = some (.object members, [])) : jsonLoad s = some (.object members) := by
  have hload := (parse_append n _ hn : Extends [] n _).value h (Or.inr ⟨members, rfl⟩)
  rw [List.append_nil, List.append_nil] at hload
  rw [jsonLoad, hskip, hload]
  rfl

theorem exists_object_of_parseValue {n : Nat} {s : Str} {v : Json} {rest : Str}
    (h : parseValue n ('{' :: s) = some (v, rest)) : ∃ members, v = .object members := by
  cases n with
  | zero => cases h
  | succ n =>
      simp only [parseValue] at h
      split_ifs at h
      · cases h
        exact ⟨[], rfl⟩
      · simp only [Option.map_eq_some_iff, Prod.exists, Prod.mk.injEq] at h
        obtain ⟨ms, r, -, rfl, -⟩ := h
        exact ⟨ms, rfl⟩

/-- No proper prefix of the text of an object can be loaded. -/
theorem jsonLoad_unfinished {s more : Str} {v : Json} (h : jsonLoad (s ++ more) = some v)
    (hhead : (s ++ more).head? = some '{') (hlast : ∃ c ∈ more, isWhitespace c = false) :
    jsonLoad s = none := by
  by_contra hload
  obtain ⟨w, hw⟩ := Option.ne_none_iff_exists'.mp hload
  cases s with
  | nil => cases hw
  | cons c s =>
      obtain rfl : c = '{' := by simpa using hhead
      have hskip : ∀ t : Str, skipWhitespace ('{' :: t) = '{' :: t := fun t =>
        List.dropWhile_cons_of_neg (by decide)
      rw [jsonLoad, hskip] at hw
      rw [List.cons_append, jsonLoad, hskip, ← List.cons_append] at h
      split at hw
      · rename_i w' rest hparse
        obtain ⟨members, rfl⟩ := exists_object_of_parseValue hparse
        have hbound : 2 * ('{' :: s).length + 2 ≤ 2 * ('{' :: s ++ more).length + 2 := by
          simp only [List.length_append]
          omega
        rw [(parse_append _ _ hbound).value hparse (Or.inr ⟨members, rfl⟩)] at h
        simp only at h
        split_ifs at h with hrest
        obtain ⟨c, hc, hspace⟩ := hlast
        have hall := List.dropWhile_eq_nil_iff.mp hrest c (List.mem_append_right _ hc)
        rw [hspace] at hall
        cases hall
      · cases hw

end Json
end Foundation
