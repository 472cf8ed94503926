import SystemTests.Foundation.Json

/-!
# Writing JSON

`json.dumps`, with all characters outside ASCII escaped.  The text between the
elements and behind a colon is white space that a layout tells.

**Results.**
* `parse_dump`: the reader takes back the value that was written.
* `jsonLoad_jsonDump`: what is loaded is what was dumped, up to escaped surrogate pairs.
* `isAscii_jsonDump`: the text is ASCII.
-/

namespace Foundation
namespace Json

open Text

/-- The lower case digit of a number below 16. -/
def hexDigit (n : Nat) : Char :=
  if n < 10 then Char.ofNat (n + 0x30) else Char.ofNat (n - 10 + 0x61)

/-- `'\\u{0:04x}'.format(u)` -/
def unicodeEscape (u : Nat) : Str :=
  ['\\', 'u', hexDigit (u / 0x1000 % 0x10), hexDigit (u / 0x100 % 0x10),
    hexDigit (u / 0x10 % 0x10), hexDigit (u % 0x10)]

/-- A code point outside the basic plane is escaped as a surrogate pair. -/
def escape (u : Nat) : Str :=
  if u = 0x22 then ['\\', '"']
  else if u = 0x5C then ['\\', '\\']
  else if u = 0x0A then ['\\', 'n']
  else if u = 0x0D then ['\\', 'r']
  else if u = 0x09 then ['\\', 't']
  else if u = 0x0C then ['\\', 'f']
  else if u = 0x08 then ['\\', 'b']
  else if 0x20 ≤ u ∧ u < 0x7F then [Char.ofNat u]
  else if u < 0x10000 then unicodeEscape u
  else unicodeEscape (0xD800 + (u - 0x10000) / 0x400) ++
    unicodeEscape (0xDC00 + (u - 0x10000) % 0x400)

def dumpString (codePoints : List Nat) : Str := '"' :: codePoints.flatMap escape ++ ['"']

/-- What stands between the elements at a depth, and behind a colon. -/
structure Layout where
  gap : Nat → Str
  colon : Str
  gap_isWhitespace : ∀ depth, ∀ c ∈ gap depth, isWhitespace c = true
  colon_isWhitespace : ∀ c ∈ colon, isWhitespace c = true

/-- `indent=2` -/
def Layout.indented : Layout where
  gap depth := '\n' :: List.replicate (2 * depth) ' '
  colon := " "
  gap_isWhitespace depth := by
    rw [List.forall_mem_cons]
    refine ⟨rfl, fun c hc => ?_⟩
    rw [List.eq_of_mem_replicate hc]
    rfl
  colon_isWhitespace := by decide

/-- `separators=(",", ":")` -/
def Layout.compact : Layout where
  gap _ := []
  colon := []
  gap_isWhitespace _ := by simp
  colon_isWhitespace := by simp

mutual

def dump (layout : Layout) (depth : Nat) : Json → Str
  | .null => "null"
  | .bool true => "true"
  | .bool false => "false"
  | .number literal => literal
  | .string codePoints => dumpString codePoints
  | .array [] => "[]"
  | .array (v :: vs) =>
      '[' :: (layout.gap (depth + 1) ++ dump layout (depth + 1) v ++
        dumpElements layout (depth + 1) vs ++ layout.gap depth ++ [']'])
  | .object [] => ['{', '}']
  | .object ((key, v) :: members) =>
      '{' :: (layout.gap (depth + 1) ++ dumpString key ++ ':' :: layout.colon ++
        dump layout (depth + 1) v ++ dumpMembers layout (depth + 1) members ++
          layout.gap depth ++ ['}'])

/-- The elements after the first. -/
def dumpElements (layout : Layout) (depth : Nat) : List Json → Str
  | [] => []
  | v :: vs => ',' :: layout.gap depth ++ dump layout depth v ++ dumpElements layout depth vs

def dumpMembers (layout : Layout) (depth : Nat) : List (List Nat × Json) → Str
  | [] => []
  | (key, v) :: members =>
      ',' :: layout.gap depth ++ dumpString key ++ ':' :: layout.colon ++ dump layout depth v ++
        dumpMembers layout depth members

end

/-- `json.dumps` -/
def jsonDump (layout : Layout) (v : Json) : Str := dump layout 0 v

def ValidNumber (literal : Str) : Prop :=
  (isNumber literal = true ∧ ∀ c ∈ literal, isNumberChar c = true) ∨
    literal = "NaN" ∨ literal = "Infinity" ∨ literal = "-Infinity"

def ValidString (codePoints : List Nat) : Prop := ∀ u ∈ codePoints, u < 0x110000

mutual

/-- A value of the language: its strings hold code points, its numbers are numbers. -/
def Valid : Json → Prop
  | .null => True
  | .bool _ => True
  | .number literal => ValidNumber literal
  | .string codePoints => ValidString codePoints
  | .array elements => ValidElements elements
  | .object members => ValidMembers members

def ValidElements : List Json → Prop
  | [] => True
  | v :: vs => Valid v ∧ ValidElements vs

def ValidMembers : List (List Nat × Json) → Prop
  | [] => True
  | (key, v) :: members => ValidString key ∧ Valid v ∧ ValidMembers members

end

mutual

/-- The value with the surrogate pairs of its strings joined. -/
def normalize : Json → Json
  | .null => .null
  | .bool b => .bool b
  | .number literal => .number literal
  | .string codePoints => .string (joinSurrogates codePoints)
  | .array elements => .array (normalizeElements elements)
  | .object members => .object (normalizeMembers members)

def normalizeElements : List Json → List Json
  | [] => []
  | v :: vs => normalize v :: normalizeElements vs

def normalizeMembers : List (List Nat × Json) → List (List Nat × Json)
  | [] => []
  | (key, v) :: members => (joinSurrogates key, normalize v) :: normalizeMembers members

end

section Strings

/-- The code units that a code point is escaped by. -/
def units (u : Nat) : List Nat :=
  if u < 0x10000 then [u] else [0xD800 + (u - 0x10000) / 0x400, 0xDC00 + (u - 0x10000) % 0x400]

theorem hexValue_hexDigit : ∀ n < 0x10, hexValue (hexDigit n) = some n := by
  decide

theorem codeUnits_unicodeEscape {u : Nat} (hu : u < 0x10000) (s : Str) :
    codeUnits (unicodeEscape u ++ s) = (codeUnits s).map fun p => (u :: p.1, p.2) := by
  have hunit : hexUnit (hexDigit (u / 0x1000 % 0x10)) (hexDigit (u / 0x100 % 0x10))
      (hexDigit (u / 0x10 % 0x10)) (hexDigit (u % 0x10)) = some u := by
    simp only [hexUnit, hexValue_hexDigit _ (Nat.mod_lt _ (by decide : 0 < 0x10)),
      Option.bind_eq_bind, Option.bind_some, Option.pure_def, Option.some.injEq]
    omega
  simp only [unicodeEscape, List.cons_append, List.nil_append, codeUnits, hunit,
    Option.bind_eq_bind, Option.bind_some, Option.pure_def]
  rw [Option.map_eq_bind]
  rfl

theorem codeUnits_plain {c : Char} (hquote : c ≠ '"') (hescape : c ≠ '\\')
    (hcontrol : 0x20 ≤ c.toNat) (s : Str) :
    codeUnits (c :: s) = (codeUnits s).map fun p => (c.toNat :: p.1, p.2) := by
  have hgood : ¬ (c = '\\' || c.toNat < 0x20) = true := by
    simp [hescape, hcontrol]
  rw [codeUnits, if_neg hgood, Option.map_eq_bind]
  · rfl
  · exact hquote
  · exact fun _ _ _ _ _ heq _ => hescape heq
  · exact fun _ _ heq _ => hescape heq

theorem toNat_ofNat {n : Nat} (hn : n < 0xD800) : (Char.ofNat n).toNat = n := by
  rw [Char.ofNat, dif_pos (Or.inl hn)]
  rfl

theorem codeUnits_escape {u : Nat} (hu : u < 0x110000) (s : Str) :
    codeUnits (escape u ++ s) = (codeUnits s).map fun p => (units u ++ p.1, p.2) := by
  unfold escape
  split_ifs with h1 h2 h3 h4 h5 h6 h7 hplain hbasic
  iterate 7
    · subst_vars
      simp [codeUnits, unescape, units, Option.map_eq_bind]
  · have hnat := toNat_ofNat (show u < 0xD800 by omega)
    have hne : ∀ c : Char, u ≠ c.toNat → Char.ofNat u ≠ c := by
      rintro c hc rfl
      exact hc hnat.symm
    rw [List.singleton_append, codeUnits_plain (hne _ h1) (hne _ h2) (by omega), hnat, units,
      if_pos (by omega)]
    rfl
  · rw [codeUnits_unicodeEscape hbasic, units, if_pos hbasic]
    rfl
  · rw [List.append_assoc, codeUnits_unicodeEscape (by omega), codeUnits_unicodeEscape (by omega),
      Option.map_map, units, if_neg hbasic]
    rfl

theorem codeUnits_flatMap_escape {us : List Nat} (hus : ValidString us) (rest : Str) :
    codeUnits (us.flatMap escape ++ '"' :: rest) = some (us.flatMap units, rest) := by
  induction us with
  | nil => rfl
  | cons u us ih =>
      rw [ValidString, List.forall_mem_cons] at hus
      rw [List.flatMap_cons, List.append_assoc, codeUnits_escape hus.1, ih hus.2]
      rfl

theorem joinSurrogates_cons_of_not_high {u : Nat} (hu : ¬ (0xD800 ≤ u ∧ u < 0xDC00))
    (us : List Nat) : joinSurrogates (u :: us) = u :: joinSurrogates us := by
  cases us with
  | nil => rfl
  | cons v us =>
      rw [joinSurrogates, if_neg]
      intro h
      simp only [Bool.and_eq_true, decide_eq_true_eq] at h
      exact hu ⟨h.1.1.1, h.1.1.2⟩

theorem joinSurrogates_cons_of_not_low {u v : Nat} (hv : ¬ (0xDC00 ≤ v ∧ v < 0xE000))
    (us : List Nat) : joinSurrogates (u :: v :: us) = u :: joinSurrogates (v :: us) := by
  rw [joinSurrogates, if_neg]
  intro h
  simp only [Bool.and_eq_true, decide_eq_true_eq] at h
  exact hv ⟨h.1.2, h.2⟩

theorem joinSurrogates_pair {u v : Nat} (hu : 0xD800 ≤ u ∧ u < 0xDC00)
    (hv : 0xDC00 ≤ v ∧ v < 0xE000) (us : List Nat) :
    joinSurrogates (u :: v :: us) =
      (0x10000 + (u - 0xD800) * 0x400 + (v - 0xDC00)) :: joinSurrogates us := by
  rw [joinSurrogates, if_pos]
  simp [hu, hv]

theorem joinSurrogates_units_append {u : Nat} (hu : u < 0x110000)
    (hhigh : ¬ (0xD800 ≤ u ∧ u < 0xDC00)) (us : List Nat) :
    joinSurrogates (units u ++ us) = u :: joinSurrogates us := by
  unfold units
  split_ifs with hbasic
  · exact joinSurrogates_cons_of_not_high hhigh us
  · have hvalue : 0x10000 + (0xD800 + (u - 0x10000) / 0x400 - 0xD800) * 0x400 +
        (0xDC00 + (u - 0x10000) % 0x400 - 0xDC00) = u := by
      omega
    rw [List.cons_append, List.singleton_append, joinSurrogates_pair (by omega) (by omega), hvalue]

/-- The escaped pairs of a text are the surrogate pairs that it has itself. -/
theorem joinSurrogates_flatMap_units :
    ∀ {us : List Nat}, ValidString us → joinSurrogates (us.flatMap units) = joinSurrogates us
  | [], _ => rfl
  | [u], hus => by
      have hu := hus u List.mem_cons_self
      by_cases hhigh : 0xD800 ≤ u ∧ u < 0xDC00
      · rw [List.flatMap_singleton, units, if_pos (by omega)]
      · rw [List.flatMap_cons, joinSurrogates_units_append hu hhigh, List.flatMap_nil]
        exact (joinSurrogates_cons_of_not_high hhigh []).symm
  | u :: v :: us, hus => by
      have hus' := hus
      rw [ValidString, List.forall_mem_cons, List.forall_mem_cons] at hus'
      obtain ⟨hu, hv, hrest⟩ := hus'
      have htail : ValidString (v :: us) := List.forall_mem_cons.mpr ⟨hv, hrest⟩
      by_cases hhigh : 0xD800 ≤ u ∧ u < 0xDC00
      · have hunits : units u = [u] := if_pos (by omega)
        by_cases hlow : 0xDC00 ≤ v ∧ v < 0xE000
        · have hunits' : units v = [v] := if_pos (by omega)
          rw [List.flatMap_cons, List.flatMap_cons, hunits, hunits', List.singleton_append,
            List.singleton_append, joinSurrogates_pair hhigh hlow, joinSurrogates_pair hhigh hlow,
            joinSurrogates_flatMap_units hrest]
        · -- The first unit of the second code point is not a low surrogate either.
          obtain ⟨w, ws, hw, hwlow⟩ : ∃ w ws, (v :: us).flatMap units = w :: ws ∧
              ¬ (0xDC00 ≤ w ∧ w < 0xE000) := by
            rw [List.flatMap_cons, units]
            split_ifs with hbasic
            · exact ⟨v, _, rfl, hlow⟩
            · exact ⟨_, _, rfl, by omega⟩
          rw [List.flatMap_cons, hunits, List.singleton_append, hw,
            joinSurrogates_cons_of_not_low hwlow, ← hw, joinSurrogates_flatMap_units htail,
            joinSurrogates_cons_of_not_low hlow]
      · rw [List.flatMap_cons, joinSurrogates_units_append hu hhigh,
          joinSurrogates_flatMap_units htail, joinSurrogates_cons_of_not_high hhigh]
  termination_by us => us.length

theorem parseString_dumpString {us : List Nat} (hus : ValidString us) (rest : Str) :
    parseString (us.flatMap escape ++ '"' :: rest) = some (joinSurrogates us, rest) := by
  rw [parseString, codeUnits_flatMap_escape hus, Option.map_some,
    joinSurrogates_flatMap_units hus]

end Strings

section Values

variable {layout : Layout}

theorem isNumberChar_of_isDigit {c : Char} (h : c.isDigit = true) : isNumberChar c = true := by
  simp [isNumberChar, h]

/-- A number begins with a digit or a minus sign, or with the letter of a literal. -/
theorem ValidNumber.exists_cons {literal : Str} (h : ValidNumber literal) :
    ∃ c s, literal = c :: s ∧ (isNumberChar c = true ∨ c = 'N' ∨ c = 'I') := by
  rcases h with ⟨hnumber, hchars⟩ | rfl | rfl | rfl
  · cases literal with
    | nil => exact absurd hnumber (by decide)
    | cons c s => exact ⟨c, s, rfl, Or.inl (hchars c List.mem_cons_self)⟩
  · exact ⟨_, _, rfl, by decide⟩
  · exact ⟨_, _, rfl, by decide⟩
  · exact ⟨_, _, rfl, by decide⟩

/-- The first character of a value. -/
structure StartsValue (c : Char) : Prop where
  not_isWhitespace : isWhitespace c = false
  ne_bracket : c ≠ ']'
  ne_brace : c ≠ '}'

theorem startsValue_of_isNumberChar {c : Char} (h : isNumberChar c = true ∨ c = 'N' ∨ c = 'I') :
    StartsValue c ∧ c ≠ '"' ∧ c ≠ '{' ∧ c ≠ '[' := by
  have hne : ∀ d : Char, (isNumberChar d || d = 'N' || d = 'I') = false → c ≠ d := by
    rintro d hd rfl
    simp only [Bool.or_eq_false_iff, decide_eq_false_iff_not] at hd
    rcases h with h | h | h
    · rw [hd.1.1] at h
      cases h
    · exact hd.1.2 h
    · exact hd.2 h
  refine ⟨⟨?_, hne _ (by decide), hne _ (by decide)⟩, hne _ (by decide), hne _ (by decide),
    hne _ (by decide)⟩
  simp [isWhitespace, hne ' ' (by decide), hne '\t' (by decide), hne '\n' (by decide),
    hne '\r' (by decide)]

theorem dump_eq_cons (layout : Layout) (depth : Nat) {v : Json} (hv : Valid v) :
    ∃ c s, dump layout depth v = c :: s ∧ StartsValue c := by
  have hplain : ∀ c : Char, (isWhitespace c || c = ']' || c = '}') = false → StartsValue c := by
    intro c hc
    simp only [Bool.or_eq_false_iff, decide_eq_false_iff_not] at hc
    exact ⟨hc.1.1, hc.1.2, hc.2⟩
  cases v with
  | null => exact ⟨_, _, rfl, hplain _ (by decide)⟩
  | bool b => cases b <;> exact ⟨_, _, rfl, hplain _ (by decide)⟩
  | number literal =>
      obtain ⟨c, s, rfl, hc⟩ := ValidNumber.exists_cons hv
      exact ⟨c, s, rfl, (startsValue_of_isNumberChar hc).1⟩
  | string us => exact ⟨_, _, rfl, hplain _ (by decide)⟩
  | array elements => cases elements <;> exact ⟨_, _, rfl, hplain _ (by decide)⟩
  | object members =>
      rcases members with _ | ⟨⟨key, v⟩, members⟩ <;> exact ⟨_, _, rfl, hplain _ (by decide)⟩

theorem skipWhitespace_append_of_forall {w : Str} (hw : ∀ c ∈ w, isWhitespace c = true) (s : Str) :
    skipWhitespace (w ++ s) = skipWhitespace s := by
  induction w with
  | nil => rfl
  | cons c w ih =>
      rw [List.forall_mem_cons] at hw
      rw [List.cons_append, skipWhitespace, List.dropWhile_cons_of_pos hw.1]
      exact ih hw.2

theorem skipWhitespace_cons_of_not {c : Char} (hc : isWhitespace c = false) (s : Str) :
    skipWhitespace (c :: s) = c :: s :=
  List.dropWhile_cons_of_neg (by rw [hc]; exact Bool.false_ne_true)

theorem skipWhitespace_append_cons {w : Str} (hw : ∀ c ∈ w, isWhitespace c = true) {c : Char}
    (hc : isWhitespace c = false) (s : Str) : skipWhitespace (w ++ c :: s) = c :: s := by
  rw [skipWhitespace_append_of_forall hw, skipWhitespace_cons_of_not hc]

theorem skipWhitespace_append_dump {w : Str} (hw : ∀ c ∈ w, isWhitespace c = true) (depth : Nat)
    {v : Json} (hv : Valid v) (s : Str) :
    skipWhitespace (w ++ (dump layout depth v ++ s)) = dump layout depth v ++ s := by
  obtain ⟨c, t, hdump, hstart⟩ := dump_eq_cons layout depth hv
  rw [hdump, List.cons_append, skipWhitespace_append_cons hw hstart.not_isWhitespace]

theorem head?_dump_append (depth : Nat) {v : Json} (hv : Valid v) (s : Str) :
    (dump layout depth v ++ s).head? ≠ some ']' := by
  obtain ⟨c, t, hdump, hstart⟩ := dump_eq_cons layout depth hv
  rw [hdump, List.cons_append, List.head?_cons]
  exact fun heq => hstart.ne_bracket (Option.some.inj heq)

/-- No character of a number follows. -/
def NumberEnds (rest : Str) : Prop := ∀ c ∈ rest.head?, isNumberChar c = false

theorem parseScalar_number {literal rest : Str} (h : ValidNumber literal)
    (hrest : NumberEnds rest) :
    (parseNumber (literal ++ rest)).or (parseLiteral (literal ++ rest)) =
      some (.number literal, rest) := by
  rcases h with ⟨hnumber, hchars⟩ | rfl | rfl | rfl
  · have htake : (literal ++ rest).takeWhile isNumberChar = literal ∧
        (literal ++ rest).dropWhile isNumberChar = rest := by
      cases rest with
      | nil =>
          rw [List.append_nil, List.takeWhile_eq_self_iff.mpr hchars,
            List.dropWhile_eq_nil_iff.mpr hchars]
          exact ⟨rfl, rfl⟩
      | cons c rest =>
          have hc : isNumberChar c = false := hrest c rfl
          rw [List.takeWhile_append_of_pos hchars, List.dropWhile_append_of_pos hchars,
            List.takeWhile_cons_of_neg (by simp [hc]), List.dropWhile_cons_of_neg (by simp [hc]),
            List.append_nil]
          exact ⟨rfl, rfl⟩
    rw [parseNumber, htake.1, htake.2, if_pos hnumber, Option.some_or]
  · rfl
  · rfl
  · rfl

theorem numberEnds_cons {c : Char} (hc : isNumberChar c = false) (s : Str) :
    NumberEnds (c :: s) := by
  intro d hd
  rw [List.head?_cons, Option.mem_some_iff] at hd
  rw [← hd, hc]

theorem isNumberChar_of_isWhitespace {c : Char} (h : isWhitespace c = true) :
    isNumberChar c = false := by
  simp only [isWhitespace, Bool.or_eq_true, decide_eq_true_eq] at h
  rcases h with ((rfl | rfl) | rfl) | rfl <;> decide

theorem numberEnds_append {w : Str} (hw : ∀ c ∈ w, isWhitespace c = true) {c : Char}
    (hc : isNumberChar c = false) (s : Str) : NumberEnds (w ++ c :: s) := by
  cases w with
  | nil => exact numberEnds_cons hc s
  | cons d w =>
      exact numberEnds_cons (isNumberChar_of_isWhitespace (hw d List.mem_cons_self)) _

mutual

/-- **A value that was written is read**, whatever follows it. -/
theorem parse_dump : ∀ (v : Json) (depth n : Nat) (rest : Str), Valid v →
    2 * (dump layout depth v).length ≤ n → NumberEnds rest →
      parseValue n (dump layout depth v ++ rest) = some (normalize v, rest)
  | .null, depth, n + 1, rest, _, _, _ => rfl
  | .bool true, depth, n + 1, rest, _, _, _ => rfl
  | .bool false, depth, n + 1, rest, _, _, _ => rfl
  | .number literal, depth, n + 1, rest, hv, _, hrest => by
      obtain ⟨c, s, rfl, hc⟩ := ValidNumber.exists_cons hv
      have hstart := (startsValue_of_isNumberChar hc).2
      have hread := parseScalar_number hv hrest
      rw [List.cons_append] at hread
      rw [dump, List.cons_append, parseValue_scalar hstart, hread]
      rfl
  | .string us, depth, n + 1, rest, hv, _, _ => by
      have hread := parseString_dumpString hv rest
      simp only [dump, dumpString, List.cons_append, List.append_assoc, List.nil_append,
        parseValue, hread, Option.map_some, normalize]
  | .array [], depth, n + 1, rest, _, _, _ => rfl
  | .object [], depth, n + 1, rest, _, _, _ => rfl
  | .array (v :: vs), depth, n + 1, rest, hv, hn, _ => by
      have hlength : 2 * (dumpElements layout (depth + 1) (v :: vs)).length ≤ n + 1 ∧ 0 < n := by
        simp only [dump, dumpElements, List.length_cons, List.length_append] at hn ⊢
        omega
      have hread := parse_dumpElements (v :: vs) (depth + 1) n (layout.gap depth) rest hv
        (layout.gap_isWhitespace depth) hlength.1 hlength.2
      simp only [dump, List.cons_append, List.append_assoc, List.nil_append, parseValue,
        skipWhitespace_append_dump (layout.gap_isWhitespace (depth + 1)) (depth + 1) hv.1,
        if_neg (head?_dump_append (depth + 1) hv.1 _), hread, Option.map_some, normalize,
        normalizeElements]
  | .object ((key, v) :: members), depth, n + 1, rest, hv, hn, _ => by
      have hlength : 2 * (dumpMembers layout (depth + 1) ((key, v) :: members)).length ≤ n + 1 ∧
          0 < n := by
        simp only [dump, dumpMembers, List.length_cons, List.length_append] at hn ⊢
        omega
      have hread := parse_dumpMembers ((key, v) :: members) (depth + 1) n (layout.gap depth) rest hv
        (layout.gap_isWhitespace depth) hlength.1 hlength.2
      have hquote : some '"' ≠ some '}' := by decide
      simp only [dumpString, List.cons_append, List.append_assoc, List.nil_append] at hread
      simp only [dump, dumpString, List.cons_append, List.append_assoc, List.nil_append, parseValue,
        skipWhitespace_append_cons (layout.gap_isWhitespace (depth + 1))
          (by decide : isWhitespace '"' = false), List.head?_cons, if_neg hquote, hread,
        Option.map_some, normalize, normalizeMembers]
  | v, depth, 0, rest, hv, hn, _ => by
      obtain ⟨c, s, hdump, -⟩ := dump_eq_cons layout depth hv
      rw [hdump, List.length_cons] at hn
      omega

/-- The elements of an array, up to its closing bracket. -/
theorem parse_dumpElements : ∀ (elements : List Json) (depth n : Nat) (w rest : Str),
    ValidElements elements → (∀ c ∈ w, isWhitespace c = true) →
      2 * (dumpElements layout depth elements).length ≤ n + 1 → 0 < n →
        match elements with
        | [] => True
        | v :: vs =>
            parseElements n (dump layout depth v ++
              (dumpElements layout depth vs ++ (w ++ ']' :: rest))) =
                some (normalize v :: normalizeElements vs, rest)
  | [], _, _, _, _, _, _, _, _ => trivial
  | [v], depth, n + 1, w, rest, hv, hw, hn, _ => by
      have hlength : 2 * (dump layout depth v).length ≤ n := by
        simp only [dumpElements, List.length_cons, List.length_append] at hn
        omega
      have hread := parse_dump v depth n (w ++ ']' :: rest) hv.1 hlength
        (numberEnds_append hw (by decide) rest)
      simp only [dumpElements, List.nil_append, parseElements, hread,
        skipWhitespace_append_cons hw (by decide : isWhitespace ']' = false), normalizeElements]
  | v :: v' :: vs, depth, n + 1, w, rest, hv, hw, hn, _ => by
      have hlength : 2 * (dump layout depth v).length ≤ n ∧
          2 * (dumpElements layout depth (v' :: vs)).length ≤ n + 1 ∧ 0 < n := by
        simp only [dumpElements, List.length_cons, List.length_append] at hn ⊢
        omega
      have hfirst := parse_dump v depth n
        (',' :: (layout.gap depth ++ (dump layout depth v' ++
          (dumpElements layout depth vs ++ (w ++ ']' :: rest))))) hv.1 hlength.1
        (numberEnds_cons (by decide) _)
      have hread := parse_dumpElements (v' :: vs) depth n w rest hv.2 hw hlength.2.1 hlength.2.2
      simp only [dumpElements, List.cons_append, List.append_assoc, parseElements, hfirst,
        skipWhitespace_cons_of_not (by decide : isWhitespace ',' = false),
        skipWhitespace_append_dump (layout.gap_isWhitespace depth) depth hv.2.1, hread,
        Option.map_some, normalizeElements]

/-- The members of an object, up to its closing brace. -/
theorem parse_dumpMembers : ∀ (members : List (List Nat × Json)) (depth n : Nat) (w rest : Str),
    ValidMembers members → (∀ c ∈ w, isWhitespace c = true) →
      2 * (dumpMembers layout depth members).length ≤ n + 1 → 0 < n →
        match members with
        | [] => True
        | (key, v) :: members =>
            parseMembers n (dumpString key ++ ':' :: (layout.colon ++ (dump layout depth v ++
              (dumpMembers layout depth members ++ (w ++ '}' :: rest))))) =
                some ((joinSurrogates key, normalize v) :: normalizeMembers members, rest)
  | [], _, _, _, _, _, _, _, _ => trivial
  | [(key, v)], depth, n + 1, w, rest, hv, hw, hn, _ => by
      have hlength : 2 * (dump layout depth v).length ≤ n := by
        simp only [dumpMembers, List.length_cons, List.length_append] at hn
        omega
      have hread := parse_dump v depth n (w ++ '}' :: rest) hv.2.1 hlength
        (numberEnds_append hw (by decide) rest)
      simp only [dumpString, dumpMembers, List.cons_append, List.append_assoc, List.nil_append,
        parseMembers, parseString_dumpString hv.1,
        skipWhitespace_cons_of_not (by decide : isWhitespace ':' = false),
        skipWhitespace_append_dump layout.colon_isWhitespace depth hv.2.1, hread,
        skipWhitespace_append_cons hw (by decide : isWhitespace '}' = false), normalizeMembers]
  | (key, v) :: (key', v') :: members, depth, n + 1, w, rest, hv, hw, hn, _ => by
      have hlength : 2 * (dump layout depth v).length ≤ n ∧
          2 * (dumpMembers layout depth ((key', v') :: members)).length ≤ n + 1 ∧ 0 < n := by
        simp only [dumpMembers, List.length_cons, List.length_append] at hn ⊢
        omega
      have hfirst := parse_dump v depth n
        (',' :: (layout.gap depth ++ (dumpString key' ++ ':' :: (layout.colon ++
          (dump layout depth v' ++ (dumpMembers layout depth members ++ (w ++ '}' :: rest)))))))
        hv.2.1 hlength.1 (numberEnds_cons (by decide) _)
      have hread := parse_dumpMembers ((key', v') :: members) depth n w rest hv.2.2 hw hlength.2.1
        hlength.2.2
      simp only [dumpString, List.cons_append, List.append_assoc, List.nil_append] at hfirst hread
      simp only [dumpString, dumpMembers, List.cons_append, List.append_assoc, List.nil_append,
        parseMembers, parseString_dumpString hv.1,
        skipWhitespace_cons_of_not (by decide : isWhitespace ':' = false),
        skipWhitespace_append_dump layout.colon_isWhitespace depth hv.2.1, hfirst,
        skipWhitespace_cons_of_not (by decide : isWhitespace ',' = false),
        skipWhitespace_append_cons (layout.gap_isWhitespace depth)
          (by decide : isWhitespace '"' = false), hread, Option.map_some, normalizeMembers]

end

/-- What is loaded is what was dumped. -/
theorem jsonLoad_jsonDump {v : Json} (hv : Valid v) :
    jsonLoad (jsonDump layout v) = some (normalize v) := by
  have hread : parseValue (2 * (dump layout 0 v).length + 2) (dump layout 0 v ++ []) =
      some (normalize v, []) :=
    parse_dump v 0 _ [] hv (by omega) (by simp [NumberEnds])
  have hskip : skipWhitespace ([] ++ (dump layout 0 v ++ [])) = dump layout 0 v ++ [] :=
    skipWhitespace_append_dump (by simp) 0 hv []
  rw [List.append_nil] at hread
  rw [List.nil_append, List.append_nil] at hskip
  rw [jsonDump, jsonLoad, hskip, hread]
  rfl

end Values

section Ascii

variable {layout : Layout}

theorem toNat_hexDigit : ∀ n < 0x10, (hexDigit n).toNat < 128 := by
  decide

theorem isAscii_unicodeEscape (u : Nat) : ∀ c ∈ unicodeEscape u, c.toNat < 128 := by
  have hdigit : ∀ n, (hexDigit (n % 0x10)).toNat < 128 := fun n =>
    toNat_hexDigit _ (Nat.mod_lt n (by decide))
  simp [unicodeEscape, hdigit]

theorem isAscii_escape (u : Nat) : ∀ c ∈ escape u, c.toNat < 128 := by
  unfold escape
  split_ifs with h1 h2 h3 h4 h5 h6 h7 hplain hbasic
  iterate 7
    · simp
  · have hnat := toNat_ofNat (show u < 0xD800 by omega)
    rw [List.forall_mem_singleton, hnat]
    omega
  · exact isAscii_unicodeEscape u
  · rw [List.forall_mem_append]
    exact ⟨isAscii_unicodeEscape _, isAscii_unicodeEscape _⟩

theorem isAscii_dumpString (us : List Nat) : ∀ c ∈ dumpString us, c.toNat < 128 := by
  have hescape : ∀ c ∈ us.flatMap escape, c.toNat < 128 := by
    intro c hc
    obtain ⟨u, -, hc⟩ := List.mem_flatMap.mp hc
    exact isAscii_escape u c hc
  simp only [dumpString, List.cons_append, List.forall_mem_cons, List.forall_mem_append]
  exact ⟨by decide, hescape, by decide⟩

theorem isAscii_of_isWhitespace {c : Char} (h : isWhitespace c = true) : c.toNat < 128 := by
  simp only [isWhitespace, Bool.or_eq_true, decide_eq_true_eq] at h
  rcases h with ((rfl | rfl) | rfl) | rfl <;> decide

theorem isAscii_of_isNumberChar {c : Char} (h : isNumberChar c = true) : c.toNat < 128 := by
  simp only [isNumberChar, Bool.or_eq_true, decide_eq_true_eq] at h
  rcases h with ((((h | rfl) | rfl) | rfl) | rfl) | rfl
  · exact lt_of_le_of_lt (isDigit_iff.mp h).2 (by decide)
  all_goals decide

theorem isAscii_of_validNumber {literal : Str} (h : ValidNumber literal) :
    ∀ c ∈ literal, c.toNat < 128 := by
  rcases h with ⟨-, hchars⟩ | rfl | rfl | rfl
  · exact fun c hc => isAscii_of_isNumberChar (hchars c hc)
  all_goals decide

mutual

theorem isAscii_dump : ∀ (v : Json) (depth : Nat), Valid v →
    ∀ c ∈ dump layout depth v, c.toNat < 128
  | .null, _, _ => by simp [dump]
  | .bool true, _, _ => by simp [dump]
  | .bool false, _, _ => by simp [dump]
  | .number literal, _, hv => isAscii_of_validNumber hv
  | .string us, _, _ => isAscii_dumpString us
  | .array [], _, _ => by simp [dump]
  | .object [], _, _ => by simp [dump]
  | .array (v :: vs), depth, hv => by
      have hfirst := isAscii_dump v (depth + 1) hv.1
      have hrest := isAscii_dumpElements vs (depth + 1) hv.2
      have hgap := fun d c hc => isAscii_of_isWhitespace (layout.gap_isWhitespace d c hc)
      simp only [dump, List.forall_mem_cons, List.forall_mem_append]
      exact ⟨by decide, ⟨⟨⟨hgap _, hfirst⟩, hrest⟩, hgap _⟩, by decide⟩
  | .object ((key, v) :: members), depth, hv => by
      have hfirst := isAscii_dump v (depth + 1) hv.2.1
      have hrest := isAscii_dumpMembers members (depth + 1) hv.2.2
      have hgap := fun d c hc => isAscii_of_isWhitespace (layout.gap_isWhitespace d c hc)
      have hcolon := fun c hc => isAscii_of_isWhitespace (layout.colon_isWhitespace c hc)
      have hkey := isAscii_dumpString key
      simp only [dump, List.forall_mem_cons, List.forall_mem_append]
      exact ⟨by decide, ⟨⟨⟨⟨⟨hgap _, hkey⟩, by decide, hcolon⟩, hfirst⟩, hrest⟩, hgap _⟩, by decide⟩

theorem isAscii_dumpElements : ∀ (elements : List Json) (depth : Nat), ValidElements elements →
    ∀ c ∈ dumpElements layout depth elements, c.toNat < 128
  | [], _, _ => by simp [dumpElements]
  | v :: vs, depth, hv => by
      have hfirst := isAscii_dump v depth hv.1
      have hrest := isAscii_dumpElements vs depth hv.2
      have hgap := fun c hc => isAscii_of_isWhitespace (layout.gap_isWhitespace depth c hc)
      simp only [dumpElements, List.forall_mem_cons, List.forall_mem_append]
      exact ⟨⟨⟨by decide, hgap⟩, hfirst⟩, hrest⟩

theorem isAscii_dumpMembers : ∀ (members : List (List Nat × Json)) (depth : Nat),
    ValidMembers members → ∀ c ∈ dumpMembers layout depth members, c.toNat < 128
  | [], _, _ => by simp [dumpMembers]
  | (key, v) :: members, depth, hv => by
      have hfirst := isAscii_dump v depth hv.2.1
      have hrest := isAscii_dumpMembers members depth hv.2.2
      have hgap := fun c hc => isAscii_of_isWhitespace (layout.gap_isWhitespace depth c hc)
      have hcolon := fun c hc => isAscii_of_isWhitespace (layout.colon_isWhitespace c hc)
      have hkey := isAscii_dumpString key
      simp only [dumpMembers, List.forall_mem_cons, List.forall_mem_append]
      exact ⟨⟨⟨⟨⟨by decide, hgap⟩, hkey⟩, by decide, hcolon⟩, hfirst⟩, hrest⟩

end

theorem isAscii_jsonDump {v : Json} (hv : Valid v) : ∀ c ∈ jsonDump layout v, c.toNat < 128 :=
  isAscii_dump v 0 hv

end Ascii

end Json
end Foundation
