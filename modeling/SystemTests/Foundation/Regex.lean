import SystemTests.Foundation.Text

/-!
# Backtracking regular expressions

A pattern is run against the front of a text and gives the list of its
possible matches in the order a backtracking engine tries them: each match is
the text left over and the groups captured so far.  Greedy repetition tries
the longest run first, lazy repetition the shortest.

`matchStart`, `fullmatch` and `sub` are the first match at the front, the first
match of the whole text, and the replacement of all matches from left to right.
The classes of digits and of word characters come from a table, since a pattern
over Unicode text takes them from the character database.

**Results.**
* `run_caps`: what is captured does not influence what matches.
* `lookup_run`: a pattern captures its own groups only.
* `mem_run_star_chars`: the matches of a repeated class of characters.
* `findSome?_star_chars`: a greedy repetition takes all it can when giving a
  character back never helps the rest of the pattern.
-/

namespace Foundation
namespace Regex

open Text

/-- The character classes `\d` and `\w`. -/
structure CharTable where
  isDigit : Char → Bool
  isWord : Char → Bool

/-- On the first 128 code points the classes are those of ASCII. -/
structure CharTable.Documented (table : CharTable) : Prop where
  isDigit : ∀ c : Char, c.toNat < 128 → table.isDigit c = c.isDigit
  isWord : ∀ c : Char, c.toNat < 128 → table.isWord c = (c.isAlphanum || c == '_')

def CharTable.ascii : CharTable where
  isDigit := Char.isDigit
  isWord c := c.isAlphanum || c == '_'

theorem CharTable.ascii_documented : CharTable.ascii.Documented where
  isDigit _ _ := rfl
  isWord _ _ := rfl

inductive Rx where
  | eps
  | chars (p : Char → Bool)
  | seq (a b : Rx)
  | alt (a b : Rx)
  | star (a : Rx)
  | lazyStar (a : Rx)
  | group (n : Nat) (a : Rx)
  | atEnd

/-- The text left over and the captured groups, latest first. -/
abbrev Match := Str × List (Nat × Str)

/-- Repetitions that consume something, at most as many as the fuel. -/
def repeatMatches (lazy : Bool) (step : Match → List Match) : Nat → Match → List Match
  | 0, m => [m]
  | k + 1, m =>
      let more := ((step m).filter fun m' => m'.1.length < m.1.length).flatMap
        (repeatMatches lazy step k)
      if lazy then m :: more else more ++ [m]

def run : Rx → Match → List Match
  | .eps, m => [m]
  | .chars _, ([], _) => []
  | .chars p, (c :: s, caps) => if p c then [(s, caps)] else []
  | .seq a b, m => (run a m).flatMap (run b)
  | .alt a b, m => run a m ++ run b m
  | .star a, m => repeatMatches false (run a) m.1.length m
  | .lazyStar a, m => repeatMatches true (run a) m.1.length m
  | .group n a, m =>
      (run a m).map fun m' => (m'.1, (n, m.1.take (m.1.length - m'.1.length)) :: m'.2)
  -- the end of the text, or just before a newline that ends it
  | .atEnd, m => if m.1 = [] ∨ m.1 = ['\n'] then [m] else []

def matchStart (r : Rx) (s : Str) : Option Match := (run r (s, [])).head?

def fullmatch (r : Rx) (s : Str) : Option Match := (run r (s, [])).find? (·.1 = [])

def capture (n : Nat) (m : Match) : Option Str := m.2.lookup n

inductive Piece where
  | lit (s : Str)
  | ref (n : Nat)

def expand (template : List Piece) (m : Match) : Str :=
  template.flatMap fun
    | .lit s => s
    | .ref n => (capture n m).getD []

/--
Replacement of the matches from left to right.  After an empty match the next
one has to consume something or to start further on.
-/
def subGo (r : Rx) (template : List Piece) : Nat → Bool → Str → Str
  | 0, _, s => s
  | k + 1, mustAdvance, s =>
      match (run r (s, [])).find? fun m => !(mustAdvance && m.1 = s) with
      | some m => expand template m ++ subGo r template k (m.1 = s) m.1
      | none =>
          match s with
          | [] => []
          | c :: s => c :: subGo r template k false s

def sub (r : Rx) (template : List Piece) (s : Str) : Str :=
  subGo r template (2 * s.length + 2) false s

namespace Rx

def char (c : Char) : Rx := .chars (· == c)

def lit (s : Str) : Rx := s.foldr (fun c r => .seq (char c) r) .eps

def opt (a : Rx) : Rx := .alt a .eps

def plus (a : Rx) : Rx := .seq a (.star a)

/-- Any character but a newline. -/
def dot : Rx := .chars (· != '\n')

def seqs (rs : List Rx) : Rx := rs.foldr .seq .eps

def times : Nat → Rx → Rx
  | 0, _ => .eps
  | n + 1, a => .seq a (times n a)

def atMost : Nat → Rx → Rx
  | 0, _ => .eps
  | n + 1, a => opt (.seq a (atMost n a))

/-- From `low` to `high` repetitions, as many as possible. -/
def between (low high : Nat) (a : Rx) : Rx := .seq (times low a) (atMost (high - low) a)

end Rx

section Captures

def withCaps (caps : List (Nat × Str)) (m : Match) : Match := (m.1, m.2 ++ caps)

@[simp] theorem withCaps_nil (m : Match) : withCaps [] m = m := by
  simp [withCaps]

theorem repeatMatches_caps {lazy : Bool} {step : Match → List Match}
    (hstep : ∀ s caps, step (s, caps) = (step (s, [])).map (withCaps caps)) :
    ∀ (k : Nat) (s : Str) (caps : List (Nat × Str)),
      repeatMatches lazy step k (s, caps) =
        (repeatMatches lazy step k (s, [])).map (withCaps caps)
  | 0, s, caps => by
      simp [repeatMatches, withCaps]
  | k + 1, s, caps => by
      have hmore :
          ((step (s, caps)).filter fun m' => m'.1.length < s.length).flatMap
              (repeatMatches lazy step k) =
            (((step (s, [])).filter fun m' => m'.1.length < s.length).flatMap
              (repeatMatches lazy step k)).map (withCaps caps) := by
        rw [hstep, List.filter_map, List.flatMap_map, List.map_flatMap]
        refine List.flatMap_congr fun m _ => ?_
        obtain ⟨t, caps'⟩ := m
        rw [withCaps, repeatMatches_caps hstep k, repeatMatches_caps hstep k t caps',
          List.map_map]
        refine List.map_congr_left fun m _ => ?_
        simp [withCaps]
      cases lazy <;> simp [repeatMatches, hmore, withCaps]

/-- **Captures are passive**: earlier captures are carried along. -/
theorem run_caps (r : Rx) (s : Str) (caps : List (Nat × Str)) :
    run r (s, caps) = (run r (s, [])).map (withCaps caps) := by
  induction r generalizing s caps with
  | eps => simp [run, withCaps]
  | chars p =>
      cases s with
      | nil => simp [run]
      | cons c s =>
          simp only [run]
          split <;> simp [withCaps]
  | seq a b iha ihb =>
      simp only [run]
      rw [iha, List.flatMap_map, List.map_flatMap]
      refine List.flatMap_congr fun m _ => ?_
      obtain ⟨t, caps'⟩ := m
      rw [withCaps, ihb, ihb t caps', List.map_map]
      refine List.map_congr_left fun m _ => ?_
      simp [withCaps]
  | alt a b iha ihb =>
      simp only [run]
      rw [iha, ihb, List.map_append]
  | star a ih => exact repeatMatches_caps ih s.length s caps
  | lazyStar a ih => exact repeatMatches_caps ih s.length s caps
  | group n a ih =>
      simp only [run]
      rw [ih, List.map_map, List.map_map]
      refine List.map_congr_left fun m _ => ?_
      simp [withCaps]
  | atEnd =>
      simp only [run]
      split <;> simp [withCaps]

/-- Whether a match to the end exists does not depend on the captures. -/
theorem find?_run_caps (r : Rx) (s : Str) (caps : List (Nat × Str)) :
    (run r (s, caps)).find? (·.1 = []) =
      ((run r (s, [])).find? (·.1 = [])).map (withCaps caps) := by
  rw [run_caps, List.find?_map]
  rfl

def groups : Rx → List Nat
  | .eps | .chars _ | .atEnd => []
  | .seq a b | .alt a b => groups a ++ groups b
  | .star a | .lazyStar a => groups a
  | .group n a => n :: groups a

/-- A repetition takes nothing or starts with one step. -/
theorem mem_repeatMatches_cases {lazy : Bool} {step : Match → List Match} {k : Nat}
    {m m' : Match} (hm' : m' ∈ repeatMatches lazy step (k + 1) m) :
    m' = m ∨ ∃ x ∈ step m, m' ∈ repeatMatches lazy step k x := by
  cases lazy with
  | false =>
      simp only [repeatMatches, Bool.false_eq_true, if_false, List.mem_append,
        List.mem_singleton, List.mem_flatMap, List.mem_filter] at hm'
      rcases hm' with ⟨x, hx, hmx⟩ | hm'
      · exact Or.inr ⟨x, hx.1, hmx⟩
      · exact Or.inl hm'
  | true =>
      simp only [repeatMatches, if_true, List.mem_cons, List.mem_flatMap,
        List.mem_filter] at hm'
      rcases hm' with hm' | ⟨x, hx, hmx⟩
      · exact Or.inl hm'
      · exact Or.inr ⟨x, hx.1, hmx⟩

theorem lookup_repeatMatches {n : Nat} {lazy : Bool} {step : Match → List Match}
    (hstep : ∀ m, ∀ m' ∈ step m, m'.2.lookup n = m.2.lookup n) :
    ∀ (k : Nat) (m : Match), ∀ m' ∈ repeatMatches lazy step k m,
      m'.2.lookup n = m.2.lookup n
  | 0, m, m', hm' => by
      rw [repeatMatches, List.mem_singleton] at hm'
      rw [hm']
  | k + 1, m, m', hm' => by
      rcases mem_repeatMatches_cases hm' with rfl | ⟨x, hx, hmx⟩
      · rfl
      · rw [lookup_repeatMatches hstep k x m' hmx, hstep m x hx]

/-- A pattern captures its own groups only. -/
theorem lookup_run {n : Nat} (r : Rx) (h : n ∉ groups r) (m : Match) :
    ∀ m' ∈ run r m, m'.2.lookup n = m.2.lookup n := by
  induction r generalizing m with
  | eps =>
      intro m' hm'
      rw [run, List.mem_singleton] at hm'
      rw [hm']
  | chars p =>
      intro m' hm'
      obtain ⟨s, caps⟩ := m
      cases s with
      | nil => simp [run] at hm'
      | cons c s =>
          simp only [run] at hm'
          split at hm'
          · rw [List.mem_singleton] at hm'
            rw [hm']
          · simp at hm'
  | seq a b iha ihb =>
      intro m' hm'
      simp only [groups, List.mem_append, not_or] at h
      obtain ⟨x, hx, hmx⟩ := List.mem_flatMap.mp hm'
      rw [ihb h.2 x m' hmx, iha h.1 m x hx]
  | alt a b iha ihb =>
      intro m' hm'
      simp only [groups, List.mem_append, not_or] at h
      rcases List.mem_append.mp hm' with hm' | hm'
      · exact iha h.1 m m' hm'
      · exact ihb h.2 m m' hm'
  | star a ih => exact lookup_repeatMatches (ih h) m.1.length m
  | lazyStar a ih => exact lookup_repeatMatches (ih h) m.1.length m
  | group k a ih =>
      intro m' hm'
      simp only [groups, List.mem_cons, not_or] at h
      obtain ⟨x, hx, rfl⟩ := List.mem_map.mp hm'
      have hk : (n == k) = false := by simpa using h.1
      simp [List.lookup_cons, hk, ih h.2 m x hx]
  | atEnd =>
      intro m' hm'
      simp only [run] at hm'
      split at hm'
      · rw [List.mem_singleton] at hm'
        rw [hm']
      · simp at hm'

end Captures

section Star

variable {p : Char → Bool}

theorem repeatMatches_chars_nil (k : Nat) (caps : List (Nat × Str)) :
    repeatMatches false (run (.chars p)) k ([], caps) = [([], caps)] := by
  cases k <;> simp [repeatMatches, run]

@[simp] theorem run_star_chars_nil (caps : List (Nat × Str)) :
    run (.star (.chars p)) ([], caps) = [([], caps)] :=
  repeatMatches_chars_nil 0 caps

/-- A repeated class first consumes a character where it can. -/
theorem run_star_chars_cons (c : Char) (s : Str) (caps : List (Nat × Str)) :
    run (.star (.chars p)) (c :: s, caps) =
      if p c then run (.star (.chars p)) (s, caps) ++ [(c :: s, caps)]
      else [(c :: s, caps)] := by
  simp only [run, List.length_cons, repeatMatches]
  by_cases hc : p c <;> simp [hc]

/-- **The matches of a repeated class**: the suffixes after a run of the class. -/
theorem mem_run_star_chars {s : Str} {caps : List (Nat × Str)} {m : Match} :
    m ∈ run (.star (.chars p)) (s, caps) ↔
      ∃ d t, s = d ++ t ∧ (∀ c ∈ d, p c = true) ∧ m = (t, caps) := by
  induction s with
  | nil =>
      rw [run_star_chars_nil, List.mem_singleton]
      constructor
      · rintro rfl
        exact ⟨[], [], rfl, by simp, rfl⟩
      · rintro ⟨d, t, hdt, -, rfl⟩
        obtain ⟨-, rfl⟩ := List.append_eq_nil_iff.mp hdt.symm
        rfl
  | cons c s ih =>
      rw [run_star_chars_cons]
      constructor
      · intro hm
        split_ifs at hm with hc
        · rcases List.mem_append.mp hm with hm | hm
          · obtain ⟨d, t, rfl, hd, rfl⟩ := ih.mp hm
            refine ⟨c :: d, t, rfl, ?_, rfl⟩
            rw [List.forall_mem_cons]
            exact ⟨hc, hd⟩
          · rw [List.mem_singleton] at hm
            exact ⟨[], c :: s, rfl, by simp, hm⟩
        · rw [List.mem_singleton] at hm
          exact ⟨[], c :: s, rfl, by simp, hm⟩
      · rintro ⟨d, t, hdt, hd, rfl⟩
        cases d with
        | nil =>
            rw [List.nil_append] at hdt
            subst hdt
            split_ifs <;> simp
        | cons x d =>
            obtain ⟨rfl, rfl⟩ := List.cons.inj hdt
            rw [List.forall_mem_cons] at hd
            rw [if_pos hd.1, List.mem_append]
            exact Or.inl (ih.mpr ⟨d, t, rfl, hd.2, rfl⟩)

/-- A property that consuming a character keeps holds after all are consumed. -/
theorem isSome_dropWhile {β : Type} {caps : List (Nat × Str)} {f : Match → Option β}
    (h : ∀ c t, p c = true → (f (c :: t, caps)).isSome → (f (t, caps)).isSome) :
    ∀ s : Str, (f (s, caps)).isSome → (f (s.dropWhile p, caps)).isSome
  | [], hs => hs
  | c :: s, hs => by
      rw [List.dropWhile_cons]
      split_ifs with hc
      · exact isSome_dropWhile h s (h c s hc hs)
      · exact hs

/--
**Greedy repetition.**  When giving a character back never helps what follows,
what follows is run after the longest repetition only.
-/
theorem findSome?_star_chars {β : Type} {caps : List (Nat × Str)}
    {f : Match → Option β}
    (h : ∀ c t, p c = true → (f (c :: t, caps)).isSome → (f (t, caps)).isSome)
    (s : Str) :
    (run (.star (.chars p)) (s, caps)).findSome? f = f (s.dropWhile p, caps) := by
  induction s with
  | nil => simp
  | cons c s ih =>
      rw [run_star_chars_cons, List.dropWhile_cons]
      split_ifs with hc
      · rw [List.findSome?_append, ih]
        cases hf : f (s.dropWhile p, caps) with
        | some b => rfl
        | none =>
            have hcs : f (c :: s, caps) = none := by
              by_contra hne
              have hsome := h c s hc (Option.ne_none_iff_isSome.mp hne)
              have hdrop := isSome_dropWhile h s hsome
              rw [hf] at hdrop
              exact absurd hdrop (by simp)
            simp [hcs]
      · simp

end Star

section Membership

theorem run_seq (a b : Rx) (m : Match) :
    run (.seq a b) m = (run a m).flatMap (run b) := rfl

theorem run_opt (a : Rx) (m : Match) : run (.opt a) m = run a m ++ [m] := rfl

theorem run_group (n : Nat) (a : Rx) (m : Match) :
    run (.group n a) m =
      (run a m).map fun m' =>
        (m'.1, (n, m.1.take (m.1.length - m'.1.length)) :: m'.2) := rfl

/-- What a greedy repetition of a class captures. -/
theorem take_length_sub_dropWhile (p : Char → Bool) (s : Str) :
    s.take (s.length - (s.dropWhile p).length) = s.takeWhile p := by
  have h : s.takeWhile p ++ s.dropWhile p = s := List.takeWhile_append_dropWhile
  calc s.take (s.length - (s.dropWhile p).length)
      = (s.takeWhile p ++ s.dropWhile p).take
          ((s.takeWhile p ++ s.dropWhile p).length - (s.dropWhile p).length) := by rw [h]
    _ = s.takeWhile p := by
      rw [List.length_append, Nat.add_sub_cancel, List.take_left]

theorem run_char_cons (c x : Char) (s : Str) (caps : List (Nat × Str)) :
    run (.char c) (x :: s, caps) = if x = c then [(s, caps)] else [] := by
  simp [Rx.char, run]

@[simp] theorem run_char_nil (c : Char) (caps : List (Nat × Str)) :
    run (.char c) ([], caps) = [] := rfl

theorem mem_run_seq {a b : Rx} {m m' : Match} :
    m' ∈ run (.seq a b) m ↔ ∃ x ∈ run a m, m' ∈ run b x :=
  List.mem_flatMap

theorem mem_run_opt {a : Rx} {m m' : Match} :
    m' ∈ run (.opt a) m ↔ m' ∈ run a m ∨ m' = m := by
  rw [run_opt, List.mem_append, List.mem_singleton]

theorem mem_run_atEnd {m m' : Match} :
    m' ∈ run .atEnd m ↔ (m.1 = [] ∨ m.1 = ['\n']) ∧ m' = m := by
  rw [run]
  split <;> simp [*]

theorem mem_run_chars {p : Char → Bool} {s : Str} {caps : List (Nat × Str)} {m : Match} :
    m ∈ run (.chars p) (s, caps) ↔ ∃ c t, s = c :: t ∧ p c = true ∧ m = (t, caps) := by
  cases s with
  | nil => simp [run]
  | cons x s =>
      rw [run]
      constructor
      · intro hm
        split_ifs at hm with hx
        · exact ⟨x, s, rfl, hx, List.mem_singleton.mp hm⟩
        · cases hm
      · rintro ⟨c, t, hs, hc, rfl⟩
        obtain ⟨rfl, rfl⟩ := List.cons.inj hs
        rw [if_pos hc]
        exact List.mem_singleton_self _

theorem mem_run_char {c : Char} {s : Str} {caps : List (Nat × Str)} {m : Match} :
    m ∈ run (.char c) (s, caps) ↔ ∃ t, s = c :: t ∧ m = (t, caps) := by
  cases s with
  | nil => simp
  | cons x s =>
      rw [run_char_cons]
      constructor
      · intro hm
        split_ifs at hm with hx
        · exact ⟨s, by rw [hx], List.mem_singleton.mp hm⟩
        · simp at hm
      · rintro ⟨t, hs, rfl⟩
        obtain ⟨rfl, rfl⟩ := List.cons.inj hs
        simp

/-- A literal matches the texts that start with it. -/
theorem mem_run_lit {l s : Str} {caps : List (Nat × Str)} {m : Match} :
    m ∈ run (.lit l) (s, caps) ↔ ∃ t, s = l ++ t ∧ m = (t, caps) := by
  induction l generalizing s with
  | nil =>
      rw [Rx.lit, List.foldr_nil, run, List.mem_singleton]
      simp
  | cons c l ih =>
      have hcons : Rx.lit (c :: l) = .seq (.char c) (.lit l) := rfl
      rw [hcons, mem_run_seq]
      constructor
      · rintro ⟨x, hx, hm⟩
        obtain ⟨t, rfl, rfl⟩ := mem_run_char.mp hx
        obtain ⟨u, rfl, rfl⟩ := ih.mp hm
        exact ⟨u, rfl, rfl⟩
      · rintro ⟨t, rfl, rfl⟩
        exact ⟨(l ++ t, caps), mem_run_char.mpr ⟨l ++ t, rfl, rfl⟩, ih.mpr ⟨t, rfl, rfl⟩⟩

/-- A class repeated at least once. -/
theorem mem_run_plus_chars {p : Char → Bool} {s : Str} {caps : List (Nat × Str)}
    {m : Match} :
    m ∈ run (.plus (.chars p)) (s, caps) ↔
      ∃ d t, s = d ++ t ∧ d ≠ [] ∧ (∀ c ∈ d, p c = true) ∧ m = (t, caps) := by
  rw [Rx.plus, mem_run_seq]
  constructor
  · rintro ⟨x, hx, hm⟩
    cases s with
    | nil => simp [run] at hx
    | cons c s =>
        simp only [run] at hx
        split at hx
        · rename_i hc
          obtain rfl := List.mem_singleton.mp hx
          obtain ⟨d, t, rfl, hd, rfl⟩ := mem_run_star_chars.mp hm
          refine ⟨c :: d, t, rfl, by simp, ?_, rfl⟩
          rw [List.forall_mem_cons]
          exact ⟨hc, hd⟩
        · simp at hx
  · rintro ⟨d, t, rfl, hne, hd, rfl⟩
    cases d with
    | nil => exact absurd rfl hne
    | cons c d =>
        rw [List.forall_mem_cons] at hd
        refine ⟨(d ++ t, caps), by simp [run, hd.1], ?_⟩
        exact mem_run_star_chars.mpr ⟨d, t, rfl, hd.2, rfl⟩

/-- A group captures what its pattern consumes. -/
theorem mem_run_group {n : Nat} {a : Rx} {s : Str} {caps : List (Nat × Str)}
    {m : Match} {P : Str → Str → List (Nat × Str) → Prop}
    (h : ∀ m', m' ∈ run a (s, caps) ↔
      ∃ d t caps', s = d ++ t ∧ P d t caps' ∧ m' = (t, caps')) :
    m ∈ run (.group n a) (s, caps) ↔
      ∃ d t caps', s = d ++ t ∧ P d t caps' ∧ m = (t, (n, d) :: caps') := by
  rw [run_group, List.mem_map]
  constructor
  · rintro ⟨m', hm', rfl⟩
    obtain ⟨d, t, caps', rfl, hP, rfl⟩ := (h m').mp hm'
    exact ⟨d, t, caps', rfl, hP, by simp⟩
  · rintro ⟨d, t, caps', rfl, hP, rfl⟩
    exact ⟨(t, caps'), (h _).mpr ⟨d, t, caps', rfl, hP, rfl⟩, by simp⟩

theorem mem_run_group_star_chars {n : Nat} {p : Char → Bool} {s : Str}
    {caps : List (Nat × Str)} {m : Match} :
    m ∈ run (.group n (.star (.chars p))) (s, caps) ↔
      ∃ d t, s = d ++ t ∧ (∀ c ∈ d, p c = true) ∧ m = (t, (n, d) :: caps) := by
  rw [mem_run_group (P := fun d _ caps' => (∀ c ∈ d, p c = true) ∧ caps' = caps)]
  · constructor
    · rintro ⟨d, t, _, hs, ⟨hd, rfl⟩, hm⟩
      exact ⟨d, t, hs, hd, hm⟩
    · rintro ⟨d, t, hs, hd, hm⟩
      exact ⟨d, t, caps, hs, ⟨hd, rfl⟩, hm⟩
  · intro m'
    rw [mem_run_star_chars]
    constructor
    · rintro ⟨d, t, hs, hd, hm⟩
      exact ⟨d, t, caps, hs, ⟨hd, rfl⟩, hm⟩
    · rintro ⟨d, t, _, hs, ⟨hd, rfl⟩, hm⟩
      exact ⟨d, t, hs, hd, hm⟩

theorem mem_run_group_plus_chars {n : Nat} {p : Char → Bool} {s : Str}
    {caps : List (Nat × Str)} {m : Match} :
    m ∈ run (.group n (.plus (.chars p))) (s, caps) ↔
      ∃ d t, s = d ++ t ∧ d ≠ [] ∧ (∀ c ∈ d, p c = true) ∧ m = (t, (n, d) :: caps) := by
  rw [mem_run_group
    (P := fun d _ caps' => d ≠ [] ∧ (∀ c ∈ d, p c = true) ∧ caps' = caps)]
  · constructor
    · rintro ⟨d, t, _, hs, ⟨hne, hd, rfl⟩, hm⟩
      exact ⟨d, t, hs, hne, hd, hm⟩
    · rintro ⟨d, t, hs, hne, hd, hm⟩
      exact ⟨d, t, caps, hs, ⟨hne, hd, rfl⟩, hm⟩
  · intro m'
    rw [mem_run_plus_chars]
    constructor
    · rintro ⟨d, t, hs, hne, hd, hm⟩
      exact ⟨d, t, caps, hs, ⟨hne, hd, rfl⟩, hm⟩
    · rintro ⟨d, t, _, hs, ⟨hne, hd, rfl⟩, hm⟩
      exact ⟨d, t, hs, hne, hd, hm⟩

end Membership

end Regex
end Foundation
