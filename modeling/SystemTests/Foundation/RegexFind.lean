import SystemTests.Foundation.Regex

/-!
# All matches of a pattern

`finditer` gives the matches of a pattern from left to right, each of them the
first match at its position, none overlapping another.

A text is `Delimited` when the matches found in it do not depend on what follows,
as long as that starts with a delimiter.  Delimited texts can be searched one by
one: what is found in their concatenation with separators is what is found in
each of them.

**Results.**
* `finditer_of_matchStart`, `finditer_skip`: one step of the search.
* `mem_run_within`: a pattern consumes characters of its classes only.
* `head?_run_seq_star`: the first match of a pattern that ends in a repeated
  class which holds all of its characters.
* `Delimited.join`, `captured_join`: searching separated texts one by one.
-/

namespace Foundation
namespace Regex

open Text

/-- After an empty match the next one has to consume something or to start further on. -/
def finditerGo (r : Rx) : Nat → Bool → Str → List Match
  | 0, _, _ => []
  | k + 1, mustAdvance, s =>
      match (run r (s, [])).find? fun m => !(mustAdvance && m.1 = s) with
      | some m => m :: finditerGo r k (m.1 = s) m.1
      | none =>
          match s with
          | [] => []
          | _ :: s => finditerGo r k false s

def finditer (r : Rx) (s : Str) : List Match := finditerGo r (2 * s.length + 2) false s

/-- What a group captures in the matches of a text. -/
def captured (r : Rx) (n : Nat) (s : Str) : List Str :=
  (finditer r s).map fun m => (capture n m).getD []

section Steps

/-- Every match of the pattern takes some character. -/
def Consuming (r : Rx) : Prop := ∀ s : Str, ∀ m ∈ run r (s, []), m.1.length < s.length

variable {r : Rx}

theorem Consuming.length_lt (h : Consuming r) {s : Str} {m : Match}
    (hm : matchStart r s = some m) : m.1.length < s.length :=
  h s m (List.mem_of_mem_head? (Option.mem_def.mpr hm))

theorem Consuming.find?_eq (h : Consuming r) (mustAdvance : Bool) (s : Str) :
    (run r (s, [])).find? (fun m => !(mustAdvance && m.1 = s)) = matchStart r s := by
  unfold matchStart
  cases hrun : run r (s, []) with
  | nil => rfl
  | cons m ms =>
      have hlt := h s m (by rw [hrun]; exact List.mem_cons_self)
      have hne : m.1 ≠ s := by
        intro heq
        rw [heq] at hlt
        omega
      rw [List.find?_cons_of_pos (by simp [hne]), List.head?_cons]

theorem Consuming.matchStart_nil (h : Consuming r) : matchStart r [] = none := by
  cases hm : matchStart r [] with
  | none => rfl
  | some m => exact absurd (h.length_lt hm) (by simp)

theorem finditerGo_of_some (h : Consuming r) {s : Str} {m : Match}
    (hm : matchStart r s = some m) (k : Nat) (b : Bool) :
    finditerGo r (k + 1) b s = m :: finditerGo r k (m.1 = s) m.1 := by
  rw [finditerGo.eq_def]
  simp only [h.find?_eq, hm]

theorem finditerGo_of_none (h : Consuming r) {c : Char} {s : Str}
    (hm : matchStart r (c :: s) = none) (k : Nat) (b : Bool) :
    finditerGo r (k + 1) b (c :: s) = finditerGo r k false s := by
  rw [finditerGo.eq_def]
  simp only [h.find?_eq, hm]

theorem finditerGo_nil (h : Consuming r) (k : Nat) (b : Bool) :
    finditerGo r (k + 1) b [] = [] := by
  rw [finditerGo.eq_def]
  simp only [h.find?_eq, h.matchStart_nil]

/-- With enough fuel the search does not depend on the fuel. -/
theorem finditerGo_fuel (h : Consuming r) :
    ∀ (k k' : Nat) (b b' : Bool) (s : Str), s.length < k → s.length < k' →
      finditerGo r k b s = finditerGo r k' b' s
  | 0, _, _, _, s, hk, _ => by omega
  | _ + 1, 0, _, _, s, _, hk' => by omega
  | k + 1, k' + 1, b, b', s, hk, hk' => by
      cases hm : matchStart r s with
      | some m =>
          have hlt := h.length_lt hm
          rw [finditerGo_of_some h hm, finditerGo_of_some h hm,
            finditerGo_fuel h k k' _ _ m.1 (by omega) (by omega)]
      | none =>
          cases s with
          | nil => rw [finditerGo_nil h, finditerGo_nil h]
          | cons c s =>
              rw [List.length_cons] at hk hk'
              rw [finditerGo_of_none h hm, finditerGo_of_none h hm,
                finditerGo_fuel h k k' _ _ s (by omega) (by omega)]

theorem finditerGo_eq_finditer (h : Consuming r) {k : Nat} {b : Bool} {s : Str}
    (hk : s.length < k) : finditerGo r k b s = finditer r s :=
  finditerGo_fuel h k _ b false s hk (by omega)

theorem finditer_of_matchStart (h : Consuming r) {s : Str} {m : Match}
    (hm : matchStart r s = some m) : finditer r s = m :: finditer r m.1 := by
  have hlt := h.length_lt hm
  rw [finditer, finditerGo_of_some h hm, finditerGo_eq_finditer h (by omega)]

theorem finditer_nil (h : Consuming r) : finditer r [] = [] := finditerGo_nil h _ _

theorem finditer_cons_of_none (h : Consuming r) {c : Char} {s : Str}
    (hm : matchStart r (c :: s) = none) : finditer r (c :: s) = finditer r s := by
  rw [finditer, finditerGo_of_none h hm,
    finditerGo_eq_finditer h (by rw [List.length_cons]; omega)]

/-- Every match of the pattern starts with a character of the class. -/
def StartsIn (start : Char → Bool) (r : Rx) : Prop :=
  ∀ c s, start c = false → run r (c :: s, []) = []

theorem finditer_skip {start : Char → Bool} (h : Consuming r) (hstart : StartsIn start r)
    (s : Str) : ∀ d : Str, (∀ c ∈ d, start c = false) → finditer r (d ++ s) = finditer r s
  | [], _ => rfl
  | c :: d, hd => by
      rw [List.forall_mem_cons] at hd
      have hm : matchStart r (c :: (d ++ s)) = none := by
        rw [matchStart, hstart c _ hd.1]
        rfl
      rw [List.cons_append, finditer_cons_of_none h hm, finditer_skip h hstart s d hd.2]

theorem captured_skip {start : Char → Bool} (h : Consuming r) (hstart : StartsIn start r)
    (n : Nat) {d : Str} (hd : ∀ c ∈ d, start c = false) (s : Str) :
    captured r n (d ++ s) = captured r n s := by
  rw [captured, finditer_skip h hstart s d hd, captured]

theorem captured_nil (h : Consuming r) (n : Nat) : captured r n [] = [] := by
  rw [captured, finditer_nil h, List.map_nil]

theorem captured_eq_nil {start : Char → Bool} (h : Consuming r) (hstart : StartsIn start r)
    (n : Nat) {d : Str} (hd : ∀ c ∈ d, start c = false) : captured r n d = [] := by
  have hskip := captured_skip h hstart n hd []
  rw [List.append_nil] at hskip
  rw [hskip, captured_nil h]

end Steps

section Classes

/-- The classes of the pattern are part of a class. -/
def Within (p : Char → Bool) : Rx → Prop
  | .eps | .atEnd => True
  | .chars q => ∀ c, q c = true → p c = true
  | .seq a b | .alt a b => Within p a ∧ Within p b
  | .star a | .lazyStar a | .group _ a => Within p a

variable {p : Char → Bool}

theorem mem_repeatMatches_within {lazy : Bool} {step : Match → List Match}
    (hstep : ∀ m, ∀ m' ∈ step m, ∃ d, m.1 = d ++ m'.1 ∧ ∀ c ∈ d, p c = true) :
    ∀ (k : Nat) (m : Match), ∀ m' ∈ repeatMatches lazy step k m,
      ∃ d, m.1 = d ++ m'.1 ∧ ∀ c ∈ d, p c = true
  | 0, m, m', hm' => by
      rw [repeatMatches, List.mem_singleton] at hm'
      rw [hm']
      exact ⟨[], rfl, by simp⟩
  | k + 1, m, m', hm' => by
      rcases mem_repeatMatches_cases hm' with rfl | ⟨x, hx, hmx⟩
      · exact ⟨[], rfl, by simp⟩
      · obtain ⟨d, hd, hpd⟩ := hstep m x hx
        obtain ⟨e, he, hpe⟩ := mem_repeatMatches_within hstep k x m' hmx
        refine ⟨d ++ e, by rw [hd, he, List.append_assoc], ?_⟩
        rw [List.forall_mem_append]
        exact ⟨hpd, hpe⟩

/-- **A pattern consumes characters of its classes only.** -/
theorem mem_run_within {r : Rx} (h : Within p r) (m : Match) :
    ∀ m' ∈ run r m, ∃ d, m.1 = d ++ m'.1 ∧ ∀ c ∈ d, p c = true := by
  induction r generalizing m with
  | eps =>
      intro m' hm'
      rw [run, List.mem_singleton] at hm'
      rw [hm']
      exact ⟨[], rfl, by simp⟩
  | chars q =>
      intro m' hm'
      obtain ⟨s, caps⟩ := m
      obtain ⟨c, t, rfl, hc, rfl⟩ := mem_run_chars.mp hm'
      exact ⟨[c], rfl, by simpa using h c hc⟩
  | seq a b iha ihb =>
      intro m' hm'
      obtain ⟨x, hx, hmx⟩ := mem_run_seq.mp hm'
      obtain ⟨d, hd, hpd⟩ := iha h.1 m x hx
      obtain ⟨e, he, hpe⟩ := ihb h.2 x m' hmx
      refine ⟨d ++ e, by rw [hd, he, List.append_assoc], ?_⟩
      rw [List.forall_mem_append]
      exact ⟨hpd, hpe⟩
  | alt a b iha ihb =>
      intro m' hm'
      rcases List.mem_append.mp hm' with hm' | hm'
      · exact iha h.1 m m' hm'
      · exact ihb h.2 m m' hm'
  | star a ih => exact mem_repeatMatches_within (ih h) m.1.length m
  | lazyStar a ih => exact mem_repeatMatches_within (ih h) m.1.length m
  | group n a ih =>
      intro m' hm'
      obtain ⟨x, hx, rfl⟩ := List.mem_map.mp hm'
      exact ih h m x hx
  | atEnd =>
      intro m' hm'
      obtain ⟨-, rfl⟩ := mem_run_atEnd.mp hm'
      exact ⟨[], rfl, by simp⟩

/-- The longest repetition of a class comes first. -/
theorem head?_run_star_chars (m : Match) :
    (run (.star (.chars p)) m).head? = some (m.1.dropWhile p, m.2) := by
  obtain ⟨s, caps⟩ := m
  induction s with
  | nil => rw [run_star_chars_nil, List.head?_cons, List.dropWhile_nil]
  | cons c s ih =>
      rw [run_star_chars_cons, List.dropWhile_cons]
      split_ifs
      · rw [List.head?_append, ih]
        rfl
      · rfl

/-- The first match of a pattern before a repeated class that holds its characters. -/
theorem head?_run_seq_star {r : Rx} (h : Within p r) (m : Match) :
    ((run (.seq r (.star (.chars p))) m).head?).map Prod.fst =
      if run r m = [] then none else some (m.1.dropWhile p) := by
  rw [run_seq]
  cases hrun : run r m with
  | nil => rfl
  | cons x xs =>
      obtain ⟨d, hd, hpd⟩ := mem_run_within h m x (by rw [hrun]; exact List.mem_cons_self)
      have hdrop : m.1.dropWhile p = x.1.dropWhile p := by
        rw [hd, List.dropWhile_append_of_pos hpd]
      rw [List.flatMap_cons, List.head?_append, head?_run_star_chars, hdrop]
      simp

end Classes

section Delimiters

/-- What is found in the text does not depend on what follows after a delimiter. -/
def Delimited (r : Rx) (n : Nat) (delim : Char → Bool) (s : Str) : Prop :=
  ∀ tail : Str, (∀ c ∈ tail.head?, delim c = true) →
    captured r n (s ++ tail) = captured r n s ++ captured r n tail

variable {r : Rx} {n : Nat} {start delim : Char → Bool}

theorem Delimited.of_skip (h : Consuming r) (hstart : StartsIn start r) {d : Str}
    (hd : ∀ c ∈ d, start c = false) : Delimited r n delim d := by
  intro tail _
  rw [captured_skip h hstart n hd, captured_eq_nil h hstart n hd, List.nil_append]

/-- Characters that start no match may stand around. -/
theorem Delimited.pad (h : Consuming r) (hstart : StartsIn start r) {a s b : Str}
    (ha : ∀ c ∈ a, start c = false) (hb : ∀ c ∈ b, start c = false)
    (hdelim : ∀ c ∈ b, delim c = true) (hs : Delimited r n delim s) :
    Delimited r n delim (a ++ (s ++ b)) ∧ captured r n (a ++ (s ++ b)) = captured r n s := by
  have hhead : ∀ tail : Str, (∀ c ∈ tail.head?, delim c = true) →
      ∀ c ∈ (b ++ tail).head?, delim c = true := by
    intro tail htail c hc
    cases b with
    | nil => exact htail c hc
    | cons x b =>
        obtain rfl : x = c := by simpa using hc
        exact hdelim x List.mem_cons_self
  have hall : ∀ tail : Str, (∀ c ∈ tail.head?, delim c = true) →
      captured r n (a ++ (s ++ (b ++ tail))) = captured r n s ++ captured r n tail := by
    intro tail htail
    rw [captured_skip h hstart n ha, hs _ (hhead tail htail), captured_skip h hstart n hb]
  have hself : captured r n (a ++ (s ++ b)) = captured r n s := by
    have hnil := hall [] (by simp)
    rwa [List.append_nil, captured_nil h, List.append_nil] at hnil
  refine ⟨?_, hself⟩
  intro tail htail
  rw [hself, List.append_assoc, List.append_assoc, hall tail htail]

/-- **Separated texts are searched one by one.** -/
theorem Delimited.join (h : Consuming r) (hstart : StartsIn start r) {x : Char} {sep : Str}
    (hsep : ∀ c ∈ x :: sep, start c = false) (hx : delim x = true) :
    ∀ {ps : List Str}, (∀ p ∈ ps, Delimited r n delim p) →
      Delimited r n delim (Text.join (x :: sep) ps) ∧
        captured r n (Text.join (x :: sep) ps) = ps.flatMap (captured r n)
  | [], _ => by
      refine ⟨Delimited.of_skip h hstart (by simp [Text.join]), ?_⟩
      rw [List.flatMap_nil, join_nil, captured_nil h]
  | [p], hps => by
      rw [join_singleton]
      exact ⟨hps p List.mem_cons_self, by simp⟩
  | p :: q :: ps, hps => by
      rw [List.forall_mem_cons] at hps
      obtain ⟨ih, ihcaptured⟩ := Delimited.join h hstart hsep hx hps.2
      have hjoin := join_cons_cons (x :: sep) p q ps
      have hself : captured r n (Text.join (x :: sep) (p :: q :: ps)) =
          captured r n p ++ captured r n (Text.join (x :: sep) (q :: ps)) := by
        rw [hjoin, List.append_assoc, hps.1 _ (by simpa using hx),
          captured_skip h hstart n hsep]
      refine ⟨?_, by rw [hself, ihcaptured]; rfl⟩
      intro tail htail
      rw [hself, hjoin, List.append_assoc, List.append_assoc, hps.1 _ (by simpa using hx),
        captured_skip h hstart n hsep, ih tail htail, List.append_assoc]

end Delimiters

end Regex
end Foundation
