import Mathlib.Computability.Language
import SystemTests.Foundation.RegexFind
import SystemTests.Foundation.RegexSub

/-!
# What a backtracking match takes

A pattern without anchors describes a language.  Running it takes exactly the
words of that language from the front of a text, whatever the order in which
the matches are tried.

**Results.**
* `exists_mem_run_iff`: the matches are the words of the language.
* `mem_run_iff`: a pattern without groups captures nothing else.
* `isSome_matchStart_validation`: the check of a whole text by `^(r)$`.
* `forall_of_mem_language`: the characters of a word.
-/

namespace Foundation
namespace Regex

open Text
open scoped Computability

/-- The language of a pattern; an anchor takes nothing. -/
def language : Rx → Language Char
  | .eps | .atEnd => 1
  | .chars p => {d | ∃ c, p c = true ∧ d = [c]}
  | .seq a b => language a * language b
  | .alt a b => language a + language b
  | .star a | .lazyStar a => (language a)∗
  | .group _ a => language a

/-- The pattern does not look at what follows. -/
def Unanchored : Rx → Prop
  | .eps | .chars _ => True
  | .atEnd => False
  | .seq a b | .alt a b => Unanchored a ∧ Unanchored b
  | .star a | .lazyStar a | .group _ a => Unanchored a

section Repetition

variable {lazy : Bool} {step : Match → List Match}

theorem self_mem_repeatMatches (k : Nat) (m : Match) : m ∈ repeatMatches lazy step k m := by
  cases k with
  | zero => exact List.mem_singleton_self m
  | succ k => cases lazy <;> simp [repeatMatches]

theorem mem_repeatMatches_of_step {k : Nat} {m x m' : Match} (hx : x ∈ step m)
    (hlt : x.1.length < m.1.length) (hm' : m' ∈ repeatMatches lazy step k x) :
    m' ∈ repeatMatches lazy step (k + 1) m := by
  have hmore : m' ∈ ((step m).filter fun x => x.1.length < m.1.length).flatMap
      (repeatMatches lazy step k) :=
    List.mem_flatMap.mpr ⟨x, List.mem_filter.mpr ⟨hx, by simpa using hlt⟩, hm'⟩
  cases lazy with
  | false => exact List.mem_append_left [m] hmore
  | true => exact List.mem_cons_of_mem m hmore

variable {l : Language Char}

theorem exists_of_mem_repeatMatches
    (hstep : ∀ s caps t caps', (t, caps') ∈ step (s, caps) → ∃ d ∈ l, s = d ++ t) :
    ∀ (k : Nat) {s t : Str} {caps caps' : List (Nat × Str)},
      (t, caps') ∈ repeatMatches lazy step k (s, caps) → ∃ d ∈ l∗, s = d ++ t
  | 0, s, t, caps, caps', h => by
      rw [repeatMatches, List.mem_singleton, Prod.mk.injEq] at h
      exact ⟨[], Language.nil_mem_kstar l, h.1.symm⟩
  | k + 1, s, t, caps, caps', h => by
      rcases mem_repeatMatches_cases h with heq | ⟨⟨u, caps''⟩, hu, hrest⟩
      · rw [Prod.mk.injEq] at heq
        exact ⟨[], Language.nil_mem_kstar l, heq.1.symm⟩
      · obtain ⟨d, hd, rfl⟩ := hstep s caps u caps'' hu
        obtain ⟨e, he, rfl⟩ := exists_of_mem_repeatMatches hstep k hrest
        obtain ⟨words, rfl, hwords⟩ := Language.mem_kstar.mp he
        refine ⟨d ++ words.flatten, Language.mem_kstar.mpr ⟨d :: words, rfl, ?_⟩,
          (List.append_assoc d _ t).symm⟩
        rw [List.forall_mem_cons]
        exact ⟨hd, hwords⟩

theorem exists_mem_repeatMatches
    (hstep : ∀ d ∈ l, ∀ t caps, ∃ caps', (t, caps') ∈ step (d ++ t, caps)) (t : Str) :
    ∀ (words : List Str) (k : Nat) (caps : List (Nat × Str)),
      (∀ word ∈ words, word ∈ l ∧ word ≠ []) → words.flatten.length ≤ k →
        ∃ caps', (t, caps') ∈ repeatMatches lazy step k (words.flatten ++ t, caps)
  | [], k, caps, _, _ => ⟨caps, self_mem_repeatMatches k (t, caps)⟩
  | word :: words, k, caps, hwords, hk => by
      rw [List.forall_mem_cons] at hwords
      rw [List.flatten_cons, List.length_append] at hk
      have hpos : 0 < word.length := List.length_pos_of_ne_nil hwords.1.2
      obtain ⟨k, rfl⟩ : ∃ j, k = j + 1 := ⟨k - 1, by omega⟩
      obtain ⟨caps', hx⟩ := hstep word hwords.1.1 (words.flatten ++ t) caps
      obtain ⟨caps'', hm⟩ := exists_mem_repeatMatches hstep t words k caps' hwords.2 (by omega)
      refine ⟨caps'', mem_repeatMatches_of_step ?_ ?_ hm⟩
      · rw [List.flatten_cons, List.append_assoc]
        exact hx
      · simp only [List.flatten_cons, List.length_append]
        omega

/-- The matches of a repetition, lazy or not. -/
theorem exists_mem_repeatMatches_iff
    (hstep : ∀ s caps t, (∃ caps', (t, caps') ∈ step (s, caps)) ↔ ∃ d ∈ l, s = d ++ t)
    (s : Str) (caps : List (Nat × Str)) (t : Str) :
    (∃ caps', (t, caps') ∈ repeatMatches lazy step s.length (s, caps)) ↔
      ∃ d ∈ l∗, s = d ++ t := by
  constructor
  · rintro ⟨caps', h⟩
    exact exists_of_mem_repeatMatches
      (fun s caps t caps' hmem => (hstep s caps t).mp ⟨caps', hmem⟩) s.length h
  · rintro ⟨d, hd, rfl⟩
    obtain ⟨words, rfl, hwords⟩ := Language.mem_kstar_iff_exists_nonempty.mp hd
    refine exists_mem_repeatMatches (fun d hd t caps => (hstep (d ++ t) caps t).mpr ⟨d, hd, rfl⟩)
      t words _ caps hwords ?_
    rw [List.length_append]
    omega

end Repetition

section Language

variable {r : Rx}

/-- **Matches are words**: what running a pattern can leave of a text is what its language
leaves. -/
theorem exists_mem_run_iff (h : Unanchored r) (s : Str) (caps : List (Nat × Str)) (t : Str) :
    (∃ caps', (t, caps') ∈ run r (s, caps)) ↔ ∃ d ∈ language r, s = d ++ t := by
  induction r generalizing s caps t with
  | eps =>
      simp only [run, List.mem_singleton, Prod.mk.injEq, language, Language.mem_one,
        exists_eq_left, List.nil_append]
      constructor
      · rintro ⟨_, hs, _⟩
        exact hs.symm
      · intro hs
        exact ⟨caps, hs.symm, rfl⟩
  | chars p =>
      simp only [mem_run_chars, Prod.mk.injEq]
      constructor
      · rintro ⟨_, c, u, rfl, hc, rfl, -⟩
        exact ⟨[c], ⟨c, hc, rfl⟩, rfl⟩
      · rintro ⟨_, ⟨c, hc, rfl⟩, rfl⟩
        exact ⟨caps, c, t, rfl, hc, rfl, rfl⟩
  | seq a b iha ihb =>
      constructor
      · rintro ⟨caps', hmem⟩
        obtain ⟨⟨u, caps''⟩, hu, hrest⟩ := mem_run_seq.mp hmem
        obtain ⟨d, hd, rfl⟩ := (iha h.1 s caps u).mp ⟨caps'', hu⟩
        obtain ⟨e, he, rfl⟩ := (ihb h.2 u caps'' t).mp ⟨caps', hrest⟩
        exact ⟨d ++ e, Language.mem_mul.mpr ⟨d, hd, e, he, rfl⟩, (List.append_assoc d e t).symm⟩
      · rintro ⟨_, hmem, rfl⟩
        obtain ⟨d, hd, e, he, rfl⟩ := Language.mem_mul.mp hmem
        obtain ⟨caps'', hu⟩ :=
          (iha h.1 (d ++ e ++ t) caps (e ++ t)).mpr ⟨d, hd, List.append_assoc d e t⟩
        obtain ⟨caps', hmem⟩ := (ihb h.2 (e ++ t) caps'' t).mpr ⟨e, he, rfl⟩
        exact ⟨caps', mem_run_seq.mpr ⟨_, hu, hmem⟩⟩
  | alt a b iha ihb =>
      simp only [run, List.mem_append, exists_or, iha h.1 s caps t, ihb h.2 s caps t, language,
        Language.mem_add, or_and_right]
  | star a ih => exact exists_mem_repeatMatches_iff (ih h) s caps t
  | lazyStar a ih => exact exists_mem_repeatMatches_iff (ih h) s caps t
  | group n a ih =>
      rw [language, ← ih h s caps t]
      simp only [run_group, List.mem_map, Prod.mk.injEq, Prod.exists]
      constructor
      · rintro ⟨_, u, caps', hmem, rfl, -⟩
        exact ⟨caps', hmem⟩
      · rintro ⟨caps', hmem⟩
        exact ⟨_, t, caps', hmem, rfl, rfl⟩
  | atEnd => exact absurd h id

theorem repeatMatches_snd {lazy : Bool} {step : Match → List Match}
    (hstep : ∀ m, ∀ m' ∈ step m, m'.2 = m.2) :
    ∀ (k : Nat) (m : Match), ∀ m' ∈ repeatMatches lazy step k m, m'.2 = m.2
  | 0, m, m', hm' => by
      rw [List.mem_singleton.mp hm']
  | k + 1, m, m', hm' => by
      rcases mem_repeatMatches_cases hm' with rfl | ⟨x, hx, hmx⟩
      · rfl
      · rw [repeatMatches_snd hstep k x m' hmx, hstep m x hx]

/-- A pattern without groups captures nothing. -/
theorem run_snd (h : groups r = []) (m : Match) : ∀ m' ∈ run r m, m'.2 = m.2 := by
  induction r generalizing m with
  | eps =>
      intro m' hm'
      rw [List.mem_singleton.mp hm']
  | chars p =>
      intro m' hm'
      obtain ⟨_, _, _, _, rfl⟩ := mem_run_chars.mp hm'
      rfl
  | seq a b iha ihb =>
      intro m' hm'
      rw [groups, List.append_eq_nil_iff] at h
      obtain ⟨x, hx, hm'⟩ := mem_run_seq.mp hm'
      rw [ihb h.2 x m' hm', iha h.1 m x hx]
  | alt a b iha ihb =>
      intro m' hm'
      rw [groups, List.append_eq_nil_iff] at h
      rcases List.mem_append.mp hm' with hm' | hm'
      · exact iha h.1 m m' hm'
      · exact ihb h.2 m m' hm'
  | star a ih => exact repeatMatches_snd (ih h) m.1.length m
  | lazyStar a ih => exact repeatMatches_snd (ih h) m.1.length m
  | group n a ih => exact absurd h (List.cons_ne_nil n (groups a))
  | atEnd =>
      intro m' hm'
      rw [(mem_run_atEnd.mp hm').2]

/-- The matches of a pattern that has neither anchors nor groups. -/
theorem mem_run_iff (h : Unanchored r) (hgroups : groups r = []) {s : Str}
    {caps : List (Nat × Str)} {m : Match} :
    m ∈ run r (s, caps) ↔ ∃ d t, s = d ++ t ∧ d ∈ language r ∧ m = (t, caps) := by
  constructor
  · intro hm
    obtain ⟨d, hd, hs⟩ := (exists_mem_run_iff h s caps m.1).mp ⟨m.2, hm⟩
    exact ⟨d, m.1, hs, hd, Prod.ext rfl (run_snd hgroups (s, caps) m hm)⟩
  · rintro ⟨d, t, hs, hd, rfl⟩
    obtain ⟨caps', hm⟩ := (exists_mem_run_iff h s caps t).mpr ⟨d, hd, hs⟩
    have hcaps : caps' = caps := run_snd hgroups (s, caps) (t, caps') hm
    rw [← hcaps]
    exact hcaps ▸ hm

theorem mem_run_group_iff (h : Unanchored r) (hgroups : groups r = []) {n : Nat} {s : Str}
    {caps : List (Nat × Str)} {m : Match} :
    m ∈ run (.group n r) (s, caps) ↔
      ∃ d t, s = d ++ t ∧ d ∈ language r ∧ m = (t, (n, d) :: caps) := by
  rw [mem_run_group (P := fun d _ caps' => d ∈ language r ∧ caps' = caps)]
  · constructor
    · rintro ⟨d, t, _, hs, ⟨hd, rfl⟩, hm⟩
      exact ⟨d, t, hs, hd, hm⟩
    · rintro ⟨d, t, hs, hd, hm⟩
      exact ⟨d, t, caps, hs, ⟨hd, rfl⟩, hm⟩
  · intro m'
    rw [mem_run_iff h hgroups]
    constructor
    · rintro ⟨d, t, hs, hd, hm⟩
      exact ⟨d, t, caps, hs, ⟨hd, rfl⟩, hm⟩
    · rintro ⟨d, t, _, hs, ⟨hd, rfl⟩, hm⟩
      exact ⟨d, t, hs, hd, hm⟩

/-- A word of the language, alone or as a line of its own. -/
def IsLineOf (l : Language Char) (s : Str) : Prop := ∃ d ∈ l, s = d ∨ s = d ++ ['\n']

/-- **The check of a whole text** by `^(r)$`: `$` also matches before a newline at the end. -/
theorem isSome_matchStart_validation (h : Unanchored r) (hgroups : groups r = []) (n : Nat)
    (s : Str) :
    (matchStart (.seq (.group n r) .atEnd) s).isSome = true ↔ IsLineOf (language r) s := by
  rw [matchStart, List.isSome_head?]
  constructor
  · intro hne
    obtain ⟨m, hm⟩ := List.exists_mem_of_ne_nil _ hne
    obtain ⟨x, hx, hend⟩ := mem_run_seq.mp hm
    obtain ⟨d, t, rfl, hd, rfl⟩ := (mem_run_group_iff h hgroups).mp hx
    obtain ⟨ht | ht, -⟩ := mem_run_atEnd.mp hend
    · exact ⟨d, hd, Or.inl (by rw [show t = [] from ht, List.append_nil])⟩
    · exact ⟨d, hd, Or.inr (by rw [show t = ['\n'] from ht])⟩
  · have hend : ∀ d ∈ language r, ∀ t : Str, t = [] ∨ t = ['\n'] →
        run (.seq (.group n r) .atEnd) (d ++ t, []) ≠ [] := by
      intro d hd t ht
      exact List.ne_nil_of_mem (a := (t, [(n, d)])) (mem_run_seq.mpr ⟨_,
        (mem_run_group_iff h hgroups).mpr ⟨d, t, rfl, hd, rfl⟩, mem_run_atEnd.mpr ⟨ht, rfl⟩⟩)
    rintro ⟨d, hd, rfl | rfl⟩
    · have hne := hend _ hd [] (Or.inl rfl)
      rw [List.append_nil] at hne
      exact hne
    · exact hend d hd ['\n'] (Or.inr rfl)

end Language

section Bounded

variable {a : Rx} {p : Char → Bool}

/-- The characters of a word are in the classes of the pattern. -/
theorem forall_of_mem_language {r : Rx} (h : Unanchored r) (hp : Within p r) {d : Str}
    (hd : d ∈ language r) : ∀ c ∈ d, p c = true := by
  obtain ⟨caps, hmem⟩ := (exists_mem_run_iff h d [] []).mpr ⟨d, hd, (List.append_nil d).symm⟩
  obtain ⟨e, he, hpe⟩ := mem_run_within hp (d, []) ([], caps) hmem
  rw [List.append_nil] at he
  rw [show d = e from he]
  exact hpe

theorem unanchored_between (h : Unanchored a) (low high : Nat) :
    Unanchored (.between low high a) := by
  have htimes : ∀ n, Unanchored (.times n a) := by
    intro n
    induction n with
    | zero => trivial
    | succ n ih => exact ⟨h, ih⟩
  have hatMost : ∀ n, Unanchored (.atMost n a) := by
    intro n
    induction n with
    | zero => trivial
    | succ n ih => exact ⟨⟨h, ih⟩, trivial⟩
  exact ⟨htimes low, hatMost (high - low)⟩

theorem within_between (h : Within p a) (low high : Nat) : Within p (.between low high a) := by
  have htimes : ∀ n, Within p (.times n a) := by
    intro n
    induction n with
    | zero => trivial
    | succ n ih => exact ⟨h, ih⟩
  have hatMost : ∀ n, Within p (.atMost n a) := by
    intro n
    induction n with
    | zero => trivial
    | succ n ih => exact ⟨⟨h, ih⟩, trivial⟩
  exact ⟨htimes low, hatMost (high - low)⟩

theorem groups_between (h : groups a = []) (low high : Nat) :
    groups (.between low high a) = [] := by
  have htimes : ∀ n, groups (.times n a) = [] := by
    intro n
    induction n with
    | zero => rfl
    | succ n ih => rw [Rx.times, groups, h, ih, List.append_nil]
  have hatMost : ∀ n, groups (.atMost n a) = [] := by
    intro n
    induction n with
    | zero => rfl
    | succ n ih =>
        rw [Rx.atMost, Rx.opt, groups, groups, groups, h, ih]
        rfl
  rw [Rx.between, groups, htimes, hatMost, List.append_nil]

end Bounded

end Regex
end Foundation
