import Mathlib.Data.List.DropRight
import SystemTests.Foundation.RegexSub

/-!
# Cutting a text at the matches of a pattern

`cut` is `re.split` for a pattern without groups.  The pieces are what stands
before, between and after the matches that `finditer` finds.

A padded separator is a character with any number of padding characters around
it, such as `[ \t]*,[ \t]*`.

**Results.**
* `cut_of_matchStart`, `cut_cons_of_none`: the pieces, from one place to the next.
* `cut_padded_append`: a text is cut at its first separator, without the padding
  on both sides.
* `cut_padded_append_sep`, `cut_padded_join`: the pieces of texts with separators between them.
* `cut_padded_join_pieces`: joined pieces are cut apart again.
-/

namespace Foundation
namespace Regex

open Text

/-- The pieces of the rest of a text, `piece` being the part of the first one already passed. -/
def cutGo (r : Rx) : Nat → Bool → Str → Str → List Str
  | 0, _, piece, s => [piece ++ s]
  | k + 1, mustAdvance, piece, s =>
      match (run r (s, [])).find? fun m => !(mustAdvance && m.1 = s) with
      | some m => piece :: cutGo r k (m.1 = s) [] m.1
      | none =>
          match s with
          | [] => [piece]
          | c :: s => cutGo r k false (piece ++ [c]) s

/-- `re.split` -/
def cut (r : Rx) (s : Str) : List Str := cutGo r (2 * s.length + 2) false [] s

section Steps

variable {r : Rx}

theorem cutGo_of_some (h : Consuming r) {s : Str} {m : Match}
    (hm : matchStart r s = some m) (k : Nat) (b : Bool) (piece : Str) :
    cutGo r (k + 1) b piece s = piece :: cutGo r k (m.1 = s) [] m.1 := by
  rw [cutGo.eq_def]
  simp only [h.find?_eq, hm]

theorem cutGo_of_none (h : Consuming r) {c : Char} {s : Str}
    (hm : matchStart r (c :: s) = none) (k : Nat) (b : Bool) (piece : Str) :
    cutGo r (k + 1) b piece (c :: s) = cutGo r k false (piece ++ [c]) s := by
  rw [cutGo.eq_def]
  simp only [h.find?_eq, hm]

theorem cutGo_nil (h : Consuming r) (k : Nat) (b : Bool) (piece : Str) :
    cutGo r (k + 1) b piece [] = [piece] := by
  rw [cutGo.eq_def]
  simp only [h.find?_eq, h.matchStart_nil]

/-- With enough fuel the pieces depend on the text only. -/
theorem cutGo_fuel (h : Consuming r) :
    ∀ (k k' : Nat) (b b' : Bool) (piece s : Str), s.length < k → s.length < k' →
      cutGo r k b piece s = (cutGo r k' b' [] s).modifyHead (piece ++ ·)
  | 0, _, _, _, _, s, hk, _ => by omega
  | _ + 1, 0, _, _, _, s, _, hk' => by omega
  | k + 1, k' + 1, b, b', piece, s, hk, hk' => by
      cases hm : matchStart r s with
      | some m =>
          have hlt := h.length_lt hm
          rw [cutGo_of_some h hm, cutGo_of_some h hm, List.modifyHead_cons, List.append_nil,
            cutGo_fuel h k (s.length + 1) _ false [] m.1 (by omega) (by omega),
            cutGo_fuel h k' (s.length + 1) _ false [] m.1 (by omega) (by omega)]
      | none =>
          cases s with
          | nil => rw [cutGo_nil h, cutGo_nil h, List.modifyHead_cons, List.append_nil]
          | cons c s =>
              rw [List.length_cons] at hk hk'
              rw [cutGo_of_none h hm, cutGo_of_none h hm, List.nil_append,
                cutGo_fuel h k (s.length + 1) _ false (piece ++ [c]) s (by omega) (by omega),
                cutGo_fuel h k' (s.length + 1) _ false [c] s (by omega) (by omega),
                List.modifyHead_modifyHead]
              congr 1
              funext rest
              exact List.append_assoc piece [c] rest
termination_by _ _ _ _ _ s => s.length

theorem cutGo_eq_cut (h : Consuming r) {k : Nat} {b : Bool} {piece s : Str}
    (hk : s.length < k) : cutGo r k b piece s = (cut r s).modifyHead (piece ++ ·) :=
  cutGo_fuel h k _ b false piece s hk (by omega)

theorem cut_nil (h : Consuming r) : cut r [] = [[]] := cutGo_nil h _ _ _

theorem cut_of_matchStart (h : Consuming r) {s : Str} {m : Match}
    (hm : matchStart r s = some m) : cut r s = [] :: cut r m.1 := by
  have hlt := h.length_lt hm
  rw [cut, cutGo_of_some h hm, cutGo_eq_cut h (by omega)]
  cases cut r m.1 <;> rfl

theorem cut_cons_of_none (h : Consuming r) {c : Char} {s : Str}
    (hm : matchStart r (c :: s) = none) : cut r (c :: s) = (cut r s).modifyHead (c :: ·) := by
  rw [cut, cutGo_of_none h hm, cutGo_eq_cut h (by rw [List.length_cons]; omega)]
  rfl

end Steps

section Padded

/-- A separator with padding around it. -/
def padded (p : Char → Bool) (sep : Char) : Rx :=
  .seq (.star (.chars p)) (.seq (.char sep) (.star (.chars p)))

variable {p : Char → Bool} {sep : Char}

theorem padded_consuming : Consuming (padded p sep) := by
  intro s m hm
  obtain ⟨x, hx, hm⟩ := mem_run_seq.mp hm
  obtain ⟨d, t, rfl, -, rfl⟩ := mem_run_star_chars.mp hx
  obtain ⟨y, hy, hm⟩ := mem_run_seq.mp hm
  obtain ⟨t, rfl, rfl⟩ := mem_run_char.mp hy
  obtain ⟨e, u, rfl, -, rfl⟩ := mem_run_star_chars.mp hm
  simp only [List.length_append, List.length_cons]
  omega

/-- The padding before a separator is passed over, and no other text is. -/
theorem matchStart_padded (hsep : p sep = false) (s : Str) :
    matchStart (padded p sep) s =
      match s.dropWhile p with
      | [] => none
      | c :: t => if c = sep then some (t.dropWhile p, []) else none := by
  induction s with
  | nil => rfl
  | cons c s ih =>
      rw [List.dropWhile_cons]
      rw [matchStart, padded, run_seq, run_star_chars_cons]
      split_ifs with hc
      · have hne : c ≠ sep := by
          rintro rfl
          rw [hsep] at hc
          exact Bool.false_ne_true hc
        rw [List.flatMap_append, List.flatMap_singleton, run_seq, run_char_cons, if_neg hne,
          List.flatMap_nil, List.append_nil]
        exact ih
      · rw [List.flatMap_singleton, run_seq, run_char_cons]
        split_ifs with heq
        · rw [List.flatMap_singleton, head?_run_star_chars]
          exact (if_pos heq).symm
        · exact (if_neg heq).symm

theorem matchStart_padded_sep (hsep : p sep = false) {a : Str} (ha : ∀ c ∈ a, p c = true)
    (t : Str) : matchStart (padded p sep) (a ++ sep :: t) = some (t.dropWhile p, []) := by
  rw [matchStart_padded hsep, List.dropWhile_append_of_pos ha,
    List.dropWhile_cons_of_neg (by rw [hsep]; exact Bool.false_ne_true)]
  exact if_pos rfl

/-- A character that is neither padding nor the separator comes first. -/
theorem matchStart_padded_eq_none (hsep : p sep = false) {a : Str} (ha : sep ∉ a)
    (hp : ∃ c ∈ a, p c = false) (s : Str) : matchStart (padded p sep) (a ++ s) = none := by
  rw [matchStart_padded hsep]
  have hdrop : a.dropWhile p ≠ [] := by
    obtain ⟨c, hc, hpc⟩ := hp
    intro hnil
    rw [List.dropWhile_eq_nil_iff.mp hnil c hc] at hpc
    cases hpc
  rw [List.dropWhile_append, if_neg (by simpa using hdrop)]
  cases hcons : a.dropWhile p with
  | nil => exact absurd hcons hdrop
  | cons c t =>
      have hc : c ∈ a := (List.dropWhile_sublist p).subset (by rw [hcons]; exact List.mem_cons_self)
      exact if_neg fun (heq : c = sep) => ha (heq ▸ hc)

theorem rdropWhile_cons_of_exists {a : Str} {x : Char} (h : ∃ c ∈ x :: a, p c = false) :
    (x :: a).rdropWhile p = x :: a.rdropWhile p := by
  rw [List.rdropWhile, List.reverse_cons, List.dropWhile_append]
  split_ifs with hempty
  · have hall : ∀ c ∈ a, p c = true := by
      intro c hc
      exact List.dropWhile_eq_nil_iff.mp (List.isEmpty_iff.mp hempty) c (List.mem_reverse.mpr hc)
    have hx : p x = false := by
      obtain ⟨c, hc, hpc⟩ := h
      rcases List.mem_cons.mp hc with rfl | hc
      · exact hpc
      · rw [hall c hc] at hpc
        cases hpc
    rw [List.dropWhile_cons_of_neg (by rw [hx]; exact Bool.false_ne_true),
      List.rdropWhile_eq_nil_iff.mpr hall]
    rfl
  · rw [List.reverse_append]
    rfl

/-- A text without the separator is one piece. -/
theorem cut_padded_of_not_mem (hsep : p sep = false) {a : Str} (ha : sep ∉ a) :
    cut (padded p sep) a = [a] := by
  induction a with
  | nil => exact cut_nil padded_consuming
  | cons c a ih =>
      have hnone : matchStart (padded p sep) (c :: a) = none := by
        rw [matchStart_padded hsep]
        cases hcons : (c :: a).dropWhile p with
        | nil => rfl
        | cons x t =>
            have hx : x ∈ c :: a :=
              (List.dropWhile_sublist p).subset (by rw [hcons]; exact List.mem_cons_self)
            exact if_neg fun (heq : x = sep) => ha (heq ▸ hx)
      rw [cut_cons_of_none padded_consuming hnone, ih fun hmem => ha (List.mem_cons_of_mem c hmem)]
      rfl

/-- **The first separator**: the piece before it loses the padding on its right, the text
behind it the padding on its left. -/
theorem cut_padded_append (hsep : p sep = false) {a : Str} (ha : sep ∉ a) (t : Str) :
    cut (padded p sep) (a ++ sep :: t) =
      a.rdropWhile p :: cut (padded p sep) (t.dropWhile p) := by
  induction a with
  | nil =>
      rw [cut_of_matchStart padded_consuming
        (matchStart_padded_sep hsep (List.forall_mem_nil _) t)]
      rfl
  | cons c a ih =>
      by_cases hall : ∀ x ∈ c :: a, p x = true
      · rw [cut_of_matchStart padded_consuming (matchStart_padded_sep hsep hall t),
          List.rdropWhile_eq_nil_iff.mpr hall]
      · have hexists : ∃ x ∈ c :: a, p x = false := by
          simpa only [not_forall, Bool.not_eq_true, exists_prop] using hall
        have hnone := matchStart_padded_eq_none hsep ha hexists (sep :: t)
        rw [List.cons_append] at hnone ⊢
        rw [cut_cons_of_none padded_consuming hnone,
          ih fun hmem => ha (List.mem_cons_of_mem c hmem), rdropWhile_cons_of_exists hexists]
        rfl

theorem dropWhile_append_sep (hsep : p sep = false) (a t : Str) :
    (a ++ sep :: t).dropWhile p = a.dropWhile p ++ sep :: t := by
  rw [List.dropWhile_append]
  split_ifs with hempty
  · rw [List.isEmpty_iff.mp hempty,
      List.dropWhile_cons_of_neg (by rw [hsep]; exact Bool.false_ne_true), List.nil_append]
  · rfl

theorem cut_padded_ne_nil (hsep : p sep = false) (s : Str) : cut (padded p sep) s ≠ [] := by
  by_cases hmem : sep ∈ s
  · obtain ⟨a, t, rfl, ha⟩ := List.eq_append_cons_of_mem hmem
    rw [cut_padded_append hsep ha]
    exact List.cons_ne_nil _ _
  · rw [cut_padded_of_not_mem hsep hmem]
    exact List.cons_ne_nil _ _

/-- **Two texts with a separator between them**: the last piece of the first one loses the
padding on its right, the second text the padding on its left. -/
theorem cut_padded_append_sep (hsep : p sep = false) (b a : Str) {pieces : List Str}
    {last : Str} (h : cut (padded p sep) a = pieces ++ [last]) :
    cut (padded p sep) (a ++ sep :: b) =
      pieces ++ last.rdropWhile p :: cut (padded p sep) (b.dropWhile p) := by
  by_cases hmem : sep ∈ a
  · obtain ⟨front, rest, rfl, hfront⟩ := List.eq_append_cons_of_mem hmem
    rw [cut_padded_append hsep hfront] at h
    cases pieces with
    | nil => exact absurd (List.cons.inj h).2 (cut_padded_ne_nil hsep _)
    | cons piece pieces =>
        obtain ⟨rfl, hrest⟩ := List.cons.inj h
        have hshorter : (rest.dropWhile p).length < (front ++ sep :: rest).length := by
          have hle := (List.dropWhile_sublist p (l := rest)).length_le
          simp only [List.length_append, List.length_cons]
          omega
        rw [List.append_assoc, List.cons_append, cut_padded_append hsep hfront,
          dropWhile_append_sep hsep, cut_padded_append_sep hsep b _ hrest, List.cons_append]
  · rw [cut_padded_of_not_mem hsep hmem] at h
    have happend : [] ++ [a] = pieces ++ [last] := h
    obtain ⟨rfl, hlast⟩ := List.append_inj' happend rfl
    rw [cut_padded_append hsep hmem, (List.cons.inj hlast).1]
    rfl
termination_by a.length

/-- Padding in front of a text does not matter when its first piece has none. -/
theorem cut_padded_dropWhile (hsep : p sep = false) {s piece : Str} {pieces : List Str}
    (h : cut (padded p sep) s = piece :: pieces) (hpiece : ∀ c ∈ piece.head?, p c = false) :
    cut (padded p sep) (s.dropWhile p) = cut (padded p sep) s := by
  by_cases hmem : sep ∈ s
  · obtain ⟨a, t, rfl, ha⟩ := List.eq_append_cons_of_mem hmem
    rw [cut_padded_append hsep ha] at h ⊢
    obtain ⟨rfl, -⟩ := List.cons.inj h
    rw [dropWhile_append_sep hsep]
    cases a with
    | nil => exact cut_padded_append hsep List.not_mem_nil t
    | cons c a =>
        by_cases hall : ∀ x ∈ c :: a, p x = true
        · rw [List.dropWhile_eq_nil_iff.mpr hall, List.rdropWhile_eq_nil_iff.mpr hall]
          exact cut_padded_append hsep List.not_mem_nil t
        · have hexists : ∃ x ∈ c :: a, p x = false := by
            simpa only [not_forall, Bool.not_eq_true, exists_prop] using hall
          rw [rdropWhile_cons_of_exists hexists] at hpiece
          have hc : p c = false := hpiece c rfl
          rw [List.dropWhile_cons_of_neg (by rw [hc]; exact Bool.false_ne_true)]
          exact cut_padded_append hsep ha t
  · rw [cut_padded_of_not_mem hsep hmem] at h
    obtain ⟨rfl, -⟩ := List.cons.inj h
    cases s with
    | nil => rfl
    | cons c s =>
        have hc : p c = false := hpiece c rfl
        rw [List.dropWhile_cons_of_neg (by rw [hc]; exact Bool.false_ne_true)]

/-- There is no padding at either end. -/
structure Trimmed (p : Char → Bool) (s : Str) : Prop where
  head : ∀ c ∈ s.head?, p c = false
  last : ∀ c ∈ s.getLast?, p c = false

theorem Trimmed.rdropWhile {s : Str} (h : Trimmed p s) : s.rdropWhile p = s := by
  rw [List.rdropWhile_eq_self_iff]
  intro hne
  rw [h.last _ (List.getLast_mem_getLast? hne)]
  exact Bool.false_ne_true

/-- The pieces of a text without padding at its ends. -/
theorem Trimmed.of_mem_cut (hsep : p sep = false) {s : Str} (h : Trimmed p s) :
    ∀ piece ∈ cut (padded p sep) s, Trimmed p piece := by
  by_cases hmem : sep ∈ s
  · obtain ⟨a, t, rfl, ha⟩ := List.eq_append_cons_of_mem hmem
    have hrest : Trimmed p (t.dropWhile p) := by
      constructor
      · intro c hc
        have hnot := List.head?_dropWhile_not p t
        rw [Option.mem_def.mp hc] at hnot
        exact hnot
      · intro c hc
        obtain ⟨u, hu⟩ := List.dropWhile_suffix p (l := t)
        refine h.last c ?_
        rw [← hu, ← List.cons_append, ← List.append_assoc]
        exact List.mem_getLast?_append_of_mem_getLast? hc
    have hshorter : (t.dropWhile p).length < (a ++ sep :: t).length := by
      have hle := (List.dropWhile_sublist p (l := t)).length_le
      simp only [List.length_append, List.length_cons]
      omega
    rw [cut_padded_append hsep ha, List.forall_mem_cons]
    refine ⟨⟨fun c hc => ?_, fun c hc => ?_⟩, Trimmed.of_mem_cut hsep hrest⟩
    · obtain ⟨u, hu⟩ := List.rdropWhile_prefix p (l := a)
      refine h.head c ?_
      rw [← hu, List.append_assoc]
      exact List.mem_head?_append_of_mem_head? hc
    · have hne : a.rdropWhile p ≠ [] := by
        intro hnil
        rw [hnil] at hc
        cases hc
      rw [List.getLast?_eq_some_getLast hne, Option.mem_some_iff] at hc
      rw [← hc]
      exact Bool.eq_false_iff.mpr (List.rdropWhile_last_not p a hne)
  · rw [cut_padded_of_not_mem hsep hmem]
    exact fun piece hpiece => List.mem_singleton.mp hpiece ▸ h
termination_by s.length

/-- **Joined texts**: the pieces are those of the texts, when no piece has padding at its ends. -/
theorem cut_padded_join (hsep : p sep = false) :
    ∀ {texts : List Str}, texts ≠ [] →
      (∀ text ∈ texts, ∀ piece ∈ cut (padded p sep) text, Trimmed p piece) →
        cut (padded p sep) (join [sep] texts) = texts.flatMap (cut (padded p sep))
  | [], hne, _ => absurd rfl hne
  | [text], _, _ => by
      rw [join_singleton, List.flatMap_singleton]
  | text :: next :: texts, _, htrim => by
      rw [List.forall_mem_cons] at htrim
      have ih := cut_padded_join hsep (List.cons_ne_nil next texts) htrim.2
      obtain ⟨pieces, last, htext⟩ :=
        (List.eq_nil_or_concat' (cut (padded p sep) text)).resolve_left
          (cut_padded_ne_nil hsep text)
      obtain ⟨piece, rest, hnext⟩ := List.exists_cons_of_ne_nil (cut_padded_ne_nil hsep next)
      have hlast : Trimmed p last := htrim.1 last (by rw [htext]; exact List.mem_concat_self)
      have hpiece : Trimmed p piece :=
        htrim.2 next List.mem_cons_self piece (by rw [hnext]; exact List.mem_cons_self)
      have hjoined : cut (padded p sep) (join [sep] (next :: texts)) =
          piece :: (rest ++ texts.flatMap (cut (padded p sep))) := by
        rw [ih, List.flatMap_cons, hnext]
        rfl
      have hflat : (text :: next :: texts).flatMap (cut (padded p sep)) =
          cut (padded p sep) text ++ (next :: texts).flatMap (cut (padded p sep)) :=
        List.flatMap_cons
      rw [join_cons_cons, List.append_assoc, List.singleton_append,
        cut_padded_append_sep hsep _ text htext, cut_padded_dropWhile hsep hjoined hpiece.head,
        ih, hlast.rdropWhile, hflat, htext, List.append_assoc]
      rfl

/-- **Joined pieces are cut apart again.** -/
theorem cut_padded_join_pieces (hsep : p sep = false) {pieces : List Str} (hne : pieces ≠ [])
    (hmem : ∀ piece ∈ pieces, sep ∉ piece) (htrim : ∀ piece ∈ pieces, Trimmed p piece) :
    cut (padded p sep) (join [sep] pieces) = pieces := by
  have hcut : ∀ piece ∈ pieces, cut (padded p sep) piece = [piece] :=
    fun piece hpiece => cut_padded_of_not_mem hsep (hmem piece hpiece)
  rw [cut_padded_join hsep hne, List.flatMap_congr hcut, List.flatMap_singleton']
  intro text htext piece hpiece
  rw [hcut text htext, List.mem_singleton] at hpiece
  rw [hpiece]
  exact htrim text htext

end Padded

end Regex
end Foundation
