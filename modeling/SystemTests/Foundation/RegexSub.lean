import SystemTests.Foundation.RegexFind

/-!
# Replacing the matches of a pattern

`sub` replaces from left to right.  What relates every match to its replacement
relates the whole text to the text with replacements, and where a pattern that
takes some character matches somewhere, its first match is replaced.

**Results.**
* `sub_related`: a relation that holds of every match and its replacement.
* `sub_eq_self`: the text stands when every match is replaced by itself.
* `exists_sub_eq`: the first match, what stands before it and what comes of the rest.
* `mem_run_lazyStar_chars`, `mem_run_between_chars`: the matches of a class that is
  repeated lazily, or a bounded number of times.
-/

namespace Foundation
namespace Regex

open Text

section Related

variable {r : Rx} {template : List Piece} {R : Str → Str → Prop} {P : Str → Prop}

/-- A match leaves an end of the text over. -/
theorem exists_append_of_mem_run {m m' : Match} (h : m' ∈ run r m) : ∃ d, m.1 = d ++ m'.1 := by
  have hall : ∀ r : Rx, Within (fun _ => true) r := by
    intro r
    induction r with
    | eps | atEnd => trivial
    | chars q => exact fun _ _ => rfl
    | seq a b iha ihb | alt a b iha ihb => exact ⟨iha, ihb⟩
    | star a ih | lazyStar a ih | group n a ih => exact ih
  obtain ⟨d, hd, -⟩ := mem_run_within (hall r) m m' h
  exact ⟨d, hd⟩

theorem holds_of_append (hsuffix : ∀ c s, P (c :: s) → P s) {s : Str} :
    ∀ d : Str, P (d ++ s) → P s
  | [], h => h
  | c :: d, h => holds_of_append hsuffix d (hsuffix c (d ++ s) h)

/-- **What relates each match to its replacement relates the texts.** -/
theorem subGo_related (hsuffix : ∀ c s, P (c :: s) → P s) (hrefl : ∀ s, R s s)
    (hcons : ∀ c s t, R s t → R (c :: s) (c :: t))
    (hmatch : ∀ s, P s → ∀ m ∈ run r (s, []), ∀ t, R m.1 t → R s (expand template m ++ t)) :
    ∀ (k : Nat) (b : Bool) (s : Str), P s → R s (subGo r template k b s)
  | 0, _, s, _ => hrefl s
  | k + 1, b, s, hs => by
      rw [subGo.eq_def]
      simp only
      split
      next m hm =>
        have hmem : m ∈ run r (s, []) := List.mem_of_find?_eq_some hm
        obtain ⟨d, hd⟩ := exists_append_of_mem_run hmem
        have hrest : P m.1 := holds_of_append hsuffix d (hd ▸ hs)
        exact hmatch s hs m hmem _ (subGo_related hsuffix hrefl hcons hmatch k _ m.1 hrest)
      next =>
        cases s with
        | nil => exact hrefl []
        | cons c s =>
            exact hcons c s _ (subGo_related hsuffix hrefl hcons hmatch k _ s (hsuffix c s hs))

theorem sub_related (hsuffix : ∀ c s, P (c :: s) → P s) (hrefl : ∀ s, R s s)
    (hcons : ∀ c s t, R s t → R (c :: s) (c :: t))
    (hmatch : ∀ s, P s → ∀ m ∈ run r (s, []), ∀ t, R m.1 t → R s (expand template m ++ t))
    {s : Str} (hs : P s) : R s (sub r template s) :=
  subGo_related hsuffix hrefl hcons hmatch _ _ s hs

/-- The text stands when every match is replaced by what it matched. -/
theorem sub_eq_self (hsuffix : ∀ c s, P (c :: s) → P s)
    (hmatch : ∀ s, P s → ∀ m ∈ run r (s, []), expand template m ++ m.1 = s) {s : Str}
    (hs : P s) : sub r template s = s := by
  refine (sub_related (R := Eq) hsuffix (fun _ => rfl) ?_ ?_ hs).symm
  · intro c s t h
    rw [h]
  · intro s hs m hm t h
    rw [← h, hmatch s hs m hm]

end Related

section First

variable {r : Rx}

/-- The first match is replaced; the texts before it stand. -/
theorem exists_subGo_eq (h : Consuming r) (template : List Piece) {s : Str}
    (hs : run r (s, []) ≠ []) :
    ∀ (k : Nat) (b : Bool) (a : Str), (a ++ s).length < k →
      ∃ before s' m k' b', a ++ s = before ++ s' ∧ m ∈ run r (s', []) ∧
        subGo r template k b (a ++ s) =
          before ++ (expand template m ++ subGo r template k' b' m.1)
  | 0, _, _, hk => absurd hk (Nat.not_lt_zero _)
  | k + 1, b, a, hk => by
      cases hm : matchStart r (a ++ s) with
      | some m =>
          refine ⟨[], a ++ s, m, k, m.1 = a ++ s, rfl, List.mem_of_mem_head? hm, ?_⟩
          rw [subGo.eq_def]
          simp only [h.find?_eq, hm, List.nil_append]
      | none =>
          cases a with
          | nil => exact absurd (List.head?_eq_none_iff.mp hm) hs
          | cons c a =>
              obtain ⟨before, s', m, k', b', hcut, hmem, hsub⟩ := exists_subGo_eq h template hs
                k false a (by simpa using hk)
              refine ⟨c :: before, s', m, k', b', ?_, hmem, ?_⟩
              · rw [List.cons_append, hcut, List.cons_append]
              · rw [List.cons_append] at hm ⊢
                rw [subGo.eq_def]
                simp only [h.find?_eq, hm, hsub, List.cons_append]

theorem exists_sub_eq (h : Consuming r) (template : List Piece) {a s : Str}
    (hs : run r (s, []) ≠ []) :
    ∃ before s' m k b, a ++ s = before ++ s' ∧ m ∈ run r (s', []) ∧
      sub r template (a ++ s) =
        before ++ (expand template m ++ subGo r template k b m.1) :=
  exists_subGo_eq h template hs _ _ a (by omega)

/-- Nothing is replaced in no text. -/
theorem subGo_nil (h : Consuming r) (template : List Piece) (k : Nat) (b : Bool) :
    subGo r template k b [] = [] := by
  cases k with
  | zero => rfl
  | succ k =>
      rw [subGo.eq_def]
      simp only [h.find?_eq, h.matchStart_nil]

end First

section Literals

variable {l : Str} {caps : List (Nat × Str)}

theorem run_lit_append (l t : Str) (caps : List (Nat × Str)) :
    run (.lit l) (l ++ t, caps) = [(t, caps)] := by
  induction l with
  | nil => rfl
  | cons c l ih =>
      have hcons : Rx.lit (c :: l) = .seq (.char c) (.lit l) := rfl
      rw [hcons, run_seq, List.cons_append, run_char_cons, if_pos rfl, List.flatMap_cons, ih]
      rfl

theorem run_lit_of_not_prefix {s : Str} (h : ¬ l <+: s) : run (.lit l) (s, caps) = [] := by
  rw [List.eq_nil_iff_forall_not_mem]
  intro m hm
  obtain ⟨t, rfl, -⟩ := mem_run_lit.mp hm
  exact h (List.prefix_append l t)

end Literals

section Repetitions

variable {p : Char → Bool}

theorem run_lazyStar_chars_nil (caps : List (Nat × Str)) :
    run (.lazyStar (.chars p)) ([], caps) = [([], caps)] := rfl

/-- A class repeated lazily first takes nothing. -/
theorem run_lazyStar_chars_cons (c : Char) (s : Str) (caps : List (Nat × Str)) :
    run (.lazyStar (.chars p)) (c :: s, caps) =
      (c :: s, caps) :: if p c then run (.lazyStar (.chars p)) (s, caps) else [] := by
  simp only [run, List.length_cons, repeatMatches]
  by_cases hc : p c <;> simp [hc]

theorem run_lazyStar_chars_head (s : Str) (caps : List (Nat × Str)) :
    ∃ ms, run (.lazyStar (.chars p)) (s, caps) = (s, caps) :: ms := by
  cases s with
  | nil => exact ⟨[], rfl⟩
  | cons c s => exact ⟨_, run_lazyStar_chars_cons c s caps⟩

theorem mem_run_lazyStar_chars {s : Str} {caps : List (Nat × Str)} {m : Match} :
    m ∈ run (.lazyStar (.chars p)) (s, caps) ↔
      ∃ d t, s = d ++ t ∧ (∀ c ∈ d, p c = true) ∧ m = (t, caps) := by
  rw [← mem_run_star_chars]
  induction s with
  | nil => rw [run_lazyStar_chars_nil, run_star_chars_nil]
  | cons c s ih =>
      rw [run_lazyStar_chars_cons, run_star_chars_cons]
      split_ifs
      · rw [List.mem_cons, List.mem_append, List.mem_singleton, ih, or_comm]
      · rfl

theorem mem_run_times_chars {n : Nat} {s : Str} {caps : List (Nat × Str)} {m : Match} :
    m ∈ run (.times n (.chars p)) (s, caps) ↔
      ∃ d t, s = d ++ t ∧ d.length = n ∧ (∀ c ∈ d, p c = true) ∧ m = (t, caps) := by
  induction n generalizing s with
  | zero =>
      rw [Rx.times, run, List.mem_singleton]
      constructor
      · rintro rfl
        exact ⟨[], s, rfl, rfl, by simp, rfl⟩
      · rintro ⟨d, t, rfl, hd, -, rfl⟩
        rw [List.length_eq_zero_iff.mp hd]
        rfl
  | succ n ih =>
      rw [Rx.times, mem_run_seq]
      constructor
      · rintro ⟨x, hx, hm⟩
        obtain ⟨c, t, rfl, hc, rfl⟩ := mem_run_chars.mp hx
        obtain ⟨d, t, rfl, rfl, hd, rfl⟩ := ih.mp hm
        refine ⟨c :: d, t, rfl, rfl, ?_, rfl⟩
        rw [List.forall_mem_cons]
        exact ⟨hc, hd⟩
      · rintro ⟨d, t, rfl, hlength, hd, rfl⟩
        obtain ⟨c, d, rfl⟩ := List.exists_cons_of_length_eq_add_one hlength
        rw [List.forall_mem_cons] at hd
        exact ⟨(d ++ t, caps), mem_run_chars.mpr ⟨c, d ++ t, rfl, hd.1, rfl⟩,
          ih.mpr ⟨d, t, rfl, Nat.succ.inj hlength, hd.2, rfl⟩⟩

theorem mem_run_atMost_chars {n : Nat} {s : Str} {caps : List (Nat × Str)} {m : Match} :
    m ∈ run (.atMost n (.chars p)) (s, caps) ↔
      ∃ d t, s = d ++ t ∧ d.length ≤ n ∧ (∀ c ∈ d, p c = true) ∧ m = (t, caps) := by
  induction n generalizing s with
  | zero =>
      rw [Rx.atMost, run, List.mem_singleton]
      constructor
      · rintro rfl
        exact ⟨[], s, rfl, le_rfl, by simp, rfl⟩
      · rintro ⟨d, t, rfl, hd, -, rfl⟩
        rw [List.length_eq_zero_iff.mp (Nat.le_zero.mp hd)]
        rfl
  | succ n ih =>
      rw [Rx.atMost, mem_run_opt, mem_run_seq]
      constructor
      · rintro (⟨x, hx, hm⟩ | rfl)
        · obtain ⟨c, t, rfl, hc, rfl⟩ := mem_run_chars.mp hx
          obtain ⟨d, t, rfl, hlength, hd, rfl⟩ := ih.mp hm
          refine ⟨c :: d, t, rfl, Nat.succ_le_succ hlength, ?_, rfl⟩
          rw [List.forall_mem_cons]
          exact ⟨hc, hd⟩
        · exact ⟨[], s, rfl, Nat.zero_le _, by simp, rfl⟩
      · rintro ⟨d, t, rfl, hlength, hd, rfl⟩
        cases d with
        | nil => exact Or.inr rfl
        | cons c d =>
            rw [List.forall_mem_cons] at hd
            exact Or.inl ⟨(d ++ t, caps), mem_run_chars.mpr ⟨c, d ++ t, rfl, hd.1, rfl⟩,
              ih.mpr ⟨d, t, rfl, Nat.le_of_succ_le_succ hlength, hd.2, rfl⟩⟩

/-- A class repeated a bounded number of times. -/
theorem mem_run_between_chars {low high : Nat} (h : low ≤ high) {s : Str}
    {caps : List (Nat × Str)} {m : Match} :
    m ∈ run (.between low high (.chars p)) (s, caps) ↔
      ∃ d t, s = d ++ t ∧ (low ≤ d.length ∧ d.length ≤ high) ∧ (∀ c ∈ d, p c = true) ∧
        m = (t, caps) := by
  rw [Rx.between, mem_run_seq]
  constructor
  · rintro ⟨x, hx, hm⟩
    obtain ⟨d, t, rfl, hlength, hd, rfl⟩ := mem_run_times_chars.mp hx
    obtain ⟨e, t, rfl, hle, he, rfl⟩ := mem_run_atMost_chars.mp hm
    refine ⟨d ++ e, t, by rw [List.append_assoc], ?_, ?_, rfl⟩
    · rw [List.length_append]
      omega
    · rw [List.forall_mem_append]
      exact ⟨hd, he⟩
  · rintro ⟨d, t, rfl, ⟨hlow, hhigh⟩, hd, rfl⟩
    refine ⟨(d.drop low ++ t, caps), ?_, ?_⟩
    · refine mem_run_times_chars.mpr ⟨d.take low, d.drop low ++ t, ?_, ?_, ?_, rfl⟩
      · rw [← List.append_assoc, List.take_append_drop]
      · rw [List.length_take, Nat.min_eq_left hlow]
      · exact fun c hc => hd c (List.mem_of_mem_take hc)
    · refine mem_run_atMost_chars.mpr ⟨d.drop low, t, rfl, ?_, ?_, rfl⟩
      · rw [List.length_drop]
        omega
      · exact fun c hc => hd c (List.mem_of_mem_drop hc)

end Repetitions

end Regex
end Foundation
