import Mathlib.Data.List.DropRight
import Mathlib.Data.List.Infix
import Mathlib.Data.List.Intervals
import Mathlib.Tactic

/-!
# Text as lists of code points

A string is the list of its code points.  This module gives the string
operations that programs over texts are written with, and the laws by which
proofs use them:

* `split sep s`: the pieces of `s` between the leftmost non-overlapping
  occurrences of `sep`, always at least one piece;
* `join sep pieces`: the pieces with `sep` between them, the inverse of
  splitting (`join_split`, `split_join`);
* `replace old new s`: every occurrence of `old` exchanged for `new`;
* `strip`, `stripOf`: both ends freed of a class of characters.

All the recursions are structural, so texts are split by `decide`.
-/

namespace Foundation
namespace Text

abbrev Str := List Char

instance : Coe String Str := ⟨String.toList⟩

instance instLawfulBEqStr : LawfulBEq Str := inferInstance

section Decisions

variable (p : Char → Prop) [DecidablePred p]

/-- What holds of the characters of a text is decided along the text. -/
instance decidableForallMemStr (s : Str) : Decidable (∀ c ∈ s, p c) := List.decidableBAll p s

instance decidableExistsMemStr (s : Str) : Decidable (∃ c ∈ s, p c) := List.decidableBEx p s

instance decidableForallMemOption (o : Option Char) : Decidable (∀ c ∈ o, p c) :=
  Option.decidableForallMem o

end Decisions

/-- White space as `str.isspace` has it. -/
def isSpace (c : Char) : Bool :=
  let n := c.toNat
  (0x09 ≤ n && n ≤ 0x0D) || (0x1C ≤ n && n ≤ 0x20) || n == 0x85 || n == 0xA0 ||
    n == 0x1680 || (0x2000 ≤ n && n ≤ 0x200A) || n == 0x2028 || n == 0x2029 ||
    n == 0x202F || n == 0x205F || n == 0x3000

section Letters

variable {c : Char}

theorem isLower_iff : c.isLower = true ↔ 97 ≤ c.toNat ∧ c.toNat ≤ 122 := by
  rw [show c.isLower = (decide ('a'.val ≤ c.val) && decide (c.val ≤ 'z'.val)) from rfl,
    Bool.and_eq_true, decide_eq_true_eq, decide_eq_true_eq, UInt32.le_iff_toNat_le,
    UInt32.le_iff_toNat_le]
  exact Iff.rfl

theorem isUpper_iff : c.isUpper = true ↔ 65 ≤ c.toNat ∧ c.toNat ≤ 90 := by
  rw [show c.isUpper = decide ('A'.val ≤ c.val ∧ c.val ≤ 'Z'.val) from rfl, decide_eq_true_eq,
    UInt32.le_iff_toNat_le, UInt32.le_iff_toNat_le]
  exact Iff.rfl

theorem isDigit_iff : c.isDigit = true ↔ 48 ≤ c.toNat ∧ c.toNat ≤ 57 := by
  rw [Char.isDigit, Bool.and_eq_true, decide_eq_true_eq, decide_eq_true_eq,
    ge_iff_le, UInt32.le_iff_toNat_le, UInt32.le_iff_toNat_le]
  exact Iff.rfl

theorem isAlphanum_iff : c.isAlphanum = true ↔
    48 ≤ c.toNat ∧ c.toNat ≤ 57 ∨ 65 ≤ c.toNat ∧ c.toNat ≤ 90 ∨
      97 ≤ c.toNat ∧ c.toNat ≤ 122 := by
  rw [show c.isAlphanum = ((c.isUpper || c.isLower) || c.isDigit) from rfl, Bool.or_eq_true,
    Bool.or_eq_true, isUpper_iff, isLower_iff, isDigit_iff, or_comm]

end Letters

/-- Both ends freed of the characters of a class. -/
def stripOf (p : Char → Bool) (s : Str) : Str :=
  (s.dropWhile p).rdropWhile p

def strip (s : Str) : Str := stripOf isSpace s

/--
The pieces of a text; the counter is the number of characters of the
separator just met that are still to be passed over.
-/
def splitGo (sep : Str) : Nat → Str → List Str
  | _, [] => [[]]
  | k + 1, _ :: s => splitGo sep k s
  | 0, c :: s =>
      if sep <+: c :: s then [] :: splitGo sep (sep.length - 1) s
      else (splitGo sep 0 s).modifyHead (c :: ·)

def split (sep : Str) (s : Str) : List Str := splitGo sep 0 s

def join (sep : Str) (pieces : List Str) : Str := sep.intercalate pieces

def replace (old new : Str) (s : Str) : Str := join new (split old s)

/-- The part of a text before the first occurrence of a character. -/
def before (c : Char) (s : Str) : Str := s.takeWhile (· ≠ c)

section Join

variable (sep : Str)

@[simp] theorem join_nil : join sep [] = [] := rfl

@[simp] theorem join_singleton (p : Str) : join sep [p] = p := by
  simp [join]

@[simp] theorem join_cons_cons (p q : Str) (ps : List Str) :
    join sep (p :: q :: ps) = p ++ sep ++ join sep (q :: ps) := by
  simp [join, List.intercalate_cons_cons]

theorem join_cons_of_ne_nil (p : Str) {ps : List Str} (h : ps ≠ []) :
    join sep (p :: ps) = p ++ sep ++ join sep ps := by
  cases ps with
  | nil => exact absurd rfl h
  | cons q ps => simp

theorem join_modifyHead (c : Char) {ps : List Str} (h : ps ≠ []) :
    join sep (ps.modifyHead (c :: ·)) = c :: join sep ps := by
  match ps, h with
  | [p], _ => simp
  | p :: q :: ps, _ => simp

theorem join_mono {ps qs : List Str} (h : ps <+: qs) :
    join sep ps <+: join sep qs := by
  induction ps generalizing qs with
  | nil => simp
  | cons p ps ih =>
      obtain ⟨rest, rfl⟩ := h
      cases ps with
      | nil =>
          cases rest with
          | nil => simp
          | cons q rest =>
              rw [List.cons_append, List.nil_append, join_singleton, join_cons_cons,
                List.append_assoc]
              exact List.prefix_append _ _
      | cons q ps =>
          have hrest := ih (List.prefix_append (q :: ps) rest)
          simp only [List.cons_append, join_cons_cons] at hrest ⊢
          exact (List.prefix_append_right_inj (p ++ sep)).mpr hrest

theorem join_ne_nil {ps : List Str} (hne : ps ≠ []) (h : ∀ p ∈ ps, p ≠ []) :
    join sep ps ≠ [] := by
  obtain ⟨p, ps, rfl⟩ := List.exists_cons_of_ne_nil hne
  cases ps with
  | nil => simpa using h
  | cons q ps => simp [h p (by simp)]

theorem join_append {ps qs : List Str} (hps : ps ≠ []) (hqs : qs ≠ []) :
    join sep (ps ++ qs) = join sep ps ++ sep ++ join sep qs := by
  induction ps with
  | nil => exact absurd rfl hps
  | cons p ps ih =>
      cases ps with
      | nil => rw [List.singleton_append, join_cons_of_ne_nil sep p hqs, join_singleton]
      | cons q ps =>
          rw [List.cons_append, join_cons_of_ne_nil sep p (by simp), ih (by simp),
            join_cons_cons]
          simp only [List.append_assoc]

/-- Joined pieces may be joined with the others. -/
theorem join_join_cons {ps : List Str} (hps : ps ≠ []) (qs : List Str) :
    join sep (join sep ps :: qs) = join sep (ps ++ qs) := by
  cases qs with
  | nil => simp
  | cons q qs => rw [join_append sep hps (by simp), join_cons_cons]

theorem head?_join {ps : List Str} (h : ∀ p ∈ ps, p ≠ []) {c : Char}
    (hc : c ∈ (join sep ps).head?) : ∃ p ∈ ps, c ∈ p.head? := by
  match ps with
  | [] => simp at hc
  | [p] => exact ⟨p, by simp, by simpa using hc⟩
  | p :: q :: ps =>
      rw [join_cons_cons, List.append_assoc, List.head?_append_of_ne_nil _ (h p (by simp))] at hc
      exact ⟨p, by simp, hc⟩

theorem getLast?_join {ps : List Str} (h : ∀ p ∈ ps, p ≠ []) {c : Char}
    (hc : c ∈ (join sep ps).getLast?) : ∃ p ∈ ps, c ∈ p.getLast? := by
  induction ps with
  | nil => simp at hc
  | cons p ps ih =>
      cases ps with
      | nil => exact ⟨p, by simp, by simpa using hc⟩
      | cons q ps =>
          have htail : ∀ p ∈ q :: ps, p ≠ [] := fun p hp => h p (List.mem_cons_of_mem _ hp)
          have hne := join_ne_nil sep (by simp) htail
          rw [join_cons_cons, List.getLast?_append_of_ne_nil _ hne] at hc
          obtain ⟨r, hr, hcr⟩ := ih htail hc
          exact ⟨r, List.mem_cons_of_mem _ hr, hcr⟩

end Join

theorem mem_join_cases {sep : Str} {c : Char} :
    ∀ {ps : List Str}, c ∈ join sep ps → c ∈ sep ∨ ∃ p ∈ ps, c ∈ p
  | [], h => by simp at h
  | [p], h => by
      rw [join_singleton] at h
      exact Or.inr ⟨p, by simp, h⟩
  | p :: q :: ps, h => by
      rw [join_cons_cons, List.mem_append, List.mem_append] at h
      rcases h with (h | h) | h
      · exact Or.inr ⟨p, by simp, h⟩
      · exact Or.inl h
      · rcases mem_join_cases h with h | ⟨r, hr, h⟩
        · exact Or.inl h
        · exact Or.inr ⟨r, List.mem_cons_of_mem _ hr, h⟩

section Split

variable {sep : Str}

theorem splitGo_ne_nil (k : Nat) (s : Str) : splitGo sep k s ≠ [] := by
  induction s generalizing k with
  | nil => cases k <;> simp [splitGo]
  | cons c s ih =>
      cases k with
      | succ k => exact ih k
      | zero =>
          unfold splitGo
          split
          · simp
          · have := ih 0
            cases h : splitGo sep 0 s with
            | nil => exact absurd h this
            | cons p ps => simp

theorem split_ne_nil (sep s : Str) : split sep s ≠ [] := splitGo_ne_nil 0 s

theorem splitGo_skip (skipped s : Str) :
    splitGo sep skipped.length (skipped ++ s) = splitGo sep 0 s := by
  induction skipped with
  | nil => rfl
  | cons c skipped ih => simpa [splitGo] using ih

@[simp] theorem split_nil (sep : Str) : split sep [] = [[]] := rfl

theorem split_cons_of_not_sep {c : Char} {s : Str} (h : ¬ sep <+: c :: s) :
    split sep (c :: s) = (split sep s).modifyHead (c :: ·) := by
  simp [split, splitGo, h]

theorem split_sep_append {a : Char} {sep' s : Str} :
    split (a :: sep') (a :: sep' ++ s) = [] :: split (a :: sep') s := by
  have h : a :: sep' <+: a :: (sep' ++ s) := List.prefix_append (a :: sep') s
  simp only [split, List.cons_append, splitGo, h, if_true, List.length_cons,
    Nat.add_sub_cancel]
  rw [splitGo_skip]

theorem split_of_not_mem {a : Char} {sep' p : Str} (h : a ∉ p) :
    split (a :: sep') p = [p] := by
  induction p with
  | nil => rfl
  | cons c p ih =>
      have hc : a ≠ c := fun hac => h (by simp [hac])
      have hp : a ∉ p := fun hap => h (by simp [hap])
      rw [split_cons_of_not_sep (by simp [List.cons_prefix_cons, hc]), ih hp]
      rfl

/-- Splitting peels off a piece without the separator's first character. -/
theorem split_append {a : Char} {sep' p s : Str} (h : a ∉ p) :
    split (a :: sep') (p ++ (a :: sep') ++ s) = p :: split (a :: sep') s := by
  induction p with
  | nil =>
      exact split_sep_append
  | cons c p ih =>
      have hc : a ≠ c := fun hac => h (by simp [hac])
      have hp : a ∉ p := fun hap => h (by simp [hap])
      rw [List.cons_append, List.cons_append,
        split_cons_of_not_sep (by simp [List.cons_prefix_cons, hc]), ih hp]
      rfl

/-- **Splitting undoes joining** for pieces free of the separator's first character. -/
theorem split_join {a : Char} {sep' : Str} {ps : List Str} (hne : ps ≠ [])
    (h : ∀ p ∈ ps, a ∉ p) : split (a :: sep') (join (a :: sep') ps) = ps := by
  induction ps with
  | nil => exact absurd rfl hne
  | cons p ps ih =>
      have hp : a ∉ p := h p (by simp)
      cases ps with
      | nil => simpa using split_of_not_mem hp
      | cons q qs =>
          rw [join_cons_cons, split_append hp,
            ih (by simp) (fun x hx => h x (List.mem_cons_of_mem _ hx))]

/-- **Joining undoes splitting**, for every text. -/
theorem join_split {a : Char} {sep' : Str} (s : Str) :
    join (a :: sep') (split (a :: sep') s) = s := by
  induction hn : s.length using Nat.strong_induction_on generalizing s with
  | _ n ih =>
      cases s with
      | nil => rfl
      | cons c s =>
          by_cases h : a :: sep' <+: c :: s
          · obtain ⟨rest, hrest⟩ := h
            rw [← hrest, split_sep_append,
              join_cons_of_ne_nil _ _ (split_ne_nil _ _), List.nil_append]
            have hlen : rest.length < n := by
              have := congrArg List.length hrest
              simp at this hn
              omega
            rw [ih _ hlen rest rfl]
          · have hlen : s.length < n := by simp at hn; omega
            rw [split_cons_of_not_sep h, join_modifyHead _ _ (split_ne_nil _ _),
              ih _ hlen s rfl]

/-- No piece of a split on one character contains it. -/
theorem not_mem_of_mem_split {a : Char} {p : Str} :
    ∀ {s : Str}, p ∈ split [a] s → a ∉ p
  | [], h => by
      simp only [split_nil, List.mem_singleton] at h
      simp [h]
  | c :: s, h => by
      by_cases hc : a = c
      · subst hc
        have hsplit : split [a] (a :: s) = [] :: split [a] s :=
          split_sep_append
        rw [hsplit, List.mem_cons] at h
        rcases h with rfl | h
        · simp
        · exact not_mem_of_mem_split h
      · rw [split_cons_of_not_sep (by simp [List.cons_prefix_cons, hc])] at h
        cases hs : split [a] s with
        | nil => exact absurd hs (split_ne_nil _ _)
        | cons q qs =>
            rw [hs, List.modifyHead_cons, List.mem_cons] at h
            have hq : ∀ x ∈ q :: qs, a ∉ x := by
              rw [← hs]
              exact fun x hx => not_mem_of_mem_split hx
            rcases h with rfl | h
            · simpa [hc] using hq q (by simp)
            · exact hq p (List.mem_cons_of_mem _ h)

/-- A longest part of a text without a separator. -/
def IsPiece (sep : Char) (piece s : Str) : Prop :=
  sep ∉ piece ∧ ∃ left right, s = left ++ piece ++ right ∧
    (left = [] ∨ ∃ l, left = l ++ [sep]) ∧ (right = [] ∨ ∃ r, right = sep :: r)

theorem mem_split_iff {sep : Char} {piece s : Str} :
    piece ∈ split [sep] s ↔ IsPiece sep piece s := by
  constructor
  · intro h
    refine ⟨not_mem_of_mem_split h, ?_⟩
    obtain ⟨l, r, hlr⟩ := List.append_of_mem h
    have hs : join [sep] (l ++ piece :: r) = s := by rw [← hlr, join_split]
    have hafter : ∃ after, join [sep] (piece :: r) = piece ++ after ∧
        (after = [] ∨ ∃ r', after = sep :: r') := by
      cases r with
      | nil => exact ⟨[], by simp, Or.inl rfl⟩
      | cons q qs => exact ⟨sep :: join [sep] (q :: qs), by simp, Or.inr ⟨_, rfl⟩⟩
    obtain ⟨after, hafter, hend⟩ := hafter
    cases l with
    | nil =>
        rw [List.nil_append, hafter] at hs
        exact ⟨[], after, by rw [← hs, List.nil_append], Or.inl rfl, hend⟩
    | cons p ps =>
        rw [join_append [sep] (List.cons_ne_nil _ _) (List.cons_ne_nil _ _), hafter] at hs
        exact ⟨join [sep] (p :: ps) ++ [sep], after, by rw [← hs]; simp, Or.inr ⟨_, rfl⟩, hend⟩
  · rintro ⟨hpiece, left, after, rfl, hleft, hafter⟩
    have hright : ∃ r, (∀ p ∈ r, sep ∉ p) ∧ piece ++ after = join [sep] (piece :: r) := by
      rcases hafter with rfl | ⟨r, rfl⟩
      · exact ⟨[], by simp, by simp⟩
      · refine ⟨split [sep] r, fun p => not_mem_of_mem_split, ?_⟩
        rw [join_cons_of_ne_nil _ _ (split_ne_nil _ _), join_split]
        simp
    obtain ⟨r, hr, hright⟩ := hright
    have hpieces : ∀ p ∈ piece :: r, sep ∉ p := List.forall_mem_cons.mpr ⟨hpiece, hr⟩
    rcases hleft with rfl | ⟨l, rfl⟩
    · rw [List.nil_append, hright, split_join (List.cons_ne_nil _ _) hpieces]
      exact List.mem_cons_self
    · have hjoin : l ++ [sep] ++ piece ++ after = join [sep] (split [sep] l ++ piece :: r) := by
        rw [join_append [sep] (split_ne_nil _ _) (List.cons_ne_nil _ _), join_split, ← hright]
        simp
      rw [hjoin, split_join (by simp) (fun p hp => ?_)]
      · exact List.mem_append_right _ List.mem_cons_self
      · rcases List.mem_append.mp hp with hp | hp
        · exact not_mem_of_mem_split hp
        · exact hpieces p hp

/-- The pieces are made of the characters of the text. -/
theorem mem_of_mem_splitGo {p : Str} {c : Char} :
    ∀ {k : Nat} {s : Str}, p ∈ splitGo sep k s → c ∈ p → c ∈ s
  | k, [], hp, hc => by
      have hnil : splitGo sep k [] = [[]] := by cases k <;> rfl
      rw [hnil, List.mem_singleton] at hp
      exact hp ▸ hc
  | k + 1, _ :: s, hp, hc => List.mem_cons_of_mem _ (mem_of_mem_splitGo hp hc)
  | 0, d :: s, hp, hc => by
      unfold splitGo at hp
      split at hp
      · rcases List.mem_cons.mp hp with rfl | hp
        · exact absurd hc List.not_mem_nil
        · exact List.mem_cons_of_mem _ (mem_of_mem_splitGo hp hc)
      · cases hs : splitGo sep 0 s with
        | nil => exact absurd hs (splitGo_ne_nil 0 s)
        | cons q qs =>
            have hpieces : ∀ x ∈ q :: qs, c ∈ x → c ∈ s := by
              rw [← hs]
              exact fun x hx => mem_of_mem_splitGo hx
            rw [hs, List.modifyHead_cons, List.mem_cons] at hp
            rcases hp with rfl | hp
            · rcases List.mem_cons.mp hc with rfl | hc
              · exact List.mem_cons_self
              · exact List.mem_cons_of_mem _ (hpieces q List.mem_cons_self hc)
            · exact List.mem_cons_of_mem _ (hpieces p (List.mem_cons_of_mem _ hp) hc)

theorem mem_of_mem_replace {old new s : Str} {c : Char} (h : c ∈ replace old new s) :
    c ∈ new ∨ c ∈ s := by
  rcases mem_join_cases h with h | ⟨p, hp, hc⟩
  · exact Or.inl h
  · exact Or.inr (mem_of_mem_splitGo hp hc)

end Split

section Strip

variable {p : Char → Bool}

@[simp] theorem stripOf_nil : stripOf p [] = [] := by
  simp [stripOf]

theorem stripOf_eq_self {s : Str} (hhead : ∀ c ∈ s.head?, p c = false)
    (hlast : ∀ c ∈ s.getLast?, p c = false) : stripOf p s = s := by
  have h₁ : s.dropWhile p = s := by
    cases s with
    | nil => rfl
    | cons c s => simp [hhead c (by simp)]
  rw [stripOf, h₁, List.rdropWhile_eq_self_iff]
  intro hl
  simpa using hlast _ (List.getLast?_eq_some_getLast hl)

theorem stripOf_of_forall {s : Str} (h : ∀ c ∈ s, p c = false) : stripOf p s = s :=
  stripOf_eq_self (fun c hc => h c (List.mem_of_head? hc))
    (fun c hc => h c (List.mem_of_getLast? hc))

/-- Stripping takes characters of the class off both ends. -/
theorem exists_stripOf (p : Char → Bool) (s : Str) :
    ∃ l r, s = l ++ stripOf p s ++ r ∧ (∀ c ∈ l, p c = true) ∧ (∀ c ∈ r, p c = true) := by
  refine ⟨s.takeWhile p, (s.dropWhile p).rtakeWhile p, ?_, ?_, ?_⟩
  · rw [List.append_assoc, stripOf, List.rdropWhile_append_rtakeWhile,
      List.takeWhile_append_dropWhile]
  · intro c hc
    exact List.mem_takeWhile_imp hc
  · intro c hc
    exact List.mem_rtakeWhile_imp hc

theorem stripOf_head? (p : Char → Bool) (s : Str) :
    ∀ c ∈ (stripOf p s).head?, p c = false := by
  intro c hc
  have hprefix : stripOf p s <+: s.dropWhile p := List.rdropWhile_prefix p _
  cases hs : stripOf p s with
  | nil => simp [hs] at hc
  | cons x t =>
      rw [hs] at hc hprefix
      obtain ⟨r, hr⟩ := hprefix
      obtain rfl : x = c := by simpa using hc
      have hhead : (s.dropWhile p).head? = some x := by
        rw [← hr]
        rfl
      exact List.head?_dropWhile_not p s |> fun h => by simpa [hhead] using h

theorem stripOf_getLast? (p : Char → Bool) (s : Str) :
    ∀ c ∈ (stripOf p s).getLast?, p c = false := by
  intro c hc
  have hne : stripOf p s ≠ [] := by
    rintro h
    simp [h] at hc
  have hlast := List.rdropWhile_last_not p (s.dropWhile p) hne
  have hc' : (stripOf p s).getLast hne = c := by
    rw [List.getLast?_eq_some_getLast hne] at hc
    exact Option.some.inj hc
  rw [← hc', ← Bool.not_eq_true]
  exact hlast

@[simp] theorem stripOf_stripOf (p : Char → Bool) (s : Str) :
    stripOf p (stripOf p s) = stripOf p s :=
  stripOf_eq_self (stripOf_head? p s) (stripOf_getLast? p s)

theorem stripOf_cons {c : Char} (hc : p c = true) (s : Str) :
    stripOf p (c :: s) = stripOf p s := by
  simp [stripOf, hc]

theorem stripOf_concat {c : Char} (hc : p c = true) (s : Str) :
    stripOf p (s ++ [c]) = stripOf p s := by
  rw [stripOf, stripOf]
  by_cases hall : ∀ x ∈ s, p x = true
  · rw [List.dropWhile_append_of_pos hall, List.dropWhile_eq_nil_iff.mpr hall]
    simp [hc]
  · have hne : s.dropWhile p ≠ [] := by
      rwa [ne_eq, List.dropWhile_eq_nil_iff]
    rw [List.dropWhile_append, if_neg (by simpa using hne), List.rdropWhile_concat_pos _ _ _ hc]

/-- A character that is not in the separator ends up at the end of the last piece. -/
theorem split_concat {a : Char} {sep' : Str} {c : Char} (hc : c ∉ a :: sep') (s : Str) :
    ∃ ps q, split (a :: sep') s = ps ++ [q] ∧
      split (a :: sep') (s ++ [c]) = ps ++ [q ++ [c]] := by
  induction hn : s.length using Nat.strong_induction_on generalizing s with
  | _ n ih =>
      cases s with
      | nil =>
          have hac : a ∉ [c] := by
            intro h
            rw [List.mem_singleton] at h
            exact hc (by simp [h])
          exact ⟨[], [], rfl, split_of_not_mem hac⟩
      | cons x s =>
          by_cases h : a :: sep' <+: x :: s
          · obtain ⟨rest, hrest⟩ := h
            have hlen : rest.length < n := by
              have := congrArg List.length hrest
              simp at this hn
              omega
            obtain ⟨ps, q, hps, hqs⟩ := ih _ hlen rest rfl
            refine ⟨[] :: ps, q, ?_, ?_⟩
            · rw [← hrest, split_sep_append, hps]
              rfl
            · rw [← hrest, List.append_assoc, split_sep_append, hqs]
              rfl
          · have h' : ¬ a :: sep' <+: x :: (s ++ [c]) := by
              rw [← List.cons_append, List.prefix_concat_iff]
              rintro (heq | hpre)
              · exact hc (by rw [heq]; simp)
              · exact h hpre
            have hlen : s.length < n := by simp at hn; omega
            obtain ⟨ps, q, hps, hqs⟩ := ih _ hlen s rfl
            rw [List.cons_append, split_cons_of_not_sep h, split_cons_of_not_sep h', hps, hqs]
            cases ps with
            | nil => exact ⟨[], x :: q, rfl, rfl⟩
            | cons r ps => exact ⟨(x :: r) :: ps, q, rfl, rfl⟩

/-- Characters of the class around a text do not show in its stripped pieces. -/
theorem map_stripOf_split {a : Char} {sep' : Str} (hsep : ∀ c ∈ a :: sep', p c = false)
    (s : Str) :
    (split (a :: sep') (stripOf p s)).map (stripOf p) =
      (split (a :: sep') s).map (stripOf p) := by
  have hcons : ∀ (c : Char) (t : Str), p c = true →
      (split (a :: sep') (c :: t)).map (stripOf p) = (split (a :: sep') t).map (stripOf p) := by
    intro c t hc
    have hca : a ≠ c := by
      rintro rfl
      rw [hsep a (by simp)] at hc
      exact absurd hc (by simp)
    rw [split_cons_of_not_sep (by simp [List.cons_prefix_cons, hca])]
    cases hs : split (a :: sep') t with
    | nil => exact absurd hs (split_ne_nil _ _)
    | cons q qs => simp [stripOf_cons hc]
  have hconcat : ∀ (c : Char) (t : Str), p c = true →
      (split (a :: sep') (t ++ [c])).map (stripOf p) =
        (split (a :: sep') t).map (stripOf p) := by
    intro c t hc
    have hmem : c ∉ a :: sep' := by
      intro hin
      rw [hsep c hin] at hc
      exact absurd hc (by simp)
    obtain ⟨ps, q, hps, hqs⟩ := split_concat hmem t
    rw [hps, hqs]
    simp [stripOf_concat hc]
  have hleft : ∀ (l t : Str), (∀ c ∈ l, p c = true) →
      (split (a :: sep') (l ++ t)).map (stripOf p) = (split (a :: sep') t).map (stripOf p) := by
    intro l t hl
    induction l with
    | nil => rfl
    | cons c l ih =>
        rw [List.forall_mem_cons] at hl
        rw [List.cons_append, hcons c _ hl.1, ih hl.2]
  have hright : ∀ (r t : Str), (∀ c ∈ r, p c = true) →
      (split (a :: sep') (t ++ r)).map (stripOf p) = (split (a :: sep') t).map (stripOf p) := by
    intro r
    induction r with
    | nil => simp
    | cons c r ih =>
        intro t hr
        rw [List.forall_mem_cons] at hr
        have happend : t ++ c :: r = (t ++ [c]) ++ r := by simp
        rw [happend, ih _ hr.2, hconcat c t hr.1]
  obtain ⟨l, r, hs, hl, hr⟩ := exists_stripOf p s
  conv_rhs => rw [hs]
  rw [hright r _ hr, hleft l _ hl]

end Strip

/-- Two texts that are cut at the first character of a class have the same parts. -/
theorem append_cons_inj {α : Type} {p : α → Bool} {x y : α} (hx : p x = true)
    (hy : p y = true) {t u : List α} :
    ∀ {s s' : List α}, (∀ c ∈ s, p c = false) → (∀ c ∈ s', p c = false) →
      s ++ x :: t = s' ++ y :: u → s = s' ∧ x = y ∧ t = u
  | [], [], _, _, h => by
      rw [List.nil_append, List.nil_append, List.cons.injEq] at h
      exact ⟨rfl, h⟩
  | [], c :: s', _, hs', h => by
      rw [List.nil_append, List.cons_append, List.cons.injEq] at h
      rw [h.1, hs' c List.mem_cons_self] at hx
      exact absurd hx Bool.false_ne_true
  | c :: s, [], hs, _, h => by
      rw [List.nil_append, List.cons_append, List.cons.injEq] at h
      rw [← h.1, hs c List.mem_cons_self] at hy
      exact absurd hy Bool.false_ne_true
  | c :: s, d :: s', hs, hs', h => by
      rw [List.cons_append, List.cons_append, List.cons.injEq] at h
      rw [List.forall_mem_cons] at hs hs'
      obtain ⟨hss', hrest⟩ := append_cons_inj hx hy hs.2 hs'.2 h.2
      exact ⟨by rw [h.1, hss'], hrest⟩

/-- Two texts that are cut where something occurs for the first time have the same parts. -/
theorem append_cons_inj_of_not_mem {α : Type} [DecidableEq α] {x : α} {s s' t u : List α}
    (hs : x ∉ s) (hs' : x ∉ s') (h : s ++ x :: t = s' ++ x :: u) : s = s' ∧ t = u := by
  have hclass : ∀ {v : List α}, x ∉ v → ∀ c ∈ v, decide (c = x) = false := by
    intro v hv c hc
    exact decide_eq_false fun heq => hv (heq ▸ hc)
  obtain ⟨hfront, -, hrest⟩ := append_cons_inj (p := fun c => decide (c = x)) (decide_eq_true rfl)
    (decide_eq_true rfl) (hclass hs) (hclass hs') h
  exact ⟨hfront, hrest⟩

end Text
end Foundation
