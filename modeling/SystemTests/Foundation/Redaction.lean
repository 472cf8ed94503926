import Mathlib.Data.List.Infix
import Mathlib.Tactic

/-!
# Redaction of sequences

Every occurrence of some words in a sequence is exchanged for a marker, one word
after the other.  A word may reappear where it overlaps a marker; it does not
reappear when it is `Apart` from the markers.

**Results.**
* `length_redact`: a marker as long as the word keeps the length.
* `not_infix_redact`: no word is left.
* `not_infix_flatten_redact`: no word is left in pieces redacted one by one,
  when no word is divided among the pieces.
-/

namespace Foundation
namespace Redaction

variable {α : Type*}

section Replace

variable [DecidableEq α]

/--
The leftmost non-overlapping occurrences of `old` exchanged for `new`; the
counter is the number of elements of the occurrence just met still to be passed over.
-/
def replaceGo (old new : List α) : Nat → List α → List α
  | _, [] => []
  | k + 1, _ :: s => replaceGo old new k s
  | 0, c :: s =>
      if old <+: c :: s then new ++ replaceGo old new (old.length - 1) s
      else c :: replaceGo old new 0 s

/-- `replace` of a nonempty word. -/
def replaceAll (old new s : List α) : List α := replaceGo old new 0 s

/-- The words are replaced one after the other, each by its own marker. -/
def redact (marker : List α → List α) (words : List (List α)) (s : List α) : List α :=
  words.foldl (fun s word => replaceAll word (marker word) s) s

end Replace

section Replaced

variable {old new : List α}

/-- How a replacement passes over a sequence. -/
inductive Replaced (old new : List α) : List α → List α → Prop where
  | nil : Replaced old new [] []
  | keep {c : α} {s t : List α} : ¬ old <+: c :: s → Replaced old new s t →
      Replaced old new (c :: s) (c :: t)
  | hit {s t : List α} : Replaced old new s t → Replaced old new (old ++ s) (new ++ t)

section

variable [DecidableEq α]

theorem replaceGo_append (skipped s : List α) :
    replaceGo old new skipped.length (skipped ++ s) = replaceGo old new 0 s := by
  induction skipped with
  | nil => rfl
  | cons c skipped ih => simpa [replaceGo] using ih

theorem replaced_replaceAll (hold : old ≠ []) (s : List α) :
    Replaced old new s (replaceAll old new s) := by
  induction hlength : s.length using Nat.strong_induction_on generalizing s with
  | h n ih =>
      cases s with
      | nil => exact Replaced.nil
      | cons c s =>
          rw [List.length_cons] at hlength
          by_cases h : old <+: c :: s
          · obtain ⟨rest, hrest⟩ := id h
            obtain ⟨a, old, rfl⟩ := List.exists_cons_of_ne_nil hold
            rw [List.cons_append, List.cons.injEq] at hrest
            obtain ⟨rfl, rfl⟩ := hrest
            rw [List.length_append] at hlength
            -- The counter passes over the rest of the occurrence.
            have hgo : replaceAll (a :: old) new (a :: (old ++ rest)) =
                new ++ replaceAll (a :: old) new rest := by
              rw [replaceAll, replaceGo, if_pos h, List.length_cons, Nat.add_sub_cancel,
                replaceGo_append, replaceAll]
            rw [hgo, ← List.cons_append]
            exact Replaced.hit (ih rest.length (by omega) rest rfl)
          · have hgo : replaceAll old new (c :: s) = c :: replaceAll old new s := by
              rw [replaceAll, replaceGo, if_neg h, replaceAll]
            rw [hgo]
            exact Replaced.keep h (ih s.length (by omega) s rfl)

end

theorem Replaced.length_eq (hlength : new.length = old.length) {s t : List α}
    (h : Replaced old new s t) : t.length = s.length := by
  induction h with
  | nil => rfl
  | keep _ _ ih => simp [ih]
  | hit _ ih => simp [ih, hlength]

end Replaced

section Apart

/-- No occurrence of the word in a sequence overlaps an occurrence of the marker. -/
structure Apart (new word : List α) : Prop where
  not_in_marker : ¬ word <:+: new
  not_in_word : ¬ new <:+: word
  left : ∀ a, a ≠ [] → a <:+ word → ¬ a <+: new
  right : ∀ a, a ≠ [] → a <+: word → ¬ a <:+ new

variable {old new word : List α}

/-- A word without the element that a marker begins and ends with. -/
theorem apart_of_notMem {c : α} (hhead : new.head? = some c) (hlast : new.getLast? = some c)
    (hc : c ∉ word) (hin : ¬ word <:+: new) : Apart new word where
  not_in_marker := hin
  not_in_word h := hc (h.subset (List.mem_of_mem_head? hhead))
  left a ha hsuffix hleft := by
    obtain ⟨d, a, rfl⟩ := List.exists_cons_of_ne_nil ha
    obtain ⟨rest, rfl⟩ := hleft
    have hd : d = c := by simpa using hhead
    exact hc (hd ▸ List.IsSuffix.subset hsuffix List.mem_cons_self)
  right a ha hprefix hright := by
    obtain ⟨a, d, rfl⟩ := (List.eq_nil_or_concat' a).resolve_left ha
    obtain ⟨rest, rfl⟩ := hright
    have hd : d = c := by simpa using hlast
    exact hc (hd ▸ List.IsPrefix.subset hprefix (by simp))

/-- An occurrence in a sequence around a marker is on one side of it. -/
theorem Apart.infix_append (h : Apart new word) {y : List α} (hword : word <:+: new ++ y) :
    word <:+: y := by
  rcases List.infix_append_iff_ne_nil.mp hword with hin | hin | ⟨a, b, ha, hb, rfl, hnew, hy⟩
  · exact absurd hin h.not_in_marker
  · exact hin
  · exact absurd hnew (h.right a ha (List.prefix_append a b))

theorem Replaced.eq_of_no_marker {s t : List α} (h : Replaced old new s t) (hnew : ¬ new <:+: t) :
    t = s := by
  induction h with
  | nil => rfl
  | keep _ _ ih => rw [ih fun hin => hnew (List.infix_cons hin)]
  | hit _ _ => exact absurd List.infix_append_left hnew

theorem Replaced.prefix_of_apart (hapart : Apart new word) {s t : List α}
    (h : Replaced old new s t) : ∀ {b : List α}, b <:+ word → b <+: t → b <+: s := by
  induction h with
  | nil => exact fun _ hb => hb
  | keep _ _ ih =>
      intro b hsuffix hb
      cases b with
      | nil => exact List.nil_prefix
      | cons c' b =>
          obtain ⟨rfl, hrest⟩ := List.cons_prefix_cons.mp hb
          exact List.cons_prefix_cons.mpr ⟨rfl, ih ((List.suffix_cons c' b).trans hsuffix) hrest⟩
  | hit _ _ =>
      intro b hsuffix hb
      by_cases hnil : b = []
      · subst hnil
        exact List.nil_prefix
      · rcases List.prefix_or_prefix_of_prefix hb (List.prefix_append new _) with hle | hle
        · exact absurd hle (hapart.left b hnil hsuffix)
        · exact absurd (hle.isInfix.trans hsuffix.isInfix) hapart.not_in_word

theorem Replaced.suffix_of_apart (hapart : Apart new word) {s t : List α}
    (h : Replaced old new s t) : ∀ {a : List α}, a <+: word → a <:+ t → a <:+ s := by
  induction h with
  | nil => exact fun _ ha => ha
  | @keep c s t _ hrest ih =>
      intro a hprefix ha
      rcases List.suffix_cons_iff.mp ha with rfl | ha
      · have heq : t = s := hrest.eq_of_no_marker fun hin =>
          hapart.not_in_word ((List.infix_cons hin).trans hprefix.isInfix)
        rw [heq]
      · exact (ih hprefix ha).trans (List.suffix_cons c s)
  | @hit s t _ ih =>
      intro a hprefix ha
      rcases List.suffix_or_suffix_of_suffix ha (List.suffix_append new t) with hle | ⟨w, rfl⟩
      · exact (ih hprefix hle).trans (List.suffix_append old s)
      · by_cases hnil : w = []
        · subst hnil
          exact (ih hprefix (List.suffix_refl t)).trans (List.suffix_append old s)
        · obtain ⟨u, hu⟩ := ha
          rw [← List.append_assoc] at hu
          have hw : w <:+ new := ⟨u, List.append_cancel_right hu⟩
          exact absurd hw (hapart.right w hnil ((List.prefix_append w t).trans hprefix))

/-- A replacement brings no word back. -/
theorem Replaced.keeps_out (hapart : Apart new word) {s t : List α} (h : Replaced old new s t)
    (hword : ¬ word <:+: s) : ¬ word <:+: t := by
  induction h with
  | nil => exact hword
  | keep hfirst hrest ih =>
      intro hin
      rcases List.infix_cons_iff.mp hin with hin | hin
      · have hprefix := (Replaced.keep hfirst hrest).prefix_of_apart hapart (List.suffix_refl word) hin
        exact hword hprefix.isInfix
      · exact ih (fun hs => hword (List.infix_cons hs)) hin
  | hit _ ih =>
      intro hin
      exact ih (fun hs => hword (List.infix_append_of_infix_right hs)) (hapart.infix_append hin)

theorem Replaced.keeps_out_self (hapart : Apart new old) {s t : List α}
    (h : Replaced old new s t) : ¬ old <:+: t := by
  induction h with
  | nil =>
      intro hin
      rw [List.infix_nil] at hin
      exact hapart.not_in_marker (hin ▸ List.nil_infix)
  | keep hfirst hrest ih =>
      intro hin
      rcases List.infix_cons_iff.mp hin with hin | hin
      · exact hfirst ((Replaced.keep hfirst hrest).prefix_of_apart hapart (List.suffix_refl old) hin)
      · exact ih hin
  | hit _ ih => exact fun hin => ih (hapart.infix_append hin)

end Apart

section Redact

variable [DecidableEq α] {marker : List α → List α} {words : List (List α)}

theorem length_redact (hne : ∀ word ∈ words, word ≠ [])
    (hlength : ∀ word ∈ words, (marker word).length = word.length) (s : List α) :
    (redact marker words s).length = s.length := by
  induction words generalizing s with
  | nil => rfl
  | cons word words ih =>
      rw [List.forall_mem_cons] at hne hlength
      have hfirst := (replaced_replaceAll hne.1 s).length_eq hlength.1
      rw [redact, List.foldl_cons, ← redact, ih hne.2 hlength.2, hfirst]

variable {target : List α}

/-- A word that is apart from the markers does not come back. -/
theorem not_infix_redact_of_not_infix (hne : ∀ word ∈ words, word ≠ [])
    (hapart : ∀ word ∈ words, Apart (marker word) target) {s : List α} (h : ¬ target <:+: s) :
    ¬ target <:+: redact marker words s := by
  induction words generalizing s with
  | nil => exact h
  | cons word words ih =>
      rw [List.forall_mem_cons] at hne hapart
      exact ih hne.2 hapart.2 ((replaced_replaceAll hne.1 s).keeps_out hapart.1 h)

/-- **No word is left**, whatever the order of the words. -/
theorem not_infix_redact (hne : ∀ word ∈ words, word ≠ [])
    (hapart : ∀ word ∈ words, Apart (marker word) target) (hmem : target ∈ words) (s : List α) :
    ¬ target <:+: redact marker words s := by
  induction words generalizing s with
  | nil => cases hmem
  | cons word words ih =>
      rw [List.forall_mem_cons] at hne hapart
      rcases List.mem_cons.mp hmem with rfl | hmem
      · exact not_infix_redact_of_not_infix hne.2 hapart.2
          ((replaced_replaceAll hne.1 s).keeps_out_self hapart.1)
      · exact ih hne.2 hapart.2 hmem _

theorem redact_eq_self (hne : ∀ word ∈ words, word ≠ [])
    (hapart : ∀ word ∈ words, Apart (marker word) target) {s : List α}
    (h : redact marker words s <:+: target) : redact marker words s = s := by
  induction words generalizing s with
  | nil => rfl
  | cons word words ih =>
      rw [List.forall_mem_cons] at hne hapart
      have hrest : redact marker (word :: words) s = replaceAll word (marker word) s :=
        ih hne.2 hapart.2 h
      rw [hrest] at h ⊢
      exact (replaced_replaceAll hne.1 s).eq_of_no_marker fun hin =>
        hapart.1.not_in_word (hin.trans h)

theorem prefix_of_redact (hne : ∀ word ∈ words, word ≠ [])
    (hapart : ∀ word ∈ words, Apart (marker word) target) {b : List α} (hb : b <:+ target)
    {s : List α} (h : b <+: redact marker words s) : b <+: s := by
  induction words generalizing s with
  | nil => exact h
  | cons word words ih =>
      rw [List.forall_mem_cons] at hne hapart
      exact (replaced_replaceAll hne.1 s).prefix_of_apart hapart.1 hb (ih hne.2 hapart.2 h)

theorem suffix_of_redact (hne : ∀ word ∈ words, word ≠ [])
    (hapart : ∀ word ∈ words, Apart (marker word) target) {a : List α} (ha : a <+: target)
    {s : List α} (h : a <:+ redact marker words s) : a <:+ s := by
  induction words generalizing s with
  | nil => exact h
  | cons word words ih =>
      rw [List.forall_mem_cons] at hne hapart
      exact (replaced_replaceAll hne.1 s).suffix_of_apart hapart.1 ha (ih hne.2 hapart.2 h)

/-- What a word has of redacted pieces, it has of the pieces. -/
theorem prefix_of_flatten_redact (hne : ∀ word ∈ words, word ≠ [])
    (hapart : ∀ word ∈ words, Apart (marker word) target) {pieces : List (List α)} :
    ∀ {b : List α}, b <:+ target → b <+: (pieces.map (redact marker words)).flatten →
      b <+: pieces.flatten := by
  induction pieces with
  | nil => exact fun _ h => h
  | cons piece pieces ih =>
      intro b hb h
      rw [List.map_cons, List.flatten_cons] at h
      rw [List.flatten_cons]
      rcases List.prefix_or_prefix_of_prefix h (List.prefix_append _ _) with hle | ⟨b, rfl⟩
      · exact (prefix_of_redact hne hapart hb hle).trans (List.prefix_append _ _)
      · have hself : redact marker words piece = piece :=
          redact_eq_self hne hapart (List.infix_append_left.trans hb.isInfix)
        rw [hself] at h hb ⊢
        rw [List.prefix_append_right_inj] at h ⊢
        exact ih ((List.suffix_append piece b).trans hb) h

/-- A word is divided: it begins in one sequence and ends in the next. -/
def Divided (word s t : List α) : Prop :=
  ∃ a b, a ≠ [] ∧ b ≠ [] ∧ word = a ++ b ∧ a <:+ s ∧ b <+: t

/-- **No word is left** in redacted pieces among which it is not divided. -/
theorem not_infix_flatten_redact (hne : ∀ word ∈ words, word ≠ [])
    (hapart : ∀ word ∈ words, Apart (marker word) target) (hmem : target ∈ words)
    {pieces : List (List α)}
    (hdivided : ∀ before after, pieces = before ++ after →
      ¬ Divided target before.flatten after.flatten) :
    ¬ target <:+: (pieces.map (redact marker words)).flatten := by
  induction pieces with
  | nil => simpa using hne target hmem
  | cons piece pieces ih =>
      rw [List.map_cons, List.flatten_cons]
      intro hin
      rcases List.infix_append_iff_ne_nil.mp hin with hin | hin | ⟨a, b, ha, hb, hab, hpiece, hrest⟩
      · exact not_infix_redact hne hapart hmem piece hin
      · refine ih (fun before after hpieces hcut => ?_) hin
        obtain ⟨a, b, ha, hb, hab, hbefore, hafter⟩ := hcut
        refine hdivided (piece :: before) after (by rw [hpieces, List.cons_append]) ?_
        exact ⟨a, b, ha, hb, hab, hbefore.trans (List.suffix_append _ _), hafter⟩
      · refine hdivided [piece] pieces rfl ⟨a, b, ha, hb, hab, ?_, ?_⟩
        · rw [List.flatten_singleton]
          exact suffix_of_redact hne hapart (hab ▸ List.prefix_append a b) hpiece
        · exact prefix_of_flatten_redact hne hapart (hab ▸ List.suffix_append a b) hrest

end Redact

end Redaction
end Foundation
