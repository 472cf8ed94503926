import SystemTests.VirtualMachine.AmiCandidate

/-!
# Retiring images (`utils/scripts/pulumi_clean_up.py`)

A cleanup finds an image unused when it is old or was not launched for long.  An image that
is active or a candidate is not deleted at once: the cleanup writes a tag with the instant from
which on it may be deleted, and a later cleanup reads it.  A cleanup that finds the image used
removes the tag, and one that cannot look up the last launch leaves everything as it is.

**Results.**
* `action_live`: what a cleanup does with an active image or a candidate.
* `linked_cleanUps`: what a tag says about the cleanups before.
* `deleted_after_mark`: an image is deleted by a second cleanup only.
-/

namespace SystemTests
namespace VirtualMachine
namespace AmiCleanup

open Foundation Foundation.Text Foundation.IsoFormat

def retireTag : Str := "ami-retire-at"

/-- The instant in the tag, if there is one. -/
def retireAt (tags : Option Tags) : Option Int :=
  let raw := (tags.bind (·.get? retireTag)).getD []
  if raw = [] then none else (fromIsoFormat raw).map Datetime.instant

inductive Action where
  | delete
  | mark
  | clear
  | keep
deriving DecidableEq

/-- `now - timedelta(days=days)`, which may be out of the range of dates. -/
def minusDays (now days : Int) : Option Int :=
  let instant := now - days * microsecondsOfDay
  if InRange instant then some instant else none

/-- `old or stale`; nothing, if an instant is out of range. -/
def oldOrStale (creationDate : Int) (lastLaunchedDate : Option Int) (now : Int)
    (retentionDays lastLaunchedDays : Int) : Option Bool := do
  let retention ← minusDays now retentionDays
  let old := decide (creationDate < retention)
  match lastLaunchedDate with
  | none => return old
  | some launched =>
      let limit ← minusDays now lastLaunchedDays
      return old || decide (launched < limit)

/-- Nothing, if the computation raises. -/
def amiCleanupAction (tags : Option Tags) (creationDate : Int) (lastLaunchedDate : Option Int)
    (now retentionDays lastLaunchedDays : Int) (launchLookupOk : Bool) : Option Action :=
  let state := tags.bind (·.get? stateTag)
  if state = some rejected then some .delete
  else if state = some active ∨ state = some candidate then
    if launchLookupOk then do
      let unused ← oldOrStale creationDate lastLaunchedDate now retentionDays lastLaunchedDays
      if unused then
        match retireAt tags with
        | none => return .mark
        | some retire => return if retire ≤ now then .delete else .keep
      else return if (retireAt tags).isSome then .clear else .keep
    else some .keep
  else do
    let unused ← oldOrStale creationDate lastLaunchedDate now retentionDays lastLaunchedDays
    return if unused then .delete else .keep

/-- What does not change: when the image was created, and the parameters of the cleanups. -/
structure Policy where
  creationDate : Int
  retentionDays : Int
  lastLaunchedDays : Int

/-- A cleanup of the image, at a whole second: what the lookup of the last launch returned, if
it did not fail, and the tags that others had written. -/
structure CleanUp where
  second : Nat
  lookup : Option (Option Int)
  otherTags : Tags

namespace CleanUp

def now (r : CleanUp) : Int := r.second * 1000000

/-- The image is active or a candidate. -/
def Live (r : CleanUp) : Prop :=
  r.otherTags.get? stateTag = some active ∨
    r.otherTags.get? stateTag = some candidate

/-- What the lookup shows, if it succeeds: whether the image is old or stale. -/
def finds (p : Policy) (r : CleanUp) : Option Bool :=
  r.lookup.bind fun launched =>
    oldOrStale p.creationDate launched r.now p.retentionDays p.lastLaunchedDays

end CleanUp

section CleaningUp

variable (p : Policy)

/-- The tags of the image: those of others, and that of the cleanups. -/
def tagsOf (retire : Option Str) (otherTags : Tags) : Tags :=
  match retire with
  | none => otherTags.erase retireTag
  | some value => otherTags.set retireTag value

def action (retire : Option Str) (r : CleanUp) : Option Action :=
  amiCleanupAction (some (tagsOf retire r.otherTags)) p.creationDate (r.lookup.getD none) r.now
    p.retentionDays p.lastLaunchedDays r.lookup.isSome

/-- `now + timedelta(days=1)` -/
def retirement (r : CleanUp) : Int := r.now + microsecondsOfDay

/-- The tag after a cleanup. -/
def cleanUpAmi (retire : Option Str) (r : CleanUp) : Option Str :=
  match action p retire r with
  | some .mark =>
      if h : InRange (retirement r) then some (strftime (retirement r) h) else retire
  | some .clear => none
  | _ => retire

/-- The tag after some cleanups of an image that had none. -/
def cleanUps (runs : List CleanUp) : Option Str := runs.foldl (cleanUpAmi p) none

/-- After the cleanups before, the cleanup marks the image. -/
def Marks (before : List CleanUp) (r : CleanUp) : Prop :=
  action p (cleanUps p before) r = some .mark ∧ InRange (retirement r)

/-- The tag was written by a cleanup, and none found the image used since then. -/
def Linked (before : List CleanUp) (value : Str) : Prop :=
  ∃ earlier marking between, before = earlier ++ marking :: between ∧ Marks p earlier marking ∧
    (∃ h, value = strftime (retirement marking) h) ∧
    ∀ r ∈ between, r.finds p ≠ some false

end CleaningUp

section Tag

theorem retireAt_none (otherTags : Tags) : retireAt (some (tagsOf none otherTags)) = none := by
  have hnone : (otherTags.erase retireTag).get? retireTag = none := by
    rw [Dict.get?_erase, if_pos rfl]
  unfold retireAt tagsOf
  simp only [Option.bind_some, hnone]
  rfl

/-- The tag that a cleanup writes is read as the instant that it means. -/
theorem retireAt_strftime (r : CleanUp) (h : InRange (retirement r)) (otherTags : Tags) :
    retireAt (some (tagsOf (some (strftime (retirement r) h)) otherTags)) =
      some (retirement r) := by
  have hread := fromIsoFormat_strftime h
  have hsecond : retirement r / 1000000 * 1000000 = retirement r := by
    unfold retirement CleanUp.now microsecondsOfDay
    omega
  rw [retireAt, Option.bind_some, tagsOf, Dict.get?_set_self, Option.getD_some]
  rw [if_neg (strftime_ne_nil h), hread, Option.map_some, Datetime.instant, hsecond,
    Option.getD_some, sub_zero]

theorem get?_stateTag (retire : Option Str) (otherTags : Tags) :
    (tagsOf retire otherTags).get? stateTag = otherTags.get? stateTag := by
  have hne : stateTag ≠ retireTag := by decide
  cases retire with
  | none => rw [tagsOf, Dict.get?_erase, if_neg hne]
  | some value => rw [tagsOf, Dict.get?_set_ne _ _ hne]

variable {p : Policy} {r : CleanUp}

/-- What a cleanup does with an image that is active or a candidate. -/
theorem action_live (hlive : r.Live) (retire : Option Str) :
    action p retire r =
      if r.lookup.isSome then (r.finds p).map fun unused =>
        if unused then
          match retireAt (some (tagsOf retire r.otherTags)) with
          | none => .mark
          | some instant => if instant ≤ r.now then .delete else .keep
        else if (retireAt (some (tagsOf retire r.otherTags))).isSome then .clear else .keep
      else some .keep := by
  have hstate : (some (tagsOf retire r.otherTags)).bind (·.get? stateTag) = some active ∨
      (some (tagsOf retire r.otherTags)).bind (·.get? stateTag) = some candidate := by
    rw [Option.bind_some, get?_stateTag]
    exact hlive
  have hrejected : (some (tagsOf retire r.otherTags)).bind (·.get? stateTag) ≠
      some rejected := by
    rcases hstate with hstate | hstate <;> rw [hstate] <;> decide
  unfold action amiCleanupAction CleanUp.finds
  rw [if_neg hrejected, if_pos hstate]
  cases r.lookup with
  | none => simp only [Option.isSome_none, Bool.false_eq_true, if_false]
  | some launched =>
      simp only [Option.isSome_some, if_true, Option.getD_some, Option.bind_some]
      cases oldOrStale p.creationDate launched r.now p.retentionDays p.lastLaunchedDays with
      | none => simp only [Option.bind_eq_bind, Option.bind_none, Option.map_none]
      | some unused =>
          cases retireAt (some (tagsOf retire r.otherTags)) <;> cases unused <;> rfl

end Tag

section Runs

variable {p : Policy} {before : List CleanUp} {r : CleanUp}

theorem cleanUps_concat (before : List CleanUp) (r : CleanUp) :
    cleanUps p (before ++ [r]) = cleanUpAmi p (cleanUps p before) r := by
  rw [cleanUps, List.foldl_append]
  rfl

theorem isSome_lookup_of_finds {unused : Bool} (h : r.finds p = some unused) :
    r.lookup.isSome = true := by
  cases hlookup : r.lookup with
  | none =>
      rw [CleanUp.finds, hlookup] at h
      cases h
  | some launched => rfl

/-- A cleanup that finds a marked image used removes the tag. -/
theorem action_of_finds_used (hlive : r.Live) {value : Str} (hlinked : Linked p before value)
    (hfinds : r.finds p = some false) : action p (some value) r = some .clear := by
  obtain ⟨earlier, marking, between, _, _, ⟨h, rfl⟩, _⟩ := hlinked
  rw [action_live hlive, if_pos (isSome_lookup_of_finds hfinds), hfinds, retireAt_strftime]
  rfl

theorem Linked.concat {value : Str} (h : Linked p before value) (hr : r.finds p ≠ some false) :
    Linked p (before ++ [r]) value := by
  obtain ⟨earlier, marking, between, rfl, hmarks, hvalue, hbetween⟩ := h
  refine ⟨earlier, marking, between ++ [r], by simp, hmarks, hvalue, fun b hb => ?_⟩
  rcases List.mem_append.mp hb with hb | hb
  · exact hbetween b hb
  · rw [List.mem_singleton.mp hb]
    exact hr

theorem linked_cleanUpAmi (hlive : r.Live)
    (hbefore : ∀ value, cleanUps p before = some value → Linked p before value) {value : Str}
    (h : cleanUpAmi p (cleanUps p before) r = some value) : Linked p (before ++ [r]) value := by
  have hstays : action p (cleanUps p before) r ≠ some .clear →
      cleanUps p before = some value → Linked p (before ++ [r]) value := by
    intro hclear hvalue
    refine (hbefore value hvalue).concat fun hfinds => hclear ?_
    rw [hvalue]
    exact action_of_finds_used hlive (hbefore value hvalue) hfinds
  unfold cleanUpAmi at h
  split at h
  next hmark =>
    split_ifs at h with hrange
    · rw [Option.some.injEq] at h
      exact ⟨before, r, [], rfl, ⟨hmark, hrange⟩, ⟨hrange, h.symm⟩, by simp⟩
    · exact hstays (by rw [hmark]; decide) h
  next => cases h
  next hclear => exact hstays hclear h

/-- A tag of an image was written by a cleanup, and none found the image used since then. -/
theorem linked_cleanUps (hlive : ∀ r ∈ before, r.Live) :
    ∀ value, cleanUps p before = some value → Linked p before value := by
  induction before using List.reverseRecOn with
  | nil =>
      intro value h
      cases h
  | append_singleton before r ih =>
      intro value h
      rw [cleanUps_concat] at h
      exact linked_cleanUpAmi (hlive r (by simp))
        (ih fun b hb => hlive b (List.mem_append_left _ hb)) h

theorem finds_of_delete (hlive : r.Live) {retire : Option Str}
    (h : action p retire r = some .delete) :
    r.finds p = some true ∧
      ∃ instant, retireAt (some (tagsOf retire r.otherTags)) = some instant ∧ instant ≤ r.now := by
  rw [action_live hlive] at h
  by_cases hlookup : r.lookup.isSome = true
  case neg =>
    rw [if_neg hlookup] at h
    cases h
  rw [if_pos hlookup] at h
  obtain ⟨unused, hfinds, h⟩ := Option.map_eq_some_iff.mp h
  rw [hfinds]
  cases unused with
  | false =>
      rw [if_neg Bool.false_ne_true] at h
      split_ifs at h
  | true =>
      rw [if_pos rfl] at h
      split at h
      next => cases h
      next instant hinstant =>
        split_ifs at h with hle
        exact ⟨rfl, instant, hinstant, hle⟩

theorem action_of_failed_lookup (hlive : r.Live) (hlookup : r.lookup = none)
    (retire : Option Str) : action p retire r = some .keep := by
  rw [action_live hlive, hlookup]
  exact if_neg Bool.false_ne_true

variable (p)

/--
A cleanup deletes an active image or a candidate only if it finds it unused, and if an earlier
cleanup, a day or more before, had marked it and none between them found it used.  One whose
lookup failed does nothing.
-/
theorem deleted_after_mark (hlive : ∀ b ∈ before ++ [r], b.Live) :
    (action p (cleanUps p before) r = some .delete →
      r.finds p = some true ∧ ∃ earlier marking between,
        before = earlier ++ marking :: between ∧ Marks p earlier marking ∧
        marking.second + 86400 ≤ r.second ∧ ∀ b ∈ between, b.finds p ≠ some false) ∧
    (r.lookup = none → action p (cleanUps p before) r ≠ some .delete ∧
      cleanUps p (before ++ [r]) = cleanUps p before) := by
  have hr : r.Live := hlive r (by simp)
  have hlinked := linked_cleanUps (p := p) fun b hb => hlive b (List.mem_append_left [r] hb)
  refine ⟨fun hdelete => ?_, fun hlookup => ?_⟩
  · obtain ⟨hfinds, instant, hinstant, hle⟩ := finds_of_delete hr hdelete
    refine ⟨hfinds, ?_⟩
    cases hvalue : cleanUps p before with
    | none =>
        rw [hvalue, retireAt_none] at hinstant
        cases hinstant
    | some value =>
        obtain ⟨earlier, marking, between, hbefore, hmarks, ⟨h, rfl⟩, hbetween⟩ :=
          hlinked value hvalue
        rw [hvalue, retireAt_strftime, Option.some.injEq] at hinstant
        refine ⟨earlier, marking, between, hbefore, hmarks, ?_, hbetween⟩
        rw [← hinstant] at hle
        unfold retirement CleanUp.now microsecondsOfDay at hle
        omega
  · have hkeep := action_of_failed_lookup (p := p) hr hlookup (cleanUps p before)
    rw [cleanUps_concat, cleanUpAmi, hkeep]
    exact ⟨by decide, rfl⟩

/-- A cleanup of an active image. -/
def activeCleanUp (second : Nat) (lookup : Option (Option Int)) : CleanUp :=
  ⟨second, lookup, Dict.empty.set stateTag active⟩

theorem deleted_after_mark_failedLookup :
    cleanUps ⟨0, 1, 1⟩ ([activeCleanUp 864000 (some none)] ++ [activeCleanUp 950400 none]) =
      cleanUps ⟨0, 1, 1⟩ [activeCleanUp 864000 (some none)] := by
  have hlive : ∀ b ∈ [activeCleanUp 864000 (some none)] ++ [activeCleanUp 950400 none],
      b.Live := by
    intro b hb
    have hcases : b = activeCleanUp 864000 (some none) ∨ b = activeCleanUp 950400 none :=
      List.mem_pair.mp hb
    rcases hcases with rfl | rfl <;> exact Or.inl (Dict.get?_set_self _ _ _)
  exact ((deleted_after_mark ⟨0, 1, 1⟩ hlive).2 rfl).2

end Runs

end AmiCleanup
end VirtualMachine
end SystemTests
