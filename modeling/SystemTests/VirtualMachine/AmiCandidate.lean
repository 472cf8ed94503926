import SystemTests.Foundation.Dict
import SystemTests.Foundation.IsoFormat
import SystemTests.Foundation.Run

/-!
# Cached images (`utils/virtual_machine/ami_candidate.py`)

A job looks for an image that it can boot.  If there is none, it makes one, or it waits for
one that another job is making: an image is a candidate until the tests of the job that made it
have run on it, and then active or rejected.

**Results.**
* `newest_spec`: what is selected of the images that are equally good.
* `selectUsableAmi_cases`: what is selected of all the images.
* `cachePlan_selectUsableAmi`: which plan is made.
* `state_step`, `state_run`: how the state of an image changes.
-/

namespace SystemTests
namespace VirtualMachine

open Foundation Foundation.Text Foundation.IsoFormat

abbrev Tags := Dict Str Str

def stateTag : Str := "ami-state"

def active : Str := "active"

def candidate : Str := "candidate"

/-- `_REJECTED_AMI_STATE` -/
def rejected : Str := "rejected"

namespace AmiCandidate

structure Ami where
  creationDate : Str
  state : Str
  tags : Option Tags

def amiState (ami : Ami) : Option Str := ami.tags.bind (·.get? stateTag)

/-- Nothing, if the date cannot be read. -/
def createdAt (ami : Ami) : Option Int := (fromIsoFormat ami.creationDate).map Datetime.instant

/-- Six hours. -/
def candidateBuildWindow : Int := 21600000000

def isAvailable (ami : Ami) : Bool := ami.state = "available".toList

/-- The image is not available yet, or is a candidate. -/
def inProgress (ami : Ami) : Bool := !isAvailable ami || decide (amiState ami = some candidate)

def stillBuilding (now : Int) (ami : Ami) : Option Bool :=
  if inProgress ami then
    (createdAt ami).map fun created => decide (now - created < candidateBuildWindow)
  else some false

def stillBuildingOf (now : Int) : List Ami → Option (List Ami)
  | [] => some []
  | ami :: amis => do
      let building ← stillBuilding now ami
      let rest ← stillBuildingOf now amis
      return if building then ami :: rest else rest

/-- `max(amis, key=lambda ami: ami.creation_date)` -/
def newest : List Ami → Option Ami
  | [] => none
  | ami :: amis => some (amis.foldl
      (fun best ami => if best.creationDate < ami.creationDate then ami else best) ami)

def selectUsableAmi (amis : List Ami) (now : Int) : Option (Option Ami) :=
  let usable := amis.filter fun ami => amiState ami ≠ some rejected
  let available := usable.filter fun ami => isAvailable ami ∧ amiState ami ≠ some candidate
  match newest (available.filter fun ami => amiState ami = some active) with
  | some ami => some (some ami)
  | none =>
      match available.find? fun ami => amiState ami = none with
      | some ami => some (some ami)
      | none => (stillBuildingOf now usable).map newest

inductive Plan where
  | create
  | wait
  | use
deriving DecidableEq

def cachePlan (ami : Option Ami) (now : Int) : Option Plan :=
  match ami with
  | none => some .create
  | some ami =>
      if isAvailable ami ∧ amiState ami ≠ some candidate then some .use
      else (stillBuilding now ami).map fun building => if building then .wait else .create

/-- How the tests of a job ended. -/
structure TestRun where
  exitstatus : Int
  provisionFailed : Bool
  testOutcomes : List Str

def validatingTestOutcomes : List Str :=
  ["passed", "failed", "error", "xpassed", "xfailed", "skipped"]

def failedTestOutcomes : List Str := ["failed", "error"]

/-- Nothing, to leave the candidate as it is. -/
def candidateResultState (r : TestRun) : Option Str :=
  if r.provisionFailed ∨ ¬ ∃ outcome ∈ r.testOutcomes, outcome ∈ validatingTestOutcomes then none
  else if ∃ outcome ∈ r.testOutcomes, outcome ∈ failedTestOutcomes then some rejected
  else if r.exitstatus = 0 then some active
  else none

def ciTag : Str := "CI"

def cacheKeyTag : Str := "ami-cache-key"

/-- The update for a candidate that was made for the cache key. -/
def candidateStateTags (tags : Tags) (cacheKey newState : Str) : Option (List (Str × Str)) :=
  if tags.get? ciTag = some "system-tests".toList ∧ tags.get? stateTag = some candidate ∧
      tags.get? cacheKeyTag = some cacheKey then
    some [(stateTag, newState)]
  else none

/-- The images, by their ids. -/
abbrev Images := Dict Str Tags

/-- The images after the update, and whether there was one. -/
def setCreatedCandidateState (images : Images) (amiId cacheKey newState : Str) : Images × Bool :=
  match images.get? amiId with
  | none => (images, false)
  | some tags =>
      match candidateStateTags tags cacheKey newState with
      | none => (images, false)
      | some update => (images.set amiId (tags.setAll update), true)

def promoteBootedCandidate (images : Images) (bootedCandidateAmiId : Option Str) (cacheKey : Str)
    (newState : Option Str) : Images :=
  match newState, bootedCandidateAmiId with
  | some newState, some amiId =>
      if (newState = active ∨ newState = rejected) ∧ amiId ≠ [] then
        (setCreatedCandidateState images amiId cacheKey newState).1
      else images
  | _, _ => images

/-- A job makes an image, or the tests of a job end. -/
inductive Event where
  | create (amiId cacheKey : Str)
  | finish (bootedCandidateAmiId : Option Str) (cacheKey : Str) (r : TestRun)

/-- A new image has an id of its own. -/
def step (images : Images) : Event → Option Images
  | .create amiId cacheKey =>
      if amiId ∈ images.keys then none
      else some (images.set amiId (Dict.empty.setAll
        [(ciTag, "system-tests"), (cacheKeyTag, cacheKey), (stateTag, candidate)]))
  | .finish bootedCandidateAmiId cacheKey r =>
      some (promoteBootedCandidate images bootedCandidateAmiId cacheKey (candidateResultState r))

section Selecting

theorem newest_spec {amis : List Ami} {best : Ami} (h : newest amis = some best) :
    best ∈ amis ∧ ∀ ami ∈ amis, ¬ best.creationDate < ami.creationDate := by
  cases amis with
  | nil => cases h
  | cons first amis =>
      rw [newest, Option.some.injEq] at h
      subst h
      induction amis using List.reverseRecOn with
      | nil => simp
      | append_singleton amis ami ih =>
          rw [List.foldl_append, List.foldl_cons, List.foldl_nil]
          generalize amis.foldl (fun best ami =>
            if best.creationDate < ami.creationDate then ami else best) first = best at ih ⊢
          obtain ⟨hmem, hbest⟩ := ih
          have hcases : ∀ {other}, other ∈ first :: (amis ++ [ami]) →
              other ∈ first :: amis ∨ other = ami := by
            intro other hother
            rwa [← List.cons_append, List.mem_append, List.mem_singleton] at hother
          split_ifs with hlt
          · refine ⟨by simp, fun other hother hlater => ?_⟩
            rcases hcases hother with hother | rfl
            · exact hbest other hother (List.lt_trans hlt hlater)
            · exact List.lt_irrefl _ hlater
          · refine ⟨List.mem_append_left [ami] hmem, fun other hother => ?_⟩
            rcases hcases hother with hother | rfl
            · exact hbest other hother
            · exact hlt

theorem newest_eq_none_iff {amis : List Ami} : newest amis = none ↔ amis = [] := by
  cases amis <;> simp [newest]

/-- The creation dates can be read. -/
def Dated (amis : List Ami) : Prop := ∀ ami ∈ amis, (createdAt ami).isSome

variable {amis : List Ami} {now : Int}

theorem stillBuildingOf_eq :
    ∀ {amis : List Ami}, Dated amis →
      stillBuildingOf now amis = some (amis.filter fun ami => stillBuilding now ami = some true)
  | [], _ => rfl
  | ami :: amis, h => by
      have hrest : Dated amis := fun other hother => h other (List.mem_cons_of_mem ami hother)
      have ih := stillBuildingOf_eq hrest
      obtain ⟨created, hcreated⟩ := Option.isSome_iff_exists.mp (h ami List.mem_cons_self)
      obtain ⟨building, hbuilding⟩ : ∃ building, stillBuilding now ami = some building := by
        unfold stillBuilding
        rw [hcreated]
        split_ifs
        · exact ⟨_, rfl⟩
        · exact ⟨false, rfl⟩
      rw [stillBuildingOf, ih, hbuilding]
      cases building <;> simp [hbuilding]

/-- The image can be booted and is active. -/
def Active (ami : Ami) : Prop := isAvailable ami = true ∧ amiState ami = some active

/-- The image can be booted and has no state. -/
def Untagged (ami : Ami) : Prop := isAvailable ami = true ∧ amiState ami = none

/-- The image may become one that can be booted. -/
def Awaited (now : Int) (ami : Ami) : Prop :=
  amiState ami ≠ some rejected ∧ inProgress ami = true ∧
    ∃ created, createdAt ami = some created ∧ now - created < candidateBuildWindow

theorem active_ne : active ≠ rejected ∧ active ≠ candidate := by decide

theorem mem_active_iff {ami : Ami} :
    ami ∈ ((amis.filter fun ami => amiState ami ≠ some rejected).filter fun ami =>
        isAvailable ami ∧ amiState ami ≠ some candidate).filter
        (fun ami => amiState ami = some active) ↔ ami ∈ amis ∧ Active ami := by
  simp only [List.mem_filter, decide_eq_true_iff]
  constructor
  · rintro ⟨⟨⟨hmem, _⟩, havailable, _⟩, hactive⟩
    exact ⟨hmem, havailable, hactive⟩
  · rintro ⟨hmem, havailable, hactive⟩
    rw [hactive]
    simp only [ne_eq, Option.some.injEq]
    exact ⟨⟨⟨hmem, active_ne.1⟩, havailable, active_ne.2⟩, trivial⟩

theorem stillBuilding_eq_true_iff {ami : Ami} :
    stillBuilding now ami = some true ↔ inProgress ami = true ∧
      ∃ created, createdAt ami = some created ∧ now - created < candidateBuildWindow := by
  unfold stillBuilding
  split_ifs with hprogress
  · simp [hprogress]
  · simp [hprogress]

theorem mem_available_iff {ami : Ami} :
    ami ∈ (amis.filter fun ami => amiState ami ≠ some rejected).filter (fun ami =>
        isAvailable ami ∧ amiState ami ≠ some candidate) ↔
      ami ∈ amis ∧ isAvailable ami = true ∧ amiState ami ≠ some rejected ∧
        amiState ami ≠ some candidate := by
  simp only [List.mem_filter, decide_eq_true_iff]
  tauto

variable (now) in
/-- What is selected: the newest active image, or one without a state, or one to wait for. -/
theorem selectUsableAmi_cases (hdated : Dated amis) :
    ∃ selected, selectUsableAmi amis now = some selected ∧
      ((∃ ami ∈ amis, selected = some ami ∧ Active ami ∧
          ∀ other ∈ amis, Active other → ¬ ami.creationDate < other.creationDate) ∨
        (∃ ami ∈ amis, selected = some ami ∧ Untagged ami ∧ ∀ other ∈ amis, ¬ Active other) ∨
        ((∀ other ∈ amis, ¬ Active other ∧ ¬ Untagged other) ∧
          ((∃ ami ∈ amis, selected = some ami ∧ Awaited now ami) ∨
            selected = none ∧ ∀ other ∈ amis, ¬ Awaited now other))) := by
  unfold selectUsableAmi
  dsimp only
  split
  next ami hnewest =>
    obtain ⟨hmem, hbest⟩ := newest_spec hnewest
    rw [mem_active_iff] at hmem
    exact ⟨some ami, rfl, Or.inl ⟨ami, hmem.1, rfl, hmem.2, fun other hother hactive =>
      hbest other (mem_active_iff.mpr ⟨hother, hactive⟩)⟩⟩
  next hnewest =>
    have hnoActive : ∀ other ∈ amis, ¬ Active other := by
      intro other hother hactive
      have hmem := mem_active_iff.mpr ⟨hother, hactive⟩
      rw [newest_eq_none_iff.mp hnewest] at hmem
      cases hmem
    split
    next ami hfind =>
      have hmem := mem_available_iff.mp (List.mem_of_find?_eq_some hfind)
      have hstate := List.find?_some hfind
      rw [decide_eq_true_iff] at hstate
      exact ⟨some ami, rfl, Or.inr (Or.inl ⟨ami, hmem.1, rfl, ⟨hmem.2.1, hstate⟩, hnoActive⟩)⟩
    next hfind =>
      have hnoUntagged : ∀ other ∈ amis, ¬ Untagged other := by
        rintro other hother ⟨havailable, hstate⟩
        refine List.find?_eq_none.mp hfind other (mem_available_iff.mpr ⟨hother, havailable, ?_, ?_⟩) ?_
        · rw [hstate]
          exact Option.some_ne_none _ ∘ Eq.symm
        · rw [hstate]
          exact Option.some_ne_none _ ∘ Eq.symm
        · rw [decide_eq_true_iff]
          exact hstate
      have hawaited : ∀ ami, ami ∈ ((amis.filter fun ami => amiState ami ≠ some rejected).filter
          fun ami => stillBuilding now ami = some true) ↔ ami ∈ amis ∧ Awaited now ami := by
        intro ami
        simp only [List.mem_filter, decide_eq_true_iff, stillBuilding_eq_true_iff, Awaited]
        tauto
      rw [stillBuildingOf_eq fun ami hami => hdated ami (List.mem_of_mem_filter hami)]
      refine ⟨_, rfl, Or.inr (Or.inr ⟨fun other hother =>
        ⟨hnoActive other hother, hnoUntagged other hother⟩, ?_⟩)⟩
      cases hselected : newest ((amis.filter fun ami => amiState ami ≠ some rejected).filter
          fun ami => stillBuilding now ami = some true) with
      | none =>
          refine Or.inr ⟨rfl, fun other hother hother' => ?_⟩
          have hmem := (hawaited other).mpr ⟨hother, hother'⟩
          rw [newest_eq_none_iff.mp hselected] at hmem
          cases hmem
      | some ami =>
          have hmem := (hawaited ami).mp (newest_spec hselected).1
          exact Or.inl ⟨ami, hmem.1, rfl, hmem.2⟩

end Selecting

section Planning

/-- The creation dates are written in one format, of universal time. -/
def InFormat (fmt : Format) (amis : List Ami) : Prop :=
  (∃ offset, readZone fmt.zone = some offset ∧ offset.getD 0 = 0) ∧
    ∀ ami ∈ amis, ∃ m : Moment, m.Fits fmt.precision ∧ ami.creationDate = render fmt m

variable {fmt : Format} {amis : List Ami} {now : Int}

theorem InFormat.createdAt (h : InFormat fmt amis) {ami : Ami} (hami : ami ∈ amis) :
    ∃ m : Moment, m.Fits fmt.precision ∧ ami.creationDate = render fmt m ∧
      createdAt ami = some m.clock := by
  obtain ⟨⟨offset, hzone, hutc⟩, hdates⟩ := h
  obtain ⟨m, hfits, hdate⟩ := hdates ami hami
  refine ⟨m, hfits, hdate, ?_⟩
  rw [AmiCandidate.createdAt, hdate, fromIsoFormat_render hfits hzone, Option.map_some,
    Datetime.instant, hutc, sub_zero]

theorem InFormat.dated (h : InFormat fmt amis) : Dated amis := by
  intro ami hami
  obtain ⟨m, _, _, hcreated⟩ := h.createdAt hami
  rw [hcreated]
  rfl

/-- The dates of one format are in the order of the instants. -/
theorem InFormat.not_later (h : InFormat fmt amis) {ami other : Ami} (hami : ami ∈ amis)
    (hother : other ∈ amis) (hle : ¬ ami.creationDate < other.creationDate) {created later : Int}
    (hcreated : AmiCandidate.createdAt ami = some created)
    (hlater : AmiCandidate.createdAt other = some later) : later ≤ created := by
  obtain ⟨m, hm, hdate, hclock⟩ := h.createdAt hami
  obtain ⟨n, hn, hdate', hclock'⟩ := h.createdAt hother
  rw [hcreated, Option.some.injEq] at hclock
  rw [hlater, Option.some.injEq] at hclock'
  by_contra hlt
  refine hle ?_
  rw [hdate, hdate']
  exact lt_of_clock_lt hm hn (by omega)

/-- The image is available, and active or without a state. -/
def Usable (ami : Ami) : Prop := Active ami ∨ Untagged ami

/-- The image is the newest of the active ones, if there are any. -/
def Best (amis : List Ami) (ami : Ami) : Prop :=
  Usable ami ∧ ((∃ other ∈ amis, Active other) →
    Active ami ∧ ∀ other ∈ amis, Active other →
      ∀ created later, createdAt ami = some created → createdAt other = some later →
        later ≤ created)

theorem cachePlan_of_usable {ami : Ami} (h : Usable ami) :
    cachePlan (some ami) now = some .use := by
  rw [cachePlan, if_pos]
  rcases h with ⟨havailable, hstate⟩ | ⟨havailable, hstate⟩
  · rw [hstate, ne_eq, Option.some.injEq]
    exact ⟨havailable, active_ne.2⟩
  · rw [hstate]
    exact ⟨havailable, (Option.some_ne_none candidate).symm⟩

theorem cachePlan_of_awaited {ami : Ami} (h : Awaited now ami) :
    cachePlan (some ami) now = some .wait := by
  obtain ⟨_, hprogress, hyoung⟩ := h
  rw [cachePlan, if_neg, stillBuilding_eq_true_iff.mpr ⟨hprogress, hyoung⟩]
  · rfl
  · rintro ⟨havailable, hstate⟩
    rw [inProgress, havailable] at hprogress
    simp [hstate] at hprogress

/-- The plan that is made, and what it is made for. -/
theorem cachePlan_selectUsableAmi (h : InFormat fmt amis) :
    ∃ selected plan, selectUsableAmi amis now = some selected ∧
      cachePlan selected now = some plan ∧
      (plan = .use ↔ ∃ ami ∈ amis, Usable ami) ∧
      (plan = .use → ∃ ami ∈ amis, selected = some ami ∧ Best amis ami) ∧
      (plan = .wait ↔ (¬ ∃ ami ∈ amis, Usable ami) ∧ ∃ ami ∈ amis, Awaited now ami) := by
  obtain ⟨selected, hselected, hcases⟩ := selectUsableAmi_cases now h.dated
  rcases hcases with ⟨ami, hami, rfl, hactive, hnewest⟩ | ⟨ami, hami, rfl, huntagged, hnone⟩ |
    ⟨hnone, ⟨ami, hami, rfl, hawaited⟩ | ⟨rfl, hawaited⟩⟩
  · have huse : ∃ ami ∈ amis, Usable ami := ⟨ami, hami, Or.inl hactive⟩
    refine ⟨_, _, hselected, cachePlan_of_usable (Or.inl hactive), by simp [huse],
      fun _ => ⟨ami, hami, rfl, Or.inl hactive, fun _ => ⟨hactive, ?_⟩⟩, by simp [huse]⟩
    intro other hother hother' created later
    exact h.not_later hami hother (hnewest other hother hother')
  · have huse : ∃ ami ∈ amis, Usable ami := ⟨ami, hami, Or.inr huntagged⟩
    refine ⟨_, _, hselected, cachePlan_of_usable (Or.inr huntagged), by simp [huse],
      fun _ => ⟨ami, hami, rfl, Or.inr huntagged, ?_⟩, by simp [huse]⟩
    rintro ⟨other, hother, hactive⟩
    exact absurd hactive (hnone other hother)
  · have huse : ¬ ∃ ami ∈ amis, Usable ami := fun ⟨other, hother, husable⟩ =>
      husable.elim (hnone other hother).1 (hnone other hother).2
    have hwait : ∃ ami ∈ amis, Awaited now ami := ⟨ami, hami, hawaited⟩
    refine ⟨_, _, hselected, cachePlan_of_awaited hawaited, by simp [huse], ?_,
      by simp [huse, hwait]⟩
    intro hplan
    cases hplan
  · have huse : ¬ ∃ ami ∈ amis, Usable ami := fun ⟨other, hother, husable⟩ =>
      husable.elim (hnone other hother).1 (hnone other hother).2
    have hwait : ¬ ∃ ami ∈ amis, Awaited now ami := fun ⟨other, hother, hother'⟩ =>
      hawaited other hother hother'
    refine ⟨_, _, hselected, rfl, by simp [huse], ?_, by simp [hwait]⟩
    intro hplan
    cases hplan

end Planning

section LifeCycle

/-- The state stays, or a candidate is rejected, or it becomes active after a run of tests of
which none failed. -/
def Moved (amiId : Str) (events : List Event) (before after : Option Str) : Prop :=
  after = before ∨ before = some candidate ∧
    (after = some rejected ∨ after = some active ∧
      ∃ cacheKey r, Event.finish (some amiId) cacheKey r ∈ events ∧
        ∀ outcome ∈ r.testOutcomes, outcome ∉ failedTestOutcomes)

variable {amiId : Str} {images images' : Images} {tags : Tags}

theorem rejected_ne : rejected ≠ candidate ∧ rejected ≠ active := by decide

theorem Moved.append {first second : List Event} {before middle after : Option Str}
    (h : Moved amiId first before middle) (h' : Moved amiId second middle after) :
    Moved amiId (first ++ second) before after := by
  rcases h with rfl | ⟨hbefore, hmiddle⟩
  · refine h'.imp_right fun h' => ⟨h'.1, h'.2.imp_right fun h' => ⟨h'.1, ?_⟩⟩
    obtain ⟨cacheKey, r, hmem, hr⟩ := h'.2
    exact ⟨cacheKey, r, List.mem_append_right _ hmem, hr⟩
  · have hsettled : middle ≠ some candidate := by
      rcases hmiddle with rfl | ⟨rfl, _⟩
      · exact fun h => rejected_ne.1 (Option.some.inj h)
      · exact fun h => active_ne.2 (Option.some.inj h)
    rcases h' with rfl | ⟨hcandidate, _⟩
    · refine Or.inr ⟨hbefore, hmiddle.imp_right fun h => ⟨h.1, ?_⟩⟩
      obtain ⟨cacheKey, r, hmem, hr⟩ := h.2
      exact ⟨cacheKey, r, List.mem_append_left _ hmem, hr⟩
    · exact absurd hcandidate hsettled

theorem candidateResultState_active {r : TestRun} (h : candidateResultState r = some active) :
    ∀ outcome ∈ r.testOutcomes, outcome ∉ failedTestOutcomes := by
  unfold candidateResultState at h
  split_ifs at h with _ hfailed
  · exact absurd (Option.some.inj h) rejected_ne.2
  · exact fun outcome hmem hbad => hfailed ⟨outcome, hmem, hbad⟩

/-- Only the state of a candidate is updated. -/
theorem get?_setCreatedCandidateState (htags : images.get? amiId = some tags)
    (otherId cacheKey newState : Str) :
    ∃ tags', (setCreatedCandidateState images otherId cacheKey newState).1.get? amiId = some tags' ∧
      (tags' = tags ∨ otherId = amiId ∧ tags.get? stateTag = some candidate ∧
        tags'.get? stateTag = some newState) := by
  unfold setCreatedCandidateState
  split
  next => exact ⟨tags, htags, Or.inl rfl⟩
  next other hother =>
    split
    next => exact ⟨tags, htags, Or.inl rfl⟩
    next update hupdate =>
      unfold candidateStateTags at hupdate
      split_ifs at hupdate with howned
      rw [Option.some.injEq] at hupdate
      by_cases hid : otherId = amiId
      · subst hid
        rw [htags, Option.some.injEq] at hother
        subst hother
        refine ⟨_, Dict.get?_set_self _ _ _, Or.inr ⟨rfl, howned.2.1, ?_⟩⟩
        rw [← hupdate]
        exact Dict.get?_set_self _ _ _
      · exact ⟨tags, by rw [Dict.get?_set_ne _ _ (Ne.symm hid), htags], Or.inl rfl⟩

theorem state_step {event : Event} (hstep : step images event = some images')
    (htags : images.get? amiId = some tags) :
    ∃ tags', images'.get? amiId = some tags' ∧
      Moved amiId [event] (tags.get? stateTag) (tags'.get? stateTag) := by
  cases event with
  | create newId cacheKey =>
      rw [step] at hstep
      split_ifs at hstep with hnew
      rw [Option.some.injEq] at hstep
      have hne : amiId ≠ newId := by
        rintro rfl
        rw [← Dict.get?_isSome_iff, htags] at hnew
        exact hnew rfl
      refine ⟨tags, ?_, Or.inl rfl⟩
      rw [← hstep, Dict.get?_set_ne _ _ hne, htags]
  | finish booted cacheKey r =>
      rw [step, Option.some.injEq] at hstep
      rw [← hstep]
      unfold promoteBootedCandidate
      split
      next newState otherId hstate =>
        split_ifs with happlies
        · obtain ⟨tags', htags', hmoved⟩ :=
            get?_setCreatedCandidateState htags otherId cacheKey newState
          refine ⟨tags', htags', ?_⟩
          rcases hmoved with rfl | ⟨rfl, hcandidate, hnew⟩
          · exact Or.inl rfl
          · refine Or.inr ⟨hcandidate, ?_⟩
            rw [hnew]
            rcases happlies.1 with rfl | rfl
            · exact Or.inr ⟨rfl, cacheKey, r, List.mem_singleton_self _,
                candidateResultState_active hstate⟩
            · exact Or.inl rfl
        · exact ⟨tags, htags, Or.inl rfl⟩
      next => exact ⟨tags, htags, Or.inl rfl⟩

theorem state_run {events : List Event} (hrun : run step images events = some images')
    (htags : images.get? amiId = some tags) :
    ∃ tags', images'.get? amiId = some tags' ∧
      Moved amiId events (tags.get? stateTag) (tags'.get? stateTag) := by
  induction events generalizing images tags with
  | nil =>
      rw [run, Option.some.injEq] at hrun
      exact ⟨tags, hrun ▸ htags, Or.inl rfl⟩
  | cons event events ih =>
      obtain ⟨next, hstep, hrun⟩ := run_cons_eq_some.mp hrun
      obtain ⟨tags₁, htags₁, hfirst⟩ := state_step hstep htags
      obtain ⟨tags', htags', hrest⟩ := ih hrun htags₁
      exact ⟨tags', htags', hfirst.append hrest⟩

/--
The plan is to use an image if one is available and active or without a state, and then it is
the newest active one; to wait if there is none but one may become available; else to create
one.  The state of an image changes only from candidate, and to active only after a run of
tests of which none failed.
-/
theorem ami_life_cycle :
    (∀ (fmt : Format) (amis : List Ami) (now : Int), InFormat fmt amis →
      ∃ selected plan, selectUsableAmi amis now = some selected ∧
        cachePlan selected now = some plan ∧
        (plan = .use ↔ ∃ ami ∈ amis, Usable ami) ∧
        (plan = .use → ∃ ami ∈ amis, selected = some ami ∧ Best amis ami) ∧
        (plan = .wait ↔ (¬ ∃ ami ∈ amis, Usable ami) ∧ ∃ ami ∈ amis, Awaited now ami)) ∧
    (∀ (images images' : Images) (events : List Event), run step images events = some images' →
      ∀ amiId tags, images.get? amiId = some tags → ∃ tags', images'.get? amiId = some tags' ∧
        Moved amiId events (tags.get? stateTag) (tags'.get? stateTag)) :=
  ⟨fun _ _ _ h => cachePlan_selectUsableAmi h, fun _ _ _ hrun _ _ htags => state_run hrun htags⟩

theorem inRange_zero : InRange 0 := by
  unfold InRange Calendar.limit microsecondsOfDay
  omega

/-- An image that was made in the year 1. -/
def oldImage (state : Option Str) : Ami :=
  ⟨strftime 0 inRange_zero, "available", state.map (Dict.empty.set stateTag)⟩

theorem ami_life_cycle_oldImage :
    (∃ selected plan, selectUsableAmi [oldImage (some active)] 0 = some selected ∧
      cachePlan selected 0 = some plan ∧
      (plan = .use ↔ ∃ ami ∈ [oldImage (some active)], Usable ami)) ∧
    ∃ tags', (Dict.empty.set "ami-1" (Dict.empty.set stateTag active)).get? "ami-1" = some tags' ∧
      Moved "ami-1" [] (some active) (tags'.get? stateTag) := by
  have hformat : InFormat utcFormat [oldImage (some active)] := by
    refine ⟨⟨some 0, rfl, rfl⟩, fun ami hami => ?_⟩
    rw [List.mem_singleton.mp hami]
    exact ⟨Moment.ofInstant 0 inRange_zero, List.length_nil, rfl⟩
  obtain ⟨selected, plan, hselected, hplan, huse, _⟩ := ami_life_cycle.1 _ _ 0 hformat
  obtain ⟨tags', htags', hmoved⟩ := ami_life_cycle.2
    (Dict.empty.set "ami-1" (Dict.empty.set stateTag active)) _ [] rfl "ami-1" _
    (Dict.get?_set_self _ _ _)
  rw [Dict.get?_set_self] at hmoved
  exact ⟨⟨selected, plan, hselected, hplan, huse⟩, tags', htags', hmoved⟩

end LifeCycle

end AmiCandidate
end VirtualMachine
end SystemTests
