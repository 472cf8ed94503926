import SystemTests.Foundation.Memo
import SystemTests.RemoteConfig.Capabilities

/-!
# The SDK_CONFIGURATION contract (`utils/_remote_config.py`)

Which shape of payload a library reads is decided from the capabilities that it
advertises.  These grow during a run, and the first conclusive answer is kept.

**Results.**
* `resolve_eq_iff_settled`: when more capabilities leave the answer as it is.
* `memo_final_iff`: in which runs the answer that is kept is the final one.
* `endToEnd_simulates`: the calls of the end-to-end tests are such a run.
-/

namespace SystemTests
namespace RemoteConfig

open Foundation Foundation.Text

section Contract

def apmTracingCapabilities : Finset Capabilities :=
  (Capabilities.all.filter fun capability => ("APM_TRACING_" : Str).isPrefixOf capability.name).toFinset

def legacyApmTracingCapabilities : Finset Capabilities :=
  {.apmTracingCustomTags, .apmTracingEnabled, .apmTracingHttpHeaderTags,
    .apmTracingLogsInjection, .apmTracingSampleRate, .apmTracingSampleRules}

def resolveSdkConfigurationContract (libraryName : Option Str)
    (capabilities : Finset Capabilities) : Option Bool :=
  if ¬ (capabilities ∩ apmTracingCapabilities).Nonempty then none
  else if Capabilities.sdkConfiguration ∉ capabilities then some false
  else if (capabilities ∩ legacyApmTracingCapabilities).Nonempty then
    some (libraryName = some "nodejs")
  else some true

/-- The answer, and the memo after it. -/
def resolveSdkConfigurationSupport (libraryName : Option Str) (memo : Option Bool)
    (getCapabilities : Except Raised (Finset Capabilities)) : Bool × Option Bool :=
  match memo with
  | some value => (value, memo)
  | none =>
      match getCapabilities with
      | .error _ => (false, none)
      | .ok capabilities =>
          match resolveSdkConfigurationContract libraryName capabilities with
          | none => (false, none)
          | some supported => (supported, some supported)

/-- `polled` says whether `library.wait_for` has seen a config request. -/
def librarySupportsSdkConfiguration (libraryName : Str) (memo : Option Bool) (polled : Bool)
    (requests : List ConfigRequest) : Bool × Option Bool :=
  match memo with
  | some value => (value, memo)
  | none =>
      if polled then
        resolveSdkConfigurationSupport (some libraryName) memo (getRcCapabilities requests none)
      else (false, none)

theorem conclusive_iff {libraryName : Option Str} {capabilities : Finset Capabilities} :
    (resolveSdkConfigurationContract libraryName capabilities).isSome ↔
      (capabilities ∩ apmTracingCapabilities).Nonempty := by
  rw [resolveSdkConfigurationContract]
  by_cases h : (capabilities ∩ apmTracingCapabilities).Nonempty
  · rw [if_neg (not_not_intro h)]
    split_ifs <;> simp [h]
  · simp [h]

/-- What is seen does not leave open which contract the library will turn out to follow. -/
def Settled (libraryName : Option Str) (seen final : Finset Capabilities) : Prop :=
  if Capabilities.sdkConfiguration ∈ seen then
    (seen ∩ legacyApmTracingCapabilities).Nonempty ∨
      ¬ (final ∩ legacyApmTracingCapabilities).Nonempty ∨ libraryName = some "nodejs"
  else
    Capabilities.sdkConfiguration ∉ final ∨
      (final ∩ legacyApmTracingCapabilities).Nonempty ∧ libraryName ≠ some "nodejs"

instance (libraryName : Option Str) (seen final : Finset Capabilities) :
    Decidable (Settled libraryName seen final) := by
  unfold Settled
  infer_instance

theorem resolve_eq_iff_settled {libraryName : Option Str} {seen final : Finset Capabilities}
    (hgrow : seen ⊆ final)
    (hseen : (resolveSdkConfigurationContract libraryName seen).isSome) :
    resolveSdkConfigurationContract libraryName final =
        resolveSdkConfigurationContract libraryName seen ↔
      Settled libraryName seen final := by
  have hapm := conclusive_iff.mp hseen
  have hapm' : (final ∩ apmTracingCapabilities).Nonempty :=
    hapm.mono (Finset.inter_subset_inter_right hgrow)
  have hlegacy : (seen ∩ legacyApmTracingCapabilities).Nonempty →
      (final ∩ legacyApmTracingCapabilities).Nonempty :=
    fun h => h.mono (Finset.inter_subset_inter_right hgrow)
  rw [resolveSdkConfigurationContract, if_neg (not_not_intro hapm'),
    resolveSdkConfigurationContract, if_neg (not_not_intro hapm), Settled]
  by_cases hsdk : Capabilities.sdkConfiguration ∈ seen
  · -- the final answer differs only if legacy capabilities come after the look
    have hsdk' := hgrow hsdk
    by_cases hold : (seen ∩ legacyApmTracingCapabilities).Nonempty
    · simp [hsdk, hsdk', hold, hlegacy hold]
    · by_cases hnew : (final ∩ legacyApmTracingCapabilities).Nonempty
      · simp only [hsdk, hsdk', hold, hnew, not_true_eq_false, if_true, if_false,
          Option.some.injEq, decide_eq_true_eq, false_or]
      · simp [hsdk, hsdk', hold, hnew]
  · -- the answer that is kept is `False`
    by_cases hsdk' : Capabilities.sdkConfiguration ∈ final
    · by_cases hnew : (final ∩ legacyApmTracingCapabilities).Nonempty
      · simp only [hsdk, hsdk', hnew, not_true_eq_false, not_false_eq_true, if_true, if_false,
          Option.some.injEq, decide_eq_false_iff_not, false_or, true_and, ne_eq]
      · simp [hsdk, hsdk', hnew]
    · simp [hsdk, hsdk']

end Contract

section Runs

/-- The library advertises more, or a caller asks; the reading of a caller may fail. -/
inductive Event where
  | advertise (more : Finset Capabilities)
  | call (failure : Option Raised)

/-- What was advertised so far, and `_sdk_configuration_support`. -/
structure Support where
  advertised : Finset Capabilities
  memo : Option Bool
deriving DecidableEq

/-- What `get_capabilities` gives. -/
def Support.read (s : Support) : Option Raised → Except Raised (Finset Capabilities)
  | some e => .error e
  | none => .ok s.advertised

variable (libraryName : Option Str)

def Support.step (s : Support) : Event → Support
  | .advertise more => { s with advertised := s.advertised ∪ more }
  | .call failure =>
      { s with memo := (resolveSdkConfigurationSupport libraryName s.memo (s.read failure)).2 }

def Support.run (s : Support) (events : List Event) : Support :=
  events.foldl (Support.step libraryName) s

/-- No capability was advertised yet and nothing is kept. -/
def Support.start : Support := ⟨∅, none⟩

/-- What was advertised at the first call that is not inconclusive. -/
def firstConclusive (advertised : Finset Capabilities) : List Event → Option (Finset Capabilities)
  | [] => none
  | .advertise more :: events => firstConclusive (advertised ∪ more) events
  | .call failure :: events =>
      if failure = none ∧ (advertised ∩ apmTracingCapabilities).Nonempty then some advertised
      else firstConclusive advertised events

/-- The answer that is kept is the one for everything that is advertised in the end, and
a call whose reading fails or is inconclusive keeps nothing. -/
structure MemoIsFinal (events : List Event) : Prop where
  final : ∀ supported, (Support.start.run libraryName events).memo = some supported →
    resolveSdkConfigurationContract libraryName
      (Support.start.run libraryName events).advertised = some supported
  conclusive : ∀ before failure after, events = before ++ Event.call failure :: after →
    let s := Support.start.run libraryName before
    s.memo = none →
      (failure ≠ none ∨ resolveSdkConfigurationContract libraryName s.advertised = none) →
      (s.step libraryName (.call failure)).memo = none

/-- A run is one of a memo of the contract. -/
def Event.toMemo : Event → Memo.Event (Finset Capabilities)
  | .advertise more => .grow more
  | .call failure => .look failure.isNone

def Support.toMemo (s : Support) : Memo.State (Finset Capabilities) Bool :=
  ⟨s.advertised, s.memo⟩

variable {libraryName}

theorem support_eq_consult {memo : Option Bool}
    {getCapabilities : Except Raised (Finset Capabilities)} :
    (resolveSdkConfigurationSupport libraryName memo getCapabilities).2 =
      Memo.consult (resolveSdkConfigurationContract libraryName) memo
        getCapabilities.toOption := by
  cases memo with
  | some value => rfl
  | none =>
      cases getCapabilities with
      | error e => rfl
      | ok capabilities =>
          cases h : resolveSdkConfigurationContract libraryName capabilities with
          | none => simp [resolveSdkConfigurationSupport, Memo.consult, h, Except.toOption]
          | some supported =>
              simp [resolveSdkConfigurationSupport, Memo.consult, h, Except.toOption]

theorem Support.toMemo_step (s : Support) (event : Event) :
    (s.step libraryName event).toMemo =
      Memo.step (resolveSdkConfigurationContract libraryName) s.toMemo event.toMemo := by
  cases event with
  | advertise more => rfl
  | call failure =>
      cases failure <;>
        simp [Support.step, Support.toMemo, Event.toMemo, Memo.step, support_eq_consult,
          Support.read, Except.toOption]

variable (libraryName) in
theorem Support.toMemo_run (s : Support) (events : List Event) :
    (s.run libraryName events).toMemo =
      Memo.run (resolveSdkConfigurationContract libraryName) s.toMemo
        (events.map Event.toMemo) := by
  induction events generalizing s with
  | nil => rfl
  | cons event events ih =>
      rw [List.map_cons, Memo.run_cons, ← Support.toMemo_step]
      exact ih (s.step libraryName event)

variable (libraryName) in
theorem firstConclusive_eq (advertised : Finset Capabilities) (events : List Event) :
    Memo.firstConclusive (resolveSdkConfigurationContract libraryName) advertised
        (events.map Event.toMemo) =
      firstConclusive advertised events := by
  induction events generalizing advertised with
  | nil => rfl
  | cons event events ih =>
      cases event with
      | advertise more => exact ih (advertised ∪ more)
      | call failure =>
          simp only [List.map_cons, Event.toMemo, Memo.firstConclusive, firstConclusive, ih,
            conclusive_iff, Option.isNone_iff_eq_none]

/-- A reading that fails or is inconclusive is not kept. -/
theorem call_keeps_nothing {s : Support} {failure : Option Raised} (hmemo : s.memo = none)
    (hread : failure ≠ none ∨
      resolveSdkConfigurationContract libraryName s.advertised = none) :
    (s.step libraryName (.call failure)).memo = none := by
  rw [Support.step, support_eq_consult, hmemo, Memo.consult, Option.none_or]
  cases failure with
  | some e => rfl
  | none => exact hread.resolve_left fun h => h rfl

theorem memo_of_first_call {supported : Bool} (more more' : Finset Capabilities)
    (hread : resolveSdkConfigurationContract libraryName (∅ ∪ more) = some supported) :
    (Support.start.run libraryName
      [.advertise more, .call none, .advertise more']).memo = some supported := by
  simp only [Support.run, List.foldl_cons, List.foldl_nil, Support.step, support_eq_consult,
    Support.read, Support.start, Memo.consult, Option.none_or, Except.toOption,
    Option.bind_some, hread]

/-- The answer that is kept is the final one if and only if the first conclusive call
settled it. -/
theorem memo_final_iff (libraryName : Option Str) (events : List Event) :
    MemoIsFinal libraryName events ↔
      ∀ seen, firstConclusive ∅ events = some seen →
        Settled libraryName seen (Support.start.run libraryName events).advertised := by
  have hrun := Support.toMemo_run libraryName Support.start events
  have hright := Memo.memo_run_right_iff (resolveSdkConfigurationContract libraryName)
    (s := Support.start.toMemo) rfl (events.map Event.toMemo)
  rw [← hrun, show Support.start.toMemo.seen = ∅ from rfl, firstConclusive_eq] at hright
  have hsettled : ∀ seen, firstConclusive ∅ events = some seen →
      (resolveSdkConfigurationContract libraryName
          (Support.start.run libraryName events).advertised =
        resolveSdkConfigurationContract libraryName seen ↔
      Settled libraryName seen (Support.start.run libraryName events).advertised) := by
    intro seen hseen
    rw [← firstConclusive_eq libraryName] at hseen
    have hle := Memo.firstConclusive_le (s := Support.start.toMemo) hseen
    rw [← hrun] at hle
    exact resolve_eq_iff_settled hle (Memo.decide_of_firstConclusive hseen)
  constructor
  · intro h seen hseen
    exact (hsettled seen hseen).mp (hright.mp h.final seen hseen)
  · intro h
    refine ⟨hright.mpr fun seen hseen => (hsettled seen hseen).mpr (h seen hseen), ?_⟩
    intro before failure after _ s hmemo hread
    exact call_keeps_nothing hmemo hread

/-- The library starts its products after the first poll that is conclusive. -/
theorem memo_not_final_of_later_products :
    ¬ MemoIsFinal (some "nodejs")
      [.advertise {.apmTracingEnabled}, .call none, .advertise {.sdkConfiguration}] := by
  intro h
  have hapm : Capabilities.apmTracingEnabled ∈ apmTracingCapabilities :=
    List.mem_toFinset.mpr (List.mem_filter.mpr ⟨by simp [Capabilities.all],
      by simp [Capabilities.name, Capabilities.entry]⟩)
  have hconclusive : ∀ more : Finset Capabilities,
      (({.apmTracingEnabled} ∪ more) ∩ apmTracingCapabilities).Nonempty :=
    fun more => ⟨.apmTracingEnabled, by simp [hapm]⟩
  have hfirst : resolveSdkConfigurationContract (some "nodejs")
      (∅ ∪ {Capabilities.apmTracingEnabled}) = some false := by
    rw [Finset.empty_union, ← Finset.union_empty {Capabilities.apmTracingEnabled},
      resolveSdkConfigurationContract, if_neg (not_not_intro (hconclusive ∅)),
      if_pos (by decide)]
  have hlast : resolveSdkConfigurationContract (some "nodejs")
      (∅ ∪ {Capabilities.apmTracingEnabled} ∪ {.sdkConfiguration}) = some true := by
    rw [Finset.empty_union, resolveSdkConfigurationContract,
      if_neg (not_not_intro (hconclusive {.sdkConfiguration})), if_neg (by decide),
      if_pos (by decide)]
    exact congrArg some (decide_eq_true_eq.mpr rfl)
  have hfinal : resolveSdkConfigurationContract (some "nodejs")
      (∅ ∪ {Capabilities.apmTracingEnabled} ∪ {.sdkConfiguration}) = some false :=
    h.final false (memo_of_first_call _ _ hfirst)
  rw [hlast] at hfinal
  cases hfinal

end Runs

section EndToEnd

/-- The library polls, or a test asks. -/
inductive Happening where
  | request (data : ConfigRequest)
  | call

/-- The requests that are recorded, and `_sdk_configuration_support`. -/
structure EndToEnd where
  requests : List ConfigRequest
  support : Option Bool

def EndToEnd.step (libraryName : Str) (s : EndToEnd) : Happening → EndToEnd
  | .request data => { s with requests := s.requests ++ [data] }
  | .call =>
      { s with
        support := (librarySupportsSdkConfiguration libraryName s.support (!s.requests.isEmpty)
          s.requests).2 }

def EndToEnd.run (libraryName : Str) (s : EndToEnd) (happenings : List Happening) : EndToEnd :=
  happenings.foldl (EndToEnd.step libraryName) s

/-- Why the recorded requests cannot be read. -/
def failureOf (requests : List ConfigRequest) : Option Raised :=
  match getRcCapabilities requests none with
  | .error e => some e
  | .ok _ => none

def eventOf (requests : List ConfigRequest) : Happening → Event
  | .request data => .advertise (data.current.toOption.getD ∅)
  | .call => .call (failureOf requests)

def eventsOf (libraryName : Str) : EndToEnd → List Happening → List Event
  | _, [] => []
  | s, happening :: happenings =>
      eventOf s.requests happening :: eventsOf libraryName (s.step libraryName happening) happenings

/-- Where the recorded requests can be read, they say what was advertised. -/
structure Simulates (s : EndToEnd) (t : Support) : Prop where
  memo : s.support = t.memo
  advertised : ∀ result, getRcCapabilities s.requests none = .ok result → t.advertised = result

variable {libraryName : Str}

theorem Simulates.read {s : EndToEnd} {t : Support} (h : Simulates s t) :
    t.read (failureOf s.requests) = getRcCapabilities s.requests none := by
  rw [failureOf]
  cases hread : getRcCapabilities s.requests none with
  | error e => rfl
  | ok result => rw [Support.read, h.advertised result hread]

theorem Simulates.call {s : EndToEnd} {t : Support} (h : Simulates s t) :
    (librarySupportsSdkConfiguration libraryName s.support (!s.requests.isEmpty) s.requests).2 =
      (resolveSdkConfigurationSupport (some libraryName) t.memo
        (t.read (failureOf s.requests))).2 := by
  rw [h.read, h.memo]
  cases t.memo with
  | some value => rfl
  | none =>
      cases hrequests : s.requests with
      | cons data requests => rfl
      | nil =>
          -- an unpolled library has advertised nothing
          have hempty : getRcCapabilities [] none = .ok ∅ := rfl
          simp [librarySupportsSdkConfiguration, resolveSdkConfigurationSupport, hempty,
            resolveSdkConfigurationContract]

theorem Simulates.step {s : EndToEnd} {t : Support} (h : Simulates s t)
    (happening : Happening) :
    Simulates (s.step libraryName happening)
      (t.step (some libraryName) (eventOf s.requests happening)) := by
  cases happening with
  | call => exact ⟨h.call, h.advertised⟩
  | request data =>
      refine ⟨h.memo, fun result hresult => ?_⟩
      rw [EndToEnd.step, getRcCapabilities_concat, Raised.bind_eq_ok] at hresult
      obtain ⟨before, hbefore, hresult⟩ := hresult
      obtain ⟨current, hcurrent, hresult⟩ := Raised.bind_eq_ok.mp hresult
      cases hresult
      simp [Support.step, eventOf, h.advertised before hbefore, hcurrent, Except.toOption]

theorem Simulates.run {s : EndToEnd} {t : Support} (h : Simulates s t)
    (happenings : List Happening) :
    Simulates (s.run libraryName happenings)
      (t.run (some libraryName) (eventsOf libraryName s happenings)) := by
  induction happenings generalizing s t with
  | nil => exact h
  | cons happening happenings ih => exact ih (h.step happening)

/-- What the end-to-end tests keep is what a run of the memo keeps. -/
theorem endToEnd_simulates (libraryName : Str) (happenings : List Happening) :
    Simulates (EndToEnd.run libraryName ⟨[], none⟩ happenings)
      (Support.start.run (some libraryName) (eventsOf libraryName ⟨[], none⟩ happenings)) := by
  have hstart : Simulates ⟨[], none⟩ Support.start := by
    refine ⟨rfl, fun result hresult => ?_⟩
    cases hresult
    rfl
  exact hstart.run happenings

end EndToEnd

end RemoteConfig
end SystemTests
