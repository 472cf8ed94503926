import Mathlib.Data.Char
import Mathlib.Data.List.Lex
import Mathlib.Data.Prod.Lex
import SystemTests.DockerFixtures.TelemetryEvents

/-!
# Telemetry metrics of the test agent (`wait_for_telemetry_metrics`)

Every poll reads the whole list of events again and adds, for each event, the first
series that matches to what earlier polls have found.  A series is so repeated by
every poll that sees its event, and the series behind the first are skipped.

**Results.**
* `waitForTelemetryMetrics_perm`: what is returned, poll by poll.
* `allSeries_eq`: the series of an event are its first one and the skipped ones.
* `waitForTelemetryMetrics_iff`: the series of the last poll are returned, each once, if
  and only if the repeated ones are the skipped ones; where the series are distinct,
  if and only if there are neither.
-/

namespace SystemTests
namespace DockerFixtures
namespace Telemetry

open Foundation Foundation.Text

variable {T : Type}

section Model

variable (metricName : Option Str)

/-- `metric_name is None or series["metric"] == metric_name` -/
def Series.matches (series : Series) : Bool := metricName.isNone || some series.metric = metricName

def addSeries (metrics : List Series) (event : Event T) : Except Raised (List Series) :=
  match getTelemetryEvent "generate-metrics" event.body with
  | none => .ok metrics
  | some m => do
      let series ← Raised.ofOption (.keyError "series") m.series
      return metrics ++ (series.find? (Series.matches metricName)).toList

/-- `metrics.sort(key=lambda x: (x["metric"], x["tags"]))` -/
def sortMetrics (metrics : List Series) : List Series :=
  metrics.mergeSort fun a b => decide (toLex (a.metric, a.tags) ≤ toLex (b.metric, b.tags))

def readPoll (metrics : List Series) (events : List (Event T)) : Except Raised (List Series) := do
  let metrics ← events.foldlM (addSeries metricName) metrics
  return sortMetrics metrics

def waitForTelemetryMetrics (polls : List (List (Event T))) : Except Raised (List Series) :=
  polls.foldlM (readPoll metricName) []

end Model

section Series

variable (metricName : Option Str)

/-- The matching series of a message. -/
def Message.seriesOf (m : Message) : List Series :=
  (m.series.getD []).filter (Series.matches metricName)

/-- The matching series of all messages of an event. -/
def allSeries (event : Event T) : List Series :=
  (matching "generate-metrics" event.body).flatMap (Message.seriesOf metricName)

/-- The first matching series of the first message. -/
def firstSeries (event : Event T) : Option Series :=
  (matching "generate-metrics" event.body).head?.bind fun m => (m.seriesOf metricName).head?

/-- The matching series behind it. -/
def skippedSeries (event : Event T) : List Series :=
  match matching "generate-metrics" event.body with
  | [] => []
  | m :: rest => (m.seriesOf metricName).tail ++ rest.flatMap (Message.seriesOf metricName)

/-- The matching series of the last poll. -/
def lastSeries (polls : List (List (Event T))) : List Series :=
  (polls.getLast?.getD []).flatMap (allSeries metricName)

/-- The series that were found in the polls before the last. -/
def repeatedSeries (polls : List (List (Event T))) : List Series :=
  polls.dropLast.flatMap fun events => events.filterMap (firstSeries metricName)

/-- The series of the last poll that are behind the first one of their event. -/
def lostSeries (polls : List (List (Event T))) : List Series :=
  (polls.getLast?.getD []).flatMap (skippedSeries metricName)

/-- Every matching series of the last poll is returned, each once. -/
def ReturnsLastPoll (polls : List (List (Event T))) : Prop :=
  ∃ metrics, waitForTelemetryMetrics metricName polls = .ok metrics ∧
    metrics.Perm (lastSeries metricName polls)

variable {metricName}

theorem allSeries_eq (event : Event T) : allSeries metricName event =
    (firstSeries metricName event).toList ++ skippedSeries metricName event := by
  unfold allSeries firstSeries skippedSeries
  cases matching "generate-metrics" event.body with
  | nil => rfl
  | cons m rest =>
      rw [List.flatMap_cons, List.head?_cons, Option.bind_some]
      change _ = _ ++ ((m.seriesOf metricName).tail ++ rest.flatMap (Message.seriesOf metricName))
      rw [← List.append_assoc]
      cases m.seriesOf metricName <;> rfl

theorem addSeries_eq (metrics : List Series) (event : Event T) :
    addSeries metricName metrics event =
      .ok (metrics ++ (firstSeries metricName event).toList) := by
  unfold addSeries firstSeries
  rw [getTelemetryEvent_eq]
  cases hmatching : matching "generate-metrics" event.body with
  | nil => simp
  | cons m rest =>
      have hmatches : m.matches "generate-metrics" = true :=
        (List.mem_filter.mp (hmatching ▸ List.mem_cons_self :
          m ∈ matching "generate-metrics" event.body)).2
      have htype : m.requestType = "generate-metrics".toList := by
        rw [Message.matches, Bool.and_eq_true, decide_eq_true_eq] at hmatches
        exact hmatches.1
      obtain ⟨series, hseries⟩ := Option.isSome_iff_exists.mp (m.isSome_series htype)
      simp only [List.head?_cons, hseries, Raised.ofOption_some, Raised.ok_bind, Option.bind_some,
        Message.seriesOf, Option.getD_some, List.head?_filter]
      rfl

theorem addSeries_all :
    ∀ (events : List (Event T)) (metrics : List Series),
      events.foldlM (addSeries metricName) metrics =
        .ok (metrics ++ events.filterMap (firstSeries metricName))
  | [], metrics => by simp [pure, Except.pure]
  | event :: events, metrics => by
      rw [List.foldlM_cons, addSeries_eq, Raised.ok_bind, addSeries_all events,
        List.append_assoc]
      cases h : firstSeries metricName event <;> simp [h]

theorem readPoll_perm (metrics : List Series) (events : List (Event T)) :
    ∃ metrics', readPoll metricName metrics events = .ok metrics' ∧
      metrics'.Perm (metrics ++ events.filterMap (firstSeries metricName)) := by
  refine ⟨sortMetrics (metrics ++ events.filterMap (firstSeries metricName)), ?_,
    List.mergeSort_perm _ _⟩
  rw [readPoll, addSeries_all, Raised.ok_bind]
  rfl

variable (metricName) in
theorem readPolls_perm :
    ∀ (polls : List (List (Event T))) (metrics : List Series),
      ∃ metrics', polls.foldlM (readPoll metricName) metrics = .ok metrics' ∧
        metrics'.Perm
          (metrics ++ polls.flatMap fun events => events.filterMap (firstSeries metricName))
  | [], metrics => ⟨metrics, rfl, by simp⟩
  | events :: polls, metrics => by
      obtain ⟨metrics₁, hread, hperm⟩ := readPoll_perm metrics events
      obtain ⟨metrics₂, hreads, hperms⟩ := readPolls_perm polls metrics₁
      refine ⟨metrics₂, ?_, ?_⟩
      · rw [List.foldlM_cons, hread, Raised.ok_bind, hreads]
      · rw [List.flatMap_cons, ← List.append_assoc]
        exact hperms.trans (hperm.append_right _)

variable (metricName) in
/-- What is returned: the first series of every event, for every poll that saw it. -/
theorem waitForTelemetryMetrics_perm (polls : List (List (Event T))) :
    ∃ metrics, waitForTelemetryMetrics metricName polls = .ok metrics ∧
      metrics.Perm (repeatedSeries metricName polls ++
        (polls.getLast?.getD []).filterMap (firstSeries metricName)) := by
  obtain ⟨metrics, hok, hperm⟩ := readPolls_perm metricName polls []
  refine ⟨metrics, hok, hperm.trans (List.Perm.of_eq ?_)⟩
  cases polls using List.reverseRecOn with
  | nil => rfl
  | append_singleton polls last =>
      simp [repeatedSeries]

variable (metricName) in
theorem lastSeries_perm (polls : List (List (Event T))) :
    (lastSeries metricName polls).Perm
      ((polls.getLast?.getD []).filterMap (firstSeries metricName) ++
        lostSeries metricName polls) := by
  have hsplit : lastSeries metricName polls = (polls.getLast?.getD []).flatMap fun event =>
      (firstSeries metricName event).toList ++ skippedSeries metricName event :=
    List.flatMap_congr fun event _ => allSeries_eq event
  rw [hsplit, List.filterMap_eq_flatMap_toList]
  exact (List.flatMap_append_perm _ _ _).symm

/-- What earlier polls repeat has to make up for what is lost. -/
theorem returnsLastPoll_iff (polls : List (List (Event T))) :
    ReturnsLastPoll metricName polls ↔
      (repeatedSeries metricName polls).Perm (lostSeries metricName polls) := by
  obtain ⟨metrics, hok, hperm⟩ := waitForTelemetryMetrics_perm metricName polls
  have hlast := lastSeries_perm metricName polls
  constructor
  · rintro ⟨metrics', hok', hperm'⟩
    obtain rfl := Except.ok.inj (hok.symm.trans hok')
    have htotal := (hperm.symm.trans hperm').trans hlast
    exact (List.perm_append_left_iff _).mp (List.perm_append_comm.trans htotal)
  · intro h
    refine ⟨metrics, hok, ?_⟩
    exact hperm.trans ((List.perm_append_comm.trans (h.append_left _)).trans hlast.symm)

theorem mem_allSeries_of_first {event : Event T} {series : Series}
    (h : firstSeries metricName event = some series) : series ∈ allSeries metricName event := by
  rw [allSeries_eq, h]
  exact List.mem_cons_self

theorem mem_lastSeries {polls : List (List (Event T))} {event : Event T} {series : Series}
    (hevent : event ∈ polls.getLast?.getD []) (h : series ∈ allSeries metricName event) :
    series ∈ lastSeries metricName polls :=
  List.mem_flatMap.mpr ⟨event, hevent, h⟩

/-- An event of an earlier poll is in the last poll. -/
theorem mem_getLast_of_growing {polls : List (List (Event T))}
    (hgrowing : polls.Pairwise List.Sublist) {events : List (Event T)}
    (hevents : events ∈ polls.dropLast) {event : Event T} (h : event ∈ events) :
    event ∈ polls.getLast?.getD [] := by
  cases polls using List.reverseRecOn with
  | nil => cases hevents
  | append_singleton polls last =>
      rw [List.dropLast_concat] at hevents
      rw [List.getLast?_concat, Option.getD_some]
      rw [List.pairwise_append] at hgrowing
      exact (hgrowing.2.2 events hevents last List.mem_cons_self).subset h

/-- Distinct series are neither repeated nor lost, or they are not returned as they are. -/
theorem perm_lost_iff_of_nodup {polls : List (List (Event T))}
    (hgrowing : polls.Pairwise List.Sublist) (hnodup : (lastSeries metricName polls).Nodup) :
    (repeatedSeries metricName polls).Perm (lostSeries metricName polls) ↔
      repeatedSeries metricName polls = [] ∧ lostSeries metricName polls = [] := by
  constructor
  · intro h
    have hdisjoint := (lastSeries_perm metricName polls).nodup_iff.mp hnodup
    rw [List.nodup_append'] at hdisjoint
    have hempty : repeatedSeries metricName polls = [] := by
      rw [List.eq_nil_iff_forall_not_mem]
      intro series hmem
      obtain ⟨events, hevents, hseries⟩ := List.mem_flatMap.mp hmem
      obtain ⟨event, hevent, hfirst⟩ := List.mem_filterMap.mp hseries
      have hlast := mem_getLast_of_growing hgrowing hevents hevent
      have hread : series ∈ (polls.getLast?.getD []).filterMap (firstSeries metricName) :=
        List.mem_filterMap.mpr ⟨event, hlast, hfirst⟩
      exact hdisjoint.2.2 hread (h.mem_iff.mp hmem)
    rw [hempty] at h
    exact ⟨hempty, List.nil_perm.mp h⟩
  · rintro ⟨hrepeated, hlost⟩
    rw [hrepeated, hlost]

/-- **The series of the last poll are returned, each once, exactly when the repeated
series are the lost ones; distinct series when there are neither.** -/
theorem waitForTelemetryMetrics_iff (metricName : Option Str) (polls : List (List (Event T)))
    (hgrowing : polls.Pairwise List.Sublist) :
    (ReturnsLastPoll metricName polls ↔
      (repeatedSeries metricName polls).Perm (lostSeries metricName polls)) ∧
    ((lastSeries metricName polls).Nodup →
      (ReturnsLastPoll metricName polls ↔
        repeatedSeries metricName polls = [] ∧ lostSeries metricName polls = [])) := by
  refine ⟨returnsLastPoll_iff polls, ?_⟩
  intro hnodup
  rw [returnsLastPoll_iff, perm_lost_iff_of_nodup hgrowing hnodup]

end Series

section Polls

/-- An event with one message of one series. -/
def metricsEvent : Event ℕ where
  tracerTime := 0
  serviceName := none
  body := .batch none [{
    requestType := "generate-metrics"
    languageVersion := none
    configuration := []
    series := some [⟨"requests", [], .null⟩]
    isSome_series := fun _ => rfl
  }]

/-- The second poll returns the series of the first once more. -/
theorem not_returnsLastPoll_twice :
    ¬ ∀ (metricName : Option Str) (polls : List (List (Event ℕ))), polls.Pairwise List.Sublist →
      ReturnsLastPoll metricName polls := by
  intro hall
  have hreturns := hall none [[metricsEvent], [metricsEvent]] (by simp)
  have hlength := ((returnsLastPoll_iff _).mp hreturns).length_eq
  exact absurd hlength (by decide)

/-- A poll that finds nothing, and a poll that finds a series. -/
theorem waitForTelemetryMetrics_iff_once : ReturnsLastPoll none [[], [metricsEvent]] := by
  refine (waitForTelemetryMetrics_iff none [[], [metricsEvent]] (by simp)).1.mpr ?_
  exact List.Perm.refl []

end Polls

end Telemetry
end DockerFixtures
end SystemTests
