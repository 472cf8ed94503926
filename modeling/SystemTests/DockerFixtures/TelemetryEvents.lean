import SystemTests.Foundation.Exception
import SystemTests.Foundation.Grouping
import SystemTests.Foundation.Json

/-!
# Telemetry events of the test agent

A telemetry event is a message of its own or a batch of messages.  Configurations are
extracted from the messages of two types, in the order of the events, and grouped by
name; the groups are sorted by `seq_id` if the first entry of the first group has one.
Of a batch only the first message of a type is looked at.

**Results.**
* `found_eq_iff`: every entry is found if and only if no message with entries is passed over.
* `seqIdsUsable_iff`: when the sorting returns and sorts what it should.
* `count_eq_length`: the counting traversal counts every message.
* `waitForTelemetryConfigurations_iff`: nothing is lost exactly under both conditions.
-/

namespace SystemTests
namespace DockerFixtures
namespace Telemetry

open Foundation Foundation.Text

section Model

/-- A configuration entry; `seq_id` may be absent, or null. -/
structure Config where
  name : Str
  seqId : Option (Option Int)
  data : Dict Str Json

structure Series where
  metric : Str
  tags : List Str
  points : Json

/-- What is read of a message; a message of type `generate-metrics` has series. -/
structure Message where
  requestType : Str
  languageVersion : Option Str
  configuration : List Config
  series : Option (List Series)
  isSome_series : requestType = "generate-metrics".toList → series.isSome = true

/-- A message of its own, or a batch of messages. -/
inductive Body where
  | message (m : Message) (h : m.requestType ≠ "message-batch".toList)
  | batch (languageVersion : Option Str) (payload : List Message)

structure Event (T : Type) where
  tracerTime : T
  serviceName : Option Str
  body : Body

def Config.hasSeqId (config : Config) : Bool := config.seqId.join.isSome

def Config.seq (config : Config) : Int := config.seqId.join.getD 0

def isSidecar (languageVersion : Option Str) : Bool := languageVersion = some "SIDECAR".toList

/-- A message of a type that was not emitted by a sidecar. -/
def Message.matches (requestType : Str) (m : Message) : Bool :=
  m.requestType = requestType && !isSidecar m.languageVersion

def getTelemetryEvent (requestType : Str) : Body → Option Message
  | .batch _ payload => payload.find? (Message.matches requestType)
  | .message m _ => if m.matches requestType then some m else none

def configurationTypes : List Str := ["app-started".toList, "app-client-configuration-change".toList]

variable {T : Type}

/-- The events of the first poll that finds any; a poll may fail. -/
def capture : List (Option (List (Event T))) → Option (List (Event T))
  | [] => none
  | some (event :: events) :: _ => some (event :: events)
  | _ :: polls => capture polls

/-- `service is not None and event["application"]["service_name"] != service` -/
def isOfOther (service : Option Str) (event : Event T) : Except Raised Bool :=
  match service with
  | none => .ok false
  | some service => do
      let name ← Raised.ofOption (.keyError "application") event.serviceName
      return name ≠ service

/-- The entries of the messages that one event is searched for. -/
def foundIn (body : Body) : List Config :=
  configurationTypes.flatMap fun eventType =>
    match getTelemetryEvent eventType body with
    | some m => m.configuration
    | none => []

def extractEvent (service : Option Str) (configurations : Dict Str (List Config))
    (event : Event T) : Except Raised (Dict Str (List Config)) := do
  if ← isOfOther service event then return configurations
  else return (foundIn event.body).foldl (Dict.addTo Config.name) configurations

/-- `payload.sort(key=lambda item: item["seq_id"], reverse=True)` -/
def sortBySeqId (payload : List Config) : Except Raised (List Config) :=
  if ∃ config ∈ payload, config.seqId.isSome = false then .error (.keyError "seq_id")
  else if 2 ≤ payload.length ∧ ∃ config ∈ payload, config.hasSeqId = false then
    .error (.typeError "'<' not supported")
  else .ok (payload.mergeSort fun a b => decide (b.seq ≤ a.seq))

def sortConfigurations (configurations : Dict Str (List Config)) :
    Except Raised (Dict Str (List Config)) :=
  match configurations.items.head? with
  | some (_, config :: _) =>
      if config.hasSeqId then configurations.mapValuesM fun _ payload => sortBySeqId payload
      else .ok configurations
  | _ => .ok configurations

variable [LinearOrder T]

/-- `events.sort(key=lambda r: r["tracer_time"])` -/
def inOrder (events : List (Event T)) : List (Event T) :=
  events.mergeSort fun a b => decide (a.tracerTime ≤ b.tracerTime)

def waitForTelemetryConfigurations (service : Option Str) (polls : List (Option (List (Event T)))) :
    Except Raised (Dict Str (List Config)) :=
  match capture polls with
  | none => .error (.assertionError
      "No telemetry events were found. Ensure the application is sending telemetry events.")
  | some events => do
      let configurations ← (inOrder events).foldlM (extractEvent service) .empty
      sortConfigurations configurations

omit [LinearOrder T]

/-- The messages of a type in one event, counted. -/
def countIn (eventName : Str) : Body → Nat
  | .message m _ => if m.requestType = eventName then (!isSidecar m.languageVersion).toNat else 0
  | .batch languageVersion payload =>
      if "message-batch".toList = eventName then (!isSidecar languageVersion).toNat
      else payload.countP (Message.matches eventName)

def countTelemetryEvents (eventName : Str) : Option (List (Event T)) → Nat
  | none => 0
  | some events => (events.map fun event => countIn eventName event.body).sum

end Model

section Entries

variable {T : Type}

def messagesOf : Body → List Message
  | .message m _ => [m]
  | .batch _ payload => payload

/-- The messages of a type, sidecars left out. -/
def matching (requestType : Str) (body : Body) : List Message :=
  (messagesOf body).filter (Message.matches requestType)

def matchingMessages (body : Body) : List Message :=
  configurationTypes.flatMap fun eventType => matching eventType body

/-- The entries of all messages of the two types. -/
def entriesOf (events : List (Event T)) : List Config :=
  events.flatMap fun event => (matchingMessages event.body).flatMap Message.configuration

/-- The messages that come after the first of their type in a batch have no entries. -/
def NothingSkipped (events : List (Event T)) : Prop :=
  ∀ event ∈ events, ∀ eventType ∈ configurationTypes,
    ∀ m ∈ (matching eventType event.body).tail, m.configuration = []

/-- With a `seq_id` in the first entry every entry has the key, and the entries of a name
with several have a number; without one, what should be sorted is. -/
def SeqIdsUsable (entries : List Config) : Prop :=
  ∀ first, entries.head? = some first →
    if first.hasSeqId then
      ∀ config ∈ entries, config.seqId.isSome = true ∧
        (2 ≤ (entries.filter fun other => other.name = config.name).length →
          config.hasSeqId = true)
    else
      ∀ name, (∀ config ∈ entries, config.name = name → config.hasSeqId = true) →
        (entries.filter fun config => config.name = name).Pairwise fun a b => b.seq ≤ a.seq

/-- Every entry once, and by decreasing `seq_id` where all entries of a name carry one. -/
structure Extracted (events : List (Event T)) (configurations : Dict Str (List Config)) :
    Prop where
  entries : ∀ name, ((configurations.get? name).getD []).Perm
    ((entriesOf events).filter fun config => config.name = name)
  sorted : ∀ name, (∀ config ∈ entriesOf events, config.name = name → config.hasSeqId = true) →
    ((configurations.get? name).getD []).Pairwise fun a b => b.seq ≤ a.seq

theorem getTelemetryEvent_eq (requestType : Str) (body : Body) :
    getTelemetryEvent requestType body = (matching requestType body).head? := by
  cases body with
  | message m _ =>
      rw [getTelemetryEvent, matching, messagesOf]
      cases h : m.matches requestType <;> simp [h]
  | batch _ payload => exact List.head?_filter.symm

theorem foundIn_eq (body : Body) : foundIn body =
    configurationTypes.flatMap fun eventType =>
      ((matching eventType body).head?.map Message.configuration).getD [] := by
  unfold foundIn
  refine List.flatMap_congr ?_
  intro eventType _
  rw [getTelemetryEvent_eq]
  cases (matching eventType body).head? <;> rfl

/-- The entries that are found in the events. -/
def found (events : List (Event T)) : List Config :=
  events.flatMap fun event => foundIn event.body

theorem head_sublist_flatMap (l : List Message) :
    ((l.head?.map Message.configuration).getD []).Sublist (l.flatMap Message.configuration) := by
  cases l with
  | nil => exact List.Sublist.refl _
  | cons m l =>
      rw [List.flatMap_cons]
      exact List.sublist_append_left _ _

theorem entriesOf_eq (events : List (Event T)) : entriesOf events =
    events.flatMap fun event => configurationTypes.flatMap fun eventType =>
      (matching eventType event.body).flatMap Message.configuration := by
  unfold entriesOf matchingMessages
  refine List.flatMap_congr ?_
  intro event _
  rw [List.flatMap_assoc]

theorem found_sublist (events : List (Event T)) : (found events).Sublist (entriesOf events) := by
  rw [entriesOf_eq]
  refine List.Sublist.flatMap_right events ?_
  intro event _
  rw [foundIn_eq]
  exact List.Sublist.flatMap_right _ fun eventType _ => head_sublist_flatMap _

/-- The first messages have all the entries if and only if the others have none. -/
theorem head_eq_flatMap_iff (l : List Message) :
    (l.head?.map Message.configuration).getD [] = l.flatMap Message.configuration ↔
      ∀ m ∈ l.tail, m.configuration = [] := by
  cases l with
  | nil => simp
  | cons m l =>
      rw [List.flatMap_cons, List.tail_cons, List.head?_cons]
      change m.configuration = m.configuration ++ _ ↔ _
      rw [List.self_eq_append_right, List.flatMap_eq_nil_iff]

theorem found_eq_iff (events : List (Event T)) :
    found events = entriesOf events ↔ NothingSkipped events := by
  have hfound : found events = events.flatMap fun event => configurationTypes.flatMap fun t =>
      ((matching t event.body).head?.map Message.configuration).getD [] :=
    List.flatMap_congr fun event _ => foundIn_eq event.body
  rw [hfound, entriesOf_eq]
  constructor
  · intro h event hevent eventType htype
    have hevents := Dict.flatMap_eq_of_sublist
      (fun event => List.Sublist.flatMap_right _ fun _ _ => head_sublist_flatMap _) h event hevent
    have htypes := Dict.flatMap_eq_of_sublist (fun _ => head_sublist_flatMap _) hevents
      eventType htype
    exact (head_eq_flatMap_iff _).mp htypes
  · intro h
    refine List.flatMap_congr ?_
    intro event hevent
    refine List.flatMap_congr ?_
    intro eventType htype
    exact (head_eq_flatMap_iff _).mpr (h event hevent eventType htype)

end Entries

section Sorting

theorem sortBySeqId_eq_ok_iff {payload payload' : List Config} :
    sortBySeqId payload = .ok payload' ↔
      (∀ config ∈ payload, config.seqId.isSome = true) ∧
        (2 ≤ payload.length → ∀ config ∈ payload, config.hasSeqId = true) ∧
        payload' = payload.mergeSort fun a b => decide (b.seq ≤ a.seq) := by
  unfold sortBySeqId
  split_ifs with hkey hnull
  · obtain ⟨config, hconfig, hnone⟩ := hkey
    refine iff_of_false nofun ?_
    intro h
    rw [h.1 config hconfig] at hnone
    cases hnone
  · obtain ⟨hlength, config, hconfig, hnone⟩ := hnull
    refine iff_of_false nofun ?_
    intro h
    rw [h.2.1 hlength config hconfig] at hnone
    cases hnone
  · rw [Except.ok.injEq, eq_comm]
    push Not at hkey hnull
    simp only [Bool.not_eq_false] at hkey hnull
    constructor
    · intro h
      exact ⟨hkey, hnull, h⟩
    · intro h
      exact h.2.2

theorem pairwise_mergeSort_seq (payload : List Config) :
    (payload.mergeSort fun a b => decide (b.seq ≤ a.seq)).Pairwise fun a b => b.seq ≤ a.seq := by
  refine (List.pairwise_mergeSort ?_ ?_ payload).imp fun h => by simpa using h
  · intro a b c hab hbc
    rw [decide_eq_true_eq] at hab hbc ⊢
    omega
  · intro a b
    rw [Bool.or_eq_true, decide_eq_true_eq, decide_eq_true_eq]
    omega

/-- Sorting keeps the entries of every name. -/
theorem perm_of_sortConfigurations {entries : List Config} {sorted : Dict Str (List Config)}
    (h : sortConfigurations (Dict.group Config.name entries) = .ok sorted) (name : Str) :
    ((sorted.get? name).getD []).Perm (entries.filter fun config => config.name = name) := by
  rw [← Dict.getD_group Config.name]
  unfold sortConfigurations at h
  split at h
  · split_ifs at h
    · rcases Dict.get?_of_mapValuesM h name with ⟨hnone, hnone'⟩ | ⟨part, part', hpart, hsort, hpart'⟩
      · rw [hnone, hnone']
      · rw [hpart, hpart', (sortBySeqId_eq_ok_iff.mp hsort).2.2]
        exact List.mergeSort_perm _ _
    · rw [Except.ok.inj h]
  · rw [Except.ok.inj h]

theorem sortConfigurations_cons (first : Config) (entries : List Config) :
    sortConfigurations (Dict.group Config.name (first :: entries)) =
      if first.hasSeqId then
        (Dict.group Config.name (first :: entries)).mapValuesM fun _ payload => sortBySeqId payload
      else .ok (Dict.group Config.name (first :: entries)) := by
  have hhead := Dict.head?_group Config.name first entries
  rw [List.filter_cons_of_pos (by simp)] at hhead
  rw [sortConfigurations, hhead]

theorem mem_group_of_mem {entries : List Config} {config : Config} (h : config ∈ entries) :
    (Dict.group Config.name entries).get? config.name =
      some (entries.filter fun other => other.name = config.name) := by
  rw [Dict.get?_group_eq_some]
  refine ⟨rfl, ?_⟩
  exact List.ne_nil_of_mem (List.mem_filter.mpr ⟨h, by simp⟩)

/-- Sorting returns, and sorts what it should, if and only if the `seq_id`s can be used. -/
theorem seqIdsUsable_iff (entries : List Config) :
    (∃ sorted, sortConfigurations (Dict.group Config.name entries) = .ok sorted ∧
      ∀ name, (∀ config ∈ entries, config.name = name → config.hasSeqId = true) →
        ((sorted.get? name).getD []).Pairwise fun a b => b.seq ≤ a.seq) ↔
      SeqIdsUsable entries := by
  cases entries with
  | nil =>
      refine iff_of_true ⟨.empty, rfl, ?_⟩ ?_
      · intro name _
        exact List.Pairwise.nil
      · intro first hfirst
        cases hfirst
  | cons first entries =>
      have husable : SeqIdsUsable (first :: entries) ↔
          if first.hasSeqId then
            ∀ config ∈ first :: entries, config.seqId.isSome = true ∧
              (2 ≤ ((first :: entries).filter fun other => other.name = config.name).length →
                config.hasSeqId = true)
          else
            ∀ name, (∀ config ∈ first :: entries, config.name = name → config.hasSeqId = true) →
              ((first :: entries).filter fun config => config.name = name).Pairwise
                fun a b => b.seq ≤ a.seq := by
        simp [SeqIdsUsable]
      rw [sortConfigurations_cons, husable]
      generalize first :: entries = all
      cases first.hasSeqId with
      | true =>
          simp only [if_true]
          constructor
          · rintro ⟨sorted, hsorted, -⟩ config hconfig
            have hget := mem_group_of_mem hconfig
            rcases Dict.get?_of_mapValuesM hsorted config.name with ⟨hnone, -⟩ | ⟨part, _, hpart, hok, -⟩
            · rw [hnone] at hget
              cases hget
            · obtain rfl := Option.some.inj (hget.symm.trans hpart)
              have hmem : config ∈ all.filter fun other => other.name = config.name :=
                List.mem_filter.mpr ⟨hconfig, by simp⟩
              obtain ⟨hkeys, hnumbers, -⟩ := sortBySeqId_eq_ok_iff.mp hok
              exact ⟨hkeys config hmem, fun hlength => hnumbers hlength config hmem⟩
          · intro h
            obtain ⟨sorted, hsorted⟩ := Dict.exists_mapValuesM_eq_ok
              (d := Dict.group Config.name all) (f := fun _ payload => sortBySeqId payload) (by
                rintro ⟨name, part⟩ hitem
                obtain ⟨rfl, -⟩ := (Dict.get?_group_eq_some Config.name).mp
                  ((Dict.mem_items_iff _ _ _).mp hitem)
                refine ⟨_, sortBySeqId_eq_ok_iff.mpr ⟨?_, ?_, rfl⟩⟩
                · intro config hconfig
                  exact (h config (List.mem_of_mem_filter hconfig)).1
                · intro hlength config hconfig
                  obtain ⟨hmem, hname⟩ := List.mem_filter.mp hconfig
                  have hname' : config.name = name := by simpa using hname
                  exact (h config hmem).2 (hname' ▸ hlength))
            refine ⟨sorted, hsorted, ?_⟩
            intro name _
            rcases Dict.get?_of_mapValuesM hsorted name with ⟨-, hnone⟩ | ⟨part, part', -, hok, hpart'⟩
            · rw [hnone]
              exact List.Pairwise.nil
            · rw [hpart', (sortBySeqId_eq_ok_iff.mp hok).2.2]
              exact pairwise_mergeSort_seq part
      | false =>
          simp only [Bool.false_eq_true, if_false, Except.ok.injEq, exists_eq_left',
            Dict.getD_group]

end Sorting

section Extraction

variable {T : Type}

theorem foldlM_extractEvent :
    ∀ (events : List (Event T)) (configurations : Dict Str (List Config)),
      events.foldlM (extractEvent none) configurations =
        .ok ((found events).foldl (Dict.addTo Config.name) configurations)
  | [], _ => rfl
  | event :: events, configurations => by
      have hstep : extractEvent none configurations event =
          .ok ((foundIn event.body).foldl (Dict.addTo Config.name) configurations) := rfl
      rw [List.foldlM_cons, hstep, Raised.ok_bind, foldlM_extractEvent events, found, found,
        List.flatMap_cons, List.foldl_append]

theorem countIn_eq {eventName : Str} (hname : eventName ≠ "message-batch".toList) (body : Body) :
    countIn eventName body = (matching eventName body).length := by
  cases body with
  | message m _ =>
      have hlength : (matching eventName (.message m ‹_›)).length =
          (m.matches eventName).toNat := by
        cases h : m.matches eventName <;> simp [matching, messagesOf, h]
      rw [hlength]
      unfold countIn Message.matches
      by_cases htype : m.requestType = eventName
      · simp [htype]
      · simp [htype]
  | batch languageVersion payload =>
      have hcount : countIn eventName (.batch languageVersion payload) =
          payload.countP (Message.matches eventName) := if_neg hname.symm
      rw [hcount, List.countP_eq_length_filter]
      rfl

/-- The counting traversal counts the messages of both types. -/
theorem count_eq_length (events : List (Event T)) :
    countTelemetryEvents "app-started" (some events) +
        countTelemetryEvents "app-client-configuration-change" (some events) =
      (events.flatMap fun event => matchingMessages event.body).length := by
  induction events with
  | nil => rfl
  | cons event events ih =>
      have hmatching : (matchingMessages event.body).length =
          countIn "app-started" event.body +
            countIn "app-client-configuration-change" event.body := by
        rw [countIn_eq (by decide), countIn_eq (by decide)]
        simp [matchingMessages, configurationTypes]
      simp only [countTelemetryEvents, List.map_cons, List.sum_cons] at ih ⊢
      rw [List.flatMap_cons, List.length_append, hmatching, ← ih]
      omega

variable [LinearOrder T]

theorem inOrder_perm (events : List (Event T)) : (inOrder events).Perm events :=
  List.mergeSort_perm _ _

theorem entriesOf_inOrder_perm (events : List (Event T)) :
    (entriesOf (inOrder events)).Perm (entriesOf events) :=
  (inOrder_perm events).flatMap_right _

theorem nothingSkipped_inOrder_iff (events : List (Event T)) :
    NothingSkipped (inOrder events) ↔ NothingSkipped events :=
  forall_congr' fun _ => imp_congr_left (inOrder_perm events).mem_iff

theorem waitForTelemetryConfigurations_eq {polls : List (Option (List (Event T)))}
    {events : List (Event T)} (h : capture polls = some events) :
    waitForTelemetryConfigurations none polls =
      sortConfigurations (Dict.group Config.name (found (inOrder events))) := by
  rw [waitForTelemetryConfigurations, h]
  simp only [foldlM_extractEvent, Raised.ok_bind]
  rfl

/-- When nothing is lost, everything was found. -/
theorem found_eq_of_extracted {events : List (Event T)} {configurations : Dict Str (List Config)}
    (h : sortConfigurations (Dict.group Config.name (found (inOrder events))) = .ok configurations)
    (hextracted : Extracted events configurations) :
    found (inOrder events) = entriesOf (inOrder events) := by
  refine Dict.eq_of_filter_length Config.name (found_sublist _) ?_
  intro name
  have hfound := (perm_of_sortConfigurations h name).length_eq
  have hentries := (hextracted.entries name).length_eq
  have horder := ((entriesOf_inOrder_perm events).filter fun config => config.name = name).length_eq
  omega

/-- **The extraction loses nothing exactly where no entry is passed over and the
`seq_id`s can be used.** -/
theorem waitForTelemetryConfigurations_iff (polls : List (Option (List (Event T))))
    (events : List (Event T)) (hcapture : capture polls = some events) :
    (∃ configurations, waitForTelemetryConfigurations none polls = .ok configurations ∧
      Extracted events configurations ∧
      (events.flatMap fun event => matchingMessages event.body).length =
        countTelemetryEvents "app-started" (some events) +
          countTelemetryEvents "app-client-configuration-change" (some events)) ↔
      NothingSkipped events ∧ SeqIdsUsable (entriesOf (inOrder events)) := by
  rw [waitForTelemetryConfigurations_eq hcapture, ← nothingSkipped_inOrder_iff, ← found_eq_iff,
    ← seqIdsUsable_iff]
  have hmem : ∀ config, config ∈ entriesOf (inOrder events) ↔ config ∈ entriesOf events :=
    fun _ => (entriesOf_inOrder_perm events).mem_iff
  constructor
  · rintro ⟨configurations, hsorted, hextracted, -⟩
    have hfound := found_eq_of_extracted hsorted hextracted
    refine ⟨hfound, configurations, hfound ▸ hsorted, ?_⟩
    intro name hname
    exact hextracted.sorted name fun config hconfig => hname config ((hmem config).mpr hconfig)
  · rintro ⟨hfound, configurations, hsorted, hpairwise⟩
    rw [← hfound] at hsorted
    refine ⟨configurations, hsorted, ⟨?_, ?_⟩, (count_eq_length events).symm⟩
    · intro name
      have hperm := perm_of_sortConfigurations hsorted name
      rw [hfound] at hperm
      exact hperm.trans ((entriesOf_inOrder_perm events).filter _)
    · intro name hname
      exact hpairwise name fun config hconfig => hname config ((hmem config).mp hconfig)

/-- A message with one entry of the configuration `A`. -/
def changeMessage (seqId : Int) : Message where
  requestType := "app-client-configuration-change"
  languageVersion := none
  configuration := [⟨"A", some (some seqId), .empty⟩]
  series := none
  isSome_series := by decide

def twoChanges : List (Event ℕ) := [⟨0, none, .batch none [changeMessage 1, changeMessage 2]⟩]

/-- The second change of a batch is lost. -/
theorem not_extracted_twoChanges :
    ¬ ∀ (polls : List (Option (List (Event ℕ)))) (events : List (Event ℕ)),
      capture polls = some events →
        ∃ configurations, waitForTelemetryConfigurations none polls = .ok configurations ∧
          Extracted events configurations := by
  intro hall
  obtain ⟨configurations, hsorted, hextracted⟩ := hall [some twoChanges] twoChanges rfl
  have hcapture : capture [some twoChanges] = some twoChanges := rfl
  rw [waitForTelemetryConfigurations_eq hcapture] at hsorted
  have hfound := found_eq_of_extracted hsorted hextracted
  rw [found_eq_iff, nothingSkipped_inOrder_iff] at hfound
  have hnone := hfound _ List.mem_cons_self "app-client-configuration-change" (by decide)
    (changeMessage 2) List.mem_cons_self
  cases hnone

def oneChange : List (Event ℕ) := [⟨0, none, .batch none [changeMessage 1]⟩]

/-- A batch of one change, after a poll that failed and a poll without events. -/
theorem waitForTelemetryConfigurations_iff_oneChange :
    ∃ configurations,
      waitForTelemetryConfigurations none [none, some [], some oneChange] = .ok configurations ∧
        Extracted oneChange configurations := by
  have horder : inOrder oneChange = oneChange := List.mergeSort_singleton _
  have hskipped : NothingSkipped oneChange := by
    intro event hevent eventType htype m hm
    obtain rfl := List.mem_singleton.mp hevent
    rcases List.mem_cons.mp htype with rfl | htype
    · cases hm
    · obtain rfl := List.mem_singleton.mp htype
      cases hm
  have husable : SeqIdsUsable (entriesOf (inOrder oneChange)) := by
    rw [horder]
    intro first hfirst
    cases hfirst
    change ∀ config ∈ [_], _
    rw [List.forall_mem_singleton]
    exact ⟨rfl, fun _ => rfl⟩
  obtain ⟨configurations, hok, hextracted, -⟩ :=
    (waitForTelemetryConfigurations_iff [none, some [], some oneChange] oneChange rfl).mpr
      ⟨hskipped, husable⟩
  exact ⟨configurations, hok, hextracted⟩

end Extraction

end Telemetry
end DockerFixtures
end SystemTests
