import Mathlib.Data.Char
import Mathlib.Data.List.Lex
import Mathlib.Order.Bounds.Basic
import SystemTests.Foundation.Exception
import SystemTests.Foundation.Run

/-!
# The state of the FFE mock (`utils/mocked_backend/_backend_ffe.py`)

Every method that changes the state does so under its lock.  A request is
recorded when it comes in and finished when it is answered; between the two,
others may be recorded, and the state may be configured or reset.

A trace is what happened to the mock: requests with their answers, lists of
responses, resets.

**Results.**
* `setResponses_rejected`: what is rejected changes nothing.
* `Inv.step`: what every action keeps, as long as no reset comes while a
  request is in flight.
* `conforms_iff`: the counters and the answers of a run, and when they are right.
-/

namespace SystemTests
namespace MockedBackend

open Foundation Foundation.Text

inductive ResponseFormat where
  | json
  | protobuf
deriving DecidableEq

namespace ResponseFormat

def name : ResponseFormat → Str
  | json => "json"
  | protobuf => "protobuf"

/-- `VALID_RESPONSE_IDS` -/
def validResponseIds : ResponseFormat → List Str
  | json =>
      ["valid", "unauthorized", "malformed", "not_modified", "server_error", "delayed_valid",
        "timeout"]
  | protobuf =>
      ["valid", "malformed", "server_error", "forbidden", "redirect", "empty",
        "wrong_content_type", "delayed", "delayed_body", "disconnect", "truncated_body",
        "selection_ignored_empty", "selection_ignored_tag_load_failed", "selection_ignored_unknown"]

end ResponseFormat

/-- A value of a control request. -/
inductive Value where
  | text (s : Str)
  | list (items : List Value)
  | other

namespace Value

def text? : Value → Option Str
  | text s => some s
  | _ => none

end Value

def defaultResponse : Str := "valid"

/-- `_validate_response_format` -/
def validateResponseFormat (responseFormat : Value) : Except Raised ResponseFormat :=
  match responseFormat.text? with
  | some s =>
      if s = "json".toList then .ok .json
      else if s = "protobuf".toList then .ok .protobuf
      else .error (.valueError "response_format must be json or protobuf")
  | none => .error (.valueError "response_format must be json or protobuf")

/-- The responses of a list that are not known, in order and once each. -/
def unknownResponses (format : ResponseFormat) (responses : List Str) : List Str :=
  (responses.filter fun r => decide (r ∉ format.validResponseIds)).dedup.mergeSort
    fun a b => decide (a ≤ b)

/-- The known responses of a list of texts. -/
def knownResponses (format : ResponseFormat) (texts : List Str) : Except Raised (List Str) :=
  if unknownResponses format texts = [] then .ok texts
  else
    .error (.valueError ("unsupported ".toList ++ format.name ++ " response: ".toList ++
      join ", ".toList (unknownResponses format texts)))

def validateResponses (responses responseFormat : Value) :
    Except Raised (List Str × ResponseFormat) := do
  let format ← validateResponseFormat responseFormat
  match responses with
  | .list (item :: items) =>
      let texts ← Raised.ofOption (.valueError "responses must contain only strings")
        ((item :: items).mapM Value.text?)
      let validated ← knownResponses format texts
      return (validated, format)
  | _ => .error (.valueError "responses must be a non-empty list")

structure Recorded where
  path : Str
  headers : List (Str × Str)

structure FfeState where
  responses : ResponseFormat → List Str
  requestsTotal : Int
  inFlight : Int
  maxInFlight : Int
  lastPath : Option Str
  lastIfNoneMatch : Option Str
  observedDdApiKey : Option Str
  lastStatusCode : Option Int
  statusCodes : List Int
  requests : List Recorded

/-- The functions of the standard library that are used here. -/
structure Library where
  /-- The path of `urlparse`, which raises for some URLs. -/
  urlPath : Str → Except Raised Str
  lower : Str → Str

namespace FfeState

/-- What `__init__` sets, and `reset`. -/
def initial : FfeState where
  responses _ := [defaultResponse]
  requestsTotal := 0
  inFlight := 0
  maxInFlight := 0
  lastPath := none
  lastIfNoneMatch := none
  observedDdApiKey := none
  lastStatusCode := none
  statusCodes := []
  requests := []

def reset (_ : FfeState) : FfeState := initial

def setResponses (responses responseFormat : Value) (self : FfeState) :
    Except Raised Unit × FfeState :=
  match validateResponses responses responseFormat with
  | .error e => (.error e, self)
  | .ok (validated, format) =>
      (.ok (), {
        self with
        responses := Function.update self.responses format validated
        lastIfNoneMatch := none
        lastStatusCode := none
        statusCodes := [] })

/-- The last of several equal headers counts. -/
def header (headers : List (Str × Str)) (key : Str) : Option Str :=
  (headers.reverse.find? fun p => decide (p.1 = key)).map Prod.snd

def recordRequest (library : Library) (headers : List (Str × Str)) (path : Str)
    (format : ResponseFormat) (self : FfeState) : Except Raised Str × FfeState :=
  match library.urlPath path with
  | .error e => (.error e, self)
  | .ok parsedPath =>
      let normalized := headers.map fun p => (library.lower p.1, p.2)
      let counted := {
        self with
        requestsTotal := self.requestsTotal + 1
        inFlight := self.inFlight + 1
        maxInFlight := max self.maxInFlight (self.inFlight + 1)
        lastPath := some parsedPath
        lastIfNoneMatch := header normalized "if-none-match"
        observedDdApiKey := header normalized "dd-api-key"
        requests := self.requests ++ [⟨path, normalized⟩] }
      match self.responses format with
      | [] => (.error (.indexError "list index out of range"), counted)
      | [response] => (.ok response, counted)
      | response :: rest =>
          (.ok response, { counted with responses := Function.update self.responses format rest })

def recordResponse (statusCode : Int) (self : FfeState) : FfeState :=
  { self with lastStatusCode := some statusCode, statusCodes := self.statusCodes ++ [statusCode] }

def finishRequest (self : FfeState) : FfeState := { self with inFlight := max 0 (self.inFlight - 1) }

end FfeState

theorem setResponses_rejected {responses responseFormat : Value} {e : Raised}
    (h : validateResponses responses responseFormat = .error e) (self : FfeState) :
    self.setResponses responses responseFormat = (.error e, self) := by
  rw [FfeState.setResponses, h]

theorem ne_nil_of_validateResponses {responses responseFormat : Value} {validated : List Str}
    {format : ResponseFormat}
    (h : validateResponses responses responseFormat = .ok (validated, format)) :
    validated ≠ [] := by
  rw [validateResponses] at h
  obtain ⟨format', -, h⟩ := Raised.bind_eq_ok.mp h
  split at h
  · obtain ⟨texts, htexts, h⟩ := Raised.bind_eq_ok.mp h
    obtain ⟨known, hknown, h⟩ := Raised.bind_eq_ok.mp h
    obtain rfl : known = validated := (Prod.mk.inj (Except.ok.inj h)).1
    rw [knownResponses] at hknown
    split at hknown
    · rw [← Except.ok.inj hknown]
      rw [Raised.ofOption_eq_ok_iff, List.mapM_cons] at htexts
      rintro hnil
      simp [hnil, Option.bind_eq_some_iff] at htexts
    · cases hknown
  · cases h

/-- What happened to the mock. -/
inductive Event where
  | recorded (request : Nat) (format : ResponseFormat) (response : Str)
  | finished (request : Nat)
  | responsesSet (format : ResponseFormat) (responses : List Str)
  | reset
deriving DecidableEq

/-- The requests that were recorded and are not yet finished. -/
def openRequests (trace : List Event) : List Nat :=
  trace.foldl (fun requests event => match event with
    | .recorded request _ _ => request :: requests
    | .finished request => requests.erase request
    | _ => requests) []

/-- The list of responses of a format, and how many requests were answered with it. -/
def timeline (format : ResponseFormat) (trace : List Event) : List Str × Nat :=
  trace.foldl (fun line event => match event with
    | .recorded _ f _ => if f = format then (line.1, line.2 + 1) else line
    | .finished _ => line
    | .responsesSet f responses => if f = format then (responses, 0) else line
    | .reset => ([defaultResponse], 0)) ([defaultResponse], 0)

/-- How many requests were in flight at some moment since the last reset. -/
def InFlightSinceReset (trace : List Event) : Set Int :=
  {n | ∃ before after, trace = before ++ after ∧ (∀ event ∈ after, event ≠ .reset) ∧
    n = (openRequests before).length}

structure System where
  mock : FfeState
  trace : List Event

namespace System

def new : System := ⟨.initial, []⟩

def record (self : System) (event : Event) (mock : FfeState) : System :=
  ⟨mock, self.trace ++ [event]⟩

end System

/-- A request that is recorded, answered or finished, and the calls that configure the mock. -/
inductive Action where
  | record (request : Nat) (headers : List (Str × Str)) (path : Str) (format : ResponseFormat)
  | respond (statusCode : Int)
  | finish (request : Nat)
  | setResponses (responses responseFormat : Value)
  | reset

section Steps

variable (library : Library)

/-- A request finishes once, and after it was recorded. -/
def step (self : System) : Action → Option System
  | .record request headers path format =>
      if request ∈ openRequests self.trace then none
      else
        match self.mock.recordRequest library headers path format with
        | (.ok response, mock) => some (self.record (.recorded request format response) mock)
        | (.error _, mock) => some ⟨mock, self.trace⟩
  | .respond statusCode => some ⟨self.mock.recordResponse statusCode, self.trace⟩
  | .finish request =>
      if request ∈ openRequests self.trace then
        some (self.record (.finished request) self.mock.finishRequest)
      else none
  | .setResponses responses responseFormat =>
      let mock := (self.mock.setResponses responses responseFormat).2
      match validateResponses responses responseFormat with
      | .ok (validated, format) => some (self.record (.responsesSet format validated) mock)
      | .error _ => some ⟨mock, self.trace⟩
  | .reset => some (self.record .reset self.mock.reset)

end Steps

/-- Request `k` of `n` responses is answered with response `min k (n - 1)`. -/
def AnswersFollow (trace : List Event) : Prop :=
  ∀ before after request format response,
    trace = before ++ Event.recorded request format response :: after →
    (timeline format before).1[min (timeline format before).2
      ((timeline format before).1.length - 1)]? = some response

/-- The counters are right, and so are the answers so far. -/
structure Accounted (system : System) : Prop where
  inFlight : system.mock.inFlight = (openRequests system.trace).length
  maxInFlight : IsGreatest (InFlightSinceReset system.trace) system.mock.maxInFlight
  answers : AnswersFollow system.trace

section Trace

variable (trace : List Event)

@[simp] theorem openRequests_recorded (request : Nat) (format : ResponseFormat) (response : Str) :
    openRequests (trace ++ [Event.recorded request format response]) =
      request :: openRequests trace := by
  simp [openRequests]

@[simp] theorem openRequests_finished (request : Nat) :
    openRequests (trace ++ [Event.finished request]) = (openRequests trace).erase request := by
  simp [openRequests]

@[simp] theorem openRequests_responsesSet (format : ResponseFormat) (responses : List Str) :
    openRequests (trace ++ [Event.responsesSet format responses]) = openRequests trace := by
  simp [openRequests]

@[simp] theorem openRequests_reset :
    openRequests (trace ++ [Event.reset]) = openRequests trace := by
  simp [openRequests]

@[simp] theorem timeline_recorded (format f : ResponseFormat) (request : Nat) (response : Str) :
    timeline format (trace ++ [Event.recorded request f response]) =
      if f = format then ((timeline format trace).1, (timeline format trace).2 + 1)
      else timeline format trace := by
  simp [timeline]

@[simp] theorem timeline_finished (format : ResponseFormat) (request : Nat) :
    timeline format (trace ++ [Event.finished request]) = timeline format trace := by
  simp [timeline]

@[simp] theorem timeline_responsesSet (format f : ResponseFormat) (responses : List Str) :
    timeline format (trace ++ [Event.responsesSet f responses]) =
      if f = format then (responses, 0) else timeline format trace := by
  simp [timeline]

@[simp] theorem timeline_reset (format : ResponseFormat) :
    timeline format (trace ++ [Event.reset]) = ([defaultResponse], 0) := by
  simp [timeline]

theorem inFlightSinceReset_reset :
    InFlightSinceReset (trace ++ [Event.reset]) = {((openRequests trace).length : Int)} := by
  ext n
  rw [Set.mem_singleton_iff]
  constructor
  · rintro ⟨before, after, heq, hafter, rfl⟩
    rcases List.eq_nil_or_concat after with rfl | ⟨front, event, rfl⟩
    · rw [List.append_nil] at heq
      rw [← heq, openRequests_reset]
    · rw [List.concat_eq_append, ← List.append_assoc] at heq
      obtain ⟨-, hevent⟩ := List.append_inj' heq rfl
      rw [List.singleton_inj] at hevent
      exact absurd hevent.symm (hafter event (by simp))
  · rintro rfl
    exact ⟨trace ++ [Event.reset], [], by simp, by simp, by simp⟩

theorem inFlightSinceReset_append {event : Event} (h : event ≠ .reset) :
    InFlightSinceReset (trace ++ [event]) =
      insert ((openRequests (trace ++ [event])).length : Int) (InFlightSinceReset trace) := by
  ext n
  rw [Set.mem_insert_iff]
  constructor
  · rintro ⟨before, after, heq, hafter, rfl⟩
    rcases List.eq_nil_or_concat after with rfl | ⟨front, last, rfl⟩
    · rw [List.append_nil] at heq
      exact Or.inl (by rw [heq])
    · rw [List.concat_eq_append, ← List.append_assoc] at heq
      obtain ⟨hfront, -⟩ := List.append_inj' heq rfl
      exact Or.inr ⟨before, front, hfront, fun e he => hafter e (by simp [he]), rfl⟩
  · rintro (rfl | ⟨before, after, rfl, hafter, rfl⟩)
    · exact ⟨trace ++ [event], [], by simp, by simp, rfl⟩
    · refine ⟨before, after ++ [event], by simp, ?_, rfl⟩
      intro e he
      rcases List.mem_append.mp he with he | he
      · exact hafter e he
      · rwa [List.mem_singleton.mp he]

theorem length_openRequests_mem : ((openRequests trace).length : Int) ∈ InFlightSinceReset trace :=
  ⟨trace, [], by simp, by simp, rfl⟩

variable {trace}

theorem AnswersFollow.append {event : Event} (h : AnswersFollow trace)
    (hevent : ∀ request format response, event = .recorded request format response →
      (timeline format trace).1[min (timeline format trace).2
        ((timeline format trace).1.length - 1)]? = some response) :
    AnswersFollow (trace ++ [event]) := by
  intro before after request format response heq
  rcases List.eq_nil_or_concat after with rfl | ⟨front, last, rfl⟩
  · obtain ⟨rfl, hlast⟩ := List.append_inj' heq rfl
    exact hevent request format response (List.singleton_inj.mp hlast)
  · rw [List.concat_eq_append, ← List.cons_append, ← List.append_assoc] at heq
    obtain ⟨hfront, -⟩ := List.append_inj' heq rfl
    exact h before front request format response hfront

end Trace

section Responses

/-- What a format has left, when so many requests were answered with a list. -/
def remaining (line : List Str × Nat) : List Str := line.1.drop (min line.2 (line.1.length - 1))

/-- One more request is answered: the last response of a list stays. -/
theorem remaining_succ {responses : List Str} (h : responses ≠ []) (served : Nat) :
    ∃ response rest, remaining (responses, served) = response :: rest ∧
      responses[min served (responses.length - 1)]? = some response ∧
      remaining (responses, served + 1) = if rest = [] then [response] else rest := by
  have hpos : 0 < responses.length := List.length_pos_iff.mpr h
  have hlt : min served (responses.length - 1) < responses.length := by omega
  refine ⟨responses[min served (responses.length - 1)],
    responses.drop (min served (responses.length - 1) + 1), ?_, List.getElem?_eq_getElem hlt, ?_⟩
  · rw [remaining]
    exact List.drop_eq_getElem_cons hlt
  · rw [remaining]
    by_cases hlast : served + 1 < responses.length
    · have hnext : min (served + 1) (responses.length - 1) = min served (responses.length - 1) + 1 := by
        omega
      have hrest : responses.drop (min served (responses.length - 1) + 1) ≠ [] := by
        rw [ne_eq, List.drop_eq_nil_iff]
        omega
      rw [if_neg hrest, hnext]
    · have hsame : min (served + 1) (responses.length - 1) = min served (responses.length - 1) := by
        omega
      have hrest : responses.drop (min served (responses.length - 1) + 1) = [] := by
        rw [List.drop_eq_nil_iff]
        omega
      rw [if_pos hrest, hsame]
      simp only
      rw [List.drop_eq_getElem_cons hlt, hrest]

end Responses

section Invariant

variable {library : Library}

/-- What is known of the mock while no reset came in between a request and its end. -/
structure Inv (system : System) : Prop extends Accounted system where
  lines : ∀ format, (timeline format system.trace).1 ≠ []
  current : ∀ format, system.mock.responses format = remaining (timeline format system.trace)

theorem inv_new : Inv System.new where
  inFlight := rfl
  maxInFlight := by
    have hmoments : InFlightSinceReset [] = {0} := by
      ext n
      rw [Set.mem_singleton_iff]
      constructor
      · rintro ⟨before, after, heq, -, rfl⟩
        rw [(List.append_eq_nil_iff.mp heq.symm).1]
        rfl
      · rintro rfl
        exact ⟨[], [], rfl, by simp, rfl⟩
    show IsGreatest (InFlightSinceReset []) 0
    rw [hmoments]
    exact isGreatest_singleton
  answers := by
    rintro before after request format response heq
    simp [System.new] at heq
  lines format := by simp [timeline, System.new]
  current format := rfl

/-- A request is counted, and answered with the first response, which goes unless it is the last. -/
theorem recordRequest_spec {self : FfeState} (headers : List (Str × Str)) {path parsedPath : Str}
    (hpath : library.urlPath path = .ok parsedPath) {format : ResponseFormat} {response : Str}
    {rest : List Str} (hresponses : self.responses format = response :: rest) :
    ∃ mock, self.recordRequest library headers path format = (.ok response, mock) ∧
      mock.inFlight = self.inFlight + 1 ∧
      mock.maxInFlight = max self.maxInFlight (self.inFlight + 1) ∧
      mock.responses =
        Function.update self.responses format (if rest = [] then [response] else rest) := by
  rw [FfeState.recordRequest, hpath]
  simp only [hresponses]
  cases rest with
  | nil =>
      refine ⟨_, rfl, rfl, rfl, ?_⟩
      rw [if_pos rfl, ← hresponses, Function.update_eq_self]
  | cons next rest =>
      refine ⟨_, rfl, rfl, rfl, ?_⟩
      rw [if_neg (List.cons_ne_nil next rest)]

/-- A request that comes in gets its answer. -/
theorem Inv.record {self : System} (h : Inv self) (request : Nat) (headers : List (Str × Str))
    {path parsedPath : Str} (hpath : library.urlPath path = .ok parsedPath)
    (format : ResponseFormat) :
    ∃ response mock, self.mock.recordRequest library headers path format = (.ok response, mock) ∧
      Inv (self.record (.recorded request format response) mock) := by
  obtain ⟨response, rest, hremaining, hanswer, hsucc⟩ :=
    remaining_succ (h.lines format) (timeline format self.trace).2
  have hresponses : self.mock.responses format = response :: rest :=
    (h.current format).trans hremaining
  obtain ⟨mock, hrecord, hcount, hmax, hleft⟩ := recordRequest_spec headers hpath hresponses
  refine ⟨response, mock, hrecord, ⟨?_, ?_, ?_⟩, fun f => ?_, fun f => ?_⟩
  · show mock.inFlight =
      (openRequests (self.trace ++ [Event.recorded request format response])).length
    rw [openRequests_recorded, hcount, h.inFlight, List.length_cons]
    push_cast
    rfl
  · show IsGreatest (InFlightSinceReset (self.trace ++ [Event.recorded request format response]))
      mock.maxInFlight
    rw [inFlightSinceReset_append _ (by simp), openRequests_recorded, hmax, h.inFlight, max_comm]
    exact_mod_cast h.maxInFlight.insert _
  · refine h.answers.append fun request' format' response' heq => ?_
    obtain ⟨-, rfl, rfl⟩ := Event.recorded.inj heq
    exact hanswer
  · show (timeline f (self.trace ++ [Event.recorded request format response])).1 ≠ []
    rw [timeline_recorded]
    split
    · exact h.lines f
    · exact h.lines f
  · show mock.responses f =
      remaining (timeline f (self.trace ++ [Event.recorded request format response]))
    rw [timeline_recorded, hleft]
    by_cases hf : format = f
    · subst hf
      rw [Function.update_self, if_pos rfl]
      exact hsucc.symm
    · rw [Function.update_of_ne (Ne.symm hf), if_neg hf]
      exact h.current f

theorem Inv.respond {self : System} (h : Inv self) (statusCode : Int) :
    Inv ⟨self.mock.recordResponse statusCode, self.trace⟩ :=
  ⟨⟨h.inFlight, h.maxInFlight, h.answers⟩, h.lines, h.current⟩

theorem Inv.finish {self : System} (h : Inv self) {request : Nat}
    (hrequest : request ∈ openRequests self.trace) :
    Inv (self.record (.finished request) self.mock.finishRequest) where
  inFlight := by
    have hpos : 0 < (openRequests self.trace).length := List.length_pos_of_mem hrequest
    show max 0 (self.mock.inFlight - 1) =
      (openRequests (self.trace ++ [Event.finished request])).length
    rw [openRequests_finished, h.inFlight, List.length_erase_of_mem hrequest]
    omega
  maxInFlight := by
    show IsGreatest (InFlightSinceReset (self.trace ++ [Event.finished request]))
      self.mock.maxInFlight
    rw [inFlightSinceReset_append _ (by simp), openRequests_finished,
      List.length_erase_of_mem hrequest]
    refine ⟨Set.mem_insert_of_mem _ h.maxInFlight.1, ?_⟩
    rintro n (rfl | hn)
    · have hbound := h.maxInFlight.2 (length_openRequests_mem self.trace)
      omega
    · exact h.maxInFlight.2 hn
  answers := h.answers.append fun _ _ _ heq => by cases heq
  lines format := by
    show (timeline format (self.trace ++ [Event.finished request])).1 ≠ []
    rw [timeline_finished]
    exact h.lines format
  current format := by
    show self.mock.responses format =
      remaining (timeline format (self.trace ++ [Event.finished request]))
    rw [timeline_finished]
    exact h.current format

theorem Inv.setResponses {self : System} (h : Inv self) {responses responseFormat : Value}
    {validated : List Str} {format : ResponseFormat}
    (hvalid : validateResponses responses responseFormat = .ok (validated, format)) :
    Inv (self.record (.responsesSet format validated)
      (self.mock.setResponses responses responseFormat).2) := by
  have hne := ne_nil_of_validateResponses hvalid
  have hmock : (self.mock.setResponses responses responseFormat).2 = {
      self.mock with
      responses := Function.update self.mock.responses format validated
      lastIfNoneMatch := none
      lastStatusCode := none
      statusCodes := [] } := by
    rw [FfeState.setResponses, hvalid]
  rw [hmock]
  refine ⟨⟨?_, ?_, ?_⟩, fun f => ?_, fun f => ?_⟩
  · show self.mock.inFlight =
      (openRequests (self.trace ++ [Event.responsesSet format validated])).length
    rw [openRequests_responsesSet]
    exact h.inFlight
  · show IsGreatest (InFlightSinceReset (self.trace ++ [Event.responsesSet format validated]))
      self.mock.maxInFlight
    rw [inFlightSinceReset_append _ (by simp), openRequests_responsesSet,
      Set.insert_eq_of_mem (length_openRequests_mem self.trace)]
    exact h.maxInFlight
  · exact h.answers.append fun _ _ _ heq => by cases heq
  · show (timeline f (self.trace ++ [Event.responsesSet format validated])).1 ≠ []
    rw [timeline_responsesSet]
    split
    · exact hne
    · exact h.lines f
  · show Function.update self.mock.responses format validated f =
      remaining (timeline f (self.trace ++ [Event.responsesSet format validated]))
    rw [timeline_responsesSet]
    by_cases hf : format = f
    · subst hf
      rw [Function.update_self, if_pos rfl, remaining, Nat.zero_min, List.drop_zero]
    · rw [Function.update_of_ne (Ne.symm hf), if_neg hf]
      exact h.current f

theorem Inv.reset {self : System} (h : Inv self) (hquiet : openRequests self.trace = []) :
    Inv (self.record .reset self.mock.reset) where
  inFlight := by
    show (0 : Int) = (openRequests (self.trace ++ [Event.reset])).length
    rw [openRequests_reset, hquiet]
    rfl
  maxInFlight := by
    show IsGreatest (InFlightSinceReset (self.trace ++ [Event.reset])) 0
    rw [inFlightSinceReset_reset, hquiet]
    exact isGreatest_singleton
  answers := h.answers.append fun _ _ _ heq => by cases heq
  lines format := by
    show (timeline format (self.trace ++ [Event.reset])).1 ≠ []
    rw [timeline_reset]
    exact List.cons_ne_nil _ _
  current format := by
    show [defaultResponse] = remaining (timeline format (self.trace ++ [Event.reset]))
    rw [timeline_reset]
    rfl

/-- No request is in flight when the mock is reset. -/
def QuietReset (self : System) (action : Action) : Prop :=
  action = .reset → openRequests self.trace = []

theorem Inv.step {self next : System} {action : Action} (h : Inv self)
    (hquiet : QuietReset self action) (hstep : step library self action = some next) :
    Inv next := by
  cases action with
  | record request headers path format =>
      rw [MockedBackend.step] at hstep
      split at hstep
      · cases hstep
      · cases hpath : library.urlPath path with
        | error e =>
            rw [FfeState.recordRequest, hpath, Option.some.injEq] at hstep
            exact hstep ▸ h
        | ok parsedPath =>
            obtain ⟨response, mock, hrecord, hinv⟩ := h.record request headers hpath format
            rw [hrecord, Option.some.injEq] at hstep
            exact hstep ▸ hinv
  | respond statusCode =>
      rw [MockedBackend.step, Option.some.injEq] at hstep
      exact hstep ▸ h.respond statusCode
  | finish request =>
      rw [MockedBackend.step] at hstep
      split at hstep
      · rename_i hrequest
        rw [Option.some.injEq] at hstep
        exact hstep ▸ h.finish hrequest
      · cases hstep
  | setResponses responses responseFormat =>
      rw [MockedBackend.step] at hstep
      cases hvalid : validateResponses responses responseFormat with
      | error e =>
          rw [hvalid, setResponses_rejected hvalid] at hstep
          exact Option.some.inj hstep ▸ h
      | ok result =>
          rw [hvalid] at hstep
          exact Option.some.inj hstep ▸ h.setResponses hvalid
  | reset =>
      rw [MockedBackend.step, Option.some.injEq] at hstep
      exact hstep ▸ h.reset (hquiet rfl)

theorem run_inv {actions : List Action} {s : System}
    (hquiet : Along (MockedBackend.step library) QuietReset System.new actions)
    (hrun : run (MockedBackend.step library) System.new actions = some s) : Inv s :=
  run_invariant (fun _ _ _ hs hq hstep => hs.step hq hstep) inv_new hquiet hrun

/-- At every moment the counters and the answers are right, and rejected responses change
nothing. -/
def Conforms (library : Library) (actions : List Action) : Prop :=
  ∀ before after s, actions = before ++ after →
    run (MockedBackend.step library) System.new before = some s →
    Accounted s ∧ ∀ responses responseFormat e,
      validateResponses responses responseFormat = .error e →
      s.mock.setResponses responses responseFormat = (.error e, s.mock)

theorem conforms_iff (library : Library) (actions : List Action) :
    Conforms library actions ↔
      Along (MockedBackend.step library) QuietReset System.new actions := by
  constructor
  · intro h
    refine along_iff.mpr ?_
    rintro before action after s rfl hrun rfl
    have hreset : run (MockedBackend.step library) System.new (before ++ [Action.reset]) =
        some (s.record .reset s.mock.reset) :=
      run_append.mpr ⟨s, hrun, rfl⟩
    -- The reset sets the counter to zero, whatever is in flight.
    have hzero : (0 : Int) = (openRequests (s.trace ++ [Event.reset])).length :=
      (h (before ++ [Action.reset]) after _ (by simp) hreset).1.inFlight
    have hopen : openRequests (s.trace ++ [Event.reset]) = [] :=
      List.length_eq_zero_iff.mp (by exact_mod_cast hzero.symm)
    rwa [openRequests_reset] at hopen
  · rintro hquiet before after s rfl hrun
    have hbefore := ((along_append hrun).mp hquiet).1
    exact ⟨(run_inv hbefore hrun).toAccounted, fun _ _ _ h => setResponses_rejected h s.mock⟩

/-- The request that finishes after a reset is taken for the one that came after it. -/
theorem reset_in_flight_not_conforms :
    ¬ Conforms ⟨.ok, id⟩
      [.record 0 [] "/api/v2/feature-flagging/config/rules-based/server" .json, .reset,
        .record 1 [] "/api/v2/feature-flagging/config/rules-based/server" .json, .finish 0] := by
  intro h
  have hcount := (h _ [] _ (List.append_nil _).symm rfl).1.inFlight
  exact absurd hcount (by decide)

end Invariant

end MockedBackend
end SystemTests
