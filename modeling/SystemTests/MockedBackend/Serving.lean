import SystemTests.Foundation.Interleaving
import SystemTests.Foundation.Run
import SystemTests.Interfaces.ArrivalOrder
import SystemTests.Proxy.MockedResponse

/-!
# Requests to the mocked backend (`utils/mocked_backend/_backend.py`, `_request_handler.py`)

Each request has a thread of its own: it chooses a handler, takes the number of its log
file, handles the request, writes the file, calls `on_message`, and sends the answer.
Other threads may do steps in between; the mocked responses and the counter of the
messages have locks.  A thread whose handler raises takes no more steps.

**Results.**
* `inv_proceed`, `inv_run`: in every run each request does its own steps in their order,
  log numbers are given out one after the other, and no file is written over.
* `answered_recorded`: who has an answer is recorded once, before the answer.
* `answered_inForce`: a request is answered by the mocked responses that were in force at
  a moment after it came and before its answer.
-/

namespace SystemTests
namespace MockedBackend
namespace Serving

open Foundation Foundation.Text Foundation.Json Proxy.Mocks Interfaces

section Model

inductive HttpMethod where
  | get | post | put
deriving DecidableEq

/-- A request; its payload is what its handler gets, `none` if this is no JSON. -/
structure Request where
  method : HttpMethod
  path : Str
  query : Str
  payload : Option Json

def controlUrlPrefix : Str := "/system-tests"

def Request.isControl (request : Request) : Bool := controlUrlPrefix <+: request.path

/-- `f"{path}?{query}" if query else path` -/
def Request.fullPath (request : Request) : Str :=
  if request.query = [] then request.path else request.path ++ '?' :: request.query

inductive Body where
  | bytes (content : List UInt8)
  | json (payload : Json)

structure Answer where
  statusCode : Json
  contentType : Json
  body : Body

/-- The handlers of `_backend_ffe`; what they answer depends on their own state. -/
inductive FfeRoute where
  | config | rulesConfig | status | controlResponses | controlReset
deriving DecidableEq

inductive Handler where
  | mockedResponse (mock : MockedBackendResponse)
  | health
  | mockedResponses
  | default
  | evpIntake
  | static (content : List UInt8) (contentType : Str)
  | ffe (route : FfeRoute)

/-- What the routes of the remote configuration serve. -/
structure RcContents where
  org : List UInt8
  status : List UInt8
  configurations : List UInt8

/-- The routes that `__init__` adds. -/
def initialRoutes (rc : RcContents) : Dict (HttpMethod × Str) Handler :=
  Dict.empty.setAll [
    ((.get, "/system-tests/health"), .health),
    ((.put, "/system-tests/mocked-responses"), .mockedResponses),
    ((.get, "/api/v2/feature-flagging/config/rules-based/server"), .ffe .config),
    ((.get, "/api/v2/feature-flagging/config/rules-based/client"), .ffe .rulesConfig),
    ((.get, "/api/v2/feature-flagging/config/rules-based/redirected"), .ffe .rulesConfig),
    ((.post, "/api/v2/exposures"), .evpIntake),
    ((.post, "/api/v2/flagevaluation"), .evpIntake),
    ((.get, "/system-tests/ffe/status"), .ffe .status),
    ((.post, "/system-tests/ffe/responses"), .ffe .controlResponses),
    ((.post, "/system-tests/ffe/reset"), .ffe .controlReset),
    ((.get, "/api/v0.1/org"), .static rc.org "application/x-protobuf"),
    ((.get, "/api/v0.1/status"), .static rc.status "application/x-protobuf"),
    ((.get, "/api/v0.2/echo-test"), .static [0x6F, 0x6B] "text/plain"),
    ((.post, "/api/v0.1/configurations"), .static rc.configurations "application/x-protobuf")]

/-- What no request changes. -/
structure Server where
  logFolder : Option Str
  internalMockedResponses : List MockedBackendResponse
  routes : Dict (HttpMethod × Str) Handler

namespace Server

variable (server : Server)

/-- `_get_mocked_response_handler` -/
def getMockedResponseHandler (mockedResponses : List MockedBackendResponse) (path : Str) :
    Option Handler :=
  if controlUrlPrefix <+: path then none
  else ((mockedResponses ++ server.internalMockedResponses).find? fun mock =>
    isText path mock.path).map Handler.mockedResponse

/-- The handler that `get_handler` returns. -/
def getHandler (mockedResponses : List MockedBackendResponse) (request : Request) : Handler :=
  (server.getMockedResponseHandler mockedResponses request.fullPath).getD
    ((server.routes.get? (request.method, request.path)).getD .default)

/-- The log file of a numbered request. -/
def logFilename (messageCount : Nat) (path : Str) : Option Str :=
  server.logFolder.map fun folder =>
    (ArrivalOrder.Producer.mockedBackend folder).logFilename messageCount path

end Server

def writeJson (statusCode : Int) (payload : Json) : Answer :=
  ⟨int statusCode, text "application/json", .json payload⟩

def isObject : Json → Bool
  | .object _ => true
  | _ => false

/-- `str(error)` -/
def errorText : Raised → Str
  | .keyError key => '\'' :: (key ++ ['\''])
  | .typeError message => message
  | .valueError message => message
  | _ => []

/-- What `_handle_mocked_responses` reads in the body. -/
def readMocks (payload : Option Json) : Except Raised (List MockedBackendResponse) :=
  match payload with
  | some (.object members) =>
      match (Source.ofMembers members).item "responses" with
      | some (.array items) =>
          if items.all isObject then
            items.mapM fun item => asDict item >>= MockedBackendResponse.fromDict
          else throw (.valueError "body must contain a list of responses")
      | _ => throw (.valueError "body must contain a list of responses")
  | _ => throw (.valueError "body must contain a list of responses")

/-- The mocked responses that a handler installs. -/
def installs (request : Request) : Handler → Option (List MockedBackendResponse)
  | .mockedResponses => (readMocks request.payload).toOption
  | _ => none

/-- What a handler answers; the answer of the handlers of `_backend_ffe` is given. -/
def respond (request : Request) (ffeAnswer : Answer) : Handler → Answer
  | .mockedResponse mock => ⟨mock.statusCode, mock.contentType, .bytes mock.content⟩
  | .health => writeJson 200 (fields [("status", text "ok")])
  | .mockedResponses =>
      match readMocks request.payload with
      | .ok _ => writeJson 200 (fields [])
      | .error e => writeJson 400 (fields [("error", text (errorText e))])
  | .default => writeJson 200 (fields [])
  | .evpIntake => writeJson 202 (fields [])
  | .static content contentType => ⟨int 200, text contentType, .bytes content⟩
  | .ffe _ => ffeAnswer

/-- The number of a request that is recorded, and its log file if there is a folder. -/
structure Ticket where
  number : Nat
  logFilename : Option Str

/-- What is recorded of a request. -/
structure Record where
  thread : Nat
  logFilename : Option Str
  request : Request
  answer : Answer

/-- How far the thread of a request is. -/
inductive Stage where
  | received
  | routed (handler : Handler)
  | numbered (handler : Handler) (ticket : Option Ticket)
  | handled (handler : Handler) (ticket : Option Ticket) (answer : Answer)
  | written (handler : Handler) (ticket : Option Ticket) (answer : Answer)
  | published (handler : Handler) (ticket : Option Ticket) (answer : Answer)
  | sent (handler : Handler) (ticket : Option Ticket) (answer : Answer)

structure Thread where
  request : Request
  stage : Stage

inductive Event where
  | received (thread : Nat) (request : Request)
  | routed (thread : Nat) (handler : Handler)
  | numbered (thread number : Nat)
  | installed (thread : Nat) (mocks : List MockedBackendResponse)
  | handled (thread : Nat) (answer : Answer)
  | wrote (thread : Nat) (logFilename : Str) (record : Record)
  | published (thread : Nat) (record : Record)
  | sent (thread : Nat) (answer : Answer)

structure State where
  mockedResponses : List MockedBackendResponse
  messageCount : Nat
  threads : Nat → Option Thread
  folder : Dict Str Record
  trace : List Event

namespace State

def new : State := ⟨[], 0, fun _ => none, .empty, []⟩

/-- The thread of a request comes to a stage. -/
def advance (s : State) (id : Nat) (request : Request) (stage : Stage) (events : List Event) :
    State :=
  { s with
    threads := Function.update s.threads id (some ⟨request, stage⟩)
    trace := s.trace ++ events }

end State

def newRecord (id : Nat) (request : Request) (ticket : Ticket) (answer : Answer) : Record :=
  ⟨id, ticket.logFilename, request, answer⟩

def numberedEvents (id : Nat) (ticket : Option Ticket) : List Event :=
  ticket.toList.map fun ticket => .numbered id ticket.number

def handledEvents (id : Nat) (request : Request) (handler : Handler) (answer : Answer) :
    List Event :=
  (installs request handler).toList.map (.installed id) ++ [Event.handled id answer]

/-- The file that a thread writes, and what it writes. -/
def fileOf (id : Nat) (request : Request) (ticket : Option Ticket) (answer : Answer) :
    Option (Str × Record) :=
  ticket.bind fun ticket =>
    ticket.logFilename.map fun name => (name, newRecord id request ticket answer)

def wroteEvents (id : Nat) (request : Request) (ticket : Option Ticket) (answer : Answer) :
    List Event :=
  (fileOf id request ticket answer).toList.map fun file => .wrote id file.1 file.2

def publishedEvents (id : Nat) (request : Request) (ticket : Option Ticket) (answer : Answer) :
    List Event :=
  ticket.toList.map fun ticket => .published id (newRecord id request ticket answer)

inductive Action where
  | receive (thread : Nat) (request : Request)
  | proceed (thread : Nat) (ffeAnswer : Answer)

section Steps

variable (server : Server)

/-- The next step of a thread. -/
def proceed (s : State) (id : Nat) (ffeAnswer : Answer) (request : Request) :
    Stage → Option State
  | .received =>
      let handler := server.getHandler s.mockedResponses request
      some (s.advance id request (.routed handler) [.routed id handler])
  | .routed handler =>
      if request.isControl then some (s.advance id request (.numbered handler none) [])
      else
        let ticket : Ticket :=
          ⟨s.messageCount, server.logFilename s.messageCount request.path⟩
        some { s.advance id request (.numbered handler (some ticket))
            (numberedEvents id (some ticket)) with messageCount := s.messageCount + 1 }
  | .numbered handler ticket =>
      let answer := respond request ffeAnswer handler
      some { s.advance id request (.handled handler ticket answer)
          (handledEvents id request handler answer) with
        mockedResponses := (installs request handler).getD s.mockedResponses }
  | .handled handler ticket answer =>
      some { s.advance id request (.written handler ticket answer)
          (wroteEvents id request ticket answer) with
        folder := s.folder.setAll (fileOf id request ticket answer).toList }
  | .written handler ticket answer =>
      some (s.advance id request (.published handler ticket answer)
        (publishedEvents id request ticket answer))
  | .published handler ticket answer =>
      some (s.advance id request (.sent handler ticket answer) [.sent id answer])
  | .sent _ _ _ => none

def step (s : State) : Action → Option State
  | .receive id request =>
      match s.threads id with
      | none => some (s.advance id request .received [.received id request])
      | some _ => none
  | .proceed id ffeAnswer =>
      match s.threads id with
      | none => none
      | some thread => proceed server s id ffeAnswer thread.request thread.stage

end Steps

end Model

namespace Event

def owner : Event → Nat
  | received id _ => id
  | routed id _ => id
  | numbered id _ => id
  | installed id _ => id
  | handled id _ => id
  | wrote id _ _ => id
  | published id _ => id
  | sent id _ => id

def number? : Event → Option Nat
  | numbered _ n => some n
  | _ => none

def installed? : Event → Option (List MockedBackendResponse)
  | installed _ mocks => some mocks
  | _ => none

def file? : Event → Option (Str × Record)
  | wrote _ logFilename record => some (logFilename, record)
  | _ => none

end Event

/-- The mocked responses in force after a trace: those that were installed last. -/
def inForce (trace : List Event) : List MockedBackendResponse :=
  ((trace.filterMap Event.installed?).getLast?).getD []

section Script

variable (id : Nat) (request : Request)

def numberedScript (handler : Handler) (ticket : Option Ticket) : List Event :=
  [Event.received id request, Event.routed id handler] ++ numberedEvents id ticket

def handledScript (handler : Handler) (ticket : Option Ticket) (answer : Answer) : List Event :=
  numberedScript id request handler ticket ++ handledEvents id request handler answer

def writtenScript (handler : Handler) (ticket : Option Ticket) (answer : Answer) : List Event :=
  handledScript id request handler ticket answer ++ wroteEvents id request ticket answer

def publishedScript (handler : Handler) (ticket : Option Ticket) (answer : Answer) : List Event :=
  writtenScript id request handler ticket answer ++ publishedEvents id request ticket answer

/-- What a thread has done when it is at a stage. -/
def script : Stage → List Event
  | .received => [.received id request]
  | .routed handler => [.received id request, .routed id handler]
  | .numbered handler ticket => numberedScript id request handler ticket
  | .handled handler ticket answer => handledScript id request handler ticket answer
  | .written handler ticket answer => writtenScript id request handler ticket answer
  | .published handler ticket answer => publishedScript id request handler ticket answer
  | .sent handler ticket answer =>
      publishedScript id request handler ticket answer ++ [.sent id answer]

end Script

/-- The handler, the ticket and the answer of a thread, as far as it has them. -/
def Stage.handler? : Stage → Option Handler
  | .received => none
  | .routed handler => some handler
  | .numbered handler _ => some handler
  | .handled handler _ _ => some handler
  | .written handler _ _ => some handler
  | .published handler _ _ => some handler
  | .sent handler _ _ => some handler

def Stage.ticket? : Stage → Option Ticket
  | .received => none
  | .routed _ => none
  | .numbered _ ticket => ticket
  | .handled _ ticket _ => ticket
  | .written _ ticket _ => ticket
  | .published _ ticket _ => ticket
  | .sent _ ticket _ => ticket

def Stage.answer? : Stage → Option Answer
  | .handled _ _ answer => some answer
  | .written _ _ answer => some answer
  | .published _ _ answer => some answer
  | .sent _ _ answer => some answer
  | _ => none

def Stage.hasWritten : Stage → Bool
  | .written _ _ _ => true
  | .published _ _ _ => true
  | .sent _ _ _ => true
  | _ => false

section MemScript

variable {id : Nat} {request : Request} {stage : Stage}

theorem not_wrote_mem_handledScript {handler : Handler} {ticket : Option Ticket} {answer : Answer}
    {i : Nat} {name : Str} {record : Record} :
    .wrote i name record ∉ handledScript id request handler ticket answer := by
  cases ticket <;> cases hinstalls : installs request handler <;>
    simp [handledScript, numberedScript, numberedEvents, handledEvents, hinstalls]

/-- Who has written a file has a ticket with its name. -/
theorem wrote_mem_script {i : Nat} {name : Str} {record : Record}
    (h : .wrote i name record ∈ script id request stage) :
    stage.hasWritten = true ∧ ∃ ticket answer, stage.answer? = some answer ∧
      fileOf id request stage.ticket? answer = some (name, record) ∧ stage.ticket? = some ticket ∧
      ticket.logFilename = some name := by
  have hfile : ∀ ticket answer, .wrote i name record ∈ wroteEvents id request ticket answer →
      fileOf id request ticket answer = some (name, record) := by
    intro ticket answer hmem
    obtain ⟨file, hfile, heq⟩ := List.mem_map.mp hmem
    obtain ⟨-, rfl, rfl⟩ := Event.wrote.inj heq
    exact Option.mem_toList.mp hfile
  have hticket : ∀ ticket answer, fileOf id request ticket answer = some (name, record) →
      ∃ t, ticket = some t ∧ t.logFilename = some name := by
    intro ticket answer hfile
    obtain ⟨t, rfl, ht⟩ := Option.bind_eq_some_iff.mp hfile
    obtain ⟨n, hn, heq⟩ := Option.map_eq_some_iff.mp ht
    exact ⟨t, rfl, hn.trans (congrArg some (Prod.mk.inj heq).1)⟩
  have hwritten : ∀ handler ticket answer,
      .wrote i name record ∈ writtenScript id request handler ticket answer →
      fileOf id request ticket answer = some (name, record) := by
    intro handler ticket answer hmem
    rcases List.mem_append.mp hmem with hmem | hmem
    · exact absurd hmem not_wrote_mem_handledScript
    · exact hfile ticket answer hmem
  have hpublished : ∀ handler ticket answer,
      .wrote i name record ∈ publishedScript id request handler ticket answer →
      fileOf id request ticket answer = some (name, record) := by
    intro handler ticket answer hmem
    rcases List.mem_append.mp hmem with hmem | hmem
    · exact hwritten handler ticket answer hmem
    · simp [publishedEvents] at hmem
  cases stage with
  | received => simp [script] at h
  | routed handler => simp [script] at h
  | numbered handler ticket =>
      exact absurd (List.mem_append_left _ h)
        (@not_wrote_mem_handledScript id request handler ticket ⟨.null, .null, .bytes []⟩ i name
          record)
  | handled handler ticket answer => exact absurd h not_wrote_mem_handledScript
  | written handler ticket answer =>
      have hf := hwritten handler ticket answer h
      obtain ⟨t, ht, hname⟩ := hticket ticket answer hf
      exact ⟨rfl, t, answer, rfl, hf, ht, hname⟩
  | published handler ticket answer =>
      have hf := hpublished handler ticket answer h
      obtain ⟨t, ht, hname⟩ := hticket ticket answer hf
      exact ⟨rfl, t, answer, rfl, hf, ht, hname⟩
  | sent handler ticket answer =>
      have hf : fileOf id request ticket answer = some (name, record) := by
        rcases List.mem_append.mp h with h | h
        · exact hpublished handler ticket answer h
        · simp at h
      obtain ⟨t, ht, hname⟩ := hticket ticket answer hf
      exact ⟨rfl, t, answer, rfl, hf, ht, hname⟩

theorem received_mem_handledScript {handler : Handler} {ticket : Option Ticket} {answer : Answer}
    {i : Nat} {request' : Request}
    (h : .received i request' ∈ handledScript id request handler ticket answer) :
    request = request' := by
  cases ticket <;> cases hinstalls : installs request handler <;>
    simp [handledScript, numberedScript, numberedEvents, handledEvents, hinstalls] at h <;>
    exact h.2.symm

theorem received_mem_publishedScript {handler : Handler} {ticket : Option Ticket}
    {answer : Answer} {i : Nat} {request' : Request}
    (h : .received i request' ∈ publishedScript id request handler ticket answer) :
    request = request' := by
  rcases List.mem_append.mp h with h | h
  · rcases List.mem_append.mp h with h | h
    · exact received_mem_handledScript h
    · simp [wroteEvents] at h
  · simp [publishedEvents] at h

/-- A thread is about the request that it received. -/
theorem received_mem_script {i : Nat} {request' : Request}
    (h : .received i request' ∈ script id request stage) : request = request' := by
  cases stage with
  | received => exact (Event.received.inj (List.mem_singleton.mp h)).2.symm
  | routed handler =>
      simp [script] at h
      exact h.2.symm
  | numbered handler ticket =>
      exact @received_mem_handledScript id request handler ticket ⟨.null, .null, .bytes []⟩ i
        request' (List.mem_append_left _ h)
  | handled handler ticket answer => exact received_mem_handledScript h
  | written handler ticket answer =>
      exact received_mem_publishedScript (List.mem_append_left _ h)
  | published handler ticket answer => exact received_mem_publishedScript h
  | sent handler ticket answer =>
      rcases List.mem_append.mp h with h | h
      · exact received_mem_publishedScript h
      · simp at h

theorem not_sent_mem_publishedScript {handler : Handler} {ticket : Option Ticket}
    {answer answer' : Answer} {i : Nat} :
    .sent i answer' ∉ publishedScript id request handler ticket answer := by
  cases ticket <;> cases hinstalls : installs request handler <;>
    simp [publishedScript, writtenScript, handledScript, numberedScript, numberedEvents,
      handledEvents, wroteEvents, publishedEvents, hinstalls]

/-- Who has sent an answer is at its end. -/
theorem sent_mem_script {i : Nat} {answer : Answer} (h : .sent i answer ∈ script id request stage) :
    ∃ handler ticket, stage = .sent handler ticket answer := by
  cases stage with
  | received => simp [script] at h
  | routed handler => simp [script] at h
  | numbered handler ticket =>
      exact absurd (List.mem_append_left _ (List.mem_append_left _ (List.mem_append_left _ h)))
        (@not_sent_mem_publishedScript id request handler ticket ⟨.null, .null, .bytes []⟩ answer i)
  | handled handler ticket answer' =>
      exact absurd (List.mem_append_left _ (List.mem_append_left _ h)) not_sent_mem_publishedScript
  | written handler ticket answer' =>
      exact absurd (List.mem_append_left _ h) not_sent_mem_publishedScript
  | published handler ticket answer' => exact absurd h not_sent_mem_publishedScript
  | sent handler ticket answer' =>
      rcases List.mem_append.mp h with h | h
      · exact absurd h not_sent_mem_publishedScript
      · exact ⟨handler, ticket, by rw [(Event.sent.inj (List.mem_singleton.mp h)).2]⟩

/-- Who has no ticket takes no number and writes no file. -/
theorem unrecorded_of_mem_script (hstage : stage.ticket? = none) {e : Event}
    (h : e ∈ script id request stage) : e.number? = none ∧ e.file? = none := by
  have hhandled : ∀ handler answer, e ∈ handledScript id request handler none answer →
      e.number? = none ∧ e.file? = none := by
    intro handler answer he
    cases hinstalls : installs request handler <;>
      simp [handledScript, numberedScript, numberedEvents, handledEvents, hinstalls] at he
    · rcases he with rfl | rfl | rfl <;> exact ⟨rfl, rfl⟩
    · rcases he with rfl | rfl | rfl | rfl <;> exact ⟨rfl, rfl⟩
  have hpublished : ∀ handler answer, e ∈ publishedScript id request handler none answer →
      e.number? = none ∧ e.file? = none := by
    intro handler answer he
    simp only [publishedScript, writtenScript, wroteEvents, publishedEvents, fileOf,
      Option.bind_none, Option.toList_none, List.map_nil, List.append_nil] at he
    exact hhandled handler answer he
  cases stage with
  | received =>
      rw [List.mem_singleton.mp h]
      exact ⟨rfl, rfl⟩
  | routed handler =>
      simp [script] at h
      rcases h with rfl | rfl <;> exact ⟨rfl, rfl⟩
  | numbered handler ticket =>
      obtain rfl : ticket = none := hstage
      exact hhandled handler ⟨.null, .null, .bytes []⟩ (List.mem_append_left _ h)
  | handled handler ticket answer =>
      obtain rfl : ticket = none := hstage
      exact hhandled handler answer h
  | written handler ticket answer =>
      obtain rfl : ticket = none := hstage
      exact hpublished handler answer (List.mem_append_left _ h)
  | published handler ticket answer =>
      obtain rfl : ticket = none := hstage
      exact hpublished handler answer h
  | sent handler ticket answer =>
      obtain rfl : ticket = none := hstage
      rcases List.mem_append.mp h with h | h
      · exact hpublished handler answer h
      · rw [List.mem_singleton.mp h]
        exact ⟨rfl, rfl⟩

/-- Who has a ticket has numbered it. -/
theorem numbered_mem_script {ticket : Ticket} (h : stage.ticket? = some ticket) :
    .numbered id ticket.number ∈ script id request stage := by
  have hmem : ∀ handler, .numbered id ticket.number ∈
      numberedScript id request handler (some ticket) := fun handler =>
    List.mem_append_right _ (List.mem_singleton_self _)
  cases stage <;> simp only [Stage.ticket?, reduceCtorEq] at h <;> subst h
  · exact hmem _
  · exact List.mem_append_left _ (hmem _)
  · exact List.mem_append_left _ (List.mem_append_left _ (hmem _))
  · exact List.mem_append_left _ (List.mem_append_left _ (List.mem_append_left _ (hmem _)))
  · exact List.mem_append_left _
      (List.mem_append_left _ (List.mem_append_left _ (List.mem_append_left _ (hmem _))))

end MemScript

namespace Server

variable {server : Server}

/-- Log files with other numbers have other names. -/
theorem number_of_logFilename {m n : Nat} {path path' name : Str}
    (h : server.logFilename m path = some name) (h' : server.logFilename n path' = some name) :
    m = n := by
  obtain ⟨folder, hfolder, hm⟩ := Option.map_eq_some_iff.mp h
  obtain ⟨folder', hfolder', hn⟩ := Option.map_eq_some_iff.mp h'
  obtain rfl : folder = folder' := Option.some.inj (hfolder.symm.trans hfolder')
  have hrest := (List.cons.inj (List.append_cancel_left (hm.trans hn.symm))).2
  have htake : ∀ k rest, (Numeral.padded 3 k ++ '_' :: rest).takeWhile (fun c => decide (c ≠ '_')) =
      Numeral.padded 3 k := by
    intro k rest
    have hdigits : ∀ c ∈ Numeral.padded 3 k, decide (c ≠ '_') = true := fun c hc =>
      decide_eq_true fun heq => Numeral.not_mem_of_digits
        (Numeral.isSome_digit_of_natOf (Numeral.natOf_padded 3 k)) (by decide) (heq ▸ hc)
    rw [List.takeWhile_append_of_pos hdigits]
    simp
  have hpadded := congrArg (List.takeWhile fun c => decide (c ≠ '_'))
    (show Numeral.padded 3 m ++ '_' :: _ = Numeral.padded 3 n ++ '_' :: _ from hrest)
  rw [htake, htake] at hpadded
  have hvalue := Numeral.natOf_padded 3 m
  rw [hpadded, Numeral.natOf_padded, Option.some.injEq] at hvalue
  exact hvalue.symm

end Server

section Invariant

variable (server : Server)

/-- A request has a ticket if it is no control request, and the ticket names its log file. -/
structure HasTicket (request : Request) (ticket : Option Ticket) : Prop where
  isSome : ticket.isSome = !request.isControl
  logFilename : ∀ t ∈ ticket, t.logFilename = server.logFilename t.number request.path

/-- What a thread knows at a stage. -/
def Knows (request : Request) : Stage → Prop
  | .received => True
  | .routed _ => True
  | .numbered _ ticket => HasTicket server request ticket
  | .handled handler ticket answer => HasTicket server request ticket ∧
      ∃ ffeAnswer, answer = respond request ffeAnswer handler
  | .written handler ticket answer => HasTicket server request ticket ∧
      ∃ ffeAnswer, answer = respond request ffeAnswer handler
  | .published handler ticket answer => HasTicket server request ticket ∧
      ∃ ffeAnswer, answer = respond request ffeAnswer handler
  | .sent handler ticket answer => HasTicket server request ticket ∧
      ∃ ffeAnswer, answer = respond request ffeAnswer handler

/-- What a thread did, in all. -/
def scriptOf (id : Nat) : Option Thread → List Event
  | none => []
  | some thread => script id thread.request thread.stage

/-- Each handler was chosen by the mocked responses that were in force. -/
def RoutesInForce (trace : List Event) : Prop :=
  ∀ front id handler back, trace = front ++ Event.routed id handler :: back →
    ∃ request, .received id request ∈ front ∧ handler = server.getHandler (inForce front) request

structure Inv (s : State) : Prop where
  scripts : ∀ id, eventsOf Event.owner id s.trace = scriptOf id (s.threads id)
  knows : ∀ id thread, s.threads id = some thread → Knows server thread.request thread.stage
  numbers : s.trace.filterMap Event.number? = List.range s.messageCount
  mocks : s.mockedResponses = inForce s.trace
  routes : RoutesInForce server s.trace
  files : s.folder.items = s.trace.filterMap Event.file?

variable {server}

theorem inv_new : Inv server State.new where
  scripts _ := rfl
  knows _ _ h := nomatch h
  numbers := rfl
  mocks := rfl
  routes front _ _ _ h := by simp [State.new] at h
  files := rfl

section Advance

variable {s : State} {id : Nat} {request : Request} {stage : Stage} {events : List Event}

/-- A thread that does what belongs to its script. -/
theorem scripts_advance (h : Inv server s) (howner : ∀ e ∈ events, e.owner = id)
    (hscript : script id request stage = scriptOf id (s.threads id) ++ events) (i : Nat) :
    eventsOf Event.owner i (s.trace ++ events) =
      scriptOf i (Function.update s.threads id (some ⟨request, stage⟩) i) := by
  by_cases hi : i = id
  · subst hi
    rw [Function.update_self, eventsOf_append_own howner, h.scripts]
    exact hscript.symm
  · rw [Function.update_of_ne hi, eventsOf_append_other howner hi, h.scripts]

theorem knows_advance (h : Inv server s) (hstage : Knows server request stage) {i : Nat}
    {thread : Thread} (hthread : Function.update s.threads id (some ⟨request, stage⟩) i =
      some thread) : Knows server thread.request thread.stage := by
  by_cases hi : i = id
  · subst hi
    rw [Function.update_self, Option.some.injEq] at hthread
    exact hthread ▸ hstage
  · rw [Function.update_of_ne hi] at hthread
    exact h.knows i thread hthread

theorem inForce_append (trace : List Event) (h : events.filterMap Event.installed? = []) :
    inForce (trace ++ events) = inForce trace := by
  rw [inForce, List.filterMap_append, h, List.append_nil, inForce]

/-- Steps that choose no handler. -/
theorem routes_append {trace : List Event} (h : RoutesInForce server trace)
    (hevents : ∀ i handler, .routed i handler ∉ events) :
    RoutesInForce server (trace ++ events) := by
  intro front i handler back heq
  rcases List.append_eq_append_iff.mp heq with ⟨rest, hfront, hrest⟩ | ⟨rest, hfront, hrest⟩
  · exact absurd (hrest ▸ List.mem_append_right _ (List.mem_cons_self ..)) (hevents i handler)
  · cases rest with
    | nil =>
        rw [List.nil_append] at hrest
        exact absurd (hrest ▸ List.mem_cons_self ..) (hevents i handler)
    | cons e rest =>
        rw [List.cons_append, List.cons.injEq] at hrest
        obtain ⟨rfl, -⟩ := hrest
        exact h front i handler rest hfront

end Advance

section Steps

variable {s : State} {id : Nat} {request : Request} {stage : Stage}

/-- A step that numbers nothing, writes no file, chooses no handler and installs nothing. -/
theorem Inv.advance (h : Inv server s) {events : List Event}
    (howner : ∀ e ∈ events, e.owner = id)
    (hscript : script id request stage = scriptOf id (s.threads id) ++ events)
    (hknows : Knows server request stage) (hnumber : events.filterMap Event.number? = [])
    (hinstalled : events.filterMap Event.installed? = [])
    (hfile : events.filterMap Event.file? = [])
    (hrouted : ∀ i handler, .routed i handler ∉ events) :
    Inv server (s.advance id request stage events) where
  scripts := scripts_advance h howner hscript
  knows _ _ := knows_advance h hknows
  numbers := by
    change (s.trace ++ events).filterMap _ = _
    rw [List.filterMap_append, h.numbers, hnumber]
    exact List.append_nil _
  mocks := h.mocks.trans (inForce_append s.trace hinstalled).symm
  routes := routes_append h.routes hrouted
  files := by
    change s.folder.items = (s.trace ++ events).filterMap _
    rw [List.filterMap_append, ← h.files, hfile, List.append_nil]

theorem Inv.receive (h : Inv server s) (hid : s.threads id = none) :
    Inv server (s.advance id request .received [.received id request]) := by
  refine h.advance ?_ ?_ trivial rfl rfl rfl ?_
  · simp [Event.owner]
  · rw [hid]
    rfl
  · simp

theorem Inv.route (h : Inv server s) (hid : s.threads id = some ⟨request, .received⟩) :
    Inv server (s.advance id request (.routed (server.getHandler s.mockedResponses request))
      [.routed id (server.getHandler s.mockedResponses request)]) where
  scripts := by
    refine scripts_advance h (by simp [Event.owner]) ?_
    rw [hid]
    rfl
  knows _ _ := knows_advance h (show Knows server request (.routed _) from trivial)
  numbers := by
    change (s.trace ++ [_]).filterMap _ = _
    rw [List.filterMap_append, h.numbers]
    exact List.append_nil _
  mocks := h.mocks.trans (inForce_append s.trace rfl).symm
  routes := by
    intro front i handler back heq
    rcases List.eq_nil_or_concat' back with rfl | ⟨back, e, rfl⟩
    · obtain ⟨hfront, hlast⟩ := List.append_inj' heq rfl
      obtain ⟨rfl, rfl⟩ := Event.routed.inj (List.singleton_inj.mp hlast)
      have hreceived : .received id request ∈ eventsOf Event.owner id s.trace := by
        rw [h.scripts, hid]
        exact List.mem_singleton_self _
      refine ⟨request, hfront ▸ (mem_eventsOf.mp hreceived).1, ?_⟩
      rw [← hfront, ← h.mocks]
    · rw [← List.cons_append, ← List.append_assoc] at heq
      exact h.routes front i handler back (List.append_inj' heq rfl).1
  files := by
    change s.folder.items = (s.trace ++ [_]).filterMap _
    rw [List.filterMap_append, ← h.files]
    exact (List.append_nil _).symm

theorem Inv.number (h : Inv server s) {handler : Handler}
    (hid : s.threads id = some ⟨request, .routed handler⟩) (hcontrol : request.isControl = false) :
    Inv server { s.advance id request
        (.numbered handler (some ⟨s.messageCount, server.logFilename s.messageCount request.path⟩))
        [.numbered id s.messageCount] with messageCount := s.messageCount + 1 } where
  scripts := by
    refine scripts_advance h (by simp [Event.owner]) ?_
    rw [hid]
    rfl
  knows _ _ := by
    refine knows_advance h (show Knows server request (.numbered _ _) from ⟨?_, ?_⟩)
    · rw [hcontrol]
      rfl
    · intro t ht
      obtain rfl := Option.some.inj ht
      rfl
  numbers := by
    change (s.trace ++ [_]).filterMap _ = _
    rw [List.filterMap_append, h.numbers, List.range_succ]
    rfl
  mocks := h.mocks.trans (inForce_append s.trace rfl).symm
  routes := routes_append h.routes (by simp)
  files := by
    change s.folder.items = (s.trace ++ [_]).filterMap _
    rw [List.filterMap_append, ← h.files]
    exact (List.append_nil _).symm

theorem Inv.handle (h : Inv server s) {handler : Handler} {ticket : Option Ticket}
    (hid : s.threads id = some ⟨request, .numbered handler ticket⟩) (ffeAnswer : Answer) :
    Inv server { s.advance id request
        (.handled handler ticket (respond request ffeAnswer handler))
        (handledEvents id request handler (respond request ffeAnswer handler)) with
      mockedResponses := (installs request handler).getD s.mockedResponses } where
  scripts := by
    refine scripts_advance h ?_ ?_
    · cases hinstalls : installs request handler <;> simp [handledEvents, hinstalls, Event.owner]
    · rw [hid]
      rfl
  knows _ _ := knows_advance h (show Knows server request (.handled _ _ _) from
    ⟨h.knows id _ hid, ffeAnswer, rfl⟩)
  numbers := by
    change (s.trace ++ handledEvents ..).filterMap _ = _
    rw [List.filterMap_append, h.numbers]
    cases hinstalls : installs request handler <;>
      simp [handledEvents, hinstalls, Event.number?, State.advance]
  mocks := by
    change (installs request handler).getD s.mockedResponses = inForce (s.trace ++ _)
    cases hinstalls : installs request handler with
    | none =>
        have hevents : (handledEvents id request handler
            (respond request ffeAnswer handler)).filterMap Event.installed? = [] := by
          rw [handledEvents, hinstalls]
          rfl
        rw [Option.getD_none, inForce_append s.trace hevents]
        exact h.mocks
    | some mocks =>
        have hevents : (handledEvents id request handler
            (respond request ffeAnswer handler)).filterMap Event.installed? = [mocks] := by
          rw [handledEvents, hinstalls]
          rfl
        rw [inForce, List.filterMap_append, hevents, List.getLast?_concat]
        rfl
  routes := by
    refine routes_append h.routes fun i handler' => ?_
    cases hinstalls : installs request handler <;> simp [handledEvents, hinstalls]
  files := by
    change s.folder.items = (s.trace ++ handledEvents ..).filterMap _
    rw [List.filterMap_append, ← h.files]
    cases hinstalls : installs request handler <;>
      simp [handledEvents, hinstalls, Event.file?]

theorem exists_thread (h : Inv server s) {i : Nat} {e : Event} (he : e ∈ s.trace)
    (howner : e.owner = i) : ∃ thread, s.threads i = some thread ∧
      e ∈ script i thread.request thread.stage := by
  have hmem : e ∈ scriptOf i (s.threads i) := by
    rw [← h.scripts i]
    exact mem_eventsOf.mpr ⟨he, howner⟩
  cases hthread : s.threads i with
  | none =>
      rw [hthread] at hmem
      cases hmem
  | some thread =>
      rw [hthread] at hmem
      exact ⟨thread, rfl, hmem⟩

/-- The ticket of a thread that has one. -/
theorem ticket_of_knows (h : Knows server request stage) {ticket : Ticket}
    (hticket : stage.ticket? = some ticket) :
    ticket.logFilename = server.logFilename ticket.number request.path := by
  cases stage with
  | received => cases hticket
  | routed => cases hticket
  | numbered handler t => exact h.logFilename ticket hticket
  | handled handler t answer => exact h.1.logFilename ticket hticket
  | written handler t answer => exact h.1.logFilename ticket hticket
  | published handler t answer => exact h.1.logFilename ticket hticket
  | sent handler t answer => exact h.1.logFilename ticket hticket

/-- A control request has no ticket. -/
theorem ticket_of_control (h : Knows server request stage) (hcontrol : request.isControl = true) :
    stage.ticket? = none := by
  have hnone : ∀ {ticket}, HasTicket server request ticket → ticket = none := by
    intro ticket hticket
    rw [← Option.not_isSome_iff_eq_none, hticket.isSome, hcontrol]
    exact Bool.false_ne_true
  cases stage with
  | received => rfl
  | routed => rfl
  | numbered handler t => exact hnone h
  | handled handler t answer => exact hnone h.1
  | written handler t answer => exact hnone h.1
  | published handler t answer => exact hnone h.1
  | sent handler t answer => exact hnone h.1

/-- Two threads whose tickets have one number are the same. -/
theorem Inv.eq_of_number (h : Inv server s) {i j : Nat} {thread thread' : Thread}
    (hi : s.threads i = some thread) (hj : s.threads j = some thread') {ticket ticket' : Ticket}
    (hticket : thread.stage.ticket? = some ticket) (hticket' : thread'.stage.ticket? = some ticket')
    (hnumber : ticket.number = ticket'.number) : i = j := by
  have hmem : ∀ {k : Nat} {t : Thread} {τ : Ticket}, s.threads k = some t →
      t.stage.ticket? = some τ → Event.numbered k τ.number ∈ s.trace := by
    intro k t τ hk hτ
    have hscript : Event.numbered k τ.number ∈ scriptOf k (s.threads k) := by
      rw [hk]
      exact numbered_mem_script hτ
    rw [← h.scripts k] at hscript
    exact (mem_eventsOf.mp hscript).1
  have hnodup : (s.trace.filterMap Event.number?).Nodup := by
    rw [h.numbers]
    exact List.nodup_range
  have heq := eq_of_nodup_filterMap hnodup (hmem hi hticket) (hmem hj hticket') rfl
    (congrArg some hnumber.symm)
  exact (Event.numbered.inj heq).1

/-- A file has the name of the ticket of the thread that wrote it. -/
theorem Inv.exists_writer (h : Inv server s) {name : Str} {record : Record}
    (hfile : (name, record) ∈ s.folder.items) : ∃ i thread ticket answer,
      s.threads i = some thread ∧ .wrote i name record ∈ s.trace ∧
      thread.stage.hasWritten = true ∧ thread.stage.ticket? = some ticket ∧
      thread.stage.answer? = some answer ∧ server.logFilename ticket.number thread.request.path = some name ∧
      record = newRecord i thread.request ticket answer := by
  rw [h.files] at hfile
  obtain ⟨e, he, hfile⟩ := List.mem_filterMap.mp hfile
  cases e with
  | wrote i name' record' =>
      obtain ⟨rfl, rfl⟩ := Prod.mk.inj (Option.some.inj hfile)
      obtain ⟨thread, hthread, hmem⟩ := exists_thread h he rfl
      obtain ⟨hwritten, ticket, answer, hanswer, hfileOf, hticket, hname⟩ := wrote_mem_script hmem
      refine ⟨i, thread, ticket, answer, hthread, he, hwritten, hticket, hanswer, ?_, ?_⟩
      · rw [← ticket_of_knows (h.knows i thread hthread) hticket, hname]
      · rw [hticket] at hfileOf
        obtain ⟨n, -, heq⟩ := Option.map_eq_some_iff.mp hfileOf
        exact (Prod.mk.inj heq).2.symm
  | _ => cases hfile

theorem Inv.write (h : Inv server s) {handler : Handler} {ticket : Option Ticket}
    {answer : Answer} (hid : s.threads id = some ⟨request, .handled handler ticket answer⟩) :
    Inv server { s.advance id request (.written handler ticket answer)
        (wroteEvents id request ticket answer) with
      folder := s.folder.setAll (fileOf id request ticket answer).toList } where
  scripts := by
    refine scripts_advance h ?_ ?_
    · intro e he
      obtain ⟨file, -, rfl⟩ := List.mem_map.mp he
      rfl
    · rw [hid]
      rfl
  knows _ _ := knows_advance h (show Knows server request (.written _ _ _) from h.knows id _ hid)
  numbers := by
    change (s.trace ++ wroteEvents ..).filterMap _ = _
    rw [List.filterMap_append, h.numbers]
    cases hfile : fileOf id request ticket answer <;>
      simp [wroteEvents, hfile, Event.number?, State.advance]
  mocks := by
    refine h.mocks.trans (inForce_append s.trace ?_).symm
    cases hfile : fileOf id request ticket answer <;>
      simp [wroteEvents, hfile, Event.installed?]
  routes := by
    refine routes_append h.routes fun i handler' => ?_
    cases hfile : fileOf id request ticket answer <;> simp [wroteEvents, hfile]
  files := by
    change (s.folder.setAll _).items = (s.trace ++ wroteEvents ..).filterMap _
    rw [List.filterMap_append, ← h.files]
    cases hfile : fileOf id request ticket answer with
    | none =>
        rw [wroteEvents, hfile]
        exact (List.append_nil _).symm
    | some file =>
        -- A file of this name would be of a thread with the same number, so of this one.
        have hnew : file.1 ∉ s.folder.keys := by
          intro hkey
          obtain ⟨⟨name, record⟩, hitem, hname⟩ := List.mem_map.mp hkey
          obtain ⟨i, thread, t', answer', hthread, -, hwritten, hticket', -, hfilename, -⟩ :=
            h.exists_writer hitem
          obtain ⟨t, rfl, ht⟩ := Option.bind_eq_some_iff.mp hfile
          obtain ⟨name', hlog, rfl⟩ := Option.map_eq_some_iff.mp ht
          have hlog' : t.logFilename = server.logFilename t.number request.path :=
            ticket_of_knows (h.knows id _ hid) rfl
          rw [hlog] at hlog'
          have hnumber : t'.number = t.number :=
            Server.number_of_logFilename hfilename (hlog'.symm.trans (congrArg some hname.symm))
          obtain rfl : i = id := h.eq_of_number hthread hid hticket' rfl hnumber
          rw [hid, Option.some.injEq] at hthread
          rw [← hthread] at hwritten
          cases hwritten
        rw [wroteEvents, hfile]
        change (s.folder.set file.1 file.2).items = s.folder.items ++ [file]
        rw [Dict.items_set_of_not_mem s.folder file.2 hnew]

theorem Inv.publish (h : Inv server s) {handler : Handler} {ticket : Option Ticket}
    {answer : Answer} (hid : s.threads id = some ⟨request, .written handler ticket answer⟩) :
    Inv server (s.advance id request (.published handler ticket answer)
      (publishedEvents id request ticket answer)) := by
  refine h.advance ?_ ?_ (h.knows id _ hid) ?_ ?_ ?_ ?_
  · intro e he
    obtain ⟨t, -, rfl⟩ := List.mem_map.mp he
    rfl
  · rw [hid]
    rfl
  · cases ticket <;> rfl
  · cases ticket <;> rfl
  · cases ticket <;> rfl
  · cases ticket <;> simp [publishedEvents]

theorem Inv.send (h : Inv server s) {handler : Handler} {ticket : Option Ticket}
    {answer : Answer} (hid : s.threads id = some ⟨request, .published handler ticket answer⟩) :
    Inv server (s.advance id request (.sent handler ticket answer) [.sent id answer]) := by
  refine h.advance ?_ ?_ (h.knows id _ hid) rfl rfl rfl ?_
  · simp [Event.owner]
  · rw [hid]
    rfl
  · simp

theorem inv_proceed (h : Inv server s) (hid : s.threads id = some ⟨request, stage⟩)
    {ffeAnswer : Answer} {s' : State}
    (hstep : proceed server s id ffeAnswer request stage = some s') : Inv server s' := by
  cases stage with
  | received =>
      obtain rfl := Option.some.inj hstep
      exact h.route hid
  | routed handler =>
      cases hcontrol : request.isControl with
      | true =>
          rw [proceed, if_pos hcontrol, Option.some.injEq] at hstep
          subst hstep
          refine h.advance (by simp) ?_ ⟨?_, nofun⟩ rfl rfl rfl (by simp)
          · rw [hid]
            exact (List.append_nil _).symm
          · rw [hcontrol]
            rfl
      | false =>
          rw [proceed, if_neg (by simp [hcontrol]), Option.some.injEq] at hstep
          subst hstep
          exact h.number hid hcontrol
  | numbered handler ticket =>
      obtain rfl := Option.some.inj hstep
      exact h.handle hid ffeAnswer
  | handled handler ticket answer =>
      obtain rfl := Option.some.inj hstep
      exact h.write hid
  | written handler ticket answer =>
      obtain rfl := Option.some.inj hstep
      exact h.publish hid
  | published handler ticket answer =>
      obtain rfl := Option.some.inj hstep
      exact h.send hid
  | sent handler ticket answer => cases hstep

theorem inv_step (h : Inv server s) {action : Action} {s' : State}
    (hstep : step server s action = some s') : Inv server s' := by
  cases action with
  | receive id request =>
      cases hid : s.threads id with
      | none =>
          rw [step, hid, Option.some.injEq] at hstep
          subst hstep
          exact h.receive hid
      | some thread =>
          rw [step, hid] at hstep
          cases hstep
  | proceed id ffeAnswer =>
      cases hid : s.threads id with
      | none =>
          rw [step, hid] at hstep
          cases hstep
      | some thread =>
          rw [step, hid] at hstep
          exact inv_proceed h hid hstep

theorem inv_run {actions : List Action} {s : State}
    (hrun : run (step server) State.new actions = some s) : Inv server s :=
  run_keeps (fun _ _ _ hs hstep => inv_step hs hstep) inv_new hrun

end Steps

end Invariant

section Answered

variable {server : Server} {s : State}

/-- The thread of a request that has its answer. -/
theorem Inv.exists_sent (h : Inv server s) {id : Nat} {request : Request} {answer : Answer}
    (hreceived : .received id request ∈ s.trace) (hsent : .sent id answer ∈ s.trace) :
    ∃ handler ticket ffeAnswer, s.threads id = some ⟨request, .sent handler ticket answer⟩ ∧
      HasTicket server request ticket ∧ answer = respond request ffeAnswer handler := by
  obtain ⟨thread, hthread, hmem⟩ := exists_thread h hsent rfl
  obtain ⟨thread', hthread', hmem'⟩ := exists_thread h hreceived rfl
  obtain rfl : thread = thread' := Option.some.inj (hthread.symm.trans hthread')
  obtain ⟨handler, ticket, hstage⟩ := sent_mem_script hmem
  obtain rfl := received_mem_script hmem'
  obtain ⟨request, stage⟩ := thread
  subst hstage
  obtain ⟨hticket, ffeAnswer, hanswer⟩ := h.knows id _ hthread
  exact ⟨handler, ticket, ffeAnswer, hthread, hticket, hanswer⟩

/-- What a data request that has its answer has done, with its number and its log file. -/
def recordedScript (id n : Nat) (name : Str) (request : Request) (handler : Handler)
    (answer : Answer) : List Event :=
  [Event.received id request, Event.routed id handler, Event.numbered id n] ++
    handledEvents id request handler answer ++
    [Event.wrote id name ⟨id, some name, request, answer⟩,
      Event.published id ⟨id, some name, request, answer⟩, Event.sent id answer]

/-- Requests that are recorded, once each, and requests that are not. -/
structure RecordedOnce (server : Server) (s : State) : Prop where
  numbers : s.trace.filterMap Event.number? = List.range s.messageCount
  data : ∀ id request answer, .received id request ∈ s.trace → .sent id answer ∈ s.trace →
    request.isControl = false → ∃ handler n name, n < s.messageCount ∧
      server.logFilename n request.path = some name ∧
      eventsOf Event.owner id s.trace = recordedScript id n name request handler answer ∧
      ∀ file record, s.folder.get? file = some record → (file = name ↔ record.thread = id) ∧
        (file = name → record = ⟨id, some name, request, answer⟩)
  stored : ∀ id name record, .wrote id name record ∈ s.trace → s.folder.get? name = some record
  control : ∀ id request, .received id request ∈ s.trace → request.isControl = true →
    ∀ e ∈ eventsOf Event.owner id s.trace, e.number? = none ∧ e.file? = none

/-- **Every answered request is recorded once, before its answer.**  No other thread takes its
number, and no other thread writes its file. -/
theorem answered_recorded {actions : List Action} {folder : Str}
    (hfolder : server.logFolder = some folder)
    (hrun : run (step server) State.new actions = some s) : RecordedOnce server s where
  numbers := (inv_run hrun).numbers
  stored id name record hwrote := by
    have h := inv_run hrun
    rw [← Dict.mem_items_iff, h.files]
    exact List.mem_filterMap.mpr ⟨_, hwrote, rfl⟩
  data id request answer hreceived hsent hdata := by
    have h := inv_run hrun
    obtain ⟨handler, ticket, -, hthread, hticket, -⟩ := h.exists_sent hreceived hsent
    obtain ⟨t, rfl⟩ : ∃ t, ticket = some t := by
      rw [← Option.isSome_iff_exists, hticket.isSome, hdata]
      rfl
    have hlog := hticket.logFilename t rfl
    obtain ⟨name, hname⟩ : ∃ name, server.logFilename t.number request.path = some name := by
      rw [Server.logFilename, hfolder]
      exact ⟨_, rfl⟩
    rw [hname] at hlog
    obtain ⟨n, filename⟩ := t
    obtain rfl : filename = some name := hlog
    have hscript : eventsOf Event.owner id s.trace =
        recordedScript id n name request handler answer := by
      rw [h.scripts, hthread]
      simp [scriptOf, script, publishedScript, writtenScript, handledScript, numberedScript,
        numberedEvents, wroteEvents, publishedEvents, fileOf, newRecord, recordedScript]
    have hwrote : .wrote id name ⟨id, some name, request, answer⟩ ∈ s.trace := by
      have hmem : .wrote id name ⟨id, some name, request, answer⟩ ∈
          eventsOf Event.owner id s.trace := by
        rw [hscript]
        simp [recordedScript]
      exact (mem_eventsOf.mp hmem).1
    have hnumber : n ∈ s.trace.filterMap Event.number? := by
      have hmem : .numbered id n ∈ eventsOf Event.owner id s.trace := by
        rw [hscript]
        simp [recordedScript]
      exact List.mem_filterMap.mpr ⟨_, (mem_eventsOf.mp hmem).1, rfl⟩
    rw [h.numbers, List.mem_range] at hnumber
    have hstored : s.folder.get? name = some ⟨id, some name, request, answer⟩ := by
      rw [← Dict.mem_items_iff, h.files]
      exact List.mem_filterMap.mpr ⟨_, hwrote, rfl⟩
    refine ⟨handler, n, name, hnumber, hname, hscript, fun file record hrecord => ⟨?_, ?_⟩⟩
    · constructor
      · rintro rfl
        rw [hstored, Option.some.injEq] at hrecord
        rw [← hrecord]
      · -- The thread of a record wrote its file, and a thread writes one file.
        intro hid
        obtain ⟨i, thread, t, _, hi, -, -, ht, -, hfile, hnew⟩ :=
          h.exists_writer ((Dict.mem_items_iff ..).mpr hrecord)
        obtain rfl : i = id := (congrArg Record.thread hnew).symm.trans hid
        rw [hthread, Option.some.injEq] at hi
        subst hi
        obtain rfl : (⟨n, some name⟩ : Ticket) = t := Option.some.inj ht
        exact Option.some.inj (hfile.symm.trans hname)
    · rintro rfl
      exact Option.some.inj (hrecord.symm.trans hstored)
  control id request hreceived hcontrol := by
    have h := inv_run hrun
    obtain ⟨thread, hthread, hmem⟩ := exists_thread h hreceived rfl
    obtain rfl := received_mem_script hmem
    change s.threads id = some thread at hthread
    intro e he
    rw [h.scripts, hthread] at he
    exact unrecorded_of_mem_script (ticket_of_control (h.knows id thread hthread) hcontrol) he

def exampleServer : Server := ⟨some "logs", [], initialRoutes ⟨[], [], []⟩⟩

def exampleMock : MockedBackendResponse := ⟨text "/a", [], text "text/plain", int 503⟩

def examplePut : Request where
  method := .put
  path := "/system-tests/mocked-responses"
  query := []
  payload := some (.object [(Json.codePoints "responses", .array [exampleMock.toJson])])

def exampleGet : Request := ⟨.get, "/a", [], none⟩

/-- A request that comes before the mocked responses are replaced, and is routed after. -/
def exampleActions : List Action :=
  let next := fun id => Action.proceed id (writeJson 200 (fields []))
  [.receive 0 examplePut, .receive 1 exampleGet, next 0, next 0, next 0, next 1, next 0, next 1,
    next 0, next 1, next 1, next 0, next 1, next 1]

theorem exists_exampleRun : ∃ s, run (step exampleServer) State.new exampleActions = some s :=
  Option.isSome_iff_exists.mp rfl

theorem answered_recorded_example : ∃ s,
    run (step exampleServer) State.new exampleActions = some s ∧ RecordedOnce exampleServer s :=
  let ⟨s, hs⟩ := exists_exampleRun
  ⟨s, hs, answered_recorded rfl hs⟩

/-- A request for the mocked responses to be replaced. -/
def Request.replacesMocks (request : Request) : Prop :=
  request.method = .put ∧ request.path = "/system-tests/mocked-responses"

/-- The mocked responses are read and replaced at single moments between the coming of a
request and its answer; what is refused replaces nothing. -/
structure Linearizable (server : Server) (trace : List Event) : Prop where
  reads : ∀ id request answer, .received id request ∈ trace → .sent id answer ∈ trace →
    ∃ front middle back handler ffeAnswer,
      trace = front ++ Event.received id request :: (middle ++ Event.routed id handler :: back) ∧
      Event.sent id answer ∈ back ∧
      handler =
        server.getHandler (inForce (front ++ Event.received id request :: middle)) request ∧
      answer = respond request ffeAnswer handler
  replaces : ∀ id request answer mocks, .received id request ∈ trace → .sent id answer ∈ trace →
    request.replacesMocks → readMocks request.payload = .ok mocks →
    answer = writeJson 200 (fields []) ∧ ∃ front middle back,
      trace = front ++ Event.received id request :: (middle ++ Event.installed id mocks :: back) ∧
      Event.sent id answer ∈ back
  refuses : ∀ id request answer e, .received id request ∈ trace → .sent id answer ∈ trace →
    request.replacesMocks → readMocks request.payload = .error e →
    answer = writeJson 400 (fields [("error", text (errorText e))]) ∧
      ∀ mocks, .installed id mocks ∉ trace

/-- The route of the requests that replace the mocked responses. -/
def Server.HasMocksRoute (server : Server) : Prop :=
  server.routes.get? (.put, "/system-tests/mocked-responses") = some .mockedResponses

theorem getHandler_replacesMocks (hroute : server.HasMocksRoute) {request : Request}
    (h : request.replacesMocks) (mockedResponses : List MockedBackendResponse) :
    server.getHandler mockedResponses request = .mockedResponses := by
  obtain ⟨hmethod, hpath⟩ := h
  have hcontrol : controlUrlPrefix <+: request.fullPath := by
    have hprefix : controlUrlPrefix <+: request.path := by
      rw [hpath]
      decide
    unfold Request.fullPath
    split_ifs
    · exact hprefix
    · exact hprefix.trans (List.prefix_append ..)
  rw [Server.getHandler, Server.getMockedResponseHandler, if_pos hcontrol, Option.getD_none,
    hmethod, hpath, hroute]
  rfl

theorem Inv.request_unique (h : Inv server s) {id : Nat} {request request' : Request}
    (hreceived : .received id request ∈ s.trace) (hreceived' : .received id request' ∈ s.trace) :
    request = request' := by
  obtain ⟨thread, hthread, hmem⟩ := exists_thread h hreceived rfl
  obtain ⟨thread', hthread', hmem'⟩ := exists_thread h hreceived' rfl
  obtain rfl : thread = thread' := Option.some.inj (hthread.symm.trans hthread')
  exact (received_mem_script hmem).symm.trans (received_mem_script hmem')

/-- What a thread at its end did after it had chosen its handler. -/
def afterRouted (id : Nat) (request : Request) (handler : Handler) (ticket : Option Ticket)
    (answer : Answer) : List Event :=
  numberedEvents id ticket ++ (handledEvents id request handler answer ++
    (wroteEvents id request ticket answer ++ (publishedEvents id request ticket answer ++
      [Event.sent id answer])))

theorem Inv.events_of_sent (h : Inv server s) {id : Nat} {request : Request} {handler : Handler}
    {ticket : Option Ticket} {answer : Answer}
    (hthread : s.threads id = some ⟨request, .sent handler ticket answer⟩) :
    eventsOf Event.owner id s.trace = .received id request :: .routed id handler ::
      afterRouted id request handler ticket answer := by
  rw [h.scripts, hthread]
  simp [scriptOf, script, publishedScript, writtenScript, handledScript, numberedScript,
    afterRouted]

/-- A thread at its end routed its request first. -/
theorem Inv.handler_of_sent (h : Inv server s) (hroute : server.HasMocksRoute) {id : Nat}
    {request : Request} {handler : Handler} {ticket : Option Ticket} {answer : Answer}
    (hthread : s.threads id = some ⟨request, .sent handler ticket answer⟩)
    (hreplaces : request.replacesMocks) : handler = .mockedResponses := by
  have hevents : eventsOf Event.owner id s.trace =
      [Event.received id request] ++ .routed id handler ::
        afterRouted id request handler ticket answer := h.events_of_sent hthread
  obtain ⟨front, back, htrace, hfront, -⟩ := exists_split hevents
  obtain ⟨request', hreceived', rfl⟩ := h.routes front id handler back htrace
  have hmem : .received id request ∈ eventsOf Event.owner id front := by
    rw [hfront]
    exact List.mem_singleton_self _
  obtain rfl : request' = request := h.request_unique
    (htrace ▸ List.mem_append_left _ hreceived')
    (htrace ▸ List.mem_append_left _ (mem_eventsOf.mp hmem).1)
  exact getHandler_replacesMocks hroute hreplaces _

/-- **The mocked responses are a linearizable register.** -/
theorem answered_inForce {actions : List Action} (hroute : server.HasMocksRoute)
    (hrun : run (step server) State.new actions = some s) : Linearizable server s.trace := by
  have h := inv_run hrun
  refine ⟨?_, ?_, ?_⟩
  · intro id request answer hreceived hsent
    obtain ⟨handler, ticket, ffeAnswer, hthread, -, hanswer⟩ := h.exists_sent hreceived hsent
    have hevents : eventsOf Event.owner id s.trace = [] ++ Event.received id request ::
        ([] ++ .routed id handler :: afterRouted id request handler ticket answer) :=
      h.events_of_sent hthread
    obtain ⟨front, middle, back, htrace, -, -, hback⟩ := exists_split_two hevents
    have hroutes : s.trace = (front ++ .received id request :: middle) ++ .routed id handler :: back := by
      rw [htrace, List.append_assoc, List.cons_append]
    obtain ⟨request', hreceived', hhandler⟩ := h.routes _ id handler back hroutes
    obtain rfl : request' = request :=
      h.request_unique (hroutes ▸ List.mem_append_left _ hreceived') hreceived
    refine ⟨front, middle, back, handler, ffeAnswer, htrace, ?_, hhandler, hanswer⟩
    have hlast : .sent id answer ∈ eventsOf Event.owner id back := by
      rw [hback]
      simp [afterRouted]
    exact (mem_eventsOf.mp hlast).1
  · intro id request answer mocks hreceived hsent hreplaces hmocks
    obtain ⟨handler, ticket, ffeAnswer, hthread, -, hanswer⟩ := h.exists_sent hreceived hsent
    obtain rfl := h.handler_of_sent hroute hthread hreplaces
    have hinstalls : installs request .mockedResponses = some mocks := by
      rw [installs, hmocks]
      rfl
    have hevents : eventsOf Event.owner id s.trace = [] ++ Event.received id request ::
        ((.routed id .mockedResponses :: numberedEvents id ticket) ++ Event.installed id mocks ::
          (Event.handled id answer :: (wroteEvents id request ticket answer ++
            (publishedEvents id request ticket answer ++ [Event.sent id answer])))) := by
      rw [h.events_of_sent hthread, afterRouted, handledEvents, hinstalls]
      rfl
    obtain ⟨front, middle, back, htrace, -, -, hback⟩ := exists_split_two hevents
    refine ⟨by rw [hanswer, respond, hmocks], front, middle, back, htrace, ?_⟩
    have hlast : .sent id answer ∈ eventsOf Event.owner id back := by
      rw [hback]
      simp
    exact (mem_eventsOf.mp hlast).1
  · intro id request answer e hreceived hsent hreplaces hmocks
    obtain ⟨handler, ticket, ffeAnswer, hthread, -, hanswer⟩ := h.exists_sent hreceived hsent
    obtain rfl := h.handler_of_sent hroute hthread hreplaces
    refine ⟨by rw [hanswer, respond, hmocks], fun mocks hinstalled => ?_⟩
    have hinstalls : installs request .mockedResponses = none := by
      rw [installs, hmocks]
      rfl
    have hmem : .installed id mocks ∈ eventsOf Event.owner id s.trace :=
      mem_eventsOf.mpr ⟨hinstalled, rfl⟩
    rw [h.events_of_sent hthread, afterRouted, handledEvents, hinstalls] at hmem
    simp [numberedEvents, wroteEvents, publishedEvents] at hmem

theorem answered_inForce_example : ∃ s,
    run (step exampleServer) State.new exampleActions = some s ∧
      Linearizable exampleServer s.trace :=
  let ⟨s, hs⟩ := exists_exampleRun
  ⟨s, hs, answered_inForce rfl hs⟩

end Answered

end Serving
end MockedBackend
end SystemTests
