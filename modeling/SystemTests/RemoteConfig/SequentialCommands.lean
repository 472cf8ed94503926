import SystemTests.RemoteConfig.SendState

/-!
# Sequences of remote config commands

The proxy answers the polls of every runtime with one command after the other
(`SequentialRemoteConfigJsonMockedTracerResponse`, `utils/proxy/mocked_response.py`);
`send_sequential_commands` (`utils/_remote_config.py`) reads the recorded flows
and waits until the whole sequence was received.

The flows are read in the order in which the proxy records them.  Those recorded
before the sequence was sent may hold the header of an earlier sequence.

**Results.**
* `respondAll_eq_ok`: which command answers a poll.
* `waitFor_of_split`, `split_of_waitFor`: the flow that ends the wait.
* `sequentialCommands_iff`: when the wait ends for the right reason.
-/

namespace SystemTests
namespace RemoteConfig

open Foundation Foundation.Text

/-- `datadog/<org_id>/<PRODUCT>/<config_id>/<name>` or `employee/<PRODUCT>/<config_id>/<name>` -/
structure ConfigPath where
  path : Str
  three_parts : 3 ≤ (split "/" path).length
deriving DecidableEq

/-- `parts[-3]` -/
def ConfigPath.product (p : ConfigPath) : Str :=
  (split "/" p.path).get ⟨(split "/" p.path).length - 3, by
    have := p.three_parts
    omega⟩

structure TargetFile where
  path : Str
  raw : Str
deriving DecidableEq

/-- A command; a member that is missing or no list is `none`. -/
structure Command where
  targets : Str
  targetFiles : Option (List TargetFile)
  clientConfigs : Option (List ConfigPath)
deriving DecidableEq

/-- A request to the agent; `products` are the products of its client, if it has a list of them. -/
structure Request where
  path : Str
  runtimeId : Str
  products : Option (List Str)
deriving DecidableEq

/-- What the proxy records of a flow: the command that replaced the response, and the
header `st-proxy-overwrite-rc-response`. -/
structure Flow where
  request : Request
  response : Option Command
  overwriteRcResponse : Option Nat
deriving DecidableEq

section Mock

/-- `_gate_rc_response_by_products` -/
def gateRcResponseByProducts (response : Command) (request : Request) : Command :=
  match response.clientConfigs, request.products with
  | some clientConfigs, some products =>
      let kept := clientConfigs.filter fun path => path.product ∈ products
      if kept = clientConfigs then response
      else { response with
        clientConfigs := some kept
        targetFiles := response.targetFiles.map fun targetFiles =>
          targetFiles.filter fun tf => tf.path ∈ kept.map ConfigPath.path }
  | _, _ => response

/-- `execute`; `counts` has the default 0, which a lookup stores. -/
def execute (commands : List Command) (counts : Dict Str Nat) (request : Request) :
    Except Raised (Flow × Dict Str Nat) := do
  let nthApiCommand := (counts.get? request.runtimeId).getD 0
  let counts := counts.set request.runtimeId nthApiCommand
  let command ← Raised.ofOption (.indexError "list index out of range") commands[nthApiCommand]?
  let response := gateRcResponseByProducts command request
  let counts := if nthApiCommand + 1 < commands.length then
    counts.set request.runtimeId (nthApiCommand + 1) else counts
  return (⟨request, some response, some nthApiCommand⟩, counts)

/-- The proxy applies the mock to the requests of its path. -/
def respond (commands : List Command) (counts : Dict Str Nat) (request : Request) :
    Except Raised (Flow × Dict Str Nat) :=
  if request.path = configPath then execute commands counts request
  else return (⟨request, none, none⟩, counts)

def respondAll (commands : List Command) :
    Dict Str Nat → List Request → Except Raised (List Flow)
  | _, [] => return []
  | counts, request :: requests => do
      let (flow, counts) ← respond commands counts request
      let flows ← respondAll commands counts requests
      return flow :: flows

end Mock

section Waiter

/-- `all_payload_sent` -/
def allPayloadSent (n : Nat) (countsByRuntimeId : Dict Str Nat) (data : Flow) :
    Bool × Dict Str Nat :=
  if data.request.path ≠ configPath then (false, countsByRuntimeId)
  else if countsByRuntimeId.values.any fun count => n ≤ count then (true, countsByRuntimeId)
  else
    let counts := if data.request.runtimeId ∈ countsByRuntimeId.keys then countsByRuntimeId
      else countsByRuntimeId.set data.request.runtimeId 0
    match data.overwriteRcResponse with
    | some value => (false, counts.set data.request.runtimeId (value + 1))
    | none => (false, counts)

/-- The wait of `send_sequential_commands`, on what is recorded before it times out. -/
def sendSequentialCommands (commands : List Command) (recorded : List Flow) :
    Except Raised Bool :=
  if commands.length = 0 then throw (.valueError "No commands to send")
  else return (waitFor (allPayloadSent commands.length) .empty recorded).1

end Waiter

section Answers

/-- How often a runtime has polled. -/
def pollCount (runtimeId : Str) (requests : List Request) : Nat :=
  requests.countP fun request => request.path = configPath ∧ request.runtimeId = runtimeId

/-- The flow of a request, when `done` are the requests before it. -/
def answered (commands : List Command) (done : List Request) (request : Request) : Flow :=
  if request.path = configPath then
    ⟨request, commands[min (pollCount request.runtimeId done) (commands.length - 1)]?.map
      fun command => gateRcResponseByProducts command request,
      some (min (pollCount request.runtimeId done) (commands.length - 1))⟩
  else ⟨request, none, none⟩

def answeredAll (commands : List Command) : List Request → List Request → List Flow
  | _, [] => []
  | done, request :: requests =>
      answered commands done request :: answeredAll commands (done ++ [request]) requests

variable {commands : List Command}

@[simp] theorem pollCount_append (runtimeId : Str) (xs ys : List Request) :
    pollCount runtimeId (xs ++ ys) = pollCount runtimeId xs + pollCount runtimeId ys :=
  List.countP_append

theorem pollCount_singleton (runtimeId : Str) (request : Request) :
    pollCount runtimeId [request] =
      if request.path = configPath ∧ request.runtimeId = runtimeId then 1 else 0 := by
  simp [pollCount, List.countP_singleton]

/-- The counts of the mock, after some requests. -/
def Counts (commands : List Command) (done : List Request) (counts : Dict Str Nat) : Prop :=
  ∀ runtimeId, (counts.get? runtimeId).getD 0 = min (pollCount runtimeId done) (commands.length - 1)

theorem respond_eq_ok (hne : commands ≠ []) {done : List Request} {counts : Dict Str Nat}
    (h : Counts commands done counts) (request : Request) :
    ∃ counts', respond commands counts request = .ok (answered commands done request, counts') ∧
      Counts commands (done ++ [request]) counts' := by
  have hlength : 0 < commands.length := List.length_pos_of_ne_nil hne
  by_cases hpath : request.path = configPath
  · obtain ⟨command, hcommand⟩ : ∃ command,
        commands[min (pollCount request.runtimeId done) (commands.length - 1)]? = some command :=
      ⟨_, List.getElem?_eq_getElem (by omega)⟩
    have hrespond : respond commands counts request = .ok (answered commands done request,
        if min (pollCount request.runtimeId done) (commands.length - 1) + 1 < commands.length then
          (counts.set request.runtimeId
            (min (pollCount request.runtimeId done) (commands.length - 1))).set request.runtimeId
              (min (pollCount request.runtimeId done) (commands.length - 1) + 1)
        else counts.set request.runtimeId
          (min (pollCount request.runtimeId done) (commands.length - 1))) := by
      simp only [respond, if_pos hpath, execute, h request.runtimeId, hcommand,
        Raised.ofOption_some, Raised.ok_bind, answered, Option.map_some]
      rfl
    refine ⟨_, hrespond, fun runtimeId => ?_⟩
    by_cases hr : runtimeId = request.runtimeId
    · subst hr
      have hcount : pollCount request.runtimeId (done ++ [request]) =
          pollCount request.runtimeId done + 1 := by
        rw [pollCount_append, pollCount_singleton, if_pos ⟨hpath, rfl⟩]
      rw [hcount]
      split_ifs with hmore
      · rw [Dict.get?_set_self, Option.getD_some]
        omega
      · rw [Dict.get?_set_self, Option.getD_some]
        omega
    · have hcount : pollCount runtimeId (done ++ [request]) = pollCount runtimeId done := by
        rw [pollCount_append, pollCount_singleton, if_neg (fun hcon => hr hcon.2.symm), Nat.add_zero]
      rw [hcount, ← h runtimeId]
      split_ifs with hmore
      · rw [Dict.get?_set_ne _ _ hr, Dict.get?_set_ne _ _ hr]
      · rw [Dict.get?_set_ne _ _ hr]
  · refine ⟨counts, ?_, ?_⟩
    · simp only [respond, if_neg hpath, answered]
      rfl
    · intro runtimeId
      rw [pollCount_append, pollCount_singleton, if_neg (fun hcon => hpath hcon.1), Nat.add_zero]
      exact h runtimeId

/-- The flows of all requests, whatever was answered before. -/
theorem respondAll_eq_ok (hne : commands ≠ []) :
    ∀ (requests done : List Request) (counts : Dict Str Nat), Counts commands done counts →
      respondAll commands counts requests = .ok (answeredAll commands done requests)
  | [], _, _, _ => rfl
  | request :: requests, done, counts, h => by
      obtain ⟨counts', hrespond, hcounts'⟩ := respond_eq_ok hne h request
      rw [respondAll, hrespond, Raised.ok_bind]
      simp only [respondAll_eq_ok hne requests (done ++ [request]) counts' hcounts', Raised.ok_bind]
      rfl

theorem counts_empty : Counts commands [] .empty := by
  intro runtimeId
  simp [Dict.empty, Dict.get?, Dict.find, pollCount]

theorem answeredAll_append (done xs ys : List Request) :
    answeredAll commands done (xs ++ ys) =
      answeredAll commands done xs ++ answeredAll commands (done ++ xs) ys := by
  induction xs generalizing done with
  | nil => simp [answeredAll]
  | cons x xs ih =>
      rw [List.cons_append, answeredAll, ih, answeredAll, List.append_assoc, List.singleton_append,
        List.cons_append]

@[simp] theorem length_answeredAll (done xs : List Request) :
    (answeredAll commands done xs).length = xs.length := by
  induction xs generalizing done with
  | nil => rfl
  | cons x xs ih => simp [answeredAll, ih]

@[simp] theorem request_answered (done : List Request) (request : Request) :
    (answered commands done request).request = request := by
  unfold answered
  split_ifs <;> rfl

theorem map_request_answeredAll (done xs : List Request) :
    (answeredAll commands done xs).map Flow.request = xs := by
  induction xs generalizing done with
  | nil => rfl
  | cons x xs ih => simp [answeredAll, ih]

theorem forall_request_answeredAll {p : Request → Prop} (done xs : List Request) :
    (∀ flow ∈ answeredAll commands done xs, p flow.request) ↔ ∀ request ∈ xs, p request := by
  have hmap : (∀ request ∈ (answeredAll commands done xs).map Flow.request, p request) ↔
      ∀ request ∈ xs, p request := by
    rw [map_request_answeredAll]
  rw [← hmap, List.forall_mem_map]

/-- A part of the flows is the flows of a part of the requests. -/
theorem answeredAll_eq_append :
    ∀ {done requests : List Request} {xs ys : List Flow},
      answeredAll commands done requests = xs ++ ys →
      ∃ before after, requests = before ++ after ∧ xs = answeredAll commands done before ∧
        ys = answeredAll commands (done ++ before) after
  | done, requests, [], ys, h => ⟨[], requests, rfl, rfl, by simpa using h.symm⟩
  | done, [], x :: xs, ys, h => by simp [answeredAll] at h
  | done, request :: requests, x :: xs, ys, h => by
      rw [answeredAll, List.cons_append, List.cons.injEq] at h
      obtain ⟨before, after, rfl, hbefore, hafter⟩ := answeredAll_eq_append h.2
      refine ⟨request :: before, after, rfl, ?_, ?_⟩
      · rw [answeredAll, ← h.1, ← hbefore]
      · rw [hafter, List.append_assoc, List.singleton_append]

end Answers

section Reading

variable {n : Nat}

/-- The flow holds the header of the last command. -/
def IsLast (n : Nat) (flow : Flow) : Prop :=
  flow.request.path = configPath ∧ ∃ value, flow.overwriteRcResponse = some value ∧ n ≤ value + 1

/-- No count has reached the number of commands. -/
def Quiet (n : Nat) (counts : Dict Str Nat) : Prop := ∀ count ∈ counts.values, count < n

theorem mem_values_set {counts : Dict Str Nat} {key : Str} {value count : Nat}
    (h : count ∈ (counts.set key value).values) : count = value ∨ count ∈ counts.values := by
  obtain ⟨⟨k, v⟩, hmem, rfl⟩ := List.mem_map.mp h
  rw [Dict.mem_items_iff, Dict.get?_set] at hmem
  split_ifs at hmem with hk
  · exact Or.inl (Option.some.inj hmem).symm
  · exact Or.inr (List.mem_map.mpr ⟨(k, v), (Dict.mem_items_iff _ _ _).mpr hmem, rfl⟩)

theorem mem_values_set_self (counts : Dict Str Nat) (key : Str) (value : Nat) :
    value ∈ (counts.set key value).values :=
  List.mem_map.mpr ⟨(key, value), (Dict.mem_items_iff _ _ _).mpr (Dict.get?_set_self _ _ _), rfl⟩

theorem allPayloadSent_other (counts : Dict Str Nat) {data : Flow}
    (hpath : data.request.path ≠ configPath) : allPayloadSent n counts data = (false, counts) := by
  rw [allPayloadSent, if_pos hpath]

/-- A poll is read while no count has reached `n`: the next count tells whether it was the last. -/
theorem allPayloadSent_quiet (hn : 0 < n) {counts : Dict Str Nat} (h : Quiet n counts) {data : Flow}
    (hpath : data.request.path = configPath) :
    (allPayloadSent n counts data).1 = false ∧
      (IsLast n data → ∃ count ∈ (allPayloadSent n counts data).2.values, n ≤ count) ∧
      (¬ IsLast n data → Quiet n (allPayloadSent n counts data).2) := by
  have hany : (counts.values.any fun count => n ≤ count) = false := by
    rw [List.any_eq_false]
    intro count hcount
    simpa using h count hcount
  have hinit : Quiet n (if data.request.runtimeId ∈ counts.keys then counts
      else counts.set data.request.runtimeId 0) := by
    split_ifs
    · exact h
    · intro count hcount
      rcases mem_values_set hcount with rfl | hcount
      · exact hn
      · exact h count hcount
  unfold allPayloadSent
  rw [if_neg (not_not.mpr hpath), hany, if_neg (by simp)]
  cases hheader : data.overwriteRcResponse with
  | none =>
      refine ⟨rfl, ?_, fun _ => hinit⟩
      rintro ⟨-, value, hvalue, -⟩
      rw [hheader] at hvalue
      cases hvalue
  | some value =>
      refine ⟨rfl, ?_, fun hlast count hcount => ?_⟩
      · rintro ⟨-, value', hvalue, hle⟩
        rw [hheader, Option.some.injEq] at hvalue
        subst hvalue
        exact ⟨value + 1, mem_values_set_self _ _ _, hle⟩
      · rcases mem_values_set hcount with rfl | hcount
        · by_contra hge
          exact hlast ⟨hpath, value, hheader, not_lt.mp hge⟩
        · exact hinit count hcount

theorem allPayloadSent_armed {counts : Dict Str Nat} (h : ∃ count ∈ counts.values, n ≤ count)
    {data : Flow} (hpath : data.request.path = configPath) :
    (allPayloadSent n counts data).1 = true := by
  have hany : (counts.values.any fun count => n ≤ count) = true := by
    rw [List.any_eq_true]
    simpa using h
  unfold allPayloadSent
  rw [if_neg (not_not.mpr hpath), hany, if_pos rfl]

/-- Once a count has reached `n`, the next poll ends the wait, whoever sends it. -/
theorem eventsRead_armed {counts : Dict Str Nat} (h : ∃ count ∈ counts.values, n ≤ count)
    {between : List Flow} (hbetween : ∀ flow ∈ between, flow.request.path ≠ configPath)
    {further : Flow} (hfurther : further.request.path = configPath) (after : List Flow) :
    (waitFor (allPayloadSent n) counts (between ++ further :: after)).1 = true ∧
      eventsRead (allPayloadSent n) counts (between ++ further :: after) =
        between ++ [further] := by
  induction between with
  | nil =>
      have haccept := allPayloadSent_armed h hfurther
      simp [waitFor, eventsRead, haccept]
  | cons flow between ih =>
      rw [List.forall_mem_cons] at hbetween
      obtain ⟨hwait, hread⟩ := ih hbetween.2
      simp [waitFor, eventsRead, allPayloadSent_other counts hbetween.1, hwait, hread]

/-- The first poll with the header of the last command, and the next one, end the wait. -/
theorem waitFor_of_split (hn : 0 < n) {before : List Flow} (hbefore : ∀ flow ∈ before, ¬ IsLast n flow)
    {last : Flow} (hlast : IsLast n last) {between : List Flow}
    (hbetween : ∀ flow ∈ between, flow.request.path ≠ configPath) {further : Flow}
    (hfurther : further.request.path = configPath) (after : List Flow) :
    ∀ {counts : Dict Str Nat}, Quiet n counts →
      (waitFor (allPayloadSent n) counts (before ++ last :: (between ++ further :: after))).1 = true ∧
        eventsRead (allPayloadSent n) counts (before ++ last :: (between ++ further :: after)) =
          before ++ last :: (between ++ [further]) := by
  induction before with
  | nil =>
      intro counts h
      obtain ⟨hrefuse, harmed, -⟩ := allPayloadSent_quiet hn h hlast.1
      obtain ⟨hwait, hread⟩ := eventsRead_armed (harmed hlast) hbetween hfurther after
      simp [waitFor, eventsRead, hrefuse, hwait, hread]
  | cons flow before ih =>
      intro counts h
      rw [List.forall_mem_cons] at hbefore
      by_cases hpath : flow.request.path = configPath
      · obtain ⟨hrefuse, -, hquiet⟩ := allPayloadSent_quiet hn h hpath
        obtain ⟨hwait, hread⟩ := ih hbefore.2 (hquiet hbefore.1)
        simp [waitFor, eventsRead, hrefuse, hwait, hread]
      · obtain ⟨hwait, hread⟩ := ih hbefore.2 h
        simp [waitFor, eventsRead, allPayloadSent_other counts hpath, hwait, hread]

theorem exists_first {p : Flow → Prop} [DecidablePred p] :
    ∀ {flows : List Flow}, (∃ flow ∈ flows, p flow) →
      ∃ before flow after, flows = before ++ flow :: after ∧ (∀ x ∈ before, ¬ p x) ∧ p flow
  | [], h => by simp at h
  | flow :: flows, h => by
      by_cases hflow : p flow
      · exact ⟨[], flow, flows, rfl, by simp, hflow⟩
      · have hrest : ∃ x ∈ flows, p x := by
          obtain ⟨y, hy, hpy⟩ := h
          rcases List.mem_cons.mp hy with rfl | hy
          · exact absurd hpy hflow
          · exact ⟨y, hy, hpy⟩
        obtain ⟨before, x, after, rfl, hbefore, hx⟩ := exists_first hrest
        exact ⟨flow :: before, x, after, rfl, List.forall_mem_cons.mpr ⟨hflow, hbefore⟩, hx⟩

theorem waitFor_quiet (hn : 0 < n) {flows : List Flow} (hflows : ∀ flow ∈ flows, ¬ IsLast n flow) :
    ∀ {counts : Dict Str Nat}, Quiet n counts →
      (waitFor (allPayloadSent n) counts flows).1 = false := by
  induction flows with
  | nil => simp [waitFor]
  | cons flow flows ih =>
      intro counts h
      rw [List.forall_mem_cons] at hflows
      by_cases hpath : flow.request.path = configPath
      · obtain ⟨hrefuse, -, hquiet⟩ := allPayloadSent_quiet hn h hpath
        simp [waitFor, hrefuse, ih hflows.2 (hquiet hflows.1)]
      · simp [waitFor, allPayloadSent_other counts hpath, ih hflows.2 h]

theorem waitFor_armed_eq_false {counts : Dict Str Nat} {flows : List Flow}
    (hflows : ∀ flow ∈ flows, flow.request.path ≠ configPath) :
    (waitFor (allPayloadSent n) counts flows).1 = false := by
  induction flows with
  | nil => rfl
  | cons flow flows ih =>
      rw [List.forall_mem_cons] at hflows
      simp [waitFor, allPayloadSent_other counts hflows.1, ih hflows.2]

theorem waitFor_last_eq_false (hn : 0 < n) {before : List Flow}
    (hbefore : ∀ flow ∈ before, ¬ IsLast n flow) {last : Flow} (hlast : IsLast n last)
    {rest : List Flow} (hrest : ∀ flow ∈ rest, flow.request.path ≠ configPath) :
    ∀ {counts : Dict Str Nat}, Quiet n counts →
      (waitFor (allPayloadSent n) counts (before ++ last :: rest)).1 = false := by
  induction before with
  | nil =>
      intro counts h
      simp [waitFor, (allPayloadSent_quiet hn h hlast.1).1, waitFor_armed_eq_false hrest]
  | cons flow before ih =>
      intro counts h
      rw [List.forall_mem_cons] at hbefore
      by_cases hpath : flow.request.path = configPath
      · obtain ⟨hrefuse, -, hquiet⟩ := allPayloadSent_quiet hn h hpath
        simp [waitFor, hrefuse, ih hbefore.2 (hquiet hbefore.1)]
      · simp [waitFor, allPayloadSent_other counts hpath, ih hbefore.2 h]

theorem quiet_empty : Quiet n .empty := by
  simp [Quiet, Dict.values, Dict.empty]

/-- A wait that succeeds was ended by the poll after the first with the last header. -/
theorem split_of_waitFor (hn : 0 < n) {flows : List Flow}
    (h : (waitFor (allPayloadSent n) .empty flows).1 = true) :
    ∃ before last between further after, flows = before ++ last :: (between ++ further :: after) ∧
      (∀ flow ∈ before, ¬ IsLast n flow) ∧ IsLast n last ∧
      (∀ flow ∈ between, flow.request.path ≠ configPath) ∧ further.request.path = configPath := by
  classical
  have hsome : ∃ flow ∈ flows, IsLast n flow := by
    by_contra hnone
    rw [waitFor_quiet hn (fun flow hflow hlast => hnone ⟨flow, hflow, hlast⟩) quiet_empty] at h
    cases h
  obtain ⟨before, last, rest, rfl, hbefore, hlast⟩ := exists_first hsome
  have hpoll : ∃ flow ∈ rest, flow.request.path = configPath := by
    by_contra hnone
    rw [waitFor_last_eq_false hn hbefore hlast (fun flow hflow hpath => hnone ⟨flow, hflow, hpath⟩)
      quiet_empty] at h
    cases h
  obtain ⟨between, further, after, rfl, hbetween, hfurther⟩ := exists_first hpoll
  exact ⟨before, last, between, further, after, rfl, hbefore, hlast, hbetween, hfurther⟩

end Reading

section Claim

variable {commands : List Command} {earlier : List Flow} {requests : List Request}

/-- What the mock and the wait for a sequence promise. -/
structure SequenceCorrect (commands : List Command) (earlier : List Flow)
    (requests : List Request) : Prop where
  /-- The `k`-th poll of a runtime is answered with the command `min k (n - 1)`. -/
  answers : ∃ flows, respondAll commands .empty requests = .ok flows ∧
    flows.length = requests.length ∧
    ∀ before request after, requests = before ++ request :: after → request.path = configPath →
      ∀ command, commands[min (pollCount request.runtimeId before) (commands.length - 1)]? =
          some command →
        flows[before.length]? = some ⟨request, some (gateRcResponseByProducts command request),
          some (min (pollCount request.runtimeId before) (commands.length - 1))⟩
  /-- A wait that succeeds has read all polls of a sequence and a further one of one runtime. -/
  waits : ∀ flows, respondAll commands .empty requests = .ok flows →
    sendSequentialCommands commands (earlier ++ flows) = .ok true →
    ∃ runtimeId, commands.length + 1 ≤ pollCount runtimeId
      (((eventsRead (allPayloadSent commands.length) .empty (earlier ++ flows)).drop
        earlier.length).map Flow.request)

/-- No poll follows a flow of an earlier sequence that holds the last header, and the first
runtime that completes the sequence sends the next poll. -/
structure WellAttributed (n : Nat) (earlier : List Flow) (requests : List Request) : Prop where
  stale : ∀ xs last ys, earlier = xs ++ last :: ys → IsLast n last →
    (∀ flow ∈ ys, flow.request.path ≠ configPath) ∧
      ∀ request ∈ requests, request.path ≠ configPath
  completing : (∀ flow ∈ earlier, ¬ IsLast n flow) → ∀ xs last between further ys,
    requests = xs ++ last :: (between ++ further :: ys) → (∀ runtimeId, pollCount runtimeId xs < n) →
    last.path = configPath → pollCount last.runtimeId xs + 1 = n →
    (∀ request ∈ between, request.path ≠ configPath) → further.path = configPath →
    further.runtimeId = last.runtimeId

theorem isLast_answered (hne : commands ≠ []) {done : List Request} {request : Request} :
    IsLast commands.length (answered commands done request) ↔
      request.path = configPath ∧ commands.length ≤ pollCount request.runtimeId done + 1 := by
  have hlength : 0 < commands.length := List.length_pos_of_ne_nil hne
  unfold answered
  by_cases hpath : request.path = configPath
  · rw [if_pos hpath]
    constructor
    · rintro ⟨-, value, hvalue, hle⟩
      have hvalue := Option.some.inj hvalue
      exact ⟨hpath, by omega⟩
    · rintro ⟨-, hle⟩
      exact ⟨hpath, _, rfl, by omega⟩
  · simp [IsLast, hpath]

/-- No flow holds the last header while no runtime has polled as often as there are commands. -/
theorem forall_not_isLast_iff (hne : commands ≠ []) (xs : List Request) :
    ∀ {done : List Request}, (∀ runtimeId, pollCount runtimeId done < commands.length) →
      ((∀ flow ∈ answeredAll commands done xs, ¬ IsLast commands.length flow) ↔
        ∀ runtimeId, pollCount runtimeId (done ++ xs) < commands.length) := by
  induction xs with
  | nil =>
      intro done h
      simpa [answeredAll] using h
  | cons request xs ih =>
      intro done h
      have hstep : ¬ IsLast commands.length (answered commands done request) ↔
          ∀ runtimeId, pollCount runtimeId (done ++ [request]) < commands.length := by
        rw [isLast_answered hne]
        constructor
        · intro hlast runtimeId
          rw [pollCount_append, pollCount_singleton]
          split_ifs with hr
          · obtain ⟨hpath, rfl⟩ := hr
            exact not_le.mp fun hle => hlast ⟨hpath, hle⟩
          · exact h runtimeId
        · rintro hall ⟨hpath, hle⟩
          have hlt := hall request.runtimeId
          rw [pollCount_append, pollCount_singleton, if_pos ⟨hpath, rfl⟩] at hlt
          omega
      rw [answeredAll, List.forall_mem_cons, hstep]
      constructor
      · rintro ⟨hfirst, hrest⟩
        have hall := (ih hfirst).mp hrest
        simpa using hall
      · intro hall
        have hfirst : ∀ runtimeId, pollCount runtimeId (done ++ [request]) < commands.length := by
          intro runtimeId
          have hlt := hall runtimeId
          rw [← List.singleton_append, ← List.append_assoc, pollCount_append] at hlt
          omega
        exact ⟨hfirst, (ih hfirst).mpr (by simpa using hall)⟩

theorem pollCount_eq_zero {runtimeId : Str} {xs : List Request}
    (h : ∀ request ∈ xs, request.path ≠ configPath) : pollCount runtimeId xs = 0 := by
  rw [pollCount, List.countP_eq_zero]
  intro request hrequest
  simp [h request hrequest]

theorem answers_of_ne_nil (hne : commands ≠ []) (requests : List Request) :
    ∃ flows, respondAll commands .empty requests = .ok flows ∧
      flows.length = requests.length ∧
      ∀ before request after, requests = before ++ request :: after → request.path = configPath →
        ∀ command, commands[min (pollCount request.runtimeId before) (commands.length - 1)]? =
            some command →
          flows[before.length]? = some ⟨request, some (gateRcResponseByProducts command request),
            some (min (pollCount request.runtimeId before) (commands.length - 1))⟩ := by
  refine ⟨_, respondAll_eq_ok hne requests [] .empty counts_empty, length_answeredAll _ _, ?_⟩
  rintro before request after rfl hpath command hcommand
  rw [answeredAll_append, List.getElem?_append_right (by simp), length_answeredAll, Nat.sub_self,
    List.nil_append, answeredAll, List.getElem?_cons_zero, answered, if_pos hpath, hcommand,
    Option.map_some]

theorem sendSequentialCommands_eq_true_iff (hne : commands ≠ []) {recorded : List Flow} :
    sendSequentialCommands commands recorded = .ok true ↔
      (waitFor (allPayloadSent commands.length) .empty recorded).1 = true := by
  rw [sendSequentialCommands, if_neg (by simpa using hne), Raised.pure_eq_ok]

theorem answeredAll_split (xs : List Request) (last : Request) (between : List Request)
    (further : Request) (ys : List Request) :
    answeredAll commands [] (xs ++ last :: (between ++ further :: ys)) =
      answeredAll commands [] xs ++ answered commands xs last ::
        (answeredAll commands (xs ++ [last]) between ++
          answered commands (xs ++ [last] ++ between) further ::
            answeredAll commands (xs ++ [last] ++ between ++ [further]) ys) := by
  rw [answeredAll_append, List.nil_append, answeredAll, answeredAll_append, answeredAll]

/-- The flows split at a poll, at no polls and at a further poll, as the requests do. -/
theorem exists_split_of_answeredAll {xs : List Flow} {last : Flow} {between : List Flow}
    {further : Flow} {ys : List Flow}
    (h : answeredAll commands [] requests = xs ++ last :: (between ++ further :: ys)) :
    ∃ xs' last' between' further' ys',
      requests = xs' ++ last' :: (between' ++ further' :: ys') ∧
        xs = answeredAll commands [] xs' ∧ last = answered commands xs' last' ∧
        between = answeredAll commands (xs' ++ [last']) between' ∧ further.request = further' := by
  obtain ⟨xs', rest, rfl, rfl, hrest⟩ := answeredAll_eq_append h
  rw [List.nil_append] at hrest
  cases rest with
  | nil => simp [answeredAll] at hrest
  | cons last' rest =>
      rw [answeredAll, List.cons.injEq] at hrest
      obtain ⟨between', rest, rfl, rfl, htail⟩ := answeredAll_eq_append hrest.2.symm
      cases rest with
      | nil => simp [answeredAll] at htail
      | cons further' ys' =>
          rw [answeredAll, List.cons.injEq] at htail
          exact ⟨xs', last', between', further', ys', rfl, rfl, hrest.1, rfl, by
            rw [htail.1, request_answered]⟩

theorem pollCount_nil_lt {n : Nat} (hn : 0 < n) (runtimeId : Str) : pollCount runtimeId [] < n := hn

theorem pollCount_cons (runtimeId : Str) (request : Request) (requests : List Request) :
    pollCount runtimeId (request :: requests) =
      (if request.path = configPath ∧ request.runtimeId = runtimeId then 1 else 0) +
        pollCount runtimeId requests := by
  rw [← List.singleton_append, pollCount_append, pollCount_singleton]

theorem map_request_drop (earlier xs : List Flow) :
    ((earlier ++ xs).drop earlier.length).map Flow.request = xs.map Flow.request := by
  rw [List.drop_left]

theorem waits_of_wellAttributed (hne : commands ≠ [])
    (h : WellAttributed commands.length earlier requests)
    (hsent : sendSequentialCommands commands (earlier ++ answeredAll commands [] requests) = .ok true) :
    ∃ runtimeId, commands.length + 1 ≤ pollCount runtimeId
      (((eventsRead (allPayloadSent commands.length) .empty
        (earlier ++ answeredAll commands [] requests)).drop earlier.length).map Flow.request) := by
  have hn : 0 < commands.length := List.length_pos_of_ne_nil hne
  obtain ⟨before, last, between, further, after, hsplit, hbefore, hlast, hbetween, hfurther⟩ :=
    split_of_waitFor hn ((sendSequentialCommands_eq_true_iff hne).mp hsent)
  obtain ⟨-, hread⟩ := waitFor_of_split hn hbefore hlast hbetween hfurther after quiet_empty
  -- The last header is not one of the earlier flows: a poll would follow it.
  obtain ⟨xs, rfl, hflows⟩ : ∃ xs, before = earlier ++ xs ∧
      answeredAll commands [] requests = xs ++ last :: (between ++ further :: after) := by
    rcases List.append_eq_append_iff.mp hsplit with ⟨xs, hxs, hflows⟩ | ⟨zs, hzs, hflows⟩
    · exact ⟨xs, hxs, hflows⟩
    · cases zs with
      | nil => exact ⟨[], by simpa using hzs.symm, by simpa using hflows.symm⟩
      | cons z zs =>
          rw [List.cons_append, List.cons.injEq] at hflows
          obtain ⟨rfl, hflows⟩ := hflows
          obtain ⟨hzs, hrequests⟩ := h.stale before last zs hzs hlast
          have hmem : further ∈ zs ++ answeredAll commands [] requests := by
            rw [← hflows]
            simp
          rcases List.mem_append.mp hmem with hmem | hmem
          · exact absurd hfurther (hzs further hmem)
          · exact absurd hfurther
              ((forall_request_answeredAll [] requests).mpr hrequests further hmem)
  rw [List.forall_mem_append] at hbefore
  obtain ⟨xs', last', between', further', ys', rfl, rfl, rfl, rfl, hfurther'⟩ :=
    exists_split_of_answeredAll hflows
  have hcounts := (forall_not_isLast_iff hne xs' (pollCount_nil_lt hn)).mp hbefore.2
  rw [List.nil_append] at hcounts
  obtain ⟨hpath, hle⟩ := (isLast_answered hne).mp hlast
  have hpoll := hcounts last'.runtimeId
  have hbetween' : ∀ request ∈ between', request.path ≠ configPath :=
    (forall_request_answeredAll (xs' ++ [last']) between').mp hbetween
  rw [hfurther'] at hfurther
  have hsame := h.completing hbefore.1 xs' last' between' further' ys' rfl hcounts hpath (by omega)
    hbetween' hfurther
  refine ⟨last'.runtimeId, ?_⟩
  rw [hsplit, hread, List.append_assoc, map_request_drop, List.map_append, List.map_cons,
    List.map_append, List.map_singleton, map_request_answeredAll, map_request_answeredAll,
    request_answered, hfurther', pollCount_append, pollCount_cons, pollCount_append,
    pollCount_singleton, if_pos ⟨hpath, rfl⟩, if_pos ⟨hfurther, hsame⟩]
  omega

theorem stale_of_sequenceCorrect (hne : commands ≠ [])
    (h : SequenceCorrect commands earlier requests) {xs : List Flow} {last : Flow} {ys : List Flow}
    (hearlier : earlier = xs ++ last :: ys) (hlast : IsLast commands.length last) :
    ∀ flow ∈ ys ++ answeredAll commands [] requests, flow.request.path ≠ configPath := by
  classical
  have hn : 0 < commands.length := List.length_pos_of_ne_nil hne
  by_contra hpoll
  push Not at hpoll
  -- The wait ends at a poll after the first header of a last command.
  obtain ⟨before, first, zs, hzs, hbefore, hfirst⟩ :=
    exists_first ⟨last, List.mem_append_right xs (List.mem_singleton_self last), hlast⟩
  obtain ⟨flow, hflow, hpath⟩ := hpoll
  obtain ⟨between, further, after, hrest, hbetween, hfurther⟩ :=
    exists_first (p := fun flow => flow.request.path = configPath)
      ⟨flow, List.mem_append_right zs hflow, hpath⟩
  have hearlier' : earlier = before ++ first :: (zs ++ ys) := by
    rw [hearlier, ← List.singleton_append, ← List.append_assoc, hzs, List.append_assoc,
      List.cons_append]
  have hstream : earlier ++ answeredAll commands [] requests =
      before ++ first :: (between ++ further :: after) := by
    rw [← hrest, hearlier', List.append_assoc, List.cons_append, List.append_assoc]
  obtain ⟨hwait, hread⟩ := waitFor_of_split hn hbefore hfirst hbetween hfurther after quiet_empty
  rw [← hstream] at hwait hread
  obtain ⟨runtimeId, hcount⟩ := h.waits _ (respondAll_eq_ok hne requests [] .empty counts_empty)
    ((sendSequentialCommands_eq_true_iff hne).mpr hwait)
  rw [hread] at hcount
  -- What is read of this sequence holds one poll at most.
  have hdrop : (before ++ first :: (between ++ [further])).drop earlier.length =
      (between ++ [further]).drop (zs ++ ys).length := by
    rw [hearlier', List.length_append, List.length_cons, List.drop_append,
      List.drop_eq_nil_of_le (by omega), List.nil_append, Nat.add_sub_cancel_left, List.drop_succ_cons]
  have hsublist : pollCount runtimeId
      (((before ++ first :: (between ++ [further])).drop earlier.length).map Flow.request) ≤
        pollCount runtimeId ((between ++ [further]).map Flow.request) := by
    rw [hdrop]
    exact ((List.drop_sublist _ _).map _).countP_le
  have hzero : pollCount runtimeId (between.map Flow.request) = 0 := by
    refine pollCount_eq_zero fun request hrequest => ?_
    obtain ⟨flow, hflow, rfl⟩ := List.mem_map.mp hrequest
    exact hbetween flow hflow
  rw [List.map_append, pollCount_append, hzero, List.map_singleton, pollCount_singleton] at hsublist
  split_ifs at hsublist <;> omega

theorem completing_of_sequenceCorrect (hne : commands ≠ []) {xs : List Request} {last : Request}
    {between : List Request} {further : Request} {ys : List Request}
    (h : SequenceCorrect commands earlier (xs ++ last :: (between ++ further :: ys)))
    (hearlier : ∀ flow ∈ earlier, ¬ IsLast commands.length flow)
    (hcounts : ∀ runtimeId, pollCount runtimeId xs < commands.length)
    (hpath : last.path = configPath) (hlast : pollCount last.runtimeId xs + 1 = commands.length)
    (hbetween : ∀ request ∈ between, request.path ≠ configPath)
    (hfurther : further.path = configPath) : further.runtimeId = last.runtimeId := by
  have hn : 0 < commands.length := List.length_pos_of_ne_nil hne
  have hbefore : ∀ flow ∈ earlier ++ answeredAll commands [] xs, ¬ IsLast commands.length flow :=
    List.forall_mem_append.mpr ⟨hearlier, (forall_not_isLast_iff hne xs (pollCount_nil_lt hn)).mpr hcounts⟩
  have hbetween' : ∀ flow ∈ answeredAll commands (xs ++ [last]) between,
      flow.request.path ≠ configPath :=
    (forall_request_answeredAll (xs ++ [last]) between).mpr hbetween
  have hfurther' : (answered commands (xs ++ [last] ++ between) further).request.path =
      configPath := by
    rw [request_answered, hfurther]
  obtain ⟨hwait, hread⟩ := waitFor_of_split hn hbefore
    ((isLast_answered hne).mpr ⟨hpath, hlast.ge⟩) hbetween' hfurther'
    (answeredAll commands (xs ++ [last] ++ between ++ [further]) ys) quiet_empty
  rw [List.append_assoc, ← answeredAll_split] at hwait hread
  obtain ⟨runtimeId, hcount⟩ := h.waits _
    (respondAll_eq_ok hne _ [] .empty counts_empty)
    ((sendSequentialCommands_eq_true_iff hne).mpr hwait)
  rw [hread, List.append_assoc, map_request_drop, List.map_append, List.map_cons, List.map_append,
    List.map_singleton, map_request_answeredAll, map_request_answeredAll, request_answered,
    request_answered, pollCount_append, pollCount_cons, pollCount_append, pollCount_singleton,
    pollCount_eq_zero hbetween] at hcount
  have hxs := hcounts runtimeId
  by_cases hl : last.runtimeId = runtimeId
  · by_cases hf : further.runtimeId = runtimeId
    · rw [hf, hl]
    · have hsecond : ¬ (further.path = configPath ∧ further.runtimeId = runtimeId) :=
        fun hcon => hf hcon.2
      rw [if_neg hsecond] at hcount
      split_ifs at hcount <;> omega
  · have hfirst : ¬ (last.path = configPath ∧ last.runtimeId = runtimeId) := fun hcon => hl hcon.2
    rw [if_neg hfirst] at hcount
    split_ifs at hcount <;> omega

/-- The sequence is answered as promised, and the wait ends for the right reason if and
only if the polls are well attributed. -/
theorem sequentialCommands_iff (hne : commands ≠ []) :
    SequenceCorrect commands earlier requests ↔
      WellAttributed commands.length earlier requests := by
  constructor
  · intro h
    constructor
    · intro xs last ys hearlier hlast
      have hpolls := stale_of_sequenceCorrect hne h hearlier hlast
      rw [List.forall_mem_append] at hpolls
      exact ⟨hpolls.1, (forall_request_answeredAll [] requests).mp hpolls.2⟩
    · rintro hearlier xs last between further ys rfl hcounts hpath hlast hbetween hfurther
      exact completing_of_sequenceCorrect hne h hearlier hcounts hpath hlast hbetween hfurther
  · intro h
    refine ⟨answers_of_ne_nil hne requests, fun flows hflows hsent => ?_⟩
    rw [respondAll_eq_ok hne requests [] .empty counts_empty] at hflows
    cases hflows
    exact waits_of_wellAttributed hne h hsent

def oneCommand : Command := ⟨"e30=", none, none⟩

def poll (runtimeId : Str) : Request := ⟨configPath, runtimeId, none⟩

/-- One runtime polls for its command and once more. -/
theorem sequentialCommands_iff_oneRuntime :
    SequenceCorrect [oneCommand] [] [poll ("a"), poll ("a")] := by
  refine (sequentialCommands_iff (by simp)).mpr ⟨fun xs last ys h => by simp at h, ?_⟩
  intro _ xs last between further ys hrequests _ _ _ _ _
  have hall : ∀ request ∈ xs ++ last :: (between ++ further :: ys), request = poll ("a") := by
    rw [← hrequests]
    simp
  rw [hall further (by simp), hall last (by simp)]

/-- A runtime receives the only command; the poll that ends the wait is another runtime's. -/
theorem not_sequenceCorrect_twoRuntimes :
    ¬ SequenceCorrect [oneCommand] [] [poll ("a"), poll ("b")] := by
  intro h
  obtain ⟨runtimeId, hcount⟩ := h.waits _ rfl rfl
  have hread : pollCount runtimeId [poll ("a"), poll ("b")] ≤ 1 := by
    rw [pollCount_cons, pollCount_singleton]
    by_cases ha : ("a" : Str) = runtimeId
    · subst ha
      decide
    · rw [if_neg (fun hcon => ha hcon.2)]
      split_ifs <;> omega
  exact absurd (le_trans hcount hread) (by decide)

end Claim

end RemoteConfig
end SystemTests
