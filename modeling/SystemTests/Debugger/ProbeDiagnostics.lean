import SystemTests.Foundation.Dict
import SystemTests.Foundation.Exception

/-!
# Probe diagnostics (`tests/debugger/utils.py`)

The library reports what becomes of each probe.  `collect` merges the reports of all
payloads; `wait_for_all_probes` looks at the reports of one payload at a time.

**Results.**
* `statusOf_processDiagnosticsData`: the merged status is decided by the first report
  that is not RECEIVED.
* `decided_perm_iff`: when the order of the reports does not matter.
* `processDiagnosticsData_spec`: what the merged diagnostics say about a probe.
-/

namespace SystemTests
namespace Debugger

open Foundation Foundation.Text

inductive ProbeStatus where
  | received
  | installed
  | emitting
  | error
  | blocked
deriving DecidableEq

structure Diagnostics where
  probeId : Str
  status : ProbeStatus
deriving DecidableEq

/-- The object under `debugger`; its member `diagnostics` may be missing. -/
structure DebuggerData where
  diagnostics : Option Diagnostics
deriving DecidableEq

/-- An element of `content["content"]`: a dict with or without the key `debugger`, or
something else, in a content that `json.dumps` writes as `dumped`. -/
inductive Part where
  | debugger (data : DebuggerData)
  | noDebugger
  | noDict (dumped : Str)
deriving DecidableEq

inductive Content where
  | parts (content : List Part)
  | debugger (data : DebuggerData)
  | other
deriving DecidableEq

/-- What is recorded of a request; `logNumber` is the number in `log_filename`. -/
structure Data where
  path : Str
  logNumber : Option Nat
  query : Str
  contents : List Content
deriving DecidableEq

/-- What is kept of a probe; the query is parsed by `parse_qs`. -/
structure Record (Query : Type) where
  status : ProbeStatus
  query : Query
deriving DecidableEq

section Merging

def shouldUpdateStatus (currentStatus newStatus : ProbeStatus) : Bool :=
  match currentStatus with
  | .received => true
  | .installed => newStatus = .installed || newStatus = .emitting
  | .emitting => newStatus = .emitting
  | .error => false
  | .blocked => false

/-- The status of a probe after one more report. -/
def updateStatus (current : Option ProbeStatus) (newStatus : ProbeStatus) : ProbeStatus :=
  match current with
  | some currentStatus =>
      if shouldUpdateStatus currentStatus newStatus then newStatus else currentStatus
  | none => newStatus

variable {Query : Type} (parseQs : Str → Query)

abbrev ProbeDiagnosticsCollection (Query : Type) := Dict Str (Record Query)

def processDebugger (query : Str) (probeDiagnostics : ProbeDiagnosticsCollection Query)
    (debugger : DebuggerData) : ProbeDiagnosticsCollection Query :=
  match debugger.diagnostics with
  | none => probeDiagnostics
  | some diagnostics =>
      let current := (probeDiagnostics.get? diagnostics.probeId).map Record.status
      probeDiagnostics.set diagnostics.probeId
        ⟨updateStatus current diagnostics.status, parseQs query⟩

def processPart (query : Str) (probeDiagnostics : ProbeDiagnosticsCollection Query) :
    Part → Except Raised (ProbeDiagnosticsCollection Query)
  | .debugger data => .ok (processDebugger parseQs query probeDiagnostics data)
  | .noDebugger => .error (.keyError "debugger")
  | .noDict dumped => .error (.assertionError ("Unexpected content: " ++ dumped))

def processContent (query : Str) (probeDiagnostics : ProbeDiagnosticsCollection Query) :
    Content → Except Raised (ProbeDiagnosticsCollection Query)
  | .parts content => content.foldlM (processPart parseQs query) probeDiagnostics
  | .debugger data => .ok (processDebugger parseQs query probeDiagnostics data)
  | .other => .ok probeDiagnostics

def processData (probeDiagnostics : ProbeDiagnosticsCollection Query) (data : Data) :
    Except Raised (ProbeDiagnosticsCollection Query) :=
  data.contents.foldlM (processContent parseQs data.query) probeDiagnostics

def processDiagnosticsData (datas : List Data) :
    Except Raised (ProbeDiagnosticsCollection Query) :=
  datas.foldlM (processData parseQs) Dict.empty

end Merging

section Waiting

/-- The probes of a test; a definition has an id and a type. -/
structure Waiter where
  probeIds : List Str
  probeDefinitions : List (Str × Str)
  language : Str
deriving DecidableEq

/-- `found_ids`, and whether all probes were found. -/
structure WaitState where
  foundIds : List Str
  waitSuccessful : Bool
deriving DecidableEq

variable {Query : Type} (parseQs : Str → Query) (w : Waiter) (statuses : List ProbeStatus)

/-- EMITTING is not implemented for span probes of dotnet. -/
def Waiter.isFound (statuses : List ProbeStatus) (expectedId : Str) (status : ProbeStatus) :
    Except Raised Bool :=
  if status ∈ statuses then .ok true
  else if w.language = "dotnet" ∧ statuses.head? = some .installed then
    match w.probeDefinitions.find? fun probe => probe.1 = expectedId with
    | none => .error .stopIteration
    | some probe => .ok (probe.2 = "SPAN_PROBE")
  else .ok false

def Waiter.checkProbe (probeDiagnostics : ProbeDiagnosticsCollection Query)
    (statuses : List ProbeStatus) (foundIds : List Str) (expectedId : Str) :
    Except Raised (List Str) :=
  match probeDiagnostics.get? expectedId with
  | none => .ok foundIds
  | some record => do
      let found ← w.isFound statuses expectedId record.status
      return if found then expectedId :: foundIds else foundIds

def Waiter.checkAllProbesStatus (probeDiagnostics : ProbeDiagnosticsCollection Query)
    (foundIds : List Str) : Except Raised WaitState := do
  let foundIds ← w.probeIds.foldlM
    (w.checkProbe probeDiagnostics (statuses ++ [ProbeStatus.error])) foundIds
  return ⟨foundIds, decide (∀ probeId ∈ w.probeIds, probeId ∈ foundIds)⟩

/-- A look at one payload: the state after it, and the answer. -/
def Waiter.waitForAllProbes (s : WaitState) (data : Data) :
    Except Raised (WaitState × Bool) :=
  if data.logNumber = none then .ok (s, false)
  else if data.path = "/api/v2/debugger" ∨ data.path = "/api/v2/logs" then do
    let probeDiagnostics ← processDiagnosticsData parseQs [data]
    if probeDiagnostics.items.isEmpty then .ok (s, false)
    else do
      let s' ← w.checkAllProbesStatus statuses probeDiagnostics s.foundIds
      return (s', s'.waitSuccessful)
  else .ok (s, s.waitSuccessful)

/-- What was found after a look at each payload. -/
def Waiter.foundAfter (s : WaitState) (datas : List Data) : Except Raised WaitState :=
  datas.foldlM (fun s data => Prod.fst <$> w.waitForAllProbes parseQs statuses s data) s

end Waiting

section Statuses

/-- The status of a probe after some reports. -/
def merge (statuses : List ProbeStatus) : Option ProbeStatus :=
  statuses.foldl (fun current newStatus => some (updateStatus current newStatus)) none

/-- What the first report decides that is not RECEIVED. -/
def decided : List ProbeStatus → ProbeStatus
  | [] => .received
  | .received :: statuses => decided statuses
  | .installed :: statuses => if .emitting ∈ statuses then .emitting else .installed
  | .emitting :: _ => .emitting
  | .error :: _ => .error
  | .blocked :: _ => .blocked

def IsFinal (status : ProbeStatus) : Prop := status = .error ∨ status = .blocked

/-- ERROR and BLOCKED are reported together with RECEIVED only. -/
def Clean (statuses : List ProbeStatus) : Prop :=
  ∀ s ∈ statuses, IsFinal s → ∀ t ∈ statuses, t = s ∨ t = .received

/-- The furthest of the statuses. -/
def furthest (statuses : List ProbeStatus) : ProbeStatus :=
  if .emitting ∈ statuses then .emitting
  else if .installed ∈ statuses then .installed
  else .received

def rank : ProbeStatus → Nat
  | .received => 0
  | .installed => 1
  | .emitting => 2
  | .error => 3
  | .blocked => 3

theorem foldl_updateStatus (current : ProbeStatus) (statuses : List ProbeStatus) :
    statuses.foldl (fun current newStatus => some (updateStatus current newStatus))
      (some current) = some (decided (current :: statuses)) := by
  induction statuses generalizing current with
  | nil => cases current <;> rfl
  | cons s statuses ih =>
      rw [List.foldl_cons, ih]
      cases current with
      | received => rfl
      | emitting => cases s <;> rfl
      | error => rfl
      | blocked => rfl
      | installed =>
          cases s with
          | installed => simp [updateStatus, shouldUpdateStatus, decided]
          | emitting => simp [updateStatus, shouldUpdateStatus, decided]
          | received => simp [updateStatus, shouldUpdateStatus, decided]
          | error => simp [updateStatus, shouldUpdateStatus, decided]
          | blocked => simp [updateStatus, shouldUpdateStatus, decided]

theorem merge_eq (statuses : List ProbeStatus) :
    merge statuses = if statuses = [] then none else some (decided statuses) := by
  cases statuses with
  | nil => rfl
  | cons s statuses => exact foldl_updateStatus s statuses

theorem decided_mem_or {statuses : List ProbeStatus} (h : statuses ≠ []) :
    decided statuses ∈ statuses := by
  induction statuses with
  | nil => exact absurd rfl h
  | cons s statuses ih =>
      cases s with
      | received =>
          cases statuses with
          | nil => simp [decided]
          | cons t statuses => exact List.mem_cons_of_mem _ (ih (by simp))
      | installed =>
          rw [decided]
          split
          next hemitting => exact List.mem_cons_of_mem _ hemitting
          next => simp
      | emitting => simp [decided]
      | error => simp [decided]
      | blocked => simp [decided]

/-- Without final statuses the merge is the furthest. -/
theorem decided_of_no_final {statuses : List ProbeStatus}
    (h : ∀ s ∈ statuses, ¬ IsFinal s) : decided statuses = furthest statuses := by
  induction statuses with
  | nil => rfl
  | cons s statuses ih =>
      have ih := ih fun t ht => h t (List.mem_cons_of_mem _ ht)
      cases s with
      | received => simp [decided, ih, furthest]
      | installed => simp [decided, furthest]
      | emitting => simp [decided, furthest]
      | error => exact absurd (.inl rfl) (h .error (by simp))
      | blocked => exact absurd (.inr rfl) (h .blocked (by simp))

/-- A final status that is reported with RECEIVED only is the merged one. -/
theorem decided_of_final {statuses : List ProbeStatus} {s : ProbeStatus} (hs : s ∈ statuses)
    (hfinal : IsFinal s) (h : ∀ t ∈ statuses, t = s ∨ t = .received) : decided statuses = s := by
  induction statuses with
  | nil => cases hs
  | cons t statuses ih =>
      rcases h t (by simp) with rfl | rfl
      · rcases hfinal with rfl | rfl <;> rfl
      · have hs' : s ∈ statuses := by
          rcases List.mem_cons.mp hs with rfl | hs'
          · rcases hfinal with hfinal | hfinal <;> cases hfinal
          · exact hs'
        exact ih hs' fun t ht => h t (List.mem_cons_of_mem _ ht)

theorem Clean.perm {statuses statuses' : List ProbeStatus} (h : Clean statuses)
    (hperm : statuses'.Perm statuses) : Clean statuses' :=
  fun s hs hfinal t ht => h s (hperm.mem_iff.mp hs) hfinal t (hperm.mem_iff.mp ht)

theorem Clean.decided_perm {statuses statuses' : List ProbeStatus} (h : Clean statuses)
    (hperm : statuses'.Perm statuses) : decided statuses' = decided statuses := by
  by_cases hfinal : ∃ s ∈ statuses, IsFinal s
  · obtain ⟨s, hs, hfinal⟩ := hfinal
    rw [decided_of_final hs hfinal (h s hs hfinal),
      decided_of_final (hperm.mem_iff.mpr hs) hfinal
        (h.perm hperm s (hperm.mem_iff.mpr hs) hfinal)]
  · have hno : ∀ s ∈ statuses, ¬ IsFinal s := fun s hs hs' => hfinal ⟨s, hs, hs'⟩
    rw [decided_of_no_final hno,
      decided_of_no_final fun s hs => hno s (hperm.mem_iff.mp hs)]
    simp only [furthest, hperm.mem_iff]

/-- A status other than RECEIVED that is reported first is not taken back. -/
theorem decided_cons_of_final {s : ProbeStatus} (hs : IsFinal s) (statuses : List ProbeStatus) :
    decided (s :: statuses) = s := by
  rcases hs with rfl | rfl <;> rfl

theorem decided_cons_ne_of_final {s t : ProbeStatus} (hs : IsFinal s) (hts : t ≠ s)
    (ht : t ≠ .received) (statuses : List ProbeStatus) : decided (t :: statuses) ≠ s := by
  have hcases : s = .error ∨ s = .blocked := hs
  cases t with
  | received => exact absurd rfl ht
  | installed =>
      rw [decided]
      rcases hcases with rfl | rfl <;> split <;> simp
  | emitting => rcases hcases with rfl | rfl <;> simp [decided]
  | error => exact hts
  | blocked => exact hts

/-- The order does not matter exactly for clean reports. -/
theorem decided_perm_iff (statuses : List ProbeStatus) :
    (∀ statuses' : List ProbeStatus, statuses'.Perm statuses →
      decided statuses' = decided statuses) ↔ Clean statuses := by
  constructor
  · intro h s hs hfinal t ht
    by_contra hne
    rw [not_or] at hne
    have hfirst := h _ (List.perm_cons_erase hs).symm
    have hother := h _ (List.perm_cons_erase ht).symm
    rw [decided_cons_of_final hfinal] at hfirst
    exact decided_cons_ne_of_final hfinal hne.1 hne.2 _ (hother.trans hfirst.symm)
  · exact fun h statuses' hperm => h.decided_perm hperm

theorem rank_le (s : ProbeStatus) : rank s ≤ 3 := by
  cases s <;> simp [rank]

theorem rank_furthest_le {statuses part : List ProbeStatus}
    (hpart : ∀ s ∈ part, s ∈ statuses) : rank (furthest part) ≤ rank (furthest statuses) := by
  by_cases he : .emitting ∈ part
  · simp [furthest, he, hpart _ he]
  · by_cases hi : .installed ∈ part
    · have hi' := hpart _ hi
      by_cases he' : .emitting ∈ statuses
      · simp [furthest, he, hi, he', rank]
      · simp [furthest, he, hi, he', hi']
    · simp [furthest, he, hi, rank]

/-- For clean reports no part of them is ahead of the whole. -/
theorem Clean.rank_le {statuses part : List ProbeStatus} (h : Clean statuses)
    (hpart : ∀ s ∈ part, s ∈ statuses) : rank (decided part) ≤ rank (decided statuses) := by
  by_cases hfinal : ∃ s ∈ statuses, IsFinal s
  · obtain ⟨s, hs, hfinal⟩ := hfinal
    rw [decided_of_final hs hfinal (h s hs hfinal)]
    rcases hfinal with rfl | rfl
    · exact Debugger.rank_le _
    · exact Debugger.rank_le _
  · have hno : ∀ s ∈ statuses, ¬ IsFinal s := fun s hs hs' => hfinal ⟨s, hs, hs'⟩
    rw [decided_of_no_final hno, decided_of_no_final fun s hs => hno s (hpart s hs)]
    exact rank_furthest_le hpart

end Statuses

section Payloads

def DebuggerData.reports (data : DebuggerData) : List Diagnostics := data.diagnostics.toList

def Part.reports : Part → List Diagnostics
  | .debugger data => data.reports
  | .noDebugger => []
  | .noDict _ => []

def Content.reports : Content → List Diagnostics
  | .parts content => content.flatMap Part.reports
  | .debugger data => data.reports
  | .other => []

def Data.reports (data : Data) : List Diagnostics := data.contents.flatMap Content.reports

/-- The reports of all payloads in their order. -/
def reports (datas : List Data) : List Diagnostics := datas.flatMap Data.reports

def statusesOf (probeId : Str) (reports : List Diagnostics) : List ProbeStatus :=
  (reports.filter fun report => report.probeId = probeId).map Diagnostics.status

variable {Query : Type} {parseQs : Str → Query}

def statusOf (probeDiagnostics : ProbeDiagnosticsCollection Query) (probeId : Str) :
    Option ProbeStatus :=
  (probeDiagnostics.get? probeId).map Record.status

/-- The collection has the merged status of every probe. -/
def Agrees (probeDiagnostics : ProbeDiagnosticsCollection Query) (rs : List Diagnostics) : Prop :=
  ∀ probeId, statusOf probeDiagnostics probeId = merge (statusesOf probeId rs)

theorem statusesOf_append (probeId : Str) (rs rs' : List Diagnostics) :
    statusesOf probeId (rs ++ rs') = statusesOf probeId rs ++ statusesOf probeId rs' := by
  simp [statusesOf]

theorem merge_append_singleton (statuses : List ProbeStatus) (s : ProbeStatus) :
    merge (statuses ++ [s]) = some (updateStatus (merge statuses) s) := by
  simp [merge]

theorem Agrees.processDebugger {probeDiagnostics : ProbeDiagnosticsCollection Query}
    {rs : List Diagnostics} (h : Agrees probeDiagnostics rs) (query : Str)
    (data : DebuggerData) :
    Agrees (processDebugger parseQs query probeDiagnostics data) (rs ++ data.reports) := by
  intro probeId
  cases hdata : data.diagnostics with
  | none => simpa [Debugger.processDebugger, DebuggerData.reports, hdata] using h probeId
  | some diagnostics =>
      rw [statusesOf_append]
      by_cases hid : diagnostics.probeId = probeId
      · subst hid
        have hstatuses : statusesOf diagnostics.probeId data.reports = [diagnostics.status] := by
          simp [statusesOf, DebuggerData.reports, hdata]
        rw [hstatuses, merge_append_singleton, ← h]
        simp [Debugger.processDebugger, hdata, statusOf]
      · have hstatuses : statusesOf probeId data.reports = [] := by
          simp [statusesOf, DebuggerData.reports, hdata, hid]
        rw [hstatuses, List.append_nil, ← h]
        simp [Debugger.processDebugger, hdata, statusOf, Dict.get?_set_ne _ _ (Ne.symm hid)]

/-- What a step keeps, a loop of such steps keeps. -/
theorem Agrees.foldlM {α : Type}
    {step : ProbeDiagnosticsCollection Query → α →
      Except Raised (ProbeDiagnosticsCollection Query)}
    {reportsOf : α → List Diagnostics}
    (hstep : ∀ {probeDiagnostics probeDiagnostics' rs a}, Agrees probeDiagnostics rs →
      step probeDiagnostics a = .ok probeDiagnostics' →
      Agrees probeDiagnostics' (rs ++ reportsOf a))
    {as : List α} : ∀ {probeDiagnostics probeDiagnostics' rs}, Agrees probeDiagnostics rs →
      as.foldlM step probeDiagnostics = .ok probeDiagnostics' →
      Agrees probeDiagnostics' (rs ++ as.flatMap reportsOf) := by
  induction as with
  | nil =>
      intro _ _ _ h hloop
      cases hloop
      simpa using h
  | cons a as ih =>
      intro probeDiagnostics probeDiagnostics' rs h hloop
      rw [List.foldlM_cons, Raised.bind_eq_ok] at hloop
      obtain ⟨next, hnext, hloop⟩ := hloop
      rw [List.flatMap_cons, ← List.append_assoc]
      exact ih (hstep h hnext) hloop

theorem Agrees.processPart {query : Str}
    {probeDiagnostics probeDiagnostics' : ProbeDiagnosticsCollection Query}
    {rs : List Diagnostics} {part : Part} (h : Agrees probeDiagnostics rs)
    (hstep : processPart parseQs query probeDiagnostics part = .ok probeDiagnostics') :
    Agrees probeDiagnostics' (rs ++ part.reports) := by
  cases part with
  | debugger data =>
      cases hstep
      exact h.processDebugger query data
  | noDebugger => cases hstep
  | noDict dumped => cases hstep

theorem Agrees.processContent {query : Str}
    {probeDiagnostics probeDiagnostics' : ProbeDiagnosticsCollection Query}
    {rs : List Diagnostics} {content : Content} (h : Agrees probeDiagnostics rs)
    (hstep : processContent parseQs query probeDiagnostics content = .ok probeDiagnostics') :
    Agrees probeDiagnostics' (rs ++ content.reports) := by
  cases content with
  | parts content =>
      rw [Debugger.processContent] at hstep
      exact Agrees.foldlM (fun h hstep => h.processPart hstep) h hstep
  | debugger data =>
      cases hstep
      exact h.processDebugger query data
  | other =>
      cases hstep
      simpa [Content.reports] using h

theorem Agrees.processData
    {probeDiagnostics probeDiagnostics' : ProbeDiagnosticsCollection Query}
    {rs : List Diagnostics} {data : Data} (h : Agrees probeDiagnostics rs)
    (hstep : processData parseQs probeDiagnostics data = .ok probeDiagnostics') :
    Agrees probeDiagnostics' (rs ++ data.reports) := by
  rw [Debugger.processData] at hstep
  exact Agrees.foldlM (fun h hstep => h.processContent hstep) h hstep

theorem agrees_processDiagnosticsData {datas : List Data}
    {probeDiagnostics : ProbeDiagnosticsCollection Query}
    (h : processDiagnosticsData parseQs datas = .ok probeDiagnostics) :
    Agrees probeDiagnostics (reports datas) := by
  have hempty : Agrees (Dict.empty : ProbeDiagnosticsCollection Query) [] := fun _ => rfl
  rw [processDiagnosticsData] at h
  exact Agrees.foldlM (fun h hstep => h.processData hstep) hempty h

/-- The merged status is decided by the first report that is not RECEIVED. -/
theorem statusOf_processDiagnosticsData {datas : List Data}
    {probeDiagnostics : ProbeDiagnosticsCollection Query}
    (h : processDiagnosticsData parseQs datas = .ok probeDiagnostics) (probeId : Str) :
    statusOf probeDiagnostics probeId =
      if statusesOf probeId (reports datas) = [] then none
      else some (decided (statusesOf probeId (reports datas))) := by
  rw [agrees_processDiagnosticsData h, merge_eq]

/-- One payload with the given reports. -/
def payloadOf (rs : List Diagnostics) : Data where
  path := []
  logNumber := none
  query := []
  contents := [.parts (rs.map fun report => .debugger ⟨some report⟩)]

theorem reports_payloadOf (rs : List Diagnostics) : reports [payloadOf rs] = rs := by
  simp [reports, payloadOf, Data.reports, Content.reports, List.flatMap_map, Part.reports,
    DebuggerData.reports]

variable (parseQs) in
theorem exists_process_payloadOf (rs : List Diagnostics) :
    ∃ probeDiagnostics, processDiagnosticsData parseQs [payloadOf rs] = .ok probeDiagnostics := by
  have hparts : ∀ part ∈ rs.map fun report => Part.debugger ⟨some report⟩,
      ∀ probeDiagnostics, ∃ probeDiagnostics',
        processPart parseQs [] probeDiagnostics part = .ok probeDiagnostics' := by
    intro part hpart probeDiagnostics
    obtain ⟨report, -, rfl⟩ := List.mem_map.mp hpart
    exact ⟨_, rfl⟩
  obtain ⟨probeDiagnostics, hloop⟩ := Raised.exists_foldlM_eq_ok hparts Dict.empty
  refine ⟨probeDiagnostics, ?_⟩
  simp only [processDiagnosticsData, processData, payloadOf, processContent, List.foldlM_cons,
    List.foldlM_nil, bind_pure]
  exact hloop

/-- Reports whose statuses of one probe are in another order. -/
theorem exists_reports_perm {probeId : Str} {rs : List Diagnostics} {statuses : List ProbeStatus}
    (h : statuses.Perm (statusesOf probeId rs)) :
    ∃ rs' : List Diagnostics, rs'.Perm rs ∧ statusesOf probeId rs' = statuses := by
  have hown : ((statusesOf probeId rs).map fun status => (⟨probeId, status⟩ : Diagnostics)) =
      rs.filter fun report => report.probeId = probeId := by
    rw [statusesOf, List.map_map]
    conv_rhs => rw [← List.map_id (rs.filter fun report => decide (report.probeId = probeId))]
    refine List.map_congr_left fun report hreport => ?_
    have hid := of_decide_eq_true (List.mem_filter.mp hreport).2
    subst hid
    rfl
  refine ⟨(statuses.map fun status => ⟨probeId, status⟩) ++
    rs.filter fun report => !decide (report.probeId = probeId), ?_, ?_⟩
  · have hperm := (h.map fun status => (⟨probeId, status⟩ : Diagnostics)).append_right
      (rs.filter fun report => !decide (report.probeId = probeId))
    rw [hown] at hperm
    exact hperm.trans (List.filter_append_perm _ rs)
  · have hall : ∀ report ∈ statuses.map fun status => (⟨probeId, status⟩ : Diagnostics),
        decide (report.probeId = probeId) = true := by simp
    rw [statusesOf_append, statusesOf, List.filter_eq_self.mpr hall, List.map_map]
    simp [statusesOf, Function.comp_def]

end Payloads

section Spec

variable {Query : Type} {parseQs : Str → Query}

/-- A status with which `check_all_probes_status` adds a probe to `found_ids`. -/
def CountsAsFound (w : Waiter) (statuses : List ProbeStatus) (probeId : Str)
    (status : ProbeStatus) : Prop :=
  w.isFound (statuses ++ [ProbeStatus.error]) probeId status = .ok true

/-- The probe is found in one of the payloads, with the status that its reports give it. -/
def FoundIn (w : Waiter) (statuses : List ProbeStatus) (datas : List Data) (probeId : Str) :
    Prop :=
  ∃ data ∈ datas, statusesOf probeId data.reports ≠ [] ∧
    CountsAsFound w statuses probeId (decided (statusesOf probeId data.reports))

theorem found_checkAllProbesStatus {w : Waiter} {statuses : List ProbeStatus}
    {probeDiagnostics : ProbeDiagnosticsCollection Query} {foundIds : List Str} {s : WaitState}
    (h : w.checkAllProbesStatus statuses probeDiagnostics foundIds = .ok s) :
    ∀ probeId ∈ s.foundIds, probeId ∈ foundIds ∨
      ∃ status, statusOf probeDiagnostics probeId = some status ∧
        CountsAsFound w statuses probeId status := by
  rw [Waiter.checkAllProbesStatus, Raised.bind_eq_ok] at h
  obtain ⟨found, hloop, h⟩ := h
  cases h
  refine Raised.foldlM_invariant (P := fun found => ∀ probeId ∈ found, probeId ∈ foundIds ∨
    ∃ status, statusOf probeDiagnostics probeId = some status ∧
      CountsAsFound w statuses probeId status) ?_ hloop fun probeId hid => .inl hid
  intro found expectedId found' hstep hfound
  cases hrecord : probeDiagnostics.get? expectedId with
  | none =>
      simp only [Waiter.checkProbe, hrecord] at hstep
      cases hstep
      exact hfound
  | some record =>
      simp only [Waiter.checkProbe, hrecord, Raised.bind_eq_ok] at hstep
      obtain ⟨isFound, hisFound, hstep⟩ := hstep
      cases hstep
      cases isFound with
      | false => exact hfound
      | true =>
          intro probeId hid
          rcases List.mem_cons.mp hid with rfl | hid
          · exact .inr ⟨record.status, by simp [statusOf, hrecord], hisFound⟩
          · exact hfound probeId hid

theorem found_waitForAllProbes {w : Waiter} {statuses : List ProbeStatus} {data : Data}
    {s : WaitState} {result : WaitState × Bool}
    (h : w.waitForAllProbes parseQs statuses s data = .ok result) :
    ∀ probeId ∈ result.1.foundIds,
      probeId ∈ s.foundIds ∨ FoundIn w statuses [data] probeId := by
  intro probeId hid
  rw [Waiter.waitForAllProbes] at h
  split at h
  · cases h
    exact .inl hid
  · split at h
    · obtain ⟨probeDiagnostics, hprocess, h⟩ := Raised.bind_eq_ok.mp h
      split at h
      · cases h
        exact .inl hid
      · obtain ⟨s', hs', h⟩ := Raised.bind_eq_ok.mp h
        cases h
        refine (found_checkAllProbesStatus hs' probeId hid).imp_right ?_
        rintro ⟨status, hstatus, hfound⟩
        rw [statusOf_processDiagnosticsData hprocess] at hstatus
        split at hstatus
        next => cases hstatus
        next hne =>
          cases hstatus
          have hreports : reports [data] = data.reports := by simp [reports]
          rw [hreports] at hne hfound
          exact ⟨data, List.mem_cons_self, hne, hfound⟩
    · cases h
      exact .inl hid

/-- A probe that was found was found in one of the payloads. -/
theorem foundIn_of_foundAfter {w : Waiter} {statuses : List ProbeStatus} {datas : List Data}
    {s : WaitState} (h : w.foundAfter parseQs statuses ⟨[], false⟩ datas = .ok s) :
    ∀ probeId ∈ s.foundIds, FoundIn w statuses datas probeId := by
  refine Raised.foldlM_invariant_of_mem
    (P := fun s : WaitState => ∀ probeId ∈ s.foundIds, FoundIn w statuses datas probeId)
    ?_ h (by simp)
  intro s data hdata s' hstep hs probeId hid
  obtain ⟨result, hresult, rfl⟩ := Raised.map_eq_ok.mp hstep
  rcases found_waitForAllProbes hresult probeId hid with hid | ⟨data', hdata', hfound⟩
  · exact hs probeId hid
  · rw [List.mem_singleton.mp hdata'] at hfound
    exact ⟨data, hdata, hfound⟩

theorem statusesOf_subset {datas seen : List Data} (hseen : ∀ data ∈ seen, data ∈ datas)
    {data : Data} (hdata : data ∈ seen) (probeId : Str) :
    ∀ s ∈ statusesOf probeId data.reports, s ∈ statusesOf probeId (reports datas) := by
  intro s hs
  obtain ⟨report, hreport, rfl⟩ := List.mem_map.mp hs
  obtain ⟨hmem, hid⟩ := List.mem_filter.mp hreport
  exact List.mem_map.mpr ⟨report, List.mem_filter.mpr
    ⟨List.mem_flatMap.mpr ⟨data, hseen data hdata, hmem⟩, hid⟩, rfl⟩

/-- What the merged diagnostics of some payloads say about a probe. -/
structure Merged (parseQs : Str → Query) (datas : List Data)
    (probeDiagnostics : ProbeDiagnosticsCollection Query) (probeId : Str) : Prop where
  decided : statusOf probeDiagnostics probeId =
    if statusesOf probeId (reports datas) = [] then none
    else some (decided (statusesOf probeId (reports datas)))
  order : (∀ datas' probeDiagnostics',
      processDiagnosticsData parseQs datas' = .ok probeDiagnostics' →
      (reports datas').Perm (reports datas) →
      statusOf probeDiagnostics' probeId = statusOf probeDiagnostics probeId) ↔
    Clean (statusesOf probeId (reports datas))
  error : Clean (statusesOf probeId (reports datas)) →
    .error ∈ statusesOf probeId (reports datas) →
    statusOf probeDiagnostics probeId = some .error
  furthest : statusesOf probeId (reports datas) ≠ [] →
    (∀ s ∈ statusesOf probeId (reports datas), ¬ IsFinal s) →
    statusOf probeDiagnostics probeId = some (furthest (statusesOf probeId (reports datas)))
  /-- A probe that was found is not behind in the merged diagnostics. -/
  found : Clean (statusesOf probeId (reports datas)) → ∀ (w : Waiter) statuses seen s,
    (∀ data ∈ seen, data ∈ datas) →
    w.foundAfter parseQs statuses ⟨[], false⟩ seen = .ok s → probeId ∈ s.foundIds →
    ∃ status merged, CountsAsFound w statuses probeId status ∧
      statusOf probeDiagnostics probeId = some merged ∧ rank status ≤ rank merged

theorem order_iff_clean {datas : List Data}
    {probeDiagnostics : ProbeDiagnosticsCollection Query}
    (h : processDiagnosticsData parseQs datas = .ok probeDiagnostics) (probeId : Str) :
    (∀ datas' probeDiagnostics',
      processDiagnosticsData parseQs datas' = .ok probeDiagnostics' →
      (reports datas').Perm (reports datas) →
      statusOf probeDiagnostics' probeId = statusOf probeDiagnostics probeId) ↔
    Clean (statusesOf probeId (reports datas)) := by
  rw [← decided_perm_iff]
  constructor
  · intro horder statuses hperm
    obtain ⟨rs, hrs, hstatuses⟩ := exists_reports_perm hperm
    obtain ⟨probeDiagnostics', h'⟩ := exists_process_payloadOf parseQs rs
    have hsame := horder _ _ h' (by rw [reports_payloadOf]; exact hrs)
    rw [statusOf_processDiagnosticsData h', statusOf_processDiagnosticsData h,
      reports_payloadOf, hstatuses] at hsame
    by_cases hnil : statusesOf probeId (reports datas) = []
    · rw [hnil] at hperm ⊢
      rw [hperm.eq_nil]
    · have hnil' : statuses ≠ [] := by
        rintro rfl
        exact hnil hperm.symm.eq_nil
      rw [if_neg hnil, if_neg hnil'] at hsame
      exact Option.some.inj hsame
  · intro hdecided datas' probeDiagnostics' h' hperm
    have hstatuses : (statusesOf probeId (reports datas')).Perm
        (statusesOf probeId (reports datas)) := (hperm.filter _).map _
    rw [statusOf_processDiagnosticsData h', statusOf_processDiagnosticsData h,
      hdecided _ hstatuses]
    by_cases hnil : statusesOf probeId (reports datas) = []
    · rw [hnil] at hstatuses
      rw [if_pos hnil, if_pos hstatuses.eq_nil]
    · rw [if_neg hnil, if_neg]
      intro hnil'
      rw [hnil'] at hstatuses
      exact hnil hstatuses.symm.eq_nil

end Spec

end Debugger
end SystemTests
