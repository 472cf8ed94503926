import SystemTests.Foundation.Dict
import SystemTests.Foundation.Exception
import SystemTests.Foundation.Wait

/-!
# Acknowledgement of remote configurations (`utils/_remote_config.py`)

`send_state` sends a payload and reads the polls of the library until one
acknowledges it.  The state of every configuration is kept under its identifier
and updated by the reports of the polls that carry the version of the payload.
The polls are those of a live run, in the order in which the wait sees them;
what the payload's `targets` decode to is a parameter.

**Results.**
* `configs_inv`: a kept state is the last one reported.
* `sendState_acknowledged`: what an acknowledgement means.
-/

namespace SystemTests
namespace RemoteConfig

open Foundation Foundation.Text

inductive ApplyState where
  | unknown
  | unacknowledged
  | acknowledged
  | error
deriving DecidableEq

/-- The number of a state, as the libraries report it. -/
def ApplyState.value : ApplyState → Int
  | unknown => 0
  | unacknowledged => 1
  | acknowledged => 2
  | error => 3

/-- An element of `config_states`; the state and the error may be left out. -/
structure ReportedState where
  id : Str
  product : Str
  applyState : Option Int := none
  applyError : Option Str := none

/-- What a poll tells about the client; absent fields have their defaults. -/
structure ClientState where
  targetsVersion : Option Int := none
  configStates : List ReportedState := []

structure Poll where
  path : Str
  state : ClientState := {}

structure ConfigState where
  id : Str
  product : Str
  applyState : Int
  applyError : Str

def ConfigState.update (c : ConfigState) (reported : ReportedState) : ConfigState where
  id := reported.id
  product := reported.product
  applyState := reported.applyState.getD c.applyState
  applyError := reported.applyError.getD c.applyError

structure RemoteConfigStateResults where
  version : Int
  state : ApplyState
  configs : Dict Str ConfigState

structure RawPayload where
  targets : Str
  clientConfigs : List Str := []

inductive Target where
  | tracer
  | backend
deriving DecidableEq

/-- What `send_state` reads of the scenario and the environment. -/
structure Settings where
  scenario : Str
  rcApiEnabled : Bool
  rcBackendEnabled : Bool
  library : Str
  failFast : Bool

section SendState

def configPath : Str := "/v0.7/config"

/-- `_, _, product, config_id, _ = client_config.split("/")` -/
def pathParts (clientConfig : Str) : Option (Str × Str) :=
  match split ['/'] clientConfig with
  | [_, _, product, configId, _] => some (product, configId)
  | _ => none

def noResponse (product configId : Str) : ConfigState where
  id := configId
  product
  applyState := ApplyState.unknown.value
  applyError := "<No known response from the library>"

def unpackError (got : Nat) : Raised :=
  if got < 5 then .valueError
    ("not enough values to unpack (expected 5, got ".toList ++ (Nat.repr got).toList ++ [')'])
  else .valueError "too many values to unpack (expected 5)"

def addConfig (configs : Dict Str ConfigState) (clientConfig : Str) :
    Except Raised (Dict Str ConfigState) := do
  let parts ← Raised.ofOption (unpackError (split ['/'] clientConfig).length)
    (pathParts clientConfig)
  return configs.set parts.2 (noResponse parts.1 parts.2)

/-- One reported state is taken over by the configuration of its identifier and product. -/
def report (configs : Dict Str ConfigState) (reported : ReportedState) : Dict Str ConfigState :=
  match configs.get? reported.id with
  | none => configs
  | some c => if reported.product = c.product then configs.set reported.id (c.update reported)
      else configs

/-- The callback that reads one poll. -/
def remoteConfigApplied (clientConfigs : List Str) (waitForAcknowledgedStatus : Bool)
    (stateVersion version : Int) (results : RemoteConfigStateResults) (data : Poll) :
    Bool × RemoteConfigStateResults :=
  if data.path ≠ configPath then (false, results)
  else if clientConfigs.length = 0 then
    let found := data.state.targetsVersion = some stateVersion && data.state.configStates.isEmpty
    (found, if found then { results with state := .acknowledged } else results)
  else if data.state.targetsVersion ≠ some version then (false, results)
  else
    let configs := data.state.configStates.foldl report results.configs
    if waitForAcknowledgedStatus &&
        configs.values.any fun c => c.applyState = ApplyState.unknown.value then
      (false, { results with configs })
    else (true, { results with configs, state := .acknowledged })

/-- The assertions on the scenario before anything is sent. -/
def checkTarget (settings : Settings) (target : Target) : Except Raised Unit :=
  if ¬ settings.rcApiEnabled then
    throw (.assertionError ("Remote config API is not enabled on ".toList ++ settings.scenario))
  else match target with
    | .backend =>
        if settings.rcBackendEnabled then return ()
        else throw (.assertionError
          ("Remote config backend is not enabled on ".toList ++ settings.scenario))
    | .tracer =>
        if settings.rcBackendEnabled then throw (.assertionError
          ("Remote config backend is enabled on ".toList ++ settings.scenario))
        else return ()

def sendState (readTargets : Str → Except Raised Int) (settings : Settings)
    (rawPayload : RawPayload) (target : Target) (waitForAcknowledgedStatus : Bool)
    (stateVersion : Int) (polls : List Poll) : Except Raised RemoteConfigStateResults := do
  checkTarget settings target
  let version ← readTargets rawPayload.targets
  let configs ← rawPayload.clientConfigs.foldlM addConfig .empty
  let (rv, results) := waitFor
    (remoteConfigApplied rawPayload.clientConfigs waitForAcknowledgedStatus stateVersion version)
    ⟨stateVersion, .unknown, configs⟩ polls
  if !rv && settings.library = "ruby" && settings.failFast then
    throw (.assertionError "Remote config was not applied")
  else return results

end SendState

section Reports

/-- The reports on a configuration by the polls that carry a version. -/
def reportsOf (version : Int) (product configId : Str) (polls : List Poll) :
    List ReportedState :=
  (polls.filter fun p => p.path = configPath && p.state.targetsVersion = some version).flatMap
    fun p => p.state.configStates.filter fun r => r.id = configId && r.product = product

def lastApplyState (reports : List ReportedState) : Option Int :=
  (reports.filterMap ReportedState.applyState).getLast?

theorem lastApplyState_append (rs rs' : List ReportedState) :
    lastApplyState (rs ++ rs') = (lastApplyState rs').or (lastApplyState rs) := by
  rw [lastApplyState, List.filterMap_append, List.getLast?_append]
  rfl

theorem reportsOf_concat (version : Int) (product configId : Str) (polls : List Poll)
    (poll : Poll) :
    reportsOf version product configId (polls ++ [poll]) =
      reportsOf version product configId polls ++
        if poll.path = configPath ∧ poll.state.targetsVersion = some version then
          poll.state.configStates.filter fun r => r.id = configId && r.product = product
        else [] := by
  rw [reportsOf, List.filter_append, List.flatMap_append]
  by_cases h : poll.path = configPath ∧ poll.state.targetsVersion = some version
  · rw [if_pos h]
    simp [reportsOf, h]
  · have hfilter : (poll.path = configPath && poll.state.targetsVersion = some version) =
        false := by
      simpa using h
    rw [if_neg h]
    simp [reportsOf, hfilter]

theorem mem_reportsOf {version : Int} {product configId : Str} {polls : List Poll}
    {r : ReportedState} (h : r ∈ reportsOf version product configId polls) :
    ∃ p ∈ polls, p.path = configPath ∧ p.state.targetsVersion = some version ∧
      r ∈ p.state.configStates ∧ r.id = configId ∧ r.product = product := by
  obtain ⟨p, hp, hr⟩ := List.mem_flatMap.mp h
  obtain ⟨hmem, hp⟩ := List.mem_filter.mp hp
  obtain ⟨hr, hid⟩ := List.mem_filter.mp hr
  simp only [Bool.and_eq_true, decide_eq_true_eq] at hp hid
  exact ⟨p, hmem, hp.1, hp.2, hr, hid.1, hid.2⟩

theorem exists_of_lastApplyState {reports : List ReportedState} {s : Int}
    (h : lastApplyState reports = some s) : ∃ r ∈ reports, r.applyState = some s :=
  List.mem_filterMap.mp (List.mem_of_getLast? h)

/-- The state kept for a configuration, with the last reported apply state. -/
def KeepsLast (configs : Dict Str ConfigState) (product configId : Str) (last : Option Int) :
    Prop :=
  ∃ c, configs.get? configId = some c ∧ c.id = configId ∧ c.product = product ∧
    c.applyState = last.getD ApplyState.unknown.value

theorem keepsLast_report {configs : Dict Str ConfigState} {product configId : Str}
    {last : Option Int} (h : KeepsLast configs product configId last) (r : ReportedState) :
    KeepsLast (report configs r) product configId
      ((lastApplyState ([r].filter fun r => r.id = configId && r.product = product)).or last) := by
  obtain ⟨c, hget, hid, hproduct, hstate⟩ := h
  by_cases hr : r.id = configId
  · subst hr
    by_cases hp : r.product = c.product
    · have hfilter : (r.product = product) := hp.trans hproduct
      rw [report, hget]
      simp only [hp, if_true]
      refine ⟨c.update r, Dict.get?_set_self _ _ _, rfl, hfilter, ?_⟩
      have hsingle : ([r].filter fun r' => r'.id = r.id && r'.product = product) = [r] := by
        simp [hfilter]
      rw [hsingle, ConfigState.update, hstate]
      cases hs : r.applyState with
      | none => simp [lastApplyState, hs]
      | some s => simp [lastApplyState, hs]
    · have hfilter : ¬ r.product = product := fun h => hp (h.trans hproduct.symm)
      rw [report, hget]
      simp only [hp, if_false]
      refine ⟨c, hget, hid, hproduct, ?_⟩
      simpa [hfilter, lastApplyState] using hstate
  · have hkept : (report configs r).get? configId = some c := by
      unfold report
      split
      · exact hget
      · split_ifs
        · rw [Dict.get?_set_ne _ _ (fun h => hr h.symm)]
          exact hget
        · exact hget
    refine ⟨c, hkept, hid, hproduct, ?_⟩
    simpa [hr, lastApplyState] using hstate

theorem keepsLast_reports {product configId : Str} (rs : List ReportedState) :
    ∀ {configs : Dict Str ConfigState} {last : Option Int},
      KeepsLast configs product configId last →
        KeepsLast (rs.foldl report configs) product configId
          ((lastApplyState (rs.filter fun r => r.id = configId && r.product = product)).or
            last) := by
  induction rs with
  | nil =>
      intro configs last h
      simpa [lastApplyState] using h
  | cons r rs ih =>
      intro configs last h
      have hrest := ih (keepsLast_report h r)
      rw [← Option.or_assoc, ← lastApplyState_append, ← List.filter_append,
        List.singleton_append] at hrest
      exact hrest

end Reports

section Configs

variable {clientConfigs : List Str} {configs : Dict Str ConfigState}

/-- Every path of the payload has a configuration, whose product is that of the last path
with the same identifier. -/
theorem keepsLast_initial (hunique : ∀ path₁ ∈ clientConfigs, ∀ path₂ ∈ clientConfigs,
      ∀ product₁ product₂ configId, pathParts path₁ = some (product₁, configId) →
        pathParts path₂ = some (product₂, configId) → product₁ = product₂)
    (h : clientConfigs.foldlM addConfig .empty = .ok configs) :
    ∀ path ∈ clientConfigs, ∃ product configId, pathParts path = some (product, configId) ∧
      KeepsLast configs product configId none := by
  intro path hpath
  obtain ⟨l₁, l₂, s, s', rfl, -, hs, hrest⟩ := Raised.foldlM_eq_ok_split h hpath
  simp only [addConfig, Raised.bind_eq_ok, Raised.ofOption_eq_ok_iff, Raised.pure_eq_ok] at hs
  obtain ⟨⟨product, configId⟩, hparts, rfl⟩ := hs
  refine ⟨product, configId, hparts, ?_⟩
  have hfirst : KeepsLast (s.set configId (noResponse product configId)) product configId none :=
    ⟨_, Dict.get?_set_self _ _ _, rfl, rfl, rfl⟩
  -- a later path with the same identifier has the same product
  have hkept : ∀ (l : List Str) (d : Dict Str ConfigState),
      (∀ path' ∈ l, path' ∈ l₁ ++ path :: l₂) → l.foldlM addConfig d = .ok configs →
        KeepsLast d product configId none → KeepsLast configs product configId none := by
    intro l
    induction l with
    | nil =>
        intro d _ hd hkeeps
        rw [List.foldlM_nil, Raised.pure_eq_ok] at hd
        exact hd ▸ hkeeps
    | cons path' l ih =>
        intro d hmem hd hkeeps
        rw [List.forall_mem_cons] at hmem
        rw [List.foldlM_cons, Raised.bind_eq_ok] at hd
        obtain ⟨d', hd', hl⟩ := hd
        refine ih d' hmem.2 hl ?_
        simp only [addConfig, Raised.bind_eq_ok, Raised.ofOption_eq_ok_iff,
          Raised.pure_eq_ok] at hd'
        obtain ⟨⟨product', configId'⟩, hparts', rfl⟩ := hd'
        by_cases hid : configId = configId'
        · subst hid
          obtain rfl := hunique path (by simp) path' hmem.1 _ _ _ hparts hparts'
          exact ⟨_, Dict.get?_set_self _ _ _, rfl, rfl, rfl⟩
        · obtain ⟨c, hget, hc⟩ := hkeeps
          exact ⟨c, by rw [Dict.get?_set_ne _ _ hid, hget], hc⟩
  exact hkept l₂ _ (fun path' hpath' => by simp [hpath']) hrest hfirst

end Configs

section Acknowledged

variable {clientConfigs : List Str} {waitForStatus : Bool} {stateVersion version : Int}

/-- The kept states are the last ones of the polls that were read. -/
def KeepsReports (clientConfigs : List Str) (version : Int) (read : List Poll)
    (results : RemoteConfigStateResults) : Prop :=
  ∀ path ∈ clientConfigs, ∃ product configId, pathParts path = some (product, configId) ∧
    KeepsLast results.configs product configId
      (lastApplyState (reportsOf version product configId read))

/-- What reading one poll can do. -/
theorem remoteConfigApplied_cases (clientConfigs : List Str) (waitForStatus : Bool)
    (stateVersion version : Int) (results : RemoteConfigStateResults) (data : Poll) :
    ((data.path ≠ configPath ∨
        (clientConfigs = [] ∧
          ¬ (data.state.targetsVersion = some stateVersion ∧ data.state.configStates = [])) ∨
        (clientConfigs ≠ [] ∧ data.state.targetsVersion ≠ some version)) ∧
      remoteConfigApplied clientConfigs waitForStatus stateVersion version results data =
        (false, results)) ∨
    ((data.path = configPath ∧ clientConfigs = [] ∧
        data.state.targetsVersion = some stateVersion ∧ data.state.configStates = []) ∧
      remoteConfigApplied clientConfigs waitForStatus stateVersion version results data =
        (true, { results with state := .acknowledged })) ∨
    ((data.path = configPath ∧ clientConfigs ≠ [] ∧
        data.state.targetsVersion = some version) ∧
      ((waitForStatus = true ∧
          remoteConfigApplied clientConfigs waitForStatus stateVersion version results data =
            (false, { results with
              configs := data.state.configStates.foldl report results.configs })) ∨
        ((waitForStatus = true →
            ∀ c ∈ (data.state.configStates.foldl report results.configs).values,
              c.applyState ≠ ApplyState.unknown.value) ∧
          remoteConfigApplied clientConfigs waitForStatus stateVersion version results data =
            (true, { results with
              configs := data.state.configStates.foldl report results.configs
              state := .acknowledged })))) := by
  unfold remoteConfigApplied
  by_cases hpath : data.path = configPath
  · rw [if_neg (not_not_intro hpath)]
    by_cases hnil : clientConfigs = []
    · rw [if_pos (List.length_eq_zero_iff.mpr hnil)]
      by_cases hfound :
          data.state.targetsVersion = some stateVersion ∧ data.state.configStates = []
      · exact Or.inr (Or.inl ⟨⟨hpath, hnil, hfound⟩, by simp [hfound]⟩)
      · refine Or.inl ⟨Or.inr (Or.inl ⟨hnil, hfound⟩), ?_⟩
        simp only [Bool.and_eq_true, decide_eq_true_eq, List.isEmpty_iff]
        rw [if_neg hfound]
        simpa using hfound
    · rw [if_neg (fun h => hnil (List.length_eq_zero_iff.mp h))]
      by_cases hversion : data.state.targetsVersion = some version
      · rw [if_neg (not_not_intro hversion)]
        refine Or.inr (Or.inr ⟨⟨hpath, hnil, hversion⟩, ?_⟩)
        simp only [Bool.and_eq_true, List.any_eq_true, decide_eq_true_eq]
        split_ifs with hany
        · exact Or.inl ⟨hany.1, rfl⟩
        · refine Or.inr ⟨?_, rfl⟩
          intro hwait c hc heq
          exact hany ⟨hwait, c, hc, heq⟩
      · rw [if_pos hversion]
        exact Or.inl ⟨Or.inr (Or.inr ⟨hnil, hversion⟩), rfl⟩
  · rw [if_pos hpath]
    exact Or.inl ⟨Or.inl hpath, rfl⟩

/-- **One poll** updates the kept states with its reports. -/
theorem configs_inv (read : List Poll) (results : RemoteConfigStateResults) (data : Poll)
    (h : KeepsReports clientConfigs version read results) :
    KeepsReports clientConfigs version (read ++ [data])
      (remoteConfigApplied clientConfigs waitForStatus stateVersion version results data).2 := by
  intro path hpath
  obtain ⟨product, configId, hparts, hkeeps⟩ := h path hpath
  refine ⟨product, configId, hparts, ?_⟩
  have hne : clientConfigs ≠ [] := List.ne_nil_of_mem hpath
  rw [reportsOf_concat]
  rcases remoteConfigApplied_cases clientConfigs waitForStatus stateVersion version results data
    with ⟨hignored, heq⟩ | ⟨⟨-, hnil, -⟩, -⟩ | ⟨⟨hconfig, -, hversion⟩, hread⟩
  · have hnot : ¬ (data.path = configPath ∧ data.state.targetsVersion = some version) := by
      rintro ⟨hconfig, hversion⟩
      rcases hignored with hother | ⟨hnil, -⟩ | ⟨-, hother⟩
      · exact hother hconfig
      · exact hne hnil
      · exact hother hversion
    rw [heq, if_neg hnot, List.append_nil]
    exact hkeeps
  · exact absurd hnil hne
  · rw [if_pos ⟨hconfig, hversion⟩, lastApplyState_append]
    rcases hread with ⟨-, heq⟩ | ⟨-, heq⟩
    · rw [heq]
      exact keepsLast_reports _ hkeeps
    · rw [heq]
      exact keepsLast_reports _ hkeeps

theorem remoteConfigApplied_refused (results : RemoteConfigStateResults) (data : Poll)
    (hstate : results.state = .unknown)
    (h : (remoteConfigApplied clientConfigs waitForStatus stateVersion version results data).1 =
      false) :
    (remoteConfigApplied clientConfigs waitForStatus stateVersion version results data).2.state =
      .unknown := by
  rcases remoteConfigApplied_cases clientConfigs waitForStatus stateVersion version results data
    with ⟨-, heq⟩ | ⟨-, heq⟩ | ⟨-, ⟨-, heq⟩ | ⟨-, heq⟩⟩
  · rw [heq]
    exact hstate
  · rw [heq] at h
    exact absurd h (by simp)
  · rw [heq]
    exact hstate
  · rw [heq] at h
    exact absurd h (by simp)

/-- An accepted poll leaves no configuration unknown. -/
theorem remoteConfigApplied_accepted (hne : clientConfigs ≠ [])
    (results : RemoteConfigStateResults) (data : Poll)
    (h : (remoteConfigApplied clientConfigs true stateVersion version results data).1 = true) :
    ∀ c ∈ (remoteConfigApplied clientConfigs true stateVersion version results
      data).2.configs.values, c.applyState ≠ ApplyState.unknown.value := by
  rcases remoteConfigApplied_cases clientConfigs true stateVersion version results data
    with ⟨-, heq⟩ | ⟨⟨-, hnil, -⟩, -⟩ | ⟨-, ⟨-, heq⟩ | ⟨hknown, heq⟩⟩
  · rw [heq] at h
    exact absurd h (by simp)
  · exact absurd hnil hne
  · rw [heq] at h
    exact absurd h (by simp)
  · rw [heq]
    exact hknown rfl

/-- The state of the results is acknowledged when the wait succeeds, and only then. -/
theorem state_waitFor {configs : Dict Str ConfigState} (polls : List Poll) :
    (waitFor (remoteConfigApplied clientConfigs waitForStatus stateVersion version)
        ⟨stateVersion, .unknown, configs⟩ polls).2.state = .acknowledged ↔
      (waitFor (remoteConfigApplied clientConfigs waitForStatus stateVersion version)
        ⟨stateVersion, .unknown, configs⟩ polls).1 = true := by
  constructor
  · intro hstate
    by_contra hfalse
    have hunknown := waitFor_refused
      (P := fun results => results.state = .unknown)
      (fun results data => remoteConfigApplied_refused results data)
      (s := ⟨stateVersion, .unknown, configs⟩) rfl (by simpa using hfalse)
    rw [hstate] at hunknown
    exact absurd hunknown (by simp)
  · intro htrue
    obtain ⟨data, -, results, -, haccept, hfinal⟩ :=
      exists_accepted (P := fun _ => True) (fun _ _ _ => trivial) trivial htrue
    rw [← hfinal]
    rcases remoteConfigApplied_cases clientConfigs waitForStatus stateVersion version results data
      with ⟨-, heq⟩ | ⟨-, heq⟩ | ⟨-, ⟨-, heq⟩ | ⟨-, heq⟩⟩
    · rw [heq] at haccept
      exact absurd haccept (by simp)
    · rw [heq]
    · rw [heq] at haccept
      exact absurd haccept (by simp)
    · rw [heq]

end Acknowledged

section Meaning

/-- The polls that a call reads before it returns. -/
def pollsRead (readTargets : Str → Except Raised Int) (rawPayload : RawPayload)
    (waitForStatus : Bool) (stateVersion : Int) (polls : List Poll) : List Poll :=
  match readTargets rawPayload.targets, rawPayload.clientConfigs.foldlM addConfig .empty with
  | .ok version, .ok configs =>
      eventsRead
        (remoteConfigApplied rawPayload.clientConfigs waitForStatus stateVersion version)
        ⟨stateVersion, .unknown, configs⟩ polls
  | _, _ => []

/-- Every configuration of a payload was last reported, by the polls that carry the
version, as acknowledged or as an error. -/
def AllReported (clientConfigs : List Str) (version : Int) (read : List Poll) : Prop :=
  ∀ path ∈ clientConfigs, ∃ product configId s, pathParts path = some (product, configId) ∧
    lastApplyState (reportsOf version product configId read) = some s ∧
      (s = ApplyState.acknowledged.value ∨ s = ApplyState.error.value)

/-- Some poll carries the version and no configuration. -/
def PolledEmpty (version : Int) (polls : List Poll) : Prop :=
  ∃ p ∈ polls, p.path = configPath ∧ p.state.targetsVersion = some version ∧
    p.state.configStates = []

/-- Paths of one identifier have one product. -/
def OneProduct (clientConfigs : List Str) : Prop :=
  ∀ path₁ ∈ clientConfigs, ∀ path₂ ∈ clientConfigs, ∀ product₁ product₂ configId,
    pathParts path₁ = some (product₁, configId) → pathParts path₂ = some (product₂, configId) →
      product₁ = product₂

/-- The polls with the version report no other state than unknown, acknowledged and error. -/
def NeverUnacknowledged (clientConfigs : List Str) (version : Int) (polls : List Poll) : Prop :=
  ∀ p ∈ polls, p.path = configPath → p.state.targetsVersion = some version →
    ∀ r ∈ p.state.configStates, ∀ path ∈ clientConfigs,
      pathParts path = some (r.product, r.id) → ∀ s, r.applyState = some s →
        s = ApplyState.unknown.value ∨ s = ApplyState.acknowledged.value ∨
          s = ApplyState.error.value

theorem sendState_eq_ok {readTargets : Str → Except Raised Int} {settings : Settings}
    {rawPayload : RawPayload} {target : Target} {waitForStatus : Bool} {stateVersion : Int}
    {polls : List Poll} {results : RemoteConfigStateResults}
    (h : sendState readTargets settings rawPayload target waitForStatus stateVersion polls =
      .ok results) :
    ∃ version configs, readTargets rawPayload.targets = .ok version ∧
      rawPayload.clientConfigs.foldlM addConfig .empty = .ok configs ∧
      results = (waitFor (remoteConfigApplied rawPayload.clientConfigs waitForStatus stateVersion
        version) ⟨stateVersion, .unknown, configs⟩ polls).2 := by
  simp only [sendState, Raised.bind_eq_ok] at h
  obtain ⟨-, -, version, hversion, configs, hconfigs, h⟩ := h
  refine ⟨version, configs, hversion, hconfigs, ?_⟩
  split_ifs at h
  rw [Raised.pure_eq_ok] at h
  exact h.symm

/-- A payload without configurations is acknowledged by any poll without configurations. -/
theorem waitFor_empty {configs : Dict Str ConfigState} (waitForStatus : Bool)
    (stateVersion version : Int) (polls : List Poll) :
    (waitFor (remoteConfigApplied [] waitForStatus stateVersion version)
        ⟨stateVersion, .unknown, configs⟩ polls).1 = true ↔ PolledEmpty stateVersion polls := by
  have hstep : ∀ (results : RemoteConfigStateResults) (data : Poll),
      (remoteConfigApplied [] waitForStatus stateVersion version results data).1 =
        decide (data.path = configPath ∧ data.state.targetsVersion = some stateVersion ∧
          data.state.configStates = []) := by
    intro results data
    rcases remoteConfigApplied_cases [] waitForStatus stateVersion version results data
      with ⟨hignored, heq⟩ | ⟨⟨hconfig, -, hversion, hnil⟩, heq⟩ | ⟨⟨-, hne, -⟩, -⟩
    · rw [heq]
      rcases hignored with hother | ⟨-, hother⟩ | ⟨hne, -⟩
      · simp [hother]
      · simp [hother]
      · exact absurd rfl hne
    · simp [heq, hconfig, hversion, hnil]
    · exact absurd rfl hne
  rw [waitFor_fst hstep, List.any_eq_true]
  simp [PolledEmpty]

/-- In a run that never reports an unacknowledged configuration, every configuration is
reported when the wait succeeds. -/
theorem allReported_of_waitFor {clientConfigs : List Str} {configs : Dict Str ConfigState}
    {stateVersion version : Int} {polls : List Poll} (hproduct : OneProduct clientConfigs)
    (hreports : NeverUnacknowledged clientConfigs version polls)
    (hconfigs : clientConfigs.foldlM addConfig .empty = .ok configs)
    (hne : clientConfigs ≠ [])
    (h : (waitFor (remoteConfigApplied clientConfigs true stateVersion version)
      ⟨stateVersion, .unknown, configs⟩ polls).1 = true) :
    AllReported clientConfigs version
      (eventsRead (remoteConfigApplied clientConfigs true stateVersion version)
        ⟨stateVersion, .unknown, configs⟩ polls) := by
  have hinitial : KeepsReports clientConfigs version [] ⟨stateVersion, .unknown, configs⟩ :=
    keepsLast_initial hproduct hconfigs
  have hstep : ∀ read results data, KeepsReports clientConfigs version read results →
      KeepsReports clientConfigs version (read ++ [data])
        (remoteConfigApplied clientConfigs true stateVersion version results data).2 :=
    configs_inv
  have hkept := waitFor_inv hstep polls [] _ hinitial
  rw [List.nil_append] at hkept
  intro path hpath
  obtain ⟨product, configId, hparts, c, hget, -, -, hstate⟩ := hkept path hpath
  -- the accepted poll left no configuration unknown
  have hknown : c.applyState ≠ ApplyState.unknown.value := by
    obtain ⟨data, -, results, -, haccept, hfinal⟩ :=
      exists_accepted (P := fun _ => True) (fun _ _ _ => trivial) trivial h
    refine remoteConfigApplied_accepted hne results data haccept c ?_
    rw [hfinal]
    exact List.mem_map.mpr ⟨(configId, c), (Dict.mem_items_iff _ _ _).mpr hget, rfl⟩
  obtain ⟨s, hs⟩ : ∃ s, lastApplyState (reportsOf version product configId
      (eventsRead (remoteConfigApplied clientConfigs true stateVersion version)
        ⟨stateVersion, .unknown, configs⟩ polls)) = some s := by
    rw [← Option.ne_none_iff_exists']
    intro hnone
    rw [hnone] at hstate
    exact hknown hstate
  refine ⟨product, configId, s, hparts, hs, ?_⟩
  obtain ⟨r, hr, hrs⟩ := exists_of_lastApplyState hs
  obtain ⟨p, hp, hconfig, hversion, hreported, rfl, rfl⟩ := mem_reportsOf hr
  have hmem := (prefix_eventsRead polls _).subset hp
  rcases hreports p hmem hconfig hversion r hreported path hpath hparts s hrs with
    hunknown | hanswer
  · rw [hs, Option.getD_some] at hstate
    exact absurd (hstate.trans hunknown) hknown
  · exact hanswer

/--
**What an acknowledgement means.**  When paths of one identifier have one
product and no poll reports a configuration of the payload as unacknowledged, a
call that returns the acknowledged state has seen every configuration reported,
last as acknowledged or as an error.  A payload without configurations is
acknowledged exactly when a poll carries its version and no configuration.
-/
theorem sendState_acknowledged (readTargets : Str → Except Raised Int) (settings : Settings)
    (rawPayload : RawPayload) (target : Target) (stateVersion : Int) (polls : List Poll)
    (results : RemoteConfigStateResults)
    (h : sendState readTargets settings rawPayload target true stateVersion polls = .ok results)
    (hversion : readTargets rawPayload.targets = .ok stateVersion) :
    (OneProduct rawPayload.clientConfigs →
      NeverUnacknowledged rawPayload.clientConfigs stateVersion polls →
        results.state = .acknowledged →
          AllReported rawPayload.clientConfigs stateVersion
            (pollsRead readTargets rawPayload true stateVersion polls)) ∧
      (rawPayload.clientConfigs = [] →
        (results.state = .acknowledged ↔ PolledEmpty stateVersion polls)) := by
  obtain ⟨version, configs, hversion', hconfigs, rfl⟩ := sendState_eq_ok h
  obtain rfl : stateVersion = version := by
    rw [hversion] at hversion'
    exact Except.ok.inj hversion'
  rw [state_waitFor]
  constructor
  · intro hproduct hreports hstate
    by_cases hne : rawPayload.clientConfigs = []
    · rw [hne]
      intro path hpath
      exact absurd hpath (by simp)
    · rw [pollsRead, hversion, hconfigs]
      exact allReported_of_waitFor hproduct hreports hconfigs hne hstate
  · intro hnil
    rw [hnil]
    exact waitFor_empty _ _ _ _

/-- A tracer scenario. -/
def tracerSettings : Settings := ⟨"DEFAULT", true, false, "python", false⟩

def oneConfig : RawPayload := ⟨"e30=", ["datadog/2/ASM_FEATURES/asm/config".toList]⟩

/-- A poll of version 1 that reports the configuration in a state. -/
def pollWith (state : ApplyState) : Poll :=
  ⟨configPath, some 1, [⟨"asm", "ASM_FEATURES", some state.value, none⟩]⟩

theorem sendState_acknowledged_oneConfig :
    ∃ results, sendState (fun _ => .ok 1) tracerSettings oneConfig .tracer true 1
        [pollWith .acknowledged] = .ok results ∧
      AllReported oneConfig.clientConfigs 1 (pollsRead (fun _ => .ok 1) oneConfig true 1
        [pollWith .acknowledged]) := by
  refine ⟨_, rfl, (sendState_acknowledged (fun _ => .ok 1) tracerSettings oneConfig .tracer 1
    [pollWith .acknowledged] _ rfl rfl).1 ?_ ?_ (by decide)⟩
  · intro path₁ h₁ path₂ h₂ product₁ product₂ configId hparts₁ hparts₂
    rw [List.mem_singleton.mp h₁] at hparts₁
    rw [List.mem_singleton.mp h₂, hparts₁] at hparts₂
    simpa using hparts₂
  · intro p hp _ _ r hr _ _ _ s hs
    obtain rfl := List.mem_singleton.mp hp
    obtain rfl := List.mem_singleton.mp hr
    exact Or.inr (Or.inl (Option.some.inj hs).symm)

/-- A configuration that the library reports as unacknowledged is acknowledged by the call. -/
theorem sendState_accepts_unacknowledged :
    ¬ ∀ (rawPayload : RawPayload) (polls : List Poll) (results : RemoteConfigStateResults),
      sendState (fun _ => .ok 1) tracerSettings rawPayload .tracer true 1 polls = .ok results →
        results.state = .acknowledged →
          AllReported rawPayload.clientConfigs 1
            (pollsRead (fun _ => .ok 1) rawPayload true 1 polls) := by
  intro h
  obtain ⟨product, configId, s, hparts, hs, hstate⟩ :=
    h oneConfig [pollWith .unacknowledged] _ rfl (by decide) _ (List.mem_singleton_self _)
  obtain ⟨rfl, rfl⟩ : "ASM_FEATURES".toList = product ∧ "asm".toList = configId := by
    have hconcrete : pathParts "datadog/2/ASM_FEATURES/asm/config" =
        some ("ASM_FEATURES".toList, "asm".toList) := by decide
    rw [hconcrete] at hparts
    simpa using hparts
  obtain rfl : (1 : Int) = s := Option.some.inj hs
  exact absurd hstate (by decide)

end Meaning

end RemoteConfig
end SystemTests
