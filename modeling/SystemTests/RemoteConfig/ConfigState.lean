import SystemTests.Foundation.Run
import SystemTests.RemoteConfig.Tuf

/-!
# The state of remote config (`utils/_remote_config.py`)

A `_RemoteConfigState` keeps a `ClientConfig` for each path.  `apply` sends them
as a payload; the length and the hash of a file stand in the signed targets.
All configs are kept in a store that the states share: `None` for a config means
the one that is known already, whose file is not sent again.

**Results.**
* `buildBaseCommand_correct`: a command of payloads tells the lengths of its files.
* `run_correct`: what is sent in a run.
* `exists_toPayload`, `loads_of_newClientConfig`: configs from dictionaries can be sent.
* `rawLength_of_payloadCorrect`: why a length in characters is wrong.
-/

namespace SystemTests
namespace RemoteConfig

open Foundation Foundation.Text Foundation.Json

section ClientConfig

/-- The argument `config`: a dictionary, its text in base64, or `None`. -/
inductive Config where
  | dict (members : List (List Nat × Json)) (valid : Valid (.object members))
  | encoded (raw : Str)
  | none

structure ClientConfig where
  path : Str
  raw : Str
  rawDecoded : Str
  configFileVersion : Int
  rawLength : Nat
  rawSha256 : Str

def jsonToBase64 (v : Json) : Str := Base64.encode (Utf8.encode (jsonDump .indented v))

def Config.raw : Config → Str
  | dict members _ => jsonToBase64 (.object members)
  | encoded raw => raw
  | none => jsonToBase64 .null

variable (crypto : Crypto)

/-- `ClientConfig.__init__`; the store is the class attribute `_store`. -/
def newClientConfig (store : Dict Str ClientConfig) (path : Str) (config : Config)
    (configFileVersion : Int) : Except Raised (ClientConfig × Dict Str ClientConfig) := do
  let bytes ← Raised.ofOption (.valueError "base64") (Base64.decode config.raw)
  let rawDecoded ← Raised.ofOption (.valueError "utf-8") (Utf8.decode bytes)
  match config with
  | .none =>
      let stored ← Raised.ofOption (.valueError ("Config for ".toList ++ path ++ " not found".toList))
        (store.get? path)
      return (⟨path, config.raw, rawDecoded, configFileVersion, stored.rawLength,
        stored.rawSha256⟩, store)
  | _ =>
      let c := ⟨path, config.raw, rawDecoded, configFileVersion, rawDecoded.length,
        crypto.sha256 bytes⟩
      return (c, store.set path c)

/-- The property `raw_deserialized` -/
def ClientConfig.rawDeserialized (c : ClientConfig) : Except Raised Json :=
  Raised.ofOption (.valueError "json") (jsonLoad c.rawDecoded)

def ClientConfig.getTargetFile (c : ClientConfig) : TargetFile := ⟨c.path, c.raw⟩

/-- The entry of a file in the signed targets. -/
def targetEntry (version : Int) (sha256 : Str) (length : Nat) : Json :=
  fields [
    ("custom", fields [("v", int version)]),
    ("hashes", fields [("sha256", text sha256)]),
    ("length", int length)]

def ClientConfig.getTarget (c : ClientConfig) : Json :=
  targetEntry c.configFileVersion c.rawSha256 c.rawLength

end ClientConfig

section BaseCommand

variable (crypto : Crypto)

/-- A payload of `_build_base_command`: a value of JSON for each path. -/
structure PathPayload where
  path : Str
  payload : Json
  valid : Valid payload

def PathPayload.raw (p : PathPayload) : Str := jsonToBase64 p.payload

/-- `base64.b64decode` of what was just encoded -/
def PathPayload.bytes (p : PathPayload) : List UInt8 := Utf8.encode (jsonDump .indented p.payload)

/-- `_build_base_command`; the paths are the keys of a dictionary. -/
def buildBaseCommand (pathPayloads : List PathPayload) (version : Nat) : Payload where
  targets := jsonToBase64 (buildSignedTargets crypto version
    (pathPayloads.map fun p => (p.path, targetEntry 1 (crypto.sha256 p.bytes) p.bytes.length))
      defaultOpaqueBackendState defaultExpires)
  targetFiles := some (pathPayloads.map fun p => ⟨p.path, p.raw⟩)
  clientConfigs := some (pathPayloads.map PathPayload.path)

end BaseCommand

section State

structure RemoteConfigState where
  targets : Dict Str ClientConfig
  version : Nat
  expires : Str
  opaqueBackendState : Str
  resetPending : Bool

/-- The state, the store of all states, and what was sent so far. -/
structure Session where
  state : RemoteConfigState
  store : Dict Str ClientConfig
  emitted : List Payload

/-- `_RemoteConfigState.__init__`; an empty `expires` is the default. -/
def newSession (store : Dict Str ClientConfig) (expires : Str) : Session where
  state := {
    targets := .empty
    version := 0
    expires := if expires = [] then defaultExpires else expires
    opaqueBackendState := Base64.encode (Utf8.encode "\x7b\"foo\": \"bar\"\x7d")
    resetPending := false }
  store := store
  emitted := []

inductive Action where
  | setConfig (path : Str) (config : Config) (configFileVersion : Option Int)
  | delConfig (path : Str)
  | reset
  /-- `sendRaises`: the first `send_state` does not return. -/
  | apply (sendRaises : Bool)
  /-- Another state sets a config. -/
  | otherSetConfig (path : Str) (config : Config) (configFileVersion : Int)

variable (crypto : Crypto)

def setConfig (path : Str) (config : Config) (configFileVersion : Option Int) (s : Session) :
    Session :=
  match newClientConfig crypto s.store path config
      (configFileVersion.getD (s.state.version + 1 : Nat)) with
  | .error _ => s
  | .ok (clientConfig, store) =>
      { s with store, state := { s.state with targets := s.state.targets.set path clientConfig } }

def delConfig (path : Str) (s : Session) : Session :=
  { s with state := { s.state with targets := s.state.targets.erase path } }

def reset (s : Session) : Session :=
  { s with state := { s.state with targets := .empty, resetPending := true } }

def serializeTargets (state : RemoteConfigState) : Str :=
  jsonToBase64 (buildSignedTargets crypto state.version
    (state.targets.items.map fun item => (item.1, item.2.getTarget))
      state.opaqueBackendState state.expires)

def isNull : Json → Bool
  | .null => true
  | _ => false

/-- The files of the configs that are not `None`. -/
def targetFilesOf : List ClientConfig → Except Raised (List TargetFile)
  | [] => return []
  | target :: targets => do
      let value ← target.rawDeserialized
      let files ← targetFilesOf targets
      return if isNull value then files else target.getTargetFile :: files

def toPayload (state : RemoteConfigState) : Except Raised Payload := do
  let targetFiles ← targetFilesOf state.targets.values
  return {
    targets := serializeTargets crypto state
    targetFiles := if 0 < targetFiles.length then some targetFiles else none
    clientConfigs := if 0 < state.targets.keys.length then some state.targets.keys else none }

/-- The payload of the state is sent, unless it cannot be built. -/
def sendPayload (s : Session) : Session × Bool :=
  match toPayload crypto s.state with
  | .error _ => (s, false)
  | .ok payload => ({ s with emitted := s.emitted ++ [payload] }, true)

/-- The empty configuration that comes before new ones; when the send raises, the
targets are not put back. -/
def applyReset (sendRaises : Bool) (s : Session) : Session × Bool :=
  let cleared := { s with state := { s.state with
    targets := .empty, version := s.state.version + 1 } }
  let (sent, returned) := sendPayload crypto cleared
  if returned && !sendRaises then
    ({ sent with state := { sent.state with targets := s.state.targets } }, true)
  else (sent, false)

def applyTargets (s : Session) : Session :=
  (sendPayload crypto { s with state := { s.state with
    resetPending := false, version := s.state.version + 1 } }).1

def applyConfigs (library : Str) (sendRaises : Bool) (s : Session) : Session :=
  if s.state.resetPending = true ∧ s.state.targets.items ≠ [] ∧
      (library = "golang" ∨ library = "java") then
    let (s', goesOn) := applyReset crypto sendRaises s
    if goesOn then applyTargets crypto s' else s'
  else applyTargets crypto s

/-- Another state stores a config. -/
def otherSetConfig (path : Str) (config : Config) (configFileVersion : Int) (s : Session) :
    Session :=
  match newClientConfig crypto s.store path config configFileVersion with
  | .error _ => s
  | .ok (_, store) => { s with store }

def step (library : Str) (s : Session) : Action → Option Session
  | .setConfig path config configFileVersion => some (setConfig crypto path config configFileVersion s)
  | .delConfig path => some (delConfig path s)
  | .reset => some (reset s)
  | .apply sendRaises => some (applyConfigs crypto library sendRaises s)
  | .otherSetConfig path config configFileVersion =>
      some (otherSetConfig crypto path config configFileVersion s)

end State

section Payloads

variable (crypto : Crypto)

/-- The signed targets tell the length and the hash of what a file holds. -/
def FileMatches (members : List (List Nat × Json)) (tf : TargetFile) : Prop :=
  ∃ raw target, Base64.decode tf.raw = some raw ∧ (codePoints tf.path, target) ∈ members ∧
    at? ["length"] target = some (int raw.length) ∧
    at? ["hashes", "sha256"] target = some (text (crypto.sha256 raw))

/-- What is promised of a payload, read as the receivers read it. -/
structure PayloadCorrect (payload : Payload) (version : Nat) : Prop where
  document : ∃ targetsJson doc members, Base64.decode payload.targets = some targetsJson ∧
    load targetsJson = some doc ∧ at? ["signed", "version"] doc = some (int version) ∧
    at? ["signed", "targets"] doc = some (.object members) ∧
    members.map Prod.fst = (payload.clientConfigs.getD []).map codePoints ∧
    ∀ tf ∈ payload.targetFiles.getD [], FileMatches crypto members tf
  nodup : (payload.clientConfigs.getD []).Nodup
  sublist : List.Sublist ((payload.targetFiles.getD []).map TargetFile.path)
    (payload.clientConfigs.getD [])
  response : ∃ response, buildRcConfigurationsProtobuf crypto (some payload) = .ok response ∧
    ResponseCorrect crypto payload response

variable {crypto}

theorem decode_jsonToBase64 (v : Json) :
    Base64.decode (jsonToBase64 v) = some (Utf8.encode (jsonDump .indented v)) :=
  Base64.decode_encode _

theorem plain_targetEntry (version : Int) (sha256 : Str) (length : Nat) :
    Plain (targetEntry version sha256 length) := by
  have hcustom := (plain_int version).field plain_noFields "v"
  have hhashes := (plain_text sha256).field plain_noFields "sha256"
  exact hcustom.field (hhashes.field ((plain_int length).field plain_noFields _) _) _

/-- A payload whose files are described by the entries that are signed. -/
theorem payloadCorrect_of_entries {payload : Payload} {version : Nat}
    {entries : List (Str × Json)} {opaqueBackendState expires : Str}
    (htargets : payload.targets =
      jsonToBase64 (buildSignedTargets crypto version entries opaqueBackendState expires))
    (hplain : ∀ entry ∈ entries, Plain entry.2) (hnodup : (entries.map Prod.fst).Nodup)
    (hconfigs : payload.clientConfigs.getD [] = entries.map Prod.fst)
    (hsublist : List.Sublist ((payload.targetFiles.getD []).map TargetFile.path)
      (entries.map Prod.fst))
    (hfiles : ∀ tf ∈ payload.targetFiles.getD [], ∃ raw fileVersion,
      Base64.decode tf.raw = some raw ∧
        (tf.path, targetEntry fileVersion (crypto.sha256 raw) raw.length) ∈ entries) :
    PayloadCorrect crypto payload version := by
  have hdecode := decode_jsonToBase64
    (buildSignedTargets crypto version entries opaqueBackendState expires)
  rw [← htargets] at hdecode
  have hload : load (Utf8.encode (jsonDump .indented
      (buildSignedTargets crypto version entries opaqueBackendState expires))) =
        some (buildSignedTargets crypto version entries opaqueBackendState expires) :=
    load_encode_jsonDump (plain_signTufDocument (plain_buildTargetsContent hplain))
  constructor
  · refine ⟨_, _, _, hdecode, hload, at?_version _ _ _ _, at?_targets _ _ _ _, ?_, ?_⟩
    · rw [hconfigs, List.map_map, List.map_map]
      rfl
    · intro tf htf
      obtain ⟨raw, fileVersion, hraw, hmem⟩ := hfiles tf htf
      exact ⟨raw, _, hraw, List.mem_map.mpr ⟨_, hmem, rfl⟩, rfl, rfl⟩
  · rw [hconfigs]
    exact hnodup
  · rw [hconfigs]
    exact hsublist
  · refine buildRcConfigurations_eq_ok hdecode hload (at?_version _ _ _ _) fun tf htf => ?_
    obtain ⟨raw, fileVersion, hraw, -⟩ := hfiles tf htf
    exact ⟨raw, hraw⟩

/-- The lengths of a command are those of the decoded files. -/
theorem buildBaseCommand_correct {pathPayloads : List PathPayload}
    (hnodup : (pathPayloads.map PathPayload.path).Nodup) (version : Nat) :
    PayloadCorrect crypto (buildBaseCommand crypto pathPayloads version) version := by
  have hpaths : ∀ f : PathPayload → Json,
      (pathPayloads.map fun p => (p.path, f p)).map Prod.fst = pathPayloads.map PathPayload.path := by
    intro f
    rw [List.map_map]
    rfl
  refine payloadCorrect_of_entries rfl ?_ ?_ ?_ ?_ ?_
  · intro entry hentry
    obtain ⟨p, -, rfl⟩ := List.mem_map.mp hentry
    exact plain_targetEntry _ _ _
  · rw [hpaths]
    exact hnodup
  · exact (hpaths _).symm
  · rw [hpaths, buildBaseCommand, Option.getD_some, List.map_map]
    exact List.Sublist.refl _
  · intro tf htf
    obtain ⟨p, hp, rfl⟩ := List.mem_map.mp htf
    exact ⟨p.bytes, 1, decode_jsonToBase64 p.payload, List.mem_map.mpr ⟨p, hp, rfl⟩⟩

end Payloads

section Runs

variable {crypto : Crypto}

/-- A text in base64 has ASCII characters only: as many characters as bytes. -/
def Config.IsAscii : Config → Prop
  | encoded raw => ∀ bytes s, Base64.decode raw = some bytes → Utf8.decode bytes = some s →
      Utf8.IsAscii s
  | _ => True

def Action.IsAscii : Action → Prop
  | setConfig _ config _ => config.IsAscii
  | _ => True

/-- The config is not `None`. -/
def ClientConfig.Sent (c : ClientConfig) : Prop :=
  ∃ v, jsonLoad c.rawDecoded = some v ∧ isNull v = false

variable (crypto)

/-- A config that is sent knows the length and the hash of its bytes. -/
def ClientConfig.Matches (c : ClientConfig) : Prop :=
  c.Sent → ∃ bytes, Base64.decode c.raw = some bytes ∧ c.rawLength = bytes.length ∧
    c.rawSha256 = crypto.sha256 bytes

def TargetsMatch (state : RemoteConfigState) : Prop :=
  ∀ item ∈ state.targets.items, item.2.path = item.1 ∧ item.2.Matches crypto

/-- The payloads are right, and their versions increase up to a bound. -/
def EmittedBelow (emitted : List Payload) (bound : Nat) : Prop :=
  ∃ versions : List Nat, List.Forall₂ (PayloadCorrect crypto) emitted versions ∧
    versions.Pairwise (· < ·) ∧ ∀ version ∈ versions, version < bound

structure SessionInvariant (s : Session) : Prop where
  targets : TargetsMatch crypto s.state
  emitted : EmittedBelow crypto s.emitted (s.state.version + 1)

variable {crypto}

/-- What `ClientConfig` makes of a config that is no `None`. -/
theorem matches_of_bytes {config : Config} {bytes : List UInt8} {s path : Str} {version : Int}
    (hbytes : Base64.decode config.raw = some bytes) (hs : Utf8.decode bytes = some s)
    (hascii : Utf8.IsAscii s) :
    (⟨path, config.raw, s, version, s.length, crypto.sha256 bytes⟩ : ClientConfig).Matches crypto := by
  intro _
  refine ⟨bytes, hbytes, ?_, rfl⟩
  rw [← Utf8.encode_of_decode hs]
  exact ((Utf8.length_encode_eq_iff s).mpr hascii).symm

theorem newClientConfig_spec {store store' : Dict Str ClientConfig} {path : Str} {config : Config}
    {version : Int} {c : ClientConfig} (hascii : config.IsAscii)
    (h : newClientConfig crypto store path config version = .ok (c, store')) :
    c.path = path ∧ c.Matches crypto := by
  rw [newClientConfig, Raised.bind_eq_ok] at h
  obtain ⟨bytes, hbytes, h⟩ := h
  rw [Raised.bind_eq_ok] at h
  obtain ⟨s, hs, h⟩ := h
  rw [Raised.ofOption_eq_ok_iff] at hbytes hs
  cases config with
  | dict members valid =>
      have hdump := hbytes
      rw [Config.raw, decode_jsonToBase64, Option.some.injEq] at hdump
      have hs' := hs
      rw [← hdump, Utf8.decode_encode, Option.some.injEq] at hs'
      rw [Raised.pure_eq_ok, Prod.mk.injEq] at h
      rw [← h.1]
      exact ⟨rfl, matches_of_bytes hbytes hs (hs' ▸ isAscii_jsonDump valid)⟩
  | encoded raw =>
      rw [Raised.pure_eq_ok, Prod.mk.injEq] at h
      rw [← h.1]
      exact ⟨rfl, matches_of_bytes hbytes hs (hascii bytes s hbytes hs)⟩
  | none =>
      rw [Raised.bind_eq_ok] at h
      obtain ⟨stored, -, h⟩ := h
      rw [Raised.pure_eq_ok, Prod.mk.injEq] at h
      rw [← h.1]
      refine ⟨rfl, ?_⟩
      -- A config that is `None` is not sent.
      rintro ⟨v, hv, hnull⟩
      rw [Config.raw, decode_jsonToBase64, Option.some.injEq] at hbytes
      rw [← hbytes, Utf8.decode_encode, Option.some.injEq] at hs
      have hload : jsonLoad (jsonDump .indented .null) = some .null := jsonLoad_jsonDump trivial
      rw [hs] at hload
      rw [show v = .null from Option.some.inj (hv.symm.trans hload)] at hnull
      cases hnull

theorem targetFilesOf_spec {targets : List ClientConfig} :
    ∀ {files : List TargetFile}, targetFilesOf targets = .ok files →
      ∃ kept, List.Sublist kept targets ∧ files = kept.map ClientConfig.getTargetFile ∧
        ∀ c ∈ kept, c.Sent := by
  induction targets with
  | nil =>
      intro files h
      cases h
      exact ⟨[], List.Sublist.slnil, rfl, by simp⟩
  | cons c targets ih =>
      intro files h
      rw [targetFilesOf, Raised.bind_eq_ok] at h
      obtain ⟨v, hv, h⟩ := h
      rw [Raised.bind_eq_ok] at h
      obtain ⟨rest, hrest, h⟩ := h
      obtain ⟨kept, hkept, rfl, hsent⟩ := ih hrest
      rw [Raised.pure_eq_ok] at h
      split_ifs at h with hnull
      · exact ⟨kept, hkept.cons c, h.symm, hsent⟩
      · refine ⟨c :: kept, hkept.cons_cons c, h.symm, List.forall_mem_cons.mpr ⟨?_, hsent⟩⟩
        exact ⟨v, Raised.ofOption_eq_ok_iff.mp hv, Bool.eq_false_of_not_eq_true hnull⟩

theorem getD_if_length {α : Type} (xs : List α) :
    (if 0 < xs.length then some xs else none).getD [] = xs := by
  cases xs <;> rfl

/-- **A payload** of a state whose configs know their lengths. -/
theorem payloadCorrect_of_toPayload {state : RemoteConfigState} {payload : Payload}
    (htargets : TargetsMatch crypto state) (h : toPayload crypto state = .ok payload) :
    PayloadCorrect crypto payload state.version := by
  rw [toPayload, Raised.bind_eq_ok] at h
  obtain ⟨files, hfiles, h⟩ := h
  rw [Raised.pure_eq_ok] at h
  subst h
  obtain ⟨kept, hkept, rfl, hsent⟩ := targetFilesOf_spec hfiles
  have hpaths : state.targets.values.map ClientConfig.path = state.targets.keys := by
    rw [Dict.values, Dict.keys, List.map_map]
    exact List.map_congr_left fun item hitem => (htargets item hitem).1
  have hentries : (state.targets.items.map fun item => (item.1, item.2.getTarget)).map Prod.fst =
      state.targets.keys := by
    rw [List.map_map]
    rfl
  refine payloadCorrect_of_entries rfl ?_ ?_ ?_ ?_ ?_
  · intro entry hentry
    obtain ⟨item, -, rfl⟩ := List.mem_map.mp hentry
    exact plain_targetEntry _ _ _
  · rw [hentries]
    exact state.targets.nodup
  · rw [hentries]
    exact getD_if_length _
  · rw [hentries, getD_if_length, List.map_map, ← hpaths]
    exact hkept.map ClientConfig.path
  · intro tf htf
    rw [getD_if_length] at htf
    obtain ⟨c, hc, rfl⟩ := List.mem_map.mp htf
    obtain ⟨item, hitem, rfl⟩ := List.mem_map.mp (hkept.subset hc)
    obtain ⟨hpath, hmatches⟩ := htargets item hitem
    obtain ⟨bytes, hbytes, hlength, hsha⟩ := hmatches (hsent _ hc)
    refine ⟨bytes, item.2.configFileVersion, hbytes, List.mem_map.mpr ⟨item, hitem, ?_⟩⟩
    rw [ClientConfig.getTarget, hlength, hsha, ClientConfig.getTargetFile, hpath]

theorem EmittedBelow.mono {emitted : List Payload} {bound bound' : Nat} (hle : bound ≤ bound')
    (h : EmittedBelow crypto emitted bound) : EmittedBelow crypto emitted bound' := by
  obtain ⟨versions, hcorrect, hpairwise, hbound⟩ := h
  exact ⟨versions, hcorrect, hpairwise, fun v hv => lt_of_lt_of_le (hbound v hv) hle⟩

theorem EmittedBelow.concat {emitted : List Payload} {version : Nat} {payload : Payload}
    (h : EmittedBelow crypto emitted version) (hpayload : PayloadCorrect crypto payload version) :
    EmittedBelow crypto (emitted ++ [payload]) (version + 1) := by
  obtain ⟨versions, hcorrect, hpairwise, hbound⟩ := h
  refine ⟨versions ++ [version], ?_, ?_, ?_⟩
  · exact List.rel_append hcorrect (List.Forall₂.cons hpayload List.Forall₂.nil)
  · rw [List.pairwise_append]
    refine ⟨hpairwise, List.pairwise_singleton _ _, fun v hv w hw => ?_⟩
    rw [List.mem_singleton] at hw
    rw [hw]
    exact hbound v hv
  · rw [List.forall_mem_append, List.forall_mem_singleton]
    exact ⟨fun v hv => Nat.lt_succ_of_lt (hbound v hv), Nat.lt_succ_self version⟩

theorem sendPayload_spec (s : Session) (htargets : TargetsMatch crypto s.state)
    (hemitted : EmittedBelow crypto s.emitted s.state.version) :
    (sendPayload crypto s).1.state = s.state ∧
      EmittedBelow crypto (sendPayload crypto s).1.emitted (s.state.version + 1) := by
  unfold sendPayload
  cases hpayload : toPayload crypto s.state with
  | error e => exact ⟨rfl, hemitted.mono (Nat.le_succ _)⟩
  | ok payload => exact ⟨rfl, hemitted.concat (payloadCorrect_of_toPayload htargets hpayload)⟩

theorem targetsMatch_empty {state : RemoteConfigState} (h : state.targets = .empty) :
    TargetsMatch crypto state := by
  intro item hitem
  rw [h] at hitem
  cases hitem

theorem applyTargets_invariant {s : Session} (h : SessionInvariant crypto s) :
    SessionInvariant crypto (applyTargets crypto s) := by
  obtain ⟨hstate, hemitted⟩ := sendPayload_spec { s with state := { s.state with
    resetPending := false, version := s.state.version + 1 } } h.targets h.emitted
  constructor
  · rw [applyTargets, hstate]
    exact h.targets
  · rw [applyTargets, hstate]
    exact hemitted

theorem applyReset_invariant {s : Session} (h : SessionInvariant crypto s) (sendRaises : Bool) :
    SessionInvariant crypto (applyReset crypto sendRaises s).1 := by
  obtain ⟨hstate, hemitted⟩ := sendPayload_spec { s with state := { s.state with
    targets := .empty, version := s.state.version + 1 } } (targetsMatch_empty rfl) h.emitted
  unfold applyReset
  simp only
  split_ifs with hgoesOn
  · constructor
    · exact h.targets
    · rw [hstate]
      exact hemitted
  · constructor
    · rw [hstate]
      exact targetsMatch_empty rfl
    · rw [hstate]
      exact hemitted

theorem applyConfigs_invariant {s : Session} (h : SessionInvariant crypto s) (library : Str)
    (sendRaises : Bool) : SessionInvariant crypto (applyConfigs crypto library sendRaises s) := by
  have hreset := applyReset_invariant h sendRaises
  unfold applyConfigs
  split_ifs with hresets
  · simp only
    split_ifs with hgoesOn
    · exact applyTargets_invariant hreset
    · exact hreset
  · exact applyTargets_invariant h

theorem setConfig_invariant {s : Session} (h : SessionInvariant crypto s) {path : Str}
    {config : Config} (hascii : config.IsAscii) (configFileVersion : Option Int) :
    SessionInvariant crypto (setConfig crypto path config configFileVersion s) := by
  unfold setConfig
  split
  · exact h
  · rename_i clientConfig store hnew
    obtain ⟨hpath, hmatches⟩ := newClientConfig_spec hascii hnew
    refine ⟨?_, h.emitted⟩
    rintro ⟨p, c⟩ hitem
    rw [Dict.mem_items_iff, Dict.get?_set] at hitem
    split_ifs at hitem with hp
    · rw [Option.some.injEq] at hitem
      rw [← hitem, hp]
      exact ⟨hpath, hmatches⟩
    · exact h.targets (p, c) ((Dict.mem_items_iff _ _ _).mpr hitem)

theorem step_invariant {library : Str} {s s' : Session} {a : Action}
    (h : SessionInvariant crypto s) (hascii : a.IsAscii)
    (hstep : step crypto library s a = some s') : SessionInvariant crypto s' := by
  cases a with
  | setConfig path config configFileVersion =>
      obtain rfl := Option.some.inj hstep
      exact setConfig_invariant h hascii configFileVersion
  | delConfig path =>
      obtain rfl := Option.some.inj hstep
      refine ⟨?_, h.emitted⟩
      rintro ⟨p, c⟩ hitem
      rw [delConfig, Dict.mem_items_iff, Dict.get?_erase] at hitem
      split_ifs at hitem with hp
      exact h.targets (p, c) ((Dict.mem_items_iff _ _ _).mpr hitem)
  | reset =>
      obtain rfl := Option.some.inj hstep
      exact ⟨targetsMatch_empty rfl, h.emitted⟩
  | apply sendRaises =>
      obtain rfl := Option.some.inj hstep
      exact applyConfigs_invariant h library sendRaises
  | otherSetConfig path config configFileVersion =>
      obtain rfl := Option.some.inj hstep
      unfold otherSetConfig
      split
      · exact h
      · exact ⟨h.targets, h.emitted⟩

theorem newSession_invariant (store : Dict Str ClientConfig) (expires : Str) :
    SessionInvariant crypto (newSession store expires) :=
  ⟨targetsMatch_empty rfl, [], List.Forall₂.nil, List.Pairwise.nil, by simp⟩

/-- **What is sent in a run** whose texts in base64 are ASCII: the payloads are right, and
their versions increase. -/
theorem run_correct {library expires : Str} {store : Dict Str ClientConfig}
    {actions : List Action} {s : Session} (hascii : ∀ a ∈ actions, a.IsAscii)
    (hrun : run (step crypto library) (newSession store expires) actions = some s) :
    ∃ versions : List Nat, List.Forall₂ (PayloadCorrect crypto) s.emitted versions ∧
      versions.Pairwise (· < ·) := by
  have hinvariant : SessionInvariant crypto s :=
    run_invariant (fun s a s' hs ha hstep => step_invariant hs ha hstep)
      (newSession_invariant store expires) (along_of_forall hascii _) hrun
  obtain ⟨versions, hcorrect, hpairwise, -⟩ := hinvariant.emitted
  exact ⟨versions, hcorrect, hpairwise⟩

def sampleCrypto : Crypto := ⟨fun _ => "00", fun _ => "00", "00", "00"⟩

def dictActions : List Action :=
  [.reset, .setConfig "datadog/2/ASM/a/config"
    (.dict [([0xE9], .bool true)] ⟨by simp [ValidString], trivial, trivial⟩) none, .apply false]

/-- A dictionary is set after a reset: the empty configuration is sent first. -/
theorem run_correct_dict :
    ∃ s, run (step sampleCrypto "golang") (newSession .empty []) dictActions = some s ∧
      ∃ versions : List Nat, List.Forall₂ (PayloadCorrect sampleCrypto) s.emitted versions ∧
        versions.Pairwise (· < ·) := by
  have hascii : ∀ a ∈ dictActions, a.IsAscii := by
    simp [dictActions, Action.IsAscii, Config.IsAscii]
  obtain ⟨s, hs⟩ : ∃ s, run (step sampleCrypto "golang") (newSession .empty []) dictActions =
      some s := ⟨_, rfl⟩
  exact ⟨s, hs, run_correct hascii hs⟩

/-- A payload can be built when the texts of all configs can be loaded. -/
theorem exists_toPayload {state : RemoteConfigState}
    (h : ∀ c ∈ state.targets.values, ∃ v, jsonLoad c.rawDecoded = some v) :
    ∃ payload, toPayload crypto state = .ok payload := by
  have hfiles : ∀ targets : List ClientConfig,
      (∀ c ∈ targets, ∃ v, jsonLoad c.rawDecoded = some v) →
        ∃ files, targetFilesOf targets = .ok files := by
    intro targets
    induction targets with
    | nil => exact fun _ => ⟨[], rfl⟩
    | cons c targets ih =>
        intro hloads
        rw [List.forall_mem_cons] at hloads
        obtain ⟨⟨v, hv⟩, hrest⟩ := hloads
        obtain ⟨files, hfiles⟩ := ih hrest
        refine ⟨if isNull v then files else c.getTargetFile :: files, ?_⟩
        simp only [targetFilesOf, ClientConfig.rawDeserialized, hv, hfiles, Raised.ofOption_some,
          Raised.ok_bind]
        rfl
  obtain ⟨files, hok⟩ := hfiles _ h
  rw [toPayload, hok]
  exact ⟨_, rfl⟩

/-- What is made of a dictionary or of `None` can be loaded. -/
theorem loads_of_newClientConfig {store store' : Dict Str ClientConfig} {path : Str}
    {config : Config} {version : Int} {c : ClientConfig} (hconfig : ∀ raw, config ≠ .encoded raw)
    (h : newClientConfig crypto store path config version = .ok (c, store')) :
    ∃ v, jsonLoad c.rawDecoded = some v := by
  rw [newClientConfig, Raised.bind_eq_ok] at h
  obtain ⟨bytes, hbytes, h⟩ := h
  rw [Raised.bind_eq_ok] at h
  obtain ⟨s, hs, h⟩ := h
  rw [Raised.ofOption_eq_ok_iff] at hbytes hs
  cases config with
  | dict members valid =>
      rw [Config.raw, decode_jsonToBase64, Option.some.injEq] at hbytes
      rw [← hbytes, Utf8.decode_encode, Option.some.injEq] at hs
      rw [Raised.pure_eq_ok, Prod.mk.injEq] at h
      rw [← h.1, ← hs]
      exact ⟨_, jsonLoad_jsonDump valid⟩
  | encoded raw => exact absurd rfl (hconfig raw)
  | none =>
      rw [Raised.bind_eq_ok] at h
      obtain ⟨stored, -, h⟩ := h
      rw [Config.raw, decode_jsonToBase64, Option.some.injEq] at hbytes
      rw [← hbytes, Utf8.decode_encode, Option.some.injEq] at hs
      rw [Raised.pure_eq_ok, Prod.mk.injEq] at h
      rw [← h.1, ← hs]
      exact ⟨.null, jsonLoad_jsonDump trivial⟩

/-- The length that is signed for a file is the one its config has. -/
theorem rawLength_of_payloadCorrect {state : RemoteConfigState} {payload : Payload} {version : Nat}
    (h : toPayload crypto state = .ok payload) (hcorrect : PayloadCorrect crypto payload version)
    {tf : TargetFile} (htf : tf ∈ payload.targetFiles.getD []) :
    ∃ item ∈ state.targets.items, ∃ raw, item.1 = tf.path ∧ Base64.decode tf.raw = some raw ∧
      item.2.rawLength = raw.length := by
  have htargets : payload.targets = serializeTargets crypto state := by
    rw [toPayload, Raised.bind_eq_ok] at h
    obtain ⟨files, -, h⟩ := h
    rw [Raised.pure_eq_ok] at h
    rw [← h]
  obtain ⟨targetsJson, doc, members, hdecode, hload, -, hmembers, -, hfiles⟩ := hcorrect.document
  rw [htargets, serializeTargets, decode_jsonToBase64, Option.some.injEq] at hdecode
  have hplain : ∀ entry ∈ state.targets.items.map fun item => (item.1, item.2.getTarget),
      Plain entry.2 := by
    intro entry hentry
    obtain ⟨item, -, rfl⟩ := List.mem_map.mp hentry
    exact plain_targetEntry _ _ _
  rw [← hdecode, buildSignedTargets,
    load_encode_jsonDump (plain_signTufDocument (plain_buildTargetsContent hplain)),
    Option.some.injEq] at hload
  rw [← hload, ← buildSignedTargets, at?_targets, Option.some.injEq, fields,
    Json.object.injEq] at hmembers
  obtain ⟨raw, target, hraw, hmem, hlength, -⟩ := hfiles tf htf
  rw [← hmembers, List.map_map] at hmem
  obtain ⟨item, hitem, heq⟩ := List.mem_map.mp hmem
  rw [Function.comp_apply, Prod.mk.injEq, codePoints_inj] at heq
  obtain ⟨hpath, rfl⟩ := heq
  refine ⟨item, hitem, raw, hpath, hraw, ?_⟩
  have hint : int item.2.rawLength = int raw.length := Option.some.inj hlength
  exact Int.ofNat_inj.mp (int_injective hint)

/-- The text `"é"`. -/
def accentText : Str := ['"', 'é', '"']

def accentRaw : Str := "IsOpIg=="

def accentPath : Str := "datadog/2/ASM/a/config"

theorem decode_accentRaw : Base64.decode accentRaw = some (Utf8.encode accentText) := by
  decide

/-- What is stored of the text: it has three characters, and four bytes. -/
def accentConfig : ClientConfig := ⟨accentPath, accentRaw, accentText, 1, 3, "00"⟩

theorem newClientConfig_accent :
    newClientConfig sampleCrypto .empty accentPath (.encoded accentRaw) 1 =
      .ok (accentConfig, Dict.empty.set accentPath accentConfig) := by
  simp only [newClientConfig, Config.raw, decode_accentRaw, Raised.ofOption_some, Raised.ok_bind,
    Utf8.decode_encode]
  rfl

/-- A length in characters is signed for a file with more bytes. -/
theorem accent_not_correct :
    ∃ s, run (step sampleCrypto "python") (newSession .empty [])
        [.setConfig accentPath (.encoded accentRaw) none, .apply false] = some s ∧
      ¬ ∃ versions : List Nat, List.Forall₂ (PayloadCorrect sampleCrypto) s.emitted versions ∧
        versions.Pairwise (· < ·) := by
  let state : RemoteConfigState :=
    { (newSession .empty []).state with
      targets := Dict.empty.set accentPath accentConfig, version := 1 }
  let payload : Payload := {
    targets := serializeTargets sampleCrypto state
    targetFiles := some [⟨accentPath, accentRaw⟩]
    clientConfigs := some [accentPath] }
  have hpayload : toPayload sampleCrypto state = .ok payload := rfl
  have hset : setConfig sampleCrypto accentPath (.encoded accentRaw) none (newSession .empty []) =
      ⟨{ state with version := 0 }, Dict.empty.set accentPath accentConfig, []⟩ := by
    have hnew : newClientConfig sampleCrypto (newSession .empty []).store accentPath
        (.encoded accentRaw) ((none : Option Int).getD
          ((newSession .empty []).state.version + 1 : Nat)) =
            .ok (accentConfig, Dict.empty.set accentPath accentConfig) :=
      newClientConfig_accent
    rw [setConfig, hnew]
    rfl
  refine ⟨⟨state, Dict.empty.set accentPath accentConfig, [payload]⟩, ?_, ?_⟩
  · rw [run_cons_eq_some]
    refine ⟨_, congrArg some hset, ?_⟩
    rfl
  · rintro ⟨versions, hcorrect, -⟩
    obtain ⟨version, -, hfirst, -⟩ := List.forall₂_cons_left_iff.mp hcorrect
    obtain ⟨item, hitem, raw, -, hraw, hlength⟩ :=
      rawLength_of_payloadCorrect hpayload hfirst List.mem_cons_self
    rw [decode_accentRaw, Option.some.injEq] at hraw
    obtain rfl : item = (accentPath, accentConfig) := List.mem_singleton.mp hitem
    rw [← hraw] at hlength
    exact absurd hlength (by decide)

end Runs

end RemoteConfig
end SystemTests
