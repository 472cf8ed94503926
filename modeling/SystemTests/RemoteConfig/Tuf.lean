import SystemTests.Foundation.Base64
import SystemTests.Foundation.JsonDocument
import SystemTests.Foundation.Utf8
import SystemTests.RemoteConfig.SequentialCommands

/-!
# Signed documents of remote config (`utils/proxy/tuf.py`, `utils/proxy/rc_response_builder.py`)

The targets, snapshot and timestamp documents are JSON objects with a signature.
The hash and the signature are parameters.  The response to the agent is modelled
as the message that is serialized.

**Results.**
* `load_encode_jsonDump`: a document is read back.
* `buildRcConfigurations_eq_ok`: the metadata of a response match its documents.
-/

namespace SystemTests
namespace RemoteConfig

open Foundation Foundation.Text Foundation.Json

/-- `hashlib.sha256(..).hexdigest()` and the signature with the test key, as digits. -/
structure Crypto where
  sha256 : List UInt8 → Str
  sign : List UInt8 → Str
  publicKeyHex : Str
  keyid : Str

/-- What is sent; `target_files` and `client_configs` may be left out. -/
structure Payload where
  targets : Str
  targetFiles : Option (List TargetFile)
  clientConfigs : Option (List Str)
deriving DecidableEq

section Documents

mutual

/-- `sort_keys=True` -/
def sortKeys : Json → Json
  | .array elements => .array (sortElements elements)
  | .object members => .object ((sortMembers members).mergeSort fun m m' => m.1 ≤ m'.1)
  | v => v

def sortElements : List Json → List Json
  | [] => []
  | v :: vs => sortKeys v :: sortElements vs

def sortMembers : List (List Nat × Json) → List (List Nat × Json)
  | [] => []
  | (key, v) :: members => (key, sortKeys v) :: sortMembers members

end

variable (crypto : Crypto)

def signTufDocument (signedContent : Json) : Json :=
  let canonicalJson := Utf8.encode (jsonDump .compact (sortKeys signedContent))
  fields [
    ("signatures", .array [
      fields [("keyid", text crypto.keyid), ("sig", text (crypto.sign canonicalJson))]]),
    ("signed", signedContent)]

def buildTufRoot : Json :=
  let role := fields [("keyids", .array [text crypto.keyid]), ("threshold", int 1)]
  fields [
    ("_type", text "root"),
    ("consistent_snapshot", .bool true),
    ("expires", text "3000-01-01T00:00:00Z"),
    ("keys", fields [
      (crypto.keyid, fields [
        ("keyid_hash_algorithms", .array [text "sha256"]),
        ("keytype", text "ed25519"),
        ("keyval", fields [("public", text crypto.publicKeyHex)]),
        ("scheme", text "ed25519")])]),
    ("roles", fields [("root", role), ("snapshot", role), ("targets", role), ("timestamp", role)]),
    ("spec_version", text "1.0"),
    ("version", int 1)]

def getTufRootJson : Str := jsonDump .compact (signTufDocument crypto (buildTufRoot crypto))

def defaultOpaqueBackendState : Str := "eyJmb28iOiAiYmFyIn0="

def defaultExpires : Str := "3000-01-01T00:00:00Z"

def buildTargetsContent (version : Nat) (targets : List (Str × Json))
    (opaqueBackendState expires : Str) : Json :=
  fields [
    ("_type", text "targets"),
    ("custom", fields [("opaque_backend_state", text opaqueBackendState)]),
    ("expires", text expires),
    ("spec_version", text "1.0"),
    ("targets", fields targets),
    ("version", int version)]

def buildSignedTargets (version : Nat) (targets : List (Str × Json))
    (opaqueBackendState expires : Str) : Json :=
  signTufDocument crypto (buildTargetsContent version targets opaqueBackendState expires)

/-- A document that tells the hash, the length and the version of another. -/
def buildMetaContent (type name : Str) (version : Nat) (json : List UInt8) : Json :=
  fields [
    ("_type", text type),
    ("expires", text defaultExpires),
    ("meta", fields [
      (name, fields [
        ("hashes", fields [("sha256", text (crypto.sha256 json))]),
        ("length", int json.length),
        ("version", int version)])]),
    ("spec_version", text "1.0"),
    ("version", int version)]

def buildSnapshotContent (version : Nat) (targetsJson : List UInt8) : Json :=
  buildMetaContent crypto "snapshot" "targets.json" version targetsJson

def buildTimestampContent (version : Nat) (snapshotJson : List UInt8) : Json :=
  buildMetaContent crypto "timestamp" "snapshot.json" version snapshotJson

/-- `json.loads` of bytes -/
def load (bytes : List UInt8) : Option Json := (Utf8.decode bytes).bind jsonLoad

end Documents

section Response

structure TopMeta where
  version : Nat
  raw : List UInt8

structure ConfigMetas where
  roots : List TopMeta
  timestamp : TopMeta
  snapshot : TopMeta
  topTargets : TopMeta

structure DirectorMetas where
  roots : List TopMeta
  timestamp : TopMeta
  snapshot : TopMeta
  targets : TopMeta

structure File where
  path : Str
  raw : List UInt8

structure LatestConfigsResponse where
  configMetas : ConfigMetas
  directorMetas : DirectorMetas
  targetFiles : List File

variable (crypto : Crypto)

/-- `targets_parsed.get("signed", {}).get("version", 1)`, as the version of a message. -/
def parsedVersion (targetsParsed : Json) : Except Raised Nat :=
  match (member? "signed" targetsParsed).getD (fields []) with
  | .object members =>
      match member? "version" (.object members) with
      | none => return 1
      | some (.number literal) => Raised.ofOption (.typeError "version") (Semver.readNat literal)
      | some _ => throw (.typeError "version")
  | _ => throw (.attributeError "get")

/-- `json.dumps(sign_tuf_document(content), separators=(",", ":")).encode()` -/
def signedJson (content : Json) : List UInt8 :=
  Utf8.encode (jsonDump .compact (signTufDocument crypto content))

def decodeTargetFile (tf : TargetFile) : Except Raised File := do
  let raw ← Raised.ofOption (.valueError "base64") (Base64.decode tf.raw)
  return ⟨tf.path, raw⟩

/-- The message, with the snapshot and the timestamp built for the targets. -/
def latestConfigsResponse (version : Nat) (targetsJson : List UInt8) (targetFiles : List File) :
    LatestConfigsResponse :=
  let rootJson := Utf8.encode (getTufRootJson crypto)
  let snapshotJson := signedJson crypto (buildSnapshotContent crypto version targetsJson)
  let timestampJson := signedJson crypto (buildTimestampContent crypto version snapshotJson)
  { configMetas := ⟨[⟨1, rootJson⟩], ⟨version, timestampJson⟩, ⟨version, snapshotJson⟩,
      ⟨version, targetsJson⟩⟩
    directorMetas := ⟨[⟨1, rootJson⟩], ⟨version, timestampJson⟩, ⟨version, snapshotJson⟩,
      ⟨version, targetsJson⟩⟩
    targetFiles }

def buildRcConfigurationsProtobuf : Option Payload → Except Raised LatestConfigsResponse
  | some rcState => do
      let targetsJson ← Raised.ofOption (.valueError "base64") (Base64.decode rcState.targets)
      let targetsParsed ← Raised.ofOption (.valueError "json") (load targetsJson)
      let version ← parsedVersion targetsParsed
      let targetFiles ← (rcState.targetFiles.getD []).mapM decodeTargetFile
      return latestConfigsResponse crypto version targetsJson targetFiles
  | none =>
      return latestConfigsResponse crypto 0
        (signedJson crypto (buildTargetsContent 0 [] defaultOpaqueBackendState defaultExpires)) []

end Response

section ReadBack

variable {crypto : Crypto}

theorem load_encode_jsonDump {layout : Layout} {v : Json} (h : Plain v) :
    load (Utf8.encode (jsonDump layout v)) = some v := by
  rw [load, Utf8.decode_encode, Option.bind_some, jsonLoad_of_plain h]

theorem plain_signTufDocument {content : Json} (h : Plain content) :
    Plain (signTufDocument crypto content) := by
  have hsignature := (plain_text crypto.keyid).field
    ((plain_text (crypto.sign (Utf8.encode (jsonDump .compact (sortKeys content))))).field
      plain_noFields "sig") "keyid"
  exact (plain_singleton hsignature).field (h.field plain_noFields _) _

theorem plain_buildTargetsContent {version : Nat} {targets : List (Str × Json)}
    {opaqueBackendState expires : Str} (h : ∀ target ∈ targets, Plain target.2) :
    Plain (buildTargetsContent version targets opaqueBackendState expires) := by
  have hcustom := (plain_text opaqueBackendState).field plain_noFields "opaque_backend_state"
  have htargets := (plain_fields h).field ((plain_int version).field plain_noFields "version") "targets"
  exact (plain_text _).field (hcustom.field ((plain_text _).field ((plain_text _).field htargets _)
    _) _) _

theorem plain_buildMetaContent {type name : Str} {version : Nat} {json : List UInt8} :
    Plain (buildMetaContent crypto type name version json) := by
  have hhashes := (plain_text (crypto.sha256 json)).field plain_noFields "sha256"
  have hrecord := hhashes.field ((plain_int json.length).field
    ((plain_int version).field plain_noFields "version") "length") "hashes"
  have hmeta := hrecord.field plain_noFields name
  exact (plain_text _).field ((plain_text _).field (hmeta.field ((plain_text _).field
    ((plain_int version).field plain_noFields _) _) _) _) _

theorem member?_signed (content : Json) :
    member? "signed" (signTufDocument crypto content) = some content := rfl

theorem at?_targets (version : Nat) (targets : List (Str × Json))
    (opaqueBackendState expires : Str) :
    at? ["signed", "targets"]
      (buildSignedTargets crypto version targets opaqueBackendState expires) =
        some (fields targets) := rfl

theorem at?_version (version : Nat) (targets : List (Str × Json))
    (opaqueBackendState expires : Str) :
    at? ["signed", "version"]
      (buildSignedTargets crypto version targets opaqueBackendState expires) =
        some (int version) := rfl

theorem member?_singleton (name : Str) (v : Json) : member? name (fields [(name, v)]) = some v := by
  simp [member?, fields]

theorem at?_metaVersion (type name : Str) (version : Nat) (json : List UInt8) :
    at? ["signed", "version"] (signTufDocument crypto
      (buildMetaContent crypto type name version json)) = some (int version) := rfl

theorem load_signedJson {content : Json} (h : Plain content) :
    load (signedJson crypto content) = some (signTufDocument crypto content) :=
  load_encode_jsonDump (plain_signTufDocument h)

/-- The entry of a document about another. -/
theorem at?_meta (type name : Str) (version : Nat) (json : List UInt8) :
    at? ["signed", "meta", name] (signTufDocument crypto
      (buildMetaContent crypto type name version json)) =
        some (fields [
          ("hashes", fields [("sha256", text (crypto.sha256 json))]),
          ("length", int json.length),
          ("version", int version)]) := by
  have hmeta : at? ["signed", "meta", name] (signTufDocument crypto
      (buildMetaContent crypto type name version json)) =
        (member? name (fields [(name, fields [
          ("hashes", fields [("sha256", text (crypto.sha256 json))]),
          ("length", int json.length),
          ("version", int version)])])).bind (at? []) := rfl
  rw [hmeta, member?_singleton]
  rfl

end ReadBack

section Metadata

variable (crypto : Crypto)

/-- The record of a document tells the hash, the length and the version of the embedded one. -/
def MetaMatches (name : Str) (record embedded : TopMeta) : Prop :=
  ∃ doc entry embeddedDoc, load record.raw = some doc ∧ load embedded.raw = some embeddedDoc ∧
    at? ["signed", "meta", name] doc = some entry ∧
    at? ["hashes", "sha256"] entry = some (text (crypto.sha256 embedded.raw)) ∧
    at? ["length"] entry = some (int embedded.raw.length) ∧
    at? ["version"] entry = some (int embedded.version) ∧
    at? ["signed", "version"] embeddedDoc = some (int embedded.version)

/-- The metadata of a response match the documents in it, which are those of the payload. -/
structure ResponseCorrect (payload : Payload) (response : LatestConfigsResponse) : Prop where
  targets : Base64.decode payload.targets = some response.configMetas.topTargets.raw
  director : response.directorMetas.targets = response.configMetas.topTargets ∧
    response.directorMetas.snapshot = response.configMetas.snapshot ∧
    response.directorMetas.timestamp = response.configMetas.timestamp
  snapshot : MetaMatches crypto "targets.json" response.configMetas.snapshot
    response.configMetas.topTargets
  timestamp : MetaMatches crypto "snapshot.json" response.configMetas.timestamp
    response.configMetas.snapshot
  files : List.Forall₂ (fun tf file => file.path = tf.path ∧ Base64.decode tf.raw = some file.raw)
    (payload.targetFiles.getD []) response.targetFiles

variable {crypto}

theorem metaMatches_of_load (type name : Str) {version : Nat} {json : List UInt8} {doc : Json}
    (hload : load json = some doc) (hversion : at? ["signed", "version"] doc = some (int version)) :
    MetaMatches crypto name
      ⟨version, signedJson crypto (buildMetaContent crypto type name version json)⟩
      ⟨version, json⟩ :=
  ⟨_, _, doc, load_signedJson plain_buildMetaContent, hload, at?_meta type name version json,
    rfl, rfl, rfl, hversion⟩

theorem parsedVersion_eq_ok {doc : Json} {version : Nat}
    (h : at? ["signed", "version"] doc = some (int version)) :
    parsedVersion doc = .ok version := by
  rw [at?, Option.bind_eq_some_iff] at h
  obtain ⟨signed, hsigned, h⟩ := h
  rw [at?, Option.bind_eq_some_iff] at h
  obtain ⟨v, hv, h⟩ := h
  obtain rfl : v = int version := Option.some.inj h
  rw [parsedVersion, hsigned, Option.getD_some]
  cases signed with
  | object members =>
      simp only [hv, int, intText, Semver.readNat_decimal, Raised.ofOption_some]
  | _ => cases hv

/-- **The response** that is built from a payload whose documents can be read. -/
theorem buildRcConfigurations_eq_ok {payload : Payload} {targetsJson : List UInt8} {doc : Json}
    {version : Nat} (htargets : Base64.decode payload.targets = some targetsJson)
    (hload : load targetsJson = some doc)
    (hversion : at? ["signed", "version"] doc = some (int version))
    (hfiles : ∀ tf ∈ payload.targetFiles.getD [], ∃ raw, Base64.decode tf.raw = some raw) :
    ∃ response, buildRcConfigurationsProtobuf crypto (some payload) = .ok response ∧
      ResponseCorrect crypto payload response := by
  obtain ⟨files, hmap⟩ : ∃ files, (payload.targetFiles.getD []).mapM decodeTargetFile = .ok files := by
    refine Raised.exists_mapM_eq_ok fun tf htf => ?_
    obtain ⟨raw, hraw⟩ := hfiles tf htf
    exact ⟨⟨tf.path, raw⟩, by rw [decodeTargetFile, hraw]; rfl⟩
  refine ⟨latestConfigsResponse crypto version targetsJson files, ?_, ?_⟩
  · simp only [buildRcConfigurationsProtobuf, htargets, hload, parsedVersion_eq_ok hversion,
      Raised.ofOption_some, Raised.ok_bind, hmap]
    rfl
  · have hsnapshot : MetaMatches crypto "targets.json"
        ⟨version, signedJson crypto (buildSnapshotContent crypto version targetsJson)⟩
          ⟨version, targetsJson⟩ :=
      metaMatches_of_load "snapshot" "targets.json" hload hversion
    have htimestamp : MetaMatches crypto "snapshot.json"
        ⟨version, signedJson crypto (buildTimestampContent crypto version
          (signedJson crypto (buildSnapshotContent crypto version targetsJson)))⟩
        ⟨version, signedJson crypto (buildSnapshotContent crypto version targetsJson)⟩ :=
      metaMatches_of_load "timestamp" "snapshot.json" (load_signedJson plain_buildMetaContent)
        (at?_metaVersion "snapshot" "targets.json" version targetsJson)
    refine ⟨htargets, ⟨rfl, rfl, rfl⟩, hsnapshot, htimestamp, ?_⟩
    · refine (Raised.mapM_eq_ok_iff.mp hmap).imp fun tf file h => ?_
      rw [decodeTargetFile, Raised.bind_eq_ok] at h
      obtain ⟨raw, hraw, h⟩ := h
      rw [Raised.pure_eq_ok] at h
      rw [← h]
      exact ⟨rfl, Raised.ofOption_eq_ok_iff.mp hraw⟩

end Metadata

end RemoteConfig
end SystemTests
