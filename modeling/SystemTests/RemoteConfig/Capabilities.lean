import Mathlib.Data.Finset.Lattice.Fold
import SystemTests.Foundation.Base64
import SystemTests.Foundation.Exception
import SystemTests.Foundation.JsonDocument

/-!
# Remote config capabilities (`utils/dd_constants.py`, `get_rc_capabilities`)

A library says in every config request which capabilities it has: an integer with
one bit for each, as big-endian bytes in a list or in base64.

**Results.**
* `getRcCapabilities_concat`: without a targets version the capabilities are those
  of all requests, each of which must be readable.
-/

namespace SystemTests
namespace RemoteConfig

open Foundation Foundation.Text

inductive Capabilities where
  | asmActivation
  | asmIpBlocking
  | asmDdRules
  | asmExclusions
  | asmRequestBlocking
  | asmAsmResponseBlocking
  | asmUserBlocking
  | asmCustomRules
  | asmCustomBlockingResponse
  | asmTrustedIps
  | asmApiSecuritySampleRate
  | apmTracingSampleRate
  | apmTracingLogsInjection
  | apmTracingHttpHeaderTags
  | apmTracingCustomTags
  | asmProcessorOverrides
  | asmCustomDataScanners
  | asmExclusionData
  | apmTracingEnabled
  | apmTracingDataStreamsEnabled
  | asmRaspSqli
  | asmRaspLfi
  | asmRaspSsrf
  | asmRaspShi
  | asmRaspXxe
  | asmRaspRce
  | asmRaspNosqli
  | asmRaspXss
  | apmTracingSampleRules
  | csmActivation
  | asmAutoUserInstrumMode
  | asmEndpointFingerprint
  | asmSessionFingerprint
  | asmNetworkFingerprint
  | asmHeaderFingerprint
  | asmTruncationRules
  | asmRaspCmdi
  | apmTracingEnableDynamicInstrumentation
  | apmTracingEnableExceptionReplay
  | apmTracingEnableCodeOrigin
  | apmTracingEnableLiveDebugging
  | asmDdMulticonfig
  | asmTraceTaggingRules
  | asmExtendedDataCollection
  | apmTracingMulticonfig
  | ffeFlagConfigurationRules
  | dataStreamsTransactionExtractors
  | apmTracingLlmobs
  | sdkConfiguration
  | ffeFlagDependentFlagVariantKeyV1
deriving DecidableEq

namespace Capabilities

/-- The value and the name of a member of the enumeration. -/
def entry : Capabilities → Nat × Str
  | .asmActivation => (1, "ASM_ACTIVATION")
  | .asmIpBlocking => (2, "ASM_IP_BLOCKING")
  | .asmDdRules => (3, "ASM_DD_RULES")
  | .asmExclusions => (4, "ASM_EXCLUSIONS")
  | .asmRequestBlocking => (5, "ASM_REQUEST_BLOCKING")
  | .asmAsmResponseBlocking => (6, "ASM_ASM_RESPONSE_BLOCKING")
  | .asmUserBlocking => (7, "ASM_USER_BLOCKING")
  | .asmCustomRules => (8, "ASM_CUSTOM_RULES")
  | .asmCustomBlockingResponse => (9, "ASM_CUSTOM_BLOCKING_RESPONSE")
  | .asmTrustedIps => (10, "ASM_TRUSTED_IPS")
  | .asmApiSecuritySampleRate => (11, "ASM_API_SECURITY_SAMPLE_RATE")
  | .apmTracingSampleRate => (12, "APM_TRACING_SAMPLE_RATE")
  | .apmTracingLogsInjection => (13, "APM_TRACING_LOGS_INJECTION")
  | .apmTracingHttpHeaderTags => (14, "APM_TRACING_HTTP_HEADER_TAGS")
  | .apmTracingCustomTags => (15, "APM_TRACING_CUSTOM_TAGS")
  | .asmProcessorOverrides => (16, "ASM_PROCESSOR_OVERRIDES")
  | .asmCustomDataScanners => (17, "ASM_CUSTOM_DATA_SCANNERS")
  | .asmExclusionData => (18, "ASM_EXCLUSION_DATA")
  | .apmTracingEnabled => (19, "APM_TRACING_ENABLED")
  | .apmTracingDataStreamsEnabled => (20, "APM_TRACING_DATA_STREAMS_ENABLED")
  | .asmRaspSqli => (21, "ASM_RASP_SQLI")
  | .asmRaspLfi => (22, "ASM_RASP_LFI")
  | .asmRaspSsrf => (23, "ASM_RASP_SSRF")
  | .asmRaspShi => (24, "ASM_RASP_SHI")
  | .asmRaspXxe => (25, "ASM_RASP_XXE")
  | .asmRaspRce => (26, "ASM_RASP_RCE")
  | .asmRaspNosqli => (27, "ASM_RASP_NOSQLI")
  | .asmRaspXss => (28, "ASM_RASP_XSS")
  | .apmTracingSampleRules => (29, "APM_TRACING_SAMPLE_RULES")
  | .csmActivation => (30, "CSM_ACTIVATION")
  | .asmAutoUserInstrumMode => (31, "ASM_AUTO_USER_INSTRUM_MODE")
  | .asmEndpointFingerprint => (32, "ASM_ENDPOINT_FINGERPRINT")
  | .asmSessionFingerprint => (33, "ASM_SESSION_FINGERPRINT")
  | .asmNetworkFingerprint => (34, "ASM_NETWORK_FINGERPRINT")
  | .asmHeaderFingerprint => (35, "ASM_HEADER_FINGERPRINT")
  | .asmTruncationRules => (36, "ASM_TRUNCATION_RULES")
  | .asmRaspCmdi => (37, "ASM_RASP_CMDI")
  | .apmTracingEnableDynamicInstrumentation => (38, "APM_TRACING_ENABLE_DYNAMIC_INSTRUMENTATION")
  | .apmTracingEnableExceptionReplay => (39, "APM_TRACING_ENABLE_EXCEPTION_REPLAY")
  | .apmTracingEnableCodeOrigin => (40, "APM_TRACING_ENABLE_CODE_ORIGIN")
  | .apmTracingEnableLiveDebugging => (41, "APM_TRACING_ENABLE_LIVE_DEBUGGING")
  | .asmDdMulticonfig => (42, "ASM_DD_MULTICONFIG")
  | .asmTraceTaggingRules => (43, "ASM_TRACE_TAGGING_RULES")
  | .asmExtendedDataCollection => (44, "ASM_EXTENDED_DATA_COLLECTION")
  | .apmTracingMulticonfig => (45, "APM_TRACING_MULTICONFIG")
  | .ffeFlagConfigurationRules => (46, "FFE_FLAG_CONFIGURATION_RULES")
  | .dataStreamsTransactionExtractors => (47, "DATA_STREAMS_TRANSACTION_EXTRACTORS")
  | .apmTracingLlmobs => (48, "APM_TRACING_LLMOBS")
  | .sdkConfiguration => (49, "SDK_CONFIGURATION")
  | .ffeFlagDependentFlagVariantKeyV1 => (50, "FFE_FLAG_DEPENDENT_FLAG_VARIANT_KEY_V1")

def value (capability : Capabilities) : Nat := capability.entry.1

def name ( capability : Capabilities) : Str := capability.entry.2

/-- `for capability in Capabilities` -/
def all : List Capabilities :=
  [.asmActivation, .asmIpBlocking, .asmDdRules, .asmExclusions, .asmRequestBlocking,
    .asmAsmResponseBlocking, .asmUserBlocking, .asmCustomRules, .asmCustomBlockingResponse,
    .asmTrustedIps, .asmApiSecuritySampleRate, .apmTracingSampleRate, .apmTracingLogsInjection,
    .apmTracingHttpHeaderTags, .apmTracingCustomTags, .asmProcessorOverrides,
    .asmCustomDataScanners, .asmExclusionData, .apmTracingEnabled,
    .apmTracingDataStreamsEnabled, .asmRaspSqli, .asmRaspLfi, .asmRaspSsrf, .asmRaspShi,
    .asmRaspXxe, .asmRaspRce, .asmRaspNosqli, .asmRaspXss, .apmTracingSampleRules,
    .csmActivation, .asmAutoUserInstrumMode, .asmEndpointFingerprint, .asmSessionFingerprint,
    .asmNetworkFingerprint, .asmHeaderFingerprint, .asmTruncationRules, .asmRaspCmdi,
    .apmTracingEnableDynamicInstrumentation, .apmTracingEnableExceptionReplay,
    .apmTracingEnableCodeOrigin, .apmTracingEnableLiveDebugging, .asmDdMulticonfig,
    .asmTraceTaggingRules, .asmExtendedDataCollection, .apmTracingMulticonfig,
    .ffeFlagConfigurationRules, .dataStreamsTransactionExtractors, .apmTracingLlmobs,
    .sdkConfiguration, .ffeFlagDependentFlagVariantKeyV1]

end Capabilities

/-- `client["capabilities"]`, a list of bytes or a text in base64 -/
inductive RawCapabilities where
  | numbers (bytes : List Int)
  | text (base64 : Str)
deriving DecidableEq

/-- The client of a request to `/v0.7/config`. -/
structure ConfigRequest where
  targetsVersion : Int
  capabilities : Option RawCapabilities
deriving DecidableEq

section Reading

/-- `bytes(numbers)` -/
def bytesOf (numbers : List Int) : Except Raised (List UInt8) :=
  if ∀ n ∈ numbers, 0 ≤ n ∧ n < 256 then .ok (numbers.map fun n => UInt8.ofNat n.toNat)
  else .error (.valueError "bytes must be in range(0, 256)")

def RawCapabilities.decoded : RawCapabilities → Except Raised (List UInt8)
  | .numbers list => bytesOf list
  | .text base64 => Raised.ofOption (.valueError "base64") (Base64.decode base64)

/-- `int.from_bytes(bytes, byteorder="big")` -/
def fromBytes (bytes : List UInt8) : Nat := bytes.foldl (fun n byte => n * 256 + byte.toNat) 0

def capabilitiesOf (intCapabilities : Nat) : Finset Capabilities :=
  (Capabilities.all.filter fun capability => intCapabilities.testBit capability.value).toFinset

def ConfigRequest.current (data : ConfigRequest) : Except Raised (Finset Capabilities) := do
  let capabilities ← Raised.ofOption (.keyError "capabilities") data.capabilities
  let decodedCapabilities ← capabilities.decoded
  return capabilitiesOf (fromBytes decodedCapabilities)

/-- What was aggregated so far, and whether a request was read. -/
def readRequest (targetsVersion : Option Int) (acc : Finset Capabilities × Bool)
    (data : ConfigRequest) : Except Raised (Finset Capabilities × Bool) :=
  match targetsVersion with
  | none => do
      let current ← data.current
      return (acc.1 ∪ current, true)
  | some version =>
      if data.targetsVersion ≠ version then .ok acc
      else do
        let current ← data.current
        return (current, true)

def getRcCapabilities (requests : List ConfigRequest) (targetsVersion : Option Int) :
    Except Raised (Finset Capabilities) := do
  let (result, found) ← requests.foldlM (readRequest targetsVersion) (∅, false)
  match targetsVersion, found with
  | some version, false =>
      .error (.assertionError
        ("No remote config request found for targets_version " ++ Json.intText version))
  | _, _ => return result

/-- Without a targets version a further request adds its capabilities. -/
theorem getRcCapabilities_concat (requests : List ConfigRequest) (data : ConfigRequest) :
    getRcCapabilities (requests ++ [data]) none = do
      let result ← getRcCapabilities requests none
      let current ← data.current
      return result ∪ current := by
  simp only [getRcCapabilities, List.foldlM_append, List.foldlM_cons, List.foldlM_nil,
    readRequest]
  cases requests.foldlM (readRequest none) (∅, false) with
  | error e => rfl
  | ok acc => cases data.current <;> rfl

end Reading

end RemoteConfig
end SystemTests
