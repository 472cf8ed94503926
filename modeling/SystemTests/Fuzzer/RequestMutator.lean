import SystemTests.Foundation.Utf8
import SystemTests.Fuzzer.Payload

/-!
# The request mutators of the fuzzer (`tests/fuzzer/request_mutator.py`)

A mutator changes a request by operators that make random choices.  Its class says what
the weblog under test can take: a subclass overrides attributes, and some of them are
constraints that the operators and `clean_request` are to respect.

What the classes share of files and of the character database is the parameter `env`.
The comment of a request, which cleaning drops, is left out.

**Results.**
* `baseMutator` and the subclasses have what every operator relies on: a method that is
  left, characters for a header, and room for a path.
* `apply`, `mutate`, `cleanRequest`: the operators, a mutation, and the cleaning of a
  request.
-/

namespace SystemTests
namespace Fuzzer

open Foundation Foundation.Text Foundation.Draw

/-- The strings of `blns.json`, the files of `data`, and `str.lower` and `str.isnumeric`. -/
structure Environment where
  blns : List Str
  fileData : List (List UInt8)
  lower : Str → Str
  isNumeric : Char → Bool
  blns_ne_nil : blns ≠ []
  fileData_ne_nil : fileData ≠ []
  lower_ascii : ∀ s : Str, (∀ c ∈ s, c.toNat < 128) → lower s = s.map Char.toLower

inductive PyType where
  | dict | tuple | list | str | float | int
deriving DecidableEq

/-- `isinstance`; a boolean is an integer. -/
def isInstance : Value → List PyType → Bool
  | .none, _ => false
  | .bytes _, _ => false
  | .bool _, types => .int ∈ types
  | .int _, types => .int ∈ types
  | .float _, types => .float ∈ types
  | .str _, types => .str ∈ types
  | .list _, types => .list ∈ types
  | .dict _, types => .dict ∈ types

def cleanString (item : Str) (allowed forbidden : Option (List Char)) : Str :=
  let item := match allowed with
    | some allowed => item.filter (· ∈ allowed)
    | none => item
  match forbidden with
  | some forbidden => item.filter (· ∉ forbidden)
  | none => item

section Classes

/-- The attributes of a class, with what every operator relies on. -/
structure MutatorClass where
  allowEmptyHeaderKey : Bool
  allowColonInFirstInHeaderKey : Bool
  allowedJsonPayloadTypes : List PyType
  maxPathLength : Nat
  methods : List Str
  headerCharacters : List Char
  charsets : List Str
  invalidMethods : List Str
  invalidHeaderKeys : List Str
  maxPathLength_pos : 0 < maxPathLength
  post_valid : "POST".toList ∉ invalidMethods
  methods_left : ∃ method ∈ methods, method ∉ invalidMethods
  headerCharacters_ne_nil : headerCharacters ≠ []
  charsets_ne_nil : charsets ≠ []
  invalidHeaderKeys_ascii : ∀ key ∈ invalidHeaderKeys, key ≠ [] ∧ ∀ c ∈ key, c.toNat < 128

def allMethods : List Str :=
  ["ACL", "BASELINE-CONTROL", "CHECKIN", "CHECKOUT", "COPY", "CONNECT", "DELETE", "GET", "HEAD",
   "LABEL", "LOCK", "M-SEARCH", "MERGE", "MKACTIVITY", "MKCALENDAR", "MKCOL", "MKWORKSPACE",
   "MOVE", "NOTIFY", "OPTIONS", "ORDERPATCH", "PATCH", "POST", "PROPFIND", "PROPPATCH", "PUT",
   "PURGE", "REPORT", "SEARCH", "SUBSCRIBE", "TRACE", "UNCHECKOUT", "UNLOCK", "UNSUBSCRIBE",
   "UPDATE", "VERSION-CONTROL", "PATATE", "RR RR", "M\x00M"]

def allCharsets : List Str :=
  ["utf-8", "ISO-8859-1", "Windows-1251", "Windows-1252", "Shift JIS", "GB2312", "EUC-KR",
   "ISO-8859-9", "Windows-874", "ISO-8859-15", "US-ASCII", "Windows-1255", "TIS-620",
   "ISO-8859-7", "Windows-1253", "UTF-16", "KOI8-R", "Windows-1257", "GB18030", "UTF-7",
   "KS C 5601", "ISO-8859-8", "Windows-31J", "ISO-8859-5", "ISO-8859-4", "ANSI_X3.110-1983",
   "ISO-8859-6", "KOI8-U", "ISO-8859-3", "Windows-1258", "ISO-2022-JP", "ISO-8859-11",
   "ISO-8859-13", "Big5 HKSCS", "ISO-8859-10", "ISO-8859-16", "Windows-949", "IBM850"]

/-- The characters from `¡` to `ÿ`, which three subclasses forbid. -/
def highLatin1 : List Char := (List.range' 0xA1 0x5F).map Char.ofNat

theorem post_mem_allMethods : "POST".toList ∈ allMethods := by simp [allMethods]

/-- `RequestMutator` -/
def baseMutator : MutatorClass where
  allowEmptyHeaderKey := true
  allowColonInFirstInHeaderKey := true
  allowedJsonPayloadTypes := [.dict, .tuple, .list, .str, .float, .int]
  maxPathLength := 65000
  methods := allMethods
  headerCharacters := unicode
  charsets := allCharsets
  invalidMethods := []
  invalidHeaderKeys := []
  maxPathLength_pos := by decide
  post_valid := by simp
  methods_left := ⟨_, post_mem_allMethods, by simp⟩
  headerCharacters_ne_nil := unicode_ne_nil
  charsets_ne_nil := by simp [allCharsets]
  invalidHeaderKeys_ascii := by simp

/-- What a subclass with other invalid methods relies on. -/
theorem methods_left_of_post {invalidMethods : List Str}
    (h : "POST".toList ∉ invalidMethods) : ∃ method ∈ allMethods, method ∉ invalidMethods :=
  ⟨_, post_mem_allMethods, h⟩

def contentLengthKey : Str := "Content-length"

theorem contentLengthKey_ascii :
    ∀ key ∈ [contentLengthKey], key ≠ [] ∧ ∀ c ∈ key, c.toNat < 128 := by
  rw [List.forall_mem_singleton]
  exact ⟨by decide, by decide⟩

def flaskMutator : MutatorClass :=
  { baseMutator with
    invalidMethods := ["RR RR"]
    headerCharacters := cleanString unicode none (some [' '])
    post_valid := by simp
    methods_left := methods_left_of_post (by simp)
    headerCharacters_ne_nil :=
      List.ne_nil_of_mem (List.mem_filter.mpr ⟨nul_mem_unicode, by decide⟩) }

def sinatraInvalidMethods : List Str :=
  ["PATATE", "RR RR", "M\x00M", "CONNECT", "PURGE", "MKCALENDAR", "UPDATE", "CHECKOUT",
   "CHECKIN", "SEARCH", "LOCK", "UPDATE", "MOVE", "NOTIFY", "MKCOL", "ORDERPATCH", "PROPPATCH",
   "UNLOCK", "TRACE", "MKACTIVITY", "MKCALENDAR", "BASELINE-CONTROL", "PROPFIND", "LABEL",
   "SUBSCRIBE", "UNSUBSCRIBE", "M-SEARCHMERGE", "MKWORKSPACE", "UNCHECKOUT", "COPY",
   "VERSION-CONTROL", "ACL", "REPORT"]

def sinatraMutator : MutatorClass :=
  { baseMutator with
    invalidMethods := sinatraInvalidMethods
    maxPathLength := 2048
    headerCharacters := cleanString latin1 none (some (" [] ".toList ++ highLatin1))
    allowedJsonPayloadTypes := [.dict]
    allowEmptyHeaderKey := false
    maxPathLength_pos := by decide
    post_valid := by simp [sinatraInvalidMethods]
    methods_left := methods_left_of_post (by simp [sinatraInvalidMethods])
    headerCharacters_ne_nil := by decide }

def nodeMutator : MutatorClass :=
  { baseMutator with
    headerCharacters := cleanString latin1 none
      (some (" [] ".toList ++ highLatin1 ++ "\u00a0,\\;/()\"<>?!\x7b\x7d=@".toList))
    allowEmptyHeaderKey := false
    invalidMethods :=
      ["BASELINE-CONTROL", "CHECKIN", "MKWORKSPACE", "LABEL", "M-SEARCHMERGE", "UPDATE",
       "VERSION-CONTROL", "ORDERPATCH", "UNCHECKOUT"]
    invalidHeaderKeys := [contentLengthKey]
    post_valid := by simp
    methods_left := methods_left_of_post (by simp)
    headerCharacters_ne_nil := by decide
    invalidHeaderKeys_ascii := contentLengthKey_ascii }

def railsMutator : MutatorClass :=
  { baseMutator with
    invalidMethods :=
      ["PATATE", "CONNECT", "NOTIFY", "SUBSCRIBE", "UNSUBSCRIBE", "M-SEARCHMERGE", "PURGE"]
    invalidHeaderKeys := [contentLengthKey]
    maxPathLength := 2048
    maxPathLength_pos := by decide
    post_valid := by simp
    methods_left := methods_left_of_post (by simp)
    invalidHeaderKeys_ascii := contentLengthKey_ascii }

def javaInvalidMethods : List Str :=
  ["VERSION-CONTROL", "UNLOCK", "PROPPATCH", "LABEL", "REPORT", "PATH", "MKACTIVITY",
   "CHECKOUT", "PATCH", "MKCOL", "MERGE", "ORDERPATCH", "ACL", "MKCALENDAR", "MOVE", "UPDATE",
   "UNCHECKOUT", "SEARCH", "PROPFIND", "COPY", "BASELINE-CONTROL", "LOCK", "MKWORKSPACE",
   "CHECKIN", "PATATE", "RR RR", "M\x00M", "PURGE", "M-SEARCHMERGE", "NOTIFY", "UNSUBSCRIBE",
   "SUBSCRIBE"]

def javaMutator : MutatorClass :=
  { baseMutator with
    invalidMethods := javaInvalidMethods
    invalidHeaderKeys := [contentLengthKey]
    charsets := allCharsets.filter fun charset => charset ≠ "ISO-8859-16"
    post_valid := by simp [javaInvalidMethods]
    methods_left := methods_left_of_post (by simp [javaInvalidMethods])
    charsets_ne_nil :=
      List.ne_nil_of_mem (List.mem_filter.mpr ⟨List.mem_cons_self, by decide⟩)
    invalidHeaderKeys_ascii := contentLengthKey_ascii }

def phpInvalidMethods : List Str :=
  ["CHECKIN", "UPDATE", "VERSION-CONTROL", "M-SEARCHMERGE", "LABEL", "UNCHECKOUT", "CONNECT",
   "BASELINE-CONTROL", "ORDERPATCH", "PURGE", "PATATE", "MKWORKSPACE", "ACL", "M\x00M", "RR RR"]

def phpMutator : MutatorClass :=
  { baseMutator with
    headerCharacters := cleanString latin1 none
      (some (" []".toList ++ highLatin1 ++ "<>\\\u00a0;()=\x7b?,@".toList))
    allowEmptyHeaderKey := false
    allowColonInFirstInHeaderKey := false
    invalidMethods := phpInvalidMethods
    invalidHeaderKeys := [contentLengthKey]
    post_valid := by simp [phpInvalidMethods]
    methods_left := methods_left_of_post (by simp [phpInvalidMethods])
    headerCharacters_ne_nil := by decide
    invalidHeaderKeys_ascii := contentLengthKey_ascii }

end Classes

section Mutating

structure Request where
  method : Str
  path : Str
  headers : Option (List (Str × Str))
  cookies : Option (Dict Str Str)
  json : Option Value
  data : Option Value

variable (env : Environment) (c : MutatorClass)

def ipHeaderKeys : List Str :=
  ["x-forwarded-for", "x-client-ip", "x-real-ip", "x-forwarded", "x-cluster-client-ip",
   "forwarded-for", "forwarded", "via"]

def genericHeaderKeys : List Str := ["", "User-Agent", "Content-length", "content-type"]

/-- `self.methods` -/
def methods : List Str := c.methods.filter fun method => method ∉ c.invalidMethods

/-- `self.invalid_header_keys` -/
def invalidHeaderKeys : List Str := c.invalidHeaderKeys.map env.lower

/-- `self.header_keys` -/
def headerKeys : List Str :=
  (genericHeaderKeys ++ ipHeaderKeys).filter fun key => env.lower key ∉ invalidHeaderKeys env c

def userAgents : List Str :=
  ["Arachni/v1.2.1", "md5(acunetix_wvs_security_test)", "black widow", " blackwidow ",
   " brutus ", " bsqlbf ", " cgichk ", "commix/ ", " crowdstrike ", " dirbuster ",
   " evilScanner ", "gobuster/ ", "GoogleSecurityScanner", " rendel-scan ", " havij ",
   " jaascois "]

def headerValues : List Str := "".toList :: "../".toList :: "( ) \x7b".toList :: env.blns

def attackTexts : List Str :=
  ["ok", "union select from", "<vmlframe src=", "http-equiv:+set-cookie", "require('.')",
   "file_0?", "zlib://", "1234-1234-1234-1234"]

def payloadValues : List Value :=
  [Value.none, Value.str [], Value.int 0, Value.int (-1), Value.int (2 ^ 64 + 1),
      Value.bool true, Value.bool false] ++
    (env.blns ++ attackTexts).map fun s => Value.str (codePointsOf s)

def blockedIps : List Str :=
  ["123.14.51.61", "14.51.61.0/7", "::0000:0000:0000:0000:0370:7334",
   "2001:0db8:0000:0000:0000:8a2e:0370:7334", "fe80::1ff:fe23:4567:890a",
   "::0000:0000:0000:0000:0370:0/16", "fe80--1ff-fe23-4567-890as3.ipv6-literal.net",
   "2001:db8::8a2e:370:7334%eth2", "2001:db8::8a2e:370:7335%eth2"]

/-- The addresses that `mutate_ip` starts from. -/
def ips : List Str :=
  (List.range 100).map (fun i => Nat.toDigits 10 i ++ ".0.0.0") ++ blockedIps

def hexDigit (n : Nat) : Char := "0123456789ABCDEF".toList.getD n '0'

/-- `urllib.parse.quote` -/
def quote (s : Str) : Str :=
  (Utf8.encode s).flatMap fun b =>
    let char := Char.ofNat b.toNat
    if b.toNat < 128 ∧ (char.isAlphanum ∨ char ∈ "_.-~/".toList) then [char]
    else ['%', hexDigit (b.toNat / 16), hexDigit (b.toNat % 16)]

def getStringFromList (items : List Str) (characters : List Char) (minLength : Nat) :
    Draw Str := do
  let result ← choice items
  if result ≠ [] then pure result else getRandomString characters minLength 255

/-- `re.sub(r"^:*", "", key)` -/
def stripColons (key : Str) : Str := key.dropWhile (· = ':')

def cleanHeaderKey (key : Str) : Str :=
  if c.allowColonInFirstInHeaderKey = false ∧ [':'] <+: key then stripColons key else key

def getHeaderKey : Draw Str := do
  let listed ← choice (headerKeys env c)
  let result ← if listed ≠ [] then pure listed else getRandomString c.headerCharacters 1 255
  return cleanHeaderKey c result

def mutateIp (ip : Option Str) : Draw Str := do
  let ip ← match ip with
    | none => choice ips
    | some ip => pure ip
  let pos ← randrange 0 ip.length
  if env.isNumeric (ip.getD pos ' ') then do
    let digit ← choice "0123456789".toList
    return ip.take pos ++ [digit] ++ ip.drop (pos + 1)
  else return ip

def getHeaderValue (key : Str) (previousValue : Option Str) : Draw Str :=
  if previousValue.getD [] ≠ [] then mutateString (previousValue.getD []) c.headerCharacters
  else
    let key := env.lower key
    if key = "user-agent" then getStringFromList userAgents c.headerCharacters 1
    else if key = "content-length" then choice ["-1", "0", "1", "12", "4294967296", "nan"]
    else if key = "content-type" then do
      let charset ← choice c.charsets
      return "text/html;charset=" ++ charset
    else if key ∈ ipHeaderKeys then mutateIp env previousValue
    else getStringFromList (headerValues env) c.headerCharacters 1

def getPayloadKey : Draw CodePoints := do
  let key ← choice env.blns
  return codePointsOf key

def getPayloadValue (allowNested : Bool) : Draw Value :=
  if !allowNested then choice (payloadValues env)
  else do
    let key ← getPayloadKey env
    let member ← choice (payloadValues env)
    let element ← choice (payloadValues env)
    choice [.dict [(key, member)], .list [element]]

/-- `{get_payload_key(): get_payload_value() for _ in range(count)}` -/
def getPayloadDict (allowNested : Bool) : Draw Value := do
  let count ← randrange 1 11
  let items ← replicate (do
    let key ← getPayloadKey env
    let value ← getPayloadValue env allowNested
    return (key, value)) count
  return .dict (items.foldl (fun dict item => Dict.setItems item.1 item.2 dict) [])

inductive PayloadType where
  | json | data
deriving DecidableEq

def getRandomPayload : PayloadType → Draw Value
  | .json => getPayloadDict env true
  | .data => do
      let chosen ← randrange 0 51
      if chosen ≤ 1 then do
        let text ← gru 1000 10000
        return .str (codePointsOf text)
      else if chosen < 2 then do
        let file ← choice env.fileData
        return .dict [(codePointsOf "file", .bytes file)]
      else getPayloadDict env false

end Mutating

section Operators

variable (env : Environment) (c : MutatorClass) (r : Request)

def changeMethod : Draw Request := do
  let method ← choice (methods c)
  return { r with method }

def setRandomPath : Draw Request := do
  let pathLength ← randrange 0 33
  let items ← choices env.blns pathLength
  return { r with path := ("/" ++ join "/" (items.map quote)).take c.maxPathLength }

def mutatePath : Draw Request := do
  let path ← mutateString r.path "/azerty?&=".toList
  let path := if ['/'] <+: path then path else "/" ++ path
  return { r with path := path.take c.maxPathLength }

/-- The cookies are new where the request has none, and are not put into it. -/
def addCookie : Draw Request := do
  let key ← gru 1 255
  let value ← gru 1 255
  return { r with cookies := r.cookies.map fun cookies => cookies.set key value }

def removeCookie : Draw Request :=
  match r.cookies with
  | none => pure r
  | some cookies =>
      if cookies.keys = [] then pure r
      else do
        let key ← choice cookies.keys
        return { r with cookies := some (cookies.erase key) }

def addHeader : Draw Request := do
  let key ← getHeaderKey env c
  let value ← getHeaderValue env c key none
  return { r with headers := some (r.headers.getD [] ++ [(key, value)]) }

def removeHeader : Draw Request :=
  match r.headers with
  | none => pure r
  | some headers =>
      if headers = [] then pure r
      else do
        let i ← randrange 0 headers.length
        return { r with headers := some (headers.eraseIdx i) }

/-- The header is chosen by its place. -/
def mutateHeaderValue : Draw Request :=
  match r.headers with
  | none => pure r
  | some headers =>
      if headers = [] then pure r
      else do
        let i ← randrange 0 headers.length
        let header := headers.getD i ([], [])
        let value ← getHeaderValue env c header.1 (some header.2)
        return { r with headers := some (headers.set i (header.1, value)) }

def setRandomPayload : Draw Request := do
  let payloadType ← choice [PayloadType.json, PayloadType.data]
  let payload ← getRandomPayload env payloadType
  match payloadType with
  | .json => return { r with json := some payload, data := none }
  | .data => return { r with json := none, data := some payload }

def mutatePayload : Draw Request := do
  let data ← r.data.mapM mutateItem
  let json ← r.json.mapM mutateItem
  return { r with data, json }

def reducePayload : Draw Request :=
  match r.json, r.data with
  | some json, _ => do
      let json ← reduceItem json
      return { r with json := some json }
  | none, some data => do
      let data ← reduceItem data
      return { r with data := some data }
  | none, none => pure r

/-- One payload enlarged by a key and a value of its own. -/
def enlargeOne (allowNested : Bool) (payload : Value) : Draw Value := do
  let key ← getPayloadKey env
  let value ← getPayloadValue env allowNested
  enlargeItem key value payload

def enlargePayload : Draw Request := do
  let data ← r.data.mapM (enlargeOne env false)
  let json ← r.json.mapM (enlargeOne env true)
  return { r with data, json }

/-- The operators that `mutate` chooses from. -/
inductive Mutation where
  | changeMethod | setRandomPath | mutatePath | addHeader | removeHeader | mutateHeaderValue
  | mutatePayload | setRandomPayload | reducePayload | enlargePayload | addCookie | removeCookie
deriving DecidableEq

def apply : Mutation → Draw Request
  | .changeMethod => changeMethod c r
  | .setRandomPath => setRandomPath env c r
  | .mutatePath => mutatePath c r
  | .addHeader => addHeader env c r
  | .removeHeader => removeHeader r
  | .mutateHeaderValue => mutateHeaderValue env c r
  | .mutatePayload => mutatePayload r
  | .setRandomPayload => setRandomPayload env r
  | .reducePayload => reducePayload r
  | .enlargePayload => enlargePayload env r
  | .addCookie => addCookie r
  | .removeCookie => removeCookie r

def mutations : List Mutation :=
  [.changeMethod, .setRandomPath, .mutatePath, .addHeader, .removeHeader, .mutateHeaderValue,
   .mutatePayload, .setRandomPayload, .reducePayload, .enlargePayload, .addCookie, .removeCookie]

/-- `mutate`; all weights are positive, and none but the probabilities depend on them. -/
def mutate (noMutation : Bool) (count : Nat) : Draw Request :=
  if noMutation then pure r
  else do
    let chosen ← choices mutations count
    chosen.foldlM (apply env c) r

def cleanHeaders (headers : List (Str × Str)) : List (Str × Str) :=
  let headers := headers.filter fun h => env.lower h.1 ∉ invalidHeaderKeys env c
  let headers := headers.map fun h =>
    (cleanString h.1 (some c.headerCharacters) none, cleanString h.2 (some c.headerCharacters) none)
  let headers := if c.allowColonInFirstInHeaderKey = false then
    headers.map fun h => (stripColons h.1, h.2) else headers
  if c.allowEmptyHeaderKey = false then headers.filter fun h => h.1.length ≠ 0 else headers

def cleanRequest : Request :=
  { r with
    method := if r.method ∈ c.invalidMethods then "POST" else r.method
    json := r.json.filter fun json => isInstance json c.allowedJsonPayloadTypes
    headers := r.headers.map (cleanHeaders env c) }

end Operators

end Fuzzer
end SystemTests
