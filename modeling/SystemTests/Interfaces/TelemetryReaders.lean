import SystemTests.Foundation.Dict
import SystemTests.Foundation.Exception
import SystemTests.Foundation.JsonDocument

/-!
# The two telemetry readers (`get_telemetry_data`)

The library interface and the mocked backend read telemetry requests with the same
flag.  The first replaces a batch by its messages where the flag is set, the second
where it is not.  A batch and its messages are never the same sequence: every
message is a part of the batch, and the batch has one text `message-batch` more.

**Results.**
* `messagesOf_count`: the messages of a batch have fewer texts `message-batch` than it.
* `library_flattens`: the library interface yields the messages of every batch, in order.
* `readersAgree_iff`: the readers yield the same if and only if there is no batch.
-/

namespace SystemTests
namespace Interfaces
namespace Telemetry

open Foundation Foundation.Text

section Model

/-- A recorded request: its path, its headers and its content. -/
structure Data where
  path : Str
  headers : List (Str × Str)
  content : Dict Str Json

/-- `content.get(key)` -/
def field (key : String) (d : Data) : Json := (d.content.get? key).getD .null

/-- The request type and the payload. -/
def view (d : Data) : Json × Json := (field "request_type" d, field "payload" d)

def isMessageBatch : Json → Bool
  | .string us => us = Json.codePoints "message-batch"
  | _ => false

def isBatch (d : Data) : Bool := isMessageBatch (field "request_type" d)

/-- `get_data(path_filters=path)` -/
def getData (path : String) (history : List Data) : List Data :=
  history.filter fun d => d.path = path.toList

def getApiKey (d : Data) : Option Str :=
  (d.headers.find? fun header => header.1.map Char.toLower = "dd-api-key".toList).map Prod.snd

/-- `get_data` of the mocked backend -/
def getDataWithApiKey (path : String) (withApiKey : Option Str) (history : List Data) :
    List Data :=
  (getData path history).filter fun d => withApiKey.isNone || getApiKey d = withApiKey

/-- `for batch_payload in payload` -/
def iterate : Json → Except Raised (List Json)
  | .array elements => .ok elements
  | .object members => .ok (members.map fun member => .string member.1)
  | .string us => .ok (us.map fun u => .string [u])
  | _ => .error (.typeError "object is not iterable")

/-- `batch_payload.get(key)` -/
def get (key : String) : Json → Except Raised Json
  | .object members => .ok ((Json.member? key (.object members)).getD .null)
  | _ => .error (.attributeError "get")

/-- A copy of a request that holds one message of its batch. -/
def copied (d : Data) (batchPayload : Json) : Except Raised Data := do
  let requestType ← get "request_type" batchPayload
  let payload ← get "payload" batchPayload
  return { d with content := (d.content.set "request_type" requestType).set "payload" payload }

def messagesOf (d : Data) : Except Raised (List Data) :=
  if isBatch d then do
    let payload ← Raised.ofOption (.keyError "payload") (d.content.get? "payload")
    (← iterate payload).mapM (copied d)
  else .ok [d]

/-- `get_telemetry_data` of the library interface -/
def libraryTelemetryData (flattenMessageBatches : Bool) (history : List Data) :
    Except Raised (List Data) :=
  let allData := getData "/telemetry/proxy/api/v2/apmtelemetry" history
  if ¬ flattenMessageBatches then .ok allData else Raised.flatMapM messagesOf allData

/-- `get_telemetry_data` of the mocked backend -/
def backendTelemetryData (flattenMessageBatches : Bool) (withApiKey : Option Str)
    (history : List Data) : Except Raised (List Data) :=
  let allData := getDataWithApiKey "/api/v2/apmtelemetry" withApiKey history
  if flattenMessageBatches then .ok allData else Raised.flatMapM messagesOf allData

end Model

section Count

mutual

/-- The number of texts `message-batch` in a value. -/
def count : Json → Nat
  | .string us => if us = Json.codePoints "message-batch" then 1 else 0
  | .array elements => countElements elements
  | .object members => countMembers members
  | _ => 0

def countElements : List Json → Nat
  | [] => 0
  | v :: vs => count v + countElements vs

def countMembers : List (List Nat × Json) → Nat
  | [] => 0
  | (_, v) :: members => count v + countMembers members

end

def countView (v : Json × Json) : Nat := count v.1 + count v.2

theorem countMembers_append (a b : List (List Nat × Json)) :
    countMembers (a ++ b) = countMembers a + countMembers b := by
  induction a with
  | nil => simp [countMembers]
  | cons member a ih =>
      rw [List.cons_append, countMembers, countMembers, ih]
      omega

theorem countMembers_reverse (a : List (List Nat × Json)) :
    countMembers a.reverse = countMembers a := by
  induction a with
  | nil => rfl
  | cons member a ih =>
      rw [List.reverse_cons, countMembers_append, ih, countMembers, countMembers, countMembers]
      omega

/-- The member of a name, or null. -/
def lookup (name : List Nat) (members : List (List Nat × Json)) : Json :=
  ((members.find? fun member => member.1 = name).map Prod.snd).getD .null

theorem count_lookup_le (name : List Nat) (members : List (List Nat × Json)) :
    count (lookup name members) ≤ countMembers members := by
  induction members with
  | nil => simp [lookup, count]
  | cons member members ih =>
      rw [countMembers]
      by_cases h : member.1 = name
      · have hlookup : lookup name (member :: members) = member.2 := by simp [lookup, h]
        rw [hlookup]
        omega
      · have hlookup : lookup name (member :: members) = lookup name members := by
          simp [lookup, h]
        rw [hlookup]
        omega

/-- The members of two names are different parts of an object. -/
theorem count_lookup_add_le {name name' : List Nat} (hne : name ≠ name')
    (members : List (List Nat × Json)) :
    count (lookup name members) + count (lookup name' members) ≤ countMembers members := by
  induction members with
  | nil => simp [lookup, count, countMembers]
  | cons member members ih =>
      have hskip : ∀ n, member.1 ≠ n → lookup n (member :: members) = lookup n members := by
        intro n hn
        simp [lookup, hn]
      have htake : ∀ n, member.1 = n → lookup n (member :: members) = member.2 := by
        intro n hn
        simp [lookup, hn]
      have hle := count_lookup_le name members
      have hle' := count_lookup_le name' members
      rw [countMembers]
      by_cases h : member.1 = name
      · rw [htake name h, hskip name' (h ▸ hne)]
        omega
      · by_cases h' : member.1 = name'
        · rw [hskip name h, htake name' h']
          omega
        · rw [hskip name h, hskip name' h']
          omega

end Count

section Batches

theorem get_eq_ok {key : String} {v w : Json} (h : get key v = .ok w) :
    ∃ members, v = .object members ∧ w = lookup (Json.codePoints key) members.reverse := by
  cases v with
  | object members =>
      rw [get, Except.ok.injEq] at h
      exact ⟨members, rfl, h.symm⟩
  | _ => cases h

theorem view_copied {d c : Data} {v : Json} (h : copied d v = .ok c) :
    ∃ members, v = .object members ∧
      view c = (lookup (Json.codePoints "request_type") members.reverse,
        lookup (Json.codePoints "payload") members.reverse) := by
  obtain ⟨requestType, htype, h⟩ := Raised.bind_eq_ok.mp h
  obtain ⟨payload, hpayload, h⟩ := Raised.bind_eq_ok.mp h
  obtain ⟨members, rfl, rfl⟩ := get_eq_ok htype
  obtain ⟨members', hmembers, rfl⟩ := get_eq_ok hpayload
  obtain rfl := Json.object.inj hmembers
  obtain rfl := Raised.pure_eq_ok.mp h
  refine ⟨members, rfl, ?_⟩
  simp [view, field, Dict.get?_set]

theorem countView_copied {d c : Data} {v : Json} (h : copied d v = .ok c) :
    countView (view c) ≤ count v := by
  obtain ⟨members, rfl, hview⟩ := view_copied h
  have hne : Json.codePoints "request_type" ≠ Json.codePoints "payload" := by decide
  rw [hview, countView, count, ← countMembers_reverse]
  exact count_lookup_add_le hne members.reverse

theorem sum_countView_copied {d : Data} {elements : List Json} {messages : List Data}
    (h : List.Forall₂ (fun v c => copied d v = .ok c) elements messages) :
    (messages.map fun c => countView (view c)).sum ≤ countElements elements := by
  induction h with
  | nil => simp
  | cons hc _ ih =>
      have hle := countView_copied hc
      rw [List.map_cons, List.sum_cons, countElements]
      omega

/-- What can be iterated is a list, or it gives texts. -/
theorem iterate_cases {v : Json} {elements : List Json} (h : iterate v = .ok elements) :
    v = .array elements ∨ ∀ e ∈ elements, ∃ us, e = .string us := by
  cases v with
  | array elements' =>
      rw [iterate, Except.ok.injEq] at h
      exact Or.inl (h ▸ rfl)
  | object members =>
      rw [iterate, Except.ok.injEq] at h
      subst h
      refine Or.inr ?_
      intro e he
      obtain ⟨member, -, rfl⟩ := List.mem_map.mp he
      exact ⟨_, rfl⟩
  | string us =>
      rw [iterate, Except.ok.injEq] at h
      subst h
      refine Or.inr ?_
      intro e he
      obtain ⟨u, -, rfl⟩ := List.mem_map.mp he
      exact ⟨_, rfl⟩
  | _ => cases h

theorem field_eq_of_isBatch {d : Data} (h : isBatch d = true) :
    field "request_type" d = .string (Json.codePoints "message-batch") := by
  unfold isBatch isMessageBatch at h
  split at h
  · rename_i us hfield
    rw [hfield, decide_eq_true_eq.mp h]
  · cases h

/-- The messages of a batch have fewer texts `message-batch` than the batch. -/
theorem messagesOf_count {d : Data} (hbatch : isBatch d = true) {messages : List Data}
    (h : messagesOf d = .ok messages) :
    (messages.map fun c => countView (view c)).sum < countView (view d) := by
  rw [messagesOf, if_pos hbatch] at h
  obtain ⟨payload, hpayload, h⟩ := Raised.bind_eq_ok.mp h
  obtain ⟨elements, helements, h⟩ := Raised.bind_eq_ok.mp h
  rw [Raised.mapM_eq_ok_iff] at h
  have hfield : field "payload" d = payload := by
    rw [field, Raised.ofOption_eq_ok_iff.mp hpayload]
    rfl
  have hview : countView (view d) = 1 + count payload := by
    rw [countView, view, field_eq_of_isBatch hbatch, hfield, count, if_pos rfl]
  have hsum := sum_countView_copied h
  rcases iterate_cases helements with rfl | htexts
  · rw [hview, count]
    omega
  · cases h with
    | nil =>
        rw [hview]
        simp
    | cons hc _ =>
        obtain ⟨us, rfl⟩ := htexts _ List.mem_cons_self
        cases hc

end Batches

section Readers

theorem messagesOf_of_not_isBatch {d : Data} (h : isBatch d = false) :
    messagesOf d = .ok [d] := by
  rw [messagesOf, h]
  rfl

/-- Reading the batches of a list leaves it as it is, or lowers the count. -/
theorem flatMapM_messagesOf_count {all messages : List Data}
    (h : Raised.flatMapM messagesOf all = .ok messages) :
    (∀ d ∈ all, isBatch d = false) ∧ messages = all ∨
      (messages.map fun c => countView (view c)).sum <
        (all.map fun c => countView (view c)).sum := by
  induction all generalizing messages with
  | nil => exact Or.inl ⟨by simp, (Except.ok.inj h).symm⟩
  | cons d all ih =>
      obtain ⟨part, rest, hpart, hrest, rfl⟩ := Raised.flatMapM_cons_eq_ok.mp h
      rw [List.map_append, List.sum_append, List.map_cons, List.sum_cons, List.forall_mem_cons]
      cases hbatch : isBatch d with
      | false =>
          rw [messagesOf_of_not_isBatch hbatch, Except.ok.injEq] at hpart
          subst hpart
          rcases ih hrest with ⟨hall, rfl⟩ | hlt
          · exact Or.inl ⟨⟨rfl, hall⟩, rfl⟩
          · refine Or.inr ?_
            rw [List.map_singleton, List.sum_singleton]
            omega
      | true =>
          have hlt := messagesOf_count hbatch hpart
          refine Or.inr ?_
          rcases ih hrest with ⟨-, rfl⟩ | hlt'
          · omega
          · omega

theorem flatMapM_messagesOf_of_no_batch {all : List Data} (h : ∀ d ∈ all, isBatch d = false) :
    Raised.flatMapM messagesOf all = .ok all := by
  rw [Raised.flatMapM_eq_ok (fun d hd => messagesOf_of_not_isBatch (h d hd)), List.flatMap_singleton']

/-- The request type and the payload of a message of a batch. -/
def messageView : Json → Json × Json
  | .object members => (lookup (Json.codePoints "request_type") members.reverse,
      lookup (Json.codePoints "payload") members.reverse)
  | _ => (.null, .null)

/-- The messages of a request: those of its batch, or the request itself. -/
def messageViews (d : Data) : List (Json × Json) :=
  if isBatch d then
    match field "payload" d with
    | .array elements => elements.map messageView
    | _ => []
  else [view d]

/-- A batch whose payload is a list of messages. -/
def WellFormed (d : Data) : Prop :=
  isBatch d = true → ∃ elements, d.content.get? "payload" = some (.array elements) ∧
    ∀ e ∈ elements, ∃ members, e = .object members

theorem exists_copied (d : Data) (members : List (List Nat × Json)) :
    ∃ c, copied d (.object members) = .ok c ∧ view c = messageView (.object members) := by
  have hcopied : ∃ c, copied d (.object members) = .ok c := ⟨_, rfl⟩
  obtain ⟨c, hc⟩ := hcopied
  obtain ⟨members', hmembers, hview⟩ := view_copied hc
  obtain rfl := Json.object.inj hmembers
  exact ⟨c, hc, hview⟩

theorem messagesOf_of_wellFormed {d : Data} (h : WellFormed d) :
    ∃ messages, messagesOf d = .ok messages ∧ messages.map view = messageViews d := by
  cases hbatch : isBatch d with
  | false =>
      refine ⟨_, messagesOf_of_not_isBatch hbatch, ?_⟩
      rw [messageViews, hbatch]
      rfl
  | true =>
      obtain ⟨elements, hpayload, helements⟩ := h hbatch
      have hfield : field "payload" d = .array elements := by
        rw [field, hpayload]
        rfl
      rw [messagesOf, messageViews, hbatch, hfield, hpayload]
      simp only [if_true, Raised.ofOption_some, Raised.ok_bind, iterate]
      clear hpayload hfield h
      induction elements with
      | nil => exact ⟨[], rfl, rfl⟩
      | cons e elements ih =>
          rw [List.forall_mem_cons] at helements
          obtain ⟨⟨members, rfl⟩, helements⟩ := helements
          obtain ⟨c, hc, hview⟩ := exists_copied d members
          obtain ⟨messages, hmessages, hviews⟩ := ih helements
          refine ⟨c :: messages, ?_, ?_⟩
          · rw [List.mapM_cons, hc, Raised.ok_bind, hmessages]
            rfl
          · rw [List.map_cons, List.map_cons, hview, hviews]

theorem libraryTelemetryData_false (history : List Data) : libraryTelemetryData false history =
    .ok (getData "/telemetry/proxy/api/v2/apmtelemetry" history) := rfl

theorem libraryTelemetryData_true (history : List Data) : libraryTelemetryData true history =
    Raised.flatMapM messagesOf (getData "/telemetry/proxy/api/v2/apmtelemetry" history) := rfl

/-- The library interface puts the messages of every batch in its place. -/
theorem library_flattens {history : List Data}
    (h : ∀ d ∈ getData "/telemetry/proxy/api/v2/apmtelemetry" history, WellFormed d) :
    ∃ ls, libraryTelemetryData true history = .ok ls ∧ ls.map view =
      (getData "/telemetry/proxy/api/v2/apmtelemetry" history).flatMap messageViews := by
  rw [libraryTelemetryData_true]
  generalize getData "/telemetry/proxy/api/v2/apmtelemetry" history = all at h ⊢
  induction all with
  | nil => exact ⟨[], rfl, rfl⟩
  | cons d all ih =>
      rw [List.forall_mem_cons] at h
      obtain ⟨part, hpart, hview⟩ := messagesOf_of_wellFormed h.1
      obtain ⟨rest, hrest, hviews⟩ := ih h.2
      refine ⟨part ++ rest, Raised.flatMapM_cons_eq_ok.mpr ⟨part, rest, hpart, hrest, rfl⟩, ?_⟩
      rw [List.map_append, hview, hviews, List.flatMap_cons]

/-- The same requests were recorded by both interfaces. -/
def RecordedIdentically (library backend : List Data) : Prop :=
  (getData "/telemetry/proxy/api/v2/apmtelemetry" library).map Data.content =
    (getData "/api/v2/apmtelemetry" backend).map Data.content

/-- Both readers yield the messages, without batches, or the requests as they are. -/
def ReadersAgree (flattenMessageBatches : Bool) (library backend : List Data) : Prop :=
  ∃ ls bs, libraryTelemetryData flattenMessageBatches library = .ok ls ∧
    backendTelemetryData flattenMessageBatches none backend = .ok bs ∧
    ls.map view = bs.map view ∧
    (flattenMessageBatches = true → (∀ d ∈ ls, isBatch d = false) ∧ ls.map view =
      (getData "/telemetry/proxy/api/v2/apmtelemetry" library).flatMap messageViews) ∧
    (flattenMessageBatches = false →
      ls = getData "/telemetry/proxy/api/v2/apmtelemetry" library)

theorem map_view_of_map_content {l l' : List Data}
    (h : l.map Data.content = l'.map Data.content) : l.map view = l'.map view := by
  have hcontent : ∀ l : List Data, l.map view = (l.map Data.content).map fun content =>
      ((content.get? "request_type").getD .null, (content.get? "payload").getD .null) := by
    intro l
    rw [List.map_map]
    rfl
  rw [hcontent, hcontent, h]

theorem no_batch_of_map_view {l l' : List Data} (h : l.map view = l'.map view)
    (hl : ∀ d ∈ l, isBatch d = false) : ∀ d ∈ l', isBatch d = false := by
  intro d hd
  have hmem : view d ∈ l.map view := by
    rw [h]
    exact List.mem_map_of_mem hd
  obtain ⟨d', hd', hview⟩ := List.mem_map.mp hmem
  have hbatch := hl d' hd'
  rw [isBatch, show field "request_type" d' = field "request_type" d from congrArg Prod.fst hview]
    at hbatch
  exact hbatch

theorem sum_countView_eq {l l' : List Data} (h : l.map view = l'.map view) :
    (l.map fun c => countView (view c)).sum = (l'.map fun c => countView (view c)).sum := by
  have hmap : ∀ l : List Data, (l.map fun c => countView (view c)) = (l.map view).map countView := by
    intro l
    rw [List.map_map]
    rfl
  rw [hmap, hmap, h]

theorem getDataWithApiKey_none (path : String) (history : List Data) :
    getDataWithApiKey path none history = getData path history := by
  simp [getDataWithApiKey]

theorem backendTelemetryData_true (history : List Data) : backendTelemetryData true none history =
    .ok (getData "/api/v2/apmtelemetry" history) := by
  rw [← getDataWithApiKey_none]
  rfl

theorem backendTelemetryData_false (history : List Data) : backendTelemetryData false none history =
    Raised.flatMapM messagesOf (getData "/api/v2/apmtelemetry" history) := by
  rw [← getDataWithApiKey_none]
  rfl

/-- Where there is a batch one of the readers has a lower count than the other. -/
theorem no_batch_of_readersAgree {flattenMessageBatches : Bool} {library backend : List Data}
    (hsame : RecordedIdentically library backend)
    (h : ReadersAgree flattenMessageBatches library backend) :
    ∀ d ∈ getData "/telemetry/proxy/api/v2/apmtelemetry" library, isBatch d = false := by
  have hviews := map_view_of_map_content hsame
  obtain ⟨ls, bs, hls, hbs, hview, -⟩ := h
  have hsum := sum_countView_eq hview
  have hsum' := sum_countView_eq hviews
  cases flattenMessageBatches with
  | true =>
      rw [backendTelemetryData_true, Except.ok.injEq] at hbs
      subst hbs
      rcases flatMapM_messagesOf_count hls with ⟨hall, -⟩ | hlt
      · exact hall
      · omega
  | false =>
      rw [libraryTelemetryData_false, Except.ok.injEq] at hls
      rw [backendTelemetryData_false] at hbs
      subst hls
      rcases flatMapM_messagesOf_count hbs with ⟨hall, -⟩ | hlt
      · exact no_batch_of_map_view hviews.symm hall
      · omega

theorem readersAgree_of_no_batch {flattenMessageBatches : Bool} {library backend : List Data}
    (hsame : RecordedIdentically library backend)
    (h : ∀ d ∈ getData "/telemetry/proxy/api/v2/apmtelemetry" library, isBatch d = false) :
    ReadersAgree flattenMessageBatches library backend := by
  have hviews := map_view_of_map_content hsame
  have hbackend := no_batch_of_map_view hviews h
  have hmessages : (getData "/telemetry/proxy/api/v2/apmtelemetry" library).map view =
      (getData "/telemetry/proxy/api/v2/apmtelemetry" library).flatMap messageViews := by
    rw [List.map_eq_flatMap]
    refine List.flatMap_congr ?_
    intro d hd
    rw [messageViews, h d hd]
    rfl
  cases flattenMessageBatches with
  | true =>
      refine ⟨_, _, ?_, backendTelemetryData_true backend, hviews, fun _ => ⟨h, hmessages⟩, nofun⟩
      rw [libraryTelemetryData_true, flatMapM_messagesOf_of_no_batch h]
  | false =>
      refine ⟨_, _, libraryTelemetryData_false library, ?_, hviews, nofun, fun _ => rfl⟩
      rw [backendTelemetryData_false, flatMapM_messagesOf_of_no_batch hbackend]

/-- **The readers yield the same if and only if there is no batch.** -/
theorem readersAgree_iff (flattenMessageBatches : Bool) {library backend : List Data}
    (hsame : RecordedIdentically library backend) :
    ReadersAgree flattenMessageBatches library backend ↔
      ∀ d ∈ getData "/telemetry/proxy/api/v2/apmtelemetry" library, isBatch d = false :=
  ⟨no_batch_of_readersAgree hsame, readersAgree_of_no_batch hsame⟩

/-- The content of a batch of one message. -/
def batchContent : Dict Str Json :=
  ⟨[("request_type", Json.text "message-batch"),
    ("payload", .array [Json.fields [("request_type", Json.text "app-started")]])], by decide⟩

def batchIn (path : String) : Data := ⟨path, [], batchContent⟩

theorem not_readersAgree_batch :
    ¬ ∀ (flattenMessageBatches : Bool) (library backend : List Data),
      RecordedIdentically library backend →
        ReadersAgree flattenMessageBatches library backend := by
  intro hall
  have hsame : RecordedIdentically [batchIn "/telemetry/proxy/api/v2/apmtelemetry"]
      [batchIn "/api/v2/apmtelemetry"] := by
    rfl
  have hnone := no_batch_of_readersAgree hsame (hall true _ _ hsame)
  have hbatch := hnone (batchIn "/telemetry/proxy/api/v2/apmtelemetry") List.mem_cons_self
  cases hbatch

def plainIn (path : String) : Data :=
  ⟨path, [], ⟨[("request_type", Json.text "app-started")], by decide⟩⟩

/-- A history without batches. -/
theorem readersAgree_iff_plain :
    ReadersAgree true [plainIn "/telemetry/proxy/api/v2/apmtelemetry"]
      [plainIn "/api/v2/apmtelemetry"] := by
  have hsame : RecordedIdentically [plainIn "/telemetry/proxy/api/v2/apmtelemetry"]
      [plainIn "/api/v2/apmtelemetry"] := by
    rfl
  refine (readersAgree_iff true hsame).mpr ?_
  intro d hd
  obtain rfl := List.mem_singleton.mp hd
  rfl

end Readers

end Telemetry
end Interfaces
end SystemTests
