import SystemTests.Foundation.Dict
import SystemTests.Foundation.Exception
import SystemTests.Foundation.RegexSearch

/-!
# Request ids (`utils/_weblog.py`, `utils/tools.py`)

A request to the weblog carries a random id at the end of its user agent.  The id is read again
in two places: from the headers of the response that the test keeps, and from the user agents
that a tracer reports with its spans.

**Results.**
* `getRid_request`: the response of a request gives the id of the request.
* `getRidFromUserAgent_inject`: the user agent gives it too, with any text behind it.
-/

namespace SystemTests
namespace Correlation

open Foundation Foundation.Text Foundation.Regex

section Model

/-- `rid/([A-Z]{36})` -/
def ridPattern : Rx := .seq (.lit "rid/".toList) (.group 1 (.times 36 (.chars Char.isUpper)))

/-- `get_rid_from_user_agent` of a text -/
def getRidFromUserAgent (userAgent : Str) : Option Str :=
  if userAgent = [] then none
  else (search ridPattern userAgent).bind (capture 1)

abbrev Headers := Dict Str Str

/-- A `CaseInsensitiveDict`: under each lowered key, the cased key and the value. -/
abbrev CaseInsensitiveDict := Dict Str (Str × Str)

variable (lower : Str → Str)

/-- Whether `k.lower() == "user-agent"` -/
def isUserAgent (key : Str) : Bool := lower key = "user-agent".toList

/-- The header that `_Weblog.request` adds the id to. -/
def userAgentKey (headers : Headers) : Str :=
  (headers.keys.find? (isUserAgent lower)).getD "User-Agent".toList

/-- `f"{user_agent} rid/{rid}"` -/
def withRid (userAgent rid : Str) : Str := userAgent ++ " rid/".toList ++ rid

/-- The headers that `_Weblog.request` sends. -/
def sentHeaders (ridInUserAgent : Bool) (headers : Option Headers) (rid : Str) : Headers :=
  let headers := headers.getD .empty
  let key := userAgentKey lower headers
  let userAgent := (headers.get? key).getD "system_tests".toList
  if ridInUserAgent then headers.set key (withRid userAgent rid) else headers

/-- `CaseInsensitiveDict(headers)` -/
def caseInsensitive (headers : Headers) : CaseInsensitiveDict :=
  Dict.empty.setAll (headers.items.map fun item => (lower item.1, item))

/-- What a test keeps of a request. -/
inductive Response where
  | http (headers : CaseInsensitiveDict) (statusCode : Option Int)
  | grpc (headers : Headers)

/-- `_Weblog.request` -/
def request (ridInUserAgent : Bool) (headers : Option Headers) (rid : Str)
    (statusCode : Option Int) : Response :=
  .http (caseInsensitive lower (sentHeaders lower ridInUserAgent headers rid)) statusCode

/-- `_Weblog.grpc`, with the headers that `GrpcRequest` fakes -/
def grpc (rid : Str) : Response :=
  .grpc (Dict.empty.set "user-agent".toList ("rid/".toList ++ rid))

/-- `user_agent[-36:]` -/
def last36 (s : Str) : Str := s.drop (s.length - 36)

/-- `get_rid` of a response -/
def Response.getRid : Response → Except Raised Str
  | .http headers _ =>
      last36 <$> Raised.ofOption .stopIteration
        ((headers.values.find? fun item => isUserAgent lower item.1).map Prod.snd)
  | .grpc headers =>
      last36 <$> Raised.ofOption .stopIteration
        ((headers.items.find? fun item => isUserAgent lower item.1).map Prod.snd)

end Model

section Extraction

/-- What `random.choices(string.ascii_uppercase, k=36)` gives. -/
def IsRid (rid : Str) : Prop := rid.length = 36 ∧ ∀ c ∈ rid, c.isUpper = true

theorem last36_append {rid : Str} (h : IsRid rid) (s : Str) : last36 (s ++ rid) = rid := by
  have hlength : (s ++ rid).length - 36 = s.length := by
    rw [List.length_append, h.1, Nat.add_sub_cancel]
  rw [last36, hlength, List.drop_left]

/-- The matches of the pattern at one place. -/
theorem mem_run_ridPattern {s : Str} {m : Match} :
    m ∈ run ridPattern (s, []) ↔
      ∃ rid t, s = "rid/".toList ++ rid ++ t ∧ IsRid rid ∧ m = (t, [(1, rid)]) := by
  rw [ridPattern, mem_run_seq]
  have hgroup : ∀ (s : Str) (m : Match),
      m ∈ run (.group 1 (.times 36 (.chars Char.isUpper))) (s, []) ↔
        ∃ d t caps', s = d ++ t ∧ (IsRid d ∧ caps' = []) ∧ m = (t, (1, d) :: caps') := by
    intro s m
    refine mem_run_group (P := fun d _ caps' => IsRid d ∧ caps' = []) fun m' => ?_
    rw [mem_run_times_chars]
    constructor
    · rintro ⟨d, t, hs, hlength, hd, hm⟩
      exact ⟨d, t, [], hs, ⟨⟨hlength, hd⟩, rfl⟩, hm⟩
    · rintro ⟨d, t, _, hs, ⟨⟨hlength, hd⟩, rfl⟩, hm⟩
      exact ⟨d, t, hs, hlength, hd, hm⟩
  constructor
  · rintro ⟨x, hx, hm⟩
    obtain ⟨t, rfl, rfl⟩ := mem_run_lit.mp hx
    obtain ⟨d, u, _, rfl, ⟨hd, rfl⟩, rfl⟩ := (hgroup _ _).mp hm
    exact ⟨d, u, by rw [List.append_assoc], hd, rfl⟩
  · rintro ⟨rid, t, rfl, hrid, rfl⟩
    exact ⟨(rid ++ t, []), mem_run_lit.mpr ⟨rid ++ t, by rw [List.append_assoc], rfl⟩,
      (hgroup _ _).mpr ⟨rid, t, [], rfl, ⟨hrid, rfl⟩, rfl⟩⟩

theorem matchStart_ridPattern {rid : Str} (h : IsRid rid) (t : Str) :
    matchStart ridPattern ("rid/".toList ++ rid ++ t) = some (t, [(1, rid)]) := by
  refine matchStart_of_unique (mem_run_ridPattern.mpr ⟨rid, t, rfl, h, rfl⟩) fun m hm => ?_
  obtain ⟨rid', t', heq, hrid', rfl⟩ := mem_run_ridPattern.mp hm
  rw [List.append_assoc, List.append_assoc] at heq
  obtain ⟨rfl, rfl⟩ := List.append_inj (List.append_cancel_left heq) (h.1.trans hrid'.1.symm)
  rfl

/-- No match takes a blank. -/
theorem blank_not_mem {rid : Str} (h : IsRid rid) : ' ' ∉ "rid/".toList ++ rid := by
  rw [List.mem_append]
  rintro (hmem | hmem)
  · exact absurd hmem (by decide)
  · exact absurd (h.2 ' ' hmem) (by decide)

theorem search_eq_none {userAgent : Str} (h : getRidFromUserAgent userAgent = none) :
    search ridPattern userAgent = none := by
  unfold getRidFromUserAgent at h
  split_ifs at h with hempty
  · rw [hempty]
    rfl
  · by_contra hsome
    obtain ⟨m, hm⟩ := Option.ne_none_iff_exists'.mp hsome
    obtain ⟨a, s, -, hstart⟩ := exists_of_search_eq_some hm
    obtain ⟨rid, t, -, -, rfl⟩ := mem_run_ridPattern.mp (List.mem_of_mem_head? hstart)
    rw [hm] at h
    cases h

/-- **The id is read from a user agent** that has none before it. -/
theorem getRidFromUserAgent_inject {userAgent rid : Str} (h : IsRid rid)
    (hnone : getRidFromUserAgent userAgent = none) (suffix : Str) :
    getRidFromUserAgent (withRid userAgent rid ++ suffix) = some rid := by
  have htext : withRid userAgent rid ++ suffix =
      userAgent ++ ' ' :: ("rid/".toList ++ rid ++ suffix) := by
    simp [withRid]
  have hstart : ∀ b c, userAgent = b ++ c → c ≠ [] →
      matchStart ridPattern (c ++ ' ' :: ("rid/".toList ++ rid ++ suffix)) = none := by
    intro b c hbc hne
    rw [matchStart_eq_none_iff, List.eq_nil_iff_forall_not_mem]
    intro m hm
    obtain ⟨rid', t, heq, hrid', -⟩ := mem_run_ridPattern.mp hm
    have hinside : ∀ u, c = "rid/".toList ++ rid' ++ u → False := by
      intro u hu
      have hnone := search_eq_none_iff.mp (search_eq_none hnone) b c hbc
      rw [hu, matchStart_ridPattern hrid'] at hnone
      cases hnone
    -- a match that is not inside the front takes the blank behind it
    rcases List.append_eq_append_iff.mp heq with ⟨u, hu, hrest⟩ | ⟨u, hu, -⟩
    · cases u with
      | nil => exact hinside [] (by rw [hu, List.append_nil, List.append_nil])
      | cons x u =>
          obtain rfl := (List.cons.inj hrest).1
          exact blank_not_mem hrid' (by rw [hu]; simp)
    · exact hinside u hu
  have hblank : matchStart ridPattern (' ' :: ("rid/".toList ++ rid ++ suffix)) = none := by
    rw [matchStart_eq_none_iff, List.eq_nil_iff_forall_not_mem]
    intro m hm
    obtain ⟨rid', t, heq, -, -⟩ := mem_run_ridPattern.mp hm
    cases heq
  rw [getRidFromUserAgent, htext, if_neg (by simp), search_append_of_none hstart, search, hblank,
    Option.none_or, search_of_matchStart (matchStart_ridPattern h suffix)]
  rfl

end Extraction

section Headers

variable {lower : Str → Str}

/-- At most one header is the user agent. -/
def OneUserAgent (lower : Str → Str) (headers : Headers) : Prop :=
  ∀ k ∈ headers.keys, ∀ k' ∈ headers.keys,
    isUserAgent lower k = true → isUserAgent lower k' = true → k = k'

/-- The user agent of the headers that a test gives. -/
def givenUserAgent (lower : Str → Str) (headers : Option Headers) : Str :=
  let headers := headers.getD .empty
  (headers.get? (userAgentKey lower headers)).getD "system_tests".toList

theorem find?_eq_some_of_unique {α : Type} {p : α → Bool} {l : List α} {a : α} (ha : a ∈ l)
    (hp : p a = true) (hunique : ∀ b ∈ l, p b = true → b = a) : l.find? p = some a := by
  obtain ⟨b, hb⟩ := Option.isSome_iff_exists.mp (List.find?_isSome.mpr ⟨a, ha, hp⟩)
  rw [hb, hunique b (List.mem_of_find?_eq_some hb) (List.find?_some hb)]

theorem isUserAgent_userAgentKey (hlower : lower "User-Agent".toList = "user-agent".toList)
    (headers : Headers) : isUserAgent lower (userAgentKey lower headers) = true := by
  rw [userAgentKey]
  cases hfind : headers.keys.find? (isUserAgent lower) with
  | none => exact decide_eq_true hlower
  | some k => exact List.find?_some hfind

/-- The header with the id is the only user agent that is sent. -/
theorem eq_userAgentKey {headers : Headers} (hone : OneUserAgent lower headers) {k : Str}
    (hk : k ∈ headers.keys) (hagent : isUserAgent lower k = true) :
    k = userAgentKey lower headers := by
  obtain ⟨k', hk'⟩ := Option.isSome_iff_exists.mp (List.find?_isSome.mpr ⟨k, hk, hagent⟩)
  rw [userAgentKey, hk']
  exact hone k hk k' (List.mem_of_find?_eq_some hk') hagent (List.find?_some hk')

theorem mem_items_caseInsensitive {headers : Headers} {item : Str × (Str × Str)}
    (h : item ∈ (caseInsensitive lower headers).items) :
    item.2 ∈ headers.items ∧ item.1 = lower item.2.1 := by
  have hget := (Dict.mem_items_iff _ item.1 item.2).mp h
  rcases Dict.get?_setAll_cases hget with hmem | hempty
  · obtain ⟨entry, hentry, heq⟩ := List.mem_map.mp hmem
    obtain ⟨hkey, rfl⟩ := Prod.mk.inj heq
    exact ⟨hentry, hkey.symm⟩
  · cases hempty

/-- **The response gives the id of the request.** -/
theorem getRid_request {headers : Option Headers} {rid : Str}
    (hlower : lower "User-Agent".toList = "user-agent".toList)
    (hone : OneUserAgent lower (headers.getD .empty)) (hrid : IsRid rid)
    (statusCode : Option Int) :
    (request lower true headers rid statusCode).getRid lower = .ok rid := by
  have hkey := isUserAgent_userAgentKey hlower (headers.getD .empty)
  have hsent : sentHeaders lower true headers rid = (headers.getD .empty).set
      (userAgentKey lower (headers.getD .empty)) (withRid (givenUserAgent lower headers) rid) := rfl
  have hget := Dict.get?_set_self (headers.getD .empty)
    (userAgentKey lower (headers.getD .empty)) (withRid (givenUserAgent lower headers) rid)
  rw [← hsent] at hget
  -- only one of the headers that are sent is a user agent
  have hunique : ∀ item ∈ (sentHeaders lower true headers rid).items,
      isUserAgent lower item.1 = true → item =
        (userAgentKey lower (headers.getD .empty), withRid (givenUserAgent lower headers) rid) := by
    intro item hitem hagent
    have hvalue := (Dict.mem_items_iff _ item.1 item.2).mp hitem
    have heq : item.1 = userAgentKey lower (headers.getD .empty) := by
      rw [hsent, Dict.get?_set] at hvalue
      split_ifs at hvalue with h
      · exact h
      · exact eq_userAgentKey hone ((Dict.get?_isSome_iff _ _).mp (by rw [hvalue]; rfl)) hagent
    rw [heq, hget] at hvalue
    rw [← heq, Option.some.inj hvalue]
  have hmem : (userAgentKey lower (headers.getD .empty),
      withRid (givenUserAgent lower headers) rid) ∈
        (caseInsensitive lower (sentHeaders lower true headers rid)).values := by
    have hlowered : lower (userAgentKey lower (headers.getD .empty)) ∈
        ((sentHeaders lower true headers rid).items.map fun item => (lower item.1, item)).map
          Prod.fst := by
      rw [List.map_map]
      exact List.mem_map.mpr ⟨_, (Dict.mem_items_iff _ _ _).mpr hget, rfl⟩
    obtain ⟨a, ha, hitem⟩ := Dict.exists_get?_setAll Dict.empty hlowered
    obtain ⟨entry, hentry, heq⟩ := List.mem_map.mp hitem
    obtain ⟨hlowered, rfl⟩ := Prod.mk.inj heq
    have hagent : isUserAgent lower entry.1 = true := by
      rw [isUserAgent, hlowered]
      exact hkey
    rw [hunique entry hentry hagent] at ha
    exact List.mem_map.mpr ⟨_, (Dict.mem_items_iff _ _ _).mpr ha, rfl⟩
  have hfind : (caseInsensitive lower (sentHeaders lower true headers rid)).values.find?
      (fun item => isUserAgent lower item.1) = some (userAgentKey lower (headers.getD .empty),
        withRid (givenUserAgent lower headers) rid) := by
    refine find?_eq_some_of_unique hmem hkey fun item hitem hagent => ?_
    obtain ⟨entry, hentry, rfl⟩ := List.mem_map.mp hitem
    exact hunique _ (mem_items_caseInsensitive hentry).1 hagent
  rw [request, Response.getRid, hfind]
  exact congrArg Except.ok (last36_append hrid _)

/-- The other kind of request has the header that its response fakes. -/
theorem getRid_grpc {rid : Str} (hlower : lower "user-agent".toList = "user-agent".toList)
    (hrid : IsRid rid) : (grpc rid).getRid lower = .ok rid := by
  have hagent : isUserAgent lower "user-agent".toList = true := decide_eq_true hlower
  have hitems : ((Dict.empty : Headers).set "user-agent".toList ("rid/".toList ++ rid)).items =
      [("user-agent".toList, "rid/".toList ++ rid)] := rfl
  have hfind : [("user-agent".toList, "rid/".toList ++ rid)].find?
      (fun item => isUserAgent lower item.1) = some ("user-agent".toList, "rid/".toList ++ rid) :=
    List.find?_cons_of_pos hagent
  rw [grpc, Response.getRid, hitems, hfind]
  exact congrArg Except.ok (last36_append hrid _)

end Headers

section Calls

variable (lower : Str → Str)

inductive Call where
  | http (headers : Option Headers) (statusCode : Option Int)
  | grpc

/-- A call of `_Weblog.request` or of `_Weblog.grpc`. -/
structure Sent where
  call : Call
  rid : Str

/-- What `random` gives for the id, and headers with one user agent that has no id. -/
def Sent.Valid (sent : Sent) : Prop :=
  IsRid sent.rid ∧
    match sent.call with
    | .http headers _ => OneUserAgent lower (headers.getD .empty) ∧
        getRidFromUserAgent (givenUserAgent lower headers) = none
    | .grpc => True

def Sent.response (sent : Sent) : Response :=
  match sent.call with
  | .http headers statusCode => request lower true headers sent.rid statusCode
  | .grpc => grpc sent.rid

/-- The user agent that the weblog gets; packages may add more to it. -/
def Sent.userAgent (sent : Sent) : Str :=
  match sent.call with
  | .http headers _ => withRid (givenUserAgent lower headers) sent.rid
  | .grpc => withRid "system_tests".toList sent.rid

/-- What is documented of `str.lower`, for the names of the header. -/
structure LowersUserAgent : Prop where
  cased : lower "User-Agent".toList = "user-agent".toList
  lowered : lower "user-agent".toList = "user-agent".toList

variable {lower} {sent : Sent}

theorem Sent.getRid_response (hlower : LowersUserAgent lower) (h : sent.Valid lower) :
    (sent.response lower).getRid lower = .ok sent.rid := by
  obtain ⟨call, rid⟩ := sent
  obtain ⟨hrid, hcall⟩ := h
  cases call with
  | http headers statusCode => exact getRid_request hlower.cased hcall.1 hrid statusCode
  | grpc => exact getRid_grpc hlower.lowered hrid

theorem Sent.getRidFromUserAgent_userAgent (h : sent.Valid lower) (suffix : Str) :
    getRidFromUserAgent (sent.userAgent lower ++ suffix) = some sent.rid := by
  obtain ⟨call, rid⟩ := sent
  obtain ⟨hrid, hcall⟩ := h
  cases call with
  | http headers statusCode => exact getRidFromUserAgent_inject hrid hcall.2 suffix
  | grpc => exact getRidFromUserAgent_inject hrid (by decide) suffix

end Calls

end Correlation
end SystemTests
