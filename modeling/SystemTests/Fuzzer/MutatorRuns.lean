import SystemTests.Foundation.Run
import SystemTests.Fuzzer.RequestMutator

/-!
# Runs of a request mutator

A run is a list of operators, each with the tape it draws from, that are applied one
after the other to a cleaned request.

What goes wrong is a key that is drawn at random for a header.  It may be one of the
invalid keys, and where the colons in front of a key are dropped nothing may be left of
it.  So may cleaning make an invalid key of a valid one, leave an address header without
a value, for which `mutate_ip` has no character to choose, and let a payload pass that
`reduce_payload` has no case for.

**Results.**
* `always_getHeaderValue`: a header gets a value that is not empty.
* `getHeaderKey_returns`: a header gets an allowed key.
* `invariant_cleanRequest`: what cleaning an acceptable request guarantees.
* `apply_returns`: an operator returns and keeps what is guaranteed.
* `run_returns`: so does a run.
* `exists_run_of_mutate`: what `mutate` does is a run.
* `mutations_safe`: every run from a cleaned request is safe when no bad key is drawn.
-/

namespace SystemTests
namespace Fuzzer

open Foundation Foundation.Text Foundation.Draw

variable {env : Environment} {c : MutatorClass}

section Guarantees

variable (env c)

/-- A key that a header may have. -/
structure KeyAllowed (key : Str) : Prop where
  valid : env.lower key ∉ invalidHeaderKeys env c
  ne_nil : c.allowEmptyHeaderKey = false → key ≠ []

/-- What every request has to be. -/
structure Safe (r : Request) : Prop where
  path : ['/'] <+: r.path
  method : r.method ∉ c.invalidMethods
  keys : ∀ h ∈ r.headers.getD [], KeyAllowed env c h.1

/-- The payload that `reduce_payload` takes. -/
def payload (r : Request) : Option Value := r.json <|> r.data

/-- What no operator breaks. -/
structure Invariant (r : Request) : Prop extends Safe env c r where
  values : ∀ h ∈ r.headers.getD [], h.2 = [] → env.lower h.1 ∉ ipHeaderKeys
  reducible : ∀ v ∈ payload r, Reducible v

end Guarantees

section Draws

theorem lower_nil (env : Environment) : env.lower [] = [] := env.lower_ascii [] (by simp)

theorem nil_not_mem_invalidHeaderKeys : [] ∉ invalidHeaderKeys env c := by
  intro h
  obtain ⟨key, hkey, hlower⟩ := List.mem_map.mp h
  obtain ⟨hne, hascii⟩ := c.invalidHeaderKeys_ascii key hkey
  rw [env.lower_ascii key hascii, List.map_eq_nil_iff] at hlower
  exact hne hlower

theorem headerKeys_ne_nil : headerKeys env c ≠ [] := by
  have hkey : [] ∈ headerKeys env c := by
    refine List.mem_filter.mpr ⟨List.mem_cons_self, decide_eq_true ?_⟩
    rw [lower_nil]
    exact nil_not_mem_invalidHeaderKeys
  exact List.ne_nil_of_mem hkey

theorem methods_ne_nil : methods c ≠ [] := by
  obtain ⟨method, hmem, hvalid⟩ := c.methods_left
  exact List.ne_nil_of_mem (List.mem_filter.mpr ⟨hmem, decide_eq_true hvalid⟩)

theorem always_getStringFromList {items : List Str} (hitems : items ≠ [])
    {characters : List Char} (hcharacters : characters ≠ []) :
    Always (getStringFromList items characters 1) (· ≠ []) := by
  refine (always_choice hitems).bind fun result _ => ?_
  refine Always.ite (fun hne => always_pure hne) fun _ => ?_
  refine (always_getRandomString hcharacters (by decide)).imp fun s hs => ?_
  exact List.ne_nil_of_length_pos hs

theorem ne_nil_of_mem_ips : ∀ ip ∈ ips, ip ≠ [] := by
  intro ip hip
  rcases List.mem_append.mp hip with hip | hip
  · obtain ⟨i, -, rfl⟩ := List.mem_map.mp hip
    simp
  · rintro rfl
    exact absurd hip (by decide)

theorem always_mutateIp : Always (mutateIp env none) (· ≠ []) := by
  have hips : ips ≠ [] := by simp [ips, blockedIps]
  refine (always_choice hips).bind fun ip hip => ?_
  have hne := ne_nil_of_mem_ips ip hip
  refine (always_randrange (List.length_pos_of_ne_nil hne)).bind fun pos _ => ?_
  refine Always.ite (fun _ => ?_) fun _ => always_pure hne
  exact (always_choice (by decide)).bind fun digit _ => always_pure (by simp)

/-- **A header gets a value that is not empty**, unless it is an address header whose value is. -/
theorem always_getHeaderValue {key : Str} {previousValue : Option Str}
    (h : previousValue = some [] → env.lower key ∉ ipHeaderKeys) :
    Always (getHeaderValue env c key previousValue) (· ≠ []) := by
  refine Always.ite (fun hne => ?_) fun hnil => ?_
  · exact (always_mutateString c.headerCharacters_ne_nil).imp fun s hs => hs hne
  refine Always.ite (fun _ => ?_) fun _ => ?_
  · exact always_getStringFromList (by simp [userAgents]) c.headerCharacters_ne_nil
  refine Always.ite (fun _ => ?_) fun _ => ?_
  · refine (always_choice (by simp)).imp fun s hs => ?_
    rintro rfl
    exact absurd hs (by decide)
  refine Always.ite (fun _ => ?_) fun _ => ?_
  · exact (always_choice c.charsets_ne_nil).bind fun charset _ => always_pure (by simp)
  refine Always.ite (fun hip => ?_) fun _ => ?_
  · cases previousValue with
    | none => exact always_mutateIp
    | some value =>
        have hvalue : value = [] := by simpa using hnil
        exact absurd hip (h (congrArg some hvalue))
  · exact always_getStringFromList (by simp [headerValues]) c.headerCharacters_ne_nil

/-- The random text that is drawn for a key makes an allowed one. -/
def KeyDrawn (env : Environment) (c : MutatorClass) (tape : Tape) : Prop :=
  ∀ rest s rest', choice (headerKeys env c) tape = .ok ([], rest) →
    getRandomString c.headerCharacters 1 255 rest = .ok (s, rest') →
    KeyAllowed env c (cleanHeaderKey c s)

theorem no_colon_of_mem_headerKeys {key : Str} (h : key ∈ headerKeys env c) : ¬ [':'] <+: key := by
  have hlisted := (List.mem_filter.mp h).1
  revert hlisted
  have hall : ∀ key ∈ genericHeaderKeys ++ ipHeaderKeys, ¬ [':'] <+: key := by decide
  exact hall key

/-- **A header gets an allowed key**: one that is listed, or one that is drawn. -/
theorem getHeaderKey_returns {tape : Tape} (h : KeyDrawn env c tape) :
    Returns (getHeaderKey env c) tape (KeyAllowed env c) := by
  obtain ⟨listed, rest, hlisted, hmem⟩ := always_choice headerKeys_ne_nil tape
  rw [getHeaderKey]
  by_cases hnil : listed = []
  · subst hnil
    obtain ⟨s, rest', hs, -⟩ :=
      always_getRandomString c.headerCharacters_ne_nil (show 1 ≤ 255 by decide) rest
    refine ⟨cleanHeaderKey c s, rest', ?_, h rest s rest' hlisted hs⟩
    rw [bind_apply hlisted, if_neg (by simp)]
    exact bind_apply hs
  · have hkey : cleanHeaderKey c listed = listed :=
      if_neg fun hcolon => no_colon_of_mem_headerKeys hmem hcolon.2
    refine ⟨listed, rest, ?_, ?_, fun _ => hnil⟩
    · rw [bind_apply hlisted, if_pos hnil]
      exact congrArg (fun key => Except.ok (key, rest)) hkey
    · exact of_decide_eq_true (List.mem_filter.mp hmem).2

end Draws

section Operators

variable {r : Request}

theorem slash_take {s : Str} {n : Nat} (h : ['/'] <+: s) (hn : 0 < n) : ['/'] <+: s.take n := by
  obtain ⟨rest, rfl⟩ := h
  cases n with
  | zero => exact absurd hn (Nat.lt_irrefl 0)
  | succ n => exact ⟨rest.take n, rfl⟩

theorem always_changeMethod (h : Invariant env c r) :
    Always (changeMethod c r) (Invariant env c) := by
  refine (always_choice methods_ne_nil).bind fun method hmethod => always_pure ?_
  exact { h with method := of_decide_eq_true (List.mem_filter.mp hmethod).2 }

/-- What a path operator guarantees. -/
def PathChanged (env : Environment) (c : MutatorClass) (r : Request) : Prop :=
  Invariant env c r ∧ r.path.length ≤ c.maxPathLength

theorem pathChanged_take (h : Invariant env c r) {path : Str} (hpath : ['/'] <+: path) :
    PathChanged env c { r with path := path.take c.maxPathLength } :=
  ⟨{ h with path := slash_take hpath c.maxPathLength_pos }, List.length_take_le _ _⟩

theorem always_setRandomPath (h : Invariant env c r) :
    Always (setRandomPath env c r) (PathChanged env c) := by
  refine (always_randrange (by decide)).bind fun pathLength _ => ?_
  refine (always_choices env.blns_ne_nil pathLength).bind fun items _ => always_pure ?_
  exact pathChanged_take h (List.prefix_append _ _)

theorem always_mutatePath (h : Invariant env c r) :
    Always (mutatePath c r) (PathChanged env c) := by
  refine (always_mutateString (by decide)).bind fun path _ => always_pure ?_
  refine pathChanged_take h ?_
  split_ifs with hslash
  · exact hslash
  · exact List.prefix_append _ _

theorem always_addCookie (h : Invariant env c r) : Always (addCookie r) (Invariant env c) := by
  refine (always_gru (by decide)).bind fun key _ => ?_
  refine (always_gru (by decide)).bind fun value _ => always_pure ?_
  exact { h with }

theorem always_removeCookie (h : Invariant env c r) :
    Always (removeCookie r) (Invariant env c) := by
  unfold removeCookie
  split
  · exact always_pure h
  · refine Always.ite (fun _ => always_pure h) fun hne => ?_
    refine (always_choice hne).bind fun key _ => always_pure ?_
    exact { h with }

/-- Headers of which each is allowed and, if it is an address header, has a value. -/
theorem Invariant.with_headers (h : Invariant env c r) {headers : List (Str × Str)}
    (hheaders : ∀ x ∈ headers, KeyAllowed env c x.1 ∧
      (x.2 = [] → env.lower x.1 ∉ ipHeaderKeys)) :
    Invariant env c { r with headers := some headers } :=
  { h with
    keys := fun x hx => (hheaders x hx).1
    values := fun x hx => (hheaders x hx).2 }

theorem Invariant.header (h : Invariant env c r) {x : Str × Str} (hx : x ∈ r.headers.getD []) :
    KeyAllowed env c x.1 ∧ (x.2 = [] → env.lower x.1 ∉ ipHeaderKeys) :=
  ⟨h.keys x hx, h.values x hx⟩

theorem addHeader_returns (h : Invariant env c r) {tape : Tape} (hdrawn : KeyDrawn env c tape) :
    Returns (addHeader env c r) tape (Invariant env c) := by
  refine (getHeaderKey_returns hdrawn).bind fun key hkey => ?_
  refine (always_getHeaderValue (by simp)).bind fun value hvalue => always_pure ?_
  refine h.with_headers fun x hx => ?_
  rcases List.mem_append.mp hx with hx | hx
  · exact h.header hx
  · rw [List.mem_singleton] at hx
    subst hx
    exact ⟨hkey, fun hnil => absurd hnil hvalue⟩

theorem always_removeHeader (h : Invariant env c r) :
    Always (removeHeader r) (Invariant env c) := by
  unfold removeHeader
  split
  · exact always_pure h
  · rename_i headers hheaders
    refine Always.ite (fun _ => always_pure h) fun hne => ?_
    refine (always_randrange (List.length_pos_of_ne_nil hne)).bind fun i _ => always_pure ?_
    refine h.with_headers fun x hx => h.header ?_
    rw [hheaders]
    exact List.mem_of_mem_eraseIdx hx

theorem always_mutateHeaderValue (h : Invariant env c r) :
    Always (mutateHeaderValue env c r) (Invariant env c) := by
  unfold mutateHeaderValue
  split
  · exact always_pure h
  · rename_i headers hheaders
    have hmem : ∀ x ∈ headers, x ∈ r.headers.getD [] := by
      rw [hheaders]
      exact fun x hx => hx
    refine Always.ite (fun _ => always_pure h) fun hne => ?_
    refine (always_randrange (List.length_pos_of_ne_nil hne)).bind fun i hi => ?_
    have hheader : headers.getD i ([], []) ∈ headers := by
      rw [List.getD_eq_getElem?_getD, List.getElem?_eq_getElem hi.2, Option.getD_some]
      exact List.getElem_mem hi.2
    have hold := h.header (hmem _ hheader)
    refine (always_getHeaderValue fun hnil => hold.2 (Option.some.inj hnil)).bind
      fun value hvalue => always_pure (h.with_headers fun x hx => ?_)
    rcases List.mem_or_eq_of_mem_set hx with hx | rfl
    · exact h.header (hmem x hx)
    · exact ⟨hold.1, fun hnil => absurd hnil hvalue⟩

theorem always_getPayloadKey : Always (getPayloadKey env) fun _ => True :=
  (always_choice env.blns_ne_nil).bind fun _ _ => always_pure trivial

theorem always_getPayloadValue (allowNested : Bool) :
    Always (getPayloadValue env allowNested) fun _ => True := by
  have hvalues : payloadValues env ≠ [] := by simp [payloadValues]
  refine Always.ite (fun _ => (always_choice hvalues).imp fun _ _ => trivial) fun _ => ?_
  refine always_getPayloadKey.bind fun key _ => ?_
  refine (always_choice hvalues).bind fun member _ => ?_
  refine (always_choice hvalues).bind fun element _ => ?_
  exact (always_choice (List.cons_ne_nil _ _)).imp fun _ _ => trivial

theorem always_getPayloadDict (allowNested : Bool) :
    Always (getPayloadDict env allowNested) Reducible := by
  refine (always_randrange (by decide)).bind fun count _ => ?_
  have hitem : Always (do
      let key ← getPayloadKey env
      let value ← getPayloadValue env allowNested
      return (key, value)) fun _ => True :=
    always_getPayloadKey.bind fun _ _ =>
      (always_getPayloadValue allowNested).bind fun _ _ => always_pure trivial
  exact (always_replicate hitem count).bind fun _ _ => always_pure trivial

theorem always_getRandomPayload (payloadType : PayloadType) :
    Always (getRandomPayload env payloadType) Reducible := by
  cases payloadType with
  | json => exact always_getPayloadDict true
  | data =>
      refine (always_randrange (by decide)).bind fun chosen _ => ?_
      refine Always.ite (fun _ => ?_) fun _ => Always.ite (fun _ => ?_) fun _ => ?_
      · exact (always_gru (by decide)).bind fun _ _ => always_pure trivial
      · exact (always_choice env.fileData_ne_nil).bind fun _ _ => always_pure trivial
      · exact always_getPayloadDict false

theorem always_setRandomPayload (h : Invariant env c r) :
    Always (setRandomPayload env r) (Invariant env c) := by
  refine (always_choice (List.cons_ne_nil _ _)).bind fun payloadType _ => ?_
  refine (always_getRandomPayload payloadType).bind fun value hvalue => ?_
  cases payloadType with
  | json => exact always_pure { h with reducible := fun v hv => Option.some.inj hv ▸ hvalue }
  | data => exact always_pure { h with reducible := fun v hv => Option.some.inj hv ▸ hvalue }

/-- An optional payload stays one that can be reduced. -/
theorem always_mapM {f : Value → Draw Value}
    (h : ∀ v, Always (f v) fun v' => Reducible v → Reducible v') (v : Option Value) :
    Always (v.mapM f) fun v' =>
      (v' = none ↔ v = none) ∧ ((∀ x ∈ v, Reducible x) → ∀ x ∈ v', Reducible x) := by
  cases v with
  | none => exact always_pure ⟨Iff.rfl, id⟩
  | some v =>
      refine (h v).bind fun v' hv' => always_pure ⟨by simp, fun hv x hx => ?_⟩
      exact Option.some.inj hx ▸ hv' (hv v rfl)

/-- Both payloads changed by an operator that keeps what can be reduced. -/
theorem always_mapPayloads (h : Invariant env c r) {f g : Value → Draw Value}
    (hf : ∀ v, Always (f v) fun v' => Reducible v → Reducible v')
    (hg : ∀ v, Always (g v) fun v' => Reducible v → Reducible v') :
    Always (do
      let data ← r.data.mapM f
      let json ← r.json.mapM g
      return { r with data, json }) (Invariant env c) := by
  refine (always_mapM hf r.data).bind fun data hdata => ?_
  refine (always_mapM hg r.json).bind fun json hjson => always_pure ?_
  refine { h with reducible := ?_ }
  have hreducible := h.reducible
  unfold payload at hreducible ⊢
  cases hold : r.json with
  | none =>
      rw [hold] at hreducible
      rw [hjson.1.mpr hold]
      exact hdata.2 hreducible
  | some v =>
      rw [hold] at hreducible hjson
      obtain ⟨v', rfl⟩ := Option.ne_none_iff_exists'.mp fun hnone =>
        absurd (hjson.1.mp hnone) (by simp)
      exact hjson.2 hreducible

theorem always_mutatePayload (h : Invariant env c r) :
    Always (mutatePayload r) (Invariant env c) :=
  always_mapPayloads h always_mutateItem always_mutateItem

theorem always_enlargeOne (allowNested : Bool) (v : Value) :
    Always (enlargeOne env allowNested v) fun v' => Reducible v → Reducible v' :=
  always_getPayloadKey.bind fun key _ =>
    (always_getPayloadValue allowNested).bind fun value _ => always_enlargeItem key value v

theorem always_enlargePayload (h : Invariant env c r) :
    Always (enlargePayload env r) (Invariant env c) :=
  always_mapPayloads h (always_enlargeOne false) (always_enlargeOne true)

theorem always_reducePayload (h : Invariant env c r) :
    Always (reducePayload r) (Invariant env c) := by
  have hreducible := h.reducible
  unfold payload at hreducible
  unfold reducePayload
  cases hjson : r.json with
  | some json =>
      rw [hjson] at hreducible
      refine (always_reduceItem (hreducible json rfl)).bind fun v hv => always_pure ?_
      exact { h with reducible := fun x hx => Option.some.inj hx ▸ hv }
  | none =>
      rw [hjson] at hreducible
      cases hdata : r.data with
      | some data =>
          refine (always_reduceItem (hreducible data hdata)).bind fun v hv => always_pure ?_
          refine { h with reducible := fun x hx => ?_ }
          exact Option.some.inj hx ▸ hv
      | none => exact always_pure h

end Operators

section Cleaning

variable (env c)

/-- What is left of a key that is kept. -/
def cleanedKey (key : Str) : Str :=
  let key := cleanString key (some c.headerCharacters) none
  if c.allowColonInFirstInHeaderKey = false then stripColons key else key

def cleanedValue (value : Str) : Str := cleanString value (some c.headerCharacters) none

/--
A request that cleaning makes a valid one: the path has the slash that the corpus is read for,
no valid key becomes an invalid one, no header becomes an address header without a value, and
the payload is one that can be reduced.
-/
structure Acceptable (raw : Request) : Prop where
  path : ['/'] <+: raw.path
  keys : ∀ h ∈ raw.headers.getD [], env.lower h.1 ∉ invalidHeaderKeys env c →
    env.lower (cleanedKey c h.1) ∉ invalidHeaderKeys env c
  values : ∀ h ∈ raw.headers.getD [], env.lower h.1 ∉ invalidHeaderKeys env c →
    cleanedValue c h.2 = [] → env.lower (cleanedKey c h.1) ∉ ipHeaderKeys
  data : (∀ v ∈ raw.json, isInstance v c.allowedJsonPayloadTypes = false) →
    ∀ v ∈ raw.data, Reducible v

variable {env c}

/-- Where a header of a cleaned request comes from. -/
theorem exists_of_mem_cleanHeaders {headers : List (Str × Str)} {x : Str × Str}
    (hx : x ∈ cleanHeaders env c headers) :
    (c.allowEmptyHeaderKey = false → x.1 ≠ []) ∧
      ∃ h ∈ headers, env.lower h.1 ∉ invalidHeaderKeys env c ∧
        x = (cleanedKey c h.1, cleanedValue c h.2) := by
  have hcleaned : (c.allowEmptyHeaderKey = false → x.1 ≠ []) ∧
      x ∈ (headers.filter fun h => env.lower h.1 ∉ invalidHeaderKeys env c).map fun h =>
        (cleanedKey c h.1, cleanedValue c h.2) := by
    unfold cleanHeaders at hx
    unfold cleanedKey cleanedValue
    by_cases hcolon : c.allowColonInFirstInHeaderKey = false <;>
      by_cases hempty : c.allowEmptyHeaderKey = false <;>
      simp_all
  refine ⟨hcleaned.1, ?_⟩
  obtain ⟨h, hh, rfl⟩ := List.mem_map.mp hcleaned.2
  obtain ⟨hmem, hvalid⟩ := List.mem_filter.mp hh
  exact ⟨h, hmem, of_decide_eq_true hvalid, rfl⟩

theorem reducible_of_isInstance {v : Value} {types : List PyType}
    (h : isInstance v types = true) : Reducible v := by
  cases v with
  | none => simp [isInstance] at h
  | bytes b => simp [isInstance] at h
  | _ => trivial

/-- **What cleaning guarantees.** -/
theorem invariant_cleanRequest {raw : Request} (h : Acceptable env c raw) :
    Invariant env c (cleanRequest env c raw) := by
  have hheaders : ∀ x ∈ (cleanRequest env c raw).headers.getD [],
      (c.allowEmptyHeaderKey = false → x.1 ≠ []) ∧
        ∃ y ∈ raw.headers.getD [], env.lower y.1 ∉ invalidHeaderKeys env c ∧
          x = (cleanedKey c y.1, cleanedValue c y.2) := by
    intro x hx
    cases hraw : raw.headers with
    | none =>
        rw [cleanRequest, hraw] at hx
        exact absurd hx List.not_mem_nil
    | some headers =>
        rw [cleanRequest, hraw] at hx
        exact exists_of_mem_cleanHeaders hx
  constructor
  · constructor
    · exact h.path
    · unfold cleanRequest
      split_ifs with hmethod
      · exact c.post_valid
      · exact hmethod
    · intro x hx
      obtain ⟨hne, y, hy, hvalid, rfl⟩ := hheaders x hx
      exact ⟨h.keys y hy hvalid, hne⟩
  · intro x hx
    obtain ⟨-, y, hy, hvalid, rfl⟩ := hheaders x hx
    exact h.values y hy hvalid
  · intro v hv
    cases hjson : raw.json.filter fun json => isInstance json c.allowedJsonPayloadTypes with
    | some json =>
        rw [payload, cleanRequest, hjson] at hv
        obtain rfl := Option.some.inj hv
        exact reducible_of_isInstance (Option.filter_eq_some_iff.mp hjson).2
    | none =>
        rw [payload, cleanRequest, hjson] at hv
        refine h.data (fun json hmem => ?_) v hv
        simpa using Option.filter_eq_none_iff.mp hjson json hmem

end Cleaning

section Runs

def ChangesPath (m : Mutation) : Prop := m = .setRandomPath ∨ m = .mutatePath

/-- What one operator guarantees. -/
def Applied (env : Environment) (c : MutatorClass) (m : Mutation) (r : Request) : Prop :=
  Invariant env c r ∧ (ChangesPath m → r.path.length ≤ c.maxPathLength)

/-- **An operator returns and keeps what is guaranteed.** -/
theorem apply_returns {r : Request} (h : Invariant env c r) {m : Mutation} {tape : Tape}
    (hdrawn : m = .addHeader → KeyDrawn env c tape) :
    Returns (apply env c r m) tape (Applied env c m) := by
  have hother : ∀ {n : Draw Request}, Always n (Invariant env c) → ¬ ChangesPath m →
      Returns n tape (Applied env c m) := fun hn hm =>
    hn.imp (fun _ hr => ⟨hr, fun hpath => absurd hpath hm⟩) tape
  have hpath : ∀ {n : Draw Request}, Always n (PathChanged env c) →
      Returns n tape (Applied env c m) := fun hn =>
    hn.imp (fun _ hr => ⟨hr.1, fun _ => hr.2⟩) tape
  cases m with
  | changeMethod => exact hother (always_changeMethod h) (by simp [ChangesPath])
  | setRandomPath => exact hpath (always_setRandomPath h)
  | mutatePath => exact hpath (always_mutatePath h)
  | addHeader =>
      obtain ⟨r', tape', heq, hr'⟩ := addHeader_returns h (hdrawn rfl)
      exact ⟨r', tape', heq, hr', fun hm => absurd hm (by simp [ChangesPath])⟩
  | removeHeader => exact hother (always_removeHeader h) (by simp [ChangesPath])
  | mutateHeaderValue => exact hother (always_mutateHeaderValue h) (by simp [ChangesPath])
  | mutatePayload => exact hother (always_mutatePayload h) (by simp [ChangesPath])
  | setRandomPayload => exact hother (always_setRandomPayload h) (by simp [ChangesPath])
  | reducePayload => exact hother (always_reducePayload h) (by simp [ChangesPath])
  | enlargePayload => exact hother (always_enlargePayload h) (by simp [ChangesPath])
  | addCookie => exact hother (always_addCookie h) (by simp [ChangesPath])
  | removeCookie => exact hother (always_removeCookie h) (by simp [ChangesPath])

/-- An operator and the tape it draws from; nothing if it raises. -/
def step (env : Environment) (c : MutatorClass) (r : Request) (a : Mutation × Tape) :
    Option Request :=
  match apply env c r a.1 a.2 with
  | .ok (r', _) => some r'
  | .error _ => none

theorem step_returns {r : Request} (h : Invariant env c r) {a : Mutation × Tape}
    (hdrawn : a.1 = .addHeader → KeyDrawn env c a.2) :
    ∃ r', step env c r a = some r' ∧ Applied env c a.1 r' := by
  obtain ⟨r', tape', heq, hr'⟩ := apply_returns h hdrawn
  exact ⟨r', by rw [step, heq], hr'⟩

/-- **So does a run**, by induction on it. -/
theorem run_returns {steps : List (Mutation × Tape)}
    (hsteps : ∀ a ∈ steps, a.1 = .addHeader → KeyDrawn env c a.2) :
    ∀ {r : Request}, Invariant env c r →
      ∃ r', run (step env c) r steps = some r' ∧ Invariant env c r' ∧
        ∀ last ∈ steps.getLast?, ChangesPath last.1 → r'.path.length ≤ c.maxPathLength := by
  induction steps with
  | nil => exact fun h => ⟨_, rfl, h, by simp⟩
  | cons a steps ih =>
      intro r h
      rw [List.forall_mem_cons] at hsteps
      obtain ⟨r₁, hr₁, happlied⟩ := step_returns h hsteps.1
      obtain ⟨r', hr', hinvariant, hlast⟩ := ih hsteps.2 happlied.1
      refine ⟨r', run_cons_eq_some.mpr ⟨r₁, hr₁, hr'⟩, hinvariant, ?_⟩
      cases steps with
      | nil =>
          rw [run, Option.some.injEq] at hr'
          subst hr'
          intro last heq
          rw [List.getLast?_singleton] at heq
          obtain rfl := Option.some.inj heq
          exact happlied.2
      | cons b steps =>
          rw [List.getLast?_cons_cons]
          exact hlast

theorem exists_run_of_foldlM {ms : List Mutation} {r r' : Request} {tape tape' : Tape}
    (h : ms.foldlM (apply env c) r tape = .ok (r', tape')) :
    ∃ steps, steps.map Prod.fst = ms ∧ run (step env c) r steps = some r' := by
  induction ms generalizing r tape with
  | nil =>
      obtain rfl : r = r' := congrArg Prod.fst (Except.ok.inj h)
      exact ⟨[], rfl, rfl⟩
  | cons m ms ih =>
      rw [List.foldlM_cons] at h
      obtain ⟨r₁, tape₁, happly, hrest⟩ := bind_eq_ok.mp h
      obtain ⟨steps, hsteps, hrun⟩ := ih hrest
      refine ⟨(m, tape) :: steps, by rw [List.map_cons, hsteps], ?_⟩
      exact run_cons_eq_some.mpr ⟨r₁, by rw [step, happly], hrun⟩

/-- What `mutate` does is a run. -/
theorem exists_run_of_mutate {r r' : Request} {count : Nat} {tape tape' : Tape}
    (h : mutate env c r false count tape = .ok (r', tape')) :
    ∃ steps, steps.length = count ∧ run (step env c) r steps = some r' := by
  obtain ⟨ms, rest, hchosen, hfold⟩ := bind_eq_ok.mp h
  obtain ⟨steps, hsteps, hrun⟩ := exists_run_of_foldlM hfold
  obtain ⟨ms', rest', hms', hlength, -⟩ := always_choices (List.cons_ne_nil _ _) count tape
  refine ⟨steps, ?_, hrun⟩
  obtain rfl : ms = ms' := congrArg Prod.fst (Except.ok.inj (hchosen.symm.trans hms'))
  rw [← hlength, ← hsteps, List.length_map]

/--
**Every run from a cleaned request is safe** when no bad key is drawn: no operator raises, the
request is what it has to be after each of them, and a changed path is not too long.
-/
theorem mutations_safe (env : Environment) (c : MutatorClass) (raw : Request)
    (hraw : Acceptable env c raw) (steps : List (Mutation × Tape))
    (hsteps : ∀ a ∈ steps, a.1 = .addHeader → KeyDrawn env c a.2) :
    ∃ r, run (step env c) (cleanRequest env c raw) steps = some r ∧ Safe env c r ∧
      ∀ last ∈ steps.getLast?, ChangesPath last.1 → r.path.length ≤ c.maxPathLength := by
  obtain ⟨r, hrun, hinvariant, hlast⟩ := run_returns hsteps (invariant_cleanRequest hraw)
  exact ⟨r, hrun, hinvariant.toSafe, hlast⟩

end Runs

section Examples

def smallEnvironment : Environment where
  blns := [['u', 'n', 'd', 'e', 'f']]
  fileData := [[0x25]]
  lower := List.map Char.toLower
  isNumeric := Char.isDigit
  blns_ne_nil := List.cons_ne_nil _ _
  fileData_ne_nil := List.cons_ne_nil _ _
  lower_ascii _ _ := rfl

def plainRequest : Request where
  method := ['G', 'E', 'T']
  path := ['/']
  headers := none
  cookies := none
  json := none
  data := none

theorem acceptable_plainRequest : Acceptable smallEnvironment phpMutator plainRequest where
  path := List.prefix_rfl
  keys _ hh := absurd hh List.not_mem_nil
  values _ hh := absurd hh List.not_mem_nil
  data _ _ hv := absurd hv (by simp [plainRequest])

/-- The key `User-Agent` is chosen from the list. -/
def listedTape : Tape := fun _ => 1

theorem keyDrawn_listedTape : KeyDrawn smallEnvironment phpMutator listedTape := by
  intro rest s rest' hchoice
  have hlisted : choice (headerKeys smallEnvironment phpMutator) listedTape =
      .ok ("User-Agent".toList, listedTape) := rfl
  rw [hlisted, Except.ok.injEq, Prod.mk.injEq] at hchoice
  exact absurd hchoice.1 (by decide)

theorem mutations_safe_plainRequest :
    ∃ r, run (step smallEnvironment phpMutator)
        (cleanRequest smallEnvironment phpMutator plainRequest)
        [(.addHeader, listedTape), (.mutatePath, listedTape)] = some r ∧
      Safe smallEnvironment phpMutator r ∧ r.path.length ≤ 65000 := by
  obtain ⟨r, hrun, hsafe, hlast⟩ := mutations_safe smallEnvironment phpMutator plainRequest
    acceptable_plainRequest [(.addHeader, listedTape), (.mutatePath, listedTape)]
    (fun a ha hadd => by
      simp only [List.mem_cons, List.not_mem_nil, or_false] at ha
      rcases ha with rfl | rfl
      · exact keyDrawn_listedTape
      · exact keyDrawn_listedTape)
  exact ⟨r, hrun, hsafe, hlast _ rfl (Or.inr rfl)⟩

/-- The empty key is chosen from the list, and the text `:` is drawn for it. -/
def colonTape : Tape
  | 2 => 22
  | 3 => 1
  | _ => 0

theorem run_colonTape :
    (run (step smallEnvironment phpMutator) (cleanRequest smallEnvironment phpMutator plainRequest)
        [(.addHeader, colonTape)]).map Request.headers =
      some (some [([], ['.', '.', '/'])]) := by
  decide +kernel

/-- Nothing is left of the key, and the class allows no empty one. -/
theorem not_safe_colonTape :
    ¬ ∃ r, run (step smallEnvironment phpMutator)
        (cleanRequest smallEnvironment phpMutator plainRequest) [(.addHeader, colonTape)] = some r ∧
      Safe smallEnvironment phpMutator r := by
  rintro ⟨r, hrun, hsafe⟩
  have hheaders := run_colonTape
  rw [hrun, Option.map_some, Option.some.injEq] at hheaders
  have hkey := hsafe.keys ([], ['.', '.', '/']) (by rw [hheaders]; decide)
  exact hkey.ne_nil rfl rfl

end Examples

end Fuzzer
end SystemTests
