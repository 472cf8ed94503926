import SystemTests.Foundation.Dict
import SystemTests.Foundation.Exception
import SystemTests.Foundation.Numeral
import SystemTests.Foundation.RegexLanguage
import SystemTests.Foundation.RegexSplit
import SystemTests.Proxy.Scrubber

/-!
# Trace context headers (`utils/docker_fixtures/spec/tracecontext.py`)

A `Tracestate` is an ordered dictionary whose members come from headers, oldest last, or are
set one by one, newest first.  A member is checked by a pattern when it is set and when it is
read.  Both patterns end with `$`, which also matches before a newline at the end.

**Results.**
* `ofString_toString`: when the printed form of a `Tracestate` is read again, and as what.
* `ofString_stable`: what was read is printed and read back as itself.
* `getTracestate_join`: several headers are read as one header with commas between them.
* `getTraceparent_eq_some_iff`: the headers that give a `Traceparent`.
-/

namespace SystemTests
namespace TraceContext

open Foundation Foundation.Text Foundation.Regex
open Proxy (matchesIgnoringCase)

section Formats

def inRange (low high : Nat) (c : Char) : Bool := low ≤ c.toNat && c.toNat ≤ high

/-- `[_0-9a-z\-\*\/]` -/
def isKeyChar (c : Char) : Bool :=
  c = '_' || c.isDigit || c.isLower || c = '-' || c = '*' || c = '/'

/-- `[0-9a-z]` -/
def isVendorChar (c : Char) : Bool := c.isDigit || c.isLower

/-- `[\x20-\x2b\x2d-\x3c\x3e-\x7e]` -/
def isValueChar (c : Char) : Bool :=
  inRange 0x20 0x2b c || inRange 0x2d 0x3c c || inRange 0x3e 0x7e c

/-- `[\x21-\x2b\x2d-\x3c\x3e-\x7e]` -/
def isLastChar (c : Char) : Bool :=
  inRange 0x21 0x2b c || inRange 0x2d 0x3c c || inRange 0x3e 0x7e c

/-- `_KEY_WITHOUT_VENDOR_FORMAT` -/
def keyWithoutVendorFormat : Rx := .seq (.chars Char.isLower) (.between 0 255 (.chars isKeyChar))

/-- `_KEY_WITH_VENDOR_FORMAT` -/
def keyWithVendorFormat : Rx :=
  .seq (.seq (.chars isVendorChar) (.between 0 240 (.chars isKeyChar)))
    (.seq (.char '@') (.seq (.chars Char.isLower) (.between 0 13 (.chars isKeyChar))))

/-- `_KEY_FORMAT` -/
def keyFormat : Rx := .alt keyWithoutVendorFormat keyWithVendorFormat

/-- `_VALUE_FORMAT` -/
def valueFormat : Rx := .seq (.between 0 255 (.chars isValueChar)) (.chars isLastChar)

def isBlank (c : Char) : Bool := c = ' ' || c = '\t'

/-- `_DELIMITER_FORMAT_RE` -/
def delimiterFormat : Rx := padded isBlank ','

/-- `_KEY_VALIDATION_RE` -/
def keyValidation : Rx := .seq (.group 1 keyFormat) .atEnd

/-- `_VALUE_VALIDATION_RE` -/
def valueValidation : Rx := .seq (.group 1 valueFormat) .atEnd

/-- `_MEMBER_FORMAT_RE` -/
def memberFormat : Rx :=
  .seq (.group 1 keyFormat) (.seq (.group 2 (.char '=')) (.seq (.group 3 valueFormat) .atEnd))

/-- A pattern for a word with `re.IGNORECASE`, from the start of the text to its end. -/
def nameFormat (word : Str) : Rx :=
  .seq (Rx.seqs (word.map fun letter => .chars (matchesIgnoringCase letter))) .atEnd

end Formats

section Model

structure Tracestate where
  traits : Dict Str Str
deriving DecidableEq

namespace Tracestate

def empty : Tracestate := ⟨.empty⟩

/-- `OrderedDict.move_to_end` with `last=False` -/
def moveToFront (traits : Dict Str Str) (key : Str) : Dict Str Str :=
  match traits.get? key with
  | none => traits
  | some value =>
      ⟨(key, value) :: (traits.erase key).items, by
        rw [List.map_cons, List.nodup_cons]
        refine ⟨?_, (traits.erase key).nodup⟩
        rintro hmem
        obtain ⟨item, hitem, hkey⟩ := List.mem_map.mp hmem
        exact absurd hkey (by simpa using (List.mem_filter.mp hitem).2)⟩

/-- `Tracestate.__setitem__` -/
def setItem (t : Tracestate) (key value : Str) : Except Raised Tracestate :=
  if (matchStart keyValidation key).isNone then
    .error (.valueError "illegal key provided".toList)
  else if (matchStart valueValidation value).isNone then
    .error (.valueError "illegal value provided".toList)
  else .ok ⟨moveToFront (t.traits.set key value) key⟩

/-- A member that was read; the first member of a key counts. -/
def add (t : Tracestate) (key value : Str) : Tracestate :=
  if key ∈ t.traits.keys then t else ⟨t.traits.set key value⟩

/-- One round of the loop of `Tracestate.from_string` -/
def addMember (t : Tracestate) (member : Str) : Except Raised Tracestate :=
  if member = [] then .ok t
  else
    match matchStart memberFormat member with
    | none => .error (.valueError ("illegal key-value format ".toList ++ member))
    | some m => .ok (t.add ((capture 1 m).getD []) ((capture 3 m).getD []))

/-- The loop: the members that were added, and what was raised after them. -/
def addMembers : List Str → Tracestate → Tracestate × Except Raised Unit
  | [], t => (t, .ok ())
  | member :: members, t =>
      match t.addMember member with
      | .error e => (t, .error e)
      | .ok t => addMembers members t

/-- `Tracestate.from_string` -/
def fromString (t : Tracestate) (string : Str) : Tracestate × Except Raised Unit :=
  addMembers (cut delimiterFormat string) t

/-- `Tracestate(string)` -/
def ofString (string : Str) : Except Raised Tracestate :=
  match empty.fromString string with
  | (t, .ok ()) => .ok t
  | (_, .error e) => .error e

def printMember (item : Str × Str) : Str := item.1 ++ '=' :: item.2

/-- `Tracestate.to_string` -/
def toString (t : Tracestate) : Str := join [','] (t.traits.items.map printMember)

/-- `Tracestate.is_valid` -/
def isValid (t : Tracestate) : Bool :=
  if t.traits.items.length = 0 then false
  else if 512 < t.toString.length then false
  else !decide (32 < t.traits.items.length)

/-- `Tracestate.pop` -/
def pop (t : Tracestate) : Except Raised ((Str × Str) × Tracestate) :=
  match t.traits.items.getLast? with
  | none => .error (.keyError "dictionary is empty".toList)
  | some item =>
      .ok (item, ⟨⟨t.traits.items.dropLast,
        t.traits.nodup.sublist ((List.dropLast_sublist _).map Prod.fst)⟩⟩)

/-- What a test does with a `Tracestate` that changes it. -/
inductive Operation where
  | setItem (key value : Str)
  | fromString (string : Str)
  | pop

/-- The state after an operation, also after one that raised. -/
def apply (t : Tracestate) : Operation → Tracestate
  | .setItem key value => (t.setItem key value).toOption.getD t
  | .fromString string => (t.fromString string).1
  | .pop => (t.pop.map Prod.snd).toOption.getD t

def runOf (operations : List Operation) : Tracestate := operations.foldl apply empty

end Tracestate

structure Traceparent where
  version : Str
  traceId : Str
  parentId : Str
  traceFlags : Str
deriving DecidableEq

/-- `Traceparent.__str__` -/
def Traceparent.toString (t : Traceparent) : Str :=
  join ['-'] [t.version, t.traceId, t.parentId, t.traceFlags]

/-- The values of the headers with a name. -/
def valuesOf (word : Str) (headers : Dict Str Str) : List Str :=
  (headers.items.filter fun item => (matchStart (nameFormat word) item.1).isSome).map Prod.snd

def readHex (s : Str) : Except Raised Int :=
  Raised.ofOption (.valueError "invalid literal for int() with base 16".toList)
    (Numeral.intOfHex s)

/-- `int(trace_id, 16) == 0 or int(span_id, 16) == 0` -/
def isZeroId (traceId spanId : Str) : Except Raised Bool := do
  if (← readHex traceId) = 0 then return true
  return (← readHex spanId) = 0

/-- The checks of `get_traceparent`, after its header is cut at the hyphens -/
def readTraceparent (version traceId spanId traceFlags : Str) :
    Except Raised (Option Traceparent) := do
  if version.length ≠ 2 || traceId.length ≠ 32 || spanId.length ≠ 16 ||
      traceFlags.length ≠ 2 then
    return none
  if ← isZeroId traceId spanId then return none
  return some ⟨version, traceId, spanId, traceFlags⟩

/-- `get_traceparent` -/
def getTraceparent (headers : Dict Str Str) : Except Raised (Option Traceparent) :=
  match valuesOf "traceparent".toList headers with
  | [value] =>
      match split ['-'] value with
      | [version, traceId, spanId, traceFlags] =>
          readTraceparent version traceId spanId traceFlags
      | fields =>
          if fields.length < 4 then
            .error (.valueError ("not enough values to unpack (expected 4, got ".toList ++
              (Nat.repr fields.length).toList ++ [')']))
          else .error (.valueError "too many values to unpack (expected 4)".toList)
  | _ => .error (.assertionError [])

/-- The loop of `get_tracestate` over the values of its headers -/
def fromStrings : List Str → Tracestate → Except Raised Tracestate
  | [], t => .ok t
  | value :: values, t =>
      match t.fromString value with
      | (t, .ok ()) => fromStrings values t
      | (_, .error e) => .error e

/-- `get_tracestate` -/
def getTracestate (headers : Dict Str Str) : Except Raised Tracestate :=
  fromStrings (valuesOf "tracestate".toList headers) .empty

/-- `get_tracecontext` -/
def getTracecontext (headers : Dict Str Str) : Except Raised (Option Traceparent × Tracestate) := do
  let traceparent ← getTraceparent headers
  let tracestate ← getTracestate headers
  return (traceparent, tracestate)

end Model

section Members

/-- The characters of a key. -/
def isFullKeyChar (c : Char) : Bool := isKeyChar c || c = '@'

theorem isFullKeyChar_of_lower {c : Char} (h : c.isLower = true) : isFullKeyChar c = true := by
  simp [isFullKeyChar, isKeyChar, h]

theorem isFullKeyChar_of_vendor {c : Char} (h : isVendorChar c = true) :
    isFullKeyChar c = true := by
  rw [isVendorChar, Bool.or_eq_true] at h
  rcases h with h | h <;> simp [isFullKeyChar, isKeyChar, h]

theorem isFullKeyChar_of_key {c : Char} (h : isKeyChar c = true) : isFullKeyChar c = true := by
  simp [isFullKeyChar, h]

theorem isValueChar_of_last {c : Char} (h : isLastChar c = true) : isValueChar c = true := by
  simp only [isLastChar, isValueChar, inRange, Bool.or_eq_true, Bool.and_eq_true,
    decide_eq_true_eq] at h ⊢
  omega

theorem keyFormat_unanchored : Unanchored keyFormat :=
  have hkey : ∀ n, Unanchored (.between 0 n (.chars isKeyChar)) :=
    unanchored_between (a := .chars isKeyChar) trivial 0
  ⟨⟨trivial, hkey 255⟩, ⟨trivial, hkey 240⟩, trivial, trivial, hkey 13⟩

theorem valueFormat_unanchored : Unanchored valueFormat :=
  ⟨unanchored_between (a := .chars isValueChar) trivial 0 255, trivial⟩

theorem keyFormat_groups : groups keyFormat = [] := by
  have hkey : ∀ n, groups (.between 0 n (.chars isKeyChar)) = [] :=
    groups_between (a := .chars isKeyChar) rfl 0
  simp [keyFormat, keyWithoutVendorFormat, keyWithVendorFormat, groups, hkey, Rx.char]

theorem valueFormat_groups : groups valueFormat = [] := by
  have hvalue := groups_between (a := .chars isValueChar) rfl 0 255
  simp [valueFormat, groups, hvalue]

theorem keyFormat_within : Within isFullKeyChar keyFormat := by
  have hkey : ∀ n, Within isFullKeyChar (.between 0 n (.chars isKeyChar)) :=
    within_between (a := .chars isKeyChar) (fun _ => isFullKeyChar_of_key) 0
  refine ⟨⟨fun _ => isFullKeyChar_of_lower, hkey 255⟩,
    ⟨fun _ => isFullKeyChar_of_vendor, hkey 240⟩, fun c hc => ?_,
    fun _ => isFullKeyChar_of_lower, hkey 13⟩
  simp [isFullKeyChar, beq_iff_eq.mp hc]

theorem valueFormat_within : Within isValueChar valueFormat :=
  ⟨within_between (a := .chars isValueChar) (fun _ hc => hc) 0 255,
    fun _ => isValueChar_of_last⟩

/-- A key has no character that means something in a header. -/
theorem not_mem_key {key : Str} (h : key ∈ language keyFormat) {c : Char}
    (hc : isFullKeyChar c = false) : c ∉ key := by
  intro hmem
  rw [forall_of_mem_language keyFormat_unanchored keyFormat_within h c hmem] at hc
  cases hc

theorem not_mem_value {value : Str} (h : value ∈ language valueFormat) {c : Char}
    (hc : isValueChar c = false) : c ∉ value := by
  intro hmem
  rw [forall_of_mem_language valueFormat_unanchored valueFormat_within h c hmem] at hc
  cases hc

theorem key_ne_nil {key : Str} (h : key ∈ language keyFormat) : key ≠ [] := by
  rintro rfl
  rcases (Language.mem_add _ _ _).mp h with h | h
  · obtain ⟨_, ⟨c, -, rfl⟩, b, -, hnil⟩ := Language.mem_mul.mp h
    cases hnil
  · obtain ⟨a, ha, b, -, hnil⟩ := Language.mem_mul.mp h
    obtain ⟨_, ⟨c, -, rfl⟩, d, -, rfl⟩ := Language.mem_mul.mp ha
    cases hnil

theorem value_last {value : Str} (h : value ∈ language valueFormat) :
    ∃ front c, value = front ++ [c] ∧ isLastChar c = true := by
  obtain ⟨front, -, _, ⟨c, hc, rfl⟩, rfl⟩ := Language.mem_mul.mp h
  exact ⟨front, c, rfl, hc⟩

/-- **A member of a header**, as the pattern reads it. -/
def Reads (member : Str) (item : Str × Str) : Prop :=
  item.1 ∈ language keyFormat ∧ item.2 ∈ language valueFormat ∧
    ∃ t, (t = [] ∨ t = ['\n']) ∧ member = item.1 ++ '=' :: (item.2 ++ t)

theorem mem_run_memberFormat {s : Str} {m : Match} :
    m ∈ run memberFormat (s, []) ↔
      ∃ key value t, s = key ++ '=' :: (value ++ t) ∧ key ∈ language keyFormat ∧
        value ∈ language valueFormat ∧ (t = [] ∨ t = ['\n']) ∧
          m = (t, [(3, value), (2, ['=']), (1, key)]) := by
  have hequals : ∀ {s : Str} {caps : List (Nat × Str)} {m : Match},
      m ∈ run (.group 2 (.char '=')) (s, caps) ↔
        ∃ t, s = '=' :: t ∧ m = (t, (2, ['=']) :: caps) := by
    intro s caps m
    rw [mem_run_group_iff (r := .char '=') trivial rfl]
    constructor
    · rintro ⟨_, t, rfl, ⟨c, hc, rfl⟩, rfl⟩
      rw [beq_iff_eq.mp hc]
      exact ⟨t, rfl, rfl⟩
    · rintro ⟨t, rfl, rfl⟩
      exact ⟨['='], t, rfl, ⟨'=', beq_self_eq_true _, rfl⟩, rfl⟩
  constructor
  · intro hm
    obtain ⟨x, hx, hm⟩ := mem_run_seq.mp hm
    obtain ⟨key, s, rfl, hkey, rfl⟩ :=
      (mem_run_group_iff keyFormat_unanchored keyFormat_groups).mp hx
    obtain ⟨x, hx, hm⟩ := mem_run_seq.mp hm
    obtain ⟨s, rfl, rfl⟩ := hequals.mp hx
    obtain ⟨x, hx, hm⟩ := mem_run_seq.mp hm
    obtain ⟨value, t, rfl, hvalue, rfl⟩ :=
      (mem_run_group_iff valueFormat_unanchored valueFormat_groups).mp hx
    obtain ⟨ht, rfl⟩ := mem_run_atEnd.mp hm
    exact ⟨key, value, t, rfl, hkey, hvalue, ht, rfl⟩
  · rintro ⟨key, value, t, rfl, hkey, hvalue, ht, rfl⟩
    refine mem_run_seq.mpr ⟨_, (mem_run_group_iff keyFormat_unanchored keyFormat_groups).mpr
      ⟨key, _, rfl, hkey, rfl⟩, ?_⟩
    refine mem_run_seq.mpr ⟨_, hequals.mpr ⟨_, rfl, rfl⟩, ?_⟩
    refine mem_run_seq.mpr ⟨_, (mem_run_group_iff valueFormat_unanchored valueFormat_groups).mpr
      ⟨value, t, rfl, hvalue, rfl⟩, ?_⟩
    exact mem_run_atEnd.mpr ⟨ht, rfl⟩

theorem Reads.unique {member : Str} {item item' : Str × Str} (h : Reads member item)
    (h' : Reads member item') : item = item' := by
  obtain ⟨key, value⟩ := item
  obtain ⟨key', value'⟩ := item'
  obtain ⟨hkey, hvalue, t, ht, rfl⟩ := h
  obtain ⟨hkey', hvalue', t', ht', heq⟩ := h'
  obtain ⟨rfl, hrest⟩ := append_cons_inj_of_not_mem (not_mem_key hkey (by decide))
    (not_mem_key hkey' (by decide)) heq
  have hnewline : '\n' ∉ value := not_mem_value hvalue (by decide)
  have hnewline' : '\n' ∉ value' := not_mem_value hvalue' (by decide)
  rcases ht with rfl | rfl <;> rcases ht' with rfl | rfl
  · rw [List.append_nil, List.append_nil] at hrest
    exact congrArg (Prod.mk key) hrest
  · refine absurd ?_ hnewline
    rw [show value = value' ++ ['\n'] by simpa using hrest]
    exact List.mem_concat_self
  · refine absurd ?_ hnewline'
    rw [show value' = value ++ ['\n'] by simpa using hrest.symm]
    exact List.mem_concat_self
  · exact congrArg (Prod.mk key) (List.append_cancel_right hrest)

theorem matchStart_memberFormat {member : Str} {m : Match}
    (h : matchStart memberFormat member = some m) :
    ∃ item, Reads member item ∧ capture 1 m = some item.1 ∧ capture 3 m = some item.2 := by
  have hm : m ∈ run memberFormat (member, []) := List.mem_of_mem_head? (Option.mem_def.mpr h)
  obtain ⟨key, value, t, hmember, hkey, hvalue, ht, rfl⟩ := mem_run_memberFormat.mp hm
  exact ⟨(key, value), ⟨hkey, hvalue, t, ht, hmember⟩, rfl, rfl⟩

theorem Reads.matchStart_ne_none {member : Str} {item : Str × Str} (h : Reads member item) :
    matchStart memberFormat member ≠ none := by
  obtain ⟨hkey, hvalue, t, ht, hmember⟩ := h
  rw [Ne, matchStart, List.head?_eq_none_iff]
  exact List.ne_nil_of_mem
    (mem_run_memberFormat.mpr ⟨_, _, t, hmember, hkey, hvalue, ht, rfl⟩)

theorem Reads.ne_nil {member : Str} {item : Str × Str} (h : Reads member item) :
    member ≠ [] := by
  obtain ⟨hkey, -, t, -, rfl⟩ := h
  exact List.append_ne_nil_of_left_ne_nil (key_ne_nil hkey) _

/-- A text that starts with a key and ends with a value has no blanks at its ends. -/
theorem trimmed_of_parts {key value t : Str} (hkey : key ∈ language keyFormat)
    (hvalue : value ∈ language valueFormat) (ht : t = [] ∨ t = ['\n']) (s : Str) :
    Trimmed isBlank (key ++ s ++ (value ++ t)) := by
  constructor
  · intro c hc
    obtain ⟨x, rest, hcons⟩ := List.exists_cons_of_ne_nil (key_ne_nil hkey)
    have hfull := forall_of_mem_language keyFormat_unanchored keyFormat_within hkey x
      (by rw [hcons]; exact List.mem_cons_self)
    rw [hcons, List.cons_append, List.cons_append, List.head?_cons, Option.mem_some_iff] at hc
    subst hc
    rw [isBlank, Bool.or_eq_false_iff]
    constructor <;> refine decide_eq_false ?_ <;> rintro rfl <;> exact absurd hfull (by decide)
  · intro c hc
    obtain ⟨front, x, hcons, hx⟩ := value_last hvalue
    rcases ht with rfl | rfl
    · rw [List.append_nil, hcons, ← List.append_assoc, List.getLast?_concat,
        Option.mem_some_iff] at hc
      subst hc
      rw [isBlank, Bool.or_eq_false_iff]
      constructor <;> refine decide_eq_false ?_ <;> rintro rfl <;> exact absurd hx (by decide)
    · rw [← List.append_assoc, List.getLast?_concat, Option.mem_some_iff] at hc
      subst hc
      decide

theorem Reads.trimmed {member : Str} {item : Str × Str} (h : Reads member item) :
    Trimmed isBlank member := by
  obtain ⟨hkey, hvalue, t, ht, rfl⟩ := h
  have htrim := trimmed_of_parts hkey hvalue ht ['=']
  rw [List.append_assoc] at htrim
  exact htrim

end Members

section Reading

namespace Tracestate

theorem addMember_eq_ok_iff {t t' : Tracestate} {member : Str} :
    t.addMember member = .ok t' ↔
      (member = [] ∧ t' = t) ∨ ∃ item, Reads member item ∧ t' = t.add item.1 item.2 := by
  rw [addMember]
  split_ifs with hnil
  · constructor
    · intro h
      exact Or.inl ⟨hnil, (Except.ok.inj h).symm⟩
    · rintro (⟨-, rfl⟩ | ⟨item, hreads, -⟩)
      · rfl
      · exact absurd hnil hreads.ne_nil
  · constructor
    · intro h
      cases hm : matchStart memberFormat member with
      | none =>
          rw [hm] at h
          cases h
      | some m =>
          obtain ⟨item, hreads, hkey, hvalue⟩ := matchStart_memberFormat hm
          rw [hm] at h
          refine Or.inr ⟨item, hreads, ?_⟩
          rw [← Except.ok.inj h, hkey, hvalue]
          rfl
    · rintro (⟨hmember, -⟩ | ⟨item, hreads, rfl⟩)
      · exact absurd hmember hnil
      · cases hm : matchStart memberFormat member with
        | none => exact absurd hm hreads.matchStart_ne_none
        | some m =>
            obtain ⟨item', hreads', hkey, hvalue⟩ := matchStart_memberFormat hm
            obtain rfl := hreads.unique hreads'
            simp only [hkey, hvalue, Option.getD_some]

/-- The members that are read from the pieces of a header. -/
def Members (pieces : List Str) (items : List (Str × Str)) : Prop :=
  List.Forall₂ Reads (pieces.filter fun piece => piece ≠ []) items

def addAll (items : List (Str × Str)) (t : Tracestate) : Tracestate :=
  items.foldl (fun t item => t.add item.1 item.2) t

/-- **The loop of `from_string`** ends when every piece is empty or a member. -/
theorem addMembers_eq_ok_iff {pieces : List Str} {t t' : Tracestate} :
    addMembers pieces t = (t', .ok ()) ↔ ∃ items, Members pieces items ∧ t' = addAll items t := by
  induction pieces generalizing t with
  | nil =>
      rw [addMembers, Prod.mk.injEq]
      constructor
      · rintro ⟨rfl, -⟩
        exact ⟨[], List.Forall₂.nil, rfl⟩
      · rintro ⟨items, hitems, rfl⟩
        rw [List.forall₂_nil_left_iff.mp hitems]
        exact ⟨rfl, rfl⟩
  | cons piece pieces ih =>
      rw [addMembers]
      constructor
      · intro h
        cases hadd : t.addMember piece with
        | error e =>
            rw [hadd] at h
            cases (Prod.mk.inj h).2
        | ok u =>
            rw [hadd] at h
            obtain ⟨items, hitems, rfl⟩ := ih.mp h
            rcases addMember_eq_ok_iff.mp hadd with ⟨rfl, rfl⟩ | ⟨item, hreads, rfl⟩
            · refine ⟨items, ?_, rfl⟩
              rw [Members, List.filter_cons_of_neg (by simp)]
              exact hitems
            · refine ⟨item :: items, ?_, rfl⟩
              rw [Members, List.filter_cons_of_pos (by simpa using hreads.ne_nil)]
              exact List.Forall₂.cons hreads hitems
      · rintro ⟨items, hitems, rfl⟩
        by_cases hnil : piece = []
        · rw [Members, List.filter_cons_of_neg (by simpa using hnil)] at hitems
          rw [addMember_eq_ok_iff.mpr (Or.inl ⟨hnil, rfl⟩)]
          exact ih.mpr ⟨items, hitems, rfl⟩
        · rw [Members, List.filter_cons_of_pos (by simpa using hnil)] at hitems
          cases hitems with
          | @cons _ item _ items hreads hitems =>
              rw [addMember_eq_ok_iff.mpr (Or.inr ⟨item, hreads, rfl⟩)]
              exact ih.mpr ⟨items, hitems, rfl⟩

/-- What a loop leaves and raises, as the result of the function around it. -/
def resultOf : Tracestate × Except Raised Unit → Except Raised Tracestate
  | (t, .ok ()) => .ok t
  | (_, .error e) => .error e

theorem resultOf_eq_ok_iff {r : Tracestate × Except Raised Unit} {t : Tracestate} :
    resultOf r = .ok t ↔ r = (t, .ok ()) := by
  obtain ⟨u, e | ⟨⟩⟩ := r <;> simp [resultOf]

theorem ofString_eq (s : Str) : ofString s = resultOf (empty.fromString s) := rfl

theorem ofString_eq_ok_iff {s : Str} {t : Tracestate} :
    ofString s = .ok t ↔
      ∃ items, Members (cut delimiterFormat s) items ∧ t = addAll items empty := by
  rw [ofString_eq, resultOf_eq_ok_iff]
  exact addMembers_eq_ok_iff

/-- New members come last, in their order. -/
theorem addAll_items {items : List (Str × Str)} {t : Tracestate}
    (h : ((t.traits.items ++ items).map Prod.fst).Nodup) :
    (addAll items t).traits.items = t.traits.items ++ items := by
  induction items generalizing t with
  | nil => exact (List.append_nil _).symm
  | cons item items ih =>
      have hnew : item.1 ∉ t.traits.keys := by
        rw [List.map_append, List.nodup_append] at h
        intro hmem
        exact h.2.2 item.1 hmem item.1 List.mem_cons_self rfl
      have hadd : (t.add item.1 item.2).traits.items = t.traits.items ++ [item] := by
        rw [add, if_neg hnew]
        exact Dict.items_set_of_not_mem t.traits item.2 hnew
      have happend : (t.add item.1 item.2).traits.items ++ items =
          t.traits.items ++ item :: items := by
        rw [hadd, List.append_assoc, List.singleton_append]
      rw [← happend] at h ⊢
      exact ih h

end Tracestate

end Reading

section Runs

namespace Tracestate

/-- Every member was checked: its key and its value are words of the two formats, with or
without a newline behind them. -/
def Sound (t : Tracestate) : Prop :=
  ∀ item ∈ t.traits.items,
    IsLineOf (language keyFormat) item.1 ∧ IsLineOf (language valueFormat) item.2

theorem empty_sound : Sound empty := List.forall_mem_nil _

theorem Sound.set {traits : Dict Str Str} (h : Sound ⟨traits⟩) {key value : Str}
    (hkey : IsLineOf (language keyFormat) key) (hvalue : IsLineOf (language valueFormat) value) :
    Sound ⟨traits.set key value⟩ := by
  rintro ⟨x, a⟩ hitem
  rw [Dict.mem_items_iff, Dict.get?_set] at hitem
  split_ifs at hitem with hx
  · rw [hx, ← Option.some.inj hitem]
    exact ⟨hkey, hvalue⟩
  · exact h (x, a) ((Dict.mem_items_iff traits x a).mpr hitem)

theorem Sound.moveToFront {traits : Dict Str Str} (h : Sound ⟨traits⟩) (key : Str) :
    Sound ⟨moveToFront traits key⟩ := by
  intro item hitem
  unfold Tracestate.moveToFront at hitem
  split at hitem
  · exact h item hitem
  · rename_i value hvalue
    rcases List.mem_cons.mp hitem with rfl | hitem
    · exact h _ ((Dict.mem_items_iff traits key value).mpr hvalue)
    · exact h item (List.mem_of_mem_filter hitem)

theorem setItem_eq_ok_iff {t t' : Tracestate} {key value : Str} :
    t.setItem key value = .ok t' ↔
      IsLineOf (language keyFormat) key ∧ IsLineOf (language valueFormat) value ∧
        t' = ⟨Tracestate.moveToFront (t.traits.set key value) key⟩ := by
  have hkey := isSome_matchStart_validation keyFormat_unanchored keyFormat_groups 1 key
  have hvalue := isSome_matchStart_validation valueFormat_unanchored valueFormat_groups 1 value
  rw [setItem, keyValidation, valueValidation, ← hkey, ← hvalue]
  cases matchStart (.seq (.group 1 keyFormat) .atEnd) key <;>
    cases matchStart (.seq (.group 1 valueFormat) .atEnd) value <;>
      simp [eq_comm]

theorem Sound.addMember {t t' : Tracestate} (h : Sound t) {member : Str}
    (hadd : t.addMember member = .ok t') : Sound t' := by
  rcases addMember_eq_ok_iff.mp hadd with ⟨-, rfl⟩ | ⟨item, hreads, rfl⟩
  · exact h
  · unfold add
    split_ifs
    · exact h
    · exact h.set ⟨item.1, hreads.1, Or.inl rfl⟩ ⟨item.2, hreads.2.1, Or.inl rfl⟩

theorem Sound.addMembers {pieces : List Str} {t : Tracestate} (h : Sound t) :
    Sound (addMembers pieces t).1 := by
  induction pieces generalizing t with
  | nil => exact h
  | cons piece pieces ih =>
      rw [Tracestate.addMembers]
      cases hadd : t.addMember piece with
      | error e => exact h
      | ok u => exact ih (h.addMember hadd)

/-- One operation, whether it raises or not. -/
theorem Sound.apply {t : Tracestate} (h : Sound t) (operation : Operation) :
    Sound (t.apply operation) := by
  cases operation with
  | setItem key value =>
      rw [Tracestate.apply]
      cases hset : t.setItem key value with
      | error e => exact h
      | ok t' =>
          obtain ⟨hkey, hvalue, rfl⟩ := setItem_eq_ok_iff.mp hset
          exact (Sound.set h hkey hvalue).moveToFront key
  | fromString string => exact h.addMembers
  | pop =>
      rw [Tracestate.apply, pop]
      cases t.traits.items.getLast? with
      | none => exact h
      | some item => exact fun item hitem => h item (List.mem_of_mem_dropLast hitem)

theorem runOf_sound (operations : List Operation) : Sound (runOf operations) :=
  List.foldlRecOn operations Tracestate.apply empty_sound fun _ h operation _ => h.apply operation

end Tracestate

end Runs

section Printing

/-- A text without the newline at its end. -/
def withoutNewline (s : Str) : Str := if s.getLast? = some '\n' then s.dropLast else s

theorem getLast?_ne_newline {s : Str} (h : '\n' ∉ s) : s.getLast? ≠ some '\n' :=
  fun hlast => h (List.mem_of_mem_getLast? (Option.mem_def.mpr hlast))

theorem withoutNewline_of_not_mem {s : Str} (h : '\n' ∉ s) : withoutNewline s = s :=
  if_neg (getLast?_ne_newline h)

theorem withoutNewline_concat (s : Str) : withoutNewline (s ++ ['\n']) = s := by
  rw [withoutNewline, List.getLast?_concat, if_pos rfl, List.dropLast_concat]

namespace Tracestate

variable {item : Str × Str}

/-- What `Sound` says of one member. -/
def SoundItem (item : Str × Str) : Prop :=
  IsLineOf (language keyFormat) item.1 ∧ IsLineOf (language valueFormat) item.2

theorem SoundItem.trimmed (h : SoundItem item) : Trimmed isBlank (printMember item) := by
  obtain ⟨key, value⟩ := item
  obtain ⟨⟨d, hd, hkey⟩, ⟨v, hv, hvalue⟩⟩ := h
  obtain ⟨s, rfl⟩ : ∃ s, key = d ++ s := by
    rcases hkey with rfl | rfl
    · exact ⟨[], (List.append_nil _).symm⟩
    · exact ⟨['\n'], rfl⟩
  obtain ⟨t, ht, rfl⟩ : ∃ t : Str, (t = [] ∨ t = ['\n']) ∧ value = v ++ t := by
    rcases hvalue with rfl | rfl
    · exact ⟨[], Or.inl rfl, (List.append_nil _).symm⟩
    · exact ⟨['\n'], Or.inr rfl, rfl⟩
  have htrim := trimmed_of_parts hd hv ht (s ++ ['='])
  simp only [List.append_assoc, List.singleton_append] at htrim
  rw [printMember, List.append_assoc]
  exact htrim

theorem SoundItem.not_mem_comma (h : SoundItem item) : ',' ∉ printMember item := by
  obtain ⟨⟨d, hd, hkey⟩, ⟨v, hv, hvalue⟩⟩ := h
  have hd' : ',' ∉ d := not_mem_key hd (by decide)
  have hv' : ',' ∉ v := not_mem_value hv (by decide)
  rw [printMember, List.mem_append, List.mem_cons]
  rcases hkey with hkey | hkey <;> rcases hvalue with hvalue | hvalue <;>
    rw [hkey, hvalue] <;> simp [hd', hv']

theorem printMember_ne_nil (item : Str × Str) : printMember item ≠ [] := by
  rw [printMember]
  exact List.append_ne_nil_of_right_ne_nil _ (List.cons_ne_nil _ _)

/-- **A printed member** is read unless a newline stands behind its key. -/
theorem SoundItem.reads_iff (h : SoundItem item) {read : Str × Str} :
    Reads (printMember item) read ↔
      item.1.getLast? ≠ some '\n' ∧ read = (item.1, withoutNewline item.2) := by
  obtain ⟨key, value⟩ := item
  obtain ⟨⟨d, hd, hkey⟩, ⟨v, hv, hvalue⟩⟩ := h
  have hnewline : '\n' ∉ d := not_mem_key hd (by decide)
  have hnewline' : '\n' ∉ v := not_mem_value hv (by decide)
  rcases hkey with rfl | rfl
  · have hreads : Reads (printMember (key, value)) (key, withoutNewline value) := by
      rcases hvalue with rfl | rfl
      · rw [withoutNewline_of_not_mem hnewline']
        exact ⟨hd, hv, [], Or.inl rfl, by rw [printMember, List.append_nil]⟩
      · rw [withoutNewline_concat]
        exact ⟨hd, hv, ['\n'], Or.inr rfl, rfl⟩
    constructor
    · exact fun hread => ⟨getLast?_ne_newline hnewline, hread.unique hreads⟩
    · rintro ⟨-, rfl⟩
      exact hreads
  · constructor
    · rintro ⟨hread, -, t, -, heq⟩
      have hequals : '=' ∉ d ++ ['\n'] := by
        rw [List.mem_append, not_or]
        exact ⟨not_mem_key hd (by decide), by decide⟩
      obtain ⟨hfront, -⟩ :=
        append_cons_inj_of_not_mem hequals (not_mem_key hread (by decide)) heq
      refine absurd ?_ (not_mem_key hread (c := '\n') (by decide))
      rw [← hfront]
      exact List.mem_concat_self
    · rintro ⟨hlast, -⟩
      exact absurd List.getLast?_concat hlast

/-- The pieces of a printed `Tracestate` are its printed members. -/
theorem Sound.filter_cut {t : Tracestate} (h : Sound t) :
    ((cut delimiterFormat t.toString).filter fun piece => piece ≠ []) =
      t.traits.items.map printMember := by
  rw [toString]
  by_cases hnil : t.traits.items = []
  · rw [hnil, List.map_nil, join_nil, delimiterFormat, cut_nil padded_consuming]
    rfl
  · rw [delimiterFormat, cut_padded_join_pieces (by decide) (by simpa using hnil)]
    · rw [List.filter_eq_self]
      intro piece hpiece
      obtain ⟨item, -, rfl⟩ := List.mem_map.mp hpiece
      simpa using printMember_ne_nil item
    · intro piece hpiece
      obtain ⟨item, hitem, rfl⟩ := List.mem_map.mp hpiece
      exact SoundItem.not_mem_comma (h item hitem)
    · intro piece hpiece
      obtain ⟨item, hitem, rfl⟩ := List.mem_map.mp hpiece
      exact SoundItem.trimmed (h item hitem)

theorem Sound.members_iff {t : Tracestate} (h : Sound t) {items : List (Str × Str)} :
    Members (cut delimiterFormat t.toString) items ↔
      (∀ key ∈ t.traits.keys, key.getLast? ≠ some '\n') ∧
        items = t.traits.items.map fun item => (item.1, withoutNewline item.2) := by
  rw [Members, h.filter_cut, List.forall₂_map_left_iff, Dict.keys, List.forall_mem_map]
  have hsound : ∀ item ∈ t.traits.items, SoundItem item := h
  generalize t.traits.items = printed at hsound
  induction printed generalizing items with
  | nil => simp [List.forall₂_nil_left_iff]
  | cons item printed ih =>
      rw [List.forall_mem_cons] at hsound
      rw [List.forall₂_cons_left_iff, List.forall_mem_cons, List.map_cons]
      constructor
      · rintro ⟨read, reads, hread, hreads, rfl⟩
        obtain ⟨hlast, rfl⟩ := hsound.1.reads_iff.mp hread
        obtain ⟨hlasts, rfl⟩ := (ih hsound.2).mp hreads
        exact ⟨⟨hlast, hlasts⟩, rfl⟩
      · rintro ⟨⟨hlast, hlasts⟩, rfl⟩
        exact ⟨_, _, hsound.1.reads_iff.mpr ⟨hlast, rfl⟩, (ih hsound.2).mpr ⟨hlasts, rfl⟩, rfl⟩

theorem Sound.printed_eq_ok_iff {t t' : Tracestate} (h : Sound t) :
    ofString t.toString = .ok t' ↔
      (∀ key ∈ t.traits.keys, key.getLast? ≠ some '\n') ∧
        t'.traits.items = t.traits.items.map fun item => (item.1, withoutNewline item.2) := by
  have hnodup : ((t.traits.items.map fun item => (item.1, withoutNewline item.2)).map
      Prod.fst).Nodup := by
    rw [List.map_map]
    exact t.traits.nodup
  have hitems := addAll_items (t := empty) hnodup
  rw [ofString_eq_ok_iff]
  constructor
  · rintro ⟨items, hmembers, rfl⟩
    obtain ⟨hlast, rfl⟩ := h.members_iff.mp hmembers
    exact ⟨hlast, hitems⟩
  · rintro ⟨hlast, ht'⟩
    refine ⟨_, h.members_iff.mpr ⟨hlast, rfl⟩, ?_⟩
    obtain ⟨traits⟩ := t'
    exact congrArg Tracestate.mk (Dict.ext_items (ht'.trans hitems.symm))

/--
**Printing and reading.**  After any run of operations the printed form is read again if and only
if no key ends with a newline; what is read has the same members in the same order, without the
newlines behind their values.
-/
theorem ofString_toString (operations : List Operation) (t : Tracestate) :
    ofString (runOf operations).toString = .ok t ↔
      (∀ key ∈ (runOf operations).traits.keys, key.getLast? ≠ some '\n') ∧
        t.traits.items = (runOf operations).traits.items.map
          fun item => (item.1, withoutNewline item.2) :=
  (runOf_sound operations).printed_eq_ok_iff

theorem ofString_toString_example :
    ofString (runOf [.fromString "a=1 , b=2\n".toList,
        .setItem "c".toList "3\n".toList]).toString =
      .ok ⟨⟨[("c".toList, "3".toList), ("a".toList, "1".toList), ("b".toList, "2".toList)],
        by decide⟩⟩ :=
  (ofString_toString _ _).mpr (by decide)

/-- Every key and every value is a word of its format. -/
def Clean (t : Tracestate) : Prop :=
  ∀ item ∈ t.traits.items, item.1 ∈ language keyFormat ∧ item.2 ∈ language valueFormat

theorem Clean.sound {t : Tracestate} (h : Clean t) : Sound t :=
  fun item hitem => ⟨⟨item.1, (h item hitem).1, Or.inl rfl⟩, ⟨item.2, (h item hitem).2, Or.inl rfl⟩⟩

theorem Clean.add {t : Tracestate} (h : Clean t) {key value : Str}
    (hkey : key ∈ language keyFormat) (hvalue : value ∈ language valueFormat) :
    Clean (t.add key value) := by
  unfold Tracestate.add
  split_ifs with hmem
  · exact h
  · intro item hitem
    rw [Dict.items_set_of_not_mem t.traits value hmem, List.mem_append, List.mem_singleton] at hitem
    rcases hitem with hitem | rfl
    · exact h item hitem
    · exact ⟨hkey, hvalue⟩

theorem Clean.addAll {pieces : List Str} {items : List (Str × Str)}
    (hitems : List.Forall₂ Reads pieces items) {t : Tracestate} (h : Clean t) :
    Clean (addAll items t) := by
  induction hitems generalizing t with
  | nil => exact h
  | cons hread _ ih => exact ih (h.add hread.1 hread.2.1)

/-- What was read is printed and read back as itself. -/
theorem ofString_stable {s : Str} {t : Tracestate} (h : ofString s = .ok t) :
    ofString t.toString = .ok t := by
  obtain ⟨items, hmembers, ht⟩ := ofString_eq_ok_iff.mp h
  have hclean : Clean t := by
    rw [ht]
    exact Clean.addAll hmembers (List.forall_mem_nil _)
  refine hclean.sound.printed_eq_ok_iff.mpr ⟨?_, ?_⟩
  · intro key hkey
    obtain ⟨item, hitem, rfl⟩ := List.mem_map.mp hkey
    exact getLast?_ne_newline (not_mem_key (hclean item hitem).1 (by decide))
  · refine (List.map_id _).symm.trans (List.map_congr_left fun item hitem => ?_)
    rw [withoutNewline_of_not_mem (not_mem_value (hclean item hitem).2 (by decide))]
    rfl

end Tracestate

end Printing

section Headers

namespace Tracestate

/-- The loop over the pieces of two headers. -/
theorem addMembers_append (pieces pieces' : List Str) (t : Tracestate) :
    addMembers (pieces ++ pieces') t =
      match addMembers pieces t with
      | (t, .ok ()) => addMembers pieces' t
      | (t, .error e) => (t, .error e) := by
  induction pieces generalizing t with
  | nil => rfl
  | cons piece pieces ih =>
      rw [List.cons_append, addMembers, addMembers]
      cases t.addMember piece with
      | error e => rfl
      | ok u => exact ih u

/-- The loop over the headers is one loop over their pieces. -/
theorem fromStrings_eq (values : List Str) (t : Tracestate) :
    fromStrings values t = resultOf (addMembers (values.flatMap (cut delimiterFormat)) t) := by
  induction values generalizing t with
  | nil => rfl
  | cons value values ih =>
      rw [List.flatMap_cons, addMembers_append, fromStrings, fromString]
      cases addMembers (cut delimiterFormat value) t with
      | mk u raised =>
          cases raised with
          | error e => rfl
          | ok _ => exact ih u

/-- The headers joined, when no piece has blanks at its ends. -/
theorem fromStrings_join {values : List Str}
    (h : ∀ value ∈ values, ∀ piece ∈ cut delimiterFormat value, Trimmed isBlank piece) :
    fromStrings values empty = ofString (join [','] values) := by
  rw [fromStrings_eq, ofString_eq, fromString]
  by_cases hnil : values = []
  · rw [hnil, join_nil, delimiterFormat, cut_nil padded_consuming]
    rfl
  · rw [delimiterFormat, cut_padded_join (by decide) hnil h]

theorem exists_reads {pieces : List Str} {items : List (Str × Str)}
    (h : List.Forall₂ Reads pieces items) : ∀ piece ∈ pieces, ∃ item, Reads piece item := by
  induction h with
  | nil => exact List.forall_mem_nil _
  | cons hread _ ih => exact List.forall_mem_cons.mpr ⟨⟨_, hread⟩, ih⟩

theorem Members.trimmed {pieces : List Str} {items : List (Str × Str)}
    (h : Members pieces items) : ∀ piece ∈ pieces, Trimmed isBlank piece := by
  intro piece hpiece
  by_cases hnil : piece = []
  · rw [hnil]
    exact ⟨fun c hc => absurd hc (by simp), fun c hc => absurd hc (by simp)⟩
  · have hmem : piece ∈ pieces.filter fun piece => piece ≠ [] :=
      List.mem_filter.mpr ⟨hpiece, by simpa using hnil⟩
    obtain ⟨item, hread⟩ := exists_reads h piece hmem
    exact hread.trimmed

/--
**Several headers**: when all of them are read, they are read as one header with commas between
them.  When no header has a blank at its ends, the two also fail together, with one message.
-/
theorem getTracestate_join (headers : Dict Str Str) :
    (∀ t, getTracestate headers = .ok t →
      ofString (join [','] (valuesOf "tracestate".toList headers)) = .ok t) ∧
    ((∀ value ∈ valuesOf "tracestate".toList headers, Trimmed isBlank value) →
      getTracestate headers = ofString (join [','] (valuesOf "tracestate".toList headers))) := by
  unfold getTracestate
  generalize valuesOf "tracestate".toList headers = values
  constructor
  · intro t h
    rw [← h]
    refine (fromStrings_join fun value hvalue piece hpiece => ?_).symm
    rw [fromStrings_eq, resultOf_eq_ok_iff, addMembers_eq_ok_iff] at h
    obtain ⟨items, hmembers, -⟩ := h
    exact hmembers.trimmed piece (List.mem_flatMap.mpr ⟨value, hvalue, hpiece⟩)
  · exact fun htrim => fromStrings_join fun value hvalue =>
      (htrim value hvalue).of_mem_cut (by decide)

theorem getTracestate_join_example :
    getTracestate ⟨[("tracestate".toList, "a=1,b=2".toList),
        ("Tracestate".toList, "a=3, c= 4".toList)], by decide⟩ =
      ofString "a=1,b=2,a=3, c= 4".toList :=
  (getTracestate_join _).2 fun value hvalue => by
    have hvalues : valuesOf "tracestate".toList ⟨[("tracestate".toList, "a=1,b=2".toList),
        ("Tracestate".toList, "a=3, c= 4".toList)], by decide⟩ =
          ["a=1,b=2".toList, "a=3, c= 4".toList] := by decide
    rw [hvalues, List.mem_cons, List.mem_singleton] at hvalue
    rcases hvalue with rfl | rfl <;> exact ⟨by decide, by decide⟩

end Tracestate

end Headers

section Parents

/-- What `get_traceparent` asks of the fields of its header. -/
structure Traceparent.WellFormed (t : Traceparent) : Prop where
  noHyphen : ∀ field ∈ [t.version, t.traceId, t.parentId, t.traceFlags], '-' ∉ field
  version_length : t.version.length = 2
  traceId_length : t.traceId.length = 32
  parentId_length : t.parentId.length = 16
  traceFlags_length : t.traceFlags.length = 2
  traceId_ne_zero : ∃ n, Numeral.intOfHex t.traceId = some n ∧ n ≠ 0
  parentId_ne_zero : ∃ n, Numeral.intOfHex t.parentId = some n ∧ n ≠ 0

theorem isZeroId_eq_false_iff {traceId spanId : Str} :
    isZeroId traceId spanId = .ok false ↔
      (∃ n, Numeral.intOfHex traceId = some n ∧ n ≠ 0) ∧
        ∃ n, Numeral.intOfHex spanId = some n ∧ n ≠ 0 := by
  unfold isZeroId readHex
  cases htrace : Numeral.intOfHex traceId with
  | none => simp [Raised.ofOption, bind, Except.bind]
  | some n =>
      rw [Raised.ofOption_some, Raised.ok_bind]
      split_ifs with hn
      · simp [hn]
      · cases hspan : Numeral.intOfHex spanId with
        | none => simp [Raised.ofOption, bind, Except.bind]
        | some k => simp [hn]

theorem readTraceparent_eq_some_iff {version traceId spanId traceFlags : Str} {t : Traceparent} :
    readTraceparent version traceId spanId traceFlags = .ok (some t) ↔
      t = ⟨version, traceId, spanId, traceFlags⟩ ∧ version.length = 2 ∧ traceId.length = 32 ∧
        spanId.length = 16 ∧ traceFlags.length = 2 ∧ isZeroId traceId spanId = .ok false := by
  unfold readTraceparent
  split_ifs with hlength
  · refine iff_of_false (by simp [pure, Except.pure]) ?_
    rintro ⟨-, hversion, htrace, hspan, hflags, -⟩
    simp [hversion, htrace, hspan, hflags] at hlength
  · simp only [Bool.or_eq_true, decide_eq_true_eq, not_or, not_not] at hlength
    cases hzero : isZeroId traceId spanId with
    | error e => simp [bind, Except.bind]
    | ok zero => cases zero <;> simp [hlength, eq_comm, pure, Except.pure]

/--
**A trace parent**: `get_traceparent` gives one exactly when a single header has its name and is
the printed form of it, and its fields are well formed.
-/
theorem getTraceparent_eq_some_iff (headers : Dict Str Str) (t : Traceparent) :
    getTraceparent headers = .ok (some t) ↔
      valuesOf "traceparent".toList headers = [t.toString] ∧ t.WellFormed := by
  unfold getTraceparent
  generalize valuesOf "traceparent".toList headers = values
  constructor
  · intro h
    split at h
    · rename_i value
      split at h
      · rename_i version traceId spanId traceFlags hsplit
        obtain ⟨rfl, hversion, htrace, hspan, hflags, hzero⟩ := readTraceparent_eq_some_iff.mp h
        obtain ⟨htraceId, hspanId⟩ := isZeroId_eq_false_iff.mp hzero
        have hjoin : join ['-'] (split ['-'] value) = value := join_split value
        rw [hsplit] at hjoin
        refine ⟨by rw [Traceparent.toString, hjoin], ?_, hversion, htrace, hspan, hflags, htraceId,
          hspanId⟩
        intro field hfield
        exact not_mem_of_mem_split (hsplit ▸ hfield)
      · split_ifs at h
    · cases h
  · rintro ⟨rfl, hformed⟩
    have hsplit : split ['-'] t.toString = [t.version, t.traceId, t.parentId, t.traceFlags] :=
      split_join (List.cons_ne_nil _ _) hformed.noHyphen
    simp only [hsplit]
    exact readTraceparent_eq_some_iff.mpr ⟨rfl, hformed.version_length, hformed.traceId_length,
      hformed.parentId_length, hformed.traceFlags_length,
      isZeroId_eq_false_iff.mpr ⟨hformed.traceId_ne_zero, hformed.parentId_ne_zero⟩⟩

theorem getTraceparent_eq_some_iff_example :
    getTraceparent ⟨[("TraceParent".toList,
        "00-0000000000000000000000000000000a-000000000000000b-01".toList)], by decide⟩ =
      .ok (some ⟨"00".toList, "0000000000000000000000000000000a".toList,
        "000000000000000b".toList, "01".toList⟩) :=
  (getTraceparent_eq_some_iff _ _).mpr ⟨by decide, by decide, by decide, by decide,
    by decide, by decide, ⟨10, by decide, by decide⟩, ⟨11, by decide, by decide⟩⟩

/-- The headers of a trace context as they are sent. -/
def headersOf (traceparent : Traceparent) (tracestate : Tracestate) : Dict Str Str :=
  ⟨[("traceparent".toList, traceparent.toString), ("tracestate".toList, tracestate.toString)], by
    change ["traceparent".toList, "tracestate".toList].Nodup
    decide⟩

/-- What is sent in the headers of a trace context is found in them. -/
theorem getTracecontext_headersOf {s : Str} {traceparent : Traceparent} {tracestate : Tracestate}
    (hparent : traceparent.WellFormed) (hstate : Tracestate.ofString s = .ok tracestate) :
    getTracecontext (headersOf traceparent tracestate) = .ok (some traceparent, tracestate) := by
  have hparents : valuesOf "traceparent".toList (headersOf traceparent tracestate) =
      [traceparent.toString] := rfl
  have hstates : valuesOf "tracestate".toList (headersOf traceparent tracestate) =
      [tracestate.toString] := rfl
  have htracestate : getTracestate (headersOf traceparent tracestate) = .ok tracestate := by
    have hread := Tracestate.ofString_stable hstate
    rw [Tracestate.ofString_eq, Tracestate.resultOf_eq_ok_iff] at hread
    rw [getTracestate, hstates, fromStrings, hread]
    rfl
  rw [getTracecontext, (getTraceparent_eq_some_iff _ _).mpr ⟨hparents, hparent⟩, htracestate]
  rfl

end Parents

end TraceContext
end SystemTests
