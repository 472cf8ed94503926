import SystemTests.Foundation.Calendar
import SystemTests.Foundation.Numeral

/-!
# Instants as ISO 8601 texts

Instants are counted in microseconds from the beginning of the year 1.  `fromIsoFormat` reads
a calendar date and a time, with or without the marks between their numbers, and an offset.
A format fixes all of these, so that the texts of one format have one length.

**Results.**
* `fromIsoFormat_render`: what is written in a format is read.
* `lt_of_clock_lt`: the texts of a format are in the order of what they say.
* `fromIsoFormat_strftime`: a written instant is read back, to the second.
-/

namespace Foundation
namespace IsoFormat

open Text Numeral Calendar

section Reading

/-- A number of `width` digits, and the rest. -/
def takeNumber (width : Nat) (s : Str) : Option (Nat × Str) :=
  if width ≤ s.length then (natOf 10 decimalValue (s.take width)).map (·, s.drop width) else none

/-- The rest after a mark, where one is expected. -/
def skip (c : Char) (expected : Bool) (s : Str) : Option Str :=
  if expected then if s.head? = some c then some s.tail else none else some s

def readDate (s : Str) : Option (Date × Str) := do
  let (year, s) ← takeNumber 4 s
  let dashes := s.head? == some '-'
  let s ← skip '-' dashes s
  let (month, s) ← takeNumber 2 s
  let s ← skip '-' dashes s
  let (day, s) ← takeNumber 2 s
  let date ← dateOf year month day
  return (date, s)

/-- The digits after the seventh say nothing. -/
def microseconds (digits : Str) : Nat :=
  (natOf 10 decimalValue (digits.take 6)).getD 0 * 10 ^ (6 - (digits.take 6).length)

def readFraction : Str → Option Nat
  | [] => some 0
  | c :: digits =>
      if (c = '.' ∨ c = ',') ∧ digits ≠ [] ∧ ∀ d ∈ digits, (decimalValue d).isSome then
        some (microseconds digits)
      else none

def clockOf (hour minute second microsecond : Nat) : Option Nat :=
  if hour < 24 ∧ minute < 60 ∧ second < 60 then
    some (((hour * 60 + minute) * 60 + second) * 1000000 + microsecond)
  else none

/-- The time of a day. -/
def readClock (s : Str) : Option Nat := do
  let (hour, s) ← takeNumber 2 s
  if s = [] then clockOf hour 0 0 0
  else
    let colons := s.head? == some ':'
    let s ← skip ':' colons s
    let (minute, s) ← takeNumber 2 s
    if s = [] then clockOf hour minute 0 0
    else
      let s ← skip ':' colons s
      let (second, s) ← takeNumber 2 s
      let microsecond ← readFraction s
      clockOf hour minute second microsecond

def isZone (c : Char) : Bool := c == 'Z' || c == '+' || c == '-'

/-- The offset, if there is one. -/
def readZone : Str → Option (Option Int)
  | [] => some none
  | c :: s =>
      if c = '+' then (readClock s).map fun offset : Nat => some (offset : Int)
      else if c = '-' then (readClock s).map fun offset : Nat => some (-offset : Int)
      else if c = 'Z' ∧ s = [] then some (some 0)
      else none

/-- What the clock shows, and how far it is ahead. -/
structure Datetime where
  clock : Int
  offset : Option Int
deriving DecidableEq

/-- The instant; without an offset the clock shows universal time. -/
def Datetime.instant (d : Datetime) : Int := d.clock - d.offset.getD 0

def microsecondsOfDay : Nat := 86400000000

/-- `datetime.fromisoformat` for calendar dates: any character may part the date from the time. -/
def fromIsoFormat (s : Str) : Option Datetime := do
  let (date, s) ← readDate s
  if s.length ≤ 1 then return ⟨date.ordinal * microsecondsOfDay, none⟩
  else
    let clock ← readClock (s.tail.takeWhile (!isZone ·))
    let offset ← readZone (s.tail.dropWhile (!isZone ·))
    return ⟨date.ordinal * microsecondsOfDay + clock, offset⟩

end Reading

section Writing

/-- What follows the hour. -/
inductive Precision where
  | hour
  | minute
  | second (digits : Nat)
deriving DecidableEq

structure Format where
  dashes : Bool
  separator : Char
  colons : Bool
  precision : Precision
  point : Char
  zone : Str
  point_valid : point = '.' ∨ point = ','
  zone_valid : (readZone zone).isSome

structure Moment where
  date : Date
  hour : Nat
  minute : Nat
  second : Nat
  fraction : Str
  hour_lt : hour < 24
  minute_lt : minute < 60
  second_lt : second < 60
  fraction_digits : ∀ c ∈ fraction, (decimalValue c).isSome

namespace Moment

def clockOfDay (m : Moment) : Nat :=
  ((m.hour * 60 + m.minute) * 60 + m.second) * 1000000 + microseconds m.fraction

def clock (m : Moment) : Int := m.date.ordinal * microsecondsOfDay + m.clockOfDay

/-- The moment says nothing that the precision leaves out. -/
def Fits (m : Moment) : Precision → Prop
  | .hour => m.minute = 0 ∧ m.second = 0 ∧ m.fraction = []
  | .minute => m.second = 0 ∧ m.fraction = []
  | .second digits => m.fraction.length = digits

end Moment

def mark (c : Char) (present : Bool) : Str := if present then [c] else []

def dateText (dashes : Bool) (d : Date) (rest : Str) : Str :=
  padded 4 d.year ++ (mark '-' dashes ++ (padded 2 d.month ++ (mark '-' dashes ++
    (padded 2 d.day ++ rest))))

def fractionText (point : Char) (fraction : Str) : Str :=
  if fraction = [] then [] else point :: fraction

def clockText (fmt : Format) (m : Moment) : Str :=
  match fmt.precision with
  | .hour => padded 2 m.hour
  | .minute => padded 2 m.hour ++ (mark ':' fmt.colons ++ padded 2 m.minute)
  | .second _ => padded 2 m.hour ++ (mark ':' fmt.colons ++ (padded 2 m.minute ++
      (mark ':' fmt.colons ++ (padded 2 m.second ++ fractionText fmt.point m.fraction))))

def render (fmt : Format) (m : Moment) : Str :=
  dateText fmt.dashes m.date (fmt.separator :: (clockText fmt m ++ fmt.zone))

end Writing

section Numbers

theorem takeNumber_padded {width n : Nat} (h : n < 10 ^ width) (hwidth : 0 < width) (rest : Str) :
    takeNumber width (padded width n ++ rest) = some (n, rest) := by
  have hlength := length_padded h hwidth
  rw [takeNumber, List.take_left' hlength, List.drop_left' hlength, natOf_padded,
    if_pos (by rw [List.length_append]; omega)]
  rfl

theorem takeNumber_padded_nil {width n : Nat} (h : n < 10 ^ width) (hwidth : 0 < width) :
    takeNumber width (padded width n) = some (n, []) := by
  have htake := takeNumber_padded h hwidth []
  rwa [List.append_nil] at htake

theorem isSome_of_mem_padded {width n : Nat} {c : Char} (h : c ∈ padded width n) :
    (decimalValue c).isSome = true :=
  isSome_digit_of_natOf (natOf_padded width n) c h

theorem exists_cons_padded {width n : Nat} (h : n < 10 ^ width) (hwidth : 0 < width) :
    ∃ c s, padded width n = c :: s ∧ (decimalValue c).isSome = true := by
  have hlength := length_padded h hwidth
  cases hpadded : padded width n with
  | nil =>
      rw [hpadded] at hlength
      exact absurd hlength (by rw [List.length_nil]; omega)
  | cons c s => exact ⟨c, s, rfl, isSome_of_mem_padded (hpadded ▸ List.mem_cons_self)⟩

theorem skip_mark (c : Char) (present : Bool) (rest : Str) :
    skip c present (mark c present ++ rest) = some rest := by
  cases present <;> simp [skip, mark]

/-- A number does not begin with a mark. -/
theorem head?_mark {c : Char} (hc : decimalValue c = none) (present : Bool) {width n : Nat}
    (h : n < 10 ^ width) (hwidth : 0 < width) (rest : Str) :
    ((mark c present ++ (padded width n ++ rest)).head? == some c) = present := by
  cases present with
  | true => simp [mark]
  | false =>
      obtain ⟨c', s, hpadded, hdigit⟩ := exists_cons_padded h hwidth
      have hne : c' ≠ c := by
        rintro rfl
        rw [hc] at hdigit
        cases hdigit
      rw [hpadded]
      simpa [mark] using hne

theorem readDate_dateText (dashes : Bool) (d : Date) (rest : Str) :
    readDate (dateText dashes d rest) = some (d, rest) := by
  have hyear : d.year < 10 ^ 4 := Nat.lt_succ_of_le d.year_valid.2
  have hmonth : d.month < 10 ^ 2 := lt_of_le_of_lt d.month_le (by decide)
  have hday : d.day < 10 ^ 2 := lt_of_le_of_lt d.day_le (by decide)
  simp only [readDate, dateText, takeNumber_padded hyear (by decide), Option.bind_eq_bind,
    Option.bind_some, head?_mark (c := '-') rfl dashes hmonth (by decide), skip_mark,
    takeNumber_padded hmonth (by decide), takeNumber_padded hday (by decide), dateOf_self]
  rfl

variable (fmt : Format) (m : Moment)

theorem readFraction_fractionText :
    readFraction (fractionText fmt.point m.fraction) = some (microseconds m.fraction) := by
  unfold fractionText
  split_ifs with hnil
  · rw [hnil]
    rfl
  · rw [readFraction, if_pos ⟨fmt.point_valid, hnil, m.fraction_digits⟩]

theorem clockOf_self : clockOf m.hour m.minute m.second (microseconds m.fraction) =
    some m.clockOfDay := by
  rw [clockOf, if_pos ⟨m.hour_lt, m.minute_lt, m.second_lt⟩, Moment.clockOfDay]

theorem readClock_clockText (hfits : m.Fits fmt.precision) :
    readClock (clockText fmt m) = some m.clockOfDay := by
  have hhour : m.hour < 10 ^ 2 := m.hour_lt.trans (by decide)
  have hminute : m.minute < 10 ^ 2 := m.minute_lt.trans (by decide)
  have hsecond : m.second < 10 ^ 2 := m.second_lt.trans (by decide)
  have hclock := clockOf_self m
  have hzero : microseconds [] = 0 := rfl
  have hne : ∀ n < 10 ^ 2, ∀ rest, mark ':' fmt.colons ++ (padded 2 n ++ rest) ≠ [] := by
    intro n hn rest
    obtain ⟨c, s, hpadded, _⟩ := exists_cons_padded hn (by decide)
    rw [hpadded]
    simp
  unfold clockText readClock
  cases hprecision : fmt.precision with
  | hour =>
      rw [hprecision] at hfits
      obtain ⟨hm, hs, hf⟩ := hfits
      rw [hm, hs, hf, hzero] at hclock
      simp only [takeNumber_padded_nil hhour (by decide), Option.bind_eq_bind, Option.bind_some,
        if_true, hclock]
  | minute =>
      rw [hprecision] at hfits
      obtain ⟨hs, hf⟩ := hfits
      rw [hs, hf, hzero] at hclock
      have hhead := head?_mark (c := ':') rfl fmt.colons hminute (by decide) []
      have hne := hne m.minute hminute []
      rw [List.append_nil] at hhead hne
      simp only [takeNumber_padded hhour (by decide), Option.bind_eq_bind, Option.bind_some,
        if_neg hne, hhead, skip_mark, takeNumber_padded_nil hminute (by decide), if_true, hclock]
  | second digits =>
      simp only [takeNumber_padded hhour (by decide), Option.bind_eq_bind, Option.bind_some,
        if_neg (hne m.minute hminute _), if_neg (hne m.second hsecond _),
        head?_mark (c := ':') rfl fmt.colons hminute (by decide), skip_mark,
        takeNumber_padded hminute (by decide), takeNumber_padded hsecond (by decide),
        readFraction_fractionText, hclock]

end Numbers

section RoundTrip

theorem not_isZone_of_digit {c : Char} (h : (decimalValue c).isSome = true) :
    isZone c = false := by
  unfold isZone
  rw [Bool.or_eq_false_iff, Bool.or_eq_false_iff]
  refine ⟨⟨?_, ?_⟩, ?_⟩
  all_goals
    rw [beq_eq_false_iff_ne]
    rintro rfl
    cases h

theorem not_isZone_of_mem_mark {c : Char} {colons : Bool} (h : c ∈ mark ':' colons) :
    isZone c = false := by
  cases colons with
  | true =>
      rw [List.mem_singleton.mp h]
      rfl
  | false => cases h

variable {fmt : Format} {m : Moment}

theorem not_isZone_of_mem_clockText {c : Char} (h : c ∈ clockText fmt m) : isZone c = false := by
  have hfraction : c ∈ fractionText fmt.point m.fraction → isZone c = false := by
    unfold fractionText
    split_ifs with hnil
    · intro h
      cases h
    · intro h
      rcases List.mem_cons.mp h with rfl | h
      · rcases fmt.point_valid with hpoint | hpoint <;> rw [hpoint] <;> rfl
      · exact not_isZone_of_digit (m.fraction_digits c h)
  have hnumber : ∀ {n}, c ∈ padded 2 n → isZone c = false :=
    fun h => not_isZone_of_digit (isSome_of_mem_padded h)
  have hmark : c ∈ mark ':' fmt.colons → isZone c = false := not_isZone_of_mem_mark
  unfold clockText at h
  cases hprecision : fmt.precision with
  | hour =>
      rw [hprecision] at h
      exact hnumber h
  | minute =>
      rw [hprecision] at h
      simp only [List.mem_append] at h
      rcases h with h | h | h
      · exact hnumber h
      · exact hmark h
      · exact hnumber h
  | second digits =>
      rw [hprecision] at h
      simp only [List.mem_append] at h
      rcases h with h | h | h | h | h | h
      · exact hnumber h
      · exact hmark h
      · exact hnumber h
      · exact hmark h
      · exact hnumber h
      · exact hfraction h

/-- An offset begins with a letter or a sign of its own. -/
theorem isZone_of_readZone {zone : Str} (h : (readZone zone).isSome = true) :
    ∀ c ∈ zone.head?, isZone c = true := by
  cases zone with
  | nil => simp
  | cons c s =>
      rw [List.head?_cons]
      rintro _ ⟨⟩
      simp only [readZone] at h
      unfold isZone
      split_ifs at h with hplus hminus hZ
      · simp [hplus]
      · simp [hminus]
      · simp [hZ.1]
      · cases h

theorem span_zone {text zone : Str} (htext : ∀ c ∈ text, isZone c = false)
    (hzone : ∀ c ∈ zone.head?, isZone c = true) :
    (text ++ zone).takeWhile (!isZone ·) = text ∧
      (text ++ zone).dropWhile (!isZone ·) = zone := by
  induction text with
  | nil =>
      cases zone with
      | nil => exact ⟨rfl, rfl⟩
      | cons c s =>
          have hc := hzone c rfl
          simp [hc]
  | cons c text ih =>
      rw [List.forall_mem_cons] at htext
      obtain ⟨htake, hdrop⟩ := ih htext.2
      simp [htext.1, htake, hdrop]

theorem clockText_ne_nil : clockText fmt m ≠ [] := by
  have hhour : m.hour < 10 ^ 2 := m.hour_lt.trans (by decide)
  obtain ⟨c, s, hpadded, _⟩ := exists_cons_padded hhour (by decide)
  unfold clockText
  cases fmt.precision <;> simp [hpadded]

/-- What is written in a format is read. -/
theorem fromIsoFormat_render (hfits : m.Fits fmt.precision) {offset : Option Int}
    (hzone : readZone fmt.zone = some offset) :
    fromIsoFormat (render fmt m) = some ⟨m.clock, offset⟩ := by
  have htext : ∀ c ∈ clockText fmt m, isZone c = false := fun c h => not_isZone_of_mem_clockText h
  obtain ⟨htake, hdrop⟩ := span_zone htext (isZone_of_readZone fmt.zone_valid)
  have hlength : ¬ (fmt.separator :: (clockText fmt m ++ fmt.zone)).length ≤ 1 := by
    have hpos : 0 < (clockText fmt m).length := List.length_pos_of_ne_nil clockText_ne_nil
    rw [List.length_cons, List.length_append]
    omega
  simp only [fromIsoFormat, render, readDate_dateText, Option.bind_eq_bind, Option.bind_some,
    if_neg hlength, List.tail_cons, htake, hdrop, readClock_clockText fmt m hfits, hzone]
  rfl

end RoundTrip

section Order

/-- Texts of one length are compared before what follows. -/
theorem append_lt_append {a b x y : Str} (hlength : a.length = b.length)
    (h : a < b ∨ a = b ∧ x < y) : a ++ x < b ++ y := by
  rcases h with h | ⟨rfl, h⟩
  · induction a generalizing b with
    | nil =>
        rw [List.eq_nil_of_length_eq_zero hlength.symm] at h
        exact absurd h (List.not_lt_nil _)
    | cons c a ih =>
        cases b with
        | nil => cases hlength
        | cons d b =>
            rw [List.cons_append, List.cons_append, List.cons_lt_cons_iff]
            rw [List.cons_lt_cons_iff] at h
            exact h.imp_right fun h => ⟨h.1, ih (Nat.succ_inj.mp hlength) h.2⟩
  · exact List.append_left_lt h

theorem padded_append_lt {width a b : Nat} {x y : Str} (ha : a < 10 ^ width)
    (hb : b < 10 ^ width) (hwidth : 0 < width) (h : a < b ∨ a = b ∧ x < y) :
    padded width a ++ x < padded width b ++ y := by
  refine append_lt_append ?_ (h.imp (fun h => padded_lt_padded h hb hwidth) fun h => ⟨?_, h.2⟩)
  · rw [length_padded ha hwidth, length_padded hb hwidth]
  · rw [h.1]

theorem dateText_lt {dashes : Bool} {d e : Date} {x y : Str}
    (h : d.ordinal < e.ordinal ∨ d = e ∧ x < y) : dateText dashes d x < dateText dashes e y := by
  rcases h with h | ⟨rfl, h⟩
  · have hmonth : ∀ d : Date, d.month < 10 ^ 2 := fun d => lt_of_le_of_lt d.month_le (by decide)
    have hday : ∀ d : Date, d.day < 10 ^ 2 := fun d => lt_of_le_of_lt d.day_le (by decide)
    have hyear : ∀ d : Date, d.year < 10 ^ 4 := fun d => Nat.lt_succ_of_le d.year_valid.2
    refine padded_append_lt (hyear d) (hyear e) (by decide)
      ((Date.lt_of_ordinal_lt h).imp_right fun h => ⟨h.1, List.append_left_lt ?_⟩)
    refine padded_append_lt (hmonth d) (hmonth e) (by decide)
      (h.2.imp_right fun h => ⟨h.1, List.append_left_lt ?_⟩)
    exact padded_append_lt (hday d) (hday e) (by decide) (Or.inl h.2)
  · unfold dateText
    exact List.append_left_lt (List.append_left_lt (List.append_left_lt
      (List.append_left_lt (List.append_left_lt h))))

theorem exists_natOf {s : Str} (h : ∀ c ∈ s, (decimalValue c).isSome = true) :
    ∃ v, natOf 10 decimalValue s = some v := by
  induction s using List.reverseRecOn with
  | nil => exact ⟨0, rfl⟩
  | append_singleton s c ih =>
      obtain ⟨v, hv⟩ := ih fun c' hc' => h c' (List.mem_append_left _ hc')
      obtain ⟨d, hd⟩ := Option.isSome_iff_exists.mp (h c (List.mem_append_right _ (by simp)))
      refine ⟨v * 10 + d, ?_⟩
      rw [natOf_concat, hv, hd]
      rfl

theorem exists_natOf_take {s : Str} (h : ∀ c ∈ s, (decimalValue c).isSome = true) :
    ∃ v, natOf 10 decimalValue (s.take 6) = some v ∧ v < 10 ^ (s.take 6).length ∧
      microseconds s = v * 10 ^ (6 - (s.take 6).length) := by
  obtain ⟨v, hv⟩ := exists_natOf fun c hc => h c (List.mem_of_mem_take hc)
  refine ⟨v, hv, natOf_lt (fun c d h => (decimalValue_eq_some h).1) hv, ?_⟩
  rw [microseconds, hv]
  rfl

theorem microseconds_lt {s : Str} (h : ∀ c ∈ s, (decimalValue c).isSome = true) :
    microseconds s < 1000000 := by
  obtain ⟨v, _, hlt, heq⟩ := exists_natOf_take h
  have hlength : (s.take 6).length ≤ 6 := List.length_take_le 6 s
  calc microseconds s = v * 10 ^ (6 - (s.take 6).length) := heq
    _ < 10 ^ (s.take 6).length * 10 ^ (6 - (s.take 6).length) :=
      Nat.mul_lt_mul_of_pos_right hlt (Nat.pow_pos (by decide))
    _ = 10 ^ 6 := by rw [← Nat.pow_add, Nat.add_sub_cancel' hlength]

/-- Fractions of one length are in the order of what they say. -/
theorem lt_of_microseconds_lt {s t : Str} (hs : ∀ c ∈ s, (decimalValue c).isSome = true)
    (ht : ∀ c ∈ t, (decimalValue c).isSome = true) (hlength : s.length = t.length)
    (h : microseconds s < microseconds t) : s < t := by
  obtain ⟨v, hv, _, heqv⟩ := exists_natOf_take hs
  obtain ⟨w, hw, _, heqw⟩ := exists_natOf_take ht
  have htake : (s.take 6).length = (t.take 6).length := by
    rw [List.length_take, List.length_take, hlength]
  rw [heqv, heqw, htake] at h
  have hlt := lt_of_decimal_lt htake hv hw (Nat.lt_of_mul_lt_mul_right h)
  rw [← List.take_append_drop 6 s, ← List.take_append_drop 6 t]
  exact append_lt_append htake (Or.inl hlt)

variable {fmt : Format} {m n : Moment}

theorem clockText_lt (hm : m.Fits fmt.precision) (hn : n.Fits fmt.precision)
    (h : m.clockOfDay < n.clockOfDay) {x y : Str} :
    clockText fmt m ++ x < clockText fmt n ++ y := by
  have hhour : ∀ m : Moment, m.hour < 10 ^ 2 := fun m => m.hour_lt.trans (by decide)
  have hminute : ∀ m : Moment, m.minute < 10 ^ 2 := fun m => m.minute_lt.trans (by decide)
  have hsecond : ∀ m : Moment, m.second < 10 ^ 2 := fun m => m.second_lt.trans (by decide)
  have hfm := microseconds_lt m.fraction_digits
  have hfn := microseconds_lt n.fraction_digits
  have hm60 := m.minute_lt
  have hn60 := n.minute_lt
  have hms := m.second_lt
  have hns := n.second_lt
  have hfields : m.hour < n.hour ∨ m.hour = n.hour ∧ (m.minute < n.minute ∨
      m.minute = n.minute ∧ (m.second < n.second ∨ m.second = n.second ∧
        microseconds m.fraction < microseconds n.fraction)) := by
    unfold Moment.clockOfDay at h
    omega
  unfold clockText
  cases hprecision : fmt.precision with
  | hour =>
      rw [hprecision] at hm hn
      obtain ⟨hm1, hm2, hm3⟩ := hm
      obtain ⟨hn1, hn2, hn3⟩ := hn
      rw [hm1, hm2, hm3, hn1, hn2, hn3] at hfields
      exact padded_append_lt (hhour m) (hhour n) (by decide) (Or.inl (by omega))
  | minute =>
      rw [hprecision] at hm hn
      obtain ⟨hm2, hm3⟩ := hm
      obtain ⟨hn2, hn3⟩ := hn
      rw [hm2, hm3, hn2, hn3] at hfields
      simp only [List.append_assoc]
      refine padded_append_lt (hhour m) (hhour n) (by decide)
        (hfields.imp_right fun h => ⟨h.1, List.append_left_lt ?_⟩)
      exact padded_append_lt (hminute m) (hminute n) (by decide) (Or.inl (by omega))
  | second digits =>
      rw [hprecision] at hm hn
      simp only [List.append_assoc]
      refine padded_append_lt (hhour m) (hhour n) (by decide)
        (hfields.imp_right fun h => ⟨h.1, List.append_left_lt ?_⟩)
      refine padded_append_lt (hminute m) (hminute n) (by decide)
        (h.2.imp_right fun h => ⟨h.1, List.append_left_lt ?_⟩)
      refine padded_append_lt (hsecond m) (hsecond n) (by decide)
        (h.2.imp_right fun h => ⟨h.1, ?_⟩)
      have hlength : m.fraction.length = n.fraction.length := hm.trans hn.symm
      have hfraction := lt_of_microseconds_lt m.fraction_digits n.fraction_digits hlength h.2
      have hne : n.fraction ≠ [] := by
        intro hnil
        rw [hnil] at hfraction
        exact List.not_lt_nil _ hfraction
      have hne' : m.fraction ≠ [] := by
        rwa [Ne, ← List.length_eq_zero_iff, hlength, List.length_eq_zero_iff]
      rw [fractionText, fractionText, if_neg hne, if_neg hne', List.cons_append, List.cons_append,
        List.cons_lt_cons_iff]
      exact Or.inr ⟨rfl, append_lt_append hlength (Or.inl hfraction)⟩

theorem clockOfDay_lt (m : Moment) : m.clockOfDay < microsecondsOfDay := by
  have hhour := m.hour_lt
  have hminute := m.minute_lt
  have hsecond := m.second_lt
  have hfraction := microseconds_lt m.fraction_digits
  unfold Moment.clockOfDay microsecondsOfDay
  omega

/-- The texts of a format are in the order of what the clocks show. -/
theorem lt_of_clock_lt (hm : m.Fits fmt.precision) (hn : n.Fits fmt.precision)
    (h : m.clock < n.clock) : render fmt m < render fmt n := by
  have hmday := clockOfDay_lt m
  have hnday := clockOfDay_lt n
  refine dateText_lt ?_
  rcases lt_trichotomy m.date.ordinal n.date.ordinal with hdate | hdate | hdate
  · exact Or.inl hdate
  · refine Or.inr ⟨Date.ordinal_injective hdate, ?_⟩
    rw [List.cons_lt_cons_iff]
    refine Or.inr ⟨rfl, clockText_lt hm hn ?_⟩
    unfold Moment.clock at h
    rw [hdate] at h
    omega
  · unfold Moment.clock microsecondsOfDay at *
    omega

end Order

section Instants

/-- The instants that a date and a time of day can say. -/
def InRange (instant : Int) : Prop := 0 ≤ instant ∧ instant < limit * microsecondsOfDay

instance (instant : Int) : Decidable (InRange instant) := by
  unfold InRange
  infer_instance

/-- An instant, to the second. -/
def Moment.ofInstant (instant : Int) (h : InRange instant) : Moment where
  date := Date.ofOrdinal (instant.toNat / microsecondsOfDay) (by
    unfold InRange limit microsecondsOfDay at *
    omega)
  hour := instant.toNat % microsecondsOfDay / 3600000000
  minute := instant.toNat / 60000000 % 60
  second := instant.toNat / 1000000 % 60
  fraction := []
  hour_lt := by
    unfold microsecondsOfDay
    omega
  minute_lt := Nat.mod_lt _ (by decide)
  second_lt := Nat.mod_lt _ (by decide)
  fraction_digits c hc := by cases hc

theorem clock_ofInstant {instant : Int} (h : InRange instant) :
    (Moment.ofInstant instant h).clock = instant / 1000000 * 1000000 := by
  have hfraction : microseconds [] = 0 := rfl
  unfold Moment.clock Moment.clockOfDay Moment.ofInstant
  simp only [Date.ordinal_ofOrdinal, hfraction]
  unfold InRange microsecondsOfDay at *
  omega

/-- `"%Y-%m-%dT%H:%M:%SZ"` -/
def utcFormat : Format where
  dashes := true
  separator := 'T'
  colons := true
  precision := .second 0
  point := '.'
  zone := ['Z']
  point_valid := Or.inl rfl
  zone_valid := rfl

def strftime (instant : Int) (h : InRange instant) : Str :=
  render utcFormat (Moment.ofInstant instant h)

/-- A written instant is read back, to the second. -/
theorem fromIsoFormat_strftime {instant : Int} (h : InRange instant) :
    fromIsoFormat (strftime instant h) = some ⟨instant / 1000000 * 1000000, some 0⟩ := by
  have hfits : (Moment.ofInstant instant h).Fits utcFormat.precision := List.length_nil
  have hzone : readZone utcFormat.zone = some (some 0) := rfl
  rw [strftime, fromIsoFormat_render hfits hzone, clock_ofInstant]

theorem fromIsoFormat_nil : fromIsoFormat [] = none := rfl

theorem strftime_ne_nil {instant : Int} (h : InRange instant) : strftime instant h ≠ [] := by
  intro hnil
  have hread := fromIsoFormat_strftime h
  rw [hnil, fromIsoFormat_nil] at hread
  exact Option.some_ne_none _ hread.symm

end Instants

end IsoFormat
end Foundation
