import Mathlib.Tactic

/-!
# Dates and their numbers

The days are numbered from the first of January of the year 1.  A date is a valid triple
of a year, a month and a day; every number below that of the year 10000 has one.

**Results.**
* `ordinal_ofOrdinal`: the date of a number has that number.
* `ordinal_lt_limit`: the numbers of the dates.
* `ordinal_injective`: a number has one date.
* `lt_of_ordinal_lt`: the dates are in the order of their years, months and days.
-/

namespace Foundation
namespace Calendar

section Years

def isLeap (year : Nat) : Bool := year % 4 = 0 ∧ (year % 100 ≠ 0 ∨ year % 400 = 0)

/-- The days of the years before. -/
def daysBeforeYear (year : Nat) : Nat :=
  (year - 1) * 365 + (year - 1) / 4 - (year - 1) / 100 + (year - 1) / 400

theorem daysBeforeYear_succ {year : Nat} (h : 1 ≤ year) :
    daysBeforeYear (year + 1) = daysBeforeYear year + if isLeap year then 366 else 365 := by
  obtain ⟨y, rfl⟩ := Nat.exists_eq_add_of_le' h
  have hle : y / 100 ≤ y / 4 := Nat.div_le_div_left (by decide) (by decide)
  unfold daysBeforeYear
  rw [Nat.add_sub_cancel, Nat.add_sub_cancel, Nat.succ_div, Nat.succ_div, Nat.succ_div]
  by_cases h4 : 4 ∣ y + 1
  · by_cases h100 : 100 ∣ y + 1
    · by_cases h400 : 400 ∣ y + 1
      · have hleap : isLeap (y + 1) = true := by
          rw [isLeap, decide_eq_true_iff]
          omega
        rw [if_pos h4, if_pos h100, if_pos h400, if_pos hleap]
        omega
      · have hleap : ¬ isLeap (y + 1) = true := by
          rw [isLeap, decide_eq_true_iff]
          omega
        rw [if_pos h4, if_pos h100, if_neg h400, if_neg hleap]
        omega
    · have hleap : isLeap (y + 1) = true := by
        rw [isLeap, decide_eq_true_iff]
        omega
      rw [if_pos h4, if_neg h100, if_neg (by omega), if_pos hleap]
      omega
  · have hleap : ¬ isLeap (y + 1) = true := by
      rw [isLeap, decide_eq_true_iff]
      omega
    rw [if_neg h4, if_neg (by omega), if_neg (by omega), if_neg hleap]
    omega

theorem daysBeforeYear_mono {y z : Nat} (hy : 1 ≤ y) (h : y ≤ z) :
    daysBeforeYear y ≤ daysBeforeYear z := by
  induction h with
  | refl => exact le_rfl
  | @step z hle ih =>
      rw [Nat.succ_eq_add_one, daysBeforeYear_succ (hy.trans hle)]
      exact ih.trans (Nat.le_add_right _ _)

/-- The year after four hundreds, hundreds, fours and ones of years. -/
def yearAfter (n400 n100 n4 n1 : Nat) : Nat := n400 * 400 + n100 * 100 + n4 * 4 + n1 + 1

section Parts

variable {n400 n100 n4 n1 : Nat}

theorem daysBeforeYear_yearAfter (h100 : n100 ≤ 3) (h4 : n4 ≤ 24) (h1 : n1 ≤ 3) :
    daysBeforeYear (yearAfter n400 n100 n4 n1) =
      n400 * 146097 + n100 * 36524 + n4 * 1461 + n1 * 365 := by
  unfold daysBeforeYear yearAfter
  rw [Nat.add_sub_cancel]
  have hdiv4 : (n400 * 400 + n100 * 100 + n4 * 4 + n1) / 4 = n400 * 100 + n100 * 25 + n4 := by
    omega
  have hdiv100 : (n400 * 400 + n100 * 100 + n4 * 4 + n1) / 100 = n400 * 4 + n100 := by omega
  have hdiv400 : (n400 * 400 + n100 * 100 + n4 * 4 + n1) / 400 = n400 := by omega
  rw [hdiv4, hdiv100, hdiv400]
  omega

theorem isLeap_yearAfter (h100 : n100 ≤ 3) (h4 : n4 ≤ 24) (h1 : n1 ≤ 3) :
    isLeap (yearAfter n400 n100 n4 n1) = true ↔ n1 = 3 ∧ (n4 ≠ 24 ∨ n100 = 3) := by
  have hmod4 : yearAfter n400 n100 n4 n1 % 4 = (n1 + 1) % 4 := by
    unfold yearAfter
    omega
  have hmod100 : yearAfter n400 n100 n4 n1 % 100 = (n4 * 4 + n1 + 1) % 100 := by
    unfold yearAfter
    omega
  have hmod400 : yearAfter n400 n100 n4 n1 % 400 = (n100 * 100 + n4 * 4 + n1 + 1) % 400 := by
    unfold yearAfter
    omega
  rw [isLeap, decide_eq_true_iff, hmod4, hmod100, hmod400]
  omega

end Parts

/-- The year of a day, and the day in that year. -/
def yearOf (n : Nat) : Nat × Nat :=
  let n400 := n / 146097
  let n := n % 146097
  let n100 := min (n / 36524) 3
  let n := n - n100 * 36524
  let n4 := n / 1461
  let n := n % 1461
  let n1 := min (n / 365) 3
  (yearAfter n400 n100 n4 n1, n - n1 * 365)

theorem yearOf_spec (n : Nat) :
    1 ≤ (yearOf n).1 ∧ daysBeforeYear (yearOf n).1 + (yearOf n).2 = n ∧
      (yearOf n).2 < if isLeap (yearOf n).1 then 366 else 365 := by
  have hparts : ∀ n400 n100 n4 n1 day, n100 ≤ 3 → n4 ≤ 24 → n1 ≤ 3 →
      n400 * 146097 + n100 * 36524 + n4 * 1461 + n1 * 365 + day = n →
      (day < 365 ∨ day = 365 ∧ n1 = 3 ∧ (n4 ≠ 24 ∨ n100 = 3)) →
      1 ≤ yearAfter n400 n100 n4 n1 ∧ daysBeforeYear (yearAfter n400 n100 n4 n1) + day = n ∧
        day < if isLeap (yearAfter n400 n100 n4 n1) then 366 else 365 := by
    intro n400 n100 n4 n1 day h100 h4 h1 hsum hday
    refine ⟨Nat.le_add_left _ _, ?_, ?_⟩
    · rw [daysBeforeYear_yearAfter h100 h4 h1, hsum]
    · rcases hday with hday | ⟨rfl, hleap⟩
      · split_ifs <;> omega
      · rw [if_pos ((isLeap_yearAfter h100 h4 h1).mpr hleap)]
        decide
  simp only [yearOf]
  exact hparts _ _ _ _ _ (by omega) (by omega) (by omega) (by omega) (by omega)

end Years

section Months

/-- The months of a year, by their lengths. -/
def monthLengths (year : Nat) : List Nat :=
  [31, if isLeap year then 29 else 28, 31, 30, 31, 30, 31, 31, 30, 31, 30, 31]

/-- The place of a day in some lengths: the length it falls in, and the days of that before it. -/
def placeIn : List Nat → Nat → Nat × Nat
  | [], day => (0, day)
  | length :: lengths, day =>
      if day < length then (0, day)
      else ((placeIn lengths (day - length)).1 + 1, (placeIn lengths (day - length)).2)

theorem placeIn_spec :
    ∀ {lengths : List Nat} {day : Nat}, day < lengths.sum →
      (placeIn lengths day).1 < lengths.length ∧
      (placeIn lengths day).2 < lengths.getD (placeIn lengths day).1 0 ∧
      (lengths.take (placeIn lengths day).1).sum + (placeIn lengths day).2 = day
  | [], _, h => by simp at h
  | length :: lengths, day, h => by
      rw [List.sum_cons] at h
      unfold placeIn
      split_ifs with hday
      · exact ⟨Nat.succ_pos _, hday, Nat.zero_add day⟩
      · obtain ⟨hplace, hrest, hsum⟩ :=
          placeIn_spec (show day - length < lengths.sum by omega)
        refine ⟨Nat.succ_lt_succ hplace, hrest, ?_⟩
        rw [List.take_succ_cons, List.sum_cons]
        omega

theorem sum_take_add_lt {lengths : List Nat} {i j day : Nat} (hij : i < j)
    (hday : day < lengths.getD i 0) : (lengths.take i).sum + day < (lengths.take j).sum := by
  induction lengths generalizing i j with
  | nil => simp at hday
  | cons length lengths ih =>
      obtain ⟨j, rfl⟩ := Nat.exists_eq_add_of_lt hij
      cases i with
      | zero =>
          rw [Nat.zero_add, List.take_zero, List.take_succ_cons, List.sum_nil, List.sum_cons]
          rw [List.getD_cons_zero] at hday
          omega
      | succ i =>
          rw [List.getD_cons_succ] at hday
          have hrest := ih (i := i) (j := i + j + 1) (by omega) hday
          have hsucc : i + 1 + j + 1 = (i + j + 1) + 1 := by omega
          rw [hsucc, List.take_succ_cons, List.take_succ_cons, List.sum_cons, List.sum_cons]
          omega

theorem sum_monthLengths (year : Nat) :
    (monthLengths year).sum = if isLeap year then 366 else 365 := by
  unfold monthLengths
  split_ifs <;> rfl

theorem length_monthLengths (year : Nat) : (monthLengths year).length = 12 := rfl

theorem length_le_thirty_one {year month : Nat} : (monthLengths year).getD month 0 ≤ 31 := by
  have hall : ∀ length ∈ monthLengths year, length ≤ 31 := by
    unfold monthLengths
    split_ifs <;> decide
  rw [List.getD_eq_getElem?_getD]
  cases hlength : (monthLengths year)[month]? with
  | none => exact Nat.zero_le 31
  | some length => exact hall length (List.mem_of_getElem? hlength)

end Months

section Dates

@[ext] structure Date where
  year : Nat
  month : Nat
  day : Nat
  year_valid : 1 ≤ year ∧ year ≤ 9999
  month_valid : 1 ≤ month ∧ month ≤ 12
  day_valid : 1 ≤ day ∧ day ≤ (monthLengths year).getD (month - 1) 0

def dateOf (year month day : Nat) : Option Date :=
  if h : (1 ≤ year ∧ year ≤ 9999) ∧ (1 ≤ month ∧ month ≤ 12) ∧
      1 ≤ day ∧ day ≤ (monthLengths year).getD (month - 1) 0 then
    some ⟨year, month, day, h.1, h.2.1, h.2.2⟩
  else none

theorem dateOf_self (d : Date) : dateOf d.year d.month d.day = some d := by
  rw [dateOf, dif_pos ⟨d.year_valid, d.month_valid, d.day_valid⟩]

/-- The first day of the year 10000. -/
def limit : Nat := 3652059

namespace Date

def dayOfYear (d : Date) : Nat :=
  ((monthLengths d.year).take (d.month - 1)).sum + (d.day - 1)

def ordinal (d : Date) : Nat := daysBeforeYear d.year + d.dayOfYear

/-- The date of a number. -/
def ofOrdinal (n : Nat) (h : n < limit) : Date where
  year := (yearOf n).1
  month := (placeIn (monthLengths (yearOf n).1) (yearOf n).2).1 + 1
  day := (placeIn (monthLengths (yearOf n).1) (yearOf n).2).2 + 1
  year_valid := by
    obtain ⟨hyear, hsum, _⟩ := yearOf_spec n
    refine ⟨hyear, ?_⟩
    by_contra hlarge
    have hmono := daysBeforeYear_mono (y := 10000) (by decide) (not_le.mp hlarge)
    have hlimit : daysBeforeYear 10000 = limit := rfl
    omega
  month_valid := by
    obtain ⟨_, _, hday⟩ := yearOf_spec n
    have hplace := placeIn_spec ((sum_monthLengths (yearOf n).1).symm ▸ hday)
    rw [length_monthLengths] at hplace
    omega
  day_valid := by
    obtain ⟨_, _, hday⟩ := yearOf_spec n
    have hplace := placeIn_spec ((sum_monthLengths (yearOf n).1).symm ▸ hday)
    rw [Nat.add_sub_cancel]
    omega

theorem ordinal_ofOrdinal {n : Nat} (h : n < limit) : (ofOrdinal n h).ordinal = n := by
  obtain ⟨_, hsum, hday⟩ := yearOf_spec n
  have hplace := placeIn_spec ((sum_monthLengths (yearOf n).1).symm ▸ hday)
  unfold ordinal dayOfYear ofOrdinal
  rw [Nat.add_sub_cancel, Nat.add_sub_cancel, hplace.2.2]
  exact hsum

theorem dayOfYear_lt (d : Date) : d.dayOfYear < if isLeap d.year then 366 else 365 := by
  have hmonth := d.month_valid
  have hday := d.day_valid
  have hlt : d.dayOfYear < ((monthLengths d.year).take 12).sum :=
    sum_take_add_lt (by omega) (by omega)
  have hall : (monthLengths d.year).take 12 = monthLengths d.year := rfl
  rw [hall, sum_monthLengths] at hlt
  exact hlt

theorem ordinal_lt_of_year_lt {d e : Date} (h : d.year < e.year) : d.ordinal < e.ordinal := by
  have hday := d.dayOfYear_lt
  have hsucc := daysBeforeYear_succ d.year_valid.1
  have hmono := daysBeforeYear_mono (y := d.year + 1) (by omega) h
  unfold ordinal
  omega

theorem ordinal_lt_limit (d : Date) : d.ordinal < limit := by
  have hday := d.dayOfYear_lt
  have hsucc := daysBeforeYear_succ d.year_valid.1
  have hmono := daysBeforeYear_mono (y := d.year + 1) (z := 10000) (by omega)
    (Nat.succ_le_succ d.year_valid.2)
  have hlimit : daysBeforeYear 10000 = limit := rfl
  unfold ordinal
  omega

theorem ordinal_lt_of_month_lt {d e : Date} (hyear : d.year = e.year) (h : d.month < e.month) :
    d.ordinal < e.ordinal := by
  have hday := d.day_valid
  have hmonth := d.month_valid
  have hlt : d.dayOfYear < ((monthLengths d.year).take (e.month - 1)).sum :=
    sum_take_add_lt (by omega) (by omega)
  unfold dayOfYear at hlt
  unfold ordinal dayOfYear
  rw [← hyear]
  omega

theorem ordinal_lt_of_day_lt {d e : Date} (hyear : d.year = e.year) (hmonth : d.month = e.month)
    (h : d.day < e.day) : d.ordinal < e.ordinal := by
  have hday := d.day_valid
  unfold ordinal dayOfYear
  rw [← hyear, ← hmonth]
  omega

/-- The date with the smaller number is the smaller one, field by field. -/
theorem lt_of_ordinal_lt {d e : Date} (h : d.ordinal < e.ordinal) :
    d.year < e.year ∨ d.year = e.year ∧
      (d.month < e.month ∨ d.month = e.month ∧ d.day < e.day) := by
  rcases lt_trichotomy d.year e.year with hyear | hyear | hyear
  · exact Or.inl hyear
  · refine Or.inr ⟨hyear, ?_⟩
    rcases lt_trichotomy d.month e.month with hmonth | hmonth | hmonth
    · exact Or.inl hmonth
    · refine Or.inr ⟨hmonth, ?_⟩
      rcases lt_trichotomy d.day e.day with hday | hday | hday
      · exact hday
      · rw [Date.ext hyear hmonth hday] at h
        exact absurd h (lt_irrefl _)
      · exact absurd (ordinal_lt_of_day_lt hyear.symm hmonth.symm hday) h.asymm
    · exact absurd (ordinal_lt_of_month_lt hyear.symm hmonth) h.asymm
  · exact absurd (ordinal_lt_of_year_lt hyear) h.asymm

theorem ordinal_injective {d e : Date} (h : d.ordinal = e.ordinal) : d = e := by
  have hfields : ∀ {d e : Date}, d.ordinal = e.ordinal → ¬ (d.year < e.year ∨
      d.year = e.year ∧ (d.month < e.month ∨ d.month = e.month ∧ d.day < e.day)) := by
    rintro d e h (hlt | ⟨hyear, hlt | ⟨hmonth, hlt⟩⟩)
    · exact (ordinal_lt_of_year_lt hlt).ne h
    · exact (ordinal_lt_of_month_lt hyear hlt).ne h
    · exact (ordinal_lt_of_day_lt hyear hmonth hlt).ne h
  have hde := hfields h
  have hed := hfields h.symm
  exact Date.ext (by omega) (by omega) (by omega)

theorem month_le (d : Date) : d.month ≤ 12 := d.month_valid.2

theorem day_le (d : Date) : d.day ≤ 31 := d.day_valid.2.trans length_le_thirty_one

end Date

end Dates

end Calendar
end Foundation
