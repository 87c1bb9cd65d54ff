import Mathlib.Data.List.Basic
import Std.Data.String.ToInt
import Std.Data.String.ToNat

/-!
# Civil dates

The year, the month and the day of a day number in the proleptic Gregorian calendar, and their
text. The text determines the day number.
-/

namespace AgentOdometer

/-- A date of the calendar. -/
@[ext]
structure CivilDate where
  year : Int
  month : Nat
  day : Nat
deriving Repr, DecidableEq

namespace CivilDate

/-- The days from the first of March before the first day of an era of 400 years. -/
def dayOfEra (days : Int) : Int :=
  (days + 719468) % 146097

/-- The centuries of an era before a day; the last one is a day longer. -/
def century (days : Int) : Int :=
  min (dayOfEra days / 36524) 3

/-- The leap cycles of a century before a day. -/
def cycle (days : Int) : Int :=
  (dayOfEra days - 36524 * century days) / 1461

/-- The years of a leap cycle before a day; a year begins in March and the last one is a day
longer. -/
def yearOfCycle (days : Int) : Int :=
  min ((dayOfEra days - 36524 * century days - 1461 * cycle days) / 365) 3

/-- The days from the first of March. -/
def dayOfYear (days : Int) : Int :=
  dayOfEra days - 36524 * century days - 1461 * cycle days - 365 * yearOfCycle days

/-- The months from March. -/
def monthIndex (days : Int) : Int :=
  (5 * dayOfYear days + 2) / 153

/-- The date of a day number, which counts from the first of January 1970. -/
def ofDays (days : Int) : CivilDate where
  year := 400 * ((days + 719468) / 146097) + 100 * century days + 4 * cycle days +
    yearOfCycle days + (monthIndex days + 2) / 12
  month := ((monthIndex days + 2) % 12 + 1).toNat
  day := (dayOfYear days - (153 * monthIndex days + 2) / 5 + 1).toNat

theorem dayOfEra_bounds (days : Int) : 0 ≤ dayOfEra days ∧ dayOfEra days ≤ 146096 := by
  unfold dayOfEra
  omega

theorem century_bounds (days : Int) : 0 ≤ century days ∧ century days ≤ 3 ∧
    0 ≤ dayOfEra days - 36524 * century days ∧
    dayOfEra days - 36524 * century days ≤ 36524 := by
  have hera := dayOfEra_bounds days
  unfold century
  omega

theorem cycle_bounds (days : Int) : 0 ≤ cycle days ∧ cycle days ≤ 24 ∧
    0 ≤ dayOfEra days - 36524 * century days - 1461 * cycle days ∧
    dayOfEra days - 36524 * century days - 1461 * cycle days ≤ 1460 := by
  have hcentury := century_bounds days
  unfold cycle
  omega

theorem dayOfYear_bounds (days : Int) : 0 ≤ yearOfCycle days ∧ yearOfCycle days ≤ 3 ∧
    0 ≤ dayOfYear days ∧ dayOfYear days ≤ 365 := by
  have hcycle := cycle_bounds days
  unfold dayOfYear yearOfCycle
  omega

theorem monthIndex_bounds (days : Int) : 0 ≤ monthIndex days ∧ monthIndex days ≤ 11 ∧
    0 ≤ dayOfYear days - (153 * monthIndex days + 2) / 5 ∧
    dayOfYear days - (153 * monthIndex days + 2) / 5 ≤ 30 := by
  have hyear := dayOfYear_bounds days
  unfold monthIndex
  omega

theorem month_lt (days : Int) : (ofDays days).month < 32 := by
  simp only [ofDays]
  omega

theorem day_lt (days : Int) : (ofDays days).day < 32 := by
  have hindex := monthIndex_bounds days
  simp only [ofDays]
  omega

/-- The date determines the day number. -/
theorem ofDays_injective : Function.Injective ofDays := by
  intro a b h
  have hyear := congrArg year h
  have hmonth := congrArg month h
  have hday := congrArg day h
  simp only [ofDays] at hyear hmonth hday
  have hindexa := monthIndex_bounds a
  have hindexb := monthIndex_bounds b
  have hindex : monthIndex a = monthIndex b := by omega
  rw [hindex] at hday hyear hindexa
  have hdayOfYear : dayOfYear a = dayOfYear b := by omega
  have hcentury := century_bounds a
  have hcentury' := century_bounds b
  have hcycle := cycle_bounds a
  have hcycle' := cycle_bounds b
  have hyearOfCycle := dayOfYear_bounds a
  have hyearOfCycle' := dayOfYear_bounds b
  have hera : (a + 719468) / 146097 = (b + 719468) / 146097 := by omega
  have hdays : dayOfEra a = dayOfEra b := by
    unfold dayOfYear at hdayOfYear
    omega
  unfold dayOfEra at hdays
  omega

/-! ### Texts -/

/-- `String(n).padStart(2, '0')`. -/
def padTwo (n : Nat) : String :=
  if n < 10 then "0" ++ toString n else toString n

/-- The year and the month. -/
def monthText (date : CivilDate) : String :=
  toString date.year ++ "-" ++ padTwo date.month

/-- The year, the month and the day. -/
def text (date : CivilDate) : String :=
  monthText date ++ "-" ++ padTwo date.day

theorem length_padTwo : ∀ n < 32, (padTwo n).toList.length = 2 := by
  decide +kernel

theorem padTwo_injective : ∀ m < 32, ∀ n < 32, (padTwo m).toList = (padTwo n).toList → m = n := by
  decide +kernel

/-- The text of a date determines the day number. -/
theorem text_ofDays_injective {a b : Int} (h : (ofDays a).text = (ofDays b).text) : a = b := by
  have hchars := congrArg String.toList h
  simp only [text, monthText, String.toList_append, List.append_assoc] at hchars
  obtain ⟨hyear, hrest⟩ := List.append_inj' hchars (by
    simp only [List.length_append, length_padTwo _ (month_lt _), length_padTwo _ (day_lt _)])
  obtain ⟨hmonth, hrest⟩ := List.append_inj (List.append_cancel_left hrest) (by
    rw [length_padTwo _ (month_lt a), length_padTwo _ (month_lt b)])
  have hday := List.append_cancel_left hrest
  apply ofDays_injective
  ext1
  · exact Int.repr_injective (String.toList_injective hyear)
  · exact padTwo_injective _ (month_lt a) _ (month_lt b) hmonth
  · exact padTwo_injective _ (day_lt a) _ (day_lt b) hday

example : (ofDays 20663).text = "2026-07-29" := by
  decide +kernel

end CivilDate

end AgentOdometer
