import Mathlib.Data.Char
import Mathlib.Data.List.Lex
import Mathlib.Data.List.ReduceOption
import BookingPlatform.Basic
import BookingPlatform.Lib.Calendar

/-!
# Dates

The dates of a request: what `shared.requests.ts` accepts as a date, and how
`utils.ts` reads it as an instant and prints an instant as a date.

## Main definitions

* `DateString`, `dateStringSchema` — the dates that a request may name.
* `parseUtcDate`, `endDateExclusive` — the ends of a window as instants.
* `sendInstants` — the instants that the database takes as parameters.
* `toISOString`, `formatUtcDate` — instants in print.
-/

namespace BookingPlatform

/-- `w` decimal digits of a number, most significant first. -/
def decimalDigits : ℕ → ℕ → List Char
  | 0, _ => []
  | w + 1, n => decimalDigits w (n / 10) ++ [Nat.digitChar (n % 10)]

/-- What `dateStringSchema` accepts: four, two and two decimal digits. -/
@[ext]
structure DateString where
  year : ℕ
  month : ℕ
  day : ℕ
  year_lt : year < 10000
  month_lt : month < 100
  day_lt : day < 100
  deriving DecidableEq

namespace DateString

/-- `YYYY-MM-DD`. -/
def toChars (date : DateString) : List Char :=
  decimalDigits 4 date.year ++ '-' :: decimalDigits 2 date.month ++
    '-' :: decimalDigits 2 date.day

/-- Dates are compared as strings. -/
instance : LE DateString := ⟨fun a b => a.toChars ≤ b.toChars⟩

/-- Whether a date comes before another can be decided. -/
instance (a b : DateString) : Decidable (a ≤ b) :=
  inferInstanceAs (Decidable (a.toChars ≤ b.toChars))

/-- A date of the calendar. -/
def Valid (date : DateString) : Prop :=
  1 ≤ date.month ∧ date.month ≤ 12 ∧ 1 ≤ date.day ∧
    date.day ≤ Calendar.daysInMonth date.year date.month

/-- Whether a date is a calendar date can be decided. -/
instance (date : DateString) : Decidable date.Valid := inferInstanceAs (Decidable (_ ∧ _ ∧ _ ∧ _))

end DateString

/-- The regular expression of `dateStringSchema`. -/
def dateStringSchema : List Char → Bool
  | [y₁, y₂, y₃, y₄, h₁, m₁, m₂, h₂, d₁, d₂] =>
    [y₁, y₂, y₃, y₄, m₁, m₂, d₁, d₂].all Char.isDigit && h₁ == '-' && h₂ == '-'
  | _ => false

/-- `Date.parse` of a date at midnight UTC.  A day past the end of its month, up
to the 31st, is where engines differ: `rollsOver` tells whether this one rolls it
into the next month or rejects it. -/
def parseUtcDate (rollsOver : DateString → Bool) (date : DateString) : Option Instant :=
  if date.Valid ∨ (rollsOver date ∧ 1 ≤ date.month ∧ date.month ≤ 12 ∧ 1 ≤ date.day ∧
      date.day ≤ 31) then
    some (Calendar.daysFromCivil date.year date.month date.day * Calendar.msPerDay)
  else none

/-- The instant a day after the start of the date. -/
def endDateExclusive (rollsOver : DateString → Bool) (date : DateString) : Option Instant :=
  (parseUtcDate rollsOver date).map fun end_ => end_ + Calendar.msPerDay

/-- The first instant that the database reads in a parameter: it knows no year 0. -/
def firstTimestamp : Instant := Calendar.daysFromCivil 1 1 1 * Calendar.msPerDay

/-- The instants among the parameters of a statement. -/
def sendInstants (ts : List Instant) : Except Failure Unit :=
  throwIf (∃ t ∈ ts, t < firstTimestamp) (.db .datetimeFieldOverflow)

theorem sendInstants_eq_ok {ts : List Instant} {u : Unit} :
    sendInstants ts = .ok u ↔ ∀ t ∈ ts, firstTimestamp ≤ t := by
  rw [sendInstants, throwIf_eq_ok]
  simp only [not_exists, not_and, not_lt]

/-- Parameters that may be left out. -/
theorem sendInstants_reduceOption_eq_ok {ts : List (Option Instant)} {u : Unit} :
    sendInstants ts.reduceOption = .ok u ↔ ∀ o ∈ ts, ∀ t ∈ o, firstTimestamp ≤ t := by
  simp only [sendInstants_eq_ok, List.reduceOption_mem_iff]
  constructor
  · intro h o ho t ht
    exact h t (ht ▸ ho)
  · intro h t ht
    exact h _ ht t rfl

/-! ### `Date` -/

/-- The day of the month of an instant. -/
def getUTCDate (t : Instant) : ℤ := (Calendar.civilFromDays (t / Calendar.msPerDay)).2.2

/-- `t.setUTCDate(date)`: the month of `t` and its time of day stay. -/
def setUTCDate (t : Instant) (date : ℤ) : Instant :=
  let (year, month, _) := Calendar.civilFromDays (t / Calendar.msPerDay)
  Calendar.daysFromCivil year month date * Calendar.msPerDay + t % Calendar.msPerDay

/-- **The end of a date is what `setUTCDate` computes from it.** -/
theorem endDateExclusive_eq (rollsOver : DateString → Bool) (date : DateString) :
    endDateExclusive rollsOver date
      = (parseUtcDate rollsOver date).map fun end_ => setUTCDate end_ (getUTCDate end_ + 1) := by
  unfold endDateExclusive
  congr 1
  funext end_
  have hday := (Calendar.civilFromDays_spec (end_ / Calendar.msPerDay)).2
  rw [Calendar.daysFromCivil_day] at hday
  have hnext : Calendar.daysFromCivil (Calendar.civilFromDays (end_ / Calendar.msPerDay)).1
      (Calendar.civilFromDays (end_ / Calendar.msPerDay)).2.1 (getUTCDate end_ + 1)
        = end_ / Calendar.msPerDay + 1 := by
    rw [Calendar.daysFromCivil_day, getUTCDate]
    omega
  have hset : setUTCDate end_ (getUTCDate end_ + 1) =
      (end_ / Calendar.msPerDay + 1) * Calendar.msPerDay + end_ % Calendar.msPerDay :=
    congrArg (fun day => day * Calendar.msPerDay + end_ % Calendar.msPerDay) hnext
  rw [hset, add_mul, one_mul, add_right_comm, Int.ediv_mul_add_emod]

/-- The year in an ISO string: four digits, or a sign and six. -/
def isoYear (year : ℤ) : List Char :=
  if 0 ≤ year ∧ year ≤ 9999 then decimalDigits 4 year.toNat
  else (if year < 0 then '-' else '+') :: decimalDigits 6 year.natAbs

/-- `date.toISOString()` of an instant that a `Date` can hold. -/
def toISOString (t : Instant) : List Char :=
  let (year, month, day) := Calendar.civilFromDays (t / Calendar.msPerDay)
  let ms := (t % Calendar.msPerDay).toNat
  isoYear year ++ '-' :: decimalDigits 2 month.toNat ++ '-' :: decimalDigits 2 day.toNat ++
    'T' :: decimalDigits 2 (ms / 3600000) ++ ':' :: decimalDigits 2 (ms / 60000 % 60) ++
    ':' :: decimalDigits 2 (ms / 1000 % 60) ++ '.' :: decimalDigits 3 (ms % 1000) ++ ['Z']

/-- The calendar date of an instant. -/
def formatUtcDate (t : Instant) : List Char := (toISOString t).take 10

example : formatUtcDate (-1) = "1969-12-31".toList := by decide

end BookingPlatform
