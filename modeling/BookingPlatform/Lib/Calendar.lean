import Mathlib.Tactic

/-!
# The proleptic Gregorian calendar

Days are counted from 1970-01-01.  Years start in March inside the arithmetic,
so that the leap day is the last day of a year and the lengths of the months
follow one linear formula.

## Main definitions

* `daysFromCivil`, `civilFromDays` — a date as a number of days, and back.
* `IsDate` — the dates of the calendar.
* `nextDate` — the date after a date.

## Main results

* `daysFromCivil_nextMonth` — a month begins when the one before it is over.
* `daysFromCivil_lt_iff` — later dates have larger numbers.
* `civilFromDays_spec` — every day has a date, whose number is the day.
* `daysFromCivil_nextDate` — the date after a date is the next day.
-/

namespace Calendar

/-- Milliseconds in a day. -/
def msPerDay : ℤ := 86400000

/-- A year with 366 days. -/
def isLeap (y : ℤ) : Bool := y % 4 == 0 && (y % 100 != 0 || y % 400 == 0)

/-- The number of days of a month. -/
def daysInMonth (y m : ℤ) : ℤ :=
  if m = 2 then if isLeap y then 29 else 28
  else if m = 4 ∨ m = 6 ∨ m = 9 ∨ m = 11 then 30
  else 31

/-- The number of the day `d` of month `m` of year `y`. -/
def daysFromCivil (y m d : ℤ) : ℤ :=
  let y' := if m ≤ 2 then y - 1 else y
  let era := y' / 400
  let yoe := y' % 400
  let mp := if m ≤ 2 then m + 9 else m - 3
  let doy := (153 * mp + 2) / 5 + d - 1
  let doe := yoe * 365 + yoe / 4 - yoe / 100 + doy
  era * 146097 + doe - 719468

/-- The year, month and day of a day number. -/
def civilFromDays (n : ℤ) : ℤ × ℤ × ℤ :=
  let z := n + 719468
  let era := z / 146097
  let doe := z % 146097
  let yoe := (doe - doe / 1460 + doe / 36524 - doe / 146096) / 365
  let doy := doe - (365 * yoe + yoe / 4 - yoe / 100)
  let mp := (5 * doy + 2) / 153
  let d := doy - (153 * mp + 2) / 5 + 1
  let m := if mp < 10 then mp + 3 else mp - 9
  (yoe + era * 400 + if m ≤ 2 then 1 else 0, m, d)

/-- The month, counted from 1, in which an instant falls. -/
def monthOf (t : ℤ) : ℤ := (civilFromDays (t / msPerDay)).2.1

/-! ### Years and months -/

theorem isLeap_iff {y : ℤ} : isLeap y = true ↔ y % 4 = 0 ∧ (y % 100 ≠ 0 ∨ y % 400 = 0) := by
  simp [isLeap]

/-- The days before March of a year, counted from March of the year 0. -/
def yearStart (y : ℤ) : ℤ := 365 * y + y / 4 - y / 100 + y / 400

theorem yearStart_succ (y : ℤ) :
    yearStart y = yearStart (y - 1) + if isLeap y then 366 else 365 := by
  -- a quotient moves exactly at the multiples of its divisor
  have h₄ : y / 4 = (y - 1) / 4 + if y % 4 = 0 then 1 else 0 := by split <;> omega
  have h₁₀₀ : y / 100 = (y - 1) / 100 + if y % 100 = 0 then 1 else 0 := by split <;> omega
  have h₄₀₀ : y / 400 = (y - 1) / 400 + if y % 400 = 0 then 1 else 0 := by split <;> omega
  have hdays : (if isLeap y then 366 else 365 : ℤ) = 365 + (if y % 4 = 0 then 1 else 0) -
      (if y % 100 = 0 then 1 else 0) + if y % 400 = 0 then 1 else 0 := by
    simp only [isLeap_iff]
    split <;> split <;> split <;> split <;> omega
  rw [hdays, yearStart, yearStart, h₄, h₁₀₀, h₄₀₀]
  ring

/-- The day before the first of a month, and the day of the month. -/
theorem daysFromCivil_eq (y m d : ℤ) :
    daysFromCivil y m d = yearStart (if m ≤ 2 then y - 1 else y) +
      (153 * (if m ≤ 2 then m + 9 else m - 3) + 2) / 5 + d - 719469 := by
  simp only [daysFromCivil, yearStart]
  omega

theorem daysFromCivil_day (y m d : ℤ) : daysFromCivil y m d = daysFromCivil y m 1 + (d - 1) := by
  simp only [daysFromCivil_eq]
  omega

/-- The month after a month. -/
def nextMonth (y m : ℤ) : ℤ × ℤ := if m < 12 then (y, m + 1) else (y + 1, 1)

theorem daysFromCivil_nextMonth {y m : ℤ} (h₁ : 1 ≤ m) (h₂ : m ≤ 12) :
    daysFromCivil (nextMonth y m).1 (nextMonth y m).2 1
      = daysFromCivil y m 1 + daysInMonth y m := by
  have hyear := yearStart_succ y
  simp only [daysFromCivil_eq, nextMonth, daysInMonth]
  interval_cases m <;> simp <;> try omega
  split at hyear <;> simp [*] <;> omega

theorem daysInMonth_bounds (y m : ℤ) : 28 ≤ daysInMonth y m ∧ daysInMonth y m ≤ 31 := by
  unfold daysInMonth
  split
  · split <;> omega
  · split <;> omega

/-- Only February has less than thirty days. -/
theorem thirty_le_daysInMonth {m : ℤ} (y : ℤ) (h : m ≠ 2) : 30 ≤ daysInMonth y m := by
  unfold daysInMonth
  rw [if_neg h]
  split <;> omega

/-! ### The order of the dates -/

/-- A date of the calendar. -/
def IsDate (y m d : ℤ) : Prop := 1 ≤ m ∧ m ≤ 12 ∧ 1 ≤ d ∧ d ≤ daysInMonth y m

/-- The first day of a month, by the number of the month. -/
def firstOfMonth (k : ℤ) : ℤ := daysFromCivil (k / 12) (k % 12 + 1) 1

theorem firstOfMonth_succ (k : ℤ) :
    firstOfMonth (k + 1) = firstOfMonth k + daysInMonth (k / 12) (k % 12 + 1) := by
  have hnext := daysFromCivil_nextMonth (y := k / 12) (m := k % 12 + 1) (by omega) (by omega)
  rw [firstOfMonth, firstOfMonth, ← hnext, nextMonth]
  split
  · have hdiv : (k + 1) / 12 = k / 12 := by omega
    have hmod : (k + 1) % 12 = k % 12 + 1 := by omega
    rw [hdiv, hmod]
  · have hdiv : (k + 1) / 12 = k / 12 + 1 := by omega
    have hmod : (k + 1) % 12 = 0 := by omega
    rw [hdiv, hmod]
    rfl

theorem firstOfMonth_mono : Monotone firstOfMonth := by
  refine monotone_int_of_le_succ fun k => ?_
  have hdays := (daysInMonth_bounds (k / 12) (k % 12 + 1)).1
  rw [firstOfMonth_succ]
  omega

theorem daysFromCivil_eq_firstOfMonth {y m : ℤ} (h₁ : 1 ≤ m) (h₂ : m ≤ 12) (d : ℤ) :
    daysFromCivil y m d = firstOfMonth (12 * y + (m - 1)) + (d - 1) := by
  have hdiv : (12 * y + (m - 1)) / 12 = y := by omega
  have hmod : (12 * y + (m - 1)) % 12 + 1 = m := by omega
  rw [firstOfMonth, hdiv, hmod]
  exact daysFromCivil_day y m d

/-- **Later dates have larger numbers.** -/
theorem daysFromCivil_lt {y m d y' m' d' : ℤ} (h : IsDate y m d) (h' : IsDate y' m' d')
    (hlt : y < y' ∨ y = y' ∧ (m < m' ∨ m = m' ∧ d < d')) :
    daysFromCivil y m d < daysFromCivil y' m' d' := by
  obtain ⟨h₁, h₂, -, hd⟩ := h
  obtain ⟨h₁', h₂', hd', -⟩ := h'
  rw [daysFromCivil_eq_firstOfMonth h₁ h₂, daysFromCivil_eq_firstOfMonth h₁' h₂']
  by_cases hmonth : y = y' ∧ m = m'
  · obtain ⟨rfl, rfl⟩ := hmonth
    omega
  · -- the month ends before the later one begins
    have hnext : 12 * y + (m - 1) + 1 ≤ 12 * y' + (m' - 1) := by omega
    have hmono := firstOfMonth_mono hnext
    have hdiv : (12 * y + (m - 1)) / 12 = y := by omega
    have hmod : (12 * y + (m - 1)) % 12 + 1 = m := by omega
    rw [firstOfMonth_succ, hdiv, hmod] at hmono
    omega

theorem daysFromCivil_lt_iff {y m d y' m' d' : ℤ} (h : IsDate y m d) (h' : IsDate y' m' d') :
    daysFromCivil y m d < daysFromCivil y' m' d' ↔
      y < y' ∨ y = y' ∧ (m < m' ∨ m = m' ∧ d < d') := by
  refine ⟨fun hlt => ?_, daysFromCivil_lt h h'⟩
  by_contra hnot
  by_cases heq : y = y' ∧ m = m' ∧ d = d'
  · obtain ⟨rfl, rfl, rfl⟩ := heq
    omega
  · have hgt := daysFromCivil_lt h' h (by omega)
    omega

/-! ### The date of a day -/

/-- Four hundred years are centuries, each of quadrennia, each of years; only the
last year of a quadrennium, and of four centuries, has a leap day. -/
theorem exists_yearOfEra {doe : ℤ} (h₀ : 0 ≤ doe) (h₁ : doe < 146097) :
    ∃ c q j s : ℤ, doe = 36524 * c + 1461 * q + 365 * j + s ∧ (0 ≤ c ∧ c ≤ 3) ∧
      (0 ≤ q ∧ q ≤ 24) ∧ (0 ≤ j ∧ j ≤ 3) ∧ 0 ≤ s ∧
      (s ≤ 364 ∨ s = 365 ∧ j = 3 ∧ (q < 24 ∨ c = 3)) := by
  have hc : ∃ c r : ℤ, doe = 36524 * c + r ∧ 0 ≤ c ∧ c ≤ 3 ∧ 0 ≤ r ∧
      (r < 36524 ∨ r = 36524 ∧ c = 3) := by
    by_cases hlast : doe = 146096
    · exact ⟨3, 36524, by omega, by omega, by omega, by omega, by omega⟩
    · exact ⟨doe / 36524, doe % 36524, by omega, by omega, by omega, by omega, by omega⟩
  obtain ⟨c, r, hdoe, hc₀, hc₁, hr₀, hr₁⟩ := hc
  by_cases hleap : r % 1461 = 1460
  · exact ⟨c, r / 1461, 3, 365, by omega, by omega, by omega, by omega, by omega, by omega⟩
  · exact ⟨c, r / 1461, r % 1461 / 365, r % 1461 % 365, by omega, by omega, by omega, by omega,
      by omega, by omega⟩

theorem yearOfEra_eq {c q j s : ℤ} (hc : 0 ≤ c ∧ c ≤ 3) (hq : 0 ≤ q ∧ q ≤ 24)
    (hj : 0 ≤ j ∧ j ≤ 3) (hs : 0 ≤ s) (hs' : s ≤ 364 ∨ s = 365 ∧ j = 3 ∧ (q < 24 ∨ c = 3)) {doe : ℤ}
    (h : doe = 36524 * c + 1461 * q + 365 * j + s) :
    (doe - doe / 1460 + doe / 36524 - doe / 146096) / 365 = 100 * c + 4 * q + j := by
  have hr : 1461 * q + 365 * j + s < 36524 ∨ 1461 * q + 365 * j + s = 36524 ∧ c = 3 := by omega
  have hcentury : doe / 36524 - doe / 146096 = c := by
    rcases hr with hr | ⟨hr, rfl⟩ <;> omega
  have hdays : doe / 1460 = 25 * c + q + (q + 365 * j + s + 24 * c) / 1460 := by omega
  omega

/-- The parts of the date, in terms of the parts of its era. -/
theorem civilFromDays_eq {c q j s n : ℤ} (hc : 0 ≤ c ∧ c ≤ 3) (hq : 0 ≤ q ∧ q ≤ 24)
    (hj : 0 ≤ j ∧ j ≤ 3) (hs : 0 ≤ s) (hs' : s ≤ 364 ∨ s = 365 ∧ j = 3 ∧ (q < 24 ∨ c = 3))
    (h : (n + 719468) % 146097 = 36524 * c + 1461 * q + 365 * j + s) :
    civilFromDays n =
      (100 * c + 4 * q + j + (n + 719468) / 146097 * 400 +
          (if (if (5 * s + 2) / 153 < 10 then (5 * s + 2) / 153 + 3 else (5 * s + 2) / 153 - 9) ≤ 2
            then 1 else 0),
        if (5 * s + 2) / 153 < 10 then (5 * s + 2) / 153 + 3 else (5 * s + 2) / 153 - 9,
        s - (153 * ((5 * s + 2) / 153) + 2) / 5 + 1) := by
  have hyoe := yearOfEra_eq hc hq hj hs hs' h
  have h₄ : (100 * c + 4 * q + j) / 4 = 25 * c + q := by omega
  have h₁₀₀ : (100 * c + 4 * q + j) / 100 = c := by omega
  have hdoy : 36524 * c + 1461 * q + 365 * j + s - (365 * (100 * c + 4 * q + j) +
      (100 * c + 4 * q + j) / 4 - (100 * c + 4 * q + j) / 100) = s := by
    rw [h₄, h₁₀₀]
    ring
  rw [h] at hyoe
  simp only [civilFromDays, h, hyoe, hdoy]

/-- The first day of a year of an era. -/
theorem yearStart_yearOfEra {c q j : ℤ} (era : ℤ) (hc : 0 ≤ c ∧ c ≤ 3) (hq : 0 ≤ q ∧ q ≤ 24)
    (hj : 0 ≤ j ∧ j ≤ 3) : yearStart (100 * c + 4 * q + j + era * 400)
      = 146097 * era + 36524 * c + 1461 * q + 365 * j := by
  have h₄ : (100 * c + 4 * q + j + era * 400) / 4 = 100 * era + 25 * c + q := by omega
  have h₁₀₀ : (100 * c + 4 * q + j + era * 400) / 100 = 4 * era + c := by omega
  have h₄₀₀ : (100 * c + 4 * q + j + era * 400) / 400 = era := by omega
  rw [yearStart, h₄, h₁₀₀, h₄₀₀]
  ring

/-- **Every day has a date, and the number of the date is the day.** -/
theorem civilFromDays_spec (n : ℤ) :
    IsDate (civilFromDays n).1 (civilFromDays n).2.1 (civilFromDays n).2.2 ∧
      daysFromCivil (civilFromDays n).1 (civilFromDays n).2.1 (civilFromDays n).2.2 = n := by
  obtain ⟨c, q, j, s, hdoe, hc, hq, hj, hs, hs'⟩ :=
    exists_yearOfEra (Int.emod_nonneg (n + 719468) (by decide : (146097 : ℤ) ≠ 0)) (by omega)
  have hstart := yearStart_yearOfEra ((n + 719468) / 146097) hc hq hj
  have hn : n =
      146097 * ((n + 719468) / 146097) + (36524 * c + 1461 * q + 365 * j + s) - 719468 := by
    omega
  -- February has its 29th day in the leap years only
  have hleap : s = 365 → isLeap (100 * c + 4 * q + j + (n + 719468) / 146097 * 400 + 1) = true := by
    intro hlast
    rw [isLeap_iff]
    omega
  rw [civilFromDays_eq hc hq hj hs hs' hdoe]
  generalize (n + 719468) / 146097 = era at *
  generalize 100 * c + 4 * q + j + era * 400 = y at *
  obtain ⟨mp, hmp⟩ : ∃ mp, (5 * s + 2) / 153 = mp := ⟨_, rfl⟩
  have hmp₀ : 0 ≤ mp := by omega
  have hmp₁ : mp ≤ 11 := by omega
  rw [hmp]
  simp only [IsDate, daysFromCivil_eq, daysInMonth]
  interval_cases mp <;> simp <;> try omega
  by_cases hlast : s = 365
  · simp only [hleap hlast, if_true]
    omega
  · split <;> omega

example : civilFromDays (daysFromCivil 2024 2 29) = (2024, 2, 29) := by decide

/-- The date after a date. -/
def nextDate (y m d : ℤ) : ℤ × ℤ × ℤ :=
  if d < daysInMonth y m then (y, m, d + 1) else ((nextMonth y m).1, (nextMonth y m).2, 1)

/-- **The date after a date is the next day.** -/
theorem daysFromCivil_nextDate {y m d : ℤ} (h : IsDate y m d) :
    daysFromCivil (nextDate y m d).1 (nextDate y m d).2.1 (nextDate y m d).2.2
      = daysFromCivil y m d + 1 := by
  obtain ⟨h₁, h₂, -, hd⟩ := h
  have hday := daysFromCivil_day y m d
  unfold nextDate
  split
  · have hsucc := daysFromCivil_day y m (d + 1)
    simp only
    omega
  · have hnext := daysFromCivil_nextMonth (y := y) h₁ h₂
    simp only
    omega

end Calendar
