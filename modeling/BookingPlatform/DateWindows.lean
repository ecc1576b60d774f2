import BookingPlatform.AdminListings

/-!
# Date windows

A filter by dates compares instants with the first instant of its start and the
first instant after its end; the validators compare the strings.

## Main definitions

* `DateString.Readable` — `Date` reads the date as an instant.
* `DateString.UsableFrom`, `DateString.UsableUntil` — the database takes the instant,
  too.
* `UsableWindow`, `ReadableRange` — windows, and when a range is one.

## Main results

* `DateString.lt_iff` — the order of the strings is that of year, month and day.
* `dateStringSchema_iff` — the strings that are accepted are the renderings of
  `DateString`s.
* `date_filter_exact` — between two dates of the calendar a filter takes exactly
  the instants that are printed as a date from the one to the other.
* `usableFrom_iff`, `usableUntil_iff` — the dates that the database reads.
* `accepted_range_usable_iff` — which of the ranges that the validators accept are
  windows.
-/

namespace BookingPlatform

/-! ### Strings of digits -/

theorem length_decimalDigits (w n : ℕ) : (decimalDigits w n).length = w := by
  induction w generalizing n with
  | zero => rfl
  | succ w ih => simp [decimalDigits, ih]

/-- Strings that begin with parts of one length are compared part by part. -/
theorem append_lt_append_iff {α : Type*} [LinearOrder α] {l₁ l₂ r₁ r₂ : List α}
    (h : l₁.length = l₂.length) : l₁ ++ r₁ < l₂ ++ r₂ ↔ l₁ < l₂ ∨ l₁ = l₂ ∧ r₁ < r₂ := by
  induction l₁ generalizing l₂ with
  | nil =>
    cases l₂ with
    | nil => simp
    | cons => simp at h
  | cons a l₁ ih =>
    cases l₂ with
    | nil => simp at h
    | cons b l₂ =>
      simp only [List.length_cons, Nat.add_right_cancel_iff] at h
      simp only [List.cons_append, List.cons_lt_cons_iff, ih h, List.cons.injEq]
      tauto

private theorem digitChar_lt_iff :
    ∀ a < 10, ∀ b < 10, Nat.digitChar a < Nat.digitChar b ↔ a < b := by
  decide

/-- **Numbers of one width are ordered as their digits.** -/
theorem decimalDigits_lt_iff {w m n : ℕ} (hm : m < 10 ^ w) (hn : n < 10 ^ w) :
    decimalDigits w m < decimalDigits w n ↔ m < n := by
  induction w generalizing m n with
  | zero =>
    simp only [pow_zero, Nat.lt_one_iff] at hm hn
    simp [hm, hn]
  | succ w ih =>
    rw [pow_succ] at hm hn
    have hlt := ih (m := m / 10) (n := n / 10) (by omega) (by omega)
    have hgt := ih (m := n / 10) (n := m / 10) (by omega) (by omega)
    have heq : decimalDigits w (m / 10) = decimalDigits w (n / 10) ↔ m / 10 = n / 10 := by
      refine ⟨fun h => ?_, fun h => by rw [h]⟩
      rw [h, lt_self_iff_false, false_iff] at hlt
      rw [h, lt_self_iff_false, false_iff] at hgt
      omega
    have hlen : (decimalDigits w (m / 10)).length = (decimalDigits w (n / 10)).length := by
      rw [length_decimalDigits, length_decimalDigits]
    have hdigit := digitChar_lt_iff (m % 10) (Nat.mod_lt _ (by decide)) (n % 10)
      (Nat.mod_lt _ (by decide))
    simp only [decimalDigits]
    rw [append_lt_append_iff hlen, hlt, heq, List.cons_lt_cons_iff, hdigit]
    simp only [List.lt_irrefl, and_false, or_false]
    omega

theorem decimalDigits_inj {w m n : ℕ} (hm : m < 10 ^ w) (hn : n < 10 ^ w) :
    decimalDigits w m = decimalDigits w n ↔ m = n := by
  refine ⟨fun h => ?_, fun h => by rw [h]⟩
  have hlt := decimalDigits_lt_iff hm hn
  have hgt := decimalDigits_lt_iff hn hm
  rw [h, lt_self_iff_false, false_iff] at hlt hgt
  omega

/-! ### The order of the dates -/

namespace DateString

/-- **The order of the strings is that of year, month and day.** -/
theorem lt_iff (a b : DateString) : a.toChars < b.toChars ↔
    a.year < b.year ∨
      a.year = b.year ∧ (a.month < b.month ∨ a.month = b.month ∧ a.day < b.day) := by
  have hlen : ∀ w m n, (decimalDigits w m).length = (decimalDigits w n).length := by
    simp [length_decimalDigits]
  have ha := a.year_lt
  have hb := b.year_lt
  simp only [toChars, List.append_assoc, List.cons_append]
  rw [append_lt_append_iff (hlen 4 _ _), decimalDigits_lt_iff ha hb, decimalDigits_inj ha hb,
    List.cons_lt_cons_iff, append_lt_append_iff (hlen 2 _ _),
    decimalDigits_lt_iff a.month_lt b.month_lt, decimalDigits_inj a.month_lt b.month_lt,
    List.cons_lt_cons_iff, decimalDigits_lt_iff a.day_lt b.day_lt]
  simp

theorem le_iff (a b : DateString) : a ≤ b ↔
    a.year < b.year ∨
      a.year = b.year ∧ (a.month < b.month ∨ a.month = b.month ∧ a.day ≤ b.day) := by
  have hlt := lt_iff b a
  show a.toChars ≤ b.toChars ↔ _
  rw [← not_lt, hlt]
  omega

theorem toChars_injective : Function.Injective toChars := by
  intro a b h
  have hlt := lt_iff a b
  have hgt := lt_iff b a
  rw [h, lt_self_iff_false, false_iff] at hlt hgt
  ext <;> omega

/-- The number of the day, by the arithmetic of the calendar. -/
def dayNumber (date : DateString) : ℤ := Calendar.daysFromCivil date.year date.month date.day

theorem Valid.isDate {date : DateString} (h : date.Valid) :
    Calendar.IsDate date.year date.month date.day := by
  obtain ⟨h₁, h₂, h₃, h₄⟩ := h
  exact ⟨by omega, by omega, by omega, h₄⟩

/-- **Dates of the calendar are ordered as their days.** -/
theorem le_iff_dayNumber {a b : DateString} (ha : a.Valid) (hb : b.Valid) :
    a ≤ b ↔ a.dayNumber ≤ b.dayNumber := by
  have hle := not_congr (Calendar.daysFromCivil_lt_iff hb.isDate ha.isDate)
  rw [not_lt] at hle
  rw [le_iff, dayNumber, dayNumber, hle]
  omega

end DateString

/-! ### Instants and dates -/

section Windows

variable (rollsOver : DateString → Bool)

theorem parseUtcDate_of_valid {date : DateString} (h : date.Valid) :
    parseUtcDate rollsOver date = some (date.dayNumber * Calendar.msPerDay) := if_pos (Or.inl h)

theorem endDateExclusive_of_valid {date : DateString} (h : date.Valid) :
    endDateExclusive rollsOver date = some ((date.dayNumber + 1) * Calendar.msPerDay) := by
  rw [endDateExclusive, parseUtcDate_of_valid rollsOver h, Option.map_some, add_mul, one_mul]

end Windows

/-- The year in which an instant falls. -/
def utcYear (t : Instant) : ℤ := (Calendar.civilFromDays (t / Calendar.msPerDay)).1

/-- A year before 0 or after 9999 has a sign in front, which comes before every digit. -/
theorem formatUtcDate_expanded {t : Instant} (h : utcYear t < 0 ∨ 9999 < utcYear t)
    (date : DateString) : formatUtcDate t < date.toChars := by
  have hyear : ∃ sign cs, isoYear (utcYear t) = sign :: cs ∧ sign < '0' := by
    unfold isoYear
    rw [if_neg (by omega)]
    split
    · exact ⟨'-', _, rfl, by decide⟩
    · exact ⟨'+', _, rfl, by decide⟩
  obtain ⟨sign, cs, hyear, hsign⟩ := hyear
  have hdigit : ∀ n < 10, '0' ≤ Nat.digitChar n := by decide
  have hformat : ∃ cs', formatUtcDate t = sign :: cs' := by
    rw [utcYear] at hyear
    simp only [formatUtcDate, toISOString, hyear]
    exact ⟨_, rfl⟩
  obtain ⟨cs', hformat⟩ := hformat
  rw [hformat]
  exact List.cons_lt_cons_iff.mpr (Or.inl (hsign.trans_le (hdigit _ (Nat.mod_lt _ (by decide)))))

/-- **An instant of a year of four digits is printed as the date of its day.** -/
theorem formatUtcDate_of_year {t : Instant} (h : 0 ≤ utcYear t ∧ utcYear t ≤ 9999) :
    ∃ date : DateString, date.Valid ∧ formatUtcDate t = date.toChars ∧
      date.dayNumber = t / Calendar.msPerDay := by
  obtain ⟨⟨h₁, h₂, h₃, h₄⟩, hday⟩ := Calendar.civilFromDays_spec (t / Calendar.msPerDay)
  have h₅ := (Calendar.daysInMonth_bounds (Calendar.civilFromDays (t / Calendar.msPerDay)).1
    (Calendar.civilFromDays (t / Calendar.msPerDay)).2.1).2
  unfold utcYear at h
  simp only [formatUtcDate, toISOString, isoYear, if_pos h]
  generalize Calendar.civilFromDays (t / Calendar.msPerDay) = c at *
  obtain ⟨year, month, day⟩ := c
  simp only at *
  refine ⟨⟨year.toNat, month.toNat, day.toNat, by omega, by omega, by omega⟩, ?_, ?_, ?_⟩
  · simp only [DateString.Valid]
    rw [Int.toNat_of_nonneg (by omega : 0 ≤ year), Int.toNat_of_nonneg (by omega : 0 ≤ month),
      Int.toNat_of_nonneg (by omega : 0 ≤ day)]
    omega
  · -- the date takes ten characters
    rw [DateString.toChars, List.append_assoc, List.append_assoc, List.append_assoc,
      List.append_assoc]
    exact List.take_left' (by simp [length_decimalDigits])
  · rw [DateString.dayNumber, ← hday, Int.toNat_of_nonneg (by omega : 0 ≤ year),
      Int.toNat_of_nonneg (by omega : 0 ≤ month), Int.toNat_of_nonneg (by omega : 0 ≤ day)]

/-- **Years of four digits are those of the dates that can be written.** -/
theorem dayNumber_lt_of_utcYear_neg {t : Instant} (h : utcYear t < 0) {date : DateString}
    (hdate : date.Valid) : t / Calendar.msPerDay < date.dayNumber := by
  obtain ⟨hday, heq⟩ := Calendar.civilFromDays_spec (t / Calendar.msPerDay)
  rw [← heq]
  unfold utcYear at h
  exact Calendar.daysFromCivil_lt hday hdate.isDate (Or.inl (by omega))

theorem dayNumber_lt_of_lt_utcYear {t : Instant} (h : 9999 < utcYear t) {date : DateString}
    (hdate : date.Valid) : date.dayNumber < t / Calendar.msPerDay := by
  obtain ⟨hday, heq⟩ := Calendar.civilFromDays_spec (t / Calendar.msPerDay)
  have hyear := date.year_lt
  rw [← heq]
  unfold utcYear at h
  exact Calendar.daysFromCivil_lt hdate.isDate hday (Or.inl (by omega))

/-- **A date filter takes the days it names.** -/
theorem formatUtcDate_between_iff {s e : DateString} (hs : s.Valid) (he : e.Valid) (t : Instant) :
    (s.toChars ≤ formatUtcDate t ∧ formatUtcDate t ≤ e.toChars) ↔
      s.dayNumber * Calendar.msPerDay ≤ t ∧ t < (e.dayNumber + 1) * Calendar.msPerDay := by
  have hms : (0 : ℤ) < Calendar.msPerDay := by decide
  rw [← Int.le_ediv_iff_mul_le hms, ← Int.ediv_lt_iff_lt_mul hms, Int.lt_add_one_iff]
  by_cases hyear : 0 ≤ utcYear t ∧ utcYear t ≤ 9999
  · obtain ⟨date, hdate, hformat, hday⟩ := formatUtcDate_of_year hyear
    rw [hformat, ← hday]
    exact and_congr (DateString.le_iff_dayNumber hs hdate) (DateString.le_iff_dayNumber hdate he)
  · -- out of these years the string comes before every date, and the day is none of theirs
    have hsign := formatUtcDate_expanded (by omega : utcYear t < 0 ∨ 9999 < utcYear t) s
    refine iff_of_false (fun h => absurd h.1 (not_le.mpr hsign)) fun h => ?_
    rcases (by omega : utcYear t < 0 ∨ 9999 < utcYear t) with hneg | hlarge
    · exact absurd h.1 (not_le.mpr (dayNumber_lt_of_utcYear_neg hneg hs))
    · exact absurd h.2 (not_le.mpr (dayNumber_lt_of_lt_utcYear hlarge he))

/-- The first instant of a day. -/
def startOfDay (date : ℤ × ℤ × ℤ) : Instant :=
  Calendar.daysFromCivil date.1 date.2.1 date.2.2 * Calendar.msPerDay

/-- **Date filters cover exactly the days they name.** Dates of the calendar are
instants in the order of their strings; the end of a filter is the first instant of
the day after; and a filter from one date to another takes the instants that are
printed as a date from the one to the other. -/
theorem date_filter_exact (rollsOver : DateString → Bool) {s e : DateString} (hs : s.Valid)
    (he : e.Valid) :
    ∃ startAt endAt startOfEnd, parseUtcDate rollsOver s = some startAt ∧
      parseUtcDate rollsOver e = some startOfEnd ∧ endDateExclusive rollsOver e = some endAt ∧
      (s ≤ e ↔ startAt ≤ startOfEnd) ∧
      endAt = startOfDay (Calendar.nextDate e.year e.month e.day) ∧
      (s ≤ e → ∀ t, (startAt ≤ t ∧ t < endAt) ↔
        (s.toChars ≤ formatUtcDate t ∧ formatUtcDate t ≤ e.toChars)) := by
  refine ⟨_, _, _, parseUtcDate_of_valid rollsOver hs, parseUtcDate_of_valid rollsOver he,
    endDateExclusive_of_valid rollsOver he, ?_, ?_, fun _ t => ?_⟩
  · rw [DateString.le_iff_dayNumber hs he]
    exact (Int.mul_le_mul_iff_of_pos_right (by decide)).symm
  · rw [startOfDay, Calendar.daysFromCivil_nextDate he.isDate]
    rfl
  · exact (formatUtcDate_between_iff hs he t).symm

/-- The last day of the last year, and the leap day of the first. -/
theorem date_filter_exact_ends :
    ∃ startAt endAt startOfEnd,
      parseUtcDate (fun _ => false) ⟨0, 2, 29, by decide, by decide, by decide⟩ = some startAt ∧
      parseUtcDate (fun _ => false) ⟨9999, 12, 31, by decide, by decide, by decide⟩
        = some startOfEnd ∧
      endDateExclusive (fun _ => false) ⟨9999, 12, 31, by decide, by decide, by decide⟩
        = some endAt ∧
      endAt = startOfDay (10000, 1, 1) := by
  obtain ⟨startAt, endAt, startOfEnd, hs, he, hend, -, hnext, -⟩ :=
    date_filter_exact (fun _ => false)
      (s := ⟨0, 2, 29, by decide, by decide, by decide⟩)
      (e := ⟨9999, 12, 31, by decide, by decide, by decide⟩) (by decide) (by decide)
  exact ⟨startAt, endAt, startOfEnd, hs, he, hend, hnext⟩

/-! ### What the validators accept -/

/-- The digit of a character. -/
private theorem digitChar_of_isDigit {c : Char} (h : c.isDigit = true) :
    ∃ n < 10, Nat.digitChar n = c := by
  have hrange : 48 ≤ c.toNat ∧ c.toNat ≤ 57 := by
    simpa [Char.isDigit, UInt32.le_iff_toNat_le] using h
  refine ⟨c.toNat - 48, by omega, Char.toNat_inj.mp ?_⟩
  rw [Nat.toNat_digitChar_of_lt_ten (by omega)]
  omega

private theorem isDigit_digitChar : ∀ n < 10, (Nat.digitChar n).isDigit = true := by decide

/-- **The strings that are accepted are the renderings of `DateString`s.** -/
theorem dateStringSchema_iff {s : List Char} :
    dateStringSchema s = true ↔ ∃ date : DateString, date.toChars = s := by
  constructor
  · intro h
    unfold dateStringSchema at h
    split at h
    · next y₁ y₂ y₃ y₄ h₁ m₁ m₂ h₂ d₁ d₂ =>
      simp only [List.all_cons, List.all_nil, Bool.and_true, Bool.and_eq_true, beq_iff_eq] at h
      obtain ⟨⟨⟨hy₁, hy₂, hy₃, hy₄, hm₁, hm₂, hd₁, hd₂⟩, rfl⟩, rfl⟩ := h
      obtain ⟨a₁, ha₁, rfl⟩ := digitChar_of_isDigit hy₁
      obtain ⟨a₂, ha₂, rfl⟩ := digitChar_of_isDigit hy₂
      obtain ⟨a₃, ha₃, rfl⟩ := digitChar_of_isDigit hy₃
      obtain ⟨a₄, ha₄, rfl⟩ := digitChar_of_isDigit hy₄
      obtain ⟨b₁, hb₁, rfl⟩ := digitChar_of_isDigit hm₁
      obtain ⟨b₂, hb₂, rfl⟩ := digitChar_of_isDigit hm₂
      obtain ⟨c₁, hc₁, rfl⟩ := digitChar_of_isDigit hd₁
      obtain ⟨c₂, hc₂, rfl⟩ := digitChar_of_isDigit hd₂
      refine ⟨⟨1000 * a₁ + 100 * a₂ + 10 * a₃ + a₄, 10 * b₁ + b₂, 10 * c₁ + c₂, by omega, by omega,
        by omega⟩, ?_⟩
      simp only [DateString.toChars, decimalDigits, List.nil_append, List.cons_append,
        List.cons.injEq, true_and, and_true]
      and_intros <;> exact congrArg Nat.digitChar (by omega)
    · cases h
  · rintro ⟨date, rfl⟩
    have hdigit : ∀ n, (Nat.digitChar (n % 10)).isDigit = true :=
      fun n => isDigit_digitChar _ (Nat.mod_lt _ (by decide))
    simp [DateString.toChars, decimalDigits, dateStringSchema, hdigit]

namespace DateString

/-- What `Date.parse` reads: a date of the calendar, or a day up to the 31st that the
engine rolls into the next month. -/
def Readable (rollsOver : DateString → Bool) (date : DateString) : Prop :=
  1 ≤ date.month ∧ date.month ≤ 12 ∧ 1 ≤ date.day ∧
    (date.day ≤ Calendar.daysInMonth date.year date.month ∨
      (rollsOver date = true ∧ date.day ≤ 31))

/-- Whether a date is readable can be decided. -/
instance (rollsOver : DateString → Bool) (date : DateString) :
    Decidable (date.Readable rollsOver) :=
  inferInstanceAs (Decidable (_ ∧ _ ∧ _ ∧ (_ ∨ _)))

/-- A day of February that does not exist is rolled past the given end. -/
def RollsPast (s e : DateString) : Prop :=
  s.month = 2 ∧ e.month = 3 ∧ e.year = s.year ∧ Calendar.daysInMonth s.year 2 + e.day < s.day

/-- Whether one date rolls past another can be decided. -/
instance (s e : DateString) : Decidable (s.RollsPast e) :=
  inferInstanceAs (Decidable (_ ∧ _ ∧ _ ∧ _))

end DateString

theorem parseUtcDate_eq_some {rollsOver : DateString → Bool} {date : DateString} {t : Instant} :
    parseUtcDate rollsOver date = some t ↔
      date.Readable rollsOver ∧ t = date.dayNumber * Calendar.msPerDay := by
  have hcond : (date.Valid ∨ (rollsOver date ∧ 1 ≤ date.month ∧ date.month ≤ 12 ∧ 1 ≤ date.day ∧
      date.day ≤ 31)) ↔ date.Readable rollsOver := by
    unfold DateString.Valid DateString.Readable
    tauto
  unfold parseUtcDate
  by_cases h : date.Readable rollsOver
  · rw [if_pos (hcond.mpr h), Option.some.injEq]
    exact ⟨fun heq => ⟨h, heq.symm⟩, fun heq => heq.2.symm⟩
  · rw [if_neg (mt hcond.mp h)]
    simp [h]

/-! ### What the database reads -/

namespace DateString

/-- A date that can begin a window of a query: it can be read, and the database knows its
year. -/
def UsableFrom (rollsOver : DateString → Bool) (date : DateString) : Prop :=
  date.Readable rollsOver ∧ 1 ≤ date.year

/-- A date that can end one: the database is given the day after. -/
def UsableUntil (rollsOver : DateString → Bool) (date : DateString) : Prop :=
  date.Readable rollsOver ∧ (1 ≤ date.year ∨ date.month = 12 ∧ date.day = 31)

/-- Whether a date starts a window can be decided. -/
instance (rollsOver : DateString → Bool) (date : DateString) :
    Decidable (date.UsableFrom rollsOver) :=
  inferInstanceAs (Decidable (_ ∧ _))

/-- Whether a date ends a window can be decided. -/
instance (rollsOver : DateString → Bool) (date : DateString) :
    Decidable (date.UsableUntil rollsOver) :=
  inferInstanceAs (Decidable (_ ∧ _))

end DateString

/-- Days from the year 1 on, and the days of the year 0, which end with its last. -/
theorem firstDay_le_iff {rollsOver : DateString → Bool} {date : DateString}
    (h : date.Readable rollsOver) (past : ℤ) (hpast : past = 0 ∨ past = 1) :
    Calendar.daysFromCivil 1 1 1 ≤ date.dayNumber + past ↔
      1 ≤ date.year ∨ past = 1 ∧ date.month = 12 ∧ date.day = 31 := by
  obtain ⟨hm₁, hm₂, hd₁, hd₂⟩ := h
  have hdays := Calendar.daysInMonth_bounds date.year date.month
  have hfirst : Calendar.daysFromCivil 1 1 1 = Calendar.firstOfMonth 12 := by decide
  rw [hfirst, DateString.dayNumber,
    Calendar.daysFromCivil_eq_firstOfMonth (by omega) (by omega)]
  rcases Nat.eq_zero_or_pos date.year with hzero | hpos
  · -- the year 0: its months begin where the calendar says
    have hmonths : ∀ m : ℕ, 1 ≤ m → m ≤ 12 → Calendar.firstOfMonth (m - 1) + 31 ≤
        Calendar.firstOfMonth 12 ∧ (m ≠ 12 → Calendar.firstOfMonth (m - 1) + 32 ≤
          Calendar.firstOfMonth 12) ∧ (m = 12 → Calendar.firstOfMonth (m - 1) + 31 =
            Calendar.firstOfMonth 12) := by
      intro m h₁ h₂
      interval_cases m <;> decide
    obtain ⟨hle, hearlier, hlast⟩ := hmonths date.month hm₁ hm₂
    rw [hzero, Nat.cast_zero, mul_zero, zero_add]
    by_cases hdec : date.month = 12
    · have hlast := hlast hdec
      omega
    · have hearlier := hearlier hdec
      omega
  · have hmono := Calendar.firstOfMonth_mono
      (show (12 : ℤ) ≤ 12 * (date.year : ℤ) + ((date.month : ℤ) - 1) by omega)
    omega

/-- **The starts that the database reads.** -/
theorem usableFrom_iff {rollsOver : DateString → Bool} {date : DateString} :
    date.UsableFrom rollsOver ↔
      ∃ t, parseUtcDate rollsOver date = some t ∧ firstTimestamp ≤ t := by
  simp only [parseUtcDate_eq_some, firstTimestamp, DateString.UsableFrom]
  constructor
  · intro ⟨h, hyear⟩
    refine ⟨_, ⟨h, rfl⟩, Int.mul_le_mul_of_nonneg_right ?_ (by decide)⟩
    have hday := (firstDay_le_iff h 0 (Or.inl rfl)).mpr (Or.inl hyear)
    omega
  · rintro ⟨_, ⟨h, rfl⟩, hle⟩
    refine ⟨h, ?_⟩
    have hday := Int.le_of_mul_le_mul_right hle (by decide)
    have hfirst := (firstDay_le_iff h 0 (Or.inl rfl)).mp (by omega)
    omega

/-- **The ends that the database reads.** -/
theorem usableUntil_iff {rollsOver : DateString → Bool} {date : DateString} :
    date.UsableUntil rollsOver ↔
      ∃ t, endDateExclusive rollsOver date = some t ∧ firstTimestamp ≤ t := by
  have hnext : ∀ day : ℤ, day * Calendar.msPerDay + Calendar.msPerDay
      = (day + 1) * Calendar.msPerDay := fun day => by ring
  simp only [endDateExclusive, Option.map_eq_some_iff, parseUtcDate_eq_some, firstTimestamp,
    DateString.UsableUntil]
  constructor
  · intro ⟨h, hlast⟩
    refine ⟨_, ⟨_, ⟨h, rfl⟩, rfl⟩, ?_⟩
    rw [hnext]
    refine Int.mul_le_mul_of_nonneg_right ?_ (by decide)
    exact (firstDay_le_iff h 1 (Or.inr rfl)).mpr (by omega)
  · rintro ⟨_, ⟨_, ⟨h, rfl⟩, rfl⟩, hle⟩
    rw [hnext] at hle
    have hday := Int.le_of_mul_le_mul_right hle (by decide)
    have hlast := (firstDay_le_iff h 1 (Or.inr rfl)).mp hday
    exact ⟨h, by omega⟩

/-- A window that a query can use: two instants, the first before the second. -/
def UsableWindow (rollsOver : DateString → Bool) (s e : DateString) : Prop :=
  ∃ startAt endAt, parseUtcDate rollsOver s = some startAt ∧
    endDateExclusive rollsOver e = some endAt ∧ startAt < endAt

theorem usableWindow_iff_dayNumber {rollsOver : DateString → Bool} {s e : DateString} :
    UsableWindow rollsOver s e ↔
      s.Readable rollsOver ∧ e.Readable rollsOver ∧ s.dayNumber ≤ e.dayNumber := by
  have hlt : s.dayNumber * Calendar.msPerDay < e.dayNumber * Calendar.msPerDay + Calendar.msPerDay ↔
      s.dayNumber ≤ e.dayNumber := by
    rw [← Int.lt_add_one_iff, ← add_one_mul]
    exact mul_lt_mul_iff_of_pos_right (by decide)
  constructor
  · intro ⟨startAt, endAt, hstart, hend, hwindow⟩
    obtain ⟨endOf, hparse, rfl⟩ := Option.map_eq_some_iff.mp hend
    obtain ⟨hs, rfl⟩ := parseUtcDate_eq_some.mp hstart
    obtain ⟨he, rfl⟩ := parseUtcDate_eq_some.mp hparse
    exact ⟨hs, he, hlt.mp hwindow⟩
  · intro ⟨hs, he, hle⟩
    refine ⟨_, _, parseUtcDate_eq_some.mpr ⟨hs, rfl⟩, ?_, hlt.mpr hle⟩
    rw [endDateExclusive, parseUtcDate_eq_some.mpr ⟨he, rfl⟩, Option.map_some]

/-- **In the order of the strings, only a rolled day of February is too late.** -/
theorem dayNumber_le_iff {rollsOver : DateString → Bool} {s e : DateString}
    (hs : s.Readable rollsOver) (he : e.Readable rollsOver) (h : s ≤ e) :
    s.dayNumber ≤ e.dayNumber ↔ ¬ s.RollsPast e := by
  obtain ⟨hs₁, hs₂, hs₃, hs₄⟩ := hs
  obtain ⟨he₁, he₂, he₃, -⟩ := he
  have hdays := Calendar.daysInMonth_bounds s.year s.month
  have hthirty := Calendar.thirty_le_daysInMonth (m := s.month) s.year
  have hday : s.day ≤ 31 := by omega
  rw [DateString.le_iff] at h
  simp only [DateString.dayNumber, DateString.RollsPast]
  rw [Calendar.daysFromCivil_eq_firstOfMonth (by omega) (by omega),
    Calendar.daysFromCivil_eq_firstOfMonth (by omega) (by omega)]
  generalize hk : 12 * (s.year : ℤ) + (s.month - 1) = k
  generalize hk' : 12 * (e.year : ℤ) + (e.month - 1) = k'
  have hdiv : k / 12 = s.year := by omega
  have hmod : k % 12 + 1 = s.month := by omega
  have hnext := Calendar.firstOfMonth_succ k
  rw [hdiv, hmod] at hnext
  rcases (by omega : k' = k ∨ k' = k + 1 ∨ k + 2 ≤ k') with rfl | rfl | hlater
  · omega
  · -- the next month: a rolled day is in it
    by_cases hfeb : s.month = 2
    · rw [hfeb] at hnext
      push_cast at hnext
      omega
    · omega
  · -- a rolled day is before the month after
    have hmono := Calendar.firstOfMonth_mono hlater
    have hafter := Calendar.firstOfMonth_succ (k + 1)
    have hdays' := Calendar.daysInMonth_bounds ((k + 1) / 12) ((k + 1) % 12 + 1)
    rw [add_assoc] at hafter
    norm_num at hafter
    omega

/-- **When an accepted range is a usable window**: both strings can be read, and the
start is not rolled past the end. -/
theorem usableWindow_iff {rollsOver : DateString → Bool} {s e : DateString} (h : s ≤ e) :
    UsableWindow rollsOver s e ↔
      s.Readable rollsOver ∧ e.Readable rollsOver ∧ ¬ s.RollsPast e := by
  rw [usableWindow_iff_dayNumber]
  constructor
  · intro ⟨hs, he, hle⟩
    exact ⟨hs, he, (dayNumber_le_iff hs he h).mp hle⟩
  · intro ⟨hs, he, hrolls⟩
    exact ⟨hs, he, (dayNumber_le_iff hs he h).mpr hrolls⟩

/-- The condition on a range: months and days that can be read, and no start that is
rolled past its end. -/
def ReadableRange (rollsOver : DateString → Bool) (s e : DateString) : Prop :=
  s.Readable rollsOver ∧ e.Readable rollsOver ∧ ¬ s.RollsPast e

/-- **When the accepted date ranges are usable windows**: those of two strings that
`dateStringSchema` and a range refinement accept, and so those of every query. -/
theorem accepted_range_usable_iff (rollsOver : DateString → Bool) :
    (∀ start end_ : List Char, dateStringSchema start = true → dateStringSchema end_ = true →
      start ≤ end_ → ∃ s e : DateString, s.toChars = start ∧ e.toChars = end_ ∧
        (UsableWindow rollsOver s e ↔ ReadableRange rollsOver s e)) ∧
    (∀ query : ExperienceSearchQuery, UsableWindow rollsOver query.startDate query.endDate ↔
      ReadableRange rollsOver query.startDate query.endDate) ∧
    (∀ query : ExperienceDetailQuery, ∀ s ∈ query.startDate, ∀ e ∈ query.endDate,
      (UsableWindow rollsOver s e ↔ ReadableRange rollsOver s e)) ∧
    (∀ query : AdminBookingListQuery,
      (∀ s ∈ query.createdFrom, ∀ e ∈ query.createdTo,
        (UsableWindow rollsOver s e ↔ ReadableRange rollsOver s e)) ∧
      ∀ s ∈ query.slotFrom, ∀ e ∈ query.slotTo,
        (UsableWindow rollsOver s e ↔ ReadableRange rollsOver s e)) ∧
    ∀ query : AuditLogListQuery, ∀ s ∈ query.from_, ∀ e ∈ query.to_,
      (UsableWindow rollsOver s e ↔ ReadableRange rollsOver s e) := by
  refine ⟨fun start end_ hstart hend h => ?_, fun query => usableWindow_iff query.dates,
    fun query s hs e he => usableWindow_iff (query.dates s hs e he), fun query =>
    ⟨fun s hs e he => usableWindow_iff (query.created s hs e he),
      fun s hs e he => usableWindow_iff (query.slot s hs e he)⟩,
    fun query s hs e he => usableWindow_iff (query.dates s hs e he)⟩
  obtain ⟨s, rfl⟩ := dateStringSchema_iff.mp hstart
  obtain ⟨e, rfl⟩ := dateStringSchema_iff.mp hend
  exact ⟨s, e, rfl, rfl, usableWindow_iff h⟩

/-- A thirteenth month is accepted, in every engine. -/
theorem accepted_range_not_always_usable : ¬ ∀ (rollsOver : DateString → Bool)
    (start end_ : List Char), dateStringSchema start = true → dateStringSchema end_ = true →
      start ≤ end_ → ∀ s e : DateString, s.toChars = start → e.toChars = end_ →
        UsableWindow rollsOver s e := by
  intro h
  obtain ⟨startAt, endAt, hstart, -, -⟩ := h (fun _ => true) "2025-13-01".toList
    "2025-13-02".toList (by decide) (by decide) (by decide)
    ⟨2025, 13, 1, by decide, by decide, by decide⟩
    ⟨2025, 13, 2, by decide, by decide, by decide⟩ (by decide) (by decide)
  obtain ⟨⟨-, hmonth, -⟩, -⟩ := parseUtcDate_eq_some.mp hstart
  exact absurd hmonth (by decide)

/-- The 31st of February, in an engine that rolls it over, begins after the first of
March has ended. -/
example : (⟨2025, 2, 31, by decide, by decide, by decide⟩ : DateString).RollsPast
    ⟨2025, 3, 1, by decide, by decide, by decide⟩ := by decide

end BookingPlatform
