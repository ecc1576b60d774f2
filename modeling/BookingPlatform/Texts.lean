import Mathlib.Data.Rat.Encodable
import BookingPlatform.DateWindows
import BookingPlatform.Lib.JsonText

/-!
# Amounts, instants and identifiers as strings

What the responses and the webhooks print for an amount, with `Decimal.toString()` or
with `toFixed(2)`, and for an instant.

## Main definitions

* `Money.toFixed`, `Money.toString` — the two texts of an amount.
* `InDateRange` — the instants that a `Date` can hold.

## Main results

* `Money.toString_injective` — the text of an amount tells it.
* `toISOString_injective` — the text of an instant that a `Date` can hold tells it.
-/

namespace BookingPlatform

open JsonText

/-! ### Strings and integers -/

/-- A string of characters. -/
def jsonText (cs : List Char) : Value ℚ := .str (String.ofList cs)

/-- An integer as JSON. -/
def jsonInt (n : ℤ) : Value ℚ := .num n

@[simp] theorem valid_jsonText (cs : List Char) : (jsonText cs).Valid := .str _

@[simp] theorem valid_jsonInt (n : ℤ) : (jsonInt n).Valid := .num _

@[simp] theorem jsonText_inj {cs ds : List Char} : jsonText cs = jsonText ds ↔ cs = ds := by
  simp [jsonText, String.ofList_inj]

@[simp] theorem jsonInt_inj {m n : ℤ} : jsonInt m = jsonInt n ↔ m = n := by
  simp [jsonInt]

theorem uuidText_injective : Function.Injective fun id : Uuid => jsonText id.toChars :=
  fun _ _ h => Uuid.toChars_injective (jsonText_inj.mp h)

/-- Digits of one width are told apart whatever follows them. -/
theorem decimalDigits_append_inj {w m n : ℕ} {r r' : List Char} (hm : m < 10 ^ w)
    (hn : n < 10 ^ w) (h : decimalDigits w m ++ r = decimalDigits w n ++ r') :
    m = n ∧ r = r' := by
  obtain ⟨hdigits, hrest⟩ := List.append_inj h (by
    rw [length_decimalDigits, length_decimalDigits])
  exact ⟨(decimalDigits_inj hm hn).mp hdigits, hrest⟩

/-! ### Amounts -/

/-- A fraction of hundredths without the zeros at its end. -/
def decimalFraction (n : ℕ) : List Char :=
  if n = 0 then []
  else if n % 10 = 0 then '.' :: decimalDigits 1 (n / 10)
  else '.' :: decimalDigits 2 n

theorem decimalFraction_inj {m n : ℕ} (hm : m < 100) (hn : n < 100)
    (h : decimalFraction m = decimalFraction n) : m = n := by
  have hlength := congrArg List.length h
  unfold decimalFraction at h hlength
  split_ifs at h hlength
  · omega
  · have htenths := (decimalDigits_inj (by omega) (by omega)).mp (List.cons.inj h).2
    omega
  · simp [length_decimalDigits] at hlength
  · simp [length_decimalDigits] at hlength
  · exact (decimalDigits_inj (by omega) (by omega)).mp (List.cons.inj h).2

namespace Money

/-- The sign and the digits before the point. -/
def whole (m : Money) : List Char :=
  (if m.cents < 0 then ['-'] else []) ++ Nat.toDigits 10 (m.cents.natAbs / 100)

/-- `amount.toFixed(2)`, but for the sign of an amount that rounds to zero. -/
def toFixed (m : Money) : List Char := m.whole ++ '.' :: decimalDigits 2 (m.cents.natAbs % 100)

/-- `Decimal.toString()`. -/
def toString (m : Money) : List Char := m.whole ++ decimalFraction (m.cents.natAbs % 100)

example : (⟨-1250⟩ : Money).toString = "-12.5".toList ∧
    (⟨-1250⟩ : Money).toFixed = "-12.50".toList := by decide

theorem point_notMem_whole (m : Money) : '.' ∉ m.whole := by
  unfold whole
  rw [List.mem_append, not_or]
  refine ⟨by split <;> simp, fun h => ?_⟩
  exact absurd (Nat.isDigit_of_mem_toDigits (by decide) (by decide) h) (by decide)

/-- The digits before the point and the sign tell the amount but for its fraction. -/
theorem whole_inj {m n : Money} (h : m.whole = n.whole) :
    (m.cents < 0 ↔ n.cents < 0) ∧ m.cents.natAbs / 100 = n.cents.natAbs / 100 := by
  have hsign (k : ℕ) : ∀ cs, Nat.toDigits 10 k ≠ '-' :: cs := by
    intro cs hcs
    have hmem : '-' ∈ Nat.toDigits 10 k := hcs ▸ List.mem_cons_self
    exact absurd (Nat.isDigit_of_mem_toDigits (by decide) (by decide) hmem) (by decide)
  have hdigits {k l : ℕ} (hkl : Nat.toDigits 10 k = Nat.toDigits 10 l) : k = l := by
    have hread := congrArg (fun cs => Nat.ofDigitChars 10 cs 0) hkl
    simpa using hread
  unfold whole at h
  split_ifs at h with hm hn hn
  · exact ⟨iff_of_true hm hn, hdigits (List.append_cancel_left h)⟩
  · exact absurd h.symm (hsign _ _)
  · exact absurd h (hsign _ _)
  · exact ⟨iff_of_false hm hn, hdigits h⟩

/-- **The text of an amount tells it.** -/
theorem toString_injective : Function.Injective toString := by
  intro m n h
  -- the point, if there is one, is where the fraction starts
  have hwhole (m : Money) : m.toString.takeWhile (· ≠ '.') = m.whole := by
    have hfraction : (decimalFraction (m.cents.natAbs % 100)).takeWhile (· ≠ '.') = [] := by
      unfold decimalFraction
      split_ifs <;> simp
    rw [toString, List.takeWhile_append_of_pos, hfraction, List.append_nil]
    intro c hc
    simpa using fun hpoint : c = '.' => m.point_notMem_whole (hpoint ▸ hc)
  have heq : m.whole = n.whole := by rw [← hwhole, h, hwhole]
  obtain ⟨hsign, hhigh⟩ := whole_inj heq
  unfold toString at h
  rw [heq] at h
  have hlow := decimalFraction_inj (Nat.mod_lt _ (by decide)) (Nat.mod_lt _ (by decide))
    (List.append_cancel_left h)
  ext
  omega

end Money

/-! ### Instants -/

/-- A year of four digits and one with a sign start differently. -/
theorem isoYear_append_inj {y y' : ℤ} {r r' : List Char} (hy : y.natAbs < 1000000)
    (hy' : y'.natAbs < 1000000) (h : isoYear y ++ r = isoYear y' ++ r') : y = y' ∧ r = r' := by
  have hsigned (n : ℕ) (b : Bool) (cs cs' : List Char) :
      decimalDigits 4 n ++ cs ≠ (if b then '-' else '+') :: cs' := by
    have hdigit : ∀ k < 10, Nat.digitChar k ≠ (if b then '-' else '+') := by
      cases b <;> decide
    intro hcs
    have hhead := congrArg List.head? hcs
    simp only [decimalDigits, List.nil_append, List.cons_append, List.head?_cons,
      Option.some.injEq] at hhead
    exact hdigit _ (Nat.mod_lt _ (by decide)) hhead
  unfold isoYear at h
  split_ifs at h with h₁ h₂ h₃ h₄ h₅ h₆ h₇ h₈
  · obtain ⟨hyear, hrest⟩ := decimalDigits_append_inj (by omega) (by omega) h
    exact ⟨by omega, hrest⟩
  · exact absurd h (hsigned _ true _ _)
  · exact absurd h (hsigned _ false _ _)
  · exact absurd h.symm (hsigned _ true _ _)
  · obtain ⟨hyear, hrest⟩ := decimalDigits_append_inj (by omega) (by omega) (List.cons.inj h).2
    exact ⟨by omega, hrest⟩
  · exact absurd (List.cons.inj h).1 (by decide)
  · exact absurd h.symm (hsigned _ false _ _)
  · exact absurd (List.cons.inj h).1 (by decide)
  · obtain ⟨hyear, hrest⟩ := decimalDigits_append_inj (by omega) (by omega) (List.cons.inj h).2
    exact ⟨by omega, hrest⟩

/-- What a `Date` can hold. -/
def InDateRange (t : Instant) : Prop := t.natAbs ≤ 8_640_000_000_000_000

/-- Whether a `Date` can hold an instant can be decided. -/
instance (t : Instant) : Decidable (InDateRange t) := inferInstanceAs (Decidable (_ ≤ _))

/-- A year of a `Date` has six digits at most. -/
theorem natAbs_year_lt {y m d n : ℤ} (h : Calendar.IsDate y m d)
    (hday : Calendar.daysFromCivil y m d = n) (hn : n.natAbs ≤ 100_000_001) :
    y.natAbs < 1000000 := by
  obtain ⟨h₁, h₂, h₃, h₄⟩ := h
  have h₅ := (Calendar.daysInMonth_bounds y m).2
  rw [Calendar.daysFromCivil_eq, Calendar.yearStart] at hday
  omega

theorem natAbs_day_le {t : ℤ} (h : InDateRange t) :
    (t / Calendar.msPerDay).natAbs ≤ 100_000_001 := by
  unfold InDateRange at h
  unfold Calendar.msPerDay
  omega

/-- **The text of an instant tells it.** -/
theorem toISOString_injective {s t : Instant} (hs : InDateRange s) (ht : InDateRange t)
    (h : toISOString s = toISOString t) : s = t := by
  obtain ⟨hdate, hday⟩ := Calendar.civilFromDays_spec (s / Calendar.msPerDay)
  obtain ⟨hdate', hday'⟩ := Calendar.civilFromDays_spec (t / Calendar.msPerDay)
  have hyear := natAbs_year_lt hdate hday (natAbs_day_le hs)
  have hyear' := natAbs_year_lt hdate' hday' (natAbs_day_le ht)
  have hms := Int.emod_nonneg s (by decide : Calendar.msPerDay ≠ 0)
  have hms' := Int.emod_nonneg t (by decide : Calendar.msPerDay ≠ 0)
  have hlt := Int.emod_lt_of_pos s (by decide : 0 < Calendar.msPerDay)
  have hlt' := Int.emod_lt_of_pos t (by decide : 0 < Calendar.msPerDay)
  have hvalue : Calendar.msPerDay = 86400000 := rfl
  have hsplit := Int.ediv_mul_add_emod s Calendar.msPerDay
  have hsplit' := Int.ediv_mul_add_emod t Calendar.msPerDay
  simp only [toISOString, List.append_assoc, List.cons_append] at h
  generalize Calendar.civilFromDays (s / Calendar.msPerDay) = c at *
  generalize Calendar.civilFromDays (t / Calendar.msPerDay) = c' at *
  obtain ⟨year, month, day⟩ := c
  obtain ⟨year', month', day'⟩ := c'
  obtain ⟨h₁, h₂, h₃, h₄⟩ := hdate
  obtain ⟨h₁', h₂', h₃', h₄'⟩ := hdate'
  have h₅ := (Calendar.daysInMonth_bounds year month).2
  have h₅' := (Calendar.daysInMonth_bounds year' month').2
  simp only at *
  generalize s % Calendar.msPerDay = ms at *
  generalize t % Calendar.msPerDay = ms' at *
  -- part by part, from the year to the milliseconds
  obtain ⟨hyears, h⟩ := isoYear_append_inj hyear hyear' h
  obtain ⟨hmonth, h⟩ := decimalDigits_append_inj (by omega) (by omega) (List.cons.inj h).2
  obtain ⟨hdom, h⟩ := decimalDigits_append_inj (by omega) (by omega) (List.cons.inj h).2
  obtain ⟨hhour, h⟩ := decimalDigits_append_inj (by omega) (by omega) (List.cons.inj h).2
  obtain ⟨hminute, h⟩ := decimalDigits_append_inj (by omega) (by omega) (List.cons.inj h).2
  obtain ⟨hsecond, h⟩ := decimalDigits_append_inj (by omega) (by omega) (List.cons.inj h).2
  obtain ⟨hmilli, -⟩ := decimalDigits_append_inj (by omega) (by omega) (List.cons.inj h).2
  obtain rfl : year = year' := hyears
  obtain rfl : month = month' := by omega
  obtain rfl : day = day' := by omega
  obtain rfl : @Eq ℤ ms ms' := by omega
  rw [← hsplit, ← hsplit', ← hday, ← hday']

/-! ### Samples

What the witnesses take for the numbers and the digests of the runtime. -/

/-- Integers in decimal, and a text of its own for every other number. -/
def sampleText (q : ℚ) : List Char :=
  if q.den = 1 then (if q.num < 0 then ['-'] else []) ++ Nat.toDigits 10 q.num.natAbs
  else '.' :: List.replicate (Encodable.encode q) '0'

/-- Reads what `sampleText` writes. -/
def readSample (cs : List Char) : Option ℚ :=
  if cs.head? = some '.' then Encodable.decode cs.tail.length
  else if cs.head? = some '-' then some (-(Nat.ofDigitChars 10 cs.tail 0 : ℕ))
  else some (Nat.ofDigitChars 10 cs 0 : ℕ)

theorem isDigit_of_head?_toDigits {n : ℕ} {c : Char} (h : (Nat.toDigits 10 n).head? = some c) :
    c.isDigit = true :=
  Nat.isDigit_of_mem_toDigits (by decide) (by decide) (List.mem_of_mem_head? h)

theorem readSample_sampleText (q : ℚ) : readSample (sampleText q) = some q := by
  unfold sampleText
  split_ifs with hint hneg
  · have hnum : (q.num : ℚ) = q := Rat.coe_int_num_of_den_eq_one hint
    have hnonpos : q ≤ 0 := Rat.num_nonpos.mp hneg.le
    simp [readSample, abs_of_nonpos hnonpos, hnum]
  · have hnum : (q.num : ℚ) = q := Rat.coe_int_num_of_den_eq_one hint
    have hnonneg : 0 ≤ q := Rat.num_nonneg.mp (not_lt.mp hneg)
    have hpoint : (Nat.toDigits 10 q.num.natAbs).head? ≠ some '.' := fun h =>
      absurd (isDigit_of_head?_toDigits h) (by decide)
    have hminus : (Nat.toDigits 10 q.num.natAbs).head? ≠ some '-' := fun h =>
      absurd (isDigit_of_head?_toDigits h) (by decide)
    simp [readSample, hpoint, hminus, hnum, hnonneg]
  · simp [readSample]

/-- A way to write numbers, under which examples are computed. -/
def sampleNumbers : Numbers ℚ where
  text := sampleText
  read := readSample
  text_ne q := by
    unfold sampleText
    split_ifs <;> simp [Nat.toDigits_ne_nil]
  isNumberChar_text q c hc := by
    unfold sampleText at hc
    have hdigit : c ∈ Nat.toDigits 10 q.num.natAbs → isNumberChar c = true := fun h => by
      simp [isNumberChar, Nat.isDigit_of_mem_toDigits (by decide) (by decide) h]
    split_ifs at hc
    · rcases List.mem_append.mp hc with hc | hc
      · rw [List.mem_singleton.mp hc]
        decide
      · exact hdigit hc
    · exact hdigit hc
    · rcases List.mem_cons.mp hc with rfl | hc
      · decide
      · rw [List.eq_of_mem_replicate hc]
        decide
  read_text := readSample_sampleText

/-- A digest of 32 bytes that is known, and an injective function elsewhere. -/
def sampleDigest (known digest bytes : List UInt8) : List UInt8 :=
  if bytes = known then digest else List.replicate 33 0 ++ bytes

theorem sampleDigest_injective {known digest : List UInt8} (h : digest.length = 32) :
    Function.Injective (sampleDigest known digest) := by
  intro m n hmn
  have hlength (bytes : List UInt8) : digest ≠ List.replicate 33 0 ++ bytes := by
    rintro rfl
    simp only [List.length_append, List.length_replicate] at h
    omega
  unfold sampleDigest at hmn
  split_ifs at hmn with hm hn hn
  · rw [hm, hn]
  · exact absurd hmn (hlength n)
  · exact absurd hmn.symm (hlength m)
  · exact List.append_cancel_left hmn

end BookingPlatform
