import Mathlib.Tactic
import Mathlib.Data.List.DropRight

/-!
# Integers as doubles, and their text

The doubles that are integers, and what `Number::toString` prints for them: the
shortest decimal that rounds to the number, padded with zeros below `10 ^ 21` and in
exponent form from there on.

## Main definitions

* `round`, `Integer` — the double nearest to an integer, and the doubles that are
  integers.
* `shortest` — the shortest decimal that rounds to a double.
* `Integer.text` — what `Number::toString` prints.

## Main results

* `text_injective` — the text tells the number.
* `count_point_text` — it has one decimal point at most.
* `point_notMem_text` — it has none below `10 ^ 21`.
-/

/-- A separator is found by counting the ones before it. -/
theorem List.eq_of_append_cons_eq {α : Type*} [DecidableEq α] {c : α} {u v s t : List α}
    (hcount : u.count c = v.count c) (h : u ++ c :: s = v ++ c :: t) : u = v ∧ s = t := by
  induction u generalizing v with
  | nil =>
    cases v with
    | nil => exact ⟨rfl, (List.cons.inj h).2⟩
    | cons x v =>
      have hx : c = x := (List.cons.inj h).1
      simp [hx] at hcount
  | cons x u ih =>
    cases v with
    | nil =>
      have hx : x = c := (List.cons.inj h).1
      simp [hx] at hcount
    | cons y v =>
      obtain ⟨rfl, htail⟩ := List.cons.inj h
      have hrest : u.count c = v.count c := by
        simpa [List.count_cons] using hcount
      obtain ⟨rfl, hst⟩ := ih hrest htail
      exact ⟨rfl, hst⟩

theorem List.eq_of_append_cons_eq_of_notMem {α : Type*} [DecidableEq α] {c : α}
    {u v s t : List α} (hu : c ∉ u) (hv : c ∉ v) (h : u ++ c :: s = v ++ c :: t) :
    u = v ∧ s = t :=
  List.eq_of_append_cons_eq
    (by rw [List.count_eq_zero_of_not_mem hu, List.count_eq_zero_of_not_mem hv]) h

namespace Binary64

/-! ### Rounding -/

/-- The distance of the doubles around `n`. -/
def ulp (n : ℕ) : ℕ := 2 ^ (n.log2 - 52)

/-- The double nearest to `n`, halves to the even one. -/
def round (n : ℕ) : ℕ :=
  let q := n / ulp n
  let r := n % ulp n
  if 2 * r < ulp n ∨ (2 * r = ulp n ∧ q % 2 = 0) then q * ulp n else (q + 1) * ulp n

theorem log2_le_of_lt {n : ℕ} (h : n < 2 ^ 53) : n.log2 ≤ 52 := by
  rcases Nat.eq_zero_or_pos n with rfl | hpos
  · decide
  · exact Nat.le_of_lt_succ ((Nat.log2_lt hpos.ne').2 h)

theorem round_of_lt {n : ℕ} (h : n < 2 ^ 53) : round n = n := by
  have hlog : n.log2 - 52 = 0 := Nat.sub_eq_zero_of_le (log2_le_of_lt h)
  simp [round, ulp, hlog, Nat.mod_one]

/-! ### The shortest decimal -/

/-- A multiple of `p` beside `x` that rounds to `x`, the nearer one if both do. -/
def candidate (p x : ℕ) : Option ℕ :=
  let below := x / p * p
  let above := below + p
  (if x - below ≤ above - x then [below, above] else [above, below]).find? fun y => round y = x

/-- The decimal with the most zeros at its end, of those that round to `x`. -/
def shortestFrom (x : ℕ) : ℕ → ℕ
  | 0 => x
  | j + 1 => (candidate (10 ^ (j + 1)) x).getD (shortestFrom x j)

/-- The shortest decimal that rounds to `x`, as an integer. -/
def shortest (x : ℕ) : ℕ := shortestFrom x (Nat.toDigits 10 x).length

theorem candidate_spec {p x y : ℕ} (h : candidate p x = some y) :
    round y = x ∧ (y = x / p * p ∨ y = x / p * p + p) := by
  have hround := List.find?_some h
  have hmem := List.mem_of_find?_eq_some h
  refine ⟨by simpa using hround, ?_⟩
  split at hmem <;> simp at hmem <;> omega

theorem round_shortestFrom {x : ℕ} (hx : round x = x) (j : ℕ) : round (shortestFrom x j) = x := by
  induction j with
  | zero => exact hx
  | succ j ih =>
    rw [shortestFrom]
    cases h : candidate (10 ^ (j + 1)) x with
    | none => exact ih
    | some y => exact (candidate_spec h).1

/-- The search does not reach a double above `x` that is a multiple of its powers. -/
theorem shortestFrom_lt {x m : ℕ} (hm : round m = m) (hx : x < m) (j : ℕ)
    (hdvd : 10 ^ j ∣ m) : shortestFrom x j < m := by
  induction j with
  | zero => exact hx
  | succ j ih =>
    rw [shortestFrom]
    cases h : candidate (10 ^ (j + 1)) x with
    | none => exact ih (dvd_trans (pow_dvd_pow 10 j.le_succ) hdvd)
    | some y =>
      obtain ⟨hround, hbeside⟩ := candidate_spec h
      have hle : y ≤ m := by
        have hbelow := Nat.div_mul_le_self x (10 ^ (j + 1))
        obtain ⟨k, rfl⟩ := hdvd
        have hlt : x / 10 ^ (j + 1) < k :=
          Nat.div_lt_of_lt_mul hx
        have habove : (x / 10 ^ (j + 1) + 1) * 10 ^ (j + 1) ≤ k * 10 ^ (j + 1) :=
          Nat.mul_le_mul_right _ hlt
        rw [Nat.add_mul, Nat.one_mul, Nat.mul_comm k] at habove
        rcases hbeside with rfl | rfl <;> omega
      have hne : y ≠ m := by
        intro heq
        rw [heq, hm] at hround
        omega
      exact lt_of_le_of_ne hle hne

theorem round_shortest {x : ℕ} (hx : round x = x) : round (shortest x) = x :=
  round_shortestFrom hx _

theorem shortest_lt {x : ℕ} (hx : x < 10 ^ 21) : shortest x < 10 ^ 21 := by
  have hlen : (Nat.toDigits 10 x).length ≤ 21 :=
    (Nat.length_toDigits_le_iff (by decide) (by decide)).2 hx
  exact shortestFrom_lt (by decide) hx _ (pow_dvd_pow 10 hlen)

/-! ### Digits -/

/-- The digits of a number, with a point behind the first when there are more. -/
def mantissa : List Char → List Char
  | d :: e :: ds => d :: '.' :: e :: ds
  | ds => ds

/-- Digits in exponent form. -/
def exponential (ds : List Char) : List Char :=
  mantissa (ds.rdropWhile (· = '0')) ++ 'e' :: '+' :: Nat.toDigits 10 (ds.length - 1)

/-- `10 ^ 21` is the first number in exponent form. -/
def decimal (y : ℕ) : List Char :=
  if y < 10 ^ 21 then Nat.toDigits 10 y else exponential (Nat.toDigits 10 y)

example : decimal (shortest (2 ^ 70)) = "1.1805916207174113e+21".toList := by decide

/-- The largest double without an exponent. -/
example : decimal (shortest (10 ^ 21 - 2 ^ 17)) = "999999999999999900000".toList := by decide

theorem toDigits_injective : Function.Injective (Nat.toDigits 10) := by
  intro m n h
  have hread := congrArg (fun ds => Nat.ofDigitChars 10 ds 0) h
  simpa using hread

theorem isDigit_of_mem {c : Char} {n : ℕ} (h : c ∈ Nat.toDigits 10 n) : c.isDigit = true :=
  Nat.isDigit_of_mem_toDigits (by decide) (by decide) h

theorem notMem_toDigits {c : Char} (hc : c.isDigit = false) (n : ℕ) : c ∉ Nat.toDigits 10 n := by
  intro h
  rw [isDigit_of_mem h] at hc
  exact absurd hc (by decide)

theorem mantissa_injective : Function.Injective mantissa := by
  intro s t h
  -- no digit, one digit and more have lengths of their own
  match s, t with
  | [], [] => rfl
  | [], [_] => simp [mantissa] at h
  | [], _ :: _ :: _ => simp [mantissa] at h
  | [_], [] => simp [mantissa] at h
  | [_], [_] => simpa [mantissa] using h
  | [_], _ :: _ :: _ => simp [mantissa] at h
  | _ :: _ :: _, [] => simp [mantissa] at h
  | _ :: _ :: _, [_] => simp [mantissa] at h
  | _ :: _ :: _, _ :: _ :: _ => simpa [mantissa] using h

theorem mem_of_mem_mantissa {c : Char} {s : List Char} (h : c ∈ mantissa s) : c = '.' ∨ c ∈ s := by
  match s with
  | [] => exact .inr h
  | [_] => exact .inr h
  | d :: e :: ds =>
    simp only [mantissa, List.mem_cons] at h ⊢
    tauto

theorem count_point_mantissa {s : List Char} (h : '.' ∉ s) : (mantissa s).count '.' ≤ 1 := by
  match s with
  | [] => simp [mantissa]
  | [d] => simp [mantissa, List.count_eq_zero_of_not_mem h]
  | d :: e :: ds =>
    have hrest : '.' ∉ e :: ds := fun hmem => h (List.mem_cons_of_mem d hmem)
    have hd : d ≠ '.' := fun hd => h (hd ▸ List.mem_cons_self)
    rw [mantissa, List.count_cons_of_ne hd, List.count_cons_self,
      List.count_eq_zero_of_not_mem hrest]

theorem mem_of_mem_rdropWhile {p : Char → Bool} {c : Char} {ds : List Char}
    (h : c ∈ ds.rdropWhile p) : c ∈ ds :=
  (List.rdropWhile_prefix p ds).subset h

/-- Digits are told by their number and by what is left without the zeros at the end. -/
theorem eq_of_rdropWhile_eq {ds es : List Char} (hlen : ds.length = es.length)
    (h : ds.rdropWhile (· = '0') = es.rdropWhile (· = '0')) : ds = es := by
  have hpad : ∀ cs : List Char, cs = cs.rdropWhile (· = '0') ++
      List.replicate (cs.length - (cs.rdropWhile (· = '0')).length) '0' := by
    intro cs
    have hsplit := List.rdropWhile_append_rtakeWhile (p := (· = '0')) (l := cs)
    have hsum := congrArg List.length hsplit
    rw [List.length_append] at hsum
    have hzeros : cs.rtakeWhile (· = '0') =
        List.replicate (cs.length - (cs.rdropWhile (· = '0')).length) '0' := by
      refine List.eq_replicate_iff.2 ⟨by omega, fun c hc => ?_⟩
      simpa using List.mem_rtakeWhile_imp hc
    rw [← hzeros, hsplit]
  rw [hpad ds, hpad es, h, hlen]

theorem length_toDigits_pred_inj {m n : ℕ}
    (h : (Nat.toDigits 10 m).length - 1 = (Nat.toDigits 10 n).length - 1) :
    (Nat.toDigits 10 m).length = (Nat.toDigits 10 n).length := by
  have hm : 0 < (Nat.toDigits 10 m).length := Nat.length_toDigits_pos
  have hn : 0 < (Nat.toDigits 10 n).length := Nat.length_toDigits_pos
  omega

theorem e_notMem_mantissa (n : ℕ) : 'e' ∉ mantissa ((Nat.toDigits 10 n).rdropWhile (· = '0')) := by
  intro h
  rcases mem_of_mem_mantissa h with h | h
  · exact absurd h (by decide)
  · exact notMem_toDigits (by decide) n (mem_of_mem_rdropWhile h)

theorem exponential_inj {m n : ℕ}
    (h : exponential (Nat.toDigits 10 m) = exponential (Nat.toDigits 10 n)) : m = n := by
  -- the first `e` stands behind the mantissa
  obtain ⟨hmant, hexp⟩ :=
    List.eq_of_append_cons_eq_of_notMem (e_notMem_mantissa m) (e_notMem_mantissa n) h
  have hlen := length_toDigits_pred_inj (toDigits_injective (List.cons.inj hexp).2)
  exact toDigits_injective (eq_of_rdropWhile_eq hlen (mantissa_injective hmant))

theorem e_mem_exponential (ds : List Char) : 'e' ∈ exponential ds := by
  simp [exponential]

theorem decimal_injective : Function.Injective decimal := by
  intro m n h
  have he := notMem_toDigits (c := 'e') (by decide)
  unfold decimal at h
  split at h <;> split at h
  · exact toDigits_injective h
  · exact absurd (h ▸ e_mem_exponential _) (he m)
  · exact absurd (h.symm ▸ e_mem_exponential _) (he n)
  · exact exponential_inj h

theorem mem_decimal {c : Char} {y : ℕ} (h : c ∈ decimal y) :
    c.isDigit = true ∨ c = '.' ∨ c = 'e' ∨ c = '+' := by
  unfold decimal exponential at h
  split at h
  · exact .inl (isDigit_of_mem h)
  · simp only [List.mem_append, List.mem_cons] at h
    rcases h with h | h | h | h
    · rcases mem_of_mem_mantissa h with h | h
      · exact .inr (.inl h)
      · exact .inl (isDigit_of_mem (mem_of_mem_rdropWhile h))
    · exact .inr (.inr (.inl h))
    · exact .inr (.inr (.inr h))
    · exact .inl (isDigit_of_mem h)

theorem count_point_decimal (y : ℕ) : (decimal y).count '.' ≤ 1 := by
  have hdigits := fun n => List.count_eq_zero_of_not_mem (notMem_toDigits (c := '.') (by decide) n)
  unfold decimal exponential
  split
  · rw [hdigits]
    omega
  · have hmant := count_point_mantissa (s := (Nat.toDigits 10 y).rdropWhile (· = '0'))
      fun h => notMem_toDigits (by decide) y (mem_of_mem_rdropWhile h)
    simpa [List.count_cons, hdigits] using hmant

/-! ### Numbers -/

/-- An integer that is a double. -/
structure Integer where
  value : ℤ
  round_eq : round value.natAbs = value.natAbs
  log2_lt : value.natAbs.log2 < 1024

@[ext] theorem Integer.ext {s t : Integer} (h : s.value = t.value) : s = t := by
  cases s
  cases t
  simpa using h

/-- Integers below `2 ^ 53` are doubles. -/
def Integer.ofInt (n : ℤ) (h : n.natAbs < 2 ^ 53) : Integer where
  value := n
  round_eq := round_of_lt h
  log2_lt := (log2_le_of_lt h).trans_lt (by decide)

/-- `Number::toString`. -/
def Integer.text (t : Integer) : List Char :=
  if t.value < 0 then '-' :: decimal (shortest t.value.natAbs)
  else decimal (shortest t.value.natAbs)

theorem minus_notMem_decimal (y : ℕ) : '-' ∉ decimal y := by
  intro h
  simpa using mem_decimal h

theorem eq_of_decimal_shortest {x y : ℕ} (hx : round x = x) (hy : round y = y)
    (h : decimal (shortest x) = decimal (shortest y)) : x = y := by
  rw [← round_shortest hx, ← round_shortest hy, decimal_injective h]

theorem text_injective : Function.Injective Integer.text := by
  intro s t h
  have habs := eq_of_decimal_shortest s.round_eq t.round_eq
  apply Integer.ext
  unfold Integer.text at h
  split at h <;> split at h
  · have := habs (List.cons.inj h).2
    omega
  · exact absurd (h ▸ List.mem_cons_self) (minus_notMem_decimal _)
  · exact absurd (h.symm ▸ List.mem_cons_self) (minus_notMem_decimal _)
  · have := habs h
    omega

theorem mem_text {c : Char} {t : Integer} (h : c ∈ t.text) :
    c.isDigit = true ∨ c ∈ ['-', '.', 'e', '+'] := by
  unfold Integer.text at h
  have hdecimal := @mem_decimal c (shortest t.value.natAbs)
  split at h <;> simp at h ⊢ <;> tauto

theorem count_point_text (t : Integer) : t.text.count '.' ≤ 1 := by
  unfold Integer.text
  split
  · rw [List.count_cons_of_ne (by decide)]
    exact count_point_decimal _
  · exact count_point_decimal _

theorem point_notMem_text {t : Integer} (h : t.value.natAbs < 10 ^ 21) : '.' ∉ t.text := by
  have hdigits : '.' ∉ decimal (shortest t.value.natAbs) := by
    rw [decimal, if_pos (shortest_lt h)]
    exact notMem_toDigits (by decide) _
  unfold Integer.text
  split <;> simp [hdigits]

end Binary64
