import Mathlib.Tactic

/-!
# Values

The column types and wire values the services compute with: identifiers, 32-bit
integers, instants, money, JSON, and the errors a request can end with.

## Main definitions

* `Uuid`, `Int4`, `Instant`, `Money` — what the columns hold.
* `Json` — the values of the JSON columns.
* `AppError`, `Failure` — the errors a service can end with.
* `throwIf`, `orThrow` — how the services throw them.
-/

namespace BookingPlatform

/-! ### Identifiers -/

/-- A UUID. -/
structure Uuid where
  bits : BitVec 128
  deriving DecidableEq, Repr

/-- The nil identifier. -/
instance : Inhabited Uuid := ⟨⟨0⟩⟩

/-- The UUID with the bits of a number. -/
def uuid (n : ℕ) : Uuid := ⟨BitVec.ofNat 128 n⟩

/-- A lower-case hexadecimal digit. -/
def hexDigit (n : ℕ) : Char := "0123456789abcdef".toList.getD n '0'

/-- Digits `i, …, i + n - 1` of the 32 hexadecimal digits of a UUID, most
significant first. -/
def Uuid.digits (u : Uuid) (i n : ℕ) : List Char :=
  (List.range' i n).map fun k => hexDigit (u.bits.toNat / 16 ^ (31 - k) % 16)

/-- The canonical `8-4-4-4-12` rendering. -/
def Uuid.toChars (u : Uuid) : List Char :=
  u.digits 0 8 ++ '-' :: u.digits 8 4 ++ '-' :: u.digits 12 4 ++ '-' :: u.digits 16 4 ++
    '-' :: u.digits 20 12

/-- The text of an identifier, as it is sent and stored. -/
def Uuid.toString (u : Uuid) : String := String.ofList u.toChars

theorem hexDigit_inj : ∀ m < 16, ∀ n < 16, hexDigit m = hexDigit n → m = n := by decide

theorem Uuid.length_digits (u : Uuid) (i n : ℕ) : (u.digits i n).length = n := by
  simp [digits]

/-- A number below `b ^ n` is given by its `n` digits. -/
theorem eq_of_digits {b : ℕ} {m n : ℕ} (k : ℕ) (h : ∀ i < k, m / b ^ i % b = n / b ^ i % b) :
    m % b ^ k = n % b ^ k := by
  induction k with
  | zero => rw [pow_zero, Nat.mod_one, Nat.mod_one]
  | succ k ih =>
    rw [Nat.mod_pow_succ, Nat.mod_pow_succ, ih fun i hi => h i (Nat.lt_succ_of_lt hi),
      h k (Nat.lt_succ_self k)]

/-- The 32 digits of a UUID, in order. -/
theorem Uuid.digits_append (u : Uuid) (i m n : ℕ) :
    u.digits i m ++ u.digits (i + m) n = u.digits i (m + n) := by
  rw [digits, digits, digits, ← List.map_append, List.range'_append_1]

theorem Uuid.eq_of_digits_eq {u v : Uuid} (h : u.digits 0 32 = v.digits 0 32) : u = v := by
  have hdigit : ∀ i < 32, u.bits.toNat / 16 ^ i % 16 = v.bits.toNat / 16 ^ i % 16 := by
    intro i hi
    have hk := List.map_inj_left.mp h (31 - i) (by simp; omega)
    have hsub : 31 - (31 - i) = i := by omega
    rw [hsub] at hk
    exact hexDigit_inj _ (Nat.mod_lt _ (by decide)) _ (Nat.mod_lt _ (by decide)) hk
  have hmod := eq_of_digits 32 hdigit
  have hu : u.bits.toNat < 16 ^ 32 := u.bits.isLt
  have hv : v.bits.toNat < 16 ^ 32 := v.bits.isLt
  rw [Nat.mod_eq_of_lt hu, Nat.mod_eq_of_lt hv] at hmod
  cases u
  cases v
  exact congrArg Uuid.mk (BitVec.eq_of_toNat_eq hmod)

/-- **Renderings are distinct.** -/
theorem Uuid.toChars_injective : Function.Injective Uuid.toChars := by
  intro u v h
  simp only [toChars, List.append_assoc, List.cons_append] at h
  -- the groups have fixed lengths, so they agree one by one
  obtain ⟨h₁, h⟩ := List.append_inj h (by simp only [length_digits])
  obtain ⟨h₂, h⟩ := List.append_inj (List.cons_inj_right '-' |>.mp h) (by simp only [length_digits])
  obtain ⟨h₃, h⟩ := List.append_inj (List.cons_inj_right '-' |>.mp h) (by simp only [length_digits])
  obtain ⟨h₄, h⟩ := List.append_inj (List.cons_inj_right '-' |>.mp h) (by simp only [length_digits])
  have h₅ := List.cons_inj_right '-' |>.mp h
  refine eq_of_digits_eq ?_
  rw [← digits_append u 0 20 12, ← digits_append u 0 16 4, ← digits_append u 0 12 4,
    ← digits_append u 0 8 4, ← digits_append v 0 20 12, ← digits_append v 0 16 4,
    ← digits_append v 0 12 4, ← digits_append v 0 8 4]
  simp only [Nat.zero_add, h₁, h₂, h₃, h₄, h₅]

theorem Uuid.length_toChars (u : Uuid) : u.toChars.length = 36 := by
  simp [toChars, length_digits]

/-- A rendering has hexadecimal digits and dashes only. -/
theorem Uuid.mem_toChars {u : Uuid} {c : Char} (h : c ∈ u.toChars) :
    c = '-' ∨ ∃ n < 16, c = hexDigit n := by
  have hdigits : ∀ i n, c ∈ u.digits i n → ∃ n < 16, c = hexDigit n := by
    intro i n hc
    obtain ⟨k, -, hk⟩ := List.mem_map.mp hc
    exact ⟨_, Nat.mod_lt _ (by decide), hk.symm⟩
  simp only [toChars, List.mem_append, List.mem_cons] at h
  rcases h with (((h | h | h) | h | h) | h | h) | h | h
  all_goals first
    | exact Or.inl h
    | exact Or.inr (hdigits _ _ h)

/-! ### Errors -/

/-- The errors of the database driver that a statement here can raise. -/
inductive DbError
  | uniqueConstraint
  | integerOutOfRange
  | numericFieldOverflow
  | datetimeFieldOverflow
  | recordNotFound
  deriving DecidableEq, Repr

/-- `AppError`: what the service throws deliberately. -/
structure AppError where
  statusCode : ℕ
  code : String
  message : String
  deriving DecidableEq, Repr

/-- A request that is not well formed. -/
def badRequestError (message : String) : AppError := ⟨400, "BAD_REQUEST", message⟩

/-- A request without valid credentials. -/
def unauthorizedError (message : String) : AppError := ⟨401, "UNAUTHORIZED", message⟩

/-- A request that the user's role does not allow. -/
def forbiddenError (message : String) : AppError := ⟨403, "FORBIDDEN", message⟩

/-- A request for what does not exist, or is not the user's. -/
def notFoundError (message : String) : AppError := ⟨404, "NOT_FOUND", message⟩

/-- A request that the present state does not allow. -/
def conflictError (message : String) : AppError := ⟨409, "CONFLICT", message⟩

/-- What every other error is answered as. -/
def internalServerError : AppError := ⟨500, "INTERNAL_SERVER_ERROR", "Internal server error"⟩

/-- How a call can fail: an `AppError`, an error of the database, or an invalid
`Date` handed to the driver. -/
inductive Failure
  | app (e : AppError)
  | db (e : DbError)
  | invalidDate
  deriving DecidableEq, Repr

/-- `if (c) throw e`. -/
def throwIf (c : Prop) [Decidable c] (e : Failure) : Except Failure Unit :=
  if c then .error e else .ok ()

theorem throwIf_eq_ok {c : Prop} [Decidable c] {e : Failure} {u : Unit} :
    throwIf c e = .ok u ↔ ¬ c := by
  unfold throwIf
  split <;> simp [*]

/-- `if (!value) throw e`. -/
def orThrow {α : Type} (o : Option α) (e : Failure) : Except Failure α :=
  match o with
  | some a => .ok a
  | none => .error e

theorem orThrow_eq_ok {α : Type} {o : Option α} {e : Failure} {a : α} :
    orThrow o e = .ok a ↔ o = some a := by
  cases o <;> simp [orThrow]

/-! ### Integers -/

/-- A value of an `INTEGER` column. -/
@[ext]
structure Int4 where
  val : ℤ
  lower : -2147483648 ≤ val
  upper : val ≤ 2147483647
  deriving DecidableEq, Repr

namespace Int4

/-- A column as the number it holds. -/
instance : Coe Int4 ℤ := ⟨val⟩

/-- The largest value of an `INTEGER` column. -/
def max : Int4 := ⟨2147483647, by norm_num, le_refl _⟩

/-- A small natural number as a column value. -/
def ofNat (n : ℕ) (h : n ≤ 2147483647 := by decide) : Int4 := ⟨n, by omega, by omega⟩

/-- Writing a computed number into an `INTEGER` column: out of range is an
error, not a wrap-around. -/
def write (x : ℤ) : Except Failure Int4 :=
  if h : -2147483648 ≤ x ∧ x ≤ 2147483647 then .ok ⟨x, h.1, h.2⟩
  else .error (.db .integerOutOfRange)

theorem write_eq_ok {x : ℤ} {i : Int4} : write x = .ok i ↔ i.val = x := by
  unfold write
  split
  · next h =>
    rw [Except.ok.injEq, Int4.ext_iff]
    exact eq_comm
  · next h =>
    simp only [reduceCtorEq, false_iff]
    rintro rfl
    exact h ⟨i.lower, i.upper⟩

end Int4

/-! ### Time and money -/

/-- Milliseconds since the epoch. -/
abbrev Instant := ℤ

/-- An amount with two decimals, as its number of cents. -/
@[ext]
structure Money where
  cents : ℤ
  deriving DecidableEq, Repr

namespace Money

/-- Amounts are compared by their cents. -/
instance : LinearOrder Money := LinearOrder.lift' cents fun _ _ h => Money.ext h

theorem le_def {m n : Money} : m ≤ n ↔ m.cents ≤ n.cents := Iff.rfl

/-- `Number(amount)`. -/
def toNumber (m : Money) : ℚ := m.cents / 100

/-- The amount fits a `DECIMAL(12,2)` column. -/
def FitsDecimal (m : Money) : Prop := |m.cents| < 10 ^ 12

/-- Whether a column holds an amount can be decided. -/
instance (m : Money) : Decidable m.FitsDecimal := inferInstanceAs (Decidable (_ < _))

end Money

/-! ### JSON -/

/-- A JSON document. -/
inductive Json
  | null
  | bool (b : Bool)
  | num (q : ℚ)
  | str (s : String)
  | arr (xs : List Json)
  | obj (fields : List (String × Json))

namespace Json

/-- The value of a field of an object. -/
def field? : Json → String → Option Json
  | .obj fields, name => (fields.find? fun f => f.1 == name).map Prod.snd
  | _, _ => none

end Json

end BookingPlatform
