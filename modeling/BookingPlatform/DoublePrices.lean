import BookingPlatform.Experience
import BookingPlatform.Lib.Double

/-!
# Prices in doubles

`pricing.service.ts` in the numbers that JavaScript computes with.  Every operation
rounds, so the total may depend on the order in which the rules are loaded, by a cent
where it is close to half of one.

## Main definitions

* `RuleEffect`, `ruleEffect` — what a rule does to the running total.
* `runningTotalIn` — the loop over the rules, in numbers of some kind.
* `PrintedAmount` — what `toFixed(2)` prints, and the number that is read back.
* `Pricer.double` — the prices of a search in doubles.

## Main results

* `totalPrice_eq_runningTotalIn` — in exact arithmetic it is the total of the preview.
-/

namespace BookingPlatform

/-! ### The running total -/

/-- What a rule does to the running total: nothing, or take a percentage off it, or put
one on it. -/
inductive RuleEffect
  | skip
  | discount (percent : ℚ)
  | surcharge (percent : ℚ)

/-- One turn of the loop over the rules, as far as it concerns the running total. -/
def ruleEffect (partySize : ℤ) (slotStartsAt : Option Instant) (now : Instant)
    (rule : PricingRule) : RuleEffect :=
  match rule.ruleType with
  | .groupSize =>
    match groupSizeConfigSchema rule.config with
    | none => .skip
    | some config =>
      if partySize < config.minPartySize then .skip else .discount config.discountPercent
  | .advanceBooking =>
    match advanceBookingConfigSchema rule.config, slotStartsAt with
    | some config, some startsAt =>
      if daysUntilSlot startsAt now < config.daysInAdvance then .skip
      else .discount config.discountPercent
    | _, _ => .skip
  | .seasonal =>
    match seasonalConfigSchema rule.config, slotStartsAt with
    | some config, some startsAt =>
      if Calendar.monthOf startsAt ∉ config.months then .skip
      else .surcharge config.surchargePercent
    | _, _ => .skip

section Numbers

variable {α : Type} [Add α] [Sub α] [Mul α] [Div α] (number : ℚ → α)

/-- The running total after a rule, in the numbers of `number`. -/
def RuleEffect.apply : RuleEffect → α → α
  | .skip, runningTotal => runningTotal
  | .discount percent, runningTotal =>
    let amount := runningTotal * (number percent / number 100)
    runningTotal - amount
  | .surcharge percent, runningTotal =>
    let amount := runningTotal * (number percent / number 100)
    runningTotal + amount

/-- The running total of `calculatePricingPreview`, in the numbers of `number`. -/
def runningTotalIn (basePrice : Money) (partySize : ℤ) (rules : List PricingRule)
    (slotStartsAt : Option Instant) (now : Instant) : α :=
  rules.foldl (fun total rule => (ruleEffect partySize slotStartsAt now rule).apply number total)
    (number basePrice.toNumber * number partySize)

end Numbers

/-- **In exact arithmetic a turn of the loop does to the total what the rule does.** -/
theorem applyRule_runningTotal_eq_apply (partySize : ℤ) (slotStartsAt : Option Instant)
    (now : Instant) (r : Running) (rule : PricingRule) :
    (applyRule partySize slotStartsAt now r rule).runningTotal =
      (ruleEffect partySize slotStartsAt now rule).apply id r.runningTotal := by
  unfold applyRule ruleEffect
  cases rule.ruleType with
  | groupSize =>
    simp only
    cases groupSizeConfigSchema rule.config with
    | none => rfl
    | some config =>
      simp only
      split <;> rfl
  | advanceBooking =>
    simp only
    rcases advanceBookingConfigSchema rule.config with _ | config <;>
      rcases slotStartsAt with _ | startsAt <;> try rfl
    simp only
    split <;> rfl
  | seasonal =>
    simp only
    rcases seasonalConfigSchema rule.config with _ | config <;>
      rcases slotStartsAt with _ | startsAt <;> try rfl
    simp only
    split <;> rfl

/-- **In exact arithmetic the loop computes the total of the preview.** -/
theorem totalPrice_eq_runningTotalIn (basePrice : Money) (partySize : ℤ) (rules : List PricingRule)
    (slotStartsAt : Option Instant) (now : Instant) :
    (calculatePricingPreview basePrice partySize rules slotStartsAt now).totalPrice =
      formatMoney (runningTotalIn id basePrice partySize rules slotStartsAt now) := by
  have hloop : ∀ r : Running,
      (rules.foldl (applyRule partySize slotStartsAt now) r).runningTotal =
        rules.foldl (fun total rule =>
          (ruleEffect partySize slotStartsAt now rule).apply id total) r.runningTotal := by
    intro r
    induction rules generalizing r with
    | nil => rfl
    | cons rule rules ih =>
      rw [List.foldl_cons, List.foldl_cons, ih, applyRule_runningTotal_eq_apply]
  exact congrArg formatMoney (hloop _)

/-! ### Amounts, printed and read -/

/-- An amount as a text: a sign and cents, or the number itself where `toFixed` prints
it as `String` does. -/
inductive PrintedAmount
  | fixed (negative : Bool) (cents : ℕ)
  | plain (x : Float)
  deriving DecidableEq

/-- `formatMoney` of a double: `toFixed(2)` takes the nearest cent to the number that the
double is, halves away from zero, below `10 ^ 21`. -/
def PrintedAmount.ofDouble (amount : Float) : PrintedAmount :=
  match Double.value? amount with
  | none => .plain amount
  | some q =>
    if 10 ^ 21 ≤ |q| then .plain amount
    else .fixed (q < 0) ⌊|q| * 100 + 1 / 2⌋.toNat

/-- The text of an amount in the database. -/
def PrintedAmount.ofMoney (amount : Money) : PrintedAmount :=
  .fixed (amount.cents < 0) amount.cents.natAbs

/-- `Number` of the text of an amount. -/
def PrintedAmount.toNumber : PrintedAmount → Float
  | .fixed negative cents =>
    if negative then -Double.ofRat (cents / 100) else Double.ofRat (cents / 100)
  | .plain x => x

/-- `totalPrice` of the preview of a slot, in doubles. -/
def totalPriceInDoubles (basePrice : Money) (partySize : ℤ) (rules : List PricingRule)
    (startsAt now : Instant) : PrintedAmount :=
  .ofDouble (runningTotalIn Double.ofRat basePrice partySize rules (some startsAt) now)

/-- Prices in doubles. -/
@[reducible] def Pricer.double : Pricer where
  Price := PrintedAmount
  Number := Float
  totalPrice e partySize startsAt now :=
    totalPriceInDoubles e.experience.basePrice partySize e.pricingRules startsAt now
  ofBasePrice := PrintedAmount.ofMoney
  toNumber := PrintedAmount.toNumber
  lt := Float.lt

end BookingPlatform
