import BookingPlatform.Schema
import BookingPlatform.Lib.Binary64
import BookingPlatform.Lib.Calendar

/-!
# Pricing

`pricing.service.ts` with the schemas of `pricing.responses.ts`.  Money is
computed in exact rational arithmetic and rounded once, where the code calls
`formatMoney`; the same calculation in doubles is in `DoublePrices`.

## Main definitions

* `groupSizeConfigSchema`, `advanceBookingConfigSchema`, `seasonalConfigSchema` — the
  configurations that the rules accept.
* `applyRule` — one turn of the loop over the rules.
* `calculatePricingPreview` — the whole calculation.
* `numberToString` — the text of a number in a description.

## Main results

* `runningTotal_eq` — the running total is the subtotal times one factor for
  each rule, whatever the rules.
* `calculatePricingPreview_totalPrice_perm` — the price does not depend on the
  order in which the rules are loaded.
-/

namespace BookingPlatform

/-! ### Configurations -/

/-- `z.number()`: numbers from `2 ^ 1024 - 2 ^ 970` on are parsed as infinite, which it
refuses. -/
def zNumber : Json → Option ℚ
  | .num q => if |q| < (2 ^ 1024 - 2 ^ 970 : ℕ) then some q else none
  | _ => none

/-- `z.number().int()`: integers that a double holds exactly. -/
def zInt (j : Json) : Option ℤ := do
  let q ← zNumber j
  if q.den = 1 ∧ |q.num| ≤ 2 ^ 53 - 1 then some q.num else none

/-- What `groupSizeConfigSchema` accepts. -/
structure GroupSizeConfig where
  minPartySize : ℤ
  discountPercent : ℚ
  one_le_minPartySize : 1 ≤ minPartySize
  discount_nonneg : 0 ≤ discountPercent
  discount_le : discountPercent ≤ 100

/-- What `advanceBookingConfigSchema` accepts. -/
structure AdvanceBookingConfig where
  daysInAdvance : ℤ
  discountPercent : ℚ
  daysInAdvance_nonneg : 0 ≤ daysInAdvance
  discount_nonneg : 0 ≤ discountPercent
  discount_le : discountPercent ≤ 100

/-- What `seasonalConfigSchema` accepts. -/
structure SeasonalConfig where
  season : String
  months : List ℤ
  surchargePercent : ℚ
  season_ne : season ≠ ""
  months_ne : months ≠ []
  months_range : ∀ m ∈ months, 1 ≤ m ∧ m ≤ 12
  surcharge_nonneg : 0 ≤ surchargePercent

/-- `groupSizeConfigSchema.safeParse`. -/
def groupSizeConfigSchema (config : Json) : Option GroupSizeConfig := do
  let minPartySize ← (config.field? "minPartySize").bind zInt
  let discountPercent ← (config.field? "discountPercent").bind zNumber
  if h : 1 ≤ minPartySize ∧ 0 ≤ discountPercent ∧ discountPercent ≤ 100 then
    some ⟨minPartySize, discountPercent, h.1, h.2.1, h.2.2⟩
  else none

/-- `advanceBookingConfigSchema.safeParse`. -/
def advanceBookingConfigSchema (config : Json) : Option AdvanceBookingConfig := do
  let daysInAdvance ← (config.field? "daysInAdvance").bind zInt
  let discountPercent ← (config.field? "discountPercent").bind zNumber
  if h : 0 ≤ daysInAdvance ∧ 0 ≤ discountPercent ∧ discountPercent ≤ 100 then
    some ⟨daysInAdvance, discountPercent, h.1, h.2.1, h.2.2⟩
  else none

/-- `z.array(z.number().int())`. -/
def zIntArray : Json → Option (List ℤ)
  | .arr xs => xs.mapM zInt
  | _ => none

/-- `z.string()`. -/
def zString : Json → Option String
  | .str s => some s
  | _ => none

/-- `seasonalConfigSchema.safeParse`. -/
def seasonalConfigSchema (config : Json) : Option SeasonalConfig := do
  let season ← (config.field? "season").bind zString
  let months ← (config.field? "months").bind zIntArray
  let surchargePercent ← (config.field? "surchargePercent").bind zNumber
  if h : season ≠ "" ∧ months ≠ [] ∧ (∀ m ∈ months, 1 ≤ m ∧ m ≤ 12) ∧ 0 ≤ surchargePercent then
    some ⟨season, months, surchargePercent, h.1, h.2.1, h.2.2.1, h.2.2.2⟩
  else none

/-! ### Money -/

/-- `formatMoney`: `toFixed(2)` rounds to the nearest cent, halves away from
zero. -/
def formatMoney (amount : ℚ) : Money :=
  if amount < 0 then ⟨-⌊-amount * 100 + 1 / 2⌋⟩ else ⟨⌊amount * 100 + 1 / 2⌋⟩

/-- How many digits a decimal with this denominator has after the point. -/
def fractionLength (den : ℕ) : ℕ :=
  ((List.range (den.log2 + 1)).find? fun j => den ∣ 10 ^ j).getD den.log2

/-- Digits with a point behind the first `point` of them, and zeros or an exponent where
`Number::toString` prints these. -/
def placePoint (digits : List Char) (point : ℤ) : List Char :=
  if (digits.length : ℤ) ≤ point ∧ point ≤ 21 then
    digits ++ List.replicate (point.toNat - digits.length) '0'
  else if 0 < point ∧ point ≤ 21 then
    digits.take point.toNat ++ '.' :: digits.drop point.toNat
  else if -6 < point ∧ point ≤ 0 then
    '0' :: '.' :: List.replicate (-point).toNat '0' ++ digits
  else Binary64.mantissa digits ++ 'e' :: (if 0 < point then '+' else '-') ::
    Nat.toDigits 10 (point - 1).natAbs

/-- A number inside a template literal, from the shortest decimal that is parsed as it. -/
def numberToString (q : ℚ) : String :=
  let fraction := fractionLength q.den
  let digits := Nat.toDigits 10 (q.num.natAbs * 10 ^ fraction / q.den)
  let sign := if q < 0 then ['-'] else []
  String.ofList (if q = 0 then ['0']
    else sign ++ placePoint (digits.rdropWhile (· = '0')) (digits.length - fraction))

example : numberToString (25 / 2) = "12.5" ∧ numberToString (1 / 10 ^ 7) = "1e-7" ∧
    numberToString (10 ^ 21) = "1e+21" := by decide +kernel

/-! ### The preview -/

/-- What one rule adds to the breakdown. -/
structure PricingAdjustment where
  ruleType : PricingRuleType
  description : String
  percent : ℚ
  amount : Money
  deriving DecidableEq

/-- The breakdown that the API returns. -/
structure PricingPreview where
  partySize : ℤ
  basePricePerPerson : Money
  subtotal : Money
  adjustments : List PricingAdjustment
  totalPrice : Money
  deriving DecidableEq

/-- The loop variables of `calculatePricingPreview`. -/
structure Running where
  runningTotal : ℚ
  adjustments : List PricingAdjustment

/-- Take `percent` off the running total. -/
def Running.discount (r : Running) (ruleType : PricingRuleType) (description : String)
    (percent : ℚ) : Running :=
  let amount := r.runningTotal * (percent / 100)
  { runningTotal := r.runningTotal - amount
    adjustments := r.adjustments ++ [⟨ruleType, description, percent, formatMoney (-amount)⟩] }

/-- Put `percent` on the running total. -/
def Running.surcharge (r : Running) (ruleType : PricingRuleType) (description : String)
    (percent : ℚ) : Running :=
  let amount := r.runningTotal * (percent / 100)
  { runningTotal := r.runningTotal + amount
    adjustments := r.adjustments ++ [⟨ruleType, description, percent, formatMoney amount⟩] }

/-- `Math.floor((slotStartsAt.getTime() - Date.now()) / (1000 * 60 * 60 * 24))`. -/
def daysUntilSlot (slotStartsAt now : Instant) : ℤ := (slotStartsAt - now) / Calendar.msPerDay

/-- One turn of the loop over the rules. -/
def applyRule (partySize : ℤ) (slotStartsAt : Option Instant) (now : Instant) (r : Running)
    (rule : PricingRule) : Running :=
  match rule.ruleType with
  | .groupSize =>
    match groupSizeConfigSchema rule.config with
    | none => r
    | some config =>
      if partySize < config.minPartySize then r
      else r.discount .groupSize
        ("Group size discount (" ++ numberToString config.discountPercent ++ "% off for " ++
          toString config.minPartySize ++ "+ guests)") config.discountPercent
  | .advanceBooking =>
    match advanceBookingConfigSchema rule.config, slotStartsAt with
    | some config, some startsAt =>
      if daysUntilSlot startsAt now < config.daysInAdvance then r
      else r.discount .advanceBooking
        ("Advance booking discount (" ++ numberToString config.discountPercent ++ "% off for " ++
          toString config.daysInAdvance ++ "+ days ahead)") config.discountPercent
    | _, _ => r
  | .seasonal =>
    match seasonalConfigSchema rule.config, slotStartsAt with
    | some config, some startsAt =>
      if Calendar.monthOf startsAt ∉ config.months then r
      else r.surcharge .seasonal
        ("Seasonal surcharge (" ++ numberToString config.surchargePercent ++ "% " ++
          config.season ++ " rate)") config.surchargePercent
    | _, _ => r

/-- The price of a party at a slot, with one adjustment for each rule that applies. -/
def calculatePricingPreview (basePrice : Money) (partySize : ℤ) (rules : List PricingRule)
    (slotStartsAt : Option Instant) (now : Instant) : PricingPreview :=
  let basePricePerPerson := basePrice.toNumber
  let subtotal := basePricePerPerson * partySize
  let r := rules.foldl (applyRule partySize slotStartsAt now) ⟨subtotal, []⟩
  { partySize := partySize
    basePricePerPerson := formatMoney basePricePerPerson
    subtotal := formatMoney subtotal
    adjustments := r.adjustments
    totalPrice := formatMoney r.runningTotal }

/-! ### The factor of a rule -/

/-- What a rule multiplies the running total by. -/
def ruleFactor (partySize : ℤ) (slotStartsAt : Option Instant) (now : Instant)
    (rule : PricingRule) : ℚ :=
  match rule.ruleType with
  | .groupSize =>
    match groupSizeConfigSchema rule.config with
    | none => 1
    | some config =>
      if partySize < config.minPartySize then 1 else 1 - config.discountPercent / 100
  | .advanceBooking =>
    match advanceBookingConfigSchema rule.config, slotStartsAt with
    | some config, some startsAt =>
      if daysUntilSlot startsAt now < config.daysInAdvance then 1
      else 1 - config.discountPercent / 100
    | _, _ => 1
  | .seasonal =>
    match seasonalConfigSchema rule.config, slotStartsAt with
    | some config, some startsAt =>
      if Calendar.monthOf startsAt ∉ config.months then 1 else 1 + config.surchargePercent / 100
    | _, _ => 1

theorem Running.discount_runningTotal (r : Running) (ruleType : PricingRuleType)
    (description : String) (percent : ℚ) :
    (r.discount ruleType description percent).runningTotal
      = r.runningTotal * (1 - percent / 100) := by
  simp only [Running.discount]
  ring

theorem Running.surcharge_runningTotal (r : Running) (ruleType : PricingRuleType)
    (description : String) (percent : ℚ) :
    (r.surcharge ruleType description percent).runningTotal
      = r.runningTotal * (1 + percent / 100) := by
  simp only [Running.surcharge]
  ring

/-- **A rule multiplies the running total by a factor that ignores the total.** -/
theorem applyRule_runningTotal (partySize : ℤ) (slotStartsAt : Option Instant) (now : Instant)
    (r : Running) (rule : PricingRule) :
    (applyRule partySize slotStartsAt now r rule).runningTotal
      = r.runningTotal * ruleFactor partySize slotStartsAt now rule := by
  unfold applyRule ruleFactor
  cases rule.ruleType with
  | groupSize =>
    simp only
    cases groupSizeConfigSchema rule.config with
    | none => simp
    | some config =>
      simp only
      split
      · simp
      · exact r.discount_runningTotal _ _ _
  | advanceBooking =>
    simp only
    rcases advanceBookingConfigSchema rule.config with _ | config <;>
      rcases slotStartsAt with _ | startsAt <;> simp only [mul_one]
    split
    · simp
    · exact r.discount_runningTotal _ _ _
  | seasonal =>
    simp only
    rcases seasonalConfigSchema rule.config with _ | config <;>
      rcases slotStartsAt with _ | startsAt <;> simp only [mul_one]
    split
    · simp
    · exact r.surcharge_runningTotal _ _ _

/-- The running total after a list of rules. -/
theorem runningTotal_eq (partySize : ℤ) (slotStartsAt : Option Instant) (now : Instant)
    (rules : List PricingRule) (r : Running) :
    (rules.foldl (applyRule partySize slotStartsAt now) r).runningTotal
      = r.runningTotal * (rules.map (ruleFactor partySize slotStartsAt now)).prod := by
  induction rules generalizing r with
  | nil => simp
  | cons rule rules ih =>
    rw [List.foldl_cons, ih, applyRule_runningTotal, List.map_cons, List.prod_cons, mul_assoc]

/-- **The price does not depend on the order of the rules.** -/
theorem calculatePricingPreview_totalPrice_perm {rules rules' : List PricingRule}
    (h : rules.Perm rules') (basePrice : Money) (partySize : ℤ) (slotStartsAt : Option Instant)
    (now : Instant) :
    (calculatePricingPreview basePrice partySize rules slotStartsAt now).totalPrice
      = (calculatePricingPreview basePrice partySize rules' slotStartsAt now).totalPrice := by
  simp only [calculatePricingPreview, runningTotal_eq]
  rw [(h.map _).prod_eq]

end BookingPlatform
