import BookingPlatform.Pricing
import BookingPlatform.Lib.Rounding
import Mathlib.Algebra.Order.BigOperators.GroupWithZero.List

/-!
# Laws of the price

What a customer may expect of `calculatePricingPreview`: that the order of the
rules does not matter, that the printed breakdown adds up, that waiting does not
pay, and that no rule set drives a price out of its bounds.

## Main definitions

* `ruleRate`, `exactAmounts` — the share of the running total that a rule adds, and the
  amounts before they are rounded.
* `runningAfter` — the running total after the first rules.
* `ignored` — a rule whose configuration fails its schema, or that needs a slot where
  there is none.

## Main results

* `price_ignores_rule_order` — the total and the number of adjustments do not
  depend on the order of the rules.
* `breakdown_adds_up_within` — the printed breakdown adds up to half a cent for
  each adjustment and one half for the total, and exactly when no amount has to
  be rounded.
* `breakdown_not_always_adds_up` — it does not always add up exactly.
* `waiting_never_cheaper` — the total at a later time is no lower.
* `applyRule_shape` — what one turn of the loop can do.
* `prices_within_bounds` — no total is negative, discounts lower and surcharges
  raise it, and the surcharges that apply bound it.
-/

namespace BookingPlatform

/-! ### The rate of a rule -/

/-- The share of the running total that a rule adds, negative for a discount;
`none` when the rule is skipped. -/
def ruleRate (partySize : ℤ) (slotStartsAt : Option Instant) (now : Instant)
    (rule : PricingRule) : Option ℚ :=
  match rule.ruleType with
  | .groupSize => do
    let config ← groupSizeConfigSchema rule.config
    if partySize < config.minPartySize then none else some (-(config.discountPercent / 100))
  | .advanceBooking => do
    let config ← advanceBookingConfigSchema rule.config
    let startsAt ← slotStartsAt
    if daysUntilSlot startsAt now < config.daysInAdvance then none
    else some (-(config.discountPercent / 100))
  | .seasonal => do
    let config ← seasonalConfigSchema rule.config
    let startsAt ← slotStartsAt
    if Calendar.monthOf startsAt ∉ config.months then none
    else some (config.surchargePercent / 100)

/-- The exact amounts of the adjustments of a list of rules, from a running total
on. -/
def exactAmounts (rate : PricingRule → Option ℚ) : ℚ → List PricingRule → List ℚ
  | _, [] => []
  | total, rule :: rules =>
    match rate rule with
    | none => exactAmounts rate total rules
    | some q => total * q :: exactAmounts rate (total + total * q) rules

theorem length_exactAmounts (rate : PricingRule → Option ℚ) (total : ℚ)
    (rules : List PricingRule) :
    (exactAmounts rate total rules).length = rules.countP fun rule => (rate rule).isSome := by
  induction rules generalizing total with
  | nil => rfl
  | cons rule rules ih =>
    rw [List.countP_cons, exactAmounts]
    cases rate rule with
    | none => simpa using ih total
    | some q => simpa using ih (total + total * q)

section Preview

variable (partySize : ℤ) (slotStartsAt : Option Instant) (now : Instant)

/-- **One turn of the loop**: a rule that is skipped changes nothing, and any
other adds its share of the running total and prints it. -/
theorem applyRule_cases (r : Running) (rule : PricingRule) :
    (ruleRate partySize slotStartsAt now rule = none ∧
        applyRule partySize slotStartsAt now r rule = r) ∨
      ∃ q a, ruleRate partySize slotStartsAt now rule = some q ∧
        applyRule partySize slotStartsAt now r rule
          = ⟨r.runningTotal + r.runningTotal * q, r.adjustments ++ [a]⟩ ∧
        a.amount = formatMoney (r.runningTotal * q) := by
  -- a discount is printed with its sign, a surcharge as it is
  have hdiscount : ∀ (ruleType : PricingRuleType) (description : String) (percent : ℚ),
      ∃ a, r.discount ruleType description percent
          = ⟨r.runningTotal + r.runningTotal * -(percent / 100), r.adjustments ++ [a]⟩ ∧
        a.amount = formatMoney (r.runningTotal * -(percent / 100)) := by
    intro ruleType description percent
    refine ⟨⟨ruleType, description, percent,
      formatMoney (-(r.runningTotal * (percent / 100)))⟩, ?_, ?_⟩
    · rw [Running.discount, mul_neg, sub_eq_add_neg]
    · rw [mul_neg]
  have hsurcharge : ∀ (ruleType : PricingRuleType) (description : String) (percent : ℚ),
      ∃ a, r.surcharge ruleType description percent
          = ⟨r.runningTotal + r.runningTotal * (percent / 100), r.adjustments ++ [a]⟩ ∧
        a.amount = formatMoney (r.runningTotal * (percent / 100)) :=
    fun ruleType description percent => ⟨_, rfl, rfl⟩
  unfold applyRule ruleRate
  cases rule.ruleType with
  | groupSize =>
    cases groupSizeConfigSchema rule.config with
    | none => exact Or.inl ⟨rfl, rfl⟩
    | some config =>
      by_cases hskip : partySize < config.minPartySize
      · exact Or.inl ⟨if_pos hskip, if_pos hskip⟩
      · obtain ⟨a, ha, hamount⟩ := hdiscount _ _ _
        exact Or.inr ⟨_, a, if_neg hskip, (if_neg hskip).trans ha, hamount⟩
  | advanceBooking =>
    rcases advanceBookingConfigSchema rule.config with _ | config <;>
      rcases slotStartsAt with _ | startsAt <;> try exact Or.inl ⟨rfl, rfl⟩
    by_cases hskip : daysUntilSlot startsAt now < config.daysInAdvance
    · exact Or.inl ⟨if_pos hskip, if_pos hskip⟩
    · obtain ⟨a, ha, hamount⟩ := hdiscount _ _ _
      exact Or.inr ⟨_, a, if_neg hskip, (if_neg hskip).trans ha, hamount⟩
  | seasonal =>
    rcases seasonalConfigSchema rule.config with _ | config <;>
      rcases slotStartsAt with _ | startsAt <;> try exact Or.inl ⟨rfl, rfl⟩
    by_cases hskip : Calendar.monthOf startsAt ∉ config.months
    · exact Or.inl ⟨if_pos hskip, if_pos hskip⟩
    · obtain ⟨a, ha, hamount⟩ := hsurcharge _ _ _
      exact Or.inr ⟨_, a, if_neg hskip, (if_neg hskip).trans ha, hamount⟩

/-- **The whole loop**: the printed amounts are the exact ones, each rounded on its
own, and the running total moves by the sum of the exact ones. -/
theorem foldl_applyRule (rules : List PricingRule) (r : Running) :
    ((rules.foldl (applyRule partySize slotStartsAt now) r).adjustments.map
        PricingAdjustment.amount = r.adjustments.map PricingAdjustment.amount ++
      (exactAmounts (ruleRate partySize slotStartsAt now) r.runningTotal rules).map formatMoney) ∧
    (rules.foldl (applyRule partySize slotStartsAt now) r).runningTotal = r.runningTotal +
      (exactAmounts (ruleRate partySize slotStartsAt now) r.runningTotal rules).sum := by
  induction rules generalizing r with
  | nil => simp [exactAmounts]
  | cons rule rules ih =>
    rw [List.foldl_cons, exactAmounts]
    rcases applyRule_cases partySize slotStartsAt now r rule with
      ⟨hrate, hskip⟩ | ⟨q, a, hrate, hturn, hamount⟩
    · rw [hskip, hrate]
      exact ih r
    · obtain ⟨hprinted, htotal⟩ := ih ⟨r.runningTotal + r.runningTotal * q, r.adjustments ++ [a]⟩
      rw [hturn, hrate, hprinted, htotal]
      simp [hamount, add_assoc]

/-- How many adjustments a preview prints. -/
theorem length_adjustments (basePrice : Money) (rules : List PricingRule) :
    (calculatePricingPreview basePrice partySize rules slotStartsAt now).adjustments.length
      = rules.countP fun rule => (ruleRate partySize slotStartsAt now rule).isSome := by
  have hprinted := congrArg List.length (foldl_applyRule partySize slotStartsAt now rules
    ⟨basePrice.toNumber * partySize, []⟩).1
  simp only [List.map_nil, List.nil_append, List.length_map, length_exactAmounts] at hprinted
  exact hprinted

end Preview

/-! ### The order of the rules -/

/-- **The price does not depend on the order of the rules**, nor does the number of
adjustments. -/
theorem price_ignores_rule_order {rules rules' : List PricingRule} (h : rules.Perm rules')
    (basePrice : Money) (partySize : ℤ) (slotStartsAt : Option Instant) (now : Instant) :
    (calculatePricingPreview basePrice partySize rules slotStartsAt now).totalPrice
        = (calculatePricingPreview basePrice partySize rules' slotStartsAt now).totalPrice ∧
      (calculatePricingPreview basePrice partySize rules slotStartsAt now).adjustments.length
        = (calculatePricingPreview basePrice partySize rules' slotStartsAt now).adjustments.length
    := by
  refine ⟨calculatePricingPreview_totalPrice_perm h basePrice partySize slotStartsAt now, ?_⟩
  rw [length_adjustments, length_adjustments]
  exact h.countP_eq _

namespace TwoRules

/-- Ten percent off for two guests and more. -/
def groupRule : PricingRule :=
  ⟨default, default, .groupSize,
    .obj [("minPartySize", .num 2), ("discountPercent", .num 10)], true⟩

/-- A fifth more in January. -/
def seasonalRule : PricingRule :=
  ⟨default, default, .seasonal, .obj [("season", .str "winter"), ("months", .arr [.num 1]),
    ("surchargePercent", .num 20)], true⟩

end TwoRules

/-- A discount and a surcharge: the amounts differ with the order, the total does
not. -/
theorem price_ignores_rule_order_two_rules :
    (calculatePricingPreview ⟨10000⟩ 2 [TwoRules.groupRule, TwoRules.seasonalRule] (some 0)
        0).totalPrice
      = (calculatePricingPreview ⟨10000⟩ 2 [TwoRules.seasonalRule, TwoRules.groupRule] (some 0)
        0).totalPrice :=
  (price_ignores_rule_order (List.Perm.swap _ _ _) ⟨10000⟩ 2 (some 0) 0).1

/-! ### The breakdown -/

/-- `formatMoney` rounds to the nearest cent. -/
theorem cents_formatMoney (amount : ℚ) :
    (formatMoney amount).cents = roundAway (amount * 100) := by
  have hsign : amount * 100 < 0 ↔ amount < 0 := by
    constructor <;> intro h <;> linarith
  simp only [formatMoney, roundAway, hsign, round_eq]
  split
  · rw [neg_mul]
  · rfl

/-- Whole cents are printed as they are. -/
theorem cents_formatMoney_of_whole {amount : ℚ} {n : ℤ} (h : amount * 100 = n) :
    (formatMoney amount).cents = n := by
  rw [cents_formatMoney, h, roundAway_intCast]

/-- What the printed breakdown adds up to, in cents. -/
def PricingPreview.sumCents (p : PricingPreview) : ℤ :=
  p.subtotal.cents + (p.adjustments.map fun a => a.amount.cents).sum

/-- The exact amounts behind the adjustments of a preview, in cents. -/
def previewAmounts (basePrice : Money) (partySize : ℤ) (rules : List PricingRule)
    (slotStartsAt : Option Instant) (now : Instant) : List ℚ :=
  (exactAmounts (ruleRate partySize slotStartsAt now) (basePrice.toNumber * partySize) rules).map
    fun amount => amount * 100

section Breakdown

variable (basePrice : Money) (partySize : ℤ) (rules : List PricingRule)
  (slotStartsAt : Option Instant) (now : Instant)

/-- A subtotal is whole cents, so it is printed exactly. -/
theorem subtotal_cents :
    (calculatePricingPreview basePrice partySize rules slotStartsAt now).subtotal.cents
      = basePrice.cents * partySize := by
  refine cents_formatMoney_of_whole ?_
  rw [Money.toNumber]
  push_cast
  ring

/-- The printed adjustments are the exact ones, each rounded on its own. -/
theorem adjustments_cents :
    (calculatePricingPreview basePrice partySize rules slotStartsAt now).adjustments.map
        (fun a => a.amount.cents)
      = (previewAmounts basePrice partySize rules slotStartsAt now).map roundAway := by
  have hprinted := congrArg (List.map Money.cents) (foldl_applyRule partySize slotStartsAt now
    rules ⟨basePrice.toNumber * partySize, []⟩).1
  simp only [List.map_nil, List.nil_append, List.map_map, Function.comp_def,
    cents_formatMoney] at hprinted
  rw [previewAmounts, List.map_map]
  exact hprinted

/-- The printed total is the exact one, rounded. -/
theorem totalPrice_cents :
    (calculatePricingPreview basePrice partySize rules slotStartsAt now).totalPrice.cents
      = roundAway (((basePrice.cents * partySize : ℤ) : ℚ) +
          (previewAmounts basePrice partySize rules slotStartsAt now).sum) := by
  have htotal := (foldl_applyRule partySize slotStartsAt now rules
    ⟨basePrice.toNumber * partySize, []⟩).2
  rw [calculatePricingPreview, cents_formatMoney, htotal, previewAmounts, List.sum_map_mul_right,
    List.map_id', Money.toNumber]
  congr 1
  push_cast
  ring

/-- **The printed breakdown adds up within the rounding.** It is off the printed
total by half a cent for each adjustment and half a cent for the total at most,
so not at all without adjustments, and not at all when every exact amount is
whole cents. -/
theorem breakdown_adds_up_within :
    2 * |(calculatePricingPreview basePrice partySize rules slotStartsAt now).sumCents -
        (calculatePricingPreview basePrice partySize rules slotStartsAt now).totalPrice.cents|
      ≤ (calculatePricingPreview basePrice partySize rules slotStartsAt now).adjustments.length
        + 1 ∧
    ((∀ amount ∈ previewAmounts basePrice partySize rules slotStartsAt now,
        ∃ n : ℤ, amount = n) →
      (calculatePricingPreview basePrice partySize rules slotStartsAt now).sumCents
        = (calculatePricingPreview basePrice partySize rules slotStartsAt now).totalPrice.cents)
    := by
  have hsub := subtotal_cents basePrice partySize rules slotStartsAt now
  have hadj := adjustments_cents basePrice partySize rules slotStartsAt now
  have htot := totalPrice_cents basePrice partySize rules slotStartsAt now
  have hlen := congrArg List.length hadj
  rw [List.length_map, List.length_map] at hlen
  simp only [PricingPreview.sumCents, hsub, hadj, htot, hlen]
  exact ⟨abs_add_sum_roundAway_sub_le _ _, add_sum_roundAway_of_int _⟩

end Breakdown

/-- Two discounts of ten percent on a price of 10.03: printed, 10.03, -1.00 and
-0.90 make 8.13, and the total is printed as 8.12. -/
theorem breakdown_not_always_adds_up : ¬ ∀ (basePrice : Money) (partySize : ℤ)
    (rules : List PricingRule) (slotStartsAt : Option Instant) (now : Instant),
    0 ≤ basePrice.cents →
      (calculatePricingPreview basePrice partySize rules slotStartsAt now).sumCents
        = (calculatePricingPreview basePrice partySize rules slotStartsAt now).totalPrice.cents
    := by
  let rule : PricingRule := ⟨default, default, .groupSize,
    .obj [("minPartySize", .num 1), ("discountPercent", .num 10)], true⟩
  intro h
  have hsum := h ⟨1003⟩ 1 [rule, rule] none 0 (by decide)
  have hprinted : (calculatePricingPreview ⟨1003⟩ 1 [rule, rule] none 0).sumCents = 813 := by
    decide +kernel
  have htotal :
      (calculatePricingPreview ⟨1003⟩ 1 [rule, rule] none 0).totalPrice.cents = 812 := by
    decide +kernel
  rw [hprinted, htotal] at hsum
  exact absurd hsum (by decide)

/-! ### Waiting -/

theorem formatMoney_mono {x y : ℚ} (h : x ≤ y) : formatMoney x ≤ formatMoney y := by
  rw [Money.le_def, cents_formatMoney, cents_formatMoney]
  exact roundAway_mono (by linarith)

/-- Fewer days are left later. -/
theorem daysUntilSlot_anti (slotStartsAt : Instant) {now now' : Instant} (h : now ≤ now') :
    daysUntilSlot slotStartsAt now' ≤ daysUntilSlot slotStartsAt now :=
  Int.ediv_le_ediv (by decide) (sub_le_sub_left h slotStartsAt)

/-- A share of at most the whole leaves something. -/
private theorem discountFactor_mem {percent : ℚ} (h₀ : 0 ≤ percent) (h₁ : percent ≤ 100) :
    0 ≤ 1 - percent / 100 ∧ 1 - percent / 100 ≤ 1 := by
  constructor <;> linarith

/-- A factor is never negative. -/
theorem ruleFactor_nonneg (partySize : ℤ) (slotStartsAt : Option Instant) (now : Instant)
    (rule : PricingRule) : 0 ≤ ruleFactor partySize slotStartsAt now rule := by
  unfold ruleFactor
  cases rule.ruleType with
  | groupSize =>
    rcases groupSizeConfigSchema rule.config with _ | config
    · exact zero_le_one
    · simp only
      split
      · exact zero_le_one
      · exact (discountFactor_mem config.discount_nonneg config.discount_le).1
  | advanceBooking =>
    rcases advanceBookingConfigSchema rule.config with _ | config <;>
      rcases slotStartsAt with _ | startsAt <;> try exact zero_le_one
    simp only
    split
    · exact zero_le_one
    · exact (discountFactor_mem config.discount_nonneg config.discount_le).1
  | seasonal =>
    rcases seasonalConfigSchema rule.config with _ | config <;>
      rcases slotStartsAt with _ | startsAt <;> try exact zero_le_one
    simp only
    split
    · exact zero_le_one
    · have hsurcharge := config.surcharge_nonneg
      linarith

/-- **A factor never falls with time**: only the rule for advance bookings looks
at the clock, and it stops applying. -/
theorem ruleFactor_mono (partySize : ℤ) (slotStartsAt : Option Instant) {now now' : Instant}
    (h : now ≤ now') (rule : PricingRule) :
    ruleFactor partySize slotStartsAt now rule ≤ ruleFactor partySize slotStartsAt now' rule := by
  unfold ruleFactor
  cases rule.ruleType with
  | groupSize => exact le_refl _
  | seasonal => exact le_refl _
  | advanceBooking =>
    rcases advanceBookingConfigSchema rule.config with _ | config <;>
      rcases slotStartsAt with _ | startsAt <;> try exact le_refl _
    have hdays := daysUntilSlot_anti startsAt h
    have hfactor := (discountFactor_mem config.discount_nonneg config.discount_le).2
    simp only
    by_cases hskip : daysUntilSlot startsAt now < config.daysInAdvance
    · rw [if_pos hskip, if_pos (hdays.trans_lt hskip)]
    · rw [if_neg hskip]
      split
      · exact hfactor
      · exact le_refl _

/-- **Waiting never makes a slot cheaper.** -/
theorem waiting_never_cheaper {basePrice : Money} (hbase : 0 ≤ basePrice.cents) {partySize : ℤ}
    (hparty : 1 ≤ partySize) (rules : List PricingRule) (slotStartsAt : Option Instant)
    {now now' : Instant} (h : now ≤ now') :
    (calculatePricingPreview basePrice partySize rules slotStartsAt now).totalPrice
      ≤ (calculatePricingPreview basePrice partySize rules slotStartsAt now').totalPrice := by
  simp only [calculatePricingPreview, runningTotal_eq]
  refine formatMoney_mono (mul_le_mul_of_nonneg_left ?_ ?_)
  · exact List.prod_map_le_prod_map₀ _ _ (fun rule _ => ruleFactor_nonneg _ _ _ rule)
      fun rule _ => ruleFactor_mono partySize slotStartsAt h rule
  · have hprice : (0 : ℚ) ≤ basePrice.toNumber := by
      rw [Money.toNumber]
      positivity
    have hguests : (0 : ℚ) ≤ partySize := by exact_mod_cast (by omega : (0 : ℤ) ≤ partySize)
    exact mul_nonneg hprice hguests

/-- Ten percent off a week ahead: a day later it is six days, and the price is the
full one. -/
theorem waiting_never_cheaper_a_day :
    (calculatePricingPreview ⟨10000⟩ 1 [⟨default, default, .advanceBooking,
        .obj [("daysInAdvance", .num 7), ("discountPercent", .num 10)], true⟩]
        (some (7 * Calendar.msPerDay)) 0).totalPrice
      ≤ (calculatePricingPreview ⟨10000⟩ 1 [⟨default, default, .advanceBooking,
        .obj [("daysInAdvance", .num 7), ("discountPercent", .num 10)], true⟩]
        (some (7 * Calendar.msPerDay)) Calendar.msPerDay).totalPrice :=
  waiting_never_cheaper (by decide) (by decide) _ _ (by decide)

/-! ### Bounds -/

/-- The loop variables of `calculatePricingPreview` after some rules. -/
def runningAfter (basePrice : Money) (partySize : ℤ) (slotStartsAt : Option Instant)
    (now : Instant) (rules : List PricingRule) : Running :=
  rules.foldl (applyRule partySize slotStartsAt now) ⟨basePrice.toNumber * partySize, []⟩

/-- What the surcharges among the adjustments multiply a price by. -/
def surchargeFactor (adjustments : List PricingAdjustment) : ℚ :=
  ((adjustments.filter fun a => a.ruleType = .seasonal).map fun a => 1 + a.percent / 100).prod

/-- The configuration fails its schema, or the rule looks at the start of a slot
and there is none. -/
def ignored (slotStartsAt : Option Instant) (rule : PricingRule) : Bool :=
  match rule.ruleType with
  | .groupSize => (groupSizeConfigSchema rule.config).isNone
  | .advanceBooking => (advanceBookingConfigSchema rule.config).isNone || slotStartsAt.isNone
  | .seasonal => (seasonalConfigSchema rule.config).isNone || slotStartsAt.isNone

/-- **What one turn of the loop can do**: nothing, a discount of at most the whole,
or, for a seasonal rule, a surcharge. -/
theorem applyRule_shape (partySize : ℤ) (slotStartsAt : Option Instant) (now : Instant)
    (r : Running) (rule : PricingRule) :
    applyRule partySize slotStartsAt now r rule = r ∨
      (rule.ruleType ≠ .seasonal ∧ ∃ description percent, 0 ≤ percent ∧ percent ≤ 100 ∧
        applyRule partySize slotStartsAt now r rule
          = r.discount rule.ruleType description percent) ∨
      (rule.ruleType = .seasonal ∧ ∃ description percent, 0 ≤ percent ∧
        applyRule partySize slotStartsAt now r rule
          = r.surcharge .seasonal description percent) := by
  unfold applyRule
  cases rule.ruleType with
  | groupSize =>
    cases groupSizeConfigSchema rule.config with
    | none => simp
    | some config =>
      by_cases hskip : partySize < config.minPartySize
      · simp [hskip]
      · exact Or.inr (Or.inl ⟨by simp, _, _, config.discount_nonneg, config.discount_le,
          if_neg hskip⟩)
  | advanceBooking =>
    rcases advanceBookingConfigSchema rule.config with _ | config <;>
      rcases slotStartsAt with _ | startsAt <;> try exact Or.inl rfl
    by_cases hskip : daysUntilSlot startsAt now < config.daysInAdvance
    · simp [hskip]
    · exact Or.inr (Or.inl ⟨by simp, _, _, config.discount_nonneg, config.discount_le,
        if_neg hskip⟩)
  | seasonal =>
    rcases seasonalConfigSchema rule.config with _ | config <;>
      rcases slotStartsAt with _ | startsAt <;> try exact Or.inl rfl
    by_cases hskip : Calendar.monthOf startsAt ∉ config.months
    · simp [hskip]
    · exact Or.inr (Or.inr ⟨rfl, _, _, config.surcharge_nonneg, if_neg hskip⟩)

/-- An ignored rule changes nothing. -/
theorem applyRule_of_ignored {partySize : ℤ} {slotStartsAt : Option Instant} {now : Instant}
    {rule : PricingRule} (h : ignored slotStartsAt rule = true) (r : Running) :
    applyRule partySize slotStartsAt now r rule = r := by
  unfold ignored at h
  unfold applyRule
  cases htype : rule.ruleType <;> simp only [htype] at h ⊢
  · simp [Option.isNone_iff_eq_none.mp h]
  · rcases Bool.or_eq_true_iff.mp h with h | h <;> simp [Option.isNone_iff_eq_none.mp h]
  · rcases Bool.or_eq_true_iff.mp h with h | h <;> simp [Option.isNone_iff_eq_none.mp h]

/-- The loop over a list of rules may leave the ignored ones out. -/
theorem runningAfter_filter (basePrice : Money) (partySize : ℤ) (slotStartsAt : Option Instant)
    (now : Instant) (rules : List PricingRule) :
    runningAfter basePrice partySize slotStartsAt now
        (rules.filter fun rule => !ignored slotStartsAt rule)
      = runningAfter basePrice partySize slotStartsAt now rules := by
  rw [runningAfter, List.foldl_filter, runningAfter]
  congr 1
  funext r rule
  by_cases h : ignored slotStartsAt rule = true
  · simp [h, applyRule_of_ignored h]
  · simp [h]

/-- The sign of a printed adjustment. -/
def PricingAdjustment.SignOk (a : PricingAdjustment) : Prop :=
  (a.ruleType ≠ .seasonal → a.amount.cents ≤ 0) ∧ (a.ruleType = .seasonal → 0 ≤ a.amount.cents)

/-- **The invariant of the loop**, for a price of `subtotal`. -/
structure Running.Bounded (subtotal : ℚ) (r : Running) : Prop where
  nonneg : 0 ≤ r.runningTotal
  le : r.runningTotal ≤ subtotal * surchargeFactor r.adjustments
  signs : ∀ a ∈ r.adjustments, a.SignOk

theorem cents_formatMoney_nonneg {amount : ℚ} (h : 0 ≤ amount) :
    0 ≤ (formatMoney amount).cents := by
  have hmono := formatMoney_mono h
  rwa [Money.le_def, cents_formatMoney_of_whole (show (0 : ℚ) * 100 = (0 : ℤ) by simp)] at hmono

theorem cents_formatMoney_nonpos {amount : ℚ} (h : amount ≤ 0) :
    (formatMoney amount).cents ≤ 0 := by
  have hmono := formatMoney_mono h
  rwa [Money.le_def, cents_formatMoney_of_whole (show (0 : ℚ) * 100 = (0 : ℤ) by simp)] at hmono

namespace Running

/-- A share of a total that is not negative. -/
private theorem share_nonneg {r : Running} {percent : ℚ} (h : 0 ≤ r.runningTotal)
    (h₀ : 0 ≤ percent) : 0 ≤ r.runningTotal * (percent / 100) :=
  mul_nonneg h (div_nonneg h₀ (by norm_num))

theorem Bounded.discount {subtotal : ℚ} {r : Running} (h : r.Bounded subtotal)
    {ruleType : PricingRuleType} (htype : ruleType ≠ .seasonal) (description : String)
    {percent : ℚ} (h₀ : 0 ≤ percent) (h₁ : percent ≤ 100) :
    (r.discount ruleType description percent).Bounded subtotal := by
  have hshare := share_nonneg h.nonneg h₀
  constructor
  · rw [discount_runningTotal]
    exact mul_nonneg h.nonneg (discountFactor_mem h₀ h₁).1
  · have hle := h.le
    simp only [Running.discount, surchargeFactor, List.filter_append] at hle ⊢
    simp only [List.filter_cons, htype, decide_false, Bool.false_eq_true, if_false,
      List.filter_nil, List.append_nil]
    linarith
  · intro a ha
    rcases List.mem_append.mp ha with ha | ha
    · exact h.signs a ha
    · rw [List.mem_singleton.mp ha]
      exact ⟨fun _ => cents_formatMoney_nonpos (neg_nonpos.mpr hshare), fun heq => absurd heq htype⟩

theorem Bounded.surcharge {subtotal : ℚ} {r : Running} (h : r.Bounded subtotal)
    (description : String) {percent : ℚ} (h₀ : 0 ≤ percent) :
    (r.surcharge .seasonal description percent).Bounded subtotal := by
  have hshare := share_nonneg h.nonneg h₀
  have hfactor : 0 ≤ 1 + percent / 100 := by positivity
  constructor
  · rw [surcharge_runningTotal]
    exact mul_nonneg h.nonneg hfactor
  · rw [surcharge_runningTotal]
    have hlast : surchargeFactor (r.surcharge .seasonal description percent).adjustments
        = surchargeFactor r.adjustments * (1 + percent / 100) := by
      simp [Running.surcharge, surchargeFactor]
    rw [hlast, ← mul_assoc]
    exact mul_le_mul_of_nonneg_right h.le hfactor
  · intro a ha
    rcases List.mem_append.mp ha with ha | ha
    · exact h.signs a ha
    · rw [List.mem_singleton.mp ha]
      exact ⟨fun hne => absurd rfl hne, fun _ => cents_formatMoney_nonneg hshare⟩

/-- **One turn of the loop keeps the bounds.** -/
theorem Bounded.applyRule {subtotal : ℚ} {r : Running} (h : r.Bounded subtotal) (partySize : ℤ)
    (slotStartsAt : Option Instant) (now : Instant) (rule : PricingRule) :
    (applyRule partySize slotStartsAt now r rule).Bounded subtotal := by
  rcases applyRule_shape partySize slotStartsAt now r rule with
    heq | ⟨htype, description, percent, h₀, h₁, heq⟩ | ⟨-, description, percent, h₀, heq⟩
  · rw [heq]
    exact h
  · rw [heq]
    exact h.discount htype description h₀ h₁
  · rw [heq]
    exact h.surcharge description h₀

/-- **The whole loop keeps the bounds.** -/
theorem Bounded.foldl {subtotal : ℚ} {r : Running} (h : r.Bounded subtotal) (partySize : ℤ)
    (slotStartsAt : Option Instant) (now : Instant) (rules : List PricingRule) :
    (rules.foldl (BookingPlatform.applyRule partySize slotStartsAt now) r).Bounded subtotal := by
  induction rules generalizing r with
  | nil => exact h
  | cons rule rules ih => exact ih (h.applyRule partySize slotStartsAt now rule)

end Running

/-- A discount does not raise the total and a surcharge does not lower it. -/
theorem applyRule_direction {r : Running} (h : 0 ≤ r.runningTotal) (partySize : ℤ)
    (slotStartsAt : Option Instant) (now : Instant) (rule : PricingRule) :
    (rule.ruleType ≠ .seasonal →
        (applyRule partySize slotStartsAt now r rule).runningTotal ≤ r.runningTotal) ∧
      (rule.ruleType = .seasonal →
        r.runningTotal ≤ (applyRule partySize slotStartsAt now r rule).runningTotal) := by
  rcases applyRule_shape partySize slotStartsAt now r rule with
    heq | ⟨htype, description, percent, h₀, -, heq⟩ | ⟨htype, description, percent, h₀, heq⟩
  · simp [heq]
  · have hshare := Running.share_nonneg h h₀
    refine ⟨fun _ => ?_, fun hseasonal => absurd hseasonal htype⟩
    simp only [heq, Running.discount]
    linarith
  · have hshare := Running.share_nonneg h h₀
    refine ⟨fun hne => absurd htype hne, fun _ => ?_⟩
    simp only [heq, Running.surcharge]
    linarith

/-- A price for a party is not negative, and the loop starts within its bounds. -/
theorem bounded_runningAfter {basePrice : Money} (hbase : 0 ≤ basePrice.cents) {partySize : ℤ}
    (hparty : 1 ≤ partySize) (slotStartsAt : Option Instant) (now : Instant)
    (rules : List PricingRule) :
    (runningAfter basePrice partySize slotStartsAt now rules).Bounded
      (basePrice.toNumber * partySize) := by
  have hprice : (0 : ℚ) ≤ basePrice.toNumber := by
    rw [Money.toNumber]
    positivity
  have hguests : (0 : ℚ) ≤ partySize := by exact_mod_cast (by omega : (0 : ℤ) ≤ partySize)
  have hstart : (⟨basePrice.toNumber * partySize, []⟩ : Running).Bounded
      (basePrice.toNumber * partySize) :=
    ⟨mul_nonneg hprice hguests, by simp [surchargeFactor], by simp⟩
  exact hstart.foldl partySize slotStartsAt now rules

/-- **Prices stay within bounds, whatever rules are stored.** The running total is
never negative; a discount lowers it and is printed as one, a surcharge raises it
and is printed as one; the total is at most the subtotal with every surcharge that
applies; and the rules that are ignored might as well not be there. -/
theorem prices_within_bounds {basePrice : Money} (hbase : 0 ≤ basePrice.cents) {partySize : ℤ}
    (hparty : 1 ≤ partySize) (slotStartsAt : Option Instant) (now : Instant)
    (rules : List PricingRule) :
    (∀ pre, pre <+: rules →
      0 ≤ (runningAfter basePrice partySize slotStartsAt now pre).runningTotal) ∧
    (∀ pre rule, pre ++ [rule] <+: rules →
      (rule.ruleType ≠ .seasonal →
        (runningAfter basePrice partySize slotStartsAt now (pre ++ [rule])).runningTotal
          ≤ (runningAfter basePrice partySize slotStartsAt now pre).runningTotal) ∧
      (rule.ruleType = .seasonal →
        (runningAfter basePrice partySize slotStartsAt now pre).runningTotal
          ≤ (runningAfter basePrice partySize slotStartsAt now (pre ++ [rule])).runningTotal)) ∧
    (∀ a ∈ (calculatePricingPreview basePrice partySize rules slotStartsAt now).adjustments,
      a.SignOk) ∧
    (0 ≤ (runningAfter basePrice partySize slotStartsAt now rules).runningTotal ∧
      (runningAfter basePrice partySize slotStartsAt now rules).runningTotal
        ≤ basePrice.toNumber * partySize * surchargeFactor
          (calculatePricingPreview basePrice partySize rules slotStartsAt now).adjustments ∧
      (calculatePricingPreview basePrice partySize rules slotStartsAt now).totalPrice
        = formatMoney (runningAfter basePrice partySize slotStartsAt now rules).runningTotal) ∧
    calculatePricingPreview basePrice partySize rules slotStartsAt now
      = calculatePricingPreview basePrice partySize
          (rules.filter fun rule => !ignored slotStartsAt rule) slotStartsAt now := by
  have hbounded := bounded_runningAfter hbase hparty slotStartsAt now
  refine ⟨fun pre _ => (hbounded pre).nonneg, fun pre rule _ => ?_, (hbounded rules).signs,
    ⟨(hbounded rules).nonneg, (hbounded rules).le, rfl⟩, ?_⟩
  · have hstep := applyRule_direction (hbounded pre).nonneg partySize slotStartsAt now rule
    simpa only [runningAfter, List.foldl_append, List.foldl_cons, List.foldl_nil] using hstep
  · have hloop := runningAfter_filter basePrice partySize slotStartsAt now rules
    simp only [runningAfter] at hloop
    simp only [calculatePricingPreview, hloop]

/-- A discount, a surcharge and a rule without a configuration, on a slot in
January. -/
theorem prices_within_bounds_three_rules :
    (∀ a ∈ (calculatePricingPreview ⟨10000⟩ 2 [TwoRules.groupRule, TwoRules.seasonalRule,
        ⟨default, default, .seasonal, .null, true⟩] (some 0) 0).adjustments, a.SignOk) ∧
      (calculatePricingPreview ⟨10000⟩ 2 [TwoRules.groupRule, TwoRules.seasonalRule,
        ⟨default, default, .seasonal, .null, true⟩] (some 0) 0).adjustments.length = 2 :=
  ⟨(prices_within_bounds (by decide) (by decide) (some 0) 0 _).2.2.1, by decide +kernel⟩

end BookingPlatform
