import BookingPlatform.PagedListings
import BookingPlatform.DoublePrices

/-!
# The prices of grouped rows

What a search by price computes of the rows of the grouped query: the prices of their
slots, in doubles, and the least of them.

## Main definitions

* `eligibleExperiences` — the experiences on offer.
* `groupedRows` — the rows of the grouped query, in the order it returns them.
* `GroupedExperienceRow.slotPrices`, `GroupedExperienceRow.leastPrice` — the prices of
  the slots of a row, and the place of the least of them among the doubles.

## Main results

* `groupedRows_ids` — there is a row for each experience on offer.
* `fromPrice_row` — a request lists a row at what the loop over its slots keeps.
* `rank_listedPrice` — this is the least of their prices.
-/

namespace BookingPlatform

/-- `slotFilters` of a search; no slot meets them when the dates cannot be read. -/
def ExperienceSearchQuery.slotFilter (rt : Runtime) (tenantId : Uuid)
    (query : ExperienceSearchQuery) : AvailabilitySlot → Bool :=
  match parseUtcDate rt.rollsOver query.startDate, endDateExclusive rt.rollsOver query.endDate with
  | some startAt, some endAt => slotInWindow tenantId startAt endAt query.partySize
  | _, _ => fun _ => false

/-- The experiences that match the filters and have a slot for the party in the
window. -/
def eligibleExperiences (rt : Runtime) (tenantId : Uuid) (query : ExperienceSearchQuery)
    (db : Database) : List Experience :=
  db.experiences.findMany fun e => e.tenantId = tenantId ∧ buildExperienceWhere rt query e = true ∧
    joinedSlots db (query.slotFilter rt tenantId) e.id ≠ []

/-- The rows of the grouped query, in the order it returns them. -/
def groupedRows (rt : Runtime) (grouped : Arrangement Experience) (tenantId : Uuid)
    (query : ExperienceSearchQuery) (db : Database) : List GroupedExperienceRow :=
  orderGrouped rt query (groupedFrom { groupedExperiences := grouped } db
    (experienceIds rt {} tenantId query db) (query.slotFilter rt tenantId))

/-- The price of a slot of a row, when the rules are loaded in some order. -/
def GroupedExperienceRow.slotPrice (query : ExperienceSearchQuery) (db : Database) (now : Instant)
    (rules : Arrangement PricingRule) (row : GroupedExperienceRow) (slot : AvailabilitySlot) :
    PrintedAmount :=
  totalPriceInDoubles row.basePrice query.partySize
    (activePricingRules { pricingRules := rules } db row.supplierId) slot.startsAt now

/-- The prices of the slots of a row, as numbers. -/
def GroupedExperienceRow.slotPrices (rt : Runtime) (tenantId : Uuid)
    (query : ExperienceSearchQuery) (db : Database) (now : Instant)
    (rules : Arrangement PricingRule) (row : GroupedExperienceRow) : List Float :=
  (joinedSlots db (query.slotFilter rt tenantId) row.id).map fun slot =>
    (row.slotPrice query db now rules slot).toNumber

/-- The place of the least of them among the doubles. -/
def GroupedExperienceRow.leastPrice (rt : Runtime) (tenantId : Uuid)
    (query : ExperienceSearchQuery) (db : Database) (now : Instant)
    (rules : Arrangement PricingRule) (row : GroupedExperienceRow) : Double.Rank :=
  ((row.slotPrices rt tenantId query db now rules).filterMap Double.rank).min?.getD
    (toLex (0, toLex (0, 0)))

/-! ### The rows and their experiences -/

section Rows

variable {rt : Runtime} {grouped : Arrangement Experience} {tenantId : Uuid}
  {query : ExperienceSearchQuery} {db : Database} {startAt endAt : Instant}

theorem slotFilter_eq (hstart : parseUtcDate rt.rollsOver query.startDate = some startAt)
    (hend : endDateExclusive rt.rollsOver query.endDate = some endAt) :
    query.slotFilter rt tenantId = slotInWindow tenantId startAt endAt query.partySize := by
  unfold ExperienceSearchQuery.slotFilter
  rw [hstart, hend]

theorem listedRow_ne_none (hdb : SchemaConstraints db) (slotFilter : AvailabilitySlot → Bool)
    {e : Experience} (he : e ∈ db.experiences) :
    listedRow db slotFilter e ≠ none ↔ joinedSlots db slotFilter e.id ≠ [] := by
  obtain ⟨sup, hsup⟩ := hdb.experienceSupplier e he
  rw [listedRow, hsup, Option.bind_some, groupedRow, ne_eq, Option.map_eq_none_iff,
    List.min?_eq_none_iff, List.map_eq_nil_iff]

/-- The experiences on offer are among those that match. -/
theorem eligibleExperiences_eq : eligibleExperiences rt tenantId query db =
    (matchingExperiences rt {} tenantId query db).filter fun e =>
      joinedSlots db (query.slotFilter rt tenantId) e.id ≠ [] := by
  unfold eligibleExperiences
  rw [matchingExperiences, Arrangement.stored_apply]
  unfold Table.findMany
  rw [List.filter_filter]
  refine List.filter_congr fun e _ => ?_
  rw [← Bool.decide_and]
  exact decide_eq_decide.mpr (by tauto)

theorem groupedRows_eq (hstart : parseUtcDate rt.rollsOver query.startDate = some startAt)
    (hend : endDateExclusive rt.rollsOver query.endDate = some endAt) :
    groupedRows rt grouped tenantId query db =
      selectedRows rt { groupedExperiences := grouped } tenantId query db startAt endAt := by
  unfold groupedRows
  rw [slotFilter_eq hstart hend]
  rfl

theorem groupedRows_perm : (groupedRows rt grouped tenantId query db).Perm
    ((matchingExperiences rt {} tenantId query db).filterMap
      (listedRow db (query.slotFilter rt tenantId))) := by
  rw [groupedRows, orderGrouped_eq, groupedFrom_eq]
  exact (List.mergeSort_perm _ _).trans ((grouped.perm _).filterMap _)

/-- There is a row for each experience on offer. -/
theorem groupedRows_ids (hdb : SchemaConstraints db) :
    ((groupedRows rt grouped tenantId query db).map GroupedExperienceRow.id).Perm
      ((eligibleExperiences rt tenantId query db).map Experience.id) := by
  refine (groupedRows_perm.map _).trans (List.Perm.of_eq ?_)
  rw [eligibleExperiences_eq]
  have hmem : ∀ e ∈ matchingExperiences rt {} tenantId query db, e ∈ db.experiences :=
    fun e he => (mem_matchingExperiences.mp he).1
  generalize matchingExperiences rt {} tenantId query db = es at hmem ⊢
  induction es with
  | nil => rfl
  | cons e es ih =>
    have hrest := ih fun e' he' => hmem e' (List.mem_cons_of_mem e he')
    have hne := listedRow_ne_none hdb (query.slotFilter rt tenantId) (hmem e List.mem_cons_self)
    cases hrow : listedRow db (query.slotFilter rt tenantId) e with
    | none =>
      rw [List.filterMap_cons_none hrow, List.filter_cons_of_neg (by simpa [hrow] using hne)]
      exact hrest
    | some row =>
      rw [List.filterMap_cons_some hrow, List.filter_cons_of_pos (by simpa [hrow] using hne),
        List.map_cons, List.map_cons, listedRow_id hrow, hrest]

theorem groupedRows_nodup (hdb : SchemaConstraints db) :
    ((groupedRows rt grouped tenantId query db).map GroupedExperienceRow.id).Nodup := by
  refine (groupedRows_ids hdb).nodup_iff.mpr ?_
  exact db.experiences.nodup.sublist (List.filter_sublist.map _)

end Rows

/-! ### The price a row is listed at -/

theorem lowerPrice_double (p q : PrintedAmount) : lowerPrice .double (some p) q =
    if q.toNumber.lt p.toNumber = true then some q else some p := rfl

/-- Among numbers the price that is kept is the least one. -/
theorem rank_foldl_lowerPrice {ps : List PrintedAmount}
    (hps : ∀ p ∈ ps, Double.rank p.toNumber ≠ none) {p₀ : PrintedAmount} {r₀ : Double.Rank}
    (h₀ : Double.rank p₀.toNumber = some r₀) :
    ∃ p, ps.foldl (lowerPrice .double) (some p₀) = some p ∧ Double.rank p.toNumber =
      some ((ps.filterMap fun p => Double.rank p.toNumber).foldl min r₀) := by
  induction ps generalizing p₀ r₀ with
  | nil => exact ⟨p₀, rfl, h₀⟩
  | cons q ps ih =>
    obtain ⟨s, hs⟩ := Option.ne_none_iff_exists'.mp (hps q List.mem_cons_self)
    have hrest : ∀ p ∈ ps, Double.rank p.toNumber ≠ none :=
      fun p hp => hps p (List.mem_cons_of_mem q hp)
    have hlt : q.toNumber.lt p₀.toNumber = true ↔ s < r₀ := by
      rw [Double.lt_iff, hs, h₀]
      simp
    have hranks : (q :: ps).filterMap (fun p => Double.rank p.toNumber) =
        s :: ps.filterMap fun p => Double.rank p.toNumber := List.filterMap_cons_some hs
    rw [hranks, List.foldl_cons, List.foldl_cons]
    by_cases hless : s < r₀
    · rw [lowerPrice_double, if_pos (hlt.mpr hless), min_eq_right hless.le]
      exact ih hrest hs
    · rw [lowerPrice_double, if_neg (mt hlt.mp hless), min_eq_left (not_lt.mp hless)]
      exact ih hrest h₀

/-- A price that is not a number stays. -/
theorem foldl_lowerPrice_nan {p₀ : PrintedAmount} (h₀ : Double.rank p₀.toNumber = none)
    (ps : List PrintedAmount) : ps.foldl (lowerPrice .double) (some p₀) = some p₀ := by
  induction ps with
  | nil => rfl
  | cons q ps ih =>
    have hlt : ¬ q.toNumber.lt p₀.toNumber = true := by
      rw [Double.lt_iff, h₀]
      simp
    rw [List.foldl_cons, lowerPrice_double, if_neg hlt, ih]

section Prices

variable {rt : Runtime} {grouped : Arrangement Experience} {order : RowOrder} {tenantId : Uuid}
  {query : ExperienceSearchQuery} {db : Database} {now : Instant}
  {fromPrice : Uuid → Option PrintedAmount} {row : GroupedExperienceRow}

/-- The slots of a row, in the order a request prices them. -/
def pricedSlots (rt : Runtime) (order : RowOrder) (tenantId : Uuid) (query : ExperienceSearchQuery)
    (db : Database) (row : GroupedExperienceRow) : List AvailabilitySlot :=
  (slotRows order db (query.slotFilter rt tenantId)
    (experienceIds rt order tenantId query db)).filter fun sl => sl.experienceId = row.id

/-- A row comes from an experience that matches, with slots in the window. -/
theorem mem_groupedRows (h : row ∈ groupedRows rt grouped tenantId query db) :
    ∃ e sup, e ∈ db.experiences ∧ e.tenantId = tenantId ∧ buildExperienceWhere rt query e = true ∧
      db.suppliers.get? e.supplierId = some sup ∧
      joinedSlots db (query.slotFilter rt tenantId) row.id ≠ [] ∧
      row.id = e.id ∧ row.basePrice = e.basePrice ∧ row.supplierId = sup.id := by
  obtain ⟨e, he, hlisted⟩ := List.mem_filterMap.mp (groupedRows_perm.mem_iff.mp h)
  obtain ⟨hmem, htenant, hwhere⟩ := mem_matchingExperiences.mp he
  obtain ⟨sup, hsup, hgroup⟩ := Option.bind_eq_some_iff.mp hlisted
  obtain ⟨earliest, hearliest, rfl⟩ := groupedRow_eq_some.mp hgroup
  refine ⟨e, sup, hmem, htenant, hwhere, hsup, fun hnil => ?_, rfl, rfl, rfl⟩
  rw [hnil] at hearliest
  cases hearliest

/-- A request lists a row at what the loop keeps of the prices of its slots. -/
theorem fromPrice_row (h : fromPriceByExperienceId .double order tenantId query.partySize
      (query.slotFilter rt tenantId) (experienceIds rt order tenantId query db) db now
        = .ok fromPrice)
    (hrow : row ∈ groupedRows rt grouped tenantId query db) :
    fromPrice row.id = ((pricedSlots rt order tenantId query db row).map
      (row.slotPrice query db now order.pricingRules)).foldl (lowerPrice .double) none := by
  obtain ⟨e, sup, he, htenant, hwhere, hsup, -, hid, hbase, hsupplier⟩ := mem_groupedRows hrow
  have hmatch : e.id ∈ experienceIds rt order tenantId query db :=
    List.mem_map_of_mem (mem_matchingExperiences.mpr ⟨he, htenant, hwhere⟩)
  rw [pricedSlots, hid, fromPrice_eq_foldl h he htenant hmatch hsup]
  unfold GroupedExperienceRow.slotPrice
  rw [hbase, hsupplier]
  rfl

theorem pricedSlots_perm (hrow : row ∈ groupedRows rt grouped tenantId query db) :
    (pricedSlots rt order tenantId query db row).Perm
      (joinedSlots db (query.slotFilter rt tenantId) row.id) := by
  obtain ⟨e, sup, he, htenant, hwhere, -, -, hid, -, -⟩ := mem_groupedRows hrow
  refine slotRows_perm order db _ ?_
  rw [hid]
  exact List.mem_map_of_mem (mem_matchingExperiences.mpr ⟨he, htenant, hwhere⟩)

/-- **A row is listed at the least price of its slots**, if all of them are numbers. -/
theorem rank_listedPrice (h : fromPriceByExperienceId .double order tenantId query.partySize
      (query.slotFilter rt tenantId) (experienceIds rt order tenantId query db) db now
        = .ok fromPrice)
    (hrow : row ∈ groupedRows rt grouped tenantId query db)
    (hnum : ∀ price ∈ row.slotPrices rt tenantId query db now order.pricingRules,
      price.isNaN = false) :
    Double.rank (row.listedPrice .double fromPrice).toNumber =
      some (row.leastPrice rt tenantId query db now order.pricingRules) := by
  have hperm : (((pricedSlots rt order tenantId query db row).map
      (row.slotPrice query db now order.pricingRules)).map PrintedAmount.toNumber).Perm
        (row.slotPrices rt tenantId query db now order.pricingRules) := by
    rw [List.map_map]
    exact (pricedSlots_perm hrow).map _
  have hslots : pricedSlots rt order tenantId query db row ≠ [] := by
    obtain ⟨-, -, -, -, -, -, hne, -⟩ := mem_groupedRows hrow
    intro hnil
    exact hne (List.nil_perm.mp (hnil ▸ pricedSlots_perm hrow))
  have hprice := fromPrice_row h hrow
  generalize hps : (pricedSlots rt order tenantId query db row).map
    (row.slotPrice query db now order.pricingRules) = ps at hperm hprice
  have hrank : ∀ p ∈ ps, Double.rank p.toNumber ≠ none := by
    intro p hp hnone
    have hnumber := hnum _ (hperm.mem_iff.mp (List.mem_map_of_mem hp))
    rw [Double.isNaN_iff.mpr hnone] at hnumber
    cases hnumber
  cases ps with
  | nil => exact absurd (List.map_eq_nil_iff.mp hps) hslots
  | cons p₀ ps =>
    obtain ⟨r₀, h₀⟩ := Option.ne_none_iff_exists'.mp (hrank p₀ List.mem_cons_self)
    obtain ⟨p, hfold, hp⟩ :=
      rank_foldl_lowerPrice (fun p hp => hrank p (List.mem_cons_of_mem p₀ hp)) h₀
    have hlisted : row.listedPrice .double fromPrice = p := by
      rw [GroupedExperienceRow.listedPrice, hprice]
      exact congrArg (Option.getD · _) hfold
    have hmin : ((row.slotPrices rt tenantId query db now order.pricingRules).filterMap
        Double.rank).min? = some ((ps.filterMap fun p => Double.rank p.toNumber).foldl min r₀) := by
      rw [← List.min?_eq_of_perm (hperm.filterMap Double.rank), List.filterMap_map,
        List.filterMap_cons_some (f := Double.rank ∘ PrintedAmount.toNumber) h₀, List.min?_cons']
      rfl
    rw [hlisted, hp, GroupedExperienceRow.leastPrice, hmin, Option.getD_some]

end Prices

end BookingPlatform
