import BookingPlatform.Pricing
import BookingPlatform.Dates

/-!
# The experience service

`experience.service.ts` on one snapshot of the database, after a cache miss.
Instants and amounts stand for the strings that the responses print them as.

## Main definitions

* `ExperienceSearchQuery`, `ExperienceDetailQuery` — the queries as their schemas accept
  them.
* `slotInWindow`, `groupedFrom` — the grouped slot query.
* `Pricer` — the arithmetic that a search prices slots in.
* `searchExperiences`, `getExperienceDetail` — the two reads.
-/

namespace BookingPlatform

/-! ### Queries -/

/-- The collation of the database: a total preorder on texts. -/
structure Collation where
  le : String → String → Bool
  trans : ∀ a b c, le a b = true → le b c = true → le a c = true
  total : ∀ a b, (le a b || le b a) = true

/-- What the services leave to the database and the runtime: `ILIKE '%…%'`, the
order of titles, and how the engine parses a day past the end of its month. -/
structure Runtime where
  containsInsensitive : String → String → Bool
  titles : Collation
  rollsOver : DateString → Bool

/-- What a search is sorted by. -/
inductive SearchSort
  | startsAt | price | title | availableSpots
  deriving DecidableEq, Repr

/-- The direction of a sort. -/
inductive SortOrder
  | asc | desc
  deriving DecidableEq, Repr

/-- The comparison of a sort direction. -/
def SortOrder.le {κ : Type} (order : SortOrder) (le : κ → κ → Bool) (a b : κ) : Bool :=
  match order with
  | .asc => le a b
  | .desc => le b a

/-- What `experienceSearchQuerySchema` accepts. -/
structure ExperienceSearchQuery where
  destination : Option String
  startDate : DateString
  endDate : DateString
  partySize : ℤ
  supplierId : Option Uuid
  minPrice : Option ℚ
  maxPrice : Option ℚ
  sortBy : SearchSort
  sortOrder : SortOrder
  page : ℕ
  pageSize : ℕ
  destination_ne : ∀ d ∈ destination, d ≠ ""
  one_le_partySize : 1 ≤ partySize
  partySize_le : partySize ≤ 100
  minPrice_nonneg : ∀ p ∈ minPrice, 0 ≤ p
  maxPrice_nonneg : ∀ p ∈ maxPrice, 0 ≤ p
  one_le_page : 1 ≤ page
  one_le_pageSize : 1 ≤ pageSize
  pageSize_le : pageSize ≤ 100
  dates : startDate ≤ endDate
  prices : ∀ lo ∈ minPrice, ∀ hi ∈ maxPrice, lo ≤ hi
  deriving DecidableEq

/-- What `experienceDetailQuerySchema` accepts. -/
structure ExperienceDetailQuery where
  partySize : ℤ
  slotId : Option Uuid
  startDate : Option DateString
  endDate : Option DateString
  one_le_partySize : 1 ≤ partySize
  partySize_le : partySize ≤ 100
  dates : ∀ s ∈ startDate, ∀ e ∈ endDate, s ≤ e
  deriving DecidableEq

/-! ### Responses -/

/-- Where a page stands among the pages of a search. -/
structure Pagination where
  page : ℕ
  pageSize : ℕ
  totalItems : ℕ
  totalPages : ℕ
  deriving DecidableEq

/-- `totalItems === 0 ? 0 : Math.ceil(totalItems / pageSize)`. -/
def totalPages (totalItems pageSize : ℕ) : ℕ :=
  if totalItems = 0 then 0 else (totalItems + pageSize - 1) / pageSize

/-- An item of a search, by the type of its price. -/
structure ExperienceSearchItem (Price : Type) where
  id : Uuid
  title : String
  destination : String
  description : Option String
  basePrice : Money
  capacity : Int4
  supplierId : Uuid
  supplierName : String
  partySize : ℤ
  fromPrice : Price
  availableSlots : ℕ
  earliestSlotAt : Instant
  deriving DecidableEq

/-- A page of a search. -/
structure ExperienceSearchResult (Price : Type) where
  items : List (ExperienceSearchItem Price)
  pagination : Pagination
  deriving DecidableEq

/-- A slot of an experience in a detail. -/
structure ExperienceSlotPreview where
  slotId : Uuid
  startsAt : Instant
  endsAt : Instant
  slotCapacity : Int4
  reserved : Int4
  availableSpots : ℤ
  pricingPreview : PricingPreview
  deriving DecidableEq

/-- What a detail shows of an experience. -/
structure ExperienceDetailResult where
  id : Uuid
  title : String
  destination : String
  description : Option String
  basePrice : Money
  capacity : Int4
  supplierId : Uuid
  supplierName : String
  supplierEmail : Option String
  partySize : ℤ
  pricingPreview : PricingPreview
  slots : List ExperienceSlotPreview
  deriving DecidableEq

/-! ### Search -/

/-- `buildExperienceWhere`. -/
def buildExperienceWhere (rt : Runtime) (query : ExperienceSearchQuery) (e : Experience) : Bool :=
  e.active = true ∧ query.partySize ≤ e.capacity ∧
    (∀ d ∈ query.destination, rt.containsInsensitive e.destination d = true) ∧
    (∀ id ∈ query.supplierId, e.supplierId = id) ∧
    (∀ p ∈ query.minPrice, p ≤ e.basePrice.toNumber) ∧
    ∀ p ∈ query.maxPrice, e.basePrice.toNumber ≤ p

/-- The experiences that match the filters. -/
def matchingExperiences (rt : Runtime) (order : RowOrder) (tenantId : Uuid)
    (query : ExperienceSearchQuery) (db : Database) : List Experience :=
  order.matchingExperiences.apply
    (db.experiences.findMany fun e => e.tenantId = tenantId ∧ buildExperienceWhere rt query e)

/-- The identifiers of the experiences that the filters of a search match. -/
def experienceIds (rt : Runtime) (order : RowOrder) (tenantId : Uuid)
    (query : ExperienceSearchQuery) (db : Database) : List Uuid :=
  (matchingExperiences rt order tenantId query db).map Experience.id

/-- What `slotFilters` of a search asks of a slot alone, but for its places. -/
def startsInWindow (tenantId : Uuid) (startAt endAt : Instant) (sl : AvailabilitySlot) : Bool :=
  sl.tenantId = tenantId ∧ startAt ≤ sl.startsAt ∧ sl.startsAt < endAt

theorem tenantId_of_startsInWindow {tenantId : Uuid} {startAt endAt : Instant}
    {slot : AvailabilitySlot} (h : startsInWindow tenantId startAt endAt slot = true) :
    slot.tenantId = tenantId := by
  simp only [startsInWindow, decide_eq_true_eq] at h
  exact h.1

/-- `slotFilters` of a search, but for the condition on the experience. -/
def slotInWindow (tenantId : Uuid) (startAt endAt : Instant) (partySize : ℤ)
    (sl : AvailabilitySlot) : Bool :=
  startsInWindow tenantId startAt endAt sl = true ∧ (sl.capacity : ℤ) - sl.reserved ≥ partySize

/-- The slots whose places a search compares: those of the experiences it joins, and
those that it discards only afterwards. -/
def comparedSlots (order : RowOrder) (tenantId : Uuid) (startAt endAt : Instant)
    (experienceIds : List Uuid) (sl : AvailabilitySlot) : Bool :=
  startsInWindow tenantId startAt endAt sl = true ∧
    (sl.experienceId ∈ experienceIds ∨ order.comparedEarly sl = true)

/-- A row of the grouped slot query. -/
structure GroupedExperienceRow where
  id : Uuid
  title : String
  destination : String
  description : Option String
  basePrice : Money
  capacity : Int4
  supplierId : Uuid
  supplierName : String
  availableSlots : ℕ
  earliestSlotAt : Instant
  deriving DecidableEq

/-- The row of an experience, its supplier and its slots; there is none without
slots. -/
def groupedRow (e : Experience) (sup : Supplier) (slots : List AvailabilitySlot) :
    Option GroupedExperienceRow :=
  (slots.map AvailabilitySlot.startsAt).min?.map fun earliestSlotAt =>
    { id := e.id
      title := e.title
      destination := e.destination
      description := e.description
      basePrice := e.basePrice
      capacity := e.capacity
      supplierId := sup.id
      supplierName := sup.name
      availableSlots := slots.length
      earliestSlotAt := earliestSlotAt }

/-- The slots that the search joins to an experience. -/
def joinedSlots (db : Database) (slotFilter : AvailabilitySlot → Bool) (experienceId : Uuid) :
    List AvailabilitySlot :=
  db.availabilitySlots.findMany fun sl => sl.experienceId = experienceId ∧ slotFilter sl = true

/-- `groupedFrom`: experiences joined with suppliers and slots, grouped by
experience. -/
def groupedFrom (order : RowOrder) (db : Database) (experienceIds : List Uuid)
    (slotFilter : AvailabilitySlot → Bool) : List GroupedExperienceRow :=
  (order.groupedExperiences.apply (db.experiences.findMany fun e => e.id ∈ experienceIds)).filterMap
    fun e => (db.suppliers.get? e.supplierId).bind fun sup =>
      groupedRow e sup (joinedSlots db slotFilter e.id)

/-- The `ORDER BY` of the grouped query. -/
def orderGrouped (rt : Runtime) (query : ExperienceSearchQuery)
    (rows : List GroupedExperienceRow) : List GroupedExperienceRow :=
  match query.sortBy with
  | .title => orderBy (query.sortOrder.le rt.titles.le) GroupedExperienceRow.title rows
  | .availableSpots =>
    orderBy (query.sortOrder.le fun m n => m ≤ n) GroupedExperienceRow.availableSlots rows
  | .startsAt | .price =>
    orderBy (query.sortOrder.le fun s t => s ≤ t) GroupedExperienceRow.earliestSlotAt rows

/-- `LIMIT … OFFSET …`, or `slice`. -/
def pageOf {α : Type} (page pageSize : ℕ) (rows : List α) : List α :=
  (rows.drop ((page - 1) * pageSize)).take pageSize

/-- An experience with its supplier's active rules. -/
structure ExperienceWithRules where
  experience : Experience
  supplier : Supplier
  pricingRules : List PricingRule

/-- An experience with its supplier's active rules. -/
def loadRules (order : RowOrder) (db : Database) (e : Experience) :
    Except Failure ExperienceWithRules := do
  let supplier ← required (db.suppliers.get? e.supplierId)
  return ⟨e, supplier, activePricingRules order db supplier.id⟩

/-- `calculatePricingPreview` of a slot of an experience. -/
def ExperienceWithRules.preview (e : ExperienceWithRules) (partySize : ℤ) (startsAt : Instant)
    (now : Instant) : PricingPreview :=
  calculatePricingPreview e.experience.basePrice partySize e.pricingRules (some startsAt) now

/-- How prices are computed, printed as texts and read as numbers. -/
structure Pricer where
  Price : Type
  Number : Type
  totalPrice : ExperienceWithRules → ℤ → Instant → Instant → Price
  ofBasePrice : Money → Price
  toNumber : Price → Number
  lt : Number → Number → Bool

/-- Prices in exact arithmetic. -/
@[reducible] def Pricer.exact : Pricer where
  Price := Money
  Number := ℚ
  totalPrice e partySize startsAt now := (e.preview partySize startsAt now).totalPrice
  ofBasePrice basePrice := basePrice
  toNumber := Money.toNumber
  lt p q := p < q

/-- One turn of the loop over the slots. -/
def considerSlot (P : Pricer) (experienceById : Uuid → Option ExperienceWithRules) (partySize : ℤ)
    (now : Instant) (fromPrice : Uuid → Option P.Price) (slot : AvailabilitySlot) :
    Uuid → Option P.Price :=
  match experienceById slot.experienceId with
  | none => fromPrice
  | some e =>
    let totalPrice := P.totalPrice e partySize slot.startsAt now
    match fromPrice slot.experienceId with
    | none => Function.update fromPrice slot.experienceId (some totalPrice)
    | some existingFromPrice =>
      if P.lt (P.toNumber totalPrice) (P.toNumber existingFromPrice) = true then
        Function.update fromPrice slot.experienceId (some totalPrice)
      else fromPrice

/-- `fromPriceByExperienceId`. -/
def fromPriceByExperienceId (P : Pricer) (order : RowOrder) (tenantId : Uuid) (partySize : ℤ)
    (slotFilter : AvailabilitySlot → Bool) (pageExperienceIds : List Uuid) (db : Database)
    (now : Instant) : Except Failure (Uuid → Option P.Price) := do
  let slotRows := order.eligibleSlots.apply (db.availabilitySlots.findMany fun sl =>
    sl.experienceId ∈ pageExperienceIds ∧ slotFilter sl = true)
  let experiencesWithRules ← (order.pricedExperiences.apply (db.experiences.findMany fun e =>
    e.tenantId = tenantId ∧ e.id ∈ pageExperienceIds)).mapM (loadRules order db)
  let experienceById := fun id => experiencesWithRules.find? fun e => e.experience.id = id
  return slotRows.foldl (considerSlot P experienceById partySize now) fun _ => none

/-- The price a row is listed at. -/
def GroupedExperienceRow.listedPrice (P : Pricer) (row : GroupedExperienceRow)
    (fromPrice : Uuid → Option P.Price) : P.Price :=
  (fromPrice row.id).getD (P.ofBasePrice row.basePrice)

/-- The comparison of two prices in memory: their difference is not above zero. -/
def Pricer.notAbove (P : Pricer) (left right : P.Number) : Bool := !P.lt right left

/-- The sort by price in memory. -/
def sortByPrice (P : Pricer) (query : ExperienceSearchQuery) (fromPrice : Uuid → Option P.Price)
    (rows : List GroupedExperienceRow) : List GroupedExperienceRow :=
  orderBy (query.sortOrder.le P.notAbove) (fun row => P.toNumber (row.listedPrice P fromPrice)) rows

/-- The `LIMIT` of the grouped query, which a search by price leaves out. -/
def limitRows (query : ExperienceSearchQuery) (rows : List GroupedExperienceRow) :
    List GroupedExperienceRow :=
  if query.sortBy = .price then rows else pageOf query.page query.pageSize rows

/-- `pageExperienceIds`: a search by price prices every experience that matches. -/
def pageExperienceIds (query : ExperienceSearchQuery) (experienceIds : List Uuid)
    (groupedRows : List GroupedExperienceRow) : List Uuid :=
  if query.sortBy = .price then experienceIds else groupedRows.map GroupedExperienceRow.id

/-- `pageRows`. -/
def pageRows (P : Pricer) (query : ExperienceSearchQuery) (fromPrice : Uuid → Option P.Price)
    (groupedRows : List GroupedExperienceRow) : List GroupedExperienceRow :=
  if query.sortBy = .price then
    pageOf query.page query.pageSize (sortByPrice P query fromPrice groupedRows)
  else groupedRows

/-- A row as an item of the result. -/
def GroupedExperienceRow.toItem (P : Pricer) (row : GroupedExperienceRow) (partySize : ℤ)
    (fromPrice : Uuid → Option P.Price) : ExperienceSearchItem P.Price where
  id := row.id
  title := row.title
  destination := row.destination
  description := row.description
  basePrice := row.basePrice
  capacity := row.capacity
  supplierId := row.supplierId
  supplierName := row.supplierName
  partySize := partySize
  fromPrice := row.listedPrice P fromPrice
  availableSlots := row.availableSlots
  earliestSlotAt := row.earliestSlotAt

/-- `searchExperiences` on a cache miss, with prices of some kind. -/
def searchExperiencesIn (P : Pricer) (rt : Runtime) (order : RowOrder) (tenantId : Uuid)
    (query : ExperienceSearchQuery) (db : Database) (now : Instant) :
    Except Failure (ExperienceSearchResult P.Price) := do
  let ids := experienceIds rt order tenantId query db
  if ids = [] then return ⟨[], ⟨query.page, query.pageSize, 0, 0⟩⟩
  else do
    let startAt ← orThrow (parseUtcDate rt.rollsOver query.startDate) .invalidDate
    let endAt ← orThrow (endDateExclusive rt.rollsOver query.endDate) .invalidDate
    sendInstants [startAt, endAt]
    subtractReserved (comparedSlots order tenantId startAt endAt ids) db
    let slotFilter := slotInWindow tenantId startAt endAt query.partySize
    let grouped := groupedFrom order db ids slotFilter
    let groupedRows := limitRows query (orderGrouped rt query grouped)
    let fromPrice ← fromPriceByExperienceId P order tenantId query.partySize slotFilter
      (pageExperienceIds query ids groupedRows) db now
    return {
      items := (pageRows P query fromPrice groupedRows).map fun row =>
        row.toItem P query.partySize fromPrice
      pagination :=
        ⟨query.page, query.pageSize, grouped.length, totalPages grouped.length query.pageSize⟩ }

/-- `searchExperiences` on a cache miss, with money in exact arithmetic. -/
def searchExperiences (rt : Runtime) (order : RowOrder) (tenantId : Uuid)
    (query : ExperienceSearchQuery) (db : Database) (now : Instant) :
    Except Failure (ExperienceSearchResult Money) :=
  searchExperiencesIn .exact rt order tenantId query db now

/-! ### Detail -/

/-- `slotFilters` of a detail, but for the places. -/
def detailSlot (tenantId experienceId : Uuid) (query : ExperienceDetailQuery)
    (startAt endAt : Option Instant) (s : AvailabilitySlot) : Bool :=
  s.experienceId = experienceId ∧ s.tenantId = tenantId ∧ (∀ id ∈ query.slotId, s.id = id) ∧
    (∀ t ∈ startAt, t ≤ s.startsAt) ∧ ∀ t ∈ endAt, s.startsAt < t

theorem tenantId_of_detailSlot {tenantId experienceId : Uuid} {query : ExperienceDetailQuery}
    {startAt endAt : Option Instant} {slot : AvailabilitySlot}
    (h : detailSlot tenantId experienceId query startAt endAt slot = true) :
    slot.tenantId = tenantId := by
  simp only [detailSlot, decide_eq_true_eq] at h
  exact h.2.1

/-- `slotFilters` of a detail. -/
def detailSlotFilter (tenantId experienceId : Uuid) (query : ExperienceDetailQuery)
    (startAt endAt : Option Instant) (s : AvailabilitySlot) : Bool :=
  detailSlot tenantId experienceId query startAt endAt s = true ∧
    (s.capacity : ℤ) - s.reserved ≥ query.partySize

/-- A slot as the detail shows it, with its price. -/
def ExperienceWithRules.slotPreview (e : ExperienceWithRules) (partySize : ℤ) (now : Instant)
    (slot : AvailabilitySlot) : ExperienceSlotPreview where
  slotId := slot.id
  startsAt := slot.startsAt
  endsAt := slot.endsAt
  slotCapacity := slot.capacity
  reserved := slot.reserved
  availableSpots := (slot.capacity : ℤ) - slot.reserved
  pricingPreview := e.preview partySize slot.startsAt now

/-- The result of a detail. -/
def ExperienceWithRules.toDetail (e : ExperienceWithRules) (partySize : ℤ)
    (slots : List AvailabilitySlot) (now : Instant) : ExperienceDetailResult where
  id := e.experience.id
  title := e.experience.title
  destination := e.experience.destination
  description := e.experience.description
  basePrice := e.experience.basePrice
  capacity := e.experience.capacity
  supplierId := e.supplier.id
  supplierName := e.supplier.name
  supplierEmail := e.supplier.email
  partySize := partySize
  pricingPreview := calculatePricingPreview e.experience.basePrice partySize e.pricingRules
    (slots.head?.map AvailabilitySlot.startsAt) now
  slots := slots.map (e.slotPreview partySize now)

/-- The slots of a detail, earliest first. -/
def detailSlots (order : RowOrder) (db : Database) (tenantId experienceId : Uuid)
    (query : ExperienceDetailQuery) (startAt endAt : Option Instant) : List AvailabilitySlot :=
  orderBy (fun s t => s ≤ t) AvailabilitySlot.startsAt
    (order.eligibleSlots.apply (db.availabilitySlots.findMany
      (detailSlotFilter tenantId experienceId query startAt endAt)))

/-- A date of a request that may be left out. -/
def optionalDate (parse : DateString → Option Instant) :
    Option DateString → Except Failure (Option Instant)
  | none => .ok none
  | some date => (orThrow (parse date) .invalidDate).map some

/-- `getExperienceDetail` on a cache miss. -/
def getExperienceDetail (rt : Runtime) (order : RowOrder) (tenantId experienceId : Uuid)
    (query : ExperienceDetailQuery) (db : Database) (now : Instant) :
    Except Failure ExperienceDetailResult := do
  let experience ← orThrow (db.experiences.findFirst fun e =>
      e.id = experienceId ∧ e.tenantId = tenantId ∧ e.active = true)
    (.app (notFoundError "Experience not found"))
  let e ← loadRules order db experience
  let startAt ← optionalDate (parseUtcDate rt.rollsOver) query.startDate
  let endAt ← optionalDate (endDateExclusive rt.rollsOver) query.endDate
  sendInstants [startAt, endAt].reduceOption
  subtractReserved (detailSlot tenantId experienceId query startAt endAt) db
  let slots := detailSlots order db tenantId experienceId query startAt endAt
  throwIf (query.slotId ≠ none ∧ slots = [])
    (.app (notFoundError "Slot not found for this experience"))
  return e.toDetail query.partySize slots now

end BookingPlatform
