import BookingPlatform.Experience

/-!
# The listings of an administrator

`admin-booking.service.ts` and `audit-log.service.ts` on one snapshot of the
database.

## Main definitions

* `AdminBookingListQuery`, `AuditLogListQuery` — the queries as their schemas accept
  them.
* `bookingWhere`, `auditLogWhere` — their filters.
* `listTenantBookings`, `listAuditLogs` — the two listings.
-/

namespace BookingPlatform

/-- A window on an instant whose ends may be left out. -/
def inWindow (from_ to_ : Option Instant) (t : Instant) : Bool :=
  (∀ s ∈ from_, s ≤ t) ∧ ∀ e ∈ to_, t < e

/-! ### Bookings -/

/-- What the listing of bookings is sorted by. -/
inductive BookingSort
  | createdAt | status | totalPrice | slotStartsAt
  deriving DecidableEq, Repr

/-- What `adminBookingListQuerySchema` accepts. -/
structure AdminBookingListQuery where
  status : Option BookingStatus
  userId : Option Uuid
  experienceId : Option Uuid
  reference : Option String
  createdFrom : Option DateString
  createdTo : Option DateString
  slotFrom : Option DateString
  slotTo : Option DateString
  sortBy : BookingSort
  sortOrder : SortOrder
  page : ℕ
  pageSize : ℕ
  reference_ne : ∀ r ∈ reference, r ≠ ""
  created : ∀ s ∈ createdFrom, ∀ e ∈ createdTo, s ≤ e
  slot : ∀ s ∈ slotFrom, ∀ e ∈ slotTo, s ≤ e
  one_le_page : 1 ≤ page
  one_le_pageSize : 1 ≤ pageSize
  pageSize_le : pageSize ≤ 100

/-- A booking as the listing shows it. -/
structure AdminBookingListItem where
  bookingRef : String
  status : BookingStatus
  partySize : Int4
  totalPrice : Money
  reservedUntil : Option Instant
  createdAt : Instant
  userId : Uuid
  userEmail : String
  experienceId : Uuid
  experienceTitle : String
  slotId : Uuid
  slotStartsAt : Instant
  slotEndsAt : Instant
  deriving DecidableEq

/-- A page of bookings. -/
structure AdminBookingListResult where
  items : List AdminBookingListItem
  pagination : Pagination
  deriving DecidableEq

/-- The dates of a booking query, as instants. -/
structure BookingWindows where
  createdFrom : Option Instant
  createdTo : Option Instant
  slotFrom : Option Instant
  slotTo : Option Instant

/-- The position of a status in the order of its enumeration. -/
def BookingStatus.rank : BookingStatus → ℕ
  | .reserved => 0
  | .confirmed => 1
  | .cancelled => 2
  | .expired => 3

/-- `where.slot`, which is there only when one of the dates is. -/
def slotInWindows (w : BookingWindows) : Option AvailabilitySlot → Bool
  | some slot => inWindow w.slotFrom w.slotTo slot.startsAt
  | none => w.slotFrom = none ∧ w.slotTo = none

/-- The `where` of `listTenantBookings`. -/
def bookingWhere (tenantId : Uuid) (query : AdminBookingListQuery) (w : BookingWindows)
    (db : Database) (b : Booking) : Bool :=
  b.tenantId = tenantId ∧ (∀ s ∈ query.status, b.status = s) ∧
    (∀ id ∈ query.userId, b.userId = id) ∧ (∀ id ∈ query.experienceId, b.experienceId = id) ∧
    (∀ r ∈ query.reference, b.reference = r) ∧
    inWindow w.createdFrom w.createdTo b.createdAt = true ∧
    slotInWindows w (db.availabilitySlots.get? b.slotId) = true

/-- `buildBookingOrderBy`. -/
def orderBookings (query : AdminBookingListQuery) (db : Database) (rows : List Booking) :
    List Booking :=
  match query.sortBy with
  | .status => orderBy (query.sortOrder.le fun m n => m ≤ n) (fun b => b.status.rank) rows
  | .totalPrice => orderBy (query.sortOrder.le fun p q => p ≤ q) Booking.totalPrice rows
  | .slotStartsAt =>
    orderBy (query.sortOrder.le fun s t => s ≤ t)
      (fun b => ((db.availabilitySlots.get? b.slotId).map AvailabilitySlot.startsAt).getD 0) rows
  | .createdAt => orderBy (query.sortOrder.le fun s t => s ≤ t) Booking.createdAt rows

/-- `toAdminBookingListItem`, with the relations it includes. -/
def toAdminBookingListItem (db : Database) (b : Booking) : Except Failure AdminBookingListItem := do
  let user ← required (db.users.get? b.userId)
  let experience ← required (db.experiences.get? b.experienceId)
  let slot ← required (db.availabilitySlots.get? b.slotId)
  return {
    bookingRef := b.reference
    status := b.status
    partySize := b.partySize
    totalPrice := b.totalPrice
    reservedUntil := b.reservedUntil
    createdAt := b.createdAt
    userId := user.id
    userEmail := user.email
    experienceId := experience.id
    experienceTitle := experience.title
    slotId := slot.id
    slotStartsAt := slot.startsAt
    slotEndsAt := slot.endsAt }

/-- A page of the bookings of a tenant. -/
def listTenantBookings (rt : Runtime) (order : RowOrder) (tenantId : Uuid)
    (query : AdminBookingListQuery) (db : Database) : Except Failure AdminBookingListResult := do
  let createdFrom ← optionalDate (parseUtcDate rt.rollsOver) query.createdFrom
  let createdTo ← optionalDate (endDateExclusive rt.rollsOver) query.createdTo
  let slotFrom ← optionalDate (parseUtcDate rt.rollsOver) query.slotFrom
  let slotTo ← optionalDate (endDateExclusive rt.rollsOver) query.slotTo
  sendInstants [createdFrom, createdTo, slotFrom, slotTo].reduceOption
  let rows := order.bookings.apply (db.bookings.findMany
    (bookingWhere tenantId query ⟨createdFrom, createdTo, slotFrom, slotTo⟩ db))
  let items ← (pageOf query.page query.pageSize (orderBookings query db rows)).mapM
    (toAdminBookingListItem db)
  return ⟨items, ⟨query.page, query.pageSize, rows.length, totalPages rows.length query.pageSize⟩⟩

/-! ### Audit logs -/

/-- What `auditLogListQuerySchema` accepts. -/
structure AuditLogListQuery where
  eventType : Option AuditEventType
  entityType : Option String
  entityId : Option Uuid
  actorUserId : Option Uuid
  from_ : Option DateString
  to_ : Option DateString
  sortOrder : SortOrder
  page : ℕ
  pageSize : ℕ
  entityType_ne : ∀ t ∈ entityType, t ≠ ""
  dates : ∀ s ∈ from_, ∀ e ∈ to_, s ≤ e
  one_le_page : 1 ≤ page
  one_le_pageSize : 1 ≤ pageSize
  pageSize_le : pageSize ≤ 100

/-- An audit row as the listing shows it. -/
structure AuditLogListItem where
  id : Uuid
  eventType : AuditEventType
  entityType : String
  entityId : Option Uuid
  actor : Option (Uuid × String)
  metadata : Option (List (String × Json))
  createdAt : Instant

/-- A page of audit rows. -/
structure AuditLogListResult where
  items : List AuditLogListItem
  pagination : Pagination

/-- `toMetadata`: only an object is shown. -/
def toMetadata : Option Json → Option (List (String × Json))
  | some (.obj fields) => some fields
  | _ => none

/-- `toAuditLogListItem`, with the identifier and email of the actor. -/
def toAuditLogListItem (db : Database) (log : AuditLog) : AuditLogListItem where
  id := log.id
  eventType := log.eventType
  entityType := log.entityType
  entityId := log.entityId
  actor := (log.actorUserId.bind db.users.get?).map fun user => (user.id, user.email)
  metadata := toMetadata log.metadata
  createdAt := log.createdAt

/-- The `where` of `listAuditLogs`. -/
def auditLogWhere (tenantId : Uuid) (query : AuditLogListQuery) (from_ to_ : Option Instant)
    (log : AuditLog) : Bool :=
  log.tenantId = some tenantId ∧ (∀ e ∈ query.eventType, log.eventType = e) ∧
    (∀ t ∈ query.entityType, log.entityType = t) ∧
    (∀ id ∈ query.entityId, log.entityId = some id) ∧
    (∀ id ∈ query.actorUserId, log.actorUserId = some id) ∧
    inWindow from_ to_ log.createdAt = true

/-- A page of the audit rows of a tenant, latest first. -/
def listAuditLogs (rt : Runtime) (order : RowOrder) (tenantId : Uuid) (query : AuditLogListQuery)
    (db : Database) : Except Failure AuditLogListResult := do
  let from_ ← optionalDate (parseUtcDate rt.rollsOver) query.from_
  let to_ ← optionalDate (endDateExclusive rt.rollsOver) query.to_
  sendInstants [from_, to_].reduceOption
  let rows := order.auditLogs.apply (db.auditLogs.filter (auditLogWhere tenantId query from_ to_))
  let logs := pageOf query.page query.pageSize
    (orderBy (query.sortOrder.le fun s t => s ≤ t) AuditLog.createdAt rows)
  return ⟨logs.map (toAuditLogListItem db),
    ⟨query.page, query.pageSize, rows.length, totalPages rows.length query.pageSize⟩⟩

end BookingPlatform
