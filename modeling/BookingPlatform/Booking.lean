import BookingPlatform.Audit
import BookingPlatform.BookingState
import BookingPlatform.Pricing

/-!
# The booking service

`booking.service.ts`.  Each operation that writes is split where the source
splits it: a lookup, which reads one snapshot and checks it, and a transaction,
which runs later on whatever the database then is.  What the lookup leaves in
local variables is a structure of its own.

## Main definitions

* `adjustSlotReserved` — the guarded `UPDATE` of a slot.
* `createReservationLookup`, `createReservationTransaction` and their companions for a
  confirmation and a cancellation — the two halves of each operation.
* `expireReservation`, `expireStaleReservations` — the expiry worker.
-/

namespace BookingPlatform

open Transaction

/-! ### Statements -/

/-- An `UPDATE` of `availability_slots`; returns the number of rows. -/
def updateSlots (guard : AvailabilitySlot → Bool)
    (set : AvailabilitySlot → Except Failure AvailabilitySlot) : Tx ℕ := fun db => do
  let (updated, slots) ← db.availabilitySlots.updateWhere guard set
  return (updated, { db with availabilitySlots := slots })

/-- An `UPDATE` of `bookings`; returns the number of rows. -/
def updateBookings (guard : Booking → Bool) (set : Booking → Booking) : Tx ℕ := fun db => do
  let (updated, bookings) ← db.bookings.updateWhere guard fun b => .ok (set b)
  return (updated, { db with bookings := bookings })

/-- `tx.booking.update`: by identifier, an error when there is no such row. -/
def updateBooking (id : Uuid) (set : Booking → Booking) : Tx Booking := do
  let updated ← updateBookings (fun b => b.id = id) set
  throwIf (updated = 0) (.db .recordNotFound)
  let db ← get
  required (db.bookings.get? id)

/-- `tx.booking.create`: the identifier and the reference are unique, and the
price is a `DECIMAL(12,2)`. -/
def insertBooking (b : Booking) : Tx Booking := do
  let db ← get
  throwIf (∃ x ∈ db.bookings.rows, x.reference = b.reference) (.db .uniqueConstraint)
  throwIf (¬ b.totalPrice.FitsDecimal) (.db .numericFieldOverflow)
  if h : db.bookings.get? (Keyed.key b) = none then do
    set { db with bookings := db.bookings.insert b h }
    return b
  else throw (.db .uniqueConstraint)

/-- What both `UPDATE`s of a slot ask of its row, but for the places. -/
def versionGuard (slotId tenantId : Uuid) (expectedVersion : Int4) (slot : AvailabilitySlot) :
    Bool :=
  slot.id = slotId ∧ slot.tenantId = tenantId ∧ slot.version = expectedVersion

/-- The condition of the `UPDATE` that takes `delta` places. -/
def reserveGuard (slotId tenantId : Uuid) (delta : ℤ) (expectedVersion : Int4)
    (slot : AvailabilitySlot) : Bool :=
  versionGuard slotId tenantId expectedVersion slot = true ∧
    (slot.capacity : ℤ) - slot.reserved ≥ delta

/-- The condition of the `UPDATE` that gives `release` places back. -/
def releaseGuard (slotId tenantId : Uuid) (release : ℤ) (expectedVersion : Int4)
    (slot : AvailabilitySlot) : Bool :=
  versionGuard slotId tenantId expectedVersion slot = true ∧ (slot.reserved : ℤ) ≥ release

/-- `SET reserved = …, version = version + 1`. -/
def setReserved (reserved : ℤ) (slot : AvailabilitySlot) : Except Failure AvailabilitySlot := do
  let reserved ← Int4.write reserved
  let version ← Int4.write (slot.version + 1)
  return { slot with reserved := reserved, version := version }

/-- Atomically adjust `slot.reserved`; fails if the version does not match or
the capacity is exceeded. -/
def adjustSlotReserved (slotId tenantId : Uuid) (delta : ℤ) (expectedVersion : Int4) : Tx Unit :=
  if delta > 0 then do
    -- one statement: the guard subtracts before it compares
    subtractReserved (versionGuard slotId tenantId expectedVersion) (← get)
    let updated ← updateSlots (reserveGuard slotId tenantId delta expectedVersion)
      fun s => setReserved (s.reserved + delta) s
    throwIf (updated = 0) (.app (conflictError "Slot no longer available"))
  else do
    let release := |delta|
    let updated ← updateSlots (releaseGuard slotId tenantId release expectedVersion)
      fun s => setReserved (s.reserved - release) s
    throwIf (updated = 0) (.app (conflictError "Failed to release slot reservation"))

/-- The insertion of a history row. -/
def appendStatusHistory (bookingId : Uuid) (fromStatus : Option BookingStatus)
    (toStatus : BookingStatus) (actorUserId : Option Uuid) (reason : Option String)
    (now : Instant) : Tx Unit :=
  modify fun db => { db with
    bookingStatusHistory := db.bookingStatusHistory ++
      [⟨bookingId, fromStatus, toStatus, actorUserId, reason, now⟩] }

/-- What a booking transaction draws: the identifiers of the rows it may insert
and a booking reference. -/
structure Generated where
  bookingId : Uuid
  reference : String
  auditLogId : Uuid
  deriving DecidableEq, Repr

/-! ### createReservation -/

/-- What `createBookingBodySchema` accepts. -/
structure CreateBookingBody where
  slotId : Uuid
  partySize : ℤ
  one_le_partySize : 1 ≤ partySize

/-- The local variables of `createReservation` when its transaction starts. -/
structure CreateCall where
  tenantId : Uuid
  userId : Uuid
  body : CreateBookingBody
  slot : AvailabilitySlot
  pricingPreview : PricingPreview
  reservedUntil : Instant

/-- `createReservation` up to its transaction. -/
def createReservationLookup (ttl : ℕ) (order : RowOrder) (tenantId userId : Uuid)
    (body : CreateBookingBody) (db : Database) (now : Instant) : Except Failure CreateCall := do
  let slot ← orThrow
    (db.availabilitySlots.findFirst fun s => s.id = body.slotId ∧ s.tenantId = tenantId)
    (.app (notFoundError "Slot not found"))
  let experience ← required (db.experiences.get? slot.experienceId)
  let supplier ← required (db.suppliers.get? experience.supplierId)
  throwIf (experience.active = false) (.app (notFoundError "Slot not found"))
  throwIf ((slot.capacity : ℤ) - slot.reserved < body.partySize)
    (.app (conflictError "Slot no longer available"))
  let pricingPreview := calculatePricingPreview experience.basePrice body.partySize
    (activePricingRules order db supplier.id) (some slot.startsAt) now
  return ⟨tenantId, userId, body, slot, pricingPreview, now + ttl * 1000⟩

/-- The row `createReservation` inserts. -/
def CreateCall.booking (call : CreateCall) (partySize : Int4) (g : Generated) (now : Instant) :
    Booking where
  id := g.bookingId
  reference := g.reference
  tenantId := call.tenantId
  userId := call.userId
  experienceId := call.slot.experienceId
  slotId := call.slot.id
  partySize := partySize
  totalPrice := call.pricingPreview.totalPrice
  status := .reserved
  reservedUntil := some call.reservedUntil
  createdAt := now

/-- The audit row of a creation. -/
def CreateCall.audit (call : CreateCall) (created : Booking) : AuditContext where
  eventType := .bookingReserved
  tenantId := some call.tenantId
  actorUserId := some call.userId
  entityType := .booking
  entityId := some created.id
  metadata := some (.obj [("booking_ref", .str created.reference),
    ("slot_id", .str call.slot.id.toString), ("party_size", .num call.body.partySize)])

/-- The transaction of `createReservation`. -/
def createReservationTransaction (call : CreateCall) (g : Generated) (now : Instant) :
    Tx Booking :=
  withAuditedTransaction (do
      adjustSlotReserved call.slot.id call.tenantId call.body.partySize call.slot.version
      let partySize ← Int4.write call.body.partySize
      let created ← insertBooking (call.booking partySize g now)
      appendStatusHistory created.id none .reserved (some call.userId) none now
      return created)
    call.audit g.auditLogId now

/-! ### Owned bookings -/

/-- `findOwnedBooking`: the booking with the relations it includes. -/
structure OwnedBooking where
  booking : Booking
  experience : Experience
  slot : AvailabilitySlot
  history : List BookingStatusHistory

/-- Whose booking, and which. -/
def ownedBy (tenantId userId : Uuid) (reference : String) (b : Booking) : Bool :=
  b.tenantId = tenantId ∧ b.userId = userId ∧ b.reference = reference

/-- A booking of the user by its reference, with its relations. -/
def findOwnedBooking (order : RowOrder) (tenantId userId : Uuid) (reference : String)
    (db : Database) : Except Failure OwnedBooking := do
  let booking ← orThrow (db.bookings.findFirst (ownedBy tenantId userId reference))
    (.app (notFoundError "Booking not found"))
  let experience ← required (db.experiences.get? booking.experienceId)
  let slot ← required (db.availabilitySlots.get? booking.slotId)
  let history := orderBy (fun s t => s ≤ t) BookingStatusHistory.createdAt
    (order.history.apply (db.bookingStatusHistory.filter fun h => h.bookingId = booking.id))
  return ⟨booking, experience, slot, history⟩

/-! ### confirmReservation -/

/-- The local variables of `confirmReservation` when its transaction starts. -/
structure ConfirmCall where
  tenantId : Uuid
  userId : Uuid
  booking : Booking
  deriving DecidableEq

/-- `reservedUntil` is set and lies before `now`. -/
def holdExpired (b : Booking) (now : Instant) : Bool :=
  match b.reservedUntil with
  | some t => t < now
  | none => false

/-- `confirmReservation` up to its transaction. -/
def confirmReservationLookup (order : RowOrder) (tenantId userId : Uuid) (reference : String)
    (db : Database) (now : Instant) : Except Failure ConfirmCall := do
  let found ← findOwnedBooking order tenantId userId reference db
  assertTransition (some found.booking.status) .confirmed
  throwIf (holdExpired found.booking now = true)
    (.app (conflictError "Reservation hold has expired"))
  return ⟨tenantId, userId, found.booking⟩

/-- The audit row of a confirmation. -/
def ConfirmCall.audit (call : ConfirmCall) : AuditContext where
  eventType := .bookingConfirmed
  tenantId := some call.tenantId
  actorUserId := some call.userId
  entityType := .booking
  entityId := some call.booking.id
  metadata := some (.obj [("booking_ref", .str call.booking.reference),
    ("previousStatus", .str call.booking.status.toString)])

/-- The columns `confirmReservation` sets. -/
def Booking.confirm (b : Booking) : Booking :=
  { b with status := .confirmed, reservedUntil := none }

/-- The transaction of `confirmReservation`, whose `UPDATE` is by the identifier alone. -/
def confirmReservationTransaction (call : ConfirmCall) (g : Generated) (now : Instant) :
    Tx Booking :=
  withAuditedTransaction (do
      let confirmed ← updateBooking call.booking.id Booking.confirm
      appendStatusHistory call.booking.id (some call.booking.status) .confirmed
        (some call.userId) none now
      return confirmed)
    (fun _ => call.audit) g.auditLogId now

/-! ### cancelReservation -/

/-- The local variables of `cancelReservation` when its transaction starts. -/
structure CancelCall where
  tenantId : Uuid
  userId : Uuid
  reason : String
  booking : Booking
  slotVersion : Int4
  deriving DecidableEq

/-- `cancelReservation` up to its transaction. -/
def cancelReservationLookup (tenantId userId : Uuid) (reference reason : String)
    (db : Database) : Except Failure CancelCall := do
  let booking ← orThrow (db.bookings.findFirst (ownedBy tenantId userId reference))
    (.app (notFoundError "Booking not found"))
  let slot ← required (db.availabilitySlots.get? booking.slotId)
  throwIf (isCancellable booking.status = false)
    (.app (conflictError ("Cannot cancel booking in " ++ booking.status.toString ++ " status")))
  assertTransition (some booking.status) .cancelled
  return ⟨tenantId, userId, reason, booking, slot.version⟩

/-- The audit row of a cancellation. -/
def CancelCall.audit (call : CancelCall) : AuditContext where
  eventType := .bookingCancelled
  tenantId := some call.tenantId
  actorUserId := some call.userId
  entityType := .booking
  entityId := some call.booking.id
  metadata := some (.obj [("booking_ref", .str call.booking.reference),
    ("reason", .str call.reason), ("previousStatus", .str call.booking.status.toString)])

/-- The columns `cancelReservation` sets. -/
def Booking.cancel (b : Booking) : Booking :=
  { b with status := .cancelled, reservedUntil := none }

/-- The transaction of `cancelReservation`. -/
def cancelReservationTransaction (call : CancelCall) (g : Generated) (now : Instant) :
    Tx Booking :=
  withAuditedTransaction (do
      adjustSlotReserved call.booking.slotId call.tenantId (-call.booking.partySize)
        call.slotVersion
      let cancelled ← updateBooking call.booking.id Booking.cancel
      appendStatusHistory call.booking.id (some call.booking.status) .cancelled
        (some call.userId) (some call.reason) now
      return cancelled)
    (fun _ => call.audit) g.auditLogId now

/-! ### Expiry -/

/-- How many overdue bookings a run of the worker takes. -/
def expiryBatchSize : ℕ := 50

/-- The columns of an overdue booking that the expiry run selects. -/
structure StaleBooking where
  id : Uuid
  tenantId : Uuid
  slotId : Uuid
  partySize : Int4
  reference : String
  deriving DecidableEq, Repr

/-- The columns that a run of the worker selects. -/
def Booking.stale (b : Booking) : StaleBooking :=
  ⟨b.id, b.tenantId, b.slotId, b.partySize, b.reference⟩

/-- `RESERVED` with `reservedUntil` before `now`. -/
def overdue (now : Instant) (b : Booking) : Bool := b.status = .reserved ∧ holdExpired b now = true

/-- The overdue bookings an expiry run takes, earliest deadline first. -/
def findStaleBookings (order : RowOrder) (db : Database) (now : Instant) : List StaleBooking :=
  ((orderBy (fun s t => s ≤ t) (fun b => b.reservedUntil.getD 0)
    (order.bookings.apply (db.bookings.findMany (overdue now)))).take expiryBatchSize).map
      Booking.stale

/-- The columns `expireReservation` sets. -/
def Booking.expire (b : Booking) : Booking :=
  { b with status := .expired, reservedUntil := none }

/-- The audit row of an expiry, which has no actor. -/
def StaleBooking.audit (booking : StaleBooking) : AuditContext where
  eventType := .bookingExpired
  tenantId := some booking.tenantId
  actorUserId := none
  entityType := .booking
  entityId := some booking.id
  metadata := some (.obj [("booking_ref", .str booking.reference),
    ("previousStatus", .str BookingStatus.reserved.toString)])

/-- The transaction of one expiry, which returns whether it has claimed the booking. -/
def expireReservation (booking : StaleBooking) (g : Generated) (now : Instant) : Tx Bool := do
  let claimed ← updateBookings (fun b => b.id = booking.id ∧ overdue now b = true) Booking.expire
  if claimed = 0 then return false
  else do
    let db ← get
    let slot ← orThrow
      (db.availabilitySlots.findFirst fun s =>
        s.id = booking.slotId ∧ s.tenantId = booking.tenantId)
      (.app (conflictError "Slot not found while expiring reservation"))
    adjustSlotReserved booking.slotId booking.tenantId (-booking.partySize) slot.version
    appendStatusHistory booking.id (some .reserved) .expired none
      (some "Reservation hold expired") now
    logAudit booking.audit g.auditLogId now
    return true

/-- What the environment gives an expiry run: the order of the rows it lists, the
clock when it lists them, and the clock and the draws of each transaction. -/
structure ExpiryEnv where
  order : RowOrder
  listedAt : Instant
  clock : ℕ → Instant
  draws : ℕ → Generated

/-- One turn of the loop of `expireStaleReservations`: the booking counts when it
was claimed, and an error is swallowed. -/
def tryExpire (booking : StaleBooking) (g : Generated) (now : Instant) (db : Database) :
    ℕ × Database :=
  match (expireReservation booking g now).run db with
  | .ok (true, db') => (1, db')
  | .ok (false, db') => (0, db')
  | .error _ => (0, db)

/-- The loop of `expireStaleReservations`, from its `i`th turn on. -/
def expireLoop (env : ExpiryEnv) : ℕ → List StaleBooking → Database → ℕ × Database
  | _, [], db => (0, db)
  | i, booking :: stale, db =>
    let first := tryExpire booking (env.draws i) (env.clock i) db
    let rest := expireLoop env (i + 1) stale first.2
    (first.1 + rest.1, rest.2)

/-- One run of the expiry worker: how many bookings it expires, and the database after it. -/
def expireStaleReservations (env : ExpiryEnv) (db : Database) : ℕ × Database :=
  expireLoop env 0 (findStaleBookings env.order db env.listedAt) db

end BookingPlatform
