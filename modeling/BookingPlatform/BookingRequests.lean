import BookingPlatform.BookingSpec

/-!
# Whole booking requests

The booking requests of `booking.service.ts` when no other request runs beside
them: the lookup and the transaction of each act on one snapshot, and a failed
request leaves the snapshot as it was.

## Main definitions

* `createReservation`, `confirmReservation`, `cancelReservation`, `getBookingDetail` —
  the four requests.
* `BookingSummary`, `BookingDetailResult` — what they return.
-/

namespace BookingPlatform

/-! ### Responses -/

/-- A booking as the API shows it. -/
structure BookingSummary where
  bookingRef : String
  status : BookingStatus
  partySize : Int4
  totalPrice : Money
  reservedUntil : Option Instant
  deriving DecidableEq

/-- The columns of a booking that the API shows. -/
def toBookingSummary (booking : Booking) : BookingSummary where
  bookingRef := booking.reference
  status := booking.status
  partySize := booking.partySize
  totalPrice := booking.totalPrice
  reservedUntil := booking.reservedUntil

/-- A history row as the API shows it. -/
structure BookingTimelineEntry where
  fromStatus : Option BookingStatus
  toStatus : BookingStatus
  reason : Option String
  actorUserId : Option Uuid
  at_ : Instant
  deriving DecidableEq

/-- A booking with its experience, its slot and its history. -/
structure BookingDetailResult where
  summary : BookingSummary
  experienceId : Uuid
  experienceTitle : String
  slotId : Uuid
  slotStartsAt : Instant
  slotEndsAt : Instant
  timeline : List BookingTimelineEntry
  deriving DecidableEq

/-! ### Requests -/

/-- A reservation, from its lookup to its commit. -/
def createReservation (ttl : ℕ) (order : RowOrder) (tenantId userId : Uuid)
    (body : CreateBookingBody) (g : Generated) (db : Database) (now : Instant) :
    Except Failure (BookingSummary × Database) := do
  let call ← createReservationLookup ttl order tenantId userId body db now
  let (booking, stored) ← (createReservationTransaction call g now).run db
  return (toBookingSummary booking, stored)

/-- A booking of the user by its reference. -/
def getBookingDetail (order : RowOrder) (tenantId userId : Uuid) (reference : String)
    (db : Database) : Except Failure BookingDetailResult := do
  let found ← findOwnedBooking order tenantId userId reference db
  return {
    summary := toBookingSummary found.booking
    experienceId := found.experience.id
    experienceTitle := found.experience.title
    slotId := found.slot.id
    slotStartsAt := found.slot.startsAt
    slotEndsAt := found.slot.endsAt
    timeline := found.history.map fun entry =>
      ⟨entry.fromStatus, entry.toStatus, entry.reason, entry.actorUserId, entry.createdAt⟩ }

/-- A confirmation, from its lookup to its commit. -/
def confirmReservation (order : RowOrder) (tenantId userId : Uuid) (reference : String)
    (g : Generated) (db : Database) (now : Instant) :
    Except Failure (BookingSummary × Database) := do
  let call ← confirmReservationLookup order tenantId userId reference db now
  let (updated, stored) ← (confirmReservationTransaction call g now).run db
  return (toBookingSummary updated, stored)

/-- A cancellation, from its lookup to its commit. -/
def cancelReservation (tenantId userId : Uuid) (reference reason : String) (g : Generated)
    (db : Database) (now : Instant) : Except Failure (BookingSummary × Database) := do
  let call ← cancelReservationLookup tenantId userId reference reason db
  let (updated, stored) ← (cancelReservationTransaction call g now).run db
  return (toBookingSummary updated, stored)

/-! ### What the requests do -/

theorem createReservation_ok {ttl : ℕ} {order : RowOrder} {tenantId userId : Uuid}
    {body : CreateBookingBody} {g : Generated} {db db' : Database} {now : Instant}
    {summary : BookingSummary} :
    createReservation ttl order tenantId userId body g db now = .ok (summary, db') ↔
      ∃ call b, createReservationLookup ttl order tenantId userId body db now = .ok call ∧
        (createReservationTransaction call g now).run db = .ok (b, db') ∧
        summary = toBookingSummary b := by
  simp only [createReservation, Except.bind_eq_ok, Except.pure_eq_ok, Prod.exists, Prod.mk.injEq]
  constructor
  · rintro ⟨call, hcall, b, _, hrun, rfl, rfl⟩
    exact ⟨call, b, hcall, hrun, rfl⟩
  · rintro ⟨call, b, hcall, hrun, rfl⟩
    exact ⟨call, hcall, b, db', hrun, rfl, rfl⟩

end BookingPlatform
