import BookingPlatform.AdminListings
import BookingPlatform.AvailabilityCache
import BookingPlatform.BookingRequests
import BookingPlatform.Closure
import BookingPlatform.Lib.Noninterference

/-!
# Requests of many tenants

The requests of all tenants act on one database and one cache, one after another.
A creation or a cancellation that commits only enqueues the invalidation of its
tenant, so an invalidation is an operation of its own and comes at any later point
of a run, or never.

## Main definitions

* `TenantRequest`, `TenantOp` — a request, and what it is run with.
* `serve` — one operation on the world.
* `Partitioned` — every row references rows of its own tenant.
-/

namespace BookingPlatform

/-- The database and the cache. -/
structure World where
  db : Database
  cache : Cache

/-- The settings and the parameters of the services. -/
structure ServiceEnv where
  rt : Runtime
  cache : CacheEnv
  bookingReserveTtlSeconds : ℕ

/-- A request as a controller hands it to a service, or an invalidation. -/
inductive TenantRequest
  | createReservation (userId : Uuid) (body : CreateBookingBody)
  | confirmReservation (userId : Uuid) (reference : String)
  | cancelReservation (userId : Uuid) (reference reason : String)
  | getBookingDetail (userId : Uuid) (reference : String)
  | searchExperiences (query : ExperienceSearchQuery)
  | getExperienceDetail (experienceId : Uuid) (query : ExperienceDetailQuery)
  | listTenantBookings (query : AdminBookingListQuery)
  | listAuditLogs (query : AuditLogListQuery)
  | invalidateTenantAvailability

/-- A request of a tenant, with what it draws and the time at which it runs. -/
structure TenantOp where
  tenantId : Uuid
  request : TenantRequest
  order : RowOrder
  drawn : Generated
  now : Instant

/-- What a request returns. -/
inductive Response
  | booking (summary : BookingSummary)
  | bookingDetail (result : BookingDetailResult)
  | availability (result : CachedResult)
  | bookings (result : AdminBookingListResult)
  | auditLogs (result : AuditLogListResult)
  | invalidated

namespace World

/-- A booking request: a failed one leaves the database as it was. -/
def commit (w : World) (outcome : Except Failure (BookingSummary × Database)) :
    Except Failure Response × World :=
  match outcome with
  | .ok (summary, db) => (.ok (.booking summary), { w with db := db })
  | .error e => (.error e, w)

/-- A request that only reads. -/
def read {α : Type} (w : World) (respond : α → Response) (outcome : Except Failure α) :
    Except Failure Response × World :=
  (respond <$> outcome, w)

/-- A request that asks the cache first, and fills it when it had to read. -/
def readThrough {α : Type} (w : World) (cached : Option CachedResult) (document : α → CachedResult)
    (setCached : α → Cache) (outcome : Except Failure α) : Except Failure Response × World :=
  match cached with
  | some result => (.ok (.availability result), w)
  | none =>
    match outcome with
    | .ok result => (.ok (.availability (document result)), { w with cache := setCached result })
    | .error e => (.error e, w)

end World

/-- One operation, start to end. -/
def serve (env : ServiceEnv) (op : TenantOp) (w : World) : Except Failure Response × World :=
  match op.request with
  | .createReservation userId body =>
    w.commit (createReservation env.bookingReserveTtlSeconds op.order op.tenantId userId body
      op.drawn w.db op.now)
  | .confirmReservation userId reference =>
    w.commit (confirmReservation op.order op.tenantId userId reference op.drawn w.db op.now)
  | .cancelReservation userId reference reason =>
    w.commit (cancelReservation op.tenantId userId reference reason op.drawn w.db op.now)
  | .getBookingDetail userId reference =>
    w.read .bookingDetail (getBookingDetail op.order op.tenantId userId reference w.db)
  | .searchExperiences query =>
    w.readThrough (getCachedSearch env.cache op.tenantId query w.cache op.now) .search
      (fun result => setCachedSearch env.cache op.tenantId query result w.cache op.now)
      (searchExperiences env.rt op.order op.tenantId query w.db op.now)
  | .getExperienceDetail experienceId query =>
    w.readThrough (getCachedDetail env.cache op.tenantId experienceId query w.cache op.now) .detail
      (fun result => setCachedDetail env.cache op.tenantId experienceId query result w.cache op.now)
      (getExperienceDetail env.rt op.order op.tenantId experienceId query w.db op.now)
  | .listTenantBookings query =>
    w.read .bookings (listTenantBookings env.rt op.order op.tenantId query w.db)
  | .listAuditLogs query =>
    w.read .auditLogs (listAuditLogs env.rt op.order op.tenantId query w.db)
  | .invalidateTenantAvailability =>
    (.ok .invalidated,
      { w with cache := invalidateTenantAvailability env.cache op.tenantId w.cache })

/-! ### What a run is promised -/

/-- Every result is ordered by the rows it holds only. -/
structure RowOrder.Determined (order : RowOrder) : Prop where
  pricingRules : order.pricingRules.Determined
  matchingExperiences : order.matchingExperiences.Determined
  groupedExperiences : order.groupedExperiences.Determined
  pricedExperiences : order.pricedExperiences.Determined
  eligibleSlots : order.eligibleSlots.Determined
  bookings : order.bookings.Determined
  history : order.history.Determined
  auditLogs : order.auditLogs.Determined

/-- The identifier and the reference of a booking to be are unused. -/
structure Unused (g : Generated) (db : Database) : Prop where
  bookingId : db.bookings.get? g.bookingId = none
  reference : ∀ b ∈ db.bookings, b.reference ≠ g.reference

/-- A user of the tenant. -/
def IsUserOf (tenantId : Uuid) (db : Database) (userId : Uuid) : Prop :=
  ∃ u, db.users.get? userId = some u ∧ u.tenantId = tenantId

/-- The rows come back in an order of their own; a creation is asked for by a user
of the tenant, as authentication has it, and draws what is unused. -/
structure TenantOp.Admissible (op : TenantOp) (w : World) : Prop where
  order : op.order.Determined
  caller : ∀ userId body, op.request = .createReservation userId body →
    IsUserOf op.tenantId w.db userId
  unused : ∀ userId body, op.request = .createReservation userId body → Unused op.drawn w.db

/-- The actor of a tenant's audit log is a user of the tenant. -/
def AuditClosed (db : Database) : Prop :=
  ∀ log ∈ db.auditLogs, ∀ tenantId, log.tenantId = some tenantId →
    ∀ actorUserId, log.actorUserId = some actorUserId → IsUserOf tenantId db actorUserId

/-- Every row references rows of its own tenant, and a reference is that of one
booking. -/
structure Partitioned (db : Database) : Prop where
  closed : TenantClosed db
  reference : ∀ b ∈ db.bookings, ∀ b' ∈ db.bookings, b.reference = b'.reference → b = b'
  audit : AuditClosed db

end BookingPlatform
