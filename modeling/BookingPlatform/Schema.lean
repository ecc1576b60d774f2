import BookingPlatform.Basic
import BookingPlatform.Lib.Query
import BookingPlatform.Lib.Transaction

/-!
# The database schema

The tables of `prisma/schema.prisma` with the columns the services read, and a
database snapshot as the collection of its tables.  Primary keys are a field of
`Table`; `INTEGER` columns are `Int4` and `DECIMAL(12,2)` columns are `Money`.

## Main definitions

* `Booking`, `AvailabilitySlot`, `Experience`, `PricingRule`, `RefreshToken`, `AuditLog`
  and the others — the rows.
* `Database` — a snapshot of the tables.
* `Tx` — a transaction on it.
* `RowOrder` — the orders in which the database returns rows.
-/

namespace BookingPlatform

/-! ### Enumerations -/

/-- What a user may do in the tenant. -/
inductive UserRole
  | admin | travelManager | viewer
  deriving DecidableEq, Repr

/-- The states of a booking. -/
inductive BookingStatus
  | reserved | confirmed | cancelled | expired
  deriving DecidableEq, Repr

/-- A status as the API prints it. -/
def BookingStatus.toString : BookingStatus → String
  | .reserved => "RESERVED"
  | .confirmed => "CONFIRMED"
  | .cancelled => "CANCELLED"
  | .expired => "EXPIRED"

/-- What an audit row tells of. -/
inductive AuditEventType
  | login | logout
  | bookingReserved | bookingConfirmed | bookingCancelled | bookingExpired
  | webhookCreated | webhookUpdated | webhookDeleted
  | pricingRuleCreated | pricingRuleUpdated
  | userCreated | userUpdated
  deriving DecidableEq, Repr

/-- What a pricing rule looks at. -/
inductive PricingRuleType
  | groupSize | advanceBooking | seasonal
  deriving DecidableEq, Repr

/-- `AuditEntityType`, the entity types the services write. -/
inductive AuditEntityType
  | tenant | user | supplier | experience | availabilitySlot | pricingRule | booking | tenantWebhook
  deriving DecidableEq, Repr

/-- The string stored in `audit_logs.entityType`. -/
def AuditEntityType.value : AuditEntityType → String
  | .tenant => "Tenant"
  | .user => "User"
  | .supplier => "Supplier"
  | .experience => "Experience"
  | .availabilitySlot => "AvailabilitySlot"
  | .pricingRule => "PricingRule"
  | .booking => "Booking"
  | .tenantWebhook => "TenantWebhook"

/-! ### Rows -/

/-- A row of `tenants`. -/
structure Tenant where
  id : Uuid
  slug : String
  deriving DecidableEq, Repr

/-- A row of `users`. -/
structure User where
  id : Uuid
  tenantId : Uuid
  email : String
  passwordHash : String
  role : UserRole
  isActive : Bool
  deriving DecidableEq, Repr

/-- A row of `refresh_token_families`: one session. -/
structure RefreshTokenFamily where
  id : Uuid
  userId : Uuid
  revoked : Bool
  deriving DecidableEq, Repr

/-- A row of `refresh_tokens`. -/
structure RefreshToken where
  id : Uuid
  familyId : Uuid
  tokenHash : String
  revoked : Bool
  replacedById : Option Uuid
  expiresAt : Instant
  deriving DecidableEq, Repr

/-- A row of `suppliers`. -/
structure Supplier where
  id : Uuid
  tenantId : Uuid
  name : String
  email : Option String
  deriving DecidableEq, Repr

/-- A row of `experiences`. -/
structure Experience where
  id : Uuid
  tenantId : Uuid
  supplierId : Uuid
  title : String
  destination : String
  description : Option String
  basePrice : Money
  capacity : Int4
  active : Bool
  deriving DecidableEq, Repr

/-- A row of `availability_slots`. -/
structure AvailabilitySlot where
  id : Uuid
  tenantId : Uuid
  experienceId : Uuid
  startsAt : Instant
  endsAt : Instant
  capacity : Int4
  reserved : Int4
  version : Int4
  deriving DecidableEq, Repr

/-- A row of `pricing_rules`. -/
structure PricingRule where
  id : Uuid
  supplierId : Uuid
  ruleType : PricingRuleType
  config : Json
  active : Bool

/-- A row of `bookings`. -/
structure Booking where
  id : Uuid
  reference : String
  tenantId : Uuid
  userId : Uuid
  experienceId : Uuid
  slotId : Uuid
  partySize : Int4
  totalPrice : Money
  status : BookingStatus
  reservedUntil : Option Instant
  createdAt : Instant
  deriving DecidableEq, Repr

/-- A row of `booking_status_history`; no service reads its own identifier. -/
structure BookingStatusHistory where
  bookingId : Uuid
  fromStatus : Option BookingStatus
  toStatus : BookingStatus
  actorUserId : Option Uuid
  reason : Option String
  createdAt : Instant
  deriving DecidableEq, Repr

/-- A row of `audit_logs`. -/
structure AuditLog where
  id : Uuid
  tenantId : Option Uuid
  actorUserId : Option Uuid
  eventType : AuditEventType
  entityType : String
  entityId : Option Uuid
  metadata : Option Json
  createdAt : Instant

/-- Tenants by their identifier. -/
instance : Keyed Tenant Uuid := ⟨Tenant.id⟩

/-- Users by their identifier. -/
instance : Keyed User Uuid := ⟨User.id⟩

/-- Sessions by their identifier. -/
instance : Keyed RefreshTokenFamily Uuid := ⟨RefreshTokenFamily.id⟩

/-- Refresh tokens by their identifier. -/
instance : Keyed RefreshToken Uuid := ⟨RefreshToken.id⟩

/-- Suppliers by their identifier. -/
instance : Keyed Supplier Uuid := ⟨Supplier.id⟩

/-- Experiences by their identifier. -/
instance : Keyed Experience Uuid := ⟨Experience.id⟩

/-- Slots by their identifier. -/
instance : Keyed AvailabilitySlot Uuid := ⟨AvailabilitySlot.id⟩

/-- Pricing rules by their identifier. -/
instance : Keyed PricingRule Uuid := ⟨PricingRule.id⟩

/-- Bookings by their identifier. -/
instance : Keyed Booking Uuid := ⟨Booking.id⟩

@[simp] theorem key_tenant (t : Tenant) : Keyed.key t = t.id := rfl
@[simp] theorem key_family (f : RefreshTokenFamily) : Keyed.key f = f.id := rfl
@[simp] theorem key_refreshToken (t : RefreshToken) : Keyed.key t = t.id := rfl
@[simp] theorem key_user (u : User) : Keyed.key u = u.id := rfl
@[simp] theorem key_supplier (s : Supplier) : Keyed.key s = s.id := rfl
@[simp] theorem key_experience (e : Experience) : Keyed.key e = e.id := rfl
@[simp] theorem key_slot (s : AvailabilitySlot) : Keyed.key s = s.id := rfl
@[simp] theorem key_pricingRule (r : PricingRule) : Keyed.key r = r.id := rfl
@[simp] theorem key_booking (b : Booking) : Keyed.key b = b.id := rfl

/-! ### Snapshots -/

/-- A snapshot of the tables the services use.  History and audit rows are only
ever appended; the lists are in commit order. -/
structure Database where
  tenants : Table Tenant := .empty
  users : Table User := .empty
  refreshTokenFamilies : Table RefreshTokenFamily := .empty
  refreshTokens : Table RefreshToken := .empty
  suppliers : Table Supplier := .empty
  experiences : Table Experience := .empty
  availabilitySlots : Table AvailabilitySlot := .empty
  pricingRules : Table PricingRule := .empty
  bookings : Table Booking := .empty
  bookingStatusHistory : List BookingStatusHistory := []
  auditLogs : List AuditLog := []

/-- The history rows of a booking, in commit order. -/
def Database.historyOf (db : Database) (id : Uuid) : List BookingStatusHistory :=
  db.bookingStatusHistory.filter fun row => row.bookingId = id

/-- A database transaction. -/
abbrev Tx := Transaction Database Failure

/-- What the database chooses: the order of the rows of each query that has no
`ORDER BY`, or among the ties of one that has; and the slots whose places a search
compares before it knows that their experience does not match. -/
structure RowOrder where
  pricingRules : Arrangement PricingRule := .stored
  matchingExperiences : Arrangement Experience := .stored
  groupedExperiences : Arrangement Experience := .stored
  pricedExperiences : Arrangement Experience := .stored
  eligibleSlots : Arrangement AvailabilitySlot := .stored
  bookings : Arrangement Booking := .stored
  history : Arrangement BookingStatusHistory := .stored
  auditLogs : Arrangement AuditLog := .stored
  comparedEarly : AvailabilitySlot → Bool := fun _ => false

/-- The active pricing rules of a supplier, as an `include` loads them. -/
def activePricingRules (order : RowOrder) (db : Database) (supplierId : Uuid) :
    List PricingRule :=
  order.pricingRules.apply
    (db.pricingRules.findMany fun r => r.supplierId = supplierId ∧ r.active = true)

/-- `capacity - reserved` is an `INTEGER`. -/
def AvailabilitySlot.CountsPlaces (slot : AvailabilitySlot) : Prop :=
  -2147483648 ≤ (slot.capacity : ℤ) - slot.reserved ∧
    (slot.capacity : ℤ) - slot.reserved ≤ 2147483647

/-- Whether the places of a slot can be counted can be decided. -/
instance (slot : AvailabilitySlot) : Decidable slot.CountsPlaces :=
  inferInstanceAs (Decidable (_ ∧ _))

/-- A statement that compares `capacity - reserved`: the database computes the
difference, in `INTEGER` arithmetic, of the slots that meet the other conditions. -/
def subtractReserved (others : AvailabilitySlot → Bool) (db : Database) : Except Failure Unit :=
  throwIf (∃ slot ∈ db.availabilitySlots.rows, others slot = true ∧ ¬ slot.CountsPlaces)
    (.db .integerOutOfRange)

theorem subtractReserved_eq_ok {others : AvailabilitySlot → Bool} {db : Database} {u : Unit} :
    subtractReserved others db = .ok u ↔
      ∀ slot ∈ db.availabilitySlots, others slot = true → slot.CountsPlaces := by
  rw [subtractReserved, throwIf_eq_ok]
  constructor
  · intro h slot hslot ho
    by_contra hc
    exact h ⟨slot, hslot, ho, hc⟩
  · rintro h ⟨slot, hslot, ho, hc⟩
    exact hc (h slot hslot ho)

/-- A relation that the schema declares as required. -/
def required {α : Type} (o : Option α) : Except Failure α := orThrow o (.db .recordNotFound)

theorem required_eq_ok {α : Type} {o : Option α} {a : α} : required o = .ok a ↔ o = some a :=
  orThrow_eq_ok

end BookingPlatform
