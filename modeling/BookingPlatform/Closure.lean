import BookingPlatform.Schema

/-!
# References within a tenant

The foreign keys of the schema say that a referenced row exists, and nothing in
the schema says that it belongs to the same tenant.  Both together are what the
services count on.  `SchemaConstraints` is what the schema alone says of the rows
that the listings read.

## Main definitions

* `TenantClosed` — references are resolved, and within the tenant.
* `SchemaConstraints` — references are resolved.
-/

namespace BookingPlatform

/-- Every row references existing rows of its own tenant only. -/
structure TenantClosed (db : Database) : Prop where
  experience : ∀ e ∈ db.experiences,
    ∃ sup, db.suppliers.get? e.supplierId = some sup ∧ sup.tenantId = e.tenantId
  slot : ∀ s ∈ db.availabilitySlots,
    ∃ e, db.experiences.get? s.experienceId = some e ∧ e.tenantId = s.tenantId
  pricingRule : ∀ r ∈ db.pricingRules, ∃ sup, db.suppliers.get? r.supplierId = some sup
  bookingUser : ∀ b ∈ db.bookings,
    ∃ u, db.users.get? b.userId = some u ∧ u.tenantId = b.tenantId
  bookingExperience : ∀ b ∈ db.bookings,
    ∃ e, db.experiences.get? b.experienceId = some e ∧ e.tenantId = b.tenantId
  bookingSlot : ∀ b ∈ db.bookings,
    ∃ s, db.availabilitySlots.get? b.slotId = some s ∧ s.tenantId = b.tenantId
  history : ∀ h ∈ db.bookingStatusHistory, ∃ b, db.bookings.get? h.bookingId = some b

/-- Referenced rows exist, and unique columns are unique. -/
structure SchemaConstraints (db : Database) : Prop where
  experienceSupplier : ∀ e ∈ db.experiences, ∃ sup, db.suppliers.get? e.supplierId = some sup
  bookingUser : ∀ b ∈ db.bookings, ∃ u, db.users.get? b.userId = some u
  bookingExperience : ∀ b ∈ db.bookings, ∃ e, db.experiences.get? b.experienceId = some e
  bookingSlot : ∀ b ∈ db.bookings, ∃ s, db.availabilitySlots.get? b.slotId = some s
  bookingReference : (db.bookings.rows.map Booking.reference).Nodup
  auditLogId : (db.auditLogs.map AuditLog.id).Nodup

end BookingPlatform
