import BookingPlatform.Booking

/-!
# What the booking transactions do

One specification for each statement, lookup and transaction of the booking
service: exactly when it succeeds, and the database it leaves.  Everything later
reads the service through these and unfolds none of it.

## Main definitions

* `HasRoom` — the slot can give or take back the places.
* `SlotAdjusted` — a slot before and after its guarded `UPDATE`.

## Main results

* `adjustSlotReserved_ok` — when the guarded `UPDATE` commits, and what it
  writes.
* `createReservationLookup_ok`, `confirmReservationLookup_spec`,
  `cancelReservationLookup_spec`, `mem_findStaleBookings` — what a lookup has
  seen.
* `createReservationTransaction_ok`, `confirmReservationTransaction_ok`,
  `cancelReservationTransaction_ok`, `expireReservation_claimed` — one
  specification for each transaction.
* `expireReservation_skipped` — an expiry that claims nothing writes nothing.
-/

namespace BookingPlatform

open Transaction

/-! ### What the statements do -/

theorem updateSlots_ok {guard : AvailabilitySlot → Bool}
    {set : AvailabilitySlot → Except Failure AvailabilitySlot} {db db' : Database} {n : ℕ} :
    (updateSlots guard set).run db = .ok (n, db') ↔
      (db.availabilitySlots.findFirst guard = none ∧ n = 0 ∧ db' = db) ∨
      ∃ s s', db.availabilitySlots.findFirst guard = some s ∧ set s = .ok s' ∧ n = 1 ∧
        db' = { db with availabilitySlots := db.availabilitySlots.put s' } :=
  Table.updateWhere_write_ok (fun slots => ({ db with availabilitySlots := slots } : Database)) rfl

theorem updateBookings_ok {guard : Booking → Bool} {set : Booking → Booking} {db db' : Database}
    {n : ℕ} :
    (updateBookings guard set).run db = .ok (n, db') ↔
      (db.bookings.findFirst guard = none ∧ n = 0 ∧ db' = db) ∨
      ∃ b, db.bookings.findFirst guard = some b ∧ n = 1 ∧
        db' = { db with bookings := db.bookings.put (set b) } := by
  refine (Table.updateWhere_write_ok
    (fun bookings => ({ db with bookings := bookings } : Database)) rfl).trans ?_
  simp only [Except.ok.injEq, exists_and_left, exists_eq_left']

/-- The slot has the places that `delta` takes, and can count them, or it holds
those that `delta` gives back. -/
def HasRoom (delta : ℤ) (slot : AvailabilitySlot) : Prop :=
  if delta > 0 then slot.reserved + delta ≤ slot.capacity ∧ slot.CountsPlaces
  else 0 ≤ slot.reserved + delta

/-- `slot'` is `slot` with `delta` more places reserved and the version bumped. -/
structure SlotAdjusted (delta : ℤ) (slot slot' : AvailabilitySlot) : Prop where
  reserved : (slot'.reserved : ℤ) = slot.reserved + delta
  version : (slot'.version : ℤ) = slot.version + 1
  frame : slot' = { slot with reserved := slot'.reserved, version := slot'.version }

theorem setReserved_eq_ok {reserved : ℤ} {slot slot' : AvailabilitySlot} :
    setReserved reserved slot = .ok slot' ↔
      (slot'.reserved : ℤ) = reserved ∧ (slot'.version : ℤ) = slot.version + 1 ∧
        slot' = { slot with reserved := slot'.reserved, version := slot'.version } := by
  simp only [setReserved, Except.bind_eq_ok, Except.pure_eq_ok, Int4.write_eq_ok]
  constructor
  · rintro ⟨r, hr, v, hv, rfl⟩
    exact ⟨hr, hv, rfl⟩
  · rintro ⟨hr, hv, hframe⟩
    exact ⟨slot'.reserved, hr, slot'.version, hv, hframe.symm⟩

theorem reserveGuard_eq_true {slotId tenantId : Uuid} {delta : ℤ} {expectedVersion : Int4}
    {slot : AvailabilitySlot} :
    reserveGuard slotId tenantId delta expectedVersion slot = true ↔
      slot.id = slotId ∧ slot.tenantId = tenantId ∧ slot.version = expectedVersion ∧
        (slot.capacity : ℤ) - slot.reserved ≥ delta := by
  simp only [reserveGuard, versionGuard, decide_eq_true_eq, and_assoc]

theorem releaseGuard_eq_true {slotId tenantId : Uuid} {release : ℤ} {expectedVersion : Int4}
    {slot : AvailabilitySlot} :
    releaseGuard slotId tenantId release expectedVersion slot = true ↔
      slot.id = slotId ∧ slot.tenantId = tenantId ∧ slot.version = expectedVersion ∧
        (slot.reserved : ℤ) ≥ release := by
  simp only [releaseGuard, versionGuard, decide_eq_true_eq, and_assoc]

/-- Looking a slot up by a condition that pins its identifier. -/
theorem findFirst_slot (slotId : Uuid) {t : Table AvailabilitySlot}
    {guard : AvailabilitySlot → Bool} {slot : AvailabilitySlot}
    (hg : ∀ s, guard s = true → s.id = slotId) :
    t.findFirst guard = some slot ↔ t.get? slotId = some slot ∧ guard slot = true := by
  rw [Table.findFirst_eq_get? hg, Option.filter_eq_some_iff]

/-- A guarded `UPDATE` of one slot, which fails when it matches no row. -/
theorem guardedUpdate_ok (slotId : Uuid) {guard : AvailabilitySlot → Bool}
    {set : AvailabilitySlot → Except Failure AvailabilitySlot} {e : Failure} {db db' : Database}
    {u : Unit} (hguard : ∀ s, guard s = true → s.id = slotId) :
    (do
      let updated ← updateSlots guard set
      throwIf (updated = 0) e : Tx Unit).run db = .ok (u, db') ↔
      ∃ slot slot', db.availabilitySlots.get? slotId = some slot ∧ guard slot = true ∧
        set slot = .ok slot' ∧
        db' = { db with availabilitySlots := db.availabilitySlots.put slot' } := by
  simp only [bind_ok, updateSlots_ok, lift_ok, throwIf_eq_ok, findFirst_slot slotId hguard]
  constructor
  · rintro ⟨n, mid, ⟨-, rfl, rfl⟩ | ⟨s, s', ⟨hget, hg⟩, hs, rfl, rfl⟩, hn, rfl⟩
    · exact absurd rfl hn
    · exact ⟨s, s', hget, hg, hs, rfl⟩
  · rintro ⟨s, s', hget, hg, hs, rfl⟩
    exact ⟨1, _, Or.inr ⟨s, s', ⟨hget, hg⟩, hs, rfl, rfl⟩, by simp, rfl⟩

/-- **When `adjustSlotReserved` commits, and what it writes.** -/
theorem adjustSlotReserved_ok {slotId tenantId : Uuid} {delta : ℤ} {expectedVersion : Int4}
    {db db' : Database} {u : Unit} :
    (adjustSlotReserved slotId tenantId delta expectedVersion).run db = .ok (u, db') ↔
      ∃ slot slot', db.availabilitySlots.get? slotId = some slot ∧ slot.tenantId = tenantId ∧
        slot.version = expectedVersion ∧ HasRoom delta slot ∧ SlotAdjusted delta slot slot' ∧
        db' = { db with availabilitySlots := db.availabilitySlots.put slot' } := by
  unfold adjustSlotReserved HasRoom
  split
  · -- places are taken: the guard compares what is left with what is asked for
    next hpos =>
    rw [check_ok, guardedUpdate_ok slotId fun s hs => (reserveGuard_eq_true.mp hs).1]
    simp only [subtractReserved_eq_ok, versionGuard, decide_eq_true_eq, reserveGuard_eq_true,
      setReserved_eq_ok]
    constructor
    · rintro ⟨hcounts, s, s', hget, ⟨hid, ht, hv, hroom⟩, ⟨hr, hbump, hframe⟩, rfl⟩
      exact ⟨s, s', hget, ht, hv,
        ⟨by omega, hcounts s (Table.get?_eq_some.mp hget).1 ⟨hid, ht, hv⟩⟩,
        ⟨hr, hbump, hframe⟩, rfl⟩
    · rintro ⟨s, s', hget, ht, hv, ⟨hroom, hcounts⟩, hadj, rfl⟩
      obtain ⟨hmem, hid⟩ := Table.get?_eq_some.mp hget
      refine ⟨?_, s, s', hget, ⟨hid, ht, hv, by omega⟩,
        ⟨hadj.reserved, hadj.version, hadj.frame⟩, rfl⟩
      -- the identifier is a key: no other slot is subtracted
      rintro t hmemt ⟨hidt, -, -⟩
      exact Table.eq_of_key hmemt hmem (hidt.trans hid.symm) ▸ hcounts
  · -- places are given back: the guard compares what is held with what is returned
    next hneg =>
    have habs : |delta| = -delta := abs_of_nonpos (by omega)
    rw [guardedUpdate_ok slotId fun s hs => (releaseGuard_eq_true.mp hs).1]
    simp only [releaseGuard_eq_true, setReserved_eq_ok, habs, sub_neg_eq_add]
    constructor
    · rintro ⟨s, s', hget, ⟨-, ht, hv, hroom⟩, ⟨hr, hbump, hframe⟩, rfl⟩
      exact ⟨s, s', hget, ht, hv, by omega, ⟨hr, hbump, hframe⟩, rfl⟩
    · rintro ⟨s, s', hget, ht, hv, hroom, hadj, rfl⟩
      have hid : s.id = slotId := (Table.get?_eq_some.mp hget).2
      exact ⟨s, s', hget, ⟨hid, ht, hv, by omega⟩, ⟨hadj.reserved, hadj.version, hadj.frame⟩, rfl⟩

theorem updateBooking_ok (set : Booking → Booking) {id : Uuid} (hset : ∀ b, (set b).id = b.id)
    {db db' : Database} {b' : Booking} :
    (updateBooking id set).run db = .ok (b', db') ↔
      ∃ b, db.bookings.get? id = some b ∧ b' = set b ∧
        db' = { db with bookings := db.bookings.put (set b) } := by
  have hput : ∀ {b}, db.bookings.get? id = some b →
      (db.bookings.put (set b)).get? id = some (set b) := by
    intro b hb
    have hid : (set b).id = id := (hset b).trans (Table.get?_eq_some.mp hb).2
    rw [Table.get?_put (o := b) (by simpa [hid] using hb), if_pos (by simp [hid])]
  have hfind : ∀ {b}, db.bookings.findFirst (fun b => b.id = id) = some b ↔
      db.bookings.get? id = some b := Iff.rfl
  simp only [updateBooking, bind_ok, updateBookings_ok, get_ok, lift_ok, throwIf_eq_ok,
    required_eq_ok]
  constructor
  · rintro ⟨n, mid, ⟨hf, rfl, rfl⟩ | ⟨b, hf, rfl, rfl⟩, -, -, ⟨hn, rfl⟩, -, -, ⟨rfl, rfl⟩, hget,
      rfl⟩
    · exact absurd rfl hn
    · rw [hfind] at hf
      obtain rfl : set b = b' := by simpa [hput hf] using hget
      exact ⟨b, hf, rfl, rfl⟩
  · rintro ⟨b, hb, rfl, rfl⟩
    exact ⟨1, _, Or.inr ⟨b, hfind.mpr hb, rfl, rfl⟩, (), _, ⟨by simp, rfl⟩, _, _, ⟨rfl, rfl⟩,
      hput hb, rfl⟩

theorem insertBooking_ok {b b' : Booking} {db db' : Database} :
    (insertBooking b).run db = .ok (b', db') ↔
      ∃ h : db.bookings.get? (Keyed.key b) = none,
        (∀ x ∈ db.bookings, x.reference ≠ b.reference) ∧ b.totalPrice.FitsDecimal ∧ b' = b ∧
          db' = { db with bookings := db.bookings.insert b h } := by
  simp only [insertBooking, bind_ok, get_ok, lift_ok, throwIf_eq_ok, not_not]
  constructor
  · rintro ⟨_, _, ⟨rfl, rfl⟩, _, _, ⟨href, rfl⟩, _, _, ⟨hprice, rfl⟩, hrest⟩
    by_cases h : db.bookings.get? (Keyed.key b) = none
    · rw [dif_pos h] at hrest
      simp only [bind_ok, set_ok, pure_ok] at hrest
      obtain ⟨-, -, rfl, rfl, rfl⟩ := hrest
      exact ⟨h, fun x hx he => href ⟨x, hx, he⟩, hprice, rfl, rfl⟩
    · rw [dif_neg h] at hrest
      exact (throw_ok.mp hrest).elim
  · rintro ⟨h, href, hprice, rfl, rfl⟩
    refine ⟨_, _, ⟨rfl, rfl⟩, (), _, ⟨?_, rfl⟩, (), _, ⟨hprice, rfl⟩, ?_⟩
    · rintro ⟨x, hx, he⟩
      exact href x hx he
    · rw [dif_pos h]
      exact bind_ok.mpr ⟨(), _, set_ok.mpr rfl, pure_ok.mpr ⟨rfl, rfl⟩⟩

theorem appendStatusHistory_ok {bookingId : Uuid} {fromStatus : Option BookingStatus}
    {toStatus : BookingStatus} {actorUserId : Option Uuid} {reason : Option String}
    {now : Instant} {db db' : Database} {u : Unit} :
    (appendStatusHistory bookingId fromStatus toStatus actorUserId reason now).run db
        = .ok (u, db') ↔
      db' = { db with bookingStatusHistory := db.bookingStatusHistory ++
        [⟨bookingId, fromStatus, toStatus, actorUserId, reason, now⟩] } :=
  modify_ok.trans eq_comm

/-! ### The transactions -/

theorem createReservationTransaction_ok {call : CreateCall} {g : Generated} {now : Instant}
    {db db' : Database} {b : Booking} :
    (createReservationTransaction call g now).run db = .ok (b, db') ↔
      ∃ (slot slot' : AvailabilitySlot) (partySize : Int4)
        (h : db.bookings.get? (Keyed.key (call.booking partySize g now)) = none),
        db.availabilitySlots.get? call.slot.id = some slot ∧ slot.tenantId = call.tenantId ∧
        slot.version = call.slot.version ∧ HasRoom call.body.partySize slot ∧
        SlotAdjusted call.body.partySize slot slot' ∧ (partySize : ℤ) = call.body.partySize ∧
        (∀ x ∈ db.bookings, x.reference ≠ g.reference) ∧
        call.pricingPreview.totalPrice.FitsDecimal ∧ b = call.booking partySize g now ∧
        db' = { db with
          availabilitySlots := db.availabilitySlots.put slot'
          bookings := db.bookings.insert (call.booking partySize g now) h
          bookingStatusHistory := db.bookingStatusHistory ++
            [⟨g.bookingId, none, .reserved, some call.userId, none, now⟩]
          auditLogs := db.auditLogs ++
            [(call.audit (call.booking partySize g now)).row g.auditLogId now] } := by
  simp only [createReservationTransaction, withAuditedTransaction_ok, bind_ok, lift_ok, pure_ok,
    adjustSlotReserved_ok, insertBooking_ok, appendStatusHistory_ok, Int4.write_eq_ok]
  constructor
  · rintro ⟨_, ⟨_, _, ⟨slot, slot', hget, ht, hv, hroom, hadj, rfl⟩, partySize, _, ⟨hp, rfl⟩, _, _,
      ⟨h, href, hprice, rfl, rfl⟩, _, _, rfl, rfl, rfl⟩, rfl⟩
    exact ⟨slot, slot', partySize, h, hget, ht, hv, hroom, hadj, hp, href, hprice, rfl, rfl⟩
  · rintro ⟨slot, slot', partySize, h, hget, ht, hv, hroom, hadj, hp, href, hprice, rfl, rfl⟩
    exact ⟨_, ⟨(), _, ⟨slot, slot', hget, ht, hv, hroom, hadj, rfl⟩, partySize, _, ⟨hp, rfl⟩, _, _,
      ⟨h, href, hprice, rfl, rfl⟩, (), _, rfl, rfl, rfl⟩, rfl⟩

theorem confirmReservationTransaction_ok {call : ConfirmCall} {g : Generated} {now : Instant}
    {db db' : Database} {b' : Booking} :
    (confirmReservationTransaction call g now).run db = .ok (b', db') ↔
      ∃ b, db.bookings.get? call.booking.id = some b ∧ b' = b.confirm ∧
        db' = { db with
          bookings := db.bookings.put b.confirm
          bookingStatusHistory := db.bookingStatusHistory ++ [⟨call.booking.id,
            some call.booking.status, .confirmed, some call.userId, none, now⟩]
          auditLogs := db.auditLogs ++ [call.audit.row g.auditLogId now] } := by
  simp only [confirmReservationTransaction, withAuditedTransaction_ok, bind_ok, pure_ok,
    updateBooking_ok Booking.confirm (fun _ => rfl), appendStatusHistory_ok]
  constructor
  · rintro ⟨_, ⟨_, _, ⟨b, hb, rfl, rfl⟩, _, _, rfl, rfl, rfl⟩, rfl⟩
    exact ⟨b, hb, rfl, rfl⟩
  · rintro ⟨b, hb, rfl, rfl⟩
    exact ⟨_, ⟨_, _, ⟨b, hb, rfl, rfl⟩, (), _, rfl, rfl, rfl⟩, rfl⟩

theorem cancelReservationTransaction_ok {call : CancelCall} {g : Generated} {now : Instant}
    {db db' : Database} {b' : Booking} :
    (cancelReservationTransaction call g now).run db = .ok (b', db') ↔
      ∃ b slot slot', db.bookings.get? call.booking.id = some b ∧
        db.availabilitySlots.get? call.booking.slotId = some slot ∧
        slot.tenantId = call.tenantId ∧ slot.version = call.slotVersion ∧
        HasRoom (-call.booking.partySize) slot ∧
        SlotAdjusted (-call.booking.partySize) slot slot' ∧ b' = b.cancel ∧
        db' = { db with
          availabilitySlots := db.availabilitySlots.put slot'
          bookings := db.bookings.put b.cancel
          bookingStatusHistory := db.bookingStatusHistory ++ [⟨call.booking.id,
            some call.booking.status, .cancelled, some call.userId, some call.reason, now⟩]
          auditLogs := db.auditLogs ++ [call.audit.row g.auditLogId now] } := by
  simp only [cancelReservationTransaction, withAuditedTransaction_ok, bind_ok, pure_ok,
    adjustSlotReserved_ok, updateBooking_ok Booking.cancel (fun _ => rfl),
    appendStatusHistory_ok]
  constructor
  · rintro ⟨_, ⟨_, _, ⟨slot, slot', hget, ht, hv, hroom, hadj, rfl⟩, _, _, ⟨b, hb, rfl, rfl⟩, _, _,
      rfl, rfl, rfl⟩, rfl⟩
    exact ⟨b, slot, slot', hb, hget, ht, hv, hroom, hadj, rfl, rfl⟩
  · rintro ⟨b, slot, slot', hb, hget, ht, hv, hroom, hadj, rfl, rfl⟩
    exact ⟨_, ⟨(), _, ⟨slot, slot', hget, ht, hv, hroom, hadj, rfl⟩, _, _, ⟨b, hb, rfl, rfl⟩, (), _,
      rfl, rfl, rfl⟩, rfl⟩

/-- **An expiry that claims its booking.** -/
theorem expireReservation_claimed {booking : StaleBooking} {g : Generated} {now : Instant}
    {db db' : Database} :
    (expireReservation booking g now).run db = .ok (true, db') ↔
      ∃ b slot slot', db.bookings.get? booking.id = some b ∧ overdue now b = true ∧
        db.availabilitySlots.get? booking.slotId = some slot ∧ slot.tenantId = booking.tenantId ∧
        HasRoom (-booking.partySize) slot ∧ SlotAdjusted (-booking.partySize) slot slot' ∧
        db' = { db with
          availabilitySlots := db.availabilitySlots.put slot'
          bookings := db.bookings.put b.expire
          bookingStatusHistory := db.bookingStatusHistory ++ [⟨booking.id, some .reserved, .expired,
            none, some "Reservation hold expired", now⟩]
          auditLogs := db.auditLogs ++ [booking.audit.row g.auditLogId now] } := by
  have hclaim : ∀ (t : Table Booking) b,
      t.findFirst (fun b => b.id = booking.id ∧ overdue now b = true) = some b ↔
        t.get? booking.id = some b ∧ overdue now b = true := by
    intro t b
    rw [Table.findFirst_eq_get? (k := booking.id) (fun b hb => by simp at hb; exact hb.1),
      Option.filter_eq_some_iff]
    constructor
    · rintro ⟨hb, hp⟩
      simp only [decide_eq_true_eq] at hp
      exact ⟨hb, hp.2⟩
    · rintro ⟨hb, hp⟩
      exact ⟨hb, by simpa using ⟨(Table.get?_eq_some.mp hb).2, hp⟩⟩
  have hslot : ∀ (t : Table AvailabilitySlot) s,
      t.findFirst (fun s => s.id = booking.slotId ∧ s.tenantId = booking.tenantId) = some s ↔
        t.get? booking.slotId = some s ∧ s.tenantId = booking.tenantId := by
    intro t s
    rw [findFirst_slot booking.slotId (fun s hs => by simp at hs; exact hs.1)]
    constructor
    · rintro ⟨hs, hp⟩
      simp only [decide_eq_true_eq] at hp
      exact ⟨hs, hp.2⟩
    · rintro ⟨hs, hp⟩
      exact ⟨hs, by simpa using ⟨(Table.get?_eq_some.mp hs).2, hp⟩⟩
  simp only [expireReservation, bind_ok, updateBookings_ok]
  constructor
  · rintro ⟨n, mid, ⟨hf, rfl, rfl⟩ | ⟨b, hf, rfl, rfl⟩, hrest⟩
    · simp only [if_true, pure_ok, Bool.false_eq_true, false_and] at hrest
    · rw [if_neg (by simp)] at hrest
      simp only [bind_ok, get_ok, lift_ok, orThrow_eq_ok, adjustSlotReserved_ok,
        appendStatusHistory_ok, logAudit_ok, pure_ok, hslot] at hrest
      obtain ⟨hb, hover⟩ := (hclaim _ _).mp hf
      -- the slot is read and adjusted in one transaction, so its version is the one found
      obtain ⟨_, _, ⟨rfl, rfl⟩, slot, _, ⟨⟨hs, ht⟩, rfl⟩, _, _,
        ⟨slot₁, slot', hs₁, -, -, hroom, hadj, rfl⟩, _, _, rfl, _, _, rfl, -, rfl⟩ := hrest
      obtain rfl : slot = slot₁ := Option.some.inj (hs.symm.trans hs₁)
      exact ⟨b, slot, slot', hb, hover, hs, ht, hroom, hadj, rfl⟩
  · rintro ⟨b, slot, slot', hb, hover, hs, ht, hroom, hadj, rfl⟩
    refine ⟨1, _, Or.inr ⟨b, (hclaim _ _).mpr ⟨hb, hover⟩, rfl, rfl⟩, ?_⟩
    rw [if_neg (by simp)]
    simp only [bind_ok, get_ok, lift_ok, orThrow_eq_ok, adjustSlotReserved_ok,
      appendStatusHistory_ok, logAudit_ok, pure_ok, hslot]
    exact ⟨_, _, ⟨rfl, rfl⟩, slot, _, ⟨⟨hs, ht⟩, rfl⟩, (), _,
      ⟨slot, slot', hs, ht, rfl, hroom, hadj, rfl⟩, (), _, rfl, (), _, rfl, trivial, rfl⟩

/-- **An expiry that claims nothing changes nothing.** -/
theorem expireReservation_skipped {booking : StaleBooking} {g : Generated} {now : Instant}
    {db db' : Database} (h : (expireReservation booking g now).run db = .ok (false, db')) :
    db' = db := by
  simp only [expireReservation, bind_ok, updateBookings_ok] at h
  obtain ⟨n, mid, ⟨hf, rfl, rfl⟩ | ⟨b, hf, rfl, rfl⟩, hrest⟩ := h
  · simp only [if_true, pure_ok] at hrest
    exact hrest.2.symm
  · rw [if_neg (by simp)] at hrest
    simp only [bind_ok, pure_ok, Bool.true_eq_false, false_and, and_false, exists_false] at hrest

/-! ### The lookups -/

theorem createReservationLookup_ok {ttl : ℕ} {order : RowOrder} {tenantId userId : Uuid}
    {body : CreateBookingBody} {db : Database} {now : Instant} {call : CreateCall} :
    createReservationLookup ttl order tenantId userId body db now = .ok call ↔
      ∃ slot experience supplier, db.availabilitySlots.get? body.slotId = some slot ∧
        slot.tenantId = tenantId ∧ db.experiences.get? slot.experienceId = some experience ∧
        db.suppliers.get? experience.supplierId = some supplier ∧ experience.active = true ∧
        (body.partySize ≤ (slot.capacity : ℤ) - slot.reserved) ∧
        call = ⟨tenantId, userId, body, slot,
          calculatePricingPreview experience.basePrice body.partySize
            (activePricingRules order db supplier.id) (some slot.startsAt) now,
          now + ttl * 1000⟩ := by
  simp only [createReservationLookup, Except.bind_eq_ok, orThrow_eq_ok, required_eq_ok,
    throwIf_eq_ok, Except.pure_eq_ok, Bool.not_eq_false, not_lt]
  constructor
  · rintro ⟨slot, hs, experience, he, supplier, hsup, -, hact, -, hcap, rfl⟩
    obtain ⟨hget, hp⟩ := (findFirst_slot body.slotId
      (fun s hs => by simp at hs; exact hs.1)).mp hs
    simp only [decide_eq_true_eq] at hp
    exact ⟨slot, experience, supplier, hget, hp.2, he, hsup, hact, hcap, rfl⟩
  · rintro ⟨slot, experience, supplier, hget, ht, he, hsup, hact, hcap, rfl⟩
    refine ⟨slot, ?_, experience, he, supplier, hsup, (), hact, (), hcap, rfl⟩
    rw [findFirst_slot body.slotId (fun s hs => by simp at hs; exact hs.1)]
    exact ⟨hget, by simpa using ⟨(Table.get?_eq_some.mp hget).2, ht⟩⟩

/-- A pending confirmation has seen its own booking `RESERVED`, its hold not yet
over. -/
theorem confirmReservationLookup_spec {order : RowOrder} {tenantId userId : Uuid}
    {reference : String} {db : Database} {now : Instant} {call : ConfirmCall}
    (h : confirmReservationLookup order tenantId userId reference db now = .ok call) :
    call.tenantId = tenantId ∧ call.userId = userId ∧
      db.bookings.get? call.booking.id = some call.booking ∧
      ownedBy tenantId userId reference call.booking = true ∧ call.booking.status = .reserved ∧
      holdExpired call.booking now = false := by
  simp only [confirmReservationLookup, findOwnedBooking, Except.bind_eq_ok, orThrow_eq_ok,
    required_eq_ok, throwIf_eq_ok, Except.pure_eq_ok, assertTransition_some,
    confirmed_mem_allowedTransitions, Bool.not_eq_true] at h
  obtain ⟨_, ⟨b, hb, _, -, _, -, rfl⟩, -, hst, -, hhold, rfl⟩ := h
  obtain ⟨hmem, howned⟩ := Table.mem_of_findFirst hb
  exact ⟨rfl, rfl, Table.get?_key hmem, howned, hst, hhold⟩

/-- A pending cancellation has seen its own booking active, and the version of
the booking's slot. -/
theorem cancelReservationLookup_spec {tenantId userId : Uuid} {reference reason : String}
    {db : Database} {call : CancelCall}
    (h : cancelReservationLookup tenantId userId reference reason db = .ok call) :
    call.tenantId = tenantId ∧ call.userId = userId ∧ call.reason = reason ∧
      db.bookings.get? call.booking.id = some call.booking ∧
      ownedBy tenantId userId reference call.booking = true ∧
      call.booking.status.isActive = true ∧
      ∃ slot, db.availabilitySlots.get? call.booking.slotId = some slot ∧
        slot.version = call.slotVersion := by
  simp only [cancelReservationLookup, Except.bind_eq_ok, orThrow_eq_ok, required_eq_ok,
    throwIf_eq_ok, Except.pure_eq_ok, Bool.not_eq_false] at h
  obtain ⟨b, hb, slot, hs, -, hact, -, -, rfl⟩ := h
  obtain ⟨hmem, howned⟩ := Table.mem_of_findFirst hb
  exact ⟨rfl, rfl, rfl, Table.get?_key hmem, howned, hact, slot, hs, rfl⟩

/-- What an expiry run lists are columns of bookings that were overdue. -/
theorem mem_findStaleBookings {order : RowOrder} {db : Database} {now : Instant}
    {item : StaleBooking} (h : item ∈ findStaleBookings order db now) :
    ∃ b, db.bookings.get? item.id = some b ∧ overdue now b = true ∧ item = b.stale := by
  obtain ⟨b, hb, rfl⟩ := List.mem_map.mp h
  have hb := List.mem_of_mem_take hb
  rw [mem_orderBy, Arrangement.mem_apply, Table.mem_findMany] at hb
  exact ⟨b, Table.get?_key hb.1, hb.2, rfl⟩

end BookingPlatform
