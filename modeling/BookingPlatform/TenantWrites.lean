import BookingPlatform.TenantView

/-!
# What a tenant writes

A booking request that commits writes one booking of its tenant, an entry of the
history and an audit log of it, and the places of a slot of the tenant.  What
other tenants see stays, and every row still references rows of its own tenant.

## Main definitions

* `BookingWrite` — what one booking request writes.
* `SlotsKept` — the slots of other tenants stay.

## Main results

* `createReservation_write`, `confirmReservation_write`, `cancelReservation_write`
  — what a request that commits writes.
* `BookingWrite.agree` — a tenant's write leaves the rows of the others alone.
* `BookingWrite.partitioned` — and keeps the references within the tenants.
-/

namespace BookingPlatform

open Transaction

variable {A B : Uuid} {db db' : Database}

/-! ### Slots -/

/-- Slots after a write of the tenant: each is still there, with its experience,
and those of other tenants are as they were. -/
structure SlotsKept (tenantId : Uuid) (slots slots' : Table AvailabilitySlot) : Prop where
  others : Table.AgreeOn (fun s => s.tenantId ≠ tenantId) slots slots'
  get? : ∀ id s, slots.get? id = some s → ∃ s', slots'.get? id = some s' ∧ s'.tenantId = s.tenantId
  mem : ∀ s' ∈ slots', ∃ s ∈ slots, s'.experienceId = s.experienceId ∧ s'.tenantId = s.tenantId

theorem SlotsKept.refl (tenantId : Uuid) (slots : Table AvailabilitySlot) :
    SlotsKept tenantId slots slots where
  others := .refl _ _
  get? _ s hs := ⟨s, hs, rfl⟩
  mem s hs := ⟨s, hs, rfl, rfl⟩

/-- Adjusting the places of a slot. -/
theorem slotsKept_put {slots : Table AvailabilitySlot} {slot slot' : AvailabilitySlot} {delta : ℤ}
    (hget : slots.get? slot.id = some slot) (hadj : SlotAdjusted delta slot slot') :
    SlotsKept slot.tenantId slots (slots.put slot') := by
  have hid : slot'.id = slot.id := by rw [hadj.frame]
  have htenant : slot'.tenantId = slot.tenantId := by rw [hadj.frame]
  have hexp : slot'.experienceId = slot.experienceId := by rw [hadj.frame]
  have hget' : slots.get? (Keyed.key slot') = some slot := by
    rw [key_slot, hid]
    exact hget
  refine ⟨Table.agreeOn_put hget' (fun h => h rfl) fun h => h htenant, ?_, ?_⟩
  · intro id s hs
    rw [Table.get?_put hget']
    by_cases hk : id = Keyed.key slot'
    · rw [if_pos hk]
      rw [hk, hget'] at hs
      exact ⟨slot', rfl, htenant.trans (congrArg _ (Option.some.inj hs))⟩
    · rw [if_neg hk]
      exact ⟨s, hs, rfl⟩
  · intro s hs
    rcases Table.mem_put.mp hs with ⟨hs, -⟩ | ⟨rfl, -⟩
    · exact ⟨s, hs, rfl, rfl⟩
    · exact ⟨slot, (Table.get?_eq_some.mp hget).1, hexp, htenant⟩

/-! ### One write -/

/-- What a booking request of the tenant writes when it commits. -/
structure BookingWrite (tenantId : Uuid) (db : Database) where
  slots : Table AvailabilitySlot
  booking : Booking
  entry : BookingStatusHistory
  log : AuditLog
  slots_kept : SlotsKept tenantId db.availabilitySlots slots
  tenantId_eq : booking.tenantId = tenantId
  stored : ∀ o, db.bookings.get? booking.id = some o → o.tenantId = tenantId
  reference : ∀ o ∈ db.bookings, o.reference = booking.reference → o.id = booking.id
  user : IsUserOf tenantId db booking.userId
  experience : ∃ e, db.experiences.get? booking.experienceId = some e ∧ e.tenantId = tenantId
  slot : ∃ s, db.availabilitySlots.get? booking.slotId = some s ∧ s.tenantId = tenantId
  entry_eq : entry.bookingId = booking.id
  log_tenantId : log.tenantId = some tenantId
  actor : ∀ actorUserId, log.actorUserId = some actorUserId → IsUserOf tenantId db actorUserId

namespace BookingWrite

/-- The database after the write. -/
def after (w : BookingWrite A db) : Database :=
  { db with
    availabilitySlots := w.slots
    bookings := db.bookings.upsert w.booking
    bookingStatusHistory := db.bookingStatusHistory ++ [w.entry]
    auditLogs := db.auditLogs ++ [w.log] }

theorem mem_bookings_after {w : BookingWrite A db} {b : Booking} (hb : b ∈ w.after.bookings) :
    b ∈ db.bookings ∧ b.id ≠ w.booking.id ∨ b = w.booking := Table.mem_upsert.mp hb

/-- **A tenant's write leaves the rows of the others alone.** -/
theorem agree (w : BookingWrite A db) (hB : B ≠ A) : TenantAgree B db w.after := by
  have hslots : Table.AgreeOn (fun s => s.tenantId = B) db.availabilitySlots w.slots :=
    w.slots_kept.others.congr fun s hs => hs.symm ▸ hB
  have hbookings : Table.AgreeOn (fun b => b.tenantId = B) db.bookings
      (db.bookings.upsert w.booking) := by
    refine Table.agreeOn_upsert ?_ ?_
    · intro o ho hob
      exact hB (hob.symm.trans (w.stored o ho))
    · intro hb
      exact hB (hb.symm.trans w.tenantId_eq)
  have hhistory : ∀ b ∈ db.bookings, b.tenantId = B →
      db.historyOf b.id = w.after.historyOf b.id := by
    intro b hb ht
    -- the booking written is no booking of `B`, so the row is none of its history
    have hne : w.entry.bookingId ≠ b.id := by
      rw [w.entry_eq]
      intro hid
      have hget : db.bookings.get? w.booking.id = some b := Table.get?_eq_some.mpr ⟨hb, hid.symm⟩
      exact hB (ht.symm.trans (w.stored b hget))
    simp [Database.historyOf, after, hne]
  have hlogs : auditLogsOf B db = auditLogsOf B w.after := by
    have hne : w.log.tenantId ≠ some B := by
      rw [w.log_tenantId]
      exact fun h => hB (Option.some.inj h).symm
    simp [auditLogsOf, after, hne]
  exact { TenantAgree.refl B db with
    availabilitySlots := hslots
    bookings := hbookings
    history := fun b hb ht => hhistory b hb ht ▸ .refl _
    auditLogs := hlogs ▸ .refl _ }

/-- **A write keeps the references within the tenants.** -/
theorem partitioned (w : BookingWrite A db) (h : Partitioned db) : Partitioned w.after := by
  have hslot : ∀ id tenantId, (∃ s, db.availabilitySlots.get? id = some s ∧ s.tenantId = tenantId) →
      ∃ s, w.slots.get? id = some s ∧ s.tenantId = tenantId := by
    -- a slot keeps its identifier and its tenant
    rintro id tenantId ⟨s, hs, ht⟩
    obtain ⟨s', hs', ht'⟩ := w.slots_kept.get? id s hs
    exact ⟨s', hs', ht'.trans ht⟩
  refine ⟨⟨h.closed.experience, ?_, h.closed.pricingRule, ?_, ?_, ?_, ?_⟩, ?_, ?_⟩
  · intro s' hs'
    obtain ⟨s, hs, hexp, ht⟩ := w.slots_kept.mem s' hs'
    rw [hexp, ht]
    exact h.closed.slot s hs
  · intro b hb
    rcases mem_bookings_after hb with ⟨hb, -⟩ | rfl
    · exact h.closed.bookingUser b hb
    · rw [w.tenantId_eq]
      exact w.user
  · intro b hb
    rcases mem_bookings_after hb with ⟨hb, -⟩ | rfl
    · exact h.closed.bookingExperience b hb
    · rw [w.tenantId_eq]
      exact w.experience
  · intro b hb
    rcases mem_bookings_after hb with ⟨hb, -⟩ | rfl
    · exact hslot _ _ (h.closed.bookingSlot b hb)
    · rw [w.tenantId_eq]
      exact hslot _ _ w.slot
  · intro e he
    show ∃ b, (db.bookings.upsert w.booking).get? e.bookingId = some b
    rw [Table.get?_upsert]
    split
    · exact ⟨w.booking, rfl⟩
    · next hne =>
      rcases List.mem_append.mp he with he | he
      · exact h.closed.history e he
      · rw [List.mem_singleton.mp he] at hne
        exact absurd w.entry_eq hne
  · intro b hb b' hb' href
    rcases mem_bookings_after hb with ⟨hb, hid⟩ | rfl <;>
      rcases mem_bookings_after hb' with ⟨hb', hid'⟩ | rfl
    · exact h.reference b hb b' hb' href
    · exact absurd (w.reference b hb href) hid
    · exact absurd (w.reference b' hb' href.symm) hid'
    · rfl
  · intro log hlog tenantId ht actorUserId hactor
    rcases List.mem_append.mp hlog with hlog | hlog
    · exact h.audit log hlog tenantId ht actorUserId hactor
    · rw [List.mem_singleton.mp hlog] at ht hactor
      rw [w.log_tenantId] at ht
      obtain rfl := Option.some.inj ht
      exact w.actor actorUserId hactor

end BookingWrite

/-! ### What each request writes -/

/-- What a creation has read of its slot. -/
theorem createReservationLookup_spec {ttl : ℕ} {order : RowOrder} {userId : Uuid}
    {body : CreateBookingBody} {now : Instant} {call : CreateCall}
    (h : createReservationLookup ttl order A userId body db now = .ok call) :
    call.tenantId = A ∧ call.userId = userId ∧ call.slot ∈ db.availabilitySlots ∧
      call.slot.tenantId = A := by
  obtain ⟨slot, experience, supplier, hslot, ht, -, -, -, -, rfl⟩ :=
    createReservationLookup_ok.mp h
  exact ⟨rfl, rfl, (Table.get?_eq_some.mp hslot).1, ht⟩

theorem createReservation_write {ttl : ℕ} {order : RowOrder} {userId : Uuid}
    {body : CreateBookingBody} {g : Generated} {now : Instant} {summary : BookingSummary}
    (hp : Partitioned db) (huser : IsUserOf A db userId)
    (h : createReservation ttl order A userId body g db now = .ok (summary, db')) :
    ∃ w : BookingWrite A db, db' = w.after := by
  obtain ⟨call, b, hlookup, htx, -⟩ := createReservation_ok.mp h
  obtain ⟨hcallt, rfl, hmem, hslott⟩ := createReservationLookup_spec hlookup
  obtain ⟨slot, slot', partySize, hfree, hslot, -, -, -, hadj, -, href, -, -, rfl⟩ :=
    createReservationTransaction_ok.mp htx
  obtain rfl : call.slot = slot := Option.some.inj ((Table.get?_key hmem).symm.trans hslot)
  refine ⟨{
    slots := db.availabilitySlots.put slot'
    booking := call.booking partySize g now
    entry := ⟨g.bookingId, none, .reserved, some call.userId, none, now⟩
    log := (call.audit (call.booking partySize g now)).row g.auditLogId now
    slots_kept := hslott ▸ slotsKept_put hslot hadj
    tenantId_eq := hcallt
    stored := ?_
    reference := fun o ho he => absurd he (href o ho)
    user := huser
    experience := hslott ▸ hp.closed.slot call.slot hmem
    slot := ⟨call.slot, hslot, hslott⟩
    entry_eq := rfl
    log_tenantId := congrArg some hcallt
    actor := ?_ }, ?_⟩
  · intro o ho
    rw [show db.bookings.get? (call.booking partySize g now).id = none from hfree] at ho
    cases ho
  · rintro actorUserId ⟨⟩
    exact huser
  · rw [BookingWrite.after, Table.upsert_of_none hfree]

/-- A booking with the columns that a transition may set: the rest is kept. -/
structure Booking.SameOwner (b b' : Booking) : Prop where
  id : b'.id = b.id
  reference : b'.reference = b.reference
  tenantId : b'.tenantId = b.tenantId
  userId : b'.userId = b.userId
  experienceId : b'.experienceId = b.experienceId
  slotId : b'.slotId = b.slotId

/-- A transition of a booking of the tenant, asked for by its user. -/
theorem transition_write (hp : Partitioned db) {slots : Table AvailabilitySlot}
    (hslots : SlotsKept A db.availabilitySlots slots) {b b' : Booking}
    {entry : BookingStatusHistory} {log : AuditLog} (hb : db.bookings.get? b.id = some b)
    (ht : b.tenantId = A) (hsame : b.SameOwner b') (hentry : entry.bookingId = b.id)
    (hlog : log.tenantId = some A) (hactor : log.actorUserId = some b.userId) :
    ∃ w : BookingWrite A db, { db with
      availabilitySlots := slots
      bookings := db.bookings.put b'
      bookingStatusHistory := db.bookingStatusHistory ++ [entry]
      auditLogs := db.auditLogs ++ [log] } = w.after := by
  obtain ⟨hmem, -⟩ := Table.get?_eq_some.mp hb
  have hget : db.bookings.get? b'.id = some b := hsame.id ▸ hb
  refine ⟨{
    slots := slots
    booking := b'
    entry := entry
    log := log
    slots_kept := hslots
    tenantId_eq := hsame.tenantId.trans ht
    stored := ?_
    reference := ?_
    user := ?_
    experience := ?_
    slot := ?_
    entry_eq := hentry.trans hsame.id.symm
    log_tenantId := hlog
    actor := ?_ }, ?_⟩
  · intro o ho
    rw [← Option.some.inj (hget.symm.trans ho)]
    exact ht
  -- a reference belongs to one booking, also after the transition
  · intro o ho href
    rw [hp.reference o ho b hmem (href.trans hsame.reference), hsame.id]
  · rw [hsame.userId, ← ht]
    exact hp.closed.bookingUser b hmem
  · rw [hsame.experienceId, ← ht]
    exact hp.closed.bookingExperience b hmem
  · rw [hsame.slotId, ← ht]
    exact hp.closed.bookingSlot b hmem
  · intro actorUserId hid
    rw [← Option.some.inj (hactor.symm.trans hid), ← ht]
    exact hp.closed.bookingUser b hmem
  · rw [BookingWrite.after, Table.upsert_of_some hget]

theorem confirmReservation_write {order : RowOrder} {userId : Uuid} {reference : String}
    {g : Generated} {now : Instant} {summary : BookingSummary} (hp : Partitioned db)
    (h : confirmReservation order A userId reference g db now = .ok (summary, db')) :
    ∃ w : BookingWrite A db, db' = w.after := by
  simp only [confirmReservation, Except.bind_eq_ok, Except.pure_eq_ok, Prod.exists,
    Prod.mk.injEq] at h
  obtain ⟨call, hlookup, b, stored, htx, -, rfl⟩ := h
  obtain ⟨hcallt, rfl, hget, howned, -, -⟩ := confirmReservationLookup_spec hlookup
  obtain ⟨b, hb, -, rfl⟩ := confirmReservationTransaction_ok.mp htx
  obtain rfl : call.booking = b := Option.some.inj (hget.symm.trans hb)
  simp only [ownedBy, decide_eq_true_eq] at howned
  exact transition_write hp (.refl _ _) hb howned.1 ⟨rfl, rfl, rfl, rfl, rfl, rfl⟩ rfl
    (congrArg some hcallt) (congrArg some howned.2.1.symm)

theorem cancelReservation_write {userId : Uuid} {reference reason : String} {g : Generated}
    {now : Instant} {summary : BookingSummary} (hp : Partitioned db)
    (h : cancelReservation A userId reference reason g db now = .ok (summary, db')) :
    ∃ w : BookingWrite A db, db' = w.after := by
  simp only [cancelReservation, Except.bind_eq_ok, Except.pure_eq_ok, Prod.exists,
    Prod.mk.injEq] at h
  obtain ⟨call, hlookup, b, stored, htx, -, rfl⟩ := h
  obtain ⟨hcallt, rfl, -, hget, howned, -, -⟩ := cancelReservationLookup_spec hlookup
  obtain ⟨b, slot, slot', hb, hslot, hslott, -, -, hadj, -, rfl⟩ :=
    cancelReservationTransaction_ok.mp htx
  obtain rfl : call.booking = b := Option.some.inj (hget.symm.trans hb)
  simp only [ownedBy, decide_eq_true_eq] at howned
  have hkept : SlotsKept A db.availabilitySlots (db.availabilitySlots.put slot') := by
    rw [← hcallt, ← hslott]
    exact slotsKept_put (Table.get?_key (Table.get?_eq_some.mp hslot).1) hadj
  exact transition_write hp hkept hb howned.1 ⟨rfl, rfl, rfl, rfl, rfl, rfl⟩ rfl
    (congrArg some hcallt) (congrArg some howned.2.1.symm)

/-! ### One transaction on two databases -/

namespace TenantAgree

theorem withSlots (h : TenantAgree A db db') {slots slots' : Table AvailabilitySlot}
    (hslots : Table.AgreeOn (fun s => s.tenantId = A) slots slots') :
    TenantAgree A { db with availabilitySlots := slots }
      { db' with availabilitySlots := slots' } :=
  { h with availabilitySlots := hslots }

theorem appendHistory (h : TenantAgree A db db') (entry : BookingStatusHistory) :
    TenantAgree A { db with bookingStatusHistory := db.bookingStatusHistory ++ [entry] }
      { db' with bookingStatusHistory := db'.bookingStatusHistory ++ [entry] } := by
  refine { h with history := ?_ }
  intro b hb ht
  simp only [Database.historyOf, List.filter_append]
  exact (h.history b hb ht).append_right _

theorem appendAuditLog (h : TenantAgree A db db') (log : AuditLog) :
    TenantAgree A { db with auditLogs := db.auditLogs ++ [log] }
      { db' with auditLogs := db'.auditLogs ++ [log] } := by
  refine { h with auditLogs := ?_ }
  simp only [auditLogsOf, List.filter_append]
  exact h.auditLogs.append_right _

end TenantAgree

/-- Two databases that agree on the tenant, each with a property of its own. -/
def Both (tenantId : Uuid) (I : Database → Prop) (db db' : Database) : Prop :=
  TenantAgree tenantId db db' ∧ I db ∧ I db'

theorem updateSlots_run {guard : AvailabilitySlot → Bool}
    {set : AvailabilitySlot → Except Failure AvailabilitySlot} {slot : AvailabilitySlot}
    (hfind : db.availabilitySlots.findFirst guard = some slot) :
    (updateSlots guard set).run db = (set slot).map fun slot' =>
      (1, { db with availabilitySlots := db.availabilitySlots.put slot' }) := by
  have hrun : (updateSlots guard set).run db = (db.availabilitySlots.updateWhere guard set >>=
      fun p => pure (p.1, { db with availabilitySlots := p.2 })) := rfl
  rw [hrun, Table.updateWhere, hfind]
  dsimp only
  cases set slot <;> rfl

theorem relates_updateSlots {I : Database → Prop}
    (hI : ∀ db slots, I db → I { db with availabilitySlots := slots }) (slotId : Uuid)
    {guard : AvailabilitySlot → Bool}
    (hguard : ∀ s, guard s = true → s.id = slotId ∧ s.tenantId = A)
    {set : AvailabilitySlot → Except Failure AvailabilitySlot}
    (hset : ∀ s s', set s = .ok s' → s'.id = s.id) :
    Relates (Both A I) (updateSlots guard set) fun _ => Both A I := by
  rintro s t ⟨h, hs, ht⟩
  -- the guard picks one row of the tenant, and both databases have the same
  have hfind : s.availabilitySlots.findFirst guard = t.availabilitySlots.findFirst guard := by
    refine h.availabilitySlots.findFirst_eq (fun x hx => (hguard x hx).2) ?_
    intro x hx y hy hgx hgy
    exact Table.eq_of_key hx hy ((hguard x hgx).1.trans (hguard y hgy).1.symm)
  cases hf : t.availabilitySlots.findFirst guard with
  | none =>
    refine Or.inl ⟨0, s, t, ?_, ?_, h, hs, ht⟩
    · exact updateSlots_ok.mpr (Or.inl ⟨hfind.trans hf, rfl, rfl⟩)
    · exact updateSlots_ok.mpr (Or.inl ⟨hf, rfl, rfl⟩)
  | some slot =>
    rw [updateSlots_run (hfind.trans hf), updateSlots_run hf]
    cases hslot' : set slot with
    | error e => exact Or.inr ⟨e, rfl, rfl⟩
    | ok slot' =>
      obtain ⟨hmem, hg⟩ := Table.mem_of_findFirst (hfind.trans hf)
      have hget : s.availabilitySlots.get? (Keyed.key slot') = some slot :=
        Table.get?_eq_some.mpr ⟨hmem, (hset slot slot' hslot').symm⟩
      have hput := h.availabilitySlots.put hget (hguard slot hg).2
      exact Or.inl ⟨1, _, _, rfl, rfl, h.withSlots hput, hI _ _ hs, hI _ _ ht⟩

/-- **Taking or giving back places of the tenant's slot.** -/
theorem relates_adjustSlotReserved {I : Database → Prop}
    (hI : ∀ db slots, I db → I { db with availabilitySlots := slots }) (slotId : Uuid) (delta : ℤ)
    (expectedVersion : Int4) :
    Relates (Both A I) (adjustSlotReserved slotId A delta expectedVersion) fun _ => Both A I := by
  have hset : ∀ r (s s' : AvailabilitySlot), setReserved r s = .ok s' → s'.id = s.id := by
    intro r s s' h
    rw [(setReserved_eq_ok.mp h).2.2]
  unfold adjustSlotReserved
  split
  · refine Relates.check (fun s t h => h.1.subtractReserved_eq fun sl hsl => ?_)
      ((relates_updateSlots hI slotId ?_ fun s => hset _ s).bind fun updated =>
        relates_lift _ fun _ _ _ _ h => h)
    · simp only [versionGuard, decide_eq_true_eq] at hsl
      exact hsl.2.1
    · intro s hs
      exact ⟨(reserveGuard_eq_true.mp hs).1, (reserveGuard_eq_true.mp hs).2.1⟩
  · refine (relates_updateSlots hI slotId ?_ fun s => hset _ s).bind fun updated =>
      relates_lift _ fun _ _ _ _ h => h
    intro s hs
    exact ⟨(releaseGuard_eq_true.mp hs).1, (releaseGuard_eq_true.mp hs).2.1⟩

/-- The booking is there, and it is the tenant's. -/
def HasBooking (tenantId bookingId : Uuid) (db : Database) : Prop :=
  ∃ b, db.bookings.get? bookingId = some b ∧ b.tenantId = tenantId

/-- Updating a booking of the tenant. -/
theorem relates_updateBooking (set : Booking → Booking) (hset : ∀ b : Booking, b.SameOwner (set b))
    (bookingId : Uuid) :
    Relates (Both A (HasBooking A bookingId)) (updateBooking bookingId set) fun _ =>
      TenantAgree A := by
  rintro s t ⟨h, ⟨b, hb, ht⟩, -⟩
  have hb' := h.bookings.get?_of_some hb ht
  have hid : ∀ b, (set b).id = b.id := fun b => (hset b).id
  obtain ⟨hmem, hkey⟩ := Table.get?_eq_some.mp hb
  have hget : s.bookings.get? (Keyed.key (set b)) = some b := by
    rw [key_booking, hid b]
    exact Table.get?_key hmem
  refine Or.inl ⟨set b, _, _, (updateBooking_ok set hid).mpr ⟨b, hb, rfl, rfl⟩,
    (updateBooking_ok set hid).mpr ⟨b, hb', rfl, rfl⟩,
    { h with bookings := h.bookings.put hget ht, history := ?_ }⟩
  intro x hx hxt
  rcases Table.mem_put.mp hx with ⟨hx, -⟩ | ⟨rfl, -⟩
  · exact h.history x hx hxt
  · rw [hid b]
    exact h.history b hmem ht

/-- The booking to be is new, and nothing has been written about it. -/
structure Fresh (g : Generated) (db : Database) : Prop extends Unused g db where
  history : ∀ e ∈ db.bookingStatusHistory, e.bookingId ≠ g.bookingId

theorem Unused.fresh {g : Generated} (h : Unused g db) (hc : TenantClosed db) : Fresh g db := by
  refine ⟨h, fun e he hid => ?_⟩
  obtain ⟨b, hb⟩ := hc.history e he
  rw [hid, h.bookingId] at hb
  cases hb

theorem insertBooking_run {b : Booking} (hfree : db.bookings.get? (Keyed.key b) = none)
    (href : ∀ x ∈ db.bookings, x.reference ≠ b.reference) :
    (insertBooking b).run db =
      if b.totalPrice.FitsDecimal then .ok (b, { db with bookings := db.bookings.insert b hfree })
      else .error (.db .numericFieldOverflow) := by
  split
  · next hprice => exact insertBooking_ok.mpr ⟨hfree, href, hprice, rfl, rfl⟩
  · next hprice =>
    have hnone : ¬∃ x ∈ db.bookings.rows, x.reference = b.reference := by
      rintro ⟨x, hx, he⟩
      exact href x hx he
    simp only [insertBooking, throwIf, StateT.run_bind, StateT.run_get, pure_bind, if_neg hnone,
      if_pos hprice]
    rfl

/-- Inserting a new booking. -/
theorem relates_insertBooking {g : Generated} {b : Booking} (hid : b.id = g.bookingId)
    (href : b.reference = g.reference) :
    Relates (Both A (Fresh g)) (insertBooking b) fun _ => TenantAgree A := by
  rintro s t ⟨h, hs, ht⟩
  have hfree : ∀ {db}, Fresh g db → db.bookings.get? (Keyed.key b) = none := by
    intro db hf
    rw [key_booking, hid]
    exact hf.bookingId
  have hunused : ∀ {db}, Fresh g db → ∀ x ∈ db.bookings, x.reference ≠ b.reference := by
    intro db hf x hx
    rw [href]
    exact hf.reference x hx
  -- what is left to fail is the price, which is the same
  rw [insertBooking_run (hfree hs) (hunused hs), insertBooking_run (hfree ht) (hunused ht)]
  split
  · refine Or.inl ⟨b, _, _, rfl, rfl,
      { h with bookings := h.bookings.insert (hfree hs) (hfree ht), history := ?_ }⟩
    intro x hx hxt
    rcases (Table.mem_insert (h := hfree hs)).mp hx with hx | rfl
    · exact h.history x hx hxt
    · -- neither database has a history of the new booking
      have hnil : ∀ {db}, Fresh g db → db.historyOf x.id = [] := by
        intro db hf
        rw [Database.historyOf, List.filter_eq_nil_iff]
        intro e he
        rw [hid, decide_eq_true_eq]
        exact hf.history e he
      show (s.historyOf x.id).Perm (t.historyOf x.id)
      rw [hnil hs, hnil ht]
  · exact Or.inr ⟨_, rfl, rfl⟩

theorem relates_appendStatusHistory (bookingId : Uuid) (fromStatus : Option BookingStatus)
    (toStatus : BookingStatus) (actorUserId : Option Uuid) (reason : Option String)
    (now : Instant) :
    Relates (TenantAgree A)
      (appendStatusHistory bookingId fromStatus toStatus actorUserId reason now)
      fun _ => TenantAgree A :=
  relates_modify fun _ _ h => h.appendHistory _

theorem relates_withAuditedTransaction {α : Type} {R : Database → Database → Prop} {fn : Tx α}
    (audit : α → AuditContext) (auditLogId : Uuid) (now : Instant)
    (hfn : Relates R fn fun _ => TenantAgree A) :
    Relates R (withAuditedTransaction fn audit auditLogId now) fun _ => TenantAgree A :=
  hfn.bind fun _ => (relates_modify fun _ _ h => h.appendAuditLog _).bind fun _ =>
    relates_pure fun _ _ h => h

theorem relates_createReservationTransaction {call : CreateCall} (hcall : call.tenantId = A)
    (g : Generated) (now : Instant) :
    Relates (Both A (Fresh g)) (createReservationTransaction call g now)
      fun _ => TenantAgree A := by
  refine relates_withAuditedTransaction _ _ _ ?_
  subst hcall
  have hI : ∀ (db : Database) slots, Fresh g db → Fresh g { db with availabilitySlots := slots } :=
    fun _ _ h => ⟨⟨h.bookingId, h.reference⟩, h.history⟩
  refine (relates_adjustSlotReserved hI _ _ _).bind fun _ => ?_
  refine (relates_lift _ fun _ _ _ _ h => h).bind fun partySize => ?_
  refine (relates_insertBooking rfl rfl).bind fun created => ?_
  exact (relates_appendStatusHistory _ _ _ _ _ _).bind fun _ => relates_pure fun _ _ h => h

theorem relates_confirmReservationTransaction (call : ConfirmCall) (g : Generated)
    (now : Instant) :
    Relates (Both A (HasBooking A call.booking.id)) (confirmReservationTransaction call g now)
      fun _ => TenantAgree A := by
  refine relates_withAuditedTransaction _ _ _ ?_
  refine (relates_updateBooking Booking.confirm (fun b => ⟨rfl, rfl, rfl, rfl, rfl, rfl⟩) _).bind
    fun confirmed => ?_
  exact (relates_appendStatusHistory _ _ _ _ _ _).bind fun _ => relates_pure fun _ _ h => h

theorem relates_cancelReservationTransaction {call : CancelCall} (hcall : call.tenantId = A)
    (g : Generated) (now : Instant) :
    Relates (Both A (HasBooking A call.booking.id)) (cancelReservationTransaction call g now)
      fun _ => TenantAgree A := by
  refine relates_withAuditedTransaction _ _ _ ?_
  subst hcall
  refine (relates_adjustSlotReserved (fun _ _ h => h) _ _ _).bind fun _ => ?_
  refine (relates_updateBooking Booking.cancel (fun b => ⟨rfl, rfl, rfl, rfl, rfl, rfl⟩) _).bind
    fun cancelled => ?_
  exact (relates_appendStatusHistory _ _ _ _ _ _).bind fun _ => relates_pure fun _ _ h => h

end BookingPlatform
