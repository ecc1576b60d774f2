import BookingPlatform.Lib.RetryQueue
import BookingPlatform.Capacity

/-!
# One run of the expiry worker

`expireStaleReservations` lists at most fifty overdue bookings and expires them
one by one.  Each of them gives its places back to its slot, on the version that
the one before left; one that cannot is skipped.

## Main definitions

* `Booking.release` — a booking gives its places back to its slot.
* `Expired`, `Released` — the bookings and the slots after a run.
* `SlotsOfTenant`, `VersionsFit` — what a batch needs to succeed.

## Main results

* `expireLoop_spec` — the loop expires the bookings that can give their places
  back, in order, and touches nothing else.
* `expiry_run_exact` — with exact accounting, one run does exactly its batch.
* `run_of_expireStaleReservations` — a run of the worker is a run of the booking
  system.
-/

namespace BookingPlatform

open Runs RetryQueue Transaction

/-! ### Giving places back -/

/-- The slots after a booking gave its places back, if it can: its slot is its
tenant's, has that many places reserved, and its version can be incremented. -/
def Booking.release (b : Booking) (slots : Table AvailabilitySlot) :
    Option (Table AvailabilitySlot) := do
  let slot ← slots.get? b.slotId
  if slot.tenantId = b.tenantId ∧ 1 ≤ (b.partySize : ℤ) ∧ (b.partySize : ℤ) ≤ slot.reserved then
    (setReserved (slot.reserved - b.partySize) slot).toOption.map slots.put
  else none

theorem release_eq_some {b : Booking} {slots slots' : Table AvailabilitySlot} :
    b.release slots = some slots' ↔ ∃ slot slot', slots.get? b.slotId = some slot ∧
      slot.tenantId = b.tenantId ∧ 1 ≤ (b.partySize : ℤ) ∧ (b.partySize : ℤ) ≤ slot.reserved ∧
      SlotAdjusted (-b.partySize) slot slot' ∧ slots' = slots.put slot' := by
  have hset : ∀ slot slot', setReserved (slot.reserved - b.partySize) slot = .ok slot' ↔
      SlotAdjusted (-b.partySize) slot slot' := by
    intro slot slot'
    rw [setReserved_eq_ok, sub_eq_add_neg]
    exact ⟨fun h => ⟨h.1, h.2.1, h.2.2⟩, fun h => ⟨h.reserved, h.version, h.frame⟩⟩
  unfold Booking.release
  cases hs : slots.get? b.slotId with
  | none => simp
  | some slot =>
    simp only [Option.bind_eq_bind, Option.bind_some, Option.some.injEq, exists_and_left,
      exists_eq_left']
    split
    · next hcan =>
      cases hok : setReserved (slot.reserved - b.partySize) slot with
      | error e =>
        simp only [Except.toOption, Option.map_none, reduceCtorEq, false_iff]
        rintro ⟨-, -, -, slot', hadj, -⟩
        rw [(hset slot slot').mpr hadj] at hok
        cases hok
      | ok slot₁ =>
        have hadj := (hset slot slot₁).mp hok
        simp only [Except.toOption, Option.map_some, Option.some.injEq]
        constructor
        · rintro rfl
          exact ⟨hcan.1, hcan.2.1, hcan.2.2, slot₁, hadj, rfl⟩
        · rintro ⟨-, -, -, slot', hadj', rfl⟩
          rw [Except.ok.inj (hok.symm.trans ((hset slot slot').mpr hadj'))]
    · next hcannot =>
      simp only [reduceCtorEq, false_iff]
      rintro ⟨htenant, hone, hle, -⟩
      exact hcannot ⟨htenant, hone, hle⟩

/-- When a booking can give its places back. -/
theorem release_isSome {b : Booking} {slots : Table AvailabilitySlot} :
    (b.release slots).isSome ↔ ∃ slot, slots.get? b.slotId = some slot ∧
      slot.tenantId = b.tenantId ∧ 1 ≤ (b.partySize : ℤ) ∧ (b.partySize : ℤ) ≤ slot.reserved ∧
      (slot.version : ℤ) < 2147483647 := by
  rw [Option.isSome_iff_exists]
  simp only [release_eq_some]
  constructor
  · rintro ⟨_, slot, slot', hs, htenant, hone, hle, hadj, -⟩
    have hmax := slot'.version.upper
    exact ⟨slot, hs, htenant, hone, hle, by have := hadj.version; omega⟩
  · rintro ⟨slot, hs, htenant, hone, hle, hversion⟩
    have hmax := slot.reserved.upper
    have hmin := slot.version.lower
    exact ⟨_, slot, { slot with
      reserved := ⟨slot.reserved + -b.partySize, by omega, by omega⟩
      version := ⟨slot.version + 1, by omega, by omega⟩ }, hs, htenant, hone, hle,
      ⟨rfl, rfl, rfl⟩, rfl⟩

/-- **A booking that cannot give its places back never can**, as long as others
only give back theirs. -/
theorem release_permanent : Permanent Booking.release := by
  intro a b slots slots' ha hb
  rw [← Option.not_isSome_iff_eq_none, release_isSome] at ha ⊢
  obtain ⟨slot, slot', hs, -, hone, -, hadj, rfl⟩ := release_eq_some.mp hb
  rintro ⟨x', hx', htenant, hone', hle, hversion⟩
  rw [hadj.get?_put hs] at hx'
  split at hx'
  · next hid =>
    obtain rfl := Option.some.inj hx'
    have hr := hadj.reserved
    have hv := hadj.version
    refine ha ⟨slot, hid ▸ hs, ?_, hone', by omega, by omega⟩
    rw [← htenant, hadj.frame]
  · exact ha ⟨x', hx', htenant, hone', hle, hversion⟩

/-! ### One turn of the loop -/

/-- The history row of an expiry. -/
def RecordsExpiry (b : Booking) (row : BookingStatusHistory) : Prop :=
  ∃ now, row = ⟨b.id, some .reserved, .expired, none, some "Reservation hold expired", now⟩

/-- The audit row of an expiry. -/
def AuditsExpiry (b : Booking) (log : AuditLog) : Prop :=
  ∃ auditLogId now, log = b.stale.audit.row auditLogId now

/-- The bookings in `done` expired, with one history row and one audit row each,
and nothing else happened, the slots apart. -/
structure Expired (done : List Booking) (db db' : Database) : Prop where
  expired : ∀ b ∈ done, db'.bookings.get? b.id = some b.expire
  others : ∀ id, (∀ b ∈ done, b.id ≠ id) → db'.bookings.get? id = db.bookings.get? id
  history : ∃ rows, db'.bookingStatusHistory = db.bookingStatusHistory ++ rows ∧
    List.Forall₂ RecordsExpiry done rows
  audits : ∃ logs, db'.auditLogs = db.auditLogs ++ logs ∧ List.Forall₂ AuditsExpiry done logs
  frame : db' = { db with
    availabilitySlots := db'.availabilitySlots
    bookings := db'.bookings
    bookingStatusHistory := db'.bookingStatusHistory
    auditLogs := db'.auditLogs }

theorem Expired.nil (db : Database) : Expired [] db db :=
  ⟨fun _ h => absurd h List.not_mem_nil, fun _ _ => rfl, ⟨[], by simp, .nil⟩, ⟨[], by simp, .nil⟩,
    rfl⟩

/-- What an expiry that commits leaves. -/
def Database.expireOne (db : Database) (b : Booking) (slots : Table AvailabilitySlot)
    (g : Generated) (now : Instant) : Database :=
  { db with
    availabilitySlots := slots
    bookings := db.bookings.put b.expire
    bookingStatusHistory := db.bookingStatusHistory ++ [⟨b.id, some .reserved, .expired, none,
      some "Reservation hold expired", now⟩]
    auditLogs := db.auditLogs ++ [b.stale.audit.row g.auditLogId now] }

/-- Reading the bookings after one of them expired. -/
theorem get?_expireOne {db : Database} {b : Booking} (hb : db.bookings.get? b.id = some b)
    (slots : Table AvailabilitySlot) (g : Generated) (now : Instant) (id : Uuid) :
    (db.expireOne b slots g now).bookings.get? id =
      if id = b.id then some b.expire else db.bookings.get? id :=
  get?_put_booking b.expire hb rfl id

/-- One booking expires, and then others. -/
theorem Expired.cons {db db' : Database} {b : Booking} {done : List Booking}
    {slots : Table AvailabilitySlot} {g : Generated} {now : Instant}
    (hb : db.bookings.get? b.id = some b) (hfree : ∀ x ∈ done, x.id ≠ b.id)
    (h : Expired done (db.expireOne b slots g now) db') : Expired (b :: done) db db' := by
  obtain ⟨rows, hhistory, hrecords⟩ := h.history
  obtain ⟨logs, haudits, hlogs⟩ := h.audits
  constructor
  · intro x hx
    rcases List.mem_cons.mp hx with rfl | hx
    · rw [h.others x.id hfree, get?_expireOne hb, if_pos rfl]
    · exact h.expired x hx
  · intro id hid
    rw [List.forall_mem_cons] at hid
    rw [h.others id hid.2, get?_expireOne hb, if_neg (Ne.symm hid.1)]
  · refine ⟨_, ?_, .cons ⟨now, rfl⟩ hrecords⟩
    rw [hhistory, Database.expireOne, List.append_assoc, List.singleton_append]
  · refine ⟨_, ?_, .cons ⟨g.auditLogId, now, rfl⟩ hlogs⟩
    rw [haudits, Database.expireOne, List.append_assoc, List.singleton_append]
  · rw [h.frame]
    rfl

/-- A turn whose booking can give its places back. -/
theorem tryExpire_of_release {b : Booking} {g : Generated} {now : Instant} {db : Database}
    {slots : Table AvailabilitySlot} (hb : db.bookings.get? b.id = some b)
    (hover : overdue now b = true) (hrelease : b.release db.availabilitySlots = some slots) :
    tryExpire b.stale g now db = (1, db.expireOne b slots g now) := by
  obtain ⟨slot, slot', hs, htenant, hone, hle, hadj, rfl⟩ := release_eq_some.mp hrelease
  have hroom : HasRoom (-b.partySize) slot := by
    rw [HasRoom, if_neg (by omega)]
    omega
  have hrun : (expireReservation b.stale g now).run db =
      .ok (true, db.expireOne b (db.availabilitySlots.put slot') g now) :=
    expireReservation_claimed.mpr ⟨b, slot, slot', hb, hover, hs, htenant, hroom, hadj, rfl⟩
  rw [tryExpire, hrun]

/-- A turn whose booking cannot. -/
theorem tryExpire_of_stuck {b : Booking} {g : Generated} {now : Instant} {db : Database}
    (hone : 1 ≤ (b.partySize : ℤ)) (hstuck : b.release db.availabilitySlots = none) :
    tryExpire b.stale g now db = (0, db) := by
  unfold tryExpire
  split
  · next db' hrun =>
    obtain ⟨b', slot, slot', -, -, hs, htenant, hroom, hadj, -⟩ := expireReservation_claimed.mp hrun
    have hneg : ¬ -(b.stale.partySize : ℤ) > 0 := by
      have hsame : b.stale.partySize = b.partySize := rfl
      rw [hsame]
      omega
    rw [HasRoom, if_neg hneg] at hroom
    have hle : (b.partySize : ℤ) ≤ slot.reserved := by
      have hsame : b.stale.partySize = b.partySize := rfl
      rw [hsame] at hroom
      omega
    rw [release_eq_some.mpr ⟨slot, slot', hs, htenant, hone, hle, hadj, rfl⟩] at hstuck
    cases hstuck
  · next db' hrun => rw [expireReservation_skipped hrun]
  · rfl

/-! ### The loop -/

/-- **What the loop does.** It expires the bookings that can give their places
back when their turn comes, counts them, and leaves the slots that their
releases leave. -/
theorem expireLoop_spec (env : ExpiryEnv) {l : List Booking} {db : Database} (i : ℕ)
    (hnodup : (l.map Booking.id).Nodup) (hrows : ∀ b ∈ l, db.bookings.get? b.id = some b)
    (hover : ∀ b ∈ l, ∀ j, overdue (env.clock j) b = true)
    (hone : ∀ b ∈ l, 1 ≤ (b.partySize : ℤ)) :
    (expireLoop env i (l.map Booking.stale) db).1 =
      (successes Booking.release l db.availabilitySlots).length ∧
    (expireLoop env i (l.map Booking.stale) db).2.availabilitySlots =
      pass Booking.release l db.availabilitySlots ∧
    Expired (successes Booking.release l db.availabilitySlots) db
      (expireLoop env i (l.map Booking.stale) db).2 := by
  induction l generalizing db i with
  | nil => exact ⟨rfl, rfl, .nil db⟩
  | cons b l ih =>
    rw [List.map_cons, List.nodup_cons] at hnodup
    rw [List.forall_mem_cons] at hrows hover hone
    simp only [List.map_cons, expireLoop, pass_cons, successes, step]
    cases hrelease : b.release db.availabilitySlots with
    | none =>
      rw [tryExpire_of_stuck hone.1 hrelease]
      simpa using ih (i + 1) hnodup.2 hrows.2 hover.2 hone.2
    | some slots =>
      rw [tryExpire_of_release hrows.1 (hover.1 i) hrelease]
      -- the bookings whose turn is still to come are as they were
      have hfree : ∀ x ∈ l, x.id ≠ b.id := by
        intro x hx heq
        exact hnodup.1 (heq ▸ List.mem_map_of_mem hx)
      have hrows' : ∀ x ∈ l, (db.expireOne b slots (env.draws i) (env.clock i)).bookings.get? x.id
          = some x := by
        intro x hx
        rw [get?_expireOne hrows.1, if_neg (hfree x hx)]
        exact hrows.2 x hx
      obtain ⟨hcount, hslots, hexpired⟩ := ih (i + 1) hnodup.2 hrows' hover.2 hone.2
      have hsub : ∀ x ∈ successes Booking.release l slots, x ∈ l := fun x hx =>
        (failures_append_successes _ l slots).subset (List.mem_append_right _ hx)
      refine ⟨?_, hslots, ?_⟩
      · rw [hcount, Nat.add_comm]
        rfl
      · exact hexpired.cons hrows.1 fun x hx => hfree x (hsub x hx)

/-! ### The slots after a pass -/

/-- The party sizes of the bookings of a slot, summed. -/
def placesOn (slotId : Uuid) (l : List Booking) : ℤ :=
  ((l.filter fun b => b.slotId = slotId).map fun b => (b.partySize : ℤ)).sum

/-- The number of bookings of a slot. -/
def countOn (slotId : Uuid) (l : List Booking) : ℕ := l.countP fun b => b.slotId = slotId

theorem placesOn_cons (slotId : Uuid) (b : Booking) (l : List Booking) :
    placesOn slotId (b :: l) = (if b.slotId = slotId then (b.partySize : ℤ) else 0)
      + placesOn slotId l := by
  by_cases hid : b.slotId = slotId <;> simp [placesOn, hid]

theorem countOn_cons (slotId : Uuid) (b : Booking) (l : List Booking) :
    countOn slotId (b :: l) = (if b.slotId = slotId then 1 else 0) + countOn slotId l := by
  by_cases hid : b.slotId = slotId <;> simp [countOn, hid, Nat.add_comm]

theorem placesOn_append (slotId : Uuid) (l l' : List Booking) :
    placesOn slotId (l ++ l') = placesOn slotId l + placesOn slotId l' := by
  simp [placesOn]

theorem countOn_append (slotId : Uuid) (l l' : List Booking) :
    countOn slotId (l ++ l') = countOn slotId l + countOn slotId l' := List.countP_append

theorem placesOn_perm {l l' : List Booking} (h : l.Perm l') (slotId : Uuid) :
    placesOn slotId l = placesOn slotId l' := ((h.filter _).map _).sum_eq

theorem placesOn_nonneg {l : List Booking} (hone : ∀ b ∈ l, 1 ≤ (b.partySize : ℤ))
    (slotId : Uuid) : 0 ≤ placesOn slotId l := by
  refine List.sum_nonneg ?_
  intro x hx
  obtain ⟨b, hb, rfl⟩ := List.mem_map.mp hx
  have := hone b (List.mem_of_mem_filter hb)
  omega

/-- **A slot after a pass**: it lost the places of the bookings that succeeded,
and its version counts them. -/
theorem slot_of_pass {l : List Booking} {slots : Table AvailabilitySlot} {slotId : Uuid}
    {slot : AvailabilitySlot} (hs : slots.get? slotId = some slot) :
    ∃ slot', (pass Booking.release l slots).get? slotId = some slot' ∧ slot.SameColumns slot' ∧
      (slot'.reserved : ℤ) =
        slot.reserved - placesOn slotId (successes Booking.release l slots) ∧
      (slot'.version : ℤ) = slot.version + countOn slotId (successes Booking.release l slots) := by
  induction l generalizing slots slot with
  | nil => exact ⟨slot, hs, .refl slot, by simp [placesOn, successes], by simp [countOn, successes]⟩
  | cons b l ih =>
    simp only [pass_cons, successes, step]
    cases hrelease : b.release slots with
    | none => simpa using ih hs
    | some slots' =>
      obtain ⟨x, x', hx, -, -, -, hadj, rfl⟩ := release_eq_some.mp hrelease
      simp only [Option.isNone_some, Bool.false_eq_true, if_false, Option.getD_some,
        placesOn_cons, countOn_cons]
      by_cases hid : b.slotId = slotId
      · obtain rfl : x = slot := Option.some.inj (hx.symm.trans (hid ▸ hs))
        have hx' : (slots.put x').get? slotId = some x' := by
          rw [hadj.get?_put hx, if_pos hid.symm]
        obtain ⟨slot', hs', hsame, hreserved, hversion⟩ := ih hx'
        refine ⟨slot', hs', AvailabilitySlot.SameColumns.trans hadj.frame hsame, ?_, ?_⟩
        · rw [if_pos hid, hreserved, hadj.reserved]
          ring
        · rw [if_pos hid, hversion, hadj.version]
          push_cast
          ring
      · have hkeep : (slots.put x').get? slotId = some slot := by
          rw [hadj.get?_put hx, if_neg (Ne.symm hid), hs]
        simpa [hid] using ih hkeep

/-- A pass makes no slots. -/
theorem no_slot_of_pass {l : List Booking} {slots : Table AvailabilitySlot} {slotId : Uuid}
    (hs : slots.get? slotId = none) : (pass Booking.release l slots).get? slotId = none := by
  induction l generalizing slots with
  | nil => exact hs
  | cons b l ih =>
    rw [pass_cons, step]
    cases hrelease : b.release slots with
    | none => exact ih hs
    | some slots' =>
      obtain ⟨x, x', hx, -, -, -, hadj, rfl⟩ := release_eq_some.mp hrelease
      refine ih ?_
      rw [Option.getD_some, hadj.get?_put hx, if_neg, hs]
      rintro rfl
      rw [hs] at hx
      cases hx

/-- **A booking's turn succeeds** when its slot holds the places of all the
bookings on it and its version can still be incremented. -/
theorem release_after_pass {l₁ : List Booking} (l₂ : List Booking) {b : Booking}
    {slots : Table AvailabilitySlot} {slot : AvailabilitySlot}
    (hs : slots.get? b.slotId = some slot) (htenant : slot.tenantId = b.tenantId)
    (hone : ∀ x ∈ l₁ ++ b :: l₂, 1 ≤ (x.partySize : ℤ))
    (hplaces : placesOn b.slotId (l₁ ++ b :: l₂) ≤ slot.reserved)
    (hversion : slot.version + (countOn b.slotId (successes Booking.release l₁ slots) : ℤ)
      < 2147483647) :
    (b.release (pass Booking.release l₁ slots)).isSome := by
  obtain ⟨slot', hs', hsame, hreserved', hversion'⟩ := slot_of_pass (l := l₁) hs
  refine release_isSome.mpr ⟨slot', hs', ?_, hone b (by simp), ?_, by omega⟩
  · rw [hsame, htenant]
  · -- those before it took no more than their own places
    have hperm := placesOn_perm (failures_append_successes Booking.release l₁ slots)
      b.slotId
    have hfailed : 0 ≤ placesOn b.slotId (failures Booking.release l₁ slots) :=
      placesOn_nonneg (fun x hx => hone x
        (List.mem_append_left _ ((failures_sublist _ l₁ slots).subset hx))) b.slotId
    have hlater : 0 ≤ placesOn b.slotId l₂ :=
      placesOn_nonneg (fun x hx => hone x (by simp [hx])) b.slotId
    rw [placesOn_append] at hperm
    rw [placesOn_append, placesOn_cons, if_pos rfl] at hplaces
    omega

/-! ### The batch -/

/-- When the hold of a booking ends. -/
def Booking.deadline (b : Booking) : Instant := b.reservedUntil.getD 0

/-- The overdue bookings, earliest deadline first. -/
def overdueInOrder (order : RowOrder) (db : Database) (now : Instant) : List Booking :=
  orderBy (fun s t => s ≤ t) Booking.deadline
    (order.bookings.apply (db.bookings.findMany (overdue now)))

/-- The rows of the batch that an expiry run lists. -/
def staleRows (order : RowOrder) (db : Database) (now : Instant) : List Booking :=
  (overdueInOrder order db now).take expiryBatchSize

theorem findStaleBookings_eq (order : RowOrder) (db : Database) (now : Instant) :
    findStaleBookings order db now = (staleRows order db now).map Booking.stale := rfl

section Batch

variable (order : RowOrder) (db : Database) (now : Instant)

theorem overdueInOrder_perm :
    (overdueInOrder order db now).Perm (db.bookings.findMany (overdue now)) :=
  (orderBy_perm _).trans (order.bookings.perm _)

theorem overdueInOrder_sorted :
    (overdueInOrder order db now).Pairwise fun a b => a.deadline ≤ b.deadline := by
  have hsorted := @orderBy_pairwise Booking Instant (fun s t => s ≤ t) Booking.deadline
    (by simpa using fun a b c : Instant => le_trans) (by simpa using le_total)
    (order.bookings.apply (db.bookings.findMany (overdue now)))
  simpa [overdueInOrder] using hsorted

theorem overdue_nodup : ((db.bookings.findMany (overdue now)).map Booking.id).Nodup :=
  db.bookings.nodup.sublist (List.filter_sublist.map _)

variable {order db now}

theorem mem_staleRows {b : Booking} (h : b ∈ staleRows order db now) :
    b ∈ db.bookings ∧ overdue now b = true := by
  have hb := (overdueInOrder_perm order db now).mem_iff.mp (List.mem_of_mem_take h)
  exact Table.mem_findMany.mp hb

theorem staleRows_length : (staleRows order db now).length =
    min 50 (db.bookings.findMany (overdue now)).length := by
  rw [staleRows, List.length_take, (overdueInOrder_perm order db now).length_eq]
  rfl

theorem staleRows_nodup : ((staleRows order db now).map Booking.id).Nodup :=
  (((overdueInOrder_perm order db now).map _).nodup_iff.mpr (overdue_nodup db now)).sublist
    ((List.take_sublist _ _).map _)

/-- The batch takes the earliest deadlines. -/
theorem deadline_le_of_staleRows {b b' : Booking} (hb : b ∈ staleRows order db now)
    (hb' : b' ∈ db.bookings) (hover : overdue now b' = true) (hnot : b' ∉ staleRows order db now) :
    b.deadline ≤ b'.deadline := by
  have hmem : b' ∈ overdueInOrder order db now :=
    (overdueInOrder_perm order db now).mem_iff.mpr (Table.mem_findMany.mpr ⟨hb', hover⟩)
  have hsorted := overdueInOrder_sorted order db now
  rw [← List.take_append_drop expiryBatchSize (overdueInOrder order db now)] at hmem hsorted
  rcases List.mem_append.mp hmem with hmem | hmem
  · exact absurd hmem hnot
  · exact (List.pairwise_append.mp hsorted).2.2 b hb b' hmem

/-- A batch holds no more bookings of a slot than are overdue. -/
theorem countOn_staleRows_le (slotId : Uuid) :
    countOn slotId (staleRows order db now) ≤
      countOn slotId (db.bookings.findMany (overdue now)) := by
  have hcount : countOn slotId (overdueInOrder order db now) =
      countOn slotId (db.bookings.findMany (overdue now)) :=
    (overdueInOrder_perm order db now).countP_eq _
  rw [← hcount]
  exact (List.take_sublist _ _).countP_le

end Batch

/-- The overdue bookings of a slot hold no more than its active bookings. -/
theorem placesOn_overdue_le {db : Database} (hone : ∀ b ∈ db.bookings, 1 ≤ (b.partySize : ℤ))
    (now : Instant) (slotId : Uuid) :
    placesOn slotId (db.bookings.findMany (overdue now)) ≤ db.activePlaces slotId := by
  have hrows : ∀ l : List Booking, (∀ b ∈ l, 1 ≤ (b.partySize : ℤ)) →
      placesOn slotId (l.filter (overdue now)) ≤ (l.map (Booking.holds slotId)).sum := by
    intro l hl
    induction l with
    | nil => exact le_refl 0
    | cons b l ih =>
      rw [List.forall_mem_cons] at hl
      have hrest := ih hl.2
      rw [List.map_cons, List.sum_cons]
      by_cases hover : overdue now b = true
      · have hact : b.status.isActive = true := by rw [overdue_status hover]; rfl
        rw [List.filter_cons_of_pos hover, placesOn_cons, Booking.holds_active hact]
        omega
      · rw [List.filter_cons_of_neg hover]
        have hnonneg : 0 ≤ b.holds slotId := by
          unfold Booking.holds
          split <;> omega
        omega
  exact hrows db.bookings.rows hone

/-! ### One run -/

/-- The clock of a run does not go back. -/
def ExpiryEnv.NonDecreasing (env : ExpiryEnv) : Prop :=
  env.listedAt ≤ env.clock 0 ∧ Monotone env.clock

theorem ExpiryEnv.NonDecreasing.le {env : ExpiryEnv} (h : env.NonDecreasing) (i : ℕ) :
    env.listedAt ≤ env.clock i := h.1.trans (h.2 (Nat.zero_le i))

/-- Every booking is on a slot of its own tenant. -/
def SlotsOfTenant (db : Database) : Prop :=
  ∀ b ∈ db.bookings,
    (db.availabilitySlots.get? b.slotId).map AvailabilitySlot.tenantId = some b.tenantId

/-- The versions of the slots have room for the expiries of a batch. -/
def VersionsFit (db : Database) (batch : List Booking) : Prop :=
  ∀ slot ∈ db.availabilitySlots,
    (slot.version : ℤ) + countOn slot.id batch ≤ 2147483647

/-- Every slot gave back the places of the bookings in `done`, and its version
counts them. -/
def Released (done : List Booking) (db db' : Database) : Prop :=
  (∀ id slot, db.availabilitySlots.get? id = some slot →
    ∃ slot', db'.availabilitySlots.get? id = some slot' ∧ slot.SameColumns slot' ∧
      (slot'.reserved : ℤ) = slot.reserved - placesOn id done ∧
      (slot'.version : ℤ) = slot.version + countOn id done) ∧
  ∀ id, db.availabilitySlots.get? id = none → db'.availabilitySlots.get? id = none

/-- With exact accounting every booking of the batch can give its places back
when its turn comes. -/
theorem successes_of_exact {db : Database} {order : RowOrder} {now : Instant}
    (hexact : ExactAccounting db) (hone : ∀ b ∈ db.bookings, 1 ≤ (b.partySize : ℤ))
    (htenant : SlotsOfTenant db) (hversion : VersionsFit db (staleRows order db now)) :
    successes Booking.release (staleRows order db now) db.availabilitySlots =
      staleRows order db now := by
  refine successes_eq_self ?_
  intro l₁ b l₂ hsplit
  have hmem : ∀ x ∈ l₁ ++ b :: l₂, x ∈ db.bookings := by
    intro x hx
    rw [← hsplit] at hx
    exact (mem_staleRows hx).1
  obtain ⟨slot, hs, ht⟩ := Option.map_eq_some_iff.mp (htenant b (hmem b (by simp)))
  obtain ⟨hslot, hid⟩ := Table.get?_eq_some.mp hs
  have hid' : slot.id = b.slotId := hid
  refine release_after_pass l₂ hs ht (fun x hx => hone x (hmem x hx)) ?_ ?_
  · -- the accounting equation, over all overdue bookings
    rw [← hsplit]
    have hall := placesOn_overdue_le hone now b.slotId
    rw [← placesOn_perm (overdueInOrder_perm order db now),
      ← List.take_append_drop expiryBatchSize (overdueInOrder order db now),
      placesOn_append] at hall
    -- the bookings behind the batch hold no negative number of places
    have hrest : 0 ≤ placesOn b.slotId ((overdueInOrder order db now).drop expiryBatchSize) := by
      refine placesOn_nonneg (fun x hx => hone x ?_) b.slotId
      have hx' := (overdueInOrder_perm order db now).mem_iff.mp (List.mem_of_mem_drop hx)
      exact (Table.mem_findMany.mp hx').1
    rw [hexact slot hslot, hid']
    simp only [staleRows]
    omega
  · have hfit := hversion slot hslot
    -- the version has risen by at most one for each booking before this one
    have hbefore : countOn b.slotId (successes Booking.release l₁ db.availabilitySlots) ≤
        countOn b.slotId l₁ := by
      have hperm := failures_append_successes Booking.release l₁ db.availabilitySlots
      have hcount : countOn b.slotId _ = countOn b.slotId l₁ := hperm.countP_eq _
      rw [countOn_append] at hcount
      omega
    rw [hid', hsplit, countOn_append, countOn_cons, if_pos rfl] at hfit
    push_cast at hfit
    omega

/-- **One run of the worker does exactly its batch**, from exact accounting and
while the versions of the slots fit their column: it returns the number of
overdue bookings or fifty if that is less, expires that many, none of them with
a later deadline than one it leaves, and changes nothing else. -/
theorem expiry_run_exact {db : Database} {env : ExpiryEnv} (hclock : env.NonDecreasing)
    (hexact : ExactAccounting db) (htenant : SlotsOfTenant db)
    (hone : ∀ b ∈ db.bookings, 1 ≤ (b.partySize : ℤ))
    (hversion : VersionsFit db (staleRows env.order db env.listedAt)) :
    ∃ batch, (expireStaleReservations env db).1 = batch.length ∧
      batch.length = min 50 (db.bookings.findMany (overdue env.listedAt)).length ∧
      (batch.map Booking.id).Nodup ∧
      (∀ b ∈ batch, b ∈ db.bookings ∧ overdue env.listedAt b = true) ∧
      (∀ b ∈ batch, ∀ b' ∈ db.bookings, overdue env.listedAt b' = true → b' ∉ batch →
        b.deadline ≤ b'.deadline) ∧
      Expired batch db (expireStaleReservations env db).2 ∧
      Released batch db (expireStaleReservations env db).2 := by
  have hrows : ∀ b ∈ staleRows env.order db env.listedAt, db.bookings.get? b.id = some b :=
    fun b hb => Table.get?_key (mem_staleRows hb).1
  obtain ⟨hcount, hslots, hexpired⟩ := expireLoop_spec env 0 staleRows_nodup hrows
    (fun b hb j => overdue_mono (hclock.le j) (mem_staleRows hb).2)
    (fun b hb => hone b (mem_staleRows hb).1)
  rw [← findStaleBookings_eq] at hcount hslots hexpired
  -- every booking of the batch succeeds, so the loop expires the batch
  have hall := successes_of_exact hexact hone htenant hversion
  rw [hall] at hcount hexpired
  refine ⟨_, hcount, staleRows_length, staleRows_nodup, fun b hb => mem_staleRows hb,
    fun b hb b' => deadline_le_of_staleRows hb, hexpired, ?_, ?_⟩
  · intro id slot hs
    obtain ⟨slot', hs', hsame, hreserved, hbumped⟩ :=
      slot_of_pass (l := staleRows env.order db env.listedAt) hs
    rw [hall] at hreserved hbumped
    exact ⟨slot', (congrArg (fun t => Table.get? t id) hslots).trans hs', hsame, hreserved, hbumped⟩
  · intro id hs
    exact (congrArg (fun t => Table.get? t id) hslots).trans (no_slot_of_pass hs)

namespace WornSlot

open LateConfirm

/-- The booking of `LateConfirm`, on a slot whose version is the largest there is. -/
def database : Database :=
  { reserved with availabilitySlots :=
      ⟨[{ slot with reserved := booking.partySize, version := .max }], List.nodup_singleton _⟩ }

/-- One run, a millisecond after the hold has run out. -/
def env : ExpiryEnv := ⟨{}, 900001, fun _ => 900001, fun _ => drawn 3⟩

theorem env_nonDecreasing : env.NonDecreasing := ⟨le_refl _, monotone_const⟩

theorem expires_none : (expireStaleReservations env database).1 = 0 := by decide +kernel

end WornSlot

/-- **One run does not always do its batch**: a slot whose version cannot be
incremented keeps its overdue bookings. -/
theorem expiry_run_not_always_exact : ¬ ∀ (db : Database) (env : ExpiryEnv), env.NonDecreasing →
    ExactAccounting db → SlotsOfTenant db → (∀ b ∈ db.bookings, 1 ≤ (b.partySize : ℤ)) →
    (expireStaleReservations env db).1 =
      min 50 (db.bookings.findMany (overdue env.listedAt)).length := by
  intro h
  have hexact : ∀ slot ∈ WornSlot.database.availabilitySlots.rows,
      (slot.reserved : ℤ) = WornSlot.database.activePlaces slot.id := by decide +kernel
  have htenant : ∀ b ∈ WornSlot.database.bookings.rows,
      (WornSlot.database.availabilitySlots.get? b.slotId).map AvailabilitySlot.tenantId =
        some b.tenantId := by decide +kernel
  have hone : ∀ b ∈ WornSlot.database.bookings.rows, 1 ≤ (b.partySize : ℤ) := by decide +kernel
  have hrun := h _ _ WornSlot.env_nonDecreasing hexact htenant hone
  rw [WornSlot.expires_none] at hrun
  revert hrun
  decide +kernel

namespace ThreeOverdue

open LateConfirm

/-- A reservation with its slot, its party and its deadline. -/
def reservation (i : ℕ) (slotId : Uuid) (partySize : Int4) (deadline : Instant) : Booking :=
  { booking with
    id := uuid (100 + i)
    reference := "BK-" ++ toString i
    slotId := slotId
    partySize := partySize
    reservedUntil := some deadline }

/-- Two overdue bookings of one slot, one of another, and a booking that has time left. -/
def database : Database where
  suppliers := LateConfirm.database.suppliers
  experiences := LateConfirm.database.experiences
  availabilitySlots :=
    ⟨[{ slot with reserved := places 6 }, { slot with id := uuid 6, reserved := places 4 }],
      by decide⟩
  bookings :=
    ⟨[reservation 0 (uuid 5) (places 2) 30, reservation 1 (uuid 6) (places 4) 20,
      reservation 2 (uuid 5) (places 3) 10, reservation 3 (uuid 5) (places 1) 900], by decide⟩

/-- The clock goes on from booking to booking. -/
def env : ExpiryEnv := ⟨{}, 100, fun i => 100 + i, drawn⟩

theorem env_nonDecreasing : env.NonDecreasing :=
  ⟨le_refl _, fun i j hij => by show (100 : ℤ) + i ≤ 100 + j; omega⟩

/-- The three that are overdue. -/
def due : List Booking := database.bookings.findMany (overdue 100)

theorem versionsFit : VersionsFit database (staleRows env.order database env.listedAt) := by
  have hroom : ∀ slot ∈ database.availabilitySlots.rows,
      (slot.version : ℤ) + countOn slot.id due ≤ 2147483647 := by decide +kernel
  intro slot hslot
  have hle : countOn slot.id (staleRows env.order database env.listedAt) ≤ countOn slot.id due :=
    countOn_staleRows_le slot.id
  have hfit := hroom slot hslot
  omega

end ThreeOverdue

open ThreeOverdue in
/-- All three bookings are expired; their slot has the places of two of them back, and keeps
those of the booking that has time left. -/
theorem expiry_run_exact_three_overdue :
    (expireStaleReservations env database).1 = 3 ∧
    ∃ slot', (expireStaleReservations env database).2.availabilitySlots.get? (uuid 5) = some slot' ∧
      (slot'.reserved : ℤ) = 1 ∧ (slot'.version : ℤ) = 2 := by
  have hexact : ∀ slot ∈ database.availabilitySlots.rows,
      (slot.reserved : ℤ) = database.activePlaces slot.id := by decide +kernel
  have htenant : ∀ b ∈ database.bookings.rows,
      (database.availabilitySlots.get? b.slotId).map AvailabilitySlot.tenantId =
        some b.tenantId := by decide +kernel
  have hone : ∀ b ∈ database.bookings.rows, 1 ≤ (b.partySize : ℤ) := by decide +kernel
  obtain ⟨batch, hcount, hlength, hnodup, hmem, -, -, hslots, -⟩ :=
    expiry_run_exact env_nonDecreasing hexact htenant hone versionsFit
  have hdue : due.length = 3 := by decide +kernel
  have hthree : batch.length = 3 := by
    rw [hlength]
    change min 50 due.length = 3
    rw [hdue]
    rfl
  have hperm : batch.Perm due := by
    have hsub : batch.Subperm due := hnodup.of_map.subperm fun b hb =>
      Table.mem_findMany.mpr (hmem b hb)
    exact hsub.perm_of_length_le (by rw [hthree, hdue])
  obtain ⟨slot', hslot', -, hreserved, hbumped⟩ := hslots (uuid 5) _ rfl
  refine ⟨hcount.trans hthree, slot', hslot', ?_, ?_⟩
  · rw [hreserved, placesOn_perm hperm]
    decide +kernel
  · have hcounted : countOn (uuid 5) batch = countOn (uuid 5) due := hperm.countP_eq _
    rw [hbumped, hcounted]
    decide +kernel

/-! ### A run of the worker as a run of the system -/

/-- What a run draws is new to the database, and no identifier is drawn twice. -/
structure ExpiryEnv.Fresh (env : ExpiryEnv) (i : ℕ) (db : Database) : Prop where
  fresh : ∀ j, i ≤ j → (env.draws j).Fresh db
  distinct : Function.Injective fun j => (env.draws j).auditLogId

theorem ExpiryEnv.Fresh.next {env : ExpiryEnv} {i : ℕ} {db : Database} (h : env.Fresh i db) :
    env.Fresh (i + 1) db :=
  ⟨fun j hj => h.fresh j (Nat.le_of_succ_le hj), h.distinct⟩

/-- An expiry uses up one draw. -/
theorem ExpiryEnv.Fresh.expired {env : ExpiryEnv} {i : ℕ} {db db' : Database} {item : StaleBooking}
    {now : Instant} (h : env.Fresh i db)
    (hrun : (expireReservation item (env.draws i) now).run db = .ok (true, db')) :
    env.Fresh (i + 1) db' := by
  obtain ⟨b, slot, slot', hb, -, -, -, -, -, rfl⟩ := expireReservation_claimed.mp hrun
  refine ⟨fun j hj => ?_, h.distinct⟩
  obtain ⟨hbooking, haudit⟩ := h.fresh j (Nat.le_of_succ_le hj)
  constructor
  · have hput := get?_put_booking b.expire (get?_own hb) rfl (env.draws j).bookingId
    refine hput.trans ?_
    rw [if_neg, hbooking]
    intro heq
    rw [heq, get?_own hb] at hbooking
    cases hbooking
  · intro log hlog
    rcases List.mem_append.mp hlog with hlog | hlog
    · exact haudit log hlog
    · obtain rfl := List.mem_singleton.mp hlog
      intro heq
      have hij : i = j := h.distinct heq
      omega

/-- The loop, step by step. -/
theorem run_of_expireLoop {ttl : ℕ} {w : ℕ} {env : ExpiryEnv} (hclock : env.NonDecreasing)
    {batch : List StaleBooking} {s : State} {i n : ℕ} (hw : s.workers w = .running batch n)
    (hnow : s.now ≤ env.clock i) (hfresh : env.Fresh i s.db) :
    ∃ tr t, Run (Step ttl) s tr t ∧ t.db = (expireLoop env i batch s.db).2 ∧
      t.workers w = .running [] (n + (expireLoop env i batch s.db).1) ∧ t.calls = s.calls ∧
      ∀ v, v ≠ w → t.workers v = s.workers v := by
  induction batch generalizing s i n with
  | nil => exact ⟨[], s, .nil s, rfl, hw, rfl, fun _ _ => rfl⟩
  | cons item batch ih =>
    -- the clock moves on to the reading of this turn
    obtain ⟨d, hd⟩ := Int.eq_ofNat_of_zero_le (sub_nonneg.mpr hnow)
    let s₁ : State := { s with now := s.now + d }
    have htick : Step ttl s .tick s₁ := Step.tick s d
    have hnow₁ : s₁.now = env.clock i := by
      show s.now + (d : ℤ) = env.clock i
      rw [← hd, add_sub_cancel]
    have hnext : env.clock i ≤ env.clock (i + 1) := hclock.2 (Nat.le_succ i)
    have hg := hfresh.fresh i (le_refl i)
    -- one turn, and what is left of the batch
    have hturn : ∀ {e : Event} {t : State} {m : ℕ}, Step ttl s₁ e t →
        t.workers = Function.update s.workers w (.running batch (n + m)) → t.calls = s.calls →
        t.now = s₁.now → env.Fresh (i + 1) t.db →
        tryExpire item (env.draws i) (env.clock i) s.db = (m, t.db) →
        ∃ tr u, Run (Step ttl) s tr u ∧ u.db = (expireLoop env i (item :: batch) s.db).2 ∧
          u.workers w = .running [] (n + (expireLoop env i (item :: batch) s.db).1) ∧
          u.calls = s.calls ∧ ∀ v, v ≠ w → u.workers v = s.workers v := by
      intro e t m hstep hworkers hcalls htime hnew htry
      have hw' : t.workers w = .running batch (n + m) := by rw [hworkers, Function.update_self]
      obtain ⟨tr, u, hrun, hdb, hwu, hcu, hothers⟩ :=
        ih hw' (by rw [htime, hnow₁]; exact hnext) hnew
      refine ⟨_, u, (((Run.nil s).snoc htick).snoc hstep).append hrun, ?_, ?_, hcu.trans hcalls, ?_⟩
      · simp only [expireLoop, htry, hdb]
      · simp only [expireLoop, htry, hwu, Nat.add_assoc]
      · intro v hv
        rw [hothers v hv, hworkers, Function.update_of_ne hv]
    cases hrun : (expireReservation item (env.draws i) (env.clock i)).run s.db with
    | error e =>
      refine hturn (m := 0) (.fail hw hg (by rw [hnow₁]; exact hrun)) rfl rfl rfl hfresh.next ?_
      rw [tryExpire, hrun]
    | ok result =>
      obtain ⟨claimed, db'⟩ := result
      cases claimed with
      | true =>
        refine hturn (m := 1) (.expire hw hg (by rw [hnow₁]; exact hrun)) rfl rfl rfl
          (hfresh.expired hrun) ?_
        rw [tryExpire, hrun]
      | false =>
        obtain rfl := expireReservation_skipped hrun
        refine hturn (m := 0) (.skip hw hg (by rw [hnow₁]; exact hrun)) rfl rfl rfl hfresh.next ?_
        rw [tryExpire, hrun]

/-- **A run of the worker is a run of the booking system**: whatever the
environment gives it, the steps of one worker that nothing interrupts leave the
database and return the number that `expireStaleReservations` computes. -/
theorem run_of_expireStaleReservations {ttl : ℕ} {s : State} {w : ℕ} {env : ExpiryEnv}
    (hclock : env.NonDecreasing) (hfresh : env.Fresh 0 s.db) (hnow : s.now = env.listedAt)
    (hw : s.workers w = .notStarted) :
    ∃ tr t, Run (Step ttl) s tr t ∧ t.db = (expireStaleReservations env s.db).2 ∧
      t.workers w = .finished (expireStaleReservations env s.db).1 ∧ t.calls = s.calls ∧
      ∀ v, v ≠ w → t.workers v = s.workers v := by
  let batch := findStaleBookings env.order s.db s.now
  let s₁ : State := { s with workers := Function.update s.workers w (.running batch 0) }
  have hlist : Step ttl s (.listed w batch) s₁ := Step.list hw
  have hw₁ : s₁.workers w = .running batch 0 := Function.update_self w _ s.workers
  have hloop : expireStaleReservations env s.db = expireLoop env 0 batch s.db := by
    rw [expireStaleReservations, ← hnow]
  obtain ⟨tr, t, hrun, hdb, hwt, hcalls, hothers⟩ :=
    @run_of_expireLoop ttl w env hclock batch s₁ 0 0 hw₁ (hnow.trans_le hclock.1) hfresh
  refine ⟨_, _, (((Run.nil s).snoc hlist).append hrun).snoc (Step.return_ hwt), ?_, ?_, hcalls, ?_⟩
  · rw [hloop]
    exact hdb
  · rw [hloop]
    show Function.update t.workers w _ w = _
    rw [Function.update_self, Nat.zero_add]
  · intro v hv
    show Function.update t.workers w _ v = _
    rw [Function.update_of_ne hv, hothers v hv]
    exact Function.update_of_ne hv _ _

end BookingPlatform
