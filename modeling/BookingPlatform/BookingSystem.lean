import BookingPlatform.BookingSpec
import BookingPlatform.Lib.Runs

/-!
# The booking system

Any number of calls and expiry runs share one database.  A call is a lookup and,
at any later time, its transaction; an expiry run lists a batch and expires it
booking by booking, each in a transaction of its own.  Steps of different calls
and runs interleave in any order, and the clock never goes back.

A waiting call acts on a row it read earlier.  What it can still rely on is said
by `Evolves`, the relation between a database and a later one: rows keep their
identity, slot versions never decrease, and while a slot keeps its version the
slot row is unchanged and its active bookings stay active.

## Main definitions

* `State`, `Step` — the calls, the workers and their steps.
* `Event` — what a step does.
* `Change` — what a step does to the database.
* `Evolves` — a database and a later one.
* `Coherent` — every waiting call was looked up on an earlier database.

## Main results

* `change_of_step` — everything a step can do to the database.
* `evolves_of_change` — every step evolves the database.
* `coherent_run` — in every reachable state every waiting call was looked up on
  a database the current one evolved from.
-/

namespace BookingPlatform

open Runs

/-! ### Calls, runs and steps -/

/-- A request that writes. -/
inductive Request
  | create (tenantId userId : Uuid) (body : CreateBookingBody)
  | confirm (tenantId userId : Uuid) (reference : String)
  | cancel (tenantId userId : Uuid) (reference reason : String)

/-- A call between its lookup and its transaction. -/
inductive Call
  | create (call : CreateCall)
  | confirm (call : ConfirmCall)
  | cancel (call : CancelCall)

/-- The lookup of a request. -/
def Request.lookup (ttl : ℕ) (order : RowOrder) (db : Database) (now : Instant) :
    Request → Except Failure Call
  | .create tenantId userId body =>
    Call.create <$> createReservationLookup ttl order tenantId userId body db now
  | .confirm tenantId userId reference =>
    Call.confirm <$> confirmReservationLookup order tenantId userId reference db now
  | .cancel tenantId userId reference reason =>
    Call.cancel <$> cancelReservationLookup tenantId userId reference reason db

/-- The transaction of a call. -/
def Call.transaction (g : Generated) (now : Instant) : Call → Tx Booking
  | .create call => createReservationTransaction call g now
  | .confirm call => confirmReservationTransaction call g now
  | .cancel call => cancelReservationTransaction call g now

/-- How far a call has come. -/
inductive CallState
  | notStarted
  | waiting (call : Call)
  | finished

/-- A run of `expireStaleReservations`: what is left of its batch, and its
counter. -/
inductive WorkerState
  | notStarted
  | running (batch : List StaleBooking) (expired : ℕ)
  | finished (expired : ℕ)

/-- The database, the clock, and every call and every expiry run by its number. -/
structure State where
  db : Database
  now : Instant
  calls : ℕ → CallState
  workers : ℕ → WorkerState

/-- No call or expiry run has started. -/
def State.Idle (s : State) : Prop :=
  (∀ c, s.calls c = .notStarted) ∧ ∀ w, s.workers w = .notStarted

/-- The system on a database before anything has started. -/
def State.start (db : Database) (now : Instant) : State :=
  ⟨db, now, fun _ => .notStarted, fun _ => .notStarted⟩

theorem State.idle_start (db : Database) (now : Instant) : (State.start db now).Idle :=
  ⟨fun _ => rfl, fun _ => rfl⟩

/-- What a step was. -/
inductive Event
  | tick
  | lookedUp (c : ℕ) (call : Call)
  | refused (c : ℕ) (e : Failure)
  | committed (c : ℕ) (call : Call) (g : Generated)
  | rolledBack (c : ℕ) (call : Call) (g : Generated) (e : Failure)
  | listed (w : ℕ) (batch : List StaleBooking)
  | expired (w : ℕ) (item : StaleBooking)
  | skipped (w : ℕ) (item : StaleBooking)
  | failed (w : ℕ) (item : StaleBooking) (e : Failure)
  | returned (w : ℕ) (expired : ℕ)

/-- Identifiers drawn by a transaction are not in use. -/
def Generated.Fresh (g : Generated) (db : Database) : Prop :=
  db.bookings.get? g.bookingId = none ∧ ∀ a ∈ db.auditLogs, a.id ≠ g.auditLogId

/-- Whether what a transaction draws is new can be decided. -/
instance (g : Generated) (db : Database) : Decidable (g.Fresh db) :=
  inferInstanceAs (Decidable (_ ∧ _))

/-- One step of the system. -/
inductive Step (ttl : ℕ) : State → Event → State → Prop
  | tick (s : State) (d : ℕ) : Step ttl s .tick { s with now := s.now + d }
  | lookup {s : State} {c : ℕ} {req : Request} {order : RowOrder} {call : Call} :
      s.calls c = .notStarted → req.lookup ttl order s.db s.now = .ok call →
      Step ttl s (.lookedUp c call) { s with calls := Function.update s.calls c (.waiting call) }
  | refuse {s : State} {c : ℕ} {req : Request} {order : RowOrder} {e : Failure} :
      s.calls c = .notStarted → req.lookup ttl order s.db s.now = .error e →
      Step ttl s (.refused c e) { s with calls := Function.update s.calls c .finished }
  | commit {s : State} {c : ℕ} {call : Call} {g : Generated} {b : Booking} {db' : Database} :
      s.calls c = .waiting call → g.Fresh s.db →
      (call.transaction g s.now).run s.db = .ok (b, db') →
      Step ttl s (.committed c call g)
        { s with db := db', calls := Function.update s.calls c .finished }
  | rollback {s : State} {c : ℕ} {call : Call} {g : Generated} {e : Failure} :
      s.calls c = .waiting call → g.Fresh s.db →
      (call.transaction g s.now).run s.db = .error e →
      Step ttl s (.rolledBack c call g e)
        { s with calls := Function.update s.calls c .finished }
  | list {s : State} {w : ℕ} {order : RowOrder} :
      s.workers w = .notStarted →
      Step ttl s (.listed w (findStaleBookings order s.db s.now))
        { s with workers :=
            Function.update s.workers w (.running (findStaleBookings order s.db s.now) 0) }
  | expire {s : State} {w n : ℕ} {item : StaleBooking} {rest : List StaleBooking} {g : Generated}
      {db' : Database} :
      s.workers w = .running (item :: rest) n → g.Fresh s.db →
      (expireReservation item g s.now).run s.db = .ok (true, db') →
      Step ttl s (.expired w item)
        { s with db := db', workers := Function.update s.workers w (.running rest (n + 1)) }
  | skip {s : State} {w n : ℕ} {item : StaleBooking} {rest : List StaleBooking} {g : Generated}
      {db' : Database} :
      s.workers w = .running (item :: rest) n → g.Fresh s.db →
      (expireReservation item g s.now).run s.db = .ok (false, db') →
      Step ttl s (.skipped w item)
        { s with db := db', workers := Function.update s.workers w (.running rest n) }
  | fail {s : State} {w n : ℕ} {item : StaleBooking} {rest : List StaleBooking} {g : Generated}
      {e : Failure} :
      s.workers w = .running (item :: rest) n → g.Fresh s.db →
      (expireReservation item g s.now).run s.db = .error e →
      Step ttl s (.failed w item e)
        { s with workers := Function.update s.workers w (.running rest n) }
  | return_ {s : State} {w n : ℕ} :
      s.workers w = .running [] n →
      Step ttl s (.returned w n) { s with workers := Function.update s.workers w (.finished n) }

/-! ### How a database evolves -/

/-- The columns of a booking that no operation changes. -/
def Booking.SameColumns (b b' : Booking) : Prop :=
  b' = { b with status := b'.status, reservedUntil := b'.reservedUntil }

/-- The columns of a slot that no operation changes. -/
def AvailabilitySlot.SameColumns (s s' : AvailabilitySlot) : Prop :=
  s' = { s with reserved := s'.reserved, version := s'.version }

/-- **What a later database keeps of an earlier one.** -/
structure Evolves (db db' : Database) : Prop where
  booking : ∀ id b, db.bookings.get? id = some b →
    ∃ b', db'.bookings.get? id = some b' ∧ b.SameColumns b'
  slot : ∀ id s, db.availabilitySlots.get? id = some s →
    ∃ s', db'.availabilitySlots.get? id = some s' ∧ s.SameColumns s' ∧
      (s.version : ℤ) ≤ s'.version ∧ (s'.version = s.version → s' = s)
  active : ∀ s s' b b', db.availabilitySlots.get? b.slotId = some s →
    db'.availabilitySlots.get? b.slotId = some s' → s'.version = s.version →
    db.bookings.get? b.id = some b → db'.bookings.get? b.id = some b' →
    b.status.isActive = true → b'.status.isActive = true

theorem Booking.SameColumns.refl (b : Booking) : b.SameColumns b := rfl

theorem Booking.SameColumns.trans {b b' b'' : Booking} (h : b.SameColumns b')
    (h' : b'.SameColumns b'') : b.SameColumns b'' := by
  unfold SameColumns at *
  rw [h', h]

theorem Booking.SameColumns.id_eq {b b' : Booking} (h : b.SameColumns b') : b'.id = b.id := by
  rw [h]

theorem Booking.SameColumns.slotId_eq {b b' : Booking} (h : b.SameColumns b') :
    b'.slotId = b.slotId := by rw [h]

theorem Booking.SameColumns.partySize_eq {b b' : Booking} (h : b.SameColumns b') :
    b'.partySize = b.partySize := by rw [h]

theorem Booking.SameColumns.stale_eq {b b' : Booking} (h : b.SameColumns b') :
    b'.stale = b.stale := by rw [h]; rfl

theorem AvailabilitySlot.SameColumns.refl (s : AvailabilitySlot) : s.SameColumns s := rfl

theorem AvailabilitySlot.SameColumns.trans {s s' s'' : AvailabilitySlot} (h : s.SameColumns s')
    (h' : s'.SameColumns s'') : s.SameColumns s'' := by
  unfold SameColumns at *
  rw [h', h]

theorem Evolves.refl (db : Database) : Evolves db db where
  booking := fun _ b hb => ⟨b, hb, .refl b⟩
  slot := fun _ s hs => ⟨s, hs, .refl s, le_refl _, fun _ => rfl⟩
  active := fun _ _ b b' _ _ _ hb hb' hact => by
    obtain rfl : b = b' := Option.some.inj (hb.symm.trans hb')
    exact hact

theorem Evolves.trans {db db' db'' : Database} (h : Evolves db db') (h' : Evolves db' db'') :
    Evolves db db'' where
  booking := fun id b hb => by
    obtain ⟨b', hb', hsame⟩ := h.booking id b hb
    obtain ⟨b'', hb'', hsame'⟩ := h'.booking id b' hb'
    exact ⟨b'', hb'', hsame.trans hsame'⟩
  slot := fun id s hs => by
    obtain ⟨s', hs', hsame, hle, heq⟩ := h.slot id s hs
    obtain ⟨s'', hs'', hsame', hle', heq'⟩ := h'.slot id s' hs'
    refine ⟨s'', hs'', hsame.trans hsame', hle.trans hle', fun hv => ?_⟩
    -- a version that is back where it was never left
    have hmid : s'.version = s.version := by
      rw [Int4.ext_iff] at hv ⊢
      omega
    rw [heq' (hv.trans hmid.symm), heq hmid]
  active := fun s s'' b b'' hs hs'' hv hb hb'' hact => by
    obtain ⟨s', hs', -, hle, -⟩ := h.slot _ s hs
    obtain ⟨s₁, hs₁, -, hle', -⟩ := h'.slot _ s' hs'
    obtain rfl : s'' = s₁ := Option.some.inj (hs''.symm.trans hs₁)
    obtain ⟨b', hb', hsame⟩ := h.booking _ b hb
    have hmid : s'.version = s.version := by
      rw [Int4.ext_iff] at hv ⊢
      omega
    have hact' := h.active s s' b b' hs hs' hmid hb hb' hact
    refine h'.active s' s'' b' b'' ?_ ?_ (hv.trans hmid.symm) ?_ ?_ hact'
    · rwa [hsame.slotId_eq]
    · rwa [hsame.slotId_eq]
    · rwa [hsame.id_eq]
    · rwa [hsame.id_eq]

/-! ### What a step does to the database -/

/-- The step commits a transaction that writes. -/
def Event.commits : Event → Bool
  | .committed .. => true
  | .expired .. => true
  | _ => false

/-- **Everything a step can do to the database**, with what the current rows are
known to be when it does. -/
inductive Change : Event → Instant → Database → Database → Prop
  | quiet {e : Event} {now : Instant} {db : Database} : e.commits = false → Change e now db db
  | create {c : ℕ} {call : CreateCall} {g : Generated} {now : Instant} {db : Database}
      {slot' : AvailabilitySlot} {partySize : Int4}
      (h : db.bookings.get? (Keyed.key (call.booking partySize g now)) = none) :
      db.availabilitySlots.get? call.slot.id = some call.slot →
      HasRoom call.body.partySize call.slot →
      SlotAdjusted call.body.partySize call.slot slot' →
      (partySize : ℤ) = call.body.partySize →
      Change (.committed c (.create call) g) now db { db with
        availabilitySlots := db.availabilitySlots.put slot'
        bookings := db.bookings.insert (call.booking partySize g now) h
        bookingStatusHistory := db.bookingStatusHistory ++
          [⟨g.bookingId, none, .reserved, some call.userId, none, now⟩]
        auditLogs := db.auditLogs ++
          [(call.audit (call.booking partySize g now)).row g.auditLogId now] }
  | confirm {c : ℕ} {call : ConfirmCall} {g : Generated} {now : Instant} {db : Database}
      {b : Booking} :
      db.bookings.get? call.booking.id = some b → call.booking.SameColumns b →
      call.booking.status = .reserved →
      Change (.committed c (.confirm call) g) now db { db with
        bookings := db.bookings.put b.confirm
        bookingStatusHistory := db.bookingStatusHistory ++ [⟨call.booking.id,
          some call.booking.status, .confirmed, some call.userId, none, now⟩]
        auditLogs := db.auditLogs ++ [call.audit.row g.auditLogId now] }
  | cancel {c : ℕ} {call : CancelCall} {g : Generated} {now : Instant} {db : Database}
      {b : Booking} {slot slot' : AvailabilitySlot} :
      db.bookings.get? call.booking.id = some b → call.booking.SameColumns b →
      b.status.isActive = true → db.availabilitySlots.get? b.slotId = some slot →
      slot.version = call.slotVersion → HasRoom (-b.partySize) slot →
      SlotAdjusted (-b.partySize) slot slot' →
      Change (.committed c (.cancel call) g) now db { db with
        availabilitySlots := db.availabilitySlots.put slot'
        bookings := db.bookings.put b.cancel
        bookingStatusHistory := db.bookingStatusHistory ++ [⟨call.booking.id,
          some call.booking.status, .cancelled, some call.userId, some call.reason, now⟩]
        auditLogs := db.auditLogs ++ [call.audit.row g.auditLogId now] }
  | expire {w : ℕ} {g : Generated} {now : Instant} {db : Database} {b : Booking}
      {slot slot' : AvailabilitySlot} :
      db.bookings.get? b.id = some b → overdue now b = true →
      db.availabilitySlots.get? b.slotId = some slot → HasRoom (-b.partySize) slot →
      SlotAdjusted (-b.partySize) slot slot' →
      Change (.expired w b.stale) now db { db with
        availabilitySlots := db.availabilitySlots.put slot'
        bookings := db.bookings.put b.expire
        bookingStatusHistory := db.bookingStatusHistory ++ [⟨b.id, some .reserved, .expired, none,
          some "Reservation hold expired", now⟩]
        auditLogs := db.auditLogs ++ [b.stale.audit.row g.auditLogId now] }

theorem holdExpired_iff {b : Booking} {now : Instant} :
    holdExpired b now = true ↔ ∃ deadline, b.reservedUntil = some deadline ∧ deadline < now := by
  unfold holdExpired
  cases b.reservedUntil <;> simp

theorem overdue_iff {now : Instant} {b : Booking} : overdue now b = true ↔
    b.status = .reserved ∧ ∃ deadline, b.reservedUntil = some deadline ∧ deadline < now := by
  simp only [overdue, decide_eq_true_eq]
  rw [holdExpired_iff]

theorem overdue_status {now : Instant} {b : Booking} (h : overdue now b = true) :
    b.status = .reserved := (overdue_iff.mp h).1

/-- An overdue booking stays overdue as the clock goes on. -/
theorem overdue_mono {now now' : Instant} (hle : now ≤ now') {b : Booking}
    (h : overdue now b = true) : overdue now' b = true := by
  obtain ⟨hst, deadline, hdeadline, hlt⟩ := overdue_iff.mp h
  exact overdue_iff.mpr ⟨hst, deadline, hdeadline, lt_of_lt_of_le hlt hle⟩

/-- Reading the slot table after an adjustment. -/
theorem SlotAdjusted.get?_put {delta : ℤ} {slot slot' : AvailabilitySlot}
    {t : Table AvailabilitySlot} {slotId : Uuid} (hadj : SlotAdjusted delta slot slot')
    (hs : t.get? slotId = some slot) (k : Uuid) :
    (t.put slot').get? k = if k = slotId then some slot' else t.get? k := by
  have hid : slot'.id = slotId := by
    rw [hadj.frame]
    exact (Table.get?_eq_some.mp hs).2
  rw [Table.get?_put (o := slot) (by simpa [hid] using hs)]
  simp [hid]

theorem SlotAdjusted.version_ne {delta : ℤ} {slot slot' : AvailabilitySlot}
    (hadj : SlotAdjusted delta slot slot') : slot'.version ≠ slot.version := by
  rw [Ne, Int4.ext_iff, hadj.version]
  omega

/-- Reading the booking table after a booking changed status. -/
theorem get?_put_booking (b' : Booking) {t : Table Booking} {b : Booking}
    (hb : t.get? b.id = some b) (hid : b'.id = b.id) (k : Uuid) :
    (t.put b').get? k = if k = b.id then some b' else t.get? k := by
  rw [Table.get?_put (o := b) (by simpa [hid] using hb)]
  simp [hid]

/-- A booking found by identifier is found by its own. -/
theorem get?_own {t : Table Booking} {id : Uuid} {b : Booking} (h : t.get? id = some b) :
    t.get? b.id = some b := Table.get?_key (Table.get?_eq_some.mp h).1

/-- The slot half of `Evolves` for an adjusted slot. -/
theorem SlotAdjusted.evolves {delta : ℤ} {slot slot' : AvailabilitySlot}
    {t : Table AvailabilitySlot} {slotId : Uuid} (hadj : SlotAdjusted delta slot slot')
    (hs : t.get? slotId = some slot) {id : Uuid} {s : AvailabilitySlot} (hid : t.get? id = some s) :
    ∃ s', (t.put slot').get? id = some s' ∧ s.SameColumns s' ∧ (s.version : ℤ) ≤ s'.version ∧
      (s'.version = s.version → s' = s) := by
  rw [hadj.get?_put hs]
  split
  · next h =>
    subst h
    obtain rfl : slot = s := Option.some.inj (hs.symm.trans hid)
    refine ⟨slot', rfl, hadj.frame, ?_, fun hv => absurd hv hadj.version_ne⟩
    have := hadj.version
    omega
  · exact ⟨s, hid, .refl s, le_refl _, fun _ => rfl⟩

/-- The booking half of `Evolves` for a booking that changed status. -/
theorem evolves_put_booking (b' : Booking) {t : Table Booking} {b : Booking}
    (hb : t.get? b.id = some b) (hsame : b.SameColumns b') {id : Uuid} {x : Booking}
    (hx : t.get? id = some x) :
    ∃ x', (t.put b').get? id = some x' ∧ x.SameColumns x' := by
  rw [get?_put_booking b' hb hsame.id_eq]
  split
  · next h =>
    subst h
    obtain rfl : b = x := Option.some.inj (hb.symm.trans hx)
    exact ⟨b', rfl, hsame⟩
  · exact ⟨x, hx, .refl x⟩

/-- A booking that leaves the active statuses leaves its slot with a new
version, so the third half of `Evolves` is about other bookings only. -/
theorem SlotAdjusted.active {delta : ℤ} {slot slot' s s' : AvailabilitySlot}
    {slots : Table AvailabilitySlot} {bookings : Table Booking} {b b' x x' : Booking}
    (hadj : SlotAdjusted delta slot slot') (hslot : slots.get? b.slotId = some slot)
    (hb : bookings.get? b.id = some b) (hid : b'.id = b.id) (hs : slots.get? x.slotId = some s)
    (hs' : (slots.put slot').get? x.slotId = some s') (hv : s'.version = s.version)
    (hx : bookings.get? x.id = some x) (hx' : (bookings.put b').get? x.id = some x')
    (hact : x.status.isActive = true) : x'.status.isActive = true := by
  rw [get?_put_booking b' hb hid] at hx'
  rw [hadj.get?_put hslot] at hs'
  split at hx'
  · next h =>
    obtain rfl : b = x := Option.some.inj (hb.symm.trans (h ▸ hx))
    obtain rfl : slot = s := Option.some.inj (hslot.symm.trans hs)
    rw [if_pos rfl] at hs'
    obtain rfl := Option.some.inj hs'
    exact absurd hv hadj.version_ne
  · obtain rfl : x = x' := Option.some.inj (hx.symm.trans hx')
    exact hact

/-- Only a commit changes the database. -/
theorem db_of_quiet {e : Event} {now : Instant} {db db' : Database} (h : Change e now db db')
    (hq : e.commits = false) : db' = db := by
  cases h with
  | quiet => rfl
  | create | confirm | cancel | expire => cases hq

/-- **Every change evolves the database.** -/
theorem evolves_of_change {e : Event} {now : Instant} {db db' : Database}
    (h : Change e now db db') : Evolves db db' := by
  cases h with
  | quiet => exact .refl db
  | @create c call g _ _ slot' partySize hfree hs hroom hadj hp =>
    -- the identifier is new, so every row that was there stays as it is
    have hold : ∀ id b, db.bookings.get? id = some b →
        (db.bookings.insert (call.booking partySize g now) hfree).get? id = some b :=
      fun _ _ => Table.get?_insert_of_some hfree
    exact
      { booking := fun id b hb => ⟨b, hold id b hb, .refl b⟩
        slot := fun id s hid => hadj.evolves hs hid
        active := fun s s' b b' _ _ _ hb hb' hact => by
          obtain rfl : b = b' := Option.some.inj ((hold _ _ hb).symm.trans hb')
          exact hact }
  | @confirm c call g _ _ b hb hsame hst =>
    have hown := get?_own hb
    exact
      { booking := fun id x hx => evolves_put_booking b.confirm hown rfl hx
        slot := fun id s hid => ⟨s, hid, .refl s, le_refl _, fun _ => rfl⟩
        -- a confirmed booking is active again, whatever it was
        active := fun s s' x x' _ _ _ hx hx' hact => by
          simp only [get?_put_booking b.confirm hown rfl] at hx'
          split at hx'
          · obtain rfl := Option.some.inj hx'
            rfl
          · obtain rfl : x = x' := Option.some.inj (hx.symm.trans hx')
            exact hact }
  | @cancel _ _ _ _ _ b slot slot' hb hsame hact hs hv hroom hadj =>
    have hown := get?_own hb
    exact
      { booking := fun id x hx => evolves_put_booking b.cancel hown rfl hx
        slot := fun id s hid => hadj.evolves hs hid
        active := fun s s' x x' => hadj.active hs hown rfl }
  | @expire _ _ _ _ b slot slot' hb hover hs hroom hadj =>
    exact
      { booking := fun id x hx => evolves_put_booking b.expire hb rfl hx
        slot := fun id s hid => hadj.evolves hs hid
        active := fun s s' x x' => hadj.active hs hb rfl }

/-! ### What a waiting call can rely on -/

/-- Every waiting call was looked up on a database the current one evolved from,
and every booking left in a batch is a row of the current one. -/
structure Coherent (ttl : ℕ) (s : State) : Prop where
  waiting : ∀ c call, s.calls c = .waiting call → ∃ (req : Request) (order : RowOrder)
    (db₀ : Database) (now₀ : Instant), req.lookup ttl order db₀ now₀ = .ok call ∧ Evolves db₀ s.db
  running : ∀ w batch n, s.workers w = .running batch n → ∀ item ∈ batch,
    ∃ b, s.db.bookings.get? item.id = some b ∧ item = b.stale

theorem State.Idle.coherent {ttl : ℕ} {s : State} (h : s.Idle) : Coherent ttl s where
  waiting := fun c call hc => by simp [h.1 c] at hc
  running := fun w batch n hw => by simp [h.2 w] at hw

/-- What a waiting creation read. -/
theorem lookup_create {ttl : ℕ} {order : RowOrder} {db : Database} {now : Instant} {req : Request}
    {call : CreateCall} (h : req.lookup ttl order db now = .ok (.create call)) :
    db.availabilitySlots.get? call.slot.id = some call.slot ∧
      call.slot.tenantId = call.tenantId ∧
      call.body.partySize ≤ (call.slot.capacity : ℤ) - call.slot.reserved := by
  cases req with
  | create tenantId userId body =>
    obtain ⟨call', hcall, hinj⟩ := Except.map_eq_ok.mp h
    obtain rfl := Call.create.inj hinj
    obtain ⟨slot, _, _, hs, ht, -, -, -, hcap, rfl⟩ := createReservationLookup_ok.mp hcall
    have hid := (Table.get?_eq_some.mp hs).2
    exact ⟨by rw [← hs]; exact congrArg _ hid, ht, hcap⟩
  | confirm => obtain ⟨_, -, hinj⟩ := Except.map_eq_ok.mp h; cases hinj
  | cancel => obtain ⟨_, -, hinj⟩ := Except.map_eq_ok.mp h; cases hinj

/-- What a waiting confirmation read. -/
theorem lookup_confirm {ttl : ℕ} {order : RowOrder} {db : Database} {now : Instant} {req : Request}
    {call : ConfirmCall} (h : req.lookup ttl order db now = .ok (.confirm call)) :
    db.bookings.get? call.booking.id = some call.booking ∧ call.booking.status = .reserved := by
  cases req with
  | confirm tenantId userId reference =>
    obtain ⟨call', hcall, hinj⟩ := Except.map_eq_ok.mp h
    obtain rfl := Call.confirm.inj hinj
    obtain ⟨-, -, hb, -, hst, -⟩ := confirmReservationLookup_spec hcall
    exact ⟨hb, hst⟩
  | create => obtain ⟨_, -, hinj⟩ := Except.map_eq_ok.mp h; cases hinj
  | cancel => obtain ⟨_, -, hinj⟩ := Except.map_eq_ok.mp h; cases hinj

/-- What a waiting cancellation read. -/
theorem lookup_cancel {ttl : ℕ} {order : RowOrder} {db : Database} {now : Instant} {req : Request}
    {call : CancelCall} (h : req.lookup ttl order db now = .ok (.cancel call)) :
    db.bookings.get? call.booking.id = some call.booking ∧ call.booking.status.isActive = true ∧
      ∃ slot, db.availabilitySlots.get? call.booking.slotId = some slot ∧
        slot.version = call.slotVersion := by
  cases req with
  | cancel tenantId userId reference reason =>
    obtain ⟨call', hcall, hinj⟩ := Except.map_eq_ok.mp h
    obtain rfl := Call.cancel.inj hinj
    obtain ⟨-, -, -, hb, -, hact, hs⟩ := cancelReservationLookup_spec hcall
    exact ⟨hb, hact, hs⟩
  | create => obtain ⟨_, -, hinj⟩ := Except.map_eq_ok.mp h; cases hinj
  | confirm => obtain ⟨_, -, hinj⟩ := Except.map_eq_ok.mp h; cases hinj

/-- **The slot a creation commits on is, row for row, the one it looked up.** -/
theorem slot_unchanged {db₀ db : Database} (hev : Evolves db₀ db) {id : Uuid}
    {slot₀ slot : AvailabilitySlot} (hs₀ : db₀.availabilitySlots.get? id = some slot₀)
    (hs : db.availabilitySlots.get? id = some slot) (hv : slot.version = slot₀.version) :
    slot = slot₀ := by
  obtain ⟨slot₁, hs₁, -, -, heq⟩ := hev.slot _ _ hs₀
  obtain rfl : slot = slot₁ := Option.some.inj (hs.symm.trans hs₁)
  exact heq hv

/-- **Everything a step can do to the database.** -/
theorem change_of_step {ttl : ℕ} {s t : State} {e : Event} (h : Step ttl s e t)
    (hco : Coherent ttl s) : Change e s.now s.db t.db := by
  cases h with
  | tick => exact .quiet rfl
  | lookup => exact .quiet rfl
  | refuse => exact .quiet rfl
  | rollback => exact .quiet rfl
  | list => exact .quiet rfl
  | fail => exact .quiet rfl
  | return_ => exact .quiet rfl
  | skip _ _ hrun =>
    obtain rfl := expireReservation_skipped hrun
    exact .quiet rfl
  | @commit c call g b db' hc hg hrun =>
    obtain ⟨req, order, db₀, now₀, hlook, hev⟩ := hco.waiting c call hc
    cases call with
    | create call =>
      obtain ⟨slot, slot', partySize, hfree, hs, -, hv, hroom, hadj, hp, -, -, -, rfl⟩ :=
        createReservationTransaction_ok.mp hrun
      obtain ⟨hs₀, -, -⟩ := lookup_create hlook
      obtain rfl := slot_unchanged hev hs₀ hs hv
      exact .create hfree hs hroom hadj hp
    | confirm call =>
      obtain ⟨b, hb, -, rfl⟩ := confirmReservationTransaction_ok.mp hrun
      obtain ⟨hb₀, hst⟩ := lookup_confirm hlook
      obtain ⟨b', hb', hsame⟩ := hev.booking _ _ hb₀
      obtain rfl : b = b' := Option.some.inj (hb.symm.trans hb')
      exact .confirm hb hsame hst
    | cancel call =>
      obtain ⟨b, slot, slot', hb, hs, -, hv, hroom, hadj, -, rfl⟩ :=
        cancelReservationTransaction_ok.mp hrun
      obtain ⟨hb₀, hact, slot₀, hs₀, hv₀⟩ := lookup_cancel hlook
      obtain ⟨b', hb', hsame⟩ := hev.booking _ _ hb₀
      obtain rfl : b = b' := Option.some.inj (hb.symm.trans hb')
      -- the version the lookup read is still current, so the booking is still active
      have hactive := hev.active _ _ _ _ hs₀ hs (hv.trans hv₀.symm) hb₀ hb hact
      rw [← hsame.slotId_eq] at hs
      rw [← hsame.partySize_eq] at hroom hadj
      exact .cancel hb hsame hactive hs hv hroom hadj
  | @expire w n item rest g db' hw hg hrun =>
    obtain ⟨b, slot, slot', hb, hover, hs, -, hroom, hadj, rfl⟩ :=
      expireReservation_claimed.mp hrun
    obtain ⟨b', hb', hitem⟩ := hco.running w _ n hw item List.mem_cons_self
    obtain rfl : b = b' := Option.some.inj (hb.symm.trans hb')
    subst hitem
    exact .expire hb hover hs hroom hadj

/-- A batch listed now is a list of current rows. -/
theorem findStaleBookings_current {order : RowOrder} {db : Database} {now : Instant}
    {item : StaleBooking} (h : item ∈ findStaleBookings order db now) :
    ∃ b, db.bookings.get? item.id = some b ∧ item = b.stale := by
  obtain ⟨b, hb, -, hitem⟩ := mem_findStaleBookings h
  exact ⟨b, hb, hitem⟩

/-- Coherence only depends on the calls and runs under way, and survives the
evolution of the database. -/
theorem Coherent.of_evolves {ttl : ℕ} {s t : State} (h : Coherent ttl s) (hev : Evolves s.db t.db)
    (hcalls : ∀ c call, t.calls c = .waiting call → s.calls c = .waiting call ∨
      ∃ (req : Request) (order : RowOrder), req.lookup ttl order s.db s.now = .ok call)
    (hworkers : ∀ w batch n, t.workers w = .running batch n →
      (∃ batch' n', s.workers w = .running batch' n' ∧ batch ⊆ batch') ∨
      ∃ order, batch = findStaleBookings order s.db s.now) : Coherent ttl t where
  waiting := fun c call hc => by
    rcases hcalls c call hc with hc | ⟨req, order, hlook⟩
    · obtain ⟨req, order, db₀, now₀, hlook, hev₀⟩ := h.waiting c call hc
      exact ⟨req, order, db₀, now₀, hlook, hev₀.trans hev⟩
    · exact ⟨req, order, s.db, s.now, hlook, hev⟩
  running := fun w batch n hw item hitem => by
    have hrow : ∃ b, s.db.bookings.get? item.id = some b ∧ item = b.stale := by
      rcases hworkers w batch n hw with ⟨batch', n', hw', hsub⟩ | ⟨order, rfl⟩
      · exact h.running w batch' n' hw' item (hsub hitem)
      · exact findStaleBookings_current hitem
    obtain ⟨b, hb, rfl⟩ := hrow
    obtain ⟨b', hb', hsame⟩ := hev.booking _ _ hb
    exact ⟨b', hb', hsame.stale_eq.symm⟩

/-- Where a waiting call comes from, over one step. -/
theorem waiting_of_step {ttl : ℕ} {s t : State} {e : Event} (h : Step ttl s e t) (c : ℕ)
    (call : Call) (hc : t.calls c = .waiting call) : s.calls c = .waiting call ∨
      (e = .lookedUp c call ∧
        ∃ (req : Request) (order : RowOrder), req.lookup ttl order s.db s.now = .ok call) := by
  cases h with
  | tick | list | expire | skip | fail | return_ => exact Or.inl hc
  | @lookup c' req order call' hfree hlook =>
    rcases update_eq hc with ⟨rfl, hcall⟩ | hc
    · obtain rfl := CallState.waiting.inj hcall
      exact Or.inr ⟨rfl, req, order, hlook⟩
    · exact Or.inl hc
  | refuse | commit | rollback =>
    rcases update_eq hc with ⟨-, hcall⟩ | hc
    · cases hcall
    · exact Or.inl hc

/-- Where a running batch comes from, over one step. -/
theorem running_of_step {ttl : ℕ} {s t : State} {e : Event} (h : Step ttl s e t) (w : ℕ)
    (batch : List StaleBooking) (n : ℕ) (hw : t.workers w = .running batch n) :
    (∃ batch' n', s.workers w = .running batch' n' ∧ batch ⊆ batch') ∨
      ∃ order, batch = findStaleBookings order s.db s.now := by
  cases h with
  | tick | lookup | refuse | commit | rollback =>
    exact Or.inl ⟨batch, n, hw, fun _ h => h⟩
  | @list w' order =>
    rcases update_eq hw with ⟨-, hrun⟩ | hw
    · obtain ⟨rfl, -⟩ := WorkerState.running.inj hrun
      exact Or.inr ⟨order, rfl⟩
    · exact Or.inl ⟨batch, n, hw, fun _ h => h⟩
  | @expire w' n' item rest _ _ hw' | @skip w' n' item rest _ _ hw'
  | @fail w' n' item rest _ _ hw' =>
    rcases update_eq hw with ⟨rfl, hrun⟩ | hw
    · obtain ⟨rfl, -⟩ := WorkerState.running.inj hrun
      exact Or.inl ⟨_, n', hw', List.subset_cons_self item rest⟩
    · exact Or.inl ⟨batch, n, hw, fun _ h => h⟩
  | return_ =>
    rcases update_eq hw with ⟨-, hrun⟩ | hw
    · cases hrun
    · exact Or.inl ⟨batch, n, hw, fun _ h => h⟩

theorem coherent_step {ttl : ℕ} {s t : State} {e : Event} (h : Step ttl s e t)
    (hco : Coherent ttl s) : Coherent ttl t :=
  hco.of_evolves (evolves_of_change (change_of_step h hco))
    (fun c call hc => (waiting_of_step h c call hc).imp_right And.right) (running_of_step h)

/-- **Coherence holds along every run.** -/
theorem coherent_run {ttl : ℕ} {s t : State} {tr : List (Transition State Event)}
    (h : Run (Step ttl) s tr t) (hs : Coherent ttl s) : Coherent ttl t :=
  h.invariant (fun _ _ _ => coherent_step) hs

/-- What any step of a run did. -/
theorem change_of_mem {ttl : ℕ} {s t : State} {tr : List (Transition State Event)}
    (h : Run (Step ttl) s tr t) (hs : Coherent ttl s) {x : Transition State Event} (hx : x ∈ tr) :
    Change x.event x.pre.now x.pre.db x.post.db := by
  have hpre := (h.invariant_mem (I := Coherent ttl) (fun _ _ _ => coherent_step) hs hx).1
  exact change_of_step (h.step_of_mem hx) hpre

/-- A run evolves the database. -/
theorem evolves_run {ttl : ℕ} {s t : State} {tr : List (Transition State Event)}
    (h : Run (Step ttl) s tr t) (hs : Coherent ttl s) : Evolves s.db t.db :=
  h.related (I := Coherent ttl) (Q := fun s t : State => Evolves s.db t.db)
    (fun s => .refl s.db) (fun _ _ _ => Evolves.trans) (fun _ _ _ => coherent_step)
    (fun _ _ _ hstep hco => evolves_of_change (change_of_step hstep hco)) hs

/-! ### Rows over one step -/

/-- The slot whose row a step adjusts. -/
def Event.slotId? : Event → Option Uuid
  | .committed _ (.create call) _ => some call.slot.id
  | .committed _ (.cancel call) _ => some call.booking.slotId
  | .expired _ item => some item.slotId
  | _ => none

/-- The places a step takes from that slot; negative when it gives them back. -/
def Event.delta : Event → ℤ
  | .committed _ (.create call) _ => call.body.partySize
  | .committed _ (.cancel call) _ => -call.booking.partySize
  | .expired _ item => -item.partySize
  | _ => 0

/-- What a step makes of the row of a booking. -/
def Event.rewrite (e : Event) (b : Booking) : Booking :=
  match e with
  | .committed _ (.confirm call) _ => if call.booking.id = b.id then b.confirm else b
  | .committed _ (.cancel call) _ => if call.booking.id = b.id then b.cancel else b
  | .expired _ item => if item.id = b.id then b.expire else b
  | _ => b

theorem Event.slotId?_of_quiet {e : Event} (h : e.commits = false) : e.slotId? = none := by
  cases e <;> first | rfl | simp [commits] at h

theorem Event.rewrite_of_quiet {e : Event} (h : e.commits = false) (b : Booking) :
    e.rewrite b = b := by
  cases e <;> first | rfl | simp [commits] at h

/-- **A slot row over one step.** -/
theorem slot_of_change {e : Event} {now : Instant} {db db' : Database} (h : Change e now db db')
    {id : Uuid} {slot : AvailabilitySlot} (hs : db.availabilitySlots.get? id = some slot) :
    ∃ slot', db'.availabilitySlots.get? id = some slot' ∧
      if e.slotId? = some id then HasRoom e.delta slot ∧ SlotAdjusted e.delta slot slot'
      else slot' = slot := by
  have hput : ∀ {delta : ℤ} {slotId : Uuid} {s s' : AvailabilitySlot},
      SlotAdjusted delta s s' → HasRoom delta s →
      db.availabilitySlots.get? slotId = some s →
      ∃ slot', (db.availabilitySlots.put s').get? id = some slot' ∧
        if some slotId = some id then HasRoom delta slot ∧ SlotAdjusted delta slot slot'
        else slot' = slot := by
    intro delta slotId s s' hadj hroom hget
    rw [hadj.get?_put hget]
    by_cases hid : id = slotId
    · subst hid
      obtain rfl : s = slot := Option.some.inj (hget.symm.trans hs)
      exact ⟨s', if_pos rfl, by rw [if_pos rfl]; exact ⟨hroom, hadj⟩⟩
    · have hne : some slotId ≠ some id := fun heq => hid (Option.some.inj heq).symm
      exact ⟨slot, by rw [if_neg hid, hs], by rw [if_neg hne]⟩
  cases h with
  | quiet hq => exact ⟨slot, hs, by simp [Event.slotId?_of_quiet hq]⟩
  | create hfree hget hroom hadj hp => exact hput hadj hroom hget
  | confirm => exact ⟨slot, hs, by simp [Event.slotId?]⟩
  | cancel hb hsame hact hget hv hroom hadj =>
    rw [hsame.slotId_eq] at hget
    rw [hsame.partySize_eq] at hroom hadj
    exact hput hadj hroom hget
  | expire hb hover hget hroom hadj => exact hput hadj hroom hget

/-- No step adds or removes a slot. -/
theorem no_slot_of_change {e : Event} {now : Instant} {db db' : Database}
    (h : Change e now db db') {id : Uuid} (hs : db.availabilitySlots.get? id = none) :
    db'.availabilitySlots.get? id = none := by
  have hput : ∀ {delta : ℤ} {slotId : Uuid} {s s' : AvailabilitySlot},
      SlotAdjusted delta s s' → db.availabilitySlots.get? slotId = some s →
      (db.availabilitySlots.put s').get? id = none := by
    intro delta slotId s s' hadj hget
    rw [hadj.get?_put hget, if_neg, hs]
    rintro rfl
    rw [hs] at hget
    cases hget
  cases h with
  | quiet => exact hs
  | create hfree hget hroom hadj hp => exact hput hadj hget
  | confirm => exact hs
  | cancel hb hsame hact hget hv hroom hadj => exact hput hadj hget
  | expire hb hover hget hroom hadj => exact hput hadj hget

/-- **A booking row over one step.** -/
theorem booking_of_change {e : Event} {now : Instant} {db db' : Database}
    (h : Change e now db db') {id : Uuid} {b : Booking} (hb : db.bookings.get? id = some b) :
    db'.bookings.get? id = some (e.rewrite b) := by
  have hput : ∀ (set : Booking → Booking) {x : Booking} {id' : Uuid}, (∀ y, (set y).id = y.id) →
      db.bookings.get? id' = some x →
      (db.bookings.put (set x)).get? id = some (if id' = b.id then set b else b) := by
    intro set x id' hset hx
    obtain ⟨-, rfl⟩ := Table.get?_eq_some.mp hx
    obtain ⟨-, rfl⟩ := Table.get?_eq_some.mp hb
    rw [get?_put_booking (set x) hx (hset x)]
    split
    · next heq =>
      obtain rfl : b = x := Option.some.inj (hb.symm.trans (heq ▸ hx))
      rw [if_pos (key_booking b)]
    · next hne =>
      rw [if_neg (fun heq => hne heq.symm)]
      exact hb
  cases h with
  | quiet hq => rw [hb, Event.rewrite_of_quiet hq]
  | create hfree =>
    exact Table.get?_insert_of_some hfree hb
  | confirm hx => exact hput Booking.confirm (fun _ => rfl) hx
  | cancel hx => exact hput Booking.cancel (fun _ => rfl) hx
  | expire hx => exact hput Booking.expire (fun _ => rfl) hx

/-- A step that inserts a booking with the identifier `id`. -/
def Creates (e : Event) (now : Instant) (db : Database) (id : Uuid) (b : Booking) : Prop :=
  ∃ c call g partySize, e = .committed c (.create call) g ∧ g.bookingId = id ∧
    b = call.booking partySize g now ∧ (partySize : ℤ) = call.body.partySize ∧
    db.availabilitySlots.get? call.slot.id = some call.slot

/-- **Where a booking row comes from, over one step.** -/
theorem new_booking_of_change {e : Event} {now : Instant} {db db' : Database}
    (h : Change e now db db') {id : Uuid} {b' : Booking} (hb' : db'.bookings.get? id = some b') :
    (∃ b, db.bookings.get? id = some b ∧ b' = e.rewrite b) ∨
      (db.bookings.get? id = none ∧ Creates e now db id b') := by
  cases hb : db.bookings.get? id with
  | some b =>
    rw [booking_of_change h hb] at hb'
    exact Or.inl ⟨b, rfl, (Option.some.inj hb').symm⟩
  | none =>
    refine Or.inr ⟨rfl, ?_⟩
    have hput : ∀ (x' : Booking) {x : Booking} {id' : Uuid}, db.bookings.get? id' = some x →
        x'.id = x.id → (db.bookings.put x').get? id = some b' → False := by
      intro x' x id' hx hx' hget
      rw [get?_put_booking x' (get?_own hx) hx', hb] at hget
      split at hget
      · next heq =>
        rw [heq, get?_own hx] at hb
        cases hb
      · cases hget
    cases h with
    | quiet => exact absurd hb' (by simp [hb])
    | @create c call g _ _ slot' partySize hfree hs _ _ hp =>
      have hget := (Table.get?_insert hfree id).symm.trans hb'
      split at hget
      · next heq =>
        exact ⟨c, call, g, partySize, rfl, heq.symm, (Option.some.inj hget).symm, hp, hs⟩
      · exact absurd hget (by simp [hb])
    | @confirm c call g _ _ x hx => exact (hput x.confirm hx rfl hb').elim
    | @cancel c call g _ _ x slot slot' hx => exact (hput x.cancel hx rfl hb').elim
    | @expire w g _ _ x slot slot' hx => exact (hput x.expire hx rfl hb').elim

theorem Event.rewrite_sameColumns (e : Event) (b : Booking) : b.SameColumns (e.rewrite b) := by
  unfold rewrite
  split <;> (try split) <;> exact rfl

/-! ### A confirmation that comes too late

A booking is made, a confirmation looks it up, the booking is cancelled, and
only then does the confirmation write. -/

namespace LateConfirm

open Transaction

/-- A small number of places, as the columns hold it. -/
def places (n : UInt8) : Int4 :=
  ⟨n.toNat, by omega, by have hn := n.toNat_lt; omega⟩

/-- What the `n`th transaction draws. -/
def drawn (n : ℕ) : Generated := ⟨uuid (10 + n), "BK-0000002A", uuid (20 + n)⟩

/-- Ten places, a day from now. -/
def slot : AvailabilitySlot where
  id := uuid 5
  tenantId := uuid 1
  experienceId := uuid 4
  startsAt := 86400000
  endsAt := 90000000
  capacity := .ofNat 10
  reserved := .ofNat 0
  version := .ofNat 0

/-- A walk at 50.00. -/
def experience : Experience where
  id := uuid 4
  tenantId := uuid 1
  supplierId := uuid 3
  title := "City walk"
  destination := "Petra"
  description := none
  basePrice := ⟨5000⟩
  capacity := .ofNat 10
  active := true

/-- Nothing is booked yet. -/
def database : Database where
  suppliers := ⟨[⟨uuid 3, uuid 1, "Guides", none⟩], by decide⟩
  experiences := ⟨[experience], by decide⟩
  availabilitySlots := ⟨[slot], by decide⟩

/-- Two places on the slot. -/
def body : CreateBookingBody := ⟨uuid 5, 2, by decide⟩

/-- What the lookup of the creation finds. -/
def createCall : CreateCall :=
  ⟨uuid 1, uuid 2, body, slot,
    calculatePricingPreview experience.basePrice 2 [] (some slot.startsAt) 0, 900000⟩

/-- The booking that is made. -/
def booking : Booking := createCall.booking (.ofNat 2) (drawn 0) 0

/-- What the lookup of the confirmation finds. -/
def confirmCall : ConfirmCall := ⟨uuid 1, uuid 2, booking⟩

/-- What the lookup of the cancellation finds. -/
def cancelCall : CancelCall := ⟨uuid 1, uuid 2, "changed plans", booking, .ofNat 1⟩

/-- After the creation, after the cancellation, after the confirmation. -/
def reserved : Database := (createReservationTransaction createCall (drawn 0) 0).after database

/-- After the cancellation. -/
def cancelled : Database := (cancelReservationTransaction cancelCall (drawn 1) 0).after reserved

/-- After the confirmation. -/
def confirmed : Database := (confirmReservationTransaction confirmCall (drawn 2) 0).after cancelled

theorem createReservation_ok :
    (createReservationTransaction createCall (drawn 0) 0).run database = .ok (booking, reserved) :=
  run_eq_after (by decide +kernel)

theorem cancelReservation_ok :
    (cancelReservationTransaction cancelCall (drawn 1) 0).run reserved
      = .ok (booking.cancel, cancelled) :=
  run_eq_after (by decide +kernel)

theorem confirmReservation_ok :
    (confirmReservationTransaction confirmCall (drawn 2) 0).run cancelled
      = .ok (booking.cancel.confirm, confirmed) :=
  run_eq_after (by decide +kernel)

theorem confirmLookup_ok :
    confirmReservationLookup {} (uuid 1) (uuid 2) "BK-0000002A" reserved 0 = .ok confirmCall := by
  decide +kernel

theorem cancelLookup_ok :
    cancelReservationLookup (uuid 1) (uuid 2) "BK-0000002A" "changed plans" reserved
      = .ok cancelCall := by
  decide +kernel

/-- The database at rest. -/
def s₀ : State := .start database 0

/-- The creation has looked up. -/
def s₁ : State := { s₀ with calls := Function.update s₀.calls 0 (.waiting (.create createCall)) }

/-- The booking is made. -/
def s₂ : State := { s₁ with db := reserved, calls := Function.update s₁.calls 0 .finished }

/-- The confirmation has looked up. -/
def s₃ : State := { s₂ with calls := Function.update s₂.calls 1 (.waiting (.confirm confirmCall)) }

/-- The cancellation has looked up. -/
def s₄ : State := { s₃ with calls := Function.update s₃.calls 2 (.waiting (.cancel cancelCall)) }

/-- The booking is cancelled. -/
def s₅ : State := { s₄ with db := cancelled, calls := Function.update s₄.calls 2 .finished }

/-- The confirmation has written over the cancellation. -/
def s₆ : State := { s₅ with db := confirmed, calls := Function.update s₅.calls 1 .finished }

theorem create_lookedUp : Step 900 s₀ (.lookedUp 0 (.create createCall)) s₁ :=
  @Step.lookup 900 s₀ 0 (.create (uuid 1) (uuid 2) body) {} _ rfl rfl

theorem create_committed : Step 900 s₁ (.committed 0 (.create createCall) (drawn 0)) s₂ :=
  .commit rfl (by decide) createReservation_ok

theorem confirm_lookedUp : Step 900 s₂ (.lookedUp 1 (.confirm confirmCall)) s₃ :=
  @Step.lookup 900 s₂ 1 (.confirm (uuid 1) (uuid 2) "BK-0000002A") {} _ rfl
    (Except.map_eq_ok.mpr ⟨_, confirmLookup_ok, rfl⟩)

theorem cancel_lookedUp : Step 900 s₃ (.lookedUp 2 (.cancel cancelCall)) s₄ :=
  @Step.lookup 900 s₃ 2 (.cancel (uuid 1) (uuid 2) "BK-0000002A" "changed plans") {} _ rfl
    (Except.map_eq_ok.mpr ⟨_, cancelLookup_ok, rfl⟩)

theorem cancel_committed : Step 900 s₄ (.committed 2 (.cancel cancelCall) (drawn 1)) s₅ :=
  .commit rfl (by decide +kernel) cancelReservation_ok

theorem confirm_committed : Step 900 s₅ (.committed 1 (.confirm confirmCall) (drawn 2)) s₆ :=
  .commit rfl (by decide +kernel) confirmReservation_ok

/-- The steps of the schedule. -/
def steps : List (Transition State Event) :=
  [⟨s₀, .lookedUp 0 (.create createCall), s₁⟩,
    ⟨s₁, .committed 0 (.create createCall) (drawn 0), s₂⟩,
    ⟨s₂, .lookedUp 1 (.confirm confirmCall), s₃⟩,
    ⟨s₃, .lookedUp 2 (.cancel cancelCall), s₄⟩,
    ⟨s₄, .committed 2 (.cancel cancelCall) (drawn 1), s₅⟩,
    ⟨s₅, .committed 1 (.confirm confirmCall) (drawn 2), s₆⟩]

/-- The schedule up to the cancellation. -/
theorem run_cancel : Run (Step 900) s₀ (steps.take 5) s₅ :=
  (((((Run.nil s₀).snoc create_lookedUp).snoc create_committed).snoc confirm_lookedUp).snoc
    cancel_lookedUp).snoc cancel_committed

theorem run : Run (Step 900) s₀ steps s₆ := run_cancel.snoc confirm_committed

theorem idle : s₀.Idle := State.idle_start _ _

/-! The other end of the same booking: nobody touches it and its hold runs out. -/

/-- The booking has expired. -/
def overdueDatabase : Database :=
  (expireReservation booking.stale (drawn 3) 900001).after reserved

/-- The hold has run out. -/
def e₁ : State := { s₂ with now := 900001 }

/-- The worker has listed the booking. -/
def e₂ : State := { e₁ with workers := Function.update e₁.workers 0 (.running [booking.stale] 0) }

/-- The worker has expired it. -/
def e₃ : State :=
  { e₂ with db := overdueDatabase, workers := Function.update e₂.workers 0 (.running [] 1) }

/-- The worker has returned. -/
def e₄ : State := { e₃ with workers := Function.update e₃.workers 0 (.finished 1) }

theorem findStale_eq : findStaleBookings {} reserved 900001 = [booking.stale] := by
  decide +kernel

theorem expire_ok :
    (expireReservation booking.stale (drawn 3) 900001).run reserved
      = .ok (true, overdueDatabase) :=
  run_eq_after (by decide +kernel)

theorem listed : Step 900 e₁ (.listed 0 [booking.stale]) e₂ := by
  have h := @Step.list 900 e₁ 0 {} rfl
  rw [show findStaleBookings {} e₁.db e₁.now = [booking.stale] from findStale_eq] at h
  exact h

/-- The booking is made, its hold runs out, and one expiry run expires it. -/
def expirySteps : List (Transition State Event) :=
  steps.take 2 ++ [⟨s₂, .tick, e₁⟩, ⟨e₁, .listed 0 [booking.stale], e₂⟩,
    ⟨e₂, .expired 0 booking.stale, e₃⟩, ⟨e₃, .returned 0 1, e₄⟩]

theorem run_expire : Run (Step 900) s₀ expirySteps e₄ := by
  have hreserved : Run (Step 900) s₀ (steps.take 2) s₂ :=
    ((Run.nil s₀).snoc create_lookedUp).snoc create_committed
  have htick : Step 900 s₂ .tick e₁ := Step.tick s₂ 900001
  have hexpired : Step 900 e₂ (.expired 0 booking.stale) e₃ :=
    .expire rfl (by decide +kernel) expire_ok
  have hreturned : Step 900 e₃ (.returned 0 1) e₄ := .return_ rfl
  exact (((hreserved.snoc htick).snoc listed).snoc hexpired).snoc hreturned

end LateConfirm

end BookingPlatform
