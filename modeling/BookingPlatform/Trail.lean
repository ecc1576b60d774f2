import BookingPlatform.Lifecycle

/-!
# Bookings and their records

Every commit on a booking writes its row, one history row and one audit row, in
one transaction.  The three therefore tell the same story, whatever races: the
last history row has the status of the booking, and history and audit rows
correspond one to one.

## Main definitions

* `Recorded` — what a step records: a row, a history row and an audit row.
* `Corresponds`, `TrailSound` — the three tell the same story.

## Main results

* `recorded_of_step` — everything a step records.
* `trailSound_of_step` — no step lets row, history and audit rows drift apart.
* `records_correspond` — they correspond in every reachable state.
-/

namespace BookingPlatform

open Runs

/-! ### Records -/

/-- The status that a `BOOKING_*` event names. -/
def AuditEventType.bookingStatus? : AuditEventType → Option BookingStatus
  | .bookingReserved => some .reserved
  | .bookingConfirmed => some .confirmed
  | .bookingCancelled => some .cancelled
  | .bookingExpired => some .expired
  | _ => none

/-- An audit row that records a transition of a booking. -/
def AuditLog.isOf (id : Uuid) (log : AuditLog) : Bool :=
  log.eventType.bookingStatus?.isSome ∧ log.entityId = some id

/-- The `BOOKING_*` audit rows of a booking, in commit order. -/
def Database.auditsOf (db : Database) (id : Uuid) : List AuditLog :=
  db.auditLogs.filter (AuditLog.isOf id)

/-- An audit row that records what a history row does, for a tenant. -/
structure Corresponds (tenantId : Uuid) (row : BookingStatusHistory) (log : AuditLog) : Prop where
  event : log.eventType.bookingStatus? = some row.toStatus
  entity : log.entityType = AuditEntityType.booking.value ∧ log.entityId = some row.bookingId
  actor : log.actorUserId = row.actorUserId
  tenant : log.tenantId = some tenantId
  previous : ∀ metadata value, log.metadata = some metadata →
    metadata.field? "previousStatus" = some value →
    ∃ status, row.fromStatus = some status ∧ value = .str status.toString

/-- A step that records a transition: the row it leaves, the history row and the
audit row it appends. -/
structure Recorded (db db' : Database) (b' : Booking) (row : BookingStatusHistory)
    (log : AuditLog) : Prop where
  history : db'.bookingStatusHistory = db.bookingStatusHistory ++ [row]
  audits : db'.auditLogs = db.auditLogs ++ [log]
  corresponds : Corresponds b'.tenantId row log
  booking : db'.bookings.get? row.bookingId = some b'
  others : ∀ id, id ≠ row.bookingId → db'.bookings.get? id = db.bookings.get? id
  status : b'.status = row.toStatus
  hold : b'.status = .reserved ↔ b'.reservedUntil ≠ none
  tenant : ∀ b, db.bookings.get? row.bookingId = some b → b'.tenantId = b.tenantId
  first : db.bookings.get? row.bookingId = none → row.toStatus = .reserved

/-- A step that records nothing. -/
def Unrecorded (db db' : Database) : Prop :=
  db'.bookings = db.bookings ∧ db'.bookingStatusHistory = db.bookingStatusHistory ∧
    db'.auditLogs = db.auditLogs

/-! ### What a step records -/

/-- The tenant of a waiting confirmation or cancellation is its booking's. -/
theorem tenant_of_waiting {ttl : ℕ} {s : State} (hco : Coherent ttl s) {c : ℕ} {call : Call}
    (hc : s.calls c = .waiting call) :
    match call with
    | .create _ => True
    | .confirm call => call.booking.tenantId = call.tenantId
    | .cancel call => call.booking.tenantId = call.tenantId := by
  obtain ⟨req, order, db₀, now₀, hlook, -⟩ := hco.waiting c call hc
  have howned : ∀ {tenantId userId : Uuid} {reference : String} {b : Booking},
      ownedBy tenantId userId reference b = true → b.tenantId = tenantId := by
    intro tenantId userId reference b hb
    simp only [ownedBy, decide_eq_true_eq] at hb
    exact hb.1
  cases req with
  | create tenantId userId body =>
    obtain ⟨call', -, rfl⟩ := Except.map_eq_ok.mp hlook
    trivial
  | confirm tenantId userId reference =>
    obtain ⟨call', hcall, rfl⟩ := Except.map_eq_ok.mp hlook
    obtain ⟨ht, -, -, hb, -⟩ := confirmReservationLookup_spec hcall
    exact (howned hb).trans ht.symm
  | cancel tenantId userId reference reason =>
    obtain ⟨call', hcall, rfl⟩ := Except.map_eq_ok.mp hlook
    obtain ⟨ht, -, -, -, hb, -⟩ := cancelReservationLookup_spec hcall
    exact (howned hb).trans ht.symm

theorem Booking.SameColumns.tenantId_eq {b b' : Booking} (h : b.SameColumns b') :
    b'.tenantId = b.tenantId := by rw [h]

/-- The rows of the bookings after one of them was rewritten. -/
theorem get?_rewritten (set : Booking → Booking) {db : Database} {id : Uuid} {b : Booking}
    (hb : db.bookings.get? id = some b) (hset : (set b).id = b.id) :
    (db.bookings.put (set b)).get? id = some (set b) ∧
      ∀ other, other ≠ id → (db.bookings.put (set b)).get? other = db.bookings.get? other := by
  have hid : b.id = id := (Table.get?_eq_some.mp hb).2
  constructor
  · rw [get?_put_booking (set b) (get?_own hb) hset, if_pos hid.symm]
  · intro other hother
    rw [get?_put_booking (set b) (get?_own hb) hset, if_neg (by rwa [hid])]

/-- A transition of a booking that is there records it, when the rows it appends
name it and the hold ends with the status. -/
theorem recorded_of_rewrite (set : Booking → Booking) {db db' : Database} {b : Booking}
    {row : BookingStatusHistory} {log : AuditLog}
    (hb : db.bookings.get? row.bookingId = some b) (hid : (set b).id = b.id)
    (htenant : (set b).tenantId = b.tenantId)
    (hbookings : db'.bookings = db.bookings.put (set b))
    (hhistory : db'.bookingStatusHistory = db.bookingStatusHistory ++ [row])
    (haudits : db'.auditLogs = db.auditLogs ++ [log]) (hstatus : (set b).status = row.toStatus)
    (hhold : (set b).status = .reserved ↔ (set b).reservedUntil ≠ none)
    (hcorr : Corresponds (set b).tenantId row log) : Recorded db db' (set b) row log := by
  obtain ⟨hnew, hothers⟩ := get?_rewritten set hb hid
  refine ⟨hhistory, haudits, hcorr, hbookings ▸ hnew, fun id hne => hbookings ▸ hothers id hne,
    hstatus, hhold, ?_, ?_⟩
  · intro b₁ hb₁
    rw [← Option.some.inj (hb.symm.trans hb₁), htenant]
  · intro hnone
    rw [hb] at hnone
    cases hnone

/-- **Everything a step records.** -/
theorem recorded_of_step {ttl : ℕ} {s t : State} {e : Event} (h : Step ttl s e t)
    (hco : Coherent ttl s) :
    Unrecorded s.db t.db ∨ ∃ b' row log, Recorded s.db t.db b' row log := by
  have hchange := change_of_step h hco
  -- the tenant of a row recorded is that of the call that waited
  have hwaiting : ∀ {c call g}, e = .committed c call g → s.calls c = .waiting call := by
    rintro c call g rfl
    cases h with
    | commit hc => exact hc
  generalize s.db = db at hchange ⊢
  generalize t.db = db' at hchange ⊢
  cases hchange with
  | quiet => exact Or.inl ⟨rfl, rfl, rfl⟩
  | @create c call g _ _ slot' partySize hfree =>
    refine Or.inr ⟨call.booking partySize g s.now, _, _, rfl, rfl, ?_, ?_, ?_, rfl, ?_, ?_,
      fun _ => rfl⟩
    · refine ⟨rfl, ⟨rfl, rfl⟩, rfl, rfl, ?_⟩
      rintro _ value ⟨⟩ hvalue
      cases hvalue
    · exact (Table.get?_insert hfree _).trans (if_pos rfl)
    · intro id hid
      exact (Table.get?_insert hfree _).trans (if_neg hid)
    · exact iff_of_true rfl (Option.some_ne_none _)
    · intro b hb
      rw [show db.bookings.get? g.bookingId = none from hfree] at hb
      cases hb
  | @confirm c call g _ _ b hb hsame =>
    have htenant := tenant_of_waiting hco (hwaiting rfl)
    refine Or.inr ⟨b.confirm, _, _, recorded_of_rewrite Booking.confirm hb rfl rfl rfl rfl rfl rfl
      (iff_of_false (by simp [Booking.confirm]) (by simp [Booking.confirm]))
      ⟨rfl, ⟨rfl, rfl⟩, rfl, ?_, ?_⟩⟩
    · exact congrArg some (htenant.symm.trans hsame.tenantId_eq.symm)
    · rintro _ value ⟨⟩ hvalue
      exact ⟨_, rfl, (Option.some.inj hvalue).symm⟩
  | @cancel c call g _ _ b slot slot' hb hsame =>
    have htenant := tenant_of_waiting hco (hwaiting rfl)
    refine Or.inr ⟨b.cancel, _, _, recorded_of_rewrite Booking.cancel hb rfl rfl rfl rfl rfl rfl
      (iff_of_false (by simp [Booking.cancel]) (by simp [Booking.cancel]))
      ⟨rfl, ⟨rfl, rfl⟩, rfl, ?_, ?_⟩⟩
    · exact congrArg some (htenant.symm.trans hsame.tenantId_eq.symm)
    · rintro _ value ⟨⟩ hvalue
      exact ⟨_, rfl, (Option.some.inj hvalue).symm⟩
  | @expire w g _ _ b slot slot' hb =>
    -- the audit row of an expiry names the tenant of the row, not of a call
    refine Or.inr ⟨b.expire, _, _, recorded_of_rewrite Booking.expire hb rfl rfl rfl rfl rfl rfl
      (iff_of_false (by simp [Booking.expire]) (by simp [Booking.expire]))
      ⟨rfl, ⟨rfl, rfl⟩, rfl, rfl, ?_⟩⟩
    rintro _ value ⟨⟩ hvalue
    exact ⟨_, rfl, (Option.some.inj hvalue).symm⟩

/-! ### The three records agree -/

/-- Row, history and audit rows of every booking agree, and there are no records
of bookings that were never made. -/
structure TrailSound (db : Database) : Prop where
  unborn : ∀ id, db.bookings.get? id = none → db.historyOf id = [] ∧ db.auditsOf id = []
  hold : ∀ id b, db.bookings.get? id = some b → (b.status = .reserved ↔ b.reservedUntil ≠ none)
  last : ∀ id b, db.bookings.get? id = some b →
    (db.historyOf id).getLast?.map BookingStatusHistory.toStatus = some b.status
  audits : ∀ id b, db.bookings.get? id = some b →
    List.Forall₂ (Corresponds b.tenantId) (db.historyOf id) (db.auditsOf id)

/-- The records of a booking after a step that records. -/
theorem Recorded.historyOf {db db' : Database} {b' : Booking} {row : BookingStatusHistory}
    {log : AuditLog} (h : Recorded db db' b' row log) (id : Uuid) :
    db'.historyOf id = db.historyOf id ++ if row.bookingId = id then [row] else [] := by
  rw [Database.historyOf, h.history, List.filter_append]
  by_cases hid : row.bookingId = id <;> simp [Database.historyOf, hid]

theorem Recorded.auditsOf {db db' : Database} {b' : Booking} {row : BookingStatusHistory}
    {log : AuditLog} (h : Recorded db db' b' row log) (id : Uuid) :
    db'.auditsOf id = db.auditsOf id ++ if row.bookingId = id then [log] else [] := by
  have hisOf : log.isOf id = decide (row.bookingId = id) := by
    simp [AuditLog.isOf, h.corresponds.event, h.corresponds.entity.2]
  rw [Database.auditsOf, h.audits, List.filter_append]
  by_cases hid : row.bookingId = id <;> simp [Database.auditsOf, hisOf, hid]

/-- **A step that records keeps the records in agreement.** -/
theorem trailSound_of_recorded {db db' : Database} {b' : Booking} {row : BookingStatusHistory}
    {log : AuditLog} (h : Recorded db db' b' row log) (hdb : TrailSound db) : TrailSound db' := by
  -- the booking recorded, and any other
  have hown : ∀ {id b}, db'.bookings.get? id = some b → row.bookingId = id → b = b' := by
    rintro id b hb rfl
    exact Option.some.inj (hb.symm.trans h.booking)
  have hother : ∀ {id}, row.bookingId ≠ id → db'.bookings.get? id = db.bookings.get? id ∧
      db'.historyOf id = db.historyOf id ∧ db'.auditsOf id = db.auditsOf id := by
    intro id hid
    rw [h.historyOf, h.auditsOf, if_neg hid, if_neg hid, List.append_nil, List.append_nil]
    exact ⟨h.others id (Ne.symm hid), rfl, rfl⟩
  constructor
  · intro id hnone
    by_cases hid : row.bookingId = id
    · rw [← hid, h.booking] at hnone
      cases hnone
    · obtain ⟨hget, hhistory, haudits⟩ := hother hid
      rw [hhistory, haudits]
      exact hdb.unborn id (hget ▸ hnone)
  · intro id b hb
    by_cases hid : row.bookingId = id
    · rw [hown hb hid]
      exact h.hold
    · exact hdb.hold id b ((hother hid).1 ▸ hb)
  · intro id b hb
    by_cases hid : row.bookingId = id
    · rw [h.historyOf, if_pos hid, hown hb hid, h.status]
      simp
    · obtain ⟨hget, hhistory, -⟩ := hother hid
      rw [hhistory]
      exact hdb.last id b (hget ▸ hb)
  · intro id b hb
    by_cases hid : row.bookingId = id
    · rw [h.historyOf, h.auditsOf, if_pos hid, if_pos hid, hown hb hid]
      -- what was there before belongs to the same tenant
      have hbefore : List.Forall₂ (Corresponds b'.tenantId) (db.historyOf id) (db.auditsOf id) := by
        cases hold : db.bookings.get? id with
        | none =>
          rw [(hdb.unborn id hold).1, (hdb.unborn id hold).2]
          exact .nil
        | some b₀ =>
          rw [h.tenant b₀ (by rw [hid]; exact hold)]
          exact hdb.audits id b₀ hold
      exact List.rel_append hbefore (.cons h.corresponds .nil)
    · obtain ⟨hget, hhistory, haudits⟩ := hother hid
      rw [hhistory, haudits]
      exact hdb.audits id b (hget ▸ hb)

/-- **No step lets row, history and audit rows drift apart.** -/
theorem trailSound_of_step {ttl : ℕ} {s t : State} {e : Event} (h : Step ttl s e t)
    (hco : Coherent ttl s) (hs : TrailSound s.db) : TrailSound t.db := by
  rcases recorded_of_step h hco with ⟨hbookings, hhistory, haudits⟩ | ⟨b', row, log, hrecorded⟩
  · constructor
    · simpa only [Database.historyOf, Database.auditsOf, hbookings, hhistory, haudits]
        using hs.unborn
    · simpa only [hbookings] using hs.hold
    · simpa only [Database.historyOf, hbookings, hhistory] using hs.last
    · simpa only [Database.historyOf, Database.auditsOf, hbookings, hhistory, haudits]
        using hs.audits
  · exact trailSound_of_recorded hrecorded hs

/-- A store before the first booking.  Other operations may have left their own
audit rows. -/
structure Database.NoBookings (db : Database) : Prop where
  bookings : ∀ id, db.bookings.get? id = none
  history : db.bookingStatusHistory = []
  audits : ∀ log ∈ db.auditLogs, log.eventType.bookingStatus? = none

theorem Database.NoBookings.historyOf {db : Database} (h : db.NoBookings) (id : Uuid) :
    db.historyOf id = [] := by
  rw [Database.historyOf, h.history, List.filter_nil]

theorem Database.NoBookings.auditsOf {db : Database} (h : db.NoBookings) (id : Uuid) :
    db.auditsOf id = [] := by
  refine List.filter_eq_nil_iff.mpr ?_
  intro log hlog
  simp [AuditLog.isOf, h.audits log hlog]

theorem Database.NoBookings.trailSound {db : Database} (h : db.NoBookings) : TrailSound db := by
  have hno : ∀ {id b}, db.bookings.get? id ≠ some b := by
    intro id b hb
    rw [h.bookings id] at hb
    cases hb
  exact ⟨fun id _ => ⟨h.historyOf id, h.auditsOf id⟩, fun _ _ hb => (hno hb).elim,
    fun _ _ hb => (hno hb).elim, fun _ _ hb => (hno hb).elim⟩

theorem trailSound_run {ttl : ℕ} {s t : State} {tr : List (Transition State Event)}
    (hrun : Run (Step ttl) s tr t) (hco : Coherent ttl s) (hs : TrailSound s.db) :
    TrailSound t.db := by
  refine (hrun.invariant (I := fun s => Coherent ttl s ∧ TrailSound s.db) ?_ ⟨hco, hs⟩).2
  rintro s e t hstep ⟨hco, hs⟩
  exact ⟨coherent_step hstep hco, trailSound_of_step hstep hco hs⟩

/-- **Row, history and audit trail never drift apart.** In every state of every
run from a store without bookings, whatever races: a booking is `RESERVED`
exactly when it has a deadline, its last history row has its status, and its
`BOOKING_*` audit rows correspond one to one, in commit order, with its history
rows. -/
theorem records_correspond {ttl : ℕ} {s t : State} {tr : List (Transition State Event)}
    (hrun : Run (Step ttl) s tr t) (hidle : s.Idle) (hempty : s.db.NoBookings) (id : Uuid)
    (b : Booking) (hb : t.db.bookings.get? id = some b) :
    (b.status = .reserved ↔ b.reservedUntil ≠ none) ∧
      (t.db.historyOf id).getLast?.map BookingStatusHistory.toStatus = some b.status ∧
      List.Forall₂ (Corresponds b.tenantId) (t.db.historyOf id) (t.db.auditsOf id) := by
  have hsound := trailSound_run hrun hidle.coherent hempty.trailSound
  exact ⟨hsound.hold id b hb, hsound.last id b hb, hsound.audits id b hb⟩

theorem LateConfirm.noBookings : LateConfirm.database.NoBookings :=
  ⟨fun _ => rfl, rfl, fun _ hlog => absurd hlog List.not_mem_nil⟩

/-- The booking that was cancelled and confirmed late has three history rows and
three audit rows that agree. -/
theorem records_correspond_late_confirm :
    List.Forall₂ (Corresponds (uuid 1))
      (LateConfirm.confirmed.historyOf (uuid 10))
      (LateConfirm.confirmed.auditsOf (uuid 10)) ∧
    (LateConfirm.confirmed.historyOf (uuid 10)).length = 3 :=
  ⟨(records_correspond LateConfirm.run LateConfirm.idle LateConfirm.noBookings
    (uuid 10) LateConfirm.booking.cancel.confirm (by decide +kernel)).2.2,
    by decide +kernel⟩

end BookingPlatform
