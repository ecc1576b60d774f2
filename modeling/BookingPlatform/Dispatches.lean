import BookingPlatform.Lib.Ledger
import BookingPlatform.Webhooks

/-!
# How many webhooks are sent

A commit of a call enqueues one dispatch, and so does an expiry when it opens its
transaction.  Every dispatch sends at most one payload.  What is sent about a
booking is therefore bounded by what happened to it: one reservation, and one
expiry but for the attempts that failed at their commit.

## Main definitions

* `enqueuedAbout`, `sentAbout`, `givenUpAbout` — the dispatches of a run about a
  booking.
* `DispatchState.inFlightAbout` — those that are still under way.

## Main results

* `booked_of_step` — a step enqueues a dispatch, ends one, or leaves all of them
  where they are.
* `webhooks_accounted` — what was enqueued is what was sent, what was given up and
  what is still under way.
-/

namespace BookingPlatform

open Runs

/-! ### What steps enqueue and end -/

/-- The event and the booking that a dispatch is about. -/
def Dispatch.about (d : Dispatch) : WebhookEventType × Uuid := (d.event, d.bookingId)

/-- The dispatch of a task that has not ended. -/
def DispatchTask.inFlight : DispatchTask → Option Dispatch
  | .queued d => some d
  | .registered d _ => some d
  | .built d _ _ => some d
  | _ => none

/-- The dispatch that a step enqueues. -/
def TxEvent.enqueued? : TxEvent → Option Dispatch
  | .core (.committed _ (.create call) g) => some ⟨call.tenantId, .bookingReserved, g.bookingId⟩
  | .core (.committed _ (.confirm call) _) =>
    some ⟨call.tenantId, .bookingConfirmed, call.booking.id⟩
  | .core (.committed _ (.cancel call) _) =>
    some ⟨call.tenantId, .bookingCancelled, call.booking.id⟩
  | .opened _ item => some item.dispatch
  | _ => none

/-- The dispatch that a step enqueues. -/
def DispatchEvent.enqueued? : DispatchEvent → Option Dispatch
  | .tx e => e.enqueued?
  | _ => none

/-- The dispatch whose payload a step sends. -/
def DispatchEvent.sent? : DispatchEvent → Option Dispatch
  | .sent _ d _ => some d
  | _ => none

/-- The dispatch that a step ends without a payload. -/
def givenUp? (x : Transition DispatchState DispatchEvent) : Option Dispatch :=
  match x.event with
  | .ended n => (x.pre.tasks n).inFlight
  | _ => none

/-- The dispatch that a step ends. -/
def settled? (x : Transition DispatchState DispatchEvent) : Option Dispatch :=
  x.event.sent?.or (givenUp? x)

/-- The booking of an expiry that fails at its commit. -/
def DispatchEvent.expiryFailed? : DispatchEvent → Option Uuid
  | .tx (.expiryFailed _ item) => some item.id
  | _ => none

/-- The booking that a step expires. -/
def DispatchEvent.expired? : DispatchEvent → Option Uuid
  | .tx (.core (.expired _ item)) => some item.id
  | _ => none

/-- The booking that a step makes. -/
def DispatchEvent.made? : DispatchEvent → Option Uuid
  | .tx (.core (.committed _ (.create _) g)) => some g.bookingId
  | _ => none

/-- A call that commits enqueues what its label says. -/
theorem enqueued_of_commit {c : ℕ} {call : Call} {g : Generated} {now : Instant}
    {db db' : Database} {b : Booking} (h : (call.transaction g now).run db = .ok (b, db')) :
    TxEvent.enqueued? (.core (.committed c call g)) = some (call.dispatch b) := by
  cases call with
  | create call =>
    obtain ⟨slot, slot', partySize, hfree, -, -, -, -, -, -, -, -, rfl, -⟩ :=
      createReservationTransaction_ok.mp h
    rfl
  | confirm call =>
    obtain ⟨x, hx, rfl, -⟩ := confirmReservationTransaction_ok.mp h
    have hid : x.id = call.booking.id := (Table.get?_eq_some.mp hx).2
    simp [TxEvent.enqueued?, Call.dispatch, Booking.confirm, hid]
  | cancel call =>
    obtain ⟨x, slot, slot', hx, -, -, -, -, -, rfl, -⟩ := cancelReservationTransaction_ok.mp h
    have hid : x.id = call.booking.id := (Table.get?_eq_some.mp hx).2
    simp [TxEvent.enqueued?, Call.dispatch, Booking.cancel, hid]

/-- A commit of a call is one of the booking system. -/
theorem commit_of_txStep {ttl : ℕ} {s t : TxState} {c : ℕ} {call : Call} {g : Generated}
    (h : TxStep ttl s (.core (.committed c call g)) t) :
    ∃ b, (call.transaction g s.core.now).run s.core.db = .ok (b, t.core.db) := by
  cases h with
  | quiet hstep hq => cases hq
  | commit hstep =>
    cases hstep with
    | commit hc hg hrun => exact ⟨_, hrun⟩

/-- **What a step enqueues can be read off its label.** -/
theorem enqueues_iff {ttl : ℕ} {s t : TxState} {e : TxEvent} (h : TxStep ttl s e t)
    {d : Dispatch} : s.Enqueues e d ↔ e.enqueued? = some d := by
  cases e with
  | core e =>
    cases e with
    | committed c call g =>
      obtain ⟨b, hrun⟩ := commit_of_txStep h
      rw [enqueued_of_commit hrun, Option.some_inj]
      constructor
      · intro henqueues
        obtain ⟨b', db', hrun', hd⟩ := henqueues
        rw [hrun] at hrun'
        obtain ⟨rfl, -⟩ := Prod.mk.inj (Except.ok.inj hrun')
        exact hd.symm
      · intro hd
        exact ⟨b, _, hrun, hd.symm⟩
    | _ => simp [TxState.Enqueues, TxEvent.enqueued?]
  | opened w item => simp [TxState.Enqueues, TxEvent.enqueued?, eq_comm]
  | _ => simp [TxState.Enqueues, TxEvent.enqueued?]

/-- **A step enqueues a dispatch, ends one, or leaves all of them where they are.** -/
theorem booked_of_step {ttl : ℕ} {s t : DispatchState} {e : DispatchEvent}
    (h : DispatchStep ttl s e t) :
    Booked (fun n => (s.tasks n).inFlight) e.enqueued? (settled? ⟨s, e, t⟩)
      (fun n => (t.tasks n).inFlight) := by
  have hupdate : ∀ (n : ℕ) (task : DispatchTask),
      (fun m => (Function.update s.tasks n task m).inFlight)
        = Function.update (fun m => (s.tasks m).inFlight) n task.inFlight :=
    fun n task => Function.comp_update DispatchTask.inFlight s.tasks n task
  -- a task that goes on is in flight as before
  have hkeep : ∀ {n : ℕ} {task : DispatchTask}, task.inFlight = (s.tasks n).inFlight →
      Booked (fun m => (s.tasks m).inFlight) none none
        (fun m => (Function.update s.tasks n task m).inFlight) := by
    intro n task hsame
    rw [hupdate, hsame, Function.update_eq_self]
    exact .keep
  have hend : ∀ {n : ℕ} {d : Dispatch}, (s.tasks n).inFlight = some d →
      Booked (fun m => (s.tasks m).inFlight) none (some d)
        (fun m => (Function.update s.tasks n .finished m).inFlight) := by
    intro n d hd
    rw [hupdate]
    exact .closed hd
  cases h with
  | @tx e t hstep hnone =>
    have henqueued : e.enqueued? = none := by
      rw [Option.eq_none_iff_forall_ne_some]
      exact fun d hd => hnone d ((enqueues_iff hstep).mpr hd)
    rw [show DispatchEvent.enqueued? (.tx e) = none from henqueued]
    exact .keep
  | @enqueue e t n d hstep henqueues htask =>
    rw [show DispatchEvent.enqueued? (.tx e) = some d from (enqueues_iff hstep).mp henqueues,
      hupdate]
    exact .opened (by rw [htask]; rfl)
  | changeWebhooks => exact .keep
  | find htask => exact hkeep (by rw [htask]; rfl)
  | read htask => exact hkeep (by rw [htask]; rfl)
  | @noWebhook n d htask | @noBooking n d _ htask =>
    have hd : (s.tasks n).inFlight = some d := by rw [htask]; rfl
    have hsettled : ∀ t, settled? ⟨s, .ended n, t⟩ = some d := fun _ => hd
    rw [hsettled]
    exact hend hd
  | send htask => exact hend (by rw [htask]; rfl)

/-! ### The ledger of the dispatches -/

section Counts

variable (tr : List (Transition DispatchState DispatchEvent)) (k : WebhookEventType × Uuid)

/-- The dispatches that a run enqueues about a booking, under an event. -/
def enqueuedAbout : ℕ := tr.countP fun x => x.event.enqueued?.map Dispatch.about = some k

/-- The payloads that a run sends about a booking, under an event. -/
def sentAbout : ℕ := tr.countP fun x => x.event.sent?.map Dispatch.about = some k

/-- The dispatches about a booking that a run ends without a payload. -/
def givenUpAbout : ℕ := tr.countP fun x => (givenUp? x).map Dispatch.about = some k

/-- The dispatches about a booking that are still under way. -/
def DispatchState.inFlightAbout (s : DispatchState) : Set ℕ :=
  openCells (fun n => (s.tasks n).inFlight.map Dispatch.about) k

end Counts

/-- A dispatch ends with its payload or without. -/
theorem countP_settled (tr : List (Transition DispatchState DispatchEvent))
    (k : WebhookEventType × Uuid) :
    (tr.countP fun x => (settled? x).map Dispatch.about = some k) =
      sentAbout tr k + givenUpAbout tr k := by
  unfold sentAbout givenUpAbout
  rw [← countP_or]
  · simp only [settled?, Option.map_or]
  · intro x
    unfold givenUp?
    cases x.event <;> simp [DispatchEvent.sent?]

/-- **What was enqueued is what was sent, what was given up and what is still under
way**, booking by booking and event by event. -/
theorem dispatch_ledger {ttl : ℕ} {s t : DispatchState}
    {tr : List (Transition DispatchState DispatchEvent)} (hrun : Run (DispatchStep ttl) s tr t)
    (hidle : s.Idle) (k : WebhookEventType × Uuid) :
    (t.inFlightAbout k).Finite ∧
      enqueuedAbout tr k = sentAbout tr k + givenUpAbout tr k + (t.inFlightAbout k).ncard := by
  have hledger := hrun.ledger (I := fun _ => True)
    (fun s n => (s.tasks n).inFlight.map Dispatch.about)
    (fun x => x.event.enqueued?.map Dispatch.about)
    (fun x => (settled? x).map Dispatch.about) (fun _ _ _ _ _ => trivial)
    (fun x hx _ => (booked_of_step hx).map Dispatch.about) trivial
    (fun n => by rw [hidle.tasks n]; rfl) k
  rwa [countP_settled] at hledger

/-! ### What a booking is announced for -/

/-- A step that writes no booking, or one of the booking system. -/
theorem change_of_dispatchStep {ttl : ℕ} {s t : DispatchState} {e : DispatchEvent}
    (h : DispatchStep ttl s e t) (hco : Coherent ttl s.tx.core) :
    (∃ e', e = .tx (.core e') ∧ Change e' s.tx.core.now s.tx.core.db t.tx.core.db) ∨
      ((∀ e', e ≠ .tx (.core e')) ∧ t.tx.core.db = s.tx.core.db) := by
  have htx : ∀ {e : TxEvent} {t : TxState}, TxStep ttl s.tx e t →
      (∃ e', DispatchEvent.tx e = .tx (.core e') ∧ Change e' s.tx.core.now s.tx.core.db t.core.db) ∨
        ((∀ e', DispatchEvent.tx e ≠ .tx (.core e')) ∧ t.core.db = s.tx.core.db) := by
    intro e t hstep
    rcases (core_of_step hstep hco).2 with ⟨e', rfl, hcore⟩ | ⟨hnone, hdb, -⟩
    · exact Or.inl ⟨e', rfl, change_of_step hcore hco⟩
    · exact Or.inr ⟨fun e' heq => hnone e' (DispatchEvent.tx.inj heq), hdb⟩
  cases h with
  | tx hstep | enqueue hstep => exact htx hstep
  | changeWebhooks | find | noWebhook | read | noBooking | send =>
    exact Or.inr ⟨fun _ heq => (by cases heq), rfl⟩

/-- A booking that is there stays there, and one that has left `RESERVED` does not
come back to it. -/
theorem left_dispatch_run {ttl : ℕ} {s t : DispatchState}
    {tr : List (Transition DispatchState DispatchEvent)} (hrun : Run (DispatchStep ttl) s tr t)
    (hco : Coherent ttl s.tx.core) {id : Uuid} {b : Booking}
    (hb : s.tx.core.db.bookings.get? id = some b) :
    ∃ b', t.tx.core.db.bookings.get? id = some b' ∧
      (b.status ≠ .reserved → b'.status ≠ .reserved) := by
  refine (hrun.invariant (I := fun s => Coherent ttl s.tx.core ∧
    ∃ b', s.tx.core.db.bookings.get? id = some b' ∧
      (b.status ≠ .reserved → b'.status ≠ .reserved)) ?_ ⟨hco, b, hb, fun hst => hst⟩).2
  intro s e t hstep hs
  obtain ⟨hco, b', hb', hst⟩ := hs
  refine ⟨coherent_dispatchStep hstep hco, ?_⟩
  rcases change_of_dispatchStep hstep hco with ⟨e', rfl, hchange⟩ | ⟨-, hdb⟩
  · exact ⟨_, booking_of_change hchange hb', fun hne => rewrite_ne_reserved (hst hne)⟩
  · exact ⟨b', by rw [hdb, hb'], hst⟩

/-- The booking that a step makes was not there, and is. -/
theorem absent_of_made {ttl : ℕ} {s t : DispatchState} {e : DispatchEvent}
    (h : DispatchStep ttl s e t) {id : Uuid} (hmade : e.made? = some id) :
    s.tx.core.db.bookings.get? id = none ∧ ∃ b, t.tx.core.db.bookings.get? id = some b := by
  have htx : ∀ {e : TxEvent} {t : TxState}, TxStep ttl s.tx e t →
      DispatchEvent.made? (.tx e) = some id →
      s.tx.core.db.bookings.get? id = none ∧ ∃ b, t.core.db.bookings.get? id = some b := by
    intro e t hstep hmade
    unfold DispatchEvent.made? at hmade
    split at hmade
    · next c call g heq =>
      cases heq
      obtain rfl := Option.some.inj hmade
      obtain ⟨b, hrun⟩ := commit_of_txStep hstep
      obtain ⟨slot, slot', partySize, hfree, -, -, -, -, -, -, -, -, -, hdb⟩ :=
        createReservationTransaction_ok.mp hrun
      refine ⟨hfree, call.booking partySize g s.tx.core.now, ?_⟩
      rw [hdb]
      exact (Table.get?_insert hfree _).trans (if_pos rfl)
    · cases hmade
  cases h with
  | tx hstep | enqueue hstep => exact htx hstep hmade
  | changeWebhooks | find | noWebhook | read | noBooking | send => cases hmade

/-- The booking that a step expires was reserved, and is not any more. -/
theorem left_of_expired {ttl : ℕ} {s t : DispatchState} {e : DispatchEvent}
    (h : DispatchStep ttl s e t) (hco : Coherent ttl s.tx.core) {id : Uuid}
    (hexpired : e.expired? = some id) :
    (∃ b, s.tx.core.db.bookings.get? id = some b ∧ b.status = .reserved) ∧
      ∃ b, t.tx.core.db.bookings.get? id = some b ∧ b.status ≠ .reserved := by
  unfold DispatchEvent.expired? at hexpired
  split at hexpired
  · next w item =>
    rcases change_of_dispatchStep h hco with ⟨e', heq, hchange⟩ | ⟨hnone, -⟩
    · cases heq
      obtain ⟨b, deadline, hb, hst, -, -, hb'⟩ := row_of_expired hchange hexpired
      exact ⟨⟨b, hb, hst⟩, b.expire, hb', by simp [Booking.expire]⟩
    · exact absurd rfl (hnone _)
  · cases hexpired

section Run

variable {ttl : ℕ} {s t : DispatchState} {tr : List (Transition DispatchState DispatchEvent)}

theorem coherent_dispatch_run (hrun : Run (DispatchStep ttl) s tr t)
    (hco : Coherent ttl s.tx.core) : Coherent ttl t.tx.core :=
  hrun.invariant (I := fun s => Coherent ttl s.tx.core) (fun _ _ _ => coherent_dispatchStep) hco

/-- A run makes a booking at most once. -/
theorem made_nodup (hrun : Run (DispatchStep ttl) s tr t) (hco : Coherent ttl s.tx.core) :
    (tr.filterMap fun x => x.event.made?).Nodup := by
  refine hrun.nodup_filterMap (I := fun s => Coherent ttl s.tx.core) (C := fun _ => True)
    (fun _ _ _ => coherent_dispatchStep) ?_ (fun _ _ => trivial) hco
  intro x y mid id hco hx hmid _ hy _ hmade hmade'
  obtain ⟨-, b, hb⟩ := absent_of_made hx hmade
  obtain ⟨b', hb', -⟩ := left_dispatch_run hmid (coherent_dispatchStep hx hco) hb
  rw [(absent_of_made hy hmade').1] at hb'
  cases hb'

/-- A run expires a booking at most once. -/
theorem expired_nodup (hrun : Run (DispatchStep ttl) s tr t) (hco : Coherent ttl s.tx.core) :
    (tr.filterMap fun x => x.event.expired?).Nodup := by
  refine hrun.nodup_filterMap (I := fun s => Coherent ttl s.tx.core) (C := fun _ => True)
    (fun _ _ _ => coherent_dispatchStep) ?_ (fun _ _ => trivial) hco
  intro x y mid id hco hx hmid _ hy _ hexpired hexpired'
  have hpost := coherent_dispatchStep hx hco
  obtain ⟨-, b, hb, hst⟩ := left_of_expired hx hco hexpired
  obtain ⟨b₁, hb₁, hst₁⟩ := left_dispatch_run hmid hpost hb
  obtain ⟨⟨b₂, hb₂, hst₂⟩, -⟩ := left_of_expired hy (coherent_dispatch_run hmid hpost) hexpired'
  obtain rfl : b₁ = b₂ := Option.some.inj (hb₁.symm.trans hb₂)
  exact hst₁ hst hst₂

/-- What a run does once per key, it has done at most once. -/
theorem countP_le_one {κ : Type} [DecidableEq κ] {f : DispatchEvent → Option κ}
    (h : (tr.filterMap fun x => f x.event).Nodup) (k : κ) :
    (tr.countP fun x => f x.event = some k) ≤ 1 := by
  have hcount := List.nodup_iff_count_le_one.mp h k
  rw [List.count_filterMap] at hcount
  simpa [beq_eq_decide] using hcount

end Run

/-! ### The ledger of the expiries -/

/-- The booking of an expiry that a step opens. -/
def DispatchEvent.expiryOpened? : DispatchEvent → Option Uuid
  | .tx (.opened _ item) => some item.id
  | _ => none

/-- The booking of an expiry that a step settles. -/
def DispatchEvent.expirySettled? (e : DispatchEvent) : Option Uuid :=
  e.expired?.or e.expiryFailed?

/-- **A step opens an expiry, settles one, or leaves all of them open.** -/
theorem expiry_of_step {ttl : ℕ} {s t : DispatchState} {e : DispatchEvent}
    (h : DispatchStep ttl s e t) :
    Booked (fun w => (s.tx.opened w).map StaleBooking.id) e.expiryOpened? e.expirySettled?
      (fun w => (t.tx.opened w).map StaleBooking.id) := by
  have htx : ∀ {e : TxEvent} {t : TxState}, TxStep ttl s.tx e t →
      Booked (fun w => (s.tx.opened w).map StaleBooking.id) (DispatchEvent.tx e).expiryOpened?
        (DispatchEvent.tx e).expirySettled? (fun w => (t.opened w).map StaleBooking.id) := by
    intro e t hstep
    cases hstep with
    | @quiet e t hstep hquiet =>
      have hnone : (DispatchEvent.tx (.core e)).expirySettled? = none := by
        cases e <;> first | rfl | simp [Event.commits] at hquiet
      rw [hnone]
      exact .keep
    | commit | commitFails => exact .keep
    | open_ hw hnone =>
      exact (Booked.opened (k := _) hnone).map StaleBooking.id
    | expire hopen => exact (Booked.closed hopen).map StaleBooking.id
    | expireFails hopen => exact (Booked.closed hopen).map StaleBooking.id
  cases h with
  | tx hstep | enqueue hstep => exact htx hstep
  | changeWebhooks | find | noWebhook | read | noBooking | send => exact .keep

section Run

variable {ttl : ℕ} {s t : DispatchState} {tr : List (Transition DispatchState DispatchEvent)}

/-- **Expiries that are opened commit, fail or are still open.** -/
theorem expiry_ledger (hrun : Run (DispatchStep ttl) s tr t) (hidle : s.Idle) (id : Uuid) :
    (tr.countP fun x => x.event.expiryOpened? = some id) =
      (tr.countP fun x => x.event.expired? = some id) +
        (tr.countP fun x => x.event.expiryFailed? = some id) +
        (openCells (fun w => (t.tx.opened w).map StaleBooking.id) id).ncard := by
  have hledger := (hrun.ledger (I := fun _ => True) (fun s w => (s.tx.opened w).map StaleBooking.id)
    (fun x => x.event.expiryOpened?) (fun x => x.event.expirySettled?) (fun _ _ _ _ _ => trivial)
    (fun x hx _ => expiry_of_step hx) trivial (fun w => by rw [hidle.tx.opened w]; rfl) id).2
  have hor : ∀ e : DispatchEvent, e.expired? = none ∨ e.expiryFailed? = none := by
    intro e
    unfold DispatchEvent.expiryFailed?
    split
    · exact Or.inl rfl
    · exact Or.inr rfl
  have hsettled := countP_or (f := fun x : Transition DispatchState DispatchEvent =>
    x.event.expired?) (g := fun x => x.event.expiryFailed?) (fun x => hor x.event) tr id
  rw [hledger, ← hsettled]
  rfl

/-- Open expiries hold their rows at the end of a run. -/
theorem locked_dispatch_run (hrun : Run (DispatchStep ttl) s tr t) (hidle : s.Idle) :
    Locked t.tx := by
  refine (hrun.invariant (I := fun s => Coherent ttl s.tx.core ∧ Locked s.tx) ?_
    ⟨hidle.tx.core.coherent, ?_⟩).2
  · intro s e t hstep hs
    obtain ⟨hco, hlocked⟩ := hs
    refine ⟨coherent_dispatchStep hstep hco, ?_⟩
    cases hstep with
    | tx hstep | enqueue hstep => exact locked_step hstep hco hlocked
    | changeWebhooks | find | noWebhook | read | noBooking | send => exact hlocked
  · constructor <;> simp [hidle.tx.opened]

/-- **A booking has expired, or one expiry of it is open, or neither.** -/
theorem expired_or_open (hrun : Run (DispatchStep ttl) s tr t) (hidle : s.Idle) (id : Uuid) :
    (tr.countP fun x => x.event.expired? = some id) +
      (openCells (fun w => (t.tx.opened w).map StaleBooking.id) id).ncard ≤ 1 := by
  have hco : Coherent ttl s.tx.core := hidle.tx.core.coherent
  have hlocked := locked_dispatch_run hrun hidle
  have hexpired := countP_le_one (expired_nodup hrun hco) id
  have hitem : ∀ {w : ℕ}, w ∈ openCells (fun w => (t.tx.opened w).map StaleBooking.id) id →
      ∃ item, t.tx.opened w = some item ∧ item.id = id := fun hw => Option.map_eq_some_iff.mp hw
  have hfew : (openCells (fun w => (t.tx.opened w).map StaleBooking.id) id).ncard ≤ 1 := by
    have hone : Set.Subsingleton
        (openCells (fun w => (t.tx.opened w).map StaleBooking.id) id) := by
      intro w hw w' hw'
      obtain ⟨item, hopen, hid⟩ := hitem hw
      obtain ⟨item', hopen', hid'⟩ := hitem hw'
      by_contra hne
      exact (hlocked.apart w w' item item' hopen hopen' hne).2 (hid.trans hid'.symm)
    exact (Set.ncard_le_one hone.finite).mpr fun w hw w' hw' => hone hw hw'
  -- a booking that has expired is not reserved, and an open expiry holds a reserved one
  by_cases hnone : ∃ x ∈ tr, x.event.expired? = some id
  · obtain ⟨x, hx, he⟩ := hnone
    have hempty : openCells (fun w => (t.tx.opened w).map StaleBooking.id) id = ∅ := by
      rw [Set.eq_empty_iff_forall_notMem]
      intro w hw
      obtain ⟨item, hopen, rfl⟩ := hitem hw
      obtain ⟨l, l', rfl⟩ := List.append_of_mem hx
      obtain ⟨hbefore, hstep, hafter⟩ := hrun.cut
      have hpre := coherent_dispatch_run hbefore hco
      obtain ⟨-, b, hb, hst⟩ := left_of_expired hstep hpre he
      obtain ⟨b', hb', hst'⟩ := left_dispatch_run hafter (coherent_dispatchStep hstep hpre) hb
      obtain ⟨b'', hb'', hover⟩ := (hlocked.held w item hopen).booking
      obtain rfl : b' = b'' := Option.some.inj (hb'.symm.trans hb'')
      exact hst' hst (overdue_status hover)
    rw [hempty, Set.ncard_empty]
    exact hexpired
  · have hzero : (tr.countP fun x => x.event.expired? = some id) = 0 := by
      simpa using hnone
    omega

/-! ### What is announced -/

/-- A dispatch under another event than an expiry's is enqueued by the commit that it
names. -/
theorem enqueued_iff_transition {e : DispatchEvent} {event : WebhookEventType} {id : Uuid}
    (h : event ≠ .bookingExpired) :
    e.enqueued?.map Dispatch.about = some (event, id) ↔
      e.transition? = some (id, event.status) := by
  cases e with
  | tx e =>
    cases e with
    | core e =>
      cases e with
      | committed c call g =>
        cases call <;> cases event <;> simp_all [DispatchEvent.enqueued?, TxEvent.enqueued?,
          Dispatch.about, DispatchEvent.transition?, Event.transition?, Event.writes?,
          WebhookEventType.status]
      | expired w item =>
        -- its dispatch was enqueued before
        cases event <;> simp_all [DispatchEvent.enqueued?, TxEvent.enqueued?,
          DispatchEvent.transition?, Event.transition?, Event.writes?, WebhookEventType.status]
      | _ => simp [DispatchEvent.enqueued?, TxEvent.enqueued?, DispatchEvent.transition?,
          Event.transition?, Event.writes?]
    | opened w item =>
      simp [DispatchEvent.enqueued?, TxEvent.enqueued?, Dispatch.about, StaleBooking.dispatch,
        DispatchEvent.transition?, Ne.symm h]
    | _ => simp [DispatchEvent.enqueued?, TxEvent.enqueued?, DispatchEvent.transition?]
  | _ => simp [DispatchEvent.enqueued?, DispatchEvent.transition?]

/-- An expiry's dispatch is enqueued when its transaction is opened. -/
theorem enqueued_iff_opened {e : DispatchEvent} {id : Uuid} :
    e.enqueued?.map Dispatch.about = some (.bookingExpired, id) ↔ e.expiryOpened? = some id := by
  unfold DispatchEvent.enqueued? TxEvent.enqueued? DispatchEvent.expiryOpened?
  split <;> (try split) <;> simp_all [Dispatch.about, StaleBooking.dispatch]

/-- The commits that reserve a booking make it. -/
theorem made_iff_transition {e : DispatchEvent} {id : Uuid} :
    e.transition? = some (id, .reserved) ↔ e.made? = some id := by
  unfold DispatchEvent.transition? Event.transition? Event.writes? DispatchEvent.made?
  split <;> (try split) <;> (try split) <;> simp_all

/-- **How many webhooks are sent.** About every booking and event, the dispatches
enqueued are those that sent their payload, those that were given up and those under
way; but for expiries there is one for each commit that brings the booking into the
status the event names.  A booking is announced as reserved at most once, and as
expired at most once more than expiries of it failed at their commit. -/
theorem webhooks_accounted (hrun : Run (DispatchStep ttl) s tr t) (hidle : s.Idle) (id : Uuid) :
    (∀ event, (t.inFlightAbout (event, id)).Finite ∧ enqueuedAbout tr (event, id) =
      sentAbout tr (event, id) + givenUpAbout tr (event, id) +
        (t.inFlightAbout (event, id)).ncard) ∧
    (∀ event, event ≠ .bookingExpired → enqueuedAbout tr (event, id) =
      tr.countP fun x => x.event.transition? = some (id, event.status)) ∧
    sentAbout tr (.bookingReserved, id) ≤ 1 ∧
    sentAbout tr (.bookingExpired, id) ≤
      1 + tr.countP fun x => x.event.expiryFailed? = some id := by
  have hco : Coherent ttl s.tx.core := hidle.tx.core.coherent
  have hledger := fun event => dispatch_ledger hrun hidle (event, id)
  have hcommits : ∀ event, event ≠ .bookingExpired → enqueuedAbout tr (event, id) =
      tr.countP fun x => x.event.transition? = some (id, event.status) := by
    intro event hevent
    exact List.countP_congr fun x _ => by simpa using enqueued_iff_transition hevent
  refine ⟨hledger, hcommits, ?_, ?_⟩
  · have hmade : (tr.countP fun x => x.event.transition? = some (id, .reserved)) =
        tr.countP fun x => x.event.made? = some id :=
      List.countP_congr fun x _ => by simpa using made_iff_transition
    have hone := countP_le_one (made_nodup hrun hco) id
    have henqueued := (hcommits .bookingReserved (by simp)).trans hmade
    have hsent := (hledger .bookingReserved).2
    omega
  · have hopened : enqueuedAbout tr (.bookingExpired, id) =
        tr.countP fun x => x.event.expiryOpened? = some id :=
      List.countP_congr fun x _ => by simpa using enqueued_iff_opened
    have hexpiries := expiry_ledger hrun hidle id
    have hone := expired_or_open hrun hidle id
    have hsent := (hledger .bookingExpired).2
    omega

end Run

/-- An expiry that fails at its commit is announced, and nothing is left under way. -/
theorem webhooks_accounted_failed_expiry :
    sentAbout FailedExpiry.steps (.bookingReserved, LateConfirm.booking.id) ≤ 1 ∧
      enqueuedAbout FailedExpiry.steps (.bookingExpired, LateConfirm.booking.id) = 1 := by
  have h := webhooks_accounted FailedExpiry.run FailedExpiry.idle LateConfirm.booking.id
  exact ⟨h.2.2.1, by decide +kernel⟩

end BookingPlatform
