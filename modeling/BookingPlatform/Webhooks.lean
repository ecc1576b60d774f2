import BookingPlatform.Commits
import BookingPlatform.History

/-!
# Booking webhooks

`booking-webhook.service.ts`, `webhook-events.ts` and the calls of
`enqueueBookingWebhook`.  A dispatch is a task of its own: it looks up the
webhook of the tenant, at any later time reads the booking, and at any later time
sends the payload it built.

A creation, a confirmation and a cancellation issue their dispatch when their
transaction has committed.  An expiry issues it inside its transaction, which is
still open, and may still fail, while the dispatch already runs.

## Main definitions

* `Dispatch`, `DispatchTask` — what is enqueued, and how far it has come.
* `DispatchState`, `DispatchStep` — the booking system with its dispatches.
* `WebhooksTruthful`, `ReadsInTime` — the payloads tell the truth, and when.

## Main results

* `read_of_built` — a payload that waits to be sent was built by a read of the
  run.
* `pending_status` — a booking that no commit of the run has written is not yet
  in the status that a dispatch about it names.
* `webhooks_truthful_iff` — the payloads tell the truth exactly when every read
  comes while the transition its event names is the last one committed.
-/

namespace BookingPlatform

open Runs

/-! ### Events and payloads -/

/-- `WebhookEventType` but for `TEST`, which no booking operation sends. -/
inductive WebhookEventType
  | bookingReserved | bookingConfirmed | bookingCancelled | bookingExpired
  deriving DecidableEq, Repr

/-- The name of an event in a payload. -/
def WebhookEventType.value : WebhookEventType → String
  | .bookingReserved => "booking.reserved"
  | .bookingConfirmed => "booking.confirmed"
  | .bookingCancelled => "booking.cancelled"
  | .bookingExpired => "booking.expired"

/-- The status an event names. -/
def WebhookEventType.status : WebhookEventType → BookingStatus
  | .bookingReserved => .reserved
  | .bookingConfirmed => .confirmed
  | .bookingCancelled => .cancelled
  | .bookingExpired => .expired

/-- A row of `tenant_webhooks`. -/
structure TenantWebhook where
  id : Uuid
  tenantId : Uuid
  url : String
  secret : String
  active : Bool
  deriving DecidableEq, Repr

/-- Webhooks by their identifier. -/
instance : Keyed TenantWebhook Uuid := ⟨TenantWebhook.id⟩

/-- The user in a payload. -/
structure WebhookUser where
  id : Uuid
  email : String
  deriving DecidableEq, Repr

/-- The experience in a payload. -/
structure WebhookExperience where
  id : Uuid
  title : String
  deriving DecidableEq, Repr

/-- The slot in a payload. -/
structure WebhookSlot where
  id : Uuid
  startsAt : Instant
  endsAt : Instant
  deriving DecidableEq, Repr

/-- `payload.data`. -/
structure BookingWebhookData where
  bookingRef : String
  status : BookingStatus
  partySize : Int4
  totalPrice : Money
  reservedUntil : Option Instant
  user : WebhookUser
  experience : WebhookExperience
  slot : WebhookSlot
  deriving DecidableEq, Repr

/-- The body of a booking event. -/
structure BookingWebhookPayload where
  event : WebhookEventType
  occurredAt : Instant
  tenantId : Uuid
  data : BookingWebhookData
  deriving DecidableEq, Repr

/-- The arguments of `enqueueBookingWebhook`. -/
structure Dispatch where
  tenantId : Uuid
  event : WebhookEventType
  bookingId : Uuid
  deriving DecidableEq, Repr

/-- The first read of `dispatchBookingWebhook`. -/
def Dispatch.findWebhook (d : Dispatch) (webhooks : Table TenantWebhook) : Option TenantWebhook :=
  webhooks.findFirst fun w => w.tenantId = d.tenantId ∧ w.active = true

/-- The second read of `dispatchBookingWebhook`, and the payload it builds. -/
def Dispatch.buildPayload (d : Dispatch) (db : Database) (now : Instant) :
    Except Failure (Option BookingWebhookPayload) :=
  match db.bookings.findFirst fun b => b.id = d.bookingId ∧ b.tenantId = d.tenantId with
  | none => .ok none
  | some booking => do
    let user ← required (db.users.get? booking.userId)
    let experience ← required (db.experiences.get? booking.experienceId)
    let slot ← required (db.availabilitySlots.get? booking.slotId)
    return some {
      event := d.event
      occurredAt := now
      tenantId := d.tenantId
      data := {
        bookingRef := booking.reference
        status := booking.status
        partySize := booking.partySize
        totalPrice := booking.totalPrice
        reservedUntil := booking.reservedUntil
        user := ⟨user.id, user.email⟩
        experience := ⟨experience.id, experience.title⟩
        slot := ⟨slot.id, slot.startsAt, slot.endsAt⟩ } }

/-- What a call enqueues when its transaction has returned `b`. -/
def Call.dispatch (b : Booking) : Call → Dispatch
  | .create call => ⟨call.tenantId, .bookingReserved, b.id⟩
  | .confirm call => ⟨call.tenantId, .bookingConfirmed, b.id⟩
  | .cancel call => ⟨call.tenantId, .bookingCancelled, b.id⟩

/-- What `expireReservation` enqueues. -/
def StaleBooking.dispatch (booking : StaleBooking) : Dispatch :=
  ⟨booking.tenantId, .bookingExpired, booking.id⟩

/-! ### The system with its dispatches -/

/-- A call of `dispatchBookingWebhook`, between its awaits. -/
inductive DispatchTask
  | notStarted
  | queued (d : Dispatch)
  | registered (d : Dispatch) (webhook : TenantWebhook)
  | built (d : Dispatch) (webhook : TenantWebhook) (payload : BookingWebhookPayload)
  | finished

/-- The dispatch of a task that has not read its booking yet. -/
def DispatchTask.pending : DispatchTask → Option Dispatch
  | .queued d => some d
  | .registered d _ => some d
  | _ => none

/-- The booking system, the registered webhooks, and the dispatches by their
number. -/
structure DispatchState where
  tx : TxState
  webhooks : Table TenantWebhook
  tasks : ℕ → DispatchTask

/-- Nothing has started. -/
structure DispatchState.Idle (s : DispatchState) : Prop where
  tx : s.tx.Idle
  tasks : ∀ n, s.tasks n = .notStarted

/-- A step of the booking system, a change of the registrations, or a step of a dispatch. -/
inductive DispatchEvent
  | tx (e : TxEvent)
  | webhooksChanged
  | found (n : ℕ) (d : Dispatch)
  | read (n : ℕ) (d : Dispatch) (payload : BookingWebhookPayload)
  | ended (n : ℕ)
  | sent (n : ℕ) (d : Dispatch) (payload : BookingWebhookPayload)

/-- The calls of `enqueueBookingWebhook`: of a call when its transaction has
committed, of an expiry at the end of its transaction. -/
def TxState.Enqueues (s : TxState) (e : TxEvent) (d : Dispatch) : Prop :=
  match e with
  | .core (.committed _ call g) => ∃ b db',
    (call.transaction g s.core.now).run s.core.db = .ok (b, db') ∧ d = call.dispatch b
  | .opened _ item => d = item.dispatch
  | _ => False

/-- One step of the system with its dispatches. -/
inductive DispatchStep (ttl : ℕ) : DispatchState → DispatchEvent → DispatchState → Prop
  | tx {s : DispatchState} {e : TxEvent} {t : TxState} :
      TxStep ttl s.tx e t → (∀ d, ¬ s.tx.Enqueues e d) →
      DispatchStep ttl s (.tx e) { s with tx := t }
  | enqueue {s : DispatchState} {e : TxEvent} {t : TxState} {n : ℕ} {d : Dispatch} :
      TxStep ttl s.tx e t → s.tx.Enqueues e d → s.tasks n = .notStarted →
      DispatchStep ttl s (.tx e)
        { s with tx := t, tasks := Function.update s.tasks n (.queued d) }
  -- the registrations change by requests of their own
  | changeWebhooks (s : DispatchState) (webhooks : Table TenantWebhook) :
      DispatchStep ttl s .webhooksChanged { s with webhooks := webhooks }
  | find {s : DispatchState} {n : ℕ} {d : Dispatch} {webhook : TenantWebhook} :
      s.tasks n = .queued d → d.findWebhook s.webhooks = some webhook →
      DispatchStep ttl s (.found n d)
        { s with tasks := Function.update s.tasks n (.registered d webhook) }
  -- the tenant has no active webhook
  | noWebhook {s : DispatchState} {n : ℕ} {d : Dispatch} :
      s.tasks n = .queued d → d.findWebhook s.webhooks = none →
      DispatchStep ttl s (.ended n) { s with tasks := Function.update s.tasks n .finished }
  | read {s : DispatchState} {n : ℕ} {d : Dispatch} {webhook : TenantWebhook}
      {payload : BookingWebhookPayload} :
      s.tasks n = .registered d webhook →
      d.buildPayload s.tx.core.db s.tx.core.now = .ok (some payload) →
      DispatchStep ttl s (.read n d payload)
        { s with tasks := Function.update s.tasks n (.built d webhook payload) }
  -- the booking is gone or one of its relations is, and nothing is sent
  | noBooking {s : DispatchState} {n : ℕ} {d : Dispatch} {webhook : TenantWebhook} :
      s.tasks n = .registered d webhook →
      (∀ payload, d.buildPayload s.tx.core.db s.tx.core.now ≠ .ok (some payload)) →
      DispatchStep ttl s (.ended n) { s with tasks := Function.update s.tasks n .finished }
  | send {s : DispatchState} {n : ℕ} {d : Dispatch} {webhook : TenantWebhook}
      {payload : BookingWebhookPayload} :
      s.tasks n = .built d webhook payload →
      DispatchStep ttl s (.sent n d payload)
        { s with tasks := Function.update s.tasks n .finished }

/-! ### Committed transitions -/

/-- The booking that a step brings into a status, and the status. -/
def Event.transition? : Event → Option (Uuid × BookingStatus)
  | .committed _ (.create _) g => some (g.bookingId, .reserved)
  | e => e.writes?

/-- The booking that a step brings into a status, and the status. -/
def DispatchEvent.transition? : DispatchEvent → Option (Uuid × BookingStatus)
  | .tx (.core e) => e.transition?
  | _ => none

/-- What a sent payload is to tell the truth about, after the steps `before`: the
transition it names has committed, and its data has the status it names. -/
def TellsTruth (before : List (Transition DispatchState DispatchEvent)) (d : Dispatch)
    (payload : BookingWebhookPayload) : Prop :=
  (∃ x ∈ before, x.event.transition? = some (d.bookingId, payload.event.status)) ∧
    payload.data.status = payload.event.status

/-- Every payload that is sent tells the truth. -/
def WebhooksTruthful (tr : List (Transition DispatchState DispatchEvent)) : Prop :=
  ∀ before y after n d payload, tr = before ++ y :: after → y.event = .sent n d payload →
    TellsTruth before d payload

/-- Whenever a dispatch reads its booking and goes on to send, the last commit on
the booking is the transition that the event of the dispatch names. -/
def ReadsInTime (tr : List (Transition DispatchState DispatchEvent)) : Prop :=
  ∀ before x mid y after n d payload, tr = before ++ x :: (mid ++ y :: after) →
    x.event = .read n d payload → y.event = .sent n d payload →
    lastWrite DispatchEvent.transition? before d.bookingId = some d.event.status

theorem transition_of_quiet {e : Event} (h : e.commits = false) : e.transition? = none := by
  cases e <;> first | rfl | simp [Event.commits] at h

theorem statusOf_put {db db' : Database} {b b' : Booking} (hb : db.bookings.get? b.id = some b)
    (hid : b'.id = b.id) (h : db'.bookings = db.bookings.put b') (id : Uuid) :
    db'.statusOf id = if b.id = id then some b'.status else db.statusOf id := by
  unfold Database.statusOf
  rw [h, get?_put_booking b' hb hid]
  by_cases heq : b.id = id
  · rw [if_pos heq, if_pos heq.symm, Option.map_some]
  · rw [if_neg heq, if_neg (Ne.symm heq)]

/-- **A status over one step** is the one that the step writes, if it writes it. -/
theorem statusOf_of_change {e : Event} {now : Instant} {db db' : Database}
    (h : Change e now db db') (id : Uuid) :
    db'.statusOf id = (wrote Event.transition? id e).or (db.statusOf id) := by
  have hput : ∀ (set : Booking → Booking) {b : Booking} {id' : Uuid} {db' : Database},
      db.bookings.get? id' = some b → (set b).id = b.id →
      db'.bookings = db.bookings.put (set b) → e.transition? = some (id', (set b).status) →
      db'.statusOf id = (wrote Event.transition? id e).or (db.statusOf id) := by
    intro set b id' db' hb hid hdb' htransition
    have hkey : b.id = id' := (Table.get?_eq_some.mp hb).2
    rw [statusOf_put (get?_own hb) hid hdb', hkey, wrote, htransition, Option.bind_some]
    split <;> rfl
  cases h with
  | quiet hq => rw [wrote, transition_of_quiet hq]; rfl
  | @create c call g _ _ slot' partySize hfree =>
    have hget := Table.get?_insert hfree id
    simp only [Database.statusOf, hget, wrote, Event.transition?, Option.bind_some]
    have hkey : Keyed.key (call.booking partySize g now) = g.bookingId := rfl
    rw [hkey]
    by_cases hid : id = g.bookingId
    · rw [if_pos hid, if_pos hid.symm]
      rfl
    · rw [if_neg hid, if_neg (Ne.symm hid), Option.none_or]
  | confirm hb => exact hput Booking.confirm hb rfl rfl rfl
  | cancel hb => exact hput Booking.cancel hb rfl rfl rfl
  | expire hb => exact hput Booking.expire hb rfl rfl rfl

/-! ### What a step does -/

theorem coherent_dispatchStep {ttl : ℕ} {s t : DispatchState} {e : DispatchEvent}
    (h : DispatchStep ttl s e t) (hco : Coherent ttl s.tx.core) : Coherent ttl t.tx.core := by
  cases h with
  | tx hstep | enqueue hstep => exact coherent_txStep hstep hco
  | changeWebhooks | find | noWebhook | read | noBooking | send => exact hco

theorem statusOf_of_step {ttl : ℕ} {s t : DispatchState} {e : DispatchEvent}
    (h : DispatchStep ttl s e t) (hco : Coherent ttl s.tx.core) (id : Uuid) :
    t.tx.core.db.statusOf id =
      (wrote DispatchEvent.transition? id e).or (s.tx.core.db.statusOf id) := by
  have htx : ∀ {e : TxEvent} {t : TxState}, TxStep ttl s.tx e t → t.core.db.statusOf id =
      (wrote DispatchEvent.transition? id (.tx e)).or (s.tx.core.db.statusOf id) := by
    intro e t hstep
    rcases (core_of_step hstep hco).2 with ⟨e', rfl, hcore⟩ | ⟨hnone, hdb, -⟩
    · exact statusOf_of_change (change_of_step hcore hco) id
    · have hquiet : DispatchEvent.transition? (.tx e) = none := by
        cases e with
        | core e => exact absurd rfl (hnone e)
        | _ => rfl
      rw [hdb, wrote, hquiet]
      rfl
  cases h with
  | tx hstep | enqueue hstep => exact htx hstep
  | changeWebhooks | find | noWebhook | read | noBooking | send => rfl

/-- **The status of a booking, at any point of a run**, is the last one that a
commit of the run brought it into, or the one it had at the start. -/
theorem statusOf_dispatch_run {ttl : ℕ} {s t : DispatchState}
    {tr : List (Transition DispatchState DispatchEvent)} (hrun : Run (DispatchStep ttl) s tr t)
    (hco : Coherent ttl s.tx.core) (id : Uuid) : t.tx.core.db.statusOf id =
      (lastWrite DispatchEvent.transition? tr id).or (s.tx.core.db.statusOf id) :=
  hrun.read_eq (I := fun s => Coherent ttl s.tx.core) (c := fun s => s.tx.core.db.statusOf id)
    (fun _ _ _ => coherent_dispatchStep) (fun _ _ _ hstep hco => statusOf_of_step hstep hco id) hco

/-- A call enqueues the event of the transition it has committed. -/
theorem transition_of_commit {c : ℕ} {call : Call} {g : Generated} {now : Instant}
    {db db' : Database} {b : Booking} (h : (call.transaction g now).run db = .ok (b, db')) :
    (Event.committed c call g).transition? =
      some ((call.dispatch b).bookingId, (call.dispatch b).event.status) := by
  cases call with
  | create call =>
    obtain ⟨slot, slot', partySize, hfree, -, -, -, -, -, -, -, -, rfl, -⟩ :=
      createReservationTransaction_ok.mp h
    rfl
  | confirm call =>
    obtain ⟨x, hx, rfl, -⟩ := confirmReservationTransaction_ok.mp h
    have hid : call.booking.id = x.id := (Table.get?_eq_some.mp hx).2.symm
    simp [Event.transition?, Event.writes?, Call.dispatch, WebhookEventType.status, hid,
      Booking.confirm]
  | cancel call =>
    obtain ⟨x, slot, slot', hx, -, -, -, -, -, rfl, -⟩ := cancelReservationTransaction_ok.mp h
    have hid : call.booking.id = x.id := (Table.get?_eq_some.mp hx).2.symm
    simp [Event.transition?, Event.writes?, Call.dispatch, WebhookEventType.status, hid,
      Booking.cancel]

/-- **Why a dispatch is enqueued**: the transition its event names commits in this
step, or it is an expiry's, whose booking is reserved and for now stays so. -/
theorem transition_of_enqueues {ttl : ℕ} {s t : TxState} {e : TxEvent} {d : Dispatch}
    (h : TxStep ttl s e t) (henqueues : s.Enqueues e d) :
    DispatchEvent.transition? (.tx e) = some (d.bookingId, d.event.status) ∨
      (d.event = .bookingExpired ∧ s.core.db.statusOf d.bookingId = some .reserved) := by
  unfold TxState.Enqueues at henqueues
  split at henqueues
  · next c call g =>
    obtain ⟨b, db', hrun, rfl⟩ := henqueues
    exact Or.inl (transition_of_commit hrun)
  · next w item =>
    subst henqueues
    obtain ⟨b, hb, hst⟩ := reserved_of_opened h
    exact Or.inr ⟨rfl, by rw [← hst]; exact Database.statusOf_eq hb⟩
  · exact henqueues.elim

/-- **Everything a step can do to a dispatch.** -/
theorem task_of_step {ttl : ℕ} {s t : DispatchState} {e : DispatchEvent}
    (h : DispatchStep ttl s e t) (n : ℕ) :
    t.tasks n = s.tasks n ∨ t.tasks n = .finished ∨
      (∃ d e' u, t.tasks n = .queued d ∧ e = .tx e' ∧ TxStep ttl s.tx e' u ∧ s.tx.Enqueues e' d) ∨
      (∃ d webhook, s.tasks n = .queued d ∧ t.tasks n = .registered d webhook) ∨
      ∃ d webhook payload, t.tasks n = .built d webhook payload ∧ e = .read n d payload := by
  -- the other tasks keep their state
  have hupdate : ∀ {m : ℕ} {task : DispatchTask}, n ≠ m →
      Function.update s.tasks m task n = s.tasks n := fun hne => Function.update_of_ne hne _ _
  cases h with
  | tx | changeWebhooks => exact Or.inl rfl
  | @enqueue e' u m d hstep henqueues hm =>
    by_cases hnm : n = m
    · subst hnm
      exact Or.inr (Or.inr (Or.inl
        ⟨d, e', u, Function.update_self _ _ _, rfl, hstep, henqueues⟩))
    · exact Or.inl (hupdate hnm)
  | @find m d webhook hm hfound =>
    by_cases hnm : n = m
    · subst hnm
      exact Or.inr (Or.inr (Or.inr (Or.inl ⟨d, webhook, hm, Function.update_self _ _ _⟩)))
    · exact Or.inl (hupdate hnm)
  | @read m d webhook payload hm hbuild =>
    by_cases hnm : n = m
    · subst hnm
      exact Or.inr (Or.inr (Or.inr (Or.inr ⟨d, webhook, payload, Function.update_self _ _ _, rfl⟩)))
    · exact Or.inl (hupdate hnm)
  | @noWebhook m | @noBooking m | @send m =>
    by_cases hnm : n = m
    · subst hnm
      exact Or.inr (Or.inl (Function.update_self _ _ _))
    · exact Or.inl (hupdate hnm)

/-! ### What a payload was built from -/

/-- What a dispatch reads: the row of its booking, under its own event. -/
theorem payload_of_build {d : Dispatch} {db : Database} {now : Instant}
    {payload : BookingWebhookPayload} (h : d.buildPayload db now = .ok (some payload)) :
    payload.event = d.event ∧ db.statusOf d.bookingId = some payload.data.status := by
  unfold Dispatch.buildPayload at h
  cases hfirst : db.bookings.findFirst fun b => b.id = d.bookingId ∧ b.tenantId = d.tenantId with
  | none =>
    simp only [hfirst] at h
    cases h
  | some b =>
    simp only [hfirst, Except.bind_eq_ok] at h
    obtain ⟨user, -, experience, -, slot, -, heq⟩ := h
    obtain rfl := Option.some.inj (Except.ok.inj heq)
    obtain ⟨hmem, hb⟩ := Table.mem_of_findFirst hfirst
    have hid : b.id = d.bookingId := (of_decide_eq_true hb).1
    exact ⟨rfl, hid ▸ Database.statusOf_eq (Table.get?_key hmem)⟩

theorem read_of_step {ttl : ℕ} {s t : DispatchState} {n : ℕ} {d : Dispatch}
    {payload : BookingWebhookPayload} (h : DispatchStep ttl s (.read n d payload) t) :
    (s.tasks n).pending = some d ∧
      d.buildPayload s.tx.core.db s.tx.core.now = .ok (some payload) := by
  cases h with
  | read htask hbuild =>
    rw [htask]
    exact ⟨rfl, hbuild⟩

theorem built_of_send {ttl : ℕ} {s t : DispatchState} {n : ℕ} {d : Dispatch}
    {payload : BookingWebhookPayload} (h : DispatchStep ttl s (.sent n d payload) t) :
    ∃ webhook, s.tasks n = .built d webhook payload := by
  cases h with
  | send htask => exact ⟨_, htask⟩

/-- A dispatch that begins to wait for its booking is enqueued by the step. -/
theorem enqueues_of_step {ttl : ℕ} {s t : DispatchState} {e : DispatchEvent}
    (h : DispatchStep ttl s e t) {n : ℕ} {d : Dispatch} (hs : (s.tasks n).pending ≠ some d)
    (ht : (t.tasks n).pending = some d) :
    ∃ e' u, e = .tx e' ∧ TxStep ttl s.tx e' u ∧ s.tx.Enqueues e' d := by
  rcases task_of_step h n with heq | heq | ⟨d', e', u, heq, he, hstep, henqueues⟩ |
    ⟨d', webhook, hqueued, heq⟩ | ⟨d', webhook, payload, heq, -⟩ <;> rw [heq] at ht
  · exact absurd ht hs
  · cases ht
  · obtain rfl := Option.some.inj ht
    exact ⟨e', u, he, hstep, henqueues⟩
  · rw [hqueued] at hs
    exact absurd ht hs
  · cases ht

/-- **A payload that waits to be sent was built by a read of the run.** -/
theorem read_of_built {ttl : ℕ} {s t : DispatchState}
    {tr : List (Transition DispatchState DispatchEvent)} (hrun : Run (DispatchStep ttl) s tr t)
    (hidle : s.Idle) {n : ℕ} {d : Dispatch} {webhook : TenantWebhook}
    {payload : BookingWebhookPayload} (ht : t.tasks n = .built d webhook payload) :
    ∃ l x l', tr = l ++ x :: l' ∧ x.event = .read n d payload := by
  obtain ⟨l, x, l', rfl, hpre, hpost⟩ := hrun.origin
    (P := fun s => s.tasks n = .built d webhook payload) (by simp [hidle.tasks n]) ht
  refine ⟨l, x, l', rfl, ?_⟩
  rcases task_of_step hrun.cut.2.1 n with heq | heq | ⟨d', e', u, heq, -⟩ |
    ⟨d', webhook', -, heq⟩ | ⟨d', webhook', payload', heq, hread⟩ <;> rw [hpost] at heq
  · exact absurd heq.symm hpre
  · cases heq
  · cases heq
  · cases heq
  · cases heq
    exact hread

/-- **A booking that no commit of the run has written is not yet in the status
that a waiting dispatch names.** The other three events are enqueued by the commit
they name, and an expiry finds its booking reserved. -/
theorem pending_status {ttl : ℕ} {s t : DispatchState}
    {tr : List (Transition DispatchState DispatchEvent)} (hrun : Run (DispatchStep ttl) s tr t)
    (hidle : s.Idle) {n : ℕ} {d : Dispatch} (ht : (t.tasks n).pending = some d)
    (hnone : lastWrite DispatchEvent.transition? tr d.bookingId = none) :
    t.tx.core.db.statusOf d.bookingId ≠ some d.event.status := by
  obtain ⟨l, x, l', rfl, hpre, hpost⟩ := hrun.origin
    (P := fun s => (s.tasks n).pending = some d) (by simp [hidle.tasks n, DispatchTask.pending]) ht
  have hfree := lastWrite_eq_none.mp hnone
  obtain ⟨hbefore, hx, hafter⟩ := hrun.cut
  obtain ⟨e', u, hevent, hstep, henqueues⟩ := enqueues_of_step hx hpre hpost
  rcases transition_of_enqueues hstep henqueues with hwritten | ⟨hexpired, hreserved⟩
  · rw [← hevent] at hwritten
    exact absurd hwritten (wrote_eq_none.mp (hfree x (by simp)) d.event.status)
  -- it was reserved when the expiry was opened, and nothing has written it since
  · have hco : Coherent ttl x.pre.tx.core := hbefore.invariant
      (I := fun s => Coherent ttl s.tx.core) (fun _ _ _ => coherent_dispatchStep)
      hidle.tx.core.coherent
    have hstart := statusOf_of_step hx hco d.bookingId
    rw [hfree x (by simp), hreserved] at hstart
    have hlater := statusOf_dispatch_run hafter (coherent_dispatchStep hx hco) d.bookingId
    rw [lastWrite_eq_none.mpr fun z hz => hfree z (by simp [hz]), hstart] at hlater
    rw [hlater, hexpired]
    simp [WebhookEventType.status]

/-! ### When the payloads tell the truth -/

/-- **When the payloads tell the truth.** In a run, every payload sent names a
transition that has committed, and has the status it names, exactly when every
dispatch that goes on to send reads its booking while the last commit on it is the
transition its event names. -/
theorem webhooks_truthful_iff {ttl : ℕ} {s t : DispatchState}
    {tr : List (Transition DispatchState DispatchEvent)} (hrun : Run (DispatchStep ttl) s tr t)
    (hidle : s.Idle) : WebhooksTruthful tr ↔ ReadsInTime tr := by
  constructor
  · rintro htrue before x mid y after n d payload rfl hread hsent
    obtain ⟨hbefore, hx, -⟩ := hrun.cut
    obtain ⟨-, hstatus⟩ := htrue (before ++ x :: mid) y after n d payload (by simp) hsent
    rw [hread] at hx
    obtain ⟨hpending, hbuild⟩ := read_of_step hx
    obtain ⟨hevent, hrow⟩ := payload_of_build hbuild
    rw [hstatus, hevent] at hrow
    have hlast := statusOf_dispatch_run hbefore hidle.tx.core.coherent d.bookingId
    cases hwrite : lastWrite DispatchEvent.transition? before d.bookingId with
    -- with no commit on the booking so far, its status is not the one named
    | none => exact absurd hrow (pending_status hbefore hidle hpending hwrite)
    | some status =>
      rw [hwrite, hrow] at hlast
      exact hlast.symm
  · rintro hintime before y after n d payload rfl hsent
    obtain ⟨hbefore, hy, -⟩ := hrun.cut
    rw [hsent] at hy
    obtain ⟨webhook, hbuilt⟩ := built_of_send hy
    obtain ⟨l, x, mid, rfl, hread⟩ := read_of_built hbefore hidle hbuilt
    have hwrite := hintime l x mid y after n d payload (by simp) hread hsent
    obtain ⟨hpre, hx, -⟩ := hbefore.cut
    rw [hread] at hx
    obtain ⟨hevent, hrow⟩ := payload_of_build (read_of_step hx).2
    rw [statusOf_dispatch_run hpre hidle.tx.core.coherent, hwrite] at hrow
    -- the last commit on the booking is the transition, and gives the row its status
    obtain ⟨z, hz, htransition⟩ := exists_of_lastWrite hwrite
    refine ⟨⟨z, by simp [hz], ?_⟩, ?_⟩
    · rw [htransition, hevent]
    · rw [hevent]
      exact (Option.some.inj hrow).symm

/-! ### An expiry that is announced and does not happen

The hold of a booking has run out.  An expiry run claims the booking and enqueues
its dispatch, the dispatch reads the booking, which is still reserved for everyone
but the open transaction, and then that transaction fails. -/

namespace FailedExpiry

open LateConfirm

/-- The user of the booking. -/
def user : User := ⟨uuid 2, uuid 1, "guest@tenant", "", .viewer, true⟩

/-- The webhook of the tenant. -/
def webhook : TenantWebhook := ⟨uuid 6, uuid 1, "hook", "whsec", true⟩

/-- The booking is reserved. -/
def database : Database := { reserved with users := ⟨[user], by decide⟩ }

/-- What the dispatch builds while the booking is still reserved. -/
def payload : BookingWebhookPayload where
  event := .bookingExpired
  occurredAt := 900001
  tenantId := uuid 1
  data := {
    bookingRef := "BK-0000002A"
    status := .reserved
    partySize := booking.partySize
    totalPrice := booking.totalPrice
    reservedUntil := some 900000
    user := ⟨uuid 2, "guest@tenant"⟩
    experience := ⟨uuid 4, "City walk"⟩
    slot := ⟨uuid 5, 86400000, 90000000⟩ }

/-- The hold has run out. -/
def s₀ : DispatchState where
  tx := ⟨.start database 900001, fun _ => none⟩
  webhooks := ⟨[webhook], by decide⟩
  tasks := fun _ => .notStarted

/-- The worker has these bookings left. -/
def running (batch : List StaleBooking) : State :=
  { s₀.tx.core with workers := Function.update s₀.tx.core.workers 0 (.running batch 0) }

/-- The worker has listed the booking. -/
def s₁ : DispatchState := { s₀ with tx := { s₀.tx with core := running [booking.stale] } }

/-- The expiry is open, and its dispatch enqueued. -/
def s₂ : DispatchState :=
  { s₁ with
    tx := { s₁.tx with opened := Function.update s₁.tx.opened 0 (some booking.stale) }
    tasks := Function.update s₁.tasks 0 (.queued booking.stale.dispatch) }

/-- The dispatch has found the webhook. -/
def s₃ : DispatchState :=
  { s₂ with tasks := Function.update s₂.tasks 0 (.registered booking.stale.dispatch webhook) }

/-- The dispatch has read the booking. -/
def s₄ : DispatchState :=
  { s₃ with tasks := Function.update s₃.tasks 0 (.built booking.stale.dispatch webhook payload) }

/-- The transaction has failed. -/
def s₅ : DispatchState :=
  { s₄ with
    tx := {
      core := { s₄.tx.core with workers := Function.update s₄.tx.core.workers 0 (.running [] 0) }
      opened := Function.update s₄.tx.opened 0 none } }

/-- The payload is sent. -/
def s₆ : DispatchState := { s₅ with tasks := Function.update s₅.tasks 0 .finished }

theorem listed : DispatchStep 900 s₀ (.tx (.core (.listed 0 [booking.stale]))) s₁ := by
  have h := @Step.list 900 s₀.tx.core 0 {} rfl
  rw [show findStaleBookings {} s₀.tx.core.db s₀.tx.core.now = [booking.stale]
    from findStale_eq] at h
  exact .tx (.quiet h rfl fun _ _ => rfl) (fun _ h => h)

theorem claimed : ∃ db', (expireReservation booking.stale (drawn 3) 900001).run database =
    .ok (true, db') :=
  ⟨_, Transaction.run_eq_after (by decide +kernel)⟩

theorem opened : DispatchStep 900 s₁ (.tx (.opened 0 booking.stale)) s₂ := by
  obtain ⟨db', h⟩ := claimed
  exact .enqueue (.open_ rfl rfl (by decide +kernel) h (fun w item hw => by cases hw)) rfl rfl

theorem read : DispatchStep 900 s₃ (.read 0 booking.stale.dispatch payload) s₄ :=
  .read rfl (by decide +kernel)

/-- The steps of the schedule. -/
def steps : List (Transition DispatchState DispatchEvent) :=
  [⟨s₀, .tx (.core (.listed 0 [booking.stale])), s₁⟩, ⟨s₁, .tx (.opened 0 booking.stale), s₂⟩,
    ⟨s₂, .found 0 booking.stale.dispatch, s₃⟩, ⟨s₃, .read 0 booking.stale.dispatch payload, s₄⟩,
    ⟨s₄, .tx (.expiryFailed 0 booking.stale), s₅⟩,
    ⟨s₅, .sent 0 booking.stale.dispatch payload, s₆⟩]

theorem run : Run (DispatchStep 900) s₀ steps s₆ := by
  have hfound : DispatchStep 900 s₂ (.found 0 booking.stale.dispatch) s₃ := .find rfl rfl
  have hfailed : DispatchStep 900 s₄ (.tx (.expiryFailed 0 booking.stale)) s₅ :=
    .tx (.expireFails rfl rfl) (fun _ h => h)
  have hsent : DispatchStep 900 s₅ (.sent 0 booking.stale.dispatch payload) s₆ := .send rfl
  exact ((((((Run.nil s₀).snoc listed).snoc opened).snoc hfound).snoc read).snoc hfailed).snoc hsent

theorem idle : s₀.Idle := ⟨⟨State.idle_start _ _, fun _ => rfl⟩, fun _ => rfl⟩

theorem not_truthful : ¬ WebhooksTruthful steps := by
  intro h
  have hstatus := (h (steps.take 5) _ [] 0 _ payload rfl rfl).2
  cases hstatus

end FailedExpiry

/-- **The payloads do not always tell the truth**: a `booking.expired` with status
`RESERVED` is sent for an expiry that does not commit. -/
theorem webhooks_not_always_truthful : ∃ (ttl : ℕ) (s t : DispatchState)
    (tr : List (Transition DispatchState DispatchEvent)), Run (DispatchStep ttl) s tr t ∧ s.Idle ∧
      ¬ WebhooksTruthful tr :=
  ⟨900, _, _, _, FailedExpiry.run, FailedExpiry.idle, FailedExpiry.not_truthful⟩

/-! ### An expiry that is announced and happens -/

namespace AnnouncedExpiry

open LateConfirm (booking drawn)
open FailedExpiry

/-- The booking has expired. -/
def expiredDatabase : Database :=
  (expireReservation booking.stale (drawn 3) 900001).after FailedExpiry.database

theorem expire_ok : (expireReservation booking.stale (drawn 3) 900001).run FailedExpiry.database =
    .ok (true, expiredDatabase) :=
  Transaction.run_eq_after (by decide +kernel)

/-- What the dispatch builds after the commit. -/
def payload : BookingWebhookPayload :=
  { FailedExpiry.payload with
    data := { FailedExpiry.payload.data with status := .expired, reservedUntil := none } }

/-- The transaction commits before the dispatch reads. -/
def t₄ : DispatchState :=
  { s₃ with
    tx := {
      core := { s₃.tx.core with
        db := expiredDatabase
        workers := Function.update s₃.tx.core.workers 0 (.running [] 1) }
      opened := Function.update s₃.tx.opened 0 none } }

/-- The dispatch has read the booking. -/
def t₅ : DispatchState :=
  { t₄ with tasks := Function.update t₄.tasks 0 (.built booking.stale.dispatch webhook payload) }

/-- The payload is sent. -/
def t₆ : DispatchState := { t₅ with tasks := Function.update t₅.tasks 0 .finished }

/-- The schedule with the commit before the read. -/
def steps : List (Transition DispatchState DispatchEvent) :=
  [⟨s₀, .tx (.core (.listed 0 [booking.stale])), s₁⟩, ⟨s₁, .tx (.opened 0 booking.stale), s₂⟩,
    ⟨s₂, .found 0 booking.stale.dispatch, s₃⟩,
    ⟨s₃, .tx (.core (.expired 0 booking.stale)), t₄⟩,
    ⟨t₄, .read 0 booking.stale.dispatch payload, t₅⟩,
    ⟨t₅, .sent 0 booking.stale.dispatch payload, t₆⟩]

theorem run : Run (DispatchStep 900) s₀ steps t₆ := by
  have hfound : DispatchStep 900 s₂ (.found 0 booking.stale.dispatch) s₃ := .find rfl rfl
  have hexpired : DispatchStep 900 s₃ (.tx (.core (.expired 0 booking.stale))) t₄ :=
    .tx (.expire rfl (.expire rfl (by decide +kernel) expire_ok)) (fun _ h => h)
  have hread : DispatchStep 900 t₄ (.read 0 booking.stale.dispatch payload) t₅ :=
    .read rfl (by decide +kernel)
  have hsent : DispatchStep 900 t₅ (.sent 0 booking.stale.dispatch payload) t₆ := .send rfl
  exact ((((((Run.nil s₀).snoc listed).snoc opened).snoc hfound).snoc hexpired).snoc hread).snoc
    hsent

theorem readsInTime : ReadsInTime steps := by
  rintro before x mid y after n d payload hsplit hx -
  have hat : steps[before.length]? = some x := by simp [hsplit]
  have hbefore : before = steps.take before.length := by simp [hsplit]
  generalize before.length = i at hat hbefore
  subst hbefore
  obtain ⟨hi, -⟩ := List.getElem?_eq_some_iff.mp hat
  replace hi : i < 6 := hi
  interval_cases i <;> obtain rfl := Option.some.inj hat <;> cases hx
  decide +kernel

end AnnouncedExpiry

/-- When the expiry commits before the dispatch reads its booking, the payload tells the
truth; when the dispatch reads before an expiry that fails, it reads too early. -/
theorem webhooks_truthful_iff_expiry :
    WebhooksTruthful AnnouncedExpiry.steps ∧ ¬ ReadsInTime FailedExpiry.steps := by
  refine ⟨(webhooks_truthful_iff AnnouncedExpiry.run FailedExpiry.idle).mpr
    AnnouncedExpiry.readsInTime, fun h => FailedExpiry.not_truthful ?_⟩
  exact (webhooks_truthful_iff FailedExpiry.run FailedExpiry.idle).mpr h

end BookingPlatform
