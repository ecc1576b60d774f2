import BookingPlatform.Capacity

/-!
# The life of a booking

A booking's status is checked when a call looks it up and written when its
transaction commits.  A cancellation is protected by the version of the slot and
an expiry by its own condition on the status; a confirmation by neither.

## Main definitions

* `LegalWrite`, `LegalChange` — a status follows the one that was there.
* `releasedIn`, `expiredIn` — the bookings that a run releases or expires.
* `HistorySound` — a booking has one `EXPIRED` history row at most.

## Main results

* `status_writes_legal_iff` — the writes of a run are all legal exactly when its
  confirmations find their bookings reserved.
* `released_once` — without confirmations, cancellation and expiry release a
  booking's places once between them.
* `expired_once` — whatever races, a booking expires at most once, and what the
  expiry runs return is what they committed.
-/

namespace BookingPlatform

open Runs

/-! ### Status writes -/

/-- The booking whose status a step writes over, and the new status. -/
def Event.writes? : Event → Option (Uuid × BookingStatus)
  | .committed _ (.confirm call) _ => some (call.booking.id, .confirmed)
  | .committed _ (.cancel call) _ => some (call.booking.id, .cancelled)
  | .expired _ item => some (item.id, .expired)
  | _ => none

/-- A step writes a status only over one that it differs from and that the state
machine lets it follow. -/
def LegalWrite (e : Event) (db : Database) : Prop :=
  ∀ id status, e.writes? = some (id, status) → ∃ b, db.bookings.get? id = some b ∧
    status ≠ b.status ∧ status ∈ allowedTransitions b.status

/-- Statuses that differ between two databases differ by an allowed transition. -/
def LegalChange (db db' : Database) : Prop :=
  ∀ id b b', db.bookings.get? id = some b → db'.bookings.get? id = some b' →
    b'.status ≠ b.status → b'.status ∈ allowedTransitions b.status

theorem writes_of_quiet {e : Event} (h : e.commits = false) : e.writes? = none := by
  cases e <;> first | rfl | simp [Event.commits] at h

/-- **A step writes a legal status exactly when it does not confirm a booking
that is no longer reserved.** -/
theorem legalWrite_iff {e : Event} {now : Instant} {db db' : Database}
    (h : Change e now db db') :
    LegalWrite e db ↔ e.ConfirmsOn (fun st => st = .reserved) db := by
  cases h with
  | @quiet e _ _ hq =>
    refine iff_of_true ?_ ?_
    · intro id status hw
      simp [writes_of_quiet hq] at hw
    · cases e <;> trivial
  | create =>
    refine iff_of_true ?_ trivial
    intro id status hw
    simp [Event.writes?] at hw
  | @confirm c call g _ _ b hb =>
    constructor
    · intro hlegal
      obtain ⟨b, hb, -, hmem⟩ := hlegal _ _ rfl
      exact ⟨b, hb, confirmed_mem_allowedTransitions.mp hmem⟩
    · rintro ⟨b, hb, hst⟩ id status hw
      obtain ⟨rfl, rfl⟩ := Prod.mk.inj (Option.some.inj hw)
      exact ⟨b, hb, by simp [hst], confirmed_mem_allowedTransitions.mpr hst⟩
  | @cancel c call g _ _ b slot slot' hb hsame hact =>
    refine iff_of_true ?_ trivial
    intro id status hw
    obtain ⟨rfl, rfl⟩ := Prod.mk.inj (Option.some.inj hw)
    refine ⟨b, hb, ?_, isActive_iff.mp hact⟩
    rintro heq
    simp [← heq] at hact
  | @expire w g _ _ b slot slot' hb hover =>
    refine iff_of_true ?_ trivial
    intro id status hw
    obtain ⟨rfl, rfl⟩ := Prod.mk.inj (Option.some.inj hw)
    have hst := overdue_status hover
    exact ⟨b, hb, by simp [hst], by simp [hst, allowedTransitions]⟩

/-- A step that leaves a row's status different is a write over that row. -/
theorem writes_of_rewrite {e : Event} {b : Booking} (h : (e.rewrite b).status ≠ b.status) :
    e.writes? = some (b.id, (e.rewrite b).status) := by
  unfold Event.rewrite at h ⊢
  split at h <;> (try split at h) <;> first | exact absurd rfl h | skip
  all_goals
    next heq => simp [heq, Event.writes?, Booking.confirm, Booking.cancel, Booking.expire]

/-- **Statuses change legally over a step exactly when it does not confirm a
booking that is no longer active.** -/
theorem legalChange_iff {e : Event} {now : Instant} {db db' : Database}
    (h : Change e now db db') :
    LegalChange db db' ↔ e.ConfirmsOn (fun st => st.isActive = true) db := by
  constructor
  · intro hlegal
    refine confirmsOn_of_change h ?_
    rintro c call g b rfl hb hsame
    have hrow := booking_of_change h hb
    have hid : call.booking.id = b.id := hsame.id_eq.symm
    simp only [Event.rewrite, hid, if_true] at hrow
    by_cases hconf : b.status = .confirmed
    · simp [hconf]
    · have hallowed := hlegal _ _ _ hb (hid ▸ hrow) (Ne.symm hconf)
      rw [confirmed_mem_allowedTransitions.mp hallowed]
      rfl
  · intro hconf id b b' hb hb' hne
    rw [booking_of_change h hb] at hb'
    obtain rfl := Option.some.inj hb'
    have hid : b.id = id := (Table.get?_eq_some.mp hb).2
    have hwrite := writes_of_rewrite hne
    cases h with
    | quiet hq => simp [writes_of_quiet hq] at hwrite
    | create => simp [Event.writes?] at hwrite
    | @confirm c call g _ _ b₁ hb₁ =>
      obtain ⟨hid', hst⟩ := Prod.mk.inj (Option.some.inj hwrite)
      obtain ⟨b₂, hb₂, hact⟩ := hconf
      rw [hid', hid] at hb₂
      obtain rfl : b = b₂ := Option.some.inj (hb.symm.trans hb₂)
      rw [← hst] at hne ⊢
      -- active and not yet confirmed
      cases hb : b.status <;> simp_all [allowedTransitions]
    | @cancel c call g _ _ b₁ slot slot' hb₁ hsame hact =>
      obtain ⟨hid', hst⟩ := Prod.mk.inj (Option.some.inj hwrite)
      rw [hid', hid] at hb₁
      obtain rfl : b = b₁ := Option.some.inj (hb.symm.trans hb₁)
      rw [← hst]
      exact isActive_iff.mp hact
    | @expire w g _ _ b₁ slot slot' hb₁ hover =>
      obtain ⟨hid', hst⟩ := Prod.mk.inj (Option.some.inj hwrite)
      rw [show b₁.id = b.id from hid', hid] at hb₁
      obtain rfl : b = b₁ := Option.some.inj (hb.symm.trans hb₁)
      rw [← hst, overdue_status hover]
      simp [allowedTransitions]

/-- A cancelled or expired booking keeps its status over a legal step. -/
theorem inactive_of_change {e : Event} {now : Instant} {db db' : Database}
    (h : Change e now db db') (hconf : e.ConfirmsOn (fun st => st.isActive = true) db) {id : Uuid}
    {b : Booking} (hb : db.bookings.get? id = some b) (hin : b.status.isActive = false) :
    ∃ b', db'.bookings.get? id = some b' ∧ b'.status = b.status := by
  refine ⟨_, booking_of_change h hb, ?_⟩
  by_contra hne
  have hallowed := (legalChange_iff h).mpr hconf id b _ hb (booking_of_change h hb) hne
  cases hst : b.status <;> simp_all [allowedTransitions]

/-- A cancelled or expired booking keeps its status along a run of legal steps. -/
theorem inactive_run {ttl : ℕ} {s t : State} {tr : List (Transition State Event)}
    (hrun : Run (Step ttl) s tr t) (hs : Coherent ttl s)
    (hconf : ∀ x ∈ tr, x.event.ConfirmsOn (fun st => st.isActive = true) x.pre.db) {id : Uuid}
    {b : Booking} (hb : s.db.bookings.get? id = some b) (hin : b.status.isActive = false) :
    ∃ b', t.db.bookings.get? id = some b' ∧ b'.status = b.status := by
  refine (hrun.invariant_of (I := fun s => Coherent ttl s ∧
    ∃ b', s.db.bookings.get? id = some b' ∧ b'.status = b.status)
    (C := fun x => x.event.ConfirmsOn (fun st => st.isActive = true) x.pre.db) ?_ hconf
    ⟨hs, b, hb, rfl⟩).2
  rintro s e t hok hstep ⟨hco, b₁, hb₁, hst₁⟩
  obtain ⟨b₂, hb₂, hst₂⟩ :=
    inactive_of_change (change_of_step hstep hco) hok hb₁ (by rw [hst₁]; exact hin)
  exact ⟨coherent_step hstep hco, b₂, hb₂, hst₂.trans hst₁⟩

/-- **The lifecycle along a run.** Every status write is legal exactly when every
confirmation finds its booking `RESERVED`; every change of a status is legal
exactly when every confirmation finds its booking active; and then `CANCELLED`
and `EXPIRED` last. -/
theorem status_writes_legal_iff {ttl : ℕ} {s m t : State}
    {tr tr' : List (Transition State Event)} (hrun : Run (Step ttl) s tr m)
    (hrun' : Run (Step ttl) m tr' t) (hidle : s.Idle) :
    ((∀ x ∈ tr ++ tr', LegalWrite x.event x.pre.db) ↔
      ∀ x ∈ tr ++ tr', x.event.ConfirmsOn (fun st => st = .reserved) x.pre.db) ∧
    ((∀ x ∈ tr ++ tr', LegalChange x.pre.db x.post.db) ↔
      ∀ x ∈ tr ++ tr', x.event.ConfirmsOn (fun st => st.isActive = true) x.pre.db) ∧
    ((∀ x ∈ tr ++ tr', x.event.ConfirmsOn (fun st => st.isActive = true) x.pre.db) →
      ∀ id b, m.db.bookings.get? id = some b → b.status.isActive = false →
        ∃ b', t.db.bookings.get? id = some b' ∧ b'.status = b.status) := by
  have hall := hrun.append hrun'
  have hchange := fun x hx => change_of_mem hall hidle.coherent (x := x) hx
  refine ⟨?_, ?_, ?_⟩
  · exact forall₂_congr fun x hx => legalWrite_iff (hchange x hx)
  · exact forall₂_congr fun x hx => legalChange_iff (hchange x hx)
  · intro hconf id b hb hin
    exact inactive_run hrun' (coherent_run hrun hidle.coherent)
      (fun x hx => hconf x (List.mem_append_right _ hx)) hb hin

/-- **Not every status write is legal**: a late confirmation writes over
`CANCELLED`. -/
theorem status_writes_not_always_legal : ¬ ∀ (ttl : ℕ) (s t : State)
    (tr : List (Transition State Event)), Run (Step ttl) s tr t → s.Idle →
    ∀ x ∈ tr, LegalWrite x.event x.pre.db := by
  intro h
  have hlast := h 900 _ _ _ LateConfirm.run LateConfirm.idle _
    (List.mem_append_right (LateConfirm.steps.take 5) (List.mem_singleton_self _))
  obtain ⟨b, hb, -, hmem⟩ := hlast LateConfirm.booking.id .confirmed rfl
  have hrow : (LateConfirm.cancelled.bookings.get? LateConfirm.booking.id).map Booking.status
      = some .cancelled := by decide +kernel
  rw [show LateConfirm.cancelled.bookings.get? LateConfirm.booking.id = some b from hb] at hrow
  rw [Option.some.inj hrow] at hmem
  simp [allowedTransitions] at hmem

/-! The same booking, confirmed in time and cancelled afterwards. -/

namespace TimelyConfirm

open LateConfirm Transaction

/-- After the confirmation. -/
def confirmed : Database := (confirmReservationTransaction confirmCall (drawn 1) 0).after reserved

/-- The lookup of the cancellation finds the booking confirmed. -/
def cancelCall : CancelCall := { LateConfirm.cancelCall with booking := booking.confirm }

/-- After the cancellation. -/
def cancelled : Database := (cancelReservationTransaction cancelCall (drawn 2) 0).after confirmed

theorem confirmReservation_ok :
    (confirmReservationTransaction confirmCall (drawn 1) 0).run reserved
      = .ok (booking.confirm, confirmed) :=
  run_eq_after (by decide +kernel)

theorem cancelLookup_ok :
    cancelReservationLookup (uuid 1) (uuid 2) "BK-0000002A" "changed plans" confirmed
      = .ok cancelCall := by
  decide +kernel

theorem cancelReservation_ok :
    (cancelReservationTransaction cancelCall (drawn 2) 0).run confirmed
      = .ok (booking.confirm.cancel, cancelled) :=
  run_eq_after (by decide +kernel)

/-- The booking is confirmed. -/
def c₄ : State := { s₃ with db := confirmed, calls := Function.update s₃.calls 1 .finished }

/-- The cancellation has looked up. -/
def c₅ : State := { c₄ with calls := Function.update c₄.calls 2 (.waiting (.cancel cancelCall)) }

/-- The booking is cancelled. -/
def c₆ : State := { c₅ with db := cancelled, calls := Function.update c₅.calls 2 .finished }

/-- A little later. -/
def c₇ : State := { c₆ with now := 5 }

/-- The schedule up to the cancellation. -/
def steps : List (Transition State Event) :=
  LateConfirm.steps.take 3 ++ [⟨s₃, .committed 1 (.confirm confirmCall) (drawn 1), c₄⟩,
    ⟨c₄, .lookedUp 2 (.cancel cancelCall), c₅⟩,
    ⟨c₅, .committed 2 (.cancel cancelCall) (drawn 2), c₆⟩]

theorem run : Run (Step 900) s₀ steps c₆ := by
  have hmade : Run (Step 900) s₀ (LateConfirm.steps.take 3) s₃ :=
    (((Run.nil s₀).snoc create_lookedUp).snoc create_committed).snoc confirm_lookedUp
  have hconfirm : Step 900 s₃ (.committed 1 (.confirm confirmCall) (drawn 1)) c₄ :=
    .commit rfl (by decide +kernel) confirmReservation_ok
  have hlookup : Step 900 c₄ (.lookedUp 2 (.cancel cancelCall)) c₅ :=
    @Step.lookup 900 c₄ 2 (.cancel (uuid 1) (uuid 2) "BK-0000002A" "changed plans") {} _ rfl
      (Except.map_eq_ok.mpr ⟨_, cancelLookup_ok, rfl⟩)
  have hcancel : Step 900 c₅ (.committed 2 (.cancel cancelCall) (drawn 2)) c₆ :=
    .commit rfl (by decide +kernel) cancelReservation_ok
  exact ((hmade.snoc hconfirm).snoc hlookup).snoc hcancel

/-- The confirmation finds the booking `RESERVED`. -/
theorem confirmsOn {p : BookingStatus → Prop} (hp : p .reserved) :
    ∀ x ∈ steps, x.event.ConfirmsOn p x.pre.db := by
  have hrow : reserved.bookings.get? booking.id = some booking := by decide +kernel
  intro x hx
  simp only [steps, LateConfirm.steps, List.take_succ_cons, List.take_zero, List.cons_append,
    List.nil_append, List.mem_cons, List.not_mem_nil, or_false] at hx
  rcases hx with rfl | rfl | rfl | rfl | rfl | rfl
  case inr.inr.inr.inl => exact ⟨booking, hrow, hp⟩
  all_goals trivial

end TimelyConfirm

open TimelyConfirm in
/-- Confirmed in time, every write and every change is legal, and the cancellation lasts. -/
theorem status_writes_legal_iff_timely_confirm :
    (∀ x ∈ steps ++ [⟨c₆, .tick, c₇⟩], LegalWrite x.event x.pre.db) ∧
      (∀ x ∈ steps ++ [⟨c₆, .tick, c₇⟩], LegalChange x.pre.db x.post.db) ∧
      ∃ b, c₇.db.bookings.get? LateConfirm.booking.id = some b ∧ b.status = .cancelled := by
  have htick : Step 900 c₆ .tick c₇ := Step.tick c₆ 5
  obtain ⟨hwrites, hchanges, hlasts⟩ :=
    status_writes_legal_iff run (Run.single htick) LateConfirm.idle
  have hon {p : BookingStatus → Prop} (hp : p .reserved) :
      ∀ x ∈ steps ++ [⟨c₆, .tick, c₇⟩], x.event.ConfirmsOn p x.pre.db := by
    intro x hx
    rcases List.mem_append.mp hx with hx | hx
    · exact confirmsOn hp x hx
    · rw [List.mem_singleton.mp hx]
      trivial
  have hrow : c₆.db.bookings.get? LateConfirm.booking.id =
      some LateConfirm.booking.confirm.cancel := by decide +kernel
  exact ⟨hwrites.mpr (hon rfl), hchanges.mpr (hon rfl), hlasts (hon rfl) _ _ hrow rfl⟩

/-! ### Releases -/

/-- The booking whose places a step gives back. -/
def Event.released? : Event → Option Uuid
  | .committed _ (.cancel call) _ => some call.booking.id
  | .expired _ item => some item.id
  | _ => none

/-- The step commits a confirmation. -/
def Event.confirms : Event → Bool
  | .committed _ (.confirm _) _ => true
  | _ => false

/-- The places a creation takes from a slot. -/
def Event.takesFrom (slotId : Uuid) : Event → ℤ
  | .committed _ (.create call) _ => if call.slot.id = slotId then call.body.partySize else 0
  | _ => 0

/-- The party size of a booking, if it is one of the slot's. -/
def Database.placesAt (db : Database) (slotId id : Uuid) : ℤ :=
  (db.bookings.get? id).elim 0 fun b => if b.slotId = slotId then (b.partySize : ℤ) else 0

theorem confirmsOn_of_not_confirms {e : Event} (h : e.confirms = false) (p : BookingStatus → Prop)
    (db : Database) : e.ConfirmsOn p db := by
  unfold Event.ConfirmsOn
  split
  · simp [Event.confirms] at h
  · trivial

/-- **A step that gives a booking's places back finds it active and leaves it
cancelled or expired.** -/
theorem row_of_released {e : Event} {now : Instant} {db db' : Database} (h : Change e now db db')
    {id : Uuid} (hr : e.released? = some id) :
    ∃ b b', db.bookings.get? id = some b ∧ b.status.isActive = true ∧
      db'.bookings.get? id = some b' ∧ b'.status.isActive = false ∧
      e.writes? = some (id, b'.status) := by
  have hchange := h
  cases h with
  | @quiet e _ _ hq => cases e <;> simp_all [Event.released?, Event.commits]
  | create => simp [Event.released?] at hr
  | confirm => simp [Event.released?] at hr
  | @cancel c call g _ _ b slot slot' hb hsame hact hs hv hroom hadj =>
    obtain rfl := Option.some.inj hr
    have hrow := booking_of_change hchange hb
    simp only [Event.rewrite, hsame.id_eq, if_true] at hrow
    exact ⟨b, b.cancel, hb, hact, hrow, rfl, rfl⟩
  | @expire w g _ _ b slot slot' hb hover hs hroom hadj =>
    obtain rfl := Option.some.inj hr
    have hrow := booking_of_change hchange hb
    have hid : b.stale.id = b.id := rfl
    simp only [Event.rewrite, hid, if_true] at hrow
    exact ⟨b, b.expire, hb, by simp [overdue_status hover], hrow, rfl, rfl⟩

theorem deltaOf_eq {e : Event} {now : Instant} {db db' : Database} (h : Change e now db db')
    (slotId : Uuid) :
    e.deltaOf slotId = e.takesFrom slotId - e.released?.elim 0 (db.placesAt slotId) := by
  cases h with
  | @quiet e _ _ hq =>
    rw [Event.deltaOf_of_quiet hq]
    cases e <;> simp_all [Event.released?, Event.commits, Event.takesFrom]
  | create => simp [Event.deltaOf, Event.slotId?, Event.delta, Event.takesFrom, Event.released?]
  | confirm => simp [Event.deltaOf, Event.slotId?, Event.takesFrom, Event.released?]
  | @cancel c call g _ _ b slot slot' hb hsame =>
    simp only [Event.deltaOf, Event.slotId?, Event.delta, Event.takesFrom, Event.released?,
      Option.some.injEq, Option.elim, Database.placesAt, hb, hsame.slotId_eq, hsame.partySize_eq]
    split <;> simp
  | @expire w g _ _ b slot slot' hb =>
    simp only [Event.deltaOf, Event.slotId?, Event.delta, Event.takesFrom, Event.released?,
      Option.some.injEq, Option.elim, Database.placesAt, Booking.stale, hb]
    split <;> simp

/-- A booking keeps its slot and its party size. -/
theorem placesAt_of_evolves {db db' : Database} (h : Evolves db db') {id : Uuid} {b : Booking}
    (hb : db.bookings.get? id = some b) (slotId : Uuid) :
    db'.placesAt slotId id = db.placesAt slotId id := by
  obtain ⟨b', hb', hsame⟩ := h.booking id b hb
  simp [Database.placesAt, hb, hb', hsame.slotId_eq, hsame.partySize_eq]

theorem sum_filterMap {α β : Type} (f : α → Option β) (g : β → ℤ) (l : List α) :
    ((l.filterMap f).map g).sum = (l.map fun a => (f a).elim 0 g).sum := by
  induction l with
  | nil => rfl
  | cons a l ih =>
    cases ha : f a with
    | none => simp [ha, ih]
    | some b => simp [ha, ih]

/-- The bookings that a list of steps releases, in order. -/
def releasedIn (tr : List (Transition State Event)) : List Uuid :=
  tr.filterMap fun x => x.event.released?

/-- Without confirmations, a step that releases a booking is the only one. -/
theorem releasedIn_nodup {ttl : ℕ} {s t : State} {tr : List (Transition State Event)}
    (hrun : Run (Step ttl) s tr t) (hs : Coherent ttl s)
    (hno : ∀ x ∈ tr, x.event.confirms = false) : (releasedIn tr).Nodup := by
  refine hrun.nodup_filterMap (I := Coherent ttl) (C := fun x => x.event.confirms = false)
    (fun _ _ _ => coherent_step) ?_ hno hs
  intro x y mid id hco hx hmid hno hy _ hrx hry
  have hpost := coherent_step hx hco
  obtain ⟨-, b, -, -, hb, hin, -⟩ := row_of_released (change_of_step hx hco) hrx
  -- the row is inactive after `x`, so it still is when `y` starts
  obtain ⟨b', hb', hst⟩ := inactive_run hmid hpost
    (fun z hz => confirmsOn_of_not_confirms (hno z hz) _ _) hb hin
  obtain ⟨b'', -, hb'', hact, -⟩ :=
    row_of_released (change_of_step hy (coherent_run hmid hpost)) hry
  obtain rfl : b' = b'' := Option.some.inj (hb'.symm.trans hb'')
  rw [hst, hin] at hact
  cases hact

/-- Without confirmations a booking that has been released stays as it is. -/
theorem status_after_release {ttl : ℕ} {s t : State} {l₁ l₂ : List (Transition State Event)}
    {x : Transition State Event} (hrun : Run (Step ttl) s (l₁ ++ x :: l₂) t) (hs : Coherent ttl s)
    (hno : ∀ y ∈ l₂, y.event.confirms = false) {id : Uuid} (hrel : x.event.released? = some id) :
    ∃ status, status.isActive = false ∧ x.event.writes? = some (id, status) ∧
      ∀ y ∈ x :: l₂, ∃ b, y.post.db.bookings.get? id = some b ∧ b.status = status := by
  obtain ⟨hpre, hx, hpost⟩ := hrun.cut
  have hcox := coherent_run hpre hs
  obtain ⟨-, b, -, -, hb, hin, hwrites⟩ := row_of_released (change_of_step hx hcox) hrel
  refine ⟨b.status, hin, hwrites, ?_⟩
  intro y hy
  rcases List.mem_cons.mp hy with rfl | hy
  · exact ⟨b, hb, rfl⟩
  · obtain ⟨l₃, l₄, rfl⟩ := List.append_of_mem hy
    obtain ⟨hmid, hstep, -⟩ := hpost.cut
    refine inactive_run (hmid.snoc hstep) (coherent_step hx hcox) ?_ hb hin
    intro z hz
    refine confirmsOn_of_not_confirms (hno z ?_) _ _
    simp only [List.mem_append, List.mem_cons, List.not_mem_nil, or_false] at hz ⊢
    exact hz.imp_right Or.inl

/-- What a step takes from a slot, with the places of released bookings counted as
the end of the run has them. -/
theorem takesFrom_eq_of_mem {ttl : ℕ} {s t : State} {tr : List (Transition State Event)}
    (hrun : Run (Step ttl) s tr t) (hs : Coherent ttl s) {x : Transition State Event}
    (hx : x ∈ tr) (slotId : Uuid) : x.event.takesFrom slotId =
      x.event.deltaOf slotId + x.event.released?.elim 0 (t.db.placesAt slotId) := by
  have hchange := change_of_mem hrun hs hx
  rw [deltaOf_eq hchange, sub_add_eq_add_sub, eq_sub_iff_add_eq, add_right_inj]
  cases hrel : x.event.released? with
  | none => rfl
  | some id =>
    -- the booking keeps its slot and its size to the end of the run
    obtain ⟨l₁, l₂, rfl⟩ := List.append_of_mem hx
    obtain ⟨hpre, hstep, hpost⟩ := hrun.cut
    obtain ⟨b, -, hb, -⟩ := row_of_released hchange hrel
    have hev := (evolves_of_change hchange).trans
      (evolves_run hpost (coherent_step hstep (coherent_run hpre hs)))
    simp only [Option.elim, placesAt_of_evolves hev hb]

/-- **Cancellation and expiry release a booking once.** In a run without
confirmations at most one of the cancellations and expiries of a booking
commits, the booking has the status that one wrote from then on, and the
booking's places leave `reserved` with that commit and no other. -/
theorem released_once {ttl : ℕ} {s t : State} {tr : List (Transition State Event)}
    (hrun : Run (Step ttl) s tr t) (hidle : s.Idle)
    (hno : ∀ x ∈ tr, x.event.confirms = false) :
    (releasedIn tr).Nodup ∧
    (∀ l₁ x l₂ id, tr = l₁ ++ x :: l₂ → x.event.released? = some id →
      ∃ status, status.isActive = false ∧ x.event.writes? = some (id, status) ∧
        ∀ y ∈ x :: l₂, ∃ b, y.post.db.bookings.get? id = some b ∧ b.status = status) ∧
    (∀ x ∈ tr, ∀ slotId, x.post.db.reservedOf slotId = x.pre.db.reservedOf slotId
      + x.event.takesFrom slotId - x.event.released?.elim 0 (x.pre.db.placesAt slotId)) ∧
    ∀ slotId, t.db.reservedOf slotId = s.db.reservedOf slotId
      + (tr.map fun x => x.event.takesFrom slotId).sum
      - ((releasedIn tr).map (t.db.placesAt slotId)).sum := by
  have hco : Coherent ttl s := hidle.coherent
  have hchange := fun x hx => change_of_mem hrun hco (x := x) hx
  refine ⟨?_, ?_, ?_, ?_⟩
  · exact releasedIn_nodup hrun hco hno
  · rintro l₁ x l₂ id rfl hrel
    exact status_after_release hrun hco (fun y hy => hno y (by simp [hy])) hrel
  · intro x hx slotId
    rw [reserved_of_change (hchange x hx), deltaOf_eq (hchange x hx)]
    ring
  · intro slotId
    rw [reserved_of_run hrun hco, releasedIn, sum_filterMap]
    have htakes : ∀ x ∈ tr, x.event.takesFrom slotId = _ :=
      fun x hx => takesFrom_eq_of_mem hrun hco hx slotId
    -- what is taken, less what is given back
    rw [List.map_congr_left htakes, List.sum_map_add]
    ring

/-- A booking made and cancelled is released once. -/
theorem released_once_cancel : (releasedIn (LateConfirm.steps.take 5)).Nodup ∧
    LateConfirm.s₅.db.reservedOf (uuid 5) = 0 := by
  have h := released_once LateConfirm.run_cancel LateConfirm.idle (by decide)
  refine ⟨h.1, (h.2.2.2 _).trans ?_⟩
  decide +kernel

/-! ### Expiry -/

/-- The booking a step expires. -/
def Event.expired? : Event → Option Uuid
  | .expired _ item => some item.id
  | _ => none

/-- The history rows that record an expiry of a booking. -/
def expiredRows (id : Uuid) (history : List BookingStatusHistory) : ℕ :=
  history.countP fun h => h.bookingId = id ∧ h.toStatus = .expired

/-- A booking has at most one `EXPIRED` history row, and none before it was made
or while it is still reserved. -/
def HistorySound (db : Database) : Prop :=
  ∀ id, expiredRows id db.bookingStatusHistory ≤ 1 ∧
    (expiredRows id db.bookingStatusHistory ≠ 0 →
      ∃ b, db.bookings.get? id = some b ∧ b.status ≠ .reserved)

theorem expiredRows_append (id : Uuid) (history : List BookingStatusHistory)
    (h : BookingStatusHistory) : expiredRows id (history ++ [h]) =
      expiredRows id history + if h.bookingId = id ∧ h.toStatus = .expired then 1 else 0 := by
  simp [expiredRows, List.countP_append, List.countP_singleton]

/-- **Only an expiry writes an `EXPIRED` history row.** -/
theorem expiredRows_of_change {e : Event} {now : Instant} {db db' : Database}
    (h : Change e now db db') (id : Uuid) :
    expiredRows id db'.bookingStatusHistory = expiredRows id db.bookingStatusHistory +
      if e.expired? = some id then 1 else 0 := by
  cases h with
  | @quiet e _ _ hq => cases e <;> simp_all [Event.expired?, Event.commits]
  | create => simp [expiredRows_append, Event.expired?]
  | confirm => simp [expiredRows_append, Event.expired?]
  | cancel => simp [expiredRows_append, Event.expired?]
  | expire => simp [expiredRows_append, Event.expired?, Booking.stale]

/-- **An expiry finds its booking `RESERVED` with its deadline over**, and leaves
it otherwise. -/
theorem row_of_expired {e : Event} {now : Instant} {db db' : Database} (h : Change e now db db')
    {id : Uuid} (he : e.expired? = some id) :
    ∃ b deadline, db.bookings.get? id = some b ∧ b.status = .reserved ∧
      b.reservedUntil = some deadline ∧ deadline < now ∧
      db'.bookings.get? id = some b.expire := by
  have hchange := h
  cases h with
  | @quiet e _ _ hq => cases e <;> simp_all [Event.expired?, Event.commits]
  | create => simp [Event.expired?] at he
  | confirm => simp [Event.expired?] at he
  | cancel => simp [Event.expired?] at he
  | @expire w g _ _ b slot slot' hb hover =>
    obtain rfl := Option.some.inj he
    have hrow := booking_of_change hchange hb
    have hid : b.stale.id = b.id := rfl
    simp only [Event.rewrite, hid, if_true] at hrow
    obtain ⟨hst, deadline, hdl, hlt⟩ := overdue_iff.mp hover
    exact ⟨b, deadline, hb, hst, hdl, hlt, hrow⟩

/-- No step writes `RESERVED` over a row. -/
theorem rewrite_ne_reserved {e : Event} {b : Booking} (h : b.status ≠ .reserved) :
    (e.rewrite b).status ≠ .reserved := by
  unfold Event.rewrite
  split <;> (try split) <;> first | exact h | (intro hst; cases hst)

theorem not_reserved_of_change {e : Event} {now : Instant} {db db' : Database}
    (h : Change e now db db') {id : Uuid}
    (hb : ∃ b, db.bookings.get? id = some b ∧ b.status ≠ .reserved) :
    ∃ b, db'.bookings.get? id = some b ∧ b.status ≠ .reserved := by
  obtain ⟨b, hb, hst⟩ := hb
  exact ⟨_, booking_of_change h hb, rewrite_ne_reserved hst⟩

/-- **A booking that has left `RESERVED` never re-enters it.** -/
theorem not_reserved_run {ttl : ℕ} {s t : State} {tr : List (Transition State Event)}
    (hrun : Run (Step ttl) s tr t) (hs : Coherent ttl s) {id : Uuid}
    (hb : ∃ b, s.db.bookings.get? id = some b ∧ b.status ≠ .reserved) :
    ∃ b, t.db.bookings.get? id = some b ∧ b.status ≠ .reserved := by
  refine (hrun.invariant (I := fun s => Coherent ttl s ∧
    ∃ b, s.db.bookings.get? id = some b ∧ b.status ≠ .reserved) ?_ ⟨hs, hb⟩).2
  rintro s e t hstep ⟨hco, hb⟩
  exact ⟨coherent_step hstep hco, not_reserved_of_change (change_of_step hstep hco) hb⟩

theorem historySound_of_change {e : Event} {now : Instant} {db db' : Database}
    (h : Change e now db db') (hdb : HistorySound db) : HistorySound db' := by
  intro id
  obtain ⟨hle, hrow⟩ := hdb id
  rw [expiredRows_of_change h]
  by_cases he : e.expired? = some id
  · obtain ⟨b, deadline, hb, hst, -, -, hb'⟩ := row_of_expired h he
    -- the booking was reserved, so nothing had been recorded yet
    have hzero : expiredRows id db.bookingStatusHistory = 0 := by
      by_contra hne
      obtain ⟨b₁, hb₁, hst₁⟩ := hrow hne
      obtain rfl : b = b₁ := Option.some.inj (hb.symm.trans hb₁)
      exact hst₁ hst
    rw [if_pos he, hzero]
    exact ⟨le_refl _, fun _ => ⟨b.expire, hb', by simp [Booking.expire]⟩⟩
  · rw [if_neg he, add_zero]
    exact ⟨hle, fun hne => not_reserved_of_change h (hrow hne)⟩

theorem historySound_run {ttl : ℕ} {s t : State} {tr : List (Transition State Event)}
    (hrun : Run (Step ttl) s tr t) (hs : Coherent ttl s) (hdb : HistorySound s.db) :
    HistorySound t.db := by
  refine (hrun.invariant (I := fun s => Coherent ttl s ∧ HistorySound s.db) ?_ ⟨hs, hdb⟩).2
  rintro s e t hstep ⟨hco, hdb⟩
  exact ⟨coherent_step hstep hco, historySound_of_change (change_of_step hstep hco) hdb⟩

/-- The bookings that a list of steps expires, in order. -/
def expiredIn (tr : List (Transition State Event)) : List Uuid :=
  tr.filterMap fun x => x.event.expired?

/-- A run expires a booking at most once. -/
theorem expiredIn_nodup {ttl : ℕ} {s t : State} {tr : List (Transition State Event)}
    (hrun : Run (Step ttl) s tr t) (hs : Coherent ttl s) : (expiredIn tr).Nodup := by
  refine hrun.nodup_filterMap (I := Coherent ttl) (C := fun _ => True) (fun _ _ _ => coherent_step)
    ?_ (fun _ _ => trivial) hs
  intro x y mid id hco hx hmid _ hy _ hex hey
  have hpost := coherent_step hx hco
  obtain ⟨b, -, -, -, -, -, hb⟩ := row_of_expired (change_of_step hx hco) hex
  obtain ⟨b₁, hb₁, hst₁⟩ := not_reserved_run hmid hpost ⟨_, hb, by simp [Booking.expire]⟩
  obtain ⟨b₂, -, hb₂, hst₂, -⟩ := row_of_expired (change_of_step hy (coherent_run hmid hpost)) hey
  obtain rfl : b₁ = b₂ := Option.some.inj (hb₁.symm.trans hb₂)
  exact hst₁ hst₂

/-- The history rows of a run are those of its expiries. -/
theorem expiredRows_run {ttl : ℕ} {s t : State} {tr : List (Transition State Event)}
    (hrun : Run (Step ttl) s tr t) (hs : Coherent ttl s) (id : Uuid) :
    expiredRows id t.db.bookingStatusHistory =
      expiredRows id s.db.bookingStatusHistory + (expiredIn tr).count id := by
  induction hrun with
  | nil => rfl
  | @snoc t u tr e hrun hstep ih =>
    rw [expiredRows_of_change (change_of_step hstep (coherent_run hrun hs)), ih, expiredIn,
      expiredIn, List.filterMap_append, List.count_append, add_assoc]
    cases he : e.expired? with
    | none => simp [he]
    | some id' => by_cases hid : id' = id <;> simp [he, hid]

/-! ### What the expiry runs return -/

/-- The counter of an expiry run. -/
def WorkerState.count : WorkerState → ℕ
  | .notStarted => 0
  | .running _ n => n
  | .finished n => n

/-- The expiry run that commits an expiry. -/
def Event.expiredBy? : Event → Option ℕ
  | .expired w _ => some w
  | _ => none

/-- The counter of an expiry run moves with the expiries it commits. -/
theorem count_of_step {ttl : ℕ} {s t : State} {e : Event} (h : Step ttl s e t) (w : ℕ) :
    ((t.workers w).count : ℤ) =
      (s.workers w).count + if e.expiredBy? = some w then 1 else 0 := by
  have hupdate : ∀ {w' : ℕ} {ws : WorkerState}, (w = w' → ws.count = (s.workers w).count) →
      (((Function.update s.workers w' ws) w).count : ℤ) = (s.workers w).count := by
    intro w' ws hws
    by_cases hw : w = w'
    · subst hw
      rw [Function.update_self, hws rfl]
    · rw [Function.update_of_ne hw]
  cases h with
  | tick | lookup | refuse | commit | rollback => simp [Event.expiredBy?]
  | list hw =>
    simp only [Event.expiredBy?, reduceCtorEq, if_false, add_zero]
    exact hupdate (by rintro rfl; simp [hw, WorkerState.count])
  | @expire w' n item rest g db' hw =>
    by_cases hww : w = w'
    · subst hww
      simp [Event.expiredBy?, hw, WorkerState.count]
    · simp [Event.expiredBy?, Function.update_of_ne hww, Ne.symm hww]
  | skip hw | fail hw | return_ hw =>
    simp only [Event.expiredBy?, reduceCtorEq, if_false, add_zero]
    exact hupdate (by rintro rfl; simp [hw, WorkerState.count])

/-- The counter of an expiry run is the number of expiries it committed. -/
theorem count_run {ttl : ℕ} {s t : State} {tr : List (Transition State Event)}
    (hrun : Run (Step ttl) s tr t) (hidle : s.Idle) (w : ℕ) :
    ((t.workers w).count : ℤ) =
      (tr.map fun x => if x.event.expiredBy? = some w then 1 else 0).sum := by
  have htally := hrun.tally (I := fun _ => True) (φ := fun s => ((s.workers w).count : ℤ))
    (δ := fun e => if e.expiredBy? = some w then 1 else 0) (fun _ _ _ _ _ => trivial)
    (fun _ _ _ hstep _ => count_of_step hstep w) trivial
  have hzero : (s.workers w).count = 0 := by rw [hidle.2 w]; rfl
  rw [htally, hzero, Nat.cast_zero, zero_add]

/-- Summed over expiry runs, the counters are the number of expiries that any of
them committed. -/
theorem sum_expiredBy (W : Finset ℕ) (tr : List (Transition State Event)) :
    ∑ w ∈ W, (tr.map fun x => if x.event.expiredBy? = some w then (1 : ℤ) else 0).sum =
      (tr.countP fun x => ∃ w ∈ W, x.event.expiredBy? = some w : ℕ) := by
  induction tr with
  | nil => simp
  | cons x tr ih =>
    simp only [List.map_cons, List.sum_cons, Finset.sum_add_distrib, ih, List.countP_cons]
    cases x.event.expiredBy? with
    | none => simp
    | some w' =>
      by_cases hw : w' ∈ W <;> simp [hw, add_comm]

/-- **A booking expires once and is counted once.** Whatever races: the expiries
of a run are of distinct bookings, so with a sound history there is at most one
`EXPIRED` row for each booking; a commit that writes one finds the booking
`RESERVED` with a deadline before its clock reading; no booking re-enters
`RESERVED`; and the numbers that completed expiry runs return add up to the
expiries they committed. -/
theorem expired_once {ttl : ℕ} {s m t : State} {tr tr' : List (Transition State Event)}
    (hrun : Run (Step ttl) s tr m) (hrun' : Run (Step ttl) m tr' t) (hidle : s.Idle) :
    ((expiredIn (tr ++ tr')).Nodup ∧
      (∀ id, expiredRows id t.db.bookingStatusHistory =
        expiredRows id s.db.bookingStatusHistory + (expiredIn (tr ++ tr')).count id) ∧
      (HistorySound s.db → ∀ id, expiredRows id t.db.bookingStatusHistory ≤ 1)) ∧
    (∀ x ∈ tr ++ tr', ∀ id, expiredRows id x.post.db.bookingStatusHistory ≠
        expiredRows id x.pre.db.bookingStatusHistory →
      ∃ b deadline, x.pre.db.bookings.get? id = some b ∧ b.status = .reserved ∧
        b.reservedUntil = some deadline ∧ deadline < x.pre.now) ∧
    (∀ id, (∃ b, m.db.bookings.get? id = some b ∧ b.status ≠ .reserved) →
      ∃ b, t.db.bookings.get? id = some b ∧ b.status ≠ .reserved) ∧
    ∀ (W : Finset ℕ) (returned : ℕ → ℕ), (∀ w ∈ W, t.workers w = .finished (returned w)) →
      ∑ w ∈ W, returned w =
        (tr ++ tr').countP fun x => ∃ w ∈ W, x.event.expiredBy? = some w := by
  have hco : Coherent ttl s := hidle.coherent
  have hall := hrun.append hrun'
  refine ⟨⟨expiredIn_nodup hall hco, expiredRows_run hall hco,
    fun hsound id => (historySound_run hall hco hsound id).1⟩, ?_,
    fun id => not_reserved_run hrun' (coherent_run hrun hco), ?_⟩
  · intro x hx id hne
    have hchange := change_of_mem hall hco hx
    rw [expiredRows_of_change hchange] at hne
    by_cases he : x.event.expired? = some id
    · obtain ⟨b, deadline, hb, hst, hdl, hlt, -⟩ := row_of_expired hchange he
      exact ⟨b, deadline, hb, hst, hdl, hlt⟩
    · simp [he] at hne
  · intro W returned hW
    have hcount : ∀ w ∈ W, (returned w : ℤ) =
        ((tr ++ tr').map fun x => if x.event.expiredBy? = some w then 1 else 0).sum := by
      intro w hw
      rw [← count_run hall hidle w, hW w hw]
      rfl
    have hsum := sum_expiredBy W (tr ++ tr')
    rw [← Finset.sum_congr rfl hcount] at hsum
    exact_mod_cast hsum

/-- One expiry run, one overdue booking: one history row, and the run returns
one. -/
theorem expired_once_overdue :
    expiredRows LateConfirm.booking.id LateConfirm.e₄.db.bookingStatusHistory ≤ 1 ∧
      (LateConfirm.expirySteps.countP fun x =>
        ∃ w ∈ ({0} : Finset ℕ), x.event.expiredBy? = some w) = 1 := by
  have h := expired_once LateConfirm.run_expire (.nil _) LateConfirm.idle
  refine ⟨h.1.2.2 (fun id => ⟨Nat.zero_le _, fun hne => absurd rfl hne⟩) _, ?_⟩
  have hsum := h.2.2.2 {0} (fun _ => 1) (fun w hw => by rw [Finset.mem_singleton.mp hw]; rfl)
  rw [List.append_nil, Finset.sum_singleton] at hsum
  exact hsum.symm

end BookingPlatform
