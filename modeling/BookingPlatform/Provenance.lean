import BookingPlatform.Serial

/-!
# Where bookings come from, and whose they are

A booking is made by one commit of one call, on the terms its lookup read off the
catalogue.  Those terms never change: what later calls write is the status and
the hold.  A call writes only bookings of its own user.

## Main definitions

* `SoldAt` — the terms of a booking, read off the catalogue.
* `Booking.Later` — a booking later on, with its terms unchanged.
* `ActorsInvariant` — every history row names the owner, or nobody.

## Main results

* `creation_of_booking`, `bookings_made_once` — the lookup and the commit behind
  every booking, and its terms.
* `actors_are_owners` — no call changes a booking of another user, and every
  history row names the owner, or nobody when the hold ran out.
-/

namespace BookingPlatform

open Runs

/-! ### Terms -/

/-- The terms of a booking are those that the catalogue gives at a clock
reading: its slot and experience, the price for its party, and how long it may be
held. -/
structure SoldAt (ttl : ℕ) (order : RowOrder) (readAt : Instant) (db : Database) (b : Booking) :
    Prop where
  terms : ∃ slot experience, db.availabilitySlots.get? b.slotId = some slot ∧
    slot.tenantId = b.tenantId ∧ slot.experienceId = b.experienceId ∧
    db.experiences.get? b.experienceId = some experience ∧ experience.active = true ∧
    b.totalPrice = (calculatePricingPreview experience.basePrice b.partySize
      (activePricingRules order db experience.supplierId) (some slot.startsAt) readAt).totalPrice
  hold : ∀ deadline, b.reservedUntil = some deadline → deadline = readAt + ttl * 1000

/-- A creation that found its slot sells on the terms it read. -/
theorem soldAt_of_lookup {ttl : ℕ} {order : RowOrder} {tenantId userId : Uuid}
    {body : CreateBookingBody} {db : Database} {readAt : Instant} {call : CreateCall}
    (h : createReservationLookup ttl order tenantId userId body db readAt = .ok call)
    {partySize : Int4} (hp : (partySize : ℤ) = call.body.partySize) (g : Generated)
    (now : Instant) : SoldAt ttl order readAt db (call.booking partySize g now) := by
  obtain ⟨slot, experience, supplier, hs, ht, he, hsup, hact, -, rfl⟩ :=
    createReservationLookup_ok.mp h
  have hid : slot.id = body.slotId := (Table.get?_eq_some.mp hs).2
  have hsupplier : supplier.id = experience.supplierId := (Table.get?_eq_some.mp hsup).2
  replace hp : (partySize : ℤ) = body.partySize := hp
  refine ⟨⟨slot, experience, ?_, ht, rfl, he, hact, ?_⟩, fun deadline hdeadline => ?_⟩
  · show db.availabilitySlots.get? slot.id = some slot
    rw [hid, hs]
  · show (calculatePricingPreview experience.basePrice body.partySize _ _ _).totalPrice
      = (calculatePricingPreview experience.basePrice partySize _ _ _).totalPrice
    rw [hp, hsupplier]
  · exact (Option.some.inj hdeadline).symm

/-- A booking row and a later version of it: the status and the hold may have
changed, and a hold only ends. -/
structure Booking.Later (b b' : Booking) : Prop where
  same : b.SameColumns b'
  hold : b'.reservedUntil = b.reservedUntil ∨ b'.reservedUntil = none

theorem Booking.Later.refl (b : Booking) : b.Later b := ⟨.refl b, Or.inl rfl⟩

theorem Booking.Later.trans {b b' b'' : Booking} (h : b.Later b') (h' : b'.Later b'') :
    b.Later b'' where
  same := h.same.trans h'.same
  hold := by
    rcases h'.hold with heq | hnone
    · rw [heq]
      exact h.hold
    · exact Or.inr hnone

theorem Event.later_rewrite (e : Event) (b : Booking) : b.Later (e.rewrite b) := by
  refine ⟨e.rewrite_sameColumns b, ?_⟩
  unfold rewrite
  split <;> (try split) <;> simp [Booking.confirm, Booking.cancel, Booking.expire]

/-- **A booking is still there after a run**, on the same terms. -/
theorem later_run {ttl : ℕ} {s t : State} {tr : List (Transition State Event)}
    (hrun : Run (Step ttl) s tr t) (hco : Coherent ttl s) {id : Uuid} {b : Booking}
    (hb : s.db.bookings.get? id = some b) :
    ∃ b', t.db.bookings.get? id = some b' ∧ b.Later b' := by
  refine (hrun.invariant (I := fun s => Coherent ttl s ∧
    ∃ b', s.db.bookings.get? id = some b' ∧ b.Later b') ?_ ⟨hco, b, hb, .refl b⟩).2
  intro s e t hstep hs
  obtain ⟨hco, b', hb', hlater⟩ := hs
  exact ⟨coherent_step hstep hco, _, booking_of_change (change_of_step hstep hco) hb',
    hlater.trans (e.later_rewrite b')⟩

/-- The terms hold of every later version, in every later database. -/
theorem SoldAt.later {ttl : ℕ} {order : RowOrder} {readAt : Instant} {db db' : Database}
    {b b' : Booking} (h : SoldAt ttl order readAt db b) (hlater : b.Later b')
    (hsame : SameCatalogue db db') (hev : Evolves db db') : SoldAt ttl order readAt db' b' := by
  obtain ⟨slot, experience, hs, ht, hex, he, hact, hprice⟩ := h.terms
  obtain ⟨slot', hs', hslot, -⟩ := hev.slot _ _ hs
  have hb := hlater.same
  constructor
  · refine ⟨slot', experience, ?_, ?_, ?_, ?_, hact, ?_⟩
    · rw [hb.slotId_eq]
      exact hs'
    · rw [hslot, hb.tenantId_eq]
      exact ht
    · rw [hslot, hb]
      exact hex
    · rw [hsame.experiences, hb]
      exact he
    · rw [hsame.activePricingRules_eq, hslot, hb]
      exact hprice
  · intro deadline hdeadline
    rcases hlater.hold with heq | hnone
    · exact h.hold deadline (heq ▸ hdeadline)
    · rw [hnone] at hdeadline
      cases hdeadline

/-! ### The making of a booking -/

/-- A step that makes the booking `id`. -/
def Event.Makes (id : Uuid) (e : Event) : Prop :=
  ∃ c call g, e = .committed c (.create call) g ∧ g.bookingId = id

/-- A booking can be made only while it is not there. -/
theorem absent_of_makes {ttl : ℕ} {s t : State} {e : Event} (h : Step ttl s e t) {id : Uuid}
    (hmakes : e.Makes id) :
    s.db.bookings.get? id = none ∧ ∃ b, t.db.bookings.get? id = some b := by
  obtain ⟨c, call, g, rfl, rfl⟩ := hmakes
  obtain ⟨hfresh, b, hok⟩ := transaction_of_commit h
  obtain ⟨_, _, partySize, hfree, -, -, -, -, -, -, -, -, -, hdb⟩ :=
    createReservationTransaction_ok.mp hok
  refine ⟨hfresh.1, call.booking partySize g s.now, ?_⟩
  rw [hdb]
  exact (Table.get?_insert hfree _).trans (if_pos rfl)

/-- What the lookup of a creation read. -/
theorem creation_of_lookedUp {ttl : ℕ} {s t : State} {c : ℕ} {call : CreateCall}
    (h : Step ttl s (.lookedUp c (.create call)) t) : ∃ order,
    createReservationLookup ttl order call.tenantId call.userId call.body s.db s.now =
      .ok call := by
  obtain ⟨-, req, order, hread⟩ := lookup_of_step h
  cases req with
  | create tenantId userId body =>
    obtain ⟨call', hcall, hinj⟩ := Except.map_eq_ok.mp hread
    obtain rfl := Call.create.inj hinj
    obtain ⟨_, _, _, -, -, -, -, -, -, hfields⟩ := createReservationLookup_ok.mp hcall
    refine ⟨order, ?_⟩
    rw [hfields] at hcall ⊢
    exact hcall
  | confirm =>
    obtain ⟨_, -, hinj⟩ := Except.map_eq_ok.mp hread
    cases hinj
  | cancel =>
    obtain ⟨_, -, hinj⟩ := Except.map_eq_ok.mp hread
    cases hinj

/-- A booking that is there is not made again. -/
theorem not_makes_after {ttl : ℕ} {s t : State} {tr : List (Transition State Event)}
    (hrun : Run (Step ttl) s tr t) (hco : Coherent ttl s) {id : Uuid} {b : Booking}
    (hb : s.db.bookings.get? id = some b) : ∀ z ∈ tr, ¬ z.event.Makes id := by
  intro z hz hmakes
  obtain ⟨l, l', rfl⟩ := List.append_of_mem hz
  obtain ⟨hbefore, hstep, -⟩ := hrun.cut
  obtain ⟨b', hb', -⟩ := later_run hbefore hco hb
  rw [(absent_of_makes hstep hmakes).1] at hb'
  cases hb'

/-- A booking is made by one step only. -/
theorem makes_once {ttl : ℕ} {s t : State} {y : Transition State Event}
    {l l' : List (Transition State Event)} (hrun : Run (Step ttl) s (l ++ y :: l') t)
    (hco : Coherent ttl s) {id : Uuid} (hmakes : y.event.Makes id) :
    ∀ z ∈ l ++ l', ¬ z.event.Makes id := by
  obtain ⟨hbefore, hy, hafter⟩ := hrun.cut
  have hyco := coherent_run hbefore hco
  intro z hz
  rcases List.mem_append.mp hz with hz | hz
  · intro hzmakes
    obtain ⟨l₁, l₂, rfl⟩ := List.append_of_mem hz
    obtain ⟨hpre, hz, hmid⟩ := hbefore.cut
    have hzco := coherent_run hpre hco
    obtain ⟨b, hb⟩ := (absent_of_makes hz hzmakes).2
    exact not_makes_after (hmid.snoc hy) (coherent_step hz hzco) hb _
      (List.mem_append_right _ (List.mem_singleton_self _)) hmakes
  · obtain ⟨b, hb⟩ := (absent_of_makes hy hmakes).2
    exact not_makes_after hafter (coherent_step hy hyco) hb z hz

/-- What a run makes of the booking that one of its steps makes. -/
theorem later_of_makes {ttl : ℕ} {y : Transition State Event} {t : State}
    {l' : List (Transition State Event)} (hco : Coherent ttl y.pre)
    (hy : Step ttl y.pre y.event y.post) (hafter : Run (Step ttl) y.post l' t) {id : Uuid}
    {b₀ b : Booking} (hb₀ : y.post.db.bookings.get? id = some b₀)
    (hb : t.db.bookings.get? id = some b) : b₀.Later b := by
  obtain ⟨b', hb', hlater⟩ := later_run hafter (coherent_step hy hco) hb₀
  rwa [Option.some.inj (hb.symm.trans hb')]

/-- **The lookup and the commit behind a booking.** -/
theorem creation_of_booking {ttl : ℕ} {s t : State} {tr : List (Transition State Event)}
    (hrun : Run (Step ttl) s tr t) (hidle : s.Idle) (hempty : s.db.NoBookings) {id : Uuid}
    {b : Booking} (hb : t.db.bookings.get? id = some b) :
    ∃ l x mid y l' c call g order, tr = l ++ x :: (mid ++ y :: l') ∧
      x.event = .lookedUp c (.create call) ∧ y.event = .committed c (.create call) g ∧
      g.bookingId = id ∧
      createReservationLookup ttl order b.tenantId b.userId call.body x.pre.db x.pre.now =
        .ok call ∧
      b.reference = g.reference ∧ b.slotId = call.body.slotId ∧
      (b.partySize : ℤ) = call.body.partySize ∧
      b.totalPrice = call.pricingPreview.totalPrice ∧ b.createdAt = y.pre.now ∧
      SoldAt ttl order x.pre.now t.db b := by
  have hco : Coherent ttl s := hidle.coherent
  obtain ⟨l₀, y, l', rfl, hpre, hpost⟩ :=
    hrun.origin (P := fun s => ∃ b, s.db.bookings.get? id = some b) (by simp [hempty.bookings])
      ⟨b, hb⟩
  obtain ⟨hbefore, hy, hafter⟩ := hrun.cut
  have hyco := coherent_run hbefore hco
  obtain ⟨b₀, hb₀⟩ := hpost
  rcases new_booking_of_change (change_of_step hy hyco) hb₀ with ⟨b₁, hb₁, -⟩ |
    ⟨-, c, call, g, partySize, hcommit, hid, hmade, hp, -⟩
  · exact absurd ⟨b₁, hb₁⟩ hpre
  -- the lookup of its call
  obtain ⟨hc, -, -⟩ := ran_of_step hy (by rw [hcommit]; rfl)
  obtain ⟨l, x, mid, rfl, hlook⟩ := lookup_of_waiting hbefore hidle hc
  obtain ⟨hbeforex, hx, hmid⟩ := hbefore.cut
  have hxco := coherent_run hbeforex hco
  have hxpost := coherent_step hx hxco
  have hread := hx
  rw [hlook] at hread
  obtain ⟨order, hread⟩ := creation_of_lookedUp hread
  have hlater := later_of_makes hyco hy hafter hb₀ hb
  have hsame := hlater.same
  rw [hmade] at hlater hsame
  -- what it read is still so at the end
  have hsold : SoldAt ttl order x.pre.now t.db b := by
    refine (soldAt_of_lookup hread hp g y.pre.now).later hlater ?_ ?_
    · exact (sameCatalogue_of_change (change_of_step hx hxco)).trans
        ((sameCatalogue_run hmid hxpost).trans ((sameCatalogue_of_change
          (change_of_step hy hyco)).trans (sameCatalogue_run hafter (coherent_step hy hyco))))
    · exact (evolves_of_change (change_of_step hx hxco)).trans ((evolves_run hmid hxpost).trans
        ((evolves_of_change (change_of_step hy hyco)).trans
          (evolves_run hafter (coherent_step hy hyco))))
  have hslot : call.slot.id = call.body.slotId := by
    obtain ⟨slot, _, _, hs, -, -, -, -, -, hfields⟩ := createReservationLookup_ok.mp hread
    rw [hfields]
    exact (Table.get?_eq_some.mp hs).2
  refine ⟨l, x, mid, y, l', c, call, g, order, by simp, hlook, hcommit, hid, ?_, ?_, ?_, ?_, ?_,
    ?_, hsold⟩
  all_goals rw [hsame]
  · exact hread
  · rfl
  · exact hslot
  · exact hp
  · rfl
  · rfl

/-- **Every booking was made once, and on terms that last.** In every run from a
store without bookings, for every booking there: one step of the run made it, a
creation for its own tenant and user, and no other step did; the lookup of that
creation, earlier in the run, found the slot with room; reference, slot, party,
price and time of creation are those of the creation; and price and hold are what
the catalogue of the last state gives for that party at the clock reading of the
lookup.  No other booking has its reference. -/
theorem bookings_made_once {ttl : ℕ} {s t : State} {tr : List (Transition State Event)}
    (hrun : Run (Step ttl) s tr t) (hidle : s.Idle) (hempty : s.db.NoBookings) {id : Uuid}
    {b : Booking} (hb : t.db.bookings.get? id = some b) :
    (∃ l x mid y l' c call g order, tr = l ++ x :: (mid ++ y :: l') ∧
      x.event = .lookedUp c (.create call) ∧ y.event = .committed c (.create call) g ∧
      (∀ z ∈ l ++ x :: (mid ++ l'), ¬ z.event.Makes id) ∧ g.bookingId = id ∧
      createReservationLookup ttl order b.tenantId b.userId call.body x.pre.db x.pre.now =
        .ok call ∧
      b.reference = g.reference ∧ b.slotId = call.body.slotId ∧
      (b.partySize : ℤ) = call.body.partySize ∧
      b.totalPrice = call.pricingPreview.totalPrice ∧ b.createdAt = y.pre.now ∧
      SoldAt ttl order x.pre.now t.db b) ∧
    ∀ b' ∈ t.db.bookings, b'.reference = b.reference → b' = b := by
  have hco : Coherent ttl s := hidle.coherent
  have hrefs : ReferencesUnique s.db := hempty.referencesUnique
  have hinv : SerialInvariant ttl t :=
    hrun.invariant (I := SerialInvariant ttl) serialInvariant_step ⟨hco, hrefs⟩
  refine ⟨?_, fun b' hb' href => hinv.references b' hb' b (Table.get?_eq_some.mp hb).1 href⟩
  obtain ⟨l, x, mid, y, l', c, call, g, order, rfl, hlook, hcommit, hid, hterms⟩ :=
    creation_of_booking hrun hidle hempty hb
  refine ⟨l, x, mid, y, l', c, call, g, order, rfl, hlook, hcommit, ?_, hid, hterms⟩
  have hcut : l ++ x :: (mid ++ y :: l') = (l ++ x :: mid) ++ y :: l' := by simp
  rw [hcut] at hrun
  intro z hz
  exact makes_once hrun hco ⟨c, call, g, hcommit, hid⟩ z (by simpa [or_assoc] using hz)

/-- The booking of the late confirmation was made at its lookup's price, by the
first two steps of the run. -/
theorem bookings_made_once_late_confirm : ∃ b order readAt,
    LateConfirm.confirmed.bookings.get? (uuid 10) = some b ∧
      SoldAt 900 order readAt LateConfirm.confirmed b ∧ b.totalPrice = ⟨10000⟩ := by
  have hb : LateConfirm.confirmed.bookings.get? (uuid 10)
      = some LateConfirm.booking.cancel.confirm := by decide +kernel
  obtain ⟨⟨_, x, _, _, _, _, _, _, order, _, _, _, _, _, _, _, _, _, _, _, hsold⟩, -⟩ :=
    bookings_made_once LateConfirm.run LateConfirm.idle LateConfirm.noBookings hb
  exact ⟨_, order, x.pre.now, hb, hsold, by decide +kernel⟩

/-! ### Owners -/

/-- The user that a call acts for. -/
def Call.userId : Call → Uuid
  | .create call => call.userId
  | .confirm call => call.userId
  | .cancel call => call.userId

/-- The tenant that a call acts in. -/
def Call.tenantId : Call → Uuid
  | .create call => call.tenantId
  | .confirm call => call.tenantId
  | .cancel call => call.tenantId

theorem Booking.SameColumns.userId_eq {b b' : Booking} (h : b.SameColumns b') :
    b'.userId = b.userId := by rw [h]

/-- A waiting confirmation or cancellation is its booking's user's. -/
theorem owner_of_waiting {ttl : ℕ} {s : State} (hco : Coherent ttl s) {c : ℕ} {call : Call}
    (hc : s.calls c = .waiting call) {b : Booking} (hb : call.booking? = some b) :
    b.userId = call.userId ∧ b.tenantId = call.tenantId := by
  obtain ⟨req, order, db₀, now₀, hlook, -⟩ := hco.waiting c call hc
  have howned : ∀ {tenantId userId : Uuid} {reference : String} {b : Booking},
      ownedBy tenantId userId reference b = true → b.userId = userId ∧ b.tenantId = tenantId := by
    intro tenantId userId reference b hb
    simp only [ownedBy, decide_eq_true_eq] at hb
    exact ⟨hb.2.1, hb.1⟩
  cases req with
  | create tenantId userId body =>
    obtain ⟨call', -, rfl⟩ := Except.map_eq_ok.mp hlook
    cases hb
  | confirm tenantId userId reference =>
    obtain ⟨call', hcall, rfl⟩ := Except.map_eq_ok.mp hlook
    obtain ⟨ht, hu, -, howner, -⟩ := confirmReservationLookup_spec hcall
    obtain rfl := Option.some.inj hb
    exact ⟨(howned howner).1.trans hu.symm, (howned howner).2.trans ht.symm⟩
  | cancel tenantId userId reference reason =>
    obtain ⟨call', hcall, rfl⟩ := Except.map_eq_ok.mp hlook
    obtain ⟨ht, hu, -, -, howner, -⟩ := cancelReservationLookup_spec hcall
    obtain rfl := Option.some.inj hb
    exact ⟨(howned howner).1.trans hu.symm, (howned howner).2.trans ht.symm⟩

/-- A row that a commit writes is, but for its status, the one that its call read. -/
theorem read_of_rewrite {c : ℕ} {call : Call} {g : Generated} {now : Instant} {db db' : Database}
    (h : Change (.committed c call g) now db db') {b : Booking}
    (hb : db.bookings.get? b.id = some b) (hne : Event.rewrite (.committed c call g) b ≠ b) :
    ∃ b₀, call.booking? = some b₀ ∧ b₀.SameColumns b := by
  cases h with
  | quiet hq => cases hq
  | create => exact absurd rfl hne
  | @confirm _ call _ _ _ b₁ hb₁ hsame =>
    by_cases heq : call.booking.id = b.id
    · rw [heq] at hb₁
      obtain rfl := Option.some.inj (hb.symm.trans hb₁)
      exact ⟨_, rfl, hsame⟩
    · exact absurd (if_neg heq) hne
  | @cancel _ call _ _ _ b₁ _ _ hb₁ hsame =>
    by_cases heq : call.booking.id = b.id
    · rw [heq] at hb₁
      obtain rfl := Option.some.inj (hb.symm.trans hb₁)
      exact ⟨_, rfl, hsame⟩
    · exact absurd (if_neg heq) hne

/-- **A call writes only bookings of its own user.** -/
theorem owner_of_commit {ttl : ℕ} {s t : State} {c : ℕ} {call : Call} {g : Generated}
    (h : Step ttl s (.committed c call g) t) (hco : Coherent ttl s) {id : Uuid} {b' : Booking}
    (hb' : t.db.bookings.get? id = some b') (hnew : s.db.bookings.get? id ≠ some b') :
    b'.userId = call.userId ∧ b'.tenantId = call.tenantId := by
  have hc := (ran_of_step h rfl).1
  have hchange := change_of_step h hco
  rcases new_booking_of_change hchange hb' with ⟨b, hb, rfl⟩ | ⟨-, hcreates⟩
  · obtain ⟨b₀, hb₀, hsame⟩ := read_of_rewrite hchange (get?_own hb) fun heq =>
      hnew (heq.symm ▸ hb)
    obtain ⟨hu, ht⟩ := owner_of_waiting hco hc hb₀
    have hlater := hsame.trans (Event.rewrite_sameColumns (.committed c call g) b)
    exact ⟨hlater.userId_eq.trans hu, hlater.tenantId_eq.trans ht⟩
  · obtain ⟨_, _, _, _, he, -, rfl, -⟩ := hcreates
    obtain ⟨-, rfl, -⟩ := Event.committed.inj he
    exact ⟨rfl, rfl⟩

/-- Who a history row of a booking names, and the reason it gives. -/
def ActsFor (b : Booking) (row : BookingStatusHistory) : Prop :=
  match row.toStatus with
  | .reserved | .confirmed => row.actorUserId = some b.userId ∧ row.reason = none
  | .cancelled => row.actorUserId = some b.userId ∧ row.reason ≠ none
  | .expired => row.actorUserId = none ∧ row.reason = some "Reservation hold expired"

theorem ActsFor.congr {b b' : Booking} {row : BookingStatusHistory} (h : ActsFor b row)
    (hsame : b.SameColumns b') : ActsFor b' row := by
  unfold ActsFor at h ⊢
  rwa [hsame.userId_eq]

/-- What a step appends to the history. -/
theorem row_of_step {ttl : ℕ} {s t : State} {e : Event} (h : Step ttl s e t)
    (hco : Coherent ttl s) : t.db.bookingStatusHistory = s.db.bookingStatusHistory ∨
    ∃ row b, t.db.bookingStatusHistory = s.db.bookingStatusHistory ++ [row] ∧
      t.db.bookings.get? row.bookingId = some b ∧ ActsFor b row ∧ row.createdAt = s.now := by
  have hchange := change_of_step h hco
  have howner : ∀ {c call g b}, e = .committed c call g → call.booking? = some b →
      b.userId = call.userId := by
    intro c call g b he hb
    rw [he] at h
    exact (owner_of_waiting hco (ran_of_step h rfl).1 hb).1
  generalize s.db = db at hchange ⊢
  generalize t.db = db' at hchange ⊢
  cases hchange with
  | quiet => exact Or.inl rfl
  | @create c call g _ _ slot' partySize hfree =>
    refine Or.inr ⟨_, call.booking partySize g s.now, rfl, ?_, ⟨rfl, rfl⟩, rfl⟩
    exact (Table.get?_insert hfree _).trans (if_pos rfl)
  | @confirm c call g _ _ b hb hsame =>
    refine Or.inr ⟨_, b.confirm, rfl, (get?_rewritten Booking.confirm hb rfl).1, ⟨?_, rfl⟩, rfl⟩
    exact congrArg some ((howner rfl rfl).symm.trans hsame.userId_eq.symm)
  | @cancel c call g _ _ b slot slot' hb hsame =>
    refine Or.inr ⟨_, b.cancel, rfl, (get?_rewritten Booking.cancel hb rfl).1, ⟨?_, ?_⟩, rfl⟩
    · exact congrArg some ((howner rfl rfl).symm.trans hsame.userId_eq.symm)
    · exact Option.some_ne_none _
  | @expire w g _ _ b slot slot' hb =>
    exact Or.inr ⟨_, b.expire, rfl, (get?_rewritten Booking.expire hb rfl).1, ⟨rfl, rfl⟩, rfl⟩

/-- What holds of bookings and history rows in every reachable state. -/
structure ActorsInvariant (ttl : ℕ) (s : State) : Prop where
  coherent : Coherent ttl s
  made : ∀ id b, s.db.bookings.get? id = some b → b.createdAt ≤ s.now
  rows : ∀ row ∈ s.db.bookingStatusHistory, ∃ b, s.db.bookings.get? row.bookingId = some b ∧
    ActsFor b row ∧ b.createdAt ≤ row.createdAt ∧ row.createdAt ≤ s.now

theorem actorsInvariant_step {ttl : ℕ} (s : State) (e : Event) (t : State) (h : Step ttl s e t)
    (hs : ActorsInvariant ttl s) : ActorsInvariant ttl t := by
  have hchange := change_of_step h hs.coherent
  have hnow := now_le_of_step h
  have hmade : ∀ id b, t.db.bookings.get? id = some b → b.createdAt ≤ s.now := by
    intro id b hb
    rcases new_booking_of_change hchange hb with ⟨b₀, hb₀, rfl⟩ | ⟨-, _, _, _, _, -, -, rfl, -⟩
    · have hle := hs.made id b₀ hb₀
      rwa [e.rewrite_sameColumns b₀]
    · exact le_refl s.now
  have hold : ∀ row ∈ s.db.bookingStatusHistory, ∃ b, t.db.bookings.get? row.bookingId = some b ∧
      ActsFor b row ∧ b.createdAt ≤ row.createdAt ∧ row.createdAt ≤ t.now := by
    intro row hrow
    obtain ⟨b, hb, hacts, hle, hle'⟩ := hs.rows row hrow
    have hsame := e.rewrite_sameColumns b
    refine ⟨_, booking_of_change hchange hb, hacts.congr hsame, ?_, hle'.trans hnow⟩
    rwa [hsame]
  refine ⟨coherent_step h hs.coherent, fun id b hb => (hmade id b hb).trans hnow, ?_⟩
  rcases row_of_step h hs.coherent with hsame | ⟨row, b, happend, hb, hacts, hat⟩
  · rwa [hsame]
  · intro row' hrow'
    rw [happend, List.mem_append, List.mem_singleton] at hrow'
    rcases hrow' with hrow' | rfl
    · exact hold row' hrow'
    · exact ⟨b, hb, hacts, hat ▸ hmade _ b hb, hat ▸ hnow⟩

theorem Database.NoBookings.actorsInvariant {ttl : ℕ} {s : State} (h : s.db.NoBookings)
    (hidle : s.Idle) : ActorsInvariant ttl s where
  coherent := hidle.coherent
  made := fun id b hb => by
    rw [h.bookings] at hb
    cases hb
  rows := fun row hrow => by
    rw [h.history] at hrow
    cases hrow

/-- **Only owners and the clock act on bookings.** In every run from a store
without bookings, a call that commits changes only bookings of its own user and
tenant; and every history row is of a booking that is there, is no older than it,
and names the booking's owner and no reason when it was reserved or confirmed, the
owner and a reason when it was cancelled, and nobody, with the fixed reason, when
its hold had expired. -/
theorem actors_are_owners {ttl : ℕ} {s t : State} {tr : List (Transition State Event)}
    (hrun : Run (Step ttl) s tr t) (hidle : s.Idle) (hempty : s.db.NoBookings) :
    (∀ x ∈ tr, ∀ c call g, x.event = .committed c call g → ∀ id b',
      x.post.db.bookings.get? id = some b' → x.pre.db.bookings.get? id ≠ some b' →
      b'.userId = call.userId ∧ b'.tenantId = call.tenantId) ∧
    ∀ row ∈ t.db.bookingStatusHistory, ∃ b, t.db.bookings.get? row.bookingId = some b ∧
      ActsFor b row ∧ b.createdAt ≤ row.createdAt ∧ row.createdAt ≤ t.now := by
  have hinv : ActorsInvariant ttl s := hempty.actorsInvariant hidle
  constructor
  · intro x hx c call g hcommit id b' hb' hnew
    have hstep := hrun.step_of_mem hx
    have hco := (hrun.invariant_mem (I := ActorsInvariant ttl) actorsInvariant_step hinv hx).1
    rw [hcommit] at hstep
    exact owner_of_commit hstep hco.coherent hb' hnew
  · exact (hrun.invariant (I := ActorsInvariant ttl) actorsInvariant_step hinv).rows

/-- The row of a late confirmation names the user of the booking. -/
theorem actors_are_owners_late_confirm :
    ∃ row ∈ LateConfirm.confirmed.bookingStatusHistory, row.toStatus = .confirmed ∧ ∃ b,
      LateConfirm.confirmed.bookings.get? row.bookingId = some b ∧ ActsFor b row := by
  have hconfirmed : ∃ row ∈ LateConfirm.confirmed.bookingStatusHistory,
      row.toStatus = .confirmed := by decide +kernel
  obtain ⟨row, hrow, hstatus⟩ := hconfirmed
  obtain ⟨b, hb, hacts, -⟩ :=
    (actors_are_owners LateConfirm.run LateConfirm.idle LateConfirm.noBookings).2 row hrow
  exact ⟨row, hrow, hstatus, b, hb, hacts⟩

end BookingPlatform
