import BookingPlatform.BookingSystem

/-!
# Capacity

Two accounts of a slot's places: the column `reserved`, which the guarded
`UPDATE`s of `adjustSlotReserved` keep, and the party sizes of the slot's active
bookings, which the status writes keep.  The first stays within the capacity
whatever the bookings do.  The two agree for as long as no confirmation revives
a booking that was cancelled or expired after it was looked up.

## Main definitions

* `WithinCapacity`, `SafeUpdates` — the bounds and the arithmetic of `reserved`.
* `Database.activePlaces`, `ExactAccounting` — the places of the active bookings, and
  that `reserved` is their sum.
* `Event.ConfirmsOn` — a confirmation finds a booking in a status of some kind.

## Main results

* `reserved_within_capacity` — bounds and arithmetic safety of `reserved`.
* `reserved_of_run` — `reserved` is what it was plus what the commits took.
* `reserved_exact_iff` — when `reserved` is the sum over the active bookings.
-/

namespace BookingPlatform

open Runs

/-! ### Bounds -/

/-- Every slot has between none and all of its places reserved. -/
def WithinCapacity (db : Database) : Prop :=
  ∀ slot ∈ db.availabilitySlots, 0 ≤ (slot.reserved : ℤ) ∧ (slot.reserved : ℤ) ≤ slot.capacity

/-- Whether every slot is within its capacity can be decided. -/
instance (db : Database) : Decidable (WithinCapacity db) :=
  inferInstanceAs (Decidable (∀ slot ∈ db.availabilitySlots.rows, _))

/-- What the two `UPDATE`s of `adjustSlotReserved` compute on a row that their
condition matches stays within the bounds of the row and of the column. -/
def SafeUpdates (slot : AvailabilitySlot) : Prop :=
  ∀ (slotId tenantId : Uuid) (expectedVersion : Int4),
    (∀ delta > 0, reserveGuard slotId tenantId delta expectedVersion slot = true →
      0 ≤ slot.reserved + delta ∧ slot.reserved + delta ≤ slot.capacity ∧
        slot.reserved + delta ≤ 2147483647) ∧
    ∀ delta ≤ 0, releaseGuard slotId tenantId |delta| expectedVersion slot = true →
      0 ≤ slot.reserved - |delta| ∧ slot.reserved - |delta| ≤ slot.reserved

theorem SlotAdjusted.capacity_eq {delta : ℤ} {slot slot' : AvailabilitySlot}
    (hadj : SlotAdjusted delta slot slot') : slot'.capacity = slot.capacity := by
  rw [hadj.frame]

/-- An adjustment keeps a slot within its bounds: taking places stops at the
capacity, giving them back stops at zero. -/
theorem SlotAdjusted.within {delta : ℤ} {slot slot' : AvailabilitySlot}
    (hadj : SlotAdjusted delta slot slot') (hroom : HasRoom delta slot)
    (h : 0 ≤ (slot.reserved : ℤ) ∧ (slot.reserved : ℤ) ≤ slot.capacity) :
    0 ≤ (slot'.reserved : ℤ) ∧ (slot'.reserved : ℤ) ≤ slot'.capacity := by
  rw [hadj.reserved, hadj.capacity_eq]
  unfold HasRoom at hroom
  split at hroom <;> constructor <;> omega

theorem safeUpdates_of_within {slot : AvailabilitySlot}
    (h : 0 ≤ (slot.reserved : ℤ) ∧ (slot.reserved : ℤ) ≤ slot.capacity) : SafeUpdates slot := by
  intro slotId tenantId expectedVersion
  refine ⟨fun delta hpos hguard => ?_, fun delta hneg hguard => ?_⟩
  · rw [reserveGuard_eq_true] at hguard
    have hcap := slot.capacity.upper
    exact ⟨by omega, by omega, by omega⟩
  · rw [releaseGuard_eq_true] at hguard
    have hrelease := abs_nonneg delta
    exact ⟨by omega, by omega⟩

/-- The slot a step leaves under an identifier, and the one it found there. -/
theorem slot_origin {e : Event} {now : Instant} {db db' : Database} (h : Change e now db db')
    {slot' : AvailabilitySlot} (hs' : slot' ∈ db'.availabilitySlots) :
    ∃ slot, db.availabilitySlots.get? slot'.id = some slot ∧
      if e.slotId? = some slot'.id then HasRoom e.delta slot ∧ SlotAdjusted e.delta slot slot'
      else slot' = slot := by
  have hget' : db'.availabilitySlots.get? slot'.id = some slot' := Table.get?_key hs'
  cases hs : db.availabilitySlots.get? slot'.id with
  | none => exact absurd hget' (by simp [no_slot_of_change h hs])
  | some slot =>
    obtain ⟨slot₁, hs₁, hrow⟩ := slot_of_change h hs
    obtain rfl : slot' = slot₁ := Option.some.inj (hget'.symm.trans hs₁)
    exact ⟨slot, rfl, hrow⟩

theorem within_of_change {e : Event} {now : Instant} {db db' : Database} (h : Change e now db db')
    (hdb : WithinCapacity db) : WithinCapacity db' := by
  intro slot' hs'
  obtain ⟨slot, hs, hrow⟩ := slot_origin h hs'
  have hbounds := hdb slot (Table.get?_eq_some.mp hs).1
  split at hrow
  · exact hrow.2.within hrow.1 hbounds
  · rw [hrow]
    exact hbounds

/-- The capacity of the slot with an identifier, if there is one. -/
def Database.capacity? (db : Database) (id : Uuid) : Option Int4 :=
  (db.availabilitySlots.get? id).map AvailabilitySlot.capacity

theorem capacity_of_change {e : Event} {now : Instant} {db db' : Database}
    (h : Change e now db db') (id : Uuid) : db'.capacity? id = db.capacity? id := by
  unfold Database.capacity?
  cases hs : db.availabilitySlots.get? id with
  | none => rw [no_slot_of_change h hs]
  | some slot =>
    obtain ⟨slot', hs', hrow⟩ := slot_of_change h hs
    rw [hs']
    split at hrow
    · simp [hrow.2.capacity_eq]
    · simp [hrow]

/-- Capacities never change along a run. -/
theorem capacity_run {ttl : ℕ} {s t : State} {tr : List (Transition State Event)}
    (hrun : Run (Step ttl) s tr t) (hs : Coherent ttl s) :
    t.db.capacity? = s.db.capacity? := by
  have := hrun.related (I := Coherent ttl)
    (Q := fun s t : State => t.db.capacity? = s.db.capacity?) (fun _ => rfl)
    (fun _ _ _ h h' => h'.trans h) (fun _ _ _ => coherent_step)
    (fun _ _ _ hstep hco => funext (capacity_of_change (change_of_step hstep hco)))
  exact this hs

theorem within_run {ttl : ℕ} {s t : State} {tr : List (Transition State Event)}
    (hrun : Run (Step ttl) s tr t) (hs : Coherent ttl s) (hdb : WithinCapacity s.db) :
    WithinCapacity t.db := by
  refine (hrun.invariant (I := fun s => Coherent ttl s ∧ WithinCapacity s.db) ?_ ⟨hs, hdb⟩).2
  rintro s e t hstep ⟨hco, hdb⟩
  exact ⟨coherent_step hstep hco, within_of_change (change_of_step hstep hco) hdb⟩

/-- **`reserved` stays between zero and the capacity, the capacity never
changes, and neither `UPDATE` of `adjustSlotReserved` can overflow or go below
zero**, in every state of every run, whatever races. -/
theorem reserved_within_capacity {ttl : ℕ} {s t : State} {tr : List (Transition State Event)}
    (hrun : Run (Step ttl) s tr t) (hidle : s.Idle) (hslots : WithinCapacity s.db) :
    WithinCapacity t.db ∧ (∀ id, t.db.capacity? id = s.db.capacity? id) ∧
      ∀ slot ∈ t.db.availabilitySlots, SafeUpdates slot := by
  have hwithin := within_run hrun hidle.coherent hslots
  exact ⟨hwithin, congrFun (capacity_run hrun hidle.coherent),
    fun slot hslot => safeUpdates_of_within (hwithin slot hslot)⟩

/-- After a booking was made, cancelled and confirmed late, its slot is still
within its bounds. -/
theorem reserved_within_capacity_late_confirm : WithinCapacity LateConfirm.s₆.db :=
  (reserved_within_capacity LateConfirm.run LateConfirm.idle (by decide)).1

/-! ### The places that commits take -/

/-- The places a step takes from one slot. -/
def Event.deltaOf (slotId : Uuid) (e : Event) : ℤ :=
  if e.slotId? = some slotId then e.delta else 0

theorem Event.deltaOf_of_quiet {e : Event} (h : e.commits = false) (slotId : Uuid) :
    e.deltaOf slotId = 0 := by
  simp [deltaOf, Event.slotId?_of_quiet h]

/-- The reserved places of a slot, zero when there is none. -/
def Database.reservedOf (db : Database) (slotId : Uuid) : ℤ :=
  ((db.availabilitySlots.get? slotId).map fun slot => (slot.reserved : ℤ)).getD 0

theorem Database.reservedOf_eq {db : Database} {slotId : Uuid} {slot : AvailabilitySlot}
    (h : db.availabilitySlots.get? slotId = some slot) : db.reservedOf slotId = slot.reserved := by
  simp [reservedOf, h]

/-- A step that adjusts a slot finds it. -/
theorem slot_of_slotId {e : Event} {now : Instant} {db db' : Database} (h : Change e now db db')
    {slotId : Uuid} (he : e.slotId? = some slotId) :
    ∃ slot, db.availabilitySlots.get? slotId = some slot := by
  cases h with
  | quiet hq => simp [Event.slotId?_of_quiet hq] at he
  | create hfree hs =>
    obtain rfl := Option.some.inj he
    exact ⟨_, hs⟩
  | confirm => simp [Event.slotId?] at he
  | cancel hb hsame hact hs =>
    obtain rfl := Option.some.inj he
    exact ⟨_, hsame.slotId_eq ▸ hs⟩
  | expire hb hover hs =>
    obtain rfl := Option.some.inj he
    exact ⟨_, hs⟩

/-- A column of a slot over one step, when an adjustment of the slot moves it by
`d`. -/
theorem column_of_change {e : Event} {now : Instant} {db db' : Database} (h : Change e now db db')
    {column : AvailabilitySlot → ℤ} {d : ℤ}
    (hadj : ∀ slot slot', SlotAdjusted e.delta slot slot' → column slot' = column slot + d)
    (slotId : Uuid) : (db'.availabilitySlots.get? slotId).elim 0 column =
      (db.availabilitySlots.get? slotId).elim 0 column +
        if e.slotId? = some slotId then d else 0 := by
  cases hs : db.availabilitySlots.get? slotId with
  | some slot =>
    obtain ⟨slot', hs', hrow⟩ := slot_of_change h hs
    rw [hs', Option.elim, Option.elim]
    split at hrow
    · next htouch => rw [if_pos htouch, hadj _ _ hrow.2]
    · next htouch => rw [if_neg htouch, hrow, add_zero]
  | none =>
    have hne : e.slotId? ≠ some slotId := by
      intro he
      obtain ⟨slot, hs'⟩ := slot_of_slotId h he
      rw [hs] at hs'
      cases hs'
    rw [no_slot_of_change h hs, if_neg hne, add_zero]

theorem reserved_of_change {e : Event} {now : Instant} {db db' : Database}
    (h : Change e now db db') (slotId : Uuid) :
    db'.reservedOf slotId = db.reservedOf slotId + e.deltaOf slotId := by
  have helim : ∀ db : Database, db.reservedOf slotId =
      (db.availabilitySlots.get? slotId).elim 0 fun slot => (slot.reserved : ℤ) := by
    intro db
    unfold Database.reservedOf
    cases db.availabilitySlots.get? slotId <;> rfl
  rw [helim, helim, Event.deltaOf]
  exact column_of_change h (fun _ _ hadj => hadj.reserved) slotId

/-- **The ledger of a slot.** `reserved` is what it was plus what the commits of
the run took. -/
theorem reserved_of_run {ttl : ℕ} {s t : State} {tr : List (Transition State Event)}
    (hrun : Run (Step ttl) s tr t) (hs : Coherent ttl s) (slotId : Uuid) :
    t.db.reservedOf slotId =
      s.db.reservedOf slotId + (tr.map fun x => x.event.deltaOf slotId).sum :=
  hrun.tally (I := Coherent ttl) (φ := fun s => s.db.reservedOf slotId)
    (fun _ _ _ => coherent_step)
    (fun _ _ _ hstep hco => reserved_of_change (change_of_step hstep hco) slotId) hs

/-! ### The places that active bookings hold -/

/-- What a booking holds of a slot. -/
def Booking.holds (slotId : Uuid) (b : Booking) : ℤ :=
  if b.slotId = slotId ∧ b.status.isActive = true then b.partySize else 0

/-- The party sizes of the active bookings of a slot, summed. -/
def Database.activePlaces (db : Database) (slotId : Uuid) : ℤ :=
  Table.sum (Booking.holds slotId) db.bookings

/-- `reserved` is, for every slot, the sum over its active bookings. -/
def ExactAccounting (db : Database) : Prop :=
  ∀ slot ∈ db.availabilitySlots, (slot.reserved : ℤ) = db.activePlaces slot.id

/-- A confirmation that commits finds the row of its booking in a status that
meets `p`. -/
def Event.ConfirmsOn (p : BookingStatus → Prop) (db : Database) : Event → Prop
  | .committed _ (.confirm call) _ =>
    ∃ b, db.bookings.get? call.booking.id = some b ∧ p b.status
  | _ => True

/-- What holds of the rows that confirmations find. -/
theorem confirmsOn_of_change {p : BookingStatus → Prop} {e : Event} {now : Instant}
    {db db' : Database} (h : Change e now db db')
    (hp : ∀ c call g b, e = .committed c (.confirm call) g →
      db.bookings.get? call.booking.id = some b → call.booking.SameColumns b → p b.status) :
    e.ConfirmsOn p db := by
  cases h with
  | @quiet e _ _ hq =>
    unfold Event.ConfirmsOn
    split
    · cases hq
    · trivial
  | @confirm c call g _ _ b hb hsame => exact ⟨b, hb, hp c call g b rfl hb hsame⟩
  | create | cancel | expire => trivial

theorem Booking.holds_active {b : Booking} (h : b.status.isActive = true) (slotId : Uuid) :
    b.holds slotId = if b.slotId = slotId then (b.partySize : ℤ) else 0 := by
  simp [holds, h]

theorem Booking.holds_inactive {b : Booking} (h : b.status.isActive = false) (slotId : Uuid) :
    b.holds slotId = 0 := by
  simp [holds, h]

/-- **A commit moves both accounts alike**, unless it confirms a booking that is
no longer active. -/
theorem activePlaces_of_change {e : Event} {now : Instant} {db db' : Database}
    (h : Change e now db db') (hconf : e.ConfirmsOn (fun st => st.isActive = true) db)
    (slotId : Uuid) : db'.activePlaces slotId = db.activePlaces slotId + e.deltaOf slotId := by
  have hrelease : ∀ {x : Booking} (x' : Booking), db.bookings.get? x.id = some x → x'.id = x.id →
      x.status.isActive = true → x'.status.isActive = false →
      Table.sum (Booking.holds slotId) (db.bookings.put x') =
        db.activePlaces slotId + if x.slotId = slotId then -(x.partySize : ℤ) else 0 := by
    intro x x' hx hid hact hact'
    rw [Table.sum_put (o := x) (by simpa [hid] using hx), Booking.holds_active hact,
      Booking.holds_inactive hact', Database.activePlaces]
    split <;> ring
  cases h with
  | quiet hq => rw [Event.deltaOf_of_quiet hq, add_zero]
  | @create c call g _ _ slot' partySize hfree hs hroom hadj hp =>
    refine (Table.sum_insert hfree).trans ?_
    rw [Booking.holds_active rfl, Database.activePlaces]
    simp only [CreateCall.booking, hp, Event.deltaOf, Event.slotId?, Event.delta,
      Option.some.injEq]
  | @confirm c call g _ _ b hb =>
    obtain ⟨b₁, hb₁, hact⟩ := hconf
    obtain rfl : b = b₁ := Option.some.inj (hb.symm.trans hb₁)
    refine (Table.sum_put (r := b.confirm) (o := b) (get?_own hb)).trans ?_
    -- an active booking holds its places before and after its confirmation
    have hsame : b.confirm.holds slotId = b.holds slotId := by
      rw [Booking.holds_active hact, Booking.holds_active (b := b.confirm) rfl]
      rfl
    rw [hsame, sub_add_cancel]
    simp [Event.deltaOf, Event.slotId?, Database.activePlaces]
  | @cancel c call g _ _ b slot slot' hb hsame hact =>
    refine (hrelease b.cancel (get?_own hb) rfl hact rfl).trans ?_
    simp only [Event.deltaOf, Event.slotId?, Event.delta, Option.some.injEq, hsame.slotId_eq,
      hsame.partySize_eq]
  | @expire w g _ _ b slot slot' hb hover =>
    have hact : b.status.isActive = true := by rw [overdue_status hover]; rfl
    refine (hrelease b.expire hb rfl hact rfl).trans ?_
    simp only [Event.deltaOf, Event.slotId?, Event.delta, Option.some.injEq, Booking.stale]

/-- A confirmation of a booking that is no longer active makes it hold its
places again. -/
theorem activePlaces_of_late_confirm {c : ℕ} {call : ConfirmCall} {g : Generated} {now : Instant}
    {db db' : Database} (h : Change (.committed c (.confirm call) g) now db db') {b : Booking}
    (hb : db.bookings.get? call.booking.id = some b) (hact : b.status.isActive = false) :
    db'.activePlaces b.slotId = db.activePlaces b.slotId + b.partySize := by
  cases h with
  | quiet hq => simp [Event.commits] at hq
  | @confirm _ _ _ _ _ b₁ hb₁ =>
    obtain rfl : b = b₁ := Option.some.inj (hb.symm.trans hb₁)
    refine (Table.sum_put (r := b.confirm) (o := b) (get?_own hb)).trans ?_
    rw [Booking.holds_inactive hact, Booking.holds_active (b := b.confirm) rfl,
      Database.activePlaces]
    simp [Booking.confirm]

/-- Every booking is for at least one person and for a slot that exists. -/
def BookingsPlaced (db : Database) : Prop :=
  ∀ b ∈ db.bookings, 1 ≤ (b.partySize : ℤ) ∧
    ∃ slot, db.availabilitySlots.get? b.slotId = some slot

theorem placed_of_change {e : Event} {now : Instant} {db db' : Database} (h : Change e now db db')
    (hdb : BookingsPlaced db) : BookingsPlaced db' := by
  intro b' hb'
  -- slots are never deleted
  have hslot : ∀ {id slot}, db.availabilitySlots.get? id = some slot →
      ∃ slot', db'.availabilitySlots.get? id = some slot' := by
    intro id slot hs
    obtain ⟨slot', hs', -⟩ := slot_of_change h hs
    exact ⟨slot', hs'⟩
  rcases new_booking_of_change h (Table.get?_key hb') with ⟨b, hb, rfl⟩ | ⟨-, hnew⟩
  · have hsame := e.rewrite_sameColumns b
    obtain ⟨hsize, slot, hs⟩ := hdb b (Table.get?_eq_some.mp hb).1
    rw [hsame.partySize_eq, hsame.slotId_eq]
    exact ⟨hsize, hslot hs⟩
  · obtain ⟨c, call, g, partySize, -, -, rfl, hp, hs⟩ := hnew
    exact ⟨by simpa [CreateCall.booking, hp] using call.body.one_le_partySize, hslot hs⟩

/-- **Accounting stays exact over a step exactly when the step does not confirm
a booking that is no longer active.** -/
theorem exact_of_change_iff {e : Event} {now : Instant} {db db' : Database}
    (h : Change e now db db') (hplaced : BookingsPlaced db) (hex : ExactAccounting db) :
    ExactAccounting db' ↔ e.ConfirmsOn (fun st => st.isActive = true) db := by
  constructor
  · intro hex'
    refine confirmsOn_of_change h ?_
    rintro c call g b rfl hb -
    by_contra hact
    rw [Bool.not_eq_true] at hact
    -- the booking's places were given back, and now they are held again
    obtain ⟨hsize, slot, hs⟩ := hplaced b (Table.get?_eq_some.mp hb).1
    obtain ⟨hmem, hid⟩ := Table.get?_eq_some.mp hs
    have hbefore := hex slot hmem
    have hlate := activePlaces_of_late_confirm h hb hact
    rw [← show slot.id = b.slotId from hid] at hlate
    obtain ⟨slot', hs', hrow⟩ := slot_of_change h hs
    obtain rfl : slot' = slot := by simpa [Event.slotId?] using hrow
    have hafter := hex' slot' (Table.get?_eq_some.mp hs').1
    omega
  · intro hconf slot' hs'
    obtain ⟨slot, hs, -⟩ := slot_origin h hs'
    have hbefore := hex slot (Table.get?_eq_some.mp hs).1
    have hid : slot.id = slot'.id := (Table.get?_eq_some.mp hs).2
    have hres := reserved_of_change h slot'.id
    have hget' : db'.availabilitySlots.get? slot'.id = some slot' := Table.get?_key hs'
    rw [Database.reservedOf_eq hs, Database.reservedOf_eq hget'] at hres
    rw [activePlaces_of_change h hconf, hres, hbefore, hid]

/-! ### Exact accounting over runs -/

/-- No booking has been made. -/
structure Unbooked (db : Database) : Prop where
  bookings : db.bookings.rows = []
  reserved : ∀ slot ∈ db.availabilitySlots, (slot.reserved : ℤ) = 0

theorem Unbooked.placed {db : Database} (h : Unbooked db) : BookingsPlaced db := by
  intro b hb
  rw [Table.mem_def, h.bookings] at hb
  cases hb

theorem Unbooked.exact {db : Database} (h : Unbooked db) : ExactAccounting db := by
  intro slot hslot
  rw [h.reserved slot hslot, Database.activePlaces, Table.sum, h.bookings]
  rfl

theorem coherent_placed_step {ttl : ℕ} (s : State) (e : Event) (t : State) (hstep : Step ttl s e t)
    (h : Coherent ttl s ∧ BookingsPlaced s.db) : Coherent ttl t ∧ BookingsPlaced t.db :=
  ⟨coherent_step hstep h.1, placed_of_change (change_of_step hstep h.1) h.2⟩

/-- Exact accounting along a run, when nothing is booked at its start. -/
theorem exact_run_iff {ttl : ℕ} {s t : State} {tr : List (Transition State Event)}
    (hrun : Run (Step ttl) s tr t) (hidle : s.Idle) (hnew : Unbooked s.db) :
    (∀ x ∈ tr, ExactAccounting x.post.db) ↔
      ∀ x ∈ tr, x.event.ConfirmsOn (fun st => st.isActive = true) x.pre.db :=
  hrun.forall_post_iff (I := fun s => Coherent ttl s ∧ BookingsPlaced s.db)
    (P := fun s => ExactAccounting s.db)
    (C := fun x => x.event.ConfirmsOn (fun st => st.isActive = true) x.pre.db)
    coherent_placed_step
    (fun _ _ _ hstep h hex => exact_of_change_iff (change_of_step hstep h.1) h.2 hex)
    ⟨hidle.coherent, hnew.placed⟩ hnew.exact

namespace LateConfirm

theorem unbooked : Unbooked database where
  bookings := rfl
  reserved := by
    intro s hs
    obtain rfl : s = slot := List.mem_singleton.mp hs
    rfl

/-- The slot has nothing reserved and a confirmed booking for two. -/
theorem not_exact : ¬ ExactAccounting confirmed := by
  intro h
  have hne : ∃ s ∈ confirmed.availabilitySlots.rows,
      (s.reserved : ℤ) ≠ confirmed.activePlaces s.id := by decide +kernel
  obtain ⟨s, hs, hne⟩ := hne
  exact hne (h s hs)

end LateConfirm

/-- **Exact capacity accounting.** From slots with nothing reserved and no
bookings, `reserved` is the sum over the active bookings in every state of a run
exactly when every confirmation that commits finds its booking still active; and
then no slot is oversold. -/
theorem reserved_exact_iff {ttl : ℕ} {s t : State} {tr : List (Transition State Event)}
    (hrun : Run (Step ttl) s tr t) (hidle : s.Idle) (hnew : Unbooked s.db) :
    ((ExactAccounting s.db ∧ ∀ x ∈ tr, ExactAccounting x.post.db) ↔
      ∀ x ∈ tr, x.event.ConfirmsOn (fun st => st.isActive = true) x.pre.db) ∧
    ((∀ x ∈ tr, x.event.ConfirmsOn (fun st => st.isActive = true) x.pre.db) →
      (∀ slot ∈ s.db.availabilitySlots, 0 ≤ (slot.capacity : ℤ)) →
      ∀ slot ∈ t.db.availabilitySlots, t.db.activePlaces slot.id ≤ slot.capacity) := by
  refine ⟨⟨fun h => (exact_run_iff hrun hidle hnew).mp h.2,
    fun h => ⟨hnew.exact, (exact_run_iff hrun hidle hnew).mpr h⟩⟩, ?_⟩
  intro hconf hcap slot hslot
  have hexact : ExactAccounting t.db :=
    hrun.last (P := fun s => ExactAccounting s.db) hnew.exact
      ((exact_run_iff hrun hidle hnew).mpr hconf)
  have hwithin : WithinCapacity s.db := by
    intro slot hslot
    rw [hnew.reserved slot hslot]
    exact ⟨le_refl 0, hcap slot hslot⟩
  rw [← hexact slot hslot]
  exact (within_run hrun hidle.coherent hwithin slot hslot).2

/-- **`reserved` is not always exact**: after a late confirmation it is not. -/
theorem reserved_not_always_exact : ¬ ∀ (ttl : ℕ) (s t : State)
    (tr : List (Transition State Event)), Run (Step ttl) s tr t → s.Idle → Unbooked s.db →
    ExactAccounting t.db := by
  intro h
  exact LateConfirm.not_exact (h 900 _ _ _ LateConfirm.run LateConfirm.idle LateConfirm.unbooked)

/-- On that schedule some confirmation finds its booking no longer active. -/
theorem reserved_exact_iff_late_confirm : ¬ ∀ x ∈ LateConfirm.steps,
    x.event.ConfirmsOn (fun st => st.isActive = true) x.pre.db := by
  intro hconf
  have hiff := (reserved_exact_iff LateConfirm.run LateConfirm.idle LateConfirm.unbooked).1
  have hlast := (hiff.mpr hconf).2 _ (List.mem_append_right (LateConfirm.steps.take 5)
    (List.mem_singleton_self _))
  exact LateConfirm.not_exact hlast

end BookingPlatform
