import BookingPlatform.Commits
import BookingPlatform.History
import BookingPlatform.Lib.Simulation

/-!
# Requests in one piece

A call reads at one time and writes at another, and other calls commit in
between.  The plain service this stands in for serves one request at a time,
lookup and transaction together.  The two agree where what a call read is still
current when it commits: the slot version sees to that for every creation, and
nothing does for the status of a booking.

## Main definitions

* `SerialStep` — the service that serves one request at a time.
* `Call.Current` — what a call read is what its commit finds.

## Main results

* `lookup_again` — a lookup whose rows are still current reads the same again.
* `serializable_iff_undisturbed` — the commits of a run are a run of the plain
  service exactly when no call is disturbed.
-/

namespace BookingPlatform

open Runs

/-! ### The plain service -/

/-- A request in one piece: its lookup and its transaction act on the same
database, the lookup with the clock reading it had.  An expiry is one transaction
of its own. -/
inductive SerialStep (ttl : ℕ) : Database → Event → Database → Prop
  | request {db db' : Database} {c : ℕ} {req : Request} {order : RowOrder} {call : Call}
      {g : Generated} {b : Booking} {readAt now : Instant} :
      readAt ≤ now → req.lookup ttl order db readAt = .ok call → g.Fresh db →
      (call.transaction g now).run db = .ok (b, db') →
      SerialStep ttl db (.committed c call g) db'
  | expire {db db' : Database} {w : ℕ} {b : Booking} {g : Generated} {now : Instant} :
      b ∈ db.bookings → overdue now b = true → g.Fresh db →
      (expireReservation b.stale g now).run db = .ok (true, db') →
      SerialStep ttl db (.expired w b.stale) db'

/-! ### What no call writes -/

/-- The tables that the lookups read and no call writes. -/
structure SameCatalogue (db db' : Database) : Prop where
  experiences : db'.experiences = db.experiences
  suppliers : db'.suppliers = db.suppliers
  pricingRules : db'.pricingRules = db.pricingRules

theorem SameCatalogue.refl (db : Database) : SameCatalogue db db := ⟨rfl, rfl, rfl⟩

theorem SameCatalogue.trans {db db' db'' : Database} (h : SameCatalogue db db')
    (h' : SameCatalogue db' db'') : SameCatalogue db db'' :=
  ⟨h'.experiences.trans h.experiences, h'.suppliers.trans h.suppliers,
    h'.pricingRules.trans h.pricingRules⟩

theorem sameCatalogue_of_change {e : Event} {now : Instant} {db db' : Database}
    (h : Change e now db db') : SameCatalogue db db' := by
  cases h <;> exact ⟨rfl, rfl, rfl⟩

theorem SameCatalogue.activePricingRules_eq {db db' : Database} (h : SameCatalogue db db')
    (order : RowOrder) (supplierId : Uuid) :
    activePricingRules order db' supplierId = activePricingRules order db supplierId := by
  rw [activePricingRules, activePricingRules, h.pricingRules]

/-! ### References -/

/-- The column `reference` is unique. -/
def ReferencesUnique (db : Database) : Prop :=
  ∀ b ∈ db.bookings, ∀ b' ∈ db.bookings, b.reference = b'.reference → b = b'

theorem Database.NoBookings.referencesUnique {db : Database} (h : db.NoBookings) :
    ReferencesUnique db := by
  intro b hb
  have hget := Table.get?_key hb
  rw [h.bookings] at hget
  cases hget

/-- The booking of an owner under a reference is the one that is found. -/
theorem ReferencesUnique.findFirst_ownedBy {db : Database} (h : ReferencesUnique db)
    {tenantId userId : Uuid} {reference : String} {b : Booking} (hb : b ∈ db.bookings)
    (howned : ownedBy tenantId userId reference b = true) :
    db.bookings.findFirst (ownedBy tenantId userId reference) = some b := by
  cases hfind : db.bookings.findFirst (ownedBy tenantId userId reference) with
  | none =>
    have hno := List.find?_eq_none.mp hfind b hb
    exact absurd howned hno
  | some b' =>
    obtain ⟨hb', howned'⟩ := Table.mem_of_findFirst hfind
    simp only [ownedBy, decide_eq_true_eq] at howned howned'
    rw [h b hb b' hb' (howned.2.2.trans howned'.2.2.symm)]

/-- A creation that commits has drawn a new reference. -/
theorem reference_of_create {ttl : ℕ} {s t : State} {c : ℕ} {call : CreateCall} {g : Generated}
    (h : Step ttl s (.committed c (.create call) g) t) :
    ∀ b ∈ s.db.bookings, b.reference ≠ g.reference := by
  cases h with
  | commit hc hg hrun =>
    obtain ⟨_, _, _, _, _, _, _, _, _, _, href, -⟩ := createReservationTransaction_ok.mp hrun
    exact href

theorem referencesUnique_of_step {ttl : ℕ} {s t : State} {e : Event} (h : Step ttl s e t)
    (hco : Coherent ttl s) (hs : ReferencesUnique s.db) : ReferencesUnique t.db := by
  have hchange := change_of_step h hco
  have hsame : ∀ b, (e.rewrite b).reference = b.reference := by
    intro b
    rw [e.rewrite_sameColumns b]
  -- a booking that is made here has a reference of its own
  have hnew : ∀ {b b' : Booking} {id : Uuid}, s.db.bookings.get? id = some b →
      Creates e s.now s.db b'.id b' → b.reference ≠ b'.reference := by
    intro b b' id hb hcreates
    obtain ⟨c, call, g, partySize, rfl, -, hb', -⟩ := hcreates
    have hne := reference_of_create h b (Table.get?_eq_some.mp hb).1
    rwa [hb']
  intro b₁ h₁ b₂ h₂ href
  rcases new_booking_of_change hchange (Table.get?_key h₁) with ⟨a₁, ha₁, rfl⟩ | ⟨-, hc₁⟩ <;>
    rcases new_booking_of_change hchange (Table.get?_key h₂) with ⟨a₂, ha₂, rfl⟩ | ⟨-, hc₂⟩
  · rw [hsame, hsame] at href
    rw [hs a₁ (Table.get?_eq_some.mp ha₁).1 a₂ (Table.get?_eq_some.mp ha₂).1 href]
  · rw [hsame] at href
    exact absurd href (hnew ha₁ hc₂)
  · rw [hsame] at href
    exact absurd href.symm (hnew ha₂ hc₁)
  · obtain ⟨_, _, _, _, rfl, hid₁, -⟩ := hc₁
    obtain ⟨_, _, _, _, he, hid₂, -⟩ := hc₂
    obtain ⟨-, -, rfl⟩ := Event.committed.inj he
    exact Table.eq_of_key h₁ h₂ (hid₁.symm.trans hid₂)

/-- What holds in every reachable state. -/
structure SerialInvariant (ttl : ℕ) (s : State) : Prop where
  coherent : Coherent ttl s
  references : ReferencesUnique s.db

theorem serialInvariant_step {ttl : ℕ} (s : State) (e : Event) (t : State) (h : Step ttl s e t)
    (hs : SerialInvariant ttl s) : SerialInvariant ttl t :=
  ⟨coherent_step h hs.coherent, referencesUnique_of_step h hs.coherent hs.references⟩

/-! ### Reading again -/

theorem confirmReservationLookup_ok {order : RowOrder} {tenantId userId : Uuid}
    {reference : String} {db : Database} {now : Instant} {call : ConfirmCall} :
    confirmReservationLookup order tenantId userId reference db now = .ok call ↔
      ∃ b, db.bookings.findFirst (ownedBy tenantId userId reference) = some b ∧
        (∃ experience, db.experiences.get? b.experienceId = some experience) ∧
        (∃ slot, db.availabilitySlots.get? b.slotId = some slot) ∧ b.status = .reserved ∧
        holdExpired b now = false ∧ call = ⟨tenantId, userId, b⟩ := by
  simp only [confirmReservationLookup, findOwnedBooking, Except.bind_eq_ok, orThrow_eq_ok,
    required_eq_ok, throwIf_eq_ok, Except.pure_eq_ok, assertTransition_some,
    confirmed_mem_allowedTransitions, Bool.not_eq_true]
  constructor
  · rintro ⟨_, ⟨b, hb, experience, he, slot, hs, rfl⟩, -, hst, -, hhold, rfl⟩
    exact ⟨b, hb, ⟨experience, he⟩, ⟨slot, hs⟩, hst, hhold, rfl⟩
  · rintro ⟨b, hb, ⟨experience, he⟩, ⟨slot, hs⟩, hst, hhold, rfl⟩
    exact ⟨_, ⟨b, hb, experience, he, slot, hs, rfl⟩, (), hst, (), hhold, rfl⟩

theorem cancelReservationLookup_ok {tenantId userId : Uuid} {reference reason : String}
    {db : Database} {call : CancelCall} :
    cancelReservationLookup tenantId userId reference reason db = .ok call ↔
      ∃ b slot, db.bookings.findFirst (ownedBy tenantId userId reference) = some b ∧
        db.availabilitySlots.get? b.slotId = some slot ∧ b.status.isActive = true ∧
        call = ⟨tenantId, userId, reason, b, slot.version⟩ := by
  simp only [cancelReservationLookup, Except.bind_eq_ok, orThrow_eq_ok, required_eq_ok,
    throwIf_eq_ok, Except.pure_eq_ok, Bool.not_eq_false, assertTransition_some, ← isActive_iff]
  constructor
  · rintro ⟨b, hb, slot, hs, -, hact, -, -, rfl⟩
    exact ⟨b, slot, hb, hs, hact, rfl⟩
  · rintro ⟨b, slot, hb, hs, hact, rfl⟩
    exact ⟨b, hb, slot, hs, (), hact, (), hact, rfl⟩

/-- The rows that a lookup left in a call are current. -/
def Call.Current (db : Database) : Call → Prop
  | .create call => db.availabilitySlots.get? call.slot.id = some call.slot
  | .confirm call => db.bookings.get? call.booking.id = some call.booking ∧
      ∃ slot, db.availabilitySlots.get? call.booking.slotId = some slot
  | .cancel call => db.bookings.get? call.booking.id = some call.booking ∧
      ∃ slot, db.availabilitySlots.get? call.booking.slotId = some slot ∧
        slot.version = call.slotVersion

/-- **A lookup whose rows are still current reads the same again.** -/
theorem lookup_again {ttl : ℕ} {req : Request} {order : RowOrder} {db db' : Database}
    {readAt : Instant} {call : Call} (h : req.lookup ttl order db readAt = .ok call)
    (hsame : SameCatalogue db db') (hrefs : ReferencesUnique db') (hcurrent : call.Current db') :
    req.lookup ttl order db' readAt = .ok call := by
  cases req with
  | create tenantId userId body =>
    obtain ⟨call, hcall, rfl⟩ := Except.map_eq_ok.mp h
    obtain ⟨slot, experience, supplier, hs, ht, he, hsup, hact, hcap, rfl⟩ :=
      createReservationLookup_ok.mp hcall
    have hid : slot.id = body.slotId := (Table.get?_eq_some.mp hs).2
    have hslot : db'.availabilitySlots.get? slot.id = some slot := hcurrent
    rw [hid] at hslot
    rw [← hsame.experiences] at he
    rw [← hsame.suppliers] at hsup
    refine Except.map_eq_ok.mpr ⟨_, createReservationLookup_ok.mpr
      ⟨slot, experience, supplier, hslot, ht, he, hsup, hact, hcap, ?_⟩, rfl⟩
    rw [hsame.activePricingRules_eq]
  | confirm tenantId userId reference =>
    obtain ⟨call, hcall, rfl⟩ := Except.map_eq_ok.mp h
    obtain ⟨b, hb, ⟨experience, he⟩, -, hst, hhold, rfl⟩ := confirmReservationLookup_ok.mp hcall
    obtain ⟨hrow, hslot⟩ := hcurrent
    rw [← hsame.experiences] at he
    exact Except.map_eq_ok.mpr ⟨_, confirmReservationLookup_ok.mpr
      ⟨b, hrefs.findFirst_ownedBy (Table.get?_eq_some.mp hrow).1 (Table.mem_of_findFirst hb).2,
        ⟨experience, he⟩, hslot, hst, hhold, rfl⟩, rfl⟩
  | cancel tenantId userId reference reason =>
    obtain ⟨call, hcall, rfl⟩ := Except.map_eq_ok.mp h
    obtain ⟨b, slot₀, hb, -, hact, rfl⟩ := cancelReservationLookup_ok.mp hcall
    obtain ⟨hrow, slot, hslot, hv⟩ := hcurrent
    refine Except.map_eq_ok.mpr ⟨_, cancelReservationLookup_ok.mpr
      ⟨b, slot, hrefs.findFirst_ownedBy (Table.get?_eq_some.mp hrow).1
        (Table.mem_of_findFirst hb).2, hslot, hact, ?_⟩, rfl⟩
    rw [hv]

/-! ### Commits -/

section Commits

variable {ttl : ℕ} {s t : State} {tr : List (Transition State Event)}

/-- A booking whose status nothing writes keeps its row. -/
theorem booking_untouched (hrun : Run (Step ttl) s tr t) (hco : Coherent ttl s) {id : Uuid}
    {b : Booking} (hb : s.db.bookings.get? id = some b)
    (hfree : ∀ x ∈ tr, ∀ status, x.event.writes? ≠ some (id, status)) :
    t.db.bookings.get? id = some b := by
  refine (hrun.invariant_of (I := fun s => Coherent ttl s ∧ s.db.bookings.get? id = some b)
    (C := fun x => ∀ status, x.event.writes? ≠ some (id, status)) ?_ hfree ⟨hco, hb⟩).2
  intro s e t hfree hstep hs
  obtain ⟨hco, hb⟩ := hs
  have hid : b.id = id := (Table.get?_eq_some.mp hb).2
  have hrow := booking_of_change (change_of_step hstep hco) hb
  rw [rewrite_of_not_writes (by rwa [hid])] at hrow
  exact ⟨coherent_step hstep hco, hrow⟩

theorem now_le_of_run (hrun : Run (Step ttl) s tr t) : s.now ≤ t.now :=
  hrun.related (I := fun _ => True) (Q := fun s t : State => s.now ≤ t.now)
    (fun s => le_refl s.now) (fun _ _ _ => le_trans) (fun _ _ _ _ _ => trivial)
    (fun _ _ _ hstep _ => now_le_of_step hstep) trivial

theorem sameCatalogue_run (hrun : Run (Step ttl) s tr t) (hco : Coherent ttl s) :
    SameCatalogue s.db t.db :=
  hrun.related (I := Coherent ttl) (Q := fun s t : State => SameCatalogue s.db t.db)
    (fun s => .refl s.db) (fun _ _ _ => SameCatalogue.trans) (fun _ _ _ => coherent_step)
    (fun _ _ _ hstep hco => sameCatalogue_of_change (change_of_step hstep hco)) hco

/-- **The rows of a call are current when it commits**, if its booking was not
written since its lookup. -/
theorem current_of_commit {x y : Transition State Event} {mid : List (Transition State Event)}
    (hco : Coherent ttl x.pre) (hx : Step ttl x.pre x.event x.post)
    (hmid : Run (Step ttl) x.post mid y.pre) (hy : Step ttl y.pre y.event y.post) {c : ℕ}
    {call : Call} {g : Generated} (hlook : x.event = .lookedUp c call)
    (hcommit : y.event = .committed c call g)
    (hfree : ∀ b, call.booking? = some b → ∀ z ∈ mid, ∀ status,
      z.event.writes? ≠ some (b.id, status)) : call.Current y.pre.db := by
  have hpost := coherent_step hx hco
  have hchange := change_of_step hy (coherent_run hmid hpost)
  have hev := evolves_run hmid hpost
  rw [hcommit] at hchange
  rw [hlook] at hx
  have hrow : ∀ b, call.booking? = some b → y.pre.db.bookings.get? b.id = some b := fun b hb =>
    booking_untouched hmid hpost (read_of_lookedUp hx hb) (hfree b hb)
  obtain ⟨hdb, req, order, hread⟩ := lookup_of_step hx
  cases call with
  | create call => exact slot_of_create hchange
  | confirm call =>
    refine ⟨hrow _ rfl, ?_⟩
    cases req with
    | create | cancel =>
      obtain ⟨_, -, hinj⟩ := Except.map_eq_ok.mp hread
      cases hinj
    | confirm tenantId userId reference =>
      obtain ⟨_, hcall, hinj⟩ := Except.map_eq_ok.mp hread
      obtain ⟨b, -, -, ⟨slot, hs⟩, -, -, rfl⟩ := confirmReservationLookup_ok.mp hcall
      obtain rfl := Call.confirm.inj hinj
      rw [← hdb] at hs
      obtain ⟨slot', hs', -⟩ := hev.slot _ _ hs
      exact ⟨slot', hs'⟩
  | cancel call =>
    obtain ⟨slot, hs, hv⟩ := slot_of_cancel hchange
    exact ⟨hrow _ rfl, slot, hs, hv⟩

/-- The transaction behind a commit. -/
theorem transaction_of_commit {c : ℕ} {call : Call} {g : Generated}
    (h : Step ttl s (.committed c call g) t) :
    g.Fresh s.db ∧ ∃ b, (call.transaction g s.now).run s.db = .ok (b, t.db) := by
  cases h with
  | commit hc hg hrun => exact ⟨hg, _, hrun⟩

/-- **A commit whose call is not disturbed is a step of the plain service.** -/
theorem serial_of_commit (hrun : Run (Step ttl) s tr t) (hidle : s.Idle)
    (hrefs : ReferencesUnique s.db) {y : Transition State Event}
    {l l' : List (Transition State Event)} (htr : tr = l ++ y :: l') {c : ℕ} {call : Call}
    {g : Generated} (hcommit : y.event = .committed c call g)
    (hfree : ∀ b, call.booking? = some b → ∀ l₁ x mid, l = l₁ ++ x :: mid →
      x.event = .lookedUp c call → ∀ z ∈ mid, ∀ status, z.event.writes? ≠ some (b.id, status)) :
    SerialStep ttl y.pre.db y.event y.post.db := by
  subst htr
  obtain ⟨hpre, hy, -⟩ := hrun.cut
  have hinv : SerialInvariant ttl y.pre :=
    hpre.invariant (I := SerialInvariant ttl) serialInvariant_step ⟨hidle.coherent, hrefs⟩
  obtain ⟨hc, -, -⟩ := ran_of_step hy (by rw [hcommit]; rfl)
  obtain ⟨l₁, x, mid, rfl, hlook⟩ := lookup_of_waiting hpre hidle hc
  obtain ⟨hbefore, hx, hmid⟩ := hpre.cut
  have hco := coherent_run hbefore hidle.coherent
  have hcurrent := current_of_commit hco hx hmid hy hlook hcommit fun b hb =>
    hfree b hb l₁ x mid rfl hlook
  have hle : x.pre.now ≤ y.pre.now := (now_le_of_step hx).trans (now_le_of_run hmid)
  have hsame := (sameCatalogue_of_change (change_of_step hx hco)).trans
    (sameCatalogue_run hmid (coherent_step hx hco))
  rw [hlook] at hx
  obtain ⟨-, req, order, hread⟩ := lookup_of_step hx
  have hagain := lookup_again hread hsame hinv.references hcurrent
  rw [hcommit] at hy ⊢
  obtain ⟨hfresh, b, hok⟩ := transaction_of_commit hy
  exact .request hle hagain hfresh hok

/-- An expiry is one transaction, so it always is one. -/
theorem serial_of_expiry {s t : State} {w : ℕ} {item : StaleBooking}
    (h : Step ttl s (.expired w item) t) (hco : Coherent ttl s) :
    SerialStep ttl s.db (.expired w item) t.db := by
  cases h with
  | expire hw hg hrun =>
    obtain ⟨b, hb, hitem⟩ := hco.running w _ _ hw item List.mem_cons_self
    obtain ⟨b', slot, slot', hb', hover, -⟩ := expireReservation_claimed.mp hrun
    obtain rfl : b = b' := Option.some.inj (hb.symm.trans hb')
    rw [hitem] at hrun ⊢
    exact .expire (Table.get?_eq_some.mp hb).1 hover hg hrun

/-- **The commits of a run, served in one piece.** In every run, every creation
and every expiry is a step of the plain service on the database it finds, with
the lookup read again there.  All commits of a run are, one after the other, a
run of the plain service exactly when no commit writes a booking's status between
the lookup and the commit of a confirmation or cancellation of it. -/
theorem serializable_iff_undisturbed (hrun : Run (Step ttl) s tr t) (hidle : s.Idle)
    (hrefs : ReferencesUnique s.db) :
    (∀ x ∈ tr, x.event.commits = true →
      (∀ c call g b, x.event = .committed c call g → call.booking? ≠ some b) →
      SerialStep ttl x.pre.db x.event x.post.db) ∧
    (Run (SerialStep ttl) s.db (seen State.db Event.commits tr) t.db ↔ Undisturbed tr) := by
  have hquiet : ∀ x ∈ tr, x.event.commits = false → x.post.db = x.pre.db := fun x hx =>
    db_of_quiet (change_of_mem hrun hidle.coherent hx)
  have hserial : ∀ x ∈ tr, x.event.commits = true →
      (∀ c call g b, x.event = .committed c call g → call.booking? = some b → ∀ l₁ x₁ mid l',
        tr = l₁ ++ x₁ :: (mid ++ x :: l') → x₁.event = .lookedUp c call →
        ∀ z ∈ mid, ∀ status, z.event.writes? ≠ some (b.id, status)) →
      SerialStep ttl x.pre.db x.event x.post.db := by
    intro x hx hcommits hfree
    cases hev : x.event with
    | committed c call g =>
      obtain ⟨l, l', htr⟩ := List.append_of_mem hx
      have hone := serial_of_commit hrun hidle hrefs htr hev
      rw [hev] at hone
      refine hone fun b hb l₁ x₁ mid hl hlook => hfree c call g b hev hb l₁ x₁ mid l' ?_ hlook
      rw [htr, hl]
      simp
    | expired w item =>
      have hstep := hrun.step_of_mem hx
      rw [hev] at hstep
      exact serial_of_expiry hstep
        (hrun.invariant_mem (I := Coherent ttl) (fun _ _ _ => coherent_step) hidle.coherent hx).1
    | _ => simp [hev, Event.commits] at hcommits
  refine ⟨fun x hx hcommits hnone => hserial x hx hcommits ?_, (hrun.seen_iff hquiet).trans ?_⟩
  · intro c call g b hev hb
    exact absurd hb (hnone c call g b hev)
  constructor
  -- a step of the plain service finds the status that its call read
  · intro hsteps
    refine (truthful_iff_undisturbed hrun hidle).mp ?_
    intro x hx
    refine (truthful_iff_finds (change_of_mem hrun hidle.coherent hx)).mpr ?_
    cases hev : x.event with
    | committed c call g =>
      have hstep := hsteps x hx (by rw [hev]; rfl)
      rw [hev] at hstep
      intro b hb
      cases hstep with
      | request _ hread => exact Database.statusOf_eq (read_of_lookup hread hb)
    | _ => trivial
  · intro hfree x hx hcommits
    exact hserial x hx hcommits fun c call g b hev hb l₁ x₁ mid l' htr hlook =>
      hfree c call g b l₁ x₁ mid x l' htr hlook hev hb

end Commits

/-! ### A confirmation between others -/

namespace LateConfirm

/-- The cancellation and the creation before it were not disturbed. -/
theorem undisturbed_cancel : Undisturbed (steps.take 5) := by
  refine (truthful_iff_undisturbed run_cancel idle).mp ?_
  intro x hx
  simp only [steps, List.take_succ_cons, List.take_zero, List.mem_cons, List.not_mem_nil,
    or_false] at hx
  rcases hx with rfl | rfl | rfl | rfl | rfl <;> decide +kernel

/-- The confirmation was. -/
theorem disturbed : ¬ Undisturbed steps := by
  intro h
  have htruthful := (truthful_iff_undisturbed run idle).mpr h
  have hlast : Truthful ⟨s₅, _, s₆⟩ :=
    htruthful _ (List.mem_append_right (steps.take 5) (List.mem_singleton_self _))
  revert hlast
  decide +kernel

end LateConfirm

/-- Up to the cancellation the run is one of the plain service; with the late
confirmation it is not. -/
theorem serializable_iff_undisturbed_late_confirm :
    Run (SerialStep 900) LateConfirm.database
      (seen State.db Event.commits (LateConfirm.steps.take 5)) LateConfirm.cancelled ∧
    ¬ Run (SerialStep 900) LateConfirm.database (seen State.db Event.commits LateConfirm.steps)
      LateConfirm.confirmed := by
  constructor
  · exact (serializable_iff_undisturbed LateConfirm.run_cancel LateConfirm.idle
      LateConfirm.noBookings.referencesUnique).2.mpr LateConfirm.undisturbed_cancel
  · intro hrun
    exact LateConfirm.disturbed ((serializable_iff_undisturbed LateConfirm.run LateConfirm.idle
      LateConfirm.noBookings.referencesUnique).2.mp hrun)

end BookingPlatform
