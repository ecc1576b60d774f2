import BookingPlatform.ExpiryRun

/-!
# Expiry runs, one after the other

A booking that cannot give its places back stays `RESERVED` and overdue, and the
next run lists it again.  The batch has fifty places and takes the earliest
deadlines, so fifty such bookings in front of the others are all that any run
ever sees.

## Main definitions

* `expiryRuns` — runs of the worker, one after another.
* `Database.good` — a booking whose slot holds the places of all that are overdue.
* `NeverStarved` — fewer than fifty fail in front of a good one.

## Main results

* `poll_of_run` — a run of the worker is one poll of a queue that tries again
  what failed.
* `good_expired_iff` — when successive runs expire every booking whose slot holds
  the places of all overdue bookings on it.
-/

namespace BookingPlatform

open RetryQueue

/-! ### Successive runs -/

/-- Runs of the worker, one after the other. -/
def expiryRuns (envs : List ExpiryEnv) (db : Database) : Database :=
  envs.foldl (fun db env => (expireStaleReservations env db).2) db

/-- No deadline of a booking lies between `now` and a reading of the clock. -/
def ExpiryEnv.NoDeadline (env : ExpiryEnv) (db : Database) (now : Instant) : Prop :=
  ∀ b ∈ db.bookings, overdue env.listedAt b = overdue now b ∧
    ∀ i, overdue (env.clock i) b = overdue now b

/-- An overdue booking on a slot of its own tenant that holds the places of all
overdue bookings on it. -/
def Database.good (db : Database) (now : Instant) (b : Booking) : Bool :=
  overdue now b ∧ (db.availabilitySlots.get? b.slotId).any fun slot =>
    slot.tenantId = b.tenantId ∧
      placesOn b.slotId (db.bookings.findMany (overdue now)) ≤ slot.reserved

/-- In whatever order of their deadlines the overdue bookings give their places
back, fewer than fifty in front of a good one cannot; and the version of a slot
has room for the good bookings on it. -/
def NeverStarved (db : Database) (now : Instant) : Prop :=
  (∀ l l₁ b l₂, l.Perm (db.bookings.findMany (overdue now)) →
    l.Pairwise (fun a b => a.deadline ≤ b.deadline) → l = l₁ ++ b :: l₂ →
    db.good now b = true →
    (failures Booking.release l₁ db.availabilitySlots).length < expiryBatchSize) ∧
  VersionsFit db (db.bookings.findMany (db.good now))

theorem good_iff {db : Database} {now : Instant} {b : Booking} : db.good now b = true ↔
    overdue now b = true ∧ ∃ slot, db.availabilitySlots.get? b.slotId = some slot ∧
      slot.tenantId = b.tenantId ∧
      placesOn b.slotId (db.bookings.findMany (overdue now)) ≤ slot.reserved := by
  rw [Database.good, decide_eq_true_eq, Option.any_eq_true]
  simp only [decide_eq_true_eq]

/-! ### One run is one poll -/

/-- What an expiry run leaves of the bookings: the rows it found, some of them
expired that were overdue. -/
def OnlyExpired (now : Instant) (db db' : Database) : Prop :=
  ∀ id, db'.bookings.get? id = db.bookings.get? id ∨
    ∃ b, db.bookings.get? id = some b ∧ overdue now b = true ∧
      db'.bookings.get? id = some b.expire

theorem overdue_expire (now : Instant) (b : Booking) : overdue now b.expire = false := by
  rw [← Bool.not_eq_true, overdue_iff]
  simp [Booking.expire]

/-- A row after some runs is one from before or has expired. -/
theorem OnlyExpired.mem {now : Instant} {db db' : Database} (h : OnlyExpired now db db')
    {b : Booking} (hb : b ∈ db'.bookings) :
    b ∈ db.bookings ∨ ∃ b₀ ∈ db.bookings, b = b₀.expire := by
  have hget := Table.get?_key hb
  rcases h b.id with hsame | ⟨b₀, hb₀, -, hexpired⟩
  · exact Or.inl (Table.get?_eq_some.mp (hsame ▸ hget)).1
  · refine Or.inr ⟨b₀, (Table.get?_eq_some.mp hb₀).1, ?_⟩
    exact Option.some.inj (hget.symm.trans hexpired)

theorem OnlyExpired.noDeadline {now : Instant} {db db' : Database} {env : ExpiryEnv}
    (h : OnlyExpired now db db') (henv : env.NoDeadline db now) : env.NoDeadline db' now := by
  intro b hb
  rcases h.mem hb with hb | ⟨b₀, -, rfl⟩
  · exact henv b hb
  · simp [overdue_expire]

theorem OnlyExpired.one_le {now : Instant} {db db' : Database} (h : OnlyExpired now db db')
    (hone : ∀ b ∈ db.bookings, 1 ≤ (b.partySize : ℤ)) :
    ∀ b ∈ db'.bookings, 1 ≤ (b.partySize : ℤ) := by
  intro b hb
  rcases h.mem hb with hb | ⟨b₀, hb₀, rfl⟩
  · exact hone b hb
  · exact hone b₀ hb₀

theorem OnlyExpired.trans {now : Instant} {db db' db'' : Database} (h : OnlyExpired now db db')
    (h' : OnlyExpired now db' db'') : OnlyExpired now db db'' := by
  intro id
  rcases h' id with hsame' | ⟨b', hb', hover', hexpired'⟩
  · rw [hsame']
    exact h id
  · rcases h id with hsame | ⟨b, hb, -, hexpired⟩
    · exact Or.inr ⟨b', hsame ▸ hb', hover', hexpired'⟩
    · -- what has expired is not overdue
      obtain rfl := Option.some.inj (hexpired.symm.trans hb')
      rw [overdue_expire] at hover'
      cases hover'

/-- The queue of a database: the overdue bookings, and the slots. -/
def queue (now : Instant) (db : Database) : List Booking × Table AvailabilitySlot :=
  (db.bookings.findMany (overdue now), db.availabilitySlots)

/-- The order in which a run goes through the overdue bookings. -/
theorem findMany_listedAt {db : Database} {env : ExpiryEnv} {now : Instant}
    (henv : env.NoDeadline db now) :
    db.bookings.findMany (overdue env.listedAt) = db.bookings.findMany (overdue now) :=
  List.filter_congr fun b hb => (henv b hb).1

/-- What is overdue after some overdue bookings expired. -/
theorem overdue_of_expired {now : Instant} {db db' : Database} {left done : List Booking}
    (h : Expired done db db') (hl : (left ++ done).Perm (db.bookings.findMany (overdue now))) :
    (db'.bookings.findMany (overdue now)).Perm left := by
  have hids : ((left ++ done).map Booking.id).Nodup :=
    (hl.map _).nodup_iff.mpr (overdue_nodup db now)
  rw [List.map_append, List.nodup_append] at hids
  have hleft : ∀ b ∈ left, ∀ x ∈ done, x.id ≠ b.id := fun b hb x hx =>
    Ne.symm (hids.2.2 _ (List.mem_map_of_mem hb) _ (List.mem_map_of_mem hx))
  refine (List.perm_ext_iff_of_nodup (overdue_nodup db' now).of_map hids.1.of_map).mpr ?_
  intro b
  rw [Table.mem_findMany]
  constructor
  · rintro ⟨hb, hover⟩
    have hget := Table.get?_key hb
    have hfree : ∀ x ∈ done, x.id ≠ b.id := by
      intro x hx hid
      -- the booking would have expired
      obtain rfl : x.expire = b := Option.some.inj ((h.expired x hx).symm.trans (hid ▸ hget))
      rw [overdue_expire] at hover
      cases hover
    have hold : b ∈ db.bookings :=
      (Table.get?_eq_some.mp ((h.others b.id hfree).symm.trans hget)).1
    rcases List.mem_append.mp (hl.mem_iff.mpr (Table.mem_findMany.mpr ⟨hold, hover⟩)) with hb | hb
    · exact hb
    · exact absurd rfl (hfree b hb)
  · intro hb
    obtain ⟨hold, hover⟩ := Table.mem_findMany.mp (hl.mem_iff.mp (List.mem_append_left _ hb))
    have hget := (h.others b.id (hleft b hb)).trans (Table.get?_key hold)
    exact ⟨(Table.get?_eq_some.mp hget).1, hover⟩

theorem Expired.onlyExpired {now : Instant} {db db' : Database} {done : List Booking}
    (h : Expired done db db') (hdone : ∀ b ∈ done, b ∈ db.bookings ∧ overdue now b = true) :
    OnlyExpired now db db' := by
  intro id
  by_cases hid : ∃ b ∈ done, b.id = id
  · obtain ⟨b, hb, rfl⟩ := hid
    exact Or.inr ⟨b, Table.get?_key (hdone b hb).1, (hdone b hb).2, h.expired b hb⟩
  · exact Or.inl (h.others id fun b hb heq => hid ⟨b, hb, heq⟩)

/-- **A run of the worker is a poll of the queue**, in the order in which it
lists the overdue bookings. -/
theorem poll_of_run {db : Database} {env : ExpiryEnv} {now : Instant}
    (henv : env.NoDeadline db now) (hone : ∀ b ∈ db.bookings, 1 ≤ (b.partySize : ℤ)) :
    let l := overdueInOrder env.order db env.listedAt
    let db' := (expireStaleReservations env db).2
    (db'.bookings.findMany (overdue now)).Perm
      (failures Booking.release (l.take expiryBatchSize) db.availabilitySlots ++
        l.drop expiryBatchSize) ∧
      db'.availabilitySlots =
        pass Booking.release (l.take expiryBatchSize) db.availabilitySlots ∧
      OnlyExpired now db db' := by
  intro l db'
  have hperm : l.Perm (db.bookings.findMany (overdue now)) := by
    rw [← findMany_listedAt henv]
    exact overdueInOrder_perm env.order db env.listedAt
  have hmem : ∀ b ∈ l, b ∈ db.bookings ∧ overdue now b = true := fun b hb =>
    Table.mem_findMany.mp (hperm.mem_iff.mp hb)
  have hbatch : ∀ b ∈ l.take expiryBatchSize, b ∈ l := fun b hb => List.mem_of_mem_take hb
  -- no deadline passes during the run, so what it lists is overdue at every turn
  obtain ⟨-, hslots, hexpired⟩ := expireLoop_spec env 0
    (@staleRows_nodup env.order db env.listedAt)
    (fun b hb => Table.get?_key (hmem b (hbatch b hb)).1)
    (fun b hb j => by rw [(henv b (hmem b (hbatch b hb)).1).2 j]; exact (hmem b (hbatch b hb)).2)
    (fun b hb => hone b (hmem b (hbatch b hb)).1)
  have hsplit := failures_append_successes Booking.release (l.take expiryBatchSize)
    db.availabilitySlots
  refine ⟨overdue_of_expired hexpired ?_, hslots, hexpired.onlyExpired ?_⟩
  · -- what failed, what was not tried, what succeeded
    have hmove : (failures Booking.release (l.take expiryBatchSize) db.availabilitySlots ++
        l.drop expiryBatchSize ++
        successes Booking.release (l.take expiryBatchSize) db.availabilitySlots).Perm l := by
      rw [List.append_assoc]
      refine (List.perm_append_comm.append_left _).trans ?_
      rw [← List.append_assoc]
      refine (hsplit.append_right _).trans ?_
      rw [List.take_append_drop]
    exact hmove.trans hperm
  · intro b hb
    exact hmem b (hbatch b (hsplit.subset (List.mem_append_right _ hb)))

/-! ### Any number of runs -/

theorem expiryRuns_append (envs : List ExpiryEnv) (env : ExpiryEnv) (db : Database) :
    expiryRuns (envs ++ [env]) db = (expireStaleReservations env (expiryRuns envs db)).2 := by
  rw [expiryRuns, List.foldl_append]
  rfl

/-- Every order of the overdue bookings that respects their deadlines is the one
a run takes, for some order of the rows. -/
theorem exists_order {db : Database} {now : Instant} {l : List Booking}
    (hl : l.Perm (db.bookings.findMany (overdue now)))
    (hsorted : l.Pairwise fun a b => a.deadline ≤ b.deadline) :
    ∃ order, overdueInOrder order db now = l := by
  let arrangement : Arrangement Booking :=
    { apply := fun rows => if l.Perm rows then l else rows
      perm := fun rows => by split <;> first | assumption | exact List.Perm.refl rows }
  refine ⟨{ bookings := arrangement }, ?_⟩
  have happly : arrangement.apply (db.bookings.findMany (overdue now)) = l := if_pos hl
  rw [overdueInOrder, happly]
  exact List.mergeSort_of_pairwise (by simpa using hsorted)

/-- **Successive runs are successive polls.** -/
theorem polls_of_runs {db : Database} {now : Instant} {envs : List ExpiryEnv}
    (henvs : ∀ env ∈ envs, env.NoDeadline db now)
    (hone : ∀ b ∈ db.bookings, 1 ≤ (b.partySize : ℤ)) :
    Polls Booking.release Booking.deadline expiryBatchSize (queue now db) envs.length
        (queue now (expiryRuns envs db)) ∧
      OnlyExpired now db (expiryRuns envs db) := by
  induction envs using List.reverseRecOn with
  | nil => exact ⟨.zero, fun _ => Or.inl rfl⟩
  | append_singleton envs env ih =>
    rw [List.forall_mem_append, List.forall_mem_singleton] at henvs
    obtain ⟨hpolls, honly⟩ := ih henvs.1
    have henv := honly.noDeadline henvs.2
    obtain ⟨hpending, hslots, honly'⟩ := poll_of_run henv (honly.one_le hone)
    rw [expiryRuns_append, List.length_append, List.length_singleton]
    refine ⟨.succ hpolls ⟨_, ?_, overdueInOrder_sorted env.order _ env.listedAt, hpending, hslots⟩,
      honly.trans honly'⟩
    refine (overdueInOrder_perm env.order _ env.listedAt).trans ?_
    rw [findMany_listedAt henv]
    exact List.Perm.refl _

/-- **Successive polls are successive runs**, for some order of the rows in each. -/
theorem runs_of_polls {db : Database} {now : Instant}
    (hone : ∀ b ∈ db.bookings, 1 ≤ (b.partySize : ℤ)) {n : ℕ}
    {q : List Booking × Table AvailabilitySlot}
    (hpolls : Polls Booking.release Booking.deadline expiryBatchSize (queue now db) n q) :
    ∃ envs : List ExpiryEnv, envs.length = n ∧ (∀ env ∈ envs, env.NoDeadline db now) ∧
      ((expiryRuns envs db).bookings.findMany (overdue now)).Perm q.1 ∧
      (expiryRuns envs db).availabilitySlots = q.2 := by
  induction hpolls with
  | zero => exact ⟨[], rfl, fun _ h => absurd h List.not_mem_nil, List.Perm.refl _, rfl⟩
  | @succ n q q' hpolls hpoll ih =>
    obtain ⟨envs, hlength, henvs, hpending, hslots⟩ := ih
    obtain ⟨l, hl, hsorted, hpending', hslots'⟩ := hpoll
    obtain ⟨order, horder⟩ := exists_order (hl.trans hpending.symm) hsorted
    let env : ExpiryEnv := ⟨order, now, fun _ => now, fun _ => ⟨⟨0⟩, "", ⟨0⟩⟩⟩
    have henv : env.NoDeadline db now := fun b hb => ⟨rfl, fun _ => rfl⟩
    have honly := (polls_of_runs henvs hone).2
    obtain ⟨hpoll, hpass, -⟩ := poll_of_run (honly.noDeadline henv) (honly.one_le hone)
    rw [show overdueInOrder env.order _ env.listedAt = l from horder, hslots] at hpoll hpass
    refine ⟨envs ++ [env], by simp [hlength], ?_, ?_, ?_⟩
    · rw [List.forall_mem_append, List.forall_mem_singleton]
      exact ⟨henvs, henv⟩
    · rw [expiryRuns_append]
      exact hpoll.trans hpending'.symm
    · rw [expiryRuns_append, hslots', hpass]

/-! ### When no good booking starves -/

/-- **Good bookings expire exactly when their turn comes.** -/
theorem good_expired_iff_turnComes {db : Database} {now : Instant}
    (hone : ∀ b ∈ db.bookings, 1 ≤ (b.partySize : ℤ)) {b : Booking} (hb : b ∈ db.bookings)
    (hover : overdue now b = true) :
    (∀ envs : List ExpiryEnv, envs.length = (db.bookings.findMany (overdue now)).length →
      (∀ env ∈ envs, env.NoDeadline db now) →
      (expiryRuns envs db).bookings.get? b.id = some b.expire) ↔
    TurnComes Booking.release Booking.deadline expiryBatchSize
      (db.bookings.findMany (overdue now)) db.availabilitySlots b := by
  have hnodup : (db.bookings.findMany (overdue now)).Nodup := (overdue_nodup db now).of_map
  rw [← served_iff release_permanent hnodup (le_refl _)]
  constructor
  · intro hexpired q hpolls hwaits
    obtain ⟨envs, hlength, henvs, hpending, -⟩ := runs_of_polls hone hpolls
    obtain ⟨hmem, -⟩ := Table.mem_findMany.mp (hpending.mem_iff.mpr hwaits)
    -- it cannot both wait and have expired
    have hgone := hexpired envs hlength henvs
    have hrow : b = b.expire := Option.some.inj ((Table.get?_key hmem).symm.trans hgone)
    rw [hrow, overdue_expire] at hover
    cases hover
  · intro hserved envs hlength henvs
    obtain ⟨hpolls, honly⟩ := polls_of_runs henvs hone
    rw [hlength] at hpolls
    have hnot := hserved _ hpolls
    rcases honly b.id with hsame | ⟨b₀, hb₀, -, hexpired⟩
    · have hrow := hsame.trans (Table.get?_key hb)
      exact absurd (Table.mem_findMany.mpr ⟨(Table.get?_eq_some.mp hrow).1, hover⟩) hnot
    · obtain rfl : b = b₀ := Option.some.inj ((Table.get?_key hb).symm.trans hb₀)
      exact hexpired

/-- A booking that gives its places back finds a slot of its own tenant. -/
theorem tenant_of_success {l : List Booking} {slots : Table AvailabilitySlot} {b : Booking}
    (h : b ∈ successes Booking.release l slots) :
    ∀ slot, slots.get? b.slotId = some slot → slot.tenantId = b.tenantId := by
  induction l generalizing slots with
  | nil => simp [successes] at h
  | cons x l ih =>
    intro slot hs
    rw [successes] at h
    cases hrelease : x.release slots with
    | none =>
      rw [hrelease, step_of_fails hrelease] at h
      exact ih (by simpa using h) slot hs
    | some slots' =>
      rw [hrelease, step, hrelease] at h
      obtain ⟨y, y', hy, htenant, -, -, hadj, rfl⟩ := release_eq_some.mp hrelease
      simp only [Option.isNone_some, Bool.false_eq_true, if_false, Option.getD_some,
        List.mem_cons] at h
      rcases h with rfl | h
      · obtain rfl : y = slot := Option.some.inj (hy.symm.trans hs)
        exact htenant
      · by_cases hid : b.slotId = x.slotId
        · obtain rfl : y = slot := Option.some.inj (hy.symm.trans (hid ▸ hs))
          have hy' := ih h y' (by rw [hadj.get?_put hy, if_pos hid])
          rw [← hy', hadj.frame]
        · exact ih h slot (by rw [hadj.get?_put hy, if_neg hid, hs])

theorem countOn_le_of_subset {l l' : List Booking} (hnodup : l.Nodup) {slotId : Uuid}
    (h : ∀ b ∈ l, b.slotId = slotId → b ∈ l') : countOn slotId l ≤ countOn slotId l' := by
  have hsub : (l.filter fun b => b.slotId = slotId).Subperm
      (l'.filter fun b => b.slotId = slotId) := by
    refine (hnodup.filter _).subperm ?_
    intro b hb
    obtain ⟨hb, hid⟩ := List.mem_filter.mp hb
    exact List.mem_filter.mpr ⟨h b hb (by simpa using hid), hid⟩
  have hle := hsub.length_le
  rwa [← List.countP_eq_length_filter, ← List.countP_eq_length_filter] at hle

theorem mem_good {db : Database} {now : Instant} {b : Booking} :
    b ∈ db.bookings.findMany (db.good now) ↔
      b ∈ db.bookings.findMany (overdue now) ∧ db.good now b = true := by
  simp only [Table.mem_findMany]
  exact ⟨fun h => ⟨⟨h.1, (good_iff.mp h.2).1⟩, h.2⟩, fun h => ⟨h.1.1, h.2⟩⟩

/-- A good booking gives its places back when its turn comes, if the version of
its slot has room for all good bookings on it. -/
theorem release_of_good {db : Database} {now : Instant}
    (hone : ∀ b ∈ db.bookings, 1 ≤ (b.partySize : ℤ))
    (hversion : VersionsFit db (db.bookings.findMany (db.good now))) {l₁ l₂ : List Booking}
    {b : Booking} (hl : (l₁ ++ b :: l₂).Perm (db.bookings.findMany (overdue now)))
    (hb : db.good now b = true) :
    (b.release (pass Booking.release l₁ db.availabilitySlots)).isSome := by
  obtain ⟨-, slot, hs, htenant, hplaces⟩ := good_iff.mp hb
  have hrows : ∀ x ∈ l₁ ++ b :: l₂, x ∈ db.bookings ∧ overdue now x = true :=
    fun x hx => Table.mem_findMany.mp (hl.mem_iff.mp hx)
  refine release_after_pass l₂ hs htenant (fun x hx => hone x (hrows x hx).1)
    (by rwa [placesOn_perm hl]) ?_
  have hfit := hversion slot (Table.get?_eq_some.mp hs).1
  have hid : slot.id = b.slotId := (Table.get?_eq_some.mp hs).2
  rw [hid] at hfit
  -- those that succeeded before it are good, and it is one more
  have hnd : (l₁ ++ b :: l₂).Nodup := hl.nodup_iff.mpr (overdue_nodup db now).of_map
  rw [List.nodup_middle, List.nodup_cons, List.mem_append, not_or] at hnd
  have hparts := failures_append_successes Booking.release l₁ db.availabilitySlots
  have hnew : (b :: successes Booking.release l₁ db.availabilitySlots).Nodup := by
    have hsplit := hparts.nodup_iff.mpr (List.nodup_append.mp hnd.2).1
    refine List.nodup_cons.mpr ⟨fun h => ?_, (List.nodup_append.mp hsplit).2.1⟩
    exact hnd.1.1 (hparts.subset (List.mem_append_right _ h))
  have hcount : countOn b.slotId (b :: successes Booking.release l₁ db.availabilitySlots) ≤
      countOn b.slotId (db.bookings.findMany (db.good now)) := by
    refine countOn_le_of_subset hnew ?_
    intro x hx hslot
    rcases List.mem_cons.mp hx with rfl | hx
    · exact mem_good.mpr ⟨hl.mem_iff.mp (by simp), hb⟩
    · have hx₁ := hparts.subset (List.mem_append_right _ hx)
      have hxl : x ∈ l₁ ++ b :: l₂ := List.mem_append_left _ hx₁
      refine mem_good.mpr ⟨hl.mem_iff.mp hxl,
        good_iff.mpr ⟨(hrows x hxl).2, slot, hslot ▸ hs, ?_, ?_⟩⟩
      · exact tenant_of_success hx slot (hslot ▸ hs)
      · rw [hslot]
        exact hplaces
  rw [countOn_cons, if_pos rfl] at hcount
  omega

/-- If all good bookings give their places back in some pass, the versions of
their slots have room for them. -/
theorem versionsFit_of_pass {db : Database} {now : Instant} {l : List Booking}
    (hl : l.Perm (db.bookings.findMany (overdue now)))
    (hturn : ∀ l₁ b l₂, l = l₁ ++ b :: l₂ → db.good now b = true →
      (b.release (pass Booking.release l₁ db.availabilitySlots)).isSome) :
    VersionsFit db (db.bookings.findMany (db.good now)) := by
  intro slot hslot
  obtain ⟨slot', -, -, -, hversion⟩ := slot_of_pass (l := l) (Table.get?_key hslot)
  have hmax := slot'.version.upper
  have hnd : (db.bookings.findMany (db.good now)).Nodup :=
    (db.bookings.nodup.sublist (List.filter_sublist.map _)).of_map
  -- after the pass the version counts them all
  have hcount : countOn slot.id (db.bookings.findMany (db.good now)) ≤
      countOn slot.id (successes Booking.release l db.availabilitySlots) := by
    refine countOn_le_of_subset hnd ?_
    intro b hb _
    obtain ⟨hover, hb'⟩ := mem_good.mp hb
    obtain ⟨l₁, l₂, hsplit⟩ := List.append_of_mem (hl.mem_iff.mpr hover)
    have hsome := hturn l₁ b l₂ hsplit hb'
    have hnd : (l₁ ++ b :: l₂).Nodup :=
      hsplit ▸ hl.nodup_iff.mpr (overdue_nodup db now).of_map
    rw [List.nodup_middle, List.nodup_cons, List.mem_append, not_or] at hnd
    have hparts := failures_append_successes Booking.release l db.availabilitySlots
    rcases List.mem_append.mp (hparts.mem_iff.mpr (hl.mem_iff.mpr hover)) with hfailed | hsucceeded
    · rw [hsplit, mem_failures_iff hnd.1.1 hnd.1.2] at hfailed
      rw [hfailed] at hsome
      cases hsome
    · exact hsucceeded
  have hkey : (Keyed.key slot : Uuid) = slot.id := rfl
  rw [hkey] at hversion
  omega

/-- **The turn of every good booking comes exactly when none starves.** -/
theorem turnComes_iff_neverStarved {db : Database} {now : Instant}
    (hone : ∀ b ∈ db.bookings, 1 ≤ (b.partySize : ℤ)) :
    (∀ b, db.good now b = true → b ∈ db.bookings →
      TurnComes Booking.release Booking.deadline expiryBatchSize
        (db.bookings.findMany (overdue now)) db.availabilitySlots b) ↔ NeverStarved db now := by
  constructor
  · intro hturn
    have hmem : ∀ {l l₁ b l₂}, l.Perm (db.bookings.findMany (overdue now)) →
        l = l₁ ++ b :: l₂ → b ∈ db.bookings := by
      rintro l l₁ b l₂ hl rfl
      exact (Table.mem_findMany.mp (hl.mem_iff.mp (by simp))).1
    refine ⟨?_, versionsFit_of_pass (overdueInOrder_perm {} db now) ?_⟩
    · intro l l₁ b l₂ hl hsorted hsplit hb
      exact (hturn b hb (hmem hl hsplit) l l₁ l₂ hl hsorted hsplit).1
    · intro l₁ b l₂ hsplit hb
      have hl := overdueInOrder_perm {} db now
      exact (hturn b hb (hmem hl hsplit) _ l₁ l₂ hl (overdueInOrder_sorted {} db now) hsplit).2
  · rintro ⟨hfew, hversion⟩ b hb hmem l l₁ l₂ hl hsorted rfl
    exact ⟨hfew _ l₁ b l₂ hl hsorted rfl hb, release_of_good hone hversion hl hb⟩

/-- Fewer than fifty overdue bookings that are not good and whose deadline is not
after a good one's starve none. -/
theorem neverStarved_of_few {db : Database} {now : Instant}
    (hone : ∀ b ∈ db.bookings, 1 ≤ (b.partySize : ℤ))
    (hversion : VersionsFit db (db.bookings.findMany (db.good now)))
    (hfew : ∀ b ∈ db.bookings.findMany (db.good now),
      (db.bookings.findMany (overdue now)).countP
        (fun x => !db.good now x && decide (x.deadline ≤ b.deadline)) < expiryBatchSize) :
    NeverStarved db now := by
  refine ⟨?_, hversion⟩
  rintro l l₁ b l₂ hl hsorted rfl hb
  have hbmem := mem_good.mpr ⟨hl.mem_iff.mp (List.mem_append_right l₁ List.mem_cons_self), hb⟩
  refine lt_of_le_of_lt ?_ (hfew b hbmem)
  have hnd : (l₁ ++ b :: l₂).Nodup := hl.nodup_iff.mpr (overdue_nodup db now).of_map
  have hsub := failures_sublist Booking.release l₁ db.availabilitySlots
  rw [List.countP_eq_length_filter]
  refine ((hsub.nodup (List.nodup_append.mp hnd).1).subperm ?_).length_le
  intro x hx
  have hx₁ := hsub.subset hx
  refine List.mem_filter.mpr ⟨hl.mem_iff.mp (List.mem_append_left _ hx₁), ?_⟩
  rw [Bool.and_eq_true, Bool.not_eq_true', decide_eq_true_eq]
  refine ⟨?_, (List.pairwise_append.mp hsorted).2.2 x hx₁ b List.mem_cons_self⟩
  -- a good booking does not fail
  by_contra hgood
  rw [Bool.not_eq_false] at hgood
  obtain ⟨m, m', rfl⟩ := List.append_of_mem hx₁
  have hndm := (List.nodup_append.mp hnd).1
  rw [List.nodup_middle, List.nodup_cons, List.mem_append, not_or] at hndm
  have hsome := @release_of_good db now hone hversion m (m' ++ b :: l₂) x (by simpa using hl) hgood
  rw [(mem_failures_iff hndm.1.1 hndm.1.2).mp hx] at hsome
  cases hsome

/-- **When a failing expiry never starves a good one.** As many successive runs as
there are overdue bookings, past no further deadline and with the rows in any
order, expire every booking whose own slot holds the places of all overdue
bookings on it, exactly when fewer than fifty bookings in front of it ever
cannot give their places back. -/
theorem good_expired_iff {db : Database} {now : Instant}
    (hone : ∀ b ∈ db.bookings, 1 ≤ (b.partySize : ℤ)) :
    (∀ envs : List ExpiryEnv, envs.length = (db.bookings.findMany (overdue now)).length →
      (∀ env ∈ envs, env.NoDeadline db now) → ∀ b ∈ db.bookings, db.good now b = true →
      (expiryRuns envs db).bookings.get? b.id = some b.expire) ↔ NeverStarved db now := by
  rw [← turnComes_iff_neverStarved hone]
  constructor
  · intro h b hb hmem
    rw [← good_expired_iff_turnComes hone hmem (good_iff.mp hb).1]
    exact fun envs hlength henvs => h envs hlength henvs b hmem hb
  · intro h envs hlength henvs b hmem hb
    exact (good_expired_iff_turnComes hone hmem (good_iff.mp hb).1).mpr (h b hb hmem) envs hlength
      henvs

/-! ### Fifty bookings that cannot expire -/

namespace Crowded

open LateConfirm

/-- A booking for two, overdue from the start, on a slot with nothing reserved. -/
def stuck (i : ℕ) : Booking :=
  { booking with
    id := uuid (100 + i)
    reference := "BK-" ++ toString i
    slotId := uuid 6
    reservedUntil := some 0 }

/-- A booking for two on a slot with two places reserved, overdue a little later. -/
def good : Booking := { booking with reservedUntil := some 1 }

/-- Fifty bookings that cannot expire in front of one that can. -/
def database : Database where
  suppliers := LateConfirm.database.suppliers
  experiences := LateConfirm.database.experiences
  availabilitySlots :=
    ⟨[{ slot with reserved := booking.partySize }, { slot with id := uuid 6 }], by decide⟩
  bookings := ⟨(List.range 50).map stuck ++ [good], by decide⟩

theorem one_le : ∀ b ∈ database.bookings.rows, 1 ≤ (b.partySize : ℤ) := by decide

theorem overdue_all :
    database.bookings.findMany (overdue 2) = (List.range 50).map stuck ++ [good] :=
  List.filter_eq_self.mpr (by decide)

theorem good_good : database.good 2 good = true := by decide

theorem stuck_fail : ∀ b ∈ (List.range 50).map stuck,
    b.release database.availabilitySlots = none := by
  have hnone : ∀ b ∈ (List.range 50).map stuck,
      (b.release database.availabilitySlots).isNone = true := by decide
  exact fun b hb => Option.isNone_iff_eq_none.mp (hnone b hb)

theorem not_turnComes : ¬ TurnComes Booking.release Booking.deadline expiryBatchSize
    (database.bookings.findMany (overdue 2)) database.availabilitySlots good := by
  intro h
  have hfew := (h _ ((List.range 50).map stuck) [] (List.Perm.refl _)
    (by rw [overdue_all]; decide) overdue_all).1
  rw [(failures_of_fails stuck_fail).1] at hfew
  simp [expiryBatchSize] at hfew

end Crowded

/-- **A failing expiry can starve a good one**: behind fifty bookings that cannot
give their places back, a good one is never tried. -/
theorem good_not_always_expired : ¬ ∀ (db : Database) (now : Instant),
    (∀ b ∈ db.bookings, 1 ≤ (b.partySize : ℤ)) → ∀ envs : List ExpiryEnv,
    envs.length = (db.bookings.findMany (overdue now)).length →
    (∀ env ∈ envs, env.NoDeadline db now) → ∀ b ∈ db.bookings, db.good now b = true →
    (expiryRuns envs db).bookings.get? b.id = some b.expire := by
  intro h
  have hmem : Crowded.good ∈ Crowded.database.bookings :=
    List.mem_append_right _ (List.mem_singleton_self _)
  refine Crowded.not_turnComes
    ((good_expired_iff_turnComes Crowded.one_le hmem (by decide)).mp ?_)
  exact fun envs hlength henvs =>
    h _ 2 Crowded.one_le envs hlength henvs _ hmem Crowded.good_good

namespace Crowded

/-- One booking fewer is stuck in front of the good one. -/
def uncrowded : Database :=
  { database with bookings := ⟨(List.range 49).map stuck ++ [good], by decide⟩ }

/-- A run after all the deadlines. -/
def env : ExpiryEnv := ⟨{}, 2, fun _ => 2, LateConfirm.drawn⟩

theorem uncrowded_neverStarved : NeverStarved uncrowded 2 := by
  have hversion : ∀ slot ∈ uncrowded.availabilitySlots.rows, (slot.version : ℤ) +
      countOn slot.id (uncrowded.bookings.findMany (uncrowded.good 2)) ≤ 2147483647 := by
    decide +kernel
  have hone : ∀ b ∈ uncrowded.bookings.rows, 1 ≤ (b.partySize : ℤ) := by decide +kernel
  exact neverStarved_of_few hone hversion (by decide +kernel)

end Crowded

/-- Behind forty-nine bookings that cannot expire, the good one does. -/
theorem good_expired_iff_uncrowded :
    (expiryRuns (List.replicate 50 Crowded.env) Crowded.uncrowded).bookings.get?
      Crowded.good.id = some Crowded.good.expire := by
  have hone : ∀ b ∈ Crowded.uncrowded.bookings.rows, 1 ≤ (b.partySize : ℤ) := by decide +kernel
  have hmem : Crowded.good ∈ Crowded.uncrowded.bookings :=
    List.mem_append_right _ (List.mem_singleton_self _)
  have hdue : (Crowded.uncrowded.bookings.findMany (overdue 2)).length = 50 := by decide +kernel
  refine (@good_expired_iff Crowded.uncrowded 2 hone).mpr Crowded.uncrowded_neverStarved
    (List.replicate 50 Crowded.env) ?_ ?_ _ hmem (by decide +kernel)
  · rw [List.length_replicate, hdue]
  · intro env henv b hb
    rw [List.eq_of_mem_replicate henv]
    exact ⟨rfl, fun _ => rfl⟩

end BookingPlatform
