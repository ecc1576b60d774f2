import BookingPlatform.SlotLock
import BookingPlatform.Trail

/-!
# How truthful the history is

A history row names the status that its transaction found.  A creation finds no
booking, and an expiry checks the status in its own `UPDATE`; a confirmation and
a cancellation copy the status their lookup read, which may be another one by
the time they commit.

## Main definitions

* `Truthful` — the history row names the status that was there.
* `Chained` — every row of a history starts where the one before ended.
* `Undisturbed` — no status is written between the lookup and the commit of a call.

## Main results

* `truthful_iff_finds` — a step records the truth exactly when it finds the
  status that its call read.
* `chained_iff_truthful` — the histories are chains exactly when every step
  recorded the truth.
* `history_truthful_iff` — and that is exactly when no status is written between
  the lookup and the commit of a call on the same booking.
-/

namespace BookingPlatform

open Runs

/-! ### Truthful rows -/

/-- The status of a booking, `null` when there is none. -/
def Database.statusOf (db : Database) (id : Uuid) : Option BookingStatus :=
  (db.bookings.get? id).map Booking.status

/-- Every history row a step appends starts from the status its booking had just
before the step. -/
def Truthful (x : Transition State Event) : Prop :=
  ∀ row ∈ x.post.db.bookingStatusHistory.drop x.pre.db.bookingStatusHistory.length,
    row.fromStatus = x.pre.db.statusOf row.bookingId

/-- Whether a step records the truth can be decided. -/
instance (x : Transition State Event) : Decidable (Truthful x) :=
  inferInstanceAs (Decidable (∀ row ∈ List.drop _ _, _))

/-- A history that starts with `null → RESERVED` and goes on, in every row, from
where the row before ended. -/
def Chained (rows : List BookingStatusHistory) : Prop :=
  (∀ row ∈ rows.head?, row.fromStatus = none ∧ row.toStatus = .reserved) ∧
    rows.IsChain fun row next => next.fromStatus = some row.toStatus

/-- The booking whose status a transaction records as the lookup read it. -/
def Call.booking? : Call → Option Booking
  | .create _ => none
  | .confirm call => some call.booking
  | .cancel call => some call.booking

/-- A confirmation or a cancellation that commits finds the status it read. -/
def Event.FindsStatus (db : Database) : Event → Prop
  | .committed _ call _ => ∀ b, call.booking? = some b → db.statusOf b.id = some b.status
  | _ => True

/-- Between the lookup and the commit of a confirmation or cancellation, no other
commit writes the status of its booking. -/
def Undisturbed (tr : List (Transition State Event)) : Prop :=
  ∀ c call g b l x mid y l', tr = l ++ x :: (mid ++ y :: l') → x.event = .lookedUp c call →
    y.event = .committed c call g → call.booking? = some b →
    ∀ z ∈ mid, ∀ status, z.event.writes? ≠ some (b.id, status)

theorem Database.statusOf_eq {db : Database} {id : Uuid} {b : Booking}
    (h : db.bookings.get? id = some b) : db.statusOf id = some b.status := by
  rw [statusOf, h, Option.map_some]

/-- **A step records the truth exactly when it finds the status its call read.** -/
theorem truthful_iff_finds {x : Transition State Event}
    (h : Change x.event x.pre.now x.pre.db x.post.db) :
    Truthful x ↔ x.event.FindsStatus x.pre.db := by
  unfold Truthful
  generalize x.event = e at h ⊢
  generalize x.pre.now = now at h
  generalize x.pre.db = db at h ⊢
  generalize x.post.db = db' at h ⊢
  cases h with
  | @quiet e _ _ hq =>
    refine iff_of_true ?_ ?_
    · simp
    · cases e <;> trivial
  | @create c call g _ _ slot' partySize hfree =>
    refine iff_of_true ?_ ?_
    · have hnone : db.bookings.get? g.bookingId = none := hfree
      simp [Database.statusOf, hnone]
    · intro b hb
      cases hb
  | @confirm c call g _ _ b hb =>
    simp [Event.FindsStatus, Call.booking?, eq_comm]
  | @cancel c call g _ _ b slot slot' hb =>
    simp [Event.FindsStatus, Call.booking?, eq_comm]
  | @expire w g _ _ b slot slot' hb hover =>
    refine iff_of_true ?_ trivial
    simp [Database.statusOf_eq hb, overdue_status hover]

/-! ### Chains -/

theorem chained_append {rows : List BookingStatusHistory} {row : BookingStatusHistory} :
    Chained (rows ++ [row]) ↔ Chained rows ∧
      row.fromStatus = rows.getLast?.map BookingStatusHistory.toStatus ∧
      (rows = [] → row.toStatus = .reserved) := by
  unfold Chained
  rw [List.isChain_append]
  cases rows with
  | nil => simp
  | cons first rows =>
    obtain ⟨last, hlast⟩ : ∃ last, (first :: rows).getLast? = some last :=
      ⟨_, List.getLast?_eq_getLast_of_ne_nil (List.cons_ne_nil first rows)⟩
    simp [hlast, and_assoc]

/-- The last history row of a booking has the booking's status. -/
theorem TrailSound.statusOf {db : Database} (h : TrailSound db) (id : Uuid) :
    (db.historyOf id).getLast?.map BookingStatusHistory.toStatus = db.statusOf id := by
  cases hb : db.bookings.get? id with
  | none => simp [Database.statusOf, hb, (h.unborn id hb).1]
  | some b => rw [h.last id b hb, Database.statusOf_eq hb]

/-- A step that records keeps the histories chains exactly when it records the
truth. -/
theorem chained_of_recorded {db db' : Database} {b' : Booking} {row : BookingStatusHistory}
    {log : AuditLog} (h : Recorded db db' b' row log) (hdb : TrailSound db) :
    (∀ id, Chained (db'.historyOf id)) ↔
      (∀ id, Chained (db.historyOf id)) ∧ row.fromStatus = db.statusOf row.bookingId := by
  have hone : Chained (db'.historyOf row.bookingId) ↔
      Chained (db.historyOf row.bookingId) ∧ row.fromStatus = db.statusOf row.bookingId := by
    rw [h.historyOf, if_pos rfl, chained_append, hdb.statusOf]
    -- a booking without history rows is made by this step
    have hfirst : db.historyOf row.bookingId = [] → row.toStatus = .reserved := by
      intro hnil
      refine h.first ?_
      cases hb : db.bookings.get? row.bookingId with
      | none => rfl
      | some b =>
        have hlast := hdb.last _ b hb
        rw [hnil] at hlast
        cases hlast
    exact and_congr_right fun _ => and_iff_left hfirst
  constructor
  · intro hall
    refine ⟨fun id => ?_, (hone.mp (hall _)).2⟩
    by_cases hid : row.bookingId = id
    · exact hid ▸ (hone.mp (hall _)).1
    · have hid' := hall id
      rwa [h.historyOf, if_neg hid, List.append_nil] at hid'
  · rintro ⟨hall, hrow⟩ id
    by_cases hid : row.bookingId = id
    · exact hid ▸ hone.mpr ⟨hall _, hrow⟩
    · rw [h.historyOf, if_neg hid, List.append_nil]
      exact hall id

theorem chained_of_step {ttl : ℕ} {s t : State} {e : Event} (h : Step ttl s e t)
    (hco : Coherent ttl s) (hs : TrailSound s.db) :
    (∀ id, Chained (t.db.historyOf id)) ↔
      (∀ id, Chained (s.db.historyOf id)) ∧ Truthful ⟨s, e, t⟩ := by
  unfold Truthful
  rcases recorded_of_step h hco with ⟨-, hhistory, -⟩ | ⟨b', row, log, hrecorded⟩
  · simp [Database.historyOf, hhistory]
  · rw [chained_of_recorded hrecorded hs]
    simp [hrecorded.history]

/-- **The histories are chains exactly when every step recorded the truth.** -/
theorem chained_iff_truthful {ttl : ℕ} {s t : State} {tr : List (Transition State Event)}
    (hrun : Run (Step ttl) s tr t) (hco : Coherent ttl s) (hempty : s.db.NoBookings) :
    (∀ id, Chained (t.db.historyOf id)) ↔ ∀ x ∈ tr, Truthful x := by
  induction hrun with
  | nil =>
    refine iff_of_true (fun id => ?_) (fun x hx => absurd hx List.not_mem_nil)
    rw [hempty.historyOf]
    simp [Chained]
  | snoc hrun hstep ih =>
    rw [chained_of_step hstep (coherent_run hrun hco) (trailSound_run hrun hco hempty.trailSound),
      ih, List.forall_mem_append, List.forall_mem_singleton]

/-! ### Statuses between a lookup and its commit -/

/-- How far a booking has come. -/
def BookingStatus.age : BookingStatus → ℕ
  | .reserved => 0
  | .confirmed => 1
  | .cancelled | .expired => 2

theorem age_lt_of_allowed {status status' : BookingStatus}
    (h : status' ∈ allowedTransitions status) : status.age < status'.age := by
  cases status <;> cases status' <;> simp_all [allowedTransitions, BookingStatus.age]

theorem rewrite_status_of_writes {e : Event} {b : Booking} {status : BookingStatus}
    (h : e.writes? = some (b.id, status)) : (e.rewrite b).status = status := by
  unfold Event.writes? at h
  split at h <;> simp_all [Event.rewrite, Booking.confirm, Booking.cancel, Booking.expire]

/-- A step that finds the status its call read writes a legal status. -/
theorem legalWrite_of_finds {e : Event} {now : Instant} {db db' : Database}
    (h : Change e now db db') (hfinds : e.FindsStatus db) : LegalWrite e db := by
  refine (legalWrite_iff h).mpr ?_
  cases h with
  | @quiet e _ _ hq => cases e <;> trivial
  | @confirm c call g _ _ b hb hsame hst =>
    have hstatus := hfinds call.booking rfl
    rw [Database.statusOf_eq hb, hst] at hstatus
    exact ⟨b, hb, Option.some.inj hstatus⟩
  | create | cancel | expire => trivial

/-- Over a legal step no booking goes back, and the one written goes on. -/
theorem age_of_change {e : Event} {now : Instant} {db db' : Database} (h : Change e now db db')
    (hlegal : LegalWrite e db) {id : Uuid} {b : Booking} (hb : db.bookings.get? id = some b) :
    ∃ b', db'.bookings.get? id = some b' ∧ b.status.age ≤ b'.status.age ∧
      ∀ status, e.writes? = some (id, status) → b.status.age < b'.status.age := by
  have hid : b.id = id := (Table.get?_eq_some.mp hb).2
  have hrises : ∀ status, e.writes? = some (id, status) →
      b.status.age < (e.rewrite b).status.age := by
    intro status hw
    obtain ⟨b₁, hb₁, -, hallowed⟩ := hlegal id status hw
    obtain rfl : b = b₁ := Option.some.inj (hb.symm.trans hb₁)
    rw [rewrite_status_of_writes (hid.symm ▸ hw)]
    exact age_lt_of_allowed hallowed
  refine ⟨_, booking_of_change h hb, ?_, hrises⟩
  by_cases hsame : (e.rewrite b).status = b.status
  · rw [hsame]
  · exact (hrises _ (hid ▸ writes_of_rewrite hsame)).le

theorem age_run {ttl : ℕ} {s t : State} {tr : List (Transition State Event)}
    (hrun : Run (Step ttl) s tr t) (hco : Coherent ttl s)
    (hlegal : ∀ x ∈ tr, LegalWrite x.event x.pre.db) {id : Uuid} {b : Booking}
    (hb : s.db.bookings.get? id = some b) :
    ∃ b', t.db.bookings.get? id = some b' ∧ b.status.age ≤ b'.status.age := by
  refine (hrun.invariant_of (I := fun s => Coherent ttl s ∧
    ∃ b', s.db.bookings.get? id = some b' ∧ b.status.age ≤ b'.status.age)
    (C := fun x => LegalWrite x.event x.pre.db) ?_ hlegal ⟨hco, b, hb, le_refl _⟩).2
  rintro s e t hok hstep ⟨hco, b₁, hb₁, hle₁⟩
  obtain ⟨b₂, hb₂, hle₂, -⟩ := age_of_change (change_of_step hstep hco) hok hb₁
  exact ⟨coherent_step hstep hco, b₂, hb₂, hle₁.trans hle₂⟩

/-- A booking that is written in a legal run ends further than it started. -/
theorem age_lt_of_written {ttl : ℕ} {s t : State} {tr : List (Transition State Event)}
    (hrun : Run (Step ttl) s tr t) (hco : Coherent ttl s)
    (hlegal : ∀ x ∈ tr, LegalWrite x.event x.pre.db) {id : Uuid} {b : Booking}
    (hb : s.db.bookings.get? id = some b) {z : Transition State Event} (hz : z ∈ tr)
    {status : BookingStatus} (hw : z.event.writes? = some (id, status)) :
    ∃ b', t.db.bookings.get? id = some b' ∧ b.status.age < b'.status.age := by
  obtain ⟨l₁, l₂, rfl⟩ := List.append_of_mem hz
  obtain ⟨hbefore, hstep, hafter⟩ := hrun.cut
  have hzco := coherent_run hbefore hco
  obtain ⟨b₁, hb₁, hle₁⟩ := age_run hbefore hco (fun x hx => hlegal x (by simp [hx])) hb
  obtain ⟨b₂, hb₂, -, hlt⟩ := age_of_change (change_of_step hstep hzco) (hlegal z hz) hb₁
  obtain ⟨b₃, hb₃, hle₃⟩ := age_run hafter (coherent_step hstep hzco)
    (fun x hx => hlegal x (by simp [hx])) hb₂
  exact ⟨b₃, hb₃, (hle₁.trans_lt (hlt status hw)).trans_le hle₃⟩

/-- A booking whose status nothing writes keeps it. -/
theorem status_run {ttl : ℕ} {s t : State} {tr : List (Transition State Event)}
    (hrun : Run (Step ttl) s tr t) (hco : Coherent ttl s) {id : Uuid} {status : BookingStatus}
    (hfree : ∀ x ∈ tr, ∀ status, x.event.writes? ≠ some (id, status))
    (hs : s.db.statusOf id = some status) : t.db.statusOf id = some status := by
  refine (hrun.invariant_of (I := fun s => Coherent ttl s ∧ s.db.statusOf id = some status)
    (C := fun x => ∀ status, x.event.writes? ≠ some (id, status)) ?_ hfree ⟨hco, hs⟩).2
  rintro s e t hok hstep ⟨hco, hs⟩
  refine ⟨coherent_step hstep hco, ?_⟩
  obtain ⟨b, hb, hst⟩ := Option.map_eq_some_iff.mp hs
  rw [Database.statusOf_eq (booking_of_change (change_of_step hstep hco) hb), ← hst]
  have hid : b.id = id := (Table.get?_eq_some.mp hb).2
  by_contra hne
  exact hok _ (hid ▸ writes_of_rewrite fun heq => hne (congrArg some heq))

/-- What the lookup of a confirmation or a cancellation read. -/
theorem read_of_lookup {ttl : ℕ} {order : RowOrder} {db : Database} {now : Instant}
    {req : Request} {call : Call} (h : req.lookup ttl order db now = .ok call) {b : Booking}
    (hb : call.booking? = some b) : db.bookings.get? b.id = some b := by
  cases call with
  | create call => cases hb
  | confirm call =>
    obtain rfl := Option.some.inj hb
    exact (lookup_confirm h).1
  | cancel call =>
    obtain rfl := Option.some.inj hb
    exact (lookup_cancel h).1

theorem read_of_lookedUp {ttl : ℕ} {s t : State} {c : ℕ} {call : Call}
    (h : Step ttl s (.lookedUp c call) t) {b : Booking} (hb : call.booking? = some b) :
    t.db.bookings.get? b.id = some b := by
  obtain ⟨hdb, req, order, hread⟩ := lookup_of_step h
  rw [hdb]
  exact read_of_lookup hread hb

/-- **Every step records the truth exactly when no call is disturbed.** -/
theorem truthful_iff_undisturbed {ttl : ℕ} {s t : State} {tr : List (Transition State Event)}
    (hrun : Run (Step ttl) s tr t) (hidle : s.Idle) :
    (∀ x ∈ tr, Truthful x) ↔ Undisturbed tr := by
  have hfinds : ∀ x ∈ tr, Truthful x ↔ x.event.FindsStatus x.pre.db :=
    fun x hx => truthful_iff_finds (change_of_mem hrun hidle.coherent hx)
  constructor
  · -- a write in between would have taken the booking past the status read
    rintro htrue c call g b l x mid y l' rfl hlook hcommit hbook z hz status hw
    have hlegal : ∀ x' ∈ l ++ x :: (mid ++ y :: l'), LegalWrite x'.event x'.pre.db :=
      fun x' hx' => legalWrite_of_finds (change_of_mem hrun hidle.coherent hx')
        ((hfinds x' hx').mp (htrue x' hx'))
    have hy := (hfinds y (by simp)).mp (htrue y (by simp))
    rw [hcommit] at hy
    obtain ⟨hpre, hx, hrest⟩ := hrun.cut
    obtain ⟨hmid, -, -⟩ := hrest.cut
    have hco := coherent_step hx (coherent_run hpre hidle.coherent)
    rw [hlook] at hx
    obtain ⟨b', hb', hlt⟩ := age_lt_of_written hmid hco (fun z hz => hlegal z (by simp [hz]))
      (read_of_lookedUp hx hbook) hz hw
    have hst := hy b hbook
    rw [Database.statusOf_eq hb'] at hst
    rw [Option.some.inj hst] at hlt
    exact lt_irrefl _ hlt
  -- the status read is still there when the call commits
  · intro hfree y hy
    refine (hfinds y hy).mpr ?_
    obtain ⟨l, l', rfl⟩ := List.append_of_mem hy
    obtain ⟨hpre, hystep, -⟩ := hrun.cut
    cases hev : y.event with
    | committed c call g =>
      intro b hbook
      obtain ⟨hc, -, -⟩ := ran_of_step hystep (by rw [hev]; rfl)
      obtain ⟨l₁, x, l₂, rfl, hlook⟩ := lookup_of_waiting hpre hidle hc
      obtain ⟨hbefore, hx, hmid⟩ := hpre.cut
      have hco := coherent_step hx (coherent_run hbefore hidle.coherent)
      have hnone := hfree c call g b l₁ x l₂ y l' (by simp) hlook hev hbook
      rw [hlook] at hx
      exact status_run hmid hco hnone (Database.statusOf_eq (read_of_lookedUp hx hbook))
    | _ => trivial

/-- **When the recorded history is truthful.** In a run, every history row starts
from the status its booking had exactly when no commit writes a booking's status
between the lookup and the commit of a confirmation or cancellation of it; and
that is exactly when, from a store without bookings, every booking's history is
a chain from `null → RESERVED`. -/
theorem history_truthful_iff {ttl : ℕ} {s t : State} {tr : List (Transition State Event)}
    (hrun : Run (Step ttl) s tr t) (hidle : s.Idle) :
    ((∀ x ∈ tr, Truthful x) ↔ Undisturbed tr) ∧
      (s.db.NoBookings → ((∀ id, Chained (t.db.historyOf id)) ↔ Undisturbed tr)) := by
  have htruthful := truthful_iff_undisturbed hrun hidle
  exact ⟨htruthful, fun hempty => (chained_iff_truthful hrun hidle.coherent hempty).trans htruthful⟩

/-- **The history is not always truthful**: a late confirmation records that it
found the booking `RESERVED`, and the booking was `CANCELLED`. -/
theorem history_not_always_truthful : ∃ (ttl : ℕ) (s t : State)
    (tr : List (Transition State Event)), Run (Step ttl) s tr t ∧ s.Idle ∧ s.db.NoBookings ∧
      (¬ ∀ x ∈ tr, Truthful x) ∧ ¬ ∀ id, Chained (t.db.historyOf id) := by
  have hfalse : ¬ ∀ x ∈ LateConfirm.steps, Truthful x := by
    intro h
    have hlast : Truthful ⟨LateConfirm.s₅, _, LateConfirm.s₆⟩ :=
      h _ (List.mem_append_right (LateConfirm.steps.take 5) (List.mem_singleton_self _))
    revert hlast
    decide +kernel
  refine ⟨900, _, _, _, LateConfirm.run, LateConfirm.idle, LateConfirm.noBookings, hfalse, ?_⟩
  rwa [chained_iff_truthful LateConfirm.run LateConfirm.idle.coherent LateConfirm.noBookings]

/-- Up to the cancellation, no call is disturbed and that booking's history is a
chain. -/
theorem history_truthful_iff_before_late_confirm : Undisturbed (LateConfirm.steps.take 5) ∧
    Chained (LateConfirm.cancelled.historyOf (uuid 10)) := by
  obtain ⟨htruthful, hchained⟩ := history_truthful_iff LateConfirm.run_cancel LateConfirm.idle
  have hfree : Undisturbed (LateConfirm.steps.take 5) := by
    refine htruthful.mp ?_
    intro x hx
    simp only [LateConfirm.steps, List.take_succ_cons, List.take_zero, List.mem_cons,
      List.not_mem_nil, or_false] at hx
    rcases hx with rfl | rfl | rfl | rfl | rfl <;> decide +kernel
  exact ⟨hfree, (hchained LateConfirm.noBookings).mpr hfree _⟩

end BookingPlatform
