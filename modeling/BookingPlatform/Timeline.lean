import BookingPlatform.BookingRequests
import BookingPlatform.Provenance

/-!
# What the detail of a booking shows

The history rows of a booking, ordered by their time alone.  Commits write them in
the order of time, so the timeline tells the story as it happened unless two
transitions of the booking carry the same time.

## Main definitions

* `DatedInOrder` — the history rows stand in the order of their times.
* `historyShown` — the rows of a booking, sorted by their time.
* `Continuous` — each entry starts in the status that the one before ended in.

## Main results

* `datedInOrder_step` — rows are appended in the order of their times.
* `detail_tells_history` — what the owner of a booking is shown.
-/

namespace BookingPlatform

open Runs

/-! ### Times -/

/-- The history rows are in the order of their times, none of them in the future. -/
structure DatedInOrder (ttl : ℕ) (s : State) : Prop where
  coherent : Coherent ttl s
  sorted : s.db.bookingStatusHistory.Pairwise fun row next => row.createdAt ≤ next.createdAt
  past : ∀ row ∈ s.db.bookingStatusHistory, row.createdAt ≤ s.now

theorem datedInOrder_step {ttl : ℕ} (s : State) (e : Event) (t : State) (h : Step ttl s e t)
    (hs : DatedInOrder ttl s) : DatedInOrder ttl t := by
  have hnow := now_le_of_step h
  refine ⟨coherent_step h hs.coherent, ?_, ?_⟩ <;>
    rcases row_of_step h hs.coherent with hsame | ⟨row, b, happend, -, -, hat⟩
  · rw [hsame]
    exact hs.sorted
  · rw [happend, List.pairwise_append]
    refine ⟨hs.sorted, List.pairwise_singleton _ _, ?_⟩
    intro row₀ hrow₀ row' hrow'
    rw [List.mem_singleton] at hrow'
    rw [hrow', hat]
    exact hs.past row₀ hrow₀
  · intro row hrow
    rw [hsame] at hrow
    exact (hs.past row hrow).trans hnow
  · intro row' hrow'
    rw [happend, List.mem_append, List.mem_singleton] at hrow'
    rcases hrow' with hrow' | rfl
    · exact (hs.past row' hrow').trans hnow
    · rw [hat]
      exact hnow

theorem Database.NoBookings.datedInOrder {ttl : ℕ} {s : State} (h : s.db.NoBookings)
    (hidle : s.Idle) : DatedInOrder ttl s := by
  refine ⟨hidle.coherent, ?_, ?_⟩ <;> rw [h.history]
  · exact List.Pairwise.nil
  · exact fun row hrow => absurd hrow List.not_mem_nil

/-! ### The detail -/

/-- The entry of a timeline for a history row. -/
def BookingStatusHistory.toEntry (row : BookingStatusHistory) : BookingTimelineEntry :=
  ⟨row.fromStatus, row.toStatus, row.reason, row.actorUserId, row.createdAt⟩

/-- A timeline that starts with `null → RESERVED` and goes on, in every entry,
from where the entry before ended. -/
def Continuous (timeline : List BookingTimelineEntry) : Prop :=
  (∀ entry ∈ timeline.head?, entry.fromStatus = none ∧ entry.toStatus = .reserved) ∧
    timeline.IsChain fun entry next => next.fromStatus = some entry.toStatus

theorem continuous_map {rows : List BookingStatusHistory} :
    Continuous (rows.map BookingStatusHistory.toEntry) ↔ Chained rows := by
  unfold Continuous Chained
  rw [List.head?_map, List.isChain_map]
  simp [BookingStatusHistory.toEntry]

/-- The history rows of a booking, as its detail orders them. -/
def historyShown (order : RowOrder) (db : Database) (id : Uuid) : List BookingStatusHistory :=
  orderBy (fun s t => decide (s ≤ t)) BookingStatusHistory.createdAt
    (order.history.apply (db.historyOf id))

/-- **What the detail of a booking is.** -/
theorem getBookingDetail_ok {order : RowOrder} {tenantId userId : Uuid} {reference : String}
    {db : Database} {detail : BookingDetailResult} :
    getBookingDetail order tenantId userId reference db = .ok detail ↔
      ∃ b experience slot, db.bookings.findFirst (ownedBy tenantId userId reference) = some b ∧
        db.experiences.get? b.experienceId = some experience ∧
        db.availabilitySlots.get? b.slotId = some slot ∧
        detail = ⟨toBookingSummary b, experience.id, experience.title, slot.id, slot.startsAt,
          slot.endsAt, (historyShown order db b.id).map BookingStatusHistory.toEntry⟩ := by
  simp only [getBookingDetail, findOwnedBooking, Except.bind_eq_ok, orThrow_eq_ok, required_eq_ok,
    Except.pure_eq_ok]
  constructor
  · rintro ⟨_, ⟨b, hb, experience, he, slot, hs, rfl⟩, rfl⟩
    exact ⟨b, experience, slot, hb, he, hs, rfl⟩
  · rintro ⟨b, experience, slot, hb, he, hs, rfl⟩
    exact ⟨_, ⟨b, hb, experience, he, slot, hs, rfl⟩, rfl⟩

section Shown

variable {order : RowOrder} {db : Database} {id : Uuid}

theorem historyShown_perm : (historyShown order db id).Perm (db.historyOf id) :=
  (orderBy_perm _).trans (order.history.perm _)

theorem historyShown_sorted :
    (historyShown order db id).Pairwise fun row next => row.createdAt ≤ next.createdAt := by
  have h := @orderBy_pairwise BookingStatusHistory Instant (fun s t => s ≤ t)
    BookingStatusHistory.createdAt (by simpa using fun a b c => le_trans)
    (by simpa using fun a b => le_total a b) (order.history.apply (db.historyOf id))
  exact h.imp fun hle => of_decide_eq_true hle

/-- **Rows that differ in their times are shown in the order they were written.** -/
theorem historyShown_eq
    (hsorted : (db.historyOf id).Pairwise fun row next => row.createdAt ≤ next.createdAt)
    (hnodup : ((db.historyOf id).map BookingStatusHistory.createdAt).Nodup) :
    historyShown order db id = db.historyOf id :=
  @orderBy_eq_of_perm BookingStatusHistory Instant (fun s t => s ≤ t)
    BookingStatusHistory.createdAt (by simpa using fun a b c => le_trans)
    (by simpa using fun a b => le_total a b) (by simpa using fun a b => le_antisymm) _ _
    (order.history.perm _) (by simpa using hsorted) hnodup

end Shown

/-- **What the owner of a booking is shown.** In every state of every run from a
store without bookings, and however the database orders the rows: the detail of a
booking answers its owner with the booking's summary, slot and experience, and
with a timeline that has one entry for each history row, in the order of their
times.  When no two of them have the same time, it is the order of the commits and
the last entry ends in the status shown; and the timeline is then continuous
unless a confirmation or cancellation was disturbed. -/
theorem detail_tells_history {ttl : ℕ} {s t : State} {tr : List (Transition State Event)}
    (hrun : Run (Step ttl) s tr t) (hidle : s.Idle) (hempty : s.db.NoBookings) (order : RowOrder)
    {b : Booking} (hb : b ∈ t.db.bookings) :
    ∃ detail, getBookingDetail order b.tenantId b.userId b.reference t.db = .ok detail ∧
      detail.summary = toBookingSummary b ∧ detail.experienceId = b.experienceId ∧
      detail.slotId = b.slotId ∧
      detail.timeline.Perm ((t.db.historyOf b.id).map BookingStatusHistory.toEntry) ∧
      (detail.timeline.Pairwise fun entry next => entry.at_ ≤ next.at_) ∧
      (((t.db.historyOf b.id).map BookingStatusHistory.createdAt).Nodup →
        detail.timeline = (t.db.historyOf b.id).map BookingStatusHistory.toEntry ∧
        detail.timeline.getLast?.map BookingTimelineEntry.toStatus = some detail.summary.status ∧
        (Undisturbed tr → Continuous detail.timeline)) := by
  have hget := Table.get?_key hb
  have hdated : DatedInOrder ttl t :=
    hrun.invariant (I := DatedInOrder ttl) datedInOrder_step (hempty.datedInOrder hidle)
  have hsound := trailSound_run hrun hidle.coherent hempty.trailSound
  obtain ⟨_, _, _, _, _, _, _, _, _, _, _, _, _, _, _, _, _, _, _, hsold⟩ :=
    creation_of_booking hrun hidle hempty hget
  obtain ⟨slot, experience, hs, -, -, he, -⟩ := hsold.terms
  have hrefs : ReferencesUnique s.db := hempty.referencesUnique
  have hinv : SerialInvariant ttl t :=
    hrun.invariant (I := SerialInvariant ttl) serialInvariant_step ⟨hidle.coherent, hrefs⟩
  have hfind : t.db.bookings.findFirst (ownedBy b.tenantId b.userId b.reference) = some b :=
    hinv.references.findFirst_ownedBy hb (by simp [ownedBy])
  refine ⟨_, getBookingDetail_ok.mpr ⟨b, experience, slot, hfind, he, hs, rfl⟩, rfl,
    (Table.get?_eq_some.mp he).2, (Table.get?_eq_some.mp hs).2, historyShown_perm.map _,
    historyShown_sorted.map _ fun _ _ hle => hle, ?_⟩
  intro hnodup
  have heq : historyShown order t.db b.id = t.db.historyOf b.id :=
    historyShown_eq (hdated.sorted.filter _) hnodup
  refine ⟨congrArg _ heq, ?_, fun hfree => ?_⟩
  · show ((historyShown order t.db b.id).map BookingStatusHistory.toEntry).getLast?.map
      BookingTimelineEntry.toStatus = some b.status
    rw [heq, List.getLast?_map, Option.map_map, ← hsound.last b.id b hget]
    rfl
  · show Continuous ((historyShown order t.db b.id).map BookingStatusHistory.toEntry)
    rw [heq, continuous_map]
    have htruthful := (truthful_iff_undisturbed hrun hidle).mpr hfree
    exact (chained_iff_truthful hrun hidle.coherent hempty).mpr htruthful b.id

/-- A booking whose hold ran out shows that it was reserved and then expired. -/
theorem detail_tells_history_expired : ∃ detail,
    getBookingDetail {} (uuid 1) (uuid 2) "BK-0000002A"
      LateConfirm.overdueDatabase = .ok detail ∧
    detail.timeline.map (fun entry => (entry.toStatus, entry.at_))
      = [(.reserved, 0), (.expired, 900001)] := by
  have hmem : LateConfirm.booking.expire ∈ LateConfirm.overdueDatabase.bookings.rows := by
    decide +kernel
  obtain ⟨detail, hok, -, -, -, -, -, hordered⟩ := detail_tells_history LateConfirm.run_expire
    LateConfirm.idle LateConfirm.noBookings {} hmem
  have htimes : ((LateConfirm.overdueDatabase.historyOf LateConfirm.booking.id).map
      BookingStatusHistory.createdAt).Nodup := by decide +kernel
  obtain ⟨hentries, -⟩ := hordered htimes
  refine ⟨detail, hok, ?_⟩
  rw [hentries]
  decide +kernel

end BookingPlatform
