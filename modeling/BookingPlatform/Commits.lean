import BookingPlatform.BookingSystem
import BookingPlatform.Lifecycle

/-!
# Commits that fail, and expiries that are still open

In the booking system a transaction runs and commits in one step.  What the
services enqueue — a webhook dispatch, a cache invalidation — tells two more cases
apart: a transaction that runs to its end and fails to commit, and the transaction
of an expiry, which enqueues before it commits and so is seen while it is open.

The writes of an open transaction show when it commits.  Until then the rows they
are on are locked, and no other transaction that writes them commits.

## Main definitions

* `TxState`, `TxStep` — the booking system with open expiries and failing commits.
* `TxState.Unlocked` — no open expiry holds a row that a step writes.

## Main results

* `core_of_step` — a step is a step of the booking system or leaves the database
  as it is, and calls and runs stay coherent.
* `expire_of_opened` — an open expiry can commit for as long as it is open.
-/

namespace BookingPlatform

open Runs

/-- The booking system, and what each expiry run has claimed in a transaction that
is still open. -/
structure TxState where
  core : State
  opened : ℕ → Option StaleBooking

/-- Nothing has started. -/
structure TxState.Idle (s : TxState) : Prop where
  core : s.core.Idle
  opened : ∀ w, s.opened w = none

/-- A step of the booking system, a commit that fails, or an expiry that is opened. -/
inductive TxEvent
  | core (e : Event)
  | commitFailed (c : ℕ)
  | opened (w : ℕ) (item : StaleBooking)
  | expiryFailed (w : ℕ) (item : StaleBooking)

/-- The expiry run that a step belongs to. -/
def Event.worker? : Event → Option ℕ
  | .listed w _ | .expired w _ | .skipped w _ | .failed w _ _ | .returned w _ => some w
  | _ => none

/-- The step writes no row that an open expiry has written. -/
def TxState.Unlocked (s : TxState) (e : Event) : Prop :=
  ∀ w item, s.opened w = some item →
    e.slotId? ≠ some item.slotId ∧ ∀ status, e.writes? ≠ some (item.id, status)

/-- One step of the system with its open expiries and failing commits. -/
inductive TxStep (ttl : ℕ) : TxState → TxEvent → TxState → Prop
  -- a run whose expiry is open goes on when that is settled
  | quiet {s : TxState} {e : Event} {t : State} :
      Step ttl s.core e t → e.commits = false → (∀ w, e.worker? = some w → s.opened w = none) →
      TxStep ttl s (.core e) { s with core := t }
  | commit {s : TxState} {c : ℕ} {call : Call} {g : Generated} {t : State} :
      Step ttl s.core (.committed c call g) t → s.Unlocked (.committed c call g) →
      TxStep ttl s (.core (.committed c call g)) { s with core := t }
  -- the transaction has run to its end, and the caller gets the error
  | commitFails {s : TxState} {c : ℕ} {call : Call} {g : Generated} {b : Booking}
      {db' : Database} :
      s.core.calls c = .waiting call → g.Fresh s.core.db →
      (call.transaction g s.core.now).run s.core.db = .ok (b, db') →
      TxStep ttl s (.commitFailed c) { s with
        core := { s.core with calls := Function.update s.core.calls c .finished } }
  -- the writes stay unseen, and lock their rows
  | open_ {s : TxState} {w k : ℕ} {item : StaleBooking} {rest : List StaleBooking} {g : Generated}
      {db' : Database} :
      s.core.workers w = .running (item :: rest) k → s.opened w = none → g.Fresh s.core.db →
      (expireReservation item g s.core.now).run s.core.db = .ok (true, db') →
      s.Unlocked (.expired w item) →
      TxStep ttl s (.opened w item) { s with opened := Function.update s.opened w (some item) }
  | expire {s : TxState} {w : ℕ} {item : StaleBooking} {t : State} :
      s.opened w = some item → Step ttl s.core (.expired w item) t →
      TxStep ttl s (.core (.expired w item))
        { core := t, opened := Function.update s.opened w none }
  -- the error is logged, and the run goes on with the next booking
  | expireFails {s : TxState} {w k : ℕ} {item : StaleBooking} {rest : List StaleBooking} :
      s.opened w = some item → s.core.workers w = .running (item :: rest) k →
      TxStep ttl s (.expiryFailed w item)
        { core := { s.core with workers := Function.update s.core.workers w (.running rest k) }
          opened := Function.update s.opened w none }

/-- **A step is a step of the booking system, or leaves the database as it is.**
A commit that fails ends a call or a turn of an expiry run. -/
theorem core_of_step {ttl : ℕ} {s t : TxState} {e : TxEvent} (h : TxStep ttl s e t)
    (hco : Coherent ttl s.core) : Coherent ttl t.core ∧
      ((∃ e', e = .core e' ∧ Step ttl s.core e' t.core) ∨
        ((∀ e', e ≠ .core e') ∧ t.core.db = s.core.db ∧ t.core.now = s.core.now)) := by
  cases h with
  | quiet hstep | commit hstep | expire hopen hstep =>
    exact ⟨coherent_step hstep hco, Or.inl ⟨_, rfl, hstep⟩⟩
  | commitFails =>
    refine ⟨hco.of_evolves (.refl _) ?_ fun w batch n hw => Or.inl ⟨batch, n, hw, fun _ h => h⟩,
      Or.inr ⟨(fun _ h => by cases h), rfl, rfl⟩⟩
    intro c call hc
    rcases update_eq hc with ⟨-, hcall⟩ | hc
    · cases hcall
    · exact Or.inl hc
  | @expireFails w k item rest hopen hrun =>
    refine ⟨hco.of_evolves (.refl _) (fun c call hc => Or.inl hc) ?_,
      Or.inr ⟨(fun _ h => by cases h), rfl, rfl⟩⟩
    intro w' batch n hw'
    rcases update_eq hw' with ⟨rfl, hbatch⟩ | hw'
    · obtain ⟨rfl, -⟩ := WorkerState.running.inj hbatch
      exact Or.inl ⟨_, k, hrun, List.subset_cons_self item rest⟩
    · exact Or.inl ⟨batch, n, hw', fun _ h => h⟩
  | open_ => exact ⟨hco, Or.inr ⟨(fun _ h => by cases h), rfl, rfl⟩⟩

theorem coherent_txStep {ttl : ℕ} {s t : TxState} {e : TxEvent} (h : TxStep ttl s e t)
    (hco : Coherent ttl s.core) : Coherent ttl t.core := (core_of_step h hco).1

/-- An expiry that is opened has found its booking reserved. -/
theorem reserved_of_opened {ttl : ℕ} {s t : TxState} {w : ℕ} {item : StaleBooking}
    (h : TxStep ttl s (.opened w item) t) :
    ∃ b, s.core.db.bookings.get? item.id = some b ∧ b.status = .reserved := by
  cases h with
  | open_ hw hopen hg hrun =>
    obtain ⟨b, slot, slot', hb, hover, -⟩ := expireReservation_claimed.mp hrun
    exact ⟨b, hb, overdue_status hover⟩

/-! ### What an open expiry can rely on -/

/-- The rows an open expiry has locked are as it needs them to commit. -/
structure Held (s : State) (w : ℕ) (item : StaleBooking) : Prop where
  running : ∃ rest k, s.workers w = .running (item :: rest) k
  booking : ∃ b, s.db.bookings.get? item.id = some b ∧ overdue s.now b = true
  slot : ∃ slot slot', s.db.availabilitySlots.get? item.slotId = some slot ∧
    slot.tenantId = item.tenantId ∧ HasRoom (-item.partySize) slot ∧
    SlotAdjusted (-item.partySize) slot slot'

/-- Open expiries hold their rows, and no two hold the same. -/
structure Locked (s : TxState) : Prop where
  held : ∀ w item, s.opened w = some item → Held s.core w item
  apart : ∀ w w' item item', s.opened w = some item → s.opened w' = some item' → w ≠ w' →
    item.slotId ≠ item'.slotId ∧ item.id ≠ item'.id

theorem Held.claims {s : State} {w : ℕ} {item : StaleBooking} (h : Held s w item) (g : Generated) :
    ∃ db', (expireReservation item g s.now).run s.db = .ok (true, db') := by
  obtain ⟨-, ⟨b, hb, hover⟩, slot, slot', hs, htenant, hroom, hadj⟩ := h
  exact ⟨_, expireReservation_claimed.mpr
    ⟨b, slot, slot', hb, hover, hs, htenant, hroom, hadj, rfl⟩⟩

theorem held_of_claims {s : State} {w k : ℕ} {item : StaleBooking} {rest : List StaleBooking}
    {g : Generated} {db' : Database} (hw : s.workers w = .running (item :: rest) k)
    (h : (expireReservation item g s.now).run s.db = .ok (true, db')) : Held s w item := by
  obtain ⟨b, slot, slot', hb, hover, hs, htenant, hroom, hadj, -⟩ :=
    expireReservation_claimed.mp h
  exact ⟨⟨rest, k, hw⟩, ⟨b, hb, hover⟩, slot, slot', hs, htenant, hroom, hadj⟩

/-- A step that does not write a booking keeps its row. -/
theorem rewrite_of_not_writes {e : Event} {b : Booking}
    (h : ∀ status, e.writes? ≠ some (b.id, status)) : e.rewrite b = b := by
  unfold Event.rewrite
  split
  · exact if_neg fun heq => h .confirmed (by simp [Event.writes?, heq])
  · exact if_neg fun heq => h .cancelled (by simp [Event.writes?, heq])
  · exact if_neg fun heq => h .expired (by simp [Event.writes?, heq])
  · rfl

/-- The clock never goes back. -/
theorem now_le_of_step {ttl : ℕ} {s t : State} {e : Event} (h : Step ttl s e t) :
    s.now ≤ t.now := by
  cases h with
  | tick d => exact Int.le_add_of_nonneg_right (Int.natCast_nonneg d)
  | _ => exact le_refl _

theorem workers_of_step {ttl : ℕ} {s t : State} {e : Event} (h : Step ttl s e t) {w : ℕ}
    (hw : e.worker? ≠ some w) : t.workers w = s.workers w := by
  have hne : ∀ {w' : ℕ} {v : WorkerState}, some w' ≠ some w →
      Function.update s.workers w' v w = s.workers w := by
    intro w' v hne
    exact Function.update_of_ne (fun heq => hne (congrArg some heq.symm)) _ _
  cases h with
  | tick | lookup | refuse | commit | rollback => rfl
  | list | expire | skip | fail | return_ => exact hne hw

/-- What an open expiry holds survives every step that leaves its run, its booking
and its slot alone. -/
theorem Held.of_step {ttl : ℕ} {s t : State} {e : Event} {w : ℕ} {item : StaleBooking}
    (h : Held s w item) (hstep : Step ttl s e t) (hco : Coherent ttl s)
    (hw : e.worker? ≠ some w) (hslot : e.slotId? ≠ some item.slotId)
    (hbooking : ∀ status, e.writes? ≠ some (item.id, status)) : Held t w item := by
  have hchange := change_of_step hstep hco
  obtain ⟨hrunning, ⟨b, hb, hover⟩, slot, slot', hs, hrest⟩ := h
  refine ⟨by rwa [workers_of_step hstep hw], ⟨b, ?_, overdue_mono (now_le_of_step hstep) hover⟩,
    slot, slot', ?_, hrest⟩
  · have hid : b.id = item.id := (Table.get?_eq_some.mp hb).2
    rw [booking_of_change hchange hb, rewrite_of_not_writes (hid ▸ hbooking)]
  · obtain ⟨slot₁, hs₁, heq⟩ := slot_of_change hchange hs
    rw [if_neg hslot] at heq
    rw [hs₁, heq]

/-- The expiries that stay open when one is closed. -/
theorem opened_of_closed {opened : ℕ → Option StaleBooking} {w w' : ℕ} {item : StaleBooking}
    (h : Function.update opened w none w' = some item) : w ≠ w' ∧ opened w' = some item := by
  rcases update_eq h with ⟨-, hnone⟩ | hw'
  · cases hnone
  · refine ⟨?_, hw'⟩
    rintro rfl
    rw [Function.update_self] at h
    cases h

/-- Settling one open expiry keeps the locks of the others. -/
theorem Locked.close {s : TxState} {core : State} {w : ℕ} {item : StaleBooking} (h : Locked s)
    (hw : s.opened w = some item)
    (hheld : ∀ w' item', w ≠ w' → item.slotId ≠ item'.slotId → item.id ≠ item'.id →
      Held s.core w' item' → Held core w' item') :
    Locked { core := core, opened := Function.update s.opened w none } := by
  refine ⟨fun w' item' hw' => ?_, fun w₁ w₂ item₁ item₂ h₁ h₂ hne => ?_⟩
  · obtain ⟨hne, hw'⟩ := opened_of_closed hw'
    obtain ⟨hslot, hbooking⟩ := h.apart w w' item item' hw hw' hne
    exact hheld w' item' hne hslot hbooking (h.held w' item' hw')
  · exact h.apart w₁ w₂ item₁ item₂ (opened_of_closed h₁).2 (opened_of_closed h₂).2 hne

theorem locked_step {ttl : ℕ} {s t : TxState} {e : TxEvent} (h : TxStep ttl s e t)
    (hco : Coherent ttl s.core) (hlocked : Locked s) : Locked t := by
  cases h with
  | @quiet e t hstep hquiet hworker =>
    refine ⟨fun w item hw => ?_, hlocked.apart⟩
    refine (hlocked.held w item hw).of_step hstep hco ?_ ?_ ?_
    · intro hw'
      rw [hworker w hw'] at hw
      cases hw
    · simp [Event.slotId?_of_quiet hquiet]
    · simp [writes_of_quiet hquiet]
  | @commit c call g t hstep hfree =>
    refine ⟨fun w item hw => ?_, hlocked.apart⟩
    obtain ⟨hslot, hbooking⟩ := hfree w item hw
    exact (hlocked.held w item hw).of_step hstep hco (by simp [Event.worker?]) hslot hbooking
  | commitFails =>
    exact ⟨fun w item hw => ⟨(hlocked.held w item hw).running, (hlocked.held w item hw).booking,
      (hlocked.held w item hw).slot⟩, hlocked.apart⟩
  | @open_ w k item rest g db' hw hnone hg hrun hfree =>
    have hheld : Held s.core w item := held_of_claims hw hrun
    -- the rows were not locked by another open expiry
    have hnew : ∀ w' item', s.opened w' = some item' →
        item.slotId ≠ item'.slotId ∧ item.id ≠ item'.id := by
      intro w' item' hw'
      obtain ⟨hslot, hbooking⟩ := hfree w' item' hw'
      exact ⟨fun heq => hslot (congrArg some heq), fun heq => hbooking .expired (by
        simp [Event.writes?, heq])⟩
    refine ⟨fun w' item' hw' => ?_, fun w₁ w₂ item₁ item₂ h₁ h₂ hne => ?_⟩
    · rcases update_eq hw' with ⟨rfl, hitem⟩ | hw'
      · exact Option.some.inj hitem ▸ hheld
      · exact hlocked.held w' item' hw'
    · rcases update_eq h₁ with ⟨rfl, hitem₁⟩ | hold₁ <;>
        rcases update_eq h₂ with ⟨rfl, hitem₂⟩ | hold₂
      · exact absurd rfl hne
      · exact Option.some.inj hitem₁ ▸ hnew w₂ item₂ hold₂
      · exact Option.some.inj hitem₂ ▸ (hnew w₁ item₁ hold₁).imp Ne.symm Ne.symm
      · exact hlocked.apart w₁ w₂ item₁ item₂ hold₁ hold₂ hne
  | @expire w item t hw hstep =>
    -- the other open expiries are on other rows
    refine hlocked.close hw fun w' item' hne hslot hbooking hheld => ?_
    refine hheld.of_step hstep hco ?_ ?_ ?_
    · simpa [Event.worker?] using hne
    · simpa [Event.slotId?] using hslot
    · intro status heq
      exact hbooking (Prod.mk.inj (Option.some.inj heq)).1
  | @expireFails w k item rest hw hrun =>
    refine hlocked.close hw fun w' item' hne _ _ hheld => ?_
    obtain ⟨⟨rest', k', hrunning⟩, hbooking, hslot⟩ := hheld
    refine ⟨⟨rest', k', ?_⟩, hbooking, hslot⟩
    show Function.update s.core.workers w _ w' = _
    rw [Function.update_of_ne (Ne.symm hne)]
    exact hrunning

/-- **An open expiry can commit for as long as it is open**: the rows it has
written are locked. -/
theorem expire_of_opened {ttl : ℕ} {s t : TxState} {tr : List (Transition TxState TxEvent)}
    (hrun : Run (TxStep ttl) s tr t) (hidle : s.Idle) {w : ℕ} {item : StaleBooking}
    (hw : t.opened w = some item) {g : Generated} (hg : g.Fresh t.core.db) :
    ∃ u, TxStep ttl t (.core (.expired w item)) u := by
  have hstart : Locked s := by
    refine ⟨fun w item hw => ?_, fun w w' item item' hw => ?_⟩ <;>
      · rw [hidle.opened w] at hw
        cases hw
  have hlocked : Locked t := (hrun.invariant (I := fun s => Coherent ttl s.core ∧ Locked s)
    (fun _ _ _ hstep hinv => ⟨coherent_txStep hstep hinv.1, locked_step hstep hinv.1 hinv.2⟩)
    ⟨hidle.core.coherent, hstart⟩).2
  have hheld := hlocked.held w item hw
  obtain ⟨rest, k, hrunning⟩ := hheld.running
  obtain ⟨db', hclaim⟩ := hheld.claims g
  exact ⟨_, .expire hw (.expire hrunning hg hclaim)⟩

end BookingPlatform
