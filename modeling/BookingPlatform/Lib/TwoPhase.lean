import BookingPlatform.Lib.Runs
import BookingPlatform.Lib.Transaction

/-!
# Services whose calls look up and commit later

A call reads a snapshot of a store, decides there whether it needs a
transaction, and runs that transaction at any later time on whatever the store
then is.  Steps of any number of calls interleave, and the clock never goes
back.  The store may have moved on between the two steps of a call; what a
waiting call can still rely on is a preorder `E` that every step respects.

## Main definitions

* `Service` — the lookup and the transaction of a call.
* `State`, `Step` — the calls on one store, and their steps.
* `Coherent` — every waiting call was looked up on a store that this one follows.

## Main results

* `coherent_run` — along a run every waiting call was looked up on a store that
  the current one follows in the preorder.
-/

namespace TwoPhase

open Runs

/-- A service: the lookup of a request, which may end it there, the transaction
of a call, and when what a transaction draws at random is new to a store. -/
structure Service (σ Req Call Draw Err Out : Type) where
  lookup : Req → σ → ℤ → Except Err (Option Call)
  transaction : Call → Draw → ℤ → Transaction σ Err Out
  fresh : Draw → σ → Prop

/-- Where a call stands. -/
inductive Phase (Req Call : Type)
  | notStarted
  | waiting (req : Req) (call : Call)
  | finished

/-- The store, the clock, and every call by its number. -/
structure State (σ Req Call : Type) where
  store : σ
  now : ℤ
  calls : ℕ → Phase Req Call

/-- What a step was. -/
inductive Event (Req Call Draw Err Out : Type)
  | tick
  | lookedUp (c : ℕ) (req : Req) (call : Call)
  | answered (c : ℕ) (req : Req)
  | committed (c : ℕ) (req : Req) (call : Call) (g : Draw) (out : Out)
  | rolledBack (c : ℕ) (req : Req) (call : Call) (g : Draw) (e : Err)

variable {σ Req Call Draw Err Out : Type} {S : Service σ Req Call Draw Err Out}
variable {s t : State σ Req Call} {e : Event Req Call Draw Err Out}

/-- No call has started. -/
def State.Idle (s : State σ Req Call) : Prop := ∀ c, s.calls c = .notStarted

/-- The system on a store before any call. -/
def State.start (store : σ) (now : ℤ) : State σ Req Call := ⟨store, now, fun _ => .notStarted⟩

theorem State.idle_start (store : σ) (now : ℤ) : (State.start store now : State σ Req Call).Idle :=
  fun _ => rfl

/-- One step of one call, or of the clock. -/
inductive Step (S : Service σ Req Call Draw Err Out) :
    State σ Req Call → Event Req Call Draw Err Out → State σ Req Call → Prop
  | tick (s : State σ Req Call) (d : ℕ) : Step S s .tick { s with now := s.now + d }
  | lookup {s : State σ Req Call} {c : ℕ} {req : Req} {call : Call} :
      s.calls c = .notStarted → S.lookup req s.store s.now = .ok (some call) →
      Step S s (.lookedUp c req call)
        { s with calls := Function.update s.calls c (.waiting req call) }
  | answer {s : State σ Req Call} {c : ℕ} {req : Req} :
      s.calls c = .notStarted → (∀ call, S.lookup req s.store s.now ≠ .ok (some call)) →
      Step S s (.answered c req) { s with calls := Function.update s.calls c .finished }
  | commit {s : State σ Req Call} {c : ℕ} {req : Req} {call : Call} {g : Draw} {out : Out}
      {store : σ} :
      s.calls c = .waiting req call → S.fresh g s.store →
      (S.transaction call g s.now).run s.store = .ok (out, store) →
      Step S s (.committed c req call g out)
        { s with store := store, calls := Function.update s.calls c .finished }
  | rollback {s : State σ Req Call} {c : ℕ} {req : Req} {call : Call} {g : Draw} {err : Err} :
      s.calls c = .waiting req call → S.fresh g s.store →
      (S.transaction call g s.now).run s.store = .error err →
      Step S s (.rolledBack c req call g err)
        { s with calls := Function.update s.calls c .finished }

/-- The call whose transaction a step runs, whatever comes of it. -/
def Event.ran? : Event Req Call Draw Err Out → Option (ℕ × Req × Call)
  | .committed c req call _ _ => some (c, req, call)
  | .rolledBack c req call _ _ => some (c, req, call)
  | _ => none

/-- A transaction is run by a call that waits for it. -/
theorem waiting_of_ran (h : Step S s e t) {c : ℕ} {req : Req} {call : Call}
    (he : e.ran? = some (c, req, call)) : s.calls c = .waiting req call := by
  cases h with
  | tick | lookup | answer => cases he
  | commit hc | rollback hc =>
    obtain ⟨rfl, rfl, rfl⟩ : _ ∧ _ ∧ _ := by simpa [Event.ran?] using he
    exact hc

/-- Where a waiting call comes from, over one step. -/
theorem waiting_of_step (h : Step S s e t) {c : ℕ} {req : Req} {call : Call}
    (hc : t.calls c = .waiting req call) :
    s.calls c = .waiting req call ∨
      (e = .lookedUp c req call ∧ S.lookup req s.store s.now = .ok (some call)) := by
  cases h with
  | tick => exact Or.inl hc
  | lookup hfree hlook =>
    rcases update_eq hc with ⟨heq, hcall⟩ | hc
    · rw [Phase.waiting.injEq] at hcall
      rw [heq, ← hcall.1, ← hcall.2]
      exact Or.inr ⟨rfl, hlook⟩
    · exact Or.inl hc
  | answer | commit | rollback =>
    rcases update_eq hc with ⟨-, hcall⟩ | hc
    · cases hcall
    · exact Or.inl hc

/-- **A call that waits at the end of a run and not at its start was looked up on
the way.** -/
theorem lookup_of_waiting {tr : List (Transition (State σ Req Call) (Event Req Call Draw Err Out))}
    (hrun : Run (Step S) s tr t) {c : ℕ} (hs : ∀ req call, s.calls c ≠ .waiting req call)
    {req : Req} {call : Call} (hc : t.calls c = .waiting req call) :
    ∃ l x l', tr = l ++ x :: l' ∧ x.event = .lookedUp c req call ∧
      S.lookup req x.pre.store x.pre.now = .ok (some call) := by
  obtain ⟨l, x, l', rfl, hpre, hpost⟩ :=
    hrun.origin (P := fun s => s.calls c = .waiting req call) (hs req call) hc
  rcases waiting_of_step hrun.cut.2.1 hpost with hwas | ⟨he, hlook⟩
  · exact absurd hwas hpre
  · exact ⟨l, x, l', rfl, he, hlook⟩

/-- Every waiting call was looked up on a store that the current one follows. -/
def Coherent (S : Service σ Req Call Draw Err Out) (E : σ → σ → Prop) (s : State σ Req Call) :
    Prop :=
  ∀ c req call, s.calls c = .waiting req call →
    ∃ store now, S.lookup req store now = .ok (some call) ∧ E store s.store

theorem State.Idle.coherent {E : σ → σ → Prop} (h : s.Idle) : Coherent S E s := by
  intro c req call hc
  rw [h c] at hc
  cases hc

/-- A store transition that respects the preorder keeps coherence. -/
theorem coherent_step {E : σ → σ → Prop} (htrans : ∀ a b c, E a b → E b c → E a c)
    (h : Step S s e t) (hE : E s.store t.store) (hco : Coherent S E s) : Coherent S E t := by
  intro c req call hc
  rcases waiting_of_step h hc with hc | ⟨-, hlook⟩
  · obtain ⟨store, now, hlook, hbefore⟩ := hco c req call hc
    exact ⟨store, now, hlook, htrans _ _ _ hbefore hE⟩
  · exact ⟨s.store, s.now, hlook, hE⟩

/-- **Coherence holds along every run** of a service whose steps, from coherent
states, respect the preorder. -/
theorem coherent_run {E : σ → σ → Prop} (htrans : ∀ a b c, E a b → E b c → E a c)
    (hstep : ∀ s e t, Step S s e t → Coherent S E s → E s.store t.store)
    {tr : List (Transition (State σ Req Call) (Event Req Call Draw Err Out))}
    (hrun : Run (Step S) s tr t) (hs : Coherent S E s) : Coherent S E t :=
  hrun.invariant (I := Coherent S E)
    (fun s e t h hco => coherent_step htrans h (hstep s e t h hco) hco) hs

end TwoPhase
