import BookingPlatform.Schema

/-!
# The booking lifecycle

`booking-state.ts`: the transitions a booking's status may make.

## Main definitions

* `allowedTransitions`, `assertTransition` — the transitions and their check.
* `BookingStatus.isActive` — a status that holds places.
-/

namespace BookingPlatform

/-- The statuses that may follow a status. -/
def allowedTransitions : BookingStatus → List BookingStatus
  | .reserved => [.confirmed, .cancelled, .expired]
  | .confirmed => [.cancelled]
  | .cancelled => []
  | .expired => []

/-- An error unless the transition is allowed; a new booking starts `RESERVED`. -/
def assertTransition (fromStatus : Option BookingStatus) (toStatus : BookingStatus) :
    Except Failure Unit :=
  match fromStatus with
  | none =>
    if toStatus ≠ .reserved then
      throw (.app (conflictError
        ("Invalid initial booking status: expected RESERVED, got " ++ toStatus.toString)))
    else return ()
  | some status =>
    if toStatus ∉ allowedTransitions status then
      throw (.app (conflictError
        ("Cannot transition booking from " ++ status.toString ++ " to " ++ toStatus.toString)))
    else return ()

/-- The statuses that a cancellation may start from. -/
def isCancellable (status : BookingStatus) : Bool :=
  status == .reserved || status == .confirmed

theorem assertTransition_some {status toStatus : BookingStatus} {u : Unit} :
    assertTransition (some status) toStatus = .ok u ↔ toStatus ∈ allowedTransitions status := by
  simp only [assertTransition]
  split
  · next h => exact iff_of_false Except.throw_ne_ok h
  · next h => exact iff_of_true rfl (not_not.mp h)

/-- A status that counts against the capacity of a slot. -/
def BookingStatus.isActive (status : BookingStatus) : Bool := isCancellable status

@[simp] theorem isActive_reserved : BookingStatus.isActive .reserved = true := rfl
@[simp] theorem isActive_confirmed : BookingStatus.isActive .confirmed = true := rfl
@[simp] theorem isActive_cancelled : BookingStatus.isActive .cancelled = false := rfl
@[simp] theorem isActive_expired : BookingStatus.isActive .expired = false := rfl

/-- The statuses that may be cancelled are those with a transition to
`CANCELLED`. -/
theorem isActive_iff {status : BookingStatus} :
    status.isActive = true ↔ .cancelled ∈ allowedTransitions status := by
  cases status <;> decide

/-- Only a reserved booking may be confirmed. -/
theorem confirmed_mem_allowedTransitions {status : BookingStatus} :
    .confirmed ∈ allowedTransitions status ↔ status = .reserved := by
  cases status <;> decide

/-- No transition leads back to `RESERVED`. -/
theorem reserved_not_mem_allowedTransitions (status : BookingStatus) :
    .reserved ∉ allowedTransitions status := by
  cases status <;> decide

end BookingPlatform
