import BookingPlatform.Lib.Runs

/-!
# Runs seen from the level above

An abstract system sees part of the concrete state, and some of the steps.  A
step it does not see must leave what it sees as it is; the steps it does see are
then its own run exactly when each of them is one of its steps.

## Main definitions

* `seen` — the visible steps of a run.
* `Transition.image` — a step as a component makes it.
* `view` — the steps that are shown, as the system above shows them.

## Main results

* `Run.seen_iff` — the visible steps of a run are a run of the abstract system
  exactly when each of them is a step of it.
* `Run.image` — a run of a composed system is one of each component.
* `Run.cover` — when every step from above can be made, every run above is seen.
* `Run.lift` — a system whose steps are all seen above makes no other runs.
-/

namespace Runs

variable {σ α ε : Type*}

/-- A step as it is seen through `π`. -/
def Transition.map (π : σ → α) (x : Transition σ ε) : Transition α ε := ⟨π x.pre, x.event, π x.post⟩

/-- The visible steps of a run, seen through `π`. -/
def seen (π : σ → α) (visible : ε → Bool) (tr : List (Transition σ ε)) : List (Transition α ε) :=
  (tr.filter fun x => visible x.event).map (Transition.map π)

section Seen

variable {π : σ → α} {visible : ε → Bool} {tr : List (Transition σ ε)}

theorem mem_seen {y : Transition α ε} :
    y ∈ seen π visible tr ↔ ∃ x ∈ tr, visible x.event = true ∧ x.map π = y := by
  simp [seen, and_assoc]

theorem seen_snoc_visible {x : Transition σ ε} (h : visible x.event = true) :
    seen π visible (tr ++ [x]) = seen π visible tr ++ [x.map π] := by
  simp [seen, List.filter_append, h]

theorem seen_snoc_hidden {x : Transition σ ε} (h : visible x.event = false) :
    seen π visible (tr ++ [x]) = seen π visible tr := by
  simp [seen, List.filter_append, h]

/-- **A run of the level above, step by step.** -/
theorem Run.seen_iff {R : σ → ε → σ → Prop} {R' : α → ε → α → Prop} {s t : σ}
    (h : Run R s tr t) (hhidden : ∀ x ∈ tr, visible x.event = false → π x.post = π x.pre) :
    Run R' (π s) (seen π visible tr) (π t) ↔
      ∀ x ∈ tr, visible x.event = true → R' (π x.pre) x.event (π x.post) := by
  constructor
  · intro hrun x hx hvisible
    exact hrun.step_of_mem (mem_seen.mpr ⟨x, hx, hvisible, rfl⟩)
  · intro hsteps
    induction h with
    | nil => exact .nil _
    | @snoc t u tr e hrun hR ih =>
      have hbefore := ih (fun x hx => hhidden x (List.mem_append_left _ hx))
        fun x hx => hsteps x (List.mem_append_left _ hx)
      have hlast : (⟨t, e, u⟩ : Transition σ ε) ∈ tr ++ [⟨t, e, u⟩] :=
        List.mem_append_right _ (List.mem_singleton_self _)
      cases hv : visible e with
      | true =>
        rw [seen_snoc_visible hv]
        exact hbefore.snoc (hsteps _ hlast hv)
      | false =>
        rw [seen_snoc_hidden hv, show π u = π t from hhidden _ hlast hv]
        exact hbefore

end Seen

/-! ### Components -/

variable {δ : Type*}

/-- A step as a component makes it. -/
def Transition.image (π : σ → α) (φ : ε → δ) (x : Transition σ ε) : Transition α δ :=
  ⟨π x.pre, φ x.event, π x.post⟩

/-- **A run of a composed system is one of each component**, when each of its steps is. -/
theorem Run.image {π : σ → α} {φ : ε → δ} {R : σ → ε → σ → Prop} {R' : α → δ → α → Prop}
    {I : σ → Prop} (hI : ∀ s e t, R s e t → I s → I t)
    (hstep : ∀ s e t, R s e t → I s → R' (π s) (φ e) (π t)) {s t : σ}
    {tr : List (Transition σ ε)} (h : Run R s tr t) (hs : I s) :
    Run R' (π s) (tr.map (Transition.image π φ)) (π t) := by
  induction h with
  | nil => exact .nil _
  | @snoc t u tr e hrun hR ih =>
    rw [List.map_append]
    exact ih.snoc (hstep t e u hR (hrun.invariant hI hs))

/-! ### Views -/

/-- The steps of a run that `φ` shows, as a run of the system above shows them. -/
def view (π : σ → α) (φ : ε → Option δ) (tr : List (Transition σ ε)) : List (Transition α δ) :=
  tr.filterMap fun x => (φ x.event).map fun d => ⟨π x.pre, d, π x.post⟩

section View

variable {π : σ → α} {φ : ε → Option δ} {R : σ → ε → σ → Prop} {R' : α → δ → α → Prop}
  {I : σ → Prop}

theorem view_snoc {tr : List (Transition σ ε)} {x : Transition σ ε} :
    view π φ (tr ++ [x]) =
      view π φ tr ++ ((φ x.event).map fun d => ⟨π x.pre, d, π x.post⟩).toList := by
  rw [view, List.filterMap_append, ← view]
  cases h : φ x.event <;> simp [h]

/-- **Every run above is seen**, when each of its steps can be made. -/
theorem Run.cover (hstep : ∀ s d a, I s → R' (π s) d a →
      ∃ e t, R s e t ∧ φ e = some d ∧ π t = a ∧ I t)
    {a b : α} {tr : List (Transition α δ)} (h : Run R' a tr b) {s : σ} (hs : I s) (ha : π s = a) :
    ∃ tr' t, Run R s tr' t ∧ Runs.view π φ tr' = tr ∧ π t = b ∧ I t := by
  induction h with
  | nil => exact ⟨[], s, .nil s, rfl, ha, hs⟩
  | @snoc b c tr d _ hR' ih =>
    obtain ⟨tr', t, hrun, hview, rfl, ht⟩ := ih
    obtain ⟨e, u, hR, he, rfl, hu⟩ := hstep t d c ht hR'
    refine ⟨_, u, hrun.snoc hR, ?_, rfl, hu⟩
    rw [view_snoc, hview, he]
    rfl

end View

/-- **Every run is the view of a run above**, when every step is the view of one. -/
theorem Run.lift {π : α → σ} {φ : δ → ε} {R : σ → ε → σ → Prop} {R' : α → δ → α → Prop}
    (hstep : ∀ a e t, R (π a) e t → ∃ d b, R' a d b ∧ φ d = e ∧ π b = t) {s t : σ}
    {tr : List (Transition σ ε)} (h : Run R s tr t) {a : α} (ha : π a = s) :
    ∃ tr' b, Run R' a tr' b ∧ π b = t ∧ tr = tr'.map (Transition.image π φ) := by
  obtain ⟨tr', b, hrun, hview, hb, -⟩ := h.cover (I := fun _ => True) (φ := some ∘ φ)
    (fun a e t _ hR => by
      obtain ⟨d, b, hR', hd, hb⟩ := hstep a e t hR
      exact ⟨d, b, hR', congrArg some hd, hb, trivial⟩) trivial ha
  refine ⟨tr', b, hrun, hb, ?_⟩
  rw [← hview]
  exact congrFun List.filterMap_eq_map' tr'

theorem happensAt_image {π : α → σ} {φ : δ → ε} {tr : List (Transition α δ)} {i : ℕ} {e : ε} :
    HappensAt (tr.map (Transition.image π φ)) i e ↔ ∃ d, HappensAt tr i d ∧ φ d = e := by
  simp only [HappensAt, List.getElem?_map, Option.map_eq_some_iff]
  constructor
  · rintro ⟨x, ⟨y, hy, rfl⟩, hx⟩
    exact ⟨y.event, ⟨y, hy, rfl⟩, hx⟩
  · rintro ⟨d, ⟨y, hy, rfl⟩, hd⟩
    exact ⟨_, ⟨y, hy, rfl⟩, hd⟩

end Runs
