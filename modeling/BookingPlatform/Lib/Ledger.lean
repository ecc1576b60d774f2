import BookingPlatform.Lib.Runs
import Mathlib.Data.Set.Card

/-!
# What is opened and what is closed

A system has any number of cells.  A step opens an empty cell under a key, closes
an open one, or leaves their keys alone.  In whatever order this happens, what was
opened under a key is what was closed under it and what is still open.

## Main definitions

* `openCells` — the cells that are open under a key.
* `Booked` — a step opens a cell, closes one, or leaves their keys alone.

## Main results

* `Run.ledger` — openings are closings and open cells, key by key.
-/

namespace Runs

variable {σ ε ι κ : Type*}

/-- The cells that are open under a key. -/
def openCells (f : ι → Option κ) (k : κ) : Set ι := { i | f i = some k }

/-- What is counted under two exclusive labels is counted under either. -/
theorem countP_or {τ : Type*} [DecidableEq κ] {f g : τ → Option κ}
    (h : ∀ x, f x = none ∨ g x = none) (l : List τ) (k : κ) :
    (l.countP fun x => (f x).or (g x) = some k) =
      (l.countP fun x => f x = some k) + l.countP fun x => g x = some k := by
  induction l with
  | nil => rfl
  | cons x l ih =>
    simp only [List.countP_cons, decide_eq_true_eq, ih]
    rcases h x with hnone | hnone <;> simp [hnone, add_assoc, add_left_comm, add_comm]

section Booked

variable [DecidableEq ι]

/-- What one step does to the cells: the key it opens, the key it closes. -/
inductive Booked (f : ι → Option κ) : Option κ → Option κ → (ι → Option κ) → Prop
  | keep : Booked f none none f
  | opened {i : ι} {k : κ} : f i = none → Booked f (some k) none (Function.update f i (some k))
  | closed {i : ι} {k : κ} : f i = some k → Booked f none (some k) (Function.update f i none)

theorem mem_openCells_update {f : ι → Option κ} {i j : ι} {o : Option κ} {k : κ} :
    j ∈ openCells (Function.update f i o) k ↔
      (j = i ∧ o = some k) ∨ (j ≠ i ∧ j ∈ openCells f k) := by
  unfold openCells
  by_cases hj : j = i
  · subst hj
    simp
  · simp [hj]

/-- The book may be kept under coarser keys. -/
theorem Booked.map {κ' : Type*} (φ : κ → κ') {f f' : ι → Option κ} {opens closes : Option κ}
    (h : Booked f opens closes f') :
    Booked (fun i => (f i).map φ) (opens.map φ) (closes.map φ) (fun i => (f' i).map φ) := by
  have hupdate : ∀ (i : ι) (o : Option κ), (fun j => (Function.update f i o j).map φ)
      = Function.update (fun j => (f j).map φ) i (o.map φ) :=
    fun i o => Function.comp_update (Option.map φ) f i o
  cases h with
  | keep => exact .keep
  | @opened i k hi =>
    rw [hupdate]
    exact .opened (by rw [hi]; rfl)
  | @closed i k hi =>
    rw [hupdate]
    exact .closed (by rw [hi]; rfl)

/-- **What one step does to the number of open cells.** -/
theorem Booked.ncard [DecidableEq κ] {f f' : ι → Option κ} {opens closes : Option κ}
    (h : Booked f opens closes f') {k : κ} (hfin : (openCells f k).Finite) :
    (openCells f' k).Finite ∧
      (openCells f' k).ncard + (if closes = some k then 1 else 0) =
        (openCells f k).ncard + if opens = some k then 1 else 0 := by
  cases h with
  | keep => exact ⟨hfin, by simp⟩
  | @opened i k' hi =>
    have hnot : i ∉ openCells f k := by simp [openCells, hi]
    by_cases hk : k' = k
    · have hcells : openCells (Function.update f i (some k')) k = insert i (openCells f k) := by
        ext j
        rw [mem_openCells_update, Set.mem_insert_iff, hk]
        by_cases hj : j = i <;> simp [hj]
      rw [hcells, Set.ncard_insert_of_notMem hnot hfin]
      exact ⟨hfin.insert i, by simp [hk]⟩
    · have hcells : openCells (Function.update f i (some k')) k = openCells f k := by
        ext j
        rw [mem_openCells_update]
        by_cases hj : j = i
        · simp [hj, hk, hnot]
        · simp [hj]
      rw [hcells]
      exact ⟨hfin, by simp [hk]⟩
  | @closed i k' hi =>
    have hcells : openCells (Function.update f i none) k = openCells f k \ {i} := by
      ext j
      rw [mem_openCells_update]
      by_cases hj : j = i <;> simp [hj]
    rw [hcells]
    refine ⟨hfin.sdiff, ?_⟩
    by_cases hk : k' = k
    · have hmem : i ∈ openCells f k := by rw [← hk]; exact hi
      simp [hk, Set.ncard_sdiff_singleton_add_one hmem hfin]
    · have hnot : i ∉ openCells f k := by simp [openCells, hi, hk]
      simp [hk, Set.sdiff_singleton_eq_self hnot]

end Booked

section Ledger

variable [DecidableEq ι] [DecidableEq κ] {R : σ → ε → σ → Prop} {I : σ → Prop} {s t : σ}
  {tr : List (Transition σ ε)} (cells : σ → ι → Option κ) (opens closes : Transition σ ε → Option κ)

/-- **The ledger of a run.** -/
theorem Run.ledger (hI : ∀ s e t, R s e t → I s → I t)
    (hstep : ∀ x : Transition σ ε, R x.pre x.event x.post → I x.pre →
      Booked (cells x.pre) (opens x) (closes x) (cells x.post))
    (h : Run R s tr t) (hs : I s) (hnone : ∀ i, cells s i = none) (k : κ) :
    (openCells (cells t) k).Finite ∧
      (tr.countP fun x => opens x = some k) =
        (tr.countP fun x => closes x = some k) + (openCells (cells t) k).ncard := by
  induction h with
  | nil =>
    have hempty : openCells (cells s) k = ∅ := by
      ext i
      simp [openCells, hnone i]
    simp [hempty]
  | @snoc t u tr e hrun hR ih =>
    obtain ⟨hfin, hcount⟩ := ih
    have hbooked : Booked (cells t) (opens ⟨t, e, u⟩) (closes ⟨t, e, u⟩) (cells u) :=
      hstep ⟨t, e, u⟩ hR (hrun.invariant hI hs)
    obtain ⟨hfin', hone⟩ := hbooked.ncard hfin
    refine ⟨hfin', ?_⟩
    simp only [List.countP_append, List.countP_singleton, decide_eq_true_eq]
    omega

end Ledger

end Runs
