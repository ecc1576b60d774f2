import Mathlib.Tactic

/-!
# Runs of a labelled transition system

A system is a step relation `R : σ → ε → σ → Prop`; a run is a finite sequence
of steps, kept as the list of its transitions, each with the state before, the
label and the state after.  Keeping all three makes a statement about "every
step of this run" an ordinary statement about the members of a list, whether it
speaks of the label or of the states on either side.

## Main definitions

* `Transition`, `Run` — a step with the states around it, and a run.
* `lastWrite` — what the steps of a run wrote last to a cell.
* `HappensAt` — the event of a step of a run.

## Main results

* `Run.invariant`, `Run.invariant_of` — an invariant kept by every step, or by
  every step that meets a condition, holds at the end and around every step.
* `Run.forall_post_iff` — a property that survives exactly the steps that meet a
  condition holds along exactly the runs whose steps all meet it.
* `Run.related` — a preorder respected by every step relates both ends.
* `Run.cut` — every transition of a run splits it into a run before and a run
  after.
* `Run.tally` — a quantity that every step changes by what its label says has
  changed, over the run, by the sum over the labels.
* `Run.nodup_filterMap` — what a step rules out for every later one happens at
  most once.
* `Run.origin` — what holds at the end and not at the start became true in a
  step of the run.
* `Run.read_eq` — a cell that only labelled writes change holds the last write.
* `Run.invariant_between`, `Run.since` — the invariant rule from one step to a
  later one, and when what holds at a step began to hold.
-/

namespace Runs

variable {σ ε : Type*}

/-- Reading a map after one entry of it changed. -/
theorem update_eq {ι α : Type*} [DecidableEq ι] {f : ι → α} {i j : ι} {x y : α}
    (h : Function.update f i x j = y) : (j = i ∧ x = y) ∨ f j = y := by
  by_cases hij : j = i
  · rw [hij, Function.update_self] at h
    exact Or.inl ⟨hij, h⟩
  · rw [Function.update_of_ne hij] at h
    exact Or.inr h

/-- One step of a run: the state before, the label, the state after. -/
structure Transition (σ ε : Type*) where
  pre : σ
  event : ε
  post : σ

/-- `Run R s tr t`: the steps `tr` lead from `s` to `t`. -/
inductive Run (R : σ → ε → σ → Prop) : σ → List (Transition σ ε) → σ → Prop
  | nil (s : σ) : Run R s [] s
  | snoc {s t u : σ} {tr : List (Transition σ ε)} {e : ε} :
      Run R s tr t → R t e u → Run R s (tr ++ [⟨t, e, u⟩]) u

namespace Run

variable {R : σ → ε → σ → Prop} {s t u : σ} {tr tr' : List (Transition σ ε)}

theorem single {e : ε} (h : R s e t) : Run R s [⟨s, e, t⟩] t := snoc (nil s) h

theorem append (h : Run R s tr t) (h' : Run R t tr' u) : Run R s (tr ++ tr') u := by
  induction h' with
  | nil => simpa using h
  | snoc _ hstep ih => rw [← List.append_assoc]; exact snoc ih hstep

theorem eq_of_nil (h : Run R s [] t) : s = t := by
  generalize hnil : ([] : List (Transition σ ε)) = l at h
  cases h with
  | nil => rfl
  | snoc => simp at hnil

/-- The last step of a nonempty run. -/
theorem snoc_inv {x : Transition σ ε} (h : Run R s (tr ++ [x]) u) :
    Run R s tr x.pre ∧ R x.pre x.event x.post ∧ x.post = u := by
  generalize hl : tr ++ [x] = l at h
  cases h with
  | nil => simp at hl
  | snoc hrun hstep =>
    obtain ⟨rfl, hx⟩ := List.append_inj' hl rfl
    obtain rfl := List.head_eq_of_cons_eq hx
    exact ⟨hrun, hstep, rfl⟩

/-- A run splits wherever its list of steps does. -/
theorem split (h : Run R s (tr ++ tr') u) : ∃ t, Run R s tr t ∧ Run R t tr' u := by
  induction tr' using List.reverseRecOn generalizing u with
  | nil => exact ⟨u, by simpa using h, nil u⟩
  | append_singleton l x ih =>
    rw [← List.append_assoc] at h
    obtain ⟨hrun, hstep, rfl⟩ := h.snoc_inv
    obtain ⟨t, h₁, h₂⟩ := ih hrun
    exact ⟨t, h₁, snoc h₂ hstep⟩

/-- **Every transition of a run cuts it in two.** -/
theorem cut {x : Transition σ ε} (h : Run R s (tr ++ x :: tr') u) :
    Run R s tr x.pre ∧ R x.pre x.event x.post ∧ Run R x.post tr' u := by
  have hx : tr ++ x :: tr' = (tr ++ [x]) ++ tr' := by simp
  rw [hx] at h
  obtain ⟨t, h₁, h₂⟩ := h.split
  obtain ⟨hrun, hstep, rfl⟩ := h₁.snoc_inv
  exact ⟨hrun, hstep, h₂⟩

theorem step_of_mem (h : Run R s tr t) {x : Transition σ ε} (hx : x ∈ tr) :
    R x.pre x.event x.post := by
  obtain ⟨l₁, l₂, rfl⟩ := List.append_of_mem hx
  exact h.cut.2.1

/-! ### Invariants -/

/-- **The invariant rule, for runs whose steps all meet a condition.** -/
theorem invariant_of {I : σ → Prop} {C : Transition σ ε → Prop}
    (hstep : ∀ s e t, C ⟨s, e, t⟩ → R s e t → I s → I t)
    (h : Run R s tr t) (hok : ∀ x ∈ tr, C x) (hs : I s) : I t := by
  induction h with
  | nil => exact hs
  | snoc _ hR ih =>
    simp only [List.mem_append, List.mem_singleton] at hok
    exact hstep _ _ _ (hok _ (Or.inr rfl)) hR (ih fun x hx => hok x (Or.inl hx))

/-- The invariant rule. -/
theorem invariant {I : σ → Prop} (hstep : ∀ s e t, R s e t → I s → I t)
    (h : Run R s tr t) (hs : I s) : I t :=
  h.invariant_of (C := fun _ => True) (fun s e t _ => hstep s e t) (fun _ _ => trivial) hs

/-- An invariant holds on both sides of every step. -/
theorem invariant_mem {I : σ → Prop} (hstep : ∀ s e t, R s e t → I s → I t)
    (h : Run R s tr t) (hs : I s) {x : Transition σ ε} (hx : x ∈ tr) : I x.pre ∧ I x.post := by
  obtain ⟨l₁, l₂, rfl⟩ := List.append_of_mem hx
  obtain ⟨hpre, hR, -⟩ := h.cut
  have hI : I x.pre := hpre.invariant hstep hs
  exact ⟨hI, hstep _ _ _ hR hI⟩

/-- What holds at the start and after every step holds at the end. -/
theorem last {P : σ → Prop} (h : Run R s tr t) (hs : P s) (hpost : ∀ x ∈ tr, P x.post) : P t := by
  cases h with
  | nil => exact hs
  | snoc => exact hpost _ (List.mem_append_right _ List.mem_cons_self)

/-- **The exact rule.** If from good states `P` survives a step exactly when the
step meets `C`, then `P` holds all along a run exactly when every step does. -/
theorem forall_post_iff {I P : σ → Prop} {C : Transition σ ε → Prop}
    (hI : ∀ s e t, R s e t → I s → I t)
    (hP : ∀ s e t, R s e t → I s → P s → (P t ↔ C ⟨s, e, t⟩))
    (h : Run R s tr t) (hs : I s) (hp : P s) : (∀ x ∈ tr, P x.post) ↔ ∀ x ∈ tr, C x := by
  induction h with
  | nil => simp
  | @snoc t u tr e hrun hR ih =>
    simp only [List.forall_mem_append, List.forall_mem_singleton]
    constructor
    · rintro ⟨hpost, hu⟩
      exact ⟨ih.mp hpost, (hP _ _ _ hR (hrun.invariant hI hs) (hrun.last hp hpost)).mp hu⟩
    · rintro ⟨hC, hu⟩
      have hpost := ih.mpr hC
      exact ⟨hpost, (hP _ _ _ hR (hrun.invariant hI hs) (hrun.last hp hpost)).mpr hu⟩

/-- **A preorder that every step respects, from states where `I` holds, relates
the two ends of a run.** -/
theorem related {I : σ → Prop} {Q : σ → σ → Prop} (hrefl : ∀ s, Q s s)
    (htrans : ∀ s t u, Q s t → Q t u → Q s u) (hI : ∀ s e t, R s e t → I s → I t)
    (hstep : ∀ s e t, R s e t → I s → Q s t) (h : Run R s tr t) (hs : I s) : Q s t := by
  induction h with
  | nil => exact hrefl _
  | snoc hrun hR ih => exact htrans _ _ _ ih (hstep _ _ _ hR (hrun.invariant hI hs))

/-- **The bookkeeping rule.** If every step changes the quantity `φ` by what `δ`
reads off its label, a run changes it by the sum over its labels. -/
theorem tally {I : σ → Prop} {φ : σ → ℤ} {δ : ε → ℤ} (hI : ∀ s e t, R s e t → I s → I t)
    (hstep : ∀ s e t, R s e t → I s → φ t = φ s + δ e) (h : Run R s tr t) (hs : I s) :
    φ t = φ s + (tr.map fun x => δ x.event).sum := by
  induction h with
  | nil => simp
  | snoc hrun hR ih =>
    rw [hstep _ _ _ hR (hrun.invariant hI hs), ih]
    simp [add_assoc]

/-- **What holds between every step and every later one holds pairwise.** The
later step and those between the two may be assumed to meet a condition that all
steps do. -/
theorem pairwise {I : σ → Prop} {C : Transition σ ε → Prop}
    {P : Transition σ ε → Transition σ ε → Prop} (hI : ∀ s e t, R s e t → I s → I t)
    (hP : ∀ x y tr, I x.pre → R x.pre x.event x.post → Run R x.post tr y.pre →
      (∀ z ∈ tr, C z) → R y.pre y.event y.post → C y → P x y)
    (h : Run R s tr t) (hC : ∀ x ∈ tr, C x) (hs : I s) : tr.Pairwise P := by
  induction h with
  | nil => exact List.Pairwise.nil
  | @snoc t u tr e hrun hR ih =>
    have hC' : ∀ x ∈ tr, C x := fun x hx => hC x (List.mem_append_left _ hx)
    rw [List.pairwise_append]
    refine ⟨ih hC', List.pairwise_singleton _ _, ?_⟩
    intro x hx y hy
    have hCy : C y := hC y (List.mem_append_right _ hy)
    rw [List.mem_singleton] at hy
    subst hy
    obtain ⟨l₁, l₂, rfl⟩ := List.append_of_mem hx
    obtain ⟨hpre, hx, hpost⟩ := hrun.cut
    have hC₂ : ∀ z ∈ l₂, C z := fun z hz =>
      hC' z (List.mem_append_right _ (List.mem_cons_of_mem x hz))
    exact hP x _ l₂ (hpre.invariant hI hs) hx hpost hC₂ hR hCy

/-- **The at-most-once rule.** If a step whose label carries a key leaves a state
after which no step carries that key again, the keys of a run are distinct. -/
theorem nodup_filterMap {κ : Type*} {I : σ → Prop} {C : Transition σ ε → Prop} {f : ε → Option κ}
    (hI : ∀ s e t, R s e t → I s → I t)
    (honce : ∀ (x y : Transition σ ε) tr k, I x.pre → R x.pre x.event x.post →
      Run R x.post tr y.pre → (∀ z ∈ tr, C z) → R y.pre y.event y.post → C y →
      f x.event = some k → f y.event ≠ some k)
    (h : Run R s tr t) (hC : ∀ x ∈ tr, C x) (hs : I s) :
    (tr.filterMap fun x => f x.event).Nodup := by
  have hpair := h.pairwise (P := fun x y => ∀ k, f x.event = some k → f y.event ≠ some k) hI
    (fun x y tr hx hstep hmid hz hy hCy k => honce x y tr k hx hstep hmid hz hy hCy) hC hs
  refine List.pairwise_filterMap.mpr (hpair.imp ?_)
  intro x y hxy k hx k' hy heq
  exact hxy k hx (heq ▸ hy)

/-- **The origin rule.** What holds at the end of a run and not at its start
became true in one of its steps. -/
theorem origin {P : σ → Prop} (h : Run R s tr t) (hs : ¬ P s) (ht : P t) :
    ∃ l x l', tr = l ++ x :: l' ∧ ¬ P x.pre ∧ P x.post := by
  induction h with
  | nil => exact absurd ht hs
  | @snoc t u tr e hrun hR ih =>
    by_cases hP : P t
    · obtain ⟨l, x, l', rfl, hpre, hpost⟩ := ih hP
      exact ⟨l, x, l' ++ [⟨t, e, u⟩], by simp, hpre, hpost⟩
    · exact ⟨tr, ⟨t, e, u⟩, [], rfl, hP, ht⟩

end Run

/-! ### Last writes -/

section LastWrite

variable {κ α : Type*} [DecidableEq κ] {w : ε → Option (κ × α)} {k : κ} {a : α}
  {tr : List (Transition σ ε)}

/-- What a label writes to the cell `k`, when it writes `w e`. -/
def wrote (w : ε → Option (κ × α)) (k : κ) (e : ε) : Option α :=
  (w e).bind fun p => if p.1 = k then some p.2 else none

/-- The last value that the steps `tr` write to the cell `k`. -/
def lastWrite (w : ε → Option (κ × α)) (tr : List (Transition σ ε)) (k : κ) : Option α :=
  (tr.filterMap fun x => wrote w k x.event).getLast?

theorem wrote_eq_some {e : ε} : wrote w k e = some a ↔ w e = some (k, a) := by
  unfold wrote
  rw [Option.bind_eq_some_iff]
  constructor
  · rintro ⟨p, hw, h⟩
    split at h
    · next hk => rw [hw, ← hk, ← Option.some.inj h]
    · cases h
  · intro hw
    exact ⟨(k, a), hw, if_pos rfl⟩

theorem wrote_eq_none {e : ε} : wrote w k e = none ↔ ∀ a, w e ≠ some (k, a) := by
  rw [Option.eq_none_iff_forall_ne_some]
  exact forall_congr' fun a => not_congr wrote_eq_some

theorem lastWrite_snoc {x : Transition σ ε} :
    lastWrite w (tr ++ [x]) k = (wrote w k x.event).or (lastWrite w tr k) := by
  unfold lastWrite
  rw [List.filterMap_append, List.getLast?_append]
  congr 1
  cases h : wrote w k x.event <;> simp [h]

theorem exists_of_lastWrite (h : lastWrite w tr k = some a) :
    ∃ x ∈ tr, w x.event = some (k, a) := by
  obtain ⟨x, hx, hw⟩ := List.mem_filterMap.mp (List.mem_of_getLast? h)
  exact ⟨x, hx, wrote_eq_some.mp hw⟩

/-- The last write of a run cuts it, and nothing is written to the cell after it. -/
theorem split_of_lastWrite (h : lastWrite w tr k = some a) :
    ∃ l x l', tr = l ++ x :: l' ∧ w x.event = some (k, a) ∧
      ∀ y ∈ l', wrote w k y.event = none := by
  induction tr using List.reverseRecOn with
  | nil => cases h
  | append_singleton tr x ih =>
    rw [lastWrite_snoc] at h
    cases hx : wrote w k x.event with
    | some b =>
      rw [hx, Option.some_or] at h
      obtain rfl := Option.some.inj h
      exact ⟨tr, x, [], rfl, wrote_eq_some.mp hx, fun _ hy => nomatch hy⟩
    | none =>
      rw [hx, Option.none_or] at h
      obtain ⟨l, z, l', rfl, hz, hafter⟩ := ih h
      refine ⟨l, z, l' ++ [x], by simp, hz, ?_⟩
      simpa only [List.forall_mem_append, List.forall_mem_singleton] using ⟨hafter, hx⟩

theorem lastWrite_eq_none : lastWrite w tr k = none ↔ ∀ x ∈ tr, wrote w k x.event = none := by
  unfold lastWrite
  rw [List.getLast?_eq_none_iff, List.filterMap_eq_nil_iff]

/-- **A cell that every step changes by what its label writes holds, after a run,
the last write, and what it held before when there is none.** -/
theorem Run.read_eq {R : σ → ε → σ → Prop} {s t : σ} {I : σ → Prop} {c : σ → Option α}
    (hI : ∀ s e t, R s e t → I s → I t)
    (hstep : ∀ s e t, R s e t → I s → c t = (wrote w k e).or (c s))
    (h : Run R s tr t) (hs : I s) : c t = (lastWrite w tr k).or (c s) := by
  induction h with
  | nil => rfl
  | snoc hrun hR ih =>
    rw [hstep _ _ _ hR (hrun.invariant hI hs), ih, lastWrite_snoc, Option.or_assoc]

end LastWrite

/-! ### Steps by their time -/

/-- The `i`th step of a run is an `e`. -/
def HappensAt (tr : List (Transition σ ε)) (i : ℕ) (e : ε) : Prop :=
  ∃ x, tr[i]? = some x ∧ x.event = e

theorem HappensAt.event_eq {tr : List (Transition σ ε)} {i : ℕ} {e : ε} (h : HappensAt tr i e)
    {x : Transition σ ε} (hx : tr[i]? = some x) : x.event = e := by
  obtain ⟨y, hy, he⟩ := h
  rw [hx] at hy
  rw [Option.some.inj hy, he]

/-- A step has one label. -/
theorem HappensAt.inj {tr : List (Transition σ ε)} {i : ℕ} {e e' : ε} (h : HappensAt tr i e)
    (h' : HappensAt tr i e') : e = e' := by
  obtain ⟨x, hx, he⟩ := h
  rw [← he, h'.event_eq hx]

/-- What happens before a time happens there for a last time. -/
theorem exists_last {P : ℕ → Prop} {p j : ℕ} (hp : P p) (hpj : p < j) :
    ∃ i, p ≤ i ∧ i < j ∧ P i ∧ ∀ m, i < m → m < j → ¬ P m := by
  induction j with
  | zero => exact absurd hpj (Nat.not_lt_zero p)
  | succ j ih =>
    by_cases hj : P j
    · exact ⟨j, by omega, by omega, hj, fun m hm hmj => by omega⟩
    · have hne : p ≠ j := fun heq => hj (heq ▸ hp)
      obtain ⟨i, hpi, hij, hi, hlast⟩ := ih (by omega)
      refine ⟨i, hpi, by omega, hi, fun m him hmj => ?_⟩
      rcases Nat.lt_succ_iff_lt_or_eq.mp hmj with hlt | rfl
      · exact hlast m him hlt
      · exact hj

namespace Run

variable {R : σ → ε → σ → Prop} {s t : σ} {tr : List (Transition σ ε)} {i j : ℕ}
  {x y : Transition σ ε} {e : ε}

/-- The step that a label stands for. -/
theorem step_of_happens (h : Run R s tr t) (he : HappensAt tr i e) :
    ∃ x, tr[i]? = some x ∧ x.event = e ∧ R x.pre e x.post := by
  obtain ⟨x, hx, rfl⟩ := he
  exact ⟨x, hx, rfl, h.step_of_mem (List.mem_of_getElem? hx)⟩

theorem step_at (h : Run R s tr t) (hx : tr[i]? = some x) : R x.pre x.event x.post :=
  h.step_of_mem (List.mem_of_getElem? hx)

theorem cut_at (h : Run R s tr t) (hx : tr[i]? = some x) :
    Run R s (tr.take i) x.pre ∧ Run R x.post (tr.drop (i + 1)) t := by
  obtain ⟨hlt, rfl⟩ := List.getElem?_eq_some_iff.mp hx
  have hsplit : tr = tr.take i ++ tr[i] :: tr.drop (i + 1) := by
    rw [← List.drop_eq_getElem_cons hlt, List.take_append_drop]
  rw [hsplit] at h
  obtain ⟨hbefore, -, hafter⟩ := h.cut
  exact ⟨hbefore, hafter⟩

theorem pre_zero (h : Run R s tr t) (hx : tr[0]? = some x) : x.pre = s := by
  obtain ⟨hbefore, -⟩ := h.cut_at hx
  exact hbefore.eq_of_nil.symm

theorem pre_succ (h : Run R s tr t) (hx : tr[i]? = some x) (hy : tr[i + 1]? = some y) :
    y.pre = x.post := by
  obtain ⟨-, hafter⟩ := h.cut_at hx
  have hy' : (tr.drop (i + 1))[0]? = some y := by rw [List.getElem?_drop, Nat.add_zero, hy]
  exact hafter.pre_zero hy'

/-- A run has a step at every time before one that it has. -/
theorem exists_at (hy : tr[j]? = some y) (hij : i ≤ j) : ∃ x, tr[i]? = some x := by
  obtain ⟨hlt, -⟩ := List.getElem?_eq_some_iff.mp hy
  exact ⟨tr[i], List.getElem?_eq_getElem (by omega)⟩

/-- An invariant holds before every step. -/
theorem invariant_at {I : σ → Prop} (h : Run R s tr t) (hx : tr[i]? = some x)
    (hstep : ∀ s e t, R s e t → I s → I t) (hs : I s) : I x.pre :=
  (h.invariant_mem hstep hs (List.mem_of_getElem? hx)).1

/-- **The invariant rule from one step to a later one**, for what survives the
steps between them. -/
theorem invariant_between {I : σ → Prop} (h : Run R s tr t) (hx : tr[i]? = some x)
    (hy : tr[j]? = some y) (hij : i < j) (hI : I x.post)
    (hstep : ∀ m z, i < m → m < j → tr[m]? = some z → R z.pre z.event z.post → I z.pre → I z.post) :
    I y.pre := by
  obtain ⟨d, rfl⟩ := Nat.exists_eq_add_of_lt hij
  induction d generalizing y with
  | zero =>
    rw [h.pre_succ hx hy]
    exact hI
  | succ d ih =>
    obtain ⟨z, hz⟩ := exists_at (i := i + d + 1) hy (by omega)
    have hpre : I z.pre :=
      ih hz (by omega) fun m z' him hmj => hstep m z' him (by omega)
    rw [h.pre_succ hz hy]
    exact hstep _ z (by omega) (by omega) hz (h.step_at hz) hpre

/-- **The since rule.** What holds before a step has held from the start on, or
became true in an earlier step and has held since. -/
theorem since {P : σ → Prop} (h : Run R s tr t) (hy : tr[j]? = some y) (hP : P y.pre) :
    (∀ m z, m ≤ j → tr[m]? = some z → P z.pre) ∨
      ∃ p x, p < j ∧ tr[p]? = some x ∧ ¬ P x.pre ∧ P x.post ∧
        ∀ m z, p < m → m ≤ j → tr[m]? = some z → P z.pre := by
  induction j generalizing y with
  | zero =>
    refine Or.inl fun m z hm hz => ?_
    obtain rfl : m = 0 := by omega
    rw [hy] at hz
    rwa [← Option.some.inj hz]
  | succ j ih =>
    obtain ⟨x, hx⟩ := exists_at (i := j) hy (by omega)
    have hlast : ∀ m z, m = j + 1 → tr[m]? = some z → P z.pre := by
      rintro m z rfl hz
      rw [hy] at hz
      rwa [← Option.some.inj hz]
    have hpost : P x.post := by rwa [← h.pre_succ hx hy]
    -- the last step either kept what held or began it
    by_cases hpre : P x.pre
    · rcases ih hx hpre with hall | ⟨p, x', hp, hx', hnot, hholds, hsince⟩
      · refine Or.inl fun m z hm hz => ?_
        rcases Nat.lt_or_ge j m with hlt | hle
        · exact hlast m z (by omega) hz
        · exact hall m z hle hz
      · refine Or.inr ⟨p, x', by omega, hx', hnot, hholds, fun m z hpm hm hz => ?_⟩
        rcases Nat.lt_or_ge j m with hlt | hle
        · exact hlast m z (by omega) hz
        · exact hsince m z hpm hle hz
    · exact Or.inr ⟨j, x, by omega, hx, hpre, hpost, fun m z hjm hm hz =>
        hlast m z (by omega) hz⟩

end Run

end Runs
