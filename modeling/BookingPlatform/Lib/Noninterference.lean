import BookingPlatform.Lib.Transaction

/-!
# Noninterference

A deterministic system runs a list of operations; some of them are an observer's
own.  The observer sees the results of its own operations and one view of the
state.  Unwinding reduces "the others do not matter" to conditions on one
operation: the observer's own respect the view, and the others leave it alone.

## Main definitions

* `Unwinding` — the conditions on one operation.
* `run`, `outputs` — a run of operations, and the observer's results.
* `gated` — a system behind a gate.
* `Relates` — two runs of one transaction end alike.

## Main results

* `Unwinding.noninterference` — runs that agree on the observer's operations
  agree on its results and on the final view.
* `Unwinding.gated` — a system behind a gate that admits its operations.
* `Relates.bind` — two runs of one transaction, step by step.
-/

/-! ### Two runs of one transaction -/

namespace Transaction

variable {σ ε α β : Type}

/-- Two runs of a transaction, from related states, end alike: both commit, with
one result and related states, or both fail, with one error. -/
def Relates (R : σ → σ → Prop) (x : Transaction σ ε α) (Q : α → σ → σ → Prop) : Prop :=
  ∀ s t, R s t →
    (∃ a s' t', x.run s = .ok (a, s') ∧ x.run t = .ok (a, t') ∧ Q a s' t') ∨
      ∃ e, x.run s = .error e ∧ x.run t = .error e

theorem Relates.bind {R : σ → σ → Prop} {x : Transaction σ ε α} {Q : α → σ → σ → Prop}
    {f : α → Transaction σ ε β} {P : β → σ → σ → Prop} (hx : Relates R x Q)
    (hf : ∀ a, Relates (Q a) (f a) P) : Relates R (x >>= f) P := by
  intro s t h
  rw [StateT.run_bind, StateT.run_bind]
  rcases hx s t h with ⟨a, s', t', hs, ht, hQ⟩ | ⟨e, hs, ht⟩
  · rw [hs, ht]
    exact hf a s' t' hQ
  · rw [hs, ht]
    exact Or.inr ⟨e, rfl, rfl⟩

theorem relates_pure {R : σ → σ → Prop} {a : α} {Q : α → σ → σ → Prop}
    (h : ∀ s t, R s t → Q a s t) : Relates (ε := ε) R (pure a) Q :=
  fun s t hR => Or.inl ⟨a, s, t, rfl, rfl, h s t hR⟩

/-- A computation that does not touch the state. -/
theorem relates_lift {R : σ → σ → Prop} (x : Except ε α) {Q : α → σ → σ → Prop}
    (h : ∀ a s t, x = .ok a → R s t → Q a s t) : Relates R (liftM x : Transaction σ ε α) Q := by
  intro s t hR
  cases x with
  | ok a => exact Or.inl ⟨a, s, t, rfl, rfl, h a s t rfl hR⟩
  | error e => exact Or.inr ⟨e, rfl, rfl⟩

/-- A check in front of a transaction, with one result in related states. -/
theorem Relates.check {R : σ → σ → Prop} {x : Transaction σ ε α} {Q : α → σ → σ → Prop}
    {check : σ → Except ε Unit} (hcheck : ∀ s t, R s t → check s = check t)
    (hx : Relates R x Q) :
    Relates R
      (do
        check (← get)
        x : Transaction σ ε α) Q := by
  intro s t h
  have hsame := hcheck s t h
  rw [StateT.run_bind, StateT.run_bind, StateT.run_get, StateT.run_get, pure_bind, pure_bind,
    StateT.run_bind, StateT.run_bind, ← hsame]
  cases check s with
  | ok u => exact hx s t h
  | error e => exact Or.inr ⟨e, rfl, rfl⟩

/-- A change of the state that cannot fail. -/
theorem relates_modify {R : σ → σ → Prop} {f : σ → σ} {Q : PUnit → σ → σ → Prop}
    (h : ∀ s t, R s t → Q ⟨⟩ (f s) (f t)) : Relates (ε := ε) R (modify f) Q :=
  fun s t hR => Or.inl ⟨⟨⟩, f s, f t, rfl, rfl, h s t hR⟩

end Transaction

/-- Sequences of computations that agree step by step agree. -/
theorem Except.bind_congr_of_ok {ε α β : Type} {x y : Except ε α} {f g : α → Except ε β}
    (h : x = y) (hf : ∀ a, x = .ok a → f a = g a) : x >>= f = y >>= g := by
  subst h
  cases x with
  | ok a => exact hf a rfl
  | error e => rfl

/-! ### Unwinding -/

namespace Noninterference

variable {σ Op Out : Type}

/-- The state after a list of operations. -/
def run (step : Op → σ → Out × σ) (ops : List Op) (s : σ) : σ :=
  ops.foldl (fun s op => (step op s).2) s

/-- The results of the observer's own operations. -/
def outputs (step : Op → σ → Out × σ) (mine : Op → Bool) : List Op → σ → List Out
  | [], _ => []
  | op :: ops, s =>
    if mine op then (step op s).1 :: outputs step mine ops (step op s).2
    else outputs step mine ops (step op s).2

/-- Every operation meets a condition on the state it runs in. -/
def AllOk (step : Op → σ → Out × σ) (ok : Op → σ → Prop) : List Op → σ → Prop
  | [], _ => True
  | op :: ops, s => ok op s ∧ AllOk step ok ops (step op s).2

/-- The conditions on one operation: it keeps the invariant, it leaves the view
alone unless it is the observer's, and the observer's see the view only. -/
structure Unwinding (step : Op → σ → Out × σ) (mine : Op → Bool) (ok : Op → σ → Prop)
    (I : σ → Prop) (E : σ → σ → Prop) : Prop where
  symm : ∀ s t, E s t → E t s
  trans : ∀ s t u, E s t → E t u → E s u
  keeps : ∀ op s, ok op s → I s → I (step op s).2
  others : ∀ op s, mine op = false → ok op s → I s → E s (step op s).2
  own : ∀ op s t, mine op = true → ok op s → ok op t → I s → I t → E s t →
    (step op s).1 = (step op t).1 ∧ E (step op s).2 (step op t).2

section

variable {step : Op → σ → Out × σ} {mine : Op → Bool} {ok : Op → σ → Prop} {I : σ → Prop}
  {E : σ → σ → Prop}

/-- Each operation of a list runs where its condition and the invariant hold. -/
theorem AllOk.reaches (hkeeps : ∀ op s, ok op s → I s → I (step op s).2) {pre post : List Op}
    {op : Op} {s : σ} (h : AllOk step ok (pre ++ op :: post) s) (hI : I s) :
    ok op (run step pre s) ∧ I (run step pre s) := by
  induction pre generalizing s with
  | nil => exact ⟨h.1, hI⟩
  | cons first pre ih => exact ih h.2 (hkeeps first s h.1 hI)

/-- Operations of others only. -/
theorem Unwinding.others_run (h : Unwinding step mine ok I E) {ops : List Op} {s t : σ}
    (hmine : ops.filter mine = []) (hok : AllOk step ok ops s) (hI : I s) (hE : E t s) :
    outputs step mine ops s = [] ∧ E t (run step ops s) := by
  induction ops generalizing s with
  | nil => exact ⟨rfl, hE⟩
  | cons op ops ih =>
    have hop : mine op = false := by
      by_contra hne
      rw [List.filter_cons_of_pos (by simpa using hne)] at hmine
      cases hmine
    rw [List.filter_cons_of_neg (by simp [hop])] at hmine
    obtain ⟨hout, hrun⟩ := ih hmine hok.2 (h.keeps op s hok.1 hI)
      (h.trans _ _ _ hE (h.others op s hop hok.1 hI))
    refine ⟨?_, hrun⟩
    rw [outputs, hop]
    exact hout

/-- **Noninterference.** Two runs from states with one view, of lists that agree on
the observer's own operations, give the observer the same results and end in
states with one view. -/
theorem Unwinding.noninterference (h : Unwinding step mine ok I E) {ops ops' : List Op} {s t : σ}
    (hops : ops.filter mine = ops'.filter mine) (hok : AllOk step ok ops s)
    (hok' : AllOk step ok ops' t) (hs : I s) (ht : I t) (hE : E s t) :
    outputs step mine ops s = outputs step mine ops' t ∧ E (run step ops s) (run step ops' t) := by
  induction ops generalizing ops' s t with
  | nil =>
    obtain ⟨hout, hrun⟩ := h.others_run hops.symm hok' ht hE
    exact ⟨hout.symm, hrun⟩
  | cons op ops ih =>
    cases hop : mine op with
    | false =>
      -- an operation of another: the first run moves on alone
      rw [List.filter_cons_of_neg (by simp [hop])] at hops
      have hE' := h.trans _ _ _ (h.symm _ _ (h.others op s hop hok.1 hs)) hE
      obtain ⟨hout, hrun⟩ := ih hops hok.2 hok' (h.keeps op s hok.1 hs) ht hE'
      refine ⟨?_, hrun⟩
      rw [outputs, hop]
      exact hout
    | true =>
      rw [List.filter_cons_of_pos hop] at hops
      -- the second run moves on to the same operation
      induction ops' generalizing t with
      | nil => cases hops
      | cons op' ops' ih' =>
        cases hop' : mine op' with
        | false =>
          rw [List.filter_cons_of_neg (by simp [hop'])] at hops
          have hE' := h.trans _ _ _ hE (h.others op' t hop' hok'.1 ht)
          obtain ⟨hout, hrun⟩ := ih' hops hok'.2 (h.keeps op' t hok'.1 ht) hE'
          refine ⟨?_, hrun⟩
          rw [hout]
          exact (if_neg (by simp [hop'])).symm
        | true =>
          rw [List.filter_cons_of_pos hop', List.cons.injEq] at hops
          obtain ⟨rfl, hops⟩ := hops
          obtain ⟨hresult, hafter⟩ := h.own op s t hop hok.1 hok'.1 hs ht hE
          obtain ⟨hout, hrun⟩ := ih hops hok.2 hok'.2 (h.keeps op s hok.1 hs)
            (h.keeps op t hok'.1 ht) hafter
          refine ⟨?_, hrun⟩
          rw [outputs, outputs, hop, if_pos rfl, if_pos rfl, hresult, hout]

/-! ### Behind a gate -/

/-- A system whose operations are admitted first: the gate turns an operation into
one of the system behind it, or refuses it and leaves the state alone. -/
def gated {Op' Out' Err : Type} (gate : Op' → σ → Except Err Op) (refuse : Op' → Err → Out')
    (reply : Op' → Out → Out') (step : Op → σ → Out × σ) (op : Op') (s : σ) : Out' × σ :=
  match gate op s with
  | .error e => (refuse op e, s)
  | .ok inner => (reply op (step inner s).1, (step inner s).2)

/-- **A gate that admits the observer's operations by its view only**, and the others
as operations of others, keeps the others out of its sight. -/
theorem Unwinding.gated {Op' Out' Err : Type} (h : Unwinding step mine ok I E)
    (hrefl : ∀ s, E s s) {gate : Op' → σ → Except Err Op} {refuse : Op' → Err → Out'}
    {reply : Op' → Out → Out'} {mine' : Op' → Bool} {ok' : Op' → σ → Prop}
    (hadmits : ∀ op s inner, ok' op s → I s → gate op s = .ok inner →
      ok inner s ∧ mine inner = mine' op)
    (hview : ∀ op s t, mine' op = true → ok' op s → ok' op t → I s → I t → E s t →
      gate op s = gate op t) :
    Unwinding (gated gate refuse reply step) mine' ok' I E where
  symm := h.symm
  trans := h.trans
  keeps op s hok hs := by
    unfold Noninterference.gated
    cases hgate : gate op s with
    | error e => exact hs
    | ok inner => exact h.keeps inner s (hadmits op s inner hok hs hgate).1 hs
  others op s hop hok hs := by
    unfold Noninterference.gated
    cases hgate : gate op s with
    | error e => exact hrefl s
    | ok inner =>
      obtain ⟨hinner, hmine⟩ := hadmits op s inner hok hs hgate
      exact h.others inner s (hmine.trans hop) hinner hs
  own op s t hop hok hok' hs ht hE := by
    have hsame := hview op s t hop hok hok' hs ht hE
    unfold Noninterference.gated
    cases hgate : gate op s with
    | error e =>
      rw [← hsame, hgate]
      exact ⟨rfl, hE⟩
    | ok inner =>
      have hgate' : gate op t = .ok inner := by rw [← hsame, hgate]
      rw [hgate']
      obtain ⟨hinner, hmine⟩ := hadmits op s inner hok hs hgate
      obtain ⟨hresult, hafter⟩ := h.own inner s t (hmine.trans hop) hinner
        (hadmits op t inner hok' ht hgate').1 hs ht hE
      exact ⟨congrArg (reply op) hresult, hafter⟩

end

end Noninterference
