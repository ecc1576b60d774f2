import BookingPlatform.Lib.Table

/-!
# Transactions

A transaction reads and writes a state and either commits with a result or
fails with an error; a failed transaction has no state to commit, so its caller
keeps the one it had.  The lemmas run a transaction symbolically: each says what
it means for one step of it to commit.

## Main definitions

* `Transaction` — a computation on a state that commits or fails.
* `Transaction.after` — the state it leaves.
* `Table.updateWhere` — a guarded update of one row.
-/

/-- An all-or-nothing computation on a state. -/
abbrev Transaction (σ ε α : Type) := StateT σ (Except ε) α

namespace Except

variable {ε α β : Type}

theorem bind_eq_ok {x : Except ε α} {f : α → Except ε β} {b : β} :
    (x >>= f) = .ok b ↔ ∃ a, x = .ok a ∧ f a = .ok b := by
  cases x with
  | error e => simp [bind, Except.bind]
  | ok a => simp [bind, Except.bind]

theorem pure_eq_ok {a b : α} : (pure a : Except ε α) = .ok b ↔ a = b := by
  simp [pure, Except.pure]

theorem map_eq_ok {f : α → β} {x : Except ε α} {b : β} :
    f <$> x = .ok b ↔ ∃ a, x = .ok a ∧ f a = b := by
  cases x <;> simp [Functor.map, Except.map]

/-- A mapped computation succeeds when each of its steps does. -/
theorem mapM_eq_ok {f : α → Except ε β} {l : List α} {l' : List β} :
    l.mapM f = .ok l' ↔ List.Forall₂ (fun a b => f a = .ok b) l l' := by
  induction l generalizing l' with
  | nil =>
    rw [List.mapM_nil, pure_eq_ok, List.forall₂_nil_left_iff]
    exact eq_comm
  | cons a l ih =>
    simp only [List.mapM_cons, bind_eq_ok, pure_eq_ok, ih, List.forall₂_cons_left_iff]
    constructor
    · rintro ⟨b, hb, bs, hbs, heq⟩
      exact ⟨b, bs, hb, hbs, heq.symm⟩
    · rintro ⟨b, bs, hb, hbs, heq⟩
      exact ⟨b, hb, bs, hbs, heq.symm⟩

theorem exists_mapM_eq_ok {f : α → Except ε β} {l : List α} (h : ∀ a ∈ l, ∃ b, f a = .ok b) :
    ∃ l', l.mapM f = .ok l' := by
  simp only [mapM_eq_ok]
  induction l with
  | nil => exact ⟨[], .nil⟩
  | cons a l ih =>
    obtain ⟨b, hb⟩ := h a List.mem_cons_self
    obtain ⟨l', hl'⟩ := ih fun x hx => h x (List.mem_cons_of_mem a hx)
    exact ⟨b :: l', .cons hb hl'⟩

/-- Computations that agree on the members of a list map it alike. -/
theorem mapM_congr {f g : α → Except ε β} {l : List α} (h : ∀ a ∈ l, f a = g a) :
    l.mapM f = l.mapM g := by
  induction l with
  | nil => rfl
  | cons a l ih =>
    rw [List.mapM_cons, List.mapM_cons, h a List.mem_cons_self,
      ih fun x hx => h x (List.mem_cons_of_mem a hx)]

theorem throw_ne_ok {e : ε} {a : α} : (throw e : Except ε α) ≠ .ok a := by
  simp [throw, throwThe, MonadExceptOf.throw]

end Except

namespace Transaction

variable {σ ε α β : Type} {s s' : σ}

theorem bind_ok {x : Transaction σ ε α} {f : α → Transaction σ ε β} {r : β × σ} :
    (x >>= f).run s = .ok r ↔ ∃ a t, x.run s = .ok (a, t) ∧ (f a).run t = .ok r := by
  rw [StateT.run_bind, Except.bind_eq_ok]
  exact ⟨fun ⟨p, h⟩ => ⟨p.1, p.2, h⟩, fun ⟨a, t, h⟩ => ⟨(a, t), h⟩⟩

theorem pure_ok {a b : α} : (pure a : Transaction σ ε α).run s = .ok (b, s') ↔ a = b ∧ s = s' := by
  rw [StateT.run_pure, Except.pure_eq_ok, Prod.mk.injEq]

theorem throw_ok {e : ε} {r : α × σ} : (throw e : Transaction σ ε α).run s = .ok r ↔ False := by
  simp [throw, throwThe, MonadExceptOf.throw, StateT.run, StateT.lift, bind, Except.bind]

theorem get_ok {t : σ} : (get : Transaction σ ε σ).run s = .ok (t, s') ↔ s = t ∧ s = s' := by
  rw [StateT.run_get, Except.pure_eq_ok, Prod.mk.injEq]

theorem set_ok {t : σ} {u : PUnit} :
    (set t : Transaction σ ε PUnit).run s = .ok (u, s') ↔ t = s' := by
  rw [StateT.run_set, Except.pure_eq_ok, Prod.mk.injEq]
  simp

theorem modify_ok {f : σ → σ} {u : PUnit} :
    (modify f : Transaction σ ε PUnit).run s = .ok (u, s') ↔ f s = s' := by
  rw [StateT.run_modify, Except.pure_eq_ok, Prod.mk.injEq]
  simp

theorem lift_ok {x : Except ε α} {a : α} :
    (liftM x : Transaction σ ε α).run s = .ok (a, s') ↔ x = .ok a ∧ s = s' := by
  cases x <;> simp [liftM, monadLift, MonadLift.monadLift, StateT.run, StateT.lift, bind,
    Except.bind, pure, Except.pure]

/-- A check of the state in front of a transaction. -/
theorem check_ok {check : σ → Except ε Unit} {x : Transaction σ ε α} {r : α × σ} :
    (do
      check (← get)
      x : Transaction σ ε α).run s = .ok r ↔ check s = .ok () ∧ x.run s = .ok r := by
  simp only [bind_ok, get_ok, lift_ok]
  constructor
  · rintro ⟨_, _, ⟨rfl, rfl⟩, u, _, ⟨hcheck, rfl⟩, hx⟩
    exact ⟨hcheck, hx⟩
  · rintro ⟨hcheck, hx⟩
    exact ⟨_, _, ⟨rfl, rfl⟩, (), _, ⟨hcheck, rfl⟩, hx⟩

/-- A write that is only made in some states, and fails in the others. -/
theorem setIf_ok {p : σ → Prop} [DecidablePred p] {write : (s : σ) → p s → σ} {a b : α} {e : ε} :
    (do
      let s ← get
      if h : p s then do
        set (write s h)
        return a
      else throw e : Transaction σ ε α).run s = .ok (b, s') ↔
      ∃ h : p s, b = a ∧ s' = write s h := by
  simp only [bind_ok, get_ok]
  constructor
  · rintro ⟨_, _, ⟨rfl, rfl⟩, hrest⟩
    by_cases h : p s
    · rw [dif_pos h] at hrest
      simp only [bind_ok, set_ok, pure_ok] at hrest
      obtain ⟨-, -, rfl, rfl, rfl⟩ := hrest
      exact ⟨h, rfl, rfl⟩
    · rw [dif_neg h] at hrest
      exact (throw_ok.mp hrest).elim
  · rintro ⟨h, rfl, rfl⟩
    refine ⟨_, _, ⟨rfl, rfl⟩, ?_⟩
    rw [dif_pos h]
    exact bind_ok.mpr ⟨(), _, set_ok.mpr rfl, pure_ok.mpr ⟨rfl, rfl⟩⟩

/-- The state a transaction leaves: its own when it commits, the old one when it
fails. -/
def after (x : Transaction σ ε α) (s : σ) : σ :=
  match x.run s with
  | .ok (_, s') => s'
  | .error _ => s

theorem run_eq_after {x : Transaction σ ε α} {a : α} (h : (x.run s).map Prod.fst = .ok a) :
    x.run s = .ok (a, x.after s) := by
  unfold after
  cases hrun : x.run s with
  | ok p => rw [hrun] at h; exact congrArg _ (Prod.ext (Except.ok.inj h) rfl)
  | error e => rw [hrun] at h; cases h

theorem run_eq_error {x : Transaction σ ε α} {e : ε} (h : (x.run s).map Prod.fst = .error e) :
    x.run s = .error e := by
  cases hrun : x.run s with
  | ok p => rw [hrun] at h; cases h
  | error e' => rw [hrun] at h; exact congrArg _ (Except.error.inj h)

end Transaction

namespace Table

variable {ρ κ ε : Type} [Keyed ρ κ] [DecidableEq κ]

/-- `UPDATE … SET … WHERE …` whose condition pins the primary key: at most one
row matches.  The result is the number of rows updated and the table. -/
def updateWhere (t : Table ρ) (p : ρ → Bool) (f : ρ → Except ε ρ) : Except ε (ℕ × Table ρ) :=
  match t.findFirst p with
  | none => .ok (0, t)
  | some r => (f r).map fun r' => (1, t.put r')

theorem updateWhere_eq_ok {t t' : Table ρ} {p : ρ → Bool} {f : ρ → Except ε ρ} {n : ℕ} :
    t.updateWhere p f = .ok (n, t') ↔
      (t.findFirst p = none ∧ n = 0 ∧ t' = t) ∨
      ∃ r r', t.findFirst p = some r ∧ f r = .ok r' ∧ n = 1 ∧ t' = t.put r' := by
  unfold updateWhere
  cases t.findFirst p with
  | none => simp [eq_comm]
  | some r =>
    cases hf : f r with
    | error e => simp [Except.map, hf]
    | ok r' => simp [Except.map, hf, eq_comm]

/-- An update whose table is written back to the state it comes from. -/
theorem updateWhere_write_ok {σ : Type} (write : Table ρ → σ) {t : Table ρ} {p : ρ → Bool}
    {f : ρ → Except ε ρ} {s s' : σ} (hself : write t = s) {n : ℕ} :
    (t.updateWhere p f >>= fun q => pure (q.1, write q.2)) = .ok (n, s') ↔
      (t.findFirst p = none ∧ n = 0 ∧ s' = s) ∨
      ∃ r r', t.findFirst p = some r ∧ f r = .ok r' ∧ n = 1 ∧ s' = write (t.put r') := by
  rw [Except.bind_eq_ok]
  constructor
  · rintro ⟨⟨m, t'⟩, hup, hpure⟩
    obtain ⟨rfl, rfl⟩ := Prod.mk.inj (Except.pure_eq_ok.mp hpure)
    rcases updateWhere_eq_ok.mp hup with ⟨hf, rfl, rfl⟩ | ⟨r, r', hf, hr, rfl, rfl⟩
    · exact Or.inl ⟨hf, rfl, hself⟩
    · exact Or.inr ⟨r, r', hf, hr, rfl, rfl⟩
  · rintro (⟨hf, rfl, rfl⟩ | ⟨r, r', hf, hr, rfl, rfl⟩)
    · exact ⟨_, updateWhere_eq_ok.mpr (Or.inl ⟨hf, rfl, rfl⟩), congrArg _ (by rw [hself])⟩
    · exact ⟨_, updateWhere_eq_ok.mpr (Or.inr ⟨r, r', hf, hr, rfl, rfl⟩), rfl⟩

end Table
