import Mathlib.Data.List.Sort
import Mathlib.Tactic

/-!
# Queues whose failing items are tried again

A worker polls a queue.  At each poll it takes the first `k` of the items that
wait, earliest deadline first and ties in any order, and tries them one after
the other.  An item that succeeds changes the state and leaves the queue; one
that fails stays and is tried again.  Failures are permanent: what fails once
would fail after anything else succeeded.  So `k` failing items in front of the
queue are taken at every poll, and what stands behind them never is.

## Main definitions

* `pass`, `failures`, `successes` — one pass over the items.
* `Poll`, `Polls` — one poll, and several.
* `TurnComes` — fewer than `k` fail in front of an item, and it does not fail.

## Main results

* `Progress.poll` — after some polls, the items tried so far were tried in the
  order of their deadlines, as if in one pass.
* `served_iff` — after as many polls as there are items, an item is served
  whatever the ties exactly when, in every pass over the items in the order of
  their deadlines, fewer than `k` fail before it and it does not fail itself.
-/

namespace RetryQueue

variable {ι σ : Type*} (attempt : ι → σ → Option σ)

/-- What trying an item does to the state. -/
def step (s : σ) (a : ι) : σ := (attempt a s).getD s

/-- The state after a pass over some items. -/
def pass (l : List ι) (s : σ) : σ := l.foldl (step attempt) s

/-- The items that fail in a pass. -/
def failures : List ι → σ → List ι
  | [], _ => []
  | a :: l, s =>
    if (attempt a s).isNone then a :: failures l (step attempt s a)
    else failures l (step attempt s a)

/-- The items that succeed in a pass. -/
def successes : List ι → σ → List ι
  | [], _ => []
  | a :: l, s =>
    if (attempt a s).isNone then successes l (step attempt s a)
    else a :: successes l (step attempt s a)

/-- What fails goes on failing, whatever else succeeds. -/
def Permanent : Prop :=
  ∀ a b s s', attempt a s = none → attempt b s = some s' → attempt a s' = none

variable {attempt} {l l₁ l₂ : List ι} {s : σ} {a : ι}

/-! ### One pass -/

@[simp] theorem pass_nil (s : σ) : pass attempt [] s = s := rfl

@[simp] theorem pass_cons (a : ι) (l : List ι) (s : σ) :
    pass attempt (a :: l) s = pass attempt l (step attempt s a) := rfl

theorem pass_append (l₁ l₂ : List ι) (s : σ) :
    pass attempt (l₁ ++ l₂) s = pass attempt l₂ (pass attempt l₁ s) := List.foldl_append

@[simp] theorem failures_nil (s : σ) : failures attempt [] s = [] := rfl

theorem failures_append (l₁ l₂ : List ι) (s : σ) :
    failures attempt (l₁ ++ l₂) s =
      failures attempt l₁ s ++ failures attempt l₂ (pass attempt l₁ s) := by
  induction l₁ generalizing s with
  | nil => rfl
  | cons a l₁ ih =>
    simp only [List.cons_append, failures, pass_cons, ih]
    split <;> rfl

variable (attempt) in
theorem failures_sublist (l : List ι) (s : σ) : (failures attempt l s).Sublist l := by
  induction l generalizing s with
  | nil => exact List.Sublist.refl []
  | cons a l ih =>
    rw [failures]
    split
    · exact (ih _).cons_cons a
    · exact (ih _).cons a

variable (attempt) in
theorem failures_append_successes (l : List ι) (s : σ) :
    (failures attempt l s ++ successes attempt l s).Perm l := by
  induction l generalizing s with
  | nil => exact List.Perm.refl []
  | cons a l ih =>
    rw [failures, successes]
    split
    · exact (ih _).cons a
    · exact List.perm_middle.trans ((ih _).cons a)

/-- A pass in which every turn succeeds. -/
theorem successes_eq_self
    (h : ∀ l₁ a l₂, l = l₁ ++ a :: l₂ → (attempt a (pass attempt l₁ s)).isSome) :
    successes attempt l s = l := by
  induction l generalizing s with
  | nil => rfl
  | cons a l ih =>
    have hfirst : (attempt a s).isSome := h [] a l rfl
    rw [successes, if_neg (by simpa using Option.isSome_iff_ne_none.mp hfirst), ih]
    rintro l₁ b l₂ rfl
    exact h (a :: l₁) b l₂ rfl

theorem step_of_fails (h : attempt a s = none) : step attempt s a = s := by
  rw [step, h, Option.getD_none]

theorem Permanent.step (hperm : Permanent attempt) (h : attempt a s = none) (b : ι) :
    attempt a (step attempt s b) = none := by
  cases hb : attempt b s with
  | none => rwa [step_of_fails hb]
  | some s' => simpa [RetryQueue.step, hb] using hperm a b s s' h hb

theorem Permanent.pass (hperm : Permanent attempt) (h : attempt a s = none) (l : List ι) :
    attempt a (pass attempt l s) = none := by
  induction l generalizing s with
  | nil => exact h
  | cons b l ih => exact ih (hperm.step h b)

/-- What fails in a pass fails after it. -/
theorem Permanent.fails_of_mem (hperm : Permanent attempt) (h : a ∈ failures attempt l s) :
    attempt a (RetryQueue.pass attempt l s) = none := by
  induction l generalizing s with
  | nil => simp at h
  | cons b l ih =>
    rw [failures] at h
    split at h
    · next hb =>
      rcases List.mem_cons.mp h with rfl | h
      · exact hperm.pass (hperm.step (Option.isNone_iff_eq_none.mp hb) a) l
      · exact ih h
    · exact ih h

/-- An item fails in a pass when its own turn fails. -/
theorem mem_failures_iff (ha : a ∉ l₁) (ha' : a ∉ l₂) :
    a ∈ failures attempt (l₁ ++ a :: l₂) s ↔ attempt a (pass attempt l₁ s) = none := by
  have h₁ : a ∉ failures attempt l₁ s := fun h => ha ((failures_sublist _ l₁ s).subset h)
  have h₂ : ∀ s', a ∉ failures attempt l₂ s' :=
    fun s' h => ha' ((failures_sublist _ l₂ s').subset h)
  rw [failures_append, failures]
  split
  · next hnone => simp [h₁, Option.isNone_iff_eq_none.mp hnone]
  · next hsome => simp [h₁, h₂, ← Option.isNone_iff_eq_none, hsome]

/-- Items that fail at the start of a pass. -/
theorem failures_of_fails (h : ∀ a ∈ l, attempt a s = none) :
    failures attempt l s = l ∧ pass attempt l s = s := by
  induction l with
  | nil => exact ⟨rfl, rfl⟩
  | cons a l ih =>
    obtain ⟨hfail, hrest⟩ := List.forall_mem_cons.mp h
    obtain ⟨hl, hs⟩ := ih hrest
    rw [failures, pass_cons, step_of_fails hfail, hfail, hl, hs]
    exact ⟨rfl, rfl⟩

/-- **Items that fail anyway do not matter to a pass**: they fail in it, and the
others do what they would have done without them. -/
theorem pass_filter (hperm : Permanent attempt) {stuck : ι → Bool}
    (h : ∀ a ∈ l, stuck a = true → attempt a s = none) :
    pass attempt l s = pass attempt (l.filter fun a => !stuck a) s ∧
      (failures attempt l s).Perm
        (l.filter stuck ++ failures attempt (l.filter fun a => !stuck a) s) := by
  induction l generalizing s with
  | nil => exact ⟨rfl, List.Perm.refl _⟩
  | cons a l ih =>
    obtain ⟨ha, hrest⟩ := List.forall_mem_cons.mp h
    cases hstuck : stuck a with
    | true =>
      have hfail := ha hstuck
      obtain ⟨hpass, hfailures⟩ := ih hrest
      rw [failures, pass_cons, step_of_fails hfail, hfail]
      simp only [hstuck, Bool.not_true, Bool.false_eq_true, not_false_eq_true,
        List.filter_cons_of_neg, List.filter_cons_of_pos, Option.isNone_none, if_true]
      exact ⟨hpass, hfailures.cons a⟩
    | false =>
      obtain ⟨hpass, hfailures⟩ := ih (s := step attempt s a)
        fun b hb hsb => hperm.step (hrest b hb hsb) a
      simp only [hstuck, Bool.not_false, Bool.false_eq_true, not_false_eq_true,
        List.filter_cons_of_neg, List.filter_cons_of_pos, failures, pass_cons]
      refine ⟨hpass, ?_⟩
      split
      · exact (hfailures.cons a).trans List.perm_middle.symm
      · exact hfailures

/-! ### Polls -/

variable (attempt) (key : ι → ℤ) (k : ℕ)

/-- One poll of a queue: the items that wait, and the state. -/
def Poll (q q' : List ι × σ) : Prop :=
  ∃ l : List ι, l.Perm q.1 ∧ l.Pairwise (fun a b => key a ≤ key b) ∧
    q'.1.Perm (failures attempt (l.take k) q.2 ++ l.drop k) ∧ q'.2 = pass attempt (l.take k) q.2

/-- Some polls, one after the other. -/
inductive Polls (q₀ : List ι × σ) : ℕ → List ι × σ → Prop
  | zero : Polls q₀ 0 q₀
  | succ {n : ℕ} {q q' : List ι × σ} :
      Polls q₀ n q → Poll attempt key k q q' → Polls q₀ (n + 1) q'

/-- In every pass over the items in the order of their deadlines, fewer than `k`
fail before an item's turn, and its own turn succeeds. -/
def TurnComes (items : List ι) (s : σ) (a : ι) : Prop :=
  ∀ l l₁ l₂ : List ι, l.Perm items → l.Pairwise (fun a b => key a ≤ key b) → l = l₁ ++ a :: l₂ →
    (failures attempt l₁ s).length < k ∧ (attempt a (pass attempt l₁ s)).isSome

/-- Where a queue stands after some polls: the items tried so far, in the order
they were first tried, and the others. -/
structure Progress (q₀ q : List ι × σ) (tried rest : List ι) : Prop where
  perm : (tried ++ rest).Perm q₀.1
  sorted : tried.Pairwise fun a b => key a ≤ key b
  before : ∀ a ∈ tried, ∀ b ∈ rest, key a ≤ key b
  state : q.2 = pass attempt tried q₀.2
  pending : q.1.Perm (failures attempt tried q₀.2 ++ rest)

variable {attempt key k} {q₀ q q' : List ι × σ} {tried rest : List ι}

theorem Progress.start (items : List ι) (s : σ) :
    Progress attempt key (items, s) (items, s) [] items :=
  ⟨List.Perm.refl _, List.Pairwise.nil, fun _ h => absurd h List.not_mem_nil, rfl,
    List.Perm.refl _⟩

/-- A queue splits into what has failed and what is untried. -/
theorem perm_of_waits [DecidableEq ι] {failed : List ι} (hwaits : l.Perm (failed ++ rest))
    (hdisjoint : ∀ a ∈ rest, a ∉ failed) :
    (l.filter fun a => a ∈ failed).Perm failed ∧
      (l.filter fun a => !decide (a ∈ failed)).Perm rest := by
  constructor
  · refine (hwaits.filter _).trans ?_
    rw [List.filter_append, List.filter_eq_self.mpr (fun a ha => decide_eq_true ha),
      List.filter_eq_nil_iff.mpr (fun a ha => by simpa using hdisjoint a ha), List.append_nil]
  · refine (hwaits.filter _).trans ?_
    rw [List.filter_append, List.filter_eq_nil_iff.mpr (fun a ha => by simpa using ha),
      List.filter_eq_self.mpr (fun a ha => by simpa using hdisjoint a ha), List.nil_append]

/-- A batch that is cut off at `k` holds that many items, stuck or new. -/
theorem le_batch {stuck : ι → Bool} (hlong : k < l.length) :
    k ≤ (l.filter stuck).length + ((l.take k).filter fun a => !stuck a).length := by
  have hcount : ((l.take k).filter stuck).length ≤ (l.filter stuck).length :=
    ((List.take_sublist k l).filter stuck).length_le
  have htotal := (List.filter_append_perm stuck (l.take k)).length_eq
  rw [List.length_append, List.length_take] at htotal
  omega

/-- What waits after a batch: what had failed, the new failures, and the items left
untried. -/
theorem perm_after_batch {stuck : ι → Bool} {failed new' : List ι}
    (hfailed : (l.filter stuck).Perm failed) :
    ((l.take k).filter stuck ++ new' ++ l.drop k).Perm
      (failed ++ new' ++ (l.drop k).filter fun a => !stuck a) := by
  have hdrop := (List.filter_append_perm stuck (l.drop k)).symm
  have hsplit : ((l.take k).filter stuck ++ (l.drop k).filter stuck).Perm failed := by
    rw [← List.filter_append, List.take_append_drop]
    exact hfailed
  refine (hdrop.append_left _).trans ?_
  -- the failures of the batch move behind all that had failed
  have hmove : ((l.take k).filter stuck ++ new' ++ ((l.drop k).filter stuck ++
      (l.drop k).filter fun a => !stuck a)).Perm
      ((l.take k).filter stuck ++ (l.drop k).filter stuck ++
        (new' ++ (l.drop k).filter fun a => !stuck a)) := by
    simp only [List.append_assoc]
    exact (List.perm_append_comm_assoc _ _ _).append_left _
  rw [List.append_assoc failed]
  exact hmove.trans (hsplit.append_right _)

/-- **The step of a poll.** It tries new items, in the order of their deadlines,
and fails again the ones that had failed; if an item is left untried, the batch
was full. -/
theorem Progress.poll [DecidableEq ι] (hperm : Permanent attempt) (hnodup : q₀.1.Nodup)
    (h : Progress attempt key q₀ q tried rest) (hpoll : Poll attempt key k q q') :
    ∃ new rest', rest.Perm (new ++ rest') ∧ Progress attempt key q₀ q' (tried ++ new) rest' ∧
      (rest' ≠ [] → k ≤ (failures attempt tried q₀.2).length + new.length) := by
  obtain ⟨l, hl, hsorted, hpending, hstate⟩ := hpoll
  set failed := failures attempt tried q₀.2 with hfailed
  let stuck : ι → Bool := fun a => a ∈ failed
  have hdisjoint : ∀ a ∈ rest, a ∉ failed := by
    intro a ha hmem
    have hnd : (tried ++ rest).Nodup := h.perm.nodup_iff.mpr hnodup
    exact (List.disjoint_of_nodup_append hnd) ((failures_sublist _ tried _).subset hmem) ha
  -- what waits is what failed and what is untried
  obtain ⟨hstuck, huntried⟩ := perm_of_waits (hl.trans h.pending) hdisjoint
  let new := (l.take k).filter fun a => !stuck a
  let rest' := (l.drop k).filter fun a => !stuck a
  have hsplit : rest.Perm (new ++ rest') := by
    rw [← List.filter_append, List.take_append_drop]
    exact huntried.symm
  have hnew : ∀ a ∈ new, a ∈ rest ∧ a ∈ l.take k := fun a ha =>
    ⟨hsplit.mem_iff.mpr (List.mem_append_left _ ha), (List.mem_filter.mp ha).1⟩
  have hrest' : ∀ a ∈ rest', a ∈ rest ∧ a ∈ l.drop k := fun a ha =>
    ⟨hsplit.mem_iff.mpr (List.mem_append_right _ ha), (List.mem_filter.mp ha).1⟩
  -- the batch does what its new items do
  have hbatch : ∀ a ∈ l.take k, stuck a = true → attempt a q.2 = none := by
    intro a _ ha
    rw [h.state]
    exact hperm.fails_of_mem (of_decide_eq_true ha)
  obtain ⟨hpass, hfailures⟩ := pass_filter hperm hbatch
  -- the batch is in front of what is left
  have hcross : ∀ a ∈ l.take k, ∀ b ∈ l.drop k, key a ≤ key b := by
    rw [← List.take_append_drop k l] at hsorted
    exact (List.pairwise_append.mp hsorted).2.2
  refine ⟨new, rest', hsplit, ⟨?_, ?_, ?_, ?_, ?_⟩, ?_⟩
  · rw [List.append_assoc]
    exact (hsplit.symm.append_left tried).trans h.perm
  · refine List.pairwise_append.mpr ⟨h.sorted, ?_, ?_⟩
    · exact (hsorted.sublist (List.take_sublist k l)).filter _
    · exact fun a ha b hb => h.before a ha b (hnew b hb).1
  · intro a ha b hb
    rcases List.mem_append.mp ha with ha | ha
    · exact h.before a ha b (hrest' b hb).1
    · exact hcross a (hnew a ha).2 b (hrest' b hb).2
  · rw [hstate, hpass, h.state, pass_append]
  · rw [failures_append, ← h.state, ← hfailed]
    exact hpending.trans ((hfailures.append_right _).trans (perm_after_batch hstuck))
  · -- an item is left untried, so the batch was cut off at `k`
    intro hne
    have hlong : k < l.length := by
      by_contra hshort
      refine hne ?_
      have hnil : l.drop k = [] := List.drop_eq_nil_of_le (by omega)
      simp [rest', hnil]
    rw [← hstuck.length_eq]
    exact le_batch hlong

/-! ### Who is served -/

/-- A pass over all items that goes on from where the polls stand. -/
theorem Progress.exists_pass (h : Progress attempt key q₀ q tried rest) :
    ∃ l, (tried ++ l).Perm q₀.1 ∧ (tried ++ l).Pairwise (fun a b => key a ≤ key b) ∧
      l.Perm rest := by
  let le : ι → ι → Prop := fun a b => key a ≤ key b
  have : DecidableRel le := fun a b => inferInstanceAs (Decidable (key a ≤ key b))
  have : Std.Total le := ⟨fun a b => le_total (key a) (key b)⟩
  have : IsTrans ι le := ⟨fun _ _ _ => le_trans⟩
  have hl : (rest.insertionSort le).Perm rest := List.perm_insertionSort le rest
  refine ⟨_, (hl.append_left tried).trans h.perm, ?_, hl⟩
  refine List.pairwise_append.mpr ⟨h.sorted, List.pairwise_insertionSort le rest, ?_⟩
  exact fun a ha b hb => h.before a ha b (hl.mem_iff.mp hb)

/-- While an item whose turn comes waits untried, every poll tries a new one. -/
theorem tried_of_polls [DecidableEq ι] (hperm : Permanent attempt) {items : List ι}
    (hnodup : items.Nodup) {n : ℕ} (hpolls : Polls attempt key k (items, s) n q)
    (hturn : TurnComes attempt key k items s a) :
    ∃ tried rest, Progress attempt key (items, s) q tried rest ∧ (a ∈ rest → n ≤ tried.length) := by
  induction hpolls with
  | zero => exact ⟨[], items, Progress.start items s, fun _ => Nat.zero_le _⟩
  | @succ n q q' hpolls hpoll ih =>
    obtain ⟨tried, rest, hprogress, hcount⟩ := ih
    obtain ⟨new, rest', hsplit, hprogress', hfull⟩ := hprogress.poll hperm hnodup hpoll
    refine ⟨tried ++ new, rest', hprogress', fun ha => ?_⟩
    have ha' : a ∈ rest := hsplit.mem_iff.mpr (List.mem_append_right _ ha)
    have hn := hcount ha'
    -- what has failed so far fails before `a` in some pass
    obtain ⟨l, hl, hsorted, hlrest⟩ := hprogress.exists_pass
    obtain ⟨l₁, l₂, rfl⟩ := List.append_of_mem (hlrest.mem_iff.mpr ha')
    have hfew := (hturn _ (tried ++ l₁) l₂ hl hsorted (List.append_assoc _ _ _).symm).1
    rw [failures_append, List.length_append] at hfew
    have hbatch : k ≤ (failures attempt tried s).length + new.length :=
      hfull (List.ne_nil_of_mem ha)
    rw [List.length_append]
    omega

theorem served_of_turnComes [DecidableEq ι] (hperm : Permanent attempt) {items : List ι}
    (hnodup : items.Nodup) {n : ℕ} (hn : items.length ≤ n)
    (hpolls : Polls attempt key k (items, s) n q) (hturn : TurnComes attempt key k items s a) :
    a ∉ q.1 := by
  obtain ⟨tried, rest, hprogress, hcount⟩ := tried_of_polls hperm hnodup hpolls hturn
  have hlength := hprogress.perm.length_eq
  rw [List.length_append] at hlength
  intro ha
  rcases List.mem_append.mp (hprogress.pending.mem_iff.mp ha) with hfailed | hrest
  · -- its own turn would have failed
    obtain ⟨l, hl, hsorted, -⟩ := hprogress.exists_pass
    obtain ⟨t₁, t₂, rfl⟩ := List.append_of_mem ((failures_sublist _ tried s).subset hfailed)
    have hnd : (t₁ ++ a :: t₂).Nodup := (List.nodup_append.mp
      (hprogress.perm.nodup_iff.mpr hnodup)).1
    rw [List.nodup_middle, List.nodup_cons, List.mem_append, not_or] at hnd
    have hfails := (mem_failures_iff hnd.1.1 hnd.1.2).mp hfailed
    have hsome := (hturn _ t₁ (t₂ ++ l) hl hsorted (by simp)).2
    rw [hfails] at hsome
    cases hsome
  · have := List.length_pos_of_mem hrest
    have := hcount hrest
    have hitems : (items, s).1.length = items.length := rfl
    omega

/-- A poll can go on with a pass: its batch is what has failed, as far as that fits,
and then the next items of the pass. -/
theorem exists_poll (hperm : Permanent attempt)
    (hpending : q.1.Perm (failures attempt tried s ++ rest)) (hstate : q.2 = pass attempt tried s)
    (hsorted : (tried ++ rest).Pairwise fun a b => key a ≤ key b) :
    ∃ new rest' q', rest = new ++ rest' ∧ new.length ≤ k - (failures attempt tried s).length ∧
      Poll attempt key k q q' ∧ q'.2 = pass attempt (tried ++ new) s ∧
      q'.1.Perm (failures attempt (tried ++ new) s ++ rest') := by
  set failed := failures attempt tried s with hfailed
  let new := rest.take (k - failed.length)
  let rest' := rest.drop (k - failed.length)
  have htake : (failed ++ rest).take k = failed.take k ++ new := List.take_append
  have hdrop : (failed ++ rest).drop k = failed.drop k ++ rest' := List.drop_append
  have hbatch : ∀ b ∈ failed.take k, attempt b q.2 = none := by
    intro b hb
    rw [hstate]
    exact hperm.fails_of_mem ((List.take_sublist k failed).subset hb)
  obtain ⟨hstuck, hsame⟩ := failures_of_fails hbatch
  refine ⟨new, rest', (failures attempt ((failed ++ rest).take k) q.2 ++ (failed ++ rest).drop k,
    pass attempt ((failed ++ rest).take k) q.2), (List.take_append_drop _ _).symm,
    List.length_take_le _ _, ?_, ?_, ?_⟩
  · refine ⟨failed ++ rest, hpending.symm, ?_, List.Perm.refl _, rfl⟩
    exact hsorted.sublist ((failures_sublist _ tried s).append (List.Sublist.refl rest))
  · rw [htake, pass_append, hsame, pass_append, hstate]
  · rw [htake, hdrop, failures_append, hstuck, hsame, failures_append, ← hfailed, ← hstate]
    simp only [List.append_assoc]
    refine ((List.perm_append_comm_assoc _ _ _).append_left _).trans ?_
    rw [← List.append_assoc, List.take_append_drop]

/-- A batch that reaches an item whose turn does not come has no place for it, or
fails at it: either way, the item fails. -/
theorem fails_of_not_turn {new : List ι} (hnodup : (l₁ ++ a :: l₂).Nodup)
    (hsplit : tried ++ (new ++ rest) = l₁ ++ a :: l₂)
    (hlen : new.length ≤ k - (failures attempt tried s).length)
    (hnot : k ≤ (failures attempt l₁ s).length ∨ attempt a (pass attempt l₁ s) = none)
    (ha : a ∈ new) : a ∈ failures attempt new (pass attempt tried s) := by
  obtain ⟨m, m', rfl⟩ := List.append_of_mem ha
  -- all before `a` has been tried when the batch comes to it
  have hbefore : tried ++ m = l₁ := by
    have heq : (tried ++ m) ++ a :: (m' ++ rest) = l₁ ++ a :: l₂ := by
      rw [← hsplit]
      simp
    rw [← heq, List.nodup_middle, List.nodup_cons, List.mem_append, not_or] at hnodup
    exact ((List.append_cons_inj_of_notMem hnodup.1.1 hnodup.1.2).mp heq).1
  rw [failures_append, failures]
  rcases hnot with hmany | hfails
  · have hle := (failures_sublist attempt m (pass attempt tried s)).length_le
    rw [← hbefore, failures_append, List.length_append] at hmany
    rw [List.length_append, List.length_cons] at hlen
    omega
  · rw [← hbefore, pass_append] at hfails
    simp [hfails]

/-- **A pass in which an item's turn does not come is a schedule under which it
waits forever.** -/
theorem polls_of_not_turn (hperm : Permanent attempt) {items : List ι} (hnodup : items.Nodup)
    (hl : (l₁ ++ a :: l₂).Perm items)
    (hsorted : (l₁ ++ a :: l₂).Pairwise fun a b => key a ≤ key b)
    (hnot : k ≤ (failures attempt l₁ s).length ∨ attempt a (pass attempt l₁ s) = none) (n : ℕ) :
    ∃ q, Polls attempt key k (items, s) n q ∧ a ∈ q.1 := by
  have hnd : (l₁ ++ a :: l₂).Nodup := hl.nodup_iff.mpr hnodup
  -- the polls follow the pass
  have hfollow : ∃ q tried rest, Polls attempt key k (items, s) n q ∧
      tried ++ rest = l₁ ++ a :: l₂ ∧ q.2 = pass attempt tried s ∧
      q.1.Perm (failures attempt tried s ++ rest) ∧ a ∈ failures attempt tried s ++ rest := by
    induction n with
    | zero => exact ⟨(items, s), [], _, .zero, rfl, rfl, hl.symm, by simp⟩
    | succ n ih =>
      obtain ⟨q, tried, rest, hpolls, hsplit, hstate, hpending, ha⟩ := ih
      rw [← hsplit] at hsorted
      obtain ⟨new, rest', q', rfl, hlen, hpoll, hstate', hpending'⟩ :=
        exists_poll (k := k) hperm hpending hstate hsorted
      refine ⟨q', tried ++ new, rest', .succ hpolls hpoll, ?_, hstate', hpending', ?_⟩
      · rw [List.append_assoc, hsplit]
      · rw [failures_append, List.append_assoc]
        rcases List.mem_append.mp ha with hfailed | hleft
        · exact List.mem_append_left _ hfailed
        refine List.mem_append_right _ ?_
        rcases List.mem_append.mp hleft with hnew | hrest'
        · exact List.mem_append_left _ (fails_of_not_turn hnd hsplit hlen hnot hnew)
        · exact List.mem_append_right _ hrest'
  obtain ⟨q, tried, rest, hpolls, -, -, hpending, ha⟩ := hfollow
  exact ⟨q, hpolls, hpending.mem_iff.mpr ha⟩

/-- **Who is served.** After at least as many polls as there are items, an item
is served, however the ties fall, exactly when its turn comes. -/
theorem served_iff [DecidableEq ι] (hperm : Permanent attempt) {items : List ι}
    (hnodup : items.Nodup) {n : ℕ} (hn : items.length ≤ n) :
    (∀ q, Polls attempt key k (items, s) n q → a ∉ q.1) ↔ TurnComes attempt key k items s a := by
  constructor
  · rintro hserved l l₁ l₂ hl hsorted rfl
    by_contra hnot
    rw [not_and_or, not_lt, Option.not_isSome_iff_eq_none] at hnot
    obtain ⟨q, hpolls, ha⟩ := polls_of_not_turn hperm hnodup hl hsorted hnot n
    exact hserved q hpolls ha
  · exact fun hturn q hpolls => served_of_turnComes hperm hnodup hn hpolls hturn

end RetryQueue
