import BookingPlatform.Lib.Query

/-!
# Paging

A listing of `n` rows a page, cut out of a sorted result by its offset.  Each page
is a query of its own, so each may put the rows that its `ORDER BY` leaves tied in
another order.

## Main definitions

* `page`, `pageCount` — a page of rows, and how many there are.
* `TiesOnOnePage` — rows that tie are on one page.

## Main results

* `flatMap_page` — the pages of one list are the list.
* `index_bounds` — where a row can stand in a sorted list.
* `pages_perm_iff` — pages cut from any sorted lists of the same rows hold every row
  once exactly when rows that tie are all on one page.
* `pages_arrangement_perm_iff` — the same for a query that sorts what it finds.
-/

namespace Paging

variable {ρ σ : Type*}

/-! ### The pages of one list -/

/-- Page `i`, counted from 0, of `n` rows a page. -/
def page (n i : ℕ) (rows : List ρ) : List ρ := (rows.drop (i * n)).take n

/-- How many pages hold `len` rows. -/
def pageCount (n len : ℕ) : ℕ := (len + n - 1) / n

theorem lt_pageCount_iff {n len i : ℕ} (hn : 0 < n) : i < pageCount n len ↔ i * n < len := by
  rw [pageCount, ← Nat.succ_le_iff, Nat.le_div_iff_mul_le hn, Nat.succ_mul]
  omega

/-- The first pages are the first rows. -/
theorem flatMap_page_eq_take (n : ℕ) (rows : List ρ) (c : ℕ) :
    (List.range c).flatMap (fun i => page n i rows) = rows.take (c * n) := by
  induction c with
  | zero => simp
  | succ c ih =>
    rw [List.range_succ, List.flatMap_append, ih, Nat.succ_mul, List.take_add]
    simp [page]

/-- **The pages of a list are the list.** -/
theorem flatMap_page {n : ℕ} (hn : 0 < n) (rows : List ρ) :
    (List.range (pageCount n rows.length)).flatMap (fun i => page n i rows) = rows := by
  rw [flatMap_page_eq_take, List.take_of_length_le]
  have hlast : pageCount n rows.length < pageCount n rows.length ↔ _ := lt_pageCount_iff hn
  omega

/-- There is nothing past the last page. -/
theorem page_eq_nil {n i : ℕ} (hn : 0 < n) {rows : List ρ} (h : pageCount n rows.length ≤ i) :
    page n i rows = [] := by
  have hlast : i < pageCount n rows.length ↔ i * n < rows.length := lt_pageCount_iff hn
  rw [page, List.drop_eq_nil_of_le (by omega), List.take_nil]

/-- Every page but the last is full. -/
theorem length_page {n i : ℕ} (hn : 0 < n) {rows : List ρ} (h : i + 1 < pageCount n rows.length) :
    (page n i rows).length = n := by
  have hnext := (lt_pageCount_iff hn).mp h
  rw [Nat.succ_mul] at hnext
  rw [page, List.length_take, List.length_drop]
  omega

/-- A row is on the page of its index. -/
theorem mem_page_iff {n i : ℕ} (hn : 0 < n) {rows : List ρ} {x : ρ} :
    x ∈ page n i rows ↔ ∃ j, ∃ h : j < rows.length, rows[j] = x ∧ j / n = i := by
  rw [page, List.mem_take_iff_getElem]
  constructor
  · intro ⟨j, hj, hx⟩
    rw [List.length_drop] at hj
    rw [List.getElem_drop] at hx
    refine ⟨i * n + j, by omega, hx, ?_⟩
    rw [add_comm, Nat.add_mul_div_right _ _ hn, Nat.div_eq_of_lt (by omega), zero_add]
  · intro ⟨j, hj, hx, hi⟩
    have hdiv := Nat.div_add_mod j n
    have hmod := Nat.mod_lt j hn
    rw [hi, mul_comm] at hdiv
    refine ⟨j % n, ?_, ?_⟩
    · rw [List.length_drop]
      omega
    · rw [List.getElem_drop, ← hx]
      congr 1

/-! ### Sorted lists -/

section Ties

variable {le : ρ → ρ → Bool}

/-- The number of rows that come before a row, whatever is done with ties. -/
def before (le : ρ → ρ → Bool) (rows : List ρ) (x : ρ) : ℕ := rows.countP fun y => !le x y

/-- The number of rows that come before a row or tie with it. -/
def upTo (le : ρ → ρ → Bool) (rows : List ρ) (x : ρ) : ℕ := rows.countP fun y => le y x

/-- The rows that tie with a row are all on one page: no page ends among them. -/
def TiesOnOnePage (le : ρ → ρ → Bool) (n : ℕ) (rows : List ρ) : Prop :=
  ∀ x ∈ rows, ∀ i, ¬ (before le rows x < i * n ∧ i * n < upTo le rows x)

/-- Pages that end past the last row have no ties across. -/
instance (le : ρ → ρ → Bool) (n : ℕ) (rows : List ρ) : Decidable (TiesOnOnePage le n rows) :=
  decidable_of_iff
    (∀ x ∈ rows, ∀ i < rows.length, ¬ (before le rows x < i * n ∧ i * n < upTo le rows x)) <| by
    refine forall₂_congr fun x _ => ⟨fun h i hties => ?_, fun h i _ => h i⟩
    have hlen : upTo le rows x ≤ rows.length := List.countP_le_length
    have hpos : 0 < n := Nat.pos_of_mul_pos_left (Nat.zero_lt_of_lt hties.1)
    have hi : i * 1 ≤ i * n := Nat.mul_le_mul_left i hpos
    exact h i (by omega) hties

/-- **Where a row can stand in a sorted list.** -/
theorem index_bounds (hrefl : ∀ a, le a a = true) {rows : List ρ}
    (hsorted : rows.Pairwise fun x y => le x y = true) {j : ℕ} (hj : j < rows.length) :
    before le rows rows[j] ≤ j ∧ j < upTo le rows rows[j] := by
  have hsplit : rows = rows.take j ++ rows[j] :: rows.drop (j + 1) := by simp
  have hlen : (rows.take j).length = j := by simp [hj.le]
  generalize rows[j] = x at *
  generalize rows.take j = l₁ at *
  generalize rows.drop (j + 1) = l₂ at *
  subst hsplit
  rw [List.pairwise_append, List.pairwise_cons] at hsorted
  obtain ⟨-, ⟨hafter, -⟩, hacross⟩ := hsorted
  constructor
  · -- nothing from the row on comes before it
    have hzero : (x :: l₂).countP (fun y => !le x y) = 0 := by
      rw [List.countP_eq_zero]
      intro y hy
      rcases List.mem_cons.mp hy with rfl | hy
      · simp [hrefl]
      · simp [hafter y hy]
    have hle := List.countP_le_length (l := l₁) (p := fun y => !le x y)
    rw [before, List.countP_append, hzero]
    omega
  · have hall : l₁.countP (fun y => le y x) = l₁.length :=
      List.countP_eq_length.mpr fun y hy => hacross y hy x List.mem_cons_self
    rw [upTo, List.countP_append, List.countP_cons, hall, if_pos (hrefl x)]
    omega

/-- When ties stay on one page, so does every row. -/
theorem index_div_eq (hrefl : ∀ a, le a a = true) {n : ℕ} {rows L : List ρ}
    (hperm : L.Perm rows) (hsorted : L.Pairwise fun x y => le x y = true)
    (hties : TiesOnOnePage le n rows) {j : ℕ} (hj : j < L.length) :
    j / n = before le rows L[j] / n := by
  have hbounds := index_bounds hrefl hsorted hj
  have hpage := hties L[j] (hperm.mem_iff.mp (List.getElem_mem hj)) (j / n)
  rw [before, upTo, hperm.countP_eq, hperm.countP_eq] at hbounds
  have hfloor := Nat.div_mul_le_self j n
  refine le_antisymm ?_ (Nat.div_le_div_right hbounds.1)
  by_contra hlt
  rcases Nat.eq_zero_or_pos n with rfl | hn
  · simp at hlt
  · refine hpage ⟨?_, lt_of_le_of_lt hfloor hbounds.2⟩
    exact (Nat.div_lt_iff_lt_mul hn).mp (not_le.mp hlt)

variable {n : ℕ} {rows : List ρ}

/-- **Pages of any sorted lists of the same rows hold every row once**, when ties stay
on one page. -/
theorem pages_perm (hrefl : ∀ a, le a a = true) (hn : 0 < n) (hnodup : rows.Nodup)
    (hties : TiesOnOnePage le n rows) (L : ℕ → List ρ) (hperm : ∀ i, (L i).Perm rows)
    (hsorted : ∀ i, (L i).Pairwise fun x y => le x y = true) :
    ((List.range (pageCount n rows.length)).flatMap fun i => page n i (L i)).Perm rows := by
  have hpage : ∀ i x, x ∈ page n i (L i) → before le rows x / n = i := by
    intro i x hx
    obtain ⟨j, hj, rfl, hi⟩ := (mem_page_iff hn).mp hx
    rw [← index_div_eq hrefl (hperm i) (hsorted i) hties hj]
    exact hi
  have hpages : ((List.range (pageCount n rows.length)).flatMap fun i => page n i (L i)).Nodup := by
    refine List.nodup_flatMap.mpr ⟨fun i _ => ?_, List.nodup_range.imp fun {i j} hne => ?_⟩
    · have hL : (L i).Nodup := (hperm i).nodup_iff.mpr hnodup
      exact (hL.sublist (List.drop_sublist _ _)).sublist (List.take_sublist _ _)
    · intro x hi hj
      exact hne ((hpage i x hi).symm.trans (hpage j x hj))
  rw [List.perm_ext_iff_of_nodup hpages hnodup]
  intro x
  simp only [List.mem_flatMap, List.mem_range]
  constructor
  · intro ⟨i, _, hx⟩
    exact (hperm i).mem_iff.mp (List.mem_of_mem_drop (List.mem_of_mem_take hx))
  · intro hx
    -- the row is on the page that its ties are on
    obtain ⟨j, hj, hget⟩ :=
      List.mem_iff_getElem.mp ((hperm (before le rows x / n)).mem_iff.mpr hx)
    have hdiv := index_div_eq hrefl (hperm _) (hsorted _) hties hj
    rw [hget] at hdiv
    refine ⟨_, ?_, (mem_page_iff hn).mpr ⟨j, hj, hget, hdiv⟩⟩
    rw [lt_pageCount_iff hn, ← hdiv, ← (hperm (before le rows x / n)).length_eq]
    exact lt_of_le_of_lt (Nat.div_mul_le_self j n) hj

/-- A row does not come after one that has enough rows in front of it. -/
theorem le_of_before_le (htrans : ∀ a b c, le a b = true → le b c = true → le a c = true)
    {l₁ l₂ : List ρ} {a x : ρ} (hsorted : (l₁ ++ a :: l₂).Pairwise fun x y => le x y = true)
    (h : before le (l₁ ++ a :: l₂) x ≤ l₁.length) : le x a = true := by
  by_contra hnot
  have hall : l₁.countP (fun y => !le x y) = l₁.length := by
    refine List.countP_eq_length.mpr fun y hy => ?_
    have hya := (List.pairwise_append.mp hsorted).2.2 y hy a List.mem_cons_self
    have hxy : ¬ le x y = true := fun hxy => hnot (htrans _ _ _ hxy hya)
    simpa using hxy
  rw [before, List.countP_append, List.countP_cons, hall, if_pos (by simpa using hnot)] at h
  omega

/-- A row does not come before one that fewer rows come up to. -/
theorem le_of_lt_upTo (htrans : ∀ a b c, le a b = true → le b c = true → le a c = true)
    {l₁ l₂ : List ρ} {b x : ρ} (hsorted : (l₁ ++ b :: l₂).Pairwise fun x y => le x y = true)
    (h : l₁.length < upTo le (l₁ ++ b :: l₂) x) : le b x = true := by
  by_contra hnot
  have hzero : l₂.countP (fun y => le y x) = 0 := by
    refine List.countP_eq_zero.mpr fun y hy hyx => ?_
    have hby := (List.pairwise_cons.mp (List.pairwise_append.mp hsorted).2.1).1 y hy
    exact hnot (htrans _ _ _ hby hyx)
  have hle := List.countP_le_length (l := l₁) (p := fun y => le y x)
  rw [upTo, List.countP_append, List.countP_cons, hzero, if_neg hnot] at h
  omega

/-- Neighbours that tie can be swapped. -/
theorem pairwise_swap {l₁ l₂ : List ρ} {a b : ρ} (hba : le b a = true)
    (hsorted : (l₁ ++ a :: b :: l₂).Pairwise fun x y => le x y = true) :
    (l₁ ++ b :: a :: l₂).Pairwise fun x y => le x y = true := by
  simp only [List.pairwise_append, List.pairwise_cons, List.mem_cons, forall_eq_or_imp] at hsorted ⊢
  obtain ⟨hl₁, ⟨⟨-, ha⟩, hb, hl₂⟩, hacross⟩ := hsorted
  exact ⟨hl₁, ⟨⟨hba, hb⟩, ha, hl₂⟩, fun y hy =>
    ⟨(hacross y hy).2.1, (hacross y hy).1, (hacross y hy).2.2⟩⟩

/-- Rows that are not all on the page of their ties tie across the end of a page. -/
theorem exists_tie_across (htrans : ∀ a b c, le a b = true → le b c = true → le a c = true)
    (htotal : ∀ a b, (le a b || le b a) = true) (hties : ¬ TiesOnOnePage le n rows) :
    ∃ l₁ a b l₂ i, (l₁ ++ a :: b :: l₂).Perm rows ∧
      (l₁ ++ a :: b :: l₂).Pairwise (fun x y => le x y = true) ∧ le b a = true ∧
      i * n = l₁.length + 1 := by
  simp only [TiesOnOnePage, not_forall, not_not] at hties
  obtain ⟨x, hx, i, hbefore, hupTo⟩ := hties
  obtain ⟨p, hp⟩ : ∃ p, i * n = p + 1 := ⟨i * n - 1, by omega⟩
  have hperm : (rows.mergeSort le).Perm rows := List.mergeSort_perm _ _
  have hsorted : (rows.mergeSort le).Pairwise fun x y => le x y = true :=
    List.pairwise_mergeSort htrans htotal rows
  have hlen : upTo le rows x ≤ rows.length := List.countP_le_length
  -- `a` and `b` stand on both sides of the end of a page
  obtain ⟨l₁, a, b, l₂, hsplit, hl₁⟩ :
      ∃ l₁ a b l₂, rows.mergeSort le = l₁ ++ a :: b :: l₂ ∧ l₁.length = p := by
    rw [← hperm.length_eq] at hlen
    refine ⟨(rows.mergeSort le).take p, (rows.mergeSort le)[p], (rows.mergeSort le)[p + 1],
      (rows.mergeSort le).drop (p + 2), ?_, ?_⟩
    · rw [← List.drop_eq_getElem_cons (by omega), ← List.drop_eq_getElem_cons (by omega),
        List.take_append_drop]
    · rw [List.length_take]
      omega
  rw [hsplit] at hperm hsorted
  -- both tie with `x`
  have hxa : le x a = true := by
    refine le_of_before_le htrans hsorted ?_
    rw [before, hperm.countP_eq, ← before]
    omega
  have hbx : le b x = true := by
    have hassoc : l₁ ++ a :: b :: l₂ = (l₁ ++ [a]) ++ b :: l₂ := by simp
    rw [hassoc] at hsorted hperm
    refine le_of_lt_upTo htrans hsorted ?_
    rw [upTo, hperm.countP_eq, ← upTo, List.length_append, List.length_singleton]
    omega
  exact ⟨l₁, a, b, l₂, i, hperm, hsorted, htrans _ _ _ hbx hxa, by omega⟩

/-- Where neighbours across the end of a page are swapped for the later page, the first
of them is on both. -/
theorem not_perm_of_swapped (hn : 0 < n) (hnodup : rows.Nodup) {l₁ l₂ : List ρ} {a b : ρ}
    (hperm : (l₁ ++ a :: b :: l₂).Perm rows) {i : ℕ} (hi : i * n = l₁.length + 1) :
    ¬ ((List.range (pageCount n rows.length)).flatMap fun j =>
      page n j (if j = i then l₁ ++ b :: a :: l₂ else l₁ ++ a :: b :: l₂)).Perm rows := by
  intro hpages
  have hnodups := (List.nodup_flatMap.mp (hpages.nodup_iff.mpr hnodup)).2
  have hlen := hperm.length_eq
  cases i with
  | zero => omega
  | succ m =>
    have hfirst : a ∈ page n m (if m = m + 1 then l₁ ++ b :: a :: l₂ else l₁ ++ a :: b :: l₂) := by
      rw [if_neg (Nat.succ_ne_self m).symm, mem_page_iff hn]
      refine ⟨l₁.length, by simp, by simp, ?_⟩
      rw [Nat.succ_mul] at hi
      exact Nat.div_eq_of_lt_le (by omega) (by rw [Nat.succ_mul]; omega)
    have hsecond : a ∈ page n (m + 1)
        (if m + 1 = m + 1 then l₁ ++ b :: a :: l₂ else l₁ ++ a :: b :: l₂) := by
      rw [if_pos rfl, mem_page_iff hn]
      refine ⟨l₁.length + 1, by simp, by simp, ?_⟩
      rw [← hi, Nat.mul_div_cancel _ hn]
    have hcount : m + 1 < pageCount n rows.length := by
      rw [lt_pageCount_iff hn, ← hlen]
      simp
      omega
    have hdisjoint := List.pairwise_iff_getElem.mp hnodups m (m + 1) (by simp; omega) (by simpa)
      (Nat.lt_succ_self m)
    simp only [List.getElem_range] at hdisjoint
    exact hdisjoint hfirst hsecond

/-- **Ties across the end of a page can be swapped**, so that one of them is on both
pages. -/
theorem exists_pages_not_perm (htrans : ∀ a b c, le a b = true → le b c = true → le a c = true)
    (htotal : ∀ a b, (le a b || le b a) = true) (hn : 0 < n) (hnodup : rows.Nodup)
    (hties : ¬ TiesOnOnePage le n rows) :
    ∃ L : ℕ → List ρ, (∀ i, (L i).Perm rows) ∧
      (∀ i, (L i).Pairwise fun x y => le x y = true) ∧
      ¬ ((List.range (pageCount n rows.length)).flatMap fun i => page n i (L i)).Perm rows := by
  obtain ⟨l₁, a, b, l₂, i, hperm, hsorted, hba, hi⟩ := exists_tie_across htrans htotal hties
  have hswapped : (l₁ ++ b :: a :: l₂).Perm rows :=
    ((List.Perm.swap a b l₂).append_left l₁).trans hperm
  refine ⟨fun j => if j = i then l₁ ++ b :: a :: l₂ else l₁ ++ a :: b :: l₂, fun j => ?_,
    fun j => ?_, not_perm_of_swapped hn hnodup hperm hi⟩
  · by_cases hj : j = i <;> simp only [hj, if_true, if_false]
    · exact hswapped
    · exact hperm
  · by_cases hj : j = i <;> simp only [hj, if_true, if_false]
    · exact pairwise_swap hba hsorted
    · exact hsorted

/-- **When pages of sorted lists of the same rows hold every row once**, whatever lists
they are cut from. -/
theorem pages_perm_iff (htrans : ∀ a b c, le a b = true → le b c = true → le a c = true)
    (htotal : ∀ a b, (le a b || le b a) = true) (hn : 0 < n) (hnodup : rows.Nodup) :
    (∀ L : ℕ → List ρ, (∀ i, (L i).Perm rows) →
      (∀ i, (L i).Pairwise fun x y => le x y = true) →
      ((List.range (pageCount n rows.length)).flatMap fun i => page n i (L i)).Perm rows) ↔
      TiesOnOnePage le n rows := by
  constructor
  · intro h
    by_contra hties
    obtain ⟨L, hperm, hsorted, hnot⟩ := exists_pages_not_perm htrans htotal hn hnodup hties
    exact hnot (h L hperm hsorted)
  · intro hties L hperm hsorted
    exact pages_perm (fun a => by simpa using htotal a a) hn hnodup hties L hperm hsorted

/-- **When the pages of a query hold every row once**, if each time the database
chooses how to order the rows it finds before they are sorted. -/
theorem pages_arrangement_perm_iff
    (htrans : ∀ a b c, le a b = true → le b c = true → le a c = true)
    (htotal : ∀ a b, (le a b || le b a) = true) (hn : 0 < n) {base : List σ} {f : σ → Option ρ}
    (hnodup : (base.filterMap f).Nodup) :
    (∀ arrangement : ℕ → Arrangement σ,
      ((List.range (pageCount n (base.filterMap f).length)).flatMap fun i =>
        page n i ((((arrangement i).apply base).filterMap f).mergeSort le)).Perm
          (base.filterMap f)) ↔
      TiesOnOnePage le n (base.filterMap f) := by
  rw [← pages_perm_iff htrans htotal hn hnodup]
  constructor
  · intro h L hperm hsorted
    choose arrangement harrangement using fun i => Arrangement.exists_filterMap_apply_eq (hperm i)
    have hpages := h arrangement
    simpa only [harrangement, List.mergeSort_of_pairwise (hsorted _)] using hpages
  · intro h arrangement
    refine h _ (fun i => ?_) fun i => List.pairwise_mergeSort htrans htotal _
    exact (List.mergeSort_perm _ _).trans (((arrangement i).perm base).filterMap f)

end Ties

end Paging
