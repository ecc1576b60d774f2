import BookingPlatform.Lib.Paging

/-!
# Pages sorted anew

A listing whose requests each sort all rows by a key and cut their page out of the
result.  The key may have another value in each request, since what it is computed
from may be read in another order.

## Main definitions

* `StandsBefore` — one row comes before another.
* `keyedPages` — the rows of all pages, with the keys they were sorted by.
* `SortedListing` — a listing that holds every row once, sorted by the keys it shows,
  rows of one key in their order.
* `Separated` — no page ends between rows that may change places.

## Main results

* `sortedListing_iff_separated` — when the pages are a sorted listing, whatever values
  the keys take in each request.
-/

namespace Paging

variable {ρ : Type*}

/-! ### The order of rows -/

/-- A row comes before another in a list. -/
def StandsBefore (rows : List ρ) (x y : ρ) : Prop := [x, y].Sublist rows

theorem StandsBefore.mem {rows : List ρ} {x y : ρ} (h : StandsBefore rows x y) :
    x ∈ rows ∧ y ∈ rows :=
  ⟨h.subset List.mem_cons_self, h.subset (List.mem_cons_of_mem x List.mem_cons_self)⟩

/-- Of two rows one comes first. -/
theorem StandsBefore.asymm {rows : List ρ} (hnodup : rows.Nodup) {x y : ρ}
    (hxy : StandsBefore rows x y) : ¬ StandsBefore rows y x := by
  intro hyx
  induction rows with
  | nil => cases hxy
  | cons z rows ih =>
    obtain ⟨hz, hrest⟩ := List.nodup_cons.mp hnodup
    cases hxy with
    | cons _ hxy =>
      cases hyx with
      | cons _ hyx => exact ih hrest hxy hyx
      | cons_cons _ hyx => exact hz (StandsBefore.mem hxy).2
    | cons_cons _ hy =>
      cases hyx with
      | cons _ hyx => exact hz (StandsBefore.mem hyx).2
      | cons_cons _ hx => exact hz (hy.subset List.mem_cons_self)

theorem pairwise_standsBefore {rows l : List ρ} (h : l.Sublist rows) :
    l.Pairwise (StandsBefore rows) :=
  List.pairwise_of_forall_sublist fun hab => hab.trans h

/-- Rows that come in their order are a part of the list. -/
theorem sublist_of_pairwise_standsBefore {rows l : List ρ} (hnodup : rows.Nodup)
    (hmem : ∀ x ∈ l, x ∈ rows) (h : l.Pairwise (StandsBefore rows)) : l.Sublist rows := by
  classical
  have hl : l.Nodup := by
    refine h.imp fun {x y} hxy hne => ?_
    subst hne
    exact hxy.asymm hnodup hxy
  have hfilter : (rows.filter fun x => x ∈ l).Perm l := by
    rw [List.perm_ext_iff_of_nodup (hnodup.sublist List.filter_sublist) hl]
    intro x
    simpa using hmem x
  have heq : rows.filter (fun x => x ∈ l) = l := by
    refine hfilter.eq_of_pairwise ?_ (pairwise_standsBefore List.filter_sublist) h
    intro x y _ _ hxy hyx
    exact absurd hyx (hxy.asymm hnodup)
  rw [← heq]
  exact List.filter_sublist

/-! ### Sorted listings -/

section Resorted

variable {ι κ : Type*} {le : κ → κ → Bool} {key : ι → ρ → κ} {n : ℕ} {rows : List ρ}

/-- A row with its key precedes another: its key comes first, or they tie and it comes
first. -/
def Precedes (le : κ → κ → Bool) (rows : List ρ) (p q : ρ × κ) : Prop :=
  le p.2 q.2 = true ∧ (le q.2 p.2 = true → StandsBefore rows p.1 q.1)

/-- Page `i` of the rows, sorted by their keys in the request `c`. -/
def keyedPage (le : κ → κ → Bool) (key : ι → ρ → κ) (n : ℕ) (rows : List ρ) (c : ι) (i : ℕ) :
    List (ρ × κ) :=
  (page n i (orderBy le (key c) rows)).map fun x => (x, key c x)

/-- The pages of a listing, each of a request of its own. -/
def keyedPages (le : κ → κ → Bool) (key : ι → ρ → κ) (n : ℕ) (rows : List ρ)
    (choice : ℕ → ι) : List (ρ × κ) :=
  (List.range (pageCount n rows.length)).flatMap fun i => keyedPage le key n rows (choice i) i

/-- Every row once, sorted by the keys that are shown, rows of one key in their order. -/
structure SortedListing (le : κ → κ → Bool) (rows : List ρ) (listed : List (ρ × κ)) : Prop where
  perm : (listed.map Prod.fst).Perm rows
  sorted : listed.Pairwise fun p q => le p.2 q.2 = true
  stable : ∀ k, ((listed.filter fun p => le p.2 k && le k p.2).map Prod.fst).Sublist rows

/-- No page ends between rows that may change places: as many rows as fit on the pages
before its end precede all the others, whatever values their keys take. -/
def Separated (le : κ → κ → Bool) (key : ι → ρ → κ) (n : ℕ) (rows : List ρ) : Prop :=
  ∀ i, i * n < rows.length → ∃ early : ρ → Bool, rows.countP early = i * n ∧
    ∀ x ∈ rows, early x = true → ∀ y ∈ rows, early y = false →
      ∀ c c', Precedes le rows (x, key c x) (y, key c' y)

theorem Precedes.asymm (hnodup : rows.Nodup) {p q : ρ × κ} (hpq : Precedes le rows p q) :
    ¬ Precedes le rows q p := by
  intro hqp
  exact (hpq.2 hqp.1).asymm hnodup (hqp.2 hpq.1)

/-- A stable sort by a key. -/
theorem orderBy_pairwise_precedes
    (htrans : ∀ a b c, le a b = true → le b c = true → le a c = true)
    (htotal : ∀ a b, (le a b || le b a) = true) (k : ρ → κ) (rows : List ρ) :
    (orderBy le k rows).Pairwise fun x y => Precedes le rows (x, k x) (y, k y) := by
  refine List.pairwise_of_forall_sublist fun {x y} hxy => ?_
  have hle : le (k x) (k y) = true := (orderBy_pairwise htrans htotal rows).forall_sublist hxy
  refine ⟨hle, fun hge => ?_⟩
  have hrefl : le (k x) (k x) = true := htrans _ _ _ hle hge
  -- the rows that tie with `x` are left in their order
  have hfilter : (orderBy le k rows).filter (fun z => le (k x) (k z) && le (k z) (k x)) =
      rows.filter fun z => le (k x) (k z) && le (k z) (k x) := by
    refine filter_orderBy htrans htotal (fun a b ha hb => ?_) rows
    rw [Bool.and_eq_true] at ha hb
    exact htrans _ _ _ ha.2 hb.1
  have hties := hxy.filter fun z => le (k x) (k z) && le (k z) (k x)
  rw [hfilter, List.filter_cons_of_pos (by simp [hrefl]),
    List.filter_cons_of_pos (by simp [hle, hge]), List.filter_nil] at hties
  exact hties.trans List.filter_sublist

/-- A listing whose rows precede one another is sorted. -/
theorem sortedListing_of_pairwise (hnodup : rows.Nodup)
    (htrans : ∀ a b c, le a b = true → le b c = true → le a c = true) {listed : List (ρ × κ)}
    (hperm : (listed.map Prod.fst).Perm rows) (h : listed.Pairwise (Precedes le rows)) :
    SortedListing le rows listed := by
  refine ⟨hperm, h.imp fun hpq => hpq.1, fun k => ?_⟩
  refine sublist_of_pairwise_standsBefore hnodup (fun x hx => ?_) ?_
  · obtain ⟨p, hp, rfl⟩ := List.mem_map.mp hx
    exact hperm.mem_iff.mp (List.mem_map_of_mem (List.mem_of_mem_filter hp))
  · rw [List.pairwise_map]
    refine (h.sublist List.filter_sublist).imp_of_mem fun {p q} hp hq hpq => hpq.2 ?_
    have hpk := (List.mem_filter.mp hp).2
    have hqk := (List.mem_filter.mp hq).2
    rw [Bool.and_eq_true] at hpk hqk
    exact htrans _ _ _ hqk.1 hpk.2

/-- In a sorted listing one row precedes the next. -/
theorem SortedListing.precedes (hrefl : ∀ a, le a a = true) {listed : List (ρ × κ)}
    (h : SortedListing le rows listed) {p q : ρ × κ} (hpq : [p, q].Sublist listed) :
    Precedes le rows p q := by
  have hle := h.sorted.forall_sublist hpq
  refine ⟨hle, fun hge => ?_⟩
  have hties := hpq.filter fun r => le r.2 p.2 && le p.2 r.2
  rw [List.filter_cons_of_pos (by simp [hrefl]), List.filter_cons_of_pos (by simp [hle, hge]),
    List.filter_nil] at hties
  exact (hties.map Prod.fst).trans (h.stable p.2)

/-! ### Separated rows stay on their pages -/

/-- Rows that precede all the others are the first ones of a sorted list. -/
theorem orderBy_eq_append (htrans : ∀ a b c, le a b = true → le b c = true → le a c = true)
    (htotal : ∀ a b, (le a b || le b a) = true) (hnodup : rows.Nodup) {early : ρ → Bool} {c : ι}
    (hearly : ∀ x ∈ rows, early x = true → ∀ y ∈ rows, early y = false →
      Precedes le rows (x, key c x) (y, key c y)) :
    orderBy le (key c) rows = (orderBy le (key c) rows).filter early ++
      (orderBy le (key c) rows).filter fun x => !early x := by
  have hsorted := orderBy_pairwise_precedes htrans htotal (key c) rows
  refine (List.filter_append_perm early _).symm.eq_of_pairwise ?_ hsorted ?_
  · intro x y _ _ hxy hyx
    exact absurd hyx (hxy.asymm hnodup)
  · rw [List.pairwise_append]
    refine ⟨hsorted.sublist List.filter_sublist, hsorted.sublist List.filter_sublist, ?_⟩
    intro x hx y hy
    obtain ⟨hx, hx'⟩ := List.mem_filter.mp hx
    obtain ⟨hy, hy'⟩ := List.mem_filter.mp hy
    exact hearly x (mem_orderBy.mp hx) hx' y (mem_orderBy.mp hy) (by simpa using hy')

theorem take_orderBy (htrans : ∀ a b c, le a b = true → le b c = true → le a c = true)
    (htotal : ∀ a b, (le a b || le b a) = true) (hnodup : rows.Nodup) {early : ρ → Bool} {c : ι}
    {m : ℕ} (hcount : rows.countP early = m)
    (hearly : ∀ x ∈ rows, early x = true → ∀ y ∈ rows, early y = false →
      Precedes le rows (x, key c x) (y, key c y)) :
    (orderBy le (key c) rows).take m = (orderBy le (key c) rows).filter early ∧
      (orderBy le (key c) rows).drop m = (orderBy le (key c) rows).filter fun x => !early x := by
  have hsplit := orderBy_eq_append htrans htotal hnodup hearly
  have hlen : ((orderBy le (key c) rows).filter early).length = m := by
    rw [← List.countP_eq_length_filter, (orderBy_perm rows).countP_eq, hcount]
  constructor
  · conv_lhs => rw [hsplit]
    exact List.take_left' hlen
  · conv_lhs => rw [hsplit]
    exact List.drop_left' hlen

/-- The first pages hold the same rows in every request. -/
theorem Separated.take_perm (htrans : ∀ a b c, le a b = true → le b c = true → le a c = true)
    (htotal : ∀ a b, (le a b || le b a) = true) (hnodup : rows.Nodup)
    (hsep : Separated le key n rows) (i : ℕ) (c c' : ι) :
    ((orderBy le (key c) rows).take (i * n)).Perm ((orderBy le (key c') rows).take (i * n)) := by
  have hperm : (orderBy le (key c) rows).Perm (orderBy le (key c') rows) :=
    (orderBy_perm rows).trans (orderBy_perm rows).symm
  by_cases hi : i * n < rows.length
  · obtain ⟨early, hcount, hearly⟩ := hsep i hi
    rw [(take_orderBy htrans htotal hnodup hcount fun x hx hx' y hy hy' =>
        hearly x hx hx' y hy hy' c c).1,
      (take_orderBy htrans htotal hnodup hcount fun x hx hx' y hy hy' =>
        hearly x hx hx' y hy hy' c' c').1]
    exact hperm.filter early
  · rw [List.take_of_length_le (by rw [length_orderBy]; omega),
      List.take_of_length_le (by rw [length_orderBy]; omega)]
    exact hperm

/-- A page holds the same rows in every request. -/
theorem Separated.page_perm (htrans : ∀ a b c, le a b = true → le b c = true → le a c = true)
    (htotal : ∀ a b, (le a b || le b a) = true) (hnodup : rows.Nodup)
    (hsep : Separated le key n rows) (i : ℕ) (c c' : ι) :
    (page n i (orderBy le (key c) rows)).Perm (page n i (orderBy le (key c') rows)) := by
  have hbefore := hsep.take_perm htrans htotal hnodup i c c'
  have hupTo := hsep.take_perm htrans htotal hnodup (i + 1) c c'
  rw [Nat.succ_mul, List.take_add, List.take_add] at hupTo
  exact (List.perm_append_left_iff _).mp (hupTo.trans (hbefore.symm.append_right _))

/-- **Pages of separated rows are a sorted listing.** -/
theorem Separated.sortedListing
    (htrans : ∀ a b c, le a b = true → le b c = true → le a c = true)
    (htotal : ∀ a b, (le a b || le b a) = true) (hn : 0 < n) (hnodup : rows.Nodup)
    (hsep : Separated le key n rows) (choice : ℕ → ι) :
    SortedListing le rows (keyedPages le key n rows choice) := by
  refine sortedListing_of_pairwise hnodup htrans ?_ ?_
  · -- each page holds the rows that it holds in the first request
    have hpages : ((keyedPages le key n rows choice).map Prod.fst).Perm
        ((List.range (pageCount n rows.length)).flatMap fun i =>
          page n i (orderBy le (key (choice 0)) rows)) := by
      rw [keyedPages, List.map_flatMap]
      refine List.Perm.flatMap_left _ fun i _ => ?_
      rw [keyedPage, List.map_map]
      exact (List.map_id _).symm ▸ hsep.page_perm htrans htotal hnodup i (choice i) (choice 0)
    have hall := flatMap_page hn (orderBy le (key (choice 0)) rows)
    rw [length_orderBy] at hall
    rw [hall] at hpages
    exact hpages.trans (orderBy_perm rows)
  · rw [keyedPages, List.pairwise_flatMap]
    constructor
    · intro i _
      rw [keyedPage, List.pairwise_map]
      exact (orderBy_pairwise_precedes htrans htotal (key (choice i)) rows).sublist
        ((List.take_sublist _ _).trans (List.drop_sublist _ _))
    · refine List.pairwise_lt_range.imp fun {i j} hij p hp q hq => ?_
      obtain ⟨x, hx, rfl⟩ := List.mem_map.mp hp
      obtain ⟨y, hy, rfl⟩ := List.mem_map.mp hq
      have hle : (i + 1) * n ≤ j * n := Nat.mul_le_mul_right n hij
      have hx' : x ∈ (orderBy le (key (choice i)) rows).take ((i + 1) * n) := by
        rw [Nat.succ_mul, List.take_add]
        exact List.mem_append_right _ hx
      have hy' : y ∈ (orderBy le (key (choice j)) rows).drop ((i + 1) * n) :=
        (List.drop_sublist_drop_left _ hle).subset (List.mem_of_mem_take hy)
      have hlen : (i + 1) * n < rows.length := by
        have hpos := List.length_pos_of_mem hy'
        rw [List.length_drop, length_orderBy] at hpos
        omega
      obtain ⟨early, hcount, hearly⟩ := hsep (i + 1) hlen
      rw [(take_orderBy htrans htotal hnodup hcount fun x hx hx' y hy hy' =>
        hearly x hx hx' y hy hy' _ _).1, List.mem_filter, mem_orderBy] at hx'
      rw [(take_orderBy htrans htotal hnodup hcount fun x hx hx' y hy hy' =>
        hearly x hx hx' y hy hy' _ _).2, List.mem_filter, mem_orderBy] at hy'
      exact hearly x hx'.1 hx'.2 y hy'.1 (by simpa using hy'.2) _ _

/-! ### Rows that are not separated -/

/-- The pages from `i` on are the rest of a list. -/
theorem flatMap_page_from (hn : 0 < n) (l : List ρ) {i b : ℕ} (hb : pageCount n l.length = i + b) :
    ((List.range b).map (i + ·)).flatMap (fun j => page n j l) = l.drop (i * n) := by
  have hall := flatMap_page hn l
  rw [hb, List.range_add, List.flatMap_append, flatMap_page_eq_take] at hall
  exact List.append_cancel_left (hall.trans (List.take_append_drop (i * n) l).symm)

/-- A listing whose keys change after page `i`. -/
theorem keyedPages_switch (hn : 0 < n) {i : ℕ} (hi : i * n < rows.length) (c c' : ι) :
    keyedPages le key n rows (fun j => if j < i then c else c') =
      ((orderBy le (key c) rows).take (i * n)).map (fun x => (x, key c x)) ++
        ((orderBy le (key c') rows).drop (i * n)).map fun x => (x, key c' x) := by
  obtain ⟨b, hb⟩ := Nat.exists_eq_add_of_le ((lt_pageCount_iff hn).mpr hi).le
  have hlen : pageCount n (orderBy le (key c') rows).length = i + b := by
    rw [length_orderBy, hb]
  rw [keyedPages, hb, List.range_add, List.flatMap_append, ← flatMap_page_eq_take,
    ← flatMap_page_from hn _ hlen, List.map_flatMap, List.map_flatMap]
  congr 1
  · refine List.flatMap_congr fun j hj => ?_
    rw [if_pos (List.mem_range.mp hj)]
    rfl
  · refine List.flatMap_congr fun j hj => ?_
    obtain ⟨d, -, rfl⟩ := List.mem_map.mp hj
    rw [if_neg (by omega)]
    rfl

/-- **Pages that are always a sorted listing are cut between separated rows.** -/
theorem separated_of_sortedListing [Nonempty ι] (hrefl : ∀ a, le a a = true) (hn : 0 < n)
    (hnodup : rows.Nodup)
    (h : ∀ choice : ℕ → ι, SortedListing le rows (keyedPages le key n rows choice)) :
    Separated le key n rows := by
  classical
  intro i hi
  obtain ⟨a⟩ := ‹Nonempty ι›
  -- the first `i` pages hold the same rows in every request
  have hfirst : ∀ c, ((orderBy le (key a) rows).take (i * n)).Perm
      ((orderBy le (key c) rows).take (i * n)) := by
    intro c
    have hperm := (h fun j => if j < i then a else c).perm
    rw [keyedPages_switch hn hi, List.map_append, List.map_map, List.map_map] at hperm
    simp only [Function.comp_def, List.map_id'] at hperm
    have hc : ((orderBy le (key c) rows).take (i * n) ++
        (orderBy le (key c) rows).drop (i * n)).Perm rows := by
      rw [List.take_append_drop]
      exact orderBy_perm rows
    exact (List.perm_append_right_iff _).mp (hperm.trans hc.symm)
  refine ⟨fun x => x ∈ (orderBy le (key a) rows).take (i * n), ?_, ?_⟩
  · have hsorted : (orderBy le (key a) rows).Nodup := (orderBy_perm rows).nodup_iff.mpr hnodup
    have hperm : (orderBy le (key a) rows).Perm rows := orderBy_perm rows
    rw [← hperm.countP_eq]
    conv_lhs => rw [← List.take_append_drop (i * n) (orderBy le (key a) rows)]
    rw [List.countP_append, List.countP_eq_length.mpr, List.countP_eq_zero.mpr,
      List.length_take, length_orderBy]
    · omega
    · intro x hx
      have hdisjoint := List.disjoint_take_drop hsorted (le_refl (i * n))
      simpa using fun hx' => hdisjoint hx' hx
    · intro x hx
      simpa using hx
  · intro x hx hearly y hy hlate c c'
    rw [decide_eq_true_eq] at hearly
    rw [decide_eq_false_iff_not] at hlate
    have hx' : x ∈ (orderBy le (key c) rows).take (i * n) := (hfirst c).mem_iff.mp hearly
    have hy' : y ∈ (orderBy le (key c') rows).drop (i * n) := by
      have hmem : y ∈ (orderBy le (key c') rows).take (i * n) ++
          (orderBy le (key c') rows).drop (i * n) := by
        rw [List.take_append_drop]
        exact mem_orderBy.mpr hy
      exact (List.mem_append.mp hmem).resolve_left fun hmem =>
        hlate ((hfirst c').mem_iff.mpr hmem)
    -- the rows are listed one after the other by requests that see `c` and then `c'`
    refine (h fun j => if j < i then c else c').precedes hrefl ?_
    rw [keyedPages_switch hn hi]
    have hpair := (List.singleton_sublist.mpr hx').map fun z => (z, key c z)
    exact hpair.append ((List.singleton_sublist.mpr hy').map fun z => (z, key c' z))

/-- **When pages that are sorted anew are a sorted listing**, whatever values the keys
take in each request. -/
theorem sortedListing_iff_separated [Nonempty ι]
    (htrans : ∀ a b c, le a b = true → le b c = true → le a c = true)
    (htotal : ∀ a b, (le a b || le b a) = true) (hn : 0 < n) (hnodup : rows.Nodup) :
    (∀ choice : ℕ → ι, SortedListing le rows (keyedPages le key n rows choice)) ↔
      Separated le key n rows :=
  ⟨separated_of_sortedListing (fun a => by simpa using htotal a a) hn hnodup,
    fun hsep choice => hsep.sortedListing htrans htotal hn hnodup choice⟩

end Resorted

end Paging
