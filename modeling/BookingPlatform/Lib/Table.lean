import Mathlib.Data.List.Nodup
import Mathlib.Algebra.BigOperators.Group.List.Basic
import Mathlib.Tactic

/-!
# Tables with a primary key

A table is a list of rows, in insertion order, with pairwise distinct keys: the
constraint is a field, so every operation here returns a table that meets it.
Seen through `get?` a table is a finite partial function from keys to rows, and
the lemmas describe each operation by what it does to that function.

## Main definitions

* `Table` — rows with pairwise distinct keys.
* `get?`, `findFirst`, `findMany` — its reads.
* `insert`, `put`, `upsert`, `updateMany`, `deleteMany` — its writes.
* `AgreeOn` — two tables hold the same rows of some kind.

## Main results

* `get?_put`, `get?_insert` — the two ways a table changes, read through `get?`.
* `sum_put`, `sum_insert` — what they do to a weight summed over the rows.
* `findFirst_eq_get?` — a filter that pins the key down is a lookup by key.
* `AgreeOn.findMany_perm` — tables that agree on some rows answer alike a query
  that selects among these.
-/

/-- Rows that carry their own primary key. -/
class Keyed (ρ : Type*) (κ : outParam Type*) where
  key : ρ → κ

open Keyed (key)

/-- Rows with pairwise distinct keys, in insertion order. -/
@[ext]
structure Table (ρ : Type*) {κ : Type*} [Keyed ρ κ] where
  rows : List ρ
  nodup : (rows.map key).Nodup

namespace Table

variable {ρ κ : Type*} [Keyed ρ κ]

/-- A row of a table. -/
instance : Membership ρ (Table ρ) := ⟨fun t r => r ∈ t.rows⟩

theorem mem_def {t : Table ρ} {r : ρ} : r ∈ t ↔ r ∈ t.rows := Iff.rfl

/-- The table with no rows. -/
def empty : Table ρ := ⟨[], List.nodup_nil⟩

/-- The empty table. -/
instance : Inhabited (Table ρ) := ⟨empty⟩

@[simp] theorem rows_empty : (empty : Table ρ).rows = [] := rfl

/-- A key determines its row. -/
theorem eq_of_key {t : Table ρ} {r r' : ρ} (hr : r ∈ t) (hr' : r' ∈ t) (h : key r = key r') :
    r = r' :=
  List.inj_on_of_nodup_map t.nodup hr hr' h

/-- The first row that satisfies `p`. -/
def findFirst (t : Table ρ) (p : ρ → Bool) : Option ρ := t.rows.find? p

/-- The rows that satisfy `p`. -/
def findMany (t : Table ρ) (p : ρ → Bool) : List ρ := t.rows.filter p

@[simp] theorem mem_findMany {t : Table ρ} {p : ρ → Bool} {r : ρ} :
    r ∈ t.findMany p ↔ r ∈ t ∧ p r = true := List.mem_filter

theorem mem_of_findFirst {t : Table ρ} {p : ρ → Bool} {r : ρ} (h : t.findFirst p = some r) :
    r ∈ t ∧ p r = true := ⟨List.mem_of_find?_eq_some h, List.find?_some h⟩

/-- The sum of a weight over the rows. -/
def sum (w : ρ → ℤ) (t : Table ρ) : ℤ := (t.rows.map w).sum

@[simp] theorem sum_empty (w : ρ → ℤ) : sum w (empty : Table ρ) = 0 := rfl

section Lookup

variable [DecidableEq κ]

/-- The row with a given key. -/
def get? (t : Table ρ) (k : κ) : Option ρ := t.findFirst fun r => key r = k

@[simp] theorem get?_empty (k : κ) : (empty : Table ρ).get? k = none := rfl

theorem get?_eq_some {t : Table ρ} {k : κ} {r : ρ} : t.get? k = some r ↔ r ∈ t ∧ key r = k := by
  constructor
  · intro h
    obtain ⟨hmem, hkey⟩ := mem_of_findFirst h
    exact ⟨hmem, by simpa using hkey⟩
  · rintro ⟨hmem, rfl⟩
    cases hf : t.get? (key r) with
    | none =>
      have := List.find?_eq_none.mp hf r hmem
      simp at this
    | some r' =>
      obtain ⟨hmem', hkey⟩ := mem_of_findFirst hf
      rw [eq_of_key hmem' hmem (by simpa using hkey)]

theorem get?_key {t : Table ρ} {r : ρ} (h : r ∈ t) : t.get? (key r) = some r :=
  get?_eq_some.mpr ⟨h, rfl⟩

theorem get?_eq_none {t : Table ρ} {k : κ} : t.get? k = none ↔ ∀ r ∈ t, key r ≠ k := by
  simp [get?, findFirst, List.find?_eq_none, mem_def]

/-- **A filter that implies a value of the key is a lookup by that key.** -/
theorem findFirst_eq_get? {t : Table ρ} {p : ρ → Bool} {k : κ}
    (hp : ∀ r, p r = true → key r = k) : t.findFirst p = (t.get? k).filter p := by
  cases hf : t.findFirst p with
  | some r =>
    obtain ⟨hmem, hpr⟩ := mem_of_findFirst hf
    rw [get?_eq_some.mpr ⟨hmem, hp r hpr⟩]
    simp [Option.filter, hpr]
  | none =>
    cases hg : t.get? k with
    | none => rfl
    | some r =>
      have := List.find?_eq_none.mp hf r (get?_eq_some.mp hg).1
      simp [Option.filter, this]

/-! ### Insertion -/

/-- A new row, whose key must be free. -/
def insert (t : Table ρ) (r : ρ) (h : t.get? (key r) = none) : Table ρ where
  rows := t.rows ++ [r]
  nodup := by
    rw [List.map_append, List.nodup_append]
    refine ⟨t.nodup, by simp, ?_⟩
    intro k hk k' hk' hkk
    obtain ⟨r', hr', rfl⟩ := List.mem_map.mp hk
    simp only [List.map_cons, List.map_nil, List.mem_singleton] at hk'
    exact get?_eq_none.mp h r' hr' (hkk.trans hk')

theorem mem_insert {t : Table ρ} {r x : ρ} {h : t.get? (key r) = none} :
    x ∈ t.insert r h ↔ x ∈ t ∨ x = r := by
  simp [mem_def, insert]

theorem get?_insert {t : Table ρ} {r : ρ} (h : t.get? (key r) = none) (k : κ) :
    (t.insert r h).get? k = if k = key r then some r else t.get? k := by
  split
  · next hk => subst hk; exact get?_eq_some.mpr ⟨mem_insert.mpr (Or.inr rfl), rfl⟩
  · next hk =>
    cases hg : t.get? k with
    | some x =>
      obtain ⟨hx, hxk⟩ := get?_eq_some.mp hg
      exact get?_eq_some.mpr ⟨mem_insert.mpr (Or.inl hx), hxk⟩
    | none =>
      rw [get?_eq_none] at hg ⊢
      intro x hx
      rcases mem_insert.mp hx with hx | rfl
      · exact hg x hx
      · exact fun h => hk h.symm

/-- What is inserted has a key of its own, so every row that was there is still read. -/
theorem get?_insert_of_some {t : Table ρ} {r x : ρ} {k : κ} (h : t.get? (key r) = none)
    (hx : t.get? k = some x) : (t.insert r h).get? k = some x := by
  rw [get?_insert, if_neg, hx]
  rintro rfl
  rw [h] at hx
  cases hx

theorem findMany_insert {t : Table ρ} {r : ρ} (h : t.get? (key r) = none) (p : ρ → Bool) :
    (t.insert r h).findMany p = t.findMany p ++ if p r then [r] else [] := by
  simp only [findMany, insert, List.filter_append]
  cases hp : p r <;> simp [hp]

/-! ### Replacement -/

/-- The row with `r`'s key becomes `r`; no effect when there is none. -/
def put (t : Table ρ) (r : ρ) : Table ρ where
  rows := t.rows.map fun x => if key x = key r then r else x
  nodup := by
    have hmap : (t.rows.map fun x => if key x = key r then r else x).map key = t.rows.map key := by
      rw [List.map_map]
      refine List.map_congr_left fun x _ => ?_
      by_cases hx : key x = key r <;> simp [hx]
    rw [hmap]
    exact t.nodup

theorem mem_put {t : Table ρ} {r x : ρ} :
    x ∈ t.put r ↔ (x ∈ t ∧ key x ≠ key r) ∨ (x = r ∧ ∃ y ∈ t, key y = key r) := by
  simp only [mem_def, put, List.mem_map]
  constructor
  · rintro ⟨y, hy, rfl⟩
    by_cases hk : key y = key r
    · rw [if_pos hk]; exact Or.inr ⟨rfl, y, hy, hk⟩
    · rw [if_neg hk]; exact Or.inl ⟨hy, hk⟩
  · rintro (⟨hx, hk⟩ | ⟨rfl, y, hy, hk⟩)
    · exact ⟨x, hx, by simp [hk]⟩
    · exact ⟨y, hy, if_pos hk⟩

/-- **Replacing a row that is there**, read through `get?`. -/
theorem get?_put {t : Table ρ} {r o : ρ} (h : t.get? (key r) = some o) (k : κ) :
    (t.put r).get? k = if k = key r then some r else t.get? k := by
  obtain ⟨ho, hk₀⟩ := get?_eq_some.mp h
  split
  · next hk =>
    rw [hk]
    exact get?_eq_some.mpr ⟨mem_put.mpr (Or.inr ⟨rfl, o, ho, hk₀⟩), rfl⟩
  · next hk =>
    cases hg : t.get? k with
    | some x =>
      obtain ⟨hx, hxk⟩ := get?_eq_some.mp hg
      exact get?_eq_some.mpr ⟨mem_put.mpr (Or.inl ⟨hx, hxk ▸ hk⟩), hxk⟩
    | none =>
      rw [get?_eq_none] at hg ⊢
      intro x hx
      rcases mem_put.mp hx with ⟨hx, -⟩ | ⟨rfl, -⟩
      · exact hg x hx
      · exact fun h => hk h.symm

/-- Replacing a row by one that a filter treats alike maps the filtered rows. -/
theorem findMany_put {t : Table ρ} {r o : ρ} (h : t.get? (key r) = some o) {p : ρ → Bool}
    (hp : p r = p o) :
    (t.put r).findMany p = (t.findMany p).map fun x => if key x = key r then r else x := by
  simp only [findMany, put, List.filter_map]
  congr 1
  refine List.filter_congr fun x hx => ?_
  by_cases hk : key x = key r
  · have : x = o := eq_of_key hx (get?_eq_some.mp h).1 (hk.trans (get?_eq_some.mp h).2.symm)
    have hx' : (if key x = key r then r else x) = r := if_pos hk
    rw [Function.comp, hx', hp, this]
  · simp [Function.comp, hk]

/-! ### Updates of many rows -/

/-- Every row that satisfies `p` becomes `f` of itself; `f` may not change the
key. -/
def updateMany (t : Table ρ) (p : ρ → Bool) (f : ρ → ρ) (hf : ∀ r, key (f r) = key r) :
    Table ρ where
  rows := t.rows.map fun r => if p r then f r else r
  nodup := by
    have hmap : (t.rows.map fun r => if p r then f r else r).map key = t.rows.map key := by
      rw [List.map_map]
      refine List.map_congr_left fun r _ => ?_
      by_cases hr : p r <;> simp [hr, hf]
    rw [hmap]
    exact t.nodup

section UpdateMany

variable {t : Table ρ} {p : ρ → Bool} {f : ρ → ρ} {hf : ∀ r, key (f r) = key r}

omit [DecidableEq κ] in
theorem mem_updateMany {x : ρ} :
    x ∈ t.updateMany p f hf ↔ ∃ r ∈ t, (if p r then f r else r) = x := List.mem_map

theorem get?_updateMany (k : κ) :
    (t.updateMany p f hf).get? k = (t.get? k).map fun r => if p r then f r else r := by
  have hkey : ∀ r, key (if p r then f r else r) = key r := by
    intro r
    split
    · exact hf r
    · rfl
  cases hg : t.get? k with
  | some r =>
    obtain ⟨hr, hk⟩ := get?_eq_some.mp hg
    exact get?_eq_some.mpr ⟨mem_updateMany.mpr ⟨r, hr, rfl⟩, (hkey r).trans hk⟩
  | none =>
    rw [get?_eq_none] at hg
    rw [Option.map_none, get?_eq_none]
    intro x hx
    obtain ⟨r, hr, hrx⟩ := mem_updateMany.mp hx
    rw [← hrx, hkey]
    exact hg r hr

omit [DecidableEq κ] in
/-- An update that a filter does not notice maps the filtered rows. -/
theorem findMany_updateMany {q : ρ → Bool} (hq : ∀ r, q (f r) = q r) :
    (t.updateMany p f hf).findMany q = (t.findMany q).map fun r => if p r then f r else r := by
  simp only [findMany, updateMany, List.filter_map]
  congr 1
  refine List.filter_congr fun r _ => ?_
  by_cases hr : p r <;> simp [Function.comp, hr, hq]

end UpdateMany

/-! ### Writing and deleting by key -/

/-- The row with `r`'s key becomes `r`, or `r` is added when there is none. -/
def upsert (t : Table ρ) (r : ρ) : Table ρ :=
  if h : t.get? (key r) = none then t.insert r h else t.put r

theorem get?_upsert (t : Table ρ) (r : ρ) (k : κ) :
    (t.upsert r).get? k = if k = key r then some r else t.get? k := by
  unfold upsert
  split
  · next h => exact get?_insert h k
  · next h =>
    obtain ⟨o, ho⟩ := Option.ne_none_iff_exists'.mp h
    exact get?_put ho k

theorem upsert_of_none {t : Table ρ} {r : ρ} (h : t.get? (key r) = none) :
    t.upsert r = t.insert r h := dif_pos h

theorem upsert_of_some {t : Table ρ} {r o : ρ} (h : t.get? (key r) = some o) :
    t.upsert r = t.put r := dif_neg (by simp [h])

theorem mem_upsert {t : Table ρ} {r x : ρ} :
    x ∈ t.upsert r ↔ (x ∈ t ∧ key x ≠ key r) ∨ x = r := by
  rw [← and_iff_left (a := x ∈ t.upsert r) (rfl : key x = key x), ← get?_eq_some, get?_upsert]
  by_cases hk : key x = key r
  · rw [if_pos hk, Option.some_inj, eq_comm]
    simp [hk]
  · have hne : x ≠ r := fun h => hk (congrArg key h)
    rw [if_neg hk, get?_eq_some]
    simp [hk, hne]

/-- The rows that satisfy `p` are deleted. -/
def deleteMany (t : Table ρ) (p : ρ → Bool) : Table ρ where
  rows := t.rows.filter fun r => !p r
  nodup := t.nodup.sublist (List.filter_sublist.map key)

omit [DecidableEq κ] in
theorem mem_deleteMany {t : Table ρ} {p : ρ → Bool} {r : ρ} :
    r ∈ t.deleteMany p ↔ r ∈ t ∧ p r = false := by
  simp [mem_def, deleteMany]

theorem get?_deleteMany (t : Table ρ) (p : ρ → Bool) (k : κ) :
    (t.deleteMany p).get? k = (t.get? k).filter fun r => !p r := by
  cases hg : t.get? k with
  | none =>
    rw [Option.filter_none, get?_eq_none]
    rw [get?_eq_none] at hg
    intro r hr
    exact hg r (mem_deleteMany.mp hr).1
  | some r =>
    obtain ⟨hr, hk⟩ := get?_eq_some.mp hg
    cases hp : p r with
    | true =>
      rw [Option.filter_some, hp]
      refine get?_eq_none.mpr fun x hx hxk => ?_
      obtain ⟨hx, hpx⟩ := mem_deleteMany.mp hx
      rw [eq_of_key hx hr (hxk.trans hk.symm), hp] at hpx
      cases hpx
    | false =>
      rw [Option.filter_some, hp]
      exact get?_eq_some.mpr ⟨mem_deleteMany.mpr ⟨hr, hp⟩, hk⟩

/-! ### Rows seen as other rows -/

section Map

variable {σ : Type*} [Keyed σ κ] {f : ρ → σ} {hf : ∀ r, key (f r) = key r}

omit [DecidableEq κ] in
/-- The rows as a function that keeps the keys shows them. -/
def map (t : Table ρ) (f : ρ → σ) (hf : ∀ r, key (f r) = key r) : Table σ where
  rows := t.rows.map f
  nodup := by
    have hmap : (t.rows.map f).map key = t.rows.map key := by
      rw [List.map_map]
      exact List.map_congr_left fun r _ => hf r
    rw [hmap]
    exact t.nodup

theorem get?_map (t : Table ρ) (k : κ) : (t.map f hf).get? k = (t.get? k).map f := by
  simp only [get?, findFirst, map, List.find?_map, Function.comp_def, hf]

theorem map_upsert (t : Table ρ) (r : ρ) :
    (t.upsert r).map f hf = (t.map f hf).upsert (f r) := by
  cases hr : t.get? (key r) with
  | none =>
    have hr' : (t.map f hf).get? (key (f r)) = none := by rw [hf, get?_map, hr, Option.map_none]
    rw [upsert_of_none hr, upsert_of_none hr']
    exact Table.ext (List.map_append ..)
  | some o =>
    have hr' : (t.map f hf).get? (key (f r)) = some (f o) := by
      rw [hf, get?_map, hr, Option.map_some]
    rw [upsert_of_some hr, upsert_of_some hr']
    refine Table.ext ?_
    simp only [map, put, List.map_map]
    refine List.map_congr_left fun x _ => ?_
    by_cases hx : key x = key r <;> simp [hx, hf]

omit [DecidableEq κ] in
theorem map_deleteMany (t : Table ρ) {p : ρ → Bool} {q : σ → Bool} (h : ∀ r, q (f r) = p r) :
    (t.deleteMany p).map f hf = (t.map f hf).deleteMany q := by
  refine Table.ext ?_
  simp only [map, deleteMany, List.filter_map]
  congr 1
  exact List.filter_congr fun r _ => by simp [h]

end Map

/-! ### Sums over a table -/

theorem sum_insert {w : ρ → ℤ} {t : Table ρ} {r : ρ} (h : t.get? (key r) = none) :
    sum w (t.insert r h) = sum w t + w r := by
  simp [sum, insert]

/-- **Replacing a row changes a sum by the difference of the two weights.** -/
theorem sum_put {w : ρ → ℤ} {t : Table ρ} {r o : ρ} (h : t.get? (key r) = some o) :
    sum w (t.put r) = sum w t - w o + w r := by
  obtain ⟨ho, hk₀⟩ := get?_eq_some.mp h
  obtain ⟨l₁, l₂, hl⟩ := List.append_of_mem ho
  have hnd := t.nodup
  rw [hl, List.map_append, List.map_cons, List.nodup_append, List.nodup_cons] at hnd
  obtain ⟨-, ⟨hr₂, -⟩, hr₁⟩ := hnd
  have hfix : ∀ l : List ρ, (∀ x ∈ l, key x ≠ key r) →
      (l.map fun x => if key x = key r then r else x) = l := by
    intro l hl
    refine (List.map_congr_left fun x hx => ?_).trans (List.map_id _)
    simp [hl x hx]
  have h₁ : ∀ x ∈ l₁, key x ≠ key r := fun x hx he =>
    hr₁ _ (List.mem_map_of_mem hx) _ List.mem_cons_self (he.trans hk₀.symm)
  have h₂ : ∀ x ∈ l₂, key x ≠ key r := fun x hx he =>
    hr₂ (List.mem_map.mpr ⟨x, hx, he.trans hk₀.symm⟩)
  simp only [sum, put, hl, List.map_append, List.map_cons, hfix l₁ h₁, hfix l₂ h₂, hk₀, if_true,
    List.sum_append, List.sum_cons]
  ring

/-! ### Agreement on part of the rows -/

/-- Two tables with the same rows among those that satisfy `p`. -/
def AgreeOn (p : ρ → Prop) (t t' : Table ρ) : Prop := ∀ r, p r → (r ∈ t ↔ r ∈ t')

section AgreeOn

variable {p : ρ → Prop} {t t' t'' : Table ρ}

omit [DecidableEq κ] in
theorem AgreeOn.refl (p : ρ → Prop) (t : Table ρ) : AgreeOn p t t := fun _ _ => Iff.rfl

omit [DecidableEq κ] in
theorem AgreeOn.symm (h : AgreeOn p t t') : AgreeOn p t' t := fun r hr => (h r hr).symm

omit [DecidableEq κ] in
theorem AgreeOn.trans (h : AgreeOn p t t') (h' : AgreeOn p t' t'') : AgreeOn p t t'' :=
  fun r hr => (h r hr).trans (h' r hr)

omit [DecidableEq κ] in
theorem AgreeOn.congr {q : ρ → Prop} (h : AgreeOn p t t') (hpq : ∀ r, q r → p r) :
    AgreeOn q t t' := fun r hr => h r (hpq r hr)

theorem AgreeOn.get?_of_some (h : AgreeOn p t t') {k : κ} {r : ρ} (hr : t.get? k = some r)
    (hp : p r) : t'.get? k = some r := by
  obtain ⟨hmem, hkey⟩ := get?_eq_some.mp hr
  exact get?_eq_some.mpr ⟨(h r hp).mp hmem, hkey⟩

/-- A lookup that finds such a row finds it in both. -/
theorem AgreeOn.get?_eq (h : AgreeOn p t t') {k : κ} (hr : ∃ r, t.get? k = some r ∧ p r) :
    t.get? k = t'.get? k := by
  obtain ⟨r, hr, hp⟩ := hr
  rw [hr, h.get?_of_some hr hp]

omit [DecidableEq κ] in
/-- A filter that holds of one such row at most finds the same in both. -/
theorem AgreeOn.findFirst_eq (h : AgreeOn p t t') {q : ρ → Bool} (hq : ∀ r, q r = true → p r)
    (huniq : ∀ r ∈ t', ∀ s ∈ t', q r = true → q s = true → r = s) :
    t.findFirst q = t'.findFirst q := by
  cases hf : t.findFirst q with
  | some r =>
    obtain ⟨hr, hqr⟩ := mem_of_findFirst hf
    have hr' := (h r (hq r hqr)).mp hr
    cases hf' : t'.findFirst q with
    | some s =>
      obtain ⟨hs, hqs⟩ := mem_of_findFirst hf'
      rw [huniq r hr' s hs hqr hqs]
    | none => exact absurd hqr (List.find?_eq_none.mp hf' r hr')
  | none =>
    refine (List.find?_eq_none.mpr fun r hr hqr => ?_).symm
    exact List.find?_eq_none.mp hf r ((h r (hq r hqr)).mpr hr) hqr

omit [DecidableEq κ] in
/-- **Filters that select such rows only select the same rows.** -/
theorem AgreeOn.findMany_perm (h : AgreeOn p t t') {q q' : ρ → Bool}
    (hq : ∀ r ∈ t, q r = true → p r) (hq' : ∀ r ∈ t', q' r = true → p r)
    (hqq' : ∀ r ∈ t, p r → q r = q' r) : (t.findMany q).Perm (t'.findMany q') := by
  have hnd : (t.findMany q).Nodup := (t.nodup.of_map key).filter q
  have hnd' : (t'.findMany q').Nodup := (t'.nodup.of_map key).filter q'
  rw [List.perm_ext_iff_of_nodup hnd hnd']
  intro r
  rw [mem_findMany, mem_findMany]
  constructor
  · rintro ⟨hr, hqr⟩
    have hp := hq r hr hqr
    exact ⟨(h r hp).mp hr, hqq' r hr hp ▸ hqr⟩
  · rintro ⟨hr, hqr⟩
    have hp := hq' r hr hqr
    have hr := (h r hp).mpr hr
    exact ⟨hr, (hqq' r hr hp).trans hqr⟩

/-- Replacing such a row in both. -/
theorem AgreeOn.put (h : AgreeOn p t t') {r o : ρ} (ho : t.get? (key r) = some o) (hp : p o) :
    AgreeOn p (t.put r) (t'.put r) := by
  intro x hx
  have ho' := h.get?_of_some ho hp
  obtain ⟨hmem, hkey⟩ := get?_eq_some.mp ho
  obtain ⟨hmem', -⟩ := get?_eq_some.mp ho'
  have hthere : (∃ y ∈ t, key y = key r) ↔ ∃ y ∈ t', key y = key r :=
    iff_of_true ⟨o, hmem, hkey⟩ ⟨o, hmem', hkey⟩
  rw [mem_put, mem_put, h x hx, hthere]

/-- Replacing another row by another. -/
theorem agreeOn_put {r o : ρ} (ho : t.get? (key r) = some o) (hpo : ¬p o) (hpr : ¬p r) :
    AgreeOn p t (t.put r) := by
  intro x hx
  obtain ⟨hmem, hkey⟩ := get?_eq_some.mp ho
  rw [mem_put]
  constructor
  · intro hxt
    refine Or.inl ⟨hxt, fun hk => hpo ?_⟩
    rw [← eq_of_key hxt hmem (hk.trans hkey.symm)]
    exact hx
  · rintro (⟨hxt, -⟩ | ⟨rfl, -⟩)
    · exact hxt
    · exact absurd hx hpr

/-- Adding one row to both. -/
theorem AgreeOn.insert (h : AgreeOn p t t') {r : ρ} (hr : t.get? (key r) = none)
    (hr' : t'.get? (key r) = none) : AgreeOn p (t.insert r hr) (t'.insert r hr') := by
  intro x hx
  rw [mem_insert, mem_insert, h x hx]

/-- Adding another row. -/
theorem agreeOn_insert {r : ρ} (hr : t.get? (key r) = none) (hp : ¬p r) :
    AgreeOn p t (t.insert r hr) := by
  intro x hx
  rw [mem_insert]
  constructor
  · exact Or.inl
  · rintro (hxt | rfl)
    · exact hxt
    · exact absurd hx hp

/-- Writing another row, over another one if at all. -/
theorem agreeOn_upsert {r : ρ} (ho : ∀ o, t.get? (key r) = some o → ¬p o) (hp : ¬p r) :
    AgreeOn p t (t.upsert r) := by
  cases hget : t.get? (key r) with
  | none =>
    rw [upsert_of_none hget]
    exact agreeOn_insert hget hp
  | some o =>
    rw [upsert_of_some hget]
    exact agreeOn_put hget (ho o hget) hp

end AgreeOn

end Lookup

end Table
