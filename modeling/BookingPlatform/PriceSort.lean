import BookingPlatform.PricedRows
import BookingPlatform.Lib.SortedPages

/-!
# The search by price

A search sorted by price takes every row of the grouped query, prices the experiences
in memory, sorts the rows by these prices and cuts the page out of the result.  Every
page is a request of its own, so each loads the rules and prices all rows again, in
doubles.

## Main definitions

* `SortedByPrice`, `PagedByPrice` — what the pages of a search by price are to be.
* `AnsweredByPrice` — the requests for the pages are answered by such pages.
* `PricesApart` — every price is a number, and no page ends between rows whose prices
  may change places when the rules are loaded in another order.

## Main results

* `sortedByPrice_iff` — items are sorted by price when the rows and prices that they
  show are a sorted listing.
* `answered_iff_pricesApart` — searches that are answered are paged sorts when there is
  one row at most or prices stay apart.
* `price_sort_paged_iff` — when the pages are those of one stable sort of every
  experience on offer.
-/

namespace BookingPlatform

open Paging

/-! ### A paged sort -/

/-- A sort by price: every experience on offer once, by the prices that the items
report, and by the order of the grouped query where these are equal. -/
structure SortedByPrice (rt : Runtime) (grouped : Arrangement Experience) (tenantId : Uuid)
    (query : ExperienceSearchQuery) (db : Database)
    (items : List (ExperienceSearchItem PrintedAmount)) : Prop where
  perm : (items.map ExperienceSearchItem.id).Perm
    ((eligibleExperiences rt tenantId query db).map Experience.id)
  sorted : items.Pairwise fun x y =>
    query.sortOrder.le Float.le x.fromPrice.toNumber y.fromPrice.toNumber = true
  stable : ∀ price : Float, ((items.filter fun item => item.fromPrice.toNumber == price).map
    ExperienceSearchItem.id).Sublist
      ((groupedRows rt grouped tenantId query db).map GroupedExperienceRow.id)

/-- The items of the pages from 1 to `totalPages`, one page after another. -/
def itemsOf (pages : ℕ → List (ExperienceSearchItem PrintedAmount)) (totalPages : ℕ) :
    List (ExperienceSearchItem PrintedAmount) :=
  (List.range totalPages).flatMap pages

/-- A paged sort by price: the items of its pages are sorted, the pages but the last are
full, and there is nothing past the last one. -/
structure PagedByPrice (rt : Runtime) (grouped : Arrangement Experience) (tenantId : Uuid)
    (query : ExperienceSearchQuery) (db : Database)
    (pages : ℕ → List (ExperienceSearchItem PrintedAmount)) (totalPages : ℕ) : Prop where
  items : SortedByPrice rt grouped tenantId query db (itemsOf pages totalPages)
  full : ∀ i, i + 1 < totalPages → (pages i).length = query.pageSize
  past : ∀ i, totalPages ≤ i → pages i = []

/-- The same choices, but for the order of the grouped query. -/
def RowOrder.groupedBy (order : RowOrder) (grouped : Arrangement Experience) : RowOrder :=
  { order with groupedExperiences := grouped }

/-- A request for a page, by the clock `now`. -/
def requestByPrice (rt : Runtime) (grouped : Arrangement Experience) (tenantId : Uuid)
    (query : ExperienceSearchQuery) (db : Database) (now : Instant) (orders : ℕ → RowOrder)
    (page : ℕ) (h : 1 ≤ page) : Except Failure (ExperienceSearchResult PrintedAmount) :=
  searchExperiencesIn .double rt ((orders page).groupedBy grouped) tenantId
    (query.onPage page h) db now

/-- The requests are answered by the pages of a paged sort by price. -/
def AnsweredByPrice (rt : Runtime) (grouped : Arrangement Experience) (tenantId : Uuid)
    (query : ExperienceSearchQuery) (db : Database) (now : Instant) (orders : ℕ → RowOrder) :
    Prop :=
  ∃ pages totalItems,
    (∀ i, requestByPrice rt grouped tenantId query db now orders (i + 1) (Nat.succ_pos i) =
      .ok ⟨pages i, ⟨i + 1, query.pageSize, totalItems, totalPages totalItems query.pageSize⟩⟩) ∧
    PagedByPrice rt grouped tenantId query db pages (totalPages totalItems query.pageSize)

/-- Every price is a number, and no page ends between rows whose prices may change places:
the rows that fit on the pages before cost less than the others, or as much and come
earlier in the grouped query, in whatever orders the rules are loaded. -/
structure PricesApart (rt : Runtime) (grouped : Arrangement Experience) (tenantId : Uuid)
    (query : ExperienceSearchQuery) (db : Database) (now : Instant) : Prop where
  numbers : ∀ row ∈ groupedRows rt grouped tenantId query db, ∀ rules,
    ∀ price ∈ row.slotPrices rt tenantId query db now rules, price.isNaN = false
  separated : Separated (query.sortOrder.le fun p q => p ≤ q)
    (fun rules row => row.leastPrice rt tenantId query db now rules) query.pageSize
    (groupedRows rt grouped tenantId query db)

/-! ### The pages -/

section Pages

variable {rt : Runtime} {grouped : Arrangement Experience} {tenantId : Uuid}
  {query : ExperienceSearchQuery} {db : Database} {now : Instant}

/-- A page of a search by price, counted from 0. -/
def pricedPage (query : ExperienceSearchQuery) (fromPrice : Uuid → Option PrintedAmount)
    (rows : List GroupedExperienceRow) (i : ℕ) : List (ExperienceSearchItem PrintedAmount) :=
  (page query.pageSize i (sortByPrice .double query fromPrice rows)).map fun row =>
    row.toItem .double query.partySize fromPrice

theorem length_sortByPrice (fromPrice : Uuid → Option PrintedAmount)
    (rows : List GroupedExperienceRow) :
    (sortByPrice .double query fromPrice rows).length = rows.length :=
  length_orderBy rows

/-- What a request for a page is answered. -/
theorem requestByPrice_ok (hsort : query.sortBy = .price)
    (hmatch : matchingExperiences rt {} tenantId query db ≠ []) {orders : ℕ → RowOrder} {page : ℕ}
    {h : 1 ≤ page} {result : ExperienceSearchResult PrintedAmount} :
    requestByPrice rt grouped tenantId query db now orders page h = .ok result ↔
      ∃ startAt endAt fromPrice, parseUtcDate rt.rollsOver query.startDate = some startAt ∧
        endDateExclusive rt.rollsOver query.endDate = some endAt ∧
        (firstTimestamp ≤ startAt ∧ firstTimestamp ≤ endAt) ∧
        PlacesCounted (orders page) tenantId startAt endAt
          (experienceIds rt (orders page) tenantId query db) db ∧
        fromPriceByExperienceId .double ((orders page).groupedBy grouped) tenantId
          query.partySize (query.slotFilter rt tenantId)
          (experienceIds rt (orders page) tenantId query db) db now = .ok fromPrice ∧
        result = ⟨pricedPage query fromPrice (groupedRows rt grouped tenantId query db) (page - 1),
          ⟨page, query.pageSize, (groupedRows rt grouped tenantId query db).length,
            totalPages (groupedRows rt grouped tenantId query db).length query.pageSize⟩⟩ := by
  have hids : experienceIds rt ((orders page).groupedBy grouped) tenantId
      (query.onPage page h) db ≠ [] := mt experienceIds_eq_nil.mp hmatch
  have hprice : (query.onPage page h).sortBy = .price := hsort
  have hpriced : ∀ ids rows, pageExperienceIds (query.onPage page h) ids rows = ids :=
    fun _ _ => if_pos hprice
  have hresult : ∀ rows fromPrice, searchResult .double (query.onPage page h) rows fromPrice =
      ⟨pricedPage query fromPrice rows (page - 1),
        ⟨page, query.pageSize, rows.length, totalPages rows.length query.pageSize⟩⟩ := by
    intro rows fromPrice
    unfold searchResult pageRows limitRows
    rw [if_pos hprice, if_pos hprice]
    rfl
  rw [requestByPrice, searchExperiencesIn_ok hids]
  refine exists_congr fun startAt => exists_congr fun endAt => exists_congr fun fromPrice =>
    and_congr_right fun hstart => and_congr_right fun hend => and_congr_right fun _ =>
      and_congr_right fun _ => ?_
  have hrows : selectedRows rt ((orders page).groupedBy grouped) tenantId
      (query.onPage page h) db startAt endAt = groupedRows rt grouped tenantId query db := by
    have hgrouped : groupedRows rt grouped tenantId query db = _ := groupedRows_eq hstart hend
    rw [hgrouped, selectedRows_eq, selectedRows_eq]
    rfl
  have hfilter : query.slotFilter rt tenantId = _ := slotFilter_eq hstart hend
  rw [hpriced, hresult, hrows, hfilter]
  rfl

/-- When nothing matches, the dates are not read. -/
theorem answeredByPrice_nil (hmatch : matchingExperiences rt {} tenantId query db = [])
    (orders : ℕ → RowOrder) : AnsweredByPrice rt grouped tenantId query db now orders := by
  have heligible : eligibleExperiences rt tenantId query db = [] := by
    rw [eligibleExperiences_eq, hmatch, List.filter_nil]
  refine ⟨fun _ => [], 0, fun i => ?_, ⟨?_, fun i hi => ?_, fun _ _ => rfl⟩⟩
  · have hids : experienceIds rt ((orders (i + 1)).groupedBy grouped) tenantId
        (query.onPage (i + 1) (Nat.succ_pos i)) db = [] := experienceIds_eq_nil.mpr hmatch
    exact searchExperiencesIn_nil hids
  · refine ⟨?_, List.Pairwise.nil, fun _ => List.nil_sublist _⟩
    rw [heligible]
    exact List.Perm.refl []
  · exact absurd hi (Nat.not_lt_zero _)

/-- Requests that are answered are answered by the pages they sort. -/
theorem answeredByPrice_iff (hsort : query.sortBy = .price)
    (hmatch : matchingExperiences rt {} tenantId query db ≠ [])
    (hanswer : query.Answerable rt tenantId db) {orders : ℕ → RowOrder}
    {fromPrice : ℕ → Uuid → Option PrintedAmount}
    (h : ∀ page, fromPriceByExperienceId .double
      ((orders page).groupedBy grouped) tenantId query.partySize
      (query.slotFilter rt tenantId) (experienceIds rt (orders page) tenantId query db) db now
        = .ok (fromPrice page)) :
    AnsweredByPrice rt grouped tenantId query db now orders ↔
      SortedByPrice rt grouped tenantId query db
        (itemsOf (fun i => pricedPage query (fromPrice (i + 1))
            (groupedRows rt grouped tenantId query db) i)
          (totalPages (groupedRows rt grouped tenantId query db).length query.pageSize)) := by
  obtain ⟨startAt, endAt, hstart, hend, hsent, hcounted⟩ :=
    ExperienceSearchQuery.answerable_iff.mp hanswer
  have hok : ∀ i, requestByPrice rt grouped tenantId query db now orders (i + 1) (Nat.succ_pos i) =
      .ok ⟨pricedPage query (fromPrice (i + 1)) (groupedRows rt grouped tenantId query db) i,
        ⟨i + 1, query.pageSize, (groupedRows rt grouped tenantId query db).length,
          totalPages (groupedRows rt grouped tenantId query db).length query.pageSize⟩⟩ :=
    fun i => (requestByPrice_ok hsort hmatch).mpr ⟨startAt, endAt, fromPrice (i + 1), hstart, hend,
      hsent, hcounted _ _, h (i + 1), rfl⟩
  constructor
  · rintro ⟨pages, totalItems, hrequests, hpaged⟩
    -- the answers are the pages and the number of rows
    have hanswers := fun i => Except.ok.inj ((hrequests i).symm.trans (hok i))
    simp only [ExperienceSearchResult.mk.injEq, Pagination.mk.injEq, true_and] at hanswers
    obtain rfl : pages = _ := funext fun i => (hanswers i).1
    obtain ⟨rfl, -⟩ := (hanswers 0).2
    exact hpaged.items
  · intro hitems
    refine ⟨_, _, hok, hitems, fun i hi => ?_, fun i hi => ?_⟩
    · rw [totalPages_eq query.one_le_pageSize] at hi
      rw [pricedPage, List.length_map]
      refine length_page query.one_le_pageSize ?_
      rwa [length_sortByPrice]
    · rw [totalPages_eq query.one_le_pageSize] at hi
      rw [pricedPage, page_eq_nil query.one_le_pageSize (by rwa [length_sortByPrice]), List.map_nil]

end Pages

/-! ### Items and listings -/

/-- Rows told apart by a key are a part of a list when their keys are. -/
theorem sublist_map_iff {α ι : Type} {key : α → ι} {l rows : List α} (h : (rows.map key).Nodup)
    (hsub : ∀ x ∈ l, x ∈ rows) : (l.map key).Sublist (rows.map key) ↔ l.Sublist rows := by
  refine ⟨fun hl => ?_, fun hl => hl.map key⟩
  obtain ⟨l', hl', hmap⟩ := List.sublist_map_iff.mp hl
  have hinj : ∀ (l l' : List α), (∀ x ∈ l, x ∈ rows) → (∀ x ∈ l', x ∈ rows) →
      l.map key = l'.map key → l = l' := by
    intro l
    induction l with
    | nil =>
      intro l' _ _ hmap
      exact (List.map_eq_nil_iff.mp hmap.symm).symm
    | cons x l ih =>
      intro l' hl hl' hmap
      cases l' with
      | nil => cases hmap
      | cons y l' =>
        rw [List.map_cons, List.map_cons, List.cons.injEq] at hmap
        have hxy := List.inj_on_of_nodup_map h (hl x List.mem_cons_self) (hl' y List.mem_cons_self)
          hmap.1
        rw [hxy, ih l' (fun z hz => hl z (List.mem_cons_of_mem x hz))
          (fun z hz => hl' z (List.mem_cons_of_mem y hz)) hmap.2]
  rwa [hinj l l' hsub (fun x hx => hl'.subset hx) hmap]

/-- What a sort by price concerns of an item: its experience, and the place of its price. -/
def priceTag (item : ExperienceSearchItem PrintedAmount) : Uuid × Option Double.Rank :=
  (item.id, Double.rank item.fromPrice.toNumber)

/-- What a listing of rows and prices says of a row. -/
def listedTag (p : GroupedExperienceRow × Double.Rank) : Uuid × Option Double.Rank :=
  (p.1.id, some p.2)

theorem SortOrder.le_floats (order : SortOrder) {x y : Float} {r s : Double.Rank}
    (hx : Double.rank x = some r) (hy : Double.rank y = some s) :
    order.le Float.le x y = order.le (fun p q => decide (p ≤ q)) r s := by
  have hle : ∀ {x y : Float} {r s : Double.Rank}, Double.rank x = some r →
      Double.rank y = some s → x.le y = decide (r ≤ s) := by
    intro x y r s hx hy
    rw [Bool.eq_iff_iff, Double.le_iff, hx, hy]
    simp
  cases order with
  | asc => exact hle hx hy
  | desc => exact hle hy hx

theorem SortOrder.le_and_le_iff (order : SortOrder) {r s : Double.Rank} :
    (order.le (fun p q => decide (p ≤ q)) r s && order.le (fun p q => decide (p ≤ q)) s r) = true ↔
      r = s := by
  rw [Bool.and_eq_true]
  cases order with
  | asc =>
    simp only [SortOrder.le, decide_eq_true_eq]
    exact le_antisymm_iff.symm
  | desc =>
    simp only [SortOrder.le, decide_eq_true_eq]
    rw [and_comm]
    exact le_antisymm_iff.symm

section Listings

variable {order : SortOrder} {items : List (ExperienceSearchItem PrintedAmount)}
  {listed : List (GroupedExperienceRow × Double.Rank)} {rows : List GroupedExperienceRow}

theorem exists_tag (htags : items.map priceTag = listed.map listedTag)
    {item : ExperienceSearchItem PrintedAmount} (hitem : item ∈ items) :
    ∃ p ∈ listed, Double.rank item.fromPrice.toNumber = some p.2 := by
  have hmem : priceTag item ∈ listed.map listedTag := htags ▸ List.mem_map_of_mem hitem
  obtain ⟨p, hp, htag⟩ := List.mem_map.mp hmem
  exact ⟨p, hp, (Prod.ext_iff.mp htag).2.symm⟩

/-- The items of one price. -/
theorem filter_items_of_tags (htags : items.map priceTag = listed.map listedTag) {price : Float}
    {r : Double.Rank} (hprice : Double.rank price = some r) :
    (items.filter fun item => item.fromPrice.toNumber == price).map ExperienceSearchItem.id =
      ((listed.filter fun p => order.le (fun p q => decide (p ≤ q)) p.2 r &&
        order.le (fun p q => decide (p ≤ q)) r p.2).map Prod.fst).map GroupedExperienceRow.id := by
  -- both are the tags of that price
  have hitems : items.filter (fun item => item.fromPrice.toNumber == price) =
      items.filter ((fun t => t.2 = some r) ∘ priceTag) := by
    refine List.filter_congr fun item _ => ?_
    rw [Bool.eq_iff_iff, Double.beq_iff, hprice]
    simp [priceTag, eq_comm]
  have hlisted : (listed.filter fun p => order.le (fun p q => decide (p ≤ q)) p.2 r &&
      order.le (fun p q => decide (p ≤ q)) r p.2) =
      listed.filter ((fun t => t.2 = some r) ∘ listedTag) := by
    refine List.filter_congr fun p _ => ?_
    rw [Bool.eq_iff_iff, order.le_and_le_iff]
    simp [listedTag]
  have hmap := congrArg (fun tags => (tags.filter fun t => decide (t.2 = some r)).map Prod.fst)
    htags
  simp only [List.filter_map, List.map_map] at hmap
  rw [hitems, hlisted, List.map_map]
  exact hmap

theorem items_ids_of_tags (htags : items.map priceTag = listed.map listedTag) :
    items.map ExperienceSearchItem.id = (listed.map Prod.fst).map GroupedExperienceRow.id := by
  have hmap := congrArg (List.map Prod.fst) htags
  rw [List.map_map, List.map_map] at hmap
  rw [List.map_map]
  exact hmap

/-- Items are sorted when the prices of the listing are. -/
theorem items_sorted_iff (order : SortOrder) (htags : items.map priceTag = listed.map listedTag) :
    (items.Pairwise fun x y =>
      order.le Float.le x.fromPrice.toNumber y.fromPrice.toNumber = true) ↔
        listed.Pairwise fun p q => order.le (fun p q => decide (p ≤ q)) p.2 q.2 = true := by
  have htagged : (items.map priceTag).Pairwise (fun s t => ∀ r ∈ s.2, ∀ r' ∈ t.2,
      order.le (fun p q => decide (p ≤ q)) r r' = true) ↔
      (listed.map listedTag).Pairwise fun s t => ∀ r ∈ s.2, ∀ r' ∈ t.2,
        order.le (fun p q => decide (p ≤ q)) r r' = true := by
    rw [htags]
  rw [List.pairwise_map, List.pairwise_map] at htagged
  refine Iff.trans (List.Pairwise.iff_of_mem fun {x y} hx hy => ?_) (htagged.trans ?_)
  · obtain ⟨p, -, hp⟩ := exists_tag htags hx
    obtain ⟨q, -, hq⟩ := exists_tag htags hy
    rw [order.le_floats hp hq, priceTag, priceTag, hp, hq]
    simp
  · refine List.Pairwise.iff fun p q => ?_
    simp [listedTag]

/-- Items of one price stay in the order of the rows when those of the listing do. -/
theorem items_stable_iff (order : SortOrder) (htags : items.map priceTag = listed.map listedTag)
    (hmem : ∀ p ∈ listed, p.1 ∈ rows) (hnodup : (rows.map GroupedExperienceRow.id).Nodup) :
    (∀ price : Float, ((items.filter fun item => item.fromPrice.toNumber == price).map
      ExperienceSearchItem.id).Sublist (rows.map GroupedExperienceRow.id)) ↔
      ∀ r, ((listed.filter fun p => order.le (fun p q => decide (p ≤ q)) p.2 r &&
        order.le (fun p q => decide (p ≤ q)) r p.2).map Prod.fst).Sublist rows := by
  have hsub : ∀ f : GroupedExperienceRow × Double.Rank → Bool,
      ∀ row ∈ (listed.filter f).map Prod.fst, row ∈ rows := by
    intro f row hrow
    obtain ⟨p, hp, rfl⟩ := List.mem_map.mp hrow
    exact hmem p (List.mem_of_mem_filter hp)
  constructor
  · intro h r
    rw [← sublist_map_iff hnodup (hsub _)]
    by_cases hr : ∃ item ∈ items, Double.rank item.fromPrice.toNumber = some r
    · obtain ⟨item, -, hitem⟩ := hr
      rw [← filter_items_of_tags htags hitem]
      exact h _
    · -- no item has this price
      rw [List.filter_eq_nil_iff.mpr]
      · exact List.nil_sublist _
      · intro p hp hties
        have htag : listedTag p ∈ items.map priceTag := htags ▸ List.mem_map_of_mem hp
        obtain ⟨item, hitem, heq⟩ := List.mem_map.mp htag
        refine hr ⟨item, hitem, ?_⟩
        rw [← order.le_and_le_iff.mp hties]
        exact (Prod.ext_iff.mp heq).2
  · intro h price
    cases hprice : Double.rank price with
    | some r =>
      rw [filter_items_of_tags htags hprice]
      exact (h r).map _
    | none =>
      -- nothing equals what is not a number
      rw [List.filter_eq_nil_iff.mpr]
      · exact List.nil_sublist _
      · intro item _
        rw [Double.beq_iff, hprice]
        simp

/-- **When items are sorted by price**: when the rows and prices that they show are a
sorted listing. -/
theorem sortedByPrice_iff {rt : Runtime} {grouped : Arrangement Experience} {tenantId : Uuid}
    {query : ExperienceSearchQuery} {db : Database} (hdb : SchemaConstraints db)
    (htags : items.map priceTag = listed.map listedTag)
    (hmem : ∀ p ∈ listed, p.1 ∈ groupedRows rt grouped tenantId query db) :
    SortedByPrice rt grouped tenantId query db items ↔
      SortedListing (query.sortOrder.le fun p q => p ≤ q)
        (groupedRows rt grouped tenantId query db) listed := by
  have hnodup : ((groupedRows rt grouped tenantId query db).map GroupedExperienceRow.id).Nodup :=
    groupedRows_nodup hdb
  have hrows : ∀ row ∈ listed.map Prod.fst, row ∈ groupedRows rt grouped tenantId query db := by
    intro row hrow
    obtain ⟨p, hp, rfl⟩ := List.mem_map.mp hrow
    exact hmem p hp
  have hperm : (items.map ExperienceSearchItem.id).Perm
      ((eligibleExperiences rt tenantId query db).map Experience.id) ↔
        (listed.map Prod.fst).Perm (groupedRows rt grouped tenantId query db) := by
    rw [items_ids_of_tags htags, ← perm_map_iff hnodup hrows]
    exact ⟨fun h => h.trans (groupedRows_ids hdb).symm, fun h => h.trans (groupedRows_ids hdb)⟩
  have hsorted := items_sorted_iff query.sortOrder htags
  have hstable := items_stable_iff query.sortOrder htags hmem hnodup
  constructor
  · intro h
    exact ⟨hperm.mp h.perm, hsorted.mp h.sorted, hstable.mp h.stable⟩
  · intro h
    exact ⟨hperm.mpr h.perm, hsorted.mpr h.sorted, hstable.mpr h.stable⟩

end Listings

/-! ### Pages of prices that stay apart -/

section Apart

variable {rt : Runtime} {grouped : Arrangement Experience} {tenantId : Uuid}
  {query : ExperienceSearchQuery} {db : Database} {now : Instant}

/-- Where all prices are numbers, a page shows the rows of the sort by their least
prices. -/
theorem pricedPage_tags {order : RowOrder} {fromPrice : Uuid → Option PrintedAmount}
    (h : fromPriceByExperienceId .double order tenantId query.partySize
      (query.slotFilter rt tenantId) (experienceIds rt order tenantId query db) db now
        = .ok fromPrice)
    (hnum : ∀ row ∈ groupedRows rt grouped tenantId query db,
      ∀ price ∈ row.slotPrices rt tenantId query db now order.pricingRules, price.isNaN = false)
    (i : ℕ) :
    (pricedPage query fromPrice (groupedRows rt grouped tenantId query db) i).map priceTag =
      (keyedPage (query.sortOrder.le fun p q => p ≤ q)
        (fun rules row => row.leastPrice rt tenantId query db now rules) query.pageSize
        (groupedRows rt grouped tenantId query db) order.pricingRules i).map listedTag := by
  have hrank : ∀ row ∈ groupedRows rt grouped tenantId query db,
      Double.rank (row.listedPrice .double fromPrice).toNumber =
        some (row.leastPrice rt tenantId query db now order.pricingRules) :=
    fun row hrow => rank_listedPrice h hrow (hnum row hrow)
  have hnotAbove : ∀ {x y : Float} {r s : Double.Rank}, Double.rank x = some r →
      Double.rank y = some s → Pricer.double.notAbove x y = decide (r ≤ s) := by
    intro x y r s hx hy
    rw [Pricer.notAbove, Bool.eq_iff_iff, Bool.not_eq_true', Bool.eq_false_iff, ne_eq,
      Double.lt_iff, hx, hy]
    simp
  have hsort : sortByPrice .double query fromPrice (groupedRows rt grouped tenantId query db) =
      orderBy (query.sortOrder.le fun p q => p ≤ q)
        (fun row => row.leastPrice rt tenantId query db now order.pricingRules)
        (groupedRows rt grouped tenantId query db) := by
    refine orderBy_congr_le fun x hx y hy => ?_
    cases query.sortOrder with
    | asc => exact hnotAbove (hrank x hx) (hrank y hy)
    | desc => exact hnotAbove (hrank y hy) (hrank x hx)
  rw [pricedPage, keyedPage, hsort, List.map_map, List.map_map]
  refine List.map_congr_left fun row hrow => ?_
  have hmem := mem_orderBy.mp (List.mem_of_mem_drop (List.mem_of_mem_take hrow))
  exact Prod.ext rfl (hrank row hmem)

/-- **Pages of numbers are a paged sort when the rows and their least prices are a sorted
listing.** -/
theorem sortedByPrice_iff_sortedListing (hdb : SchemaConstraints db) {orders : ℕ → RowOrder}
    {fromPrice : ℕ → Uuid → Option PrintedAmount}
    (h : ∀ page, fromPriceByExperienceId .double
      ((orders page).groupedBy grouped) tenantId query.partySize
      (query.slotFilter rt tenantId) (experienceIds rt (orders page) tenantId query db) db now
        = .ok (fromPrice page))
    (hnum : ∀ row ∈ groupedRows rt grouped tenantId query db, ∀ rules,
      ∀ price ∈ row.slotPrices rt tenantId query db now rules, price.isNaN = false) :
    SortedByPrice rt grouped tenantId query db
        (itemsOf (fun i => pricedPage query (fromPrice (i + 1))
            (groupedRows rt grouped tenantId query db) i)
          (totalPages (groupedRows rt grouped tenantId query db).length query.pageSize)) ↔
      SortedListing (query.sortOrder.le fun p q => p ≤ q)
        (groupedRows rt grouped tenantId query db)
        (keyedPages (query.sortOrder.le fun p q => p ≤ q)
          (fun rules row => row.leastPrice rt tenantId query db now rules) query.pageSize
          (groupedRows rt grouped tenantId query db) fun i => (orders (i + 1)).pricingRules) := by
  refine sortedByPrice_iff hdb ?_ ?_
  · rw [itemsOf, keyedPages, totalPages_eq query.one_le_pageSize, List.map_flatMap,
      List.map_flatMap]
    refine List.flatMap_congr fun i _ => ?_
    have htags := pricedPage_tags (h (i + 1)) (fun row hrow => hnum row hrow _) i
    exact htags
  · intro p hp
    obtain ⟨i, -, hp⟩ := List.mem_flatMap.mp hp
    obtain ⟨row, hrow, rfl⟩ := List.mem_map.mp hp
    exact mem_orderBy.mp (List.mem_of_mem_drop (List.mem_of_mem_take hrow))

/-- A single row is sorted at any price. -/
theorem sortedByPrice_of_length_le_one (hdb : SchemaConstraints db)
    (hone : (groupedRows rt grouped tenantId query db).length ≤ 1)
    (fromPrice : ℕ → Uuid → Option PrintedAmount) :
    SortedByPrice rt grouped tenantId query db
      (itemsOf (fun i => pricedPage query (fromPrice (i + 1))
          (groupedRows rt grouped tenantId query db) i)
        (totalPages (groupedRows rt grouped tenantId query db).length query.pageSize)) := by
  have hsort : ∀ fromPrice, sortByPrice .double query fromPrice
      (groupedRows rt grouped tenantId query db) = groupedRows rt grouped tenantId query db := by
    intro fromPrice
    generalize groupedRows rt grouped tenantId query db = rows at hone
    rcases rows with _ | ⟨row, _ | ⟨row', rows⟩⟩
    · exact List.mergeSort_nil
    · exact List.mergeSort_singleton row
    · simp at hone
  have hids : (itemsOf (fun i => pricedPage query (fromPrice (i + 1))
      (groupedRows rt grouped tenantId query db) i)
        (totalPages (groupedRows rt grouped tenantId query db).length query.pageSize)).map
          ExperienceSearchItem.id =
      (groupedRows rt grouped tenantId query db).map GroupedExperienceRow.id := by
    have hall := congrArg (List.map GroupedExperienceRow.id)
      (flatMap_page query.one_le_pageSize (groupedRows rt grouped tenantId query db))
    rw [List.map_flatMap] at hall
    rw [itemsOf, totalPages_eq query.one_le_pageSize, List.map_flatMap, ← hall]
    refine List.flatMap_congr fun i _ => ?_
    rw [pricedPage, hsort, List.map_map]
    rfl
  refine ⟨?_, ?_, fun price => ?_⟩
  · rw [hids]
    exact groupedRows_ids hdb
  · have hlen := congrArg List.length hids
    rw [List.length_map, List.length_map] at hlen
    rw [← hlen] at hone
    generalize itemsOf _ _ = items at hone
    rcases items with _ | ⟨item, _ | ⟨item', items⟩⟩
    · exact List.Pairwise.nil
    · exact List.pairwise_singleton _ item
    · simp at hone
  · rw [← hids]
    exact List.filter_sublist.map _

/-! ### Prices that are not numbers -/

/-- A slot that is priced first decides the price of its row, if it is not a number. -/
theorem exists_listed_nan {row : GroupedExperienceRow}
    (hrow : row ∈ groupedRows rt grouped tenantId query db) {rules : Arrangement PricingRule}
    {price : Float} (hprice : price ∈ row.slotPrices rt tenantId query db now rules)
    (hnan : price.isNaN = true) :
    ∃ order : RowOrder, order.pricingRules = rules ∧ ∀ fromPrice, fromPriceByExperienceId .double
        (order.groupedBy grouped) tenantId query.partySize
        (query.slotFilter rt tenantId) (experienceIds rt order tenantId query db) db now
          = .ok fromPrice →
      Double.rank (row.listedPrice .double fromPrice).toNumber = none := by
  obtain ⟨slot, hslot, rfl⟩ := List.mem_map.mp hprice
  have hfirst : slot ∈ pricedSlots rt {} tenantId query db row :=
    (pricedSlots_perm hrow).mem_iff.mpr hslot
  rw [pricedSlots, List.mem_filter, slotRows, Arrangement.stored_apply] at hfirst
  obtain ⟨l₁, l₂, hrows⟩ := List.append_of_mem hfirst.1
  have hperm : (slot :: (l₁ ++ l₂)).Perm (l₁ ++ slot :: l₂) := List.perm_middle.symm
  rw [← hrows] at hperm
  obtain ⟨a, ha⟩ := Arrangement.exists_apply_eq hperm
  refine ⟨{ pricingRules := rules, eligibleSlots := a }, rfl, fun fromPrice h => ?_⟩
  have hlisted := fromPrice_row h hrow
  have hslots : pricedSlots rt (RowOrder.groupedBy { pricingRules := rules, eligibleSlots := a }
      grouped) tenantId query db row =
        slot :: (l₁ ++ l₂).filter fun sl => sl.experienceId = row.id := by
    have hfilter := congrArg (List.filter fun sl => decide (sl.experienceId = row.id)) ha
    rw [List.filter_cons, if_pos hfirst.2] at hfilter
    exact hfilter
  rw [hslots, List.map_cons, List.foldl_cons] at hlisted
  have hnone : Double.rank (row.slotPrice query db now rules slot).toNumber = none :=
    Double.isNaN_iff.mp hnan
  have hkept : fromPrice row.id = some (row.slotPrice query db now rules slot) :=
    hlisted.trans (foldl_lowerPrice_nan hnone _)
  rw [GroupedExperienceRow.listedPrice, hkept]
  exact hnone

/-- Items are not sorted when one of several has a price that is not a number. -/
theorem not_pairwise_of_nan {order : SortOrder} {items : List (ExperienceSearchItem PrintedAmount)}
    {item : ExperienceSearchItem PrintedAmount} (hitem : item ∈ items)
    (hnan : Double.rank item.fromPrice.toNumber = none) (hlen : 1 < items.length) :
    ¬ items.Pairwise fun x y =>
      order.le Float.le x.fromPrice.toNumber y.fromPrice.toNumber = true := by
  intro hsorted
  have hnot : ∀ other : Float, ¬ order.le Float.le item.fromPrice.toNumber other = true ∧
      ¬ order.le Float.le other item.fromPrice.toNumber = true := by
    intro other
    cases order <;> simp [SortOrder.le, Double.le_iff, hnan]
  obtain ⟨l₁, l₂, rfl⟩ := List.append_of_mem hitem
  rw [List.pairwise_append, List.pairwise_cons] at hsorted
  cases l₂ with
  | cons other l₂ => exact (hnot _).1 (hsorted.2.1.1 other List.mem_cons_self)
  | nil =>
    cases l₁ with
    | nil => simp at hlen
    | cons other l₁ => exact (hnot _).2 (hsorted.2.2 other List.mem_cons_self item
        List.mem_cons_self)

theorem mem_itemsOf_pricedPage {fromPrice : Uuid → Option PrintedAmount}
    {rows : List GroupedExperienceRow} {count : ℕ} {item : ExperienceSearchItem PrintedAmount}
    (h : item ∈ itemsOf (pricedPage query fromPrice rows) count) :
    ∃ row ∈ rows, item = row.toItem .double query.partySize fromPrice := by
  obtain ⟨i, -, hitem⟩ := List.mem_flatMap.mp h
  obtain ⟨row, hrow, rfl⟩ := List.mem_map.mp hitem
  exact ⟨row, mem_orderBy.mp (List.mem_of_mem_drop (List.mem_of_mem_take hrow)), rfl⟩

/-- **Several rows are sorted for every order only if all their prices are numbers.** -/
theorem numbers_of_answered (hdb : SchemaConstraints db) (hsort : query.sortBy = .price)
    (hmatch : matchingExperiences rt {} tenantId query db ≠ [])
    (hanswer : query.Answerable rt tenantId db)
    (htwo : 1 < (groupedRows rt grouped tenantId query db).length)
    (h : ∀ orders, AnsweredByPrice rt grouped tenantId query db now orders) :
    ∀ row ∈ groupedRows rt grouped tenantId query db, ∀ rules,
      ∀ price ∈ row.slotPrices rt tenantId query db now rules, price.isNaN = false := by
  intro row hrow rules price hprice
  by_contra hnan
  obtain ⟨order, -, hlisted⟩ := exists_listed_nan hrow hprice (by simpa using hnan)
  obtain ⟨fromPrice, hfrom⟩ := exists_fromPrice .double hdb.experienceSupplier
    (order.groupedBy grouped) tenantId query.partySize (query.slotFilter rt tenantId)
    (experienceIds rt order tenantId query db) now
  have hitems := (@answeredByPrice_iff rt grouped tenantId query db now hsort hmatch hanswer
    (fun _ => order) (fun _ => fromPrice) fun _ => hfrom).mp (h _)
  have hids := hitems.perm.trans (@groupedRows_ids rt grouped tenantId query db hdb).symm
  -- the item of the row shows a price that is not a number
  obtain ⟨item, hitem, hid⟩ := List.mem_map.mp (hids.mem_iff.mpr (List.mem_map_of_mem hrow))
  obtain ⟨row', hrow', heq⟩ := mem_itemsOf_pricedPage hitem
  have hsame : row' = row := by
    refine List.inj_on_of_nodup_map (groupedRows_nodup hdb) hrow' hrow ?_
    rw [← hid, heq]
    rfl
  have hnone : Double.rank item.fromPrice.toNumber = none := by
    rw [heq, hsame]
    exact hlisted fromPrice hfrom
  have hlen := hids.length_eq
  rw [List.length_map, List.length_map] at hlen
  exact not_pairwise_of_nan hitem hnone (by omega) hitems.sorted

/-- **Searches that are answered are paged sorts for every order exactly when there is one
row at most or prices stay apart.** -/
theorem answered_iff_pricesApart (hdb : SchemaConstraints db) (hsort : query.sortBy = .price)
    (hmatch : matchingExperiences rt {} tenantId query db ≠ [])
    (hanswer : query.Answerable rt tenantId db) :
    (∀ orders, AnsweredByPrice rt grouped tenantId query db now orders) ↔
      (groupedRows rt grouped tenantId query db).length ≤ 1 ∨
        PricesApart rt grouped tenantId query db now := by
  choose fromPrice hprice using fun order : RowOrder => exists_fromPrice .double
    hdb.experienceSupplier (order.groupedBy grouped) tenantId query.partySize
    (query.slotFilter rt tenantId) (experienceIds rt order tenantId query db) now
  have hpages (orders : ℕ → RowOrder) := @answeredByPrice_iff rt grouped tenantId query db now
    hsort hmatch hanswer orders _ fun page => hprice (orders page)
  have hitems (orders : ℕ → RowOrder) := @sortedByPrice_iff_sortedListing rt grouped tenantId query
    db now hdb orders _ fun page => hprice (orders page)
  have hnodup : (groupedRows rt grouped tenantId query db).Nodup :=
    List.Nodup.of_map _ (groupedRows_nodup hdb)
  have hlistings : (∀ choice, SortedListing (query.sortOrder.le fun p q => p ≤ q)
      (groupedRows rt grouped tenantId query db) (keyedPages (query.sortOrder.le fun p q => p ≤ q)
        (fun rules row => row.leastPrice rt tenantId query db now rules) query.pageSize
        (groupedRows rt grouped tenantId query db) choice)) ↔ _ :=
    sortedListing_iff_separated
      (query.sortOrder.le_trans fun a b c hab hbc =>
        decide_eq_true ((of_decide_eq_true hab).trans (of_decide_eq_true hbc)))
      (query.sortOrder.le_total fun a b => by
        rw [Bool.or_eq_true, decide_eq_true_eq, decide_eq_true_eq]
        exact le_total a b)
      query.one_le_pageSize hnodup
  constructor
  · intro h
    by_cases htwo : (groupedRows rt grouped tenantId query db).length ≤ 1
    · exact Or.inl htwo
    have hnum := numbers_of_answered hdb hsort hmatch hanswer (not_le.mp htwo) h
    refine Or.inr ⟨hnum, hlistings.mp fun choice => ?_⟩
    have hchoice := h fun page => { pricingRules := choice (page - 1) }
    exact (hitems (fun page => { pricingRules := choice (page - 1) }) hnum).mp
      ((hpages fun page => { pricingRules := choice (page - 1) }).mp hchoice)
  · intro h orders
    rw [hpages orders]
    rcases h with hone | hapart
    · exact sortedByPrice_of_length_le_one hdb hone fun page => fromPrice (orders page)
    · exact (hitems orders hapart.numbers).mpr (hlistings.mpr hapart.separated _)

end Apart

/-- **When a search by price is a paged sort**, in whatever orders the database returns
the slots and the rules of each page: when nothing matches; and when the database answers
the search, and there is one row at most, or every price is a number and no page ends
between rows whose prices may change places. -/
theorem price_sort_paged_iff (rt : Runtime) (tenantId : Uuid) {db : Database}
    (hdb : SchemaConstraints db) (query : ExperienceSearchQuery) (hsort : query.sortBy = .price)
    (grouped : Arrangement Experience) (now : Instant) :
    (∀ orders, AnsweredByPrice rt grouped tenantId query db now orders) ↔
      matchingExperiences rt {} tenantId query db = [] ∨
        (query.Answerable rt tenantId db ∧
          ((groupedRows rt grouped tenantId query db).length ≤ 1 ∨
            PricesApart rt grouped tenantId query db now)) := by
  by_cases hmatch : matchingExperiences rt {} tenantId query db = []
  · exact ⟨fun _ => Or.inl hmatch, fun _ => answeredByPrice_nil hmatch⟩
  constructor
  · intro h
    obtain ⟨pages, totalItems, hrequests, -⟩ := h fun _ => eager
    have hids : experienceIds rt (eager.groupedBy grouped) tenantId (query.onPage 1 le_rfl) db
        ≠ [] := mt experienceIds_eq_nil.mp hmatch
    have hanswer : query.Answerable rt tenantId db :=
      @answerable_of_eager _ rt tenantId (query.onPage 1 le_rfl) db now _ _ hids rfl (hrequests 0)
    exact Or.inr ⟨hanswer, (answered_iff_pricesApart hdb hsort hmatch hanswer).mp h⟩
  · intro h
    obtain ⟨hanswer, hprices⟩ := h.resolve_left hmatch
    exact (answered_iff_pricesApart hdb hsort hmatch hanswer).mpr hprices

/-! ### Three tours, cheapest first -/

namespace Season

open LateConfirm Offer

/-- The totals of the departures, in whatever order the rules are loaded. -/
theorem totals : ∀ l ∈ rules.permutations',
    totalPriceInDoubles ⟨5000⟩ 5 l 86400000 0 = .fixed false 27000 ∧
    totalPriceInDoubles ⟨5000⟩ 5 l 172800000 0 = .fixed false 25650 ∧
    totalPriceInDoubles ⟨8000⟩ 5 l 86400000 0 = .fixed false 43200 ∧
    totalPriceInDoubles ⟨3000⟩ 5 l 172800000 0 = .fixed false 15390 := by
  decide +kernel

/-- The departures of the rows cost between 153.90 and 432.00. -/
def prices (row : GroupedExperienceRow) : List PrintedAmount :=
  if row.id = uuid 4 then [.fixed false 27000, .fixed false 25650]
  else if row.id = uuid 30 then [.fixed false 43200] else [.fixed false 15390]

theorem slotPrices_eq (a : Arrangement PricingRule) : ∀ row ∈ rows,
    row.slotPrices rt (uuid 1) (query .price 1) booked 0 a =
      (prices row).map PrintedAmount.toNumber := by
  have hloaded : activePricingRules { pricingRules := a } booked (uuid 3) ∈ rules.permutations' :=
    List.mem_permutations'.mpr (a.perm rules)
  obtain ⟨hwalk, hwalk', hdive, hride⟩ := totals _ hloaded
  intro row hrow
  simp only [rows, List.mem_cons, List.not_mem_nil, or_false] at hrow
  rcases hrow with rfl | rfl | rfl
  · exact congrArg₂ (fun p q => [PrintedAmount.toNumber p, q.toNumber]) hwalk hwalk'
  · exact congrArg (fun p => [PrintedAmount.toNumber p]) hdive
  · exact congrArg (fun p => [PrintedAmount.toNumber p]) hride

/-- The place of the least price of a row. -/
def least (row : GroupedExperienceRow) : Double.Rank :=
  (((prices row).map PrintedAmount.toNumber).filterMap Double.rank).min?.getD
    (toLex (0, toLex (0, 0)))

theorem leastPrice_eq (a : Arrangement PricingRule) {row : GroupedExperienceRow}
    (hrow : row ∈ rows) :
    row.leastPrice rt (uuid 1) (query .price 1) booked 0 a = least row := by
  rw [GroupedExperienceRow.leastPrice, slotPrices_eq a row hrow]
  rfl

/-- The rows that are on the pages before the end of page `i`. -/
def cheapest (i : ℕ) (row : GroupedExperienceRow) : Bool :=
  (i = 1 ∧ row.id = uuid 31) ∨ (i = 2 ∧ row.id ≠ uuid 30)

theorem separated_rows : ∀ i < 3, rows.countP (cheapest i) = i ∧
    ∀ x ∈ rows, cheapest i x = true → ∀ y ∈ rows, cheapest i y = false → least x < least y := by
  decide +kernel

theorem rows_eq : groupedRows rt .stored (uuid 1) (query .price 1) booked = rows := by
  show orderBy _ _ _ = _
  rw [orderBy, List.mergeSort_of_pairwise]
  · rfl
  · show rows.Pairwise fun a b => decide (a.earliestSlotAt ≤ b.earliestSlotAt) = true
    decide

theorem pricesApart : PricesApart rt .stored (uuid 1) (query .price 1) booked 0 where
  numbers := by
    have hnum : ∀ row ∈ rows, ∀ price ∈ (prices row).map PrintedAmount.toNumber,
        price.isNaN = false := by
      decide +kernel
    intro row hrow a price hprice
    rw [rows_eq] at hrow
    rw [slotPrices_eq a row hrow] at hprice
    exact hnum row hrow price hprice
  separated := by
    intro i hi
    rw [rows_eq] at hi ⊢
    obtain ⟨hcount, hearly⟩ := separated_rows i (Nat.lt_of_mul_lt_mul_right hi)
    refine ⟨cheapest i, hcount.trans (Nat.mul_one i).symm, fun x hx hx' y hy hy' c c' => ?_⟩
    have hlt := hearly x hx hx' y hy hy'
    simp only [leastPrice_eq c hx, leastPrice_eq c' hy]
    exact ⟨decide_eq_true hlt.le, fun hge => absurd (of_decide_eq_true hge) (not_le.mpr hlt)⟩

end Season

open Season LateConfirm in
/-- Three pages of one tour each, the camel ride first and the night dive last. -/
theorem price_sort_paged_iff_season :
    matchingExperiences Offer.rt {} (uuid 1) (query .price 1) booked ≠ [] ∧
      ∀ orders, AnsweredByPrice Offer.rt .stored (uuid 1) (query .price 1) booked 0 orders := by
  have hanswer : (query .price 1).Answerable Offer.rt (uuid 1) booked :=
    ⟨by decide, by decide, fun _ _ _ _ s hs _ => counts s hs⟩
  exact ⟨by decide, (price_sort_paged_iff Offer.rt (uuid 1) constraints (query .price 1) rfl
    .stored 0).mpr (Or.inr ⟨hanswer, Or.inr pricesApart⟩)⟩

/-! ### A cent between two orders -/

namespace Cent

open LateConfirm Offer

/-- Groups pay a tenth less, January costs a tenth more. -/
def rules : List PricingRule :=
  [⟨uuid 40, uuid 3, .groupSize,
      .obj [("minPartySize", .num 5), ("discountPercent", .num 10)], true⟩,
    ⟨uuid 41, uuid 3, .seasonal,
      .obj [("season", .str "winter"), ("months", .arr [.num 1]), ("surchargePercent", .num 10)],
      true⟩]

/-- A walk of 50.00 for five people, and a ride under two rules. -/
def database : Database where
  suppliers := ⟨[⟨uuid 3, uuid 1, "Guides", none⟩, ⟨uuid 6, uuid 1, "Walkers", none⟩], by decide⟩
  experiences := ⟨[{ Season.tour 4 "City walk" ⟨1000⟩ with supplierId := uuid 6 },
    Season.tour 31 "Camel ride" ⟨1010⟩], by decide⟩
  availabilitySlots := ⟨[Season.departure 5 4 86400000 (places 0),
    Season.departure 34 31 172800000 (places 1)], by decide⟩
  pricingRules := ⟨rules, by decide⟩

theorem constraints : SchemaConstraints database where
  experienceSupplier := by
    have h : ∀ e ∈ database.experiences.rows,
        ∃ sup ∈ database.suppliers.rows, sup.id = e.supplierId := by
      decide
    intro e he
    obtain ⟨sup, hsup, hid⟩ := h e he
    exact ⟨sup, hid ▸ Table.get?_key hsup⟩
  bookingUser := fun b hb => absurd hb List.not_mem_nil
  bookingExperience := fun b hb => absurd hb List.not_mem_nil
  bookingSlot := fun b hb => absurd hb List.not_mem_nil
  bookingReference := List.nodup_nil
  auditLogId := List.nodup_nil

theorem counts : ∀ s ∈ database.availabilitySlots, s.CountsPlaces :=
  show ∀ s ∈ database.availabilitySlots.rows, s.CountsPlaces by decide

/-- The walk as the slot query groups it. -/
def walk : GroupedExperienceRow :=
  { Season.row 4 "City walk" ⟨1000⟩ 1 86400000 with
    supplierId := uuid 6, supplierName := "Walkers" }

/-- The ride as the slot query groups it. -/
def ride : GroupedExperienceRow := Season.row 31 "Camel ride" ⟨1010⟩ 1 172800000

theorem rows_eq :
    groupedRows rt .stored (uuid 1) (Season.query .price 1) database = [walk, ride] := by
  show orderBy _ _ _ = _
  rw [orderBy, List.mergeSort_of_pairwise]
  · rfl
  · show [walk, ride].Pairwise fun a b => decide (a.earliestSlotAt ≤ b.earliestSlotAt) = true
    decide

/-- The rules in the other order. -/
def reversed : Arrangement PricingRule := ⟨List.reverse, List.reverse_perm⟩

/-- The ride costs as much as the walk when its discount is taken first, and a cent less
when its surcharge is. -/
theorem leastPrice_ride :
    ride.leastPrice rt (uuid 1) (Season.query .price 1) database 0 .stored =
        walk.leastPrice rt (uuid 1) (Season.query .price 1) database 0 .stored ∧
      ride.leastPrice rt (uuid 1) (Season.query .price 1) database 0 reversed <
        walk.leastPrice rt (uuid 1) (Season.query .price 1) database 0 .stored := by
  decide +kernel

/-- No page ends between the walk and the ride. -/
theorem not_pricesApart :
    ¬ PricesApart rt .stored (uuid 1) (Season.query .price 1) database 0 := by
  intro h
  have hsep := h.separated 1
  rw [rows_eq] at hsep
  obtain ⟨early, hcount, hearly⟩ := hsep (by decide)
  have hmem : walk ∈ [walk, ride] ∧ ride ∈ [walk, ride] := by decide
  obtain ⟨hties, hless⟩ := leastPrice_ride
  have hasc : (Season.query .price 1).sortOrder = .asc := rfl
  cases hwalk : early walk <;> cases hride : early ride <;>
    simp only [List.countP_cons, hwalk, hride, List.countP_nil] at hcount
  · exact absurd hcount (by decide)
  · -- the ride costs as much as the walk, and comes after it
    have hbefore := (hearly ride hmem.2 hride walk hmem.1 hwalk .stored .stored).2
    simp only [hasc, SortOrder.le, decide_eq_true_eq, hties, le_refl, true_implies] at hbefore
    have hsub : [ride, walk].Sublist [walk, ride] := hbefore
    exact absurd hsub (by decide)
  · have hle := (hearly walk hmem.1 hwalk ride hmem.2 hride .stored reversed).1
    simp only [hasc, SortOrder.le, decide_eq_true_eq] at hle
    exact absurd hle (not_le.mpr hless)
  · exact absurd hcount (by decide)

end Cent

open Cent in
/-- A search in a thirteenth month is accepted, and fails; and where the database answers,
a page may end between two experiences that change places. -/
theorem price_sort_not_always_paged :
    (¬ ∀ (rt : Runtime) (tenantId : Uuid) (db : Database), SchemaConstraints db →
      ∀ query : ExperienceSearchQuery, query.sortBy = .price → query.WindowCounted rt tenantId db →
        ∀ grouped now orders, AnsweredByPrice rt grouped tenantId query db now orders) ∧
    ¬ ∀ (rt : Runtime) (tenantId : Uuid) (db : Database), SchemaConstraints db →
      ∀ query : ExperienceSearchQuery, query.sortBy = .price → query.Answerable rt tenantId db →
        ∀ grouped now orders, AnsweredByPrice rt grouped tenantId query db now orders := by
  constructor
  · intro h
    obtain ⟨pages, totalItems, hrequests, -⟩ := h Offer.rt (uuid 1) database constraints
      Season.thirteenth rfl (fun _ _ _ _ s hs _ => counts s hs) .stored 0 fun _ => {}
    obtain ⟨startAt, endAt, fromPrice, hstart, -⟩ :=
      (requestByPrice_ok rfl (by decide)).mp (hrequests 0)
    have hnone : parseUtcDate Offer.rt.rollsOver Season.thirteenth.startDate = none := by decide
    cases hnone.symm.trans hstart
  · intro h
    have hanswer : (Season.query .price 1).Answerable Offer.rt (uuid 1) database :=
      ⟨by decide, by decide, fun _ _ _ _ s hs _ => counts s hs⟩
    have hprices := (answered_iff_pricesApart constraints rfl (by decide) hanswer).mp
      (h Offer.rt (uuid 1) database constraints (Season.query .price 1) rfl hanswer .stored 0)
    rw [rows_eq] at hprices
    exact not_pricesApart (hprices.resolve_left (by decide))

end BookingPlatform
