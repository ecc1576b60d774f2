import BookingPlatform.Findable
import BookingPlatform.Closure
import BookingPlatform.DateWindows
import BookingPlatform.Lib.Paging

/-!
# Paged listings

The bookings, the audit logs and the experiences of a tenant are listed a page at a
time.  Each page is a query of its own, whose `ORDER BY` names one column.

## Main definitions

* `PagedOnce` — the pages return every row once, in order.
* `requestBookings`, `requestAuditLogs`, `requestExperiences` — the request for a page.
* `ExperienceSearchQuery.Answerable` — the database answers the search.

## Main results

* `pagedOnce_iff` — a listing cut from sorted rows returns every row once, whatever
  order the database chooses each time, exactly when no page ends among ties.
* `listings_paged_once_iff` — so for the three listings.
-/

namespace BookingPlatform

open Paging

/-! ### Pages -/

/-- Every page is answered and says how many rows there are, and the pages from 1 to
`totalPages` return every row once. -/
def PagedOnce {ι : Type} (pageSize : ℕ) (rows : List ι)
    (request : ∀ page, 1 ≤ page → Except Failure (List ι × Pagination)) : Prop :=
  ∃ pages : ℕ → List ι,
    (∀ i, request (i + 1) (Nat.succ_pos i) = .ok (pages i,
      ⟨i + 1, pageSize, rows.length, totalPages rows.length pageSize⟩)) ∧
    ((List.range (totalPages rows.length pageSize)).flatMap pages).Perm rows

theorem totalPages_eq {totalItems pageSize : ℕ} (h : 1 ≤ pageSize) :
    totalPages totalItems pageSize = pageCount pageSize totalItems := by
  unfold totalPages pageCount
  split
  · next hzero =>
    rw [hzero, Nat.div_eq_of_lt (by omega)]
  · rfl

/-- Rows that are told apart by a key are permuted when their keys are. -/
theorem perm_map_iff {α ι : Type} {key : α → ι} {l rows : List α} (h : (rows.map key).Nodup)
    (hsub : ∀ x ∈ l, x ∈ rows) : (l.map key).Perm (rows.map key) ↔ l.Perm rows := by
  refine ⟨fun hperm => ?_, fun hperm => hperm.map key⟩
  have hl : l.Nodup := List.Nodup.of_map key (hperm.nodup_iff.mpr h)
  refine (List.subperm_of_subset hl hsub).perm_of_length_le ?_
  have hlen := hperm.length_eq
  simp only [List.length_map] at hlen
  omega

/-- The pages of a listing that answers every page are the ones it answers. -/
theorem pagedOnce_iff_perm {ι : Type} {pageSize : ℕ} {rows : List ι}
    {request : ∀ page, 1 ≤ page → Except Failure (List ι × Pagination)} {pages : ℕ → List ι}
    (h : ∀ i, request (i + 1) (Nat.succ_pos i) = .ok (pages i,
      ⟨i + 1, pageSize, rows.length, totalPages rows.length pageSize⟩)) :
    PagedOnce pageSize rows request ↔
      ((List.range (totalPages rows.length pageSize)).flatMap pages).Perm rows := by
  constructor
  · intro hpaged
    obtain ⟨pages', hrequests, hperm⟩ := hpaged
    have heq : pages' = pages := by
      funext i
      exact (Prod.ext_iff.mp (Except.ok.inj ((hrequests i).symm.trans (h i)))).1
    rwa [heq] at hperm
  · intro hperm
    exact ⟨pages, h, hperm⟩

/-- **When a listing returns every row once**, if it cuts its pages out of the sorted
rows and the database may put ties in another order for each page. -/
theorem pagedOnce_iff {ρ σ ι : Type} (base : List σ) (f : σ → Option ρ) (key : ρ → ι)
    (choice : RowOrder → Arrangement σ)
    (request : (ℕ → RowOrder) → ∀ page, 1 ≤ page → Except Failure (List ι × Pagination))
    {le : ρ → ρ → Bool}
    (htrans : ∀ a b c, le a b = true → le b c = true → le a c = true)
    (htotal : ∀ a b, (le a b || le b a) = true) {pageSize : ℕ} (hsize : 1 ≤ pageSize)
    (hnodup : ((base.filterMap f).map key).Nodup) (hchoice : ∀ a, ∃ order, choice order = a)
    (hrequest : ∀ orders i, request orders (i + 1) (Nat.succ_pos i) = .ok
      ((page pageSize i
          ((((choice (orders (i + 1))).apply base).filterMap f).mergeSort le)).map key,
        ⟨i + 1, pageSize, (base.filterMap f).length,
          totalPages (base.filterMap f).length pageSize⟩)) :
    (∀ orders, PagedOnce pageSize ((base.filterMap f).map key) (request orders)) ↔
      TiesOnOnePage le pageSize (base.filterMap f) := by
  rw [← pages_arrangement_perm_iff htrans htotal hsize (List.Nodup.of_map key hnodup)]
  -- the keys that a listing returns are those of its pages
  have hpages : ∀ orders : ℕ → RowOrder,
      PagedOnce pageSize ((base.filterMap f).map key) (request orders) ↔
        ((List.range (pageCount pageSize (base.filterMap f).length)).flatMap fun i =>
          page pageSize i ((((choice (orders (i + 1))).apply base).filterMap f).mergeSort le)).Perm
            (base.filterMap f) := by
    intro orders
    rw [← perm_map_iff hnodup, List.map_flatMap, ← totalPages_eq hsize]
    · have hanswers := hrequest orders
      rw [← List.length_map (f := key)] at hanswers ⊢
      exact pagedOnce_iff_perm hanswers
    · intro x hx
      obtain ⟨i, -, hx⟩ := List.mem_flatMap.mp hx
      have hsorted := List.mem_of_mem_drop (List.mem_of_mem_take hx)
      rw [List.mem_mergeSort] at hsorted
      exact (((choice (orders (i + 1))).perm base).filterMap f).mem_iff.mp hsorted
  constructor
  · intro h arrangement
    choose order horder using hchoice
    have hperm := (hpages fun i => order (arrangement (i - 1))).mp (h _)
    simpa only [Nat.add_sub_cancel, horder] using hperm
  · intro h orders
    exact (hpages orders).mpr (h fun i => choice (orders (i + 1)))

/-- The same, of a listing of rows of one table that fails on dates it cannot use. -/
theorem usable_pagedOnce_iff {ρ ι : Type} (rows : List ρ) (key : ρ → ι)
    (choice : RowOrder → Arrangement ρ)
    (request : (ℕ → RowOrder) → ∀ page, 1 ≤ page → Except Failure (List ι × Pagination))
    {le : ρ → ρ → Bool}
    (htrans : ∀ a b c, le a b = true → le b c = true → le a c = true)
    (htotal : ∀ a b, (le a b || le b a) = true) {pageSize : ℕ} (hsize : 1 ≤ pageSize)
    (hnodup : (rows.map key).Nodup) (hchoice : ∀ a, ∃ order, choice order = a) {Usable : Prop}
    (hrequest : Usable → ∀ orders i, request orders (i + 1) (Nat.succ_pos i) = .ok
      ((page pageSize i (((choice (orders (i + 1))).apply rows).mergeSort le)).map key,
        ⟨i + 1, pageSize, rows.length, totalPages rows.length pageSize⟩))
    (hread : ∀ orders page h result, request orders page h = .ok result → Usable) :
    (∀ orders, PagedOnce pageSize (rows.map key) (request orders)) ↔
      Usable ∧ TiesOnOnePage le pageSize rows := by
  by_cases hdates : Usable
  · have hiff := pagedOnce_iff rows some key choice request htrans htotal hsize
      (by rwa [List.filterMap_some]) hchoice
    simp only [List.filterMap_some] at hiff
    simp only [hdates, true_and]
    exact hiff (hrequest hdates)
  · constructor
    · intro h
      obtain ⟨pages, hrequests, -⟩ := h fun _ => {}
      exact absurd (hread _ _ _ _ (hrequests 0)) hdates
    · intro h
      exact absurd h.1 hdates

/-! ### Dates -/

theorem optionalDate_eq_ok {parse : DateString → Option Instant} {date : Option DateString}
    {t : Option Instant} :
    optionalDate parse date = .ok t ↔ (∀ d ∈ date, parse d ≠ none) ∧ t = date.bind parse := by
  cases date with
  | none => simp [optionalDate, eq_comm]
  | some d => cases h : parse d <;> simp [optionalDate, orThrow, Except.map, h, eq_comm]

/-- A date that may be left out is usable when it can be read, and what it is read as sent. -/
theorem forall_usable_iff {parse : DateString → Option Instant} {Usable : DateString → Prop}
    (h : ∀ d, Usable d ↔ ∃ t, parse d = some t ∧ firstTimestamp ≤ t) {date : Option DateString} :
    (∀ d ∈ date, Usable d) ↔
      (∀ d ∈ date, parse d ≠ none) ∧ ∀ t ∈ date.bind parse, firstTimestamp ≤ t := by
  cases date with
  | none => simp
  | some d => cases hparse : parse d <;> simp [h, hparse]

/-! ### Sort directions -/

theorem SortOrder.le_trans {κ : Type} (order : SortOrder) {le : κ → κ → Bool}
    (h : ∀ a b c, le a b = true → le b c = true → le a c = true) (a b c : κ)
    (hab : order.le le a b = true) (hbc : order.le le b c = true) : order.le le a c = true := by
  cases order with
  | asc => exact h a b c hab hbc
  | desc => exact h c b a hbc hab

theorem SortOrder.le_total {κ : Type} (order : SortOrder) {le : κ → κ → Bool}
    (h : ∀ a b, (le a b || le b a) = true) (a b : κ) :
    (order.le le a b || order.le le b a) = true := by
  cases order with
  | asc => exact h a b
  | desc => exact h b a

/-! ### Bookings -/

/-- The same query, another page. -/
def AdminBookingListQuery.onPage (query : AdminBookingListQuery) (page : ℕ) (h : 1 ≤ page) :
    AdminBookingListQuery :=
  { query with page := page, one_le_page := h }

/-- The dates that the query has can be read, and sent to the database. -/
def AdminBookingListQuery.DatesUsable (rollsOver : DateString → Bool)
    (query : AdminBookingListQuery) : Prop :=
  (∀ d ∈ query.createdFrom, d.UsableFrom rollsOver) ∧
    (∀ d ∈ query.createdTo, d.UsableUntil rollsOver) ∧
    (∀ d ∈ query.slotFrom, d.UsableFrom rollsOver) ∧ ∀ d ∈ query.slotTo, d.UsableUntil rollsOver

/-- The windows of the query as instants. -/
def AdminBookingListQuery.windows (rollsOver : DateString → Bool)
    (query : AdminBookingListQuery) : BookingWindows where
  createdFrom := query.createdFrom.bind (parseUtcDate rollsOver)
  createdTo := query.createdTo.bind (endDateExclusive rollsOver)
  slotFrom := query.slotFrom.bind (parseUtcDate rollsOver)
  slotTo := query.slotTo.bind (endDateExclusive rollsOver)

/-- The bookings that match the filters. -/
def matchingBookings (rt : Runtime) (tenantId : Uuid) (query : AdminBookingListQuery)
    (db : Database) : List Booking :=
  db.bookings.findMany (bookingWhere tenantId query (query.windows rt.rollsOver) db)

/-- The order of the rows that the sort key asks for. -/
def bookingLe (query : AdminBookingListQuery) (db : Database) (a b : Booking) : Bool :=
  match query.sortBy with
  | .status => query.sortOrder.le (fun m n => m ≤ n) a.status.rank b.status.rank
  | .totalPrice => query.sortOrder.le (fun p q => p ≤ q) a.totalPrice b.totalPrice
  | .slotStartsAt =>
    query.sortOrder.le (fun s t => s ≤ t)
      (((db.availabilitySlots.get? a.slotId).map AvailabilitySlot.startsAt).getD 0)
      (((db.availabilitySlots.get? b.slotId).map AvailabilitySlot.startsAt).getD 0)
  | .createdAt => query.sortOrder.le (fun s t => s ≤ t) a.createdAt b.createdAt

theorem orderBookings_eq (query : AdminBookingListQuery) (db : Database) (rows : List Booking) :
    orderBookings query db rows = rows.mergeSort (bookingLe query db) := by
  unfold orderBookings bookingLe
  cases query.sortBy <;> rfl

theorem bookingLe_trans (query : AdminBookingListQuery) (db : Database) (a b c : Booking)
    (hab : bookingLe query db a b = true) (hbc : bookingLe query db b c = true) :
    bookingLe query db a c = true := by
  unfold bookingLe at *
  cases h : query.sortBy <;> simp only [h] at hab hbc ⊢
  all_goals exact query.sortOrder.le_trans (by simpa using fun a b c => le_trans) _ _ _ hab hbc

theorem bookingLe_total (query : AdminBookingListQuery) (db : Database) (a b : Booking) :
    (bookingLe query db a b || bookingLe query db b a) = true := by
  unfold bookingLe
  cases query.sortBy
  all_goals exact query.sortOrder.le_total (by simpa using fun a b => le_total a b) _ _

/-- A mapped computation that keeps a key. -/
theorem map_eq_of_mapM {ε α β ι : Type} {f : α → Except ε β} {g : β → ι} {h : α → ι}
    (hf : ∀ a b, f a = .ok b → g b = h a) {l : List α} {l' : List β} (hl : l.mapM f = .ok l') :
    l'.map g = l.map h := by
  have hall := Except.mapM_eq_ok.mp hl
  clear hl
  induction hall with
  | nil => rfl
  | cons hab _ ih => rw [List.map_cons, List.map_cons, hf _ _ hab, ih]

theorem toAdminBookingListItem_reference {db : Database} {b : Booking} {item : AdminBookingListItem}
    (h : toAdminBookingListItem db b = .ok item) : item.bookingRef = b.reference := by
  simp only [toAdminBookingListItem, Except.bind_eq_ok, Except.pure_eq_ok] at h
  obtain ⟨user, -, experience, -, slot, -, rfl⟩ := h
  rfl

theorem exists_toAdminBookingListItem {db : Database} (hdb : SchemaConstraints db) {b : Booking}
    (hb : b ∈ db.bookings) : ∃ item, toAdminBookingListItem db b = .ok item := by
  obtain ⟨user, huser⟩ := hdb.bookingUser b hb
  obtain ⟨experience, hexperience⟩ := hdb.bookingExperience b hb
  obtain ⟨slot, hslot⟩ := hdb.bookingSlot b hb
  simp only [toAdminBookingListItem, Except.bind_eq_ok, Except.pure_eq_ok, required_eq_ok]
  exact ⟨_, user, huser, experience, hexperience, slot, hslot, rfl⟩

theorem listTenantBookings_ok {rt : Runtime} {order : RowOrder} {tenantId : Uuid}
    {query : AdminBookingListQuery} {db : Database} {result : AdminBookingListResult} :
    listTenantBookings rt order tenantId query db = .ok result ↔
      query.DatesUsable rt.rollsOver ∧ ∃ items,
        (pageOf query.page query.pageSize
          ((order.bookings.apply (matchingBookings rt tenantId query db)).mergeSort
            (bookingLe query db))).mapM (toAdminBookingListItem db) = .ok items ∧
        result = ⟨items, ⟨query.page, query.pageSize,
          (matchingBookings rt tenantId query db).length,
          totalPages (matchingBookings rt tenantId query db).length query.pageSize⟩⟩ := by
  simp only [listTenantBookings, Except.bind_eq_ok, optionalDate_eq_ok, Except.pure_eq_ok,
    sendInstants_reduceOption_eq_ok, List.forall_mem_cons, List.not_mem_nil, false_implies,
    implies_true, and_true, orderBookings_eq, Arrangement.length_apply,
    AdminBookingListQuery.DatesUsable, forall_usable_iff fun _ => usableFrom_iff,
    forall_usable_iff fun _ => usableUntil_iff]
  constructor
  · intro ⟨_, ⟨h₁, h₁'⟩, _, ⟨h₂, h₂'⟩, _, ⟨h₃, h₃'⟩, _, ⟨h₄, h₄'⟩, _, ⟨hs₁, hs₂, hs₃, hs₄⟩, items,
      hitems, hresult⟩
    subst h₁' h₂' h₃' h₄' hresult
    exact ⟨⟨⟨h₁, hs₁⟩, ⟨h₂, hs₂⟩, ⟨h₃, hs₃⟩, ⟨h₄, hs₄⟩⟩, items, hitems, rfl⟩
  · intro ⟨⟨⟨h₁, hs₁⟩, ⟨h₂, hs₂⟩, ⟨h₃, hs₃⟩, ⟨h₄, hs₄⟩⟩, items, hitems, hresult⟩
    exact ⟨_, ⟨h₁, rfl⟩, _, ⟨h₂, rfl⟩, _, ⟨h₃, rfl⟩, _, ⟨h₄, rfl⟩, (), ⟨hs₁, hs₂, hs₃, hs₄⟩, items,
      hitems, hresult.symm⟩

/-- A request for a page of the bookings, as the references it returns. -/
def requestBookings (rt : Runtime) (tenantId : Uuid) (query : AdminBookingListQuery) (db : Database)
    (orders : ℕ → RowOrder) (page : ℕ) (h : 1 ≤ page) :
    Except Failure (List String × Pagination) :=
  (listTenantBookings rt (orders page) tenantId (query.onPage page h) db).map fun result =>
    (result.items.map AdminBookingListItem.bookingRef, result.pagination)

theorem requestBookings_ok {rt : Runtime} {tenantId : Uuid} {query : AdminBookingListQuery}
    {db : Database} (hdb : SchemaConstraints db) (hdates : query.DatesUsable rt.rollsOver)
    (orders : ℕ → RowOrder) {page : ℕ} (h : 1 ≤ page) :
    requestBookings rt tenantId query db orders page h = .ok
      ((pageOf page query.pageSize (((orders page).bookings.apply
        (matchingBookings rt tenantId query db)).mergeSort (bookingLe query db))).map
          Booking.reference,
        ⟨page, query.pageSize, (matchingBookings rt tenantId query db).length,
          totalPages (matchingBookings rt tenantId query db).length query.pageSize⟩) := by
  have hitem : ∀ b ∈ pageOf page query.pageSize (((orders page).bookings.apply
      (matchingBookings rt tenantId query db)).mergeSort (bookingLe query db)),
      ∃ item, toAdminBookingListItem db b = .ok item := by
    intro b hb
    have hmem := mem_pageOf hb
    rw [List.mem_mergeSort, Arrangement.mem_apply, matchingBookings, Table.mem_findMany] at hmem
    exact exists_toAdminBookingListItem hdb hmem.1
  obtain ⟨items, hitems⟩ := Except.exists_mapM_eq_ok hitem
  have hok : listTenantBookings rt (orders page) tenantId (query.onPage page h) db =
      .ok ⟨items, _⟩ :=
    listTenantBookings_ok.mpr ⟨hdates, items, hitems, rfl⟩
  rw [requestBookings, hok, ← map_eq_of_mapM (fun _ _ => toAdminBookingListItem_reference) hitems]
  rfl

/-- **The bookings of a tenant, page by page.** -/
theorem bookings_paged_once_iff (rt : Runtime) (tenantId : Uuid) {db : Database}
    (hdb : SchemaConstraints db) (query : AdminBookingListQuery) :
    (∀ orders, PagedOnce query.pageSize
        ((matchingBookings rt tenantId query db).map Booking.reference)
        (requestBookings rt tenantId query db orders)) ↔
      query.DatesUsable rt.rollsOver ∧
        TiesOnOnePage (bookingLe query db) query.pageSize
          (matchingBookings rt tenantId query db) := by
  have hnodup : ((matchingBookings rt tenantId query db).map Booking.reference).Nodup :=
    hdb.bookingReference.sublist (List.filter_sublist.map _)
  refine usable_pagedOnce_iff (matchingBookings rt tenantId query db) Booking.reference
    RowOrder.bookings (requestBookings rt tenantId query db) (bookingLe_trans query db)
    (bookingLe_total query db) query.one_le_pageSize hnodup (fun a => ⟨{ bookings := a }, rfl⟩)
    (fun hdates orders i => requestBookings_ok hdb hdates orders (Nat.succ_pos i)) ?_
  intro orders page h result hrequest
  obtain ⟨listed, hok, -⟩ := Except.map_eq_ok.mp hrequest
  exact (listTenantBookings_ok.mp hok).1

/-! ### Audit logs -/

/-- The same query, another page. -/
def AuditLogListQuery.onPage (query : AuditLogListQuery) (page : ℕ) (h : 1 ≤ page) :
    AuditLogListQuery :=
  { query with page := page, one_le_page := h }

/-- The dates that the query has can be read, and sent to the database. -/
def AuditLogListQuery.DatesUsable (rollsOver : DateString → Bool) (query : AuditLogListQuery) :
    Prop :=
  (∀ d ∈ query.from_, d.UsableFrom rollsOver) ∧ ∀ d ∈ query.to_, d.UsableUntil rollsOver

/-- The audit logs that match the filters. -/
def matchingAuditLogs (rt : Runtime) (tenantId : Uuid) (query : AuditLogListQuery)
    (db : Database) : List AuditLog :=
  db.auditLogs.filter (auditLogWhere tenantId query (query.from_.bind (parseUtcDate rt.rollsOver))
    (query.to_.bind (endDateExclusive rt.rollsOver)))

/-- The order of the rows that the query asks for. -/
def auditLogLe (query : AuditLogListQuery) (a b : AuditLog) : Bool :=
  query.sortOrder.le (fun s t => s ≤ t) a.createdAt b.createdAt

theorem auditLogLe_trans (query : AuditLogListQuery) (a b c : AuditLog)
    (hab : auditLogLe query a b = true) (hbc : auditLogLe query b c = true) :
    auditLogLe query a c = true :=
  query.sortOrder.le_trans (by simpa using fun a b c => le_trans) _ _ _ hab hbc

theorem auditLogLe_total (query : AuditLogListQuery) (a b : AuditLog) :
    (auditLogLe query a b || auditLogLe query b a) = true :=
  query.sortOrder.le_total (by simpa using fun a b => le_total a b) _ _

theorem listAuditLogs_ok {rt : Runtime} {order : RowOrder} {tenantId : Uuid}
    {query : AuditLogListQuery} {db : Database} {result : AuditLogListResult} :
    listAuditLogs rt order tenantId query db = .ok result ↔
      query.DatesUsable rt.rollsOver ∧
        result = ⟨(pageOf query.page query.pageSize
          ((order.auditLogs.apply (matchingAuditLogs rt tenantId query db)).mergeSort
            (auditLogLe query))).map (toAuditLogListItem db),
          ⟨query.page, query.pageSize, (matchingAuditLogs rt tenantId query db).length,
            totalPages (matchingAuditLogs rt tenantId query db).length query.pageSize⟩⟩ := by
  simp only [listAuditLogs, Except.bind_eq_ok, optionalDate_eq_ok, Except.pure_eq_ok,
    sendInstants_reduceOption_eq_ok, List.forall_mem_cons, List.not_mem_nil, false_implies,
    implies_true, and_true, Arrangement.length_apply, AuditLogListQuery.DatesUsable,
    forall_usable_iff fun _ => usableFrom_iff, forall_usable_iff fun _ => usableUntil_iff]
  constructor
  · intro ⟨_, ⟨hfrom, hfrom'⟩, _, ⟨hto, hto'⟩, _, ⟨hsent, hsent'⟩, hresult⟩
    subst hfrom' hto' hresult
    exact ⟨⟨⟨hfrom, hsent⟩, ⟨hto, hsent'⟩⟩, rfl⟩
  · intro ⟨⟨⟨hfrom, hsent⟩, ⟨hto, hsent'⟩⟩, hresult⟩
    exact ⟨_, ⟨hfrom, rfl⟩, _, ⟨hto, rfl⟩, (), ⟨hsent, hsent'⟩, hresult.symm⟩

/-- A request for a page of the audit logs, as the identifiers it returns. -/
def requestAuditLogs (rt : Runtime) (tenantId : Uuid) (query : AuditLogListQuery) (db : Database)
    (orders : ℕ → RowOrder) (page : ℕ) (h : 1 ≤ page) :
    Except Failure (List Uuid × Pagination) :=
  (listAuditLogs rt (orders page) tenantId (query.onPage page h) db).map fun result =>
    (result.items.map AuditLogListItem.id, result.pagination)

theorem requestAuditLogs_ok {rt : Runtime} {tenantId : Uuid} {query : AuditLogListQuery}
    {db : Database} (hdates : query.DatesUsable rt.rollsOver) (orders : ℕ → RowOrder) {page : ℕ}
    (h : 1 ≤ page) :
    requestAuditLogs rt tenantId query db orders page h = .ok
      ((pageOf page query.pageSize (((orders page).auditLogs.apply
        (matchingAuditLogs rt tenantId query db)).mergeSort (auditLogLe query))).map AuditLog.id,
        ⟨page, query.pageSize, (matchingAuditLogs rt tenantId query db).length,
          totalPages (matchingAuditLogs rt tenantId query db).length query.pageSize⟩) := by
  have hok : listAuditLogs rt (orders page) tenantId (query.onPage page h) db = .ok _ :=
    listAuditLogs_ok.mpr ⟨hdates, rfl⟩
  rw [requestAuditLogs, hok]
  simp only [Except.map, List.map_map]
  rfl

/-- **The audit logs of a tenant, page by page.** -/
theorem audit_logs_paged_once_iff (rt : Runtime) (tenantId : Uuid) {db : Database}
    (hdb : SchemaConstraints db) (query : AuditLogListQuery) :
    (∀ orders, PagedOnce query.pageSize
        ((matchingAuditLogs rt tenantId query db).map AuditLog.id)
        (requestAuditLogs rt tenantId query db orders)) ↔
      query.DatesUsable rt.rollsOver ∧
        TiesOnOnePage (auditLogLe query) query.pageSize
          (matchingAuditLogs rt tenantId query db) := by
  have hnodup : ((matchingAuditLogs rt tenantId query db).map AuditLog.id).Nodup :=
    hdb.auditLogId.sublist (List.filter_sublist.map _)
  refine usable_pagedOnce_iff (matchingAuditLogs rt tenantId query db) AuditLog.id
    RowOrder.auditLogs (requestAuditLogs rt tenantId query db) (auditLogLe_trans query)
    (auditLogLe_total query) query.one_le_pageSize hnodup (fun a => ⟨{ auditLogs := a }, rfl⟩)
    (fun hdates orders i => requestAuditLogs_ok hdates orders (Nat.succ_pos i)) ?_
  intro orders page h result hrequest
  obtain ⟨listed, hok, -⟩ := Except.map_eq_ok.mp hrequest
  exact (listAuditLogs_ok.mp hok).1

/-! ### Experiences -/

/-- The row of an experience in the grouped query. -/
def listedRow (db : Database) (slotFilter : AvailabilitySlot → Bool) (e : Experience) :
    Option GroupedExperienceRow :=
  (db.suppliers.get? e.supplierId).bind fun sup => groupedRow e sup (joinedSlots db slotFilter e.id)

theorem listedRow_id {db : Database} {slotFilter : AvailabilitySlot → Bool} {e : Experience}
    {row : GroupedExperienceRow} (h : listedRow db slotFilter e = some row) : row.id = e.id := by
  obtain ⟨sup, -, hrow⟩ := Option.bind_eq_some_iff.mp h
  obtain ⟨earliest, -, rfl⟩ := groupedRow_eq_some.mp hrow
  rfl

/-- The query on the identifiers of the experiences that match finds these again. -/
theorem groupedFrom_eq {rt : Runtime} (order order' : RowOrder) {tenantId : Uuid}
    {query : ExperienceSearchQuery} {db : Database} (slotFilter : AvailabilitySlot → Bool) :
    groupedFrom order db (experienceIds rt order' tenantId query db) slotFilter =
      (order.groupedExperiences.apply (matchingExperiences rt {} tenantId query db)).filterMap
        (listedRow db slotFilter) := by
  have hfound : db.experiences.findMany (fun e => e.id ∈ experienceIds rt order' tenantId query db)
      = matchingExperiences rt {} tenantId query db := by
    refine List.filter_congr fun e he => decide_eq_decide.mpr ⟨fun hid => ?_, fun hmatch => ?_⟩
    · obtain ⟨e', he', hids⟩ := List.mem_map.mp hid
      have hmem := mem_matchingExperiences.mp he'
      obtain rfl : e' = e := Table.eq_of_key hmem.1 he hids
      exact hmem.2
    · exact List.mem_map_of_mem (mem_matchingExperiences.mpr ⟨he, hmatch⟩)
  rw [groupedFrom, hfound]
  rfl

/-- The rows that a search pages through; there are none when it cannot read its
dates. -/
def searchRows (rt : Runtime) (tenantId : Uuid) (query : ExperienceSearchQuery) (db : Database) :
    List GroupedExperienceRow :=
  match parseUtcDate rt.rollsOver query.startDate, endDateExclusive rt.rollsOver query.endDate with
  | some startAt, some endAt =>
    (matchingExperiences rt {} tenantId query db).filterMap
      (listedRow db (slotInWindow tenantId startAt endAt query.partySize))
  | _, _ => []

/-- The order of the rows that the sort key asks for. -/
def groupedLe (rt : Runtime) (query : ExperienceSearchQuery) (a b : GroupedExperienceRow) : Bool :=
  match query.sortBy with
  | .title => query.sortOrder.le rt.titles.le a.title b.title
  | .availableSpots => query.sortOrder.le (fun m n => m ≤ n) a.availableSlots b.availableSlots
  | .startsAt | .price =>
    query.sortOrder.le (fun s t => s ≤ t) a.earliestSlotAt b.earliestSlotAt

theorem orderGrouped_eq (rt : Runtime) (query : ExperienceSearchQuery)
    (rows : List GroupedExperienceRow) :
    orderGrouped rt query rows = rows.mergeSort (groupedLe rt query) := by
  unfold orderGrouped groupedLe
  cases query.sortBy <;> rfl

theorem groupedLe_trans (rt : Runtime) (query : ExperienceSearchQuery)
    (a b c : GroupedExperienceRow) (hab : groupedLe rt query a b = true)
    (hbc : groupedLe rt query b c = true) : groupedLe rt query a c = true := by
  unfold groupedLe at *
  cases h : query.sortBy <;> simp only [h] at hab hbc ⊢
  case title => exact query.sortOrder.le_trans rt.titles.trans _ _ _ hab hbc
  all_goals exact query.sortOrder.le_trans (by simpa using fun a b c => le_trans) _ _ _ hab hbc

theorem groupedLe_total (rt : Runtime) (query : ExperienceSearchQuery)
    (a b : GroupedExperienceRow) : (groupedLe rt query a b || groupedLe rt query b a) = true := by
  unfold groupedLe
  cases query.sortBy
  case title => exact query.sortOrder.le_total rt.titles.total _ _
  all_goals exact query.sortOrder.le_total (by simpa using fun a b => le_total a b) _ _

theorem selectedRows_eq {rt : Runtime} (order : RowOrder) {tenantId : Uuid}
    {query : ExperienceSearchQuery} {db : Database} {startAt endAt : Instant} :
    selectedRows rt order tenantId query db startAt endAt =
      ((order.groupedExperiences.apply (matchingExperiences rt {} tenantId query db)).filterMap
        (listedRow db (slotInWindow tenantId startAt endAt query.partySize))).mergeSort
          (groupedLe rt query) := by
  rw [selectedRows, groupedFrom_eq, orderGrouped_eq]

theorem searchRows_eq {rt : Runtime} {tenantId : Uuid} {query : ExperienceSearchQuery}
    {db : Database} {startAt endAt : Instant}
    (hstart : parseUtcDate rt.rollsOver query.startDate = some startAt)
    (hend : endDateExclusive rt.rollsOver query.endDate = some endAt) :
    searchRows rt tenantId query db = (matchingExperiences rt {} tenantId query db).filterMap
      (listedRow db (slotInWindow tenantId startAt endAt query.partySize)) := by
  unfold searchRows
  rw [hstart, hend]

theorem searchRows_nil {rt : Runtime} {tenantId : Uuid} {query : ExperienceSearchQuery}
    {db : Database} (h : matchingExperiences rt {} tenantId query db = []) :
    searchRows rt tenantId query db = [] := by
  unfold searchRows
  split
  · rw [h, List.filterMap_nil]
  · rfl

theorem selectedRows_perm {rt : Runtime} (order : RowOrder) (tenantId : Uuid)
    {query : ExperienceSearchQuery} (db : Database) {startAt endAt : Instant}
    (hstart : parseUtcDate rt.rollsOver query.startDate = some startAt)
    (hend : endDateExclusive rt.rollsOver query.endDate = some endAt) :
    (selectedRows rt order tenantId query db startAt endAt).Perm
      (searchRows rt tenantId query db) := by
  rw [selectedRows_eq, searchRows_eq hstart hend]
  exact (List.mergeSort_perm _ _).trans ((order.groupedExperiences.perm _).filterMap _)

theorem searchRows_nodup (rt : Runtime) (tenantId : Uuid) (query : ExperienceSearchQuery)
    (db : Database) : ((searchRows rt tenantId query db).map GroupedExperienceRow.id).Nodup := by
  have hids : ((matchingExperiences rt {} tenantId query db).map Experience.id).Nodup :=
    db.experiences.nodup.sublist (List.filter_sublist.map _)
  unfold searchRows
  split
  · -- a row has the identifier of its experience
    rename_i startAt endAt _ _
    refine hids.sublist ?_
    induction matchingExperiences rt {} tenantId query db with
    | nil => simp
    | cons e es ih =>
      cases hrow : listedRow db (slotInWindow tenantId startAt endAt query.partySize) e with
      | none =>
        rw [List.filterMap_cons_none hrow]
        exact ih.cons _
      | some row =>
        rw [List.filterMap_cons_some hrow, List.map_cons, List.map_cons, listedRow_id hrow]
        exact ih.cons_cons _
  · simp

theorem experienceIds_eq_nil {rt : Runtime} {order : RowOrder} {tenantId : Uuid}
    {query : ExperienceSearchQuery} {db : Database} :
    experienceIds rt order tenantId query db = [] ↔
      matchingExperiences rt {} tenantId query db = [] := by
  rw [experienceIds, List.map_eq_nil_iff, ← List.length_eq_zero_iff, ← List.length_eq_zero_iff,
    matchingExperiences, matchingExperiences, Arrangement.length_apply, Arrangement.length_apply]

/-- A database that compares as many slots as it may. -/
def eager : RowOrder := { comparedEarly := fun _ => true }

/-- The places of the tenant's slots in the window of a search can be counted. -/
def ExperienceSearchQuery.WindowCounted (rt : Runtime) (tenantId : Uuid) (db : Database)
    (query : ExperienceSearchQuery) : Prop :=
  ∀ startAt ∈ parseUtcDate rt.rollsOver query.startDate,
    ∀ endAt ∈ endDateExclusive rt.rollsOver query.endDate, ∀ slot ∈ db.availabilitySlots,
      startsInWindow tenantId startAt endAt slot = true → slot.CountsPlaces

/-- The database answers a search: it is given dates that it reads, and compares places
that it can count. -/
def ExperienceSearchQuery.Answerable (rt : Runtime) (tenantId : Uuid) (db : Database)
    (query : ExperienceSearchQuery) : Prop :=
  query.startDate.UsableFrom rt.rollsOver ∧ query.endDate.UsableUntil rt.rollsOver ∧
    query.WindowCounted rt tenantId db

/-- **When the database answers a search**, whatever slots it compares early. -/
theorem ExperienceSearchQuery.answerable_iff {rt : Runtime} {tenantId : Uuid} {db : Database}
    {query : ExperienceSearchQuery} :
    query.Answerable rt tenantId db ↔ ∃ startAt endAt,
      parseUtcDate rt.rollsOver query.startDate = some startAt ∧
      endDateExclusive rt.rollsOver query.endDate = some endAt ∧
      (firstTimestamp ≤ startAt ∧ firstTimestamp ≤ endAt) ∧
      ∀ order experienceIds, PlacesCounted order tenantId startAt endAt experienceIds db := by
  rw [Answerable, usableFrom_iff, usableUntil_iff]
  constructor
  · rintro ⟨⟨startAt, hstart, hfrom⟩, ⟨endAt, hend, huntil⟩, hcounted⟩
    refine ⟨startAt, endAt, hstart, hend, ⟨hfrom, huntil⟩, fun order ids slot hslot hcompared => ?_⟩
    rw [comparedSlots, decide_eq_true_eq] at hcompared
    exact hcounted startAt hstart endAt hend slot hslot hcompared.1
  · rintro ⟨startAt, endAt, hstart, hend, ⟨hfrom, huntil⟩, hcounted⟩
    refine ⟨⟨startAt, hstart, hfrom⟩, ⟨endAt, hend, huntil⟩, ?_⟩
    intro startAt' hstart' endAt' hend' slot hslot hwindow
    obtain rfl := Option.some.inj (hstart.symm.trans hstart')
    obtain rfl := Option.some.inj (hend.symm.trans hend')
    -- a database that compares every slot of the window first
    refine hcounted eager [] slot hslot ?_
    simp only [comparedSlots, hwindow, eager, or_true, and_self, decide_true]

/-- A search that a database answers that compares every slot of the window is one that
all answer. -/
theorem answerable_of_eager {P : Pricer} {rt : Runtime} {tenantId : Uuid}
    {query : ExperienceSearchQuery} {db : Database} {now : Instant}
    {result : ExperienceSearchResult P.Price} {order : RowOrder}
    (hmatch : experienceIds rt order tenantId query db ≠ [])
    (heager : order.comparedEarly = eager.comparedEarly)
    (h : searchExperiencesIn P rt order tenantId query db now = .ok result) :
    query.Answerable rt tenantId db := by
  obtain ⟨startAt, endAt, -, hstart, hend, hsent, hcounted, -⟩ :=
    (searchExperiencesIn_ok hmatch).mp h
  refine ExperienceSearchQuery.answerable_iff.mpr ⟨startAt, endAt, hstart, hend, hsent, ?_⟩
  intro order' ids slot hslot hcompared
  rw [comparedSlots, decide_eq_true_eq] at hcompared
  refine hcounted slot hslot ?_
  simp only [comparedSlots, hcompared.1, heager, eager, or_true, and_self, decide_true]

/-- A request for a page of the experiences, as the identifiers it returns. -/
def requestExperiences (rt : Runtime) (tenantId : Uuid) (query : ExperienceSearchQuery)
    (db : Database) (clock : ℕ → Instant) (orders : ℕ → RowOrder) (page : ℕ) (h : 1 ≤ page) :
    Except Failure (List Uuid × Pagination) :=
  (searchExperiences rt (orders page) tenantId (query.onPage page h) db (clock page)).map
    fun result => (result.items.map ExperienceSearchItem.id, result.pagination)

theorem requestExperiences_nil {rt : Runtime} {tenantId : Uuid} {query : ExperienceSearchQuery}
    {db : Database} (hmatch : matchingExperiences rt {} tenantId query db = [])
    (clock : ℕ → Instant) (orders : ℕ → RowOrder) {page : ℕ} (h : 1 ≤ page) :
    requestExperiences rt tenantId query db clock orders page h
      = .ok ([], ⟨page, query.pageSize, 0, 0⟩) := by
  have hids : experienceIds rt (orders page) tenantId (query.onPage page h) db = [] :=
    experienceIds_eq_nil.mpr hmatch
  rw [requestExperiences, searchExperiences, searchExperiencesIn_nil hids]
  rfl

theorem requestExperiences_ok {rt : Runtime} {tenantId : Uuid} {query : ExperienceSearchQuery}
    {db : Database} (hdb : SchemaConstraints db) (hsort : query.sortBy ≠ .price)
    {startAt endAt : Instant} (hstart : parseUtcDate rt.rollsOver query.startDate = some startAt)
    (hend : endDateExclusive rt.rollsOver query.endDate = some endAt)
    (hsent : firstTimestamp ≤ startAt ∧ firstTimestamp ≤ endAt)
    (hcounted : ∀ order experienceIds, PlacesCounted order tenantId startAt endAt experienceIds db)
    (clock : ℕ → Instant) (orders : ℕ → RowOrder) {page : ℕ} (h : 1 ≤ page) :
    requestExperiences rt tenantId query db clock orders page h = .ok
      ((pageOf page query.pageSize
          (selectedRows rt (orders page) tenantId query db startAt endAt)).map
            GroupedExperienceRow.id,
        ⟨page, query.pageSize, (searchRows rt tenantId query db).length,
          totalPages (searchRows rt tenantId query db).length query.pageSize⟩) := by
  have hlength := (selectedRows_perm (orders page) tenantId db hstart hend).length_eq
  by_cases hids : experienceIds rt (orders page) tenantId query db = []
  · have hmatch := experienceIds_eq_nil.mp hids
    rw [requestExperiences_nil hmatch]
    rw [searchRows_nil hmatch] at hlength ⊢
    rw [List.length_eq_zero_iff.mp hlength]
    simp [pageOf, totalPages]
  · obtain ⟨fromPrice, hprice⟩ := exists_fromPrice .exact hdb.experienceSupplier (orders page)
      tenantId   query.partySize (slotInWindow tenantId startAt endAt query.partySize)
      (pageExperienceIds (query.onPage page h) (experienceIds rt (orders page) tenantId query db)
        (limitRows (query.onPage page h)
          (selectedRows rt (orders page) tenantId query db startAt endAt))) (clock page)
    have hpaged : experienceIds rt (orders page) tenantId (query.onPage page h) db ≠ [] := hids
    have hok : searchExperiences rt (orders page) tenantId (query.onPage page h) db (clock page)
        = .ok _ :=
      (searchExperiencesIn_ok hpaged).mpr
        ⟨startAt, endAt, fromPrice, hstart, hend, hsent, hcounted _ _, hprice, rfl⟩
    have hrows : ∀ rows, pageRows .exact (query.onPage page h) fromPrice
        (limitRows (query.onPage page h) rows) = pageOf page query.pageSize rows := by
      intro rows
      unfold pageRows limitRows
      rw [if_neg (show (query.onPage page h).sortBy ≠ .price from hsort),
        if_neg (show (query.onPage page h).sortBy ≠ .price from hsort)]
      rfl
    rw [requestExperiences, hok, ← hlength]
    simp only [Except.map, searchResult, hrows, List.map_map]
    rfl

/-- **The experiences of a search, page by page**, when the database cuts the pages. -/
theorem experiences_paged_once_iff (rt : Runtime) (tenantId : Uuid) {db : Database}
    (hdb : SchemaConstraints db) (query : ExperienceSearchQuery) (hsort : query.sortBy ≠ .price)
    (clock : ℕ → Instant) :
    (∀ orders, PagedOnce query.pageSize
        ((searchRows rt tenantId query db).map GroupedExperienceRow.id)
        (requestExperiences rt tenantId query db clock orders)) ↔
      (matchingExperiences rt {} tenantId query db = [] ∨ query.Answerable rt tenantId db) ∧
      TiesOnOnePage (groupedLe rt query) query.pageSize (searchRows rt tenantId query db) := by
  by_cases hmatch : matchingExperiences rt {} tenantId query db = []
  · -- nothing matches, so the dates are not read
    rw [searchRows_nil hmatch]
    refine ⟨fun _ => ⟨Or.inl hmatch, fun x hx => absurd hx List.not_mem_nil⟩, fun _ orders => ?_⟩
    exact ⟨fun _ => [], fun i => requestExperiences_nil hmatch clock orders (Nat.succ_pos i),
      List.Perm.refl _⟩
  by_cases hanswer : query.Answerable rt tenantId db
  · obtain ⟨startAt, endAt, hstart, hend, hsent, hcounted⟩ :=
      ExperienceSearchQuery.answerable_iff.mp hanswer
    simp only [hanswer, or_true, true_and]
    have hiff := pagedOnce_iff (matchingExperiences rt {} tenantId query db)
      (listedRow db (slotInWindow tenantId startAt endAt query.partySize)) GroupedExperienceRow.id
      RowOrder.groupedExperiences (requestExperiences rt tenantId query db clock)
      (groupedLe_trans rt query) (groupedLe_total rt query) query.one_le_pageSize
      (by rw [← searchRows_eq hstart hend]; exact searchRows_nodup rt tenantId query db)
      fun a => ⟨{ groupedExperiences := a }, rfl⟩
    rw [← searchRows_eq hstart hend] at hiff
    refine hiff fun orders i => ?_
    rw [requestExperiences_ok hdb hsort hstart hend hsent hcounted clock orders (Nat.succ_pos i),
      selectedRows_eq]
    rfl
  · constructor
    · intro h
      obtain ⟨pages, hrequests, -⟩ := h fun _ => eager
      obtain ⟨result, hok, -⟩ := Except.map_eq_ok.mp (hrequests 0)
      have hids : experienceIds rt eager tenantId (query.onPage 1 le_rfl) db ≠ [] :=
        mt experienceIds_eq_nil.mp hmatch
      exact absurd (answerable_of_eager hids rfl hok) hanswer
    · intro h
      exact absurd (h.1.resolve_left hmatch) hanswer

/-- **When paging returns every row once**: a query that the database answers, and a sort
key that no page ends among the ties of. -/
theorem listings_paged_once_iff (rt : Runtime) (tenantId : Uuid) {db : Database}
    (hdb : SchemaConstraints db) :
    (∀ query : AdminBookingListQuery,
      (∀ orders, PagedOnce query.pageSize
          ((matchingBookings rt tenantId query db).map Booking.reference)
          (requestBookings rt tenantId query db orders)) ↔
        query.DatesUsable rt.rollsOver ∧
          TiesOnOnePage (bookingLe query db) query.pageSize
            (matchingBookings rt tenantId query db)) ∧
    (∀ query : AuditLogListQuery,
      (∀ orders, PagedOnce query.pageSize
          ((matchingAuditLogs rt tenantId query db).map AuditLog.id)
          (requestAuditLogs rt tenantId query db orders)) ↔
        query.DatesUsable rt.rollsOver ∧
          TiesOnOnePage (auditLogLe query) query.pageSize
            (matchingAuditLogs rt tenantId query db)) ∧
    ∀ query : ExperienceSearchQuery, query.sortBy ≠ .price → ∀ clock,
      ((∀ orders, PagedOnce query.pageSize
          ((searchRows rt tenantId query db).map GroupedExperienceRow.id)
          (requestExperiences rt tenantId query db clock orders)) ↔
        (matchingExperiences rt {} tenantId query db = [] ∨ query.Answerable rt tenantId db) ∧
        TiesOnOnePage (groupedLe rt query) query.pageSize (searchRows rt tenantId query db)) :=
  ⟨bookings_paged_once_iff rt tenantId hdb, audit_logs_paged_once_iff rt tenantId hdb,
    experiences_paged_once_iff rt tenantId hdb⟩

/-! ### Two logs of one instant -/

namespace TwoLogs

open Offer

/-- An audit row, all at one instant. -/
def log (n : ℕ) : AuditLog where
  id := uuid n
  tenantId := some (uuid 1)
  actorUserId := none
  eventType := .bookingReserved
  entityType := "Booking"
  entityId := none
  metadata := none
  createdAt := 0

/-- Two rows at the same instant. -/
def database : Database where
  auditLogs := [log 8, log 9]

theorem constraints : SchemaConstraints database where
  experienceSupplier := fun e he => absurd he List.not_mem_nil
  bookingUser := fun b hb => absurd hb List.not_mem_nil
  bookingExperience := fun b hb => absurd hb List.not_mem_nil
  bookingSlot := fun b hb => absurd hb List.not_mem_nil
  bookingReference := List.nodup_nil
  auditLogId := by decide

theorem no_dates : ∀ s ∈ (none : Option DateString), ∀ e ∈ (none : Option DateString), s ≤ e := by
  simp

/-- All logs, latest first. -/
def query (pageSize : ℕ) (hone : 1 ≤ pageSize) (hle : pageSize ≤ 100) : AuditLogListQuery where
  eventType := none
  entityType := none
  entityId := none
  actorUserId := none
  from_ := none
  to_ := none
  sortOrder := .desc
  page := 1
  pageSize := pageSize
  entityType_ne := fun t h => absurd h (Option.not_mem_none t)
  dates := no_dates
  one_le_page := Nat.one_pos
  one_le_pageSize := hone
  pageSize_le := hle

end TwoLogs

/-! ### Three rows of each kind -/

namespace Season

open LateConfirm

/-- A reservation on a departure. -/
def reservation (n slot : ℕ) (reference : String) (createdAt : Instant) : Booking :=
  { LateConfirm.booking with
    id := uuid n, slotId := uuid slot, reference := reference, createdAt := createdAt }

/-- The season with three bookings and three logs; two of each are of one instant. -/
def booked : Database :=
  { database with
    users := ⟨[⟨uuid 2, uuid 1, "guest@tenant", "", .viewer, true⟩], List.nodup_singleton _⟩
    bookings := ⟨[reservation 10 5 "BK-0000000A" 0, reservation 11 32 "BK-0000000B" 0,
      reservation 12 33 "BK-0000000C" 1], by decide⟩
    auditLogs := [{ TwoLogs.log 20 with createdAt := 1 }, { TwoLogs.log 21 with createdAt := 1 },
      TwoLogs.log 22] }

theorem constraints : SchemaConstraints booked where
  experienceSupplier := fun e he => (closed.experience e he).imp fun _ h => h.1
  bookingUser := by
    have h : ∀ b ∈ booked.bookings.rows, b.userId = uuid 2 := by decide
    intro b hb
    rw [h b hb]
    exact ⟨_, rfl⟩
  bookingExperience := by
    have h : ∀ b ∈ booked.bookings.rows, b.experienceId = uuid 4 := by decide
    intro b hb
    rw [h b hb]
    exact ⟨_, rfl⟩
  bookingSlot := by
    have h : ∀ b ∈ booked.bookings.rows, ∃ s ∈ booked.availabilitySlots.rows, s.id = b.slotId := by
      decide
    intro b hb
    obtain ⟨s, hs, hid⟩ := h b hb
    exact ⟨s, hid ▸ Table.get?_key hs⟩
  bookingReference := by decide
  auditLogId := by decide

/-- All bookings, earliest first. -/
def bookings : AdminBookingListQuery where
  status := none
  userId := none
  experienceId := none
  reference := none
  createdFrom := none
  createdTo := none
  slotFrom := none
  slotTo := none
  sortBy := .createdAt
  sortOrder := .asc
  page := 1
  pageSize := 2
  reference_ne := fun r h => absurd h (Option.not_mem_none r)
  created := TwoLogs.no_dates
  slot := TwoLogs.no_dates
  one_le_page := Nat.one_pos
  one_le_pageSize := by decide
  pageSize_le := by decide

end Season

open Season LateConfirm in
/-- Two pages of each listing return the three rows once. -/
theorem listings_paged_once_iff_season :
    (∀ orders, PagedOnce 2 ["BK-0000000A", "BK-0000000B", "BK-0000000C"]
      (requestBookings Offer.rt (uuid 1) bookings booked orders)) ∧
    (∀ orders, PagedOnce 2 [uuid 20, uuid 21, uuid 22] (requestAuditLogs Offer.rt (uuid 1)
      (TwoLogs.query 2 (by decide) (by decide)) booked orders)) ∧
    ∀ clock orders, PagedOnce 2 [uuid 4, uuid 30, uuid 31]
      (requestExperiences Offer.rt (uuid 1) (query .startsAt 2) booked clock orders) := by
  obtain ⟨hbookings, hlogs, hsearch⟩ := listings_paged_once_iff Offer.rt (uuid 1) constraints
  refine ⟨?_, ?_, fun clock => ?_⟩
  · refine (hbookings bookings).mpr ⟨?_, by decide⟩
    simp [AdminBookingListQuery.DatesUsable, bookings]
  · refine (hlogs (TwoLogs.query 2 _ _)).mpr ⟨?_, by decide⟩
    simp [AuditLogListQuery.DatesUsable, TwoLogs.query]
  · have hanswer : (query .startsAt 2).Answerable Offer.rt (uuid 1) booked :=
      ⟨by decide, by decide, fun _ _ _ _ s hs _ => counts s hs⟩
    exact (hsearch (query .startsAt 2) (by decide) clock).mpr ⟨Or.inr hanswer, by decide⟩

open TwoLogs in
/-- On a page each, one of them can be returned twice. -/
theorem listings_not_always_paged_once : ¬ ∀ (rt : Runtime) (tenantId : Uuid) (db : Database),
    SchemaConstraints db →
      (∀ (query : AdminBookingListQuery) orders, PagedOnce query.pageSize
        ((matchingBookings rt tenantId query db).map Booking.reference)
        (requestBookings rt tenantId query db orders)) ∧
      (∀ (query : AuditLogListQuery) orders, PagedOnce query.pageSize
        ((matchingAuditLogs rt tenantId query db).map AuditLog.id)
        (requestAuditLogs rt tenantId query db orders)) ∧
      ∀ query : ExperienceSearchQuery, query.sortBy ≠ .price → ∀ clock orders,
        PagedOnce query.pageSize
          ((searchRows rt tenantId query db).map GroupedExperienceRow.id)
          (requestExperiences rt tenantId query db clock orders) := by
  intro h
  have hpaged := (h Offer.rt (uuid 1) database constraints).2.1
    (query 1 (by decide) (by decide))
  have hties := ((audit_logs_paged_once_iff Offer.rt (uuid 1) constraints _).mp
    hpaged).2
  have hmem : log 8 ∈ matchingAuditLogs Offer.rt (uuid 1)
      (query 1 (by decide) (by decide)) database :=
    List.mem_filter.mpr ⟨List.mem_cons_self, by decide⟩
  exact hties (log 8) hmem 1 ⟨by decide, by decide⟩

end BookingPlatform
