import BookingPlatform.TenantRequests

/-!
# What a tenant sees

Two databases agree on a tenant when they hold the same rows of it.  A row is of a
tenant by its own column, or by the row it belongs to.  Every read of the services
gives the same result in databases that agree on its tenant, because each filter
pins the tenant down and each reference followed stays in it.

## Main definitions

* `TenantAgree` — two databases hold the same rows of a tenant.
* `IsSupplierOf`, `IsFamilyOf`, `auditLogsOf` — the rows of a tenant that have it by
  another row.

## Main results

* `TenantAgree.searchExperiences`, `TenantAgree.getExperienceDetail`,
  `TenantAgree.findOwnedBooking`, `TenantAgree.listTenantBookings`,
  `TenantAgree.listAuditLogs` — the reads of a tenant.
-/

namespace BookingPlatform

/-! ### The rows of a tenant -/

/-- The supplier is one of the tenant's. -/
def IsSupplierOf (tenantId : Uuid) (db : Database) (supplierId : Uuid) : Prop :=
  ∃ sup, db.suppliers.get? supplierId = some sup ∧ sup.tenantId = tenantId

/-- The family of a user of the tenant. -/
def IsFamilyOf (tenantId : Uuid) (db : Database) (familyId : Uuid) : Prop :=
  ∃ f, db.refreshTokenFamilies.get? familyId = some f ∧ IsUserOf tenantId db f.userId

/-- The audit logs of a tenant. -/
def auditLogsOf (tenantId : Uuid) (db : Database) : List AuditLog :=
  db.auditLogs.filter fun log => log.tenantId = some tenantId

/-- The two databases hold the same rows of the tenant. -/
structure TenantAgree (tenantId : Uuid) (db db' : Database) : Prop where
  tenants : Table.AgreeOn (fun t => t.id = tenantId) db.tenants db'.tenants
  users : Table.AgreeOn (fun u => u.tenantId = tenantId) db.users db'.users
  refreshTokenFamilies : Table.AgreeOn (fun f => IsUserOf tenantId db f.userId)
    db.refreshTokenFamilies db'.refreshTokenFamilies
  refreshTokens : Table.AgreeOn (fun t => IsFamilyOf tenantId db t.familyId)
    db.refreshTokens db'.refreshTokens
  suppliers : Table.AgreeOn (fun sup => sup.tenantId = tenantId) db.suppliers db'.suppliers
  experiences : Table.AgreeOn (fun e => e.tenantId = tenantId) db.experiences db'.experiences
  availabilitySlots : Table.AgreeOn (fun s => s.tenantId = tenantId)
    db.availabilitySlots db'.availabilitySlots
  pricingRules : Table.AgreeOn (fun r => IsSupplierOf tenantId db r.supplierId)
    db.pricingRules db'.pricingRules
  bookings : Table.AgreeOn (fun b => b.tenantId = tenantId) db.bookings db'.bookings
  history : ∀ b ∈ db.bookings, b.tenantId = tenantId →
    (db.historyOf b.id).Perm (db'.historyOf b.id)
  auditLogs : (auditLogsOf tenantId db).Perm (auditLogsOf tenantId db')

variable {A : Uuid} {db db' db'' : Database} {rt : Runtime} {order : RowOrder}

theorem isUserOf_congr (h : Table.AgreeOn (fun u => u.tenantId = A) db.users db'.users)
    {userId : Uuid} : IsUserOf A db userId ↔ IsUserOf A db' userId := by
  constructor
  · rintro ⟨u, hu, ht⟩
    exact ⟨u, h.get?_of_some hu ht, ht⟩
  · rintro ⟨u, hu, ht⟩
    exact ⟨u, h.symm.get?_of_some hu ht, ht⟩

theorem isSupplierOf_congr
    (h : Table.AgreeOn (fun sup => sup.tenantId = A) db.suppliers db'.suppliers)
    {supplierId : Uuid} : IsSupplierOf A db supplierId ↔ IsSupplierOf A db' supplierId := by
  constructor
  · rintro ⟨sup, hsup, ht⟩
    exact ⟨sup, h.get?_of_some hsup ht, ht⟩
  · rintro ⟨sup, hsup, ht⟩
    exact ⟨sup, h.symm.get?_of_some hsup ht, ht⟩

theorem TenantAgree.isFamilyOf_congr (h : TenantAgree A db db') {familyId : Uuid} :
    IsFamilyOf A db familyId ↔ IsFamilyOf A db' familyId := by
  constructor
  · rintro ⟨f, hf, hu⟩
    exact ⟨f, h.refreshTokenFamilies.get?_of_some hf hu, (isUserOf_congr h.users).mp hu⟩
  · rintro ⟨f, hf, hu⟩
    have hu := (isUserOf_congr h.users).mpr hu
    exact ⟨f, h.refreshTokenFamilies.symm.get?_of_some hf hu, hu⟩

namespace TenantAgree

theorem refl (A : Uuid) (db : Database) : TenantAgree A db db where
  tenants := .refl _ _
  users := .refl _ _
  refreshTokenFamilies := .refl _ _
  refreshTokens := .refl _ _
  suppliers := .refl _ _
  experiences := .refl _ _
  availabilitySlots := .refl _ _
  pricingRules := .refl _ _
  bookings := .refl _ _
  history _ _ _ := .refl _
  auditLogs := .refl _

theorem symm (h : TenantAgree A db db') : TenantAgree A db' db where
  tenants := h.tenants.symm
  users := h.users.symm
  refreshTokenFamilies := h.refreshTokenFamilies.symm.congr fun _ => (isUserOf_congr h.users).mpr
  refreshTokens := h.refreshTokens.symm.congr fun _ => h.isFamilyOf_congr.mpr
  suppliers := h.suppliers.symm
  experiences := h.experiences.symm
  availabilitySlots := h.availabilitySlots.symm
  pricingRules := h.pricingRules.symm.congr fun _ => (isSupplierOf_congr h.suppliers).mpr
  bookings := h.bookings.symm
  history b hb ht := (h.history b ((h.bookings b ht).mpr hb) ht).symm
  auditLogs := h.auditLogs.symm

theorem trans (h : TenantAgree A db db') (h' : TenantAgree A db' db'') :
    TenantAgree A db db'' where
  tenants := h.tenants.trans h'.tenants
  users := h.users.trans h'.users
  refreshTokenFamilies := h.refreshTokenFamilies.trans
    (h'.refreshTokenFamilies.congr fun _ => (isUserOf_congr h.users).mp)
  refreshTokens := h.refreshTokens.trans (h'.refreshTokens.congr fun _ => h.isFamilyOf_congr.mp)
  suppliers := h.suppliers.trans h'.suppliers
  experiences := h.experiences.trans h'.experiences
  availabilitySlots := h.availabilitySlots.trans h'.availabilitySlots
  pricingRules := h.pricingRules.trans
    (h'.pricingRules.congr fun _ => (isSupplierOf_congr h.suppliers).mp)
  bookings := h.bookings.trans h'.bookings
  history b hb ht := (h.history b hb ht).trans (h'.history b ((h.bookings b ht).mp hb) ht)
  auditLogs := h.auditLogs.trans h'.auditLogs

/-! ### Experiences -/

theorem activePricingRules_eq (h : TenantAgree A db db') (ho : order.Determined)
    {supplierId : Uuid} (hsup : IsSupplierOf A db supplierId) :
    activePricingRules order db supplierId = activePricingRules order db' supplierId := by
  refine ho.pricingRules _ _ (h.pricingRules.findMany_perm ?_ ?_ fun _ _ _ => rfl)
  all_goals
    intro r _ hr
    simp only [decide_eq_true_eq] at hr
    rw [hr.1]
    exact hsup

theorem loadRules_eq (h : TenantAgree A db db') (hc : TenantClosed db) (ho : order.Determined)
    {e : Experience} (he : e ∈ db.experiences) (ht : e.tenantId = A) :
    loadRules order db e = loadRules order db' e := by
  have hsup := ht ▸ hc.experience e he
  refine Except.bind_congr_of_ok (congrArg required (h.suppliers.get?_eq hsup)) ?_
  intro sup hget
  obtain ⟨s, hs, hst⟩ := hsup
  have hget := required_eq_ok.mp hget
  have hid : sup.id = e.supplierId := (Table.get?_eq_some.mp hget).2
  rw [h.activePricingRules_eq ho ⟨s, hid ▸ hs, hst⟩]

theorem matchingExperiences_eq (h : TenantAgree A db db') (ho : order.Determined)
    (query : ExperienceSearchQuery) :
    matchingExperiences rt order A query db = matchingExperiences rt order A query db' := by
  refine ho.matchingExperiences _ _ (h.experiences.findMany_perm ?_ ?_ fun _ _ _ => rfl)
  all_goals
    intro e _ he
    simp only [decide_eq_true_eq] at he
    exact he.1

/-- Experiences picked by identifiers of the tenant's. -/
theorem findMany_experiences_perm (h : TenantAgree A db db') {ids : List Uuid}
    (hids : ∀ id ∈ ids, ∃ e, db.experiences.get? id = some e ∧ e.tenantId = A)
    {q : Experience → Bool} (hq : ∀ e, q e = true → e.id ∈ ids) :
    (db.experiences.findMany q).Perm (db'.experiences.findMany q) := by
  refine h.experiences.findMany_perm ?_ ?_ fun _ _ _ => rfl
  · intro e he hqe
    obtain ⟨x, hx, ht⟩ := hids e.id (hq e hqe)
    rw [show e = x from Option.some.inj ((Table.get?_key he).symm.trans hx)]
    exact ht
  · intro e he hqe
    obtain ⟨x, hx, ht⟩ := hids e.id (hq e hqe)
    have hx := h.experiences.get?_of_some hx ht
    rw [show e = x from Option.some.inj ((Table.get?_key he).symm.trans hx)]
    exact ht

theorem findMany_slots_perm (h : TenantAgree A db db') {q : AvailabilitySlot → Bool}
    (hq : ∀ s, q s = true → s.tenantId = A) :
    (db.availabilitySlots.findMany q).Perm (db'.availabilitySlots.findMany q) :=
  h.availabilitySlots.findMany_perm (fun s _ => hq s) (fun s _ => hq s) fun _ _ _ => rfl

/-- What a statement computes of the tenant's slots is the same. -/
theorem subtractReserved_eq (h : TenantAgree A db db') {others : AvailabilitySlot → Bool}
    (hothers : ∀ s, others s = true → s.tenantId = A) :
    subtractReserved others db = subtractReserved others db' := by
  have hiff : (∃ s ∈ db.availabilitySlots.rows, others s = true ∧ ¬ s.CountsPlaces) ↔
      ∃ s ∈ db'.availabilitySlots.rows, others s = true ∧ ¬ s.CountsPlaces := by
    refine exists_congr fun s => ⟨?_, ?_⟩
    · rintro ⟨hs, ho, hc⟩
      exact ⟨(h.availabilitySlots s (hothers s ho)).mp hs, ho, hc⟩
    · rintro ⟨hs, ho, hc⟩
      exact ⟨(h.availabilitySlots s (hothers s ho)).mpr hs, ho, hc⟩
  simp only [subtractReserved, throwIf, hiff]

theorem groupedFrom_eq (h : TenantAgree A db db') (hc : TenantClosed db) (ho : order.Determined)
    {ids : List Uuid} (hids : ∀ id ∈ ids, ∃ e, db.experiences.get? id = some e ∧ e.tenantId = A)
    {slotFilter : AvailabilitySlot → Bool} (hfilter : ∀ s, slotFilter s = true → s.tenantId = A) :
    groupedFrom order db ids slotFilter = groupedFrom order db' ids slotFilter := by
  unfold groupedFrom
  rw [ho.groupedExperiences _ _ (h.findMany_experiences_perm hids fun e he => by simpa using he)]
  refine List.filterMap_congr fun e he => ?_
  rw [Arrangement.mem_apply, ← (h.findMany_experiences_perm hids
    fun e he => by simpa using he).mem_iff, Table.mem_findMany, decide_eq_true_eq] at he
  obtain ⟨x, hx, ht⟩ := hids e.id he.2
  have hxe : e = x := Option.some.inj ((Table.get?_key he.1).symm.trans hx)
  have hsup := hc.experience e he.1
  rw [hxe, ht, ← hxe] at hsup
  rw [h.suppliers.get?_eq hsup]
  -- the slots joined to an experience are counted and their least start is taken
  have hslots := h.findMany_slots_perm
    (q := fun sl => sl.experienceId = e.id ∧ slotFilter sl = true) fun s hs => by
      simp only [decide_eq_true_eq] at hs
      exact hfilter s hs.2
  congr 1
  funext sup
  unfold groupedRow joinedSlots
  rw [List.min?_eq_of_perm (hslots.map _), hslots.length_eq]

theorem fromPriceByExperienceId_eq (h : TenantAgree A db db') (hc : TenantClosed db)
    (ho : order.Determined) {P : Pricer} {partySize : ℤ} {ids : List Uuid}
    {slotFilter : AvailabilitySlot → Bool} (hfilter : ∀ s, slotFilter s = true → s.tenantId = A)
    (now : Instant) :
    fromPriceByExperienceId P order A partySize slotFilter ids db now =
      fromPriceByExperienceId P order A partySize slotFilter ids db' now := by
  unfold fromPriceByExperienceId
  have hslots := ho.eligibleSlots _ _ (h.findMany_slots_perm
    (q := fun sl => sl.experienceId ∈ ids ∧ slotFilter sl = true) fun s hs => by
      simp only [decide_eq_true_eq] at hs
      exact hfilter s hs.2)
  have hperm : (db.experiences.findMany fun e => e.tenantId = A ∧ e.id ∈ ids).Perm
      (db'.experiences.findMany fun e => e.tenantId = A ∧ e.id ∈ ids) := by
    refine h.experiences.findMany_perm ?_ ?_ fun _ _ _ => rfl
    all_goals
      intro e _ he
      simp only [decide_eq_true_eq] at he
      exact he.1
  have hrules : (order.pricedExperiences.apply (db.experiences.findMany fun e =>
        e.tenantId = A ∧ e.id ∈ ids)).mapM (loadRules order db) =
      (order.pricedExperiences.apply (db'.experiences.findMany fun e =>
        e.tenantId = A ∧ e.id ∈ ids)).mapM (loadRules order db') := by
    rw [← ho.pricedExperiences _ _ hperm]
    refine Except.mapM_congr fun e he => ?_
    rw [Arrangement.mem_apply, Table.mem_findMany, decide_eq_true_eq] at he
    exact h.loadRules_eq hc ho he.1 he.2.1
  rw [hslots, hrules]

/-- **A search sees the rows of its tenant only.** -/
theorem searchExperiences_eq (h : TenantAgree A db db') (hc : TenantClosed db)
    (ho : order.Determined) (query : ExperienceSearchQuery) (now : Instant) :
    searchExperiences rt order A query db now = searchExperiences rt order A query db' now := by
  have hids : experienceIds rt order A query db = experienceIds rt order A query db' :=
    congrArg (List.map Experience.id) (h.matchingExperiences_eq ho query)
  have hof : ∀ id ∈ experienceIds rt order A query db,
      ∃ e, db.experiences.get? id = some e ∧ e.tenantId = A := by
    intro id hid
    obtain ⟨e, he, rfl⟩ := List.mem_map.mp hid
    rw [matchingExperiences, Arrangement.mem_apply, Table.mem_findMany, decide_eq_true_eq] at he
    exact ⟨e, Table.get?_key he.1, he.2.1⟩
  unfold searchExperiences searchExperiencesIn
  rw [← hids]
  dsimp only
  split
  · rfl
  refine Except.bind_congr_of_ok rfl fun startAt _ => Except.bind_congr_of_ok rfl fun endAt _ =>
    Except.bind_congr_of_ok rfl fun _ _ => ?_
  have hfilter : ∀ s, slotInWindow A startAt endAt query.partySize s = true → s.tenantId = A := by
    intro s hs
    simp only [slotInWindow, decide_eq_true_eq] at hs
    exact tenantId_of_startsInWindow hs.1
  refine Except.bind_congr_of_ok (h.subtractReserved_eq fun s hs => ?_) fun _ _ => ?_
  · simp only [comparedSlots, decide_eq_true_eq] at hs
    exact tenantId_of_startsInWindow hs.1
  rw [h.groupedFrom_eq hc ho hof hfilter]
  exact Except.bind_congr_of_ok (h.fromPriceByExperienceId_eq hc ho hfilter now) fun _ _ => rfl

theorem detailSlots_eq (h : TenantAgree A db db') (ho : order.Determined) (experienceId : Uuid)
    (query : ExperienceDetailQuery) (startAt endAt : Option Instant) :
    detailSlots order db A experienceId query startAt endAt =
      detailSlots order db' A experienceId query startAt endAt := by
  have hslots := ho.eligibleSlots _ _ (h.findMany_slots_perm
    (q := detailSlotFilter A experienceId query startAt endAt) fun s hs => by
      simp only [detailSlotFilter, decide_eq_true_eq] at hs
      exact tenantId_of_detailSlot hs.1)
  exact congrArg (orderBy _ _) hslots

/-- **A detail sees the rows of its tenant only.** -/
theorem getExperienceDetail_eq (h : TenantAgree A db db') (hc : TenantClosed db)
    (ho : order.Determined) (experienceId : Uuid) (query : ExperienceDetailQuery) (now : Instant) :
    getExperienceDetail rt order A experienceId query db now =
      getExperienceDetail rt order A experienceId query db' now := by
  have hfind : (db.experiences.findFirst fun e =>
        e.id = experienceId ∧ e.tenantId = A ∧ e.active = true) =
      db'.experiences.findFirst fun e =>
        e.id = experienceId ∧ e.tenantId = A ∧ e.active = true := by
    refine h.experiences.findFirst_eq ?_ ?_
    · intro e he
      simp only [decide_eq_true_eq] at he
      exact he.2.1
    · intro e he e' he' hq hq'
      simp only [decide_eq_true_eq] at hq hq'
      exact Table.eq_of_key he he' (hq.1.trans hq'.1.symm)
  unfold getExperienceDetail
  refine Except.bind_congr_of_ok (by rw [hfind]) fun e he => ?_
  obtain ⟨hmem, hq⟩ := Table.mem_of_findFirst (orThrow_eq_ok.mp he)
  simp only [decide_eq_true_eq] at hq
  refine Except.bind_congr_of_ok (h.loadRules_eq hc ho hmem hq.2.1) fun _ _ =>
    Except.bind_congr_of_ok rfl fun startAt _ => Except.bind_congr_of_ok rfl fun endAt _ =>
    Except.bind_congr_of_ok rfl fun _ _ => ?_
  refine Except.bind_congr_of_ok
    (h.subtractReserved_eq fun s hs => tenantId_of_detailSlot hs) fun _ _ => ?_
  simp only [h.detailSlots_eq ho]

/-! ### Bookings -/

theorem findFirst_slot_eq (h : TenantAgree A db db') (slotId : Uuid) :
    (db.availabilitySlots.findFirst fun s => s.id = slotId ∧ s.tenantId = A) =
      db'.availabilitySlots.findFirst fun s => s.id = slotId ∧ s.tenantId = A := by
  refine h.availabilitySlots.findFirst_eq ?_ ?_
  · intro s hs
    simp only [decide_eq_true_eq] at hs
    exact hs.2
  · intro s hs s' hs' hq hq'
    simp only [decide_eq_true_eq] at hq hq'
    exact Table.eq_of_key hs hs' (hq.1.trans hq'.1.symm)

theorem createReservationLookup_eq (h : TenantAgree A db db') (hc : TenantClosed db)
    (ho : order.Determined) {ttl : ℕ} {userId : Uuid} {body : CreateBookingBody} {now : Instant} :
    createReservationLookup ttl order A userId body db now =
      createReservationLookup ttl order A userId body db' now := by
  unfold createReservationLookup
  refine Except.bind_congr_of_ok (by rw [h.findFirst_slot_eq]) fun slot hslot => ?_
  obtain ⟨hslot, hq⟩ := Table.mem_of_findFirst (orThrow_eq_ok.mp hslot)
  simp only [decide_eq_true_eq] at hq
  have hexp := hq.2 ▸ hc.slot slot hslot
  refine Except.bind_congr_of_ok (congrArg required (h.experiences.get?_eq hexp)) fun e he => ?_
  obtain ⟨x, hx, ht⟩ := hexp
  have he := required_eq_ok.mp he
  obtain rfl : x = e := Option.some.inj (hx.symm.trans he)
  have hsup := ht ▸ hc.experience x (Table.get?_eq_some.mp he).1
  refine Except.bind_congr_of_ok (congrArg required (h.suppliers.get?_eq hsup)) fun sup hget => ?_
  obtain ⟨y, hy, hyt⟩ := hsup
  have hget := required_eq_ok.mp hget
  have hid : sup.id = x.supplierId := (Table.get?_eq_some.mp hget).2
  rw [h.activePricingRules_eq ho ⟨y, hid ▸ hy, hyt⟩]

theorem findFirst_ownedBy_eq (h : TenantAgree A db db')
    (href : ∀ b ∈ db'.bookings, ∀ b' ∈ db'.bookings, b.reference = b'.reference → b = b')
    (userId : Uuid) (reference : String) :
    db.bookings.findFirst (ownedBy A userId reference) =
      db'.bookings.findFirst (ownedBy A userId reference) := by
  refine h.bookings.findFirst_eq ?_ ?_
  · intro b hb
    simp only [ownedBy, decide_eq_true_eq] at hb
    exact hb.1
  · intro b hb b' hb' hq hq'
    simp only [ownedBy, decide_eq_true_eq] at hq hq'
    exact href b hb b' hb' (hq.2.2.trans hq'.2.2.symm)

/-- **Finding a booking sees the rows of the tenant only.** -/
theorem findOwnedBooking_eq (h : TenantAgree A db db') (hp : Partitioned db) (hp' : Partitioned db')
    (ho : order.Determined) (userId : Uuid) (reference : String) :
    findOwnedBooking order A userId reference db =
      findOwnedBooking order A userId reference db' := by
  unfold findOwnedBooking
  refine Except.bind_congr_of_ok (by rw [h.findFirst_ownedBy_eq hp'.reference]) fun b hb => ?_
  obtain ⟨hmem, hq⟩ := Table.mem_of_findFirst (orThrow_eq_ok.mp hb)
  simp only [ownedBy, decide_eq_true_eq] at hq
  have hexp := hq.1 ▸ hp.closed.bookingExperience b hmem
  have hslot := hq.1 ▸ hp.closed.bookingSlot b hmem
  rw [h.experiences.get?_eq hexp, h.availabilitySlots.get?_eq hslot]
  have hhist := ho.history _ _ (h.history b hmem hq.1)
  unfold Database.historyOf at hhist
  rw [hhist]

theorem cancelReservationLookup_eq (h : TenantAgree A db db') (hp : Partitioned db)
    (hp' : Partitioned db') (userId : Uuid) (reference reason : String) :
    cancelReservationLookup A userId reference reason db =
      cancelReservationLookup A userId reference reason db' := by
  unfold cancelReservationLookup
  refine Except.bind_congr_of_ok (by rw [h.findFirst_ownedBy_eq hp'.reference]) fun b hb => ?_
  obtain ⟨hmem, hq⟩ := Table.mem_of_findFirst (orThrow_eq_ok.mp hb)
  simp only [ownedBy, decide_eq_true_eq] at hq
  rw [h.availabilitySlots.get?_eq (hq.1 ▸ hp.closed.bookingSlot b hmem)]

/-! ### Listings -/

/-- The conditions of a listing look at the slot of a booking of the tenant. -/
theorem bookingWhere_eq (h : TenantAgree A db db') (hc : TenantClosed db)
    (query : AdminBookingListQuery) (w : BookingWindows) {b : Booking} (hb : b ∈ db.bookings)
    (ht : b.tenantId = A) : bookingWhere A query w db b = bookingWhere A query w db' b := by
  unfold bookingWhere
  rw [h.availabilitySlots.get?_eq (ht ▸ hc.bookingSlot b hb)]

theorem orderBookings_eq (h : TenantAgree A db db') (hc : TenantClosed db)
    (query : AdminBookingListQuery) {rows : List Booking}
    (hrows : ∀ b ∈ rows, b ∈ db.bookings ∧ b.tenantId = A) :
    orderBookings query db rows = orderBookings query db' rows := by
  unfold orderBookings
  split
  · rfl
  · rfl
  · refine orderBy_congr fun b hb => ?_
    obtain ⟨hmem, ht⟩ := hrows b hb
    rw [h.availabilitySlots.get?_eq (ht ▸ hc.bookingSlot b hmem)]
  · rfl

theorem toAdminBookingListItem_eq (h : TenantAgree A db db') (hc : TenantClosed db) {b : Booking}
    (hb : b ∈ db.bookings) (ht : b.tenantId = A) :
    toAdminBookingListItem db b = toAdminBookingListItem db' b := by
  unfold toAdminBookingListItem
  rw [h.users.get?_eq (ht ▸ hc.bookingUser b hb),
    h.experiences.get?_eq (ht ▸ hc.bookingExperience b hb),
    h.availabilitySlots.get?_eq (ht ▸ hc.bookingSlot b hb)]

/-- **The listing of the bookings sees the rows of its tenant only.** -/
theorem listTenantBookings_eq (h : TenantAgree A db db') (hc : TenantClosed db)
    (ho : order.Determined) (query : AdminBookingListQuery) :
    listTenantBookings rt order A query db = listTenantBookings rt order A query db' := by
  have htenant : ∀ (w : BookingWindows) (d : Database) b, bookingWhere A query w d b = true →
      b.tenantId = A := by
    intro w d b hb
    simp only [bookingWhere, decide_eq_true_eq] at hb
    exact hb.1
  unfold listTenantBookings
  refine Except.bind_congr_of_ok rfl fun createdFrom _ =>
    Except.bind_congr_of_ok rfl fun createdTo _ => Except.bind_congr_of_ok rfl fun slotFrom _ =>
    Except.bind_congr_of_ok rfl fun slotTo _ => Except.bind_congr_of_ok rfl fun _ _ => ?_
  -- the rows found are the same, in an order that only depends on them
  have hperm : (db.bookings.findMany
        (bookingWhere A query ⟨createdFrom, createdTo, slotFrom, slotTo⟩ db)).Perm
      (db'.bookings.findMany
        (bookingWhere A query ⟨createdFrom, createdTo, slotFrom, slotTo⟩ db')) :=
    h.bookings.findMany_perm (fun b _ => htenant _ _ b) (fun b _ => htenant _ _ b)
      fun b hb ht => h.bookingWhere_eq hc query _ hb ht
  have hrows := ho.bookings _ _ hperm
  rw [← hrows]
  dsimp only
  have hmem : ∀ b ∈ order.bookings.apply (db.bookings.findMany
      (bookingWhere A query ⟨createdFrom, createdTo, slotFrom, slotTo⟩ db)),
      b ∈ db.bookings ∧ b.tenantId = A := by
    intro b hb
    rw [Arrangement.mem_apply, Table.mem_findMany] at hb
    exact ⟨hb.1, htenant _ _ b hb.2⟩
  rw [h.orderBookings_eq hc query hmem]
  refine Except.bind_congr_of_ok (Except.mapM_congr fun b hb => ?_) fun _ _ => rfl
  rw [← h.orderBookings_eq hc query hmem] at hb
  have hb := List.mem_of_mem_drop (List.mem_of_mem_take hb)
  have hb : b ∈ order.bookings.apply (db.bookings.findMany
      (bookingWhere A query ⟨createdFrom, createdTo, slotFrom, slotTo⟩ db)) := by
    unfold orderBookings at hb
    split at hb <;> exact mem_orderBy.mp hb
  exact h.toAdminBookingListItem_eq hc (hmem b hb).1 (hmem b hb).2

theorem toAuditLogListItem_eq (h : TenantAgree A db db') (ha : AuditClosed db) {log : AuditLog}
    (hlog : log ∈ db.auditLogs) (ht : log.tenantId = some A) :
    toAuditLogListItem db log = toAuditLogListItem db' log := by
  have hactor : log.actorUserId.bind db.users.get? = log.actorUserId.bind db'.users.get? := by
    cases hactor : log.actorUserId with
    | none => rfl
    | some actorUserId =>
      exact h.users.get?_eq (ha log hlog A ht actorUserId hactor)
  unfold toAuditLogListItem
  rw [hactor]

/-- **The listing of the audit logs sees the rows of its tenant only.** -/
theorem listAuditLogs_eq (h : TenantAgree A db db') (ha : AuditClosed db) (ho : order.Determined)
    (query : AuditLogListQuery) :
    listAuditLogs rt order A query db = listAuditLogs rt order A query db' := by
  have hwhere : ∀ (d : Database) from_ to_, d.auditLogs.filter (auditLogWhere A query from_ to_) =
      (auditLogsOf A d).filter (auditLogWhere A query from_ to_) := by
    intro d from_ to_
    rw [auditLogsOf, List.filter_filter]
    refine List.filter_congr fun log _ => ?_
    simp only [auditLogWhere, Bool.decide_and, ← Bool.and_assoc]
    by_cases ht : log.tenantId = some A <;> simp [ht]
  unfold listAuditLogs
  refine Except.bind_congr_of_ok rfl fun from_ _ => Except.bind_congr_of_ok rfl fun to_ _ =>
    Except.bind_congr_of_ok rfl fun _ _ => ?_
  have hrows := ho.auditLogs _ _ (h.auditLogs.filter (auditLogWhere A query from_ to_))
  rw [hwhere db, hwhere db', ← hrows]
  dsimp only
  congr 2
  refine List.map_congr_left fun log hlog => ?_
  have hlog := List.mem_of_mem_drop (List.mem_of_mem_take hlog)
  rw [mem_orderBy, Arrangement.mem_apply, List.mem_filter, auditLogsOf, List.mem_filter,
    decide_eq_true_eq] at hlog
  exact h.toAuditLogListItem_eq ha hlog.1.1 hlog.1.2

end TenantAgree

end BookingPlatform
