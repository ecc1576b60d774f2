import BookingPlatform.Api
import BookingPlatform.PagedListings

/-!
# Whose bookings a request reaches

Within a tenant a booking belongs to the user that made it.  Others reach it through
the listings of an administrator only, and nobody but its user changes it.

## Main definitions

* `Response.references` — the bookings that a response shows.
* `Confined` — what a request may show and write.

## Main results

* `confined_of_serve` — what one request of a user shows and writes.
* `bookings_private` — over runs of requests.
-/

namespace BookingPlatform

open Noninterference

/-! ### What a response shows -/

/-- The references of the bookings that a response shows. -/
def Response.references : Response → List String
  | .booking summary => [summary.bookingRef]
  | .bookingDetail result => [result.summary.bookingRef]
  | .bookings result => result.items.map AdminBookingListItem.bookingRef
  | .availability _ | .auditLogs _ | .invalidated => []

/-- What a request of a user that succeeds may show, and what it leaves alone. -/
structure Confined (user : AuthenticatedUser) (data : Response) (db db' : Database) : Prop where
  bookings : ∀ reference ∈ data.references, ∃ b ∈ db'.bookings, b.reference = reference ∧
    b.tenantId = user.tenantId ∧ (b.userId = user.id ∨ user.role ∈ [.admin, .travelManager])
  auditLogs : ∀ result, data = .auditLogs result → user.role = .admin ∧
    ∀ item ∈ result.items, ∃ log ∈ db.auditLogs, item = toAuditLogListItem db log ∧
      log.tenantId = some user.tenantId
  others : Table.AgreeOn (fun b => b.userId ≠ user.id) db.bookings db'.bookings

/-! ### One booking -/

/-- What a booking request of a user that commits shows and writes. -/
structure OwnBooking (tenantId userId : Uuid) (summary : BookingSummary) (db db' : Database) :
    Prop where
  shown : ∃ b ∈ db'.bookings, b.reference = summary.bookingRef ∧ b.tenantId = tenantId ∧
    b.userId = userId
  others : Table.AgreeOn (fun b => b.userId ≠ userId) db.bookings db'.bookings

section

variable {tenantId userId : Uuid} {summary : BookingSummary} {db db' : Database}

theorem createReservation_own {ttl : ℕ} {order : RowOrder} {body : CreateBookingBody}
    {g : Generated} {now : Instant}
    (h : createReservation ttl order tenantId userId body g db now = .ok (summary, db')) :
    OwnBooking tenantId userId summary db db' := by
  obtain ⟨call, b, hlookup, htx, rfl⟩ := createReservation_ok.mp h
  obtain ⟨_, _, _, -, -, -, -, -, -, rfl⟩ := createReservationLookup_ok.mp hlookup
  obtain ⟨_, _, _, hfree, -, -, -, -, -, -, -, -, rfl, rfl⟩ :=
    createReservationTransaction_ok.mp htx
  refine ⟨⟨_, (Table.mem_insert (h := hfree)).mpr (Or.inr rfl), rfl, rfl, rfl⟩,
    Table.agreeOn_insert hfree ?_⟩
  exact fun hne => hne rfl

/-- A transition of a booking of the user. -/
theorem own_put {b b' : Booking} (hb : db.bookings.get? b.id = some b) (ht : b.tenantId = tenantId)
    (hu : b.userId = userId) (hsame : b.SameOwner b')
    (hbookings : db'.bookings = db.bookings.put b') :
    OwnBooking tenantId userId (toBookingSummary b') db db' := by
  have hget : db.bookings.get? (Keyed.key b') = some b := by
    rw [key_booking, hsame.id]
    exact hb
  rw [hsame.userId.symm] at hu
  constructor
  · refine ⟨b', ?_, rfl, hsame.tenantId.trans ht, hu⟩
    rw [hbookings]
    exact Table.mem_put.mpr (Or.inr ⟨rfl, b, (Table.get?_eq_some.mp hb).1, hsame.id.symm⟩)
  · rw [hbookings]
    exact Table.agreeOn_put hget (fun hne => hne (hsame.userId.symm.trans hu)) fun hne => hne hu

theorem confirmReservation_own {order : RowOrder} {reference : String} {g : Generated}
    {now : Instant}
    (h : confirmReservation order tenantId userId reference g db now = .ok (summary, db')) :
    OwnBooking tenantId userId summary db db' := by
  simp only [confirmReservation, Except.bind_eq_ok, Except.pure_eq_ok, Prod.exists,
    Prod.mk.injEq] at h
  obtain ⟨call, hlookup, b, stored, htx, rfl, rfl⟩ := h
  obtain ⟨-, -, hget, howned, -, -⟩ := confirmReservationLookup_spec hlookup
  obtain ⟨b, hb, rfl, rfl⟩ := confirmReservationTransaction_ok.mp htx
  obtain rfl : call.booking = b := Option.some.inj (hget.symm.trans hb)
  simp only [ownedBy, decide_eq_true_eq] at howned
  exact own_put hb howned.1 howned.2.1 ⟨rfl, rfl, rfl, rfl, rfl, rfl⟩ rfl

theorem cancelReservation_own {reference reason : String} {g : Generated} {now : Instant}
    (h : cancelReservation tenantId userId reference reason g db now = .ok (summary, db')) :
    OwnBooking tenantId userId summary db db' := by
  simp only [cancelReservation, Except.bind_eq_ok, Except.pure_eq_ok, Prod.exists,
    Prod.mk.injEq] at h
  obtain ⟨call, hlookup, b, stored, htx, rfl, rfl⟩ := h
  obtain ⟨-, -, -, hget, howned, -, -⟩ := cancelReservationLookup_spec hlookup
  obtain ⟨b, _, _, hb, -, -, -, -, -, rfl, rfl⟩ := cancelReservationTransaction_ok.mp htx
  obtain rfl : call.booking = b := Option.some.inj (hget.symm.trans hb)
  simp only [ownedBy, decide_eq_true_eq] at howned
  exact own_put hb howned.1 howned.2.1 ⟨rfl, rfl, rfl, rfl, rfl, rfl⟩ rfl

theorem getBookingDetail_own {order : RowOrder} {reference : String} {result : BookingDetailResult}
    (h : getBookingDetail order tenantId userId reference db = .ok result) :
    ∃ b ∈ db.bookings, b.reference = result.summary.bookingRef ∧ b.tenantId = tenantId ∧
      b.userId = userId := by
  simp only [getBookingDetail, findOwnedBooking, Except.bind_eq_ok, orThrow_eq_ok, required_eq_ok,
    Except.pure_eq_ok] at h
  obtain ⟨_, ⟨b, hb, _, -, _, -, rfl⟩, rfl⟩ := h
  obtain ⟨hmem, howned⟩ := Table.mem_of_findFirst hb
  simp only [ownedBy, decide_eq_true_eq] at howned
  exact ⟨b, hmem, rfl, howned.1, howned.2.1⟩

end

/-! ### The listings -/

/-- The listing of a tenant shows its bookings only. -/
theorem mem_listTenantBookings {rt : Runtime} {order : RowOrder} {tenantId : Uuid}
    {query : AdminBookingListQuery} {db : Database} {result : AdminBookingListResult}
    (h : listTenantBookings rt order tenantId query db = .ok result) :
    ∀ reference ∈ result.items.map AdminBookingListItem.bookingRef,
      ∃ b ∈ db.bookings, b.reference = reference ∧ b.tenantId = tenantId := by
  obtain ⟨-, items, hitems, rfl⟩ := listTenantBookings_ok.mp h
  rw [map_eq_of_mapM (fun _ _ => toAdminBookingListItem_reference) hitems]
  intro reference href
  obtain ⟨b, hb, rfl⟩ := List.mem_map.mp href
  have hmem := mem_pageOf hb
  rw [List.mem_mergeSort, Arrangement.mem_apply, matchingBookings, Table.mem_findMany] at hmem
  simp only [bookingWhere, decide_eq_true_eq] at hmem
  exact ⟨b, hmem.1, rfl, hmem.2.1⟩

theorem mem_listAuditLogs {rt : Runtime} {order : RowOrder} {tenantId : Uuid}
    {query : AuditLogListQuery} {db : Database} {result : AuditLogListResult}
    (h : listAuditLogs rt order tenantId query db = .ok result) :
    ∀ item ∈ result.items, ∃ log ∈ db.auditLogs, item = toAuditLogListItem db log ∧
      log.tenantId = some tenantId := by
  simp only [listAuditLogs, Except.bind_eq_ok, Except.pure_eq_ok] at h
  obtain ⟨_, -, _, -, _, -, rfl⟩ := h
  intro item hitem
  obtain ⟨log, hlog, rfl⟩ := List.mem_map.mp hitem
  have hmem := mem_pageOf hlog
  rw [mem_orderBy, Arrangement.mem_apply, List.mem_filter] at hmem
  simp only [auditLogWhere, decide_eq_true_eq] at hmem
  exact ⟨log, hmem.1, rfl, hmem.2.1⟩

/-! ### One request -/

section

variable {env : ServiceEnv} {op : TenantOp} {w : World} {user : AuthenticatedUser}

/-- A response that shows no booking and no audit log, to a request that reads. -/
theorem Confined.of_read {data : Response} {db : Database} (hnone : data.references = [])
    (hlogs : ∀ result, data ≠ .auditLogs result) : Confined user data db db where
  bookings := by simp [hnone]
  auditLogs result h := absurd h (hlogs result)
  others := .refl _ _

/-- A booking request that succeeds is confined to the bookings of its user. -/
theorem confined_of_commit {outcome : Except Failure (BookingSummary × Database)}
    (hown : ∀ summary db, outcome = .ok (summary, db) →
      OwnBooking user.tenantId user.id summary w.db db)
    {data : Response} (h : (w.commit outcome).1 = .ok data) :
    Confined user data w.db (w.commit outcome).2.db := by
  rcases outcome with e | ⟨summary, db⟩
  · cases h
  · obtain rfl := Except.ok.inj h
    obtain ⟨hshown, hothers⟩ := hown summary db rfl
    refine ⟨?_, by rintro _ ⟨⟩, hothers⟩
    intro reference href
    obtain rfl := List.mem_singleton.mp href
    obtain ⟨b, hmem, hb, ht, hu⟩ := hshown
    exact ⟨b, hmem, hb, ht, Or.inl hu⟩

theorem confined_of_readThrough {α : Type} {cached : Option CachedResult}
    {document : α → CachedResult} {setCached : α → Cache} {outcome : Except Failure α}
    {data : Response} (h : (w.readThrough cached document setCached outcome).1 = .ok data) :
    Confined user data w.db (w.readThrough cached document setCached outcome).2.db := by
  cases cached with
  | some result =>
    obtain rfl := Except.ok.inj h
    exact .of_read rfl (by rintro _ ⟨⟩)
  | none =>
    cases outcome with
    | ok result =>
      obtain rfl := Except.ok.inj h
      exact .of_read rfl (by rintro _ ⟨⟩)
    | error e => cases h

/-- **What one request shows and writes**, when its user and its role are those of
its route. -/
theorem confined_of_serve {route : Route} (ht : op.tenantId = user.tenantId)
    (hroute : op.request.route? = some route)
    (hrole : ∀ allowed, route.allowed? = some allowed → user.role ∈ allowed)
    (huser : ∀ userId, op.request.userId? = some userId → userId = user.id) {data : Response}
    (h : (serve env op w).1 = .ok data) : Confined user data w.db (serve env op w).2.db := by
  unfold serve at h ⊢
  cases hreq : op.request <;> rw [hreq] at hroute huser <;> simp only [hreq] at h ⊢
  case createReservation userId body =>
    obtain rfl := huser userId rfl
    exact confined_of_commit (fun _ _ hout => createReservation_own (ht ▸ hout)) h
  case confirmReservation userId reference =>
    obtain rfl := huser userId rfl
    exact confined_of_commit (fun _ _ hout => confirmReservation_own (ht ▸ hout)) h
  case cancelReservation userId reference reason =>
    obtain rfl := huser userId rfl
    exact confined_of_commit (fun _ _ hout => cancelReservation_own (ht ▸ hout)) h
  case searchExperiences query => exact confined_of_readThrough h
  case getExperienceDetail experienceId query => exact confined_of_readThrough h
  case getBookingDetail userId reference =>
    obtain rfl := huser userId rfl
    obtain ⟨result, hresult, rfl⟩ := Except.map_eq_ok.mp h
    refine ⟨?_, by rintro _ ⟨⟩, .refl _ _⟩
    intro reference' href
    obtain rfl := List.mem_singleton.mp href
    obtain ⟨b, hmem, hb, hbt, hbu⟩ := getBookingDetail_own hresult
    exact ⟨b, hmem, hb, hbt.trans ht, Or.inl hbu⟩
  case listTenantBookings query =>
    obtain ⟨result, hresult, rfl⟩ := Except.map_eq_ok.mp h
    obtain rfl := Option.some.inj hroute
    refine ⟨?_, by rintro _ ⟨⟩, .refl _ _⟩
    intro reference href
    obtain ⟨b, hmem, hb, hbt⟩ := mem_listTenantBookings hresult reference href
    exact ⟨b, hmem, hb, hbt.trans ht, Or.inr (hrole _ rfl)⟩
  case listAuditLogs query =>
    obtain ⟨result, hresult, rfl⟩ := Except.map_eq_ok.mp h
    obtain rfl := Option.some.inj hroute
    refine ⟨by simp [Response.references], ?_, .refl _ _⟩
    rintro _ ⟨⟩
    refine ⟨List.mem_singleton.mp (hrole _ rfl), ?_⟩
    rw [← ht]
    exact mem_listAuditLogs hresult
  case invalidateTenantAvailability => cases hroute

/-- A request that fails leaves everything as it was. -/
theorem serve_error {e : Failure} (h : (serve env op w).1 = .error e) :
    (serve env op w).2 = w := by
  have hcommit : ∀ {outcome}, (w.commit outcome).1 = .error e → (w.commit outcome).2 = w := by
    intro outcome h
    rcases outcome with e | ⟨summary, db⟩
    · rfl
    · cases h
  have hread : ∀ {α : Type} {cached : Option CachedResult} {document : α → CachedResult}
      {setCached : α → Cache} {outcome : Except Failure α},
      (w.readThrough cached document setCached outcome).1 = .error e →
      (w.readThrough cached document setCached outcome).2 = w := by
    intro α cached document setCached outcome h
    cases cached with
    | some result => cases h
    | none =>
      cases outcome with
      | ok result => cases h
      | error e => rfl
  unfold serve at h ⊢
  cases hreq : op.request <;> simp only [hreq] at h ⊢
  case createReservation | confirmReservation | cancelReservation => exact hcommit h
  case searchExperiences | getExperienceDetail => exact hread h
  case getBookingDetail | listTenantBookings | listAuditLogs => rfl
  case invalidateTenantAvailability => cases h

end

/-! ### Runs of requests -/

section

variable {env : ApiEnv} {op : HttpOp} {w : World}

/-- What a request that succeeds has passed, and is confined to; one that fails leaves
everything as it was. -/
theorem confined_of_handle {req : HttpRequest} (hact : op.act = .request req) :
    (∃ e, (handle env op w).1 = some (sendError e op.now) ∧ (handle env op w).2 = w) ∨
    ∃ user data, authMiddleware env.jwt req.authorization w.db op.now = .ok user ∧
      (handle env op w).1 = some (sendSuccess req.route data op.now) ∧
      Confined user data w.db (handle env op w).2.db := by
  unfold handle gated
  cases hgate : op.gate env w with
  | error e => exact Or.inl ⟨e, by simp only [HttpOp.refuse, hact], rfl⟩
  | ok inner =>
    obtain ⟨user, request, hpassed, rfl⟩ := (gate_request hact).mp hgate
    obtain ⟨huser, hrole, hrequest⟩ := passed_ok.mp hpassed
    obtain ⟨hroute, hid⟩ := request_of_validated hrequest
    generalize hinner : (⟨user.tenantId, request, op.order, op.drawn, op.now⟩ : TenantOp) = inner
    cases hserve : (serve env.service inner w).1 with
    | error e => exact Or.inl ⟨.failure e, by simp only [HttpOp.reply, hact, hserve],
        serve_error hserve⟩
    | ok data =>
      subst hinner
      exact Or.inr ⟨user, data, huser, by simp only [HttpOp.reply, hact, hserve],
        confined_of_serve rfl hroute hrole hid hserve⟩

/-- **Only a request with a user's token touches its bookings.** -/
theorem handle_agreeOn {userId : Uuid}
    (h : ∀ payload, op.payload? env.jwt = some payload → payload.sub ≠ userId) :
    Table.AgreeOn (fun b => b.userId = userId) w.db.bookings (handle env op w).2.db.bookings := by
  cases hact : op.act with
  | invalidate tenantId =>
    unfold handle gated
    simp only [HttpOp.gate, hact]
    exact .refl _ _
  | request req =>
    rcases @confined_of_handle env op w req hact with ⟨e, -, hsame⟩ | ⟨user, data, huser, -, hconf⟩
    · rw [hsame]
      exact .refl _ _
    · obtain ⟨payload, hpayload, hauth⟩ := payload_of_authenticated hact huser
      obtain ⟨row, hrow, -, -, -, rfl⟩ := authenticate_ok.mp hauth
      refine hconf.others.congr fun b hb hid => h payload hpayload ?_
      rw [← (Table.get?_eq_some.mp hrow).2, ← hb]
      exact hid.symm

theorem run_agreeOn {userId : Uuid} {ops : List HttpOp}
    (h : ∀ op ∈ ops, ∀ payload, op.payload? env.jwt = some payload → payload.sub ≠ userId) :
    Table.AgreeOn (fun b => b.userId = userId) w.db.bookings
      (run (handle env) ops w).db.bookings := by
  induction ops generalizing w with
  | nil => exact .refl _ _
  | cons op ops ih =>
    exact (handle_agreeOn (h op List.mem_cons_self)).trans
      (ih fun op' hop' => h op' (List.mem_cons_of_mem op hop'))

/-- **Bookings are private.** The bookings of a user stay as they are in a run without
its token; and a request of the run fails, and changes nothing, or shows its user's own
bookings only, unless it lists those of its tenant for an administrator or a travel
manager; audit logs are shown to the administrators of their tenant. -/
theorem bookings_private (env : ApiEnv) {ops : List HttpOp} {w : World}
    (hok : AllOk (handle env) (HttpOp.Admissible env.jwt) ops w) (hp : Partitioned w.db) :
    (∀ userId, (∀ op ∈ ops, ∀ payload, op.payload? env.jwt = some payload →
        payload.sub ≠ userId) →
      Table.AgreeOn (fun b => b.userId = userId) w.db.bookings
        (run (handle env) ops w).db.bookings) ∧
    ∀ pre op post req, ops = pre ++ op :: post → op.act = .request req →
      (∃ e, (handle env op (run (handle env) pre w)).1 = some (sendError e op.now) ∧
        (handle env op (run (handle env) pre w)).2 = run (handle env) pre w) ∨
      ∃ user data,
        authMiddleware env.jwt req.authorization (run (handle env) pre w).db op.now = .ok user ∧
        (handle env op (run (handle env) pre w)).1 = some (sendSuccess req.route data op.now) ∧
        (∀ b ∈ (handle env op (run (handle env) pre w)).2.db.bookings,
          b.reference ∈ data.references → b.tenantId = user.tenantId ∧
            (b.userId = user.id ∨ user.role ∈ [.admin, .travelManager])) ∧
        ∀ result, data = .auditLogs result → user.role = .admin ∧ ∀ item ∈ result.items,
          ∃ log ∈ (run (handle env) pre w).db.auditLogs,
            item = toAuditLogListItem (run (handle env) pre w).db log ∧
              log.tenantId = some user.tenantId := by
  refine ⟨fun userId h => run_agreeOn h, ?_⟩
  intro pre op post req hops hact
  subst hops
  rcases @confined_of_handle env op (run (handle env) pre w) req hact with
    hfail | ⟨user, data, huser, hdata, hconf⟩
  · exact Or.inl hfail
  · refine Or.inr ⟨user, data, huser, hdata, ?_, hconf.auditLogs⟩
    intro b hb href
    -- a reference is that of one booking, also after the request
    have hkeeps := (requests_unwinding env user.tenantId).keeps
    obtain ⟨hokop, hpop⟩ := hok.reaches hkeeps hp
    obtain ⟨b', hb', heq, hshown⟩ := hconf.bookings _ href
    rw [(hkeeps op _ hokop hpop).reference b hb b' hb' heq.symm]
    exact hshown

end

/-- The guide books, and the bookings of the user of the other tenant stay as they
are. -/
theorem bookings_private_guide :
    Table.AgreeOn (fun b => b.userId = uuid 7)
      (TwoTenants.world "one@second.example" []).db.bookings
      (run (handle TwoTenants.apiEnv) [TwoTenants.anonymous, TwoTenants.guided]
        (TwoTenants.world "one@second.example" [])).db.bookings := by
  have h := bookings_private TwoTenants.apiEnv
    (show AllOk (handle TwoTenants.apiEnv) (HttpOp.Admissible TwoTenants.jwt)
      [TwoTenants.anonymous, TwoTenants.guided] (TwoTenants.world "one@second.example" []) from
      ⟨TwoTenants.anonymous_admissible _ rfl, TwoTenants.guided_admissible _ rfl, trivial⟩)
    (TwoTenants.partitioned _)
  refine h.1 _ fun op hop payload hpayload => ?_
  simp only [List.mem_cons, List.not_mem_nil, or_false] at hop
  rcases hop with rfl | rfl
  · cases hpayload
  · have huser : TwoTenants.guided.payload? TwoTenants.jwt = some TwoTenants.user.payload := by rfl
    obtain rfl := Option.some.inj (huser.symm.trans hpayload)
    exact show uuid 2 ≠ uuid 7 by decide

end BookingPlatform
