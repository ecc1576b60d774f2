import BookingPlatform.Findable
import BookingPlatform.TenantWrites

/-!
# Tenants do not interfere

What a tenant gets from its requests depends on its own rows and cache entries
only.  One operation changes nothing that another tenant sees, and answers alike
wherever its own tenant sees the same; runs follow by unwinding.

## Main definitions

* `World.Agree` — two worlds that a tenant cannot tell apart.
* `EndAlike`, `AnswerAlike` — two outcomes, or two answers, that are the same for the
  tenant.

## Main results

* `serve_others`, `serve_own` — one operation.
* `tenant_noninterference` — two runs that agree on the requests of a tenant.
-/

namespace BookingPlatform

open Noninterference

section

variable {A B : Uuid} {env : ServiceEnv} {op : TenantOp} {w w' : World}

/-! ### The view of a tenant -/

/-- The two worlds hold the same rows and the same cache entries of the tenant. -/
structure World.Agree (tenantId : Uuid) (w w' : World) : Prop where
  rows : TenantAgree tenantId w.db w'.db
  entries : ∀ key, tenantPrefix tenantId <+: key → w.cache.get? key = w'.cache.get? key

theorem World.Agree.refl (tenantId : Uuid) (w : World) : w.Agree tenantId w :=
  ⟨.refl _ _, fun _ _ => rfl⟩

/-! ### What one operation changes -/

theorem World.commit_cases (w : World) (outcome : Except Failure (BookingSummary × Database)) :
    (∃ summary db, outcome = .ok (summary, db) ∧ (w.commit outcome).2 = ⟨db, w.cache⟩) ∨
      (w.commit outcome).2 = w := by
  rcases outcome with e | ⟨summary, db⟩
  · exact Or.inr rfl
  · exact Or.inl ⟨summary, db, rfl, rfl⟩

theorem World.readThrough_cases {α : Type} (w : World) (cached : Option CachedResult)
    (document : α → CachedResult) (setCached : α → Cache) (outcome : Except Failure α) :
    (∃ result, outcome = .ok result ∧
      (w.readThrough cached document setCached outcome).2 = ⟨w.db, setCached result⟩) ∨
      (w.readThrough cached document setCached outcome).2 = w := by
  cases cached with
  | some result => exact Or.inr rfl
  | none =>
    cases outcome with
    | ok result => exact Or.inl ⟨result, rfl, rfl⟩
    | error e => exact Or.inr rfl

/-- **An operation leaves the database alone, or makes a write of its tenant.** -/
theorem serve_db (env : ServiceEnv) (hok : op.Admissible w) (hp : Partitioned w.db) :
    (serve env op w).2.db = w.db ∨
      ∃ write : BookingWrite op.tenantId w.db, (serve env op w).2.db = write.after := by
  have hcommit : ∀ outcome : Except Failure (BookingSummary × Database),
      (∀ summary db, outcome = .ok (summary, db) →
        ∃ write : BookingWrite op.tenantId w.db, db = write.after) →
      (w.commit outcome).2.db = w.db ∨
        ∃ write : BookingWrite op.tenantId w.db, (w.commit outcome).2.db = write.after := by
    intro outcome hwrite
    rcases w.commit_cases outcome with ⟨summary, db, hout, heq⟩ | heq
    · rw [heq]
      exact Or.inr (hwrite summary db hout)
    · rw [heq]
      exact Or.inl rfl
  have hread : ∀ {α : Type} (cached : Option CachedResult) (document : α → CachedResult)
      (setCached : α → Cache) (outcome : Except Failure α),
      (w.readThrough cached document setCached outcome).2.db = w.db := by
    intro α cached document setCached outcome
    rcases w.readThrough_cases cached document setCached outcome with ⟨result, -, heq⟩ | heq <;>
      rw [heq]
  unfold serve
  cases hreq : op.request with
  | createReservation userId body =>
    exact hcommit _ fun _ _ h => createReservation_write hp (hok.caller userId body hreq) h
  | confirmReservation userId reference =>
    exact hcommit _ fun _ _ h => confirmReservation_write hp h
  | cancelReservation userId reference reason =>
    exact hcommit _ fun _ _ h => cancelReservation_write hp h
  | searchExperiences query => exact Or.inl (hread _ _ _ _)
  | getExperienceDetail experienceId query => exact Or.inl (hread _ _ _ _)
  | getBookingDetail userId reference => exact Or.inl rfl
  | listTenantBookings query => exact Or.inl rfl
  | listAuditLogs query => exact Or.inl rfl
  | invalidateTenantAvailability => exact Or.inl rfl

/-- **An operation touches the cache under its tenant's prefix only.** -/
theorem serve_cache (op : TenantOp) (w : World) {key : CacheKey}
    (hkey : ¬tenantPrefix op.tenantId <+: key) :
    (serve env op w).2.cache.get? key = w.cache.get? key := by
  have hcommit : ∀ outcome : Except Failure (BookingSummary × Database),
      (w.commit outcome).2.cache = w.cache := by
    intro outcome
    rcases w.commit_cases outcome with ⟨summary, db, -, heq⟩ | heq <;> rw [heq]
  have hread : ∀ {α : Type} (cached : Option CachedResult) (document : α → CachedResult)
      (setCached : α → Cache) (outcome : Except Failure α),
      (∀ result, (setCached result).get? key = w.cache.get? key) →
      (w.readThrough cached document setCached outcome).2.cache.get? key = w.cache.get? key := by
    intro α cached document setCached outcome hset
    rcases w.readThrough_cases cached document setCached outcome with ⟨result, -, heq⟩ | heq
    · rw [heq]
      exact hset result
    · rw [heq]
  unfold serve
  cases op.request with
  | createReservation userId body => rw [hcommit]
  | confirmReservation userId reference => rw [hcommit]
  | cancelReservation userId reference reason => rw [hcommit]
  | searchExperiences query =>
    refine hread _ _ _ _ fun result => ?_
    rw [setCachedSearch, get?_write, if_neg]
    rintro ⟨-, rfl⟩
    exact hkey (tenantPrefix_searchCacheKey _ _ _)
  | getExperienceDetail experienceId query =>
    refine hread _ _ _ _ fun result => ?_
    rw [setCachedDetail, get?_write, if_neg]
    rintro ⟨-, rfl⟩
    exact hkey (tenantPrefix_detailCacheKey _ _ _ _)
  | getBookingDetail userId reference => rfl
  | listTenantBookings query => rfl
  | listAuditLogs query => rfl
  | invalidateTenantAvailability =>
    show (invalidateTenantAvailability _ _ _).get? key = _
    rw [get?_invalidate, if_neg hkey]

/-- **No operation changes what another tenant sees.** -/
theorem serve_others (hok : op.Admissible w) (hp : Partitioned w.db) (hB : op.tenantId ≠ B) :
    w.Agree B (serve env op w).2 := by
  refine ⟨?_, fun key hkey => ?_⟩
  · rcases serve_db env hok hp with heq | ⟨write, heq⟩
    · rw [heq]
      exact .refl _ _
    · rw [heq]
      exact write.agree hB.symm
  · exact (serve_cache op w fun h => hB (tenantPrefix_inj h hkey)).symm

theorem serve_partitioned (hok : op.Admissible w) (hp : Partitioned w.db) :
    Partitioned (serve env op w).2.db := by
  rcases serve_db env hok hp with heq | ⟨write, heq⟩
  · rw [heq]
    exact hp
  · rw [heq]
    exact write.partitioned hp

/-! ### What one operation answers -/

/-- Two outcomes of a booking request that are the same for the tenant. -/
def EndAlike (tenantId : Uuid) (x y : Except Failure (BookingSummary × Database)) : Prop :=
  (∃ summary db db', x = .ok (summary, db) ∧ y = .ok (summary, db') ∧ TenantAgree tenantId db db') ∨
    ∃ e, x = .error e ∧ y = .error e

/-- A request that looks up alike and whose transaction runs alike ends alike. -/
theorem endAlike_of_relates {Call : Type} {db db' : Database} {lookup lookup' : Except Failure Call}
    {transaction : Call → Tx Booking} (hlookup : lookup = lookup')
    (h : ∀ call, lookup = .ok call → ∃ R, R db db' ∧
      Transaction.Relates R (transaction call) fun _ => TenantAgree A) :
    EndAlike A
      (do let call ← lookup
          let (booking, stored) ← (transaction call).run db
          return (toBookingSummary booking, stored))
      (do let call ← lookup'
          let (booking, stored) ← (transaction call).run db'
          return (toBookingSummary booking, stored)) := by
  subst hlookup
  cases hcall : lookup with
  | error e => exact Or.inr ⟨e, rfl, rfl⟩
  | ok call =>
    obtain ⟨R, hR, hrel⟩ := h call hcall
    rcases hrel db db' hR with ⟨booking, s, t, hs, ht, hagree⟩ | ⟨e, hs, ht⟩
    · refine Or.inl ⟨toBookingSummary booking, s, t, ?_, ?_, hagree⟩
      · exact Except.bind_eq_ok.mpr ⟨call, rfl, Except.bind_eq_ok.mpr ⟨_, hs, rfl⟩⟩
      · exact Except.bind_eq_ok.mpr ⟨call, rfl, Except.bind_eq_ok.mpr ⟨_, ht, rfl⟩⟩
    · refine Or.inr ⟨e, ?_, ?_⟩
      · show ((transaction call).run db >>= _) = _
        rw [hs]
        rfl
      · show ((transaction call).run db' >>= _) = _
        rw [ht]
        rfl

theorem createReservation_alike {db db' : Database} (h : TenantAgree A db db') (hp : Partitioned db)
    (hp' : Partitioned db') {ttl : ℕ} {order : RowOrder} (ho : order.Determined) {userId : Uuid}
    {body : CreateBookingBody} {g : Generated} (hg : Unused g db) (hg' : Unused g db')
    (now : Instant) :
    EndAlike A (createReservation ttl order A userId body g db now)
      (createReservation ttl order A userId body g db' now) := by
  refine endAlike_of_relates (h.createReservationLookup_eq hp.closed ho) fun call hcall => ?_
  exact ⟨_, ⟨h, hg.fresh hp.closed, hg'.fresh hp'.closed⟩,
    relates_createReservationTransaction (createReservationLookup_spec hcall).1 g now⟩

/-- A booking of the tenant is in both. -/
theorem both_hasBooking {db db' : Database} (h : TenantAgree A db db') {b : Booking}
    (hb : db.bookings.get? b.id = some b) (ht : b.tenantId = A) :
    Both A (HasBooking A b.id) db db' :=
  ⟨h, ⟨b, hb, ht⟩, b, h.bookings.get?_of_some hb ht, ht⟩

theorem confirmReservation_alike {db db' : Database} (h : TenantAgree A db db')
    (hp : Partitioned db) (hp' : Partitioned db') {order : RowOrder} (ho : order.Determined)
    (userId : Uuid) (reference : String) (g : Generated) (now : Instant) :
    EndAlike A (confirmReservation order A userId reference g db now)
      (confirmReservation order A userId reference g db' now) := by
  have hlookup : confirmReservationLookup order A userId reference db now =
      confirmReservationLookup order A userId reference db' now :=
    Except.bind_congr_of_ok (h.findOwnedBooking_eq hp hp' ho userId reference) fun _ _ => rfl
  refine endAlike_of_relates hlookup fun call hcall => ?_
  obtain ⟨-, -, hget, howned, -, -⟩ := confirmReservationLookup_spec hcall
  simp only [ownedBy, decide_eq_true_eq] at howned
  exact ⟨_, both_hasBooking h hget howned.1, relates_confirmReservationTransaction call g now⟩

theorem cancelReservation_alike {db db' : Database} (h : TenantAgree A db db')
    (hp : Partitioned db) (hp' : Partitioned db') (userId : Uuid) (reference reason : String)
    (g : Generated) (now : Instant) :
    EndAlike A (cancelReservation A userId reference reason g db now)
      (cancelReservation A userId reference reason g db' now) := by
  refine endAlike_of_relates (h.cancelReservationLookup_eq hp hp' userId reference reason)
    fun call hcall => ?_
  obtain ⟨ht, -, -, hget, howned, -, -⟩ := cancelReservationLookup_spec hcall
  simp only [ownedBy, decide_eq_true_eq] at howned
  exact ⟨_, both_hasBooking h hget howned.1, relates_cancelReservationTransaction ht g now⟩

/-- The two answers are the same, and so is what the tenant sees afterwards. -/
def AnswerAlike (tenantId : Uuid) (x y : Except Failure Response × World) : Prop :=
  x.1 = y.1 ∧ x.2.Agree tenantId y.2

theorem commit_alike (h : w.Agree A w') {x y : Except Failure (BookingSummary × Database)}
    (hxy : EndAlike A x y) : AnswerAlike A (w.commit x) (w'.commit y) := by
  rcases hxy with ⟨summary, db, db', rfl, rfl, hagree⟩ | ⟨e, rfl, rfl⟩
  · exact ⟨rfl, hagree, h.entries⟩
  · exact ⟨rfl, h⟩

theorem read_alike (h : w.Agree A w') {α : Type} (respond : α → Response) {x y : Except Failure α}
    (hxy : x = y) : AnswerAlike A (w.read respond x) (w'.read respond y) :=
  ⟨congrArg (respond <$> ·) hxy, h⟩

theorem readThrough_alike (h : w.Agree A w') {α : Type} {cached cached' : Option CachedResult}
    (hcached : cached = cached') (document : α → CachedResult) {setCached setCached' : α → Cache}
    (hset : ∀ result key, tenantPrefix A <+: key →
      (setCached result).get? key = (setCached' result).get? key)
    {x y : Except Failure α} (hxy : x = y) :
    AnswerAlike A (w.readThrough cached document setCached x)
      (w'.readThrough cached' document setCached' y) := by
  subst hcached hxy
  cases cached with
  | some result => exact ⟨rfl, h⟩
  | none =>
    cases x with
    | ok result => exact ⟨rfl, h.rows, hset result⟩
    | error e => exact ⟨rfl, h⟩

theorem cacheRead_eq (h : w.Agree A w') {key : CacheKey} (hkey : tenantPrefix A <+: key)
    (now : Instant) : w.cache.read key now = w'.cache.read key now := by
  unfold Cache.read
  rw [h.entries key hkey]

theorem cacheWrite_eq (h : w.Agree A w') (key : CacheKey) (value : CachedResult) (ttl : ℕ)
    (now : Instant) {k : CacheKey} (hk : tenantPrefix A <+: k) :
    (w.cache.write key value ttl now).get? k = (w'.cache.write key value ttl now).get? k := by
  rw [get?_write, get?_write, h.entries k hk]

/-- **A tenant's operation answers alike wherever the tenant sees the same.** -/
theorem serve_own (hop : op.tenantId = A) (hok : op.Admissible w) (hok' : op.Admissible w')
    (hp : Partitioned w.db) (hp' : Partitioned w'.db) (h : w.Agree A w') :
    AnswerAlike A (serve env op w) (serve env op w') := by
  subst hop
  -- one case for each request: it reads alike, and what it writes is alike
  have ho := hok.order
  unfold serve
  cases hreq : op.request with
  | createReservation userId body =>
    exact commit_alike h (createReservation_alike h.rows hp hp' ho (hok.unused userId body hreq)
      (hok'.unused userId body hreq) op.now)
  | confirmReservation userId reference =>
    exact commit_alike h
      (confirmReservation_alike h.rows hp hp' ho userId reference op.drawn op.now)
  | cancelReservation userId reference reason =>
    exact commit_alike h
      (cancelReservation_alike h.rows hp hp' userId reference reason op.drawn op.now)
  | getBookingDetail userId reference =>
    refine read_alike h _ ?_
    exact Except.bind_congr_of_ok (h.rows.findOwnedBooking_eq hp hp' ho userId reference)
      fun _ _ => rfl
  | searchExperiences query =>
    refine readThrough_alike h (cacheRead_eq h (tenantPrefix_searchCacheKey _ _ _) op.now) _ ?_
      (h.rows.searchExperiences_eq hp.closed ho query op.now)
    exact fun result key hkey => cacheWrite_eq h _ _ _ _ hkey
  | getExperienceDetail experienceId query =>
    refine readThrough_alike h (cacheRead_eq h (tenantPrefix_detailCacheKey _ _ _ _) op.now) _ ?_
      (h.rows.getExperienceDetail_eq hp.closed ho experienceId query op.now)
    exact fun result key hkey => cacheWrite_eq h _ _ _ _ hkey
  | listTenantBookings query =>
    exact read_alike h _ (h.rows.listTenantBookings_eq hp.closed ho query)
  | listAuditLogs query => exact read_alike h _ (h.rows.listAuditLogs_eq hp.audit ho query)
  | invalidateTenantAvailability =>
    refine ⟨rfl, h.rows, fun key hkey => ?_⟩
    show (invalidateTenantAvailability _ _ _).get? key =
      (invalidateTenantAvailability _ _ _).get? key
    rw [get?_invalidate, get?_invalidate, if_pos hkey, if_pos hkey]

/-! ### Runs -/

/-- The operations of a tenant. -/
def ofTenant (tenantId : Uuid) (op : TenantOp) : Bool := op.tenantId = tenantId

theorem unwinding (env : ServiceEnv) (A : Uuid) :
    Unwinding (serve env) (ofTenant A) TenantOp.Admissible (fun w => Partitioned w.db)
      (World.Agree A) where
  symm _ _ h := ⟨h.rows.symm, fun key hkey => (h.entries key hkey).symm⟩
  trans _ _ _ h h' :=
    ⟨h.rows.trans h'.rows, fun key hkey => (h.entries key hkey).trans (h'.entries key hkey)⟩
  keeps _ _ hok hp := serve_partitioned hok hp
  others _ _ hop hok hp := serve_others hok hp (by simpa [ofTenant] using hop)
  own _ _ _ hop hok hok' hp hp' h :=
    serve_own (by simpa [ofTenant] using hop) hok hok' hp hp' h

end

/-! ### Two tenants -/

namespace TwoTenants

open LateConfirm

/-- Each result in an order that depends on its rows only. -/
noncomputable def order : RowOrder :=
  ⟨.canonical, .canonical, .canonical, .canonical, .canonical, .canonical, .canonical, .canonical,
    fun _ => false⟩

theorem order_determined : order.Determined :=
  ⟨Arrangement.canonical_determined, Arrangement.canonical_determined,
    Arrangement.canonical_determined, Arrangement.canonical_determined,
    Arrangement.canonical_determined, Arrangement.canonical_determined,
    Arrangement.canonical_determined, Arrangement.canonical_determined⟩

/-- A minute to live, and one digest for all queries. -/
def env : ServiceEnv where
  rt := Offer.rt
  cache :=
    { availabilityCacheTtlSeconds := 60
      searchHash := fun _ => []
      detailHash := fun _ => []
      scan := .oneReply }
  bookingReserveTtlSeconds := 900

/-- A user of the first tenant. -/
def user : User := ⟨uuid 2, uuid 1, "guide@first.example", "", .travelManager, true⟩

/-- A user of the second tenant. -/
def stranger (email : String) : User := ⟨uuid 7, uuid 6, email, "", .admin, true⟩

/-- The databases of the two runs differ in the other tenant's user and the audit rows. -/
def database (email : String) (auditLogs : List AuditLog) : Database :=
  { LateConfirm.database with
    users := ⟨[user, stranger email], show [uuid 2, uuid 7].Nodup by decide⟩
    auditLogs := auditLogs }

/-- The database with an empty cache. -/
def world (email : String) (auditLogs : List AuditLog) : World := ⟨database email auditLogs, .empty⟩

theorem closed (email : String) (auditLogs : List AuditLog) :
    TenantClosed (database email auditLogs) where
  experience := by
    intro e he
    rw [List.mem_singleton.mp he]
    exact ⟨_, rfl, rfl⟩
  slot := by
    intro s hs
    rw [List.mem_singleton.mp hs]
    exact ⟨_, rfl, rfl⟩
  pricingRule := fun r hr => absurd hr List.not_mem_nil
  bookingUser := fun b hb => absurd hb List.not_mem_nil
  bookingExperience := fun b hb => absurd hb List.not_mem_nil
  bookingSlot := fun b hb => absurd hb List.not_mem_nil
  history := fun h hh => absurd hh List.not_mem_nil

/-- The email of a stranger is not among the rows of the first tenant. -/
theorem agree (email email' : String) (auditLogs : List AuditLog) :
    (world email auditLogs).Agree (uuid 1) (world email' auditLogs) := by
  refine ⟨{ TenantAgree.refl (uuid 1) (database email auditLogs) with users := ?_ }, fun _ _ => rfl⟩
  have hother : ∀ e, (stranger e).tenantId ≠ uuid 1 :=
    fun _ => show uuid 6 ≠ uuid 1 by decide
  intro u hu
  show u ∈ [user, stranger email] ↔ u ∈ [user, stranger email']
  simp only [List.mem_cons, List.not_mem_nil, or_false]
  constructor
  · rintro (rfl | rfl)
    · exact Or.inl rfl
    · exact absurd hu (hother email)
  · rintro (rfl | rfl)
    · exact Or.inl rfl
    · exact absurd hu (hother email')

/-- Only a creation is promised something of the world. -/
theorem admissible {op : TenantOp} {w : World} (ho : op.order = order)
    (hreq : ∀ userId body, op.request ≠ .createReservation userId body) : op.Admissible w where
  order := ho ▸ order_determined
  caller userId body h := absurd h (hreq userId body)
  unused userId body h := absurd h (hreq userId body)

/-- The tenant makes a booking. -/
noncomputable def create : TenantOp :=
  ⟨uuid 1, .createReservation (uuid 2) body, order, drawn 0, 0⟩

/-- The tenant reads it. -/
noncomputable def detail : TenantOp :=
  ⟨uuid 1, .getBookingDetail (uuid 2) "BK-0000002A", order, drawn 1, 1⟩

/-- An operation of the second tenant. -/
noncomputable def invalidate : TenantOp :=
  ⟨uuid 6, .invalidateTenantAvailability, order, drawn 2, 0⟩

theorem create_admissible {w : World} (email : String) (hdb : w.db = database email []) :
    create.Admissible w where
  order := order_determined
  caller := by
    rintro _ _ ⟨⟩
    rw [hdb]
    exact ⟨user, rfl, rfl⟩
  unused := by
    rintro _ _ ⟨⟩
    rw [hdb]
    exact ⟨rfl, fun b hb => absurd hb List.not_mem_nil⟩

theorem partitioned (email : String) : Partitioned (database email []) :=
  ⟨closed email [], fun _ hb => absurd hb List.not_mem_nil,
    fun _ hl => absurd hl List.not_mem_nil⟩

/-- An audit log of the first tenant whose actor is of the second. -/
def log : AuditLog := ⟨uuid 30, some (uuid 1), some (uuid 7), .login, "User", none, none, 0⟩

theorem no_dates : ∀ s ∈ (none : Option DateString), ∀ e ∈ (none : Option DateString), s ≤ e := by
  simp

/-- The logs about users, on pages like those of the search. -/
def logsQuery : AuditLogListQuery where
  eventType := none
  entityType := some "User"
  entityId := none
  actorUserId := none
  from_ := none
  to_ := none
  sortOrder := .desc
  page := Offer.query.page
  pageSize := Offer.query.pageSize
  entityType_ne := by simp
  dates := no_dates
  one_le_page := Offer.query.one_le_page
  one_le_pageSize := Offer.query.one_le_pageSize
  pageSize_le := Offer.query.pageSize_le

/-- The tenant lists its audit rows. -/
noncomputable def logs : TenantOp := ⟨uuid 1, .listAuditLogs logsQuery, order, drawn 0, 0⟩

theorem listAuditLogs_ok (email : String) :
    listAuditLogs env.rt order (uuid 1) logsQuery (database email [log]) =
      .ok ⟨[⟨uuid 30, .login, "User", none, some (uuid 7, email), none, 0⟩], ⟨1, 20, 1, 1⟩⟩ := by
  have hrows : order.auditLogs.apply ((database email [log]).auditLogs.filter
      (auditLogWhere (uuid 1) logsQuery none none)) = [log] := Arrangement.apply_singleton _ log
  show Except.ok _ = _
  rw [hrows, orderBy, List.mergeSort_singleton]
  rfl

end TwoTenants

/-- **Tenants do not interfere.** Two runs whose databases and caches agree on a
tenant, and which agree on its requests, give it the same answers and leave it
the same rows and cache entries, whatever the other tenants do; and none of its
requests changes a row or a cache entry of another. -/
theorem tenant_noninterference (env : ServiceEnv) {A : Uuid} {ops ops' : List TenantOp}
    {w w' : World} (hops : ops.filter (ofTenant A) = ops'.filter (ofTenant A))
    (hok : AllOk (serve env) TenantOp.Admissible ops w)
    (hok' : AllOk (serve env) TenantOp.Admissible ops' w') (hp : Partitioned w.db)
    (hp' : Partitioned w'.db) (hagree : w.Agree A w') :
    outputs (serve env) (ofTenant A) ops w = outputs (serve env) (ofTenant A) ops' w' ∧
      (run (serve env) ops w).Agree A (run (serve env) ops' w') ∧
      ∀ pre op post, ops = pre ++ op :: post → op.tenantId = A → ∀ B, B ≠ A →
        (run (serve env) pre w).Agree B (serve env op (run (serve env) pre w)).2 := by
  obtain ⟨houtputs, hrun⟩ := (unwinding env A).noninterference hops hok hok' hp hp' hagree
  refine ⟨houtputs, hrun, ?_⟩
  rintro pre op post rfl hop B hB
  obtain ⟨hokop, hpop⟩ := hok.reaches (unwinding env A).keeps hp
  exact serve_others hokop hpop fun h => hB (h.symm.trans hop)

/-- The first tenant books and looks at its booking; the email of a user of the
second, and when the second invalidates its cache, do not matter. -/
theorem tenant_noninterference_invalidate :
    outputs (serve TwoTenants.env) (ofTenant (uuid 1))
        [TwoTenants.create, TwoTenants.detail] (TwoTenants.world "one@second.example" []) =
      outputs (serve TwoTenants.env) (ofTenant (uuid 1))
        [TwoTenants.invalidate, TwoTenants.create, TwoTenants.invalidate, TwoTenants.detail]
        (TwoTenants.world "two@second.example" []) := by
  have hother : ∀ {w}, TwoTenants.invalidate.Admissible w :=
    TwoTenants.admissible rfl (by rintro _ _ ⟨⟩)
  have hdetail : ∀ {w}, TwoTenants.detail.Admissible w :=
    TwoTenants.admissible rfl (by rintro _ _ ⟨⟩)
  exact (tenant_noninterference TwoTenants.env
    (show [TwoTenants.create, TwoTenants.detail].filter (ofTenant (uuid 1)) =
      [TwoTenants.invalidate, TwoTenants.create, TwoTenants.invalidate,
        TwoTenants.detail].filter (ofTenant (uuid 1)) from rfl)
    ⟨TwoTenants.create_admissible _ rfl, hdetail, trivial⟩
    ⟨hother, TwoTenants.create_admissible _ rfl, hother, hdetail, trivial⟩
    (TwoTenants.partitioned _) (TwoTenants.partitioned _) (TwoTenants.agree _ _ _)).1

/-- **Audit logs can show another tenant.** Nothing makes the actor of a tenant's
audit log one of its own users, and the listing shows the actor's email. -/
theorem tenants_not_always_noninterfering :
    ¬ ∀ (env : ServiceEnv) (A : Uuid) (ops ops' : List TenantOp) (w w' : World),
      ops.filter (ofTenant A) = ops'.filter (ofTenant A) →
      AllOk (serve env) TenantOp.Admissible ops w →
      AllOk (serve env) TenantOp.Admissible ops' w' → TenantClosed w.db → TenantClosed w'.db →
      (∀ b ∈ w.db.bookings, ∀ b' ∈ w.db.bookings, b.reference = b'.reference → b = b') →
      (∀ b ∈ w'.db.bookings, ∀ b' ∈ w'.db.bookings, b.reference = b'.reference → b = b') →
      w.Agree A w' →
      outputs (serve env) (ofTenant A) ops w = outputs (serve env) (ofTenant A) ops' w' := by
  intro h
  have hlogs : ∀ {w}, TwoTenants.logs.Admissible w := TwoTenants.admissible rfl (by rintro _ _ ⟨⟩)
  have heq := h TwoTenants.env (uuid 1) [TwoTenants.logs] [TwoTenants.logs]
    (TwoTenants.world "one@second.example" [TwoTenants.log])
    (TwoTenants.world "two@second.example" [TwoTenants.log]) rfl ⟨hlogs, trivial⟩ ⟨hlogs, trivial⟩
    (TwoTenants.closed _ _) (TwoTenants.closed _ _) (fun b hb => absurd hb List.not_mem_nil)
    (fun b hb => absurd hb List.not_mem_nil) (TwoTenants.agree _ _ _)
  have hanswer : ∀ email, outputs (serve TwoTenants.env) (ofTenant (uuid 1))
      [TwoTenants.logs] (TwoTenants.world email [TwoTenants.log]) =
      [Response.auditLogs <$> listAuditLogs TwoTenants.env.rt TwoTenants.order (uuid 1)
        TwoTenants.logsQuery (TwoTenants.database email [TwoTenants.log])] := fun email => rfl
  rw [hanswer, hanswer, TwoTenants.listAuditLogs_ok, TwoTenants.listAuditLogs_ok] at heq
  injection heq with hhead
  injection hhead with hresponse
  injection hresponse with hresult
  injection hresult with hitems
  injection hitems with hitem
  injection hitem with _ _ _ _ hactor
  injection hactor with hpair
  injection hpair with _ hemail
  exact absurd hemail (by decide)

end BookingPlatform
