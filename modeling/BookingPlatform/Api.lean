import BookingPlatform.AccessTokens
import BookingPlatform.Tenancy

/-!
# Requests as they come in

The routes of `bookings.routes.ts`, `experiences.routes.ts` and `admin.routes.ts`
with `validate-request.ts`, `async-handler.ts`, `response.ts` and the error handler
of `app.ts`.  A request is authenticated, then checked for its role, then validated,
and only then served, for the tenant and the user that its token led to.

## Main definitions

* `HttpRequest`, `HttpResponse`, `RequestError` — what comes in and what goes out.
* `HttpRequest.passed` — authentication, role and validation.
* `handle` — a request from the first byte to the response.

## Main results

* `passed_ok` — what a request that is served has passed.
* `requests_noninterference` — tenants do not interfere, with the tenant of each
  request taken from its token.
-/

namespace BookingPlatform

open Noninterference

/-! ### Validation -/

/-- An issue that a schema raises. -/
structure ZodIssue where
  path : List String
  message : String

/-- A part of a request that a schema validates. -/
inductive RequestPart
  | body | query | params
  deriving DecidableEq, Repr

/-- The message of a part that is not valid. -/
def invalidRequestMessages : RequestPart → String
  | .body => "Invalid request body"
  | .query => "Invalid query parameters"
  | .params => "Invalid route parameters"

/-- The issues as the response lists them. -/
def formatZodIssues (issues : List ZodIssue) : Json :=
  .arr (issues.map fun issue =>
    .obj [("path", .str (".".intercalate issue.path)), ("message", .str issue.message)])

/-- What a request can end with before it is served. -/
inductive RequestError
  | failure (e : Failure)
  | invalid (part : RequestPart) (issues : List ZodIssue)

/-- The parsers of the schemas in `schemas/requests`. -/
structure Schemas where
  createBookingBody : Json → Except (List ZodIssue) CreateBookingBody
  cancelBookingBody : Json → Except (List ZodIssue) String
  bookingRefParams : Json → Except (List ZodIssue) String
  experienceSearchQuery : Instant → Json → Except (List ZodIssue) ExperienceSearchQuery
  experienceDetailQuery : Json → Except (List ZodIssue) ExperienceDetailQuery
  experienceIdParams : Json → Except (List ZodIssue) Uuid
  adminBookingListQuery : Json → Except (List ZodIssue) AdminBookingListQuery
  auditLogListQuery : Json → Except (List ZodIssue) AuditLogListQuery

/-- One turn of the loop of `validateRequest`. -/
def validate {α : Type} (part : RequestPart) (schema : Json → Except (List ZodIssue) α)
    (value : Json) : Except RequestError α :=
  (schema value).mapError (.invalid part)

/-! ### Routes -/

/-- The routes of bookings, experiences and listings. -/
inductive Route
  | createBooking | confirmBooking | getBooking | cancelBooking
  | searchExperiences | getExperience
  | listBookings | listAuditLog
  deriving DecidableEq, Repr

/-- The arguments of `requireRole`, where a route has it. -/
def Route.allowed? : Route → Option (List UserRole)
  | .listBookings => some [.admin, .travelManager]
  | .listAuditLog => some [.admin]
  | _ => none

/-- A request as Express hands it on. -/
structure HttpRequest where
  route : Route
  authorization : Option String
  params : Json
  query : Json
  body : Option Json

/-- `req.body ?? {}`. -/
def HttpRequest.bodyOrEmpty (req : HttpRequest) : Json :=
  match req.body with
  | none | some .null => .obj []
  | some body => body

/-- `validateRequest` and the call the handler makes, in the order body, query,
parameters. -/
def HttpRequest.validated (schemas : Schemas) (req : HttpRequest) (user : AuthenticatedUser)
    (now : Instant) : Except RequestError TenantRequest :=
  match req.route with
  | .createBooking => do
    let body ← validate .body schemas.createBookingBody req.bodyOrEmpty
    return .createReservation user.id body
  | .confirmBooking => do
    let ref ← validate .params schemas.bookingRefParams req.params
    return .confirmReservation user.id ref
  | .getBooking => do
    let ref ← validate .params schemas.bookingRefParams req.params
    return .getBookingDetail user.id ref
  | .cancelBooking => do
    let reason ← validate .body schemas.cancelBookingBody req.bodyOrEmpty
    let ref ← validate .params schemas.bookingRefParams req.params
    return .cancelReservation user.id ref reason
  | .searchExperiences => do
    let query ← validate .query (schemas.experienceSearchQuery now) req.query
    return .searchExperiences query
  | .getExperience => do
    let query ← validate .query schemas.experienceDetailQuery req.query
    let id ← validate .params schemas.experienceIdParams req.params
    return .getExperienceDetail id query
  | .listBookings => do
    let query ← validate .query schemas.adminBookingListQuery req.query
    return .listTenantBookings query
  | .listAuditLog => do
    let query ← validate .query schemas.auditLogListQuery req.query
    return .listAuditLogs query

/-- The role check of a route, if it has one. -/
def Route.checkRole (route : Route) (user : AuthenticatedUser) : Except Failure Unit :=
  match route.allowed? with
  | none => .ok ()
  | some allowed => requireRole allowed user

/-- The middlewares of a route, in their order. -/
def HttpRequest.passed (schemas : Schemas) (jwt : Jwt) (req : HttpRequest) (db : Database)
    (now : Instant) : Except RequestError (AuthenticatedUser × TenantRequest) := do
  let user ← (authMiddleware jwt req.authorization db now).mapError .failure
  (req.route.checkRole user).mapError .failure
  let request ← req.validated schemas user now
  return (user, request)

/-! ### Responses -/

/-- `ApiResponseBody`. -/
inductive ApiBody
  | success (data : Response)
  | error (code message : String) (details : Option Json)

/-- A response: its status, its body and its timestamp. -/
structure HttpResponse where
  statusCode : ℕ
  body : ApiBody
  timestamp : Instant

/-- `sendSuccess`, with the status that the handler of a route gives. -/
def sendSuccess (route : Route) (data : Response) (now : Instant) : HttpResponse where
  statusCode := match route with
    | .createBooking => 201
    | _ => 200
  body := .success data
  timestamp := now

/-- `sendError`: an error that is none of the service's own is not shown. -/
def sendError (error : RequestError) (now : Instant) : HttpResponse :=
  match error with
  | .failure (.app e) => ⟨e.statusCode, .error e.code e.message none, now⟩
  | .failure _ =>
    ⟨internalServerError.statusCode,
      .error internalServerError.code internalServerError.message none, now⟩
  | .invalid part issues =>
    let e := badRequestError (invalidRequestMessages part)
    ⟨e.statusCode, .error e.code e.message (some (.obj [("issues", formatZodIssues issues)])), now⟩

/-! ### The server -/

/-- A request, or an invalidation that a booking operation has enqueued. -/
inductive HttpAct
  | request (req : HttpRequest)
  | invalidate (tenantId : Uuid)

/-- An operation with what it is run with: the row orders, what it draws and the clock. -/
structure HttpOp where
  act : HttpAct
  order : RowOrder
  drawn : Generated
  now : Instant

/-- The service, the schemas and the token library. -/
structure ApiEnv where
  service : ServiceEnv
  schemas : Schemas
  jwt : Jwt

variable {env : ApiEnv} {op : HttpOp} {w w' : World}

/-- The operation that a request comes to. -/
def HttpOp.gate (env : ApiEnv) (op : HttpOp) (w : World) : Except RequestError TenantOp :=
  match op.act with
  | .request req => do
    let (user, request) ← req.passed env.schemas env.jwt w.db op.now
    return ⟨user.tenantId, request, op.order, op.drawn, op.now⟩
  | .invalidate tenantId =>
    return ⟨tenantId, .invalidateTenantAvailability, op.order, op.drawn, op.now⟩

/-- The route of a request, and the user whose bookings it is about. -/
def TenantRequest.route? : TenantRequest → Option Route
  | .createReservation _ _ => some .createBooking
  | .confirmReservation _ _ => some .confirmBooking
  | .cancelReservation _ _ _ => some .cancelBooking
  | .getBookingDetail _ _ => some .getBooking
  | .searchExperiences _ => some .searchExperiences
  | .getExperienceDetail _ _ => some .getExperience
  | .listTenantBookings _ => some .listBookings
  | .listAuditLogs _ => some .listAuditLog
  | .invalidateTenantAvailability => none

/-- The user that a request to the service names. -/
def TenantRequest.userId? : TenantRequest → Option Uuid
  | .createReservation userId _ | .confirmReservation userId _ | .cancelReservation userId _ _
  | .getBookingDetail userId _ => some userId
  | _ => none

/-- The response to a request that is refused. -/
def HttpOp.refuse (op : HttpOp) (e : RequestError) : Option HttpResponse :=
  match op.act with
  | .request _ => some (sendError e op.now)
  | .invalidate _ => none

/-- The response to what the service returns. -/
def HttpOp.reply (op : HttpOp) (out : Except Failure Response) : Option HttpResponse :=
  match op.act with
  | .request req =>
    match out with
    | .ok data => some (sendSuccess req.route data op.now)
    | .error e => some (sendError (.failure e) op.now)
  | .invalidate _ => none

/-- One request, start to end. -/
def handle (env : ApiEnv) : HttpOp → World → Option HttpResponse × World :=
  gated (HttpOp.gate env) HttpOp.refuse HttpOp.reply (serve env.service)

/-- The payload of the token that a request carries. -/
def HttpOp.payload? (jwt : Jwt) (op : HttpOp) : Option AccessTokenPayload :=
  match op.act with
  | .request req =>
    (bearerToken req.authorization >>= fun token => verifyAccessToken jwt token op.now).toOption
  | .invalidate _ => none

/-- The operations of a tenant: those with a token of it, and its invalidations. -/
def HttpOp.ofTenant (jwt : Jwt) (tenantId : Uuid) (op : HttpOp) : Bool :=
  match op.act with
  | .request _ => (op.payload? jwt).map AccessTokenPayload.tenantId = some tenantId
  | .invalidate t => t = tenantId

/-- Tokens are signed for the users of their tenants only, and a creation draws what
is unused. -/
structure HttpOp.Admissible (jwt : Jwt) (op : HttpOp) (w : World) : Prop where
  order : op.order.Determined
  token : ∀ payload, op.payload? jwt = some payload → IsUserOf payload.tenantId w.db payload.sub
  unused : ∀ req, op.act = .request req → req.route = .createBooking → Unused op.drawn w.db

theorem mapError_eq_ok {ε ε' α : Type} {x : Except ε α} {f : ε → ε'} {a : α} :
    x.mapError f = .ok a ↔ x = .ok a := by
  cases x <;> simp [Except.mapError]

theorem checkRole_eq_ok {route : Route} {user : AuthenticatedUser} {u : Unit} :
    route.checkRole user = .ok u ↔
      ∀ allowed, route.allowed? = some allowed → user.role ∈ allowed := by
  unfold Route.checkRole
  cases route.allowed? with
  | none => simp
  | some allowed => simp [requireRole, throwIf_eq_ok]

/-- **What a request that is served has passed**: its user is authenticated, has a
role that the route allows, and its parts are as the schemas have them. -/
theorem passed_ok {schemas : Schemas} {jwt : Jwt} {req : HttpRequest} {db : Database}
    {now : Instant} {user : AuthenticatedUser} {request : TenantRequest} :
    req.passed schemas jwt db now = .ok (user, request) ↔
      authMiddleware jwt req.authorization db now = .ok user ∧
        (∀ allowed, req.route.allowed? = some allowed → user.role ∈ allowed) ∧
        req.validated schemas user now = .ok request := by
  simp only [HttpRequest.passed, Except.bind_eq_ok, mapError_eq_ok, checkRole_eq_ok,
    Except.pure_eq_ok, Prod.mk.injEq]
  constructor
  · rintro ⟨user, huser, -, hrole, request, hrequest, rfl, rfl⟩
    exact ⟨huser, hrole, hrequest⟩
  · rintro ⟨huser, hrole, hrequest⟩
    exact ⟨user, huser, (), hrole, request, hrequest, rfl, rfl⟩

/-- The gate lets a request through as one of the tenant of its user. -/
theorem gate_request {req : HttpRequest} (hact : op.act = .request req) {inner : TenantOp} :
    op.gate env w = .ok inner ↔ ∃ user request,
      req.passed env.schemas env.jwt w.db op.now = .ok (user, request) ∧
        inner = ⟨user.tenantId, request, op.order, op.drawn, op.now⟩ := by
  simp only [HttpOp.gate, hact, Except.bind_eq_ok, Except.pure_eq_ok, Prod.exists]
  constructor
  · rintro ⟨user, request, hpassed, rfl⟩
    exact ⟨user, request, hpassed, rfl⟩
  · rintro ⟨user, request, hpassed, rfl⟩
    exact ⟨user, request, hpassed, rfl⟩

/-- What is served is asked for by the user that the token led to, on its route. -/
theorem request_of_validated {schemas : Schemas} {req : HttpRequest} {user : AuthenticatedUser}
    {now : Instant} {request : TenantRequest} (h : req.validated schemas user now = .ok request) :
    request.route? = some req.route ∧
      ∀ userId, request.userId? = some userId → userId = user.id := by
  cases hroute : req.route <;>
    simp only [HttpRequest.validated, hroute, Except.bind_eq_ok, Except.pure_eq_ok] at h
  case cancelBooking | getExperience =>
    obtain ⟨_, -, _, -, rfl⟩ := h
    simp [TenantRequest.route?, TenantRequest.userId?, eq_comm]
  all_goals
    obtain ⟨_, -, rfl⟩ := h
    simp [TenantRequest.route?, TenantRequest.userId?, eq_comm]

/-- The token behind a request that is authenticated. -/
theorem payload_of_authenticated {req : HttpRequest} (hact : op.act = .request req)
    {user : AuthenticatedUser} {jwt : Jwt} {db : Database}
    (h : authMiddleware jwt req.authorization db op.now = .ok user) :
    ∃ payload, op.payload? jwt = some payload ∧ authenticate payload db = .ok user := by
  obtain ⟨token, payload, htoken, hpayload, hauth⟩ := authMiddleware_ok.mp h
  refine ⟨payload, ?_, hauth⟩
  simp only [HttpOp.payload?, hact]
  rw [show (bearerToken req.authorization >>= fun token => verifyAccessToken jwt token op.now) =
    .ok payload from Except.bind_eq_ok.mpr ⟨token, htoken, hpayload⟩]
  rfl

/-! ### Tenants -/

/-- What the middleware reads of a database is the row that the token names. -/
theorem authMiddleware_congr {req : HttpRequest} (hact : op.act = .request req) {jwt : Jwt}
    {db db' : Database} (h : ∀ payload, op.payload? jwt = some payload →
      db.users.get? payload.sub = db'.users.get? payload.sub) :
    authMiddleware jwt req.authorization db op.now =
      authMiddleware jwt req.authorization db' op.now := by
  simp only [HttpOp.payload?, hact] at h
  unfold authMiddleware
  cases htoken : bearerToken req.authorization with
  | error e => rfl
  | ok token =>
    show (verifyAccessToken jwt token op.now >>= fun payload => authenticate payload db) =
      (verifyAccessToken jwt token op.now >>= fun payload => authenticate payload db')
    refine Except.bind_congr_of_ok rfl fun payload hpayload => ?_
    have hsame : db.users.get? payload.sub = db'.users.get? payload.sub := by
      apply h
      rw [htoken]
      exact congrArg Except.toOption hpayload
    unfold authenticate
    rw [hsame]

/-- **The gate admits a request as its token says**: what is served is admissible, the
caller of a creation included, and of the tenant of the token. -/
theorem gate_admissible {A : Uuid} (hok : op.Admissible env.jwt w) {inner : TenantOp}
    (h : op.gate env w = .ok inner) :
    inner.Admissible w ∧ ofTenant A inner = op.ofTenant env.jwt A := by
  cases hact : op.act with
  | invalidate tenantId =>
    simp only [HttpOp.gate, hact, Except.pure_eq_ok] at h
    subst h
    refine ⟨⟨hok.order, ?_, ?_⟩, ?_⟩
    · intro userId body hreq
      cases hreq
    · intro userId body hreq
      cases hreq
    · simp [HttpOp.ofTenant, hact, ofTenant]
  | request req =>
    obtain ⟨user, request, hpassed, rfl⟩ := (gate_request hact).mp h
    obtain ⟨huser, -, hrequest⟩ := passed_ok.mp hpassed
    obtain ⟨payload, hpayload, hauth⟩ := payload_of_authenticated hact huser
    obtain ⟨row, hrow, -, htenant, -, rfl⟩ := authenticate_ok.mp hauth
    have hid : row.id = payload.sub := (Table.get?_eq_some.mp hrow).2
    refine ⟨⟨hok.order, ?_, ?_⟩, ?_⟩
    · intro userId body hreq
      obtain rfl : request = .createReservation userId body := hreq
      rw [(request_of_validated hrequest).2 userId rfl]
      exact ⟨row, hid ▸ hrow, rfl⟩
    · intro userId body hreq
      obtain rfl : request = .createReservation userId body := hreq
      exact hok.unused req hact (Option.some.inj (request_of_validated hrequest).1).symm
    · simp [HttpOp.ofTenant, hact, ofTenant, hpayload, htenant]

/-- A tenant's requests are let in, or refused, by its own rows. -/
theorem gate_view {A : Uuid} (hmine : op.ofTenant env.jwt A = true)
    (hok : op.Admissible env.jwt w) (h : w.Agree A w') : op.gate env w = op.gate env w' := by
  cases hact : op.act with
  | invalidate tenantId => simp only [HttpOp.gate, hact]
  | request req =>
    have hmiddleware : authMiddleware env.jwt req.authorization w.db op.now =
        authMiddleware env.jwt req.authorization w'.db op.now := by
      refine authMiddleware_congr hact fun payload hpayload => ?_
      have htenant : payload.tenantId = A := by
        simpa [HttpOp.ofTenant, hact, hpayload] using hmine
      obtain ⟨row, hrow, howned⟩ := hok.token payload hpayload
      exact h.rows.users.get?_eq ⟨row, hrow, howned.trans htenant⟩
    simp only [HttpOp.gate, hact, HttpRequest.passed, hmiddleware]

theorem requests_unwinding (env : ApiEnv) (A : Uuid) :
    Unwinding (handle env) (HttpOp.ofTenant env.jwt A) (HttpOp.Admissible env.jwt)
      (fun w => Partitioned w.db) (World.Agree A) :=
  (unwinding env.service A).gated (World.Agree.refl A)
    (fun _ _ _ hok _ h => gate_admissible hok h)
    (fun _ _ _ hmine hok _ _ _ h => gate_view hmine hok h)

/-! ### A request of the first tenant -/

namespace TwoTenants

open LateConfirm

/-- The token of the guide, signed when the clock starts. -/
def jwt : Jwt where
  verify token now :=
    if token = "guide" ∧ now / 1000 < 900 then some (.claims user.payload.claims) else none

/-- Reads the one body that is sent. -/
def schemas : Schemas where
  createBookingBody json :=
    match json.field? "slot_id", json.field? "party_size" with
    | some (.str slotId), some (.num partySize) =>
      if slotId = body.slotId.toString ∧ partySize = body.partySize then .ok body
      else .error [⟨["slot_id"], "Invalid UUID"⟩]
    | _, _ => .error [⟨["slot_id"], "Invalid input"⟩]
  cancelBookingBody _ := .error []
  bookingRefParams _ := .error []
  experienceSearchQuery _ _ := .error []
  experienceDetailQuery _ := .error []
  experienceIdParams _ := .error []
  adminBookingListQuery _ := .error []
  auditLogListQuery _ := .error []

/-- The environment of the two tenants. -/
def apiEnv : ApiEnv := ⟨TwoTenants.env, schemas, jwt⟩

/-- A creation, with the header that is sent. -/
def post (authorization : Option String) : HttpRequest where
  route := .createBooking
  authorization := authorization
  params := .obj []
  query := .obj []
  body := some (.obj [("slot_id", .str body.slotId.toString), ("party_size", .num body.partySize)])

/-- The request with a token. -/
noncomputable def guided : HttpOp := ⟨.request (post (some "Bearer guide")), order, drawn 0, 0⟩

/-- The request without one. -/
noncomputable def anonymous : HttpOp := ⟨.request (post none), order, drawn 1, 0⟩

/-- An invalidation of the other tenant. -/
noncomputable def invalidated : HttpOp := ⟨.invalidate (uuid 6), order, drawn 2, 0⟩

theorem guided_admissible {w : World} (email : String) (hdb : w.db = database email []) :
    guided.Admissible jwt w where
  order := order_determined
  token := by
    intro payload hpayload
    have huser : guided.payload? jwt = some user.payload := by rfl
    obtain rfl := Option.some.inj (huser.symm.trans hpayload)
    rw [hdb]
    exact ⟨user, rfl, rfl⟩
  unused := by
    intro req _ _
    rw [hdb]
    exact ⟨rfl, fun b hb => absurd hb List.not_mem_nil⟩

/-- Without a token nothing is promised but the draws. -/
theorem anonymous_admissible {w : World} (email : String) (hdb : w.db = database email []) :
    anonymous.Admissible jwt w where
  order := order_determined
  token payload hpayload := by cases hpayload
  unused := by
    intro req _ _
    rw [hdb]
    exact ⟨rfl, fun b hb => absurd hb List.not_mem_nil⟩

theorem invalidated_admissible {w : World} : invalidated.Admissible jwt w where
  order := order_determined
  token payload hpayload := by cases hpayload
  unused req hreq := by cases hreq

end TwoTenants

/-- **Tenants do not interfere**, from the requests on. Two runs of requests whose
databases and caches agree on a tenant, and which agree on the requests with a token
of it, give these the same responses, refusals included, and leave the tenant the same
rows and cache entries; and no request with its token changes a row or a cache entry
of another tenant. -/
theorem requests_noninterference (env : ApiEnv) {A : Uuid} {ops ops' : List HttpOp} {w w' : World}
    (hops : ops.filter (HttpOp.ofTenant env.jwt A) = ops'.filter (HttpOp.ofTenant env.jwt A))
    (hok : AllOk (handle env) (HttpOp.Admissible env.jwt) ops w)
    (hok' : AllOk (handle env) (HttpOp.Admissible env.jwt) ops' w') (hp : Partitioned w.db)
    (hp' : Partitioned w'.db) (hagree : w.Agree A w') :
    outputs (handle env) (HttpOp.ofTenant env.jwt A) ops w =
      outputs (handle env) (HttpOp.ofTenant env.jwt A) ops' w' ∧
    (run (handle env) ops w).Agree A (run (handle env) ops' w') ∧
    ∀ pre op post, ops = pre ++ op :: post → op.ofTenant env.jwt A = true → ∀ B, B ≠ A →
      (run (handle env) pre w).Agree B (handle env op (run (handle env) pre w)).2 := by
  obtain ⟨houtputs, hrun⟩ :=
    (requests_unwinding env A).noninterference hops hok hok' hp hp' hagree
  refine ⟨houtputs, hrun, ?_⟩
  intro pre op post hops hmine B hB
  subst hops
  obtain ⟨hokop, hpop⟩ := hok.reaches (requests_unwinding env A).keeps hp
  refine (requests_unwinding env B).others op _ ?_ hokop hpop
  -- the token of a request is of one tenant
  cases hact : op.act with
  | invalidate tenantId =>
    simp only [HttpOp.ofTenant, hact, decide_eq_true_eq, decide_eq_false_iff_not] at hmine ⊢
    exact fun h => hB (h.symm.trans hmine)
  | request req =>
    simp only [HttpOp.ofTenant, hact, decide_eq_true_eq, decide_eq_false_iff_not] at hmine ⊢
    intro h
    exact hB (Option.some.inj (h.symm.trans hmine))

/-- The guide of the first tenant books; a request without a token before it, and an
invalidation of the second tenant, do not matter. -/
theorem requests_noninterference_guide :
    outputs (handle TwoTenants.apiEnv) (HttpOp.ofTenant TwoTenants.jwt (uuid 1))
        [TwoTenants.guided] (TwoTenants.world "one@second.example" []) =
      outputs (handle TwoTenants.apiEnv) (HttpOp.ofTenant TwoTenants.jwt (uuid 1))
        [TwoTenants.anonymous, TwoTenants.invalidated, TwoTenants.guided]
        (TwoTenants.world "two@second.example" []) :=
  (requests_noninterference TwoTenants.apiEnv
    (show [TwoTenants.guided].filter (HttpOp.ofTenant TwoTenants.jwt (uuid 1)) =
      [TwoTenants.anonymous, TwoTenants.invalidated, TwoTenants.guided].filter
        (HttpOp.ofTenant TwoTenants.jwt (uuid 1)) by rfl)
    ⟨TwoTenants.guided_admissible _ rfl, trivial⟩
    ⟨TwoTenants.anonymous_admissible _ rfl, TwoTenants.invalidated_admissible,
      TwoTenants.guided_admissible _ rfl, trivial⟩
    (TwoTenants.partitioned _) (TwoTenants.partitioned _) (TwoTenants.agree _ _ _)).1

end BookingPlatform
