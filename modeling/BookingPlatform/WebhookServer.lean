import BookingPlatform.Api
import BookingPlatform.Server
import BookingPlatform.WebhookBodies
import BookingPlatform.WebhookRegistration

/-!
# The webhook routes

`webhooks.routes.ts` beside the sessions and the middleware: an administrator of a
tenant registers its webhook and tests it, and the dispatches of the bookings look it
up.  The lookup and the transaction of a registration are two steps, and the steps of
all requests interleave with logins, refreshes, logouts and outside writes.

## Main definitions

* `HookState`, `HookStep` — the webhook routes beside the sessions.
* `FromAdmin` — a request comes from an administrator of the tenant.
* `RegisteredLast` — the last registration of a tenant in a run.

## Main results

* `registered_of_present` — the webhook of a tenant is the one that was registered
  last.
* `webhooks_from_admins` — whatever is sent to a webhook goes to the URL, and is
  signed with the secret, that an administrator of its tenant was given last.
-/

namespace BookingPlatform

open JsonText Runs Utf16

/-! ### The routes -/

/-- The parsers of the schemas in `webhook.requests.ts`. -/
structure WebhookSchemas where
  registerWebhookBody : Json → Except (List ZodIssue) String
  testWebhookBody : Json → Except (List ZodIssue) (Option (List (String × Value ℚ)))

/-- A request to `webhooksRouter`; the body is `req.body ?? {}`. -/
inductive WebhookHttp
  | test (body : Json)
  | register (body : Json)

/-- What the handler of a route is called with. -/
inductive WebhookRequest
  | test (data : Option (List (String × Value ℚ)))
  | register (url : String)

/-- The middlewares of a route after `authMiddleware`. -/
def WebhookHttp.passed (schemas : WebhookSchemas) (user : AuthenticatedUser)
    (http : WebhookHttp) : Except RequestError WebhookRequest := do
  (requireRole [.admin] user).mapError .failure
  match http with
  | .test body => do
    let data ← validate .body schemas.testWebhookBody body
    return .test data
  | .register body => do
    let url ← validate .body schemas.registerWebhookBody body
    return .register url

/-- Only an administrator gets to a handler. -/
theorem WebhookHttp.admin_of_passed {schemas : WebhookSchemas} {user : AuthenticatedUser}
    {http : WebhookHttp} {req : WebhookRequest} (h : http.passed schemas user = .ok req) :
    user.role = .admin := by
  simp only [passed, Except.bind_eq_ok, mapError_eq_ok, requireRole, throwIf_eq_ok,
    not_not, List.mem_singleton] at h
  obtain ⟨-, hrole, -⟩ := h
  exact hrole

/-! ### The system -/

/-- Where a request stands in its handler. -/
inductive HandlerPhase
  | notStarted
  | waiting (tenantId : Uuid) (call : RegisterCall)
  | finished

/-- The sessions and requests, the webhooks, and how far each handler has come. -/
structure HookState where
  access : AccessState
  webhooks : Table WebhookRow
  handlers : ℕ → HandlerPhase

/-- The database of the registrations. -/
def HookState.store (s : HookState) : WebhookDatabase :=
  { toDatabase := s.access.auth.store, tenantWebhooks := s.webhooks }

/-- A registration has written. -/
def HookState.withStore (s : HookState) (db : WebhookDatabase) : HookState :=
  { s with access := s.access.withStore db.toDatabase, webhooks := db.tenantWebhooks }

/-- A handler enters a phase. -/
def HookState.handler (s : HookState) (n : ℕ) (phase : HandlerPhase) : HookState :=
  { s with handlers := Function.update s.handlers n phase }

/-- Nothing has started, and there are no webhooks. -/
structure HookState.Idle (s : HookState) : Prop where
  access : s.access.Idle
  webhooks : s.webhooks = .empty
  handlers : ∀ n, s.handlers n = .notStarted

/-- A step of the sessions, an outside write, a part of a registration, a test, or a dispatch
that looks. -/
inductive HookEvent
  | access (e : AccessEvent)
  | administered
  | lookedUp (n : ℕ) (tenantId : Uuid) (call : RegisterCall)
  | committed (n : ℕ) (tenantId : Uuid) (call : RegisterCall) (g : RegisterGenerated)
      (out : WebhookRegistrationResult)
  | tested (n : ℕ) (tenantId : Uuid) (sent : FetchRequest)
  | failed (n : ℕ)
  | found (d : Dispatch) (webhook : TenantWebhook)

/-- What the sessions and the middleware see of a step. -/
def HookEvent.toAccess : HookEvent → AccessEvent
  | .access e => e
  | _ => .others

/-- The rows, without the time of their creation. -/
def WebhookColumns (webhooks : Table TenantWebhook) (rows : Table WebhookRow) : Prop :=
  webhooks.rows = rows.rows.map WebhookRow.toTenantWebhook

section System

variable (env : AuthEnv) (crypto : Crypto) (jwt : Jwt) (schemas : WebhookSchemas)
  (hmac : List UInt8 → List UInt8 → List UInt8) (N : Numbers ℚ)

/-- One step of the sessions, of a request to the webhook routes, or of a dispatch. -/
inductive HookStep : HookState → HookEvent → HookState → Prop
  | access {s : HookState} {e : AccessEvent} {t : AccessState} :
      AccessStep env crypto jwt s.access e t → e ≠ .others →
      HookStep s (.access e) { s with access := t }
  -- whoever writes the other tables
  | administer {s : HookState} {db : Database} :
      db.refreshTokens = s.access.auth.store.refreshTokens →
      db.refreshTokenFamilies = s.access.auth.store.refreshTokenFamilies →
      HookStep s .administered { s with access := s.access.withStore db }
  | lookup {s : HookState} {n : ℕ} {user : AuthenticatedUser} {http : WebhookHttp} {url : String}
      {randomBytes : BitVec 256} {call : RegisterCall} :
      s.access.requests n = .admitted user → s.handlers n = .notStarted →
      http.passed schemas user = .ok (.register url) →
      registerLookup user.tenantId ⟨user.id, url, randomBytes⟩ s.store = .ok (some call) →
      HookStep s (.lookedUp n user.tenantId call) (s.handler n (.waiting user.tenantId call))
  | commit {s : HookState} {n : ℕ} {tenantId : Uuid} {call : RegisterCall} {g : RegisterGenerated}
      {out : WebhookRegistrationResult} {db : WebhookDatabase} :
      s.handlers n = .waiting tenantId call →
      (registerTransaction tenantId call g s.access.auth.now).run s.store = .ok (out, db) →
      HookStep s (.committed n tenantId call g out) ((s.withStore db).handler n .finished)
  | rollback {s : HookState} {n : ℕ} {tenantId : Uuid} {call : RegisterCall}
      {g : RegisterGenerated} {e : Failure} :
      s.handlers n = .waiting tenantId call →
      (registerTransaction tenantId call g s.access.auth.now).run s.store = .error e →
      HookStep s (.failed n) (s.handler n .finished)
  | test {s : HookState} {n : ℕ} {user : AuthenticatedUser} {http : WebhookHttp}
      {data : Option (List (String × Value ℚ))} {webhooks : Table TenantWebhook}
      {fetch : FetchRequest → FetchOutcome} {eventId : Uuid} {now : TimeValue}
      {times : DeliveryTimes} {sent : FetchRequest} {result : WebhookTestResult} :
      s.access.requests n = .admitted user → s.handlers n = .notStarted →
      http.passed schemas user = .ok (.test data) → WebhookColumns webhooks s.webhooks →
      sendTestWebhook hmac N fetch webhooks user.tenantId data eventId now times =
        .ok (sent, result) →
      HookStep s (.tested n user.tenantId sent) (s.handler n .finished)
  -- the tenant has no active webhook
  | testFails {s : HookState} {n : ℕ} {user : AuthenticatedUser} {http : WebhookHttp}
      {data : Option (List (String × Value ℚ))} {webhooks : Table TenantWebhook}
      {fetch : FetchRequest → FetchOutcome} {eventId : Uuid} {now : TimeValue}
      {times : DeliveryTimes} {e : Failure} :
      s.access.requests n = .admitted user → s.handlers n = .notStarted →
      http.passed schemas user = .ok (.test data) → WebhookColumns webhooks s.webhooks →
      sendTestWebhook hmac N fetch webhooks user.tenantId data eventId now times = .error e →
      HookStep s (.failed n) (s.handler n .finished)
  -- the role does not allow it, or the body is not valid
  | refuse {s : HookState} {n : ℕ} {user : AuthenticatedUser} {http : WebhookHttp}
      {e : RequestError} :
      s.access.requests n = .admitted user → s.handlers n = .notStarted →
      http.passed schemas user = .error e →
      HookStep s (.failed n) (s.handler n .finished)
  -- the first read of a dispatch
  | find {s : HookState} {d : Dispatch} {webhooks : Table TenantWebhook}
      {webhook : TenantWebhook} :
      WebhookColumns webhooks s.webhooks → d.findWebhook webhooks = some webhook →
      HookStep s (.found d webhook) s

end System

section Runs

variable {env : AuthEnv} {crypto : Crypto} {jwt : Jwt} {schemas : WebhookSchemas}
  {hmac : List UInt8 → List UInt8 → List UInt8} {N : Numbers ℚ} {s t : HookState} {e : HookEvent}
  {tr : List (Transition HookState HookEvent)}

/-! ### The components -/

/-- A registration writes the webhooks and the audit log. -/
theorem sessions_of_register {tenantId : Uuid} {call : RegisterCall} {g : RegisterGenerated}
    {now : Instant} {db db' : WebhookDatabase} {out : WebhookRegistrationResult}
    (h : (registerTransaction tenantId call g now).run db = .ok (out, db')) :
    db'.refreshTokens = db.refreshTokens ∧
      db'.refreshTokenFamilies = db.refreshTokenFamilies := by
  rcases registerTransaction_ok.mp h with ⟨existing, webhook, -, -, -, rfl⟩ | ⟨-, _, -, rfl⟩
  · exact ⟨rfl, rfl⟩
  · exact ⟨rfl, rfl⟩

theorem accessStep_of_hookStep (h : HookStep env crypto jwt schemas hmac N s e t) :
    AccessStep env crypto jwt s.access e.toAccess t.access := by
  cases h with
  | access hstep hne => exact hstep
  | administer htokens hfamilies => exact .others htokens hfamilies
  | commit hwaiting hrun =>
    obtain ⟨htokens, hfamilies⟩ := sessions_of_register hrun
    exact .others htokens hfamilies
  | lookup | rollback | test | testFails | refuse | find =>
    exact @AccessStep.others env crypto jwt s.access s.access.auth.store rfl rfl

/-- The steps of a run, as the sessions and the middleware see them. -/
def hookAccess (tr : List (Transition HookState HookEvent)) :
    List (Transition AccessState AccessEvent) :=
  tr.map (Transition.image HookState.access HookEvent.toAccess)

theorem hookAccess_append (l l' : List (Transition HookState HookEvent)) :
    hookAccess (l ++ l') = hookAccess l ++ hookAccess l' := List.map_append

theorem hookAccess_run (hrun : Run (HookStep env crypto jwt schemas hmac N) s tr t) :
    Run (AccessStep env crypto jwt) s.access (hookAccess tr) t.access :=
  hrun.image (I := fun _ => True) (fun _ _ _ _ _ => trivial)
    (fun _ _ _ hstep _ => accessStep_of_hookStep hstep) trivial

/-! ### The webhook of a tenant -/

/-- What a registration would say of the webhook of a tenant. -/
def HookState.registered (s : HookState) (tenantId : Uuid) : Option WebhookRegistrationResult :=
  (s.webhooks.get? tenantId).map fun webhook => toRegistrationResult webhook false

/-- The registration that a step commits. -/
def HookEvent.registers? : HookEvent → Option (Uuid × WebhookRegistrationResult)
  | .committed _ tenantId _ _ out => some (tenantId, { out with created := false })
  | _ => none

/-- **A step leaves every webhook as it is, but for the one that it registers.** -/
theorem registered_of_step (h : HookStep env crypto jwt schemas hmac N s e t) (tenantId : Uuid) :
    t.registered tenantId =
      (wrote HookEvent.registers? tenantId e).or (s.registered tenantId) := by
  cases h with
  | @commit n tenantId' call g out db hwaiting hrun =>
    -- both ways the row of the tenant is what the registration returns
    have hrow : ∃ row, (∀ k, db.tenantWebhooks.get? k =
          if k = tenantId' then some row else s.webhooks.get? k) ∧
        toRegistrationResult row false = { out with created := false } := by
      rcases registerTransaction_ok.mp hrun with ⟨existing, webhook, -, hget, rfl, rfl⟩ |
        ⟨-, h, rfl, rfl⟩
      · have hkey : Keyed.key (call.update webhook) = tenantId' := (Table.get?_eq_some.mp hget).2
        refine ⟨call.update webhook, fun k => ?_, rfl⟩
        have hput := Table.get?_put (hkey ▸ hget) k
        rwa [hkey] at hput
      · exact ⟨call.webhook tenantId' g s.access.auth.now, fun k => Table.get?_insert h.2 k, rfl⟩
    obtain ⟨row, hget, hout⟩ := hrow
    show (db.tenantWebhooks.get? tenantId).map _ = _
    rw [hget, wrote, HookEvent.registers?, Option.bind_some]
    by_cases htenant : tenantId = tenantId'
    · rw [if_pos htenant, if_pos htenant.symm, Option.map_some, hout]
      rfl
    · rw [if_neg htenant, if_neg (Ne.symm htenant)]
      rfl
  | access | administer | lookup | rollback | test | testFails | refuse | find => rfl

/-- A registration that waits to commit was looked up by an administrator. -/
theorem lookup_of_waiting_hook (hrun : Run (HookStep env crypto jwt schemas hmac N) s tr t)
    {n : ℕ} {tenantId : Uuid} {call : RegisterCall} (hs : s.handlers n ≠ .waiting tenantId call)
    (hn : t.handlers n = .waiting tenantId call) :
    ∃ l x l' user, tr = l ++ x :: l' ∧ x.event = .lookedUp n tenantId call ∧
      x.pre.access.requests n = .admitted user ∧ user.role = .admin ∧ user.tenantId = tenantId ∧
      user.id = call.req.actorUserId ∧
      call.secret = generateWebhookSecret call.req.randomBytes := by
  obtain ⟨l, x, l', rfl, hpre, hpost⟩ :=
    hrun.origin (P := fun s => s.handlers n = .waiting tenantId call) hs hn
  have hstep := hrun.cut.2.1
  refine ⟨l, x, l', ?_⟩
  obtain ⟨pre, event, post⟩ := x
  replace hpre : pre.handlers n ≠ .waiting tenantId call := hpre
  replace hpost : post.handlers n = .waiting tenantId call := hpost
  replace hstep : HookStep env crypto jwt schemas hmac N pre event post := hstep
  cases hstep with
  | access | administer | find => exact absurd hpost hpre
  | @lookup m user http url randomBytes call' hadmitted hfree hpassed hlook =>
    rcases update_eq hpost with ⟨rfl, hphase⟩ | hwas
    · obtain ⟨rfl, rfl⟩ := HandlerPhase.waiting.inj hphase
      have hadmin := WebhookHttp.admin_of_passed hpassed
      cases hlook
      exact ⟨user, rfl, rfl, hadmitted, hadmin, rfl, rfl, rfl⟩
    · exact absurd hwas hpre
  | commit | rollback | test | testFails | refuse =>
    rcases update_eq hpost with ⟨-, hphase⟩ | hwas
    · cases hphase
    · exact absurd hwas hpre

/-- The request `n` carries a token that was issued in the run to an administrator of
the tenant. -/
def FromAdmin (env : AuthEnv) (tr : List (Transition AccessState AccessEvent)) (n : ℕ)
    (tenantId userId : Uuid) : Prop :=
  ∃ token found, IssuedInRun env tr n token found ∧ found.id = userId ∧
    found.tenantId = tenantId ∧ found.role = .admin

/-- In these steps, the last registration of the tenant's webhook that commits is an
administrator's and returns `out`, with the URL of the request and a secret of its own. -/
def RegisteredLast (env : AuthEnv) (tr : List (Transition HookState HookEvent))
    (tenantId : Uuid) (out : WebhookRegistrationResult) : Prop :=
  ∃ l₁ x l₂ y l₃ n call g, tr = l₁ ++ x :: (l₂ ++ y :: l₃) ∧
    x.event = .lookedUp n tenantId call ∧ y.event = .committed n tenantId call g out ∧
    FromAdmin env (hookAccess l₁) n tenantId call.req.actorUserId ∧
    out.url = call.req.url ∧ out.secret = generateWebhookSecret call.req.randomBytes ∧
    ∀ z ∈ l₃, ∀ n' call' g' out', z.event ≠ .committed n' tenantId call' g' out'

/-- What a registration returns. -/
theorem result_of_register {tenantId : Uuid} {call : RegisterCall} {g : RegisterGenerated}
    {now : Instant} {db db' : WebhookDatabase} {out : WebhookRegistrationResult}
    (h : (registerTransaction tenantId call g now).run db = .ok (out, db')) :
    out.url = call.req.url ∧ out.secret = call.secret := by
  rcases registerTransaction_ok.mp h with ⟨existing, webhook, -, -, rfl, -⟩ | ⟨-, _, rfl, -⟩
  · exact ⟨rfl, rfl⟩
  · exact ⟨rfl, rfl⟩

theorem waiting_of_hookCommit {n : ℕ} {tenantId : Uuid} {call : RegisterCall}
    {g : RegisterGenerated} {out : WebhookRegistrationResult}
    (h : HookStep env crypto jwt schemas hmac N s (.committed n tenantId call g out) t) :
    s.handlers n = .waiting tenantId call ∧ out.url = call.req.url ∧ out.secret = call.secret := by
  cases h with
  | commit hwaiting hrun => exact ⟨hwaiting, result_of_register hrun⟩

/-- **The webhook of a tenant is the one that was registered last**, by an
administrator. -/
theorem registered_of_present (hrun : Run (HookStep env crypto jwt schemas hmac N) s tr t)
    (hidle : s.Idle) (hjwt : HonoursIssued env jwt (hookAccess tr))
    (hunforged : Unforged (hookAccess tr)) {tenantId : Uuid} {webhook : WebhookRow}
    (hw : t.webhooks.get? tenantId = some webhook) :
    ∃ out, RegisteredLast env tr tenantId out ∧
      toRegistrationResult webhook false = { out with created := false } := by
  have hcell := hrun.read_eq (I := fun _ => True) (w := HookEvent.registers?) (k := tenantId)
    (c := fun s => s.registered tenantId) (fun _ _ _ _ _ => trivial)
    (fun _ _ _ hstep _ => registered_of_step hstep tenantId) trivial
  have hstart : s.registered tenantId = none := by
    rw [HookState.registered, hidle.webhooks]
    rfl
  have hlast : lastWrite HookEvent.registers? tr tenantId =
      some (toRegistrationResult webhook false) := by
    rw [hstart, Option.or_none] at hcell
    rw [← hcell, HookState.registered, hw, Option.map_some]
  obtain ⟨l, y, l₃, rfl, hy, hafter⟩ := split_of_lastWrite hlast
  -- the last write is a commit
  obtain ⟨pre, event, post⟩ := y
  cases event with
  | committed n tenantId' call g out =>
    obtain ⟨rfl, hout⟩ := Prod.mk.inj (Option.some.inj hy)
    obtain ⟨hbefore, hstep, -⟩ := hrun.cut
    obtain ⟨hwaiting, hurl, hsecret⟩ := waiting_of_hookCommit hstep
    obtain ⟨l₁, x, l₂, user, rfl, hx, hadmitted, hrole, htenant, hactor, hdrawn⟩ :=
      lookup_of_waiting_hook hbefore (by simp [hidle.handlers n]) hwaiting
    rw [List.append_assoc, hookAccess_append] at hjwt hunforged
    obtain ⟨token, found, hissued, hid, htenant', hrole'⟩ := issuedInRun_of_admitted
      (hookAccess_run hbefore.cut.1) hidle.access hjwt.before hunforged.before hadmitted
    refine ⟨out, ⟨l₁, x, l₂, ⟨pre, _, post⟩, l₃, n, call, g, List.append_assoc _ _ _, hx, rfl, ?_,
      hurl, hsecret.trans hdrawn, ?_⟩, hout.symm⟩
    · exact ⟨token, found, hissued, hid.symm.trans hactor, htenant'.symm.trans htenant,
        hrole'.symm.trans hrole⟩
    · intro z hz n' call' g' out' hevent
      exact wrote_eq_none.mp (hafter z hz) _ (by rw [hevent]; rfl)
  | access | administered | lookedUp | tested | failed | found => cases hy

/-- An active webhook of a tenant is the one under its key. -/
theorem get?_of_active {webhooks : Table TenantWebhook} {rows : Table WebhookRow}
    (h : WebhookColumns webhooks rows) {webhook : TenantWebhook} (hmem : webhook ∈ webhooks) :
    ∃ row, rows.get? webhook.tenantId = some row ∧ row.toTenantWebhook = webhook := by
  have hrows : webhook ∈ rows.rows.map WebhookRow.toTenantWebhook := h ▸ hmem
  obtain ⟨row, hrow, rfl⟩ := List.mem_map.mp hrows
  exact ⟨row, Table.get?_key hrow, rfl⟩

/-- **Whatever is sent to a webhook is for the administrators of its tenant.**  What a
dispatch finds, and where a test is sent to, is the URL that the last registration of
the tenant has set, and it is signed with the secret that this registration returned
to an administrator of the tenant. -/
theorem webhooks_from_admins (hrun : Run (HookStep env crypto jwt schemas hmac N) s tr t)
    (hidle : s.Idle) (hjwt : HonoursIssued env jwt (hookAccess tr))
    (hunforged : Unforged (hookAccess tr)) {l l' : List (Transition HookState HookEvent)}
    {z : Transition HookState HookEvent} (htr : tr = l ++ z :: l') :
    (∀ d webhook, z.event = .found d webhook → ∃ out, RegisteredLast env l d.tenantId out ∧
      webhook = ⟨out.id, d.tenantId, out.url, out.secret, true⟩) ∧
    (∀ n tenantId sent, z.event = .tested n tenantId sent →
      ∃ userId, FromAdmin env (hookAccess l) n tenantId userId ∧
      ∃ out, RegisteredLast env l tenantId out ∧ ∃ data now eventId signed,
        sent = deliveryRequest hmac ⟨js out.url, js out.secret⟩
          (stringify N (.test tenantId data now)) eventId signed) := by
  subst htr
  obtain ⟨hbefore, hstep, -⟩ := hrun.cut
  rw [hookAccess_append] at hjwt hunforged
  have hregistered : ∀ {webhook : TenantWebhook} {webhooks : Table TenantWebhook},
      WebhookColumns webhooks z.pre.webhooks → webhook ∈ webhooks → webhook.active = true →
      ∃ out, RegisteredLast env l webhook.tenantId out ∧
        webhook = ⟨out.id, webhook.tenantId, out.url, out.secret, true⟩ := by
    intro webhook webhooks hcolumns hmem hactive
    obtain ⟨row, hrow, rfl⟩ := get?_of_active hcolumns hmem
    obtain ⟨out, hlast, hout⟩ :=
      registered_of_present hbefore hidle hjwt.before hunforged.before hrow
    obtain ⟨hid, hurl, hsecret⟩ : row.id = out.id ∧ row.url = out.url ∧ row.secret = out.secret :=
      ⟨congrArg WebhookRegistrationResult.id hout, congrArg WebhookRegistrationResult.url hout,
        congrArg WebhookRegistrationResult.secret hout⟩
    exact ⟨out, hlast, by rw [← hid, ← hurl, ← hsecret, ← hactive]⟩
  obtain ⟨pre, event, post⟩ := z
  replace hstep : HookStep env crypto jwt schemas hmac N pre event post := hstep
  constructor
  · rintro d webhook rfl
    cases hstep with
    | find hcolumns hfind =>
      obtain ⟨hmem, hwebhook⟩ := Table.mem_of_findFirst hfind
      obtain ⟨htenant, hactive⟩ := of_decide_eq_true hwebhook
      rw [← htenant]
      exact hregistered hcolumns hmem hactive
  · rintro n tenantId sent rfl
    cases hstep with
    | test hadmitted hfree hpassed hcolumns hsent =>
      obtain ⟨webhook, hmem, htenant, hactive, data, hdelivery⟩ := sendTestWebhook_ok hsent
      obtain ⟨out, hlast, hwebhook⟩ := hregistered hcolumns hmem hactive
      obtain ⟨token, found, hissued, -, htenant', hrole⟩ := issuedInRun_of_admitted
        (hookAccess_run hbefore) hidle.access hjwt.before hunforged.before hadmitted
      have hadmin : found.role = .admin :=
        hrole.symm.trans (WebhookHttp.admin_of_passed hpassed)
      have hrequest : sent = deliveryRequest hmac webhook.endpoint
          (stringify N (.test _ data _)) _ _ := congrArg Prod.fst hdelivery
      rw [hwebhook] at hrequest
      exact ⟨found.id, ⟨token, found, hissued, rfl, htenant'.symm, hadmin⟩, out, htenant ▸ hlast,
        data, _, _, _, hrequest⟩

end Runs

/-! ### An administrator who logs in and registers a webhook -/

namespace AdminRegisters

open DoubleRefresh Transaction

/-- The access token of the login. -/
def accessToken : String :=
  "eyJhbGciOiJIUzI1NiIsInR5cCI6IkpXVCJ9." ++
    "eyJzdWIiOiIwMDAwMDAwMC0wMDAwLTAwMDAtMDAwMC0wMDAwMDAwMDAwMDIiLCJ0ZW5hbnRJZCI6IjAwMDAwMDAw" ++
    "LTAwMDAtMDAwMC0wMDAwLTAwMDAwMDAwMDAwMSIsInJvbGUiOiJBRE1JTiIsImVtYWlsIjoiYW5hQGV4YW1wbGUu" ++
    "Y29tIiwiaWF0IjowLCJleHAiOjkwMH0." ++
    "zha4MP5B96oyBdLIBe6hXMVru8Ow6Y9J2NcwRpj0dPE"

/-- The user as an administrator. -/
def admin : User := { user with role := .admin }

/-- `sign` signs for one user at one time. -/
def crypto : Crypto := { DoubleRefresh.crypto with sign := fun _ _ _ => accessToken }

/-- The token is good for a quarter of an hour. -/
def jwt : Jwt where
  verify token now :=
    if token = accessToken ∧ now / 1000 < 900 then some (.claims admin.payload.claims) else none

/-- Reads the URL of a body, and no data. -/
def schemas : WebhookSchemas where
  registerWebhookBody body := match body with
    | .obj [("url", .str url)] => .ok url
    | _ => .error [⟨["url"], "Must be a valid URL"⟩]
  testWebhookBody _ := .ok none

/-- Nobody is logged in. -/
def database : Database := { DoubleRefresh.database with users := ⟨[admin], by decide⟩ }

/-- What the login finds. -/
def loginCall : AuthCall := .login ⟨tenant, admin⟩

/-- The session is open. -/
def opened : Database := (loginCall.transaction env crypto drawn₀ 0).after database

/-- What the login returns. -/
def session : AuthResponse := .session ⟨accessToken, firstToken, 900⟩ (toPublicUser admin)

/-- The administrator as the request sees it. -/
def admitted : AuthenticatedUser := ⟨admin.id, admin.tenantId, admin.email, admin.role⟩

/-- The request to register a URL. -/
def http : WebhookHttp := .register (.obj [("url", .str "https://example.com/hook")])

/-- What the registration finds: no webhook. -/
def call : RegisterCall :=
  ⟨⟨uuid 2, "https://example.com/hook", 1⟩, generateWebhookSecret 1, none⟩

/-- What the registration draws. -/
def drawn : RegisterGenerated := ⟨uuid 60, uuid 61⟩

/-- What the registration returns. -/
def result : WebhookRegistrationResult := toRegistrationResult (call.webhook (uuid 1) drawn 0) true

/-- The webhook that is registered. -/
def webhook : TenantWebhook := (call.webhook (uuid 1) drawn 0).toTenantWebhook

/-- A dispatch of the tenant. -/
def dispatch : Dispatch := ⟨uuid 1, .bookingReserved, uuid 70⟩

/-- Before the login. -/
def h₀ : HookState := ⟨⟨.start database 0, fun _ => .notStarted⟩, .empty, fun _ => .notStarted⟩

/-- The login has looked up. -/
def h₁ : HookState := { h₀ with access := { h₀.access with auth := { h₀.access.auth with
  calls := Function.update h₀.access.auth.calls 0 (.waiting loginRequest loginCall) } } }

/-- The session is open. -/
def h₂ : HookState := { h₁ with access := { h₁.access with auth := { h₁.access.auth with
  store := opened, calls := Function.update h₁.access.auth.calls 0 .finished } } }

/-- The request shows its token. -/
def h₃ : HookState :=
  { h₂ with access := h₂.access.request 0 (.verified accessToken admin.payload) }

/-- The request is let in. -/
def h₄ : HookState := { h₃ with access := h₃.access.request 0 (.admitted admitted) }

/-- The registration has looked up. -/
def h₅ : HookState := h₄.handler 0 (.waiting (uuid 1) call)

/-- The database with the webhook. -/
def registered : WebhookDatabase := (registerTransaction (uuid 1) call drawn 0).after h₅.store

/-- The registration has committed. -/
def h₆ : HookState := (h₅.withStore registered).handler 0 .finished

/-- The schedule up to the registration. -/
def steps : List (Transition HookState HookEvent) :=
  [⟨h₀, .access (.auth (.lookedUp 0 loginRequest loginCall)), h₁⟩,
    ⟨h₁, .access (.auth (.committed 0 loginRequest loginCall drawn₀ session)), h₂⟩,
    ⟨h₂, .access (.verified 0 accessToken), h₃⟩,
    ⟨h₃, .access (.admitted 0 accessToken admitted), h₄⟩,
    ⟨h₄, .lookedUp 0 (uuid 1) call, h₅⟩,
    ⟨h₅, .committed 0 (uuid 1) call drawn result, h₆⟩]

/-- The dispatch finds the webhook. -/
def look : Transition HookState HookEvent := ⟨h₆, .found dispatch webhook, h₆⟩

/-- The second request shows the token. -/
def h₇ : HookState :=
  { h₆ with access := h₆.access.request 1 (.verified accessToken admin.payload) }

/-- The second request is let in. -/
def h₈ : HookState := { h₇ with access := h₇.access.request 1 (.admitted admitted) }

section Test

variable (hmac : List UInt8 → List UInt8 → List UInt8) (N : Numbers ℚ)

/-- The test that the administrator asks for, as it is sent. -/
def tested : FetchRequest × WebhookTestResult :=
  deliverWebhook hmac (stringify N) (fun _ => .response 200) webhook.endpoint
    (WebhookPayload.test (uuid 1)
      [("message", .str "This is a test event from Booking Availability Platform")]
      sampleTimes.started.1)
    (js (uuid 71).toString) sampleTimes

/-- The test is sent. -/
def test : Transition HookState HookEvent :=
  ⟨h₈, .tested 1 (uuid 1) (tested hmac N).1, h₈.handler 1 .finished⟩

/-- The administrator's second request, with the same token. -/
def asking : List (Transition HookState HookEvent) :=
  [⟨h₆, .access (.verified 1 accessToken), h₇⟩,
    ⟨h₇, .access (.admitted 1 accessToken admitted), h₈⟩]

/-- The registration, a dispatch that looks, and a test. -/
def schedule : List (Transition HookState HookEvent) := steps ++ look :: asking ++ [test hmac N]

end Test

theorem bearer_ok : bearerToken (some ("Bearer " ++ accessToken)) = .ok accessToken := by
  refine bearerToken_of_ascii (by decide) ?_
  unfold accessToken
  rw [String.toList_append, String.toList_append, String.toList_append, String.toList_append]
  simp only [List.all_append, Bool.and_eq_true]
  refine ⟨⟨⟨⟨?_, ?_⟩, ?_⟩, ?_⟩, ?_⟩ <;> rfl

theorem loginLookup_ok : loginRequest.lookup crypto database 0 = .ok (some loginCall) := by
  decide +kernel

theorem login_ok : (loginCall.transaction env crypto drawn₀ 0).run database
    = .ok (session, opened) :=
  run_eq_after (by decide +kernel)

theorem register_ok :
    (registerTransaction (uuid 1) call drawn 0).run h₅.store = .ok (result, registered) :=
  run_eq_after rfl

theorem run (hmac : List UInt8 → List UInt8 → List UInt8) (N : Numbers ℚ) :
    Run (HookStep env crypto jwt schemas hmac N) h₀ (schedule hmac N)
      (h₈.handler 1 .finished) := by
  have hlogin : HookStep env crypto jwt schemas hmac N h₀
      (.access (.auth (.lookedUp 0 loginRequest loginCall))) h₁ :=
    .access (.auth (.lookup rfl loginLookup_ok)) (by simp)
  have hfresh : drawn₀.Fresh crypto database := by
    refine ⟨?_, ?_, ?_, ?_⟩ <;> decide
  have hopen : HookStep env crypto jwt schemas hmac N h₁
      (.access (.auth (.committed 0 loginRequest loginCall drawn₀ session))) h₂ :=
    .access (.auth (.commit rfl hfresh login_ok)) (by simp)
  have hverify : verifyAccessToken jwt accessToken 0 = .ok admin.payload :=
    verifyAccessToken_ok.mpr ⟨by simp [jwt], by decide⟩
  have hverified : HookStep env crypto jwt schemas hmac N h₂
      (.access (.verified 0 accessToken)) h₃ :=
    .access (.verify rfl bearer_ok hverify) (by simp)
  have hadmitted : HookStep env crypto jwt schemas hmac N h₃
      (.access (.admitted 0 accessToken admitted)) h₄ :=
    .access (.letIn rfl (by decide)) (by simp)
  have hlookup : HookStep env crypto jwt schemas hmac N h₄ (.lookedUp 0 (uuid 1) call) h₅ :=
    @HookStep.lookup env crypto jwt schemas hmac N h₄ 0 admitted http _ 1 call rfl rfl rfl rfl
  have hcommit : HookStep env crypto jwt schemas hmac N h₅
      (.committed 0 (uuid 1) call drawn result) h₆ := .commit rfl register_ok
  have hfind : HookStep env crypto jwt schemas hmac N h₆ (.found dispatch webhook) h₆ :=
    @HookStep.find env crypto jwt schemas hmac N h₆ dispatch ⟨[webhook], by simp⟩ webhook rfl
      (by simp [Dispatch.findWebhook, Table.findFirst, webhook, dispatch, RegisterCall.webhook])
  have hagain : HookStep env crypto jwt schemas hmac N h₆ (.access (.verified 1 accessToken)) h₇ :=
    .access (.verify rfl bearer_ok hverify) (by simp)
  have hletIn : HookStep env crypto jwt schemas hmac N h₇
      (.access (.admitted 1 accessToken admitted)) h₈ := .access (.letIn rfl (by decide)) (by simp)
  have hsend : sendTestWebhook hmac N (fun _ => .response 200) ⟨[webhook], by simp⟩ (uuid 1) none
      (uuid 71) sampleTimes.started sampleTimes = .ok (tested hmac N) := rfl
  have htest : HookStep env crypto jwt schemas hmac N h₈ (.tested 1 (uuid 1) (tested hmac N).1)
      (h₈.handler 1 .finished) :=
    @HookStep.test env crypto jwt schemas hmac N h₈ 1 admitted (.test (.obj [])) none
      ⟨[webhook], by simp⟩ (fun _ => .response 200) (uuid 71) sampleTimes.started sampleTimes
      (tested hmac N).1 (tested hmac N).2 rfl rfl rfl rfl hsend
  exact ((((((((((Run.nil h₀).snoc hlogin).snoc hopen).snoc hverified).snoc hadmitted).snoc
    hlookup).snoc hcommit).snoc hfind).snoc hagain).snoc hletIn).snoc htest

theorem idle : h₀.Idle :=
  ⟨⟨TwoPhase.State.idle_start _ _, fun _ => rfl⟩, rfl, fun _ => rfl⟩

/-- The login issues the only token. -/
theorem issued {hmac : List UInt8 → List UInt8 → List UInt8} {N : Numbers ℚ}
    {y : Transition AccessState AccessEvent} (hy : y ∈ hookAccess (schedule hmac N))
    {token : String} {found : User} (h : y.event.issued? = some (token, found)) :
    token = accessToken ∧ found = admin ∧ y.pre.auth.now = 0 := by
  simp only [hookAccess, schedule, steps, asking, List.cons_append, List.nil_append,
    List.map_cons, List.map_nil, List.mem_cons, List.not_mem_nil, or_false] at hy
  rcases hy with rfl | rfl | rfl | rfl | rfl | rfl | rfl | rfl | rfl | rfl <;> cases h
  exact ⟨rfl, rfl, rfl⟩

theorem honours {hmac : List UInt8 → List UInt8 → List UInt8} {N : Numbers ℚ} :
    HonoursIssued env jwt (hookAccess (schedule hmac N)) := by
  intro y hy token found h
  obtain ⟨rfl, rfl, hnow⟩ := issued hy h
  intro now
  rw [hnow]
  simp [jwt, env]

/-- The one token that is verified is the login's. -/
theorem unforged {hmac : List UInt8 → List UInt8 → List UInt8} {N : Numbers ℚ} :
    Unforged (hookAccess (schedule hmac N)) := by
  refine unforged_of_login rfl rfl rfl (show _ = some (accessToken, admin) from rfl) ?_
  intro x hx n token hverified
  simp only [hookAccess, schedule, steps, asking, List.cons_append, List.nil_append,
    List.map_cons, List.map_nil, List.mem_cons, List.not_mem_nil, or_false] at hx
  rcases hx with rfl | rfl | rfl | rfl | rfl | rfl | rfl | rfl | rfl | rfl <;> cases hverified
  · rfl
  · rfl

end AdminRegisters

open AdminRegisters in
/-- The webhook that the administrator has registered is the one a dispatch finds, and the
one that the administrator's test is sent to. -/
theorem webhooks_from_admins_registered :
    (∃ out, RegisteredLast DoubleRefresh.env steps (uuid 1) out ∧ webhook.url = out.url) ∧
    ∃ userId, FromAdmin DoubleRefresh.env (hookAccess (steps ++ look :: asking)) 1 (uuid 1) userId ∧
      ∃ out, RegisteredLast DoubleRefresh.env (steps ++ look :: asking) (uuid 1) out ∧
        (tested SignedBody.bodyHmac sampleNumbers).1.url = js out.url := by
  have hschedule := run SignedBody.bodyHmac sampleNumbers
  obtain ⟨hfound, -⟩ := webhooks_from_admins hschedule idle honours unforged
    (List.append_assoc steps (look :: asking) [test SignedBody.bodyHmac sampleNumbers])
  have hsplit : schedule SignedBody.bodyHmac sampleNumbers =
      (steps ++ look :: asking) ++ test SignedBody.bodyHmac sampleNumbers :: [] := rfl
  obtain ⟨-, htested⟩ := webhooks_from_admins hschedule idle honours unforged hsplit
  obtain ⟨out, hlast, hwebhook⟩ := hfound dispatch webhook rfl
  obtain ⟨userId, hadmin, out', hlast', data, now, eventId, signed, hsent⟩ := htested _ _ _ rfl
  exact ⟨⟨out, hlast, congrArg TenantWebhook.url hwebhook⟩, userId, hadmin, out', hlast',
    congrArg FetchRequest.url hsent⟩

end BookingPlatform
