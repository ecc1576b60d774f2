import BookingPlatform.Webhooks
import BookingPlatform.Lib.TwoPhase

/-!
# Webhook registration

`registerWebhook` of `webhook.service.ts`.  A call looks up the webhook of its
tenant, and at any later time creates one, or updates the one there is, in an
audited transaction.

## Main definitions

* `registerLookup`, `registerTransaction` — the two halves of a registration.
* `AtomicUpsert` — every registration succeeds, one of them creates, and the last is
  stored.
* `CreatesAlone` — a call that found no webhook has no commit before its own.

## Main results

* `commit_spec` — a registration that commits has created the webhook when there was
  none, and has updated it otherwise.
* `present_iff` — there is a webhook from the first commit on.
* `registration_atomic_iff` — the registrations of a tenant are atomic exactly when
  no call that found no webhook has another commit between its lookup and its
  transaction.
-/

namespace BookingPlatform

open Runs

/-! ### The table -/

/-- A row of `tenant_webhooks`, with the time it was created. -/
structure WebhookRow extends TenantWebhook where
  createdAt : Instant
  deriving DecidableEq

/-- A tenant has one webhook: `@@unique([tenantId])`. -/
instance : Keyed WebhookRow Uuid := ⟨fun webhook => webhook.tenantId⟩

/-- The tables with the webhooks. -/
structure WebhookDatabase extends Database where
  tenantWebhooks : Table WebhookRow := .empty

/-- A transaction on them. -/
abbrev WebhookTx := Transaction WebhookDatabase Failure

/-- `tx.tenantWebhook.create`: the identifier and the tenant are unique. -/
def insertWebhook (webhook : WebhookRow) : WebhookTx WebhookRow := do
  let db ← get
  if h : (∀ w ∈ db.tenantWebhooks.rows, w.id ≠ webhook.id) ∧
      db.tenantWebhooks.get? (Keyed.key webhook) = none then do
    set { db with tenantWebhooks := db.tenantWebhooks.insert webhook h.2 }
    return webhook
  else throw (.db .uniqueConstraint)

/-- `tx.tenantWebhook.update`: by tenant, an error when there is no such row. -/
def updateWebhook (tenantId : Uuid) (data : WebhookRow → WebhookRow) : WebhookTx WebhookRow := do
  let db ← get
  let webhook ← required (db.tenantWebhooks.get? tenantId)
  set { db with tenantWebhooks := db.tenantWebhooks.put (data webhook) }
  return data webhook

/-- `withAuditedTransaction`, over the webhooks as well. -/
def withAuditedWebhooks {α : Type} (fn : WebhookTx α) (audit : α → AuditContext)
    (auditLogId : Uuid) (now : Instant) : WebhookTx α := do
  let result ← fn
  modify fun db =>
    { db with auditLogs := db.auditLogs ++ [(audit result).row auditLogId now] }
  return result

/-! ### registerWebhook -/

/-- `whsec_${randomBytes(32).toString("hex")}`. -/
def generateWebhookSecret (randomBytes : BitVec 256) : String :=
  "whsec_" ++ String.ofList
    ((List.range 64).map fun k => hexDigit (randomBytes.toNat / 16 ^ (63 - k) % 16))

/-- What a registration returns. -/
structure WebhookRegistrationResult where
  id : Uuid
  url : String
  secret : String
  active : Bool
  createdAt : Instant
  created : Bool
  deriving DecidableEq

/-- The columns of a webhook, and whether it is new. -/
def toRegistrationResult (webhook : WebhookRow) (created : Bool) : WebhookRegistrationResult where
  id := webhook.id
  url := webhook.url
  secret := webhook.secret
  active := webhook.active
  createdAt := webhook.createdAt
  created := created

/-- The actor and the body of a request, and the bytes it draws. -/
structure RegisterRequest where
  actorUserId : Uuid
  url : String
  randomBytes : BitVec 256
  deriving DecidableEq

/-- The local variables of `registerWebhook` after its lookup. -/
structure RegisterCall where
  req : RegisterRequest
  secret : String
  existing : Option WebhookRow
  deriving DecidableEq

/-- What a registration draws in its transaction. -/
structure RegisterGenerated where
  webhookId : Uuid
  auditLogId : Uuid
  deriving DecidableEq

/-- `registerWebhook` up to its transaction. -/
def registerLookup (tenantId : Uuid) (req : RegisterRequest) (db : WebhookDatabase) :
    Except Failure (Option RegisterCall) :=
  let secret := generateWebhookSecret req.randomBytes
  let existing := db.tenantWebhooks.get? tenantId
  .ok (some ⟨req, secret, existing⟩)

/-- The audit row of a registration. -/
def RegisterCall.audit (tenantId : Uuid) (call : RegisterCall) (eventType : AuditEventType)
    (entityId : Uuid) : AuditContext where
  eventType := eventType
  tenantId := some tenantId
  actorUserId := some call.req.actorUserId
  entityType := .tenantWebhook
  entityId := some entityId
  metadata := some (.obj [("url", .str call.req.url)])

/-- The columns that an update sets. -/
def RegisterCall.update (call : RegisterCall) (webhook : WebhookRow) : WebhookRow :=
  { webhook with url := call.req.url, secret := call.secret, active := true }

/-- The row that a creation inserts. -/
def RegisterCall.webhook (tenantId : Uuid) (call : RegisterCall) (g : RegisterGenerated)
    (now : Instant) : WebhookRow where
  id := g.webhookId
  tenantId := tenantId
  url := call.req.url
  secret := call.secret
  active := true
  createdAt := now

/-- The rest of `registerWebhook`. -/
def registerTransaction (tenantId : Uuid) (call : RegisterCall) (g : RegisterGenerated)
    (now : Instant) : WebhookTx WebhookRegistrationResult :=
  match call.existing with
  | some existing => do
    let updated ← withAuditedWebhooks (updateWebhook tenantId call.update)
      (fun _ => call.audit tenantId .webhookUpdated existing.id) g.auditLogId now
    return toRegistrationResult updated false
  | none => do
    let created ← withAuditedWebhooks (insertWebhook (call.webhook tenantId g now))
      (fun webhook => call.audit tenantId .webhookCreated webhook.id) g.auditLogId now
    return toRegistrationResult created true

/-! ### What a transaction does -/

theorem withAuditedWebhooks_ok {α : Type} {fn : WebhookTx α} {audit : α → AuditContext}
    {auditLogId : Uuid} {now : Instant} {db db' : WebhookDatabase} {a : α} :
    (withAuditedWebhooks fn audit auditLogId now).run db = .ok (a, db') ↔
      ∃ mid, fn.run db = .ok (a, mid) ∧
        db' = { mid with auditLogs := mid.auditLogs ++ [(audit a).row auditLogId now] } := by
  simp only [withAuditedWebhooks, Transaction.bind_ok, Transaction.pure_ok, Transaction.modify_ok]
  constructor
  · intro ⟨b, mid, hfn, _, _, hmid, hb, hdb⟩
    subst hmid hb hdb
    exact ⟨mid, hfn, rfl⟩
  · intro ⟨mid, hfn, hdb⟩
    exact ⟨a, mid, hfn, (), _, rfl, rfl, hdb.symm⟩

theorem insertWebhook_ok {webhook w : WebhookRow} {db db' : WebhookDatabase} :
    (insertWebhook webhook).run db = .ok (w, db') ↔
      ∃ h : (∀ w ∈ db.tenantWebhooks.rows, w.id ≠ webhook.id) ∧
        db.tenantWebhooks.get? (Keyed.key webhook) = none,
        w = webhook ∧
          db' = { db with tenantWebhooks := db.tenantWebhooks.insert webhook h.2 } :=
  Transaction.setIf_ok

theorem updateWebhook_ok {tenantId : Uuid} {data : WebhookRow → WebhookRow} {w : WebhookRow}
    {db db' : WebhookDatabase} :
    (updateWebhook tenantId data).run db = .ok (w, db') ↔
      ∃ webhook, db.tenantWebhooks.get? tenantId = some webhook ∧ w = data webhook ∧
        db' = { db with tenantWebhooks := db.tenantWebhooks.put (data webhook) } := by
  simp only [updateWebhook, Transaction.bind_ok, Transaction.get_ok, Transaction.lift_ok,
    Transaction.set_ok, Transaction.pure_ok, required_eq_ok]
  constructor
  · intro hleft
    obtain ⟨_, _, ⟨h₁, h₁'⟩, webhook, _, ⟨hget, h₂⟩, _, _, hset, hw, hdb⟩ := hleft
    subst h₁ h₁' h₂ hset
    exact ⟨webhook, hget, hw.symm, hdb.symm⟩
  · intro hright
    obtain ⟨webhook, hget, hw, hdb⟩ := hright
    exact ⟨_, _, ⟨rfl, rfl⟩, webhook, _, ⟨hget, rfl⟩, (), _, rfl, hw.symm, hdb.symm⟩

/-- **What a registration does**: it updates the webhook, or creates one when there is
none. -/
theorem registerTransaction_ok {tenantId : Uuid} {call : RegisterCall} {g : RegisterGenerated}
    {now : Instant} {db db' : WebhookDatabase} {out : WebhookRegistrationResult} :
    (registerTransaction tenantId call g now).run db = .ok (out, db') ↔
      (∃ existing webhook, call.existing = some existing ∧
        db.tenantWebhooks.get? tenantId = some webhook ∧
        out = toRegistrationResult (call.update webhook) false ∧
        db' = { db with
          tenantWebhooks := db.tenantWebhooks.put (call.update webhook)
          auditLogs := db.auditLogs ++
            [(call.audit tenantId .webhookUpdated existing.id).row g.auditLogId now] }) ∨
      (call.existing = none ∧ ∃ h : (∀ w ∈ db.tenantWebhooks.rows, w.id ≠ g.webhookId) ∧
        db.tenantWebhooks.get? tenantId = none,
        out = toRegistrationResult (call.webhook tenantId g now) true ∧
        db' = { db with
          tenantWebhooks := db.tenantWebhooks.insert (call.webhook tenantId g now) h.2
          auditLogs := db.auditLogs ++
            [(call.audit tenantId .webhookCreated g.webhookId).row g.auditLogId now] }) := by
  unfold registerTransaction
  cases hexisting : call.existing with
  | none =>
    simp only [Transaction.bind_ok, withAuditedWebhooks_ok, insertWebhook_ok, Transaction.pure_ok]
    constructor
    · intro hleft
      obtain ⟨_, _, ⟨_, ⟨h, hw, hmid⟩, hdb⟩, hout, hdb'⟩ := hleft
      subst hw hmid hdb hout hdb'
      exact Or.inr ⟨trivial, h, rfl, rfl⟩
    · intro hright
      obtain ⟨-, h, hout, hdb⟩ := hright.resolve_left (by simp)
      exact ⟨_, _, ⟨_, ⟨h, rfl, rfl⟩, rfl⟩, hout.symm, hdb.symm⟩
  | some existing =>
    simp only [Transaction.bind_ok, withAuditedWebhooks_ok, updateWebhook_ok, Transaction.pure_ok]
    constructor
    · intro hright
      obtain ⟨_, _, ⟨_, ⟨webhook, hget, hw, hmid⟩, hdb⟩, hout, hdb'⟩ := hright
      subst hw hmid hdb hout hdb'
      exact Or.inl ⟨existing, webhook, rfl, hget, rfl, rfl⟩
    · intro hleft
      obtain ⟨_, webhook, hsome, hget, hout, hdb⟩ := hleft.resolve_right (by simp)
      cases hsome
      exact ⟨_, _, ⟨_, ⟨webhook, hget, rfl, rfl⟩, rfl⟩, hout.symm, hdb.symm⟩

/-! ### The system -/

/-- The registrations of a tenant, as calls that look up and commit later. -/
def registerService (tenantId : Uuid) : TwoPhase.Service WebhookDatabase RegisterRequest
    RegisterCall RegisterGenerated Failure WebhookRegistrationResult where
  lookup req db _ := registerLookup tenantId req db
  transaction := registerTransaction tenantId
  fresh g db := ∀ w ∈ db.tenantWebhooks.rows, w.id ≠ g.webhookId

/-- The calls on one database. -/
abbrev RegisterState := TwoPhase.State WebhookDatabase RegisterRequest RegisterCall

/-- What a step does. -/
abbrev RegisterEvent := TwoPhase.Event RegisterRequest RegisterCall RegisterGenerated Failure
  WebhookRegistrationResult

/-- The webhook of the tenant. -/
def webhookOf (tenantId : Uuid) (s : RegisterState) : Option WebhookRow :=
  s.store.tenantWebhooks.get? tenantId

section Steps

variable {tenantId : Uuid} {s t : RegisterState} {e : RegisterEvent}

/-- A lookup finds the webhook that there is. -/
theorem existing_of_lookedUp {c : ℕ} {req : RegisterRequest} {call : RegisterCall}
    (h : TwoPhase.Step (registerService tenantId) s (.lookedUp c req call) t) :
    call.existing = webhookOf tenantId s := by
  cases h with
  | lookup hfree hlookup =>
    cases hlookup
    rfl

/-- **What a commit does**: it has created the webhook when there was none, it audits
which of the two it did, and it returns what is stored. -/
theorem commit_spec {c : ℕ} {req : RegisterRequest} {call : RegisterCall} {g : RegisterGenerated}
    {out : WebhookRegistrationResult}
    (h : TwoPhase.Step (registerService tenantId) s (.committed c req call g out) t) :
    (out.created = true ↔ webhookOf tenantId s = none) ∧
    (out.created = true ↔ call.existing = none) ∧
    (∃ webhook, webhookOf tenantId t = some webhook ∧ webhook.url = out.url ∧
      webhook.secret = out.secret) ∧
    ∃ entityId, t.store.auditLogs = s.store.auditLogs ++
      [(call.audit tenantId (if out.created then .webhookCreated else .webhookUpdated)
        entityId).row g.auditLogId s.now] := by
  cases h with
  | commit hwaiting hfresh hrun =>
    rcases registerTransaction_ok.mp hrun with ⟨existing, webhook, hexisting, hget, rfl, rfl⟩ |
      ⟨hexisting, h, rfl, rfl⟩
    · have hkey : Keyed.key (call.update webhook) = tenantId := (Table.get?_eq_some.mp hget).2
      refine ⟨by simp [webhookOf, hget, toRegistrationResult],
        by simp [hexisting, toRegistrationResult], ⟨call.update webhook, ?_, rfl, rfl⟩, _, rfl⟩
      have hput := Table.get?_put (hkey ▸ hget) (Keyed.key (call.update webhook))
      rw [if_pos rfl, hkey] at hput
      exact hput
    · refine ⟨by simp [webhookOf, h.2, toRegistrationResult],
        by simp [hexisting, toRegistrationResult],
        ⟨call.webhook tenantId g s.now, ?_, rfl, rfl⟩, _, rfl⟩
      have hinsert := Table.get?_insert (r := call.webhook tenantId g s.now) h.2 tenantId
      exact hinsert.trans (if_pos rfl)

/-- A registration fails exactly when it found no webhook and there is one. -/
theorem rollback_spec {c : ℕ} {req : RegisterRequest} {call : RegisterCall}
    {g : RegisterGenerated} {err : Failure}
    (h : TwoPhase.Step (registerService tenantId) s (.rolledBack c req call g err) t) :
    call.existing = none ↔ webhookOf tenantId s ≠ none := by
  cases h with
  | rollback hwaiting hfresh hrun =>
    have hnot : ∀ out db', ¬ (registerTransaction tenantId call g s.now).run s.store
        = .ok (out, db') := by
      intro out db' hok
      have hfailed : (registerTransaction tenantId call g s.now).run s.store = .error err := hrun
      rw [hfailed] at hok
      cases hok
    constructor
    · intro hexisting hnone
      exact hnot _ _ (registerTransaction_ok.mpr (Or.inr ⟨hexisting, ⟨hfresh, hnone⟩, rfl, rfl⟩))
    · intro hsome
      by_contra hne
      obtain ⟨existing, hexisting⟩ := Option.ne_none_iff_exists'.mp hne
      obtain ⟨webhook, hget⟩ := Option.ne_none_iff_exists'.mp hsome
      exact hnot _ _ (registerTransaction_ok.mpr
        (Or.inl ⟨existing, webhook, hexisting, hget, rfl, rfl⟩))

/-- Every call has a transaction. -/
theorem not_answered {c : ℕ} {req : RegisterRequest} :
    ¬ TwoPhase.Step (registerService tenantId) s (.answered c req) t := by
  intro h
  cases h with
  | answer hfree hlookup => exact hlookup _ rfl

/-- The store stays what it is but for a commit. -/
theorem store_of_step (h : TwoPhase.Step (registerService tenantId) s e t)
    (he : ∀ c req call g out, e ≠ .committed c req call g out) : t.store = s.store := by
  cases h with
  | commit => exact absurd rfl (he _ _ _ _ _)
  | _ => rfl

end Steps

/-! ### Runs -/

/-- What a step returns to its caller, when it ends a registration. -/
def registration? : RegisterEvent → Option WebhookRegistrationResult
  | .committed _ _ _ _ out => some out
  | _ => none

/-- What the calls return, in the order of their commits. -/
def registrations (tr : List (Transition RegisterState RegisterEvent)) :
    List WebhookRegistrationResult :=
  tr.filterMap fun x => registration? x.event

/-- Some call commits at this time. -/
def CommitsAt (tr : List (Transition RegisterState RegisterEvent)) (m : ℕ) : Prop :=
  ∃ c req call g out, HappensAt tr m (.committed c req call g out)

/-- The registrations are an atomic upsert: every call succeeds, one creates the webhook
and the others update it, and what is stored is what the last one returned. -/
structure AtomicUpsert (tenantId : Uuid) (tr : List (Transition RegisterState RegisterEvent))
    (t : RegisterState) : Prop where
  succeeds : ∀ x ∈ tr, (∀ c req call g err, x.event ≠ .rolledBack c req call g err) ∧
    ∀ c req, x.event ≠ .answered c req
  created : registrations tr ≠ [] →
    (registrations tr).countP WebhookRegistrationResult.created = 1
  audited : ∀ x ∈ tr, ∀ c req call g out, x.event = .committed c req call g out →
    ∃ entityId, x.post.store.auditLogs = x.pre.store.auditLogs ++
      [(call.audit tenantId (if out.created then .webhookCreated else .webhookUpdated)
        entityId).row g.auditLogId x.pre.now]
  stored : ∀ out ∈ (registrations tr).getLast?, ∃ webhook, webhookOf tenantId t = some webhook ∧
    webhook.url = out.url ∧ webhook.secret = out.secret

/-- A call that found no webhook has no commit between its lookup and its transaction. -/
def CreatesAlone (tr : List (Transition RegisterState RegisterEvent)) : Prop :=
  ∀ i m j c req call x, HappensAt tr i (.lookedUp c req call) → call.existing = none →
    tr[j]? = some x → x.event.ran? = some (c, req, call) → i < m → m < j → ¬ CommitsAt tr m

section Runs

variable {tenantId : Uuid} {s t : RegisterState}
  {tr : List (Transition RegisterState RegisterEvent)}

/-- **The first registration to commit creates the webhook and the others update it**,
and the last one is stored. -/
theorem registrations_run (hs : webhookOf tenantId s = none)
    (hrun : Run (TwoPhase.Step (registerService tenantId)) s tr t) :
    (webhookOf tenantId t = none ↔ registrations tr = []) ∧
    ((registrations tr).countP WebhookRegistrationResult.created =
      if registrations tr = [] then 0 else 1) ∧
    ∀ out ∈ (registrations tr).getLast?, ∃ webhook, webhookOf tenantId t = some webhook ∧
      webhook.url = out.url ∧ webhook.secret = out.secret := by
  induction hrun with
  | nil => exact ⟨by simp [registrations, hs], rfl, by simp [registrations]⟩
  | @snoc t u tr e hrun hstep ih =>
    obtain ⟨hpresent, hcount, hstored⟩ := ih
    by_cases hcommit : ∃ c req call g out, e = .committed c req call g out
    · obtain ⟨c, req, call, g, out, rfl⟩ := hcommit
      obtain ⟨hcreated, -, ⟨webhook, hget, hurl, hsecret⟩, -⟩ := commit_spec hstep
      have happend : registrations (tr ++ [⟨t, .committed c req call g out, u⟩])
          = registrations tr ++ [out] := by
        simp [registrations, registration?]
      rw [happend, List.countP_append, hcount]
      refine ⟨by simp [hget], ?_, ?_⟩
      · -- it has created the webhook when it is the first
        by_cases hfirst : registrations tr = []
        · have htrue := hcreated.mpr (hpresent.mpr hfirst)
          simp [hfirst, htrue]
        · have hfalse := mt hcreated.mp (mt hpresent.mp hfirst)
          simp [hfirst, hfalse]
      · simp only [List.getLast?_append, List.getLast?_singleton, Option.some_or, Option.mem_def,
          Option.some.injEq]
        intro out' heq
        subst heq
        exact ⟨webhook, hget, hurl, hsecret⟩
    · have hstore : webhookOf tenantId u = webhookOf tenantId t := by
        unfold webhookOf
        rw [store_of_step hstep fun c req call g out he => hcommit ⟨c, req, call, g, out, he⟩]
      have hsame : registrations (tr ++ [⟨t, e, u⟩]) = registrations tr := by
        cases e with
        | committed c req call g out => exact absurd ⟨c, req, call, g, out, rfl⟩ hcommit
        | _ => simp [registrations, registration?]
      rw [hsame, hstore]
      exact ⟨hpresent, hcount, hstored⟩

/-- **There is a webhook from the first commit on.** -/
theorem present_iff (hs : webhookOf tenantId s = none)
    (hrun : Run (TwoPhase.Step (registerService tenantId)) s tr t) {j : ℕ}
    {y : Transition RegisterState RegisterEvent} (hy : tr[j]? = some y) :
    webhookOf tenantId y.pre ≠ none ↔ ∃ m < j, CommitsAt tr m := by
  obtain ⟨hbefore, -⟩ := hrun.cut_at hy
  rw [ne_eq, (registrations_run hs hbefore).1, registrations, List.filterMap_eq_nil_iff]
  simp only [not_forall]
  constructor
  · intro ⟨x, hx, hout⟩
    obtain ⟨m, hm⟩ := List.mem_iff_getElem?.mp hx
    rw [List.getElem?_take] at hm
    split at hm
    · next hmj =>
      refine ⟨m, hmj, ?_⟩
      cases he : x.event with
      | committed c req call g out => exact ⟨c, req, call, g, out, x, hm, he⟩
      | _ => simp [he, registration?] at hout
    · cases hm
  · intro ⟨m, hm, c, req, call, g, out, x, hx, he⟩
    refine ⟨x, List.mem_iff_getElem?.mpr ⟨m, ?_⟩, by simp [he, registration?]⟩
    rw [List.getElem?_take, if_pos hm, hx]

/-- A transaction is run by a call that has looked up before. -/
theorem lookup_before (hs : s.Idle) (hrun : Run (TwoPhase.Step (registerService tenantId)) s tr t)
    {j : ℕ} {y : Transition RegisterState RegisterEvent} (hy : tr[j]? = some y) {c : ℕ}
    {req : RegisterRequest} {call : RegisterCall} (hran : y.event.ran? = some (c, req, call)) :
    ∃ i x, i < j ∧ tr[i]? = some x ∧ x.event = .lookedUp c req call ∧
      call.existing = webhookOf tenantId x.pre := by
  have hwaiting := TwoPhase.waiting_of_ran (hrun.step_at hy) hran
  rcases hrun.since (P := fun s => s.calls c = .waiting req call) hy hwaiting with
    hall | ⟨i, x, hi, hx, hpre, hpost, -⟩
  · obtain ⟨x, hx⟩ := Run.exists_at hy (Nat.zero_le j)
    have hstart := hall 0 x (Nat.zero_le j) hx
    rw [hrun.pre_zero hx, hs c] at hstart
    cases hstart
  · have hstep := hrun.step_at hx
    rcases TwoPhase.waiting_of_step hstep hpost with hwas | ⟨he, -⟩
    · exact absurd hwas hpre
    · rw [he] at hstep
      exact ⟨i, x, hi, hx, he, existing_of_lookedUp hstep⟩

/-- Every call succeeds exactly when no commit comes between the lookup and the
transaction of a call that found no webhook. -/
theorem succeeds_iff (hidle : s.Idle) (hs : webhookOf tenantId s = none)
    (hrun : Run (TwoPhase.Step (registerService tenantId)) s tr t) :
    (∀ x ∈ tr, (∀ c req call g err, x.event ≠ .rolledBack c req call g err) ∧
      ∀ c req, x.event ≠ .answered c req) ↔ CreatesAlone tr := by
  constructor
  · -- after a commit there is a webhook, so the creation of another would have failed
    intro hsucceeds i m j c req call y _ hexisting hy hran _ hmj hcommit
    have hpresent := (present_iff hs hrun hy).mpr ⟨m, hmj, hcommit⟩
    have hstep := hrun.step_at hy
    cases he : y.event with
    | committed c' req' call' g out =>
      rw [he] at hstep hran
      cases hran
      have hspec := commit_spec hstep
      exact hpresent (hspec.1.mp (hspec.2.1.mpr hexisting))
    | rolledBack c' req' call' g err =>
      exact (hsucceeds y (List.mem_of_getElem? hy)).1 _ _ _ _ _ he
    | _ => rw [he] at hran; cases hran
  · intro halone y hy
    obtain ⟨j, hj⟩ := List.mem_iff_getElem?.mp hy
    have hstep := hrun.step_at hj
    refine ⟨fun c req call g err he => ?_, fun c req he => not_answered (he ▸ hstep)⟩
    have hfails := rollback_spec (he ▸ hstep)
    obtain ⟨i, x, hij, hx, hlookup, hfound⟩ :
        ∃ i x, i < j ∧ tr[i]? = some x ∧ x.event = .lookedUp c req call ∧
          call.existing = webhookOf tenantId x.pre :=
      lookup_before hidle hrun hj (by rw [he]; rfl)
    -- what there was at the lookup is still there
    have hkept : webhookOf tenantId x.pre ≠ none → webhookOf tenantId y.pre ≠ none := by
      intro hthere
      obtain ⟨m, hm, hcommit⟩ := (present_iff hs hrun hx).mp hthere
      exact (present_iff hs hrun hj).mpr ⟨m, by omega, hcommit⟩
    by_cases hnone : call.existing = none
    · -- the webhook came between the two
      obtain ⟨m, hmj, hcommit⟩ := (present_iff hs hrun hj).mp (hfails.mp hnone)
      rcases Nat.lt_trichotomy m i with hmi | rfl | him
      · exact (present_iff hs hrun hx).mpr ⟨m, hmi, hcommit⟩ (hfound ▸ hnone)
      · obtain ⟨c', req', call', g', out, hcommit⟩ := hcommit
        cases hcommit.inj ⟨x, hx, hlookup⟩
      · exact halone i m j c req call y ⟨x, hx, hlookup⟩ hnone hj (by rw [he]; rfl) him hmj hcommit
    · exact hnone (hfails.mpr (hkept (hfound ▸ hnone)))

end Runs

/-- **When the registrations of a tenant are an atomic upsert.** -/
theorem registration_atomic_iff {tenantId : Uuid} {s t : RegisterState}
    {tr : List (Transition RegisterState RegisterEvent)} (hidle : s.Idle)
    (hs : webhookOf tenantId s = none)
    (hrun : Run (TwoPhase.Step (registerService tenantId)) s tr t) :
    AtomicUpsert tenantId tr t ↔ CreatesAlone tr := by
  constructor
  · intro h
    exact (succeeds_iff hidle hs hrun).mp h.succeeds
  · intro halone
    obtain ⟨-, hcount, hstored⟩ := registrations_run hs hrun
    refine ⟨(succeeds_iff hidle hs hrun).mpr halone, fun hne => ?_,
      fun x hx c req call g out he => ?_, hstored⟩
    · rw [hcount, if_neg hne]
    · have hstep := hrun.step_of_mem hx
      rw [he] at hstep
      exact (commit_spec hstep).2.2.2

/-! ### Two registrations at once -/

namespace TwoRegistrations

open LateConfirm

/-- A request with what it draws for the secret. -/
def req (n : ℕ) : RegisterRequest := ⟨uuid 2, "https://example.com/hook", BitVec.ofNat 256 n⟩

/-- A call that has found no webhook. -/
def call (n : ℕ) : RegisterCall := ⟨req n, generateWebhookSecret (BitVec.ofNat 256 n), none⟩

/-- What its transaction draws. -/
def drawn (n : ℕ) : RegisterGenerated := ⟨uuid (10 + n), uuid (20 + n)⟩

/-- What the first call returns. -/
def result : WebhookRegistrationResult :=
  toRegistrationResult ((call 0).webhook (uuid 1) (drawn 0) 0) true

/-- No webhook is registered. -/
def start : RegisterState := .start {} 0

/-- Call `n` has looked up. -/
def lookedUp (n : ℕ) (s : RegisterState) : RegisterState :=
  { s with calls := Function.update s.calls n (.waiting (req n) (call n)) }

/-- Call `n` has committed or failed. -/
def ended (n : ℕ) (store : WebhookDatabase) (s : RegisterState) : RegisterState :=
  { s with store := store, calls := Function.update s.calls n .finished }

/-- The first call has created the webhook. -/
def registered : WebhookDatabase := (registerTransaction (uuid 1) (call 0) (drawn 0) 0).after {}

theorem commit_ok : (registerTransaction (uuid 1) (call 0) (drawn 0) 0).run {}
    = .ok (result, registered) := Transaction.run_eq_after rfl

theorem webhookId_unused : ∀ w ∈ registered.tenantWebhooks.rows, w.id ≠ (drawn 1).webhookId := by
  decide +kernel

theorem create_fails : (registerTransaction (uuid 1) (call 1) (drawn 1) 0).run registered
    = .error (.db .uniqueConstraint) := Transaction.run_eq_error rfl

/-- A call that has found the webhook of the first. -/
def later : RegisterCall := { call 1 with existing := some ((call 0).webhook (uuid 1) (drawn 0) 0) }

/-- What the later call returns. -/
def updated : WebhookRegistrationResult :=
  toRegistrationResult (later.update ((call 0).webhook (uuid 1) (drawn 0) 0)) false

/-- The later call has updated it. -/
def afterUpdate : WebhookDatabase :=
  (registerTransaction (uuid 1) later (drawn 1) 0).after registered

theorem update_ok : (registerTransaction (uuid 1) later (drawn 1) 0).run registered
    = .ok (updated, afterUpdate) := Transaction.run_eq_after rfl

/-- The first call is over. -/
def first : RegisterState := ended 0 registered (lookedUp 0 start)

/-- The later call has looked up. -/
def laterLookedUp : RegisterState :=
  { first with calls := Function.update first.calls 1 (.waiting (req 1) later) }

/-- Each call from its lookup to its commit, one after the other: the first creates the
webhook and the second updates it. -/
def alone : List (Transition RegisterState RegisterEvent) :=
  [⟨start, .lookedUp 0 (req 0) (call 0), lookedUp 0 start⟩,
    ⟨lookedUp 0 start, .committed 0 (req 0) (call 0) (drawn 0) result, first⟩,
    ⟨first, .lookedUp 1 (req 1) later, laterLookedUp⟩,
    ⟨laterLookedUp, .committed 1 (req 1) later (drawn 1) updated,
      ended 1 afterUpdate laterLookedUp⟩]

theorem run_alone : Run (TwoPhase.Step (registerService (uuid 1))) start alone
    (ended 1 afterUpdate laterLookedUp) := by
  have hlookup : TwoPhase.Step (registerService (uuid 1)) start (.lookedUp 0 (req 0) (call 0))
      (lookedUp 0 start) := .lookup rfl rfl
  have hcommit : TwoPhase.Step (registerService (uuid 1)) (lookedUp 0 start)
      (.committed 0 (req 0) (call 0) (drawn 0) result) first :=
    .commit rfl (fun w hw => absurd hw List.not_mem_nil) commit_ok
  have hfound : TwoPhase.Step (registerService (uuid 1)) first (.lookedUp 1 (req 1) later)
      laterLookedUp := .lookup rfl rfl
  have hupdate : TwoPhase.Step (registerService (uuid 1)) laterLookedUp
      (.committed 1 (req 1) later (drawn 1) updated) (ended 1 afterUpdate laterLookedUp) :=
    .commit rfl webhookId_unused update_ok
  exact (((Run.single hlookup).snoc hcommit).snoc hfound).snoc hupdate

/-- Both calls look up before either commits. -/
def together : List (Transition RegisterState RegisterEvent) :=
  [⟨start, .lookedUp 0 (req 0) (call 0), lookedUp 0 start⟩,
    ⟨lookedUp 0 start, .lookedUp 1 (req 1) (call 1), lookedUp 1 (lookedUp 0 start)⟩,
    ⟨lookedUp 1 (lookedUp 0 start), .committed 0 (req 0) (call 0) (drawn 0) result,
      ended 0 registered (lookedUp 1 (lookedUp 0 start))⟩,
    ⟨ended 0 registered (lookedUp 1 (lookedUp 0 start)),
      .rolledBack 1 (req 1) (call 1) (drawn 1) (.db .uniqueConstraint),
      ended 1 registered (ended 0 registered (lookedUp 1 (lookedUp 0 start)))⟩]

theorem run_together : Run (TwoPhase.Step (registerService (uuid 1))) start together
    (ended 1 registered (ended 0 registered (lookedUp 1 (lookedUp 0 start)))) := by
  have hfirst : TwoPhase.Step (registerService (uuid 1)) start (.lookedUp 0 (req 0) (call 0))
      (lookedUp 0 start) := .lookup rfl rfl
  have hsecond : TwoPhase.Step (registerService (uuid 1)) (lookedUp 0 start)
      (.lookedUp 1 (req 1) (call 1)) (lookedUp 1 (lookedUp 0 start)) := .lookup rfl rfl
  have hcommit : TwoPhase.Step (registerService (uuid 1)) (lookedUp 1 (lookedUp 0 start))
      (.committed 0 (req 0) (call 0) (drawn 0) result)
      (ended 0 registered (lookedUp 1 (lookedUp 0 start))) :=
    .commit rfl (fun w hw => absurd hw List.not_mem_nil) commit_ok
  have hfail : TwoPhase.Step (registerService (uuid 1))
      (ended 0 registered (lookedUp 1 (lookedUp 0 start)))
      (.rolledBack 1 (req 1) (call 1) (drawn 1) (.db .uniqueConstraint))
      (ended 1 registered (ended 0 registered (lookedUp 1 (lookedUp 0 start)))) :=
    .rollback rfl webhookId_unused create_fails
  exact (((Run.single hfirst).append (Run.single hsecond)).append (Run.single hcommit)).append
    (Run.single hfail)

end TwoRegistrations

open TwoRegistrations in
theorem registration_atomic_iff_alone : AtomicUpsert (uuid 1) alone
    (ended 1 afterUpdate laterLookedUp) := by
  refine (registration_atomic_iff (TwoPhase.State.idle_start _ _) rfl run_alone).mpr ?_
  intro i m j c req call x _ hnone hx hran him hmj _
  obtain ⟨hj, -⟩ := List.getElem?_eq_some_iff.mp hx
  simp only [alone, List.length_cons, List.length_nil] at hj
  obtain rfl | rfl : j = 2 ∨ j = 3 := by omega
  · obtain rfl := Option.some.inj hx
    cases hran
  · -- the later call has found a webhook
    obtain rfl := Option.some.inj hx
    cases hran
    cases hnone

open TwoRegistrations in
/-- When both calls look up before either commits, the second creation fails. -/
theorem registration_not_always_atomic : ¬ ∀ (tenantId : Uuid) (s t : RegisterState)
    (tr : List (Transition RegisterState RegisterEvent)), s.Idle → webhookOf tenantId s = none →
      Run (TwoPhase.Step (registerService tenantId)) s tr t → AtomicUpsert tenantId tr t := by
  intro h
  have hatomic := h _ _ _ _ (TwoPhase.State.idle_start _ _) rfl run_together
  have hlast := (hatomic.succeeds ⟨ended 0 registered (lookedUp 1 (lookedUp 0 start)),
    .rolledBack 1 (req 1) (call 1) (drawn 1) (.db .uniqueConstraint),
    ended 1 registered (ended 0 registered (lookedUp 1 (lookedUp 0 start)))⟩
    (by simp [together])).1
  exact hlast _ _ _ _ _ rfl

end BookingPlatform
