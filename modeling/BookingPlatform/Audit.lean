import BookingPlatform.Schema

/-!
# Audited transactions

`lib/audit.ts`.

## Main definitions

* `AuditContext` — what an audit row is made of.
* `withAuditedTransaction` — a transaction with its audit row.
-/

namespace BookingPlatform

/-- What a caller of `logAudit` tells it. -/
structure AuditContext where
  eventType : AuditEventType
  tenantId : Option Uuid
  actorUserId : Option Uuid
  entityType : AuditEntityType
  entityId : Option Uuid
  metadata : Option Json

/-- The row `logAudit` inserts. -/
def AuditContext.row (audit : AuditContext) (auditLogId : Uuid) (now : Instant) : AuditLog where
  id := auditLogId
  tenantId := audit.tenantId
  actorUserId := audit.actorUserId
  eventType := audit.eventType
  entityType := audit.entityType.value
  entityId := audit.entityId
  metadata := audit.metadata
  createdAt := now

/-- The insertion of an audit row. -/
def logAudit (audit : AuditContext) (auditLogId : Uuid) (now : Instant) : Tx Unit :=
  modify fun db => { db with auditLogs := db.auditLogs ++ [audit.row auditLogId now] }

/-- `withAuditedTransaction`; a context that does not look at the result is a
constant function. -/
def withAuditedTransaction {α : Type} (fn : Tx α) (audit : α → AuditContext) (auditLogId : Uuid)
    (now : Instant) : Tx α := do
  let result ← fn
  logAudit (audit result) auditLogId now
  return result

theorem logAudit_ok {audit : AuditContext} {auditLogId : Uuid} {now : Instant}
    {db db' : Database} {u : Unit} :
    (logAudit audit auditLogId now).run db = .ok (u, db') ↔
      db' = { db with auditLogs := db.auditLogs ++ [audit.row auditLogId now] } :=
  Transaction.modify_ok.trans eq_comm

/-- An audited transaction commits when its body does, with one more audit row. -/
theorem withAuditedTransaction_ok {α : Type} {fn : Tx α} {audit : α → AuditContext}
    {auditLogId : Uuid} {now : Instant} {db db' : Database} {a : α} :
    (withAuditedTransaction fn audit auditLogId now).run db = .ok (a, db') ↔
      ∃ mid, fn.run db = .ok (a, mid) ∧
        db' = { mid with auditLogs := mid.auditLogs ++ [(audit a).row auditLogId now] } := by
  simp only [withAuditedTransaction, Transaction.bind_ok, Transaction.pure_ok, logAudit_ok]
  constructor
  · rintro ⟨b, mid, hfn, -, mid', rfl, rfl, rfl⟩
    exact ⟨mid, hfn, rfl⟩
  · rintro ⟨mid, hfn, rfl⟩
    exact ⟨a, mid, hfn, (), _, rfl, rfl, rfl⟩

end BookingPlatform
