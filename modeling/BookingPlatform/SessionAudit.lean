import BookingPlatform.Revocation

/-!
# The audit trail of the sessions

A login and a logout leave an audit row in the transaction that makes them; a
rotation leaves none, and neither does the revocation of a session whose token was
used twice.

## Main definitions

* `AuditedSessions` — what the audit rows say about the sessions.
* `AuthCall.audit?` — what a call writes about itself.

## Main results

* `audit_of_step` — what a step does to the families and to the audit rows.
* `sessions_audited` — what the rows of a run say about its sessions.
-/

namespace BookingPlatform

open Runs TwoPhase

/-! ### One step -/

/-- What a call writes about itself, and the user it writes it about. -/
def AuthCall.audit? : AuthCall → Option (AuditContext × User)
  | .login call => some (call.audit, call.user)
  | .logout call => some (call.audit, call.user)
  | _ => none

/-- The sessions of a user. -/
def Database.sessionsOf (db : Database) (userId : Uuid) : List RefreshTokenFamily :=
  db.refreshTokenFamilies.findMany fun f => f.userId = userId

/-- The number of audit rows of an event that name a user. -/
def auditRows (event : AuditEventType) (userId : Uuid) (logs : List AuditLog) : ℕ :=
  logs.countP fun row => row.eventType = event ∧ row.actorUserId = some userId

theorem auditRows_append (event : AuditEventType) (userId : Uuid) (logs : List AuditLog)
    (row : AuditLog) : auditRows event userId (logs ++ [row]) = auditRows event userId logs +
      if row.eventType = event ∧ row.actorUserId = some userId then 1 else 0 := by
  simp [auditRows, List.countP_append, List.countP_singleton]

/-- **What a step does to the families and to the audit rows.** -/
theorem audit_of_step {env : AuthEnv} {crypto : Crypto} {s t : AuthState} {e : AuthEvent}
    (h : AuthStep env crypto s e t) :
    (t.store.auditLogs = s.store.auditLogs ∧
      t.store.refreshTokenFamilies = s.store.refreshTokenFamilies) ∨
    (∃ c req call id at_ family,
      ∃ hf : s.store.refreshTokenFamilies.get? (Keyed.key family) = none,
        s.calls c = .waiting req (.login call) ∧ family.userId = call.user.id ∧
        family.revoked = false ∧
        t.store.auditLogs = s.store.auditLogs ++ [call.audit.row id at_] ∧
        t.store.refreshTokenFamilies = s.store.refreshTokenFamilies.insert family hf) ∨
    (∃ c req call id at_ family, s.calls c = .waiting req (.logout call) ∧
      s.store.refreshTokenFamilies.get? call.storedToken.familyId = some family ∧
      t.store.auditLogs = s.store.auditLogs ++ [call.audit.row id at_] ∧
      t.store.refreshTokenFamilies = s.store.refreshTokenFamilies.put family.revoke) ∨
    ∃ c req g out family presented, e = .committed c req (.revoke presented) g out ∧
      s.store.refreshTokenFamilies.get? presented.id = some family ∧
      t.store.auditLogs = s.store.auditLogs ∧
      t.store.refreshTokenFamilies = s.store.refreshTokenFamilies.put family.revoke := by
  cases h with
  | tick | lookup | answer | rollback => exact Or.inl ⟨rfl, rfl⟩
  | @commit c req call g out store hc hfresh hrun =>
    change (AuthCall.transaction env crypto call g s.now).run s.store = _ at hrun
    cases call with
    | login call =>
      simp only [AuthCall.transaction, Transaction.bind_ok, Transaction.pure_ok,
        loginTransaction_ok] at hrun
      obtain ⟨_, _, ⟨hf, _, -, rfl⟩, -, rfl⟩ := hrun
      exact Or.inr (Or.inl ⟨c, req, call, _, _, _, hf, hc, rfl, rfl, rfl, rfl⟩)
    | rotate call =>
      simp only [AuthCall.transaction, Transaction.bind_ok, Transaction.pure_ok,
        rotateTransaction_ok] at hrun
      obtain ⟨_, _, ⟨-, _, -, rfl⟩, -, rfl⟩ := hrun
      exact Or.inl ⟨rfl, rfl⟩
    | revoke presented =>
      simp only [AuthCall.transaction, Transaction.bind_ok, Transaction.pure_ok,
        revokeFamily_ok] at hrun
      obtain ⟨_, _, ⟨family, hfamily, rfl⟩, -, rfl⟩ := hrun
      exact Or.inr (Or.inr (Or.inr ⟨c, req, g, _, family, presented, rfl, hfamily, rfl, rfl⟩))
    | logout call =>
      simp only [AuthCall.transaction, Transaction.bind_ok, Transaction.pure_ok,
        logoutTransaction_ok] at hrun
      obtain ⟨_, _, ⟨family, hfamily, rfl⟩, -, rfl⟩ := hrun
      exact Or.inr (Or.inr (Or.inl ⟨c, req, call, _, _, family, hc, hfamily, rfl, rfl⟩))

/-! ### What the calls have read -/

/-- What the lookup of a logout found. -/
theorem lookup_logout {crypto : Crypto} {req : AuthRequest} {db : Database} {now : Instant}
    {call : LogoutCall} (h : req.lookup crypto db now = .ok (some (.logout call))) :
    ∃ family, db.refreshTokenFamilies.get? call.storedToken.familyId = some family ∧
      db.users.get? call.user.id = some call.user ∧ call.user.id = family.userId := by
  cases req with
  | login =>
    simp only [AuthRequest.lookup, Except.bind_eq_ok, Except.pure_eq_ok] at h
    obtain ⟨_, -, hcall⟩ := h
    cases hcall
  | refresh refreshToken =>
    obtain ⟨found, -, hcall⟩ := lookup_refresh.mp h
    cases found <;> cases hcall
  | logout refreshToken =>
    simp only [AuthRequest.lookup, logoutLookup, Except.bind_eq_ok, Except.pure_eq_ok] at h
    obtain ⟨found, ⟨-, -, hfound⟩, hcall⟩ := h
    obtain ⟨call', rfl, heq⟩ := Option.map_eq_some_iff.mp hcall
    obtain rfl := AuthCall.logout.inj heq
    cases hrow : findRefreshToken crypto refreshToken db with
    | none =>
      rw [hrow] at hfound
      cases hfound
    | some row =>
      simp only [hrow, Except.bind_eq_ok, required_eq_ok, Except.pure_eq_ok,
        Option.some_inj] at hfound
      obtain ⟨family, hfamily, user, huser, rfl⟩ := hfound
      have hid : user.id = family.userId := (Table.get?_eq_some.mp huser).2
      exact ⟨family, hfamily, by rw [hid]; exact huser, hid⟩

/-- The tenant of a login is that of its user. -/
theorem tenant_of_login {crypto : Crypto} {req : AuthRequest} {db : Database} {now : Instant}
    {call : LoginCall} (h : req.lookup crypto db now = .ok (some (.login call))) :
    call.user.tenantId = call.tenant.id := by
  cases req with
  | login tenantSlug email password =>
    simp only [AuthRequest.lookup, loginLookup, Except.bind_eq_ok, orThrow_eq_ok,
      Except.pure_eq_ok] at h
    obtain ⟨_, ⟨tenant, -, user, hu, -, -, -, -, rfl⟩, hcall⟩ := h
    obtain rfl := AuthCall.login.inj (Option.some.inj hcall)
    have hfound := (Table.mem_of_findFirst hu).2
    simp only [decide_eq_true_eq] at hfound
    exact hfound.1
  | refresh refreshToken =>
    obtain ⟨found, -, hcall⟩ := lookup_refresh.mp h
    cases found <;> cases hcall
  | logout =>
    simp only [AuthRequest.lookup, Except.bind_eq_ok, Except.pure_eq_ok] at h
    obtain ⟨found, -, hcall⟩ := h
    cases found <;> cases hcall

/-- A row about a user. -/
structure AuditsUser (row : AuditLog) (user : User) : Prop where
  tenant : row.tenantId = some user.tenantId
  actor : row.actorUserId = some user.id
  entityType : row.entityType = AuditEntityType.user.value
  entity : row.entityId = some user.id

/-! ### Runs -/

/-- What the audit rows say about the sessions, in every reachable state. -/
structure AuditedSessions (env : AuthEnv) (crypto : Crypto) (s : AuthState) : Prop where
  coherent : TwoPhase.Coherent (authService env crypto) SessionsEvolve s
  waiting : ∀ c req call audit user, s.calls c = .waiting req call →
    call.audit? = some (audit, user) → s.store.users.get? user.id = some user
  logins : ∀ userId, auditRows .login userId s.store.auditLogs =
    (s.store.sessionsOf userId).length
  rows : ∀ row ∈ s.store.auditLogs, ∃ user, s.store.users.get? user.id = some user ∧
    AuditsUser row user ∧ (row.eventType = .login ∨ (row.eventType = .logout ∧
      ∃ family ∈ s.store.refreshTokenFamilies, family.userId = user.id ∧ family.revoked = true))

section Run

variable {env : AuthEnv} {crypto : Crypto} {s t : AuthState} {e : AuthEvent}
  {tr : List (Transition AuthState AuthEvent)}

/-- Revoking a family leaves its user the number of sessions. -/
theorem length_sessionsOf_revoke {db db' : Database} {id : Uuid} {family : RefreshTokenFamily}
    (hfamily : db.refreshTokenFamilies.get? id = some family)
    (h : db'.refreshTokenFamilies = db.refreshTokenFamilies.put family.revoke) (userId : Uuid) :
    (db'.sessionsOf userId).length = (db.sessionsOf userId).length := by
  have hid : family.id = id := (Table.get?_eq_some.mp hfamily).2
  have hget : db.refreshTokenFamilies.get? (Keyed.key family.revoke) = some family := by
    rw [key_family]
    exact hid ▸ hfamily
  rw [Database.sessionsOf, Database.sessionsOf, h, Table.findMany_put hget rfl, List.length_map]

/-- A family that is revoked stays one of its user's revoked families. -/
theorem revoked_of_step (h : AuthStep env crypto s e t)
    (hco : TwoPhase.Coherent (authService env crypto) SessionsEvolve s) {userId : Uuid}
    (hs : ∃ family ∈ s.store.refreshTokenFamilies, family.userId = userId ∧
      family.revoked = true) :
    ∃ family ∈ t.store.refreshTokenFamilies, family.userId = userId ∧ family.revoked = true := by
  obtain ⟨family, hmem, huser, hrev⟩ := hs
  obtain ⟨family', hget, hfol⟩ := (sessionsEvolve_of_change
    (authChange_of_step h hco)).family _ _ (Table.get?_key hmem)
  refine ⟨family', (Table.get?_eq_some.mp hget).1, ?_, hfol.revoked hrev⟩
  rw [hfol.columns]
  exact huser

/-- A call that waits has read its user in the table as it is. -/
theorem waiting_user_of_step (h : AuthStep env crypto s e t) (hs : AuditedSessions env crypto s)
    {c : ℕ} {req : AuthRequest} {call : AuthCall} {audit : AuditContext} {user : User}
    (hc : t.calls c = .waiting req call) (haudit : call.audit? = some (audit, user)) :
    t.store.users.get? user.id = some user := by
  rw [users_of_step h]
  rcases TwoPhase.waiting_of_step h hc with hwas | ⟨-, hlook⟩
  · exact hs.waiting c req call audit user hwas haudit
  · cases call with
    | login call =>
      obtain ⟨-, rfl⟩ := Prod.mk.inj (Option.some.inj haudit)
      exact lookup_login hlook
    | logout call =>
      obtain ⟨-, rfl⟩ := Prod.mk.inj (Option.some.inj haudit)
      obtain ⟨_, -, huser, -⟩ := lookup_logout hlook
      exact huser
    | rotate | revoke => cases haudit

theorem logins_of_step (h : AuthStep env crypto s e t) (hs : AuditedSessions env crypto s)
    (userId : Uuid) :
    auditRows .login userId t.store.auditLogs = (t.store.sessionsOf userId).length := by
  have hbefore := hs.logins userId
  rcases audit_of_step h with ⟨hlogs, hfamilies⟩ |
    ⟨c, req, call, id, at_, family, hf, -, huser, -, hlogs, hfamilies⟩ |
    ⟨c, req, call, id, at_, family, -, hfamily, hlogs, hfamilies⟩ |
    ⟨c, req, g, out, family, presented, -, hfamily, hlogs, hfamilies⟩
  · rw [hlogs, hbefore, Database.sessionsOf, Database.sessionsOf, hfamilies]
  -- one row and one family, of the same user
  · rw [hlogs, auditRows_append, hbefore, Database.sessionsOf, Database.sessionsOf, hfamilies,
      Table.findMany_insert, List.length_append]
    by_cases heq : call.user.id = userId <;> simp [huser, heq, AuditContext.row, LoginCall.audit]
  · have hevent : (call.audit.row id at_).eventType = .logout := rfl
    rw [hlogs, auditRows_append, hbefore, length_sessionsOf_revoke hfamily hfamilies]
    simp [hevent]
  · rw [hlogs, hbefore, length_sessionsOf_revoke hfamily hfamilies]

theorem rows_of_step (h : AuthStep env crypto s e t) (hs : AuditedSessions env crypto s) :
    ∀ row ∈ t.store.auditLogs, ∃ user, t.store.users.get? user.id = some user ∧
      AuditsUser row user ∧ (row.eventType = .login ∨ (row.eventType = .logout ∧
        ∃ family ∈ t.store.refreshTokenFamilies, family.userId = user.id ∧
          family.revoked = true)) := by
  have husers := users_of_step h
  have hold : ∀ row ∈ s.store.auditLogs, ∃ user, t.store.users.get? user.id = some user ∧
      AuditsUser row user ∧ (row.eventType = .login ∨ (row.eventType = .logout ∧
        ∃ family ∈ t.store.refreshTokenFamilies, family.userId = user.id ∧
          family.revoked = true)) := by
    intro row hrow
    obtain ⟨user, huser, habout, hevent⟩ := hs.rows row hrow
    refine ⟨user, by rw [husers]; exact huser, habout, hevent.imp_right fun hlogout => ?_⟩
    exact ⟨hlogout.1, revoked_of_step h hs.coherent hlogout.2⟩
  rcases audit_of_step h with ⟨hlogs, -⟩ |
    ⟨c, req, call, id, at_, family, hf, hc, -, -, hlogs, -⟩ |
    ⟨c, req, call, id, at_, family, hc, hfamily, hlogs, hfamilies⟩ |
    ⟨c, req, g, out, family, presented, -, -, hlogs, -⟩
  · rwa [hlogs]
  · intro row hrow
    rw [hlogs, List.mem_append, List.mem_singleton] at hrow
    rcases hrow with hrow | rfl
    · exact hold row hrow
    · obtain ⟨db₀, now₀, hlook, -⟩ := hs.coherent c _ _ hc
      refine ⟨call.user, ?_, ⟨?_, rfl, rfl, rfl⟩, Or.inl rfl⟩
      · rw [husers]
        exact hs.waiting c req _ _ _ hc rfl
      · exact congrArg some (tenant_of_login hlook).symm
  · intro row hrow
    rw [hlogs, List.mem_append, List.mem_singleton] at hrow
    rcases hrow with hrow | rfl
    · exact hold row hrow
    · -- the family that the lookup read is the one that is revoked
      obtain ⟨db₀, now₀, hlook, hevolve⟩ := hs.coherent c _ _ hc
      obtain ⟨family₀, hfamily₀, -, hid⟩ := lookup_logout hlook
      obtain ⟨family', hfamily', hfol⟩ := hevolve.family _ _ hfamily₀
      obtain rfl := Option.some.inj (hfamily.symm.trans hfamily')
      have huser : family.revoke.userId = call.user.id := by
        rw [hid]
        show family.userId = family₀.userId
        rw [hfol.columns]
      refine ⟨call.user, ?_, ⟨rfl, rfl, rfl, rfl⟩, Or.inr ⟨rfl, family.revoke, ?_, huser, rfl⟩⟩
      · rw [husers]
        exact hs.waiting c req _ _ _ hc rfl
      · rw [hfamilies]
        exact Table.mem_put.mpr (Or.inr ⟨rfl, family, (Table.get?_eq_some.mp hfamily).1, rfl⟩)
  · rwa [hlogs]

theorem auditedSessions_step (s : AuthState) (e : AuthEvent) (t : AuthState)
    (h : AuthStep env crypto s e t) (hs : AuditedSessions env crypto s) :
    AuditedSessions env crypto t :=
  { coherent := TwoPhase.coherent_step (fun _ _ _ => SessionsEvolve.trans) h
      (sessionsEvolve_of_change (authChange_of_step h hs.coherent)) hs.coherent
    waiting := fun _ _ _ _ _ hc haudit => waiting_user_of_step h hs hc haudit
    logins := logins_of_step h hs
    rows := rows_of_step h hs }

/-- No audit row is ever lost. -/
theorem auditLogs_kept (hrun : Run (AuthStep env crypto) s tr t) :
    s.store.auditLogs <+: t.store.auditLogs := by
  refine hrun.related (I := fun _ => True) (Q := fun s t : AuthState =>
    s.store.auditLogs <+: t.store.auditLogs) (fun _ => List.prefix_rfl)
    (fun _ _ _ => List.IsPrefix.trans) (fun _ _ _ _ _ => trivial) ?_ trivial
  intro s e t h _
  rcases audit_of_step h with ⟨hlogs, -⟩ | ⟨_, _, _, _, _, _, _, -, -, -, hlogs, -⟩ |
    ⟨_, _, _, _, _, _, -, -, hlogs, -⟩ | ⟨_, _, _, _, _, _, -, -, hlogs, -⟩ <;> rw [hlogs]
  · exact List.prefix_append _ _
  · exact List.prefix_append _ _

/-- **What ends a session**: a logout, which leaves a row that names its user, or the
second use of one of its tokens. -/
theorem ended_of_revoked (hrun : Run (AuthStep env crypto) s tr t)
    (hs : AuditedSessions env crypto s) {family : RefreshTokenFamily}
    (hlive : ¬ s.store.FamilyRevoked family.id) (hmem : family ∈ t.store.refreshTokenFamilies)
    (hrev : family.revoked = true) :
    (∃ row ∈ t.store.auditLogs, row.eventType = .logout ∧
      row.actorUserId = some family.userId) ∨
    ∃ x ∈ tr, ∃ c req presented g out, x.event = .committed c req (.revoke presented) g out ∧
      presented.id = family.id := by
  obtain ⟨l, x, l', rfl, hpre, hpost⟩ := hrun.origin
    (P := fun s => s.store.FamilyRevoked family.id) hlive ⟨family, Table.get?_key hmem, hrev⟩
  obtain ⟨hbefore, hx, hafter⟩ := hrun.cut
  have hsx : AuditedSessions env crypto x.pre :=
    hbefore.invariant (I := AuditedSessions env crypto) auditedSessions_step hs
  obtain ⟨revoked, hget, htrue⟩ := hpost
  have hput : ∀ {f : RefreshTokenFamily} {id : Uuid},
      x.pre.store.refreshTokenFamilies.get? id = some f →
      x.post.store.refreshTokenFamilies = x.pre.store.refreshTokenFamilies.put f.revoke →
      f.id = family.id := by
    intro f id hf hfamilies
    by_contra hne
    have hid : f.id = id := (Table.get?_eq_some.mp hf).2
    rw [hfamilies, Table.get?_put (o := f) (by rw [key_family]; exact hid ▸ hf),
      if_neg (fun heq => hne heq.symm)] at hget
    exact hpre ⟨revoked, hget, htrue⟩
  rcases audit_of_step hx with ⟨-, hfamilies⟩ |
    ⟨c, req, call, id, at_, new, hf, -, -, hnew, -, hfamilies⟩ |
    ⟨c, req, call, id, at_, f, hc, hf, hlogs, hfamilies⟩ |
    ⟨c, req, g, out, f, presented, hevent, hf, -, hfamilies⟩
  · rw [hfamilies] at hget
    exact absurd ⟨revoked, hget, htrue⟩ hpre
  · rw [hfamilies, Table.get?_insert] at hget
    split at hget
    · rw [← Option.some.inj hget, hnew] at htrue
      cases htrue
    · exact absurd ⟨revoked, hget, htrue⟩ hpre
  · left
    refine ⟨call.audit.row id at_, (auditLogs_kept hafter).subset ?_, rfl, ?_⟩
    · rw [hlogs]
      exact List.mem_append_right _ (List.mem_singleton_self _)
    · -- the user of the row is that of the family, which never changes
      obtain ⟨db₀, now₀, hlook, hevolve⟩ := hsx.coherent c _ _ hc
      obtain ⟨family₀, hfamily₀, -, hid⟩ := lookup_logout hlook
      obtain ⟨f', hf', hfol⟩ := hevolve.family _ _ hfamily₀
      obtain rfl := Option.some.inj (hf.symm.trans hf')
      have hstep := sessionsEvolve_of_change (authChange_of_step hx hsx.coherent)
      have hkey : f.id = call.storedToken.familyId := (Table.get?_eq_some.mp hf).2
      obtain ⟨f₁, hf₁, hfol₁⟩ := hstep.family _ _ hf
      have hlater : SessionsEvolve x.post.store t.store := by
        refine hafter.related (I := AuditedSessions env crypto)
          (Q := fun s t : AuthState => SessionsEvolve s.store t.store) (fun s => .refl s.store)
          (fun _ _ _ => SessionsEvolve.trans) auditedSessions_step
          (fun _ _ _ h hs => sessionsEvolve_of_change (authChange_of_step h hs.coherent))
          (auditedSessions_step _ _ _ hx hsx)
      obtain ⟨f₂, hf₂, hfol₂⟩ := hlater.family _ _ hf₁
      rw [← hkey, hput hf hfamilies] at hf₂
      obtain rfl := Option.some.inj ((Table.get?_key hmem).symm.trans hf₂)
      show some call.user.id = some family.userId
      rw [hid, hfol₂.columns, hfol₁.columns, hfol.columns]
  · right
    have hid : f.id = presented.id := (Table.get?_eq_some.mp hf).2
    exact ⟨x, by simp, c, req, presented, g, out, hevent, hid.symm.trans (hput hf hfamilies)⟩

/-- **The audit trail of the sessions.** In a run from a database without sessions
and audit rows: a user has as many `LOGIN` rows as sessions; every row is about a
user, in its tenant, and a `LOGOUT` row about one who has a revoked session; and a
session that is revoked was logged out, with a row that says so, or one of its tokens
was used twice. -/
theorem sessions_audited (hrun : Run (AuthStep env crypto) s tr t) (hidle : s.Idle)
    (hnone : NoSessions s.store) (hlogs : s.store.auditLogs = []) :
    (∀ userId, auditRows .login userId t.store.auditLogs =
      (t.store.sessionsOf userId).length) ∧
    (∀ row ∈ t.store.auditLogs, ∃ user, t.store.users.get? user.id = some user ∧
      AuditsUser row user ∧ (row.eventType = .login ∨ (row.eventType = .logout ∧
        ∃ family ∈ t.store.refreshTokenFamilies, family.userId = user.id ∧
          family.revoked = true))) ∧
    ∀ family ∈ t.store.refreshTokenFamilies, family.revoked = true →
      (∃ row ∈ t.store.auditLogs, row.eventType = .logout ∧
        row.actorUserId = some family.userId) ∨
      ∃ x ∈ tr, ∃ c req presented g out, x.event = .committed c req (.revoke presented) g out ∧
        presented.id = family.id := by
  have hstart : AuditedSessions env crypto s := by
    refine ⟨hidle.coherent, ?_, ?_, ?_⟩
    · intro c req call audit user hc
      rw [hidle c] at hc
      cases hc
    · intro userId
      simp [auditRows, hlogs, Database.sessionsOf, Table.findMany, hnone.families]
    · simp [hlogs]
  have hend : AuditedSessions env crypto t :=
    hrun.invariant (I := AuditedSessions env crypto) auditedSessions_step hstart
  refine ⟨hend.logins, hend.rows, fun family hmem hrev => ?_⟩
  refine ended_of_revoked hrun hstart ?_ hmem hrev
  intro hrevoked
  obtain ⟨family₀, hget, -⟩ := hrevoked
  have hrow := (Table.get?_eq_some.mp hget).1
  rw [Table.mem_def, hnone.families] at hrow
  cases hrow

end Run

/-- The session whose token is presented twice has a `LOGIN` row, and was revoked
without a `LOGOUT`. -/
theorem sessions_audited_late_reuse :
    auditRows .login (uuid 2) LateReuse.s₇.store.auditLogs =
      (LateReuse.s₇.store.sessionsOf (uuid 2)).length ∧
      auditRows .logout (uuid 2) LateReuse.s₇.store.auditLogs = 0 := by
  have h := sessions_audited (DoubleRefresh.run_rotate.append LateReuse.run) DoubleRefresh.idle
    DoubleRefresh.noSessions rfl
  exact ⟨h.1 _, by decide⟩

end BookingPlatform
