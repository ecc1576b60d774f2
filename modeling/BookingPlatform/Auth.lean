import BookingPlatform.Audit

/-!
# The authentication service

`auth.service.ts` with `auth/tokens.ts`.  As in the booking service, each
operation is a lookup on one snapshot and a transaction that runs later.

## Main definitions

* `Crypto` — the hash, the signature and the password check.
* `loginLookup`, `refreshLookup`, `logoutLookup` — what each operation reads first.
* `loginTransaction`, `rotateTransaction`, `revokeFamily`, `logoutTransaction` — what it
  then writes.

## Main results

* `loginTransaction_ok`, `rotateTransaction_ok`, `revokeFamily_ok`,
  `logoutTransaction_ok` — one specification for each transaction.
* `refreshLookup_rotate` — what a pending rotation has seen.
-/

namespace BookingPlatform

open Transaction

/-! ### Tokens -/

/-- The claims of an access token. -/
structure AccessTokenPayload where
  sub : Uuid
  tenantId : Uuid
  role : UserRole
  email : String

/-- The functions of the runtime that the service calls: lower-casing, the SHA-256
digest in hexadecimal, `bcrypt.compare`, and `jwt.sign` with the configured secret
at a clock reading. -/
structure Crypto where
  toLowerCase : String → String
  sha256Hex : String → String
  compare : String → String → Bool
  sign : AccessTokenPayload → Instant → ℕ → String

/-- The two lifetimes of the configuration, in seconds. -/
structure AuthEnv where
  jwtAccessExpiresInSeconds : ℕ
  jwtRefreshExpiresInSeconds : ℕ

/-- A refresh token as it is stored. -/
def hashToken (crypto : Crypto) (token : String) : String := crypto.sha256Hex token

/-- When a refresh token issued now expires. -/
def refreshTokenExpiresAt (env : AuthEnv) (now : Instant) : Instant :=
  now + env.jwtRefreshExpiresInSeconds * 1000

/-- An access token for the user. -/
def signAccessToken (env : AuthEnv) (crypto : Crypto) (user : User) (now : Instant) : String :=
  crypto.sign ⟨user.id, user.tenantId, user.role, user.email⟩ now env.jwtAccessExpiresInSeconds

/-- What a login and a refresh return. -/
structure AuthTokens where
  accessToken : String
  refreshToken : String
  expiresIn : ℕ
  deriving DecidableEq

/-- A user as the API shows it. -/
structure PublicUser where
  id : Uuid
  tenantId : Uuid
  email : String
  role : UserRole
  deriving DecidableEq

/-- A user without the password hash. -/
def toPublicUser (user : User) : PublicUser := ⟨user.id, user.tenantId, user.email, user.role⟩

/-- What an authentication transaction draws. -/
structure AuthGenerated where
  familyId : Uuid
  refreshTokenId : Uuid
  refreshToken : String
  auditLogId : Uuid

/-! ### Statements -/

/-- `tx.refreshTokenFamily.create`. -/
def insertFamily (family : RefreshTokenFamily) : Tx RefreshTokenFamily := do
  let db ← get
  if h : db.refreshTokenFamilies.get? (Keyed.key family) = none then do
    set { db with refreshTokenFamilies := db.refreshTokenFamilies.insert family h }
    return family
  else throw (.db .uniqueConstraint)

/-- `tx.refreshToken.create`. -/
def insertRefreshToken (token : RefreshToken) : Tx RefreshToken := do
  let db ← get
  if h : db.refreshTokens.get? (Keyed.key token) = none then do
    set { db with refreshTokens := db.refreshTokens.insert token h }
    return token
  else throw (.db .uniqueConstraint)

/-- `tx.refreshToken.update`: by identifier, an error when there is no such row. -/
def updateRefreshToken (id : Uuid) (set : RefreshToken → RefreshToken) : Tx Unit := fun db => do
  let (updated, tokens) ← db.refreshTokens.updateWhere (fun t => t.id = id) fun t => .ok (set t)
  throwIf (updated = 0) (.db .recordNotFound)
  return ((), { db with refreshTokens := tokens })

/-- The session is over. -/
def RefreshTokenFamily.revoke (family : RefreshTokenFamily) : RefreshTokenFamily :=
  { family with revoked := true }

/-- The token is no longer good. -/
def RefreshToken.revoke (token : RefreshToken) : RefreshToken := { token with revoked := true }

theorem RefreshToken.key_revoke (token : RefreshToken) :
    Keyed.key token.revoke = Keyed.key token := rfl

/-- A family and all of its tokens are revoked. -/
def revokeFamily (familyId : Uuid) : Tx Unit := fun db => do
  let (updated, families) ← db.refreshTokenFamilies.updateWhere (fun f => f.id = familyId)
    fun f => .ok f.revoke
  throwIf (updated = 0) (.db .recordNotFound)
  return ((), { db with
    refreshTokenFamilies := families
    refreshTokens := db.refreshTokens.updateMany (fun t => t.familyId = familyId)
      RefreshToken.revoke RefreshToken.key_revoke })

/-- A family with its first refresh token. -/
def createRefreshSession (env : AuthEnv) (crypto : Crypto) (userId : Uuid) (g : AuthGenerated)
    (now : Instant) : Tx String := do
  let family ← insertFamily ⟨g.familyId, userId, false⟩
  let _ ← insertRefreshToken ⟨g.refreshTokenId, family.id, hashToken crypto g.refreshToken, false,
    none, refreshTokenExpiresAt env now⟩
  return g.refreshToken

/-! ### login -/

/-- The local variables of `login` when its transaction starts. -/
structure LoginCall where
  tenant : Tenant
  user : User
  deriving DecidableEq

/-- `login` up to its transaction. -/
def loginLookup (crypto : Crypto) (tenantSlug email password : String) (db : Database) :
    Except Failure LoginCall := do
  let tenant ← orThrow (db.tenants.findFirst fun t => t.slug = tenantSlug)
    (.app (unauthorizedError "Invalid credentials"))
  let user ← orThrow
    (db.users.findFirst fun u => u.tenantId = tenant.id ∧ u.email = crypto.toLowerCase email)
    (.app (unauthorizedError "Invalid credentials"))
  throwIf (user.isActive = false) (.app (unauthorizedError "Invalid credentials"))
  throwIf (crypto.compare password user.passwordHash = false)
    (.app (unauthorizedError "Invalid credentials"))
  return ⟨tenant, user⟩

/-- The audit row of a login. -/
def LoginCall.audit (call : LoginCall) : AuditContext where
  eventType := .login
  tenantId := some call.tenant.id
  actorUserId := some call.user.id
  entityType := .user
  entityId := some call.user.id
  metadata := none

/-- The transaction of a login. -/
def loginTransaction (env : AuthEnv) (crypto : Crypto) (call : LoginCall) (g : AuthGenerated)
    (now : Instant) : Tx String :=
  withAuditedTransaction (createRefreshSession env crypto call.user.id g now)
    (fun _ => call.audit) g.auditLogId now

/-! ### refreshAccessToken -/

/-- The local variables of `refreshAccessToken` when its rotation starts. -/
structure RotateCall where
  storedToken : RefreshToken
  family : RefreshTokenFamily
  user : User
  deriving DecidableEq

/-- What `refreshAccessToken` goes on to do. -/
inductive RefreshCall
  | rotate (call : RotateCall)
  | reuse (family : RefreshTokenFamily)
  deriving DecidableEq

/-- The token row with the digest of a token. -/
def findRefreshToken (crypto : Crypto) (refreshToken : String) (db : Database) :
    Option RefreshToken :=
  db.refreshTokens.findFirst fun t => t.tokenHash = hashToken crypto refreshToken

/-- `refreshAccessToken` up to its transaction. -/
def refreshLookup (crypto : Crypto) (refreshToken : String) (db : Database) (now : Instant) :
    Except Failure RefreshCall := do
  throwIf (refreshToken = "") (.app (badRequestError "Refresh token is required"))
  let storedToken ← orThrow (findRefreshToken crypto refreshToken db)
    (.app (unauthorizedError "Invalid refresh token"))
  let family ← required (db.refreshTokenFamilies.get? storedToken.familyId)
  let user ← required (db.users.get? family.userId)
  throwIf (family.revoked = true) (.app (unauthorizedError "Session revoked"))
  -- a revoked token of a live family is a reused one
  if storedToken.revoked = true then return .reuse family
  else do
    throwIf (storedToken.expiresAt ≤ now) (.app (unauthorizedError "Refresh token expired"))
    throwIf (user.isActive = false) (.app (unauthorizedError "Account disabled"))
    return .rotate ⟨storedToken, family, user⟩

/-- The replacement of a rotated token. -/
def RotateCall.replacement (env : AuthEnv) (crypto : Crypto) (call : RotateCall)
    (g : AuthGenerated) (now : Instant) : RefreshToken where
  id := g.refreshTokenId
  familyId := call.family.id
  tokenHash := hashToken crypto g.refreshToken
  revoked := false
  replacedById := none
  expiresAt := refreshTokenExpiresAt env now

/-- The columns a rotation sets. -/
def RefreshToken.replaceBy (id : Uuid) (token : RefreshToken) : RefreshToken :=
  { token with revoked := true, replacedById := some id }

/-- The transaction of a refresh: a new token, which replaces the one presented. -/
def rotateTransaction (env : AuthEnv) (crypto : Crypto) (call : RotateCall) (g : AuthGenerated)
    (now : Instant) : Tx Unit := do
  let replacement ← insertRefreshToken (call.replacement env crypto g now)
  updateRefreshToken call.storedToken.id (RefreshToken.replaceBy replacement.id)

/-- What `refreshAccessToken` returns after its rotation. -/
def RotateCall.tokens (env : AuthEnv) (crypto : Crypto) (call : RotateCall) (g : AuthGenerated)
    (now : Instant) : AuthTokens :=
  ⟨signAccessToken env crypto call.user now, g.refreshToken, env.jwtAccessExpiresInSeconds⟩

/-! ### logout -/

/-- The local variables of `logout` when its transaction starts. -/
structure LogoutCall where
  storedToken : RefreshToken
  user : User
  deriving DecidableEq

/-- `logout` up to its transaction; `none` when it returns without one. -/
def logoutLookup (crypto : Crypto) (refreshToken : String) (db : Database) :
    Except Failure (Option LogoutCall) := do
  throwIf (refreshToken = "") (.app (badRequestError "Refresh token is required"))
  match findRefreshToken crypto refreshToken db with
  | none => return none
  | some storedToken => do
    let family ← required (db.refreshTokenFamilies.get? storedToken.familyId)
    let user ← required (db.users.get? family.userId)
    return some ⟨storedToken, user⟩

/-- The audit row of a logout. -/
def LogoutCall.audit (call : LogoutCall) : AuditContext where
  eventType := .logout
  tenantId := some call.user.tenantId
  actorUserId := some call.user.id
  entityType := .user
  entityId := some call.user.id
  metadata := none

/-- The transaction of a logout. -/
def logoutTransaction (call : LogoutCall) (g : AuthGenerated) (now : Instant) : Tx Unit :=
  withAuditedTransaction (revokeFamily call.storedToken.familyId) (fun _ => call.audit)
    g.auditLogId now

/-! ### What the transactions do -/

theorem insertFamily_ok {family family' : RefreshTokenFamily} {db db' : Database} :
    (insertFamily family).run db = .ok (family', db') ↔
      ∃ h : db.refreshTokenFamilies.get? (Keyed.key family) = none, family' = family ∧
        db' = { db with refreshTokenFamilies := db.refreshTokenFamilies.insert family h } :=
  setIf_ok

theorem insertRefreshToken_ok {token token' : RefreshToken} {db db' : Database} :
    (insertRefreshToken token).run db = .ok (token', db') ↔
      ∃ h : db.refreshTokens.get? (Keyed.key token) = none, token' = token ∧
        db' = { db with refreshTokens := db.refreshTokens.insert token h } :=
  setIf_ok

/-- An update of one row, which fails when there is no such row. -/
theorem updateOne_ok {ρ : Type} [Keyed ρ Uuid] (write : Table ρ → Database) {t : Table ρ}
    {p : ρ → Bool} {set : ρ → ρ} {e : Failure} {db' : Database} {u : Unit} :
    (t.updateWhere p (fun r => .ok (set r)) >>= fun q => do
      throwIf (q.1 = 0) e
      pure ((), write q.2)) = .ok (u, db') ↔
      ∃ r, t.findFirst p = some r ∧ db' = write (t.put (set r)) := by
  simp only [Except.bind_eq_ok, throwIf_eq_ok, Except.pure_eq_ok, Prod.mk.injEq]
  constructor
  · rintro ⟨⟨n, t'⟩, hup, -, hn, -, rfl⟩
    rcases Table.updateWhere_eq_ok.mp hup with ⟨-, rfl, -⟩ | ⟨r, r', hf, hr, -, rfl⟩
    · exact absurd rfl hn
    · obtain rfl := Except.ok.inj hr
      exact ⟨r, hf, rfl⟩
  · rintro ⟨r, hr, rfl⟩
    exact ⟨(1, _), Table.updateWhere_eq_ok.mpr (Or.inr ⟨r, set r, hr, rfl, rfl, rfl⟩), (),
      by simp, trivial, rfl⟩

theorem updateRefreshToken_ok {id : Uuid} {set : RefreshToken → RefreshToken} {db db' : Database}
    {u : Unit} :
    (updateRefreshToken id set).run db = .ok (u, db') ↔
      ∃ token, db.refreshTokens.get? id = some token ∧
        db' = { db with refreshTokens := db.refreshTokens.put (set token) } :=
  updateOne_ok fun tokens => { db with refreshTokens := tokens }

theorem revokeFamily_ok {familyId : Uuid} {db db' : Database} {u : Unit} :
    (revokeFamily familyId).run db = .ok (u, db') ↔
      ∃ family, db.refreshTokenFamilies.get? familyId = some family ∧
        db' = { db with
          refreshTokenFamilies := db.refreshTokenFamilies.put family.revoke
          refreshTokens := db.refreshTokens.updateMany (fun t => t.familyId = familyId)
            RefreshToken.revoke RefreshToken.key_revoke } :=
  updateOne_ok fun families => { db with
    refreshTokenFamilies := families
    refreshTokens := db.refreshTokens.updateMany (fun t => t.familyId = familyId)
      RefreshToken.revoke RefreshToken.key_revoke }

/-- The first token of a new session. -/
def LoginCall.firstToken (env : AuthEnv) (crypto : Crypto) (g : AuthGenerated) (now : Instant) :
    RefreshToken :=
  ⟨g.refreshTokenId, g.familyId, hashToken crypto g.refreshToken, false, none,
    refreshTokenExpiresAt env now⟩

theorem loginTransaction_ok {env : AuthEnv} {crypto : Crypto} {call : LoginCall}
    {g : AuthGenerated} {now : Instant} {db db' : Database} {token : String} :
    (loginTransaction env crypto call g now).run db = .ok (token, db') ↔
      ∃ (hf : db.refreshTokenFamilies.get?
          (Keyed.key (⟨g.familyId, call.user.id, false⟩ : RefreshTokenFamily)) = none)
        (ht : db.refreshTokens.get? (Keyed.key (LoginCall.firstToken env crypto g now)) = none),
        token = g.refreshToken ∧
        db' = { db with
          refreshTokenFamilies :=
            db.refreshTokenFamilies.insert ⟨g.familyId, call.user.id, false⟩ hf
          refreshTokens := db.refreshTokens.insert (LoginCall.firstToken env crypto g now) ht
          auditLogs := db.auditLogs ++ [call.audit.row g.auditLogId now] } := by
  simp only [loginTransaction, withAuditedTransaction_ok, createRefreshSession, bind_ok, pure_ok,
    insertFamily_ok, insertRefreshToken_ok]
  constructor
  · rintro ⟨_, ⟨_, _, ⟨hf, rfl, rfl⟩, _, _, ⟨ht, rfl, rfl⟩, rfl, rfl⟩, rfl⟩
    exact ⟨hf, ht, rfl, rfl⟩
  · rintro ⟨hf, ht, rfl, rfl⟩
    exact ⟨_, ⟨_, _, ⟨hf, rfl, rfl⟩, _, _, ⟨ht, rfl, rfl⟩, rfl, rfl⟩, rfl⟩

theorem rotateTransaction_ok {env : AuthEnv} {crypto : Crypto} {call : RotateCall}
    {g : AuthGenerated} {now : Instant} {db db' : Database} {u : Unit} :
    (rotateTransaction env crypto call g now).run db = .ok (u, db') ↔
      ∃ h : db.refreshTokens.get? (Keyed.key (call.replacement env crypto g now)) = none, ∃ token,
        (db.refreshTokens.insert (call.replacement env crypto g now) h).get? call.storedToken.id
          = some token ∧
        db' = { db with
          refreshTokens := (db.refreshTokens.insert (call.replacement env crypto g now) h).put
            (token.replaceBy g.refreshTokenId) } := by
  simp only [rotateTransaction, bind_ok, insertRefreshToken_ok, updateRefreshToken_ok]
  constructor
  · rintro ⟨_, _, ⟨h, rfl, rfl⟩, token, ht, rfl⟩
    exact ⟨h, token, ht, rfl⟩
  · rintro ⟨h, token, ht, rfl⟩
    exact ⟨_, _, ⟨h, rfl, rfl⟩, token, ht, rfl⟩

theorem logoutTransaction_ok {call : LogoutCall} {g : AuthGenerated} {now : Instant}
    {db db' : Database} {u : Unit} :
    (logoutTransaction call g now).run db = .ok (u, db') ↔
      ∃ family, db.refreshTokenFamilies.get? call.storedToken.familyId = some family ∧
        db' = { db with
          refreshTokenFamilies := db.refreshTokenFamilies.put family.revoke
          refreshTokens := db.refreshTokens.updateMany
            (fun t => t.familyId = call.storedToken.familyId) RefreshToken.revoke
            RefreshToken.key_revoke
          auditLogs := db.auditLogs ++ [call.audit.row g.auditLogId now] } := by
  simp only [logoutTransaction, withAuditedTransaction_ok, revokeFamily_ok]
  constructor
  · rintro ⟨_, ⟨family, hf, rfl⟩, rfl⟩
    exact ⟨family, hf, rfl⟩
  · rintro ⟨family, hf, rfl⟩
    exact ⟨_, ⟨family, hf, rfl⟩, rfl⟩

/-! ### What the lookups have seen -/

theorem findRefreshToken_some {crypto : Crypto} {refreshToken : String} {db : Database}
    {t : RefreshToken} (h : findRefreshToken crypto refreshToken db = some t) :
    db.refreshTokens.get? t.id = some t ∧ t.tokenHash = hashToken crypto refreshToken := by
  obtain ⟨hmem, hhash⟩ := Table.mem_of_findFirst h
  exact ⟨Table.get?_key hmem, by simpa using hhash⟩

/-- A pending rotation has seen its token live in a live family. -/
theorem refreshLookup_rotate {crypto : Crypto} {refreshToken : String} {db : Database}
    {now : Instant} {call : RotateCall}
    (h : refreshLookup crypto refreshToken db now = .ok (.rotate call)) :
    db.refreshTokens.get? call.storedToken.id = some call.storedToken ∧
      call.storedToken.tokenHash = hashToken crypto refreshToken ∧
      db.refreshTokenFamilies.get? call.storedToken.familyId = some call.family ∧
      call.family.revoked = false ∧ call.storedToken.revoked = false := by
  simp only [refreshLookup, Except.bind_eq_ok, orThrow_eq_ok, required_eq_ok, throwIf_eq_ok,
    Bool.not_eq_true] at h
  obtain ⟨-, -, t, ht, family, hf, user, -, -, hlive, hrest⟩ := h
  by_cases hrev : t.revoked = true
  · rw [if_pos hrev, Except.pure_eq_ok] at hrest
    cases hrest
  · rw [if_neg hrev] at hrest
    simp only [Except.bind_eq_ok, throwIf_eq_ok, Except.pure_eq_ok] at hrest
    obtain ⟨-, -, -, -, hcall⟩ := hrest
    obtain rfl := RefreshCall.rotate.inj hcall
    obtain ⟨hget, hhash⟩ := findRefreshToken_some ht
    exact ⟨hget, hhash, hf, hlive, by simpa using hrev⟩

end BookingPlatform
