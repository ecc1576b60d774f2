import BookingPlatform.Sessions
import Mathlib.Data.List.DropRight

/-!
# Access tokens

The half of `auth/tokens.ts` that verifies, `auth_middleware.ts`,
`require-role.ts` and `getCurrentUser`.  The middleware verifies the token it is
sent and then reads the user the token names; a request is served as what that
row says, not as what the token says.

## Main definitions

* `Jwt` — the library that signs and verifies.
* `verifyAccessToken`, `authMiddleware`, `requireRole` — the three guards of a route.

## Main results

* `verifyAccessToken_ok`, `authenticate_ok` — one specification for each half of
  the middleware.
* `verifyAccessToken_of_honours` — a signed token is good until its seconds are over.
* `getCurrentUser_of_authMiddleware` — the current user is the one let in.
-/

namespace BookingPlatform

/-! ### Verification -/

/-- The claims that the service reads, those of them that a token has. -/
structure PartialPayload where
  sub : Option Uuid
  tenantId : Option Uuid
  role : Option UserRole
  email : Option String
  deriving DecidableEq

/-- What `jwt.verify` returns. -/
inductive DecodedToken
  | text (s : String)
  | claims (c : PartialPayload)

/-- `jwt.verify` with the configured secret at a clock reading; `none` when it
throws. -/
structure Jwt where
  verify : String → Instant → Option DecodedToken

/-- A payload with all four claims. -/
def AccessTokenPayload.claims (payload : AccessTokenPayload) : PartialPayload :=
  ⟨some payload.sub, some payload.tenantId, some payload.role, some payload.email⟩

/-- What the library promises of a token it has signed: `iat` is the clock reading in
whole seconds, and the token is good for its seconds from then on. -/
def Jwt.Honours (jwt : Jwt) (token : String) (payload : AccessTokenPayload) (signedAt : Instant)
    (seconds : ℕ) : Prop :=
  ∀ now, jwt.verify token now =
    if now / 1000 < signedAt / 1000 + seconds then some (.claims payload.claims) else none

/-- The payload of a token that the library accepts and that has all claims. -/
def verifyAccessToken (jwt : Jwt) (token : String) (now : Instant) :
    Except Failure AccessTokenPayload :=
  match jwt.verify token now with
  | none => .error (.app (unauthorizedError "Invalid or expired access token"))
  | some (.text _) => .error (.app (unauthorizedError "Invalid access token"))
  | some (.claims ⟨some sub, some tenantId, some role, some email⟩) =>
    -- an empty string is missing too
    if email = "" then .error (.app (unauthorizedError "Invalid access token"))
    else .ok ⟨sub, tenantId, role, email⟩
  | some (.claims _) => .error (.app (unauthorizedError "Invalid access token"))

theorem verifyAccessToken_ok {jwt : Jwt} {token : String} {now : Instant}
    {payload : AccessTokenPayload} :
    verifyAccessToken jwt token now = .ok payload ↔
      jwt.verify token now = some (.claims payload.claims) ∧ payload.email ≠ "" := by
  unfold verifyAccessToken
  split
  · next h => simp [h]
  · next h => simp [h]
  · next sub tenantId role email h =>
    rw [h]
    by_cases hempty : email = ""
    · rw [if_pos hempty]
      simp only [reduceCtorEq, false_iff, Option.some.injEq, DecodedToken.claims.injEq, not_and]
      intro hclaims
      have hemail : some email = some payload.email := congrArg PartialPayload.email hclaims
      simpa [hempty] using hemail.symm
    · rw [if_neg hempty]
      cases payload
      simp only [Except.ok.injEq, AccessTokenPayload.mk.injEq, AccessTokenPayload.claims,
        Option.some.injEq, DecodedToken.claims.injEq, PartialPayload.mk.injEq]
      constructor
      · rintro ⟨rfl, rfl, rfl, rfl⟩
        exact ⟨⟨rfl, rfl, rfl, rfl⟩, hempty⟩
      · exact And.left
  · next c hno h =>
    rw [h]
    simp only [reduceCtorEq, false_iff, not_and]
    intro hclaims
    obtain rfl := DecodedToken.claims.inj (Option.some.inj hclaims)
    exact absurd rfl (hno _ _ _ _)

/-- What an access token of the user says. -/
def User.payload (user : User) : AccessTokenPayload :=
  ⟨user.id, user.tenantId, user.role, user.email⟩

/-- **A signed token is good until its seconds are over**, for whoever it names. -/
theorem verifyAccessToken_of_honours {jwt : Jwt} {token : String} {user : User}
    {signedAt now : Instant} {seconds : ℕ}
    (hjwt : jwt.Honours token user.payload signedAt seconds) {payload : AccessTokenPayload} :
    verifyAccessToken jwt token now = .ok payload ↔
      now / 1000 < signedAt / 1000 + seconds ∧ user.email ≠ "" ∧ payload = user.payload := by
  rw [verifyAccessToken_ok, hjwt now]
  by_cases hlive : now / 1000 < signedAt / 1000 + seconds
  · rw [if_pos hlive]
    cases payload
    simp only [AccessTokenPayload.claims, User.payload, Option.some.injEq,
      DecodedToken.claims.injEq, PartialPayload.mk.injEq, AccessTokenPayload.mk.injEq, hlive,
      true_and]
    constructor
    · rintro ⟨⟨rfl, rfl, rfl, rfl⟩, hemail⟩
      exact ⟨hemail, rfl, rfl, rfl, rfl⟩
    · rintro ⟨hemail, rfl, rfl, rfl, rfl⟩
      exact ⟨⟨rfl, rfl, rfl, rfl⟩, hemail⟩
  · simp [hlive]

/-! ### The middleware -/

/-- The user that the middleware hands on. -/
structure AuthenticatedUser where
  id : Uuid
  tenantId : Uuid
  email : String
  role : UserRole
  deriving DecidableEq

/-- What `String.prototype.trim` takes off both ends: white space and the ends of
lines. -/
def isTrimmed (c : Char) : Bool :=
  c.toNat ∈ [9, 10, 11, 12, 13, 32, 160, 5760, 8232, 8233, 8239, 8287, 12288, 65279] ∨
    (8192 ≤ c.toNat ∧ c.toNat ≤ 8202)

/-- `String.prototype.trim`. -/
def trim (s : List Char) : List Char := (s.dropWhile isTrimmed).rdropWhile isTrimmed

/-- The token of an `Authorization` header. -/
def bearerToken (header : Option String) : Except Failure String := do
  let header ← orThrow (header.filter fun h => "Bearer ".toList.isPrefixOf h.toList)
    (.app (unauthorizedError "Missing or invalid authorization header"))
  let token := trim (header.toList.drop "Bearer ".length)
  throwIf (token = []) (.app (unauthorizedError "Missing access token"))
  return String.ofList token

/-- A character that is printed in ASCII is not. -/
theorem isTrimmed_of_ascii {c : Char} (h : 32 < c.toNat) (h' : c.toNat < 127) :
    isTrimmed c = false := by
  simp only [isTrimmed, List.mem_cons, List.not_mem_nil, or_false, decide_eq_false_iff_not]
  omega

theorem trim_eq_self {s : List Char} (h : ∀ c ∈ s, isTrimmed c = false) : trim s = s := by
  have hleft : s.dropWhile isTrimmed = s := by
    cases s with
    | nil => rfl
    | cons c s => exact List.dropWhile_cons_of_neg (by simp [h c])
  have hright : s.rdropWhile isTrimmed = s := by
    rw [List.rdropWhile_eq_self_iff]
    intro hne
    simp [h _ (List.getLast_mem hne)]
  rw [trim, hleft, hright]

/-- A token without white space is read back from its header. -/
theorem bearerToken_append {token : String} (hne : token ≠ "")
    (h : ∀ c ∈ token.toList, isTrimmed c = false) :
    bearerToken (some ("Bearer " ++ token)) = .ok token := by
  have hprefix : "Bearer ".toList.isPrefixOf ("Bearer " ++ token).toList = true := by
    rw [List.isPrefixOf_iff_prefix, String.toList_append]
    exact List.prefix_append _ _
  have hdrop : ("Bearer " ++ token).toList.drop "Bearer ".length = token.toList := by
    rw [String.toList_append]
    exact List.drop_left' rfl
  have hlist : token.toList ≠ [] := by simpa using hne
  have hof : String.ofList token.toList = token := String.ofList_toList
  simp only [bearerToken, Option.filter_some, hprefix, if_true, Except.bind_eq_ok, orThrow_eq_ok,
    throwIf_eq_ok, Except.pure_eq_ok, Option.some.injEq]
  refine ⟨_, rfl, (), ?_, ?_⟩
  · rw [hdrop, trim_eq_self h]
    exact hlist
  · rw [hdrop, trim_eq_self h, hof]

/-- In particular one of visible ASCII characters. -/
theorem bearerToken_of_ascii {token : String} (hne : token ≠ "")
    (h : token.toList.all (fun c => 32 < c.toNat && c.toNat < 127) = true) :
    bearerToken (some ("Bearer " ++ token)) = .ok token := by
  refine bearerToken_append hne fun c hc => ?_
  have hvisible := List.all_eq_true.mp h c hc
  simp only [Bool.and_eq_true, decide_eq_true_eq] at hvisible
  exact isTrimmed_of_ascii hvisible.1 hvisible.2

/-- The user that a verified token names, if it is still as the token says. -/
def authenticate (payload : AccessTokenPayload) (db : Database) :
    Except Failure AuthenticatedUser := do
  let user ← orThrow (db.users.get? payload.sub)
    (.app (unauthorizedError "User not found or inactive"))
  throwIf (user.isActive = false) (.app (unauthorizedError "User not found or inactive"))
  throwIf (user.tenantId ≠ payload.tenantId ∨ user.role ≠ payload.role)
    (.app (unauthorizedError "Token no longer valid"))
  return ⟨user.id, user.tenantId, user.email, user.role⟩

/-- The middleware when nothing happens between its two halves. -/
def authMiddleware (jwt : Jwt) (header : Option String) (db : Database) (now : Instant) :
    Except Failure AuthenticatedUser := do
  let token ← bearerToken header
  let payload ← verifyAccessToken jwt token now
  authenticate payload db

/-- `requireRole(...allowed)` on an authenticated request. -/
def requireRole (allowed : List UserRole) (user : AuthenticatedUser) : Except Failure Unit :=
  throwIf (user.role ∉ allowed) (.app (forbiddenError "Insufficient permissions"))

/-- The user of `GET /me`. -/
def getCurrentUser (userId : Uuid) (db : Database) : Except Failure PublicUser := do
  let user ← orThrow (db.users.get? userId) (.app (unauthorizedError "User not found or inactive"))
  throwIf (user.isActive = false) (.app (unauthorizedError "User not found or inactive"))
  return toPublicUser user

/-- **Who a verified token lets in**: the row it names, as it is now. -/
theorem authenticate_ok {payload : AccessTokenPayload} {db : Database} {user : AuthenticatedUser} :
    authenticate payload db = .ok user ↔ ∃ row, db.users.get? payload.sub = some row ∧
      row.isActive = true ∧ row.tenantId = payload.tenantId ∧ row.role = payload.role ∧
      user = ⟨row.id, row.tenantId, row.email, row.role⟩ := by
  simp only [authenticate, Except.bind_eq_ok, orThrow_eq_ok, throwIf_eq_ok, Except.pure_eq_ok,
    not_or, not_not, Bool.not_eq_false]
  constructor
  · rintro ⟨row, hrow, -, hactive, -, ⟨htenant, hrole⟩, rfl⟩
    exact ⟨row, hrow, hactive, htenant, hrole, rfl⟩
  · rintro ⟨row, hrow, hactive, htenant, hrole, rfl⟩
    exact ⟨row, hrow, (), hactive, (), ⟨htenant, hrole⟩, rfl⟩

theorem authMiddleware_ok {jwt : Jwt} {header : Option String} {db : Database} {now : Instant}
    {user : AuthenticatedUser} :
    authMiddleware jwt header db now = .ok user ↔ ∃ token payload, bearerToken header = .ok token ∧
      verifyAccessToken jwt token now = .ok payload ∧ authenticate payload db = .ok user := by
  simp only [authMiddleware, Except.bind_eq_ok]
  constructor
  · rintro ⟨token, htoken, payload, hpayload, hauth⟩
    exact ⟨token, payload, htoken, hpayload, hauth⟩
  · rintro ⟨token, payload, htoken, hpayload, hauth⟩
    exact ⟨token, htoken, payload, hpayload, hauth⟩

/-- **The current user is the one that has been let in**, on one database. -/
theorem getCurrentUser_of_authMiddleware {jwt : Jwt} {header : Option String} {db : Database}
    {now : Instant} {user : AuthenticatedUser} (h : authMiddleware jwt header db now = .ok user) :
    getCurrentUser user.id db = .ok ⟨user.id, user.tenantId, user.email, user.role⟩ := by
  obtain ⟨token, payload, -, -, hauth⟩ := authMiddleware_ok.mp h
  obtain ⟨row, hrow, hactive, -, -, rfl⟩ := authenticate_ok.mp hauth
  have hget := Table.get?_key (Table.get?_eq_some.mp hrow).1
  simp only [getCurrentUser, Except.bind_eq_ok, orThrow_eq_ok, throwIf_eq_ok, Except.pure_eq_ok,
    Bool.not_eq_false]
  exact ⟨row, hget, (), hactive, rfl⟩

end BookingPlatform
