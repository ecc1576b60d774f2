import BookingPlatform.Auth
import BookingPlatform.Lib.TwoPhase

/-!
# Sessions

`login`, `refreshAccessToken` and `logout` as calls of one service, their steps
interleaved in any order.  A session is a family of refresh tokens; a refresh
revokes one token and replaces it by the next.

## Main definitions

* `AuthRequest`, `AuthCall`, `AuthResponse` — a call, what it has looked up, and its
  answer.
* `AuthStep` — the steps of the calls.
* `AuthChange`, `SessionsEvolve` — what a step and a run do to families and tokens.

## Main results

* `authChange_of_step` — everything a step can do to families and tokens.
* `sessionsEvolve_of_change` — no step takes a revocation or a replacement back.
-/

namespace BookingPlatform

open Runs TwoPhase

/-! ### The service -/

/-- A login, a refresh or a logout, with what the client sends. -/
inductive AuthRequest
  | login (tenantSlug email password : String)
  | refresh (refreshToken : String)
  | logout (refreshToken : String)
  deriving DecidableEq

/-- A call between its lookup and its transaction. -/
inductive AuthCall
  | login (call : LoginCall)
  | rotate (call : RotateCall)
  | revoke (family : RefreshTokenFamily)
  | logout (call : LogoutCall)
  deriving DecidableEq

/-- What a call returns when its transaction has committed. -/
inductive AuthResponse
  | session (tokens : AuthTokens) (user : PublicUser)
  | tokens (tokens : AuthTokens)
  | loggedOut
  | failed (e : Failure)
  deriving DecidableEq

/-- What a refresh has found: a token to rotate, or one used before. -/
def RefreshCall.toCall : RefreshCall → AuthCall
  | .rotate call => .rotate call
  | .reuse family => .revoke family

/-- The lookup of a request; `none` when it returns without a transaction. -/
def AuthRequest.lookup (crypto : Crypto) (req : AuthRequest) (db : Database) (now : Instant) :
    Except Failure (Option AuthCall) :=
  match req with
  | .login tenantSlug email password => do
    let call ← loginLookup crypto tenantSlug email password db
    return some (.login call)
  | .refresh refreshToken => do
    let call ← refreshLookup crypto refreshToken db now
    return some call.toCall
  | .logout refreshToken => do
    let call ← logoutLookup crypto refreshToken db
    return call.map AuthCall.logout

/-- The transaction of a call, and what the call returns after it. -/
def AuthCall.transaction (env : AuthEnv) (crypto : Crypto) (call : AuthCall) (g : AuthGenerated)
    (now : Instant) : Tx AuthResponse :=
  match call with
  | .login call => do
    let refreshToken ← loginTransaction env crypto call g now
    return .session ⟨signAccessToken env crypto call.user now, refreshToken,
      env.jwtAccessExpiresInSeconds⟩ (toPublicUser call.user)
  | .rotate call => do
    rotateTransaction env crypto call g now
    return .tokens (call.tokens env crypto g now)
  | .revoke family => do
    revokeFamily family.id
    return .failed (.app (unauthorizedError "Refresh token reuse detected"))
  | .logout call => do
    logoutTransaction call g now
    return .loggedOut

/-- Nothing drawn is in use: no row has the identifiers, and no stored digest is
that of the token. -/
def AuthGenerated.Fresh (crypto : Crypto) (g : AuthGenerated) (db : Database) : Prop :=
  db.refreshTokenFamilies.get? g.familyId = none ∧ db.refreshTokens.get? g.refreshTokenId = none ∧
    (∀ t ∈ db.refreshTokens, t.tokenHash ≠ hashToken crypto g.refreshToken) ∧
    ∀ a ∈ db.auditLogs, a.id ≠ g.auditLogId

/-- The authentication service. -/
def authService (env : AuthEnv) (crypto : Crypto) :
    Service Database AuthRequest AuthCall AuthGenerated Failure AuthResponse where
  lookup := AuthRequest.lookup crypto
  transaction := AuthCall.transaction env crypto
  fresh := AuthGenerated.Fresh crypto

/-- The calls on one database. -/
abbrev AuthState := TwoPhase.State Database AuthRequest AuthCall

/-- What a step does. -/
abbrev AuthEvent := TwoPhase.Event AuthRequest AuthCall AuthGenerated Failure AuthResponse

/-- The steps of the calls. -/
abbrev AuthStep (env : AuthEnv) (crypto : Crypto) : AuthState → AuthEvent → AuthState → Prop :=
  TwoPhase.Step (authService env crypto)

/-! ### What a call returns -/

/-- What a call returns when its transaction commits. -/
def AuthCall.response (env : AuthEnv) (crypto : Crypto) (call : AuthCall) (g : AuthGenerated)
    (now : Instant) : AuthResponse :=
  match call with
  | .login call => .session ⟨signAccessToken env crypto call.user now, g.refreshToken,
      env.jwtAccessExpiresInSeconds⟩ (toPublicUser call.user)
  | .rotate call => .tokens (call.tokens env crypto g now)
  | .revoke _ => .failed (.app (unauthorizedError "Refresh token reuse detected"))
  | .logout _ => .loggedOut

theorem transaction_response {env : AuthEnv} {crypto : Crypto} {call : AuthCall}
    {g : AuthGenerated} {now : Instant} {db db' : Database} {out : AuthResponse}
    (h : (call.transaction env crypto g now).run db = .ok (out, db')) :
    out = call.response env crypto g now := by
  cases call with
  | login call =>
    simp only [AuthCall.transaction, Transaction.bind_ok, Transaction.pure_ok,
      loginTransaction_ok] at h
    obtain ⟨_, _, ⟨_, _, rfl, -⟩, rfl, -⟩ := h
    rfl
  | rotate | revoke | logout =>
    simp only [AuthCall.transaction, Transaction.bind_ok, Transaction.pure_ok] at h
    obtain ⟨_, _, -, rfl, -⟩ := h
    rfl

/-- The call that a step ends, and its request. -/
def ended? : AuthEvent → Option (ℕ × AuthRequest)
  | .answered c req => some (c, req)
  | .committed c req _ _ _ => some (c, req)
  | .rolledBack c req _ _ _ => some (c, req)
  | _ => none

/-- What the call that a step ends returns: the refusal of its lookup, or what its
transaction comes to. A logout of an unknown token needs no transaction. -/
def response? (crypto : Crypto) (x : Transition AuthState AuthEvent) : Option AuthResponse :=
  match x.event with
  | .answered _ req =>
    match req.lookup crypto x.pre.store x.pre.now with
    | .error e => some (.failed e)
    | .ok _ => some .loggedOut
  | .committed _ _ _ _ out => some out
  | .rolledBack _ _ _ _ e => some (.failed e)
  | _ => none

/-! ### How families and tokens evolve -/

/-- A later version of a token row: only `revoked` and `replacedById` change, and
neither is taken back. -/
structure RefreshToken.Follows (t t' : RefreshToken) : Prop where
  columns : t' = { t with revoked := t'.revoked, replacedById := t'.replacedById }
  revoked : t.revoked = true → t'.revoked = true
  replaced : t.replacedById ≠ none → t'.replacedById ≠ none

/-- A later version of a family row. -/
structure RefreshTokenFamily.Follows (f f' : RefreshTokenFamily) : Prop where
  columns : f' = { f with revoked := f'.revoked }
  revoked : f.revoked = true → f'.revoked = true

/-- What a later database keeps of an earlier one's sessions. -/
structure SessionsEvolve (db db' : Database) : Prop where
  token : ∀ id t, db.refreshTokens.get? id = some t →
    ∃ t', db'.refreshTokens.get? id = some t' ∧ t.Follows t'
  family : ∀ id f, db.refreshTokenFamilies.get? id = some f →
    ∃ f', db'.refreshTokenFamilies.get? id = some f' ∧ f.Follows f'

theorem RefreshToken.Follows.refl (t : RefreshToken) : t.Follows t :=
  ⟨rfl, fun h => h, fun h => h⟩

theorem RefreshTokenFamily.Follows.refl (f : RefreshTokenFamily) : f.Follows f :=
  ⟨rfl, fun h => h⟩

theorem RefreshToken.Follows.trans {t t' t'' : RefreshToken} (h : t.Follows t')
    (h' : t'.Follows t'') : t.Follows t'' where
  columns := by rw [h'.columns, h.columns]
  revoked := fun hr => h'.revoked (h.revoked hr)
  replaced := fun hr => h'.replaced (h.replaced hr)

theorem RefreshTokenFamily.Follows.trans {f f' f'' : RefreshTokenFamily} (h : f.Follows f')
    (h' : f'.Follows f'') : f.Follows f'' where
  columns := by rw [h'.columns, h.columns]
  revoked := fun hr => h'.revoked (h.revoked hr)

theorem RefreshToken.Follows.familyId_eq {t t' : RefreshToken} (h : t.Follows t') :
    t'.familyId = t.familyId := by rw [h.columns]

theorem RefreshToken.Follows.tokenHash_eq {t t' : RefreshToken} (h : t.Follows t') :
    t'.tokenHash = t.tokenHash := by rw [h.columns]

theorem RefreshToken.follows_revoke (t : RefreshToken) : t.Follows t.revoke :=
  ⟨rfl, fun _ => rfl, fun h => h⟩

theorem RefreshToken.follows_replaceBy (t : RefreshToken) (id : Uuid) :
    t.Follows (t.replaceBy id) :=
  ⟨rfl, fun _ => rfl, fun _ => by simp [RefreshToken.replaceBy]⟩

theorem SessionsEvolve.refl (db : Database) : SessionsEvolve db db where
  token := fun _ t ht => ⟨t, ht, .refl t⟩
  family := fun _ f hf => ⟨f, hf, .refl f⟩

theorem SessionsEvolve.trans {db db' db'' : Database} (h : SessionsEvolve db db')
    (h' : SessionsEvolve db' db'') : SessionsEvolve db db'' where
  token := by
    intro id t ht
    obtain ⟨t', ht', hfol⟩ := h.token id t ht
    obtain ⟨t'', ht'', hfol'⟩ := h'.token id t' ht'
    exact ⟨t'', ht'', hfol.trans hfol'⟩
  family := by
    intro id f hf
    obtain ⟨f', hf', hfol⟩ := h.family id f hf
    obtain ⟨f'', hf'', hfol'⟩ := h'.family id f' hf'
    exact ⟨f'', hf'', hfol.trans hfol'⟩

/-! ### What a step does -/

/-- The token row that a step exchanges for a new one. -/
def exchanged? : AuthEvent → Option Uuid
  | .committed _ _ (.rotate call) _ _ => some call.storedToken.id
  | _ => none

/-- The refresh token that a call presented and a step exchanges. -/
def exchangedToken? : AuthEvent → Option String
  | .committed _ (.refresh refreshToken) (.rotate _) _ _ => some refreshToken
  | _ => none

/-- **A step exchanges a token exactly when its call returns tokens.** -/
theorem exchanged_iff_response {env : AuthEnv} {crypto : Crypto} {s t : AuthState} {e : AuthEvent}
    (h : AuthStep env crypto s e t) :
    (∃ id, exchanged? e = some id) ↔
      ∃ tokens, response? crypto ⟨s, e, t⟩ = some (.tokens tokens) := by
  cases h with
  | tick | lookup | rollback => simp [exchanged?, response?]
  | answer =>
    simp only [exchanged?, response?]
    split <;> simp
  | @commit c req call g out store hc hfresh hrun =>
    have hout := transaction_response hrun
    cases call <;> simp [exchanged?, response?, hout, AuthCall.response]

/-- **Everything a step can do to families and tokens.** -/
inductive AuthChange (env : AuthEnv) (crypto : Crypto) :
    AuthEvent → Instant → Database → Database → Prop
  | quiet {e : AuthEvent} {now : Instant} {db db' : Database} :
      exchanged? e = none → db'.refreshTokenFamilies = db.refreshTokenFamilies →
      db'.refreshTokens = db.refreshTokens → AuthChange env crypto e now db db'
  | login {e : AuthEvent} {now : Instant} {db db' : Database} {g : AuthGenerated}
      {family : RefreshTokenFamily} (hf : db.refreshTokenFamilies.get? (Keyed.key family) = none)
      (ht : db.refreshTokens.get? (Keyed.key (LoginCall.firstToken env crypto g now)) = none) :
      exchanged? e = none → family.id = g.familyId → g.Fresh crypto db →
      db'.refreshTokenFamilies = db.refreshTokenFamilies.insert family hf →
      db'.refreshTokens = db.refreshTokens.insert (LoginCall.firstToken env crypto g now) ht →
      AuthChange env crypto e now db db'
  | rotate {c : ℕ} {req : AuthRequest} {call : RotateCall} {g : AuthGenerated}
      {out : AuthResponse} {now : Instant} {db db' : Database} {token : RefreshToken}
      {family : RefreshTokenFamily}
      (ht : db.refreshTokens.get? (Keyed.key (call.replacement env crypto g now)) = none) :
      db.refreshTokens.get? call.storedToken.id = some token →
      db.refreshTokenFamilies.get? token.familyId = some family →
      call.family.id = token.familyId → g.Fresh crypto db →
      db'.refreshTokenFamilies = db.refreshTokenFamilies →
      db'.refreshTokens = (db.refreshTokens.insert (call.replacement env crypto g now) ht).put
        (token.replaceBy g.refreshTokenId) →
      AuthChange env crypto (.committed c req (.rotate call) g out) now db db'
  | revoke {e : AuthEvent} {now : Instant} {db db' : Database} {familyId : Uuid}
      {family : RefreshTokenFamily} :
      exchanged? e = none → db.refreshTokenFamilies.get? familyId = some family →
      db'.refreshTokenFamilies = db.refreshTokenFamilies.put family.revoke →
      db'.refreshTokens = db.refreshTokens.updateMany (fun t => t.familyId = familyId)
        RefreshToken.revoke RefreshToken.key_revoke →
      AuthChange env crypto e now db db'

/-- Reading the token table after a rotation. -/
theorem get?_rotated {ts : Table RefreshToken} {new token : RefreshToken} {id : Uuid}
    (h : ts.get? (Keyed.key new) = none) (ht : ts.get? token.id = some token) (k : Uuid) :
    ((ts.insert new h).put (token.replaceBy id)).get? k =
      if k = token.id then some (token.replaceBy id)
      else if k = new.id then some new else ts.get? k := by
  have hold : (ts.insert new h).get? (Keyed.key (token.replaceBy id)) = some token :=
    Table.get?_insert_of_some h ht
  rw [Table.get?_put hold, Table.get?_insert]
  rfl

/-- **Every step lets the sessions evolve.** -/
theorem sessionsEvolve_of_change {env : AuthEnv} {crypto : Crypto} {e : AuthEvent} {now : Instant}
    {db db' : Database} (h : AuthChange env crypto e now db db') : SessionsEvolve db db' := by
  cases h with
  | quiet _ hf ht =>
    constructor
    · intro id t hget
      rw [ht]
      exact ⟨t, hget, .refl t⟩
    · intro id f hget
      rw [hf]
      exact ⟨f, hget, .refl f⟩
  | login hfree tfree _ _ _ hf ht =>
    constructor
    · intro id t hget
      rw [ht]
      exact ⟨t, Table.get?_insert_of_some tfree hget, .refl t⟩
    · intro id f hget
      rw [hf]
      exact ⟨f, Table.get?_insert_of_some hfree hget, .refl f⟩
  | @rotate c req call g out _ _ _ token family tfree htoken hfamily _ _ hf ht =>
    have hid : token.id = call.storedToken.id := (Table.get?_eq_some.mp htoken).2
    rw [← hid] at htoken
    constructor
    · intro id t hget
      rw [ht, get?_rotated tfree htoken]
      by_cases hk : id = token.id
      · rw [hk, htoken] at hget
        obtain rfl := Option.some.inj hget
        rw [if_pos hk]
        exact ⟨_, rfl, token.follows_replaceBy _⟩
      · rw [if_neg hk, if_neg, hget]
        · exact ⟨t, rfl, .refl t⟩
        · intro hnew
          rw [hnew] at hget
          exact Option.some_ne_none _ (hget.symm.trans tfree)
    · intro id f hget
      rw [hf]
      exact ⟨f, hget, .refl f⟩
  | @revoke _ _ _ _ familyId family _ hfamily hf ht =>
    constructor
    · intro id t hget
      rw [ht, Table.get?_updateMany, hget]
      refine ⟨_, rfl, ?_⟩
      show t.Follows (if decide (t.familyId = familyId) = true then t.revoke else t)
      split
      · exact t.follows_revoke
      · exact .refl t
    · intro id f hget
      have hid : family.id = familyId := (Table.get?_eq_some.mp hfamily).2
      rw [hf, Table.get?_put (o := family) (by rw [key_family]; exact hid ▸ hfamily)]
      split
      · next hk =>
        rw [show id = familyId from hk.trans hid, hfamily] at hget
        obtain rfl := Option.some.inj hget
        exact ⟨_, rfl, rfl, fun _ => rfl⟩
      · exact ⟨f, hget, .refl f⟩

/-- What a waiting rotation read. -/
theorem lookup_rotate {crypto : Crypto} {req : AuthRequest} {db : Database} {now : Instant}
    {call : RotateCall} (h : req.lookup crypto db now = .ok (some (.rotate call))) :
    db.refreshTokens.get? call.storedToken.id = some call.storedToken ∧
      db.refreshTokenFamilies.get? call.storedToken.familyId = some call.family ∧
      ∃ refreshToken, req = .refresh refreshToken ∧
        call.storedToken.tokenHash = hashToken crypto refreshToken := by
  cases req with
  | login =>
    simp only [AuthRequest.lookup, Except.bind_eq_ok, Except.pure_eq_ok] at h
    obtain ⟨_, -, hcall⟩ := h
    cases hcall
  | refresh refreshToken =>
    simp only [AuthRequest.lookup, Except.bind_eq_ok, Except.pure_eq_ok, Option.some.injEq] at h
    obtain ⟨found, hfound, hcall⟩ := h
    cases found with
    | reuse => cases hcall
    | rotate call' =>
      obtain rfl := AuthCall.rotate.inj hcall
      obtain ⟨ht, hhash, hf, -, -⟩ := refreshLookup_rotate hfound
      exact ⟨ht, hf, refreshToken, rfl, hhash⟩
  | logout =>
    simp only [AuthRequest.lookup, Except.bind_eq_ok, Except.pure_eq_ok] at h
    obtain ⟨found, -, hcall⟩ := h
    cases found <;> cases hcall

/-- **Everything a step can do to families and tokens.** -/
theorem authChange_of_step {env : AuthEnv} {crypto : Crypto} {s t : AuthState} {e : AuthEvent}
    (h : AuthStep env crypto s e t)
    (hco : TwoPhase.Coherent (authService env crypto) SessionsEvolve s) :
    AuthChange env crypto e s.now s.store t.store := by
  cases h with
  | tick => exact .quiet rfl rfl rfl
  | lookup => exact .quiet rfl rfl rfl
  | answer => exact .quiet rfl rfl rfl
  | rollback => exact .quiet rfl rfl rfl
  | @commit c req call g out store hc hfresh hrun =>
    change (AuthCall.transaction env crypto call g s.now).run s.store = _ at hrun
    cases call with
    | login call =>
      simp only [AuthCall.transaction, Transaction.bind_ok, Transaction.pure_ok,
        loginTransaction_ok] at hrun
      obtain ⟨_, _, ⟨hf, ht, -, rfl⟩, -, rfl⟩ := hrun
      exact .login hf ht rfl rfl hfresh rfl rfl
    | rotate call =>
      simp only [AuthCall.transaction, Transaction.bind_ok, Transaction.pure_ok,
        rotateTransaction_ok] at hrun
      obtain ⟨_, _, ⟨hfree, token, htoken, rfl⟩, -, rfl⟩ := hrun
      -- the rows the lookup read are still there
      obtain ⟨db₀, now₀, hlook, hev⟩ := hco c _ _ hc
      obtain ⟨ht₀, hf₀, -⟩ := lookup_rotate hlook
      obtain ⟨token', ht', hfol⟩ := hev.token _ _ ht₀
      obtain ⟨family, hf, -⟩ := hev.family _ _ hf₀
      obtain rfl := Option.some.inj ((Table.get?_insert_of_some hfree ht').symm.trans htoken)
      have hfamily : call.family.id = token'.familyId := by
        rw [hfol.familyId_eq]
        exact (Table.get?_eq_some.mp hf₀).2
      rw [← hfol.familyId_eq] at hf
      exact .rotate hfree ht' hf hfamily hfresh rfl rfl
    | revoke family =>
      simp only [AuthCall.transaction, Transaction.bind_ok, Transaction.pure_ok,
        revokeFamily_ok] at hrun
      obtain ⟨_, _, ⟨f, hf, rfl⟩, -, rfl⟩ := hrun
      exact .revoke rfl hf rfl rfl
    | logout call =>
      simp only [AuthCall.transaction, Transaction.bind_ok, Transaction.pure_ok,
        logoutTransaction_ok] at hrun
      obtain ⟨_, _, ⟨f, hf, rfl⟩, -, rfl⟩ := hrun
      exact .revoke rfl hf rfl rfl

end BookingPlatform
