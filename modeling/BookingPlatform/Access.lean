import BookingPlatform.AccessTokens
import BookingPlatform.Revocation

/-!
# Sessions and the requests they let in

The authentication service beside the requests that carry its access tokens.  A
request is verified at one step and its user read at a later one; in between the
session may end, and the table of users may change.  A logout does not reach the
access tokens of the session: they stay good until their seconds are over.

## Main definitions

* `AccessState`, `AccessStep` — sessions and requests, and their steps.
* `IssuedInRun` — a token was issued in a run to the user that a request names.
* `HonoursIssued`, `Unforged` — what the token library promises.

## Main results

* `issued_spec` — who a token is issued for, and when.
* `admitted_from_session` — where a request that is let in comes from.
* `access_after_revocation` — how long a revoked session still lets in.
-/

namespace BookingPlatform

open Runs TwoPhase

/-! ### The system -/

/-- Where a request stands with its middleware. -/
inductive RequestPhase
  | notStarted
  | verified (token : String) (payload : AccessTokenPayload)
  | admitted (user : AuthenticatedUser)
  | refused

/-- The authentication service, and the requests by their number. -/
structure AccessState where
  auth : AuthState
  requests : ℕ → RequestPhase

/-- Nothing has started. -/
structure AccessState.Idle (s : AccessState) : Prop where
  auth : s.auth.Idle
  requests : ∀ n, s.requests n = .notStarted

/-- What happens: a step of the sessions, a write to the other tables, a token verified, a
request let in or refused. -/
inductive AccessEvent
  | auth (e : AuthEvent)
  | others
  | verified (n : ℕ) (token : String)
  | admitted (n : ℕ) (token : String) (user : AuthenticatedUser)
  | refused (n : ℕ)

/-- The database is replaced. -/
def AccessState.withStore (s : AccessState) (db : Database) : AccessState :=
  { s with auth := { s.auth with store := db } }

/-- A request enters a phase. -/
def AccessState.request (s : AccessState) (n : ℕ) (phase : RequestPhase) : AccessState :=
  { s with requests := Function.update s.requests n phase }

/-- One step of the service, of a request, or of whoever writes the other tables. -/
inductive AccessStep (env : AuthEnv) (crypto : Crypto) (jwt : Jwt) :
    AccessState → AccessEvent → AccessState → Prop
  | auth {s : AccessState} {e : AuthEvent} {t : AuthState} :
      AuthStep env crypto s.auth e t → AccessStep env crypto jwt s (.auth e) { s with auth := t }
  -- the users too: no service writes them, they are administered from outside
  | others {s : AccessState} {db : Database} :
      db.refreshTokens = s.auth.store.refreshTokens →
      db.refreshTokenFamilies = s.auth.store.refreshTokenFamilies →
      AccessStep env crypto jwt s .others (s.withStore db)
  | verify {s : AccessState} {n : ℕ} {header : Option String} {token : String}
      {payload : AccessTokenPayload} :
      s.requests n = .notStarted → bearerToken header = .ok token →
      verifyAccessToken jwt token s.auth.now = .ok payload →
      AccessStep env crypto jwt s (.verified n token) (s.request n (.verified token payload))
  | refuse {s : AccessState} {n : ℕ} {header : Option String} :
      s.requests n = .notStarted →
      (∀ token payload, bearerToken header = .ok token →
        verifyAccessToken jwt token s.auth.now ≠ .ok payload) →
      AccessStep env crypto jwt s (.refused n) (s.request n .refused)
  | letIn {s : AccessState} {n : ℕ} {token : String} {payload : AccessTokenPayload}
      {user : AuthenticatedUser} :
      s.requests n = .verified token payload → authenticate payload s.auth.store = .ok user →
      AccessStep env crypto jwt s (.admitted n token user) (s.request n (.admitted user))
  | reject {s : AccessState} {n : ℕ} {token : String} {payload : AccessTokenPayload} :
      s.requests n = .verified token payload →
      (∀ user, authenticate payload s.auth.store ≠ .ok user) →
      AccessStep env crypto jwt s (.refused n) (s.request n .refused)

/-! ### What is issued -/

/-- The access token that an answer carries. -/
def AuthResponse.accessToken? : AuthResponse → Option String
  | .session issued _ => some issued.accessToken
  | .tokens issued => some issued.accessToken
  | _ => none

/-- The user that a call has read and signs for. -/
def AuthCall.user? : AuthCall → Option User
  | .login call => some call.user
  | .rotate call => some call.user
  | _ => none

/-- The access token that a step issues, and the user whom it is signed for. -/
def AccessEvent.issued? : AccessEvent → Option (String × User)
  | .auth (.committed _ _ call _ out) =>
    out.accessToken?.bind fun token => call.user?.map fun user => (token, user)
  | _ => none

/-- The session that a step issues tokens for. -/
def AccessEvent.session? : AccessEvent → Option Uuid
  | .auth (.committed _ _ (.login _) g _) => some g.familyId
  | .auth (.committed _ _ (.rotate call) _ _) => some call.family.id
  | _ => none

/-- The tokens that a run issues are as the library promises. -/
def HonoursIssued (env : AuthEnv) (jwt : Jwt) (tr : List (Transition AccessState AccessEvent)) :
    Prop :=
  ∀ y ∈ tr, ∀ token user, y.event.issued? = some (token, user) →
    jwt.Honours token user.payload y.pre.auth.now env.jwtAccessExpiresInSeconds

/-- A token that verifies was issued before: nobody else can sign one. -/
def Unforged (tr : List (Transition AccessState AccessEvent)) : Prop :=
  ∀ l x l' n token, tr = l ++ x :: l' → x.event = .verified n token →
    ∃ y ∈ l, ∃ user, y.event.issued? = some (token, user)

/-- A rotation has found the user of its family active. -/
theorem user_of_rotation {crypto : Crypto} {refreshToken : String} {db : Database} {now : Instant}
    {call : RotateCall} (h : refreshLookup crypto refreshToken db now = .ok (.rotate call)) :
    db.users.get? call.family.userId = some call.user ∧ call.user.isActive = true := by
  simp only [refreshLookup, Except.bind_eq_ok, orThrow_eq_ok, required_eq_ok, throwIf_eq_ok] at h
  obtain ⟨-, -, stored, -, family, -, user, hu, -, -, hrest⟩ := h
  by_cases hrev : stored.revoked = true
  · rw [if_pos hrev, Except.pure_eq_ok] at hrest
    cases hrest
  · rw [if_neg hrev] at hrest
    simp only [Except.bind_eq_ok, throwIf_eq_ok, Except.pure_eq_ok, Bool.not_eq_false] at hrest
    obtain ⟨-, -, -, hactive, hcall⟩ := hrest
    obtain rfl := RefreshCall.rotate.inj hcall
    exact ⟨hu, hactive⟩

/-- The rotation that a refresh goes on with. -/
theorem rotation_of_lookup {crypto : Crypto} {req : AuthRequest} {db : Database} {now : Instant}
    {call : RotateCall} (h : req.lookup crypto db now = .ok (some (.rotate call))) :
    ∃ refreshToken, refreshLookup crypto refreshToken db now = .ok (.rotate call) := by
  cases req with
  | refresh refreshToken =>
    obtain ⟨found, hfound, hcall⟩ := lookup_refresh.mp h
    cases found with
    | reuse => cases hcall
    | rotate call' =>
      obtain rfl := AuthCall.rotate.inj hcall
      exact ⟨refreshToken, hfound⟩
  | login =>
    simp only [AuthRequest.lookup, Except.bind_eq_ok, Except.pure_eq_ok] at h
    obtain ⟨_, -, hcall⟩ := h
    cases hcall
  | logout =>
    simp only [AuthRequest.lookup, Except.bind_eq_ok, Except.pure_eq_ok] at h
    obtain ⟨found, -, hcall⟩ := h
    cases found <;> cases hcall

/-- A lookup that goes on to issue a token has found its user active. -/
theorem user_of_lookup {crypto : Crypto} {req : AuthRequest} {db : Database} {now : Instant}
    {call : AuthCall} (h : req.lookup crypto db now = .ok (some call)) {user : User}
    (hcall : call.user? = some user) :
    db.users.get? user.id = some user ∧ user.isActive = true := by
  cases call with
  | revoke | logout => cases hcall
  | rotate call =>
    obtain rfl := Option.some.inj hcall
    obtain ⟨refreshToken, hfound⟩ := rotation_of_lookup h
    obtain ⟨hu, hactive⟩ := user_of_rotation hfound
    rw [show call.user.id = call.family.userId from (Table.get?_eq_some.mp hu).2]
    exact ⟨hu, hactive⟩
  | login call =>
    obtain rfl := Option.some.inj hcall
    cases req with
    | login tenantSlug email password =>
      simp only [AuthRequest.lookup, loginLookup, Except.bind_eq_ok, orThrow_eq_ok, throwIf_eq_ok,
        Except.pure_eq_ok, Bool.not_eq_false] at h
      obtain ⟨_, ⟨tenant, -, user', hu, -, hactive, -, -, rfl⟩, heq⟩ := h
      obtain rfl := AuthCall.login.inj (Option.some.inj heq)
      exact ⟨Table.get?_key (Table.mem_of_findFirst hu).1, hactive⟩
    | refresh refreshToken =>
      obtain ⟨found, -, heq⟩ := lookup_refresh.mp h
      cases found <;> cases heq
    | logout refreshToken =>
      simp only [AuthRequest.lookup, Except.bind_eq_ok, Except.pure_eq_ok] at h
      obtain ⟨found, -, heq⟩ := h
      cases found <;> cases heq

section Run

variable {env : AuthEnv} {crypto : Crypto} {jwt : Jwt} {s m t : AccessState}
  {tr tr' : List (Transition AccessState AccessEvent)}

/-- **Who a token is issued for**: a call that waits to commit, for the user that it
has read. -/
theorem issued_spec {e : AccessEvent} (h : AccessStep env crypto jwt s e t) {token : String}
    {user : User} (he : e.issued? = some (token, user)) :
    ∃ c req call g out, e = .auth (.committed c req call g out) ∧ call.user? = some user ∧
      s.auth.calls c = .waiting req call ∧
      token = signAccessToken env crypto user s.auth.now := by
  unfold AccessEvent.issued? at he
  split at he
  · next c req call g out =>
    obtain ⟨token', htoken, huser⟩ := Option.bind_eq_some_iff.mp he
    obtain ⟨user', huser', heq⟩ := Option.map_eq_some_iff.mp huser
    obtain ⟨rfl, rfl⟩ := Prod.mk.inj heq
    refine ⟨c, req, call, g, out, rfl, huser', ?_⟩
    cases h with
    | @auth e t hstep =>
      cases hstep with
      | commit hc hfresh hrun =>
        refine ⟨hc, ?_⟩
        rw [transaction_response hrun] at htoken
        cases call with
        | login | rotate =>
          obtain rfl := Option.some.inj huser'
          exact (Option.some.inj htoken).symm
        | revoke | logout => cases huser'
  · cases he

/-- **A step is of a session exactly when its call returns an access token.** -/
theorem session_iff_issued {e : AccessEvent} (h : AccessStep env crypto jwt s e t) :
    (∃ familyId, e.session? = some familyId) ↔ ∃ token user, e.issued? = some (token, user) := by
  cases h with
  | others | verify | refuse | letIn | reject => simp [AccessEvent.session?, AccessEvent.issued?]
  | auth hstep =>
    cases hstep with
    | tick | lookup | answer | rollback => simp [AccessEvent.session?, AccessEvent.issued?]
    | @commit c req call g out store hc hfresh hrun =>
      have hout := transaction_response hrun
      cases call <;> simp [AccessEvent.session?, AccessEvent.issued?, hout, AuthCall.response,
        AuthResponse.accessToken?, AuthCall.user?]

/-- Where a waiting call comes from, over one step. -/
theorem waiting_of_accessStep {e : AccessEvent} (h : AccessStep env crypto jwt s e t) {c : ℕ}
    {req : AuthRequest} {call : AuthCall} (hc : t.auth.calls c = .waiting req call) :
    s.auth.calls c = .waiting req call ∨ (e = .auth (.lookedUp c req call) ∧
      req.lookup crypto s.auth.store s.auth.now = .ok (some call)) := by
  cases h with
  | auth hstep =>
    rcases TwoPhase.waiting_of_step hstep hc with hwas | ⟨he, hlook⟩
    · exact Or.inl hwas
    · exact Or.inr ⟨congrArg AccessEvent.auth he, hlook⟩
  | others | verify | refuse | letIn | reject => exact Or.inl hc

/-- A call that waits at the end of a run and not at its start was looked up on the
way. -/
theorem lookup_of_access (hrun : Run (AccessStep env crypto jwt) s tr t) {c : ℕ}
    {req : AuthRequest} {call : AuthCall} (hs : s.auth.calls c ≠ .waiting req call)
    (hc : t.auth.calls c = .waiting req call) :
    ∃ l x l', tr = l ++ x :: l' ∧ x.event = .auth (.lookedUp c req call) ∧
      req.lookup crypto x.pre.auth.store x.pre.auth.now = .ok (some call) := by
  obtain ⟨l, x, l', rfl, hpre, hpost⟩ :=
    hrun.origin (P := fun s => s.auth.calls c = .waiting req call) hs hc
  rcases waiting_of_accessStep hrun.cut.2.1 hpost with hwas | ⟨he, hlook⟩
  · exact absurd hwas hpre
  · exact ⟨l, x, l', rfl, he, hlook⟩

/-- A request that waits for its user has been verified. -/
theorem verified_of_access (hrun : Run (AccessStep env crypto jwt) s tr t) {n : ℕ}
    {token : String} {payload : AccessTokenPayload}
    (hs : s.requests n ≠ .verified token payload)
    (hn : t.requests n = .verified token payload) :
    ∃ l x l', tr = l ++ x :: l' ∧ x.event = .verified n token ∧
      verifyAccessToken jwt token x.pre.auth.now = .ok payload := by
  obtain ⟨l, x, l', rfl, hpre, hpost⟩ :=
    hrun.origin (P := fun s => s.requests n = .verified token payload) hs hn
  refine ⟨l, x, l', rfl, ?_⟩
  obtain ⟨pre, event, post⟩ := x
  replace hpre : pre.requests n ≠ .verified token payload := hpre
  replace hpost : post.requests n = .verified token payload := hpost
  have hstep : AccessStep env crypto jwt pre event post := hrun.cut.2.1
  cases hstep with
  | auth | others => exact absurd hpost hpre
  | verify hfree hheader hverify =>
    rcases update_eq hpost with ⟨rfl, hphase⟩ | hwas
    · obtain ⟨rfl, rfl⟩ := RequestPhase.verified.inj hphase
      exact ⟨rfl, hverify⟩
    · exact absurd hwas hpre
  | refuse | letIn | reject =>
    rcases update_eq hpost with ⟨-, hphase⟩ | hwas
    · cases hphase
    · exact absurd hwas hpre

theorem HonoursIssued.before {l l' : List (Transition AccessState AccessEvent)}
    (h : HonoursIssued env jwt (l ++ l')) : HonoursIssued env jwt l :=
  fun y hy => h y (List.mem_append_left l' hy)

theorem Unforged.before {l l' : List (Transition AccessState AccessEvent)}
    (h : Unforged (l ++ l')) : Unforged l := by
  intro l₁ x l₂ n token hl hx
  exact h l₁ x (l₂ ++ l') n token (by simp [hl]) hx

/-- The token that a request has verified was issued in the run, by a login or a
rotation that had found the user active, and verified before its seconds were over. -/
def IssuedInRun (env : AuthEnv) (tr : List (Transition AccessState AccessEvent)) (n : ℕ)
    (token : String) (found : User) : Prop :=
  ∃ l₀ w l₁ y l₂ x l₃ c req call g out,
    tr = l₀ ++ w :: (l₁ ++ y :: (l₂ ++ x :: l₃)) ∧ w.event = .auth (.lookedUp c req call) ∧
    y.event = .auth (.committed c req call g out) ∧ x.event = .verified n token ∧
    out.accessToken? = some token ∧ call.user? = some found ∧
    w.pre.auth.store.users.get? found.id = some found ∧ found.isActive = true ∧
    x.pre.auth.now / 1000 < y.pre.auth.now / 1000 + (env.jwtAccessExpiresInSeconds : ℤ)

theorem IssuedInRun.append {l l' : List (Transition AccessState AccessEvent)} {n : ℕ}
    {token : String} {found : User} (h : IssuedInRun env l n token found) :
    IssuedInRun env (l ++ l') n token found := by
  obtain ⟨l₀, w, l₁, y, l₂, x, l₃, c, req, call, g, out, rfl, hrest⟩ := h
  exact ⟨l₀, w, l₁, y, l₂, x, l₃ ++ l', c, req, call, g, out, by simp, hrest⟩

/-- **Where a verified token comes from.** -/
theorem issuedInRun_of_verified (hrun : Run (AccessStep env crypto jwt) s tr t) (hidle : s.Idle)
    (hjwt : HonoursIssued env jwt tr) (hunforged : Unforged tr) {n : ℕ} {token : String}
    {payload : AccessTokenPayload} (hn : t.requests n = .verified token payload) :
    ∃ found, IssuedInRun env tr n token found ∧ payload = found.payload := by
  obtain ⟨lx, x, l₃, rfl, hx, hverify⟩ := verified_of_access hrun (by simp [hidle.requests n]) hn
  obtain ⟨y, hy, found, hissued⟩ := hunforged lx x l₃ n token rfl hx
  obtain ⟨hlive, -, rfl⟩ := (verifyAccessToken_of_honours
    (hjwt y (List.mem_append_left _ hy) token found hissued)).mp hverify
  obtain ⟨ly, l₂, rfl⟩ := List.append_of_mem hy
  obtain ⟨hupto, -, -⟩ := hrun.cut
  obtain ⟨hissuing, hystep, -⟩ := hupto.cut
  obtain ⟨c, req, call, g, out, hyevent, hfound, hwaiting, -⟩ := issued_spec hystep hissued
  obtain ⟨l₀, w, l₁, rfl, hw, hlook⟩ :=
    lookup_of_access hissuing (by simp [hidle.auth c]) hwaiting
  obtain ⟨hrow, hactive⟩ := user_of_lookup hlook hfound
  have htoken : out.accessToken? = some token := by
    rw [hyevent] at hissued
    obtain ⟨token', htoken, hrest⟩ := Option.bind_eq_some_iff.mp hissued
    obtain ⟨_, -, heq⟩ := Option.map_eq_some_iff.mp hrest
    rw [htoken, (Prod.mk.inj heq).1]
  exact ⟨found, ⟨l₀, w, l₁, y, l₂, x, l₃, c, req, call, g, out, by simp, hw, hyevent, hx,
    htoken, hfound, hrow, hactive, hlive⟩, rfl⟩

/-- A request that has been let in was verified first, and its user was read then. -/
theorem admission_of_access (hrun : Run (AccessStep env crypto jwt) s tr t) {n : ℕ}
    {user : AuthenticatedUser} (hs : s.requests n ≠ .admitted user)
    (hn : t.requests n = .admitted user) :
    ∃ l x l' token payload, tr = l ++ x :: l' ∧ x.pre.requests n = .verified token payload ∧
      authenticate payload x.pre.auth.store = .ok user := by
  obtain ⟨l, x, l', rfl, hpre, hpost⟩ :=
    hrun.origin (P := fun s => s.requests n = .admitted user) hs hn
  have hstep := hrun.cut.2.1
  refine ⟨l, x, l', ?_⟩
  obtain ⟨pre, event, post⟩ := x
  replace hpre : pre.requests n ≠ .admitted user := hpre
  replace hpost : post.requests n = .admitted user := hpost
  replace hstep : AccessStep env crypto jwt pre event post := hstep
  cases hstep with
  | auth | others => exact absurd hpost hpre
  | @letIn m token payload user' hverified hauth =>
    rcases update_eq hpost with ⟨rfl, hphase⟩ | hwas
    · obtain rfl := RequestPhase.admitted.inj hphase
      exact ⟨token, payload, rfl, hverified, hauth⟩
    · exact absurd hwas hpre
  | verify | refuse | reject =>
    rcases update_eq hpost with ⟨-, hphase⟩ | hwas
    · cases hphase
    · exact absurd hwas hpre

/-- A request that has been let in is its token's user's. -/
theorem issuedInRun_of_admitted (hrun : Run (AccessStep env crypto jwt) s tr t) (hidle : s.Idle)
    (hjwt : HonoursIssued env jwt tr) (hunforged : Unforged tr) {n : ℕ}
    {user : AuthenticatedUser} (hn : t.requests n = .admitted user) :
    ∃ token found, IssuedInRun env tr n token found ∧ user.id = found.id ∧
      user.tenantId = found.tenantId ∧ user.role = found.role := by
  obtain ⟨l, x, l', token, payload, rfl, hverified, hauth⟩ :=
    admission_of_access hrun (by simp [hidle.requests n]) hn
  obtain ⟨found, hissued, rfl⟩ :=
    issuedInRun_of_verified hrun.cut.1 hidle hjwt.before hunforged.before hverified
  obtain ⟨row, hrow, -, htenant, hrole, rfl⟩ := authenticate_ok.mp hauth
  exact ⟨token, found, hissued.append, (Table.get?_eq_some.mp hrow).2, htenant, hrole⟩

/-- **Where a request that is let in comes from.** Its token was issued in the run,
by a login or a rotation that had found the user active, and verified before its
seconds were over; and the row of the user, as the middleware reads it, is active and
has the tenant and the role that the call had found. -/
theorem admitted_from_session (hrun : Run (AccessStep env crypto jwt) s tr t) (hidle : s.Idle)
    (hjwt : HonoursIssued env jwt tr) (hunforged : Unforged tr)
    {l l' : List (Transition AccessState AccessEvent)} {z : Transition AccessState AccessEvent}
    (htr : tr = l ++ z :: l') {n : ℕ} {token : String} {user : AuthenticatedUser}
    (hz : z.event = .admitted n token user) :
    ∃ found row, IssuedInRun env l n token found ∧
      z.pre.auth.store.users.get? found.id = some row ∧ row.isActive = true ∧
      row.tenantId = found.tenantId ∧ row.role = found.role ∧
      user = ⟨row.id, row.tenantId, row.email, row.role⟩ := by
  subst htr
  obtain ⟨hbefore, hstep, -⟩ := hrun.cut
  -- the middleware has verified the token, and now reads the row
  have hletIn : ∃ payload, z.pre.requests n = .verified token payload ∧
      authenticate payload z.pre.auth.store = .ok user := by
    rw [hz] at hstep
    generalize z.pre = pre at hstep ⊢
    generalize z.post = post at hstep
    cases hstep with
    | letIn hn hauth => exact ⟨_, hn, hauth⟩
  obtain ⟨payload, hn, hauth⟩ := hletIn
  obtain ⟨found, hissued, rfl⟩ :=
    issuedInRun_of_verified hbefore hidle hjwt.before hunforged.before hn
  obtain ⟨row, hrow, hactive, htenant, hrole, huser⟩ := authenticate_ok.mp hauth
  exact ⟨found, row, hissued, hrow, hactive, htenant, hrole, huser⟩

/-! ### After a revocation -/

/-- What holds in every reachable state. -/
def AccessInvariant (env : AuthEnv) (crypto : Crypto) (s : AccessState) : Prop :=
  TwoPhase.Coherent (authService env crypto) SessionsEvolve s.auth

/-- Every step lets the sessions evolve. -/
theorem sessionsEvolve_of_access {e : AccessEvent} (h : AccessStep env crypto jwt s e t)
    (hs : AccessInvariant env crypto s) :
    SessionsEvolve s.auth.store t.auth.store := by
  cases h with
  | auth hstep => exact sessionsEvolve_of_change (authChange_of_step hstep hs)
  | others htokens hfamilies =>
    constructor
    · intro id token htoken
      exact ⟨token, by rwa [← htokens] at htoken, .refl token⟩
    · intro id family hfamily
      exact ⟨family, by rwa [← hfamilies] at hfamily, .refl family⟩
  | verify | refuse | letIn | reject => exact .refl _

theorem accessInvariant_step (s : AccessState) (e : AccessEvent) (t : AccessState)
    (h : AccessStep env crypto jwt s e t) (hs : AccessInvariant env crypto s) :
    AccessInvariant env crypto t := by
  have hevolve := sessionsEvolve_of_access h hs
  cases h with
  | auth hstep => exact TwoPhase.coherent_step (fun _ _ _ => SessionsEvolve.trans) hstep hevolve hs
  | others =>
    intro c req call hc
    obtain ⟨store, now, hlook, hbefore⟩ := hs c req call hc
    exact ⟨store, now, hlook, hbefore.trans hevolve⟩
  | verify | refuse | letIn | reject => exact hs

theorem sessionsEvolve_access_run (hrun : Run (AccessStep env crypto jwt) s tr t)
    (hs : AccessInvariant env crypto s) : SessionsEvolve s.auth.store t.auth.store :=
  hrun.related (I := AccessInvariant env crypto)
    (Q := fun s t : AccessState => SessionsEvolve s.auth.store t.auth.store)
    (fun s => .refl s.auth.store) (fun _ _ _ => SessionsEvolve.trans) accessInvariant_step
    (fun _ _ _ => sessionsEvolve_of_access) hs

/-- A token is issued in a session of its user. -/
theorem session_of_issued {e : AccessEvent} (h : AccessStep env crypto jwt s e t)
    (hs : AccessInvariant env crypto s) {token : String} {user : User}
    (he : e.issued? = some (token, user)) :
    ∃ family ∈ t.auth.store.refreshTokenFamilies, family.userId = user.id := by
  obtain ⟨c, req, call, g, out, rfl, huser, hwaiting, -⟩ := issued_spec h he
  have hevolve := sessionsEvolve_of_access h hs
  cases call with
  | revoke | logout => cases huser
  | login call =>
    obtain rfl := Option.some.inj huser
    cases h with
    | auth hstep =>
      cases hstep with
      | commit hc hfresh hrun =>
        change (AuthCall.transaction env crypto (.login call) g s.auth.now).run s.auth.store = _
          at hrun
        simp only [AuthCall.transaction, Transaction.bind_ok, Transaction.pure_ok,
          loginTransaction_ok] at hrun
        obtain ⟨_, _, ⟨hf, _, -, rfl⟩, -, rfl⟩ := hrun
        exact ⟨_, (Table.mem_insert (h := hf)).mpr (Or.inr rfl), rfl⟩
  | rotate call =>
    obtain rfl := Option.some.inj huser
    -- the family that the lookup found keeps its user
    obtain ⟨db₀, now₀, hlook, hbefore⟩ := hs c req _ hwaiting
    obtain ⟨-, hfamily, -⟩ := lookup_rotate hlook
    obtain ⟨refreshToken, hfound⟩ := rotation_of_lookup hlook
    obtain ⟨family, hget, hfollows⟩ := (hbefore.trans hevolve).family _ _ hfamily
    refine ⟨family, (Table.get?_eq_some.mp hget).1, ?_⟩
    rw [hfollows.columns]
    exact (Table.get?_eq_some.mp (user_of_rotation hfound).1).2.symm

/-- The user whose token is verified has a session. -/
theorem session_of_issuedInRun (hrun : Run (AccessStep env crypto jwt) s tr t)
    (hs : AccessInvariant env crypto s) {n : ℕ} {token : String} {found : User}
    (h : IssuedInRun env tr n token found) :
    ∃ family ∈ t.auth.store.refreshTokenFamilies, family.userId = found.id := by
  obtain ⟨l₀, w, l₁, y, l₂, x, l₃, c, req, call, g, out, rfl, -, hy, -, htoken, hfound, -⟩ := h
  obtain ⟨-, -, hrest⟩ := hrun.cut
  obtain ⟨-, hstep, hlater⟩ := hrest.cut
  have hw : AccessInvariant env crypto w.post := by
    obtain ⟨hbefore, hwstep, -⟩ := hrun.cut
    exact (hbefore.snoc hwstep).invariant (I := AccessInvariant env crypto) accessInvariant_step hs
  have hpre : AccessInvariant env crypto y.pre :=
    hrest.cut.1.invariant (I := AccessInvariant env crypto) accessInvariant_step hw
  have hissued : y.event.issued? = some (token, found) := by
    rw [hy]
    simp [AccessEvent.issued?, htoken, hfound]
  obtain ⟨family, hmem, huser⟩ := session_of_issued hstep hpre hissued
  obtain ⟨family', hget, hfollows⟩ := (sessionsEvolve_access_run hlater
    (accessInvariant_step _ _ _ hstep hpre)).family _ _ (Table.get?_key hmem)
  refine ⟨family', (Table.get?_eq_some.mp hget).1, ?_⟩
  rw [hfollows.columns]
  exact huser

theorem familyRevoked_run (hrun : Run (AccessStep env crypto jwt) s tr t)
    (hs : AccessInvariant env crypto s) {familyId : Uuid}
    (hrev : s.auth.store.FamilyRevoked familyId) : t.auth.store.FamilyRevoked familyId :=
  (sessionsEvolve_access_run hrun hs).familyRevoked hrev

/-- The clock never goes back. -/
theorem now_le_access_run (hrun : Run (AccessStep env crypto jwt) s tr t) :
    s.auth.now ≤ t.auth.now := by
  refine hrun.related (I := fun _ => True) (Q := fun s t => s.auth.now ≤ t.auth.now)
    (fun _ => le_refl _) (fun _ _ _ => le_trans) (fun _ _ _ _ _ => trivial) ?_ trivial
  intro s e t hstep _
  cases hstep with
  | auth hstep =>
    cases hstep with
    | tick d => exact Int.le_add_of_nonneg_right (Int.natCast_nonneg d)
    | lookup | answer | commit | rollback => exact le_refl _
  | others | verify | refuse | letIn | reject => exact le_refl _

/-- **A revoked session gets no more tokens**, but for a rotation under way. -/
theorem no_session_after_revocation (hrun : Run (AccessStep env crypto jwt) m tr t)
    (hm : AccessInvariant env crypto m) {familyId : Uuid}
    (hrev : m.auth.store.FamilyRevoked familyId)
    (hquiet : ∀ c req call, m.auth.calls c = .waiting req (.rotate call) →
      call.family.id ≠ familyId) :
    ∀ y ∈ tr, y.event.session? ≠ some familyId := by
  intro y hy hsession
  obtain ⟨l, l', rfl⟩ := List.append_of_mem hy
  obtain ⟨hbefore, hstep, -⟩ := hrun.cut
  unfold AccessEvent.session? at hsession
  split at hsession
  -- the family of a login is new
  · next c req call g out heq =>
    rw [heq] at hstep
    obtain rfl := Option.some.inj hsession
    obtain ⟨family, hfamily, -⟩ := familyRevoked_run hbefore hm hrev
    have hfree : y.pre.auth.store.refreshTokenFamilies.get? g.familyId = none := by
      generalize y.pre = pre at hstep
      generalize y.post = post at hstep
      cases hstep with
      | auth hstep =>
        cases hstep with
        | commit hc hfresh hcommit => exact hfresh.1
    rw [hfree] at hfamily
    cases hfamily
  · next c req call g out heq =>
    rw [heq] at hstep
    obtain rfl := Option.some.inj hsession
    have hwaiting : y.pre.auth.calls c = .waiting req (.rotate call) := by
      generalize y.pre = pre at hstep
      generalize y.post = post at hstep
      cases hstep with
      | auth hstep => exact TwoPhase.waiting_of_ran hstep rfl
    by_cases hwas : m.auth.calls c = .waiting req (.rotate call)
    · exact hquiet c req call hwas rfl
    -- it was looked up after the revocation, and saw its family live
    · obtain ⟨l₁, x, l₂, rfl, -, hlook⟩ := lookup_of_access hbefore hwas hwaiting
      obtain ⟨hupto, -, -⟩ := hbefore.cut
      obtain ⟨-, hfamily, -⟩ := lookup_rotate hlook
      have hid := (Table.get?_eq_some.mp hfamily).2
      obtain ⟨family, hrevoked, htrue⟩ := familyRevoked_run hupto hm hrev
      rw [show call.family.id = call.storedToken.familyId from hid] at hrevoked
      obtain rfl := Option.some.inj (hfamily.symm.trans hrevoked)
      rw [lookup_rotate_live hlook] at htrue
      cases htrue
  · cases hsession

/-- **How long a revoked session still lets in.** Once a session is revoked and no
rotation of it is under way, it gets no more tokens, and those it has are verified
for no longer than an access token lasts. -/
theorem access_after_revocation (hrun : Run (AccessStep env crypto jwt) s tr m)
    (hrun' : Run (AccessStep env crypto jwt) m tr' t) (hidle : s.Idle)
    (hjwt : HonoursIssued env jwt (tr ++ tr')) {familyId : Uuid}
    (hrev : m.auth.store.FamilyRevoked familyId)
    (hquiet : ∀ c req call, m.auth.calls c = .waiting req (.rotate call) →
      call.family.id ≠ familyId) :
    (∀ y ∈ tr', y.event.session? ≠ some familyId) ∧
    ∀ y ∈ tr ++ tr', ∀ token user, y.event.session? = some familyId →
      y.event.issued? = some (token, user) → ∀ x ∈ tr', ∀ n, x.event = .verified n token →
        x.pre.auth.now / 1000 < m.auth.now / 1000 + (env.jwtAccessExpiresInSeconds : ℤ) := by
  have hm : AccessInvariant env crypto m :=
    hrun.invariant (I := AccessInvariant env crypto) accessInvariant_step hidle.auth.coherent
  have hnone := no_session_after_revocation hrun' hm hrev hquiet
  refine ⟨hnone, ?_⟩
  intro y hy token user hsession hissued x hx n hverified
  rcases List.mem_append.mp hy with hbefore | hafter
  · obtain ⟨l, l', rfl⟩ := List.append_of_mem hbefore
    obtain ⟨-, hystep, hlater⟩ := hrun.cut
    -- the token was issued before the revocation
    have hissuedAt : y.pre.auth.now ≤ m.auth.now :=
      (now_le_access_run ((Run.nil y.pre).snoc hystep)).trans (now_le_access_run hlater)
    obtain ⟨lx, lx', rfl⟩ := List.append_of_mem hx
    have hxstep := hrun'.cut.2.1
    rw [hverified] at hxstep
    have hverify : ∃ payload, verifyAccessToken jwt token x.pre.auth.now = .ok payload := by
      generalize x.pre = pre at hxstep ⊢
      generalize x.post = post at hxstep
      cases hxstep with
      | verify hfree hheader hverify => exact ⟨_, hverify⟩
    obtain ⟨payload, hverify⟩ := hverify
    obtain ⟨hlive, -⟩ := (verifyAccessToken_of_honours (hjwt y hy token user hissued)).mp hverify
    have hseconds : y.pre.auth.now / 1000 ≤ m.auth.now / 1000 :=
      Int.ediv_le_ediv (by decide) hissuedAt
    exact lt_of_lt_of_le hlive (add_le_add_left hseconds _)
  · exact absurd hsession (hnone y hafter)

/-- A run that starts with a login and verifies no token but the login's. -/
theorem unforged_of_login {a b : Transition AccessState AccessEvent} {c : ℕ}
    {req req' : AuthRequest} {call call' : AuthCall} {g : AuthGenerated} {out : AuthResponse}
    {token : String} {found : User}
    (hstart : tr = a :: b :: tr') (ha : a.event = .auth (.lookedUp c req call))
    (hb : b.event = .auth (.committed c req' call' g out))
    (hissued : b.event.issued? = some (token, found))
    (h : ∀ x ∈ tr, ∀ n token', x.event = .verified n token' → token' = token) :
    Unforged tr := by
  subst hstart
  intro l x l' n token' htr hx
  rcases l with _ | ⟨e₀, _ | ⟨e₁, l⟩⟩
  · obtain ⟨rfl, -⟩ := List.cons_eq_cons.mp htr
    rw [ha] at hx
    cases hx
  · obtain ⟨-, htr⟩ := List.cons_eq_cons.mp htr
    obtain ⟨rfl, -⟩ := List.cons_eq_cons.mp htr
    rw [hb] at hx
    cases hx
  · obtain ⟨-, htr⟩ := List.cons_eq_cons.mp htr
    obtain ⟨rfl, rfl⟩ := List.cons_eq_cons.mp htr
    have hmem : x ∈ a :: b :: (l ++ x :: l') := by simp
    rw [h x hmem n token' hx]
    exact ⟨_, List.mem_cons_of_mem _ List.mem_cons_self, found, hissued⟩

end Run

/-! ### A request after a logout

A session is opened and logged out, and a request with its access token is still let
in, before the token's seconds are over. -/

namespace LoggedOut

open DoubleRefresh Transaction

/-- Knows the access token of the session, for its seconds. -/
def jwt : Jwt where
  verify token now :=
    if token = accessToken ∧ now / 1000 < 900 then some (.claims user.payload.claims) else none

/-- The logout of the session that was opened. -/
def logoutRequest : AuthRequest := .logout firstToken

/-- What its lookup finds. -/
def logoutCall : AuthCall := .logout ⟨openedRow, user⟩

/-- What the logout draws. -/
def drawn₄ : AuthGenerated := ⟨uuid 50, uuid 51, "", uuid 52⟩

/-- The database after the logout. -/
def revoked : Database :=
  (logoutCall.transaction DoubleRefresh.env crypto drawn₄ 0).after opened

/-- The user as the request sees it. -/
def admittedUser : AuthenticatedUser := ⟨user.id, user.tenantId, user.email, user.role⟩

/-- Before the login. -/
def a₀ : AccessState := ⟨DoubleRefresh.s₀, fun _ => .notStarted⟩

/-- The login has looked up. -/
def a₁ : AccessState := { a₀ with auth := DoubleRefresh.s₁ }

/-- The session is open. -/
def a₂ : AccessState := { a₁ with auth := DoubleRefresh.s₂ }

/-- The logout has looked up. -/
def a₃ : AccessState :=
  { a₂ with auth := { DoubleRefresh.s₂ with
    calls := Function.update DoubleRefresh.s₂.calls 1 (.waiting logoutRequest logoutCall) } }

/-- The session is revoked. -/
def a₄ : AccessState :=
  { a₃ with auth := { a₃.auth with
    store := revoked, calls := Function.update a₃.auth.calls 1 .finished } }

/-- Eight hundred seconds later. -/
def a₅ : AccessState := { a₄ with auth := { a₄.auth with now := a₄.auth.now + (800000 : ℕ) } }

/-- The access token is still good. -/
def a₆ : AccessState := a₅.request 0 (.verified accessToken user.payload)

/-- The request is let in. -/
def a₇ : AccessState := a₆.request 0 (.admitted admittedUser)

theorem bearer_ok : bearerToken (some ("Bearer " ++ accessToken)) = .ok accessToken := by
  refine bearerToken_of_ascii (by decide) ?_
  unfold accessToken
  rw [String.toList_append, String.toList_append, String.toList_append, String.toList_append]
  simp only [List.all_append, Bool.and_eq_true]
  refine ⟨⟨⟨⟨?_, ?_⟩, ?_⟩, ?_⟩, ?_⟩ <;> rfl

/-- The schedule up to the logout. -/
def steps : List (Transition AccessState AccessEvent) :=
  [⟨a₀, .auth (.lookedUp 0 loginRequest loginCall), a₁⟩,
    ⟨a₁, .auth (.committed 0 loginRequest loginCall drawn₀ session), a₂⟩,
    ⟨a₂, .auth (.lookedUp 1 logoutRequest logoutCall), a₃⟩,
    ⟨a₃, .auth (.committed 1 logoutRequest logoutCall drawn₄ .loggedOut), a₄⟩]

/-- The request. -/
def late : List (Transition AccessState AccessEvent) :=
  [⟨a₄, .auth .tick, a₅⟩, ⟨a₅, .verified 0 accessToken, a₆⟩,
    ⟨a₆, .admitted 0 accessToken admittedUser, a₇⟩]

theorem run : Run (AccessStep DoubleRefresh.env crypto jwt) a₀ steps a₄ := by
  have hlogin : AccessStep DoubleRefresh.env crypto jwt a₀
      (.auth (.lookedUp 0 loginRequest loginCall)) a₁ := .auth (.lookup rfl loginLookup_ok)
  have hopen : AccessStep DoubleRefresh.env crypto jwt a₁
      (.auth (.committed 0 loginRequest loginCall drawn₀ session)) a₂ :=
    .auth (.commit rfl fresh₀ login_ok)
  have hlogout : AccessStep DoubleRefresh.env crypto jwt a₂
      (.auth (.lookedUp 1 logoutRequest logoutCall)) a₃ := .auth (.lookup rfl (by decide))
  have hfresh : drawn₄.Fresh crypto opened := by
    refine ⟨?_, ?_, ?_, ?_⟩ <;> decide
  have hrevoke : AccessStep DoubleRefresh.env crypto jwt a₃
      (.auth (.committed 1 logoutRequest logoutCall drawn₄ .loggedOut)) a₄ :=
    .auth (.commit rfl hfresh (run_eq_after (by decide)))
  exact ((((Run.nil a₀).snoc hlogin).snoc hopen).snoc hlogout).snoc hrevoke

theorem run_late : Run (AccessStep DoubleRefresh.env crypto jwt) a₄ late a₇ := by
  have htick : AccessStep DoubleRefresh.env crypto jwt a₄ (.auth .tick) a₅ :=
    .auth (.tick a₄.auth 800000)
  have hlive : a₅.auth.now / 1000 < 900 := by decide
  have hverify : verifyAccessToken jwt accessToken a₅.auth.now = .ok user.payload :=
    verifyAccessToken_ok.mpr ⟨by simp [jwt, hlive], by decide⟩
  have hverified : AccessStep DoubleRefresh.env crypto jwt a₅ (.verified 0 accessToken) a₆ :=
    .verify rfl bearer_ok hverify
  have hadmitted : AccessStep DoubleRefresh.env crypto jwt a₆
      (.admitted 0 accessToken admittedUser) a₇ := .letIn rfl (by decide)
  exact (((Run.nil a₄).snoc htick).snoc hverified).snoc hadmitted

theorem idle : a₀.Idle := ⟨DoubleRefresh.idle, fun _ => rfl⟩

/-- The login issues the only token. -/
theorem issued {y : Transition AccessState AccessEvent} (hy : y ∈ steps ++ late) {token : String}
    {found : User} (h : y.event.issued? = some (token, found)) :
    token = accessToken ∧ found = user ∧ y.pre.auth.now = 0 := by
  simp only [steps, late, List.cons_append, List.nil_append, List.mem_cons, List.not_mem_nil,
    or_false] at hy
  rcases hy with rfl | rfl | rfl | rfl | rfl | rfl | rfl <;> cases h
  exact ⟨rfl, rfl, rfl⟩

theorem honours : HonoursIssued DoubleRefresh.env jwt (steps ++ late) := by
  intro y hy token found h
  obtain ⟨rfl, rfl, hnow⟩ := issued hy h
  intro now
  rw [hnow]
  simp [jwt, DoubleRefresh.env]

/-- The one token that is verified is the login's. -/
theorem unforged : Unforged (steps ++ late) := by
  refine unforged_of_login rfl rfl rfl (show _ = some (accessToken, user) from rfl) ?_
  intro x hx n token hverified
  simp only [steps, late, List.cons_append, List.nil_append, List.mem_cons, List.not_mem_nil,
    or_false] at hx
  rcases hx with rfl | rfl | rfl | rfl | rfl | rfl | rfl <;> cases hverified
  rfl

end LoggedOut

/-- The login behind the late request. -/
theorem admitted_from_session_logged_out : ∃ row,
    LoggedOut.a₆.auth.store.users.get? DoubleRefresh.user.id = some row ∧ row.isActive = true := by
  obtain ⟨found, row, -, hrow, hactive, -, -, huser⟩ :=
    admitted_from_session (LoggedOut.run.append LoggedOut.run_late) LoggedOut.idle
      LoggedOut.honours LoggedOut.unforged (show LoggedOut.steps ++ LoggedOut.late =
        (LoggedOut.steps ++ LoggedOut.late.take 2) ++ _ :: [] from rfl) rfl
  refine ⟨row, ?_, hactive⟩
  rw [show DoubleRefresh.user.id = row.id from congrArg AuthenticatedUser.id huser,
    show row.id = found.id from (Table.get?_eq_some.mp hrow).2]
  exact hrow

/-- The request comes 800 seconds after the logout, of 900. -/
theorem access_after_revocation_logged_out :
    LoggedOut.a₅.auth.now / 1000 < LoggedOut.a₄.auth.now / 1000 + 900 := by
  have hwaiting : ∀ c req call, LoggedOut.a₄.auth.calls c = .waiting req (.rotate call) →
      call.family.id ≠ uuid 10 := by
    intro c req call hc
    -- the login and the logout have ended
    rcases update_eq hc with ⟨-, hphase⟩ | hc
    · cases hphase
    rcases update_eq hc with ⟨-, hphase⟩ | hc
    · cases hphase
    rcases update_eq hc with ⟨-, hphase⟩ | hc
    · cases hphase
    rcases update_eq hc with ⟨-, hphase⟩ | hc
    · cases hphase
    · cases hc
  have h := (access_after_revocation LoggedOut.run LoggedOut.run_late LoggedOut.idle
    LoggedOut.honours ⟨⟨uuid 10, uuid 2, true⟩, by decide, rfl⟩
    hwaiting).2
  exact h (LoggedOut.steps ++ LoggedOut.late)[1] (List.getElem_mem _) DoubleRefresh.accessToken
    DoubleRefresh.user rfl rfl LoggedOut.late[1] (List.getElem_mem _) 0 rfl

end BookingPlatform
