import BookingPlatform.TokenChains

/-!
# Revocation

A family that is revoked stays revoked, and no call that starts afterwards gets a
token out of it, not even for a token that a rotation already under way adds to
it.  A token that has been exchanged is revoked for good, so presenting it again
revokes its family.

## Main definitions

* `Database.FamilyRevoked` — the session is over.
* `Denied` — a refresh is refused with 400 or 401.
* `Exchanged` — a token has been replaced and revoked.

## Main results

* `refreshLookup_of_revoked` — what a lookup makes of a revoked token.
* `denied_after_revocation` — a later call that presents a token of a revoked family is
  denied.
* `reuse_revokes_family` — a call that presents an exchanged token is denied, and
  leaves its family revoked and the others alone.
* `revocation_contained` — the three together, over runs.
-/

namespace BookingPlatform

open Runs TwoPhase

/-! ### Lookups of revoked sessions -/

/-- The family with an identifier is there and revoked. -/
def Database.FamilyRevoked (db : Database) (familyId : Uuid) : Prop :=
  ∃ family, db.refreshTokenFamilies.get? familyId = some family ∧ family.revoked = true

/-- **Revocation lasts.** -/
theorem SessionsEvolve.familyRevoked {db db' : Database} (h : SessionsEvolve db db')
    {familyId : Uuid} (hrev : db.FamilyRevoked familyId) : db'.FamilyRevoked familyId := by
  obtain ⟨family, hf, hrev⟩ := hrev
  obtain ⟨family', hf', hfol⟩ := h.family _ _ hf
  exact ⟨family', hf', hfol.revoked hrev⟩

/-- A lookup that is not refused for a revoked token goes on to revoke the
family. -/
theorem refreshLookup_of_revoked {crypto : Crypto} {refreshToken : String} {db : Database}
    {now : Instant} {row : RefreshToken} (hrow : findRefreshToken crypto refreshToken db = some row)
    (hrev : row.revoked = true) {call : RefreshCall}
    (h : refreshLookup crypto refreshToken db now = .ok call) :
    ∃ family, db.refreshTokenFamilies.get? row.familyId = some family ∧ call = .reuse family := by
  simp only [refreshLookup, Except.bind_eq_ok, orThrow_eq_ok, required_eq_ok, throwIf_eq_ok,
    hrow, Option.some_inj] at h
  obtain ⟨-, -, _, rfl, family, hf, user, -, -, -, hcall⟩ := h
  rw [if_pos hrev, Except.pure_eq_ok] at hcall
  exact ⟨family, hf, hcall.symm⟩

/-- It is refused only when the family is revoked already. -/
theorem refreshLookup_reuse {crypto : Crypto} {refreshToken : String} (hne : refreshToken ≠ "")
    {db : Database} (now : Instant) {row : RefreshToken} {family : RefreshTokenFamily} {user : User}
    (hrow : findRefreshToken crypto refreshToken db = some row) (hrev : row.revoked = true)
    (hf : db.refreshTokenFamilies.get? row.familyId = some family)
    (hu : db.users.get? family.userId = some user) (hlive : family.revoked = false) :
    refreshLookup crypto refreshToken db now = .ok (.reuse family) := by
  simp only [refreshLookup, Except.bind_eq_ok, orThrow_eq_ok, required_eq_ok, throwIf_eq_ok]
  refine ⟨(), hne, row, hrow, family, hf, user, hu, (), by simp [hlive], ?_⟩
  rw [if_pos hrev, Except.pure_eq_ok]

/-- The empty string is not looked up. -/
theorem refreshLookup_ne_empty {crypto : Crypto} {refreshToken : String} {db : Database}
    {now : Instant} {call : RefreshCall}
    (h : refreshLookup crypto refreshToken db now = .ok call) : refreshToken ≠ "" := by
  simp only [refreshLookup, Except.bind_eq_ok, throwIf_eq_ok] at h
  obtain ⟨-, hne, -⟩ := h
  exact hne

theorem lookup_refresh {crypto : Crypto} {refreshToken : String} {db : Database} {now : Instant}
    {call : AuthCall} :
    (AuthRequest.refresh refreshToken).lookup crypto db now = .ok (some call) ↔
      ∃ found, refreshLookup crypto refreshToken db now = .ok found ∧ call = found.toCall := by
  simp only [AuthRequest.lookup, Except.bind_eq_ok, Except.pure_eq_ok, Option.some_inj]
  exact exists_congr fun found => and_congr_right fun _ => eq_comm

/-- A pending rotation has seen its family live. -/
theorem lookup_rotate_live {crypto : Crypto} {req : AuthRequest} {db : Database} {now : Instant}
    {call : RotateCall} (h : req.lookup crypto db now = .ok (some (.rotate call))) :
    call.family.revoked = false := by
  obtain ⟨-, -, refreshToken, rfl, -⟩ := lookup_rotate h
  obtain ⟨found, hfound, hcall⟩ := lookup_refresh.mp h
  cases found with
  | reuse => cases hcall
  | rotate call' =>
    obtain rfl := AuthCall.rotate.inj hcall
    exact (refreshLookup_rotate hfound).2.2.2.1

/-! ### Owners

Every family belongs to a user that is there, so a lookup never fails for want of
one. -/

/-- The users behind the families and behind the logins under way. -/
structure OwnersKnown (s : AuthState) : Prop where
  waiting : ∀ c req call, s.calls c = .waiting req (.login call) →
    ∃ user, s.store.users.get? call.user.id = some user
  family : ∀ family ∈ s.store.refreshTokenFamilies,
    ∃ user, s.store.users.get? family.userId = some user

theorem ownersKnown_start {s : AuthState} (hidle : s.Idle) (hnone : NoSessions s.store) :
    OwnersKnown s where
  waiting := fun c req call hc => by
    rw [hidle c] at hc
    cases hc
  family := fun family hf => by
    rw [Table.mem_def, hnone.families] at hf
    cases hf

/-- No call writes the table of users. -/
theorem users_of_step {env : AuthEnv} {crypto : Crypto} {s t : AuthState} {e : AuthEvent}
    (h : AuthStep env crypto s e t) : t.store.users = s.store.users := by
  cases h with
  | tick | lookup | answer | rollback => rfl
  | @commit c req call g out store hc hfresh hrun =>
    change (AuthCall.transaction env crypto call g s.now).run s.store = _ at hrun
    cases call with
    | login call =>
      simp only [AuthCall.transaction, Transaction.bind_ok, Transaction.pure_ok,
        loginTransaction_ok] at hrun
      obtain ⟨_, _, ⟨-, -, -, rfl⟩, -, rfl⟩ := hrun
      rfl
    | rotate call =>
      simp only [AuthCall.transaction, Transaction.bind_ok, Transaction.pure_ok,
        rotateTransaction_ok] at hrun
      obtain ⟨_, _, ⟨-, _, -, rfl⟩, -, rfl⟩ := hrun
      rfl
    | revoke family =>
      simp only [AuthCall.transaction, Transaction.bind_ok, Transaction.pure_ok,
        revokeFamily_ok] at hrun
      obtain ⟨_, _, ⟨_, -, rfl⟩, -, rfl⟩ := hrun
      rfl
    | logout call =>
      simp only [AuthCall.transaction, Transaction.bind_ok, Transaction.pure_ok,
        logoutTransaction_ok] at hrun
      obtain ⟨_, _, ⟨_, -, rfl⟩, -, rfl⟩ := hrun
      rfl

/-- A login has found its user. -/
theorem lookup_login {crypto : Crypto} {req : AuthRequest} {db : Database} {now : Instant}
    {call : LoginCall} (h : req.lookup crypto db now = .ok (some (.login call))) :
    db.users.get? call.user.id = some call.user := by
  cases req with
  | login tenantSlug email password =>
    simp only [AuthRequest.lookup, loginLookup, Except.bind_eq_ok, orThrow_eq_ok,
      Except.pure_eq_ok] at h
    obtain ⟨_, ⟨tenant, -, user, hu, -, -, -, -, rfl⟩, hcall⟩ := h
    obtain rfl := AuthCall.login.inj (Option.some.inj hcall)
    exact Table.get?_key (Table.mem_of_findFirst hu).1
  | refresh refreshToken =>
    obtain ⟨found, -, hcall⟩ := lookup_refresh.mp h
    cases found <;> cases hcall
  | logout =>
    simp only [AuthRequest.lookup, Except.bind_eq_ok, Except.pure_eq_ok] at h
    obtain ⟨found, -, hcall⟩ := h
    cases found <;> cases hcall

/-- Where the family rows come from, over one step. -/
theorem family_of_step {env : AuthEnv} {crypto : Crypto} {s t : AuthState} {e : AuthEvent}
    (h : AuthStep env crypto s e t) {family : RefreshTokenFamily}
    (hf : family ∈ t.store.refreshTokenFamilies) :
    (∃ f ∈ s.store.refreshTokenFamilies, f.userId = family.userId) ∨
      ∃ c req call, s.calls c = .waiting req (.login call) ∧ family.userId = call.user.id := by
  have hput : ∀ {f : RefreshTokenFamily} {id : Uuid},
      s.store.refreshTokenFamilies.get? id = some f →
      family ∈ s.store.refreshTokenFamilies.put f.revoke →
      ∃ f ∈ s.store.refreshTokenFamilies, f.userId = family.userId := by
    intro f id hget hmem
    rcases Table.mem_put.mp hmem with ⟨hold, -⟩ | ⟨rfl, -⟩
    · exact ⟨family, hold, rfl⟩
    · exact ⟨f, (Table.get?_eq_some.mp hget).1, rfl⟩
  cases h with
  -- only a transaction that commits touches the families
  | tick | lookup | answer | rollback => exact Or.inl ⟨family, hf, rfl⟩
  | @commit c req call g out store hc hfresh hrun =>
    change (AuthCall.transaction env crypto call g s.now).run s.store = _ at hrun
    cases call with
    | login call =>
      simp only [AuthCall.transaction, Transaction.bind_ok, Transaction.pure_ok,
        loginTransaction_ok] at hrun
      obtain ⟨_, _, ⟨hfree, _, -, rfl⟩, -, rfl⟩ := hrun
      rcases (Table.mem_insert (h := hfree)).mp hf with hold | rfl
      · exact Or.inl ⟨family, hold, rfl⟩
      · exact Or.inr ⟨c, req, call, hc, rfl⟩
    | rotate call =>
      simp only [AuthCall.transaction, Transaction.bind_ok, Transaction.pure_ok,
        rotateTransaction_ok] at hrun
      obtain ⟨_, _, ⟨_, _, -, rfl⟩, -, rfl⟩ := hrun
      exact Or.inl ⟨family, hf, rfl⟩
    | revoke revoked =>
      simp only [AuthCall.transaction, Transaction.bind_ok, Transaction.pure_ok,
        revokeFamily_ok] at hrun
      obtain ⟨_, _, ⟨f, hget, rfl⟩, -, rfl⟩ := hrun
      exact Or.inl (hput hget hf)
    | logout call =>
      simp only [AuthCall.transaction, Transaction.bind_ok, Transaction.pure_ok,
        logoutTransaction_ok] at hrun
      obtain ⟨_, _, ⟨f, hget, rfl⟩, -, rfl⟩ := hrun
      exact Or.inl (hput hget hf)

theorem ownersKnown_step {env : AuthEnv} {crypto : Crypto} (s : AuthState) (e : AuthEvent)
    (t : AuthState) (h : AuthStep env crypto s e t) (hs : OwnersKnown s) : OwnersKnown t := by
  have husers := users_of_step h
  constructor
  · intro c req call hc
    rw [husers]
    rcases TwoPhase.waiting_of_step h hc with hc | ⟨-, hlook⟩
    · exact hs.waiting c req call hc
    · exact ⟨_, lookup_login hlook⟩
  · intro family hf
    rw [husers]
    rcases family_of_step h hf with ⟨f, hf, hid⟩ | ⟨c, req, call, hc, hid⟩
    · rw [← hid]
      exact hs.family f hf
    · rw [hid]
      exact hs.waiting c req call hc

/-! ### After a revocation -/

/-- What holds in every reachable state, with the owners. -/
structure RevocationInvariant (env : AuthEnv) (crypto : Crypto) (s : AuthState) : Prop where
  sessions : SessionsInvariant env crypto s
  owners : OwnersKnown s

section Runs

variable {env : AuthEnv} {crypto : Crypto} {s m t : AuthState}
  {tr : List (Transition AuthState AuthEvent)}

theorem revocationInvariant_step (s : AuthState) (e : AuthEvent) (t : AuthState)
    (h : AuthStep env crypto s e t) (hs : RevocationInvariant env crypto s) :
    RevocationInvariant env crypto t :=
  ⟨sessionsInvariant_step s e t h hs.sessions, ownersKnown_step s e t h hs.owners⟩

theorem revocationInvariant_run (hrun : Run (AuthStep env crypto) s tr t)
    (hs : RevocationInvariant env crypto s) : RevocationInvariant env crypto t :=
  hrun.invariant (I := RevocationInvariant env crypto) revocationInvariant_step hs

/-- A refresh that is denied: with 400 for the empty string, else with 401. -/
def Denied (refreshToken : String) (out : AuthResponse) : Prop :=
  if refreshToken = "" then out = .failed (.app (badRequestError "Refresh token is required"))
  else ∃ message, out = .failed (.app (unauthorizedError message))

/-- **The lookup of a token of revoked families is denied**, also when there is no such
token. -/
theorem lookup_denied (hs : RevocationInvariant env crypto s) {refreshToken : String}
    (hrev : ∀ row ∈ s.store.refreshTokens, row.tokenHash = hashToken crypto refreshToken →
      s.store.FamilyRevoked row.familyId) (now : Instant) :
    ∃ e, (AuthRequest.refresh refreshToken).lookup crypto s.store now = .error e ∧
      Denied refreshToken (.failed e) := by
  have herror : ∀ {e}, refreshLookup crypto refreshToken s.store now = .error e →
      (AuthRequest.refresh refreshToken).lookup crypto s.store now = .error e := by
    intro e h
    rw [AuthRequest.lookup, h]
    rfl
  by_cases hempty : refreshToken = ""
  · refine ⟨_, herror (e := .app (badRequestError "Refresh token is required")) ?_, ?_⟩
    · rw [refreshLookup, throwIf, if_pos hempty]
      rfl
    · rw [Denied, if_pos hempty]
  · suffices ∃ message, refreshLookup crypto refreshToken s.store now
        = .error (.app (unauthorizedError message)) by
      obtain ⟨message, h⟩ := this
      refine ⟨_, herror h, ?_⟩
      rw [Denied, if_neg hempty]
      exact ⟨message, rfl⟩
    cases hfind : findRefreshToken crypto refreshToken s.store with
    | none =>
      refine ⟨"Invalid refresh token", ?_⟩
      rw [refreshLookup, throwIf, if_neg hempty, hfind]
      rfl
    | some row =>
      -- the family is revoked, and its user is there
      obtain ⟨hget, hhash⟩ := findRefreshToken_some hfind
      obtain ⟨family, hf, htrue⟩ := hrev row (Table.get?_eq_some.mp hget).1 hhash
      obtain ⟨user, hu⟩ := hs.owners.family family (Table.get?_eq_some.mp hf).1
      refine ⟨"Session revoked", ?_⟩
      simp [refreshLookup, throwIf, hempty, hfind, required, orThrow, hf, hu, htrue, bind,
        Except.bind]

/-- **A call that presents a token of a revoked family is denied**, if it starts after the
revocation; even for a token that was added to the family since. -/
theorem denied_after_revocation (hrun : Run (AuthStep env crypto) m tr t)
    (hm : RevocationInvariant env crypto m) {row : RefreshToken}
    (hrev : m.store.FamilyRevoked row.familyId) (hrow : row ∈ t.store.refreshTokens)
    {refreshToken : String} (hhash : row.tokenHash = hashToken crypto refreshToken) {c : ℕ}
    (hc : m.calls c = .notStarted) {x : Transition AuthState AuthEvent} (hx : x ∈ tr)
    (hend : ended? x.event = some (c, .refresh refreshToken)) :
    ∃ out, response? crypto x = some out ∧ Denied refreshToken out := by
  have ht := revocationInvariant_run hrun hm
  -- on the way, a row with the digest is that row, and its family is revoked
  have hdenied : ∀ {l l' u}, Run (AuthStep env crypto) m l u → Run (AuthStep env crypto) u l' t →
      ∃ e,
        (AuthRequest.refresh refreshToken).lookup crypto u.store u.now = .error e ∧
          Denied refreshToken (.failed e) := by
    intro l l' u hbefore hafter
    have hu := revocationInvariant_run hbefore hm
    refine lookup_denied hu (fun row' hrow' hhash' => ?_) u.now
    obtain ⟨later, hlater, hfol⟩ :=
      (sessionsEvolve_run hafter hu.sessions).token _ _ (Table.get?_key hrow')
    have hid := ht.sessions.distinct _ _ _ _ hlater (Table.get?_key hrow)
      ((hfol.tokenHash_eq.trans hhash').trans hhash.symm)
    rw [hid] at hlater
    obtain rfl := Option.some.inj (hlater.symm.trans (Table.get?_key hrow))
    rw [← hfol.familyId_eq]
    exact (sessionsEvolve_run hbefore hm.sessions).familyRevoked hrev
  -- so no call that starts on the way goes on to wait
  have hwaits : ∀ {l l' u call}, Run (AuthStep env crypto) m l u →
      Run (AuthStep env crypto) u l' t → u.calls c ≠ .waiting (.refresh refreshToken) call := by
    intro l l' u call hbefore hafter hwaiting
    obtain ⟨l₁, y, l₂, rfl, -, hlook⟩ := TwoPhase.lookup_of_waiting hbefore (by simp [hc]) hwaiting
    obtain ⟨hearlier, hstep, hlater⟩ := hbefore.cut
    obtain ⟨e, he, -⟩ := hdenied hearlier (((Run.nil _).snoc hstep).append hlater |>.append hafter)
    cases he.symm.trans hlook
  obtain ⟨l, l', rfl⟩ := List.append_of_mem hx
  obtain ⟨hbefore, hstep, hlater⟩ := hrun.cut
  have hafter := ((Run.nil _).snoc hstep).append hlater
  obtain ⟨pre, event, post⟩ := x
  replace hstep : AuthStep env crypto pre event post := hstep
  cases hstep with
  | tick | lookup => cases hend
  | answer hfree hrefused =>
    obtain ⟨rfl, rfl⟩ := Prod.mk.inj (Option.some.inj hend)
    obtain ⟨e, he, hdeny⟩ := hdenied hbefore hafter
    exact ⟨.failed e, by simp only [response?, he], hdeny⟩
  | commit hwaiting | rollback hwaiting =>
    obtain ⟨rfl, rfl⟩ := Prod.mk.inj (Option.some.inj hend)
    exact absurd hwaiting (hwaits hbefore hafter)

/-! ### After an exchange -/

/-- A token that has been exchanged, seen in a later state: its row is found by
its digest, and is revoked. -/
structure Exchanged (crypto : Crypto) (refreshToken : String) (row : RefreshToken)
    (db : Database) : Prop where
  found : db.refreshTokens.get? row.id = some row
  hash : row.tokenHash = hashToken crypto refreshToken
  revoked : row.revoked = true

/-- An exchange leaves its token exchanged. -/
theorem exchanged_of_step {e : AuthEvent} (h : AuthStep env crypto s e t)
    (hs : SessionsInvariant env crypto s) {refreshToken : String}
    (he : exchangedToken? e = some refreshToken) :
    refreshToken ≠ "" ∧ ∃ row, Exchanged crypto refreshToken row t.store := by
  have hpost := sessionsInvariant_step _ _ _ h hs
  obtain ⟨id, hid⟩ := exchanged_of_exchangedToken he
  obtain ⟨tok, row, row', htok, hrow, hhash, hrow', hrep⟩ := row_of_exchange h hs hid
  rw [he] at htok
  obtain rfl := Option.some.inj htok
  obtain ⟨row₁, hrow₁, hfol⟩ := (sessionsEvolve_of_change
    (authChange_of_step h hs.coherent)).token _ _ hrow
  obtain rfl := Option.some.inj (hrow'.symm.trans hrow₁)
  obtain ⟨hmem, hkey⟩ := Table.get?_eq_some.mp hrow'
  refine ⟨?_, row', Table.get?_key hmem, hfol.tokenHash_eq.trans hhash,
    hpost.sound.revoked row' hmem hrep⟩
  -- what the call presented was looked up, so it was not empty
  cases e with
  | committed c req call g out =>
    cases req <;> cases call <;> cases he
    have hwaiting := TwoPhase.waiting_of_ran h rfl
    obtain ⟨db₀, now₀, hlook, -⟩ := hs.coherent _ _ _ hwaiting
    obtain ⟨found, hfound, -⟩ := lookup_refresh.mp hlook
    exact refreshLookup_ne_empty hfound
  | _ => cases he

/-- It stays so, in the same family. -/
theorem Exchanged.run (hrun : Run (AuthStep env crypto) s tr t)
    (hs : SessionsInvariant env crypto s) {refreshToken : String} {row : RefreshToken}
    (h : Exchanged crypto refreshToken row s.store) :
    ∃ row', Exchanged crypto refreshToken row' t.store ∧ row'.familyId = row.familyId := by
  obtain ⟨row', hrow', hfol⟩ := (sessionsEvolve_run hrun hs).token _ _ h.found
  have hid : row'.id = row.id := by rw [hfol.columns]
  exact ⟨row', ⟨hid ▸ hrow', hfol.tokenHash_eq.trans h.hash, hfol.revoked h.revoked⟩,
    hfol.familyId_eq⟩

/-- A lookup of the token finds that row. -/
theorem Exchanged.findRefreshToken_eq (hs : SessionsInvariant env crypto s) {refreshToken : String}
    {row : RefreshToken} (h : Exchanged crypto refreshToken row s.store) :
    findRefreshToken crypto refreshToken s.store = some row := by
  cases hfind : findRefreshToken crypto refreshToken s.store with
  | none =>
    have hno := List.find?_eq_none.mp hfind row (Table.get?_eq_some.mp h.found).1
    simp [h.hash] at hno
  | some row' =>
    obtain ⟨hget, hhash⟩ := findRefreshToken_some hfind
    have hid := hs.distinct _ _ _ _ hget h.found (hhash.trans h.hash.symm)
    rw [hid] at hget
    exact hget.symm.trans h.found

/-- **What a lookup makes of an exchanged token**: it goes on to revoke the family,
or the family is revoked already. -/
theorem lookup_of_exchanged (hs : RevocationInvariant env crypto s) {refreshToken : String}
    (hne : refreshToken ≠ "") {row : RefreshToken}
    (h : Exchanged crypto refreshToken row s.store) (now : Instant) :
    (∀ call, (AuthRequest.refresh refreshToken).lookup crypto s.store now = .ok (some call) →
      ∃ family, call = .revoke family ∧ family.id = row.familyId) ∧
    ((∀ call, (AuthRequest.refresh refreshToken).lookup crypto s.store now ≠ .ok (some call)) →
      s.store.FamilyRevoked row.familyId) := by
  have hfind := h.findRefreshToken_eq hs.sessions
  constructor
  · intro call hlook
    obtain ⟨found, hfound, rfl⟩ := lookup_refresh.mp hlook
    obtain ⟨family, hf, rfl⟩ := refreshLookup_of_revoked hfind h.revoked hfound
    exact ⟨family, rfl, (Table.get?_eq_some.mp hf).2⟩
  · intro hrefused
    obtain ⟨family, hf⟩ := hs.sessions.sound.family row (Table.get?_eq_some.mp h.found).1
    obtain ⟨user, hu⟩ := hs.owners.family family (Table.get?_eq_some.mp hf).1
    refine ⟨family, hf, ?_⟩
    by_contra hlive
    rw [Bool.not_eq_true] at hlive
    exact hrefused _ (lookup_refresh.mpr
      ⟨_, refreshLookup_reuse hne now hfind h.revoked hf hu hlive, rfl⟩)

/-- The rows of a family are the same in two databases. -/
def SameFamily (db db' : Database) (familyId : Uuid) : Prop :=
  db'.refreshTokenFamilies.get? familyId = db.refreshTokenFamilies.get? familyId ∧
    db'.familyTokens familyId = db.familyTokens familyId

/-- **Revoking a family** revokes its row and all of its tokens, and touches no
other family. -/
theorem revokeFamily_spec {familyId : Uuid} {db db' : Database} {u : Unit}
    (h : (revokeFamily familyId).run db = .ok (u, db')) :
    db'.FamilyRevoked familyId ∧ (∀ token ∈ db'.familyTokens familyId, token.revoked = true) ∧
      ∀ other, other ≠ familyId → SameFamily db db' other := by
  obtain ⟨family, hf, rfl⟩ := revokeFamily_ok.mp h
  have hid : family.id = familyId := (Table.get?_eq_some.mp hf).2
  have hput : ∀ id, (db.refreshTokenFamilies.put family.revoke).get? id
      = if id = familyId then some family.revoke else db.refreshTokenFamilies.get? id := by
    intro id
    rw [Table.get?_put (o := family) (by rw [key_family]; exact hid ▸ hf), key_family]
    rw [show family.revoke.id = familyId from hid]
  refine ⟨⟨family.revoke, (hput familyId).trans (if_pos rfl), rfl⟩, ?_, ?_⟩
  · intro token htoken
    obtain ⟨hmem, hfam⟩ := mem_familyTokens.mp htoken
    have hmem : token ∈ db.refreshTokens.updateMany (fun t => t.familyId = familyId)
        RefreshToken.revoke RefreshToken.key_revoke := hmem
    obtain ⟨old, -, rfl⟩ := Table.mem_updateMany.mp hmem
    by_cases hold : old.familyId = familyId
    · rw [if_pos (decide_eq_true hold)]
      rfl
    · rw [if_neg (by simpa using hold)] at hfam
      exact absurd hfam hold
  · intro other hother
    refine ⟨(hput other).trans (if_neg hother), ?_⟩
    rw [Database.familyTokens, Table.findMany_updateMany (f := RefreshToken.revoke) fun _ => rfl]
    refine (List.map_congr_left fun token htoken => ?_).trans (List.map_id _)
    have hfam : token.familyId = other := by simpa using (Table.mem_findMany.mp htoken).2
    rw [if_neg (by simpa [hfam] using hother)]
    rfl

/-- **A call that presents an exchanged token is denied**, and once it has ended the
token's family is revoked and the other families are as they were. -/
theorem reuse_revokes_family (hrun : Run (AuthStep env crypto) m tr t)
    (hm : RevocationInvariant env crypto m) {refreshToken : String} (hne : refreshToken ≠ "")
    {row : RefreshToken} (hrow : Exchanged crypto refreshToken row m.store) {c : ℕ}
    (hc : m.calls c = .notStarted) {y : Transition AuthState AuthEvent} (hy : y ∈ tr)
    (hend : ended? y.event = some (c, .refresh refreshToken)) :
    (∃ message, response? crypto y = some (.failed (.app (unauthorizedError message)))) ∧
      y.post.store.FamilyRevoked row.familyId ∧
      (y.post.store = y.pre.store ∨
        ∀ token ∈ y.post.store.familyTokens row.familyId, token.revoked = true) ∧
      ∀ other, other ≠ row.familyId → SameFamily y.pre.store y.post.store other := by
  obtain ⟨l, l', rfl⟩ := List.append_of_mem hy
  obtain ⟨hpre, hstep, -⟩ := hrun.cut
  have hI := revocationInvariant_run hpre hm
  obtain ⟨row', hrow', hfam⟩ := hrow.run hpre hm.sessions
  -- a call that got past its lookup is about to revoke the family
  have hcall : ∀ call, y.pre.calls c = .waiting (.refresh refreshToken) call →
      ∃ family, call = .revoke family ∧ family.id = row.familyId := by
    intro call hwaiting
    -- it was looked up after the exchange, and found the row replaced
    obtain ⟨l₁, z, l₂, rfl, -, hlook⟩ := TwoPhase.lookup_of_waiting hpre (by simp [hc]) hwaiting
    obtain ⟨hbefore, -, -⟩ := hpre.cut
    obtain ⟨row₁, hrow₁, hfam₁⟩ := hrow.run hbefore hm.sessions
    obtain ⟨family, rfl, hid⟩ :=
      (lookup_of_exchanged (revocationInvariant_run hbefore hm) hne hrow₁ _).1 call hlook
    exact ⟨family, rfl, hid.trans hfam₁⟩
  obtain ⟨pre, event, post⟩ := y
  replace hstep : AuthStep env crypto pre event post := hstep
  cases hstep with
  | tick | lookup => cases hend
  | answer hfree hrefused =>
    obtain ⟨rfl, rfl⟩ := Prod.mk.inj (Option.some.inj hend)
    have hrev := (lookup_of_exchanged hI hne hrow' _).2 hrefused
    obtain ⟨e, he, hdeny⟩ := lookup_denied hI (fun other hother hhash => by
      have hid := hI.sessions.distinct _ _ _ _ (Table.get?_key hother) hrow'.found
        (hhash.trans hrow'.hash.symm)
      rwa [Table.eq_of_key hother (Table.get?_eq_some.mp hrow'.found).1 hid]) pre.now
    rw [Denied, if_neg hne] at hdeny
    obtain ⟨message, hmessage⟩ := hdeny
    refine ⟨⟨message, ?_⟩, hfam ▸ hrev, Or.inl rfl, fun other _ => ⟨rfl, rfl⟩⟩
    simp only [response?, he, hmessage]
  | @commit c' req call g out store hwaiting hfresh hok =>
    obtain ⟨rfl, rfl⟩ := Prod.mk.inj (Option.some.inj hend)
    obtain ⟨family, rfl, hid⟩ := hcall call hwaiting
    change (AuthCall.transaction env crypto (.revoke family) g pre.now).run pre.store = _ at hok
    have hout := transaction_response hok
    simp only [AuthCall.transaction, Transaction.bind_ok, Transaction.pure_ok] at hok
    obtain ⟨u, db', hrevoke, -, rfl⟩ := hok
    rw [hid] at hrevoke
    obtain ⟨hrevoked, htokens, hothers⟩ := revokeFamily_spec hrevoke
    exact ⟨⟨_, congrArg some hout⟩, hrevoked, Or.inr htokens, hothers⟩
  | @rollback c' req call g err hwaiting hfresh herr =>
    obtain ⟨rfl, rfl⟩ := Prod.mk.inj (Option.some.inj hend)
    obtain ⟨family, rfl, hid⟩ := hcall call hwaiting
    -- the family is there, so its revocation cannot fail
    obtain ⟨f, hf⟩ := hI.sessions.sound.family row' (Table.get?_eq_some.mp hrow'.found).1
    rw [hfam, ← hid] at hf
    have hok : (AuthCall.transaction env crypto (.revoke family) g pre.now).run pre.store
        = .ok _ := Transaction.bind_ok.mpr
      ⟨(), _, revokeFamily_ok.mpr ⟨f, hf, rfl⟩, Transaction.pure_ok.mpr ⟨rfl, rfl⟩⟩
    have hcontra := hok.symm.trans herr
    cases hcontra

/-- **Revocation and reuse are contained.** A revoked family stays revoked, and a call
that is looked up later and presents a token that the family has, or will have, is
denied. A call that is looked up after a refresh has returned tokens for the token it
presents is denied; once it has ended, the token's family is revoked for good and no
other family has changed. -/
theorem revocation_contained {tr' : List (Transition AuthState AuthEvent)}
    (hrun : Run (AuthStep env crypto) s tr m) (hrun' : Run (AuthStep env crypto) m tr' t)
    (hidle : s.Idle) (hnone : NoSessions s.store) :
    (∀ familyId, m.store.FamilyRevoked familyId → t.store.FamilyRevoked familyId ∧
      ∀ row ∈ t.store.familyTokens familyId, ∀ refreshToken,
        row.tokenHash = hashToken crypto refreshToken →
        ∀ c, m.calls c = .notStarted → ∀ x ∈ tr',
          ended? x.event = some (c, .refresh refreshToken) →
          ∃ out, response? crypto x = some out ∧ Denied refreshToken out) ∧
    ∀ x ∈ tr, ∀ c₀ refreshToken tokens, ended? x.event = some (c₀, .refresh refreshToken) →
      response? crypto x = some (.tokens tokens) →
      ∃ row ∈ m.store.refreshTokens, row.tokenHash = hashToken crypto refreshToken ∧
        ∀ c, m.calls c = .notStarted → ∀ y ∈ tr',
          ended? y.event = some (c, .refresh refreshToken) →
          (∃ message, response? crypto y = some (.failed (.app (unauthorizedError message)))) ∧
          (y.post.store.FamilyRevoked row.familyId ∧ t.store.FamilyRevoked row.familyId) ∧
          (y.post.store = y.pre.store ∨
            ∀ token ∈ y.post.store.familyTokens row.familyId, token.revoked = true) ∧
          ∀ other, other ≠ row.familyId → SameFamily y.pre.store y.post.store other := by
  have hs : RevocationInvariant env crypto s :=
    ⟨sessionsInvariant_start hidle hnone, ownersKnown_start hidle hnone⟩
  have hm := revocationInvariant_run hrun hs
  refine ⟨fun familyId hrev => ⟨(sessionsEvolve_run hrun' hm.sessions).familyRevoked hrev, ?_⟩, ?_⟩
  · intro row hrow refreshToken hhash c hc x hx hend
    obtain ⟨hmem, rfl⟩ := mem_familyTokens.mp hrow
    exact denied_after_revocation hrun' hm hrev hmem hhash hc hx hend
  · intro x hx c₀ refreshToken tokens hend₀ hout
    obtain ⟨l, l', rfl⟩ := List.append_of_mem hx
    obtain ⟨hpre, hstep, hpost⟩ := hrun.cut
    have hI := revocationInvariant_run hpre hs
    have he := (exchangedToken_iff_response hstep hI.sessions).mpr ⟨⟨c₀, hend₀⟩, tokens, hout⟩
    obtain ⟨hne, row₀, hrow₀⟩ := exchanged_of_step hstep hI.sessions he
    obtain ⟨row, hrow, -⟩ :=
      hrow₀.run hpost (sessionsInvariant_step _ _ _ hstep hI.sessions)
    refine ⟨row, (Table.get?_eq_some.mp hrow.found).1, hrow.hash, ?_⟩
    intro c hc y hy hend
    obtain ⟨hdenied, hrev, htokens, hothers⟩ := reuse_revokes_family hrun' hm hne hrow hc hy hend
    -- no later step takes the revocation back
    obtain ⟨l₁, l₂, rfl⟩ := List.append_of_mem hy
    obtain ⟨hbefore, hend', hafter⟩ := hrun'.cut
    have hlater := sessionsEvolve_run hafter
      (revocationInvariant_step _ _ _ hend' (revocationInvariant_run hbefore hm)).sessions
    exact ⟨hdenied, ⟨hrev, hlater.familyRevoked hrev⟩, htokens, hothers⟩

end Runs

/-! ### A token presented after its exchange

The session of `DoubleRefresh` after its first rotation: its first token is
presented once more, and its family is revoked. -/

namespace LateReuse

open DoubleRefresh Transaction

/-- The session. -/
def family : RefreshTokenFamily := ⟨uuid 10, uuid 2, false⟩

/-- What the revocation draws. -/
def drawn₃ : AuthGenerated := ⟨uuid 40, uuid 41, "", uuid 42⟩

/-- The reuse has revoked the session. -/
def revoked : Database :=
  ((AuthCall.revoke family).transaction DoubleRefresh.env crypto drawn₃ 0).after rotated

/-- What the reuse is answered with. -/
def reused : AuthResponse := .failed (.app (unauthorizedError "Refresh token reuse detected"))

/-- A call presents the exchanged token. -/
def s₆ : AuthState :=
  { s₅ with calls := Function.update s₅.calls 3 (.waiting refreshRequest (.revoke family)) }

/-- The session is revoked. -/
def s₇ : AuthState := { s₆ with store := revoked, calls := Function.update s₆.calls 3 .finished }

theorem revoke_ok :
    ((AuthCall.revoke family).transaction DoubleRefresh.env crypto drawn₃ 0).run rotated
      = .ok (reused, revoked) :=
  run_eq_after (by decide)

theorem reuse_lookup_ok :
    refreshRequest.lookup crypto rotated 0 = .ok (some (.revoke family)) := by
  decide

/-- The steps of the call. -/
def steps : List (Transition AuthState AuthEvent) :=
  [⟨s₅, .lookedUp 3 refreshRequest (.revoke family), s₆⟩,
    ⟨s₆, .committed 3 refreshRequest (.revoke family) drawn₃ reused, s₇⟩]

theorem run : Run (AuthStep DoubleRefresh.env crypto) s₅ steps s₇ := by
  have hfresh : drawn₃.Fresh crypto rotated := by
    refine ⟨?_, ?_, ?_, ?_⟩ <;> decide
  have hlookup : AuthStep DoubleRefresh.env crypto s₅
      (.lookedUp 3 refreshRequest (.revoke family)) s₆ := .lookup rfl reuse_lookup_ok
  have hcommit : AuthStep DoubleRefresh.env crypto s₆
      (.committed 3 refreshRequest (.revoke family) drawn₃ reused) s₇ :=
    .commit rfl hfresh revoke_ok
  exact ((Run.nil s₅).snoc hlookup).snoc hcommit

/-! The rotation that still waits adds a token to the revoked family. -/

/-- The rotation that had looked up before commits all the same. -/
def renewed : Database := (rotateCall.transaction DoubleRefresh.env crypto drawn₂ 0).after revoked

/-- The tokens it returns. -/
def renewedTokens : AuthResponse := .tokens ⟨accessToken, thirdToken, 900⟩

/-- The rotation has committed. -/
def s₈ : AuthState := { s₇ with store := renewed, calls := Function.update s₇.calls 2 .finished }

/-- The call that presents its token is refused. -/
def s₉ : AuthState := { s₈ with calls := Function.update s₈.calls 4 .finished }

theorem renew_ok : (rotateCall.transaction DoubleRefresh.env crypto drawn₂ 0).run revoked
    = .ok (renewedTokens, renewed) :=
  run_eq_after (by decide +kernel)

/-- That rotation, and a call that presents the token it added. -/
def later : List (Transition AuthState AuthEvent) :=
  [⟨s₇, .committed 2 refreshRequest rotateCall drawn₂ renewedTokens, s₈⟩,
    ⟨s₈, .answered 4 (.refresh thirdToken), s₉⟩]

theorem run_later : Run (AuthStep DoubleRefresh.env crypto) s₇ later s₉ := by
  have hfresh : drawn₂.Fresh crypto revoked := by
    refine ⟨?_, ?_, ?_, ?_⟩ <;> decide
  have hcommit : AuthStep DoubleRefresh.env crypto s₇
      (.committed 2 refreshRequest rotateCall drawn₂ renewedTokens) s₈ :=
    .commit rfl hfresh renew_ok
  have hrefused : (AuthRequest.refresh thirdToken).lookup crypto renewed 0
      = .error (.app (unauthorizedError "Session revoked")) := by
    decide
  have hanswer : AuthStep DoubleRefresh.env crypto s₈ (.answered 4 (.refresh thirdToken)) s₉ := by
    refine .answer rfl fun call hcall => ?_
    cases hrefused.symm.trans hcall
  exact ((Run.nil s₇).snoc hcommit).snoc hanswer

end LateReuse

open LateReuse DoubleRefresh in
/-- The first token is presented again, and its family is revoked; the token that the
other rotation then adds is denied. -/
theorem revocation_contained_late_reuse :
    (∃ row ∈ s₅.store.refreshTokens, row.tokenHash = hashToken crypto firstToken ∧
      (∃ message, response? crypto ⟨LateReuse.s₆, .committed 3 refreshRequest (.revoke family)
        drawn₃ reused, s₇⟩ = some (.failed (.app (unauthorizedError message)))) ∧
      s₉.store.FamilyRevoked row.familyId) ∧
    ∃ out, response? crypto ⟨s₈, .answered 4 (.refresh thirdToken), s₉⟩ = some out ∧
      Denied thirdToken out := by
  constructor
  · have h := (revocation_contained DoubleRefresh.run_rotate (LateReuse.run.append run_later)
      DoubleRefresh.idle DoubleRefresh.noSessions).2
    obtain ⟨row, hmem, hhash, hrow⟩ := h _ (List.getLast_mem (by decide)) 1 firstToken _ rfl rfl
    obtain ⟨hdenied, hrevoked, -⟩ := hrow 3 rfl _
      (List.mem_append_left _ (List.getLast_mem (l := LateReuse.steps) (by decide))) rfl
    exact ⟨row, hmem, hhash, hdenied, hrevoked.2⟩
  · have h := (revocation_contained (DoubleRefresh.run_rotate.append LateReuse.run) run_later
      DoubleRefresh.idle DoubleRefresh.noSessions).1
    have hrevoked : s₇.store.FamilyRevoked (uuid 10) := ⟨⟨uuid 10, uuid 2, true⟩, by decide, rfl⟩
    exact (h (uuid 10) hrevoked).2 ⟨uuid 31, uuid 10, thirdDigest, false, none, 2592000000⟩
      (by decide) thirdToken (by decide) 4 rfl _ (List.getLast_mem (l := later) (by decide)) rfl

end BookingPlatform
