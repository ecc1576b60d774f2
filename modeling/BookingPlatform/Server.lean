import BookingPlatform.Access
import BookingPlatform.Lib.Simulation
import BookingPlatform.Provenance

/-!
# The whole server

The sessions, the middleware of the requests and the booking system on one database,
under one clock.  A request that has been let in calls the booking service, once, for
the user it was let in as; the steps of all of them interleave in any order, with the
expiry runs and with whoever administers the users and the catalogue.

## Main definitions

* `ServerState`, `ServerStep` — sessions, requests and bookings on one database.
* `accessSteps` — the steps of a run as the sessions see them.

## Main results

* `accessStep_of_step`, `serverInvariant_step` — each component keeps its own rules
  beside the other.
* `bookings_from_sessions` — a booking is written for a user with a session.
-/

namespace BookingPlatform

open Runs

/-! ### The system -/

/-- The database and the clock are those of the sessions; the call of a request has its
number. -/
structure ServerState where
  access : AccessState
  calls : ℕ → CallState
  workers : ℕ → WorkerState

/-- The booking system in a server. -/
def ServerState.core (s : ServerState) : State :=
  ⟨s.access.auth.store, s.access.auth.now, s.calls, s.workers⟩

/-- The booking system has made a step. -/
def ServerState.withCore (s : ServerState) (t : State) : ServerState :=
  ⟨s.access.withStore t.db, t.calls, t.workers⟩

/-- Nothing has started. -/
structure ServerState.Idle (s : ServerState) : Prop where
  access : s.access.Idle
  core : s.core.Idle

/-- A step of the sessions, of an administrator, or of the booking system. -/
inductive ServerEvent
  | access (e : AccessEvent)
  | administered
  | booking (e : Event)

/-- What the sessions and the middleware see of a step. -/
def ServerEvent.toAccess : ServerEvent → AccessEvent
  | .access e => e
  | .administered | .booking _ => .others

/-- The tenant that a request names. -/
def Request.tenantId : Request → Uuid
  | .create tenantId _ _ | .confirm tenantId _ _ | .cancel tenantId _ _ _ => tenantId

/-- The user that a request names. -/
def Request.userId : Request → Uuid
  | .create _ userId _ | .confirm _ userId _ | .cancel _ userId _ _ => userId

/-- A call or an expiry run goes on; the clock and the requests do the rest. -/
def Event.proceeds : Event → Bool
  | .tick | .lookedUp _ _ | .refused _ _ => false
  | _ => true

/-- One step of the server. -/
inductive ServerStep (ttl : ℕ) (env : AuthEnv) (crypto : Crypto) (jwt : Jwt) :
    ServerState → ServerEvent → ServerState → Prop
  | access {s : ServerState} {e : AccessEvent} {t : AccessState} :
      AccessStep env crypto jwt s.access e t → e ≠ .others →
      ServerStep ttl env crypto jwt s (.access e) { s with access := t }
  -- no service writes the users and the catalogue
  | administer {s : ServerState} {db : Database} :
      db.refreshTokens = s.core.db.refreshTokens →
      db.refreshTokenFamilies = s.core.db.refreshTokenFamilies →
      db.bookings = s.core.db.bookings → Evolves s.core.db db →
      ServerStep ttl env crypto jwt s .administered { s with access := s.access.withStore db }
  | lookup {s : ServerState} {n : ℕ} {user : AuthenticatedUser} {req : Request} {order : RowOrder}
      {call : Call} :
      s.access.requests n = .admitted user → req.tenantId = user.tenantId → req.userId = user.id →
      s.calls n = .notStarted → req.lookup ttl order s.core.db s.core.now = .ok call →
      ServerStep ttl env crypto jwt s (.booking (.lookedUp n call))
        { s with calls := Function.update s.calls n (.waiting call) }
  | refuse {s : ServerState} {n : ℕ} {user : AuthenticatedUser} {req : Request} {order : RowOrder}
      {e : Failure} :
      s.access.requests n = .admitted user → req.tenantId = user.tenantId → req.userId = user.id →
      s.calls n = .notStarted → req.lookup ttl order s.core.db s.core.now = .error e →
      ServerStep ttl env crypto jwt s (.booking (.refused n e))
        { s with calls := Function.update s.calls n .finished }
  | booking {s : ServerState} {e : Event} {t : State} :
      Step ttl s.core e t → e.proceeds = true →
      ServerStep ttl env crypto jwt s (.booking e) (s.withCore t)

/-! ### The components -/

/-- A lookup is for whom the request is. -/
theorem caller_of_lookup {ttl : ℕ} {order : RowOrder} {db : Database} {now : Instant}
    {req : Request} {call : Call} (h : req.lookup ttl order db now = .ok call) :
    call.tenantId = req.tenantId ∧ call.userId = req.userId := by
  cases req with
  | create tenantId userId body =>
    obtain ⟨call', hcall, rfl⟩ := Except.map_eq_ok.mp h
    obtain ⟨_, _, _, -, -, -, -, -, -, rfl⟩ := createReservationLookup_ok.mp hcall
    exact ⟨rfl, rfl⟩
  | confirm tenantId userId reference =>
    obtain ⟨call', hcall, rfl⟩ := Except.map_eq_ok.mp h
    obtain ⟨ht, hu, -⟩ := confirmReservationLookup_spec hcall
    exact ⟨ht, hu⟩
  | cancel tenantId userId reference reason =>
    obtain ⟨call', hcall, rfl⟩ := Except.map_eq_ok.mp h
    obtain ⟨ht, hu, -⟩ := cancelReservationLookup_spec hcall
    exact ⟨ht, hu⟩

/-- A database with the same bookings and slots has evolved. -/
theorem evolves_of_tables {db db' : Database} (hb : db'.bookings = db.bookings)
    (hs : db'.availabilitySlots = db.availabilitySlots) : Evolves db db' where
  booking id b h := ⟨b, by rwa [hb], .refl b⟩
  slot id s h := ⟨s, by rwa [hs], .refl s, le_refl _, fun _ => rfl⟩
  active s s' b b' _ _ _ h h' hact := by
    rw [hb, h] at h'
    obtain rfl := Option.some.inj h'
    exact hact

/-- The authentication service writes no booking and no slot. -/
theorem tables_of_authStep {env : AuthEnv} {crypto : Crypto} {s t : AuthState} {e : AuthEvent}
    (h : AuthStep env crypto s e t) : t.store.bookings = s.store.bookings ∧
      t.store.availabilitySlots = s.store.availabilitySlots := by
  cases h with
  | tick | lookup | answer | rollback => exact ⟨rfl, rfl⟩
  | @commit c req call g out store hc hfresh hrun =>
    change (AuthCall.transaction env crypto call g s.now).run s.store = _ at hrun
    cases call with
    | login call =>
      simp only [AuthCall.transaction, Transaction.bind_ok, Transaction.pure_ok,
        loginTransaction_ok] at hrun
      obtain ⟨_, _, ⟨_, _, -, rfl⟩, -, rfl⟩ := hrun
      exact ⟨rfl, rfl⟩
    | rotate call =>
      simp only [AuthCall.transaction, Transaction.bind_ok, Transaction.pure_ok,
        rotateTransaction_ok] at hrun
      obtain ⟨_, _, ⟨-, _, -, rfl⟩, -, rfl⟩ := hrun
      exact ⟨rfl, rfl⟩
    | revoke presented =>
      simp only [AuthCall.transaction, Transaction.bind_ok, Transaction.pure_ok,
        revokeFamily_ok] at hrun
      obtain ⟨_, _, ⟨_, -, rfl⟩, -, rfl⟩ := hrun
      exact ⟨rfl, rfl⟩
    | logout call =>
      simp only [AuthCall.transaction, Transaction.bind_ok, Transaction.pure_ok,
        logoutTransaction_ok] at hrun
      obtain ⟨_, _, ⟨_, -, rfl⟩, -, rfl⟩ := hrun
      exact ⟨rfl, rfl⟩

/-- A booking step writes no session. -/
theorem sessions_of_change {e : Event} {now : Instant} {db db' : Database}
    (h : Change e now db db') : db'.refreshTokens = db.refreshTokens ∧
      db'.refreshTokenFamilies = db.refreshTokenFamilies := by
  cases h <;> exact ⟨rfl, rfl⟩

section

variable {ttl : ℕ} {env : AuthEnv} {crypto : Crypto} {jwt : Jwt} {s t : ServerState}
  {e : ServerEvent} {tr : List (Transition ServerState ServerEvent)}

/-- What holds in every reachable state. -/
structure ServerInvariant (ttl : ℕ) (env : AuthEnv) (crypto : Crypto) (s : ServerState) : Prop where
  access : AccessInvariant env crypto s.access
  coherent : Coherent ttl s.core

/-- **A booking step of the server is one of the booking system.** -/
theorem coreStep_of_step {e : Event} (h : ServerStep ttl env crypto jwt s (.booking e) t) :
    Step ttl s.core e t.core := by
  cases h with
  | lookup _ _ _ hfree hlook => exact .lookup hfree hlook
  | refuse _ _ _ hfree hlook => exact .refuse hfree hlook
  | @booking _ t hstep hproceeds =>
    have hnow : t.now = s.core.now := by
      cases hstep with
      | tick => cases hproceeds
      | lookup | refuse | commit | rollback | list | expire | skip | fail | return_ => rfl
    rw [show (s.withCore t).core = t from by
      cases t
      simp only [ServerState.core, ServerState.withCore, AccessState.withStore]
      rw [show s.access.auth.now = _ from hnow.symm]]
    exact hstep

/-- **Every step of the server is one of the sessions and the middleware**, as they see
it. -/
theorem accessStep_of_step (h : ServerStep ttl env crypto jwt s e t)
    (hs : ServerInvariant ttl env crypto s) :
    AccessStep env crypto jwt s.access e.toAccess t.access := by
  cases e with
  | access e =>
    cases h with
    | access hstep hne => exact hstep
  | administered =>
    cases h with
    | administer htokens hfamilies => exact .others htokens hfamilies
  | booking e =>
    obtain ⟨htokens, hfamilies⟩ :=
      sessions_of_change (change_of_step (coreStep_of_step h) hs.coherent)
    have hothers := @AccessStep.others env crypto jwt s.access _ htokens hfamilies
    cases h with
    | lookup | refuse => exact hothers
    | booking => exact hothers

/-- A step of the sessions or of the middleware writes no booking and no slot. -/
theorem evolves_of_access {e : AccessEvent} {t : AccessState}
    (h : AccessStep env crypto jwt s.access e t) (hne : e ≠ .others) :
    Evolves s.core.db t.auth.store := by
  cases h with
  | auth hstep =>
    obtain ⟨hbookings, hslots⟩ := tables_of_authStep hstep
    exact evolves_of_tables hbookings hslots
  | others => exact absurd rfl hne
  | verify | refuse | letIn | reject => exact .refl _

theorem serverInvariant_step (s : ServerState) (e : ServerEvent) (t : ServerState)
    (h : ServerStep ttl env crypto jwt s e t) (hs : ServerInvariant ttl env crypto s) :
    ServerInvariant ttl env crypto t := by
  refine ⟨accessInvariant_step _ _ _ (accessStep_of_step h hs) hs.access, ?_⟩
  -- the calls wait on, whatever the sessions and the administration write
  have hwaits : ∀ {t : ServerState}, Evolves s.core.db t.core.db → t.calls = s.calls →
      t.workers = s.workers → Coherent ttl t.core := by
    intro t hevolves hcalls hworkers
    refine hs.coherent.of_evolves hevolves (fun c call hc => Or.inl ?_)
      fun w batch n hw => Or.inl ⟨batch, n, ?_, List.Subset.refl batch⟩
    · rwa [show t.core.calls = s.core.calls from hcalls] at hc
    · rwa [show t.core.workers = s.core.workers from hworkers] at hw
  cases e with
  | access e =>
    cases h with
    | access hstep hne => exact hwaits (evolves_of_access hstep hne) rfl rfl
  | administered =>
    cases h with
    | administer htokens hfamilies hbookings hevolves => exact hwaits hevolves rfl rfl
  | booking e => exact coherent_step (coreStep_of_step h) hs.coherent

theorem ServerState.Idle.invariant (h : s.Idle) : ServerInvariant ttl env crypto s :=
  ⟨h.access.auth.coherent, h.core.coherent⟩

/-- The steps of a run, as the sessions and the middleware see them. -/
def accessSteps (tr : List (Transition ServerState ServerEvent)) :
    List (Transition AccessState AccessEvent) :=
  tr.map (Transition.image ServerState.access ServerEvent.toAccess)

theorem accessSteps_append (l l' : List (Transition ServerState ServerEvent)) :
    accessSteps (l ++ l') = accessSteps l ++ accessSteps l' := List.map_append

theorem accessSteps_run (hrun : Run (ServerStep ttl env crypto jwt) s tr t)
    (hs : ServerInvariant ttl env crypto s) :
    Run (AccessStep env crypto jwt) s.access (accessSteps tr) t.access :=
  hrun.image (I := ServerInvariant ttl env crypto) serverInvariant_step
    (fun _ _ _ => accessStep_of_step) hs

/-! ### Where a booking comes from -/

/-- A call that waits was looked up for the user whom its request was let in as. -/
theorem caller_of_waiting (hrun : Run (ServerStep ttl env crypto jwt) s tr t) {n : ℕ} {call : Call}
    (hs : s.calls n ≠ .waiting call) (hn : t.calls n = .waiting call) :
    ∃ l x l' user, tr = l ++ x :: l' ∧ x.event = .booking (.lookedUp n call) ∧
      x.pre.access.requests n = .admitted user ∧ call.tenantId = user.tenantId ∧
      call.userId = user.id := by
  obtain ⟨l, x, l', rfl, hpre, hpost⟩ :=
    hrun.origin (P := fun s => s.calls n = .waiting call) hs hn
  have hstep := hrun.cut.2.1
  refine ⟨l, x, l', ?_⟩
  obtain ⟨pre, event, post⟩ := x
  replace hpre : pre.calls n ≠ .waiting call := hpre
  replace hpost : post.calls n = .waiting call := hpost
  replace hstep : ServerStep ttl env crypto jwt pre event post := hstep
  cases hstep with
  | access | administer => exact absurd hpost hpre
  | @lookup m user req order call' hadmitted ht hu hfree hlook =>
    rcases update_eq hpost with ⟨rfl, hphase⟩ | hwas
    · obtain rfl := CallState.waiting.inj hphase
      obtain ⟨hct, hcu⟩ := caller_of_lookup hlook
      exact ⟨user, rfl, rfl, hadmitted, hct.trans ht, hcu.trans hu⟩
    · exact absurd hwas hpre
  | refuse =>
    rcases update_eq hpost with ⟨-, hphase⟩ | hwas
    · cases hphase
    · exact absurd hwas hpre
  | booking hstep hproceeds =>
    rcases waiting_of_step hstep n call hpost with hwas | ⟨rfl, -⟩
    · exact absurd hwas hpre
    · cases hproceeds

/-- A step that writes a booking commits a call or an expiry. -/
theorem commit_of_written (h : ServerStep ttl env crypto jwt s e t)
    (hs : ServerInvariant ttl env crypto s) (hne : t.core.db.bookings ≠ s.core.db.bookings) :
    (∃ w item, e = .booking (.expired w item)) ∨
      ∃ n call g, e = .booking (.committed n call g) := by
  cases e with
  | access e =>
    cases h with
    | access hstep hothers =>
      cases hstep with
      | auth hstep => exact absurd (tables_of_authStep hstep).1 hne
      | others => exact absurd rfl hothers
      | verify | refuse | letIn | reject => exact absurd rfl hne
  | administered =>
    cases h with
    | administer _ _ hbookings => exact absurd hbookings hne
  | booking e =>
    have hchange := change_of_step (coreStep_of_step h) hs.coherent
    cases e with
    | expired w item => exact Or.inl ⟨w, item, rfl⟩
    | committed n call g => exact Or.inr ⟨n, call, g, rfl⟩
    | tick | lookedUp | refused | rolledBack | listed | skipped | failed | returned =>
      exact absurd (congrArg Database.bookings (db_of_quiet hchange rfl)) hne

/-- **Bookings come from sessions.** Whatever writes a booking is an expiry, or the
commit of a call whose request carried an access token that was issued in the run to
the booking's user in its tenant, and verified before its seconds were over; that user
has a session, and was looked up as active for it. -/
theorem bookings_from_sessions (hrun : Run (ServerStep ttl env crypto jwt) s tr t)
    (hidle : s.Idle) (hjwt : HonoursIssued env jwt (accessSteps tr))
    (hunforged : Unforged (accessSteps tr)) {l l' : List (Transition ServerState ServerEvent)}
    {z : Transition ServerState ServerEvent} (htr : tr = l ++ z :: l') {id : Uuid} {b : Booking}
    (hb : z.post.core.db.bookings.get? id = some b)
    (hnew : z.pre.core.db.bookings.get? id ≠ some b) :
    (∃ w item, z.event = .booking (.expired w item)) ∨
    ∃ n call g l₁ x l₂ token found, z.event = .booking (.committed n call g) ∧
      l = l₁ ++ x :: l₂ ∧ x.event = .booking (.lookedUp n call) ∧
      IssuedInRun env (accessSteps l₁) n token found ∧ found.id = b.userId ∧
      found.tenantId = b.tenantId ∧
      ∃ family ∈ x.pre.core.db.refreshTokenFamilies, family.userId = b.userId := by
  subst htr
  obtain ⟨hbefore, hstep, -⟩ := hrun.cut
  have hstart : ServerInvariant ttl env crypto s := hidle.invariant
  have hinv : ServerInvariant ttl env crypto z.pre :=
    hbefore.invariant (I := ServerInvariant ttl env crypto) serverInvariant_step hstart
  have hwritten : z.post.core.db.bookings ≠ z.pre.core.db.bookings :=
    fun heq => hnew (heq ▸ hb)
  refine (commit_of_written hstep hinv hwritten).imp_right fun ⟨n, call, g, hz⟩ => ?_
  rw [hz] at hstep
  have hcore := coreStep_of_step hstep
  obtain ⟨hu, ht⟩ := owner_of_commit hcore hinv.coherent hb hnew
  -- the call was looked up for the user that its request was let in as
  have hwaiting : z.pre.calls n = .waiting call := (ran_of_step hcore rfl).1
  have hfree : s.calls n = .notStarted := hidle.core.1 n
  obtain ⟨l₁, x, l₂, user, rfl, hx, hadmitted, hct, hcu⟩ :=
    caller_of_waiting hbefore (by simp [hfree]) hwaiting
  -- and that user was read for a token that the run has issued
  have hupto := accessSteps_run hbefore.cut.1 hstart
  rw [List.append_assoc, accessSteps_append] at hjwt hunforged
  obtain ⟨token, found, hissued, hid, htenant, -⟩ :=
    issuedInRun_of_admitted hupto hidle.access hjwt.before hunforged.before hadmitted
  obtain ⟨family, hmem, hfamily⟩ := session_of_issuedInRun hupto hstart.access hissued
  have huser : found.id = b.userId := by rw [hu, hcu, hid]
  exact ⟨n, call, g, l₁, x, l₂, token, found, hz, rfl, hx, hissued, huser,
    by rw [ht, hct, htenant], family, hmem, hfamily.trans huser⟩

end

/-! ### A guest who logs in and books -/

namespace GuestBooks

open DoubleRefresh Transaction

/-- One user, and a slot. -/
def database : Database :=
  { LateConfirm.database with
    tenants := DoubleRefresh.database.tenants
    users := DoubleRefresh.database.users }

/-- The session is open. -/
def opened : Database := (loginCall.transaction DoubleRefresh.env crypto drawn₀ 0).after database

/-- The booking is made. -/
def reserved : Database :=
  (createReservationTransaction LateConfirm.createCall (LateConfirm.drawn 0) 0).after opened

/-- Before the login. -/
def v₀ : ServerState :=
  ⟨⟨.start database 0, fun _ => .notStarted⟩, fun _ => .notStarted, fun _ => .notStarted⟩

/-- The login has looked up. -/
def v₁ : ServerState := { v₀ with access := { v₀.access with auth := { v₀.access.auth with
  calls := Function.update v₀.access.auth.calls 0 (.waiting loginRequest loginCall) } } }

/-- The session is open. -/
def v₂ : ServerState := { v₁ with access := { v₁.access with auth := { v₁.access.auth with
  store := opened, calls := Function.update v₁.access.auth.calls 0 .finished } } }

/-- The request shows its token. -/
def v₃ : ServerState :=
  { v₂ with access := v₂.access.request 0 (.verified accessToken user.payload) }

/-- The request is let in. -/
def v₄ : ServerState :=
  { v₃ with access := v₃.access.request 0 (.admitted LoggedOut.admittedUser) }

/-- The creation has looked up. -/
def v₅ : ServerState :=
  { v₄ with calls := Function.update v₄.calls 0 (.waiting (.create LateConfirm.createCall)) }

/-- The booking is made. -/
def v₆ : ServerState :=
  v₅.withCore ⟨reserved, 0, Function.update v₅.calls 0 .finished, v₅.workers⟩

/-- The schedule up to the lookup of the booking. -/
def steps : List (Transition ServerState ServerEvent) :=
  [⟨v₀, .access (.auth (.lookedUp 0 loginRequest loginCall)), v₁⟩,
    ⟨v₁, .access (.auth (.committed 0 loginRequest loginCall drawn₀ session)), v₂⟩,
    ⟨v₂, .access (.verified 0 accessToken), v₃⟩,
    ⟨v₃, .access (.admitted 0 accessToken LoggedOut.admittedUser), v₄⟩,
    ⟨v₄, .booking (.lookedUp 0 (.create LateConfirm.createCall)), v₅⟩]

/-- The commit of the creation. -/
def commit : Transition ServerState ServerEvent :=
  ⟨v₅, .booking (.committed 0 (.create LateConfirm.createCall) (LateConfirm.drawn 0)), v₆⟩

theorem loginLookup_ok : loginRequest.lookup crypto database 0 = .ok (some loginCall) := by
  decide +kernel

theorem login_ok : (loginCall.transaction DoubleRefresh.env crypto drawn₀ 0).run database
    = .ok (session, opened) :=
  run_eq_after (by decide +kernel)

theorem create_ok :
    (createReservationTransaction LateConfirm.createCall (LateConfirm.drawn 0) 0).run opened
      = .ok (LateConfirm.booking, reserved) :=
  run_eq_after (by decide +kernel)

theorem run :
    Run (ServerStep 900 DoubleRefresh.env crypto LoggedOut.jwt) v₀ (steps ++ [commit]) v₆ := by
  have hlogin : ServerStep 900 DoubleRefresh.env crypto LoggedOut.jwt v₀
      (.access (.auth (.lookedUp 0 loginRequest loginCall))) v₁ :=
    .access (.auth (.lookup rfl loginLookup_ok)) (by simp)
  have hfresh : drawn₀.Fresh crypto database := by
    refine ⟨?_, ?_, ?_, ?_⟩ <;> decide
  have hopen : ServerStep 900 DoubleRefresh.env crypto LoggedOut.jwt v₁
      (.access (.auth (.committed 0 loginRequest loginCall drawn₀ session))) v₂ :=
    .access (.auth (.commit rfl hfresh login_ok)) (by simp)
  have hverify : verifyAccessToken LoggedOut.jwt accessToken 0 = .ok user.payload :=
    verifyAccessToken_ok.mpr ⟨by simp [LoggedOut.jwt], by decide⟩
  have hverified : ServerStep 900 DoubleRefresh.env crypto LoggedOut.jwt v₂
      (.access (.verified 0 accessToken)) v₃ :=
    .access (.verify rfl LoggedOut.bearer_ok hverify) (by simp)
  have hadmitted : ServerStep 900 DoubleRefresh.env crypto LoggedOut.jwt v₃
      (.access (.admitted 0 accessToken LoggedOut.admittedUser)) v₄ :=
    .access (.letIn rfl (by decide)) (by simp)
  have hlookup : ServerStep 900 DoubleRefresh.env crypto LoggedOut.jwt v₄
      (.booking (.lookedUp 0 (.create LateConfirm.createCall))) v₅ :=
    @ServerStep.lookup 900 DoubleRefresh.env crypto LoggedOut.jwt v₄ 0 LoggedOut.admittedUser
      (.create (uuid 1) (uuid 2) LateConfirm.body) {} _ rfl rfl rfl rfl rfl
  have hcommit : ServerStep 900 DoubleRefresh.env crypto LoggedOut.jwt v₅
      (.booking (.committed 0 (.create LateConfirm.createCall) (LateConfirm.drawn 0))) v₆ :=
    .booking (.commit rfl (by decide +kernel) create_ok) rfl
  exact ((((((Run.nil v₀).snoc hlogin).snoc hopen).snoc hverified).snoc hadmitted).snoc
    hlookup).snoc hcommit

theorem idle : v₀.Idle :=
  ⟨⟨TwoPhase.State.idle_start _ _, fun _ => rfl⟩, fun _ => rfl, fun _ => rfl⟩

/-- The login issues the only token. -/
theorem issued {y : Transition AccessState AccessEvent} (hy : y ∈ accessSteps (steps ++ [commit]))
    {token : String} {found : User} (h : y.event.issued? = some (token, found)) :
    token = accessToken ∧ found = user ∧ y.pre.auth.now = 0 := by
  simp only [accessSteps, steps, List.cons_append, List.nil_append, List.map_cons, List.map_nil,
    List.mem_cons, List.not_mem_nil, or_false] at hy
  rcases hy with rfl | rfl | rfl | rfl | rfl | rfl <;> cases h
  exact ⟨rfl, rfl, rfl⟩

theorem honours :
    HonoursIssued DoubleRefresh.env LoggedOut.jwt (accessSteps (steps ++ [commit])) := by
  intro y hy token found h
  obtain ⟨rfl, rfl, hnow⟩ := issued hy h
  intro now
  rw [hnow]
  simp [LoggedOut.jwt, DoubleRefresh.env]

/-- The one token that is verified is the login's. -/
theorem unforged : Unforged (accessSteps (steps ++ [commit])) := by
  refine unforged_of_login rfl rfl rfl (show _ = some (accessToken, user) from rfl) ?_
  intro x hx n token hverified
  simp only [accessSteps, steps, List.cons_append, List.nil_append, List.map_cons, List.map_nil,
    List.mem_cons, List.not_mem_nil, or_false] at hx
  rcases hx with rfl | rfl | rfl | rfl | rfl | rfl <;> cases hverified
  rfl

end GuestBooks

/-- The login behind the booking. -/
theorem bookings_from_sessions_guest : ∃ l₁ token found, l₁ <+: GuestBooks.steps ∧
    IssuedInRun DoubleRefresh.env (accessSteps l₁) 0 token found ∧
    found.id = LateConfirm.booking.userId := by
  have hb : GuestBooks.v₆.core.db.bookings.get? LateConfirm.booking.id
      = some LateConfirm.booking := by decide +kernel
  have hnew : GuestBooks.v₅.core.db.bookings.get? LateConfirm.booking.id
      ≠ some LateConfirm.booking := by decide +kernel
  rcases bookings_from_sessions GuestBooks.run GuestBooks.idle GuestBooks.honours
      GuestBooks.unforged rfl hb hnew with
    ⟨w, item, hz⟩ | ⟨n, call, g, l₁, x, l₂, token, found, hz, hl, -, hissued, hid, -⟩
  · cases hz
  · obtain ⟨rfl, -, -⟩ := Event.committed.inj (ServerEvent.booking.inj hz)
    exact ⟨l₁, token, found, ⟨_, hl.symm⟩, hissued, hid⟩

end BookingPlatform
