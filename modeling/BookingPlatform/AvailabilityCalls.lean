import BookingPlatform.AvailabilityCache
import BookingPlatform.Commits

/-!
# Searches, details and invalidations

A search or a detail asks the cache; on a miss it reads the database, answers, and
stores what it read at any later time.  A creation and a cancellation that have
committed, and an expiry whose transaction is still open, start an invalidation of
their tenant, which lists the tenant's keys and deletes them, batch by batch, while
everything else goes on.

## Main definitions

* `AvailabilityRequest` — a search or a detail.
* `AvailabilityCall`, `Invalidation` — how far a call or an invalidation has come.
* `CacheState`, `CacheStep` — the booking system with its cache.

## Main results

* `stored_of_step` — only a store puts an entry into the cache.
* `tenant?_of_changed` — the invalidation that comes with a change is of its tenant.
* `todo_of_step` — an invalidation does not finish while an entry it has to delete
  stays.
* `run_of_invalidate` — an invalidation that nothing interrupts is
  `invalidateTenantAvailability`.
-/

namespace BookingPlatform

open Runs

/-! ### Calls and invalidations -/

/-- A call of `searchExperiences` or of `getExperienceDetail`. -/
inductive AvailabilityRequest
  | search (tenantId : Uuid) (query : ExperienceSearchQuery)
  | detail (tenantId experienceId : Uuid) (query : ExperienceDetailQuery)

namespace AvailabilityRequest

/-- The tenant that asks. -/
def tenantId : AvailabilityRequest → Uuid
  | search tenantId _ => tenantId
  | detail tenantId _ _ => tenantId

/-- The key of the request. -/
def key (env : CacheEnv) : AvailabilityRequest → CacheKey
  | search tenantId query => searchCacheKey env tenantId query
  | detail tenantId experienceId query => detailCacheKey env tenantId experienceId query

/-- What the cache has for the request. -/
def getCached (env : CacheEnv) (cache : Cache) (now : Instant) :
    AvailabilityRequest → Option CachedResult
  | search tenantId query => getCachedSearch env tenantId query cache now
  | detail tenantId experienceId query => getCachedDetail env tenantId experienceId query cache now

/-- What the call reads from the database on a cache miss. -/
def load (rt : Runtime) (order : RowOrder) (db : Database) (now : Instant) :
    AvailabilityRequest → Except Failure CachedResult
  | search tenantId query => .search <$> searchExperiences rt order tenantId query db now
  | detail tenantId experienceId query =>
    .detail <$> getExperienceDetail rt order tenantId experienceId query db now

/-- The call stores its own kind of result. -/
def setCached (env : CacheEnv) (value : CachedResult) (cache : Cache) (now : Instant) :
    AvailabilityRequest → Cache
  | search tenantId query =>
    match value with
    | .search result => setCachedSearch env tenantId query result cache now
    | .detail _ => cache
  | detail tenantId experienceId query =>
    match value with
    | .search _ => cache
    | .detail result => setCachedDetail env tenantId experienceId query result cache now

end AvailabilityRequest

/-- A search or a detail, between its awaits. -/
inductive AvailabilityCall
  | notStarted
  | missed (req : AvailabilityRequest)
  | answered (req : AvailabilityRequest) (value : CachedResult)
  | finished

/-- A call of `invalidateTenantAvailability`.  While it runs, `todo` are the keys
that have been in the cache since it started, which its `SCAN` is bound to list. -/
inductive Invalidation
  | notStarted
  | queued (tenantId : Uuid)
  | running (tenantId : Uuid) (todo : List CacheKey)
  | finished (tenantId : Uuid)

/-- The tenant whose entries are deleted. -/
def Invalidation.tenant? : Invalidation → Option Uuid
  | notStarted => none
  | queued tenantId | running tenantId _ | finished tenantId => some tenantId

/-- These keys have not been in the cache all the time. -/
def Invalidation.drop (keys : List CacheKey) : Invalidation → Invalidation
  | running tenantId todo => running tenantId (todo.filter fun k => !keys.contains k)
  | sweep => sweep

/-- The keys of a tenant. -/
def Cache.keysOf (tenantId : Uuid) (cache : Cache) : List CacheKey :=
  (cache.rows.map CacheEntry.key).filter fun key => (tenantPrefix tenantId).isPrefixOf key

/-- The booking system, the cache, the searches and details and the invalidations by
their number, and the invalidation that each expiry run has enqueued last. -/
structure CacheState where
  tx : TxState
  cache : Cache
  calls : ℕ → AvailabilityCall
  sweeps : ℕ → Invalidation
  enqueued : ℕ → ℕ

/-- Nothing has started; the cache may hold anything. -/
structure CacheState.Idle (s : CacheState) : Prop where
  tx : s.tx.Idle
  calls : ∀ r, s.calls r = .notStarted
  sweeps : ∀ n, s.sweeps n = .notStarted

/-- The tenant whose availability a commit changes, and whose invalidation the code
enqueues. -/
def Event.invalidates? : Event → Option Uuid
  | .committed _ (.create call) _ => some call.tenantId
  | .committed _ (.cancel call) _ => some call.tenantId
  | .expired _ item => some item.tenantId
  | _ => none

/-- What a step was; a change comes with the number of its invalidation. -/
inductive CacheEvent
  | tx (e : TxEvent)
  | changed (e : Event) (n : ℕ)
  | hit (r : ℕ) (req : AvailabilityRequest) (value : CachedResult)
  | missed (r : ℕ) (req : AvailabilityRequest)
  | loaded (r : ℕ) (req : AvailabilityRequest) (answer : Except Failure CachedResult)
  | stored (r : ℕ) (req : AvailabilityRequest) (value : CachedResult)
  | sweepStarted (n : ℕ)
  | deleted (n : ℕ) (keys : List CacheKey)
  | sweepFinished (n : ℕ)

/-- One step of the system with its cache. -/
inductive CacheStep (rt : Runtime) (env : CacheEnv) (ttl : ℕ) :
    CacheState → CacheEvent → CacheState → Prop
  -- what changes no availability
  | tx {s : CacheState} {e : TxEvent} {t : TxState} :
      TxStep ttl s.tx e t → (∀ e', e = .core e' → e'.invalidates? = none) →
      (∀ w item, e ≠ .opened w item) → CacheStep rt env ttl s (.tx e) { s with tx := t }
  -- a creation and a cancellation enqueue when their transaction has returned
  | commit {s : CacheState} {c n : ℕ} {call : Call} {g : Generated} {t : TxState}
      {tenantId : Uuid} :
      TxStep ttl s.tx (.core (.committed c call g)) t →
      (Event.committed c call g).invalidates? = some tenantId → s.sweeps n = .notStarted →
      CacheStep rt env ttl s (.changed (.committed c call g) n)
        { s with tx := t, sweeps := Function.update s.sweeps n (.queued tenantId) }
  -- an expiry enqueues at the end of its transaction, before the commit
  | open_ {s : CacheState} {w n : ℕ} {item : StaleBooking} {t : TxState} :
      TxStep ttl s.tx (.opened w item) t → s.sweeps n = .notStarted →
      CacheStep rt env ttl s (.tx (.opened w item)) { s with
        tx := t
        sweeps := Function.update s.sweeps n (.queued item.tenantId)
        enqueued := Function.update s.enqueued w n }
  | expire {s : CacheState} {w : ℕ} {item : StaleBooking} {t : TxState} :
      TxStep ttl s.tx (.core (.expired w item)) t →
      CacheStep rt env ttl s (.changed (.expired w item) (s.enqueued w)) { s with tx := t }
  | hit {s : CacheState} {r : ℕ} {req : AvailabilityRequest} {value : CachedResult} :
      s.calls r = .notStarted → req.getCached env s.cache s.tx.core.now = some value →
      CacheStep rt env ttl s (.hit r req value)
        { s with calls := Function.update s.calls r .finished }
  | miss {s : CacheState} {r : ℕ} {req : AvailabilityRequest} :
      s.calls r = .notStarted → req.getCached env s.cache s.tx.core.now = none →
      CacheStep rt env ttl s (.missed r req)
        { s with calls := Function.update s.calls r (.missed req) }
  -- the reads of one call see one state of the database
  | load {s : CacheState} {r : ℕ} {req : AvailabilityRequest} {order : RowOrder}
      {value : CachedResult} :
      s.calls r = .missed req → req.load rt order s.tx.core.db s.tx.core.now = .ok value →
      CacheStep rt env ttl s (.loaded r req (.ok value))
        { s with calls := Function.update s.calls r (.answered req value) }
  | loadFails {s : CacheState} {r : ℕ} {req : AvailabilityRequest} {order : RowOrder}
      {e : Failure} :
      s.calls r = .missed req → req.load rt order s.tx.core.db s.tx.core.now = .error e →
      CacheStep rt env ttl s (.loaded r req (.error e))
        { s with calls := Function.update s.calls r .finished }
  -- a key that comes back has not been there all the time
  | store {s : CacheState} {r : ℕ} {req : AvailabilityRequest} {value : CachedResult} :
      s.calls r = .answered req value →
      CacheStep rt env ttl s (.stored r req value) { s with
        cache := req.setCached env value s.cache s.tx.core.now
        calls := Function.update s.calls r .finished
        sweeps := fun n =>
          if s.cache.read (req.key env) s.tx.core.now = none then
            (s.sweeps n).drop [req.key env]
          else s.sweeps n }
  | startSweep {s : CacheState} {n : ℕ} {tenantId : Uuid} :
      s.sweeps n = .queued tenantId →
      CacheStep rt env ttl s (.sweepStarted n) { s with
        sweeps := Function.update s.sweeps n (.running tenantId (s.cache.keysOf tenantId)) }
  -- one reply of the scan, which may list other keys that match as well
  | delete {s : CacheState} {n : ℕ} {tenantId : Uuid} {todo keys : List CacheKey} :
      s.sweeps n = .running tenantId todo → (∀ k ∈ keys, tenantPrefix tenantId <+: k) →
      CacheStep rt env ttl s (.deleted n keys)
        { s with cache := s.cache.del keys, sweeps := fun n => (s.sweeps n).drop keys }
  -- the cursor is back at the start: what stayed has been listed, and deleted
  | finishSweep {s : CacheState} {n : ℕ} {tenantId : Uuid} {todo : List CacheKey} :
      s.sweeps n = .running tenantId todo →
      (∀ k ∈ todo, s.cache.read k s.tx.core.now = none) →
      CacheStep rt env ttl s (.sweepFinished n)
        { s with sweeps := Function.update s.sweeps n (.finished tenantId) }

/-! ### One step -/

theorem AvailabilityRequest.tenantPrefix_key (env : CacheEnv) (req : AvailabilityRequest) :
    tenantPrefix req.tenantId <+: req.key env := by
  cases req with
  | search tenantId query => exact tenantPrefix_searchCacheKey env tenantId query
  | detail tenantId experienceId query =>
    exact tenantPrefix_detailCacheKey env tenantId experienceId query

/-- A key is there, with this entry, and has not expired. -/
def CacheState.Live (s : CacheState) (k : CacheKey) (entry : CacheEntry) : Prop :=
  s.cache.get? k = some entry ∧ s.tx.core.now < entry.expiresAt

theorem CacheState.Live.read {s : CacheState} {k : CacheKey} {entry : CacheEntry}
    (h : s.Live k entry) : s.cache.read k s.tx.core.now = some entry.value := by
  rw [Cache.read, h.1, Option.bind_some, if_pos h.2]

theorem live_of_getCached {s : CacheState} {env : CacheEnv} {req : AvailabilityRequest}
    {value : CachedResult} (h : req.getCached env s.cache s.tx.core.now = some value) :
    ∃ entry, s.Live (req.key env) entry ∧ entry.value = value := by
  have hread : s.cache.read (req.key env) s.tx.core.now = some value := by
    cases req <;> exact h
  obtain ⟨entry, hget, hsome⟩ := Option.bind_eq_some_iff.mp hread
  split at hsome
  · next hlt => exact ⟨entry, ⟨hget, hlt⟩, Option.some.inj hsome⟩
  · cases hsome

theorem get?_setCached {env : CacheEnv} {req : AvailabilityRequest} {value : CachedResult}
    {cache : Cache} {now : Instant} {k : CacheKey} {entry : CacheEntry}
    (h : (req.setCached env value cache now).get? k = some entry) :
    cache.get? k = some entry ∨ (k = req.key env ∧ entry.value = value) := by
  have hwrite : ∀ key, (cache.write key value env.availabilityCacheTtlSeconds now).get? k =
      some entry → cache.get? k = some entry ∨ (k = key ∧ entry.value = value) := by
    intro key hget
    rw [get?_write] at hget
    split at hget
    · next hkey => exact Or.inr ⟨hkey.2, by rw [← Option.some.inj hget]⟩
    · exact Or.inl hget
  cases req <;> cases value <;> first | exact Or.inl h | exact hwrite _ h

/-- A tick is the only thing that moves the clock. -/
theorem now_le_of_txStep {ttl : ℕ} {s t : TxState} {e : TxEvent} (h : TxStep ttl s e t) :
    s.core.now ≤ t.core.now := by
  cases h with
  | quiet hstep | commit hstep | expire hopen hstep => exact now_le_of_step hstep
  | commitFails | open_ | expireFails => exact le_refl _

section Steps

variable {rt : Runtime} {env : CacheEnv} {ttl : ℕ} {s t : CacheState} {e : CacheEvent}

theorem now_le_of_cacheStep (h : CacheStep rt env ttl s e t) :
    s.tx.core.now ≤ t.tx.core.now := by
  cases h with
  | tx hstep | commit hstep | open_ hstep | expire hstep => exact now_le_of_txStep hstep
  | _ => exact le_refl _

/-- **Only a store puts an entry into the cache.** -/
theorem stored_of_step (h : CacheStep rt env ttl s e t) {k : CacheKey} {entry : CacheEntry}
    (hs : ¬ s.Live k entry) (ht : t.Live k entry) :
    ∃ r req, e = .stored r req entry.value ∧ k = req.key env := by
  have hnew : s.cache.get? k ≠ some entry :=
    fun hget => hs ⟨hget, lt_of_le_of_lt (now_le_of_cacheStep h) ht.2⟩
  cases h with
  | @store r req value hcall =>
    rcases get?_setCached ht.1 with hget | ⟨hkey, rfl⟩
    · exact absurd hget hnew
    · exact ⟨r, req, rfl, hkey⟩
  | @delete n tenantId todo keys hn hkeys =>
    have hget := ht.1
    rw [get?_del] at hget
    split at hget
    · cases hget
    · exact absurd hget hnew
  | _ => exact absurd ht.1 hnew

theorem not_live_of_deleted {n : ℕ} {keys : List CacheKey}
    (h : CacheStep rt env ttl s (.deleted n keys) t) {k : CacheKey} (hk : k ∈ keys)
    {entry : CacheEntry} : ¬ t.Live k entry := by
  cases h with
  | delete hn hkeys =>
    rintro ⟨hget, -⟩
    rw [get?_del, if_pos hk] at hget
    cases hget

/-- A value that waits to be stored has just been read. -/
theorem loaded_of_step (h : CacheStep rt env ttl s e t) {r : ℕ} {req : AvailabilityRequest}
    {value : CachedResult} (hs : s.calls r ≠ .answered req value)
    (ht : t.calls r = .answered req value) : e = .loaded r req (.ok value) := by
  cases h with
  | tx | commit | open_ | expire | startSweep | delete | finishSweep => exact absurd ht hs
  | hit | miss | loadFails | store =>
    rcases update_eq ht with ⟨-, hcall⟩ | hold
    · cases hcall
    · exact absurd hold hs
  | load hcall hload =>
    rcases update_eq ht with ⟨rfl, hanswer⟩ | hold
    · cases hanswer
      rfl
    · exact absurd hold hs

theorem answered_of_stored {r : ℕ} {req : AvailabilityRequest} {value : CachedResult}
    (h : CacheStep rt env ttl s (.stored r req value) t) : s.calls r = .answered req value := by
  cases h with
  | store hcall => exact hcall

theorem load_of_loaded {r : ℕ} {req : AvailabilityRequest} {answer : Except Failure CachedResult}
    (h : CacheStep rt env ttl s (.loaded r req answer) t) :
    ∃ order, req.load rt order s.tx.core.db s.tx.core.now = answer := by
  cases h with
  | load hcall hload => exact ⟨_, hload⟩
  | loadFails hcall hload => exact ⟨_, hload⟩

theorem cached_of_hit {r : ℕ} {req : AvailabilityRequest} {value : CachedResult}
    (h : CacheStep rt env ttl s (.hit r req value) t) :
    req.getCached env s.cache s.tx.core.now = some value := by
  cases h with
  | hit hcall hcached => exact hcached

theorem started_of_step (h : CacheStep rt env ttl s e t) {n : ℕ}
    (hs : ¬ ∃ tenantId todo, s.sweeps n = .running tenantId todo)
    (ht : ∃ tenantId todo, t.sweeps n = .running tenantId todo) : e = .sweepStarted n := by
  obtain ⟨tenantId, todo, ht⟩ := ht
  have hdrop : ∀ keys, (s.sweeps n).drop keys ≠ .running tenantId todo := by
    intro keys heq
    cases hn : s.sweeps n with
    | running tenantId todo => exact hs ⟨tenantId, todo, hn⟩
    | _ => rw [hn] at heq; cases heq
  have hold : s.sweeps n ≠ .running tenantId todo := fun heq => hs ⟨tenantId, todo, heq⟩
  cases h with
  | tx | expire | hit | miss | load | loadFails => exact absurd ht hold
  | commit | open_ | finishSweep =>
    rcases update_eq ht with ⟨-, hsweep⟩ | hkept
    · cases hsweep
    · exact absurd hkept hold
  | startSweep =>
    rcases update_eq ht with ⟨rfl, -⟩ | hkept
    · rfl
    · exact absurd hkept hold
  | @store r req value hcall =>
    dsimp only at ht
    split at ht
    · exact absurd ht (hdrop _)
    · exact absurd ht hold
  | @delete m tenantId' todo' keys hm hkeys => exact absurd ht (hdrop keys)

/-! ### The tenant of an invalidation -/

@[simp] theorem tenant?_drop (keys : List CacheKey) (sweep : Invalidation) :
    (sweep.drop keys).tenant? = sweep.tenant? := by
  cases sweep <;> rfl

/-- An invalidation is of one tenant. -/
theorem tenant?_of_step (h : CacheStep rt env ttl s e t) {n : ℕ} {tenantId : Uuid}
    (hs : (s.sweeps n).tenant? = some tenantId) : (t.sweeps n).tenant? = some tenantId := by
  have hupdate : ∀ {m : ℕ} {sweep : Invalidation}, (n = m → sweep.tenant? = some tenantId) →
      (Function.update s.sweeps m sweep n).tenant? = some tenantId := by
    intro m sweep hm
    by_cases hnm : n = m
    · subst hnm
      rw [Function.update_self]
      exact hm rfl
    · rw [Function.update_of_ne hnm]
      exact hs
  cases h with
  | tx | expire | hit | miss | load | loadFails => exact hs
  | commit hstep hinv hm | open_ hstep hm =>
    refine hupdate ?_
    rintro rfl
    rw [hm] at hs
    cases hs
  | startSweep hm | finishSweep hm htodo =>
    refine hupdate ?_
    rintro rfl
    rw [hm] at hs
    exact hs
  | store =>
    dsimp only
    split
    · rw [tenant?_drop]
      exact hs
    · exact hs
  | delete =>
    dsimp only
    rw [tenant?_drop]
    exact hs

theorem opened_of_txStep {s t : TxState} {e : TxEvent} (h : TxStep ttl s e t) {w : ℕ}
    {item : StaleBooking} (ht : t.opened w = some item) :
    s.opened w = some item ∨ e = .opened w item := by
  cases h with
  | quiet | commit | commitFails => exact Or.inl ht
  | open_ =>
    rcases update_eq ht with ⟨rfl, hitem⟩ | hold
    · obtain rfl := Option.some.inj hitem
      exact Or.inr rfl
    · exact Or.inl hold
  | expire | expireFails => exact Or.inl (opened_of_closed ht).2

theorem opened_of_expired {s t : TxState} {w : ℕ} {item : StaleBooking}
    (h : TxStep ttl s (.core (.expired w item)) t) : s.opened w = some item := by
  cases h with
  | quiet hstep hquiet => cases hquiet
  | expire hopen hstep => exact hopen

/-- The invalidation an open expiry has enqueued is of its tenant. -/
def CacheState.Enqueued (s : CacheState) : Prop :=
  ∀ w item, s.tx.opened w = some item →
    (s.sweeps (s.enqueued w)).tenant? = some item.tenantId

theorem enqueued_step (h : CacheStep rt env ttl s e t) (hs : s.Enqueued) : t.Enqueued := by
  intro w item hw
  have hkept : s.tx.opened w = some item → t.enqueued w = s.enqueued w →
      (t.sweeps (t.enqueued w)).tenant? = some item.tenantId := by
    intro hold henqueued
    rw [henqueued]
    exact tenant?_of_step h (hs w item hold)
  cases h with
  | @tx e' u hstep hnone hopen =>
    rcases opened_of_txStep hstep hw with hold | rfl
    · exact hkept hold rfl
    · exact absurd rfl (hopen w item)
  | commit hstep | expire hstep =>
    rcases opened_of_txStep hstep hw with hold | hopen
    · exact hkept hold rfl
    · cases hopen
  | @open_ w' n item' u hstep hn =>
    by_cases hww : w = w'
    · subst hww
      -- the run has just opened this expiry
      have hitem : item = item' := by
        rcases opened_of_txStep hstep hw with hold | hopen
        · cases hstep with
          | open_ hrunning hnone =>
            rw [hnone] at hold
            cases hold
        · cases hopen
          rfl
      subst hitem
      dsimp only
      rw [Function.update_self, Function.update_self]
      rfl
    · rcases opened_of_txStep hstep hw with hold | hopen
      · exact hkept hold (Function.update_of_ne hww _ _)
      · cases hopen
        exact absurd rfl hww
  | hit | miss | load | loadFails | store | startSweep | delete | finishSweep =>
    exact hkept hw rfl

/-- The invalidation that comes with a change is of the tenant of the change. -/
theorem tenant?_of_changed {e : Event} {n : ℕ} (h : CacheStep rt env ttl s (.changed e n) t)
    (hs : s.Enqueued) {tenantId : Uuid} (he : e.invalidates? = some tenantId) :
    (t.sweeps n).tenant? = some tenantId := by
  have hstep := h
  cases h with
  | commit hcommit hinv hn =>
    rw [hinv] at he
    obtain rfl := Option.some.inj he
    dsimp only
    rw [Function.update_self]
    rfl
  | expire hexpire =>
    obtain rfl := Option.some.inj he
    exact tenant?_of_step hstep (hs _ _ (opened_of_expired hexpire))

/-! ### What an invalidation deletes -/

theorem mem_keysOf {tenantId : Uuid} {cache : Cache} {k : CacheKey} {entry : CacheEntry}
    (hget : cache.get? k = some entry) (hk : tenantPrefix tenantId <+: k) :
    k ∈ cache.keysOf tenantId := by
  obtain ⟨hmem, hkey⟩ := Table.get?_eq_some.mp hget
  exact List.mem_filter.mpr ⟨hkey ▸ List.mem_map_of_mem hmem, List.isPrefixOf_iff_prefix.mpr hk⟩

theorem exists_todo_drop {sweep : Invalidation} {tenantId : Uuid} {todo keys : List CacheKey}
    {k : CacheKey} (hn : sweep = .running tenantId todo) (hk : k ∈ todo) (hkeys : k ∉ keys) :
    ∃ todo', sweep.drop keys = .running tenantId todo' ∧ k ∈ todo' := by
  rw [hn]
  exact ⟨_, rfl, List.mem_filter.mpr ⟨hk, by simpa using hkeys⟩⟩

/-- An invalidation does not finish, and does not forget a key, while an entry under
the key stays. -/
theorem todo_of_step (h : CacheStep rt env ttl s e t) {k : CacheKey} {entry : CacheEntry}
    (hs : s.Live k entry) (ht : t.Live k entry) {n : ℕ} {tenantId : Uuid} {todo : List CacheKey}
    (hn : s.sweeps n = .running tenantId todo) (hk : k ∈ todo) :
    ∃ todo', t.sweeps n = .running tenantId todo' ∧ k ∈ todo' := by
  have hother : ∀ {m : ℕ} {sweep : Invalidation}, n ≠ m →
      Function.update s.sweeps m sweep n = .running tenantId todo := by
    intro m sweep hnm
    rw [Function.update_of_ne hnm, hn]
  cases h with
  | tx | expire | hit | miss | load | loadFails => exact ⟨todo, hn, hk⟩
  | commit hstep hinv hm | open_ hstep hm | startSweep hm =>
    refine ⟨todo, hother ?_, hk⟩
    rintro rfl
    rw [hn] at hm
    cases hm
  | @store r req value hcall =>
    dsimp only
    split
    · next habsent =>
      -- the key was not there, so it is not the one of the entry
      refine exists_todo_drop hn hk ?_
      rw [List.mem_singleton]
      rintro rfl
      rw [hs.read] at habsent
      cases habsent
    · exact ⟨todo, hn, hk⟩
  | @delete m tenantId' todo' keys hm hkeys =>
    -- a deletion of the key would have removed the entry
    refine exists_todo_drop hn hk fun hmem => ?_
    have hget := ht.1
    rw [get?_del, if_pos hmem] at hget
    cases hget
  | @finishSweep m tenantId' todo' hm htodo =>
    -- an invalidation only finishes when none of its keys is left
    refine ⟨todo, hother ?_, hk⟩
    rintro rfl
    rw [hn] at hm
    cases hm
    have habsent := htodo k hk
    rw [hs.read] at habsent
    cases habsent

theorem running_of_started {n : ℕ} (h : CacheStep rt env ttl s (.sweepStarted n) t)
    {tenantId : Uuid} (hs : (s.sweeps n).tenant? = some tenantId) {k : CacheKey}
    {entry : CacheEntry} (hget : s.cache.get? k = some entry) (hk : tenantPrefix tenantId <+: k) :
    ∃ todo, t.sweeps n = .running tenantId todo ∧ k ∈ todo := by
  cases h with
  | startSweep hn =>
    rw [hn] at hs
    obtain rfl := Option.some.inj hs
    exact ⟨_, Function.update_self _ _ _, mem_keysOf hget hk⟩

theorem tenant?_of_sweepStarted {n : ℕ} (h : CacheStep rt env ttl s (.sweepStarted n) t) :
    ∃ tenantId, (s.sweeps n).tenant? = some tenantId := by
  cases h with
  | startSweep hn => exact ⟨_, by rw [hn]; rfl⟩

theorem running_of_finished {n : ℕ} (h : CacheStep rt env ttl s (.sweepFinished n) t) :
    ∃ tenantId todo, s.sweeps n = .running tenantId todo := by
  cases h with
  | finishSweep hn => exact ⟨_, _, hn⟩

theorem done_of_finished {n : ℕ} (h : CacheStep rt env ttl s (.sweepFinished n) t)
    {tenantId : Uuid} {todo : List CacheKey} (hn : s.sweeps n = .running tenantId todo) :
    ∀ k ∈ todo, s.cache.read k s.tx.core.now = none := by
  cases h with
  | finishSweep hm hdone =>
    rw [hn] at hm
    cases hm
    exact hdone

end Steps

/-! ### An invalidation without interruption -/

section Uninterrupted

/-- The deletions of an invalidation, reply by reply, in a system that can take them one
after another. -/
theorem run_of_replies {σ ε ρ : Type*} {step : σ → ε → σ → Prop} {cache : σ → Cache}
    {sweep : σ → Invalidation} {rest : σ → ρ} {tenantId : Uuid}
    (hstep : ∀ s todo keys, sweep s = .running tenantId todo →
      (∀ k ∈ keys, tenantPrefix tenantId <+: k) → ∃ e t, step s e t ∧ rest t = rest s ∧
        cache t = (cache s).del keys ∧ sweep t = (sweep s).drop keys)
    {replies : List (List CacheKey)}
    (hreplies : ∀ keys ∈ replies, ∀ k ∈ keys, tenantPrefix tenantId <+: k) {s : σ}
    {todo : List CacheKey} (hn : sweep s = .running tenantId todo)
    (htodo : ∀ k ∈ todo, tenantPrefix tenantId <+: k) :
    ∃ tr t todo', Run step s tr t ∧ rest t = rest s ∧
      cache t = replies.foldl (fun cache keys => if keys = [] then cache else cache.del keys)
        (cache s) ∧
      sweep t = .running tenantId todo' ∧ ∀ k ∈ todo', tenantPrefix tenantId <+: k := by
  induction replies generalizing s todo with
  | nil => exact ⟨[], s, todo, .nil s, rfl, rfl, hn, htodo⟩
  | cons keys replies ih =>
    have hlater : ∀ keys ∈ replies, ∀ k ∈ keys, tenantPrefix tenantId <+: k :=
      fun keys' hkeys' => hreplies keys' (List.mem_cons_of_mem _ hkeys')
    by_cases hnil : keys = []
    · simpa only [List.foldl_cons, if_pos hnil] using ih hlater hn htodo
    · obtain ⟨e, u, hfirst, hkept, hdel, hdropped⟩ :=
        hstep s todo keys hn (hreplies keys List.mem_cons_self)
      rw [hn] at hdropped
      obtain ⟨tr, t, todo', hrun, hrest, hcache, hlast⟩ :=
        ih hlater hdropped fun k hk => htodo k (List.mem_filter.mp hk).1
      refine ⟨_, t, todo', (Run.single hfirst).append hrun, hrest.trans hkept, ?_, hlast⟩
      rw [hcache, hdel, List.foldl_cons, if_neg hnil]

variable {rt : Runtime} {env : CacheEnv} {ttl : ℕ}

/-- **An invalidation that nothing interrupts is `invalidateTenantAvailability`.** -/
theorem run_of_invalidate {s : CacheState} {n : ℕ} {tenantId : Uuid}
    (hn : s.sweeps n = .queued tenantId) : ∃ tr t, Run (CacheStep rt env ttl) s tr t ∧
      t.tx = s.tx ∧ t.calls = s.calls ∧ t.sweeps n = .finished tenantId ∧
      t.cache = invalidateTenantAvailability env tenantId s.cache := by
  have hlit := tenantPrefix_literal tenantId
  obtain ⟨u, hu⟩ : ∃ u, u = { s with
      sweeps := Function.update s.sweeps n (.running tenantId (s.cache.keysOf tenantId)) } :=
    ⟨_, rfl⟩
  have hstart : CacheStep rt env ttl s (.sweepStarted n) u := hu ▸ .startSweep hn
  have hu' : u.sweeps n = .running tenantId (s.cache.keysOf tenantId) := by
    rw [hu]
    exact Function.update_self _ _ _
  have hdelete : ∀ v todo keys, v.sweeps n = .running tenantId todo →
      (∀ k ∈ keys, tenantPrefix tenantId <+: k) → ∃ e t, CacheStep rt env ttl v e t ∧
        (t.tx, t.calls) = (v.tx, v.calls) ∧ t.cache = v.cache.del keys ∧
        t.sweeps n = (v.sweeps n).drop keys :=
    fun v todo keys hv hkeys => ⟨_, _, .delete hv hkeys, rfl, rfl, rfl⟩
  obtain ⟨tr, t, todo, hrun, hrest, hcache, hrunning, htodo⟩ :
      ∃ tr t todo, Run (CacheStep rt env ttl) u tr t ∧ _ :=
    run_of_replies hdelete
      (fun keys hkeys k hk => env.scan.sound _ s.cache keys k hlit hkeys hk) hu'
      (fun k hk => List.isPrefixOf_iff_prefix.mp (List.mem_filter.mp hk).2)
  subst hu
  have hafter : t.cache = invalidateTenantAvailability env tenantId s.cache := hcache
  refine ⟨_, _, ((Run.single hstart).append hrun).snoc (.finishSweep hrunning ?_),
    congrArg Prod.fst hrest, congrArg Prod.snd hrest, Function.update_self _ _ _, hafter⟩
  intro k hk
  rw [hafter]
  exact read_invalidate env s.cache (htodo k hk) _

end Uninterrupted

end BookingPlatform
