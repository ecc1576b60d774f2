import Mathlib.Data.Rat.Encodable
import Mathlib.Tactic.DeriveEncodable
import BookingPlatform.AvailabilityCalls
import BookingPlatform.DateWindows
import BookingPlatform.Findable
import BookingPlatform.Lib.Glob

/-!
# The cache on its own

The calls of `availability-cache.ts`, of any tenants and with any documents, in any
order: sets and gets take effect at once, an invalidation is one deletion for each
reply of its `SCAN`, and everything else may happen between two of them.

## Main definitions

* `CacheServer`, `CacheCallStep` — the server and its calls.
* `CacheServer.Holds` — the server has an entry.
* `OneByOne` — no call falls into an invalidation.

## Main results

* `key_injective` — a key is that of one kind, tenant, experience and query.
* `present_of_got` — what a get returns has been there since a set stored it.
* `cache_calls_sound` — a get returns the latest value set for it, of which no
  invalidation has come since; an invalidation leaves nothing of its tenant that was
  there throughout, and everything of the others.
-/

namespace BookingPlatform

open Runs

/-! ### Keys -/

/-- The two kinds of keys differ after the tenant. -/
theorem search_ne_detail (x y : List Char) : "search:".toList ++ x ≠ "detail:".toList ++ y := by
  intro h
  have hhead := congrArg List.head? h
  simp at hhead

/-- **A key is that of one kind, tenant, experience and query.** -/
theorem AvailabilityRequest.key_injective {env : CacheEnv}
    (hsearch : Function.Injective env.searchHash) (hdetail : Function.Injective env.detailHash) :
    Function.Injective (AvailabilityRequest.key env) := by
  intro a b h
  -- the tenants are the same
  have htenant : a.tenantId = b.tenantId :=
    tenantPrefix_inj (a.tenantPrefix_key env) (h ▸ b.tenantPrefix_key env)
  cases a with
  | search t q =>
    cases b with
    | search t' q' =>
      obtain rfl : t = t' := htenant
      have hrest := List.append_cancel_left h
      rw [hsearch (List.append_cancel_left hrest)]
    | detail t' e' q' =>
      obtain rfl : t = t' := htenant
      have hrest := List.append_cancel_left h
      rw [List.append_assoc] at hrest
      exact absurd hrest (search_ne_detail _ _)
  | detail t e q =>
    cases b with
    | search t' q' =>
      obtain rfl : t = t' := htenant
      have hrest := List.append_cancel_left h
      rw [List.append_assoc] at hrest
      exact absurd hrest.symm (search_ne_detail _ _)
    | detail t' e' q' =>
      obtain rfl : t = t' := htenant
      have hrest := List.append_cancel_left h
      rw [List.append_assoc, List.append_assoc] at hrest
      obtain ⟨hid, hhash⟩ := List.append_inj (List.append_cancel_left hrest) (by
        rw [Uuid.length_toChars, Uuid.length_toChars])
      rw [Uuid.toChars_injective hid, hdetail (List.cons_injective hhash)]

/-! ### Calls -/

/-- The document is of the kind that the call stores. -/
def AvailabilityRequest.Accepts : AvailabilityRequest → CachedResult → Prop
  | search _ _, .search _ => True
  | detail _ _ _, .detail _ => True
  | _, _ => False

/-- The pattern of an invalidation. -/
def tenantPattern (tenantId : Uuid) : List Char := tenantPrefix tenantId ++ ['*']

/-- The keys in the cache that match a pattern. -/
def Cache.matching (pattern : List Char) (cache : Cache) : List CacheKey :=
  (cache.rows.map CacheEntry.key).filter (Glob.accepts pattern)

/-- The server, its clock and the invalidations by their number. -/
structure CacheServer where
  cache : Cache
  now : Instant
  sweeps : ℕ → Invalidation

/-- An empty cache, and nothing has started. -/
structure CacheServer.Fresh (s : CacheServer) : Prop where
  cache : s.cache = .empty
  sweeps : ∀ n, s.sweeps n = .notStarted

/-- A call, or a part of an invalidation. -/
inductive CacheCall
  | ticked
  | got (req : AvailabilityRequest) (answer : Option CachedResult)
  | set (req : AvailabilityRequest) (value : CachedResult)
  | sweepStarted (n : ℕ) (tenantId : Uuid)
  | deleted (n : ℕ) (tenantId : Uuid) (keys : List CacheKey)
  | sweepFinished (n : ℕ) (tenantId : Uuid)

/-- What a call does to the server. -/
inductive CacheCallStep (env : CacheEnv) : CacheServer → CacheCall → CacheServer → Prop
  | tick {s : CacheServer} {now : Instant} : s.now ≤ now →
      CacheCallStep env s .ticked { s with now := now }
  | get {s : CacheServer} {req : AvailabilityRequest} {answer : Option CachedResult} :
      req.getCached env s.cache s.now = answer → CacheCallStep env s (.got req answer) s
  -- a key that comes back has not been there all the time
  | set {s : CacheServer} {req : AvailabilityRequest} {value : CachedResult} : req.Accepts value →
      CacheCallStep env s (.set req value) { s with
        cache := req.setCached env value s.cache s.now
        sweeps := fun n =>
          if s.cache.read (req.key env) s.now = none then (s.sweeps n).drop [req.key env]
          else s.sweeps n }
  | startSweep {s : CacheServer} {n : ℕ} {tenantId : Uuid} : s.sweeps n = .notStarted →
      CacheCallStep env s (.sweepStarted n tenantId) { s with
        sweeps := Function.update s.sweeps n
          (.running tenantId (s.cache.matching (tenantPattern tenantId))) }
  -- one reply of the scan, which may list keys that have come or gone meanwhile
  | delete {s : CacheServer} {n : ℕ} {tenantId : Uuid} {todo keys : List CacheKey} :
      s.sweeps n = .running tenantId todo →
      (∀ k ∈ keys, Glob.accepts (tenantPattern tenantId) k = true) →
      CacheCallStep env s (.deleted n tenantId keys)
        { s with cache := s.cache.del keys, sweeps := fun n => (s.sweeps n).drop keys }
  -- the cursor is back at the start: what stayed has been listed, and deleted
  | finishSweep {s : CacheServer} {n : ℕ} {tenantId : Uuid} {todo : List CacheKey} :
      s.sweeps n = .running tenantId todo → (∀ k ∈ todo, s.cache.read k s.now = none) →
      CacheCallStep env s (.sweepFinished n tenantId)
        { s with sweeps := Function.update s.sweeps n (.finished tenantId) }

/-- **The pattern of a tenant accepts the keys under its prefix.** -/
theorem accepts_tenantPattern {tenantId : Uuid} {k : CacheKey} :
    Glob.accepts (tenantPattern tenantId) k = true ↔ tenantPrefix tenantId <+: k :=
  Glob.accepts_literal_star (tenantPrefix_literal tenantId) k

/-- The pattern of a tenant does not accept the keys of the others. -/
theorem tenantId_eq_of_accepts {env : CacheEnv} {req : AvailabilityRequest} {tenantId : Uuid}
    (h : Glob.accepts (tenantPattern tenantId) (req.key env) = true) : req.tenantId = tenantId :=
  tenantPrefix_inj (req.tenantPrefix_key env) (accepts_tenantPattern.mp h)

/-! ### One step -/

/-- There is an entry under the key, with this value, and it has not expired. -/
def CacheServer.Holds (s : CacheServer) (k : CacheKey) (entry : CacheEntry) : Prop :=
  s.cache.get? k = some entry ∧ s.now < entry.expiresAt

theorem read_eq_some {cache : Cache} {k : CacheKey} {now : Instant} {value : CachedResult} :
    cache.read k now = some value ↔
      ∃ entry, cache.get? k = some entry ∧ now < entry.expiresAt ∧ entry.value = value := by
  rw [Cache.read, Option.bind_eq_some_iff]
  refine exists_congr fun entry => and_congr_right fun _ => ?_
  split <;> simp [*]

section Steps

variable {env : CacheEnv} {s t : CacheServer} {e : CacheCall} {k : CacheKey} {entry : CacheEntry}

theorem now_le_of_cacheCall (h : CacheCallStep env s e t) : s.now ≤ t.now := by
  cases h with
  | tick hnow => exact hnow
  | _ => exact le_refl _

theorem setCached_eq {req : AvailabilityRequest} {value : CachedResult} (h : req.Accepts value)
    (cache : Cache) (now : Instant) : req.setCached env value cache now =
      cache.write (req.key env) value env.availabilityCacheTtlSeconds now := by
  cases req <;> cases value <;> first | exact h.elim | rfl

theorem holds_of_got {req : AvailabilityRequest} {value : CachedResult}
    (h : CacheCallStep env s (.got req (some value)) t) :
    ∃ entry, s.Holds (req.key env) entry ∧ entry.value = value := by
  cases h with
  | get hcached =>
    have hread : s.cache.read (req.key env) s.now = some value := by
      cases req <;> exact hcached
    obtain ⟨entry, hget, hnow, hvalue⟩ := read_eq_some.mp hread
    exact ⟨entry, ⟨hget, hnow⟩, hvalue⟩

/-- **Only a set puts an entry into the cache.** -/
theorem set_of_holds (h : CacheCallStep env s e t) (hs : ¬ s.Holds k entry) (ht : t.Holds k entry) :
    ∃ req, e = .set req entry.value ∧ k = req.key env ∧ env.availabilityCacheTtlSeconds ≠ 0 := by
  have hnew : s.cache.get? k ≠ some entry :=
    fun hget => hs ⟨hget, lt_of_le_of_lt (now_le_of_cacheCall h) ht.2⟩
  cases h with
  | @set req value haccepts =>
    have hget : (req.setCached env value s.cache s.now).get? k = some entry := ht.1
    rw [setCached_eq haccepts, get?_write] at hget
    split at hget
    · next hkey =>
      rw [← Option.some.inj hget]
      exact ⟨req, rfl, hkey.2, hkey.1⟩
    · exact absurd hget hnew
  | @delete n tenantId todo keys hn hkeys =>
    have hget : (s.cache.del keys).get? k = some entry := ht.1
    rw [get?_del] at hget
    split at hget
    · cases hget
    · exact absurd hget hnew
  | _ => exact absurd ht.1 hnew

/-- A set that takes effect replaces what was under its key. -/
theorem value_of_set {req : AvailabilityRequest} {value : CachedResult}
    (h : CacheCallStep env s (.set req value) t) (httl : env.availabilityCacheTtlSeconds ≠ 0)
    (ht : t.Holds (req.key env) entry) : entry.value = value := by
  cases h with
  | set haccepts =>
    have hget : (req.setCached env value s.cache s.now).get? (req.key env) = some entry := ht.1
    rw [setCached_eq haccepts, get?_write, if_pos ⟨httl, rfl⟩] at hget
    rw [← Option.some.inj hget]

/-- An invalidation does not finish, and does not forget a key, while the key stays. -/
theorem todo_of_cacheCall (h : CacheCallStep env s e t) (hs : s.cache.read k s.now ≠ none)
    (ht : t.cache.read k t.now ≠ none) {n : ℕ} {tenantId : Uuid} {todo : List CacheKey}
    (hn : s.sweeps n = .running tenantId todo) (hk : k ∈ todo) :
    ∃ todo', t.sweeps n = .running tenantId todo' ∧ k ∈ todo' := by
  have hother : ∀ {m : ℕ} {sweep : Invalidation}, n ≠ m →
      Function.update s.sweeps m sweep n = .running tenantId todo := by
    intro m sweep hnm
    rw [Function.update_of_ne hnm, hn]
  cases h with
  | tick | get => exact ⟨todo, hn, hk⟩
  | @set req value haccepts =>
    dsimp only
    split
    · next habsent =>
      -- the key was there, so it is not the one that comes back
      refine exists_todo_drop hn hk ?_
      rw [List.mem_singleton]
      intro heq
      exact hs (heq ▸ habsent)
    · exact ⟨todo, hn, hk⟩
  | @startSweep m tenantId' hm =>
    refine ⟨todo, hother fun heq => ?_, hk⟩
    rw [← heq, hn] at hm
    cases hm
  | @delete m tenantId' todo' keys hm hkeys =>
    -- a deletion of the key would have removed it
    refine exists_todo_drop hn hk fun hmem => ht ?_
    rw [Cache.read, get?_del, if_pos hmem]
    rfl
  | @finishSweep m tenantId' todo' hm htodo =>
    -- an invalidation only finishes when none of its keys is left
    refine ⟨todo, hother fun heq => ?_, hk⟩
    rw [← heq, hn] at hm
    cases hm
    exact hs (htodo k hk)

/-- An invalidation runs from its start on. -/
theorem started_of_running (h : CacheCallStep env s e t) {n : ℕ} {tenantId : Uuid}
    (hs : ¬ ∃ todo, s.sweeps n = .running tenantId todo)
    (ht : ∃ todo, t.sweeps n = .running tenantId todo) : e = .sweepStarted n tenantId := by
  obtain ⟨todo, ht⟩ := ht
  have hold : s.sweeps n ≠ .running tenantId todo := fun heq => hs ⟨todo, heq⟩
  have hdrop : ∀ keys, (s.sweeps n).drop keys ≠ .running tenantId todo := by
    intro keys heq
    cases hn : s.sweeps n with
    | running tenantId' todo' =>
      rw [hn] at heq
      cases heq
      exact hs ⟨todo', hn⟩
    | _ => rw [hn] at heq; cases heq
  cases h with
  | tick | get => exact absurd ht hold
  | set =>
    dsimp only at ht
    split at ht
    · exact absurd ht (hdrop _)
    · exact absurd ht hold
  | startSweep hm =>
    rcases update_eq ht with ⟨rfl, hrunning⟩ | hkept
    · cases hrunning
      rfl
    · exact absurd hkept hold
  | delete => exact absurd ht (hdrop _)
  | finishSweep =>
    rcases update_eq ht with ⟨-, hfinished⟩ | hkept
    · cases hfinished
    · exact absurd hkept hold

theorem todo_of_sweepStarted {n : ℕ} {tenantId : Uuid}
    (h : CacheCallStep env s (.sweepStarted n tenantId) t) (hk : tenantPrefix tenantId <+: k)
    (ht : t.cache.read k t.now ≠ none) :
    ∃ todo, t.sweeps n = .running tenantId todo ∧ k ∈ todo := by
  cases h with
  | startSweep hn =>
    refine ⟨_, Function.update_self _ _ _, List.mem_filter.mpr ⟨?_, accepts_tenantPattern.mpr hk⟩⟩
    obtain ⟨value, hread⟩ := Option.ne_none_iff_exists'.mp ht
    obtain ⟨entry, hget, -, -⟩ := read_eq_some.mp hread
    obtain ⟨hmem, hkey⟩ := Table.get?_eq_some.mp hget
    exact hkey ▸ List.mem_map_of_mem hmem

theorem running_of_sweepFinished {n : ℕ} {tenantId : Uuid}
    (h : CacheCallStep env s (.sweepFinished n tenantId) t) : ∃ todo,
      s.sweeps n = .running tenantId todo ∧ ∀ k ∈ todo, s.cache.read k s.now = none := by
  cases h with
  | finishSweep hn htodo => exact ⟨_, hn, htodo⟩

/-- **An invalidation deletes nothing of another tenant.** -/
theorem get?_of_deleted {n : ℕ} {tenantId : Uuid} {keys : List CacheKey}
    (h : CacheCallStep env s (.deleted n tenantId keys) t) {req : AvailabilityRequest}
    (hreq : req.tenantId ≠ tenantId) : t.cache.get? (req.key env) = s.cache.get? (req.key env) := by
  cases h with
  | delete hn hkeys =>
    rw [get?_del, if_neg]
    intro hmem
    exact hreq (tenantId_eq_of_accepts (hkeys _ hmem))

end Steps

/-! ### Runs -/

section Runs

variable {env : CacheEnv} {s t : CacheServer} {tr : List (Transition CacheServer CacheCall)}
  {i j : ℕ}

/-- An invalidation that finishes has started. -/
theorem started_before (hs : s.Fresh) (hrun : Run (CacheCallStep env) s tr t) {n : ℕ}
    {tenantId : Uuid} (hj : HappensAt tr j (.sweepFinished n tenantId)) :
    ∃ i, i < j ∧ HappensAt tr i (.sweepStarted n tenantId) := by
  obtain ⟨y, hy, -, hstep⟩ := hrun.step_of_happens hj
  obtain ⟨todo, hrunning, -⟩ := running_of_sweepFinished hstep
  rcases hrun.since (P := fun s => ∃ todo, s.sweeps n = .running tenantId todo) hy
    ⟨todo, hrunning⟩ with hall | ⟨p, x, hp, hx, hpre, hpost, -⟩
  · obtain ⟨x, hx⟩ := Run.exists_at hy (Nat.zero_le j)
    obtain ⟨todo, hstart⟩ := hall 0 x (Nat.zero_le j) hx
    rw [hrun.pre_zero hx, hs.sweeps n] at hstart
    cases hstart
  · exact ⟨p, hp, x, hx, started_of_running (hrun.step_at hx) hpre hpost⟩

/-- **Nothing of its tenant is there throughout an invalidation.** -/
theorem absent_of_sweep (hrun : Run (CacheCallStep env) s tr t) {n : ℕ} {tenantId : Uuid}
    (hi : HappensAt tr i (.sweepStarted n tenantId))
    (hj : HappensAt tr j (.sweepFinished n tenantId)) (hij : i < j) {k : CacheKey}
    (hk : tenantPrefix tenantId <+: k) :
    ∃ m x, i ≤ m ∧ m < j ∧ tr[m]? = some x ∧ x.post.cache.read k x.post.now = none := by
  by_contra hnone
  simp only [not_exists, not_and] at hnone
  obtain ⟨x, hx, -, hstart⟩ := hrun.step_of_happens hi
  obtain ⟨y, hy, -, hfinish⟩ := hrun.step_of_happens hj
  -- the invalidation still has to delete the key when it finishes
  have hrunning : ∃ todo, y.pre.sweeps n = .running tenantId todo ∧ k ∈ todo := by
    refine hrun.invariant_between (I := fun s => ∃ todo, s.sweeps n = .running tenantId todo ∧
      k ∈ todo) hx hy hij (todo_of_sweepStarted hstart hk (hnone i x le_rfl hij hx)) ?_
    intro m z him hmj hz hstep ⟨todo, hn, htodo⟩
    obtain ⟨w, hw⟩ := Run.exists_at (i := m - 1) hz (by omega)
    have hprev := hrun.pre_succ hw (by rwa [Nat.sub_add_cancel (by omega)])
    exact todo_of_cacheCall hstep (hprev ▸ hnone (m - 1) w (by omega) (by omega) hw)
      (hnone m z (by omega) hmj hz) hn htodo
  obtain ⟨todo, hn, htodo⟩ := hrunning
  obtain ⟨todo', hn', habsent⟩ := running_of_sweepFinished hfinish
  rw [hn] at hn'
  cases hn'
  obtain ⟨w, hw⟩ := Run.exists_at (i := j - 1) hy (by omega)
  have hprev := hrun.pre_succ hw (by rwa [Nat.sub_add_cancel (by omega)])
  exact hnone (j - 1) w (by omega) (by omega) hw (hprev ▸ habsent k htodo)

/-- **What a get returns has been there since a set stored it**, and no other set of
the same has come since. -/
theorem present_of_got (hsearch : Function.Injective env.searchHash)
    (hdetail : Function.Injective env.detailHash) (hs : s.Fresh)
    (hrun : Run (CacheCallStep env) s tr t) {req : AvailabilityRequest} {value : CachedResult}
    (hj : HappensAt tr j (.got req (some value))) :
    ∃ i entry, i < j ∧ HappensAt tr i (.set req value) ∧
      (∀ m v, i < m → m < j → ¬ HappensAt tr m (.set req v)) ∧
      ∀ m z, i < m → m ≤ j → tr[m]? = some z → z.pre.Holds (req.key env) entry := by
  obtain ⟨y, hy, -, hstep⟩ := hrun.step_of_happens hj
  obtain ⟨entry, hholds, hvalue⟩ := holds_of_got hstep
  rcases hrun.since (P := fun s => s.Holds (req.key env) entry) hy hholds with
    hall | ⟨p, x, hp, hx, hpre, hpost, hsince⟩
  · -- there is nothing at the start
    obtain ⟨x, hx⟩ := Run.exists_at hy (Nat.zero_le j)
    obtain ⟨hget, -⟩ := hall 0 x (Nat.zero_le j) hx
    rw [hrun.pre_zero hx, hs.cache] at hget
    cases hget
  · obtain ⟨req', he, hkey, httl⟩ := set_of_holds (hrun.step_at hx) hpre hpost
    obtain rfl := AvailabilityRequest.key_injective hsearch hdetail hkey
    -- the last set of the call, which has stored the same
    obtain ⟨i, hpi, hij, ⟨v, hset⟩, hlast⟩ :=
      exists_last (P := fun m => ∃ v, HappensAt tr m (.set req v)) ⟨_, x, hx, he⟩ hp
    obtain ⟨z, hz, -, hsetStep⟩ := hrun.step_of_happens hset
    obtain ⟨w, hw⟩ := Run.exists_at (i := i + 1) hy (by omega)
    have hafter : z.post.Holds (req.key env) entry := by
      rw [← hrun.pre_succ hz hw]
      exact hsince (i + 1) w (by omega) (by omega) hw
    obtain rfl : value = v := hvalue.symm.trans (value_of_set hsetStep httl hafter)
    exact ⟨i, entry, hij, hset, fun m v' him hmj hv => hlast m him hmj ⟨v', hv⟩,
      fun m z' him hmj hz' => hsince m z' (by omega) hmj hz'⟩

/-- An invalidation that starts after a set is not over while what was set is there. -/
theorem started_first (hs : s.Fresh) (hrun : Run (CacheCallStep env) s tr t)
    {req : AvailabilityRequest} {value : CachedResult} {entry : CacheEntry}
    (hi : HappensAt tr i (.set req value)) (hholds : ∀ m z, i < m → m ≤ j → tr[m]? = some z →
      z.pre.Holds (req.key env) entry) {n m : ℕ} (hmj : m < j)
    (hm : HappensAt tr m (.sweepFinished n req.tenantId)) :
    ∃ a, a < i ∧ HappensAt tr a (.sweepStarted n req.tenantId) := by
  obtain ⟨a, ham, ha⟩ := started_before hs hrun hm
  refine ⟨a, ?_, ha⟩
  by_contra hia
  have hne : a ≠ i := by
    intro heq
    have hevents := ha.inj (heq ▸ hi)
    cases hevents
  obtain ⟨l, x, hal, hlm, hx, habsent⟩ :=
    absent_of_sweep hrun ha hm ham (req.tenantPrefix_key env)
  obtain ⟨y, hy, -⟩ := hm
  obtain ⟨w, hw⟩ := Run.exists_at (i := l + 1) hy (by omega)
  have hthere := hholds (l + 1) w (by omega) (by omega) hw
  rw [hrun.pre_succ hx hw] at hthere
  rw [read_eq_some.mpr ⟨entry, hthere.1, hthere.2, rfl⟩] at habsent
  cases habsent

end Runs

/-! ### An invalidation without interruption -/

/-- **An invalidation that nothing interrupts is `invalidateTenantAvailability`.** -/
theorem run_of_invalidation {env : CacheEnv} {s : CacheServer} {n : ℕ}
    (hn : s.sweeps n = .notStarted) (tenantId : Uuid) : ∃ tr t, Run (CacheCallStep env) s tr t ∧
      t.sweeps n = .finished tenantId ∧
      t.cache = invalidateTenantAvailability env tenantId s.cache := by
  have hlit := tenantPrefix_literal tenantId
  obtain ⟨u, hu⟩ : ∃ u, u = { s with
      sweeps := Function.update s.sweeps n
        (.running tenantId (s.cache.matching (tenantPattern tenantId))) } := ⟨_, rfl⟩
  have hstart : CacheCallStep env s (.sweepStarted n tenantId) u := hu ▸ .startSweep hn
  have hu' : u.sweeps n = .running tenantId (s.cache.matching (tenantPattern tenantId)) := by
    rw [hu]
    exact Function.update_self _ _ _
  have hdelete : ∀ v todo keys, v.sweeps n = .running tenantId todo →
      (∀ k ∈ keys, tenantPrefix tenantId <+: k) → ∃ e t, CacheCallStep env v e t ∧
        t.now = v.now ∧ t.cache = v.cache.del keys ∧ t.sweeps n = (v.sweeps n).drop keys :=
    fun v todo keys hv hkeys => ⟨_, _,
      .delete hv fun k hk => accepts_tenantPattern.mpr (hkeys k hk), rfl, rfl, rfl⟩
  obtain ⟨tr, t, todo, hrun, -, hcache, hrunning, htodo⟩ :
      ∃ tr t todo, Run (CacheCallStep env) u tr t ∧ _ :=
    run_of_replies hdelete
      (fun keys hkeys k hk => env.scan.sound _ s.cache keys k hlit hkeys hk) hu'
      fun k hk => accepts_tenantPattern.mp (List.mem_filter.mp hk).2
  subst hu
  have hafter : t.cache = invalidateTenantAvailability env tenantId s.cache := hcache
  refine ⟨_, _, ((Run.single hstart).append hrun).snoc (.finishSweep hrunning ?_),
    Function.update_self _ _ _, hafter⟩
  intro k hk
  rw [hafter]
  exact read_invalidate env s.cache (htodo k hk) _

/-! ### Sequences of calls -/

/-- The calls are made one after another: while an invalidation runs there is no other
call. -/
def OneByOne (tr : List (Transition CacheServer CacheCall)) : Prop :=
  ∀ n tenantId a b, HappensAt tr a (.sweepStarted n tenantId) →
    HappensAt tr b (.sweepFinished n tenantId) → ∀ m e, a < m → m < b → HappensAt tr m e →
      e = .ticked ∨ ∃ keys, e = .deleted n tenantId keys

/-- **Entries do not cross tenants, kinds, experiences or queries.**  A get returns the
value of the last set of the same; an invalidation of the tenant that has come to its
end since then had started before, and there is none when the calls are made one
after another.  An invalidation leaves nothing of its tenant that is there throughout,
and everything of the others. -/
theorem cache_calls_sound {env : CacheEnv} (hsearch : Function.Injective env.searchHash)
    (hdetail : Function.Injective env.detailHash) {s t : CacheServer}
    {tr : List (Transition CacheServer CacheCall)} (hs : s.Fresh)
    (hrun : Run (CacheCallStep env) s tr t) :
    (∀ j req value, HappensAt tr j (.got req (some value)) → ∃ i, i < j ∧
      HappensAt tr i (.set req value) ∧
      (∀ m v, i < m → m < j → ¬ HappensAt tr m (.set req v)) ∧
      (∀ n m, i < m → m < j → HappensAt tr m (.sweepFinished n req.tenantId) →
        ∃ a, a < i ∧ HappensAt tr a (.sweepStarted n req.tenantId)) ∧
      (OneByOne tr → ∀ n m, i < m → m < j → ¬ HappensAt tr m (.sweepFinished n req.tenantId))) ∧
    (∀ n tenantId i j, i < j → HappensAt tr i (.sweepStarted n tenantId) →
      HappensAt tr j (.sweepFinished n tenantId) → ∀ k, tenantPrefix tenantId <+: k →
        ∃ m x, i ≤ m ∧ m < j ∧ tr[m]? = some x ∧ x.post.cache.read k x.post.now = none) ∧
    (∀ n tenantId keys x, x ∈ tr → x.event = .deleted n tenantId keys →
      ∀ req : AvailabilityRequest, req.tenantId ≠ tenantId →
        x.post.cache.get? (req.key env) = x.pre.cache.get? (req.key env)) := by
  refine ⟨fun j req value hj => ?_, fun n tenantId i j hij hi hj k hk =>
    absent_of_sweep hrun hi hj hij hk, fun n tenantId keys x hx he req hreq => ?_⟩
  · obtain ⟨i, entry, hij, hset, hlast, hholds⟩ := present_of_got hsearch hdetail hs hrun hj
    refine ⟨i, hij, hset, hlast, fun n m _ hmj hm => started_first hs hrun hset hholds hmj hm,
      fun hone n m him hmj hm => ?_⟩
    -- the set would have been made while the invalidation was running
    obtain ⟨a, hai, ha⟩ := started_first hs hrun hset hholds hmj hm
    rcases hone n req.tenantId a m ha hm i _ hai him hset with h | ⟨keys, h⟩ <;> cases h
  · have hstep := hrun.step_of_mem hx
    rw [he] at hstep
    exact get?_of_deleted hstep hreq

/-! ### The searches of two tenants -/

namespace TwoSearches

/-- Nothing is stored. -/
def server : CacheServer := ⟨.empty, 0, fun _ => .notStarted⟩

/-- The searches of two tenants. -/
def req (tenant : ℕ) : AvailabilityRequest := .search (uuid tenant) Offer.query

section Calls
variable (env : CacheEnv)

/-- The server once a search of a tenant is stored. -/
def storing (s : CacheServer) (tenant : ℕ) : CacheServer where
  cache := (req tenant).setCached env (.search Offer.result) s.cache s.now
  now := s.now
  sweeps := fun n =>
    if s.cache.read ((req tenant).key env) s.now = none then
      (s.sweeps n).drop [(req tenant).key env]
    else s.sweeps n

/-- Both searches are stored. -/
def both : CacheServer := storing env (storing env server 1) 7

/-- The keys that an invalidation of the first tenant lists. -/
def listed : List CacheKey := (both env).cache.matching (tenantPattern (uuid 1))

/-- The invalidation has listed its keys. -/
def listing : CacheServer :=
  { both env with
    sweeps := Function.update (both env).sweeps 0 (.running (uuid 1) (listed env)) }

/-- The keys are deleted. -/
def deleted : CacheServer where
  cache := (listing env).cache.del (listed env)
  now := (listing env).now
  sweeps := fun n => ((listing env).sweeps n).drop (listed env)

/-- The invalidation is over. -/
def finished : CacheServer :=
  { deleted env with sweeps := Function.update (deleted env).sweeps 0 (.finished (uuid 1)) }

/-- The searches of both tenants are stored, an invalidation of the first runs to its end,
and the search of the second is read. -/
def calls : List (Transition CacheServer CacheCall) :=
  [⟨server, .set (req 1) (.search Offer.result), storing env server 1⟩,
    ⟨storing env server 1, .set (req 7) (.search Offer.result), both env⟩,
    ⟨both env, .sweepStarted 0 (uuid 1), listing env⟩,
    ⟨listing env, .deleted 0 (uuid 1) (listed env), deleted env⟩,
    ⟨deleted env, .sweepFinished 0 (uuid 1), finished env⟩,
    ⟨finished env, .got (req 7) (some (.search Offer.result)), finished env⟩]

theorem delete :
    CacheCallStep env (listing env) (.deleted 0 (uuid 1) (listed env)) (deleted env) := by
  have hrunning : (listing env).sweeps 0 = .running (uuid 1) (listed env) := by
    show Function.update (both env).sweeps 0 (.running (uuid 1) (listed env)) 0 = _
    rw [Function.update_self]
  exact .delete hrunning fun _ hk => (List.mem_filter.mp hk).2

theorem finish : CacheCallStep env (deleted env) (.sweepFinished 0 (uuid 1)) (finished env) := by
  have hrunning : (deleted env).sweeps 0 = .running (uuid 1) [] := by
    have hnone : (listed env).filter (fun k => !(listed env).contains k) = [] := by
      rw [List.filter_eq_nil_iff]
      simp
    show (Function.update (both env).sweeps 0 (.running (uuid 1) (listed env)) 0).drop
      (listed env) = _
    rw [Function.update_self, Invalidation.drop, hnone]
  exact .finishSweep hrunning fun k hk => absurd hk List.not_mem_nil

variable {env}

/-- The entry of the second tenant outlives the invalidation. -/
theorem got (httl : env.availabilityCacheTtlSeconds ≠ 0) :
    CacheCallStep env (finished env) (.got (req 7) (some (.search Offer.result)))
      (finished env) := by
  have hstored : (both env).cache.get? ((req 7).key env) =
      some ⟨(req 7).key env, .search Offer.result, 0 + env.availabilityCacheTtlSeconds * 1000⟩ := by
    change (Cache.write _ ((req 7).key env) _ env.availabilityCacheTtlSeconds 0).get? _ = _
    rw [get?_write, if_pos ⟨httl, rfl⟩]
  have hentry : (finished env).cache.get? ((req 7).key env) = _ :=
    (get?_of_deleted (delete env) (by decide)).trans hstored
  have halive : (0 : ℤ) < 0 + (env.availabilityCacheTtlSeconds : ℤ) * 1000 := by omega
  exact .get (read_eq_some.mpr ⟨_, hentry, halive, rfl⟩)

theorem notStarted_storing {s : CacheServer} {n : ℕ} (tenant : ℕ) (h : s.sweeps n = .notStarted) :
    (storing env s tenant).sweeps n = .notStarted := by
  simp only [storing, h]
  split <;> rfl

theorem run (httl : env.availabilityCacheTtlSeconds ≠ 0) :
    Run (CacheCallStep env) server (calls env) (finished env) := by
  have hidle : (both env).sweeps 0 = .notStarted := notStarted_storing 7 (notStarted_storing 1 rfl)
  exact (((((Run.single (.set trivial)).snoc (.set trivial)).snoc (.startSweep hidle)).snoc
    (delete env)).snoc (finish env)).snoc (got httl)

end Calls

/-- Characters by their code points. -/
instance encodableChar : Encodable Char :=
  Encodable.ofLeftInverse Char.toNat Char.ofNat Char.ofNat_toNat

/-- Strings by their characters. -/
instance encodableString : Encodable String :=
  Encodable.ofLeftInverse String.toList String.ofList fun _ => String.ofList_toList

deriving instance Encodable for SearchSort
deriving instance Encodable for SortOrder

/-- A digest of all that a search query holds. -/
def searchHash (query : ExperienceSearchQuery) : List Char :=
  List.replicate (Encodable.encode ((query.destination, query.startDate.toChars,
    query.endDate.toChars, query.partySize, query.supplierId.map Uuid.toChars),
    query.minPrice, query.maxPrice, query.sortBy, query.sortOrder, query.page, query.pageSize)) 'f'

/-- A digest of all that a detail query holds. -/
def detailHash (query : ExperienceDetailQuery) : List Char :=
  List.replicate (Encodable.encode (query.partySize, query.slotId.map Uuid.toChars,
    query.startDate.map DateString.toChars, query.endDate.map DateString.toChars)) 'f'

theorem searchHash_injective : Function.Injective searchHash := by
  intro a b h
  have hdata := Encodable.encode_injective (List.replicate_left_injective 'f' h)
  simp only [Prod.mk.injEq, DateString.toChars_injective.eq_iff,
    (Option.map_injective Uuid.toChars_injective).eq_iff] at hdata
  obtain ⟨⟨hdestination, hstart, hend, hsize, hsupplier⟩, hrest⟩ := hdata
  cases a
  cases b
  exact ExperienceSearchQuery.mk.injEq .. ▸ ⟨hdestination, hstart, hend, hsize, hsupplier, hrest⟩

theorem detailHash_injective : Function.Injective detailHash := by
  intro a b h
  have hdata := Encodable.encode_injective (List.replicate_left_injective 'f' h)
  simp only [Prod.mk.injEq, (Option.map_injective DateString.toChars_injective).eq_iff,
    (Option.map_injective Uuid.toChars_injective).eq_iff] at hdata
  cases a
  cases b
  exact ExperienceDetailQuery.mk.injEq .. ▸ hdata

/-- Digests of the whole queries. -/
def env : CacheEnv where
  availabilityCacheTtlSeconds := 60
  searchHash := searchHash
  detailHash := detailHash
  scan := .oneReply

end TwoSearches

open TwoSearches in
/-- The search of the second tenant is served, and that of the first is gone. -/
theorem cache_calls_sound_two_searches :
    (∃ i, i < 5 ∧ HappensAt (calls env) i (.set (req 7) (.search Offer.result))) ∧
    (∃ m x, 2 ≤ m ∧ m < 4 ∧ (calls env)[m]? = some x ∧
      x.post.cache.read ((req 1).key env) x.post.now = none) ∧
    (deleted env).cache.get? ((req 7).key env) = (listing env).cache.get? ((req 7).key env) := by
  have hfresh : server.Fresh := ⟨rfl, fun _ => rfl⟩
  obtain ⟨hgets, hsweeps, hothers⟩ := @cache_calls_sound env searchHash_injective
    detailHash_injective server (finished env) (calls env) hfresh (run (by decide))
  obtain ⟨i, hi, hset, -⟩ := hgets 5 (req 7) (.search Offer.result) ⟨_, rfl, rfl⟩
  refine ⟨⟨i, hi, hset⟩, ?_, ?_⟩
  · exact hsweeps 0 (uuid 1) 2 4 (by decide) ⟨_, rfl, rfl⟩ ⟨_, rfl, rfl⟩ _
      ((req 1).tenantPrefix_key env)
  · exact hothers 0 (uuid 1) (listed env) _ (List.mem_of_getElem? (i := 3) rfl) rfl (req 7)
      (by decide)

end BookingPlatform
