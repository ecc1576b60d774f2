import BookingPlatform.CacheCoherence
import BookingPlatform.CacheLaws

/-!
# How old an answer of the cache can be

What the cache answers was read from the database before, for the same request.  It
is not older than the time to live, nor than an invalidation of its tenant that has
run from its start to its end.

## Main definitions

* `ServedTwice` — a run in which a second call gets what a first one stored.

## Main results

* `expiresAt_of_stored` — a store gives its entry the time to live.
* `cached_answers_bounded` — where an answer comes from, and how old it can be.
-/

namespace BookingPlatform

open Runs

/-! ### How old an answer can be -/

section Age

variable {rt : Runtime} {env : CacheEnv} {ttl : ℕ} {s t : CacheState} {e : CacheEvent}
  {tr : List (Transition CacheState CacheEvent)}

theorem expiresAt_setCached {req : AvailabilityRequest} {value : CachedResult} {cache : Cache}
    {now : Instant} {k : CacheKey} {entry : CacheEntry}
    (h : (req.setCached env value cache now).get? k = some entry)
    (hnew : cache.get? k ≠ some entry) :
    entry.expiresAt = now + env.availabilityCacheTtlSeconds * 1000 := by
  have hwrite : ∀ key, (cache.write key value env.availabilityCacheTtlSeconds now).get? k =
      some entry → entry.expiresAt = now + env.availabilityCacheTtlSeconds * 1000 := by
    intro key hget
    rw [get?_write] at hget
    split at hget
    · rw [← Option.some.inj hget]
    · exact absurd hget hnew
  cases req <;> cases value <;> first | exact absurd h hnew | exact hwrite _ h

/-- A store gives its entry the time to live. -/
theorem expiresAt_of_stored {r : ℕ} {req : AvailabilityRequest} {value : CachedResult}
    (h : CacheStep rt env ttl s (.stored r req value) t) {k : CacheKey} {entry : CacheEntry}
    (hs : ¬ s.Live k entry) (ht : t.Live k entry) :
    entry.expiresAt = s.tx.core.now + env.availabilityCacheTtlSeconds * 1000 := by
  have hnew : s.cache.get? k ≠ some entry :=
    fun hget => hs ⟨hget, lt_of_le_of_lt (now_le_of_cacheStep h) ht.2⟩
  cases h with
  | store hcall => exact expiresAt_setCached ht.1 hnew

/-- **How old an answer from the cache can be.**  Of a cache that started empty, every
answer is what the database gave to the same request at an earlier step of the run; it
was stored later than that, less than the time to live ago, and no invalidation of the
tenant has run from its start to its end since. -/
theorem cached_answers_bounded (hsearch : Function.Injective env.searchHash)
    (hdetail : Function.Injective env.detailHash) (hrun : Run (CacheStep rt env ttl) s tr t)
    (hidle : s.Idle) (hempty : s.cache = .empty) {j r : ℕ} {req : AvailabilityRequest}
    {value : CachedResult} {x : Transition CacheState CacheEvent} (hx : tr[j]? = some x)
    (hhit : x.event = .hit r req value) :
    ∃ q p y z r' order, q < p ∧ p < j ∧ tr[q]? = some y ∧ tr[p]? = some z ∧
      y.event = .loaded r' req (.ok value) ∧ z.event = .stored r' req value ∧
      req.load rt order y.pre.tx.core.db y.pre.tx.core.now = .ok value ∧
      x.pre.tx.core.now < z.pre.tx.core.now + env.availabilityCacheTtlSeconds * 1000 ∧
      ∀ a b n w, p < a → a < b → b < j → tr[a]? = some w → w.event = .sweepStarted n →
        HappensAt tr b (.sweepFinished n) → (w.pre.sweeps n).tenant? ≠ some req.tenantId := by
  have hstep := hrun.step_at hx
  rw [hhit] at hstep
  obtain ⟨entry, hlive, rfl⟩ := live_of_getCached (cached_of_hit hstep)
  rcases hrun.since (P := fun s => s.Live (req.key env) entry) hx hlive with
    hall | ⟨p, z, hpj, hz, hpre, hpost, hsince⟩
  · -- the entry was not there at the start
    obtain ⟨w, hw⟩ := Run.exists_at (i := 0) hx (Nat.zero_le j)
    have hstart := (hall 0 w (Nat.zero_le j) hw).1
    rw [hrun.pre_zero hw, hempty] at hstart
    cases hstart
  have hzstep := hrun.step_at hz
  obtain ⟨r', req', hstored, hkey⟩ := stored_of_step hzstep hpre hpost
  obtain rfl : req = req' := AvailabilityRequest.key_injective hsearch hdetail hkey
  obtain ⟨q, hqp, y, hy, hloaded⟩ := loaded_of_stored hrun hidle ⟨z, hz, hstored⟩
  have hystep := hrun.step_at hy
  rw [hloaded] at hystep
  obtain ⟨order, hload⟩ := load_of_loaded hystep
  rw [hstored] at hzstep
  refine ⟨q, p, y, z, r', order, hqp, hpj, hy, hz, hloaded, hstored, hload, ?_, ?_⟩
  · rw [← expiresAt_of_stored hzstep hpre hpost]
    exact hlive.2
  · intro a b n w hpa hab hbj hw hstarted hfinished htenant
    -- a whole invalidation would have deleted what has been there since the store
    refine swept_of_kept hrun hw ⟨w, hw, hstarted⟩ hfinished hab htenant
      (req.tenantPrefix_key env) entry fun m v ham hmb hv => ?_
    exact hsince m v (by omega) (by omega) hv

end Age

/-! ### A detail that is served twice -/

namespace ServedTwice

open EarlyInvalidation TwoSearches

/-- The first call has missed. -/
def asked : CacheState := EarlyInvalidation.asked EarlyInvalidation.s₀

/-- It has read the database. -/
def answered : CacheState := EarlyInvalidation.answered held asked

/-- The detail is in the cache. -/
def kept : CacheState where
  tx := answered.tx
  cache := EarlyInvalidation.req.setCached TwoSearches.env held answered.cache answered.tx.core.now
  calls := Function.update answered.calls 0 .finished
  sweeps := fun n =>
    if answered.cache.read (EarlyInvalidation.req.key TwoSearches.env) answered.tx.core.now = none
    then (answered.sweeps n).drop [EarlyInvalidation.req.key TwoSearches.env]
    else answered.sweeps n
  enqueued := answered.enqueued

/-- The first call reads the database and stores, the second finds the entry. -/
def steps : List (Transition CacheState CacheEvent) :=
  [⟨EarlyInvalidation.s₀, .missed 0 EarlyInvalidation.req, asked⟩,
    ⟨asked, .loaded 0 EarlyInvalidation.req (.ok held), answered⟩,
    ⟨answered, .stored 0 EarlyInvalidation.req held, kept⟩,
    ⟨kept, .hit 1 EarlyInvalidation.req held, served kept⟩]

theorem run :
    Run (CacheStep Offer.rt TwoSearches.env 900) EarlyInvalidation.s₀ steps (served kept) := by
  have hmissed : CacheStep Offer.rt TwoSearches.env 900 EarlyInvalidation.s₀
      (.missed 0 EarlyInvalidation.req) asked := .miss rfl rfl
  have hloaded : CacheStep Offer.rt TwoSearches.env 900 asked
      (.loaded 0 EarlyInvalidation.req (.ok held)) answered := .load rfl load_ok.1
  have hstored : CacheStep Offer.rt TwoSearches.env 900 answered
      (.stored 0 EarlyInvalidation.req held) kept := .store rfl
  have hentry : kept.cache.get? (EarlyInvalidation.req.key TwoSearches.env) =
      some ⟨EarlyInvalidation.req.key TwoSearches.env, held, answered.tx.core.now + 60 * 1000⟩ := by
    change (Cache.write .empty (EarlyInvalidation.req.key TwoSearches.env) _ 60 _).get? _ = _
    rw [get?_write, if_pos ⟨by decide, rfl⟩]
    rfl
  have hread : kept.cache.read (EarlyInvalidation.req.key TwoSearches.env) kept.tx.core.now =
      some held := read_eq_some.mpr ⟨_, hentry, by decide, rfl⟩
  have hhit : CacheStep Offer.rt TwoSearches.env 900 kept (.hit 1 EarlyInvalidation.req held)
      (served kept) := .hit rfl hread
  exact ((((Run.nil _).snoc hmissed).snoc hloaded).snoc hstored).snoc hhit

end ServedTwice

/-- The second answer is what the first call has read. -/
theorem cached_answers_bounded_twice : ∃ q p y z r' order, q < p ∧ p < 3 ∧
    ServedTwice.steps[q]? = some y ∧ ServedTwice.steps[p]? = some z ∧
    y.event = .loaded r' EarlyInvalidation.req (.ok EarlyInvalidation.held) ∧
    z.event = .stored r' EarlyInvalidation.req EarlyInvalidation.held ∧
    EarlyInvalidation.req.load Offer.rt order y.pre.tx.core.db y.pre.tx.core.now =
      .ok EarlyInvalidation.held := by
  have hlast : ServedTwice.steps[3]? = some ⟨ServedTwice.kept, .hit 1 EarlyInvalidation.req
      EarlyInvalidation.held, EarlyInvalidation.served ServedTwice.kept⟩ := rfl
  have h := @cached_answers_bounded Offer.rt TwoSearches.env 900 _ _ _
    TwoSearches.searchHash_injective TwoSearches.detailHash_injective ServedTwice.run
    EarlyInvalidation.idle rfl _ _ _ _ _ hlast rfl
  obtain ⟨q, p, y, z, r', order, hqp, hpj, hy, hz, hloaded, hstored, hload, -⟩ := h
  exact ⟨q, p, y, z, r', order, hqp, hpj, hy, hz, hloaded, hstored, hload⟩

end BookingPlatform
