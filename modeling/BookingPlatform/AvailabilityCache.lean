import BookingPlatform.Experience

/-!
# The availability cache

`availability-cache.ts` over a string map with expiry.  A key starts with the
prefix of its tenant, and an invalidation deletes what `SCAN` lists under that
prefix.

## Main definitions

* `Cache`, `CacheEnv` — the store and its configuration.
* `searchCacheKey`, `detailCacheKey` — the keys.
* `Scan` — how the server lists the keys of a pattern.
* `invalidateTenantAvailability` — the loop over the replies.

## Main results

* `tenantPrefix_inj` — a key has the prefix of one tenant only.
* `get?_invalidate` — an invalidation deletes exactly the entries of its tenant.
-/

namespace BookingPlatform

/-! ### The cache server -/

/-- A key, as its characters. -/
abbrev CacheKey := List Char

/-- A stored document: the result of a search or of a detail. -/
inductive CachedResult
  | search (result : ExperienceSearchResult Money)
  | detail (result : ExperienceDetailResult)
  deriving DecidableEq

/-- A key with its value and the instant it expires at. -/
structure CacheEntry where
  key : CacheKey
  value : CachedResult
  expiresAt : Instant
  deriving DecidableEq

/-- Entries by their key. -/
instance : Keyed CacheEntry CacheKey := ⟨CacheEntry.key⟩

/-- The entries, at most one for a key. -/
abbrev Cache := Table CacheEntry

/-- `GET`: an entry that has expired is not there. -/
def Cache.read (cache : Cache) (key : CacheKey) (now : Instant) : Option CachedResult :=
  (cache.get? key).bind fun entry => if now < entry.expiresAt then some entry.value else none

/-- `SET … EX …`: an error, and no effect, unless the time to live is positive. -/
def Cache.write (cache : Cache) (key : CacheKey) (value : CachedResult) (ttl : ℕ) (now : Instant) :
    Cache :=
  if ttl = 0 then cache else cache.upsert ⟨key, value, now + ttl * 1000⟩

/-- `DEL`. -/
def Cache.del (cache : Cache) (keys : List CacheKey) : Cache :=
  cache.deleteMany fun entry => entry.key ∈ keys

/-- The characters that stand for something else in a `MATCH` pattern. -/
def globSpecial : List Char := ['*', '?', '[', '\\']

/-- The calls of `SCAN … MATCH …` until its cursor is back at zero, for a pattern
that is literal up to a final `*`: what they list has the literal prefix, and every
such key that stays in the map is listed. -/
structure Scan where
  replies : List Char → Cache → List (List CacheKey)
  sound : ∀ p cache keys k, (∀ c ∈ p, c ∉ globSpecial) → keys ∈ replies (p ++ ['*']) cache →
    k ∈ keys → p <+: k
  complete : ∀ p cache entry, (∀ c ∈ p, c ∉ globSpecial) → entry ∈ cache → p <+: entry.key →
    ∃ keys ∈ replies (p ++ ['*']) cache, entry.key ∈ keys

/-- A server that lists everything in one reply. -/
def Scan.oneReply : Scan where
  replies pattern cache :=
    [(cache.rows.map CacheEntry.key).filter fun key => pattern.dropLast.isPrefixOf key]
  sound := by
    intro p cache keys k _ hkeys hk
    rw [List.mem_singleton.mp hkeys, List.mem_filter] at hk
    simpa using hk.2
  complete := by
    intro p cache entry _ hentry hp
    refine ⟨_, List.mem_singleton_self _, List.mem_filter.mpr ⟨List.mem_map_of_mem hentry, ?_⟩⟩
    simpa using hp

/-- The setting and the digests of the cache.  `queryHash` is SHA-256 over
`JSON.stringify`, one function for each type of query. -/
structure CacheEnv where
  availabilityCacheTtlSeconds : ℕ
  searchHash : ExperienceSearchQuery → List Char
  detailHash : ExperienceDetailQuery → List Char
  scan : Scan

/-! ### Keys -/

/-- `avail:{tenantId}:`. -/
def tenantPrefix (tenantId : Uuid) : CacheKey := "avail:".toList ++ tenantId.toChars ++ [':']

/-- The key of a search. -/
def searchCacheKey (env : CacheEnv) (tenantId : Uuid) (query : ExperienceSearchQuery) : CacheKey :=
  tenantPrefix tenantId ++ ("search:".toList ++ env.searchHash query)

/-- The key of a detail. -/
def detailCacheKey (env : CacheEnv) (tenantId experienceId : Uuid) (query : ExperienceDetailQuery) :
    CacheKey :=
  tenantPrefix tenantId ++ ("detail:".toList ++ experienceId.toChars ++ ':' :: env.detailHash query)

/-! ### Operations -/

/-- The result of a search, if it is stored and fresh. -/
def getCachedSearch (env : CacheEnv) (tenantId : Uuid) (query : ExperienceSearchQuery)
    (cache : Cache) (now : Instant) : Option CachedResult :=
  cache.read (searchCacheKey env tenantId query) now

/-- The result of a search is stored for the configured time. -/
def setCachedSearch (env : CacheEnv) (tenantId : Uuid) (query : ExperienceSearchQuery)
    (result : ExperienceSearchResult Money) (cache : Cache) (now : Instant) : Cache :=
  cache.write (searchCacheKey env tenantId query) (.search result) env.availabilityCacheTtlSeconds
    now

/-- A detail, if it is stored and fresh. -/
def getCachedDetail (env : CacheEnv) (tenantId experienceId : Uuid) (query : ExperienceDetailQuery)
    (cache : Cache) (now : Instant) : Option CachedResult :=
  cache.read (detailCacheKey env tenantId experienceId query) now

/-- A detail is stored for the configured time. -/
def setCachedDetail (env : CacheEnv) (tenantId experienceId : Uuid) (query : ExperienceDetailQuery)
    (result : ExperienceDetailResult) (cache : Cache) (now : Instant) : Cache :=
  cache.write (detailCacheKey env tenantId experienceId query) (.detail result)
    env.availabilityCacheTtlSeconds now

/-- Every reply of the scan is deleted before the next is asked for. -/
def invalidateTenantAvailability (env : CacheEnv) (tenantId : Uuid) (cache : Cache) : Cache :=
  (env.scan.replies (tenantPrefix tenantId ++ ['*']) cache).foldl
    (fun cache keys => if keys = [] then cache else cache.del keys) cache

/-! ### What the operations do -/

/-- The parts of a prefix, by unfolding the name alone. -/
theorem tenantPrefix_eq (tenantId : Uuid) :
    tenantPrefix tenantId = "avail:".toList ++ tenantId.toChars ++ [':'] := by
  delta tenantPrefix
  rfl

theorem length_tenantPrefix (tenantId : Uuid) : (tenantPrefix tenantId).length = 43 := by
  rw [tenantPrefix_eq, List.length_append, List.length_append, Uuid.length_toChars]
  rfl

/-- **A key has the prefix of one tenant only.** -/
theorem tenantPrefix_inj {a b : Uuid} {key : CacheKey} (ha : tenantPrefix a <+: key)
    (hb : tenantPrefix b <+: key) : a = b := by
  have hlen : (tenantPrefix a).length = (tenantPrefix b).length := by
    rw [length_tenantPrefix, length_tenantPrefix]
  have heq := (List.prefix_of_prefix_length_le ha hb hlen.le).eq_of_length hlen
  rw [tenantPrefix_eq, tenantPrefix_eq] at heq
  exact Uuid.toChars_injective (List.append_cancel_left (List.append_cancel_right heq))

/-- A tenant's prefix is literal in a pattern. -/
theorem tenantPrefix_literal (tenantId : Uuid) : ∀ c ∈ tenantPrefix tenantId, c ∉ globSpecial := by
  have havail : ∀ c ∈ "avail:".toList, c ∉ globSpecial := by simp [globSpecial]
  have hhex : ∀ n < 16, hexDigit n ∉ globSpecial := by decide
  intro c hc
  simp only [tenantPrefix_eq, List.mem_append, List.mem_singleton] at hc
  rcases hc with (hc | hc) | hc
  · exact havail c hc
  · rcases Uuid.mem_toChars hc with hc | ⟨n, hn, hc⟩
    · rw [hc]
      decide
    · rw [hc]
      exact hhex n hn
  · rw [hc]
    decide

theorem tenantPrefix_searchCacheKey (env : CacheEnv) (tenantId : Uuid)
    (query : ExperienceSearchQuery) :
    tenantPrefix tenantId <+: searchCacheKey env tenantId query := List.prefix_append _ _

theorem tenantPrefix_detailCacheKey (env : CacheEnv) (tenantId experienceId : Uuid)
    (query : ExperienceDetailQuery) :
    tenantPrefix tenantId <+: detailCacheKey env tenantId experienceId query :=
  List.prefix_append _ _

theorem get?_write (cache : Cache) (key : CacheKey) (value : CachedResult) (ttl : ℕ) (now : Instant)
    (k : CacheKey) : (cache.write key value ttl now).get? k =
      if ttl ≠ 0 ∧ k = key then some ⟨key, value, now + ttl * 1000⟩ else cache.get? k := by
  unfold Cache.write
  by_cases httl : ttl = 0
  · rw [if_pos httl, if_neg fun h => h.1 httl]
  · rw [if_neg httl, Table.get?_upsert]
    show (if k = key then _ else _) = _
    by_cases hk : k = key
    · rw [if_pos hk, if_pos ⟨httl, hk⟩]
    · rw [if_neg hk, if_neg fun h => hk h.2]

theorem get?_del (cache : Cache) (keys : List CacheKey) (k : CacheKey) :
    (cache.del keys).get? k = if k ∈ keys then none else cache.get? k := by
  rw [Cache.del, Table.get?_deleteMany]
  cases hget : cache.get? k with
  | none => simp
  | some entry =>
    have hkey : entry.key = k := (Table.get?_eq_some.mp hget).2
    by_cases hk : k ∈ keys <;> simp [Option.filter, hkey, hk]

/-- Deleting reply by reply deletes what is in some reply. -/
theorem get?_foldl_del (replies : List (List CacheKey)) (cache : Cache) (k : CacheKey) :
    (replies.foldl (fun cache keys => if keys = [] then cache else cache.del keys) cache).get? k =
      if ∃ keys ∈ replies, k ∈ keys then none else cache.get? k := by
  induction replies generalizing cache with
  | nil => simp
  | cons keys replies ih =>
    rw [List.foldl_cons, ih]
    by_cases hnil : keys = []
    · simp [hnil]
    · rw [if_neg hnil, get?_del]
      by_cases hk : k ∈ keys <;> simp [hk]

/-- **An invalidation deletes exactly the entries of its tenant.** -/
theorem get?_invalidate (env : CacheEnv) (tenantId : Uuid) (cache : Cache) (k : CacheKey) :
    (invalidateTenantAvailability env tenantId cache).get? k =
      if tenantPrefix tenantId <+: k then none else cache.get? k := by
  have hlit := tenantPrefix_literal tenantId
  rw [invalidateTenantAvailability, get?_foldl_del]
  by_cases hk : tenantPrefix tenantId <+: k
  · rw [if_pos hk]
    split
    · rfl
    · next hnot =>
      -- an entry under the prefix would have been listed
      cases hget : cache.get? k with
      | none => rfl
      | some entry =>
        obtain ⟨hmem, hkey⟩ := Table.get?_eq_some.mp hget
        have hkey : entry.key = k := hkey
        obtain ⟨keys, hkeys, hlisted⟩ := env.scan.complete _ cache entry hlit hmem (hkey ▸ hk)
        exact absurd ⟨keys, hkeys, hkey ▸ hlisted⟩ hnot
  · rw [if_neg hk, if_neg]
    rintro ⟨keys, hkeys, hlisted⟩
    exact hk (env.scan.sound _ cache keys k hlit hkeys hlisted)

/-- Nothing of the tenant is left to read. -/
theorem read_invalidate (env : CacheEnv) {tenantId : Uuid} (cache : Cache) {k : CacheKey}
    (h : tenantPrefix tenantId <+: k) (now : Instant) :
    (invalidateTenantAvailability env tenantId cache).read k now = none := by
  rw [Cache.read, get?_invalidate, if_pos h]
  rfl

end BookingPlatform
