import BookingPlatform.CacheLaws
import BookingPlatform.Texts
import BookingPlatform.WebhookSignature
import BookingPlatform.Lib.JsonText
import BookingPlatform.Lib.Simulation

/-!
# The texts in the cache

The cache holds strings: a key ends in the SHA-256 of the JSON text of its query, and a
result is stored as its JSON text and parsed again when it is read.  Every run of the
calls on these strings is the view of a run on the results themselves.

## Main definitions

* `queryHash`, `textEnv` — the digests of the queries.
* `TextServer`, `TextStep` — the calls on strings.
* `CacheServer.texts`, `CacheCall.texts` — the view of the results.

## Main results

* `searchHash_injective`, `detailHash_injective` — queries are told apart by the digests
  of their texts.
* `call_of_textStep`, `textStep_of_call` — the steps on the strings are the views of the
  steps on the results.
* `texts_served` — a text that is read was stored for the same request, and is parsed
  as the JSON of what was stored.
-/

namespace BookingPlatform

open JsonText Runs

/-! ### Queries -/

/-- The value in a query. -/
def SearchSort.value : SearchSort → String
  | .startsAt => "starts_at"
  | .price => "price"
  | .title => "title"
  | .availableSpots => "available_spots"

/-- The value in a query. -/
def SortOrder.value : SortOrder → String
  | .asc => "asc"
  | .desc => "desc"

/-- A query as `experienceSearchQuerySchema` returns it. -/
def ExperienceSearchQuery.members (query : ExperienceSearchQuery) :
    List (String × Option (Value ℚ)) :=
  [("destination", query.destination.map .str),
    ("start_date", some (jsonText query.startDate.toChars)),
    ("end_date", some (jsonText query.endDate.toChars)),
    ("party_size", some (jsonInt query.partySize)),
    ("supplier_id", query.supplierId.map fun id => jsonText id.toChars),
    ("min_price", query.minPrice.map .num),
    ("max_price", query.maxPrice.map .num),
    ("sort_by", some (.str query.sortBy.value)),
    ("sort_order", some (.str query.sortOrder.value)),
    ("page", some (jsonInt query.page)),
    ("page_size", some (jsonInt query.pageSize))]

/-- A query as `experienceDetailQuerySchema` returns it. -/
def ExperienceDetailQuery.members (query : ExperienceDetailQuery) :
    List (String × Option (Value ℚ)) :=
  [("party_size", some (jsonInt query.partySize)),
    ("slot_id", query.slotId.map fun id => jsonText id.toChars),
    ("start_date", query.startDate.map fun date => jsonText date.toChars),
    ("end_date", query.endDate.map fun date => jsonText date.toChars)]

@[simp] theorem SearchSort.value_inj {a b : SearchSort} : a.value = b.value ↔ a = b := by
  refine ⟨fun h => ?_, congrArg value⟩
  cases a <;> cases b <;> first | rfl | exact absurd h (by decide)

@[simp] theorem SortOrder.value_inj {a b : SortOrder} : a.value = b.value ↔ a = b := by
  refine ⟨fun h => ?_, congrArg value⟩
  cases a <;> cases b <;> first | rfl | exact absurd h (by decide)

theorem ExperienceSearchQuery.valid (query : ExperienceSearchQuery) :
    (record query.members).Valid := by
  refine valid_record (by simp [members]) ?_
  simp [members]

theorem ExperienceDetailQuery.valid (query : ExperienceDetailQuery) :
    (record query.members).Valid := by
  refine valid_record (by simp [members]) ?_
  simp [members]

theorem dateText_injective : Function.Injective fun date : DateString => jsonText date.toChars :=
  fun _ _ h => DateString.toChars_injective (jsonText_inj.mp h)

theorem ExperienceSearchQuery.members_injective :
    Function.Injective ExperienceSearchQuery.members := by
  intro a b h
  simp only [members, List.cons.injEq, Prod.mk.injEq, true_and, and_true, Option.some.injEq,
    (Option.map_injective fun _ _ => Value.str.inj).eq_iff,
    (Option.map_injective fun _ _ => Value.num.inj).eq_iff,
    (Option.map_injective uuidText_injective).eq_iff, jsonText_inj, jsonInt_inj,
    DateString.toChars_injective.eq_iff, Value.str.injEq, SearchSort.value_inj,
    SortOrder.value_inj, Nat.cast_inj] at h
  cases a
  cases b
  simpa using h

theorem ExperienceDetailQuery.members_injective :
    Function.Injective ExperienceDetailQuery.members := by
  intro a b h
  simp only [members, List.cons.injEq, Prod.mk.injEq, true_and, and_true, Option.some.injEq,
    (Option.map_injective uuidText_injective).eq_iff,
    (Option.map_injective dateText_injective).eq_iff, jsonInt_inj] at h
  cases a
  cases b
  simpa using h

/-! ### Digests -/

section Digests

-- `createHash("sha256").update(text).digest()`, of the bytes of the text
variable (sha256 : List UInt8 → List UInt8) (N : Numbers ℚ)

/-- The digest of the JSON text of a query. -/
def queryHash (value : Value ℚ) : List Char := hexBytes (sha256 (Utf16.charBytes (print N value)))

/-- The cache with the digests that the code takes. -/
def textEnv (availabilityCacheTtlSeconds : ℕ) (scan : Scan) : CacheEnv where
  availabilityCacheTtlSeconds := availabilityCacheTtlSeconds
  searchHash query := queryHash sha256 N (record query.members)
  detailHash query := queryHash sha256 N (record query.members)
  scan := scan

variable {sha256 N}

theorem queryHash_inj (hsha : Function.Injective sha256) {x y : Value ℚ} (hx : x.Valid)
    (hy : y.Valid) (h : queryHash sha256 N x = queryHash sha256 N y) : x = y :=
  print_injective hx hy (Utf16.charBytes_injective (hsha (hexBytes_injective h)))

/-- **Search queries are told apart by the digests of their texts.** -/
theorem searchHash_injective (hsha : Function.Injective sha256) (ttl : ℕ) (scan : Scan) :
    Function.Injective (textEnv sha256 N ttl scan).searchHash := by
  intro a b h
  refine ExperienceSearchQuery.members_injective (record_injective rfl ?_
    (queryHash_inj hsha a.valid b.valid h))
  simp [ExperienceSearchQuery.members]

/-- **Detail queries are told apart by the digests of their texts.** -/
theorem detailHash_injective (hsha : Function.Injective sha256) (ttl : ℕ) (scan : Scan) :
    Function.Injective (textEnv sha256 N ttl scan).detailHash := by
  intro a b h
  refine ExperienceDetailQuery.members_injective (record_injective rfl ?_
    (queryHash_inj hsha a.valid b.valid h))
  simp [ExperienceDetailQuery.members]

end Digests

/-! ### Results -/

/-- A string, or `null` where there is none. -/
def jsonOrNull (x : Option String) : Value ℚ := (x.map Value.str).getD .null

/-- The value in a response. -/
def PricingRuleType.value : PricingRuleType → String
  | .groupSize => "GROUP_SIZE"
  | .advanceBooking => "ADVANCE_BOOKING"
  | .seasonal => "SEASONAL"

/-- An adjustment as JSON. -/
def PricingAdjustment.json (a : PricingAdjustment) : Value ℚ := .obj
  [("ruleType", .str a.ruleType.value), ("description", .str a.description),
    ("percent", .num a.percent), ("amount", jsonText a.amount.toFixed)]

/-- A price breakdown as JSON. -/
def PricingPreview.json (p : PricingPreview) : Value ℚ := .obj
  [("partySize", jsonInt p.partySize),
    ("basePricePerPerson", jsonText p.basePricePerPerson.toFixed),
    ("subtotal", jsonText p.subtotal.toFixed),
    ("adjustments", .arr (p.adjustments.map PricingAdjustment.json)),
    ("totalPrice", jsonText p.totalPrice.toFixed)]

/-- An item of a search as JSON. -/
def ExperienceSearchItem.json (item : ExperienceSearchItem Money) : Value ℚ := .obj
  [("id", jsonText item.id.toChars), ("title", .str item.title),
    ("destination", .str item.destination), ("description", jsonOrNull item.description),
    ("basePrice", jsonText item.basePrice.toString), ("capacity", jsonInt item.capacity),
    ("supplier", .obj [("id", jsonText item.supplierId.toChars), ("name", .str item.supplierName)]),
    ("partySize", jsonInt item.partySize), ("fromPrice", jsonText item.fromPrice.toFixed),
    ("availableSlots", jsonInt item.availableSlots),
    ("earliestSlotAt", jsonText (toISOString item.earliestSlotAt))]

/-- The pagination of a search as JSON. -/
def Pagination.json (p : Pagination) : Value ℚ := .obj
  [("page", jsonInt p.page), ("pageSize", jsonInt p.pageSize),
    ("totalItems", jsonInt p.totalItems), ("totalPages", jsonInt p.totalPages)]

/-- A page of a search as JSON. -/
def ExperienceSearchResult.json (result : ExperienceSearchResult Money) : Value ℚ := .obj
  [("items", .arr (result.items.map ExperienceSearchItem.json)),
    ("pagination", result.pagination.json)]

/-- A slot of a detail as JSON. -/
def ExperienceSlotPreview.json (slot : ExperienceSlotPreview) : Value ℚ := .obj
  [("slotId", jsonText slot.slotId.toChars), ("startsAt", jsonText (toISOString slot.startsAt)),
    ("endsAt", jsonText (toISOString slot.endsAt)), ("slotCapacity", jsonInt slot.slotCapacity),
    ("reserved", jsonInt slot.reserved), ("availableSpots", jsonInt slot.availableSpots),
    ("pricingPreview", slot.pricingPreview.json)]

/-- A detail as JSON. -/
def ExperienceDetailResult.json (result : ExperienceDetailResult) : Value ℚ := .obj
  [("id", jsonText result.id.toChars), ("title", .str result.title),
    ("destination", .str result.destination), ("description", jsonOrNull result.description),
    ("basePrice", jsonText result.basePrice.toString), ("capacity", jsonInt result.capacity),
    ("supplier", .obj [("id", jsonText result.supplierId.toChars),
      ("name", .str result.supplierName), ("email", jsonOrNull result.supplierEmail)]),
    ("partySize", jsonInt result.partySize), ("pricingPreview", result.pricingPreview.json),
    ("slots", .arr (result.slots.map ExperienceSlotPreview.json))]

/-- A cached result as JSON. -/
def CachedResult.json : CachedResult → Value ℚ
  | .search result => result.json
  | .detail result => result.json

@[simp] theorem valid_jsonOrNull (x : Option String) : (jsonOrNull x).Valid := by
  cases x <;> simp [jsonOrNull]

@[simp] theorem PricingPreview.valid (p : PricingPreview) : p.json.Valid := by
  simp [PricingPreview.json, PricingAdjustment.json]

theorem CachedResult.valid (value : CachedResult) : value.json.Valid := by
  cases value with
  | search result =>
    simp [json, ExperienceSearchResult.json, ExperienceSearchItem.json, Pagination.json]
  | detail result =>
    simp [json, ExperienceDetailResult.json, ExperienceSlotPreview.json]

/-- Results are printed as objects. -/
theorem CachedResult.print_ne_nil (N : Numbers ℚ) (value : CachedResult) :
    print N value.json ≠ [] := by
  obtain ⟨c, cs, hprint, -⟩ := print_cons (N := N) value.json
  simp [hprint]

/-! ### The server's strings -/

/-- A key with its string and the instant it expires at. -/
structure TextEntry where
  key : CacheKey
  text : List Char
  expiresAt : Instant

/-- Entries by their key. -/
instance : Keyed TextEntry CacheKey := ⟨TextEntry.key⟩

/-- The strings, at most one for a key. -/
abbrev TextCache := Table TextEntry

namespace TextCache

/-- `GET`. -/
def get (cache : TextCache) (key : CacheKey) (now : Instant) : Option (List Char) :=
  (cache.get? key).bind fun entry => if now < entry.expiresAt then some entry.text else none

/-- `SET … EX …`. -/
def set (cache : TextCache) (key : CacheKey) (text : List Char) (ttl : ℕ) (now : Instant) :
    TextCache :=
  if ttl = 0 then cache else cache.upsert ⟨key, text, now + ttl * 1000⟩

/-- `DEL`. -/
def del (cache : TextCache) (keys : List CacheKey) : TextCache :=
  cache.deleteMany fun entry => keys.contains entry.key

/-- The keys that match a pattern. -/
def matching (pattern : List Char) (cache : TextCache) : List CacheKey :=
  (cache.rows.map TextEntry.key).filter (Glob.accepts pattern)

end TextCache

section Texts

variable (N : Numbers ℚ) (env : CacheEnv)

/-- What is made of a reply: `null` of none and of the empty string, else what
`JSON.parse` returns, unless it throws. -/
def parseCached : Option (List Char) → Option (Option (Value ℚ))
  | none => some none
  | some raw => if raw = [] then some none else (parse N raw).map some

namespace TextCache

/-- The result of a search, parsed. -/
def getCachedSearch (tenantId : Uuid) (query : ExperienceSearchQuery) (cache : TextCache)
    (now : Instant) : Option (Option (Value ℚ)) :=
  parseCached N (cache.get (searchCacheKey env tenantId query) now)

/-- The result of a search is stored as JSON. -/
def setCachedSearch (tenantId : Uuid) (query : ExperienceSearchQuery)
    (result : ExperienceSearchResult Money) (cache : TextCache) (now : Instant) : TextCache :=
  cache.set (searchCacheKey env tenantId query) (print N result.json)
    env.availabilityCacheTtlSeconds now

/-- A detail, parsed. -/
def getCachedDetail (tenantId experienceId : Uuid) (query : ExperienceDetailQuery)
    (cache : TextCache) (now : Instant) : Option (Option (Value ℚ)) :=
  parseCached N (cache.get (detailCacheKey env tenantId experienceId query) now)

/-- A detail is stored as JSON. -/
def setCachedDetail (tenantId experienceId : Uuid) (query : ExperienceDetailQuery)
    (result : ExperienceDetailResult) (cache : TextCache) (now : Instant) : TextCache :=
  cache.set (detailCacheKey env tenantId experienceId query) (print N result.json)
    env.availabilityCacheTtlSeconds now

/-- The get of a request. -/
def getCached (cache : TextCache) (now : Instant) :
    AvailabilityRequest → Option (Option (Value ℚ))
  | .search tenantId query => getCachedSearch N env tenantId query cache now
  | .detail tenantId experienceId query =>
    getCachedDetail N env tenantId experienceId query cache now

/-- The set of a request, of its own kind of result. -/
def setCached (value : CachedResult) (cache : TextCache) (now : Instant) :
    AvailabilityRequest → TextCache
  | .search tenantId query =>
    match value with
    | .search result => setCachedSearch N env tenantId query result cache now
    | .detail _ => cache
  | .detail tenantId experienceId query =>
    match value with
    | .search _ => cache
    | .detail result => setCachedDetail N env tenantId experienceId query result cache now

end TextCache

/-- The server, its clock and the invalidations by their number. -/
structure TextServer where
  cache : TextCache
  now : Instant
  sweeps : ℕ → Invalidation

/-- An empty cache, and nothing has started. -/
structure TextServer.Fresh (s : TextServer) : Prop where
  cache : s.cache = .empty
  sweeps : ∀ n, s.sweeps n = .notStarted

/-- A get comes with what its call returns, `none` where `JSON.parse` throws. -/
inductive TextCall
  | ticked
  | got (req : AvailabilityRequest) (answer : Option (Option (Value ℚ)))
  | set (req : AvailabilityRequest) (value : CachedResult)
  | sweepStarted (n : ℕ) (tenantId : Uuid)
  | deleted (n : ℕ) (tenantId : Uuid) (keys : List CacheKey)
  | sweepFinished (n : ℕ) (tenantId : Uuid)

/-- What a call does to the strings. -/
inductive TextStep : TextServer → TextCall → TextServer → Prop
  | tick {s : TextServer} {now : Instant} : s.now ≤ now →
      TextStep s .ticked { s with now := now }
  | get {s : TextServer} {req : AvailabilityRequest} {answer : Option (Option (Value ℚ))} :
      s.cache.getCached N env s.now req = answer → TextStep s (.got req answer) s
  -- a key that comes back has not been there all the time
  | set {s : TextServer} {req : AvailabilityRequest} {value : CachedResult} : req.Accepts value →
      TextStep s (.set req value) { s with
        cache := s.cache.setCached N env value s.now req
        sweeps := fun n =>
          if s.cache.get (req.key env) s.now = none then (s.sweeps n).drop [req.key env]
          else s.sweeps n }
  | startSweep {s : TextServer} {n : ℕ} {tenantId : Uuid} : s.sweeps n = .notStarted →
      TextStep s (.sweepStarted n tenantId) { s with
        sweeps := Function.update s.sweeps n
          (.running tenantId (s.cache.matching (tenantPattern tenantId))) }
  -- one reply of the scan, which may list keys that have come or gone meanwhile
  | delete {s : TextServer} {n : ℕ} {tenantId : Uuid} {todo keys : List CacheKey} :
      s.sweeps n = .running tenantId todo →
      (∀ k ∈ keys, Glob.accepts (tenantPattern tenantId) k = true) →
      TextStep s (.deleted n tenantId keys)
        { s with cache := s.cache.del keys, sweeps := fun n => (s.sweeps n).drop keys }
  -- the cursor is back at the start: what stayed has been listed, and deleted
  | finishSweep {s : TextServer} {n : ℕ} {tenantId : Uuid} {todo : List CacheKey} :
      s.sweeps n = .running tenantId todo → (∀ k ∈ todo, s.cache.get k s.now = none) →
      TextStep s (.sweepFinished n tenantId)
        { s with sweeps := Function.update s.sweeps n (.finished tenantId) }

/-! ### The view of the results -/

/-- An entry as the server holds it. -/
def CacheEntry.text (entry : CacheEntry) : TextEntry :=
  ⟨entry.key, print N entry.value.json, entry.expiresAt⟩

theorem CacheEntry.key_text (entry : CacheEntry) :
    Keyed.key (entry.text N) = Keyed.key entry := rfl

/-- The strings of the results. -/
def Cache.texts (cache : Cache) : TextCache := cache.map (CacheEntry.text N) (CacheEntry.key_text N)

/-- The server that holds the strings. -/
def CacheServer.texts (s : CacheServer) : TextServer := ⟨s.cache.texts N, s.now, s.sweeps⟩

/-- A call as the strings see it. -/
def CacheCall.texts : CacheCall → TextCall
  | .ticked => .ticked
  | .got req answer => .got req (some (answer.map CachedResult.json))
  | .set req value => .set req value
  | .sweepStarted n tenantId => .sweepStarted n tenantId
  | .deleted n tenantId keys => .deleted n tenantId keys
  | .sweepFinished n tenantId => .sweepFinished n tenantId

variable {N env}

theorem get_texts (cache : Cache) (k : CacheKey) (now : Instant) :
    (cache.texts N).get k now = (cache.read k now).map fun value => print N value.json := by
  rw [TextCache.get, Cache.texts, Table.get?_map, Cache.read]
  cases cache.get? k with
  | none => rfl
  | some entry =>
    by_cases hnow : now < entry.expiresAt <;> simp [CacheEntry.text, hnow]

theorem texts_write (cache : Cache) (k : CacheKey) (value : CachedResult) (ttl : ℕ)
    (now : Instant) : (cache.write k value ttl now).texts N =
      (cache.texts N).set k (print N value.json) ttl now := by
  unfold Cache.write TextCache.set
  split
  · rfl
  · exact Table.map_upsert cache _

theorem texts_del (cache : Cache) (keys : List CacheKey) :
    (cache.del keys).texts N = (cache.texts N).del keys :=
  Table.map_deleteMany cache fun entry => List.contains_eq_mem entry.key keys

theorem matching_texts (pattern : List Char) (cache : Cache) :
    (cache.texts N).matching pattern = cache.matching pattern := by
  have hkeys : ((cache.rows.map (CacheEntry.text N)).map TextEntry.key) =
      cache.rows.map CacheEntry.key := by
    rw [List.map_map]
    rfl
  rw [TextCache.matching, Cache.matching, ← hkeys]
  rfl

/-- **A result that was stored is parsed as its JSON.** -/
theorem parseCached_print (answer : Option CachedResult) :
    parseCached N (answer.map fun value => print N value.json) =
      some (answer.map CachedResult.json) := by
  cases answer with
  | none => rfl
  | some value =>
    simp only [Option.map_some, parseCached, if_neg (value.print_ne_nil N),
      parse_print value.valid]

theorem getCached_texts (req : AvailabilityRequest) (cache : Cache) (now : Instant) :
    (cache.texts N).getCached N env now req =
      some ((req.getCached env cache now).map CachedResult.json) := by
  rw [← parseCached_print]
  cases req <;> exact congrArg (parseCached N) (get_texts cache _ now)

theorem setCached_texts (req : AvailabilityRequest) (value : CachedResult) (cache : Cache)
    (now : Instant) : (cache.texts N).setCached N env value now req =
      (req.setCached env value cache now).texts N := by
  cases req with
  | search tenantId query =>
    cases value with
    | search result =>
      exact (texts_write cache (searchCacheKey env tenantId query) (.search result) _ now).symm
    | detail result => rfl
  | detail tenantId experienceId query =>
    cases value with
    | search result => rfl
    | detail result =>
      exact (texts_write cache (detailCacheKey env tenantId experienceId query) (.detail result) _
        now).symm

/-- **A step on the strings is the view of a step on the results.** -/
theorem call_of_textStep {s : CacheServer} {e : TextCall} {t : TextServer}
    (h : TextStep N env (s.texts N) e t) :
    ∃ call u, CacheCallStep env s call u ∧ call.texts = e ∧ u.texts N = t := by
  generalize hs : s.texts N = s' at h
  cases h with
  | @tick now hnow =>
    subst hs
    exact ⟨.ticked, _, .tick hnow, rfl, rfl⟩
  | @get req answer hget =>
    subst hs
    refine ⟨.got req _, s, .get rfl, ?_, rfl⟩
    rw [← hget]
    exact congrArg (TextCall.got req) (getCached_texts req s.cache s.now).symm
  | @set req value haccepts =>
    subst hs
    refine ⟨.set req value, _, .set haccepts, rfl, ?_⟩
    have hread : (s.cache.texts N).get (req.key env) s.now = none ↔
        s.cache.read (req.key env) s.now = none := by
      rw [get_texts, Option.map_eq_none_iff]
    simp only [CacheServer.texts, setCached_texts, hread]
  | @startSweep n tenantId hn =>
    subst hs
    refine ⟨.sweepStarted n tenantId, _, .startSweep hn, rfl, ?_⟩
    simp only [CacheServer.texts, matching_texts]
  | @delete n tenantId todo keys hn hkeys =>
    subst hs
    refine ⟨.deleted n tenantId keys, _, .delete hn hkeys, rfl, ?_⟩
    simp only [CacheServer.texts, texts_del]
  | @finishSweep n tenantId todo hn htodo =>
    subst hs
    refine ⟨.sweepFinished n tenantId, _, .finishSweep hn fun k hk => ?_, rfl, rfl⟩
    have habsent : (s.cache.texts N).get k s.now = none := htodo k hk
    rwa [get_texts, Option.map_eq_none_iff] at habsent

/-- **A step on the results has its view on the strings.** -/
theorem textStep_of_call {s t : CacheServer} {call : CacheCall} (h : CacheCallStep env s call t) :
    TextStep N env (s.texts N) call.texts (t.texts N) := by
  cases h with
  | tick hnow => exact .tick hnow
  | get hget =>
    subst hget
    exact .get (getCached_texts _ s.cache s.now)
  | @set req value haccepts =>
    have hread : (s.cache.texts N).get (req.key env) s.now = none ↔
        s.cache.read (req.key env) s.now = none := by
      rw [get_texts, Option.map_eq_none_iff]
    have hset := @TextStep.set N env (s.texts N) req value haccepts
    simp only [CacheServer.texts, setCached_texts, hread] at hset
    exact hset
  | @startSweep n tenantId hn =>
    have hstart := @TextStep.startSweep N env (s.texts N) n tenantId hn
    simp only [CacheServer.texts, matching_texts] at hstart
    exact hstart
  | delete hn hkeys =>
    have hdelete := @TextStep.delete N env (s.texts N) _ _ _ _ hn hkeys
    simp only [CacheServer.texts, ← texts_del] at hdelete
    exact hdelete
  | finishSweep hn htodo =>
    refine .finishSweep hn fun k hk => ?_
    show (s.cache.texts N).get k s.now = none
    rw [get_texts, htodo k hk]
    rfl

theorem TextServer.Fresh.texts {s : TextServer} (h : s.Fresh) :
    ∃ s' : CacheServer, s'.Fresh ∧ s'.texts N = s := by
  refine ⟨⟨.empty, s.now, s.sweeps⟩, ⟨rfl, h.sweeps⟩, ?_⟩
  obtain ⟨cache, now, sweeps⟩ := s
  obtain rfl : cache = .empty := h.cache
  rfl

/-- An entry that a set has made expires when its time to live is over. -/
theorem expiresAt_of_set {s t : CacheServer} {req : AvailabilityRequest} {value : CachedResult}
    {entry : CacheEntry} (h : CacheCallStep env s (.set req value) t)
    (httl : env.availabilityCacheTtlSeconds ≠ 0) (ht : t.Holds (req.key env) entry) :
    entry.expiresAt = s.now + env.availabilityCacheTtlSeconds * 1000 := by
  cases h with
  | set haccepts =>
    have hget : (req.setCached env value s.cache s.now).get? (req.key env) = some entry := ht.1
    rw [setCached_eq haccepts, get?_write, if_pos ⟨httl, rfl⟩] at hget
    rw [← Option.some.inj hget]

/-- Nothing is held when entries have no time to live. -/
theorem ttl_ne_zero {s t : CacheServer} {tr : List (Transition CacheServer CacheCall)}
    (hs : s.Fresh) (hrun : Run (CacheCallStep env) s tr t) {j : ℕ}
    {y : Transition CacheServer CacheCall} (hy : tr[j]? = some y) {k : CacheKey}
    {entry : CacheEntry} (hholds : y.pre.Holds k entry) : env.availabilityCacheTtlSeconds ≠ 0 := by
  rcases hrun.since (P := fun s => s.Holds k entry) hy hholds with
    hall | ⟨p, x, -, hx, hpre, hpost, -⟩
  · obtain ⟨x, hx⟩ := Run.exists_at hy (Nat.zero_le j)
    obtain ⟨hget, -⟩ := hall 0 x (Nat.zero_le j) hx
    rw [hrun.pre_zero hx, hs.cache] at hget
    cases hget
  · obtain ⟨req, -, -, httl⟩ := set_of_holds (hrun.step_at hx) hpre hpost
    exact httl

/-- What a get returns has been set less than its time to live ago. -/
theorem lt_expiresAt_of_got {s t : CacheServer} {tr : List (Transition CacheServer CacheCall)}
    (hs : s.Fresh) (hrun : Run (CacheCallStep env) s tr t) {i j : ℕ} (hij : i < j)
    {req : AvailabilityRequest} {value : CachedResult} {entry : CacheEntry}
    (hset : HappensAt tr i (.set req value)) (hholds : ∀ m z, i < m → m ≤ j → tr[m]? = some z →
      z.pre.Holds (req.key env) entry) {x y : Transition CacheServer CacheCall}
    (hx : tr[i]? = some x) (hy : tr[j]? = some y) :
    y.pre.now < x.pre.now + env.availabilityCacheTtlSeconds * 1000 := by
  obtain ⟨w, hw⟩ := Run.exists_at (i := i + 1) hy hij
  have hafter := hholds (i + 1) w (by omega) hij hw
  rw [hrun.pre_succ hx hw] at hafter
  have hstep := hrun.step_at hx
  rw [hset.event_eq hx] at hstep
  rw [← expiresAt_of_set hstep (ttl_ne_zero hs hrun hy (hholds j y hij le_rfl hy)) hafter]
  exact (hholds j y hij le_rfl hy).2

end Texts

/-- **What a get parses was stored for the same request.**  `JSON.parse` never throws;
the value is the JSON of the result of the last set of the same, whose time to live is
not over, and an invalidation of the tenant that has come to its end since then had
started before. -/
theorem texts_served {sha256 : List UInt8 → List UInt8} (hsha : Function.Injective sha256)
    (N : Numbers ℚ) (ttl : ℕ) (scan : Scan) {s t : TextServer}
    {tr : List (Transition TextServer TextCall)} (hs : s.Fresh)
    (hrun : Run (TextStep N (textEnv sha256 N ttl scan)) s tr t) :
    (∀ j req, ¬ HappensAt tr j (.got req none)) ∧
    ∀ j req json, HappensAt tr j (.got req (some (some json))) →
      ∃ i value, i < j ∧ HappensAt tr i (.set req value) ∧ json = value.json ∧
        (∀ x y, tr[i]? = some x → tr[j]? = some y → y.pre.now < x.pre.now + ttl * 1000) ∧
        (∀ m v, i < m → m < j → ¬ HappensAt tr m (.set req v)) ∧
        ∀ n m, i < m → m < j → HappensAt tr m (.sweepFinished n req.tenantId) →
          ∃ a, a < i ∧ HappensAt tr a (.sweepStarted n req.tenantId) := by
  obtain ⟨s', hs', hview⟩ := hs.texts (N := N)
  obtain ⟨tr', t', hrun', -, rfl⟩ := hrun.lift (fun _ _ _ => call_of_textStep) hview
  have hcall {j : ℕ} {e : TextCall} : HappensAt (tr'.map (Transition.image (CacheServer.texts N)
      CacheCall.texts)) j e ↔ ∃ call, HappensAt tr' j call ∧ call.texts = e := happensAt_image
  refine ⟨fun j req hj => ?_, fun j req json hj => ?_⟩
  · obtain ⟨call, -, hcall⟩ := hcall.mp hj
    cases call <;> cases hcall
  · obtain ⟨call, hgot, hcalled⟩ := hcall.mp hj
    obtain ⟨value, rfl, rfl⟩ : ∃ value, call = .got req (some value) ∧ value.json = json := by
      cases call with
      | got req' answer =>
        simp only [CacheCall.texts, TextCall.got.injEq, Option.some.injEq,
          Option.map_eq_some_iff] at hcalled
        obtain ⟨rfl, value, rfl, hvalue⟩ := hcalled
        exact ⟨value, rfl, hvalue⟩
      | _ => cases hcalled
    obtain ⟨i, entry, hij, hset, hlast, hholds⟩ := present_of_got
      (searchHash_injective hsha ttl scan) (detailHash_injective hsha ttl scan) hs' hrun' hgot
    refine ⟨i, value, hij, hcall.mpr ⟨_, hset, rfl⟩, rfl, fun x y hx hy => ?_, fun m v him hmj hm =>
      ?_, fun n m _ hmj hm => ?_⟩
    · rw [List.getElem?_map, Option.map_eq_some_iff] at hx hy
      obtain ⟨x', hx', rfl⟩ := hx
      obtain ⟨y', hy', rfl⟩ := hy
      exact lt_expiresAt_of_got hs' hrun' hij hset hholds hx' hy'
    · obtain ⟨call, hsetm, hcalled⟩ := hcall.mp hm
      cases call with
      | set req' v' =>
        obtain ⟨rfl, rfl⟩ := TextCall.set.inj hcalled
        exact hlast m _ him hmj hsetm
      | _ => cases hcalled
    · obtain ⟨call, hfinished, hcalled⟩ := hcall.mp hm
      cases call with
      | sweepFinished n' tenantId =>
        obtain ⟨rfl, rfl⟩ := TextCall.sweepFinished.inj hcalled
        obtain ⟨a, hai, ha⟩ := started_first hs' hrun' hset hholds hmj hfinished
        exact ⟨a, hai, hcall.mpr ⟨_, ha, rfl⟩⟩
      | _ => cases hcalled

/-! ### The texts of two searches -/

namespace StoredText

/-- The JSON text of the query. -/
def queryText : List Char :=
  ("\x7b\"start_date\":\"1970-01-02\",\"end_date\":\"1970-01-02\",\"party_size\":5," ++
    "\"sort_by\":\"starts_at\",\"sort_order\":\"asc\",\"page\":1,\"page_size\":20\x7d").toList

/-- SHA-256 of that query, and an injective function elsewhere. -/
def sampleSha256 (bytes : List UInt8) : List UInt8 :=
  sampleDigest (Utf16.charBytes queryText)
    [13, 44, 174, 229, 86, 138, 30, 51, 62, 14, 237, 69, 69, 46, 102, 231,
      144, 192, 41, 178, 43, 71, 81, 116, 35, 133, 35, 229, 239, 180, 195, 192] bytes

/-- The digests of the query texts, and a minute to live. -/
def env : CacheEnv := textEnv sampleSha256 sampleNumbers 60 .oneReply

example : (TwoSearches.req 1).key env = ("avail:00000000-0000-0000-0000-000000000001:search:" ++
    "0d2caee5568a1e333e0eed45452e66e790c029b22b475174238523e5efb4c3c0").toList := by
  decide +kernel

/-- The calls of two tenants, as they are made on the strings. -/
def calls : List (Transition TextServer TextCall) :=
  (TwoSearches.calls env).map (Transition.image (CacheServer.texts sampleNumbers) CacheCall.texts)

theorem run : Run (TextStep sampleNumbers env) (TwoSearches.server.texts sampleNumbers) calls
    ((TwoSearches.finished env).texts sampleNumbers) :=
  (TwoSearches.run (by decide)).image (I := fun _ => True) (fun _ _ _ _ _ => trivial)
    (fun _ _ _ h _ => textStep_of_call h) trivial

end StoredText

open StoredText in
/-- What the second tenant is served was stored for it, whatever an invalidation of the
first has deleted. -/
theorem texts_served_two_searches : ∃ i v, i < 5 ∧
    HappensAt calls i (.set (TwoSearches.req 7) v) ∧
    (CachedResult.search Offer.result).json = v.json := by
  have hfresh : (TwoSearches.server.texts sampleNumbers).Fresh := ⟨rfl, fun _ => rfl⟩
  have hgot : HappensAt calls 5
      (.got (TwoSearches.req 7) (some (some (CachedResult.search Offer.result).json))) :=
    ⟨_, rfl, rfl⟩
  obtain ⟨-, hserved⟩ :=
    texts_served (sampleDigest_injective rfl) sampleNumbers 60 .oneReply hfresh run
  obtain ⟨i, v, hi, hset, hjson, -⟩ := hserved 5 (TwoSearches.req 7) _ hgot
  exact ⟨i, v, hi, hset, hjson⟩

end BookingPlatform
