import BookingPlatform.AvailabilityCalls
import BookingPlatform.Findable

/-!
# Stale availability

What an answer from the cache is worth depends on who stored it last: a call that
had read the database after the change, or one that had read it before and stored
when the invalidation could no longer delete the entry.

## Main definitions

* `Reflects` — an answer shows the places after a change.
* `FreshAfterInvalidation` — so does every answer after the invalidation.
* `StoresInTime` — no call that read before a change stores after its invalidation.

## Main results

* `swept_of_kept` — no entry of the tenant is in the cache from before an
  invalidation starts until after it has finished.
* `stored_of_hit` — so an answer from the cache after that was stored after the
  invalidation had started.
* `fresh_of_storesInTime` — when no late store survives an invalidation, every
  answer after it reflects the change.
-/

namespace BookingPlatform

open Runs

section Runs

variable {rt : Runtime} {env : CacheEnv} {ttl : ℕ} {s t : CacheState}
  {tr : List (Transition CacheState CacheEvent)}

/-- An invalidation has one tenant, before and after it starts. -/
theorem tenant?_unique (hrun : Run (CacheStep rt env ttl) s tr t) {n i a : ℕ}
    {x y : Transition CacheState CacheEvent} (hx : tr[i]? = some x) (hy : tr[a]? = some y)
    (hne : i ≠ a) {tenantId tenantId' : Uuid} (hpost : (x.post.sweeps n).tenant? = some tenantId)
    (hpre : (y.pre.sweeps n).tenant? = some tenantId') : tenantId = tenantId' := by
  rcases Nat.lt_or_gt_of_ne hne with hia | hai
  · have hlater := hrun.invariant_between (I := fun s => (s.sweeps n).tenant? = some tenantId)
      hx hy hia hpost (fun _ _ _ _ _ hstep hinv => tenant?_of_step hstep hinv)
    exact Option.some.inj (hlater.symm.trans hpre)
  · have hlater := hrun.invariant_between (I := fun s => (s.sweeps n).tenant? = some tenantId')
      hy hx hai (tenant?_of_step (hrun.step_at hy) hpre)
      (fun _ _ _ _ _ hstep hinv => tenant?_of_step hstep hinv)
    exact Option.some.inj (hpost.symm.trans (tenant?_of_step (hrun.step_at hx) hlater))

/-- **No entry of the tenant is in the cache from before an invalidation starts
until after it has finished.** -/
theorem swept_of_kept (hrun : Run (CacheStep rt env ttl) s tr t) {n a b : ℕ}
    {x : Transition CacheState CacheEvent} (hx : tr[a]? = some x)
    (ha : HappensAt tr a (.sweepStarted n)) (hb : HappensAt tr b (.sweepFinished n)) (hab : a < b)
    {tenantId : Uuid} (htenant : (x.pre.sweeps n).tenant? = some tenantId) {k : CacheKey}
    (hk : tenantPrefix tenantId <+: k) (entry : CacheEntry) :
    ¬ ∀ m z, a ≤ m → m ≤ b → tr[m]? = some z → z.pre.Live k entry := by
  intro hlive
  obtain ⟨y, hy, -, hfinish⟩ := hrun.step_of_happens hb
  have hfirst : ∃ todo, x.post.sweeps n = .running tenantId todo ∧ k ∈ todo := by
    have hstart := hrun.step_at hx
    rw [ha.event_eq hx] at hstart
    exact running_of_started hstart htenant (hlive a x (le_refl a) hab.le hx).1 hk
  -- while the entry stays, its key waits to be deleted
  have hlast : ∃ todo, y.pre.sweeps n = .running tenantId todo ∧ k ∈ todo := by
    refine hrun.invariant_between
      (I := fun s => ∃ todo, s.sweeps n = .running tenantId todo ∧ k ∈ todo) hx hy hab hfirst ?_
    rintro m z ham hmb hz hstep ⟨todo, hn, htodo⟩
    obtain ⟨z', hz'⟩ := Run.exists_at (i := m + 1) hy (by omega)
    have hpost := hlive (m + 1) z' (by omega) (by omega) hz'
    rw [hrun.pre_succ hz hz'] at hpost
    exact todo_of_step hstep (hlive m z (by omega) (by omega) hz) hpost hn htodo
  obtain ⟨todo, hn, htodo⟩ := hlast
  have hread := (hlive b y hab.le (le_refl b) hy).read
  rw [done_of_finished hfinish hn k htodo] at hread
  cases hread

/-- An invalidation that has finished has started. -/
theorem started_of_finished (hrun : Run (CacheStep rt env ttl) s tr t) (hidle : s.Idle) {n b : ℕ}
    (hb : HappensAt tr b (.sweepFinished n)) :
    ∃ a x, a < b ∧ tr[a]? = some x ∧ x.event = .sweepStarted n := by
  obtain ⟨y, hy, -, hfinish⟩ := hrun.step_of_happens hb
  have hrunning := running_of_finished hfinish
  rcases hrun.since (P := fun s => ∃ tenantId todo, s.sweeps n = .running tenantId todo) hy hrunning
    with hall | ⟨a, x, hab, hx, hpre, hpost, -⟩
  · obtain ⟨z, hz⟩ := Run.exists_at (i := 0) hy (Nat.zero_le b)
    obtain ⟨tenantId, todo, hn⟩ := hall 0 z (Nat.zero_le b) hz
    rw [hrun.pre_zero hz, hidle.sweeps n] at hn
    cases hn
  · exact ⟨a, x, hab, hx, started_of_step (hrun.step_at hx) hpre hpost⟩

/-- A call that stores has read the database. -/
theorem loaded_of_stored (hrun : Run (CacheStep rt env ttl) s tr t) (hidle : s.Idle) {p r : ℕ}
    {req : AvailabilityRequest} {value : CachedResult} (hp : HappensAt tr p (.stored r req value)) :
    ∃ q, q < p ∧ HappensAt tr q (.loaded r req (.ok value)) := by
  obtain ⟨y, hy, -, hstored⟩ := hrun.step_of_happens hp
  rcases hrun.since (P := fun s => s.calls r = .answered req value) hy (answered_of_stored hstored)
    with hall | ⟨q, x, hqp, hx, hpre, hpost, -⟩
  · obtain ⟨z, hz⟩ := Run.exists_at (i := 0) hy (Nat.zero_le p)
    have hcall := hall 0 z (Nat.zero_le p) hz
    rw [hrun.pre_zero hz, hidle.calls r] at hcall
    cases hcall
  · exact ⟨q, hqp, x, hx, loaded_of_step (hrun.step_at hx) hpre hpost⟩

/-- The invalidation that comes with a change is of the tenant of the change, also
when it has started before the change commits. -/
theorem tenant?_of_started (hrun : Run (CacheStep rt env ttl) s tr t) (hidle : s.Idle) {i n a : ℕ}
    {e : Event} (hi : HappensAt tr i (.changed e n)) {tenantId : Uuid}
    (he : e.invalidates? = some tenantId) {x : Transition CacheState CacheEvent}
    (hx : tr[a]? = some x) (hstart : x.event = .sweepStarted n) :
    (x.pre.sweeps n).tenant? = some tenantId := by
  obtain ⟨xi, hxi, -, hchanged⟩ := hrun.step_of_happens hi
  have hne : i ≠ a := by
    rintro rfl
    have heq := hi.event_eq hx
    rw [hstart] at heq
    cases heq
  have hidle' : s.Enqueued := by
    intro w item hw
    rw [hidle.tx.opened w] at hw
    cases hw
  have henqueued := hrun.invariant_at hxi (fun _ _ _ => enqueued_step) hidle'
  obtain ⟨tenantId', htenant⟩ := tenant?_of_sweepStarted (hstart ▸ hrun.step_at hx)
  rw [htenant, tenant?_unique hrun hxi hx hne (tenant?_of_changed hchanged henqueued he) htenant]

/-- **Where an answer from the cache comes from**, after an invalidation of the
tenant: a call read it and stored it after the invalidation had started, and nothing
has deleted it since. -/
theorem stored_of_hit (hrun : Run (CacheStep rt env ttl) s tr t) (hidle : s.Idle) {n a b g : ℕ}
    {x : Transition CacheState CacheEvent} (hx : tr[a]? = some x)
    (ha : HappensAt tr a (.sweepStarted n)) (hb : HappensAt tr b (.sweepFinished n)) (hab : a < b)
    (hbg : b < g) {r : ℕ} {req : AvailabilityRequest} {value : CachedResult}
    (hg : HappensAt tr g (.hit r req value))
    (htenant : (x.pre.sweeps n).tenant? = some req.tenantId) :
    ∃ p q r' req', a < p ∧ p < g ∧ q < p ∧ HappensAt tr p (.stored r' req' value) ∧
      HappensAt tr q (.loaded r' req' (.ok value)) ∧ req'.key env = req.key env ∧
      ∀ d m keys, p < d → d < g → HappensAt tr d (.deleted m keys) → req.key env ∉ keys := by
  obtain ⟨y, hy, -, hhit⟩ := hrun.step_of_happens hg
  obtain ⟨entry, hlive, rfl⟩ := live_of_getCached (cached_of_hit hhit)
  have hswept := swept_of_kept hrun hx ha hb hab htenant (req.tenantPrefix_key env) entry
  rcases hrun.since (P := fun s => s.Live (req.key env) entry) hy hlive with
    hall | ⟨p, xp, hpg, hxp, hpre, hpost, hsince⟩
  · exact absurd (fun m z _ hmb hz => hall m z (by omega) hz) hswept
  obtain ⟨r', req', hstored, hkey⟩ := stored_of_step (hrun.step_at hxp) hpre hpost
  have hp : HappensAt tr p (.stored r' req' entry.value) := ⟨xp, hxp, hstored⟩
  obtain ⟨q, hqp, hq⟩ := loaded_of_stored hrun hidle hp
  refine ⟨p, q, r', req', ?_, hpg, hqp, hp, hq, hkey.symm, ?_⟩
  -- an entry from before the start would have been there all the time
  · by_contra hle
    have hne : p ≠ a := by
      rintro rfl
      cases hp.inj ha
    exact hswept fun m z ham hmb hz => hsince m z (by omega) (by omega) hz
  -- a deletion in between would have ended what has held since the store
  · intro d m keys hpd hdg hd hmem
    obtain ⟨xd, hxd, -, hdeleted⟩ := hrun.step_of_happens hd
    obtain ⟨z, hz⟩ := Run.exists_at (i := d + 1) hy (by omega)
    have hstill := hsince (d + 1) z (by omega) (by omega) hz
    rw [hrun.pre_succ hxd hz] at hstill
    exact not_live_of_deleted hdeleted hmem hstill

end Runs

/-! ### Answers after an invalidation -/

/-- A call that starts at `g` gives its answer at `j`: at once from the cache, or
when it has read the database. -/
def Answers (tr : List (Transition CacheState CacheEvent)) (g j : ℕ) (req : AvailabilityRequest)
    (answer : Except Failure CachedResult) : Prop :=
  (g = j ∧ ∃ r value, HappensAt tr j (.hit r req value) ∧ answer = .ok value) ∨
    (g < j ∧ ∃ r, HappensAt tr g (.missed r req) ∧ HappensAt tr j (.loaded r req answer))

/-- An answer is what some state of the database after the `i`th step, and not after
the `j`th, gives to a request with the same cache key. -/
def Reflects (rt : Runtime) (env : CacheEnv) (tr : List (Transition CacheState CacheEvent))
    (i j : ℕ) (req : AvailabilityRequest) (answer : Except Failure CachedResult) : Prop :=
  ∃ m x, i < m ∧ m ≤ j ∧ tr[m]? = some x ∧ ∃ req' order,
    AvailabilityRequest.key env req' = req.key env ∧
      AvailabilityRequest.load rt order x.pre.tx.core.db x.pre.tx.core.now req' = answer

/-- Once a change has committed and its invalidation has finished, every answer of
the tenant that starts afterwards reflects the change. -/
def FreshAfterInvalidation (rt : Runtime) (env : CacheEnv)
    (tr : List (Transition CacheState CacheEvent)) : Prop :=
  ∀ i b g j e n tenantId req answer, HappensAt tr i (.changed e n) →
    e.invalidates? = some tenantId → HappensAt tr b (.sweepFinished n) → i < g → b < g →
    Answers tr g j req answer → req.tenantId = tenantId → Reflects rt env tr i j req answer

/-- Where a call of the tenant read the database before a change and stored after
the invalidation of the change had started, the key is deleted again before that
invalidation finishes. -/
def StoresInTime (env : CacheEnv) (tr : List (Transition CacheState CacheEvent)) : Prop :=
  ∀ i a b q p e n tenantId r req value, HappensAt tr i (.changed e n) →
    e.invalidates? = some tenantId → HappensAt tr a (.sweepStarted n) →
    HappensAt tr b (.sweepFinished n) → HappensAt tr q (.loaded r req (.ok value)) →
    HappensAt tr p (.stored r req value) → req.tenantId = tenantId → q < p → q < i → a < p →
    ∃ d m keys, p < d ∧ d < b ∧ HappensAt tr d (.deleted m keys) ∧ req.key env ∈ keys

theorem reflects_of_loaded {rt : Runtime} {env : CacheEnv} {ttl : ℕ} {s t : CacheState}
    {tr : List (Transition CacheState CacheEvent)} (hrun : Run (CacheStep rt env ttl) s tr t)
    {i q j r : ℕ} {req req' : AvailabilityRequest} {answer : Except Failure CachedResult}
    (hq : HappensAt tr q (.loaded r req' answer)) (hkey : req'.key env = req.key env)
    (hiq : i < q) (hqj : q ≤ j) : Reflects rt env tr i j req answer := by
  obtain ⟨x, hx, -, hloaded⟩ := hrun.step_of_happens hq
  obtain ⟨order, hload⟩ := load_of_loaded hloaded
  exact ⟨q, x, hiq, hqj, hx, req', order, hkey, hload⟩

/-- **When no answer is stale.** In a run in which every store by a call that read
the database before a change comes before the invalidation of the change starts, or
is deleted again before it finishes, every answer that starts after the change has
committed and its invalidation has finished reflects the change. -/
theorem fresh_of_storesInTime {rt : Runtime} {env : CacheEnv} {ttl : ℕ} {s t : CacheState}
    {tr : List (Transition CacheState CacheEvent)} (hrun : Run (CacheStep rt env ttl) s tr t)
    (hidle : s.Idle) (hintime : StoresInTime env tr) : FreshAfterInvalidation rt env tr := by
  rintro i b g j e n tenantId req answer hi he hb hig hbg hanswers rfl
  rcases hanswers with ⟨rfl, r, value, hg, rfl⟩ | ⟨hgj, r, -, hj⟩
  · obtain ⟨a, xa, hab, hxa, hstart⟩ := started_of_finished hrun hidle hb
    have ha : HappensAt tr a (.sweepStarted n) := ⟨xa, hxa, hstart⟩
    have htenant := tenant?_of_started hrun hidle hi he hxa hstart
    obtain ⟨p, q, r', req', hap, hpg, hqp, hp, hq, hkey, hkept⟩ :=
      stored_of_hit hrun hidle hxa ha hb hab hbg hg htenant
    have hne : q ≠ i := by
      rintro rfl
      cases hq.inj hi
    rcases Nat.lt_or_gt_of_ne hne with hqi | hiq
    · -- a value from before the change would have been deleted again
      have hsame : req'.tenantId = req.tenantId :=
        tenantPrefix_inj (req'.tenantPrefix_key env) (hkey ▸ req.tenantPrefix_key env)
      obtain ⟨d, m, keys, hpd, hdb, hd, hmem⟩ :=
        hintime i a b q p e n req.tenantId r' req' value hi he ha hb hq hp hsame hqp hqi hap
      exact absurd (hkey ▸ hmem) (hkept d m keys hpd (by omega) hd)
    · exact reflects_of_loaded hrun hq hkey hiq (by omega)
  · -- an answer from the database is as new as the call
    exact reflects_of_loaded hrun hj rfl (by omega) (le_refl j)

/-- What a detail shows as reserved is a slot's column. -/
theorem reserved_of_load {rt : Runtime} {order : RowOrder} {db : Database} {now : Instant}
    {req : AvailabilityRequest} {result : ExperienceDetailResult}
    (h : req.load rt order db now = .ok (.detail result)) {preview : ExperienceSlotPreview}
    (hpreview : preview ∈ result.slots) :
    ∃ slot ∈ db.availabilitySlots, slot.reserved = preview.reserved := by
  cases req with
  | search tenantId query =>
    obtain ⟨_, -, hresult⟩ := Except.map_eq_ok.mp h
    cases hresult
  | detail tenantId experienceId query =>
    obtain ⟨_, hdetail, hresult⟩ := Except.map_eq_ok.mp h
    cases hresult
    obtain ⟨e, sup, startAt, endAt, -, -, -, -, -, -, -, -, -, rfl⟩ :=
      getExperienceDetail_ok.mp hdetail
    obtain ⟨slot, hslot, rfl⟩ := List.mem_map.mp hpreview
    exact ⟨slot, (mem_detailSlots.mp hslot).1, rfl⟩

/-! ### Two expiries and their invalidations

The hold of a booking has run out, and an expiry run has claimed it.  In the first
schedule its invalidation runs to its end before the transaction commits, and a
detail is read and stored in between.  In the second the transaction commits first. -/

namespace EarlyInvalidation

open LateConfirm

/-- Half a minute to live. -/
def env : CacheEnv where
  availabilityCacheTtlSeconds := 30
  searchHash := fun _ => []
  detailHash := fun _ => []
  scan := .oneReply

/-- The detail of the experience. -/
def req : AvailabilityRequest := .detail (uuid 1) (uuid 4) Offer.query.toDetail

/-- The detail with the slot's places as given. -/
def shown (reserved : Int4) (availableSpots : ℤ) : CachedResult :=
  .detail { Offer.detail with
    slots := [{ Offer.preview with reserved := reserved, availableSpots := availableSpots }] }

/-- With the places of the booking, and without. -/
def held : CachedResult := shown booking.partySize 8

/-- The detail once the places are back. -/
def released : CachedResult := shown LateConfirm.slot.reserved 10

theorem load_ok : req.load Offer.rt {} reserved 900001 = .ok held ∧
    req.load Offer.rt {} overdueDatabase 900001 = .ok released := by
  decide +kernel

/-- The booking is overdue, and nothing is cached. -/
def s₀ : CacheState where
  tx := ⟨.start reserved 900001, fun _ => none⟩
  cache := .empty
  calls := fun _ => .notStarted
  sweeps := fun _ => .notStarted
  enqueued := fun _ => 0

/-- An expiry run has listed the booking. -/
def s₁ : CacheState :=
  { s₀ with tx := { s₀.tx with core := { s₀.tx.core with
      workers := Function.update s₀.tx.core.workers 0 (.running [booking.stale] 0) } } }

/-- Its transaction is open, and the invalidation is enqueued. -/
def s₂ : CacheState :=
  { s₁ with
    tx := { s₁.tx with opened := Function.update s₁.tx.opened 0 (some booking.stale) }
    sweeps := Function.update s₁.sweeps 0 (.queued (uuid 1))
    enqueued := Function.update s₁.enqueued 0 0 }

/-- The expiry has committed. -/
def expired (s : CacheState) : CacheState :=
  { s with tx := {
      core := { s.tx.core with
        db := overdueDatabase
        workers := Function.update s.tx.core.workers 0 (.running [] 1) }
      opened := Function.update s.tx.opened 0 none } }

/-- The invalidation has listed the keys of the tenant. -/
def sweeping (s : CacheState) : CacheState :=
  { s with sweeps :=
      Function.update s.sweeps 0 (.running (uuid 1) (s.cache.keysOf (uuid 1))) }

/-- The invalidation is over. -/
def swept (s : CacheState) : CacheState :=
  { s with sweeps := Function.update s.sweeps 0 (.finished (uuid 1)) }

/-- A call has missed. -/
def asked (s : CacheState) : CacheState :=
  { s with calls := Function.update s.calls 0 (.missed req) }

/-- The call has read the database. -/
def answered (value : CachedResult) (s : CacheState) : CacheState :=
  { s with calls := Function.update s.calls 0 (.answered req value) }

/-- The call has stored what it read. -/
def stored (value : CachedResult) (s : CacheState) : CacheState :=
  { s with
    cache := req.setCached env value s.cache s.tx.core.now
    calls := Function.update s.calls 0 .finished
    sweeps := fun n =>
      if s.cache.read (req.key env) s.tx.core.now = none then (s.sweeps n).drop [req.key env]
      else s.sweeps n }

/-- Another call has found the entry. -/
def served (s : CacheState) : CacheState :=
  { s with calls := Function.update s.calls 1 .finished }

theorem listed_step :
    CacheStep Offer.rt env 900 s₀ (.tx (.core (.listed 0 [booking.stale]))) s₁ := by
  have h := @Step.list 900 s₀.tx.core 0 {} rfl
  rw [show findStaleBookings {} s₀.tx.core.db s₀.tx.core.now = [booking.stale]
    from findStale_eq] at h
  refine .tx (.quiet h rfl fun _ _ => rfl) ?_ ?_
  · intro e' he
    cases he
    rfl
  · intro w item he
    cases he

theorem opened_step : CacheStep Offer.rt env 900 s₁ (.tx (.opened 0 booking.stale)) s₂ :=
  .open_ (.open_ rfl rfl (by decide +kernel) expire_ok (fun w item hw => by cases hw)) rfl

theorem expired_step {s : CacheState} (hdb : s.tx.core.db = reserved)
    (hnow : s.tx.core.now = 900001) (hopen : s.tx.opened 0 = some booking.stale)
    (hw : s.tx.core.workers 0 = .running [booking.stale] 0) (hn : s.enqueued 0 = 0) :
    CacheStep Offer.rt env 900 s (.changed (.expired 0 booking.stale) 0) (expired s) := by
  have hfresh : (drawn 3).Fresh s.tx.core.db := by
    rw [hdb]
    decide +kernel
  have hrun : (expireReservation booking.stale (drawn 3) s.tx.core.now).run s.tx.core.db =
      .ok (true, overdueDatabase) := by
    rw [hdb, hnow]
    exact expire_ok
  have hstep : Step 900 s.tx.core (.expired 0 booking.stale) _ := .expire hw hfresh hrun
  have hchanged := @CacheStep.expire Offer.rt env 900 s 0 booking.stale _ (.expire hopen hstep)
  rwa [hn] at hchanged

/-! The invalidation runs to its end before the expiry commits. -/

/-- The invalidation starts before the commit. -/
def a₃ : CacheState := sweeping s₂

/-- It is over before the commit, too. -/
def a₄ : CacheState := swept a₃

/-- A call asks. -/
def a₅ : CacheState := asked a₄

/-- It reads the old places. -/
def a₆ : CacheState := answered held a₅

/-- It stores them. -/
def a₇ : CacheState := stored held a₆

/-- Now the expiry commits. -/
def a₈ : CacheState := expired a₇

/-- The schedule with the invalidation before the commit. -/
def early : List (Transition CacheState CacheEvent) :=
  [⟨s₀, .tx (.core (.listed 0 [booking.stale])), s₁⟩, ⟨s₁, .tx (.opened 0 booking.stale), s₂⟩,
    ⟨s₂, .sweepStarted 0, a₃⟩, ⟨a₃, .sweepFinished 0, a₄⟩, ⟨a₄, .missed 0 req, a₅⟩,
    ⟨a₅, .loaded 0 req (.ok held), a₆⟩, ⟨a₆, .stored 0 req held, a₇⟩,
    ⟨a₇, .changed (.expired 0 booking.stale) 0, a₈⟩, ⟨a₈, .hit 1 req held, served a₈⟩]

theorem run_early : Run (CacheStep Offer.rt env 900) s₀ early (served a₈) := by
  have hstarted : CacheStep Offer.rt env 900 s₂ (.sweepStarted 0) a₃ := .startSweep rfl
  have hfinished : CacheStep Offer.rt env 900 a₃ (.sweepFinished 0) a₄ :=
    .finishSweep rfl (by decide)
  have hmissed : CacheStep Offer.rt env 900 a₄ (.missed 0 req) a₅ := .miss rfl (by decide)
  have hloaded : CacheStep Offer.rt env 900 a₅ (.loaded 0 req (.ok held)) a₆ :=
    .load rfl load_ok.1
  have hstored : CacheStep Offer.rt env 900 a₆ (.stored 0 req held) a₇ := .store rfl
  have hchanged : CacheStep Offer.rt env 900 a₇ (.changed (.expired 0 booking.stale) 0) a₈ :=
    expired_step rfl rfl rfl rfl rfl
  have hhit : CacheStep Offer.rt env 900 a₈ (.hit 1 req held) (served a₈) := .hit rfl (by decide)
  exact (((((((((Run.nil s₀).snoc listed_step).snoc opened_step).snoc hstarted).snoc
    hfinished).snoc hmissed).snoc hloaded).snoc hstored).snoc hchanged).snoc hhit

/-! The expiry commits, and then its invalidation runs. -/

/-- The expiry commits first. -/
def b₃ : CacheState := expired s₂

/-- The invalidation starts after it. -/
def b₄ : CacheState := sweeping b₃

/-- The invalidation is over. -/
def b₅ : CacheState := swept b₄

/-- A call asks. -/
def b₆ : CacheState := asked b₅

/-- It reads the new places. -/
def b₇ : CacheState := answered released b₆

/-- It stores them. -/
def b₈ : CacheState := stored released b₇

/-- The schedule with the invalidation after the commit. -/
def late : List (Transition CacheState CacheEvent) :=
  [⟨s₀, .tx (.core (.listed 0 [booking.stale])), s₁⟩, ⟨s₁, .tx (.opened 0 booking.stale), s₂⟩,
    ⟨s₂, .changed (.expired 0 booking.stale) 0, b₃⟩, ⟨b₃, .sweepStarted 0, b₄⟩,
    ⟨b₄, .sweepFinished 0, b₅⟩, ⟨b₅, .missed 0 req, b₆⟩,
    ⟨b₆, .loaded 0 req (.ok released), b₇⟩, ⟨b₇, .stored 0 req released, b₈⟩,
    ⟨b₈, .hit 1 req released, served b₈⟩]

theorem run_late : Run (CacheStep Offer.rt env 900) s₀ late (served b₈) := by
  have hchanged : CacheStep Offer.rt env 900 s₂ (.changed (.expired 0 booking.stale) 0) b₃ :=
    expired_step rfl rfl rfl rfl rfl
  have hstarted : CacheStep Offer.rt env 900 b₃ (.sweepStarted 0) b₄ := .startSweep rfl
  have hfinished : CacheStep Offer.rt env 900 b₄ (.sweepFinished 0) b₅ :=
    .finishSweep rfl (by decide)
  have hmissed : CacheStep Offer.rt env 900 b₅ (.missed 0 req) b₆ := .miss rfl (by decide)
  have hloaded : CacheStep Offer.rt env 900 b₆ (.loaded 0 req (.ok released)) b₇ :=
    .load rfl load_ok.2
  have hstored : CacheStep Offer.rt env 900 b₇ (.stored 0 req released) b₈ := .store rfl
  have hhit : CacheStep Offer.rt env 900 b₈ (.hit 1 req released) (served b₈) :=
    .hit rfl (by decide)
  exact (((((((((Run.nil s₀).snoc listed_step).snoc opened_step).snoc hchanged).snoc
    hstarted).snoc hfinished).snoc hmissed).snoc hloaded).snoc hstored).snoc hhit

theorem idle : s₀.Idle := ⟨⟨State.idle_start _ _, fun _ => rfl⟩, fun _ => rfl, fun _ => rfl⟩

/-- On the first schedule a detail after the expiry shows the places as held. -/
theorem not_fresh : ¬ FreshAfterInvalidation Offer.rt env early := by
  intro h
  obtain ⟨m, x, hlt, hle, hx, req', order, -, hload⟩ := h 7 3 8 8 _ 0 (uuid 1) req (.ok held)
    ⟨_, rfl, rfl⟩ rfl ⟨_, rfl, rfl⟩ (by decide) (by decide)
    (Or.inl ⟨rfl, 1, held, ⟨_, rfl, rfl⟩, rfl⟩) rfl
  obtain rfl : m = 8 := by omega
  obtain rfl := Option.some.inj hx
  obtain ⟨slot, hmem, hreserved⟩ := reserved_of_load hload (List.mem_singleton_self _)
  have hfree : ∀ slot ∈ overdueDatabase.availabilitySlots.rows,
      slot.reserved ≠ booking.partySize := by decide +kernel
  exact hfree slot hmem hreserved

/-- On the second schedule the only store is of a value read after the change. -/
theorem storesInTime_late : StoresInTime env late := by
  intro i a b q p e n tenantId r req' value hi he ha hb hq hp htenant hqp hqi hap
  have hi : i = 2 := by
    obtain ⟨x, hx, hevent⟩ := hi
    have hlt : i < 9 := (List.getElem?_eq_some_iff.mp hx).1
    interval_cases i <;> cases hx <;> first | rfl | cases hevent
  have hq : q = 6 := by
    obtain ⟨x, hx, hevent⟩ := hq
    have hlt : q < 9 := (List.getElem?_eq_some_iff.mp hx).1
    interval_cases q <;> cases hx <;> first | rfl | cases hevent
  omega

end EarlyInvalidation

/-- **A response can be stale after the invalidation**: the invalidation of an expiry
can finish before the expiry commits. -/
theorem not_always_fresh : ∃ (rt : Runtime) (env : CacheEnv) (ttl : ℕ) (s t : CacheState)
    (tr : List (Transition CacheState CacheEvent)), Run (CacheStep rt env ttl) s tr t ∧ s.Idle ∧
      ¬ FreshAfterInvalidation rt env tr :=
  ⟨Offer.rt, EarlyInvalidation.env, 900, _, _, _, EarlyInvalidation.run_early,
    EarlyInvalidation.idle, EarlyInvalidation.not_fresh⟩

/-- When the expiry commits first, the detail from the cache shows the places as
free. -/
theorem fresh_of_storesInTime_late :
    FreshAfterInvalidation Offer.rt EarlyInvalidation.env EarlyInvalidation.late :=
  fresh_of_storesInTime EarlyInvalidation.run_late EarlyInvalidation.idle
    EarlyInvalidation.storesInTime_late

end BookingPlatform
