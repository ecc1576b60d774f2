import BookingPlatform.Texts
import BookingPlatform.Webhooks
import BookingPlatform.WebhookSignature
import BookingPlatform.Lib.JsonText

/-!
# The bodies of the webhooks

What `booking-webhook.service.ts` and `sendTestWebhook` hand to `deliverWebhook`, as the
JSON text that is signed and sent, and what a receiver makes of it.

## Main definitions

* `WebhookPayload` — a booking event or a test.
* `sendTestWebhook` — a test, with the request that it makes.
* `ReadsAs` — a receiver parses a body as a value.

## Main results

* `WebhookPayload.json_injective` — the JSON of a payload tells it.
* `deliveries_tell_payloads` — who accepts a delivery parses the payload that was sent,
  and a signature is one of one payload and one second.
* `webhooks_private` — a webhook hears of bookings of its own tenant only.
-/

namespace BookingPlatform

open JsonText Runs Utf16 Binary64

/-! ### Payloads -/

/-- `WebhookEventType.TEST`. -/
def testEvent : String := "webhook.test"

/-- An instant, or `null` where there is none. -/
def instantOrNull (t : Option Instant) : Value ℚ :=
  (t.map fun t => jsonText (toISOString t)).getD .null

/-- The data of a booking payload as JSON. -/
def BookingWebhookData.json (data : BookingWebhookData) : Value ℚ := .obj
  [("booking_ref", .str data.bookingRef), ("status", .str data.status.toString),
    ("party_size", jsonInt data.partySize), ("total_price", jsonText data.totalPrice.toString),
    ("reserved_until", instantOrNull data.reservedUntil),
    ("user", .obj [("id", jsonText data.user.id.toChars), ("email", .str data.user.email)]),
    ("experience", .obj
      [("id", jsonText data.experience.id.toChars), ("title", .str data.experience.title)]),
    ("slot", .obj [("id", jsonText data.slot.id.toChars),
      ("starts_at", jsonText (toISOString data.slot.startsAt)),
      ("ends_at", jsonText (toISOString data.slot.endsAt))])]

/-- The payload of a dispatch, or of a test with its data. -/
inductive WebhookPayload
  | booking (payload : BookingWebhookPayload)
  | test (tenantId : Uuid) (data : List (String × Value ℚ)) (occurredAt : Instant)

/-- A payload as the JSON that is sent. -/
def WebhookPayload.json : WebhookPayload → Value ℚ
  | booking payload => .obj
    [("event", .str payload.event.value),
      ("occurred_at", jsonText (toISOString payload.occurredAt)),
      ("tenant_id", jsonText payload.tenantId.toChars), ("data", payload.data.json)]
  | test tenantId data occurredAt => .obj
    [("event", .str testEvent), ("occurred_at", jsonText (toISOString occurredAt)),
      ("tenant_id", jsonText tenantId.toChars), ("data", .obj data)]

/-- The instants of a payload are values of a `Date`. -/
structure BookingWebhookPayload.InDateRange (payload : BookingWebhookPayload) : Prop where
  occurredAt : BookingPlatform.InDateRange payload.occurredAt
  reservedUntil : ∀ t ∈ payload.data.reservedUntil, BookingPlatform.InDateRange t
  startsAt : BookingPlatform.InDateRange payload.data.slot.startsAt
  endsAt : BookingPlatform.InDateRange payload.data.slot.endsAt

/-- The payload can be printed, and the data of a test is an object. -/
def WebhookPayload.WellFormed : WebhookPayload → Prop
  | booking payload => payload.InDateRange
  | test _ data occurredAt => (Value.obj data).Valid ∧ InDateRange occurredAt

@[simp] theorem valid_instantOrNull (t : Option Instant) : (instantOrNull t).Valid := by
  cases t <;> simp [instantOrNull]

theorem WebhookPayload.WellFormed.valid {p : WebhookPayload} (h : p.WellFormed) :
    p.json.Valid := by
  cases p with
  | booking payload => simp [json, BookingWebhookData.json]
  | test tenantId data occurredAt => simpa [json] using h.1

/-! ### The JSON tells the payload -/

theorem WebhookEventType.value_injective : Function.Injective WebhookEventType.value := by
  intro a b h
  cases a <;> cases b <;> first | rfl | exact absurd h (by decide)

theorem BookingStatus.toString_injective : Function.Injective BookingStatus.toString := by
  intro a b h
  cases a <;> cases b <;> first | rfl | exact absurd h (by decide)

theorem value_ne_testEvent (event : WebhookEventType) : event.value ≠ testEvent := by
  cases event <;> decide

theorem instantOrNull_injective {a b : Option Instant} (ha : ∀ t ∈ a, InDateRange t)
    (hb : ∀ t ∈ b, InDateRange t) (h : instantOrNull a = instantOrNull b) : a = b := by
  cases a with
  | none =>
    cases b with
    | none => rfl
    | some t => cases h
  | some s =>
    cases b with
    | none => cases h
    | some t => rw [toISOString_injective (ha s rfl) (hb t rfl) (jsonText_inj.mp h)]

theorem BookingWebhookPayload.json_injective {p q : BookingWebhookPayload} (hp : p.InDateRange)
    (hq : q.InDateRange) (h : (WebhookPayload.booking p).json = (WebhookPayload.booking q).json) :
    p = q := by
  simp only [WebhookPayload.json, BookingWebhookData.json, Value.obj.injEq, List.cons.injEq,
    Prod.mk.injEq, true_and, and_true, Value.str.injEq, jsonText_inj, jsonInt_inj,
    WebhookEventType.value_injective.eq_iff, BookingStatus.toString_injective.eq_iff,
    Uuid.toChars_injective.eq_iff, Money.toString_injective.eq_iff] at h
  obtain ⟨hevent, hoccurred, htenant, hreference, hstatus, hsize, hprice, hreserved, huser,
    hexperience, hslot, hstarts, hends⟩ := h
  have hoccurred := toISOString_injective hp.occurredAt hq.occurredAt hoccurred
  have hreserved := instantOrNull_injective hp.reservedUntil hq.reservedUntil hreserved
  have hstarts := toISOString_injective hp.startsAt hq.startsAt hstarts
  have hends := toISOString_injective hp.endsAt hq.endsAt hends
  obtain ⟨_, _, _, _, _, _, _, _, ⟨_, _⟩, ⟨_, _⟩, ⟨_, _, _⟩⟩ := p
  obtain ⟨_, _, _, _, _, _, _, _, ⟨_, _⟩, ⟨_, _⟩, ⟨_, _, _⟩⟩ := q
  simp_all [Int4.ext_iff]

/-- **The JSON of a payload tells it.** -/
theorem WebhookPayload.json_injective {p q : WebhookPayload} (hp : p.WellFormed)
    (hq : q.WellFormed) (h : p.json = q.json) : p = q := by
  cases p with
  | booking payload =>
    cases q with
    | booking payload' => rw [BookingWebhookPayload.json_injective hp hq h]
    | test tenantId data occurredAt =>
      simp only [json, Value.obj.injEq, List.cons.injEq, Prod.mk.injEq, Value.str.injEq] at h
      exact absurd h.1.2 (value_ne_testEvent _)
  | test tenantId data occurredAt =>
    cases q with
    | booking payload' =>
      simp only [json, Value.obj.injEq, List.cons.injEq, Prod.mk.injEq, Value.str.injEq] at h
      exact absurd h.1.2.symm (value_ne_testEvent _)
    | test tenantId' data' occurredAt' =>
      simp only [json, Value.obj.injEq, List.cons.injEq, Prod.mk.injEq, true_and, and_true,
        jsonText_inj, Uuid.toChars_injective.eq_iff] at h
      obtain ⟨hoccurred, htenant, hdata⟩ := h
      rw [toISOString_injective hp.2 hq.2 hoccurred, htenant, hdata]

/-! ### Deliveries -/

section Deliveries

variable (N : Numbers ℚ)

/-- `JSON.stringify(payload)`. -/
def stringify (payload : WebhookPayload) : JsString := encode (print N payload.json)

/-- A body is the UTF-8 of a text that `JSON.parse` reads as this value. -/
def ReadsAs (body : List UInt8) (value : Value ℚ) : Prop :=
  ∃ text, body = charBytes text ∧ parse N text = some value

variable {N}

theorem readsAs_stringify {p : WebhookPayload} (hp : p.WellFormed) :
    ReadsAs N (utf8 (stringify N p)) p.json :=
  ⟨print N p.json, by rw [stringify, utf8, decode_encode], parse_print hp.valid⟩

theorem stringify_injective {p q : WebhookPayload} (hp : p.WellFormed) (hq : q.WellFormed)
    (h : decode (stringify N p) = decode (stringify N q)) : p = q := by
  rw [stringify, stringify, decode_encode, decode_encode] at h
  exact WebhookPayload.json_injective hp hq (print_injective hp.valid hq.valid h)

/-- The header with the signature tells the timestamp and the signature. -/
theorem header_inj {hmac : List UInt8 → List UInt8 → List UInt8}
    {webhook webhook' : WebhookEndpoint} {rawBody rawBody' eventId eventId' : JsString}
    {now now' : TimeValue}
    (h : (deliveryRequest hmac webhook rawBody eventId now).header "X-Webhook-Signature" =
      (deliveryRequest hmac webhook' rawBody' eventId' now').header "X-Webhook-Signature") :
    now.seconds.text = now'.seconds.text ∧
      hexBytes (hmac (utf8 webhook.secret) (webhookMessage now.seconds rawBody)) =
        hexBytes (hmac (utf8 webhook'.secret) (webhookMessage now'.seconds rawBody')) := by
  obtain ⟨value, hvalue, hread, -⟩ :=
    (@accepts_delivery hmac webhook rawBody eventId now).header_signature
  obtain ⟨value', hvalue', hread', -⟩ :=
    (@accepts_delivery hmac webhook' rawBody' eventId' now').header_signature
  rw [hvalue, hvalue', Option.some.injEq] at h
  rw [h, hread'] at hread
  simp only [Option.some.injEq, Prod.mk.injEq] at hread
  exact ⟨hread.1.symm, hread.2.symm⟩

/-- **Who accepts a delivery parses the payload that was sent.**  The body of a delivery
reads as its payload; so does every body that is accepted with its signature, at
whatever time; and a delivery under the same secret that carries the same header is one
of the same payload, in the same second. -/
theorem deliveries_tell_payloads {hmac : List UInt8 → List UInt8 → List UInt8} (N : Numbers ℚ)
    {p : WebhookPayload} (hp : p.WellFormed) {webhook : WebhookEndpoint}
    (hinj : Function.Injective (hmac (utf8 webhook.secret))) (fetch : FetchRequest → FetchOutcome)
    (eventId : JsString) (times : DeliveryTimes) :
    let sent := (deliverWebhook hmac (stringify N) fetch webhook p eventId times).1
    ReadsAs N sent.body p.json ∧
    (∃ signature, sent.Verified hmac webhook.secret times.signed.seconds signature ∧
      ∀ (value : JsString) (t : Integer) (body : List UInt8), '.' ∉ t.text →
        readSignature value = some (t.text, signature) →
        accepts hmac webhook.secret value body = true → ReadsAs N body p.json) ∧
    ∀ (p' : WebhookPayload) (url eventId' : JsString) (times' : DeliveryTimes), p'.WellFormed →
      (deliverWebhook hmac (stringify N) fetch ⟨url, webhook.secret⟩ p' eventId' times').1.header
        "X-Webhook-Signature" = sent.header "X-Webhook-Signature" →
      p' = p ∧ times'.signed.seconds = times.signed.seconds := by
  have hdelivered : '.' ∉ times.signed.seconds.text := point_notMem_text (seconds_lt times.signed)
  refine ⟨readsAs_stringify hp, ⟨_, accepts_delivery webhook (stringify N p) eventId times.signed,
    fun value t body ht hread haccepts => ?_⟩, fun p' url eventId' times' hp' hheader => ?_⟩
  · obtain ⟨-, rfl⟩ := eq_of_accepts hinj hdelivered ht hread haccepts
    exact readsAs_stringify hp
  · obtain ⟨-, hsignature⟩ := header_inj hheader
    have hdelivered' : '.' ∉ times'.signed.seconds.text :=
      point_notMem_text (seconds_lt times'.signed)
    obtain ⟨hseconds, hbody⟩ := webhookMessage_inj (iff_of_false hdelivered' hdelivered)
      (hinj (hexBytes_injective hsignature))
    exact ⟨stringify_injective hp' hp hbody, hseconds⟩

end Deliveries

/-! ### A test -/

/-- The URL and the secret as JavaScript strings. -/
def TenantWebhook.endpoint (webhook : TenantWebhook) : WebhookEndpoint :=
  ⟨js webhook.url, js webhook.secret⟩

/-- `sendTestWebhook`, with the request that `deliverWebhook` makes. -/
def sendTestWebhook (hmac : List UInt8 → List UInt8 → List UInt8) (N : Numbers ℚ)
    (fetch : FetchRequest → FetchOutcome) (webhooks : Table TenantWebhook) (tenantId : Uuid)
    (data : Option (List (String × Value ℚ))) (eventId : Uuid) (now : TimeValue)
    (times : DeliveryTimes) : Except Failure (FetchRequest × WebhookTestResult) := do
  let webhook ← orThrow (webhooks.findFirst fun w => w.tenantId = tenantId ∧ w.active = true)
    (.app (notFoundError "No webhook registered for this tenant"))
  let payload := WebhookPayload.test tenantId
    (data.getD [("message", .str "This is a test event from Booking Availability Platform")]) now.1
  return deliverWebhook hmac (stringify N) fetch webhook.endpoint payload (js eventId.toString)
    times

/-- A test is delivered to an active webhook of the tenant. -/
theorem sendTestWebhook_ok {hmac : List UInt8 → List UInt8 → List UInt8} {N : Numbers ℚ}
    {fetch : FetchRequest → FetchOutcome} {webhooks : Table TenantWebhook} {tenantId : Uuid}
    {data : Option (List (String × Value ℚ))} {eventId : Uuid} {now : TimeValue}
    {times : DeliveryTimes} {r : FetchRequest × WebhookTestResult}
    (h : sendTestWebhook hmac N fetch webhooks tenantId data eventId now times = .ok r) :
    ∃ webhook ∈ webhooks, webhook.tenantId = tenantId ∧ webhook.active = true ∧
      ∃ data', r = deliverWebhook hmac (stringify N) fetch webhook.endpoint
        (.test tenantId data' now.1) (js eventId.toString) times := by
  simp only [sendTestWebhook, Except.bind_eq_ok, orThrow_eq_ok, Except.pure_eq_ok] at h
  obtain ⟨webhook, hfirst, rfl⟩ := h
  obtain ⟨hmem, hwebhook⟩ := Table.mem_of_findFirst hfirst
  obtain ⟨htenant, hactive⟩ := of_decide_eq_true hwebhook
  exact ⟨webhook, hmem, htenant, hactive, _, rfl⟩

/-! ### Whose webhook hears of a booking -/

/-- What a payload tells of a booking and its relations. -/
structure BookingWebhookPayload.Describes (payload : BookingWebhookPayload) (db : Database)
    (b : Booking) : Prop where
  bookingRef : payload.data.bookingRef = b.reference
  status : payload.data.status = b.status
  partySize : payload.data.partySize = b.partySize
  totalPrice : payload.data.totalPrice = b.totalPrice
  reservedUntil : payload.data.reservedUntil = b.reservedUntil
  user : ∃ u, db.users.get? b.userId = some u ∧ payload.data.user = ⟨u.id, u.email⟩
  experience : ∃ e, db.experiences.get? b.experienceId = some e ∧
    payload.data.experience = ⟨e.id, e.title⟩
  slot : ∃ sl, db.availabilitySlots.get? b.slotId = some sl ∧
    payload.data.slot = ⟨sl.id, sl.startsAt, sl.endsAt⟩

theorem describes_of_build {d : Dispatch} {db : Database} {now : Instant}
    {payload : BookingWebhookPayload} (h : d.buildPayload db now = .ok (some payload)) :
    payload.event = d.event ∧ payload.tenantId = d.tenantId ∧ payload.occurredAt = now ∧
      ∃ b ∈ db.bookings, b.id = d.bookingId ∧ b.tenantId = d.tenantId ∧
        payload.Describes db b := by
  unfold Dispatch.buildPayload at h
  cases hfirst : db.bookings.findFirst fun b => b.id = d.bookingId ∧ b.tenantId = d.tenantId with
  | none =>
    simp only [hfirst] at h
    cases h
  | some b =>
    simp only [hfirst, Except.bind_eq_ok] at h
    obtain ⟨user, huser, experience, hexperience, slot, hslot, heq⟩ := h
    obtain rfl := Option.some.inj (Except.ok.inj heq)
    obtain ⟨hmem, hb⟩ := Table.mem_of_findFirst hfirst
    obtain ⟨hid, htenant⟩ := of_decide_eq_true hb
    exact ⟨rfl, rfl, rfl, b, hmem, hid, htenant, rfl, rfl, rfl, rfl, rfl,
      ⟨user, required_eq_ok.mp huser, rfl⟩, ⟨experience, required_eq_ok.mp hexperience, rfl⟩,
      ⟨slot, required_eq_ok.mp hslot, rfl⟩⟩

section Run

variable {ttl : ℕ} {s t : DispatchState} {e : DispatchEvent} {n : ℕ} {d : Dispatch}
  {webhook : TenantWebhook} {payload : BookingWebhookPayload}

/-- A dispatch holds the webhook that it has found. -/
theorem found_of_registered (h : DispatchStep ttl s e t) (hs : s.tasks n ≠ .registered d webhook)
    (ht : t.tasks n = .registered d webhook) :
    e = .found n d ∧ d.findWebhook s.webhooks = some webhook := by
  have hupdate {m : ℕ} {task : DispatchTask}
      (hm : Function.update s.tasks m task n = .registered d webhook) :
      n = m ∧ task = .registered d webhook := (update_eq hm).resolve_right hs
  cases h with
  | tx | changeWebhooks => exact absurd ht hs
  | find hm hfound =>
    obtain ⟨rfl, htask⟩ := hupdate ht
    cases htask
    exact ⟨rfl, hfound⟩
  | enqueue | noWebhook | read | noBooking | send => cases (hupdate ht).2

/-- A dispatch builds its payload for the webhook that it has found. -/
theorem registered_of_built (h : DispatchStep ttl s e t) (hs : s.tasks n ≠ .built d webhook payload)
    (ht : t.tasks n = .built d webhook payload) :
    e = .read n d payload ∧ s.tasks n = .registered d webhook ∧
      d.buildPayload s.tx.core.db s.tx.core.now = .ok (some payload) := by
  have hupdate {m : ℕ} {task : DispatchTask}
      (hm : Function.update s.tasks m task n = .built d webhook payload) :
      n = m ∧ task = .built d webhook payload := (update_eq hm).resolve_right hs
  cases h with
  | tx | changeWebhooks => exact absurd ht hs
  | read hm hbuild =>
    obtain ⟨rfl, htask⟩ := hupdate ht
    cases htask
    exact ⟨rfl, hm, hbuild⟩
  | enqueue | find | noWebhook | noBooking | send => cases (hupdate ht).2

/-- **A webhook hears of bookings of its own tenant only.**  What is sent goes to a
webhook that was an active one of the tenant of the dispatch when the dispatch looked it
up; its payload is under this tenant, and describes a booking of it as the database had
it when, later, the dispatch read it. -/
theorem webhooks_private {ttl : ℕ} {s t : DispatchState}
    {tr : List (Transition DispatchState DispatchEvent)} (hrun : Run (DispatchStep ttl) s tr t)
    (hidle : s.Idle) {before after : List (Transition DispatchState DispatchEvent)}
    {y : Transition DispatchState DispatchEvent} {n : ℕ} {d : Dispatch}
    {payload : BookingWebhookPayload} (htr : tr = before ++ y :: after)
    (hsent : y.event = .sent n d payload) :
    ∃ (webhook : TenantWebhook) (l m r : List (Transition DispatchState DispatchEvent))
      (f x : Transition DispatchState DispatchEvent),
      before = l ++ f :: (m ++ x :: r) ∧ y.pre.tasks n = .built d webhook payload ∧
      (f.event = .found n d ∧ webhook ∈ f.pre.webhooks ∧ webhook.tenantId = d.tenantId ∧
        webhook.active = true) ∧
      x.event = .read n d payload ∧ payload.event = d.event ∧ payload.tenantId = d.tenantId ∧
      payload.occurredAt = x.pre.tx.core.now ∧
      ∃ b ∈ x.pre.tx.core.db.bookings, b.id = d.bookingId ∧ b.tenantId = d.tenantId ∧
        payload.Describes x.pre.tx.core.db b := by
  subst htr
  obtain ⟨hbefore, hy, -⟩ := hrun.cut
  rw [hsent] at hy
  obtain ⟨webhook, hbuilt⟩ := built_of_send hy
  -- back to the read that built the payload, and from there to the lookup of the webhook
  obtain ⟨l', x, r, rfl, hpre, hpost⟩ := hbefore.origin
    (P := fun s => s.tasks n = .built d webhook payload) (by simp [hidle.tasks n]) hbuilt
  obtain ⟨hfirst, hx, -⟩ := hbefore.cut
  obtain ⟨hread, hregistered, hbuild⟩ := registered_of_built hx hpre hpost
  obtain ⟨l, f, m, rfl, hfpre, hfpost⟩ := hfirst.origin
    (P := fun s => s.tasks n = .registered d webhook) (by simp [hidle.tasks n]) hregistered
  obtain ⟨hfound, hwebhook⟩ := found_of_registered hfirst.cut.2.1 hfpre hfpost
  obtain ⟨hmem, hactive⟩ := Table.mem_of_findFirst hwebhook
  obtain ⟨htenant, hactive⟩ := of_decide_eq_true hactive
  obtain ⟨hevent, hpayload, hoccurred, hbooking⟩ := describes_of_build hbuild
  exact ⟨webhook, l, m, r, f, x, by simp, hbuilt, ⟨hfound, hmem, htenant, hactive⟩, hread, hevent,
    hpayload, hoccurred, hbooking⟩

end Run

/-! ### A body -/

namespace SignedBody

/-- The announcement of the expiry. -/
def payload : WebhookPayload := .booking FailedExpiry.payload

/-- HMAC-SHA256 of `1700000000.` and the text of the payload under `whsec_00`, and an
injective function of the message elsewhere. -/
def bodyHmac (_key message : List UInt8) : List UInt8 :=
  sampleDigest (charBytes ("1700000000.".toList ++ print sampleNumbers payload.json))
    [228, 93, 156, 121, 126, 68, 152, 18, 54, 153, 243, 250, 147, 56, 128, 234,
      142, 94, 128, 49, 151, 205, 178, 33, 147, 52, 120, 143, 192, 243, 45, 177] message

theorem bodyHmac_injective (key : List UInt8) : Function.Injective (bodyHmac key) :=
  sampleDigest_injective rfl

theorem wellFormed : payload.WellFormed := by
  refine ⟨by decide, fun t ht => ?_, by decide, by decide⟩
  obtain rfl : 900000 = t := Option.some.inj ht
  decide

/-- The request that delivers it. -/
def sent : FetchRequest :=
  (deliverWebhook bodyHmac (stringify sampleNumbers) (fun _ => .response 200) sampleEndpoint
    payload (js "e1") sampleTimes).1

end SignedBody

open SignedBody in
theorem deliveries_tell_payloads_expired :
    ReadsAs sampleNumbers sent.body payload.json ∧ payload = .booking FailedExpiry.payload := by
  obtain ⟨hreads, -, hunique⟩ := deliveries_tell_payloads sampleNumbers wellFormed
    (bodyHmac_injective (utf8 sampleEndpoint.secret)) (fun _ => .response 200) (js "e1") sampleTimes
  exact ⟨hreads, (hunique payload sampleEndpoint.url (js "e1") sampleTimes wellFormed rfl).1⟩

/-- The announcement of an expiry goes to the webhook of its tenant. -/
theorem webhooks_private_failed_expiry :
    ∃ webhook, FailedExpiry.s₅.tasks 0 =
        .built LateConfirm.booking.stale.dispatch webhook FailedExpiry.payload ∧
      webhook.tenantId = FailedExpiry.payload.tenantId := by
  obtain ⟨webhook, _, _, _, _, _, -, hbuilt, ⟨-, -, htenant, -⟩, -, -, hpayload, -⟩ :=
    @webhooks_private 900 _ _ _ FailedExpiry.run FailedExpiry.idle (FailedExpiry.steps.take 5) []
      ⟨FailedExpiry.s₅, .sent 0 LateConfirm.booking.stale.dispatch FailedExpiry.payload,
        FailedExpiry.s₆⟩ 0 LateConfirm.booking.stale.dispatch FailedExpiry.payload rfl rfl
  exact ⟨webhook, hbuilt, htenant.trans hpayload.symm⟩

end BookingPlatform
