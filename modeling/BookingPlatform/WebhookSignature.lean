import BookingPlatform.Basic
import BookingPlatform.Lib.Utf16
import BookingPlatform.Lib.Binary64

/-!
# Webhook signatures

`webhook-signature.ts` and `webhook-delivery.service.ts`.  A delivery carries the
HMAC of the text of its time, a dot and its body; the header with the signature names
the time again, and a receiver computes the HMAC from that and from the body it got.

## Main definitions

* `webhookMessage`, `signWebhookPayload` — what is signed, and its signature.
* `deliverWebhook` — the request of a delivery, and what becomes of it.
* `accepts`, `FetchRequest.Verified` — the receiver.

## Main results

* `webhookMessage_inj` — the signed bytes tell the time and the body, as long as both
  times or neither are printed with a decimal point.
* `accepts_delivery` — the receiver accepts what was delivered.
* `eq_of_accepts` — it accepts the signature for nothing else, when the HMAC is
  injective.
* `webhook_signature_binds` — the three together, for every delivery.
-/

namespace BookingPlatform

open Binary64 Utf16

/-! ### Strings and times -/

/-- A JavaScript string: its UTF-16 code units. -/
abbrev JsString := List UInt16

/-- A string literal of the source. -/
def js (s : String) : JsString := encode s.toList

/-- What `Date.now()` may return. -/
abbrev TimeValue := { t : Instant // t.natAbs ≤ 8_640_000_000_000_000 }

/-- `Math.floor(Date.now() / 1000)`.  A quotient that is not an integer is further from
the next one than it is rounded. -/
def TimeValue.seconds (now : TimeValue) : Integer :=
  .ofInt (now.1 / 1000) (by have := now.2; omega)

/-! ### The signature -/

section Hmac

-- `createHmac("sha256", key).update(message).digest()`, of the bytes of both
variable (hmac : List UInt8 → List UInt8 → List UInt8)

/-- `digest("hex")`. -/
def hexBytes (bs : List UInt8) : List Char :=
  bs.flatMap fun b => [hexDigit (b.toNat / 16), hexDigit (b.toNat % 16)]

/-- What `signWebhookPayload` feeds to the HMAC. -/
def webhookMessage (timestamp : Integer) (rawBody : JsString) : List UInt8 :=
  utf8 (encode timestamp.text ++ js "." ++ rawBody)

/-- The hexadecimal HMAC of the message. -/
def signWebhookPayload (secret : JsString) (timestamp : Integer) (rawBody : JsString) : JsString :=
  encode (hexBytes (hmac (utf8 secret) (webhookMessage timestamp rawBody)))

/-- The headers of a delivery. -/
def webhookSignatureHeaders (secret rawBody eventId : JsString) (now : TimeValue) :
    List (String × JsString) :=
  let timestamp := now.seconds
  let signature := signWebhookPayload hmac secret timestamp rawBody
  [("Content-Type", js "application/json"),
    ("User-Agent", js "Booking-Availability-Platform/1.0"),
    ("X-Webhook-Id", eventId),
    ("X-Webhook-Timestamp", encode timestamp.text),
    ("X-Webhook-Signature", js "t=" ++ encode timestamp.text ++ js ",v1=" ++ signature)]

/-! ### The delivery -/

/-- Where a delivery goes, and the secret it is signed with. -/
structure WebhookEndpoint where
  url : JsString
  secret : JsString
  deriving DecidableEq

/-- What `fetch` sends: the body as UTF-8. -/
structure FetchRequest where
  url : JsString
  method : String
  headers : List (String × JsString)
  body : List UInt8
  deriving DecidableEq

/-- The first header of a name. -/
def FetchRequest.header (request : FetchRequest) (name : String) : Option JsString :=
  request.headers.lookup name

/-- A response with its status, or what was thrown: the message of an `Error`, or
anything else. -/
inductive FetchOutcome
  | response (status : ℕ)
  | failed (message : Option JsString)
  deriving DecidableEq

/-- What `deliverWebhook` returns. -/
structure WebhookTestResult where
  delivered : Bool
  statusCode : Option ℕ
  durationMs : ℤ
  error : Option JsString
  deriving DecidableEq

/-- The three times at which a delivery reads the clock. -/
structure DeliveryTimes where
  signed : TimeValue
  started : TimeValue
  ended : TimeValue

/-- The request of `deliverWebhook`. -/
def deliveryRequest (webhook : WebhookEndpoint) (rawBody eventId : JsString) (now : TimeValue) :
    FetchRequest where
  url := webhook.url
  method := "POST"
  headers := webhookSignatureHeaders hmac webhook.secret rawBody eventId now
  body := utf8 rawBody

/-- The result of `deliverWebhook`. -/
def deliveryResult (durationMs : ℤ) : FetchOutcome → WebhookTestResult
  | .response status =>
    let ok : Bool := 200 ≤ status ∧ status ≤ 299
    { delivered := ok
      statusCode := some status
      durationMs := durationMs
      error := if ok then none else some (js ("Webhook endpoint returned " ++ toString status)) }
  | .failed message =>
    { delivered := false
      statusCode := none
      durationMs := durationMs
      error := some (message.getD (js "Delivery failed")) }

/-- `deliverWebhook`; `stringify` is `JSON.stringify` on the payloads at hand. -/
def deliverWebhook {α : Type*} (stringify : α → JsString) (fetch : FetchRequest → FetchOutcome)
    (webhook : WebhookEndpoint) (payload : α) (eventId : JsString) (times : DeliveryTimes) :
    FetchRequest × WebhookTestResult :=
  let rawBody := stringify payload
  let request := deliveryRequest hmac webhook rawBody eventId times.signed
  (request, deliveryResult (times.ended.1 - times.started.1) (fetch request))

theorem deliveryResult_delivered (durationMs : ℤ) (outcome : FetchOutcome) :
    (deliveryResult durationMs outcome).delivered = true ↔
      (deliveryResult durationMs outcome).error = none := by
  cases outcome with
  | response status => simp [deliveryResult]
  | failed message => simp [deliveryResult]

/-! ### The receiver -/

/-- A value up to its first comma, and behind it. -/
def splitAtComma (value : List Char) : List Char × List Char :=
  (value.takeWhile (· ≠ ','), (value.dropWhile (· ≠ ',')).drop 1)

/-- A text behind a label. -/
def stripLabel (label cs : List Char) : Option (List Char) :=
  if label <+: cs then some (cs.drop label.length) else none

/-- The timestamp and the signature that a value of `X-Webhook-Signature` names. -/
def readSignature (value : JsString) : Option (List Char × List Char) := do
  let parts := splitAtComma (decode value)
  let timestamp ← stripLabel "t=".toList parts.1
  let signature ← stripLabel "v1=".toList parts.2
  return (timestamp, signature)

/-- The signature of a timestamp and a body as they were received. -/
def recompute (secret : JsString) (timestamp : List Char) (body : List UInt8) : List Char :=
  hexBytes (hmac (utf8 secret) (charBytes timestamp ++ charBytes ['.'] ++ body))

/-- A receiver compares the signature it got with the one it computes. -/
def accepts (secret value : JsString) (body : List UInt8) : Bool :=
  match readSignature value with
  | some (timestamp, signature) => recompute hmac secret timestamp body = signature
  | none => false

/-! ### What the bytes tell -/

theorem hexBytes_injective : Function.Injective hexBytes := by
  intro bs cs h
  induction bs generalizing cs with
  | nil =>
    cases cs with
    | nil => rfl
    | cons c cs => simp [hexBytes] at h
  | cons b bs ih =>
    cases cs with
    | nil => simp [hexBytes] at h
    | cons c cs =>
      simp only [hexBytes, List.flatMap_cons, List.cons_append, List.nil_append,
        List.cons.injEq] at h
      obtain ⟨hhigh, hlow, htail⟩ := h
      have hb := b.toNat_lt
      have hc := c.toNat_lt
      have hhigh := hexDigit_inj _ (by omega) _ (by omega) hhigh
      have hlow := hexDigit_inj _ (by omega) _ (by omega) hlow
      have hbyte : b = c := UInt8.toNat_inj.1 (by omega)
      rw [hbyte, ih htail]

theorem comma_notMem_text (t : Integer) : ',' ∉ t.text := by
  intro h
  simpa using mem_text h

theorem ascii_of_mem_text {t : Integer} {c : Char} (h : c ∈ t.text) : c.toNat < 0x80 := by
  rcases mem_text h with hdigit | hother
  · have hrange := (Char.isDigit_iff_toNat.1 hdigit).2
    exact hrange.trans_lt (by decide)
  · simp only [List.mem_cons, List.not_mem_nil, or_false] at hother
    rcases hother with rfl | rfl | rfl | rfl <;> decide

theorem decode_message (t : Integer) (b : JsString) :
    decode (encode t.text ++ js "." ++ b) = t.text ++ '.' :: decode b := by
  rw [List.append_assoc, decode_encode_append, js, decode_encode_append]
  rfl

theorem webhookMessage_eq (t : Integer) (b : JsString) :
    webhookMessage t b = charBytes t.text ++ charBytes ['.'] ++ utf8 b := by
  rw [webhookMessage, List.append_assoc, utf8_encode_append, js, utf8_encode_append,
    List.append_assoc]
  rfl

/-- The point that separates a timestamp from a body is found by the points before it. -/
theorem webhookMessage_inj {t₁ t₂ : Integer} {b₁ b₂ : JsString}
    (hpoint : '.' ∈ t₁.text ↔ '.' ∈ t₂.text) (h : webhookMessage t₁ b₁ = webhookMessage t₂ b₂) :
    t₁ = t₂ ∧ decode b₁ = decode b₂ := by
  have hchars : t₁.text ++ '.' :: decode b₁ = t₂.text ++ '.' :: decode b₂ := by
    rw [← decode_message, ← decode_message]
    exact utf8_eq_iff.1 h
  have hcount : t₁.text.count '.' = t₂.text.count '.' := by
    have h₁ := count_point_text t₁
    have h₂ := count_point_text t₂
    rw [← List.count_pos_iff, ← List.count_pos_iff] at hpoint
    omega
  obtain ⟨htext, hbody⟩ := List.eq_of_append_cons_eq hcount hchars
  exact ⟨text_injective htext, hbody⟩

theorem seconds_lt (now : TimeValue) : now.seconds.value.natAbs < 10 ^ 21 := by
  have hnow := now.2
  show (now.1 / 1000).natAbs < 10 ^ 21
  omega

/-! ### What the receiver finds -/

theorem splitAtComma_append {cs : List Char} (h : ',' ∉ cs) (ds : List Char) :
    splitAtComma (cs ++ ',' :: ds) = (cs, ds) := by
  have hpred : ∀ c ∈ cs, decide (c ≠ ',') = true := by
    intro c hc
    simp only [decide_eq_true_eq]
    intro heq
    exact h (heq ▸ hc)
  simp only [splitAtComma]
  rw [List.takeWhile_append_of_pos hpred, List.dropWhile_append_of_pos hpred]
  simp

theorem stripLabel_append (label cs : List Char) : stripLabel label (label ++ cs) = some cs := by
  simp [stripLabel]

theorem readSignature_header {t : List Char} (ht : ',' ∉ t) (signature : List Char) :
    readSignature (js "t=" ++ encode t ++ js ",v1=" ++ encode signature) =
      some (t, signature) := by
  have hvalue : decode (js "t=" ++ encode t ++ js ",v1=" ++ encode signature) =
      ("t=".toList ++ t) ++ ',' :: ("v1=".toList ++ signature) := by
    simp only [js, ← encode_append, decode_encode]
    simp
  have hno : ',' ∉ "t=".toList ++ t := by
    rw [List.mem_append, not_or]
    exact ⟨by decide, ht⟩
  rw [readSignature, hvalue, splitAtComma_append hno]
  simp only [stripLabel_append]
  rfl

variable {hmac}

theorem accepts_of_read {secret value : JsString} {body : List UInt8} {t signature : List Char}
    (h : readSignature value = some (t, signature)) :
    accepts hmac secret value body = true ↔ recompute hmac secret t body = signature := by
  simp [accepts, h]

theorem recompute_delivered (secret : JsString) (t : Integer) (b : JsString) :
    recompute hmac secret t.text (utf8 b) = hexBytes (hmac (utf8 secret) (webhookMessage t b)) := by
  rw [recompute, webhookMessage_eq]

/-- A signature is accepted for one timestamp without a point and for one body. -/
theorem eq_of_recompute_eq {secret : JsString} {t₁ t₂ : Integer} {body₁ body₂ : List UInt8}
    (hinj : Function.Injective (hmac (utf8 secret)))
    (h₁ : '.' ∉ t₁.text) (h₂ : '.' ∉ t₂.text)
    (h : recompute hmac secret t₁.text body₁ = recompute hmac secret t₂.text body₂) :
    t₁ = t₂ ∧ body₁ = body₂ := by
  have hbytes := hinj (hexBytes_injective h)
  have hpoint : ∀ t : Integer, '.' ∉ t.text → UInt8.ofNat '.'.toNat ∉ charBytes t.text :=
    fun t ht => notMem_charBytes (fun c hc => ascii_of_mem_text hc) (by decide) ht
  have hdot : charBytes ['.'] = [UInt8.ofNat '.'.toNat] := rfl
  have hsep : charBytes t₁.text ++ UInt8.ofNat '.'.toNat :: body₁ =
      charBytes t₂.text ++ UInt8.ofNat '.'.toNat :: body₂ := by
    simpa only [hdot, List.append_assoc, List.singleton_append] using hbytes
  obtain ⟨htext, hbody⟩ :=
    List.eq_of_append_cons_eq_of_notMem (hpoint t₁ h₁) (hpoint t₂ h₂) hsep
  exact ⟨text_injective (charBytes_injective htext), hbody⟩

/-- A receiver that knows the secret of `webhook` reads the time of `request` and the
signature of its body, and accepts them. -/
structure FetchRequest.Verified (hmac : List UInt8 → List UInt8 → List UInt8) (secret : JsString)
    (request : FetchRequest) (timestamp : Integer) (signature : List Char) : Prop where
  header_timestamp : request.header "X-Webhook-Timestamp" = some (encode timestamp.text)
  header_signature : ∃ value, request.header "X-Webhook-Signature" = some value ∧
    readSignature value = some (timestamp.text, signature) ∧
    accepts hmac secret value request.body = true

theorem accepts_delivery (webhook : WebhookEndpoint) (rawBody eventId : JsString)
    (now : TimeValue) :
    (deliveryRequest hmac webhook rawBody eventId now).Verified hmac webhook.secret now.seconds
      (hexBytes (hmac (utf8 webhook.secret) (webhookMessage now.seconds rawBody))) where
  header_timestamp := rfl
  header_signature := by
    have hread := readSignature_header (comma_notMem_text now.seconds)
      (hexBytes (hmac (utf8 webhook.secret) (webhookMessage now.seconds rawBody)))
    exact ⟨_, rfl, hread, (accepts_of_read hread).2 (recompute_delivered _ _ _)⟩

/-- A value that carries the signature of a delivery is accepted only with its time and
its body. -/
theorem eq_of_accepts {secret value : JsString} {b : JsString} {t t' : Integer}
    {body : List UInt8} (hinj : Function.Injective (hmac (utf8 secret)))
    (ht : '.' ∉ t.text) (ht' : '.' ∉ t'.text)
    (hread : readSignature value =
      some (t'.text, hexBytes (hmac (utf8 secret) (webhookMessage t b))))
    (h : accepts hmac secret value body = true) : t' = t ∧ body = utf8 b := by
  rw [accepts_of_read hread, ← recompute_delivered] at h
  exact eq_of_recompute_eq hinj ht' ht h

/-- The signature binds the time and the body: the signed bytes of a timestamp and a body
tell both, when both timestamps or neither are printed with a decimal point; and of
every delivery, the receiver reads back the time and the signature, accepts them, and
accepts this signature for no other timestamp without a point and for no other body. -/
theorem webhook_signature_binds {α : Type*} (hmac : List UInt8 → List UInt8 → List UInt8)
    (stringify : α → JsString) :
    (∀ (t₁ t₂ : Integer) (b₁ b₂ : JsString), ('.' ∈ t₁.text ↔ '.' ∈ t₂.text) →
      webhookMessage t₁ b₁ = webhookMessage t₂ b₂ →
      t₁ = t₂ ∧ decode b₁ = decode b₂ ∧ (WellFormed b₁ → WellFormed b₂ → b₁ = b₂)) ∧
    (∀ t : Integer, t.value.natAbs < 10 ^ 21 → '.' ∉ t.text) ∧
    ∀ (fetch : FetchRequest → FetchOutcome) (webhook : WebhookEndpoint) (payload : α)
      (eventId : JsString) (times : DeliveryTimes),
      let request := (deliverWebhook hmac stringify fetch webhook payload eventId times).1
      let timestamp := times.signed.seconds
      ∃ signature : List Char,
        encode signature =
          signWebhookPayload hmac webhook.secret timestamp (stringify payload) ∧
        request.Verified hmac webhook.secret timestamp signature ∧
        (Function.Injective (hmac (utf8 webhook.secret)) →
          ∀ (value : JsString) (t : Integer) (body : List UInt8), '.' ∉ t.text →
            readSignature value = some (t.text, signature) →
            accepts hmac webhook.secret value body = true →
            t = timestamp ∧ body = request.body) := by
  refine ⟨?_, fun t ht => point_notMem_text ht, ?_⟩
  · intro t₁ t₂ b₁ b₂ hpoint hmessage
    obtain ⟨htime, hbody⟩ := webhookMessage_inj hpoint hmessage
    exact ⟨htime, hbody, fun h₁ h₂ => eq_of_decode_eq h₁ h₂ hbody⟩
  · intro fetch webhook payload eventId times
    have hdelivered : '.' ∉ times.signed.seconds.text :=
      point_notMem_text (seconds_lt times.signed)
    refine ⟨_, rfl, accepts_delivery webhook (stringify payload) eventId times.signed, ?_⟩
    intro hinj value t body ht hread haccepts
    exact eq_of_accepts hinj hdelivered ht hread haccepts

end Hmac

/-! ### Where the bytes tell less -/

/-- `1.5e+21`. -/
def pointTimestamp : Integer := ⟨1500000000000000000000, by decide, by decide⟩

/-- The point of a timestamp in exponent form is taken for the separator; and a lone
surrogate is signed, and sent, as U+FFFD. -/
theorem webhook_signature_not_always_bound :
    (pointTimestamp ≠ Integer.ofInt 1 (by decide) ∧
      webhookMessage pointTimestamp (js "x") =
        webhookMessage (Integer.ofInt 1 (by decide)) (js "5e+21.x")) ∧
    (([0xD800] : JsString) ≠ [0xFFFD] ∧
      webhookMessage (Integer.ofInt 1 (by decide)) [0xD800] =
        webhookMessage (Integer.ofInt 1 (by decide)) [0xFFFD]) := by
  have htexts : pointTimestamp.text = "1.5e+21".toList ∧
      (Integer.ofInt 1 (by decide)).text = ['1'] := by decide
  refine ⟨⟨?_, ?_⟩, ?_, ?_⟩
  · intro h
    have hvalue : (1500000000000000000000 : ℤ) = 1 := congrArg Integer.value h
    omega
  · simp only [webhookMessage_eq, htexts]
    decide
  · decide
  · simp only [webhookMessage_eq, htexts]
    decide

/-! ### A delivery -/

/-- HMAC-SHA256 of `1700000000.true` under `whsec_00`, and an injective function of the
message elsewhere. -/
def sampleHmac (_key message : List UInt8) : List UInt8 :=
  if message = charBytes "1700000000.true".toList then
    [212, 158, 211, 249, 105, 51, 63, 149, 234, 31, 107, 171, 40, 247, 104, 152,
      227, 25, 209, 84, 210, 155, 9, 137, 122, 255, 123, 204, 179, 153, 93, 245]
  else List.replicate 33 0 ++ message

theorem sampleHmac_injective (key : List UInt8) : Function.Injective (sampleHmac key) := by
  intro m n h
  unfold sampleHmac at h
  split at h <;> split at h
  · next hm hn => rw [hm, hn]
  -- 32 bytes are fewer than 33
  · exact absurd (congrArg List.length h) (by simp)
  · exact absurd (congrArg List.length h) (by simp)
  · exact List.append_cancel_left h

/-- `JSON.stringify` of the two booleans. -/
def stringifyBool (b : Bool) : JsString := js (if b then "true" else "false")

/-- A delivery of a third of a second. -/
def sampleTimes : DeliveryTimes :=
  ⟨⟨1700000000123, by decide⟩, ⟨1700000000124, by decide⟩, ⟨1700000000480, by decide⟩⟩

/-- A webhook with its secret. -/
def sampleEndpoint : WebhookEndpoint := ⟨js "https://hooks.test", js "whsec_00"⟩

/-- The request that delivers `true`. -/
def sampleRequest : FetchRequest :=
  (deliverWebhook sampleHmac stringifyBool (fun _ => .response 200) sampleEndpoint true
    (js "e1") sampleTimes).1

theorem webhook_signature_binds_one_delivery :
    js ".5,x" = js ".5,x" ∧ '.' ∉ (Integer.ofInt 7 (by decide)).text ∧
      ∃ signature : List Char,
        sampleRequest.Verified sampleHmac (js "whsec_00") (.ofInt 1700000000 (by decide))
          signature ∧
        signature =
          "d49ed3f969333f95ea1f6bab28f76898e319d154d29b09897aff7bccb3995df5".toList ∧
        charBytes "true".toList = sampleRequest.body := by
  obtain ⟨hmessage, hpoint, hdelivery⟩ := webhook_signature_binds sampleHmac stringifyBool
  obtain ⟨signature, hsigned, hverified, hunique⟩ :=
    hdelivery (fun _ => .response 200) sampleEndpoint true (js "e1") sampleTimes
  have hbody := (hmessage (.ofInt 7 (by decide)) (.ofInt 7 (by decide)) (js ".5,x") (js ".5,x")
    Iff.rfl rfl).2.2 (wellFormed_encode _) (wellFormed_encode _)
  have hseven := hpoint (.ofInt 7 (by decide)) (by decide)
  obtain ⟨value, hvalue, hread, haccepts⟩ := hverified.header_signature
  have hsent := (hunique (sampleHmac_injective _) value (.ofInt 1700000000 (by decide))
    (charBytes "true".toList) (hpoint _ (by decide)) hread haccepts).2
  have hsignature : signature =
      "d49ed3f969333f95ea1f6bab28f76898e319d154d29b09897aff7bccb3995df5".toList := by
    apply encode_injective
    rw [hsigned]
    decide
  exact ⟨hbody, hseven, signature, hverified, hsignature, hsent⟩

end BookingPlatform
