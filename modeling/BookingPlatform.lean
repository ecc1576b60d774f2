import BookingPlatform.Lib.Runs
import BookingPlatform.Timeline
import BookingPlatform.PricingLaws
import BookingPlatform.DateWindows
import BookingPlatform.Audit
import BookingPlatform.BookingState
import BookingPlatform.BookingSystem
import BookingPlatform.Starvation
import BookingPlatform.Dispatches
import BookingPlatform.WebhookRegistration
import BookingPlatform.WebhookSignature
import BookingPlatform.CacheCoherence
import BookingPlatform.CacheLaws
import BookingPlatform.Auth
import BookingPlatform.Revocation
import BookingPlatform.Findable
import BookingPlatform.PriceSort
import BookingPlatform.Tenancy
import BookingPlatform.SessionAudit
import BookingPlatform.Server
import BookingPlatform.Privacy
import BookingPlatform.CacheTexts
import BookingPlatform.WebhookBodies
import BookingPlatform.CacheAge
import BookingPlatform.WebhookServer
