import NewApi.Account.TokenSearch
import NewApi.Account.TwoFactor
import NewApi.Billing.Atomic
import NewApi.Billing.ClaudeUsage
import NewApi.Billing.Finalize
import NewApi.Cache.Hybrid
import NewApi.Cache.Objects
import NewApi.Channels.Affinity
import NewApi.Channels.KeyOps
import NewApi.Channels.KeySaves
import NewApi.Channels.Paths
import NewApi.Channels.Polling
import NewApi.Chat.FromClaude
import NewApi.Chat.FromGemini
import NewApi.Chat.Markdown
import NewApi.Chat.ToResponses
import NewApi.Files.BodyStorage
import NewApi.Files.Heif
import NewApi.Limits.Handlers
import NewApi.Midjourney.Refunds
import NewApi.Override.Wildcards
import NewApi.Payment.Lock
import NewApi.Payment.Notify
import NewApi.Payment.Redeem
import NewApi.Quota.Affiliate
import NewApi.Quota.Batch
import NewApi.Realtime.Charge
import NewApi.Relay.Groups
import NewApi.Settings.Options
import NewApi.Stream.Blocks
import NewApi.Stream.DeltaUsage
import NewApi.Stream.Fragments
import NewApi.Stream.GeminiUsage
import NewApi.Stream.GeminiWhole
import NewApi.Stream.Scanner
import NewApi.Stream.Thinking
import NewApi.Stream.ToGemini
import NewApi.Subscription.Group
import NewApi.Subscription.Refund
import NewApi.Tasks.Failure
import NewApi.Tasks.Ratios
import NewApi.Tasks.Settlement
import NewApi.Tasks.Submit
import NewApi.Tiered.Parity
import NewApi.Upstream.Mapping
