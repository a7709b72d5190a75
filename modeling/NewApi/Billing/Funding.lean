import NewApi.Subscription.Charge

/-!
# Funding sources

`service/funding_source.go`. The operations of package `model` are a parameter, a `BillingStore σ`,
so what is assumed of them is a property of the list.
-/

namespace NewApi.Billing

open Core Go Subscription

structure SubscriptionPlanInfo where
  planId : Int
  planTitle : String
  deriving DecidableEq, Repr

structure TokenQuota where
  remainQuota : Int
  unlimitedQuota : Bool
  deriving DecidableEq, Repr

structure BillingStore (σ : Type) where
  getUserQuota : Int → Prog σ Int
  decreaseUserQuota : Int → Int → Prog σ Unit
  increaseUserQuota : Int → Int → Prog σ Unit
  getTokenByKey : String → Prog σ TokenQuota
  decreaseTokenQuota : Int → String → Int → Prog σ Unit
  increaseTokenQuota : Int → String → Int → Prog σ Unit
  hasActiveUserSubscription : Int → Prog σ Bool
  preConsumeUserSubscription : String → Int → Int → Prog σ SubscriptionPreConsumeResult
  getSubscriptionPlanInfoByUserSubscriptionId : Int → Prog σ SubscriptionPlanInfo
  postConsumeUserSubscriptionDelta : Int → Int → Prog σ Unit
  refundSubscriptionPreConsume : String → Prog σ Unit

inductive BillingSource where
  | wallet
  | subscription
  deriving DecidableEq, Repr

structure WalletFunding where
  userId : Int
  /-- What was really taken from the user. -/
  consumed : Int
  deriving DecidableEq, Repr

structure SubscriptionFunding where
  requestId : String
  userId : Int
  amount : Int
  subscriptionId : Int
  preConsumed : Int
  amountTotal : Int
  amountUsedAfter : Int
  planId : Int
  planTitle : String
  deriving DecidableEq, Repr

inductive Funding where
  | wallet (w : WalletFunding)
  | subscription (f : SubscriptionFunding)
  deriving DecidableEq, Repr

namespace Funding

variable {σ : Type} (B : BillingStore σ)

def source : Funding → BillingSource
  | .wallet _ => .wallet
  | .subscription _ => .subscription

def preConsume (amount : Int) : Funding → Prog σ Funding
  | .wallet w =>
    if amount ≤ 0 then pure (.wallet w)
    else do
      B.decreaseUserQuota w.userId amount
      pure (.wallet { w with consumed := amount })
  | .subscription f => do
    let res ← B.preConsumeUserSubscription f.requestId f.userId f.amount
    let f := { f with
      subscriptionId := res.userSubscriptionId
      preConsumed := res.preConsumed
      amountTotal := res.amountTotal
      amountUsedAfter := res.amountUsedAfter }
    match ← Prog.attempt
      (B.getSubscriptionPlanInfoByUserSubscriptionId res.userSubscriptionId) with
    | .ok info => pure (.subscription { f with planId := info.planId, planTitle := info.planTitle })
    | .error _ => pure (.subscription f)

def settle (delta : Int) : Funding → Prog σ Unit
  | .wallet w =>
    if delta = 0 then pure ()
    else if 0 < delta then B.decreaseUserQuota w.userId delta
    else B.increaseUserQuota w.userId (-delta)
  | .subscription f =>
    if delta = 0 then pure ()
    else B.postConsumeUserSubscriptionDelta f.subscriptionId delta

/-- Only the subscription's refund is retried. -/
def refund : Funding → Prog σ Unit
  | .wallet w => if w.consumed ≤ 0 then pure () else B.increaseUserQuota w.userId w.consumed
  | .subscription f =>
    if f.preConsumed ≤ 0 then pure ()
    else refundWithRetry fun _ => B.refundSubscriptionPreConsume f.requestId

def addConsumed (delta : Int) : Funding → Funding
  | .wallet w => .wallet { w with consumed := w.consumed + delta }
  | .subscription f => .subscription f

end Funding

end NewApi.Billing
