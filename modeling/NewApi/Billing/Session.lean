import NewApi.Billing.Funding

/-!
# Billing sessions

`service/billing_session.go`. A method returns the session with its error, since a call that fails
changes it too.  The refund, a goroutine in the source, is done when the call returns.
-/

namespace NewApi.Billing

open Core Go Subscription

inductive ErrorCode where
  | preConsumeTokenQuotaFailed
  | insufficientUserQuota
  | updateDataError
  | queryDataError
  deriving DecidableEq, Repr

structure APIError where
  code : ErrorCode
  message : String
  deriving DecidableEq, Repr

structure BillingConfig where
  trustQuota : Int
  formatQuota : Int → String

/-- The fields of `RelayInfo` that billing reads and writes; `tokenQuota` is the
context's `token_quota`. -/
structure RelayInfo where
  userId : Int
  tokenId : Int
  tokenKey : String
  tokenUnlimited : Bool
  tokenQuota : Int
  isPlayground : Bool
  forcePreConsume : Bool
  requestId : String
  billingPreference : String
  userQuota : Int
  finalPreConsumedQuota : Int
  billingSource : Option BillingSource
  subscriptionId : Int
  subscriptionPreConsumed : Int
  subscriptionPostDelta : Int
  subscriptionAmountTotal : Int
  subscriptionAmountUsedAfterPreConsume : Int
  subscriptionPlanId : Int
  subscriptionPlanTitle : String
  deriving DecidableEq, Repr

structure BillingSession where
  relayInfo : RelayInfo
  funding : Funding
  preConsumedQuota : Int
  tokenConsumed : Int
  extraReserved : Int
  trusted : Bool
  fundingSettled : Bool
  settled : Bool
  refunded : Bool
  deriving DecidableEq, Repr

def BillingSession.fresh (info : RelayInfo) (funding : Funding) : BillingSession where
  relayInfo := info
  funding := funding
  preConsumedQuota := 0
  tokenConsumed := 0
  extraReserved := 0
  trusted := false
  fundingSettled := false
  settled := false
  refunded := false

def preConsumeTokenQuota {σ : Type} (B : BillingStore σ) (cfg : BillingConfig) (info : RelayInfo)
    (quota : Int) : Prog σ Unit :=
  if quota < 0 then Prog.fail "quota 不能为负数！"
  else if info.isPlayground then pure ()
  else do
    let token ← B.getTokenByKey info.tokenKey
    if ¬info.tokenUnlimited ∧ token.remainQuota < quota then
      Prog.fail ("token quota is not enough, token remain quota: " ++
        cfg.formatQuota token.remainQuota ++ ", need quota: " ++ cfg.formatQuota quota)
    else B.decreaseTokenQuota info.tokenId info.tokenKey quota

namespace BillingSession

variable {σ : Type} (B : BillingStore σ) (cfg : BillingConfig)

def syncRelayInfo (s : BillingSession) : BillingSession :=
  match s.funding with
  | .subscription sub =>
    { s with relayInfo := { s.relayInfo with
        finalPreConsumedQuota := s.preConsumedQuota
        billingSource := some .subscription
        subscriptionId := sub.subscriptionId
        subscriptionPreConsumed := sub.preConsumed + s.extraReserved
        subscriptionPostDelta := 0
        subscriptionAmountTotal := sub.amountTotal
        subscriptionAmountUsedAfterPreConsume := sub.amountUsedAfter + s.extraReserved
        subscriptionPlanId := sub.planId
        subscriptionPlanTitle := sub.planTitle } }
  | .wallet _ =>
    { s with relayInfo := { s.relayInfo with
        finalPreConsumedQuota := s.preConsumedQuota
        billingSource := some .wallet
        subscriptionId := 0
        subscriptionPreConsumed := 0 } }

theorem syncRelayInfo_eq (s : BillingSession) :
    ∃ info : RelayInfo, s.syncRelayInfo = { s with relayInfo := info } ∧
      info.isPlayground = s.relayInfo.isPlayground ∧ info.tokenId = s.relayInfo.tokenId ∧
      ∀ f, s.funding = .subscription f → info.subscriptionId = f.subscriptionId := by
  unfold syncRelayInfo
  cases h : s.funding with
  | wallet w => exact ⟨_, rfl, rfl, rfl, by simp⟩
  | subscription f =>
    refine ⟨_, rfl, rfl, rfl, ?_⟩
    intro f' hf'
    cases hf'
    rfl

def shouldTrust (s : BillingSession) : Bool :=
  !s.relayInfo.forcePreConsume && decide (0 < cfg.trustQuota) &&
    (s.relayInfo.tokenUnlimited || decide (cfg.trustQuota < s.relayInfo.tokenQuota)) &&
    match s.funding.source with
    | .wallet => decide (cfg.trustQuota < s.relayInfo.userQuota)
    | .subscription => false

def fundingError (text : String) : APIError :=
  if contains text "no active subscription" ∨ contains text "subscription quota insufficient" then
    ⟨.insufficientUserQuota, "订阅额度不足或未配置订阅: " ++ text⟩
  else ⟨.updateDataError, text⟩

/-- The second half of `preConsume`: the funding source, and the token back when
that fails. -/
def preConsumeFunding (s : BillingSession) (effectiveQuota : Int) :
    Prog σ (Except APIError BillingSession) := do
  match ← Prog.attempt (s.funding.preConsume B effectiveQuota) with
  | .ok funding =>
    pure (.ok { s with funding, preConsumedQuota := effectiveQuota }.syncRelayInfo)
  | .error text =>
    if 0 < s.tokenConsumed ∧ ¬s.relayInfo.isPlayground then do
      let _ ← Prog.attempt
        (B.increaseTokenQuota s.relayInfo.tokenId s.relayInfo.tokenKey s.tokenConsumed)
      pure (.error (fundingError text))
    else pure (.error (fundingError text))

def preConsume (s : BillingSession) (quota : Int) : Prog σ (Except APIError BillingSession) :=
  let trusted := s.shouldTrust cfg
  let effectiveQuota := if trusted then 0 else quota
  let s := { s with trusted }
  if 0 < effectiveQuota then do
    match ← Prog.attempt (preConsumeTokenQuota B cfg s.relayInfo effectiveQuota) with
    | .error text => pure (.error ⟨.preConsumeTokenQuotaFailed, text⟩)
    | .ok () => preConsumeFunding B { s with tokenConsumed := effectiveQuota } effectiveQuota
  else s.preConsumeFunding B effectiveQuota

def markSettled (s : BillingSession) (delta : Int) : BillingSession :=
  let postDelta :=
    match s.funding.source with
    | .subscription => s.relayInfo.subscriptionPostDelta + delta
    | .wallet => s.relayInfo.subscriptionPostDelta
  { s with
    relayInfo := { s.relayInfo with subscriptionPostDelta := postDelta }
    fundingSettled := true
    settled := true }

/-- `Settle` after the funding source. A token that cannot be adjusted is only reported. -/
def settleToken (s : BillingSession) (delta : Int) : Prog σ (Option String × BillingSession) :=
  let info := s.relayInfo
  if info.isPlayground then pure (none, s.markSettled delta)
  else do
    match ← Prog.attempt
      (if 0 < delta then B.decreaseTokenQuota info.tokenId info.tokenKey delta
        else B.increaseTokenQuota info.tokenId info.tokenKey (-delta)) with
    | .ok () => pure (none, s.markSettled delta)
    | .error text => pure (some text, s.markSettled delta)

def settle (s : BillingSession) (actualQuota : Int) : Prog σ (Option String × BillingSession) :=
  let delta := actualQuota - s.preConsumedQuota
  if s.settled then pure (none, s)
  else if delta = 0 then pure (none, { s with settled := true })
  else if s.fundingSettled then s.settleToken B delta
  else do
    match ← Prog.attempt (s.funding.settle B delta) with
    | .error text => pure (some text, s)
    | .ok () => s.settleToken B delta

def needsRefund (s : BillingSession) : Bool :=
  if s.settled || s.refunded || s.fundingSettled then false
  else if 0 < s.tokenConsumed then true
  else
    match s.funding with
    | .subscription sub => decide (0 < sub.preConsumed)
    | .wallet _ => false

/-- The goroutine of `Refund`; every error is only logged. -/
def giveBack (s : BillingSession) : Prog σ Unit := do
  let info := s.relayInfo
  let _ ← Prog.attempt (s.funding.refund B)
  if 0 < s.extraReserved ∧ s.funding.source = .subscription ∧ 0 < info.subscriptionId then do
    let _ ← Prog.attempt (B.postConsumeUserSubscriptionDelta info.subscriptionId (-s.extraReserved))
    returnToken info
  else returnToken info
where
  returnToken (info : RelayInfo) : Prog σ Unit :=
    if 0 < s.tokenConsumed ∧ ¬info.isPlayground then do
      let _ ← Prog.attempt (B.increaseTokenQuota info.tokenId info.tokenKey s.tokenConsumed)
      pure ()
    else pure ()

def refund (s : BillingSession) : Prog σ BillingSession :=
  if s.settled ∨ s.refunded ∨ ¬s.needsRefund then pure s
  else do
    s.giveBack B
    pure { s with refunded := true }

def reserveFunding (delta : Int) : Funding → Prog σ (Except APIError Funding)
  | .wallet w => do
    match ← Prog.attempt (B.decreaseUserQuota w.userId delta) with
    | .ok () => pure (.ok (Funding.addConsumed delta (.wallet w)))
    | .error text => pure (.error ⟨.updateDataError, text⟩)
  | .subscription f => do
    match ← Prog.attempt (B.postConsumeUserSubscriptionDelta f.subscriptionId delta) with
    | .ok () => pure (.ok (.subscription f))
    | .error text => pure (.error ⟨.insufficientUserQuota, "订阅额度不足或未配置订阅: " ++ text⟩)

def rollbackFundingReserve (delta : Int) : Funding → Prog σ Funding
  | .wallet w => do
    match ← Prog.attempt (B.increaseUserQuota w.userId delta) with
    | .ok () => pure (Funding.addConsumed (-delta) (.wallet w))
    | .error _ => pure (.wallet w)
  | .subscription f => do
    let _ ← Prog.attempt (B.postConsumeUserSubscriptionDelta f.subscriptionId (-delta))
    pure (.subscription f)

def reserveToken (s : BillingSession) (delta : Int) : Prog σ (Except APIError Unit) :=
  if delta ≤ 0 ∨ s.relayInfo.isPlayground then pure (.ok ())
  else do
    match ← Prog.attempt (preConsumeTokenQuota B cfg s.relayInfo delta) with
    | .ok () => pure (.ok ())
    | .error text => pure (.error ⟨.preConsumeTokenQuotaFailed, text⟩)

def reserve (s : BillingSession) (targetQuota : Int) :
    Prog σ (Option APIError × BillingSession) :=
  if s.settled ∨ s.refunded ∨ s.trusted ∨ targetQuota ≤ s.preConsumedQuota then pure (none, s)
  else do
    let delta := targetQuota - s.preConsumedQuota
    match ← reserveFunding B delta s.funding with
    | .error e => pure (some e, s)
    | .ok funding =>
      match ← s.reserveToken B cfg delta with
      | .error e =>
        let funding ← rollbackFundingReserve B delta funding
        pure (some e, { s with funding })
      | .ok () =>
        pure (none, { s with
          funding
          preConsumedQuota := s.preConsumedQuota + delta
          tokenConsumed := s.tokenConsumed + delta
          extraReserved := s.extraReserved + delta }.syncRelayInfo)

end BillingSession

/-! ## `NewBillingSession` -/

inductive BillingPreference where
  | subscriptionFirst
  | walletFirst
  | subscriptionOnly
  | walletOnly
  deriving DecidableEq, Repr

def normalizeBillingPreference (pref : String) : BillingPreference :=
  let p := trimSpace pref
  if p = "wallet_first" then .walletFirst
  else if p = "subscription_only" then .subscriptionOnly
  else if p = "wallet_only" then .walletOnly
  else .subscriptionFirst

section Factory

variable {σ : Type} (B : BillingStore σ) (cfg : BillingConfig)

def tryWallet (info : RelayInfo) (quota : Int) :
    Prog σ (Except (APIError × RelayInfo) BillingSession) := do
  match ← Prog.attempt (B.getUserQuota info.userId) with
  | .error text => pure (.error (⟨.queryDataError, text⟩, info))
  | .ok userQuota =>
    if userQuota ≤ 0 then
      pure (.error (⟨.insufficientUserQuota, "用户额度不足, 剩余额度: " ++ cfg.formatQuota userQuota⟩, info))
    else if userQuota - quota < 0 then
      pure (.error (⟨.insufficientUserQuota, "预扣费额度失败, 用户剩余额度: " ++
        cfg.formatQuota userQuota ++ ", 需要预扣费额度: " ++ cfg.formatQuota quota⟩, info))
    else
      let info := { info with userQuota }
      let session := BillingSession.fresh info (.wallet { userId := info.userId, consumed := 0 })
      match ← session.preConsume B cfg quota with
      | .ok session => pure (.ok session)
      | .error e => pure (.error (e, info))

def SubscriptionFunding.ofRequest (info : RelayInfo) (amount : Int) : SubscriptionFunding where
  requestId := info.requestId
  userId := info.userId
  amount := amount
  subscriptionId := 0
  preConsumed := 0
  amountTotal := 0
  amountUsedAfter := 0
  planId := 0
  planTitle := ""

def trySubscription (info : RelayInfo) (quota : Int) : Prog σ (Except APIError BillingSession) :=
  let subConsume := if quota ≤ 0 then 1 else quota
  (BillingSession.fresh info (.subscription (.ofRequest info subConsume))).preConsume B cfg
    subConsume

def newBillingSession (info : RelayInfo) (quota : Int) :
    Prog σ (Except APIError BillingSession) := do
  match normalizeBillingPreference info.billingPreference with
  | .subscriptionOnly => trySubscription B cfg info quota
  | .walletOnly => onlyWallet
  | .walletFirst =>
    match ← tryWallet B cfg info quota with
    | .ok session => pure (.ok session)
    | .error (e, info) =>
      if e.code = .insufficientUserQuota then trySubscription B cfg info quota
      else pure (.error e)
  | .subscriptionFirst =>
    match ← Prog.attempt (B.hasActiveUserSubscription info.userId) with
    | .error text => pure (.error ⟨.queryDataError, text⟩)
    | .ok false => onlyWallet
    | .ok true =>
      match ← trySubscription B cfg info quota with
      | .ok session => pure (.ok session)
      | .error e =>
        if e.code = .insufficientUserQuota then onlyWallet
        else pure (.error e)
where
  onlyWallet : Prog σ (Except APIError BillingSession) := do
    match ← tryWallet B cfg info quota with
    | .ok session => pure (.ok session)
    | .error (e, _) => pure (.error e)

end Factory

/-! ## A request -/

def walletRequest : RelayInfo where
  userId := 1
  tokenId := 1
  tokenKey := "sk-1"
  tokenUnlimited := false
  tokenQuota := 100
  isPlayground := false
  forcePreConsume := false
  requestId := "req-1"
  billingPreference := "wallet_only"
  userQuota := 0
  finalPreConsumedQuota := 0
  billingSource := none
  subscriptionId := 0
  subscriptionPreConsumed := 0
  subscriptionPostDelta := 0
  subscriptionAmountTotal := 0
  subscriptionAmountUsedAfterPreConsume := 0
  subscriptionPlanId := 0
  subscriptionPlanTitle := ""

def noTrust : BillingConfig where
  trustQuota := 0
  formatQuota _ := ""

end NewApi.Billing
