import NewApi.Billing.Settle
import NewApi.Realtime.Quota

/-!
# The realtime handler

`OpenaiRealtimeHandler`: two goroutines share three usage counters, and a run is the list of
messages in the order they are handled.  What `CountTokenRealtime` finds in a message is part of it.
`charged` and `responses` are history variables.
-/

namespace NewApi.Realtime

open Core Go Billing

/-- The fields of `PriceData` that realtime billing reads. -/
structure PriceData where
  freeModel : Bool
  usePrice : Bool
  modelPrice : ℚ
  modelRatio : ℚ
  groupRatio : ℚ
  quotaToPreConsume : Int

/-- The fields of `RelayInfo` that are about prices; `autoGroup` is the group that the
context holds when the group was chosen automatically. -/
structure PriceInfo where
  originModelName : String
  upstreamModelName : String
  usingGroup : String
  userGroup : String
  autoGroup : Option String
  usePrice : Bool
  priceData : PriceData

def preWssQuota (cfg : RatioSettings) (price : PriceInfo) (usage : RealtimeUsage) : Int :=
  let usingGroup := price.autoGroup.getD price.usingGroup
  let actualGroupRatio :=
    (cfg.groupGroupRatio price.userGroup usingGroup).getD (cfg.groupRatio usingGroup)
  calculateAudioQuota cfg {
    inputText := usage.inputText
    inputAudio := usage.inputAudio
    outputText := usage.outputText
    outputAudio := usage.outputAudio
    modelName := price.originModelName
    usePrice := price.usePrice
    modelPrice := 0
    modelRatio := cfg.modelRatio price.originModelName
    groupRatio := actualGroupRatio }

def postWssQuota (cfg : RatioSettings) (price : PriceInfo) (usage : RealtimeUsage) : Int :=
  calculateAudioQuota cfg {
    inputText := usage.inputText
    inputAudio := usage.inputAudio
    outputText := usage.outputText
    outputAudio := usage.outputAudio
    modelName := price.upstreamModelName
    usePrice := price.priceData.usePrice
    modelPrice := price.priceData.modelPrice
    modelRatio := price.priceData.modelRatio
    groupRatio := price.priceData.groupRatio }

def settledQuota (cfg : RatioSettings) (price : PriceInfo) (usage : RealtimeUsage) : Int :=
  if usage.totalTokens = 0 then 0 else postWssQuota cfg price usage

structure Setup (σ : Type) where
  store : BillingStore σ
  billing : BillingConfig
  ratios : RatioSettings
  price : PriceInfo

inductive RealtimeEvent where
  /-- A message of the client, with its tokens. -/
  | client (text audio : Int)
  /-- `response.done`, with the upstream's usage or, without one, with its tokens. -/
  | responseDone (usage : Option RealtimeUsage) (text audio : Int)
  /-- `session.updated` or `session.created`. -/
  | sessionUpdated
  /-- Any other message of the upstream. -/
  | upstream (text audio : Int)
  deriving DecidableEq, Repr

structure RealtimeState (σ : Type) where
  store : σ
  usage : RealtimeUsage
  localUsage : RealtimeUsage
  sumUsage : RealtimeUsage
  stopped : Bool
  responses : Nat
  charged : List Int

section Functions

variable {σ : Type} (S : Setup σ) (info : RelayInfo)

def preWssConsumeQuota (usage : RealtimeUsage) : Prog σ Unit :=
  if S.price.usePrice then pure ()
  else do
    let userQuota ← S.store.getUserQuota info.userId
    let token ← S.store.getTokenByKey (trimPrefix info.tokenKey "sk-")
    let quota := preWssQuota S.ratios S.price usage
    if userQuota < quota then
      Prog.fail ("user quota is not enough, user quota: " ++ S.billing.formatQuota userQuota ++
        ", need quota: " ++ S.billing.formatQuota quota)
    else if ¬token.unlimitedQuota ∧ token.remainQuota < quota then
      Prog.fail ("token quota is not enough, token remain quota: " ++
        S.billing.formatQuota token.remainQuota ++ ", need quota: " ++ S.billing.formatQuota quota)
    else postConsumeQuota S.store info quota

def preConsumeUsage (usage : RealtimeUsage) (st : RealtimeState σ) : RealtimeState σ × Bool :=
  let st := { st with sumUsage := st.sumUsage.add usage }
  match preWssConsumeQuota S info usage st.store with
  | (.ok (), store) =>
    let quota := if S.price.usePrice then 0 else preWssQuota S.ratios S.price usage
    ({ st with store, charged := st.charged ++ [quota] }, true)
  | (.error _, store) => ({ st with store }, false)

def handle (st : RealtimeState σ) (event : RealtimeEvent) : RealtimeState σ :=
  if st.stopped then st
  else
    match event with
    | .client text audio => { st with localUsage := st.localUsage.addInput text audio }
    | .responseDone (some usage) _ _ =>
      let st := { st with usage := st.usage.add usage, responses := st.responses + 1 }
      match preConsumeUsage S info st.usage st with
      | (st, true) => { st with usage := .empty, localUsage := .empty }
      | (st, false) => { st with stopped := true }
    | .responseDone none text audio =>
      let st := { st with
        localUsage := st.localUsage.addInput text audio
        responses := st.responses + 1 }
      match preConsumeUsage S info st.localUsage st with
      | (st, true) => { st with localUsage := .empty }
      | (st, false) => { st with stopped := true }
    | .sessionUpdated => st
    | .upstream text audio => { st with localUsage := st.localUsage.addOutput text audio }

/-- What is left when the readers have ended; a refused charge is ignored. -/
def flush (st : RealtimeState σ) : RealtimeState σ :=
  let st := if st.usage.totalTokens ≠ 0 then (preConsumeUsage S info st.usage st).1 else st
  if st.localUsage.totalTokens ≠ 0 then (preConsumeUsage S info st.localUsage st).1 else st

def RealtimeState.start (s : σ) : RealtimeState σ where
  store := s
  usage := .empty
  localUsage := .empty
  sumUsage := .empty
  stopped := false
  responses := 0
  charged := []

def openaiRealtimeHandler (events : List RealtimeEvent) (s : σ) : RealtimeState σ :=
  flush S info (events.foldl (handle S info) (.start s))

/-- `PostWssConsumeQuota`; an error of the settlement is only logged. -/
def postWssConsumeQuota (billing : Option BillingSession) (st : RealtimeState σ) :
    RealtimeState σ :=
  let quota := settledQuota S.ratios S.price st.sumUsage
  { st with store := (settleBilling S.store billing info quota st.store).2 }

def wssHelper (billing : Option BillingSession) (events : List RealtimeEvent) (s : σ) :
    RealtimeState σ :=
  postWssConsumeQuota S info billing (openaiRealtimeHandler S info events s)

end Functions

end NewApi.Realtime
