import NewApi.Channels.Basic
import NewApi.Go.Sort

/-!
# What a request carries from one channel to the next

One `RelayInfo` serves all the channels that are tried.  Maps are lists of entries in the order of
ranging.  Parsing of URLs and JSON, letter case, and the operations of a parameter override are
parameters: an `Env`.
-/

namespace NewApi.Upstream

open Go Channels

/-! ## Maps -/

abbrev StringMap := List (String × String)

def StringMap.put (m : StringMap) (key value : String) : StringMap :=
  if m.any fun e => e.1 = key then m.map fun e => if e.1 = key then (key, value) else e
  else m ++ [(key, value)]

/-- A `map[string]interface{}`: every value as its text. -/
abbrev Override := StringMap

/-! ## Routes -/

structure RestRouteMatch where
  requestPath : String := ""
  requestPathPrefix : String := ""
  method : String := ""
  relayMode : String := ""
  modelPrefix : String := ""
  requestBodyFieldExists : String := ""
  requestBodyFieldMissing : String := ""
  deriving DecidableEq

structure RestRouteTarget where
  method : String := ""
  path : String := ""
  query : StringMap := []
  deriving DecidableEq

structure RestRouteRule where
  name : String := ""
  enabled : Bool := false
  priority : Int := 0
  matching : RestRouteMatch := {}
  target : RestRouteTarget := {}
  deriving DecidableEq

/-! ## The request and its state -/

structure Client where
  relayMode : Nat
  originModelName : String
  requestMethod : String
  requestURLPath : String
  requestHeaders : StringMap
  requestBodyJson : String
  /-- The query parameter `api-version`. -/
  queryApiVersion : String

structure ChannelMeta where
  channelType : Int
  channelId : Int
  channelIsMultiKey : Bool
  channelMultiKeyIndex : Nat
  channelBaseUrl : String
  apiType : Int
  apiVersion : String
  apiKey : String
  organization : String
  channelCreateTime : Int
  paramOverride : Override
  headersOverride : Override
  responseOverride : Override
  channelSetting : String
  /-- `RestRoutes` of `ChannelOtherSettings`. -/
  restRoutes : List RestRouteRule
  upstreamModelName : String
  isModelMapped : Bool
  supportStreamOptions : Bool
  deriving DecidableEq

structure RelayInfo where
  channelMeta : Option ChannelMeta := none
  originModelName : String
  resolvedRequestMethod : String := ""
  resolvedRequestPath : String := ""
  resolvedRequestQuery : StringMap := []
  matchedRestRouteName : String := ""
  retryIndex : Nat := 0
  lastError : Option NewAPIError := none
  runtimeHeadersOverride : Override := []
  useRuntimeHeadersOverride : Bool := false

structure OverrideContext where
  model : String
  upstreamModel : String
  originalModel : String
  requestPath : String
  requestMethod : String
  matchedRestRoute : String
  requestHeaders : StringMap
  headerOverride : Override
  retryIndex : Nat
  lastError : Option NewAPIError

structure Env where
  parseRequestPathAndQuery : String → String × StringMap
  toUpper : String → String
  toLower : String → String
  relayModeMatches : String → Nat → Bool
  /-- `gjson.Get(json, path).Exists()`. -/
  fieldExists : String → String → Bool
  channelType2APIType : Int → Int
  streamSupportedChannels : Int → Bool
  channelBaseURLs : Int → String
  unmarshalMapping : String → Option StringMap
  /-- `ApplyChannelAffinityOverrideTemplate`, for this client. -/
  affinityOverrideTemplate : Override → Override
  /-- The converted body, if the handler applies a parameter override to it. -/
  convertRequest : ChannelMeta → Except NewAPIError (Option String)
  /-- `ApplyParamOverride`: the body, and the map that it leaves as `header_override`. -/
  applyParamOverride :
    String → Override → OverrideContext → Except NewAPIError (String × Option Override)
  /-- Whether the adaptor of an API type is that of OpenAI. -/
  usesOpenAIAdaptor : Int → Bool

/-! ## What was resolved -/

section

variable (env : Env) (client : Client)

def getResolvedRequestMethod (info : RelayInfo) (fallback : String) : String :=
  let method := trimSpace info.resolvedRequestMethod
  let method := if method = "" then trimSpace fallback else method
  env.toUpper (if method = "" then "POST" else method)

def getResolvedRequestPath (info : RelayInfo) (fallback : String) : String :=
  if trimSpace info.resolvedRequestPath ≠ "" then info.resolvedRequestPath
  else (env.parseRequestPathAndQuery fallback).1

def getResolvedRequestQuery (info : RelayInfo) : StringMap :=
  if info.resolvedRequestQuery.length > 0 then info.resolvedRequestQuery
  else (env.parseRequestPathAndQuery client.requestURLPath).2

def RelayInfo.upstreamModelName (info : RelayInfo) : String :=
  info.channelMeta.elim "" ChannelMeta.upstreamModelName

def buildRouteTemplateContext (info : RelayInfo) : StringMap :=
  let originalModel := trimSpace info.originModelName
  let model := trimSpace info.upstreamModelName
  [("model", if model = "" then originalModel else model), ("original_model", originalModel),
    ("request_path", trimSpace (getResolvedRequestPath env info client.requestURLPath)),
    ("request_method", trimSpace (getResolvedRequestMethod env info client.requestMethod))]

def applyRouteTemplate (raw : String) (info : RelayInfo) : String :=
  (buildRouteTemplateContext env client info).foldl
    (fun templated e => replaceAll templated ("\x7b" ++ e.1 ++ "\x7d") e.2) raw

/-! ## Matching a route -/

def checkBodyFieldCondition (fieldPath : String) (shouldExist : Bool) : Bool :=
  if fieldPath = "" ∨ client.requestBodyJson = "" then true
  else env.fieldExists client.requestBodyJson fieldPath == shouldExist

def requestMethodOf : String :=
  let method := env.toUpper (trimSpace client.requestMethod)
  if method = "" then "POST" else method

def modelNameOf (info : RelayInfo) : String :=
  let modelName := trimSpace info.upstreamModelName
  if modelName = "" then trimSpace info.originModelName else modelName

/-- The body of the loop does not `continue`. -/
def RestRouteRule.applies (route : RestRouteRule) (modelName : String) : Bool :=
  let requestPath := (env.parseRequestPathAndQuery client.requestURLPath).1
  route.enabled &&
    (route.matching.requestPath = "" || trimSpace route.matching.requestPath = requestPath) &&
    (route.matching.requestPathPrefix = "" ||
      hasPrefix requestPath (trimSpace route.matching.requestPathPrefix)) &&
    (route.matching.method = "" ||
      env.toUpper (trimSpace route.matching.method) = requestMethodOf env client) &&
    (route.matching.relayMode = "" ||
      env.relayModeMatches route.matching.relayMode client.relayMode) &&
    (route.matching.modelPrefix = "" ||
      hasPrefix modelName (trimSpace route.matching.modelPrefix)) &&
    checkBodyFieldCondition env client route.matching.requestBodyFieldExists true &&
    checkBodyFieldCondition env client route.matching.requestBodyFieldMissing false

def matchedRoute (info : RelayInfo) : Option RestRouteRule :=
  (stable (fun route : RestRouteRule => (route.priority : WithBot Int))
    (info.channelMeta.elim [] ChannelMeta.restRoutes)).find?
      fun route => route.applies env client (modelNameOf info)

def RestRouteRule.targetPath (route : RestRouteRule) (info : RelayInfo) : String × StringMap :=
  let (requestPath, requestQuery) := env.parseRequestPathAndQuery client.requestURLPath
  let targetPathRaw := trimSpace route.target.path
  let targetPathRaw := if targetPathRaw = "" then requestPath else targetPathRaw
  let (targetPath, targetQuery) :=
    env.parseRequestPathAndQuery (applyRouteTemplate env client targetPathRaw info)
  let mergedQuery := targetQuery.foldl (fun query e => query.put e.1 e.2) requestQuery
  let mergedQuery := route.target.query.foldl
    (fun query e => query.put (trimSpace e.1) (applyRouteTemplate env client e.2 info)) mergedQuery
  (targetPath, mergedQuery)

def RestRouteRule.targetMethod (route : RestRouteRule) (info : RelayInfo) : String :=
  let requestMethod := requestMethodOf env client
  if trimSpace route.target.method ≠ "" then
    env.toUpper (trimSpace (applyRouteTemplate env client route.target.method
      { info with resolvedRequestMethod := requestMethod }))
  else requestMethod

def resolveChannelRestRoute (info : RelayInfo) : RelayInfo :=
  match matchedRoute env client info with
  | none => info
  | some route =>
    { info with
      resolvedRequestMethod := route.targetMethod env client info
      resolvedRequestPath := (route.targetPath env client info).1
      resolvedRequestQuery := (route.targetPath env client info).2
      matchedRestRouteName := trimSpace route.name }

end

end NewApi.Upstream
