import NewApi.Core.Run
import NewApi.Upstream.Info

/-!
# An attempt on a channel

`SetupContextForSelectedChannel` writes the channel into the request's context, and an attempt reads
it from there and ends in a `RequestData`. A `Try` is one iteration that selected a channel, and
`after` what the tries so far have left.
-/

namespace NewApi.Upstream

open Go Channels List

/-! ## The context -/

def channelTypeAzure : Int := 3
def channelTypeAli : Int := 17
def channelTypeXunfei : Int := 18
def channelTypeGemini : Int := 24
def channelCloudflare : Int := 39
def channelTypeVertexAi : Int := 41
def channelTypeMokaAI : Int := 44
def channelTypeCoze : Int := 49

inductive OtherKey where
  | apiVersion
  | region
  | plugin
  | botId
  deriving DecidableEq

def otherKey (channelType : Int) : Option OtherKey :=
  if channelType = channelTypeAzure then some .apiVersion
  else if channelType = channelTypeVertexAi then some .region
  else if channelType = channelTypeXunfei then some .apiVersion
  else if channelType = channelTypeGemini then some .apiVersion
  else if channelType = channelTypeAli then some .plugin
  else if channelType = channelCloudflare then some .apiVersion
  else if channelType = channelTypeMokaAI then some .apiVersion
  else if channelType = channelTypeCoze then some .botId
  else none

/-- A channel with the columns that the upstream request is built from, JSON columns parsed. -/
structure ChannelConfig extends Channel where
  type : Int := 1
  createdTime : Int := 0
  setting : String := ""
  restRoutes : List RestRouteRule := []
  paramOverride : Override := []
  headerOverride : Override := []
  responseOverride : Override := []
  openAIOrganization : Option String := none
  modelMapping : String := ""
  baseURL : Option String := none
  other : String := ""

def ChannelConfig.getBaseURL (env : Env) (channel : ChannelConfig) : String :=
  match channel.baseURL with
  | none => ""
  | some url => if url = "" then env.channelBaseURLs channel.type else url

/-- The keys of the request's context; one that is not set reads as here. -/
structure Context where
  originalModel : String := ""
  channelId : Int := 0
  channelType : Int := 0
  channelCreateTime : Int := 0
  channelSetting : String := ""
  restRoutes : List RestRouteRule := []
  paramOverride : Override := []
  headerOverride : Override := []
  responseOverride : Override := []
  organization : String := ""
  modelMapping : String := ""
  isMultiKey : Bool := false
  multiKeyIndex : Nat := 0
  key : String := ""
  baseUrl : String := ""
  other : OtherKey → String := fun _ => ""

/-- `key` is what `GetNextEnabledKey` returns. -/
def setupContextForSelectedChannel (env : Env) (channel : ChannelConfig) (modelName : String)
    (key : Except NewAPIError KeyChoice) (c : Context) : Context :=
  let c :=
    { c with
      originalModel := modelName
      channelId := channel.id
      channelType := channel.type
      channelCreateTime := channel.createdTime
      channelSetting := channel.setting
      restRoutes := channel.restRoutes
      paramOverride := env.affinityOverrideTemplate channel.paramOverride
      headerOverride := channel.headerOverride
      responseOverride := channel.responseOverride
      organization :=
        if channel.openAIOrganization.getD "" ≠ "" then channel.openAIOrganization.getD ""
        else c.organization
      modelMapping := channel.modelMapping }
  match key with
  | .error _ => c
  | .ok choice =>
    { c with
      isMultiKey := channel.channelInfo.isMultiKey
      multiKeyIndex := if channel.channelInfo.isMultiKey then choice.index else c.multiKeyIndex
      key := choice.key
      baseUrl := channel.getBaseURL env
      other := fun k => if otherKey channel.type = some k then channel.other else c.other k }

/-! ## The channel's data -/

def getAPIVersion (client : Client) (c : Context) : String :=
  if client.queryApiVersion = "" then c.other .apiVersion else client.queryApiVersion

def channelMetaOf (env : Env) (client : Client) (c : Context) : ChannelMeta where
  channelType := c.channelType
  channelId := c.channelId
  channelIsMultiKey := c.isMultiKey
  channelMultiKeyIndex := c.multiKeyIndex
  channelBaseUrl := c.baseUrl
  apiType := env.channelType2APIType c.channelType
  apiVersion :=
    if c.channelType = channelTypeVertexAi then c.other .region
    else if c.channelType = channelTypeAzure then getAPIVersion client c
    else c.other .apiVersion
  apiKey := c.key
  organization := c.organization
  channelCreateTime := c.channelCreateTime
  paramOverride := c.paramOverride
  headersOverride := c.headerOverride
  responseOverride := c.responseOverride
  channelSetting := c.channelSetting
  restRoutes := c.restRoutes
  upstreamModelName := c.originalModel
  isModelMapped := false
  supportStreamOptions := env.streamSupportedChannels c.channelType

def initChannelMeta (env : Env) (client : Client) (c : Context) (info : RelayInfo) : RelayInfo :=
  { info with channelMeta := some (channelMetaOf env client c) }

/-! ## The model -/

inductive Redirection where
  | leads (model : String) (mapped : Bool)
  | itself
  | cycle
  | unbounded
  deriving DecidableEq

/-- The loop of `ModelMappedHelper`, which has visited these models. -/
def redirect (modelMap : StringMap) (originModelName : String) :
    Nat → List String → String → Bool → Redirection
  | 0, _, _, _ => .unbounded
  | fuel + 1, visited, currentModel, mapped =>
    match modelMap.lookup currentModel with
    | none => .leads currentModel mapped
    | some mappedModel =>
      if mappedModel = "" then .leads currentModel mapped
      else if mappedModel ∈ visited then
        if mappedModel = currentModel then
          if currentModel = originModelName then .itself else .leads currentModel true
        else .cycle
      else redirect modelMap originModelName fuel (mappedModel :: visited) mappedModel true

/-- **The chain has an end**: every model on it but the last is a key of the map. -/
theorem redirect_ne_unbounded {modelMap : StringMap} {originModelName : String} {fuel : Nat}
    {earlier : List String} {currentModel : String} {mapped : Bool}
    (hNodup : (currentModel :: earlier).Nodup)
    (hKeys : ∀ model ∈ earlier, model ∈ modelMap.map Prod.fst)
    (hFuel : modelMap.length < fuel + earlier.length) :
    redirect modelMap originModelName fuel (currentModel :: earlier) currentModel mapped ≠
      .unbounded := by
  induction fuel generalizing earlier currentModel mapped with
  | zero =>
    have hFew := (subperm_of_subset hNodup.of_cons hKeys).length_le
    rw [length_map] at hFew
    omega
  | succ fuel ih =>
    rw [redirect]
    split
    · nofun
    rename_i mappedModel hLookup
    split
    · nofun
    split
    · split
      · split <;> nofun
      · nofun
    rename_i hNew
    refine ih (nodup_cons.mpr ⟨hNew, hNodup⟩) ?_ (by rw [length_cons]; omega)
    intro model hModel
    rcases mem_cons.mp hModel with rfl | hEarlier
    · obtain ⟨l₁, l₂, hSplit, -⟩ := lookup_eq_some_iff.mp hLookup
      rw [hSplit, map_append]
      exact mem_append_right _ mem_cons_self
    · exact hKeys model hEarlier

def compactModelSuffix : String := "-openai-compact"

def withCompactModelSuffix (modelName : String) : String :=
  if hasSuffix modelName compactModelSuffix then modelName else modelName ++ compactModelSuffix

def relayModeResponsesCompact : Nat := 36

/-- The data of the channel, and `OriginModelName`, after the model was mapped. -/
def mapModel (env : Env) (client : Client) (modelMapping originModelName : String)
    (channelMeta : ChannelMeta) : Except NewAPIError (ChannelMeta × String) :=
  let isResponsesCompact := client.relayMode = relayModeResponsesCompact
  let mappingModelName :=
    if isResponsesCompact ∧ hasSuffix originModelName compactModelSuffix then
      trimSuffix originModelName compactModelSuffix
    else originModelName
  let failed (text : String) : NewAPIError :=
    { err := text, errorCode := "channel:model_mapped_error", skipRetry := true }
  let finish (upstreamModelName : String) (mapped : Bool) : ChannelMeta × String :=
    if isResponsesCompact then
      let final := if mapped ∧ upstreamModelName ≠ "" then upstreamModelName else mappingModelName
      ({ channelMeta with upstreamModelName := final, isModelMapped := mapped },
        withCompactModelSuffix final)
    else
      ({ channelMeta with upstreamModelName := upstreamModelName, isModelMapped := mapped },
        originModelName)
  if modelMapping ≠ "" ∧ modelMapping ≠ "\x7b\x7d" then
    match env.unmarshalMapping modelMapping with
    | none => .error (failed "unmarshal_model_mapping_failed")
    | some modelMap =>
      match redirect modelMap originModelName (modelMap.length + 1) [mappingModelName]
          mappingModelName false with
      | .leads model true => .ok (finish model true)
      | .leads _ false => .ok (finish channelMeta.upstreamModelName false)
      | .itself => .ok (channelMeta, originModelName)
      | .cycle | .unbounded => .error (failed "model_mapping_contains_cycle")
  else .ok (finish channelMeta.upstreamModelName false)

def modelMappedHelper (env : Env) (client : Client) (c : Context) (info : RelayInfo) :
    Except NewAPIError RelayInfo :=
  match info.channelMeta with
  | none => .ok info
  | some channelMeta =>
    (mapModel env client c.modelMapping info.originModelName channelMeta).map fun mapped =>
      { info with channelMeta := some mapped.1, originModelName := mapped.2 }

/-! ## Overrides -/

def normalizeHeaderContextKey (env : Env) (key : String) : String := trimSpace (env.toLower key)

def isHeaderPassthroughRuleKeyForOverride (env : Env) (key : String) : Bool :=
  let key := trimSpace (env.toLower key)
  if key = "" then false
  else if key = "*" then true
  else hasPrefix key "re:" || hasPrefix key "regex:"

def sanitizeHeaderOverrideMap (env : Env) (source : Override) : Override :=
  source.foldl (fun target e =>
    let normalizedKey := normalizeHeaderContextKey env e.1
    if normalizedKey = "" then target
    else
      let normalizedValue := trimSpace e.2
      if normalizedValue = "" then
        if isHeaderPassthroughRuleKeyForOverride env normalizedKey then
          StringMap.put target normalizedKey ""
        else target
      else StringMap.put target normalizedKey normalizedValue) []

def buildRequestHeadersContext (env : Env) (headers : StringMap) : StringMap :=
  headers.foldl (fun target e =>
    let normalized := normalizeHeaderContextKey env e.1
    let value := trimSpace e.2
    if normalized = "" ∨ value = "" then target else target.put normalized value) []

def getEffectiveHeaderOverride (env : Env) (info : RelayInfo) : Override :=
  if info.useRuntimeHeadersOverride then sanitizeHeaderOverrideMap env info.runtimeHeadersOverride
  else sanitizeHeaderOverrideMap env (info.channelMeta.elim [] ChannelMeta.headersOverride)

def buildParamOverrideContext (env : Env) (client : Client) (info : RelayInfo) :
    OverrideContext where
  model := if info.upstreamModelName ≠ "" then info.upstreamModelName else info.originModelName
  upstreamModel := info.upstreamModelName
  originalModel := info.originModelName
  requestPath := client.requestURLPath
  requestMethod := client.requestMethod
  matchedRestRoute := info.matchedRestRouteName
  requestHeaders := buildRequestHeadersContext env client.requestHeaders
  headerOverride := sanitizeHeaderOverrideMap env (getEffectiveHeaderOverride env info)
  retryIndex := info.retryIndex
  lastError := info.lastError

def syncRuntimeHeaderOverrideFromContext (env : Env) (info : RelayInfo)
    (headerOverride : Option Override) : RelayInfo :=
  match headerOverride with
  | none => info
  | some rawMap =>
    { info with
      runtimeHeadersOverride := sanitizeHeaderOverrideMap env rawMap
      useRuntimeHeadersOverride := true }

def applyParamOverrideWithRelayInfo (env : Env) (client : Client) (jsonData : String)
    (info : RelayInfo) : Except NewAPIError String × RelayInfo :=
  let paramOverride := info.channelMeta.elim [] ChannelMeta.paramOverride
  if paramOverride.length = 0 then (.ok jsonData, info)
  else
    let info := resolveChannelRestRoute env client info
    match env.applyParamOverride jsonData paramOverride
        (buildParamOverrideContext env client info) with
    | .error e => (.error e, info)
    | .ok (result, headerOverride) =>
      (.ok result, syncRuntimeHeaderOverrideFromContext env info headerOverride)

/-! ## The attempt -/

structure RequestData where
  channelMeta : Option ChannelMeta
  organization : String
  other : OtherKey → String
  method : String
  path : String
  query : StringMap
  /-- Whether the path and the query are used, and not those of the request. -/
  matchedRestRouteName : String
  headerOverride : Override

section

variable (env : Env) (client : Client)

def resolveForURL (info : RelayInfo) : RelayInfo :=
  match info.channelMeta with
  | none => info
  | some channelMeta =>
    if env.usesOpenAIAdaptor channelMeta.apiType ∧ channelMeta.channelType ≠ channelTypeAzure then
      resolveChannelRestRoute env client info
    else info

def upstreamOf (c : Context) (info : RelayInfo) : RequestData where
  channelMeta := info.channelMeta
  organization := c.organization
  other := c.other
  method := getResolvedRequestMethod env info client.requestMethod
  path := getResolvedRequestPath env info client.requestURLPath
  query := getResolvedRequestQuery env client info
  matchedRestRouteName := info.matchedRestRouteName
  headerOverride := getEffectiveHeaderOverride env info

def overrideBody (info : RelayInfo) : Except NewAPIError Unit × RelayInfo :=
  match info.channelMeta with
  | none => (.ok (), info)
  | some channelMeta =>
    match env.convertRequest channelMeta with
    | .error e => (.error e, info)
    | .ok none => (.ok (), info)
    | .ok (some jsonData) =>
      let overridden := applyParamOverrideWithRelayInfo env client jsonData info
      (overridden.1.map fun _ => (), overridden.2)

def attempt (c : Context) (info : RelayInfo) : Option RequestData × RelayInfo :=
  let info := initChannelMeta env client c info
  match modelMappedHelper env client c info with
  | .error _ => (none, info)
  | .ok info =>
    match overrideBody env client info with
    | (.error _, info) => (none, info)
    | (.ok _, info) =>
      let info := resolveForURL env client info
      (some (upstreamOf env client c info), info)

end

/-! ## The tries of a request -/

structure Selected where
  channel : ChannelConfig
  key : Except NewAPIError KeyChoice

/-- An iteration that selected a channel.  It is attempted, and fails, unless it has been before or
has no key. -/
structure Try where
  selected : Selected
  retryIndex : Nat
  failed : Option NewAPIError

structure State where
  context : Context
  info : RelayInfo

def State.start (client : Client) : State := ⟨{}, { originModelName := client.originModelName }⟩

section

variable (env : Env) (client : Client)

def State.select (s : State) (selected : Selected) (retryIndex : Nat) : State where
  context := setupContextForSelectedChannel env selected.channel s.info.originModelName selected.key
    s.context
  info := { s.info with retryIndex := retryIndex }

def State.tried (s : State) (t : Try) : State :=
  let s := s.select env t.selected t.retryIndex
  match t.failed with
  | none => s
  | some e =>
    { s with info := { (attempt env client s.context s.info).2 with lastError := some e } }

def after (tries : List Try) : State := tries.foldl (State.tried env client) (.start client)

/-- **What is sent** to a channel that is selected after some tries. -/
def upstream (tries : List Try) (selected : Selected) (retryIndex : Nat) : Option RequestData :=
  let s := (after env client tries).select env selected retryIndex
  (attempt env client s.context s.info).1

end

end NewApi.Upstream
