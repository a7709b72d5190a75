import NewApi.Upstream.Attempt

/-!
# What one channel leaves for the next

The data sent to a channel should depend on the client's request and the channel alone.  But an
organization, a region or an API version stays when the next channel has none, and so do a resolved
route and the headers of an override.
-/

namespace NewApi.Upstream

open Go Channels Option

variable {env : Env} {client : Client}

/-! ## The context -/

/-- **What a channel does not write**: the organization, if it has none, the values for other types,
and the index of a key, if it has only one. -/
theorem setup_eq_iff (env : Env) (channel : ChannelConfig) (choice : KeyChoice)
    (modelName modelName' : String) (c d : Context) :
    setupContextForSelectedChannel env channel modelName (.ok choice) c =
        setupContextForSelectedChannel env channel modelName' (.ok choice) d ↔
      modelName = modelName' ∧
        (channel.openAIOrganization.getD "" = "" → c.organization = d.organization) ∧
        (∀ k, otherKey channel.type ≠ some k → c.other k = d.other k) ∧
        (channel.channelInfo.isMultiKey = false → c.multiKeyIndex = d.multiKeyIndex) := by
  simp only [setupContextForSelectedChannel, Context.mk.injEq, true_and, funext_iff]
  refine and_congr_right fun _ => and_congr ?_ (and_comm.trans (and_congr ?_ ?_))
  · by_cases hOrg : channel.openAIOrganization.getD "" = "" <;> simp [hOrg]
  · refine forall_congr' fun k => ?_
    by_cases hKey : otherKey channel.type = some k <;> simp [hKey]
  · cases channel.channelInfo.isMultiKey <;> simp

/-! ## The state of the request -/

def resolvedView (env : Env) (client : Client) (info : RelayInfo) :
    String × String × StringMap × String :=
  (getResolvedRequestMethod env info client.requestMethod,
    getResolvedRequestPath env info client.requestURLPath,
    getResolvedRequestQuery env client info, info.matchedRestRouteName)

/-- The same is read from both, what was resolved apart. -/
structure Alike (env : Env) (i j : RelayInfo) : Prop where
  channelMeta : i.channelMeta = j.channelMeta
  originModelName : i.originModelName = j.originModelName
  headers : getEffectiveHeaderOverride env i = getEffectiveHeaderOverride env j

/-- The route that matches, if any, has a target that does not look at what was resolved before. -/
def RestRouteRule.Fixed (env : Env) (client : Client) (route : RestRouteRule) : Prop :=
  ∀ i j : RelayInfo, i.channelMeta = j.channelMeta → i.originModelName = j.originModelName →
    route.targetMethod env client i = route.targetMethod env client j ∧
      route.targetPath env client i = route.targetPath env client j

variable {i j : RelayInfo}

theorem Alike.route_eq (h : Alike env i j) :
    matchedRoute env client i = matchedRoute env client j := by
  unfold matchedRoute modelNameOf RelayInfo.upstreamModelName
  rw [h.channelMeta, h.originModelName]

theorem applyRouteTemplate_congr (client : Client) (h : Alike env i j) (raw : String)
    (hPath : getResolvedRequestPath env i client.requestURLPath =
      getResolvedRequestPath env j client.requestURLPath)
    (hMethod : getResolvedRequestMethod env i client.requestMethod =
      getResolvedRequestMethod env j client.requestMethod) :
    applyRouteTemplate env client raw i = applyRouteTemplate env client raw j := by
  unfold applyRouteTemplate buildRouteTemplateContext RelayInfo.upstreamModelName
  rw [h.channelMeta, h.originModelName, hPath, hMethod]

theorem Alike.target (h : Alike env i j) (hView : resolvedView env client i =
      resolvedView env client j) (route : RestRouteRule) :
    route.targetMethod env client i = route.targetMethod env client j ∧
      route.targetPath env client i = route.targetPath env client j := by
  simp only [resolvedView, Prod.mk.injEq] at hView
  obtain ⟨hMethod, hPath, -, -⟩ := hView
  constructor
  · have hRaw := applyRouteTemplate_congr client
      (i := { i with resolvedRequestMethod := requestMethodOf env client })
      (j := { j with resolvedRequestMethod := requestMethodOf env client })
      ⟨h.channelMeta, h.originModelName, h.headers⟩ route.target.method hPath rfl
    simp only [RestRouteRule.targetMethod, hRaw]
  · have hRaw := fun raw => applyRouteTemplate_congr client h raw hPath hMethod
    simp only [RestRouteRule.targetPath, hRaw]

theorem resolve_frame (env : Env) (client : Client) (info : RelayInfo) :
    ∃ method path query name, resolveChannelRestRoute env client info =
      { info with
        resolvedRequestMethod := method, resolvedRequestPath := path
        resolvedRequestQuery := query, matchedRestRouteName := name } := by
  unfold resolveChannelRestRoute
  split <;> exact ⟨_, _, _, _, rfl⟩

theorem Alike.resolve (client : Client) (h : Alike env i j) :
    Alike env (resolveChannelRestRoute env client i) (resolveChannelRestRoute env client j) := by
  obtain ⟨_, _, _, _, hi⟩ := resolve_frame env client i
  obtain ⟨_, _, _, _, hj⟩ := resolve_frame env client j
  rw [hi, hj]
  exact ⟨h.channelMeta, h.originModelName, h.headers⟩

theorem Alike.view_resolve (h : Alike env i j)
    (hView : resolvedView env client i = resolvedView env client j ∨
      ∃ route, matchedRoute env client i = some route ∧ route.Fixed env client) :
    resolvedView env client (resolveChannelRestRoute env client i) =
      resolvedView env client (resolveChannelRestRoute env client j) := by
  have hTarget : ∀ route, matchedRoute env client i = some route →
      route.targetMethod env client i = route.targetMethod env client j ∧
        route.targetPath env client i = route.targetPath env client j := by
    intro route hRoute
    rcases hView with hView | ⟨route', hRoute', hFixed⟩
    · exact h.target hView route
    · rw [hRoute, some_inj] at hRoute'
      exact hRoute' ▸ hFixed i j h.channelMeta h.originModelName
  unfold resolveChannelRestRoute
  rw [← h.route_eq]
  cases hRoute : matchedRoute env client i with
  | none =>
    rcases hView with hView | ⟨route, hSome, -⟩
    · exact hView
    · rw [hRoute] at hSome
      cases hSome
  | some route =>
    obtain ⟨hMethod, hPath⟩ := hTarget route hRoute
    simp only [hMethod, hPath]
    rfl

/-! ## Overrides and the URL -/

/-- The channel has parameter overrides, and a body that they are applied to. -/
def Overrides (env : Env) (channelMeta : ChannelMeta) : Prop :=
  channelMeta.paramOverride.length ≠ 0 ∧
    ∃ jsonData, env.convertRequest channelMeta = .ok (some jsonData)

def Resolves (env : Env) (channelMeta : ChannelMeta) : Prop :=
  Overrides env channelMeta ∨
    env.usesOpenAIAdaptor channelMeta.apiType = true ∧ channelMeta.channelType ≠ channelTypeAzure

theorem buildParamOverrideContext_congr (client : Client) (h : Alike env i j)
    (hName : i.matchedRestRouteName = j.matchedRestRouteName)
    (hRetry : i.retryIndex = j.retryIndex ∧ i.lastError = j.lastError) :
    buildParamOverrideContext env client i = buildParamOverrideContext env client j := by
  unfold buildParamOverrideContext RelayInfo.upstreamModelName
  rw [h.channelMeta, h.originModelName, h.headers, hName, hRetry.1, hRetry.2]

theorem Alike.sync (h : Alike env i j) (headerOverride : Option Override) :
    Alike env (syncRuntimeHeaderOverrideFromContext env i headerOverride)
      (syncRuntimeHeaderOverrideFromContext env j headerOverride) := by
  cases headerOverride with
  | none => exact h
  | some rawMap => exact ⟨h.channelMeta, h.originModelName, rfl⟩

theorem resolvedView_sync (headerOverride : Option Override) (info : RelayInfo) :
    resolvedView env client (syncRuntimeHeaderOverrideFromContext env info headerOverride) =
      resolvedView env client info := by
  cases headerOverride <;> rfl

/-- The states show the same, or the route to be taken does not look at them. -/
def Shows (env : Env) (client : Client) (i j : RelayInfo) : Prop :=
  resolvedView env client i = resolvedView env client j ∨
    ∃ route, matchedRoute env client i = some route ∧ route.Fixed env client

/-- **An override does the same** to states that are alike, if it is told the same about retries. -/
theorem Alike.override (h : Alike env i j) (hShows : Shows env client i j) (jsonData : String)
    (hRetry : i.retryIndex = j.retryIndex ∧ i.lastError = j.lastError)
    (hSome : (i.channelMeta.elim [] ChannelMeta.paramOverride).length ≠ 0) :
    (applyParamOverrideWithRelayInfo env client jsonData i).1 =
        (applyParamOverrideWithRelayInfo env client jsonData j).1 ∧
      Alike env (applyParamOverrideWithRelayInfo env client jsonData i).2
        (applyParamOverrideWithRelayInfo env client jsonData j).2 ∧
      resolvedView env client (applyParamOverrideWithRelayInfo env client jsonData i).2 =
        resolvedView env client (applyParamOverrideWithRelayInfo env client jsonData j).2 := by
  have hAlike := h.resolve client
  have hView := h.view_resolve hShows
  have hContext : buildParamOverrideContext env client (resolveChannelRestRoute env client i) =
      buildParamOverrideContext env client (resolveChannelRestRoute env client j) := by
    have hRoute := congrArg (fun view => view.2.2.2) hView
    refine buildParamOverrideContext_congr client hAlike hRoute ?_
    obtain ⟨_, _, _, _, hi⟩ := resolve_frame env client i
    obtain ⟨_, _, _, _, hj⟩ := resolve_frame env client j
    rw [hi, hj]
    exact hRetry
  unfold applyParamOverrideWithRelayInfo
  rw [← h.channelMeta]
  simp only [if_neg hSome]
  rw [hContext]
  cases env.applyParamOverride jsonData (i.channelMeta.elim [] ChannelMeta.paramOverride)
      (buildParamOverrideContext env client (resolveChannelRestRoute env client j)) with
  | error e => exact ⟨rfl, hAlike, hView⟩
  | ok result =>
    refine ⟨rfl, hAlike.sync result.2, ?_⟩
    rw [resolvedView_sync, resolvedView_sync, hView]

variable {channelMeta : ChannelMeta} {info : RelayInfo} {selected : Selected} {d : RequestData}
  {s : State} {choice : KeyChoice}

theorem overrideBody_of_not_overrides (client : Client)
    (hMeta : info.channelMeta = some channelMeta) (h : ¬ Overrides env channelMeta) :
    overrideBody env client info = ((env.convertRequest channelMeta).map fun _ => (), info) := by
  unfold overrideBody
  rw [hMeta]
  simp only
  cases hConvert : env.convertRequest channelMeta with
  | error e => rfl
  | ok jsonData =>
    cases jsonData with
    | none => rfl
    | some jsonData =>
      have hNone : channelMeta.paramOverride.length = 0 := by
        by_contra hSome
        exact h ⟨hSome, jsonData, hConvert⟩
      unfold applyParamOverrideWithRelayInfo
      simp only [hMeta, elim_some, if_pos hNone]
      rfl

theorem Alike.body_eq (h : Alike env i j) (hMeta : i.channelMeta = some channelMeta)
    (hShows : Shows env client i j)
    (hRetry : Overrides env channelMeta → i.retryIndex = j.retryIndex ∧ i.lastError = j.lastError) :
    (overrideBody env client i).1 = (overrideBody env client j).1 ∧
      Alike env (overrideBody env client i).2 (overrideBody env client j).2 ∧
      Shows env client (overrideBody env client i).2
        (overrideBody env client j).2 ∧
      (resolvedView env client i = resolvedView env client j ∨ Overrides env channelMeta →
        resolvedView env client (overrideBody env client i).2 =
          resolvedView env client (overrideBody env client j).2) := by
  have hMeta' := h.channelMeta.symm.trans hMeta
  by_cases hOverrides : Overrides env channelMeta
  · obtain ⟨hSome, jsonData, hConvert⟩ := id hOverrides
    obtain ⟨hResult, hAlike, hView⟩ := h.override hShows jsonData (hRetry hOverrides)
      (by rwa [hMeta])
    unfold overrideBody
    rw [hMeta, hMeta']
    simp only [hConvert]
    exact ⟨by rw [hResult], hAlike, .inl hView, fun _ => hView⟩
  · rw [overrideBody_of_not_overrides client hMeta hOverrides,
      overrideBody_of_not_overrides client hMeta' hOverrides]
    exact ⟨rfl, h, hShows, fun hSame => hSame.resolve_right hOverrides⟩

theorem overrideBody_channelMeta (env : Env) (client : Client) (info : RelayInfo) :
    (overrideBody env client info).2.channelMeta = info.channelMeta := by
  cases hMeta : info.channelMeta with
  | none => rw [overrideBody, hMeta]; exact hMeta
  | some channelMeta =>
    by_cases hOverrides : Overrides env channelMeta
    · obtain ⟨hSome, jsonData, hConvert⟩ := hOverrides
      obtain ⟨_, _, _, _, hResolve⟩ := resolve_frame env client info
      unfold overrideBody applyParamOverrideWithRelayInfo
      simp only [hMeta, hConvert, elim_some, if_neg hSome, hResolve]
      split
      · rfl
      · rename_i headerOverride _
        cases headerOverride <;> rfl
    · rw [overrideBody_of_not_overrides client hMeta hOverrides]
      exact hMeta

variable (c : Context)

theorem Alike.data_eq (h : Alike env i j)
    (hView : resolvedView env client i = resolvedView env client j) :
    upstreamOf env client c i = upstreamOf env client c j := by
  simp only [resolvedView, Prod.mk.injEq] at hView
  obtain ⟨hMethod, hPath, hQuery, hName⟩ := hView
  unfold upstreamOf
  rw [h.channelMeta, hMethod, hPath, hQuery, hName, h.headers]

theorem Alike.url_eq (h : Alike env i j) (hMeta : i.channelMeta = some channelMeta)
    (hShows : Shows env client i j)
    (hView : resolvedView env client i = resolvedView env client j ∨
      env.usesOpenAIAdaptor channelMeta.apiType = true ∧
        channelMeta.channelType ≠ channelTypeAzure) :
    upstreamOf env client c (resolveForURL env client i) =
      upstreamOf env client c (resolveForURL env client j) := by
  unfold resolveForURL
  rw [hMeta, h.channelMeta.symm.trans hMeta]
  simp only
  split
  · exact (h.resolve client).data_eq c (h.view_resolve hShows)
  · rename_i hOther
    exact h.data_eq c (hView.resolve_right hOther)

/-! ## The attempt -/

def State.prepared (env : Env) (client : Client) (s : State) : Except NewAPIError RelayInfo :=
  modelMappedHelper env client s.context (initChannelMeta env client s.context s.info)

def sent (env : Env) (client : Client) (c : Context) (info : RelayInfo) : Option RequestData :=
  match overrideBody env client info with
  | (.error _, _) => none
  | (.ok _, info) => some (upstreamOf env client c (resolveForURL env client info))

theorem attempt_fst (env : Env) (client : Client) (s : State) :
    (attempt env client s.context s.info).1 =
      match s.prepared env client with
      | .error _ => none
      | .ok info => sent env client s.context info := by
  unfold attempt State.prepared sent
  simp only
  cases modelMappedHelper env client s.context (initChannelMeta env client s.context s.info) with
  | error e => rfl
  | ok info =>
    simp only
    rcases overrideBody env client info with ⟨_ | _, _⟩ <;> rfl

theorem Alike.sent_eq (h : Alike env i j) (hMeta : i.channelMeta = some channelMeta)
    (hShows : Shows env client i j)
    (hRetry : Overrides env channelMeta → i.retryIndex = j.retryIndex ∧ i.lastError = j.lastError)
    (hView : resolvedView env client i = resolvedView env client j ∨ Resolves env channelMeta) :
    sent env client c i = sent env client c j := by
  obtain ⟨hResult, hAlike, hShows', hSame⟩ := h.body_eq hMeta hShows hRetry
  have hMeta' := (overrideBody_channelMeta env client i).trans hMeta
  unfold sent
  generalize overrideBody env client i = body at *
  generalize overrideBody env client j = body' at *
  obtain ⟨result, i'⟩ := body
  obtain ⟨result', j'⟩ := body'
  subst hResult
  cases result with
  | error => rfl
  | ok =>
    refine congrArg some (hAlike.url_eq c hMeta' hShows' ?_)
    rcases hView with hEqual | hOverrides | hAdaptor
    · exact .inl (hSame (.inl hEqual))
    · exact .inl (hSame (.inr hOverrides))
    · exact .inr hAdaptor

theorem resolve_of_no_routes (hMeta : info.channelMeta = some channelMeta)
    (h : channelMeta.restRoutes = []) :
    resolveChannelRestRoute env client info = info := by
  have hNone : matchedRoute env client info = none := by
    rw [matchedRoute, hMeta, elim_some, h]
    rfl
  rw [resolveChannelRestRoute, hNone]

theorem resolveForURL_frame (env : Env) (client : Client) (info : RelayInfo) :
    ∃ method path query name, resolveForURL env client info =
      { info with
        resolvedRequestMethod := method, resolvedRequestPath := path
        resolvedRequestQuery := query, matchedRestRouteName := name } := by
  unfold resolveForURL
  split
  · exact ⟨_, _, _, _, rfl⟩
  · split
    · exact resolve_frame env client info
    · exact ⟨_, _, _, _, rfl⟩

theorem resolvedView_overrideBody (client : Client) (hMeta : info.channelMeta = some channelMeta)
    (h : channelMeta.restRoutes = [] ∨ ¬ Overrides env channelMeta) :
    resolvedView env client (overrideBody env client info).2 = resolvedView env client info := by
  by_cases hOverrides : Overrides env channelMeta
  · have hRoutes := h.resolve_right fun hNot => hNot hOverrides
    obtain ⟨hSome, jsonData, hConvert⟩ := hOverrides
    unfold overrideBody applyParamOverrideWithRelayInfo
    simp only [hMeta, hConvert, elim_some, if_neg hSome, resolve_of_no_routes hMeta hRoutes]
    split
    · rfl
    · exact resolvedView_sync _ _
  · rw [overrideBody_of_not_overrides client hMeta hOverrides]

theorem sent_spec {c : Context} (hMeta : info.channelMeta = some channelMeta)
    (h : sent env client c info = some d) :
    d.organization = c.organization ∧ d.other = c.other ∧ d.channelMeta = some channelMeta ∧
      (channelMeta.restRoutes = [] ∨ ¬ Resolves env channelMeta →
        (d.method, d.path, d.query, d.matchedRestRouteName) = resolvedView env client info) ∧
      (¬ Overrides env channelMeta →
        d.headerOverride = getEffectiveHeaderOverride env info) := by
  have hMeta' := (overrideBody_channelMeta env client info).trans hMeta
  have hView : channelMeta.restRoutes = [] ∨ ¬ Overrides env channelMeta →
      resolvedView env client (overrideBody env client info).2 = resolvedView env client info :=
    resolvedView_overrideBody client hMeta
  have hBody : ¬ Overrides env channelMeta → (overrideBody env client info).2 = info := fun hNot =>
    congrArg Prod.snd (overrideBody_of_not_overrides client hMeta hNot)
  unfold sent at h
  generalize overrideBody env client info = body at *
  obtain ⟨_ | _, info'⟩ := body
  · cases h
  simp only [some_inj] at h hMeta' hView hBody
  subst h
  obtain ⟨_, _, _, _, hURL⟩ := resolveForURL_frame env client info'
  refine ⟨rfl, rfl, ?_, fun hNone => ?_, fun hNot => ?_⟩
  · rw [hURL]
    exact hMeta'
  · have hSame : resolveForURL env client info' = info' := by
      unfold resolveForURL
      rw [hMeta']
      simp only
      split
      · rename_i hAdaptor
        rcases hNone with hRoutes | hNot
        · exact resolve_of_no_routes hMeta' hRoutes
        · exact absurd (.inr hAdaptor) hNot
      · rfl
    change resolvedView env client _ = _
    rw [hSame]
    exact hView (hNone.imp_right fun hNot hOverrides => hNot (.inl hOverrides))
  · rw [hURL, ← hBody hNot]
    rfl

theorem mapModel_frame {modelMapping originModelName : String} {mapped : ChannelMeta × String}
    (h : mapModel env client modelMapping originModelName channelMeta = .ok mapped) :
    mapped.1 =
      { channelMeta with
        upstreamModelName := mapped.1.upstreamModelName
        isModelMapped := mapped.1.isModelMapped } := by
  simp only [mapModel] at h
  split at h
  · split at h
    · cases h
    split at h <;> cases h
    · split <;> rfl
    · split <;> rfl
    · rfl
  · cases h
    split <;> rfl

theorem prepared_spec (h : s.prepared env client = .ok info) :
    ∃ channelMeta, info.channelMeta = some channelMeta ∧
      channelMeta.paramOverride = s.context.paramOverride ∧
      channelMeta.headersOverride = s.context.headerOverride ∧
      channelMeta.restRoutes = s.context.restRoutes ∧
      channelMeta.channelMultiKeyIndex = s.context.multiKeyIndex ∧
      resolvedView env client info = resolvedView env client s.info ∧
      info.useRuntimeHeadersOverride = s.info.useRuntimeHeadersOverride ∧
      info.runtimeHeadersOverride = s.info.runtimeHeadersOverride := by
  unfold State.prepared modelMappedHelper initChannelMeta at h
  simp only at h
  cases hMap : mapModel env client s.context.modelMapping s.info.originModelName
      (channelMetaOf env client s.context) with
  | error e =>
    rw [hMap] at h
    cases h
  | ok mapped =>
    rw [hMap] at h
    cases h
    have hFrame := mapModel_frame hMap
    refine ⟨mapped.1, rfl, ?_, ?_, ?_, ?_, rfl, rfl, rfl⟩ <;> rw [hFrame] <;> rfl

/-! ## Two runs -/

/-- The headers that a channel without a parameter override sends. -/
def leftHeaders (env : Env) (channel : ChannelConfig) (s : State) : Override :=
  if s.info.useRuntimeHeadersOverride then
    sanitizeHeaderOverrideMap env s.info.runtimeHeadersOverride
  else sanitizeHeaderOverrideMap env channel.headerOverride

/-- **Two states show a channel the same**: what was left differs at most where the channel writes
itself. -/
structure SameFor (env : Env) (client : Client) (selected : Selected) (r₁ r₂ : Nat)
    (s₁ s₂ : State) : Prop where
  originModelName : s₁.info.originModelName = s₂.info.originModelName
  organization : selected.channel.openAIOrganization.getD "" = "" →
    s₁.context.organization = s₂.context.organization
  other : ∀ k, otherKey selected.channel.type ≠ some k → s₁.context.other k = s₂.context.other k
  multiKeyIndex : selected.channel.channelInfo.isMultiKey = false →
    s₁.context.multiKeyIndex = s₂.context.multiKeyIndex
  headers : leftHeaders env selected.channel s₁ = leftHeaders env selected.channel s₂
  resolved : resolvedView env client s₁.info = resolvedView env client s₂.info ∨
    ∀ info channelMeta, (s₁.select env selected r₁).prepared env client = .ok info →
      info.channelMeta = some channelMeta → Resolves env channelMeta ∧
        ∃ route, matchedRoute env client info = some route ∧ route.Fixed env client
  retry : ∀ info channelMeta, (s₁.select env selected r₁).prepared env client = .ok info →
    info.channelMeta = some channelMeta → Overrides env channelMeta →
      r₁ = r₂ ∧ s₁.info.lastError = s₂.info.lastError

/-- What the selection of a channel leaves in place is the same in both states, as far as the
request reads it. -/
structure LeftSame (env : Env) (client : Client) (channel : ChannelConfig) (d : RequestData)
    (s₁ s₂ : State) : Prop where
  organization : channel.openAIOrganization.getD "" = "" →
    s₁.context.organization = s₂.context.organization
  other : ∀ k, otherKey channel.type ≠ some k → s₁.context.other k = s₂.context.other k
  multiKeyIndex : channel.channelInfo.isMultiKey = false →
    s₁.context.multiKeyIndex = s₂.context.multiKeyIndex
  headers : ∀ channelMeta, d.channelMeta = some channelMeta → ¬ Overrides env channelMeta →
    leftHeaders env channel s₁ = leftHeaders env channel s₂
  resolved : ∀ channelMeta, d.channelMeta = some channelMeta →
    channel.restRoutes = [] ∨ ¬ Resolves env channelMeta →
      resolvedView env client s₁.info = resolvedView env client s₂.info

theorem prepared_eq (env : Env) (client : Client) (s : State) :
    s.prepared env client =
      (mapModel env client s.context.modelMapping s.info.originModelName
        (channelMetaOf env client s.context)).map fun mapped =>
          { s.info with channelMeta := some mapped.1, originModelName := mapped.2 } := rfl

theorem effective_prepared {r : Nat}
    (h : (s.select env selected r).prepared env client = .ok info) :
    getEffectiveHeaderOverride env info = leftHeaders env selected.channel s := by
  obtain ⟨channelMeta, hMeta, -, hHeaders, -, -, -, hUse, hRuntime⟩ := prepared_spec h
  have hOwn : (s.select env selected r).context.headerOverride =
      selected.channel.headerOverride := by
    simp only [State.select]
    cases selected.key <;> rfl
  rw [getEffectiveHeaderOverride, hMeta, elim_some, hHeaders, hOwn, hUse, hRuntime]
  rfl

section

variable (hKey : selected.key = .ok choice)
include hKey

theorem SameFor.sent_eq {r₁ r₂ : Nat} {s₁ s₂ : State}
    (h : SameFor env client selected r₁ r₂ s₁ s₂) :
    (attempt env client (s₁.select env selected r₁).context (s₁.select env selected r₁).info).1 =
      (attempt env client (s₂.select env selected r₂).context
        (s₂.select env selected r₂).info).1 := by
  have hContext : (s₁.select env selected r₁).context = (s₂.select env selected r₂).context := by
    simp only [State.select, hKey]
    exact (setup_eq_iff ..).mpr ⟨h.originModelName, h.organization, h.other, h.multiKeyIndex⟩
  have hOrigin : (s₁.select env selected r₁).info.originModelName =
      (s₂.select env selected r₂).info.originModelName := h.originModelName
  rw [attempt_fst, attempt_fst]
  have hFirst := prepared_eq env client (s₁.select env selected r₁)
  have hSecond := prepared_eq env client (s₂.select env selected r₂)
  rw [← hContext, ← hOrigin] at hSecond
  cases hMap : mapModel env client (s₁.select env selected r₁).context.modelMapping
      (s₁.select env selected r₁).info.originModelName
      (channelMetaOf env client (s₁.select env selected r₁).context) with
  | error e =>
    rw [hMap] at hFirst hSecond
    rw [hFirst, hSecond]
    rfl
  | ok mapped =>
    rw [hMap] at hFirst hSecond
    have hHeaders := (effective_prepared hFirst).trans
      (h.headers.trans (effective_prepared hSecond).symm)
    rw [hFirst, hSecond, ← hContext]
    refine Alike.sent_eq _ ⟨rfl, rfl, hHeaders⟩ rfl ?_ (h.retry _ _ hFirst rfl) ?_
    · exact h.resolved.imp id fun hRoute => (hRoute _ _ hFirst rfl).2
    · exact h.resolved.imp id fun hRoute => (hRoute _ _ hFirst rfl).1

theorem select_shows {r : Nat}
    (h : (attempt env client (s.select env selected r).context (s.select env selected r).info).1 =
      some d) :
    (selected.channel.openAIOrganization.getD "" = "" →
        d.organization = s.context.organization) ∧
      (∀ k, otherKey selected.channel.type ≠ some k → d.other k = s.context.other k) ∧
      ∃ channelMeta, d.channelMeta = some channelMeta ∧
        (selected.channel.channelInfo.isMultiKey = false →
          channelMeta.channelMultiKeyIndex = s.context.multiKeyIndex) ∧
        (¬ Overrides env channelMeta → d.headerOverride = leftHeaders env selected.channel s) ∧
        (selected.channel.restRoutes = [] ∨ ¬ Resolves env channelMeta →
          (d.method, d.path, d.query, d.matchedRestRouteName) =
            resolvedView env client s.info) := by
  rw [attempt_fst] at h
  cases hPrepared : (s.select env selected r).prepared env client with rw [hPrepared] at h
  | error e => cases h
  | ok info =>
    have hEffective := effective_prepared hPrepared
    obtain ⟨channelMeta, hMeta, -, -, hRoutes, hIndex, hView, -, -⟩ := prepared_spec hPrepared
    obtain ⟨hOrganization, hOther, hData, hResolved, hHeaders⟩ := sent_spec hMeta h
    simp only [State.select, setupContextForSelectedChannel, hKey] at hOrganization hOther
    simp only [State.select, setupContextForSelectedChannel, hKey] at hIndex hRoutes
    refine ⟨fun hNone => ?_, fun k hk => ?_, channelMeta, hData, fun hSingle => ?_,
      fun hNot => ?_, fun hNone => ?_⟩
    · rw [hOrganization, if_neg (by simpa using hNone)]
    · rw [hOther]
      exact if_neg hk
    · rw [hIndex, if_neg (by simp [hSingle])]
    · exact (hHeaders hNot).trans hEffective
    · exact (hResolved (hNone.imp_left fun hNil => hRoutes.trans hNil)).trans hView

theorem leftSame_of_sent {r₁ r₂ : Nat} {s₁ s₂ : State}
    (h₁ : (attempt env client (s₁.select env selected r₁).context
      (s₁.select env selected r₁).info).1 = some d)
    (h₂ : (attempt env client (s₂.select env selected r₂).context
      (s₂.select env selected r₂).info).1 = some d) :
    LeftSame env client selected.channel d s₁ s₂ := by
  obtain ⟨hOrganization₁, hOther₁, m, hMeta, hIndex₁, hHeaders₁, hView₁⟩ := select_shows hKey h₁
  obtain ⟨hOrganization₂, hOther₂, m', hMeta', hIndex₂, hHeaders₂, hView₂⟩ := select_shows hKey h₂
  obtain rfl : m = m' := some_inj.mp (hMeta.symm.trans hMeta')
  have hOnly : ∀ channelMeta, d.channelMeta = some channelMeta → channelMeta = m := fun _ hSome =>
    some_inj.mp (hSome.symm.trans hMeta)
  refine ⟨fun hNone => ?_, fun k hk => ?_, fun hSingle => ?_, fun _ hSome hNot => ?_,
    fun _ hSome hNone => ?_⟩
  · exact (hOrganization₁ hNone).symm.trans (hOrganization₂ hNone)
  · exact (hOther₁ k hk).symm.trans (hOther₂ k hk)
  · exact (hIndex₁ hSingle).symm.trans (hIndex₂ hSingle)
  · rw [hOnly _ hSome] at hNot
    exact (hHeaders₁ hNot).symm.trans (hHeaders₂ hNot)
  · rw [hOnly _ hSome] at hNone
    exact (hView₁ hNone).symm.trans (hView₂ hNone)

end

def demoEnv : Env where
  parseRequestPathAndQuery raw := (raw, [])
  toUpper s := s
  toLower s := s
  relayModeMatches _ _ := true
  fieldExists _ _ := true
  channelType2APIType _ := 0
  streamSupportedChannels _ := true
  channelBaseURLs _ := ""
  unmarshalMapping _ := none
  affinityOverrideTemplate override := override
  convertRequest _ := .ok (some "body")
  applyParamOverride jsonData _ context := .ok (jsonData, some context.headerOverride)
  usesOpenAIAdaptor _ := true

def demoClient : Client where
  relayMode := 1
  originModelName := "gpt-test"
  requestMethod := "POST"
  requestURLPath := "/v1/chat/completions"
  requestHeaders := []
  requestBodyJson := ""
  queryApiVersion := ""

def demoConfig (id : Int) (organization : Option String) : ChannelConfig where
  id := id
  key := "sk"
  status := .enabled
  models := "gpt-test"
  group := "default"
  priority := none
  openAIOrganization := organization

def select (channel : ChannelConfig) : Selected := ⟨channel, .ok ⟨channel.key, 0, none⟩⟩

def refusal (channel : ChannelConfig) : Try where
  selected := select channel
  retryIndex := 0
  failed := some { err := "upstream", errorCode := "bad_response_status_code" }

def tenantConfig : ChannelConfig :=
  { demoConfig 101 (some "org-a") with
    paramOverride := [("temperature", "0")]
    headerOverride := [("x-tenant", "a")]
    restRoutes := [{ name := "tenant", enabled := true, target := { path := "/tenant-a/chat" } }] }

end NewApi.Upstream
