import NewApi.Upstream.Isolation

/-!
# Where a model mapping leads

`ModelMappedHelper` follows the mapping from the requested model and keeps the models it has
visited.  A model that is mapped to itself, or to nothing, ends the chain.
-/

namespace NewApi.Upstream

open Channels Relation

/-- The map sends the model to another one. -/
def Redirects (modelMap : StringMap) (model next : String) : Prop :=
  modelMap.lookup model = some next ∧ next ≠ "" ∧ next ≠ model

/-- Following the map from the model leads into a cycle. -/
def EntersCycle (modelMap : StringMap) (model : String) : Prop :=
  ∃ turn, ReflTransGen (Redirects modelMap) model turn ∧ TransGen (Redirects modelMap) turn turn

variable {modelMap : StringMap} {originModelName : String}

theorem EntersCycle.next {model next : String} (h : EntersCycle modelMap model)
    (hNext : Redirects modelMap model next) : EntersCycle modelMap next := by
  obtain ⟨turn, hTurn, hCycle⟩ := h
  have hOnly : ∀ {next'}, Redirects modelMap model next' → next' = next := fun hNext' =>
    Option.some_inj.mp (hNext'.1.symm.trans hNext.1)
  rcases hTurn.cases_head with rfl | ⟨_, hFirst, hRest⟩
  · obtain ⟨_, hFirst, hRest⟩ := TransGen.head'_iff.mp hCycle
    rw [hOnly hFirst] at hRest
    exact ⟨model, hRest, hCycle⟩
  · rw [hOnly hFirst] at hRest
    exact ⟨turn, hRest, hCycle⟩

theorem EntersCycle.not_last {model last : String} (h : EntersCycle modelMap model)
    (hLast : ReflTransGen (Redirects modelMap) model last) :
    ∃ next, Redirects modelMap last next := by
  induction hLast using ReflTransGen.head_induction_on with
  | refl =>
    obtain ⟨turn, hTurn, hCycle⟩ := h
    rcases hTurn.cases_head with rfl | ⟨next, hFirst, _⟩
    · obtain ⟨next, hFirst, _⟩ := TransGen.head'_iff.mp hCycle
      exact ⟨next, hFirst⟩
    · exact ⟨next, hFirst⟩
  | head hNext _ ih => exact ih (h.next hNext)

def Redirection.Describes (modelMap : StringMap) (originModelName currentModel : String) :
    Redirection → Prop
  | .leads model mapped => ReflTransGen (Redirects modelMap) currentModel model ∧
      (∀ next, ¬Redirects modelMap model next) ∧ (mapped = true ↔ model ≠ originModelName)
  | .itself => ReflTransGen (Redirects modelMap) currentModel originModelName ∧
      ∀ next, ¬Redirects modelMap originModelName next
  | .cycle => EntersCycle modelMap currentModel
  | .unbounded => True

theorem Redirection.Describes.head {result : Redirection} {model next : String}
    (hNext : Redirects modelMap model next) (h : result.Describes modelMap originModelName next) :
    result.Describes modelMap originModelName model := by
  cases result with
  | leads | itself => exact ⟨h.1.head hNext, h.2⟩
  | cycle =>
    obtain ⟨turn, hTurn, hCycle⟩ := h
    exact ⟨turn, hTurn.head hNext, hCycle⟩
  | unbounded => trivial

/-- **The loop.**  The models visited before lead to the current one. -/
theorem redirect_describes {fuel : Nat} {earlier : List String} {currentModel : String}
    {mapped : Bool}
    (hEarlier : ∀ model ∈ earlier, ReflTransGen (Redirects modelMap) model currentModel)
    (hOrigin : originModelName ∈ currentModel :: earlier)
    (hMapped : mapped = true ↔ currentModel ≠ originModelName) :
    (redirect modelMap originModelName fuel (currentModel :: earlier) currentModel mapped).Describes
      modelMap originModelName currentModel := by
  induction fuel generalizing earlier currentModel mapped with
  | zero => trivial
  | succ fuel ih =>
    rw [redirect]
    split
    · next hNone =>
      refine ⟨.refl, fun _ hNext => ?_, hMapped⟩
      exact absurd (hNone.symm.trans hNext.1) (by simp)
    next mappedModel hSome =>
    have hOnly : ∀ {next}, Redirects modelMap currentModel next → next = mappedModel :=
      fun hNext => Option.some_inj.mp (hNext.1.symm.trans hSome)
    split
    · next hEmpty => exact ⟨.refl, fun _ hNext => hNext.2.1 (hOnly hNext ▸ hEmpty), hMapped⟩
    next hText =>
    have hVisited : ∀ model ∈ currentModel :: earlier, _ :=
      List.forall_mem_cons.mpr ⟨.refl, hEarlier⟩
    by_cases hSelf : mappedModel = currentModel
    · have hEnd : ∀ next, ¬Redirects modelMap currentModel next :=
        fun _ hNext => hNext.2.2 ((hOnly hNext).trans hSelf)
      rw [if_pos (hSelf ▸ List.mem_cons_self), if_pos hSelf]
      split
      · next hFirst => exact hFirst ▸ ⟨.refl, hEnd⟩
      · next hLater => exact ⟨.refl, hEnd, iff_of_true rfl hLater⟩
    have hNext : Redirects modelMap currentModel mappedModel := ⟨hSome, hText, hSelf⟩
    split
    · next hSeen =>
      exact ⟨currentModel, .refl, .head' hNext (hVisited mappedModel hSeen)⟩
    · next hNew =>
      refine (ih (fun model hModel => (hVisited model hModel).tail hNext)
        (List.mem_cons_of_mem _ hOrigin) (iff_of_true rfl ?_)).head hNext
      rintro rfl
      exact hNew hOrigin

def mappingCycle : NewAPIError :=
  { err := "model_mapping_contains_cycle", errorCode := "channel:model_mapped_error"
    skipRetry := true }

/-- A request for a model, mapped to another one or, as `InitChannelMeta` leaves it, to itself. -/
def RelayInfo.mapped (info : RelayInfo) (channelMeta : ChannelMeta) (origin model : String) :
    RelayInfo :=
  { info with
    originModelName := origin
    channelMeta := some { channelMeta with
      upstreamModelName := model, isModelMapped := model ≠ origin } }

/-- **The loop ends**, with an error if the mapping enters a cycle, and else with the last model. -/
theorem modelMappedHelper_iff (env : Env) (client : Client) (c : Context) (info : RelayInfo)
    (channelMeta : ChannelMeta) (origin : String) (modelMap : StringMap)
    (hMap : (if c.modelMapping ≠ "" ∧ c.modelMapping ≠ "\x7b\x7d" then
      env.unmarshalMapping c.modelMapping else some []) = some modelMap)
    (hCompact : client.relayMode ≠ relayModeResponsesCompact) :
    redirect modelMap origin (modelMap.length + 1) [origin] origin false ≠ .unbounded ∧
      (EntersCycle modelMap origin →
        modelMappedHelper env client c (info.mapped channelMeta origin origin) =
          .error mappingCycle) ∧
      (¬EntersCycle modelMap origin → ∃ last,
        modelMappedHelper env client c (info.mapped channelMeta origin origin) =
          .ok (info.mapped channelMeta origin last) ∧
        ReflTransGen (Redirects modelMap) origin last ∧ ∀ next, ¬Redirects modelMap last next) := by
  have hBounded : redirect modelMap origin (modelMap.length + 1) [origin] origin false ≠
    .unbounded := redirect_ne_unbounded (List.nodup_singleton _) nofun (Nat.lt_succ_self _)
  refine ⟨hBounded, ?_⟩
  have hDescribes : (redirect modelMap origin (modelMap.length + 1) [origin] origin
      false).Describes modelMap origin origin :=
    redirect_describes nofun List.mem_cons_self (by simp)
  have hEnds : ∀ {last : String}, ReflTransGen (Redirects modelMap) origin last →
      (∀ next, ¬Redirects modelMap last next) → ¬EntersCycle modelMap origin :=
    fun hLast hEnd hCycle => (hCycle.not_last hLast).elim hEnd
  split at hMap
  · next hText =>
    generalize hResult : redirect modelMap origin (modelMap.length + 1) [origin] origin false =
      result at hBounded hDescribes
    unfold modelMappedHelper mapModel
    simp only [RelayInfo.mapped, hText, hCompact, hMap, hResult, false_and, if_false, ne_eq,
      not_false_eq_true, and_self, if_true]
    cases result with
    | leads model mapped =>
      obtain ⟨hLast, hEnd, hMapped⟩ := hDescribes
      refine ⟨fun hCycle => absurd hCycle (hEnds hLast hEnd), fun _ => ⟨model, ?_, hLast, hEnd⟩⟩
      cases mapped with
      | true => simp [Except.map, hMapped.mp rfl]
      | false =>
        obtain rfl : model = origin := by simpa using hMapped
        simp [Except.map]
    | itself =>
      obtain ⟨hLast, hEnd⟩ := hDescribes
      refine ⟨fun hCycle => absurd hCycle (hEnds hLast hEnd), fun _ => ⟨origin, ?_, hLast, hEnd⟩⟩
      simp [Except.map]
    | cycle => exact ⟨fun _ => rfl, fun hNone => absurd hDescribes hNone⟩
    | unbounded => exact absurd rfl hBounded
  · next hText =>
    rw [Option.some_inj] at hMap
    have hEnd : ∀ next, ¬Redirects modelMap origin next := by
      rw [← hMap]
      exact fun next hNext => nomatch hNext.1
    refine ⟨fun hCycle => absurd hCycle (hEnds .refl hEnd), fun _ => ⟨_, ?_, .refl, hEnd⟩⟩
    simp [modelMappedHelper, RelayInfo.mapped, mapModel, hCompact, hText, Except.map]

def swapEnv : Env := { demoEnv with unmarshalMapping := fun _ => some [("a", "b"), ("b", "a")] }

theorem modelMappedHelper_swap :
    modelMappedHelper swapEnv demoClient { modelMapping := "swap" } (RelayInfo.mapped
      { originModelName := "" } (channelMetaOf demoEnv demoClient {}) "a" "a") =
        .error mappingCycle := by
  have hBack : TransGen (Redirects [("a", "b"), ("b", "a")]) "a" "a" :=
    .tail (.single ⟨rfl, by decide, by decide⟩) ⟨rfl, by decide, by decide⟩
  exact (modelMappedHelper_iff swapEnv demoClient _ _ _ "a" _ rfl (by decide)).2.1
    ⟨"a", .refl, hBack⟩

end NewApi.Upstream
