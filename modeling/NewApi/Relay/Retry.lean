import NewApi.Channels.Select
import NewApi.Core.Visit

/-!
# The retry loop

The loop of `Relay`. Settings and channels are fixed; the polling indices are shared with other
requests.  A `Turn` is one iteration, before which others may select channels; it is one step of
`Core.Visit` with a limit of three.
-/

namespace NewApi.Relay

open Core Go Channels List

/-! ## Settings, request, state -/

structure Settings where
  store : Store
  unmarshal : Unmarshal
  autoGroups : List String
  /-- The groups of `GetUserUsableGroups`. -/
  usableGroups : String → List String
  retryTimes : Int

structure Request where
  tokenGroup : String
  userGroup : String
  modelName : String
  crossGroupRetry : Bool
  specificChannel : Bool
  /-- `ShouldSkipRetryAfterChannelAffinityFailure`. -/
  affinitySkipRetry : Bool

/-- `RetryParam`, with the index of the group that the context carries. -/
structure RetryParam where
  retry : Nat := 0
  resetNextTry : Bool := false
  autoGroupIndex : Option Nat := none

def RetryParam.increaseRetry (p : RetryParam) : RetryParam :=
  if p.resetNextTry then { p with resetNextTry := false } else { p with retry := p.retry + 1 }

structure Shared where
  polling : Polling
  /-- `MultiKeyPollingIndex` of the channels. -/
  keyIndex : Int → Int

/-! ## Selection for a request -/

structure Pick where
  result : Except String (Option Channel)
  selectGroup : String
  polling : Polling
  param : RetryParam

section

variable (cfg : Settings) (req : Request)

def getUserAutoGroup : List String :=
  cfg.autoGroups.filter fun g => g ∈ cfg.usableGroups req.userGroup

/-- The loop over the automatic groups, at group `i`. -/
def autoSelect (startGroupIndex : Nat) : List String → Nat → Polling → RetryParam → Pick
  | [], _, polling, param => ⟨.ok none, req.tokenGroup, polling, param⟩
  | autoGroup :: groups, i, polling, param =>
    let priorityRetry := if i > startGroupIndex then 0 else param.retry
    match cfg.store.getRandomSatisfiedChannel polling autoGroup req.modelName priorityRetry with
    | (.ok (some ch), polling) =>
      ⟨.ok (some ch), autoGroup, polling,
        if req.crossGroupRetry ∧ (priorityRetry : Int) ≥ cfg.retryTimes then
          ⟨0, true, some (i + 1)⟩
        else { param with autoGroupIndex := some i }⟩
    | (_, polling) =>
      autoSelect startGroupIndex groups (i + 1) polling
        { param with retry := 0, autoGroupIndex := some (i + 1) }

def cacheGetRandomSatisfiedChannel (polling : Polling) (param : RetryParam) : Pick :=
  if req.tokenGroup = "auto" then
    if cfg.autoGroups.length = 0 then
      ⟨.error "auto groups is not enabled", req.tokenGroup, polling, param⟩
    else
      let startGroupIndex := param.autoGroupIndex.getD 0
      autoSelect cfg req startGroupIndex ((getUserAutoGroup cfg req).drop startGroupIndex)
        startGroupIndex polling param
  else
    let selected := cfg.store.getRandomSatisfiedChannel polling req.tokenGroup req.modelName
      param.retry
    ⟨selected.1, req.tokenGroup, selected.2, param⟩

end

def lookup (store : Store) (id : Int) : Option Channel :=
  if !store.memoryCacheEnabled then store.db.channels.find? id else store.cache.channelsIDM id

def cacheGetChannelInfo (store : Store) (keyIndex : Int → Int) (id : Int) :
    Except String ChannelInfo :=
  match lookup store id with
  | none => .error s!"渠道# {id}，已不存在"
  | some ch => .ok { ch.channelInfo with multiKeyPollingIndex := keyIndex id }

/-- The key that `SetupContextForSelectedChannel` takes. -/
def setupContextForSelectedChannel (cfg : Settings) (keyIndex : Int → Int) (ch : Channel) :
    Except NewAPIError (Int → Int) :=
  match ch.getNextEnabledKey cfg.unmarshal (cacheGetChannelInfo cfg.store keyIndex ch.id) with
  | .error e => .error e
  | .ok choice =>
    .ok (match choice.next with
      | some next => Function.update keyIndex ch.id next
      | none => keyIndex)

/-! ## The loop -/

structure Loop where
  shared : Shared
  param : RetryParam
  channelMeta : Bool
  /-- The channels attempted, in order: `use_channel` and `triedChannels`. -/
  useChannel : List Int
  consecutiveDupes : Nat
  newAPIError : Option NewAPIError
  finished : Bool

/-- What becomes of an attempt; an error is the one after `NormalizeViolationFeeError`. -/
inductive Outcome where
  | bodyFailed (text : String) (tooLarge : Bool)
  | answered
  | failed (e : NewAPIError)

def getChannelFailed (text : String) : NewAPIError :=
  { err := text, errorCode := "get_channel_failed", skipRetry := true }

section

variable (cfg : Settings) (req : Request)

def getChannel (channelId : Int) (s : Loop) : Except NewAPIError Int × Loop :=
  if !s.channelMeta then (.ok channelId, s)
  else
    let pick := cacheGetRandomSatisfiedChannel cfg req s.shared.polling s.param
    let s := { s with shared := { s.shared with polling := pick.polling }, param := pick.param }
    let group := pick.selectGroup
    let model := req.modelName
    match pick.result with
    | .error text =>
      (.error (getChannelFailed
        s!"获取分组 {group} 下模型 {model} 的可用渠道失败（retry）: {text}"), s)
    | .ok none =>
      (.error (getChannelFailed s!"分组 {group} 下模型 {model} 的可用渠道不存在（retry）"), s)
    | .ok (some ch) =>
      match setupContextForSelectedChannel cfg s.shared.keyIndex ch with
      | .error e => (.error e, s)
      | .ok keyIndex => (.ok ch.id, { s with shared := { s.shared with keyIndex := keyIndex } })

def shouldRetry (e : NewAPIError) (_retryTimes : Int) : Bool :=
  if req.affinitySkipRetry then false
  else if isChannelError e then true
  else if isSkipRetryError e then false
  else if req.specificChannel then false
  else if e.statusCode ≥ 200 ∧ e.statusCode < 300 then false
  else if e.statusCode < 100 ∨ e.statusCode > 599 then true
  else if e.errorCode = "bad_response_body" then false
  else if e.statusCode = 504 ∨ e.statusCode = 524 then false
  else true

def iterate (channelId : Int) (outcome : Outcome) (s : Loop) : Loop :=
  if s.finished then s
  else
    match getChannel cfg req channelId s with
    | (.error e, s) =>
      if isChannelError e then { s with param := s.param.increaseRetry }
      else { s with newAPIError := some e, finished := true }
    | (.ok id, s) =>
      if id ∈ s.useChannel then
        if s.consecutiveDupes + 1 ≥ 3 then
          { s with consecutiveDupes := s.consecutiveDupes + 1, finished := true }
        else
          { s with
            consecutiveDupes := s.consecutiveDupes + 1
            param := s.param.increaseRetry }
      else
        let s := { s with useChannel := s.useChannel ++ [id], consecutiveDupes := 0 }
        match outcome with
        | .bodyFailed text tooLarge =>
          { s with
            newAPIError := some
              { err := text
                errorCode := "read_request_body_failed"
                statusCode := if tooLarge then 413 else 400
                skipRetry := true }
            finished := true }
        | .answered => { s with newAPIError := none, channelMeta := true, finished := true }
        | .failed e =>
          let s := { s with newAPIError := some e, channelMeta := true }
          if !shouldRetry req e (cfg.retryTimes - s.param.retry) then { s with finished := true }
          else { s with param := s.param.increaseRetry }

end

structure Turn where
  others : List Selection
  keys : (Int → Int) → Int → Int
  outcome : Outcome

def afterOthers (store : Store) (polling : Polling) (others : List Selection) : Polling :=
  others.foldl
    (fun polling q => (store.getRandomSatisfiedChannel polling q.group q.model q.retry).2) polling

def Turn.interfere (store : Store) (t : Turn) (s : Loop) : Loop :=
  { s with
    shared :=
      { polling := afterOthers store s.shared.polling t.others
        keyIndex := t.keys s.shared.keyIndex } }

def run (cfg : Settings) (req : Request) (channelId : Int) (turns : Nat → Turn) (s : Loop) :
    Nat → Loop
  | 0 => s
  | i + 1 =>
    iterate cfg req channelId (turns i).outcome
      ((turns i).interfere cfg.store (run cfg req channelId turns s i))

def Loop.start (shared : Shared) (autoGroupIndex : Option Nat) : Loop where
  shared := shared
  param := { autoGroupIndex := autoGroupIndex }
  channelMeta := false
  useChannel := []
  consecutiveDupes := 0
  newAPIError := none
  finished := false

/-! ## Before the loop -/

def isChannelEnabledForGroupModel (store : Store) (group model : String) (id : Int) : Bool :=
  let normalized := formatMatchingModelName model
  let listed (model : String) : Bool :=
    if !store.memoryCacheEnabled then
      (store.db.abilities.any fun a =>
          a.group = group ∧ a.model = model ∧ a.channelId = id ∧ a.enabled) &&
        ((store.db.channels.find? id).map Channel.status = some .enabled)
    else (store.cache.group2model2channels group model).contains id
  if group = "" ∨ model = "" ∨ id ≤ 0 then false
  else listed model || (normalized ≠ "" && normalized ≠ model && listed normalized)

structure Arrival where
  specific : Option Int := none
  preferred : Option Int := none

section

variable (cfg : Settings) (req : Request)

def preferredChannel (preferred : Option Int) : Except Unit (Option Channel) :=
  match preferred.bind (lookup cfg.store) with
  | none => .ok none
  | some ch =>
    if ch.status ≠ .enabled then
      if req.affinitySkipRetry then .error () else .ok none
    else
      let groups :=
        if req.tokenGroup = "auto" then getUserAutoGroup cfg req else [req.tokenGroup]
      .ok (if groups.any fun g =>
          isChannelEnabledForGroupModel cfg.store g req.modelName ch.id then some ch else none)

/-- The channel in the context, and the loop. That it has no key is not looked at. -/
def distribute (arrival : Arrival) (shared : Shared) : Option (Int × Loop) :=
  let leave (ch : Channel) (polling : Polling) (autoGroupIndex : Option Nat) :
      Option (Int × Loop) :=
    let keyIndex :=
      match setupContextForSelectedChannel cfg shared.keyIndex ch with
      | .error _ => shared.keyIndex
      | .ok keyIndex => keyIndex
    some (ch.id, .start ⟨polling, keyIndex⟩ autoGroupIndex)
  match arrival.specific with
  | some id =>
    match cfg.store.db.channels.find? id with
    | none => none
    | some ch => if ch.status ≠ .enabled then none else leave ch shared.polling none
  | none =>
    match preferredChannel cfg req arrival.preferred with
    | .error _ => none
    | .ok (some ch) => leave ch shared.polling none
    | .ok none =>
      let pick := cacheGetRandomSatisfiedChannel cfg req shared.polling {}
      match pick.result with
      | .ok (some ch) => leave ch pick.polling pick.param.autoGroupIndex
      | _ => none

end

/-! ## The loop is a search -/

def Loop.toVisit (s : Loop) : Visit Int := ⟨s.useChannel, s.consecutiveDupes, s.finished⟩

def Outcome.again (req : Request) : Outcome → Bool
  | .failed e => shouldRetry req e 0
  | _ => false

variable {cfg : Settings} {req : Request} {channelId : Int}

def offer (cfg : Settings) (req : Request) (channelId : Int) (outcome : Outcome) (s : Loop) :
    Offer Int :=
  match (getChannel cfg req channelId s).1 with
  | .error e => if isChannelError e then .skip else .stop
  | .ok id => .give id (outcome.again req)

theorem getChannel_frame (cfg : Settings) (req : Request) (channelId : Int) (s : Loop) :
    ∃ result shared param, getChannel cfg req channelId s =
      (result, { s with shared := shared, param := param }) := by
  unfold getChannel
  split
  · exact ⟨_, s.shared, s.param, rfl⟩
  simp only
  split
  · exact ⟨_, _, _, rfl⟩
  · exact ⟨_, _, _, rfl⟩
  · split <;> exact ⟨_, _, _, rfl⟩

inductive Iterates (cfg : Settings) (req : Request) (channelId : Int) (outcome : Outcome)
    (s : Loop) : Loop → Prop
  | finished (hDone : s.finished = true) : Iterates cfg req channelId outcome s s
  | channelError (shared : Shared) (param : RetryParam) (e : NewAPIError)
      (hRunning : s.finished = false)
      (hGet : getChannel cfg req channelId s =
        (.error e, { s with shared := shared, param := param }))
      (hError : isChannelError e = true) :
      Iterates cfg req channelId outcome s
        { s with shared := shared, param := param.increaseRetry }
  | noChannel (shared : Shared) (param : RetryParam) (e : NewAPIError)
      (hRunning : s.finished = false)
      (hGet : getChannel cfg req channelId s =
        (.error e, { s with shared := shared, param := param }))
      (hError : isChannelError e = false) :
      Iterates cfg req channelId outcome s
        { s with shared := shared, param := param, newAPIError := some e, finished := true }
  | giveUp (shared : Shared) (param : RetryParam) (id : Int) (hRunning : s.finished = false)
      (hGet : getChannel cfg req channelId s =
        (.ok id, { s with shared := shared, param := param }))
      (hOld : id ∈ s.useChannel) (hLimit : 3 ≤ s.consecutiveDupes + 1) :
      Iterates cfg req channelId outcome s
        { s with
          shared := shared, param := param, consecutiveDupes := s.consecutiveDupes + 1
          finished := true }
  | duplicate (shared : Shared) (param : RetryParam) (id : Int) (hRunning : s.finished = false)
      (hGet : getChannel cfg req channelId s =
        (.ok id, { s with shared := shared, param := param }))
      (hOld : id ∈ s.useChannel) (hLimit : ¬ 3 ≤ s.consecutiveDupes + 1) :
      Iterates cfg req channelId outcome s
        { s with
          shared := shared, param := param.increaseRetry
          consecutiveDupes := s.consecutiveDupes + 1 }
  | last (shared : Shared) (param : RetryParam) (id : Int) (channelMeta : Bool)
      (newAPIError : Option NewAPIError) (hRunning : s.finished = false)
      (hGet : getChannel cfg req channelId s =
        (.ok id, { s with shared := shared, param := param }))
      (hNew : id ∉ s.useChannel) (hAgain : outcome.again req = false) :
      Iterates cfg req channelId outcome s
        { shared := shared, param := param, channelMeta := channelMeta
          useChannel := s.useChannel ++ [id], consecutiveDupes := 0
          newAPIError := newAPIError, finished := true }
  | retry (shared : Shared) (param : RetryParam) (id : Int) (e : NewAPIError)
      (hRunning : s.finished = false)
      (hGet : getChannel cfg req channelId s =
        (.ok id, { s with shared := shared, param := param }))
      (hNew : id ∉ s.useChannel) (hAgain : outcome.again req = true) :
      Iterates cfg req channelId outcome s
        { shared := shared, param := param.increaseRetry, channelMeta := true
          useChannel := s.useChannel ++ [id], consecutiveDupes := 0
          newAPIError := some e, finished := s.finished }

theorem iterate_iterates (cfg : Settings) (req : Request) (channelId : Int) (outcome : Outcome)
    (s : Loop) :
    Iterates cfg req channelId outcome s (iterate cfg req channelId outcome s) := by
  unfold iterate
  split
  · next hRunning => exact .finished hRunning
  next hRunning =>
  replace hRunning : s.finished = false := by simpa using hRunning
  obtain ⟨result, shared, param, hGet⟩ := getChannel_frame cfg req channelId s
  rw [hGet]
  cases result with dsimp only
  | error e =>
    split
    · next hError => exact .channelError shared param e hRunning hGet hError
    · next hError => exact .noChannel shared param e hRunning hGet (by simpa using hError)
  | ok id =>
    split
    · next hOld =>
      split
      · next hLimit => exact .giveUp shared param id hRunning hGet hOld hLimit
      · next hLimit => exact .duplicate shared param id hRunning hGet hOld hLimit
    · next hOld =>
      cases outcome with
      | bodyFailed | answered => exact .last shared param id _ _ hRunning hGet hOld rfl
      | failed e =>
        have hRetry : ∀ k, shouldRetry req e k = (Outcome.failed e).again req := fun _ => rfl
        cases hAgain : (Outcome.failed e).again req with simp only [hRetry, hAgain]
        | true => exact .retry shared param id e hRunning hGet hOld hAgain
        | false => exact .last shared param id _ _ hRunning hGet hOld hAgain

theorem iterate_toVisit (cfg : Settings) (req : Request) (channelId : Int) (outcome : Outcome)
    (s : Loop) :
    (iterate cfg req channelId outcome s).toVisit =
      s.toVisit.step 3 (offer cfg req channelId outcome s) := by
  have hIterates := iterate_iterates cfg req channelId outcome s
  generalize iterate cfg req channelId outcome s = t at hIterates
  cases hIterates with
  | finished hDone => exact (Visit.step_of_stopped hDone _).symm
  | channelError shared param e hRunning hGet hError
  | noChannel shared param e hRunning hGet hError =>
    simp [Visit.step, Loop.toVisit, offer, hGet, hError]
  | giveUp shared param id hRunning hGet hOld hLimit
  | duplicate shared param id hRunning hGet hOld hLimit =>
    simp [Visit.step, Loop.toVisit, offer, hGet, hRunning, hOld, hLimit]
  | last shared param id channelMeta newAPIError hRunning hGet hNew hAgain
  | retry shared param id e hRunning hGet hNew hAgain =>
    simp [Visit.step, Loop.toVisit, offer, hGet, hRunning, hNew, hAgain]

/-! ## What is offered -/

section

variable (cfg : Settings) (req : Request)

def served (group : String) : Bool := !(cfg.store.candidates group req.modelName).isEmpty

def retryGroup (start : Nat) : Option String :=
  if req.tokenGroup = "auto" then ((getUserAutoGroup cfg req).drop start).find? (served cfg req)
  else if served cfg req req.tokenGroup then some req.tokenGroup
  else none

def retryCandidates (start : Nat) : List Channel :=
  match retryGroup cfg req start with
  | none => []
  | some group => cfg.store.candidates group req.modelName

/-- The token is for all groups and lets retries go on to the next one. -/
def Crosses : Prop := req.tokenGroup = "auto" ∧ req.crossGroupRetry = true

/-- Where a selection from `group` leaves the parameters. -/
def Moves (start : Nat) (group : String) (param param' : RetryParam) : Prop :=
  if req.tokenGroup = "auto" then
    ∃ j, start ≤ j ∧ ((getUserAutoGroup cfg req).drop j).find? (served cfg req) = some group ∧
      param' =
        if req.crossGroupRetry ∧
          ((if start < j then 0 else param.retry : Nat) : Int) ≥ cfg.retryTimes
        then ⟨0, true, some (j + 1)⟩
        else ⟨if start < j then 0 else param.retry, param.resetNextTry, some j⟩
  else param' = param

end

variable {group : String} {param : RetryParam} {s : Loop}

theorem candidates_ne_nil (h : served cfg req group = true) :
    cfg.store.candidates group req.modelName ≠ [] := by
  simpa [served] using h

theorem candidates_eq_nil (h : served cfg req group = false) :
    cfg.store.candidates group req.modelName = [] := by
  simpa [served] using h

theorem autoSelect_spec {start : Nat} (gs : List String) (i : Nat) (polling : Polling)
    (param : RetryParam) (hGroups : gs = (getUserAutoGroup cfg req).drop i) (hStart : start ≤ i)
    (hRetry : start < i → param.retry = 0) :
    (gs.find? (served cfg req) = none →
        (autoSelect cfg req start gs i polling param).result = .ok none) ∧
      ∀ group, gs.find? (served cfg req) = some group →
        ∃ ch j, (autoSelect cfg req start gs i polling param).result = .ok (some ch) ∧
          IsTurn (cfg.store.candidates group req.modelName) (polling group req.modelName) ch
            ((autoSelect cfg req start gs i polling param).polling group req.modelName) ∧
          i ≤ j ∧ ((getUserAutoGroup cfg req).drop j).find? (served cfg req) = some group ∧
          (autoSelect cfg req start gs i polling param).param =
            if req.crossGroupRetry ∧
              ((if start < j then 0 else param.retry : Nat) : Int) ≥ cfg.retryTimes
            then ⟨0, true, some (j + 1)⟩
            else ⟨if start < j then 0 else param.retry, param.resetNextTry, some j⟩ := by
  induction gs generalizing i polling param with
  | nil => exact ⟨fun _ => rfl, nofun⟩
  | cons g gs ih =>
    have hSelects := cfg.store.getRandomSatisfiedChannel_selects polling g req.modelName
      (if i > start then 0 else param.retry)
    cases hServed : served cfg req g with
    | true =>
      obtain ⟨ch, hResult, hTurn⟩ := hSelects.turn (candidates_ne_nil hServed)
      refine ⟨fun hNone => ?_, ?_⟩
      · rw [find?_cons_of_pos hServed] at hNone
        cases hNone
      rintro group hFind
      rw [find?_cons_of_pos hServed, Option.some_inj] at hFind
      subst hFind
      simp only [autoSelect]
      rcases hGet : cfg.store.getRandomSatisfiedChannel polling g req.modelName
        (if i > start then 0 else param.retry) with ⟨result, polling'⟩
      rw [hGet] at hResult hTurn
      subst hResult
      refine ⟨ch, i, rfl, hTurn, le_rfl, ?_, ?_⟩
      · rw [← hGroups, find?_cons_of_pos hServed]
      · by_cases hLater : start < i
        · simp [hRetry hLater]
        · simp [hLater]
    | false =>
      have hResult := hSelects.nothing (candidates_eq_nil hServed)
      have hRest : gs = (getUserAutoGroup cfg req).drop (i + 1) := by
        rw [← tail_drop, ← hGroups, tail_cons]
      obtain ⟨hNone, hSome⟩ := ih (i + 1) polling
        { param with retry := 0, autoGroupIndex := some (i + 1) } hRest (by omega) fun _ => rfl
      simp only [autoSelect, hResult, find?_cons_of_neg (by simpa using hServed)]
      refine ⟨hNone, fun group hFind => ?_⟩
      obtain ⟨ch, j, hPick, hTurn, hj, hDrop, hParam⟩ := hSome group hFind
      refine ⟨ch, j, hPick, hTurn, by omega, hDrop, hParam.trans ?_⟩
      simp [show start < j by omega]

theorem pick_nothing (polling : Polling)
    (h : retryGroup cfg req (param.autoGroupIndex.getD 0) = none) (ch : Channel) :
    (cacheGetRandomSatisfiedChannel cfg req polling param).result ≠ .ok (some ch) := by
  unfold retryGroup at h
  unfold cacheGetRandomSatisfiedChannel
  split at h
  · rename_i hAuto
    rw [if_pos hAuto]
    split
    · nofun
    · rw [(autoSelect_spec _ _ polling param rfl le_rfl fun hLt => absurd hLt (lt_irrefl _)).1 h]
      nofun
  · rename_i hAuto
    rw [if_neg hAuto]
    have hServed : served cfg req req.tokenGroup = false := by simpa using h
    rw [(cfg.store.getRandomSatisfiedChannel_selects polling req.tokenGroup req.modelName
      param.retry).nothing (candidates_eq_nil hServed)]
    nofun

theorem retryGroup_auto (hAuto : req.tokenGroup = "auto") (start : Nat) :
    retryGroup cfg req start =
      ((getUserAutoGroup cfg req).drop start).find? (served cfg req) := if_pos hAuto

theorem cacheGetRandomSatisfiedChannel_auto (hAuto : req.tokenGroup = "auto") (polling : Polling)
    (h : ((getUserAutoGroup cfg req).drop (param.autoGroupIndex.getD 0)).find? (served cfg req) =
      some group) :
    cacheGetRandomSatisfiedChannel cfg req polling param =
      autoSelect cfg req (param.autoGroupIndex.getD 0)
        ((getUserAutoGroup cfg req).drop (param.autoGroupIndex.getD 0))
        (param.autoGroupIndex.getD 0) polling param := by
  have hSome : ¬ cfg.autoGroups.length = 0 := by
    intro hNone
    have hNil : getUserAutoGroup cfg req = [] := by
      rw [getUserAutoGroup, length_eq_zero_iff.mp hNone, filter_nil]
    rw [hNil, drop_nil] at h
    cases h
  rw [cacheGetRandomSatisfiedChannel, if_pos hAuto, if_neg hSome]

theorem pick_turn (polling : Polling)
    (h : retryGroup cfg req (param.autoGroupIndex.getD 0) = some group) :
    ∃ ch, (cacheGetRandomSatisfiedChannel cfg req polling param).result = .ok (some ch) ∧
      IsTurn (cfg.store.candidates group req.modelName) (polling group req.modelName) ch
        ((cacheGetRandomSatisfiedChannel cfg req polling param).polling group req.modelName) ∧
      Moves cfg req (param.autoGroupIndex.getD 0) group param
        (cacheGetRandomSatisfiedChannel cfg req polling param).param := by
  by_cases hAuto : req.tokenGroup = "auto"
  · rw [retryGroup_auto hAuto] at h
    rw [cacheGetRandomSatisfiedChannel_auto hAuto polling h, Moves, if_pos hAuto]
    obtain ⟨ch, j, hResult, hTurn, hMoves⟩ := (autoSelect_spec _ _ polling param rfl le_rfl
      fun hLt => absurd hLt (lt_irrefl _)).2 group h
    exact ⟨ch, hResult, hTurn, j, hMoves⟩
  · rw [retryGroup, if_neg hAuto] at h
    rw [cacheGetRandomSatisfiedChannel, if_neg hAuto, Moves, if_neg hAuto]
    obtain ⟨hServed, hGroup⟩ := Option.ite_none_right_eq_some.mp h
    cases hGroup
    obtain ⟨ch, hResult, hTurn⟩ := (cfg.store.getRandomSatisfiedChannel_selects polling
      req.tokenGroup req.modelName param.retry).turn (candidates_ne_nil hServed)
    exact ⟨ch, hResult, hTurn, rfl⟩

theorem lookup_of_candidate {ch : Channel} (h : ch ∈ cfg.store.candidates group req.modelName) :
    lookup cfg.store ch.id = some ch := by
  have hEnabled := (Store.mem_candidates.mp h).2
  unfold lookup
  cases hMemory : cfg.store.memoryCacheEnabled with rw [hMemory] at hEnabled
  | true => simpa using hEnabled.2
  | false => simpa using hEnabled.1

theorem setup_candidate {ch : Channel} (h : ch ∈ cfg.store.candidates group req.modelName)
    (keyIndex : Int → Int) :
    (ch.HasKey cfg.unmarshal →
        ∃ keyIndex', setupContextForSelectedChannel cfg keyIndex ch = .ok keyIndex') ∧
      (¬ ch.HasKey cfg.unmarshal →
        ∃ text, setupContextForSelectedChannel cfg keyIndex ch = .error (noAvailableKey text)) := by
  have hInfo : cacheGetChannelInfo cfg.store keyIndex ch.id =
      .ok { ch.channelInfo with multiKeyPollingIndex := keyIndex ch.id } := by
    rw [cacheGetChannelInfo, lookup_of_candidate h]
  unfold setupContextForSelectedChannel
  rw [hInfo]
  constructor <;> intro hKey
  · obtain ⟨choice, hChoice⟩ := getNextEnabledKey_of_hasKey hKey (keyIndex ch.id)
    rw [hChoice]
    exact ⟨_, rfl⟩
  · obtain ⟨text, hError⟩ := getNextEnabledKey_of_not_hasKey hKey (keyIndex ch.id)
    rw [hError]
    exact ⟨text, rfl⟩

theorem offer_stop {outcome : Outcome} (hMeta : s.channelMeta = true)
    (h : retryGroup cfg req (s.param.autoGroupIndex.getD 0) = none) :
    offer cfg req channelId outcome s = .stop := by
  have hNothing := pick_nothing s.shared.polling h
  have hFailed : ∀ text, isChannelError (getChannelFailed text) = false := by
    have hPrefix : hasPrefix "get_channel_failed" "channel:" = false := by decide
    exact fun _ => hPrefix
  unfold offer getChannel
  rw [if_neg (by simp [hMeta])]
  rcases hResult : (cacheGetRandomSatisfiedChannel cfg req s.shared.polling s.param).result with
    text | _ | ch <;> simp [hResult, hFailed]
  · exact absurd hResult (hNothing ch)

/-- **What the loop is offered**: the channel whose turn it is, or nothing if that has no key. -/
theorem offer_turn (channelId : Int) (hMeta : s.channelMeta = true)
    (h : retryGroup cfg req (s.param.autoGroupIndex.getD 0) = some group) :
    ∃ ch, IsTurn (cfg.store.candidates group req.modelName) (s.shared.polling group req.modelName)
        ch ((getChannel cfg req channelId s).2.shared.polling group req.modelName) ∧
      Moves cfg req (s.param.autoGroupIndex.getD 0) group s.param
        (getChannel cfg req channelId s).2.param ∧
      ∀ outcome : Outcome, (ch.HasKey cfg.unmarshal →
            offer cfg req channelId outcome s = .give ch.id (outcome.again req)) ∧
          (¬ ch.HasKey cfg.unmarshal → offer cfg req channelId outcome s = .skip) := by
  obtain ⟨ch, hResult, hTurn, hMoves⟩ := pick_turn s.shared.polling h
  have hMem : ch ∈ cfg.store.candidates group req.modelName := mem_of_getElem? hTurn.1
  obtain ⟨hOk, hError⟩ := setup_candidate hMem s.shared.keyIndex
  refine ⟨ch, ?_⟩
  unfold offer getChannel
  rw [if_neg (by simp [hMeta])]
  simp only [hResult]
  by_cases hKey : ch.HasKey cfg.unmarshal
  · obtain ⟨keyIndex, hSetup⟩ := hOk hKey
    simp only [hSetup]
    exact ⟨hTurn, hMoves, fun _ => ⟨fun _ => trivial, fun hNot => absurd hKey hNot⟩⟩
  · obtain ⟨text, hSetup⟩ := hError hKey
    simp only [hSetup, isChannelError_noAvailableKey, if_true]
    exact ⟨hTurn, hMoves, fun _ => ⟨fun hYes => absurd hYes hKey, fun _ => trivial⟩⟩

theorem iterate_goes {outcome : Outcome}
    (h : (iterate cfg req channelId outcome s).finished = false) :
    (iterate cfg req channelId outcome s).shared = (getChannel cfg req channelId s).2.shared ∧
      (iterate cfg req channelId outcome s).param =
        (getChannel cfg req channelId s).2.param.increaseRetry ∧
      ((s.channelMeta = false → s.useChannel = []) →
        (iterate cfg req channelId outcome s).channelMeta = true) := by
  have hIterates := iterate_iterates cfg req channelId outcome s
  generalize iterate cfg req channelId outcome s = t at hIterates h
  cases hIterates with
  | finished hDone => exact absurd (hDone.symm.trans h) (by simp)
  | noChannel | giveUp | last => cases h
  | channelError shared param e hRunning hGet =>
    rw [hGet]
    refine ⟨rfl, rfl, fun _ => ?_⟩
    -- the channel of the context is always there
    by_contra hUnset
    rw [getChannel, if_pos (by simpa using hUnset)] at hGet
    cases hGet
  | duplicate shared param id hRunning hGet hOld =>
    rw [hGet]
    refine ⟨rfl, rfl, fun hFirst => ?_⟩
    by_contra hUnset
    exact ne_nil_of_mem hOld (hFirst (by simpa using hUnset))
  | retry shared param id e hRunning hGet =>
    rw [hGet]
    exact ⟨rfl, rfl, fun _ => rfl⟩

/-! ## What is attempted -/

/-- Enabled for the model, with a key, in a group that the request may use. -/
def Allowed (cfg : Settings) (req : Request) (id : Int) : Prop :=
  ∃ group ch, (if req.tokenGroup = "auto" then group ∈ getUserAutoGroup cfg req
      else group = req.tokenGroup) ∧
    cfg.store.Enabled group req.modelName ch ∧ ch.HasKey cfg.unmarshal ∧ ch.id = id

theorem retryGroup_allowed {cfg : Settings} {req : Request} {start : Nat} {group : String}
    (h : retryGroup cfg req start = some group) :
    if req.tokenGroup = "auto" then group ∈ getUserAutoGroup cfg req else group = req.tokenGroup := by
  unfold retryGroup at h
  split
  · rw [if_pos ‹_›] at h
    exact mem_of_mem_drop (mem_of_find?_eq_some h)
  · rw [if_neg ‹_›] at h
    split at h
    · exact (Option.some_inj.mp h).symm
    · cases h

theorem offer_allowed {cfg : Settings} {req : Request} {channelId id : Int} {outcome : Outcome}
    {s : Loop} {again : Bool} (h : offer cfg req channelId outcome s = .give id again) :
    id = channelId ∨ Allowed cfg req id := by
  by_cases hMeta : s.channelMeta = true
  · cases hGroup : retryGroup cfg req (s.param.autoGroupIndex.getD 0) with
    | none =>
      rw [offer_stop hMeta hGroup] at h
      cases h
    | some group =>
      obtain ⟨ch, hTurn, -, hOffer⟩ := offer_turn channelId hMeta hGroup
      by_cases hKey : ch.HasKey cfg.unmarshal
      · rw [(hOffer outcome).1 hKey] at h
        cases h
        exact .inr ⟨group, ch, retryGroup_allowed hGroup,
          Store.mem_candidates.mp (mem_of_getElem? hTurn.1), hKey, rfl⟩
      · rw [(hOffer outcome).2 hKey] at h
        cases h
  · rw [offer, getChannel, if_pos (by simpa using hMeta)] at h
    cases h
    exact .inl rfl

/-- **No channel is attempted twice, and only channels that the request may use**, whatever other
requests do in between. -/
theorem attempts_allowed (cfg : Settings) (req : Request) (channelId : Int) (turns : Nat → Turn)
    (shared : Shared) (autoGroupIndex : Option Nat) (i : Nat) :
    let s := run cfg req channelId turns (.start shared autoGroupIndex) i
    s.useChannel.Nodup ∧ ∀ id ∈ s.useChannel, id = channelId ∨ Allowed cfg req id := by
  induction i with
  | zero => exact ⟨nodup_nil, fun _ h => absurd h not_mem_nil⟩
  | succ i ih =>
    have hUsed := congrArg Visit.visited (iterate_toVisit cfg req channelId (turns i).outcome
      ((turns i).interfere cfg.store (run cfg req channelId turns (.start shared autoGroupIndex) i)))
    intro s
    change s.useChannel = _ at hUsed
    rw [hUsed]
    refine ⟨Visit.nodup_step ih.1 _, fun id hId => ?_⟩
    rcases Visit.mem_visited_step hId with hOld | ⟨again, hGive⟩
    · exact ih.2 id hOld
    · exact offer_allowed hGive

end NewApi.Relay
