import NewApi.Channels.Basic
import NewApi.Core.RoundRobin
import NewApi.Go.Sort

/-!
# Selecting a channel

`GetRandomSatisfiedChannel` and `GetChannel`. Despite the name nothing is random: a selection fails,
finds nothing, or is one turn of a round robin among `candidates`.
-/

namespace NewApi.Channels

open Core Go List Option

/-! ## The stores -/

/-- `group2model2channels` and `channelsIDM`: what is listed is cached. -/
structure ChannelCache where
  group2model2channels : String → String → List Int
  channelsIDM : Int → Option Channel
  id_eq : ∀ {id ch}, channelsIDM id = some ch → ch.id = id
  listed : ∀ {group model id}, id ∈ group2model2channels group model →
    (channelsIDM id).isSome

structure Ability where
  group : String
  model : String
  channelId : Int
  enabled : Bool
  priority : Option Int
  deriving DecidableEq

def Ability.key (a : Ability) : String × String × Int := (a.group, a.model, a.channelId)

structure ChannelDb where
  channels : Table Channel
  abilities : List Ability
  nodup : (abilities.map Ability.key).Nodup

/-- Where channels are looked up.  `orderBy` is the order in which the database returns rows. -/
structure Store where
  memoryCacheEnabled : Bool
  cache : ChannelCache
  db : ChannelDb
  orderBy : Sorting Ability

abbrev Polling := String → String → Nat

def Polling.set (polling : Polling) (group model : String) (idx : Nat) : Polling :=
  Function.update polling group (Function.update (polling group) model idx)

/-! ## Names of models -/

def handleThinkingBudgetModel (name start wildcard : String) : String :=
  if hasPrefix name start && contains name "-thinking-" then wildcard else name

def formatMatchingModelName (name : String) : String :=
  let name :=
    if hasPrefix name "gemini-2.5-flash-lite" then
      handleThinkingBudgetModel name "gemini-2.5-flash-lite" "gemini-2.5-flash-lite-thinking-*"
    else if hasPrefix name "gemini-2.5-flash" then
      handleThinkingBudgetModel name "gemini-2.5-flash" "gemini-2.5-flash-thinking-*"
    else if hasPrefix name "gemini-2.5-pro" then
      handleThinkingBudgetModel name "gemini-2.5-pro" "gemini-2.5-pro-thinking-*"
    else name
  let name := if hasPrefix name "gpt-4-gizmo" then "gpt-4-gizmo-*" else name
  if hasPrefix name "gpt-4o-gizmo" then "gpt-4o-gizmo-*" else name

/-! ## The memory cache -/

namespace ChannelCache

variable (cache : ChannelCache)

def channelsOf (group model : String) : List Int :=
  if (cache.group2model2channels group model).length = 0 then
    cache.group2model2channels group (formatMatchingModelName model)
  else cache.group2model2channels group model

def missing (id : Int) : String := s!"数据库一致性错误，渠道# {id} 不存在，请联系管理员修复"

/-- The loop that drops disabled channels and stops at one that is not cached. -/
def enabledChannels : List Int → Except String (List Channel)
  | [] => .ok []
  | id :: ids =>
    match cache.channelsIDM id with
    | none => .error (missing id)
    | some ch =>
      if ch.status ≠ .enabled then enabledChannels ids
      else (enabledChannels ids).map (ch :: ·)

def poll (channels : List Channel) : Nat → Nat → Option (Channel × Nat)
  | 0, _ => none
  | attempts + 1, idx =>
    match channels[idx]? with
    | none => none
    | some ch =>
      if (cache.channelsIDM ch.id).map Channel.status = some .enabled then
        some (ch, (idx + 1) % channels.length)
      else poll channels attempts ((idx + 1) % channels.length)

def byPriority (ch : Channel) : WithBot Int := ch.getPriority

def getRandomSatisfiedChannel (polling : Polling) (group model : String) (retry : Nat) :
    Except String (Option Channel) × Polling :=
  let channels := cache.channelsOf group model
  match channels with
  | [] => (.ok none, polling)
  | [id] =>
    match cache.channelsIDM id with
    | some ch => (.ok (if ch.status = .enabled then some ch else none), polling)
    | none => (.error (missing id), polling)
  | _ =>
    match cache.enabledChannels channels with
    | .error text => (.error text, polling)
    | .ok [] => (.ok none, polling)
    | .ok [ch] => (.ok (some ch), polling)
    | .ok enabledChannels =>
      let priorities := (enabledChannels.map Channel.getPriority).dedup.insertionSort (· ≥ ·)
      let retry := if retry ≥ priorities.length then priorities.length - 1 else retry
      let targetPriority := priorities.getD retry 0
      match cache.enabledChannels channels with
      | .error text => (.error text, polling)
      | .ok pollingChannels =>
        let pollingChannels := stable byPriority pollingChannels
        if pollingChannels.length = 0 then
          (.error s!"no channel found, group: {group}, model: {model}, priority: {targetPriority}",
            polling)
        else
          let idx := place pollingChannels.length (polling group model)
          match cache.poll pollingChannels pollingChannels.length idx with
          | some (ch, next) => (.ok (some ch), polling.set group model next)
          | none => (.error "channel not found", polling)

end ChannelCache

/-! ## The database -/

def ChannelDb.channelOf (db : ChannelDb) (a : Ability) : Option Channel :=
  match db.channels.find? a.channelId with
  | none => none
  | some ch => if ch.status ≠ .enabled then none else some ch

def ChannelDb.query (db : ChannelDb) (group model : String) : List Ability :=
  db.abilities.filter fun a => a.group = group ∧ a.model = model ∧ a.enabled

def Store.getChannel (s : Store) (polling : Polling) (group model : String) (_retry : Nat) :
    Except String (Option Channel) × Polling :=
  let abilities := s.orderBy.sort (fun a => a.priority) (s.db.query group model)
  if abilities.length = 0 then (.ok none, polling)
  else
    let pollingChannels := abilities.filterMap s.db.channelOf
    if pollingChannels.length = 0 then (.ok none, polling)
    else
      let idx := place pollingChannels.length (polling group model)
      (.ok pollingChannels[idx]?, polling.set group model ((idx + 1) % pollingChannels.length))

def Store.getRandomSatisfiedChannel (s : Store) (polling : Polling) (group model : String)
    (retry : Nat) : Except String (Option Channel) × Polling :=
  if !s.memoryCacheEnabled then s.getChannel polling group model retry
  else s.cache.getRandomSatisfiedChannel polling group model retry

/-! ## Candidates -/

variable {ids : List Int} {ch : Channel}

namespace ChannelCache

variable (cache : ChannelCache)

theorem mem_channelsOf {group model : String} {id : Int} (h : id ∈ cache.channelsOf group model) :
    (cache.channelsIDM id).isSome := by
  unfold channelsOf at h
  split at h <;> exact cache.listed h

def enabledOf (ids : List Int) : List Channel :=
  ids.filterMap fun id => (cache.channelsIDM id).filter fun ch => ch.status = .enabled

variable {cache}

theorem mem_enabledOf :
    ch ∈ cache.enabledOf ids ↔
      ch.id ∈ ids ∧ cache.channelsIDM ch.id = some ch ∧ ch.status = .enabled := by
  simp only [enabledOf, mem_filterMap, filter_eq_some_iff, decide_eq_true_eq]
  constructor
  · rintro ⟨id, hMem, hFind, hEnabled⟩
    rw [cache.id_eq hFind]
    exact ⟨hMem, hFind, hEnabled⟩
  · rintro ⟨hMem, hFind, hEnabled⟩
    exact ⟨ch.id, hMem, hFind, hEnabled⟩

theorem nodup_enabledOf (h : ids.Nodup) : (cache.enabledOf ids).Nodup := by
  refine h.filterMap ?_
  intro id id' ch hId hId'
  rw [mem_def, filter_eq_some_iff] at hId hId'
  rw [← cache.id_eq hId.1, ← cache.id_eq hId'.1]

theorem enabledChannels_eq (h : ∀ id ∈ ids, (cache.channelsIDM id).isSome) :
    cache.enabledChannels ids = .ok (cache.enabledOf ids) := by
  induction ids with
  | nil => rfl
  | cons id ids ih =>
    obtain ⟨hHead, hTail⟩ := forall_mem_cons.mp h
    obtain ⟨ch, hFind⟩ := Option.isSome_iff_exists.mp hHead
    simp only [enabledChannels, hFind, ih hTail, enabledOf, filterMap_cons, Option.filter]
    by_cases hEnabled : ch.status = .enabled <;> simp [hEnabled, Except.map]

/-- **The inner loop never skips**: the first channel it looks at is enabled. -/
theorem poll_eq {channels : List Channel} {idx : Nat} (hIdx : idx < channels.length)
    (h : ∀ ch ∈ channels, cache.channelsIDM ch.id = some ch ∧ ch.status = .enabled) :
    cache.poll channels channels.length idx =
      some (channels[idx], (idx + 1) % channels.length) := by
  obtain ⟨attempts, hAttempts⟩ := Nat.exists_eq_succ_of_ne_zero (by omega : channels.length ≠ 0)
  obtain ⟨hFind, hEnabled⟩ := h channels[idx] (getElem_mem hIdx)
  rw [show cache.poll channels channels.length idx = cache.poll channels (attempts + 1) idx by
    rw [hAttempts]]
  simp only [poll, getElem?_eq_getElem hIdx, hFind, map_some, hEnabled, if_true]

end ChannelCache

def Store.candidates (s : Store) (group model : String) : List Channel :=
  if !s.memoryCacheEnabled then
    (s.orderBy.sort (fun a => a.priority) (s.db.query group model)).filterMap s.db.channelOf
  else stable ChannelCache.byPriority (s.cache.enabledOf (s.cache.channelsOf group model))

/-- **What a selection does**: nothing among no candidates, and one turn otherwise. -/
structure Selects (xs : List Channel) (polling : Polling) (group model : String)
    (result : Except String (Option Channel) × Polling) : Prop where
  nothing : xs = [] → result = (.ok none, polling)
  turn : xs ≠ [] → ∃ ch, result.1 = .ok (some ch) ∧
    IsTurn xs (polling group model) ch (result.2 group model)
  others : ∀ g m, ¬ (g = group ∧ m = model) → result.2 g m = polling g m

variable (polling : Polling)

theorem Polling.set_self (group model : String) (idx : Nat) :
    polling.set group model idx group model = idx := by
  simp [Polling.set]

theorem Polling.set_other {group model g m : String} (idx : Nat) (h : ¬ (g = group ∧ m = model)) :
    polling.set group model idx g m = polling g m := by
  unfold Polling.set
  by_cases hGroup : g = group
  · subst hGroup
    rw [Function.update_self, Function.update_of_ne fun hModel => h ⟨rfl, hModel⟩]
  · rw [Function.update_of_ne hGroup]

variable {polling : Polling} {group model : String}

theorem Selects.of_nil : Selects [] polling group model (.ok none, polling) :=
  ⟨fun _ => rfl, fun h => absurd rfl h, fun _ _ _ => rfl⟩

theorem Selects.of_singleton (ch : Channel) :
    Selects [ch] polling group model (.ok (some ch), polling) :=
  ⟨fun h => absurd h (cons_ne_nil _ _), fun _ => ⟨ch, rfl, isTurn_singleton ..⟩, fun _ _ _ => rfl⟩

theorem Selects.of_set {xs : List Channel}
    (hTurn : xs[place xs.length (polling group model)]? = some ch) :
    Selects xs polling group model (.ok (some ch), polling.set group model
      ((place xs.length (polling group model) + 1) % xs.length)) := by
  have hPos : 0 < xs.length := by
    have hLt := (List.getElem?_eq_some_iff.mp hTurn).1
    omega
  refine ⟨?_, fun _ => ⟨ch, rfl, hTurn, ?_⟩, fun _ _ h => Polling.set_other _ _ h⟩
  · rintro rfl
    cases hTurn
  · change place _ (polling.set group model _ group model) = _
    rw [Polling.set_self, place_of_lt (Nat.mod_lt _ hPos)]

variable (s : Store)

theorem getChannel_selects (polling : Polling) (group model : String) (retry : Nat) :
    Selects ((s.orderBy.sort (fun a => a.priority) (s.db.query group model)).filterMap
      s.db.channelOf) polling group model (s.getChannel polling group model retry) := by
  simp only [Store.getChannel]
  split
  · rename_i hNone
    rw [length_eq_zero_iff.mp hNone]
    exact .of_nil
  split
  · rename_i hNone
    rw [length_eq_zero_iff.mp hNone]
    exact .of_nil
  rename_i hSome
  have hPlace := place_lt (Nat.pos_of_ne_zero hSome) (polling group model)
  rw [getElem?_eq_getElem hPlace]
  exact .of_set (getElem?_eq_getElem hPlace)

theorem ChannelCache.getRandomSatisfiedChannel_selects (cache : ChannelCache) (polling : Polling)
    (group model : String) (retry : Nat) :
    Selects (stable byPriority (cache.enabledOf (cache.channelsOf group model))) polling
      group model (cache.getRandomSatisfiedChannel polling group model retry) := by
  have hCached : ∀ id ∈ cache.channelsOf group model, (cache.channelsIDM id).isSome :=
    fun id => cache.mem_channelsOf
  have hEnabled := enabledChannels_eq hCached
  have hMem : ∀ ch ∈ cache.enabledOf (cache.channelsOf group model),
      cache.channelsIDM ch.id = some ch ∧ ch.status = .enabled :=
    fun ch h => (mem_enabledOf.mp h).2
  simp only [getRandomSatisfiedChannel]
  generalize cache.channelsOf group model = ids at *
  match ids with
  | [] => exact .of_nil
  | [id] =>
    obtain ⟨ch, hFind⟩ := Option.isSome_iff_exists.mp (hCached id mem_cons_self)
    by_cases hStatus : ch.status = .enabled
    · simp only [enabledOf, filterMap_cons, filterMap_nil, hFind, Option.filter, hStatus,
        decide_true, if_true]
      exact .of_singleton ch
    · simp only [enabledOf, filterMap_cons, filterMap_nil, hFind, Option.filter, hStatus,
        decide_false, if_false, Bool.false_eq_true]
      exact .of_nil
  | id :: id' :: ids =>
    simp only [hEnabled]
    generalize cache.enabledOf (id :: id' :: ids) = xs at *
    match xs with
    | [] => exact .of_nil
    | [ch] => exact .of_singleton ch
    | ch :: ch' :: xs =>
      have hSorted := stable_perm byPriority (ch :: ch' :: xs)
      have hPos : 0 < (stable byPriority (ch :: ch' :: xs)).length := by
        rw [hSorted.length_eq]
        exact Nat.succ_pos _
      have hPlace := place_lt hPos (polling group model)
      have hAll : ∀ x ∈ stable byPriority (ch :: ch' :: xs),
          cache.channelsIDM x.id = some x ∧ x.status = .enabled :=
        fun x hx => hMem x (hSorted.mem_iff.mp hx)
      simp only [if_neg hPos.ne', poll_eq hPlace hAll]
      exact .of_set (getElem?_eq_getElem hPlace)

theorem Store.getRandomSatisfiedChannel_selects (polling : Polling) (group model : String)
    (retry : Nat) :
    Selects (s.candidates group model) polling group model
      (s.getRandomSatisfiedChannel polling group model retry) := by
  unfold Store.candidates Store.getRandomSatisfiedChannel
  split
  · exact getChannel_selects s polling group model retry
  · exact s.cache.getRandomSatisfiedChannel_selects polling group model retry

/-! ## Runs of selections -/

structure Selection where
  group : String
  model : String
  retry : Nat
  deriving DecidableEq

def Store.selections (s : Store) : Polling → List Selection →
    List (Selection × Except String (Option Channel))
  | _, [] => []
  | polling, q :: qs =>
    let result := s.getRandomSatisfiedChannel polling q.group q.model q.retry
    (q, result.1) :: s.selections result.2 qs

def Selection.On (group model : String) (q : Selection) : Prop := q.group = group ∧ q.model = model

instance (group model : String) : DecidablePred (Selection.On group model) :=
  fun _ => inferInstanceAs (Decidable (_ ∧ _))

def Store.answers (s : Store) (polling : Polling) (group model : String) (qs : List Selection) :
    List (Except String (Option Channel)) :=
  ((s.selections polling qs).filter fun x => x.1.On group model).map Prod.snd

/-- **A run of selections is a run of turns**, whatever other groups and models are selected in
between. -/
theorem Store.answers_eq_turns (hSome : s.candidates group model ≠ []) (qs : List Selection)
    (polling : Polling) :
    s.answers polling group model qs =
      (turns (s.candidates group model)
        (place (s.candidates group model).length (polling group model))
        (qs.countP fun q => q.On group model)).map fun ch => .ok (some ch) := by
  induction qs generalizing polling with
  | nil => rfl
  | cons q qs ih =>
    have hSelects := s.getRandomSatisfiedChannel_selects polling q.group q.model q.retry
    have hNext := ih (s.getRandomSatisfiedChannel polling q.group q.model q.retry).2
    simp only [Store.answers, Store.selections] at hNext ⊢
    by_cases hOn : q.On group model
    · obtain ⟨rfl, rfl⟩ := id hOn
      obtain ⟨ch, hResult, hTurn⟩ := hSelects.turn hSome
      rw [filter_cons_of_pos (by simpa using hOn), countP_cons_of_pos (by simpa using hOn),
        hTurn.turns_succ, map_cons,
        map_cons, hNext, hResult]
    · rw [filter_cons_of_neg (by simpa using hOn), countP_cons_of_neg (by simpa using hOn), hNext,
        hSelects.others group model fun h => hOn ⟨h.1.symm, h.2.symm⟩]

/-! ## Each channel once -/

/-- The channel can be found for the group and model, in the cache or in the tables, and is enabled.
-/
def Store.Enabled (s : Store) (group model : String) (ch : Channel) : Prop :=
  ch.status = .enabled ∧
    if s.memoryCacheEnabled then
      ch.id ∈ s.cache.channelsOf group model ∧ s.cache.channelsIDM ch.id = some ch
    else
      s.db.channels.find? ch.id = some ch ∧
        ∃ a ∈ s.db.abilities, a.group = group ∧ a.model = model ∧ a.enabled ∧ a.channelId = ch.id

theorem ChannelDb.mem_query {db : ChannelDb} {a : Ability} :
    a ∈ db.query group model ↔
      a ∈ db.abilities ∧ a.group = group ∧ a.model = model ∧ a.enabled := by
  simp [ChannelDb.query]

theorem ChannelDb.channelOf_eq_some {db : ChannelDb} {a : Ability} :
    db.channelOf a = some ch ↔
      db.channels.find? a.channelId = some ch ∧ ch.status = .enabled := by
  unfold ChannelDb.channelOf
  split
  · rename_i hNone
    simp [hNone]
  rename_i x hFind
  rw [hFind, ite_none_left_eq_some, some_inj, not_not]
  constructor
  · rintro ⟨hEnabled, rfl⟩
    exact ⟨rfl, hEnabled⟩
  · rintro ⟨rfl, hEnabled⟩
    exact ⟨hEnabled, rfl⟩

theorem Store.mem_candidates {s : Store} :
    ch ∈ s.candidates group model ↔ s.Enabled group model ch := by
  unfold Store.candidates Store.Enabled
  cases s.memoryCacheEnabled with
  | true =>
    have hSorted := stable_perm ChannelCache.byPriority
      (s.cache.enabledOf (s.cache.channelsOf group model))
    simp only [Bool.not_true, Bool.false_eq_true, if_false, if_true, hSorted.mem_iff,
      ChannelCache.mem_enabledOf]
    tauto
  | false =>
    have hSorted := s.orderBy.perm (fun a => a.priority) (s.db.query group model)
    simp only [Bool.not_false, Bool.false_eq_true, if_false, if_true, mem_filterMap,
      hSorted.mem_iff, ChannelDb.mem_query, ChannelDb.channelOf_eq_some]
    constructor
    · rintro ⟨a, ⟨hMem, hGroup, hModel, hOn⟩, hFind, hEnabled⟩
      have hId : ch.id = a.channelId := (Table.find?_eq_some.mp hFind).2
      exact ⟨hEnabled, hId ▸ hFind, a, hMem, hGroup, hModel, hOn, hId.symm⟩
    · rintro ⟨hEnabled, hFind, a, hMem, hGroup, hModel, hOn, hId⟩
      exact ⟨a, ⟨hMem, hGroup, hModel, hOn⟩, hId ▸ hFind, hEnabled⟩

theorem ChannelDb.nodup_query (db : ChannelDb) (group model : String) :
    ((db.query group model).map Ability.channelId).Nodup := by
  have hKeys : ((db.query group model).map Ability.key).Nodup :=
    db.nodup.sublist (filter_sublist.map _)
  refine (nodup_map_iff_inj_on (List.Nodup.of_map _ hKeys)).mpr ?_
  intro a ha b hb hId
  obtain ⟨-, hGroup, hModel, -⟩ := mem_query.mp ha
  obtain ⟨-, hGroup', hModel', -⟩ := mem_query.mp hb
  refine inj_on_of_nodup_map hKeys ha hb ?_
  simp only [Ability.key, hGroup, hGroup', hModel, hModel', hId]

theorem Store.nodup_candidates {s : Store}
    (hList : s.memoryCacheEnabled = true → (s.cache.channelsOf group model).Nodup) :
    (s.candidates group model).Nodup := by
  unfold Store.candidates
  cases hMemory : s.memoryCacheEnabled with
  | true => exact (stable_perm _ _).nodup_iff.mpr (ChannelCache.nodup_enabledOf (hList hMemory))
  | false =>
    have hSorted := (s.orderBy.perm (fun a => a.priority) (s.db.query group model)).map
      Ability.channelId
    have hIds := hSorted.nodup_iff.mpr (s.db.nodup_query group model)
    refine (pairwise_map.mp hIds).filterMap s.db.channelOf ?_
    intro a b hne ch hch ch' hch' hEq
    obtain ⟨hFind, -⟩ := ChannelDb.channelOf_eq_some.mp hch
    obtain ⟨hFind', -⟩ := ChannelDb.channelOf_eq_some.mp hch'
    have hId : ch.id = a.channelId := (Table.find?_eq_some.mp hFind).2
    have hId' : ch'.id = b.channelId := (Table.find?_eq_some.mp hFind').2
    exact hne (by rw [← hId, ← hId', hEq])

/-- **As many selections as there are enabled channels return each of them once.** -/
theorem each_enabled_once {s : Store} {enabled : List Channel}
    (hList : s.memoryCacheEnabled = true → (s.cache.channelsOf group model).Nodup)
    (hNodup : enabled.Nodup) (hMem : ∀ ch, ch ∈ enabled ↔ s.Enabled group model ch)
    (hPos : 1 ≤ enabled.length) (polling : Polling) (qs : List Selection)
    (hCount : (qs.countP fun q => q.On group model) = enabled.length) :
    (s.answers polling group model qs).Perm (enabled.map fun ch => .ok (some ch)) := by
  have hPerm : (s.candidates group model).Perm enabled :=
    (perm_ext_iff_of_nodup (Store.nodup_candidates hList) hNodup).mpr fun ch =>
      Store.mem_candidates.trans (hMem ch).symm
  have hLength := hPerm.length_eq
  have hSome : s.candidates group model ≠ [] := ne_nil_of_length_pos (by omega)
  have hPlace := place_lt (by omega : 0 < (s.candidates group model).length)
    (polling group model)
  rw [s.answers_eq_turns hSome, hCount, ← hLength, turns_length hPlace]
  exact ((rotate_perm _ _).trans hPerm).map _

def demoChannel (id : Int) (status : ChannelStatus) (priority : Int) : Channel where
  id := id
  key := "sk"
  status := status
  models := "gpt-test"
  group := "default"
  priority := some priority

def demoCache (channels : List Channel) : ChannelCache where
  group2model2channels _ _ := channels.map Channel.id
  channelsIDM id := channels.find? fun ch => ch.id = id
  id_eq h := by simpa using List.find?_some h
  listed h := by
    obtain ⟨ch, hMem, rfl⟩ := List.mem_map.mp h
    rw [List.find?_isSome]
    exact ⟨ch, hMem, by simp⟩

def demoStore (channels : List Channel) : Store where
  memoryCacheEnabled := true
  cache := demoCache channels
  db := ⟨Table.empty, [], List.nodup_nil⟩
  orderBy := Sorting.ofStable

/-- Two enabled channels with a disabled one between them, and a request for another model. -/
theorem two_of_three_selected :
    let s := demoStore [demoChannel 101 .enabled 0, demoChannel 103 .autoDisabled 5,
      demoChannel 102 .enabled 1]
    (s.answers (fun _ _ => 7) "default" "gpt-test"
      [⟨"default", "gpt-test", 3⟩, ⟨"vip", "gpt-test", 0⟩, ⟨"default", "gpt-test", 0⟩]).Perm
        ([demoChannel 101 .enabled 0, demoChannel 102 .enabled 1].map fun ch =>
          .ok (some ch)) := by
  intro s
  have hCandidates : s.candidates "default" "gpt-test" =
      [demoChannel 102 .enabled 1, demoChannel 101 .enabled 0] := rfl
  refine each_enabled_once ?_ ?_ ?_ ?_ _ _ ?_
  · exact fun _ => by decide
  · simp [demoChannel]
  · intro ch
    rw [← Store.mem_candidates, hCandidates]
    simp [or_comm]
  · decide
  · decide

section

open Classical

/-- **Enabled channels get equal shares of the selections**, up to one. -/
theorem shares_even {s : Store} {a b : Channel}
    (hList : s.memoryCacheEnabled = true → (s.cache.channelsOf group model).Nodup)
    (ha : s.Enabled group model a) (hb : s.Enabled group model b) (polling : Polling)
    (qs : List Selection) :
    (s.answers polling group model qs).count (.ok (some a)) ≤
      (s.answers polling group model qs).count (.ok (some b)) + 1 := by
  have hMem := Store.mem_candidates.mpr ha
  have hInj : Function.Injective fun ch => (.ok (some ch) : Except String (Option Channel)) :=
    fun _ _ h => Option.some.inj (Except.ok.inj h)
  rw [s.answers_eq_turns (ne_nil_of_mem hMem), count_map_of_injective _ _ hInj,
    count_map_of_injective _ _ hInj]
  exact count_turns_le (Store.nodup_candidates hList)
    (place_lt (length_pos_of_mem hMem) (polling group model)) hMem (Store.mem_candidates.mpr hb) _

theorem shares_even_two :
    let s := demoStore [demoChannel 101 .enabled 0, demoChannel 102 .enabled 1]
    let qs := List.replicate 3 ⟨"default", "gpt-test", 0⟩
    (s.answers (fun _ _ => 7) "default" "gpt-test" qs).count
        (.ok (some (demoChannel 101 .enabled 0))) ≤
      (s.answers (fun _ _ => 7) "default" "gpt-test" qs).count
        (.ok (some (demoChannel 102 .enabled 1))) + 1 :=
  shares_even (fun _ => by decide) (Store.mem_candidates.mp (.tail _ (.head _)))
    (Store.mem_candidates.mp (.head _)) _ _

end

end NewApi.Channels
