import NewApi.Channels.Keys
import NewApi.Core.Run

/-!
# Key statuses in the cache and in the database

`UpdateChannelStatus` writes the status of a key to the cached channel and then to the row, unless
the row's channel has the requested status already.
-/

namespace NewApi.Channels

open Core Go Option Function Channel

/-! ## The function -/

/-- The cached channel is changed in place; the index is not looked at. -/
def ChannelCache.assign (cache : ChannelCache) (ch : Channel) : ChannelCache where
  group2model2channels := cache.group2model2channels
  channelsIDM := Function.update cache.channelsIDM ch.id (some ch)
  id_eq := @ChannelCache.id_eq_update cache ch
  listed := by
    intro group model id h
    by_cases hId : id = ch.id
    · rw [hId, Function.update_self]
      rfl
    · rw [Function.update_of_ne hId]
      exact cache.listed h

section Function

variable (unmarshal : Unmarshal) (sorting : Sorting Int)

/-- `UpdateChannelStatus` on the cache; `none` where it returns at once. -/
def ChannelCache.updateChannelStatus (cache : ChannelCache) (c : StatusCall) :
    Option ChannelCache :=
  match cache.channelsIDM c.channelId with
  | none => none
  | some ch =>
    if ch.channelInfo.isMultiKey then
      let updated := ch.handlerMultiKeyUpdate unmarshal c
      if ch.status ≠ updated.status then
        some ((cache.assign updated).cacheUpdateChannel unmarshal sorting updated)
      else some (cache.assign updated)
    else if ch.status = c.status then none
    else some (cache.cacheUpdateChannelStatus sorting c.channelId c.status)

def ChannelTables.updateChannelStatus (t : ChannelTables) (c : StatusCall) :
    ChannelTables × Bool :=
  match t.channels.find? c.channelId with
  | none => (t, false)
  | some row =>
    if row.status = c.status then (t, false)
    else if row.channelInfo.isMultiKey then
      let changed := row.status ≠ (row.loaded.handlerMultiKeyUpdate unmarshal c).status
      (t.revise c.channelId (fun ch => ch.loaded.handlerMultiKeyUpdate unmarshal c)
        (fun ch => ⟨ch.loaded.id_handlerMultiKeyUpdate unmarshal c,
          ch.loaded.group_handlerMultiKeyUpdate unmarshal c⟩)
        (fun a => if changed then { a with enabled := c.status = .enabled } else a)
        fun a => by split <;> rfl, true)
    else (t.updateChannelStatusById c.channelId c.status, true)

def Node.updateChannelStatus (memoryCacheEnabled : Bool) (s : Node) (c : StatusCall) :
    Node × Bool :=
  match (if memoryCacheEnabled then s.cache.updateChannelStatus unmarshal sorting c
    else some s.cache) with
  | none => (s, false)
  | some cache =>
    let written := s.tables.updateChannelStatus unmarshal c
    (⟨written.1, cache⟩, written.2)

end Function

/-! ## What it does to the two copies -/

namespace Node

variable (unmarshal : Unmarshal) (sorting : Sorting Int)

def cachedView (s : Node) (id : Int) : Option KeyView :=
  (s.cache.channelsIDM id).map fun ch => ch.view unmarshal

def storedView (s : Node) (id : Int) : Option KeyView :=
  (s.tables.channels.find? id).map fun row => row.loaded.view unmarshal

def switch (s : Node) (c : StatusCall) : Node :=
  (s.updateChannelStatus unmarshal sorting true c).1

end Node

variable {unmarshal : Unmarshal} {sorting : Sorting Int}

variable {c : StatusCall}

theorem ChannelCache.updateChannelStatus_of_ne {cache after : ChannelCache}
    (h : cache.updateChannelStatus unmarshal sorting c = some after) {id : Int}
    (hne : id ≠ c.channelId) : after.channelsIDM id = cache.channelsIDM id := by
  unfold updateChannelStatus at h
  split at h
  · cases h
  rename_i ch hFind
  rw [← cache.id_eq hFind] at hne
  have hne' : id ≠ (ch.handlerMultiKeyUpdate unmarshal c).id := by simpa using hne
  split at h
  · dsimp only at h
    split at h <;> rw [← some.inj h]
    · exact (update_of_ne (by simpa using hne) _ _).trans
        (update_of_ne hne' _ _)
    · exact update_of_ne hne' _ _
  · split at h
    · cases h
    · rw [← some.inj h, cacheUpdateChannelStatus, hFind]
      exact update_of_ne hne _ _

theorem ChannelCache.view_updateChannelStatus (unmarshal : Unmarshal) (sorting : Sorting Int)
    {cache : ChannelCache} {ch : Channel} (hFind : cache.channelsIDM c.channelId = some ch)
    (hMulti : ch.channelInfo.isMultiKey = true) :
    ∃ after, cache.updateChannelStatus unmarshal sorting c = some after ∧
      (after.channelsIDM c.channelId).map (fun ch => ch.view unmarshal) =
        some ((ch.view unmarshal).update c) := by
  have hId : (ch.handlerMultiKeyUpdate unmarshal c).id = c.channelId :=
    (ch.id_handlerMultiKeyUpdate unmarshal c).trans (cache.id_eq hFind)
  unfold updateChannelStatus
  rw [hFind]
  dsimp only
  rw [if_pos hMulti]
  split <;> refine ⟨_, rfl, ?_⟩
  · rw [cacheUpdateChannel, reindex]
    dsimp only
    rw [id_cached, hId, update_self, map_some, view_cached, view_handlerMultiKeyUpdate]
  · rw [assign]
    dsimp only
    rw [hId, update_self, map_some, view_handlerMultiKeyUpdate]

theorem ChannelTables.updateChannelStatus_of_ne (t : ChannelTables) {id : Int}
    (hne : id ≠ c.channelId) :
    (t.updateChannelStatus unmarshal c).1.channels.find? id = t.channels.find? id := by
  unfold updateChannelStatus
  split
  · rfl
  rename_i row hFind
  split
  · rfl
  split
  · dsimp only
    rw [find?_revise, if_neg hne]
  · have hId : row.id = c.channelId := (Table.find?_eq_some.mp hFind).2
    refine ((writes_updateChannelStatusById hFind c.status).2 id).trans (if_neg ?_)
    rwa [← hId] at hne

theorem ChannelTables.find?_updateChannelStatus {t : ChannelTables} {row : Channel}
    (hFind : t.channels.find? c.channelId = some row) (hMulti : row.channelInfo.isMultiKey = true) :
    (t.updateChannelStatus unmarshal c).1.channels.find? c.channelId =
      some (if row.status = c.status then row
        else row.loaded.handlerMultiKeyUpdate unmarshal c) := by
  unfold updateChannelStatus
  rw [hFind]
  dsimp only
  by_cases hSame : row.status = c.status
  · rw [if_pos hSame, if_pos hSame]
    exact hFind
  rw [if_neg hSame, if_neg hSame, if_pos hMulti]
  dsimp only
  rw [find?_revise, if_pos rfl, hFind]
  rfl

variable (list : Sparse ChannelStatus)

namespace Node

variable {s : Node} {id : Int} {v w : KeyView} {c : StatusCall}

theorem switch_of_cached (unmarshal : Unmarshal) (sorting : Sorting Int) {ch : Channel}
    (h : s.cache.channelsIDM c.channelId = some ch) (hMulti : ch.channelInfo.isMultiKey = true) :
    ∃ cache, s.switch unmarshal sorting c =
        ⟨(s.tables.updateChannelStatus unmarshal c).1, cache⟩ ∧
      (cache.channelsIDM c.channelId).map (fun ch => ch.view unmarshal) =
        some ((ch.view unmarshal).update c) := by
  obtain ⟨cache, hCache, hView⟩ := ChannelCache.view_updateChannelStatus unmarshal sorting h hMulti
  refine ⟨cache, ?_, hView⟩
  unfold switch updateChannelStatus
  rw [if_pos rfl, hCache]

theorem cachedView_switch_of_ne (hne : id ≠ c.channelId) :
    (s.switch unmarshal sorting c).cachedView unmarshal id = s.cachedView unmarshal id := by
  unfold switch updateChannelStatus
  rw [if_pos rfl]
  split
  · rfl
  · rename_i cache hCache
    exact congrArg (Option.map _) (ChannelCache.updateChannelStatus_of_ne hCache hne)

theorem storedView_switch_of_ne (hne : id ≠ c.channelId) :
    (s.switch unmarshal sorting c).storedView unmarshal id = s.storedView unmarshal id := by
  unfold switch updateChannelStatus
  rw [if_pos rfl]
  split
  · rfl
  · exact congrArg (Option.map _) (ChannelTables.updateChannelStatus_of_ne _ hne)

theorem cachedView_switch (hCached : s.cachedView unmarshal c.channelId = some v)
    (hMulti : v.isMultiKey = true) :
    (s.switch unmarshal sorting c).cachedView unmarshal c.channelId = some (v.update c) := by
  obtain ⟨ch, hFind, rfl⟩ := map_eq_some_iff.mp hCached
  obtain ⟨cache, hSwitch, hView⟩ := switch_of_cached unmarshal sorting hFind hMulti
  rw [hSwitch]
  exact hView

theorem storedView_switch (hCached : s.cachedView unmarshal c.channelId = some v)
    (hMulti : v.isMultiKey = true) (hStored : s.storedView unmarshal c.channelId = some w)
    (hMulti' : w.isMultiKey = true) :
    (s.switch unmarshal sorting c).storedView unmarshal c.channelId =
      some (if w.status = c.status then w else w.update c) := by
  obtain ⟨ch, hFind, rfl⟩ := map_eq_some_iff.mp hCached
  obtain ⟨row, hRow, rfl⟩ := map_eq_some_iff.mp hStored
  obtain ⟨cache, hSwitch, -⟩ := switch_of_cached unmarshal sorting hFind hMulti
  have hStatus : (row.loaded.view unmarshal).status = row.status := rfl
  rw [hSwitch, storedView, ChannelTables.find?_updateChannelStatus hRow hMulti', hStatus]
  by_cases hSame : row.status = c.status
  · rw [if_pos hSame, if_pos hSame]
    rfl
  · rw [if_neg hSame, if_neg hSame, map_some, loaded_handlerMultiKeyUpdate,
      view_handlerMultiKeyUpdate]

/-! ## Agreement -/

variable (unmarshal sorting)

/-- Cache and database have the same disabled keys and the same status of the channel. -/
def Agrees (s : Node) (id : Int) : Prop :=
  (s.cachedView unmarshal id).map (fun v => (v.disabled, v.status)) =
    (s.storedView unmarshal id).map fun v => (v.disabled, v.status)

/-- A call that the test on the row stops would have changed nothing. -/
def Idle (id : Int) (s : Node) (c : StatusCall) : Prop :=
  c.channelId = id → ∀ v, s.storedView unmarshal id = some v → v.status = c.status →
    v.update c = v

variable {unmarshal sorting}

/-- The channel is cached and stored, with several keys in both. -/
def Multi (unmarshal : Unmarshal) (id : Int) (s : Node) : Prop :=
  ∃ v w, s.cachedView unmarshal id = some v ∧ s.storedView unmarshal id = some w ∧
    v.isMultiKey = true ∧ w.isMultiKey = true

theorem Multi.switch (h : Multi unmarshal id s) (c : StatusCall) :
    Multi unmarshal id (s.switch unmarshal sorting c) := by
  obtain ⟨v, w, hv, hw, hvM, hwM⟩ := h
  by_cases hId : id = c.channelId
  · subst hId
    refine ⟨_, _, cachedView_switch hv hvM, storedView_switch hv hvM hw hwM, by simpa, ?_⟩
    split <;> simpa
  · exact ⟨v, w, (cachedView_switch_of_ne hId).trans hv, (storedView_switch_of_ne hId).trans hw,
      hvM, hwM⟩

theorem views_eq_switch_iff (hMulti : Multi unmarshal id s)
    (h : s.cachedView unmarshal id = s.storedView unmarshal id) (c : StatusCall) :
    (s.switch unmarshal sorting c).cachedView unmarshal id =
        (s.switch unmarshal sorting c).storedView unmarshal id ↔ Idle unmarshal id s c := by
  obtain ⟨v, w, hv, hw, hvM, hwM⟩ := hMulti
  obtain rfl : v = w := some.inj ((hv.symm.trans h).trans hw)
  by_cases hId : c.channelId = id
  · subst hId
    rw [cachedView_switch hv hvM, storedView_switch hv hvM hw hwM, some.injEq]
    have hIdle : Idle unmarshal c.channelId s c ↔ (v.status = c.status → v.update c = v) := by
      simp [Idle, hw]
    rw [hIdle]
    by_cases hSame : v.status = c.status <;> simp [hSame]
  · rw [cachedView_switch_of_ne (Ne.symm hId), storedView_switch_of_ne (Ne.symm hId)]
    exact iff_of_true h fun hEq => absurd hEq hId

def Paired (unmarshal : Unmarshal) (id : Int) (s : Node) : Prop :=
  ∃ v w, s.cachedView unmarshal id = some v ∧ s.storedView unmarshal id = some w ∧
    v.isMultiKey = true ∧ w.isMultiKey = true ∧ v.keys = w.keys ∧ v.size = w.size ∧
    v.Sparse ∧ w.Sparse

theorem Paired.multi (h : Paired unmarshal id s) : Multi unmarshal id s := by
  obtain ⟨v, w, hv, hw, hvM, hwM, -⟩ := h
  exact ⟨v, w, hv, hw, hvM, hwM⟩

theorem Paired.switch (h : Paired unmarshal id s) (c : StatusCall) :
    Paired unmarshal id (s.switch unmarshal sorting c) := by
  obtain ⟨v, w, hv, hw, hvM, hwM, hKeys, hSize, hvS, hwS⟩ := h
  by_cases hId : id = c.channelId
  · subst hId
    refine ⟨_, _, cachedView_switch hv hvM, storedView_switch hv hvM hw hwM, ?_⟩
    have hvS' := hvS.update c
    have hwS' := hwS.update c
    split <;> simp [*]
  · exact ⟨v, w, (cachedView_switch_of_ne hId).trans hv, (storedView_switch_of_ne hId).trans hw,
      hvM, hwM, hKeys, hSize, hvS, hwS⟩

theorem Paired.agrees_iff (h : Paired unmarshal id s) :
    s.Agrees unmarshal id ↔ s.cachedView unmarshal id = s.storedView unmarshal id := by
  refine ⟨fun hAgrees => ?_, fun hEq => congrArg _ hEq⟩
  obtain ⟨v, w, hv, hw, hvM, hwM, hKeys, hSize, hvS, hwS⟩ := h
  rw [Agrees, hv, hw, map_some, map_some, some.injEq, Prod.mk.injEq]
    at hAgrees
  have hEntries : v.entries = w.entries := by
    have hCoe : (v.entries : Set Nat) = w.entries := by
      rw [← hvS, ← hwS, hAgrees.1]
    exact Finset.coe_injective hCoe
  rw [hv, hw, some.injEq]
  ext1
  · rw [hvM, hwM]
  · exact hKeys
  · exact hSize
  · exact hAgrees.2
  · exact hEntries
  · exact hAgrees.1

/-- **The cache and the database agree on the keys** if no call that the test on the row stops would
have changed anything, and, without entries that say enabled, only then. -/
theorem statuses_agree_iff (hMulti : Multi unmarshal id s)
    (hStart : s.cachedView unmarshal id = s.storedView unmarshal id) (calls : List StatusCall) :
    ((∀ m ∈ moves (switch unmarshal sorting) s calls, Idle unmarshal id m.1 m.2) →
        ∀ t ∈ states (switch unmarshal sorting) s calls, t.Agrees unmarshal id) ∧
      ((∀ v, s.storedView unmarshal id = some v → v.Sparse) →
        (∀ t ∈ states (switch unmarshal sorting) s calls, t.Agrees unmarshal id) →
        ∀ m ∈ moves (switch unmarshal sorting) s calls, Idle unmarshal id m.1 m.2) := by
  constructor
  · intro hIdle t ht
    have hEq := (states_forall_iff (switch unmarshal sorting) (I := Multi unmarshal id)
      (P := fun t => t.cachedView unmarshal id = t.storedView unmarshal id)
      (fun t c hM => hM.switch c) (fun t c hM hEq => views_eq_switch_iff hM hEq c)
      calls s hMulti hStart).mpr hIdle t ht
    exact congrArg _ hEq
  · intro hSparse
    have hPaired : Paired unmarshal id s := by
      obtain ⟨v, w, hv, hw, hvM, hwM⟩ := hMulti
      obtain rfl : v = w := some.inj ((hv.symm.trans hStart).trans hw)
      exact ⟨v, v, hv, hw, hvM, hvM, rfl, rfl, hSparse v hw, hSparse v hw⟩
    refine (states_forall_iff (switch unmarshal sorting) (I := Paired unmarshal id)
      (fun t c hP => hP.switch c) (fun t c hP hAgrees => ?_)
      calls s hPaired (hPaired.agrees_iff.mpr hStart)).mp
    rw [(hP.switch c).agrees_iff]
    exact views_eq_switch_iff hP.multi (hP.agrees_iff.mp hAgrees) c

theorem views_eq_rebuild (t : ChannelTables) (old : Int → Option Channel)
    (hLoaded : ∀ row ∈ t.channels.rows, row.keys = []) (id : Int) :
    (⟨t, t.rebuild unmarshal sorting old⟩ : Node).cachedView unmarshal id =
      (⟨t, t.rebuild unmarshal sorting old⟩ : Node).storedView unmarshal id := by
  show ((t.channels.find? id).map _).map _ = (t.channels.find? id).map _
  rw [map_map]
  refine map_congr fun row hFind => ?_
  have hRow : row.loaded = row := by
    have hKeys := hLoaded row (Table.find?_eq_some.mp hFind).1
    rw [loaded, ← hKeys]
  rw [comp_apply, view_cached, hRow]

/-! ## Two keys -/

def pairNode (list : Sparse ChannelStatus) : Node :=
  let t := ChannelTables.solo (pairChannel list) Int.one_pos
  ⟨t, t.rebuild (fun _ => none) Sorting.ofStable fun _ => none⟩

theorem storedView_pairNode :
    (pairNode list).storedView (fun _ => none) 1 =
      some ((pairChannel list).view fun _ => none) := rfl

theorem views_eq_pairNode :
    (pairNode list).cachedView (fun _ => none) 1 = (pairNode list).storedView (fun _ => none) 1 :=
  views_eq_rebuild _ _ (fun row hRow => by rw [List.mem_singleton.mp hRow]; rfl) 1

theorem multi_pairNode : Multi (fun _ => none) 1 (pairNode list) :=
  ⟨_, _, (views_eq_pairNode list).trans (storedView_pairNode list), storedView_pairNode list,
    rfl, rfl⟩

/-- A key that fails is disabled in both places. -/
theorem disabled_key_agrees :
    Multi (fun _ => none) 1 (pairNode ∅) ∧
      ∀ t ∈ states (switch (fun _ => none) Sorting.ofStable) (pairNode ∅) [disableFirst],
        t.Agrees (fun _ => none) 1 := by
  refine ⟨multi_pairNode ∅, ?_⟩
  refine (statuses_agree_iff (multi_pairNode ∅) (views_eq_pairNode ∅) [disableFirst]).1 ?_
  intro m hm
  obtain rfl := List.mem_singleton.mp hm
  intro _ v hv hSame
  rw [storedView_pairNode, some.injEq] at hv
  rw [← hv] at hSame
  cases hSame

def enableSecond : StatusCall := ⟨1, "key-2", .enabled, "", 0⟩

def failedNode : Node := pairNode (Finmap.singleton 1 .autoDisabled)

def recoveredNode : Node := failedNode.switch (fun _ => none) Sorting.ofStable enableSecond

/-- **A key that works again is enabled in the cache only**, until the next build. -/
theorem enabled_key_only_in_cache :
    Multi (fun _ => none) 1 failedNode ∧
      failedNode.cachedView (fun _ => none) 1 = failedNode.storedView (fun _ => none) 1 ∧
      (recoveredNode.cache.channelsIDM 1).map (fun ch => ch.channelInfo.getStatus 1) =
        some .enabled ∧
      (recoveredNode.tables.channels.find? 1).map (fun ch => ch.channelInfo.getStatus 1) =
        some .autoDisabled ∧
      ¬ recoveredNode.Agrees (fun _ => none) 1 := by
  have hCached : (recoveredNode.cache.channelsIDM 1).map (fun ch => ch.channelInfo.getStatus 1) =
      some .enabled := by decide +kernel
  have hStored : (recoveredNode.tables.channels.find? 1).map
      (fun ch => ch.channelInfo.getStatus 1) = some .autoDisabled := by decide +kernel
  refine ⟨multi_pairNode _, views_eq_pairNode _, hCached, hStored, fun hAgrees => ?_⟩
  obtain ⟨ch, hFind, hOn⟩ := map_eq_some_iff.mp hCached
  obtain ⟨row, hRow, hOff⟩ := map_eq_some_iff.mp hStored
  rw [Agrees, cachedView, storedView, hFind, hRow] at hAgrees
  have hSets : ch.channelInfo.disabled = row.channelInfo.disabled :=
    congrArg Prod.fst (some.inj hAgrees)
  have hMem : 1 ∈ row.channelInfo.disabled := by simp [ChannelInfo.disabled, hOff]
  rw [← hSets] at hMem
  exact hMem hOn

end Node

end NewApi.Channels
