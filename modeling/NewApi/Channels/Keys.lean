import NewApi.Channels.Sync

/-!
# The status of single keys

`handlerMultiKeyUpdate` writes one entry of the sparse list of keys that are not enabled, and
decides by their number whether the channel is; on a `KeyView` it is `KeyView.update`.
-/

namespace NewApi.Channels

open Core Go

/-! ## Keys and their positions -/

/-- The position of a key.  A key that is not there counts as the first. -/
def keyIndex (keys : List String) (usingKey : String) : Nat :=
  (keys.findIdx? fun key => key = usingKey).getD 0

theorem keyIndex_lt {keys : List String} (h : keys ≠ []) (usingKey : String) :
    keyIndex keys usingKey < keys.length := by
  unfold keyIndex
  cases hFind : keys.findIdx? fun key => key = usingKey with
  | none => exact List.length_pos_iff.mpr h
  | some i => exact (List.findIdx?_eq_some_iff_getElem.mp hFind).1

def parseKeys (unmarshal : Unmarshal) (key : String) : List String :=
  match (if hasPrefix (trimSpace key) "[" then unmarshal (trimSpace key) else none) with
  | some arr => arr
  | none => split (trimChar key '\n') '\n'

theorem Channel.getKeys_eq (unmarshal : Unmarshal) (ch : Channel) :
    ch.getKeys unmarshal = if ch.key = "" then []
      else if ch.keys.length > 0 then ch.keys else parseKeys unmarshal ch.key := by
  unfold Channel.getKeys parseKeys
  cases hArr : if hasPrefix (trimSpace ch.key) "[" then unmarshal (trimSpace ch.key) else none <;>
    simp only [hArr]

/-! ## Entries of the status list -/

namespace ChannelInfo

variable (info : ChannelInfo) (i : Nat) (status : ChannelStatus) (reason : String) (now : Int)

/-- An enabled key has no entry.  Its time and its reason stay. -/
def mark : ChannelInfo :=
  if status = .enabled then
    { info with multiKeyStatusList := info.multiKeyStatusList.erase i }
  else
    { info with
      multiKeyStatusList := info.multiKeyStatusList.insert i status
      multiKeyDisabledReason := info.multiKeyDisabledReason.insert i reason
      multiKeyDisabledTime := info.multiKeyDisabledTime.insert i now }

def disabled : Set Nat := {i | info.getStatus i ≠ .enabled}

theorem mem_disabled {i : Nat} : i ∈ info.disabled ↔ info.getStatus i ≠ .enabled := Iff.rfl

theorem getStatus_mark (j : Nat) :
    (info.mark i status reason now).getStatus j = if j = i then status else info.getStatus j := by
  unfold mark getStatus
  split
  · next hOn =>
    by_cases hj : j = i
    · rw [if_pos hj, hj, Finmap.lookup_erase, hOn]
      rfl
    · rw [if_neg hj, Finmap.lookup_erase_ne hj]
  · by_cases hj : j = i
    · rw [if_pos hj, hj, Finmap.lookup_insert]
      rfl
    · rw [if_neg hj, Finmap.lookup_insert_of_ne _ hj]

theorem keys_mark : (info.mark i status reason now).multiKeyStatusList.keys =
    if status = .enabled then info.multiKeyStatusList.keys.erase i
    else insert i info.multiKeyStatusList.keys := by
  unfold mark
  by_cases hOn : status = .enabled
  · rw [if_pos hOn, if_pos hOn]
    exact Finmap.keys_erase _ _
  · rw [if_neg hOn, if_neg hOn]
    ext j
    simp [Finmap.mem_keys]

theorem disabled_mark : (info.mark i status reason now).disabled =
    if status = .enabled then info.disabled \ {i} else insert i info.disabled := by
  ext j
  rw [mem_disabled, getStatus_mark]
  by_cases hj : j = i <;> by_cases hOn : status = .enabled <;> simp [hj, hOn, disabled]

@[simp] theorem isMultiKey_mark : (info.mark i status reason now).isMultiKey = info.isMultiKey := by
  unfold mark
  split <;> rfl

@[simp] theorem multiKeySize_mark :
    (info.mark i status reason now).multiKeySize = info.multiKeySize := by
  unfold mark
  split <;> rfl

end ChannelInfo

structure StatusCall where
  channelId : Int
  usingKey : String
  status : ChannelStatus
  reason : String
  now : Int

/-- The reasons that go to `OtherInfo` are left out. -/
def Channel.handlerMultiKeyUpdate (unmarshal : Unmarshal) (ch : Channel) (c : StatusCall) :
    Channel :=
  let keys := ch.getKeys unmarshal
  if keys = [] then { ch with status := c.status }
  else
    let info := ch.channelInfo.mark (keyIndex keys c.usingKey) c.status c.reason c.now
    { ch with
      channelInfo := info
      status :=
        if (info.multiKeyStatusList.keys.card : Int) ≥ info.multiKeySize then .autoDisabled
        else if c.status = .enabled then .enabled
        else ch.status }

/-- A row as it is read.  The cached keys are not a column. -/
def Channel.loaded (ch : Channel) : Channel := { ch with keys := [] }

@[simp] theorem Channel.channelInfo_loaded (ch : Channel) :
    ch.loaded.channelInfo = ch.channelInfo := rfl

/-! ## Views -/

@[ext] structure KeyView where
  isMultiKey : Bool
  keys : List String
  size : Int
  status : ChannelStatus
  entries : Finset Nat
  disabled : Set Nat

/-- No entry says that a key is enabled. -/
def KeyView.Sparse (v : KeyView) : Prop := v.disabled = v.entries

def KeyView.update (v : KeyView) (c : StatusCall) : KeyView :=
  if v.keys = [] then { v with status := c.status }
  else
    let i := keyIndex v.keys c.usingKey
    let entries := if c.status = .enabled then v.entries.erase i else insert i v.entries
    { v with
      entries := entries
      disabled := if c.status = .enabled then v.disabled \ {i} else insert i v.disabled
      status :=
        if (entries.card : Int) ≥ v.size then .autoDisabled
        else if c.status = .enabled then .enabled
        else v.status }

theorem KeyView.Sparse.update {v : KeyView} (h : v.Sparse) (c : StatusCall) :
    (v.update c).Sparse := by
  unfold KeyView.update
  split
  · exact h
  · unfold KeyView.Sparse at h ⊢
    by_cases hOn : c.status = .enabled <;> simp [hOn, h]

def Channel.view (unmarshal : Unmarshal) (ch : Channel) : KeyView where
  isMultiKey := ch.channelInfo.isMultiKey
  keys := ch.getKeys unmarshal
  size := ch.channelInfo.multiKeySize
  status := ch.status
  entries := ch.channelInfo.multiKeyStatusList.keys
  disabled := ch.channelInfo.disabled

variable {unmarshal : Unmarshal}

theorem Channel.getKeys_handled (ch : Channel) (unmarshal : Unmarshal) (status : ChannelStatus)
    (info : ChannelInfo) :
    ({ ch with status := status, channelInfo := info } : Channel).getKeys unmarshal =
      ch.getKeys unmarshal := by
  rw [getKeys_eq, getKeys_eq]

theorem Channel.view_handlerMultiKeyUpdate (ch : Channel) (unmarshal : Unmarshal)
    (c : StatusCall) :
    (ch.handlerMultiKeyUpdate unmarshal c).view unmarshal = (ch.view unmarshal).update c := by
  have hKeysDef : (ch.view unmarshal).keys = ch.getKeys unmarshal := rfl
  unfold handlerMultiKeyUpdate KeyView.update
  rw [hKeysDef]
  by_cases hKeys : ch.getKeys unmarshal = []
  · rw [if_pos hKeys, if_pos hKeys]
    simp only [view, ch.getKeys_handled]
  rw [if_neg hKeys, if_neg hKeys]
  have hEntries := ch.channelInfo.keys_mark (keyIndex (ch.getKeys unmarshal) c.usingKey)
    c.status c.reason c.now
  ext1
  · exact ChannelInfo.isMultiKey_mark ..
  · simp only [Channel.view, getKeys_handled]
  · exact ChannelInfo.multiKeySize_mark ..
  · dsimp only [Channel.view]
    rw [ChannelInfo.multiKeySize_mark, hEntries]
    exact if_congr Iff.rfl rfl rfl
  · exact hEntries
  · exact ChannelInfo.disabled_mark ..

theorem Channel.handlerMultiKeyUpdate_eq (unmarshal : Unmarshal) (ch : Channel)
    (c : StatusCall) : ∃ status info, ch.handlerMultiKeyUpdate unmarshal c =
      { ch with status := status, channelInfo := info } := by
  by_cases hKeys : ch.getKeys unmarshal = []
  · exact ⟨c.status, ch.channelInfo, if_pos hKeys⟩
  · exact ⟨_, _, if_neg hKeys⟩

@[simp] theorem Channel.id_handlerMultiKeyUpdate (unmarshal : Unmarshal) (ch : Channel)
    (c : StatusCall) : (ch.handlerMultiKeyUpdate unmarshal c).id = ch.id := by
  obtain ⟨status, info, h⟩ := ch.handlerMultiKeyUpdate_eq unmarshal c
  rw [h]

@[simp] theorem Channel.group_handlerMultiKeyUpdate (unmarshal : Unmarshal) (ch : Channel)
    (c : StatusCall) : (ch.handlerMultiKeyUpdate unmarshal c).group = ch.group := by
  obtain ⟨status, info, h⟩ := ch.handlerMultiKeyUpdate_eq unmarshal c
  rw [h]

theorem Channel.loaded_handlerMultiKeyUpdate (unmarshal : Unmarshal) (row : Channel)
    (c : StatusCall) : (row.loaded.handlerMultiKeyUpdate unmarshal c).loaded =
      row.loaded.handlerMultiKeyUpdate unmarshal c := by
  obtain ⟨status, info, h⟩ := row.loaded.handlerMultiKeyUpdate_eq unmarshal c
  rw [h]
  rfl

@[simp] theorem KeyView.isMultiKey_update (v : KeyView) (c : StatusCall) :
    (v.update c).isMultiKey = v.isMultiKey := by
  unfold KeyView.update
  split <;> rfl

@[simp] theorem KeyView.keys_update (v : KeyView) (c : StatusCall) :
    (v.update c).keys = v.keys := by
  unfold KeyView.update
  split <;> rfl

@[simp] theorem KeyView.size_update (v : KeyView) (c : StatusCall) :
    (v.update c).size = v.size := by
  unfold KeyView.update
  split <;> rfl

/-! ## Caching keeps the view -/

theorem Channel.getKeys_keys (ch : Channel) (info : ChannelInfo) :
    ({ ch with keys := ch.getKeys unmarshal, channelInfo := info } : Channel).getKeys unmarshal =
      ch.getKeys unmarshal := by
  rw [getKeys_eq]
  by_cases hKey : ch.key = ""
  · rw [if_pos hKey, getKeys_eq, if_pos hKey]
  rw [if_neg hKey]
  split
  · rfl
  · next hSome =>
    rw [getKeys_eq, if_neg hKey] at hSome ⊢
    have hNone : ¬ ch.keys.length > 0 := fun hPos => hSome (by rwa [if_pos hPos])
    rw [if_neg hNone]

theorem Channel.view_cached (old : Option Channel) (ch : Channel) :
    (ch.cached unmarshal old).view unmarshal = ch.view unmarshal := by
  unfold cached view
  split
  · simp only [ch.getKeys_keys, ChannelInfo.disabled, ChannelInfo.getStatus]
  · rfl

/-! ## A channel with two keys -/

def pairChannel (list : Sparse ChannelStatus) : Channel :=
  { demoChannel 1 .enabled 0 with
    key := "key-1\nkey-2"
    channelInfo := { isMultiKey := true, multiKeySize := 2, multiKeyStatusList := list } }

def disableFirst : StatusCall := ⟨1, "key-1", .autoDisabled, "invalid key", 0⟩

/-! ## Which keys an update changes -/

theorem keyIndex_of_mem {keys : List String} {usingKey : String} (h : usingKey ∈ keys) :
    keys[keyIndex keys usingKey]? = some usingKey ∧
      ∀ j < keyIndex keys usingKey, keys[j]? ≠ some usingKey := by
  unfold keyIndex
  cases hFind : keys.findIdx? fun key => key = usingKey with
  | none =>
    have hNone := List.findIdx?_eq_none_iff.mp hFind usingKey h
    simp at hNone
  | some i =>
    obtain ⟨hi, hKey, hBefore⟩ := List.findIdx?_eq_some_iff_getElem.mp hFind
    refine ⟨by simpa [List.getElem?_eq_getElem hi] using hKey, fun j hj hSame => ?_⟩
    obtain ⟨hLt, hEq⟩ := List.getElem?_eq_some_iff.mp hSame
    exact hBefore j hj (decide_eq_true hEq)

theorem keyIndex_of_not_mem {keys : List String} {usingKey : String} (h : usingKey ∉ keys) :
    keyIndex keys usingKey = 0 := by
  have hNone : keys.findIdx? (fun key => key = usingKey) = none :=
    List.findIdx?_eq_none_iff.mpr fun key hKey => decide_eq_false fun hEq => h (hEq ▸ hKey)
  rw [keyIndex, hNone, Option.getD_none]

theorem Channel.getStatus_handlerMultiKeyUpdate (unmarshal : Unmarshal) {ch : Channel}
    (c : StatusCall) (hKeys : ch.getKeys unmarshal ≠ []) (j : Nat) :
    (ch.handlerMultiKeyUpdate unmarshal c).channelInfo.getStatus j =
      if j = keyIndex (ch.getKeys unmarshal) c.usingKey then c.status
      else ch.channelInfo.getStatus j := by
  unfold handlerMultiKeyUpdate
  rw [if_neg hKeys]
  exact ChannelInfo.getStatus_mark ..

/-- **An update changes the statuses of its key's positions and no others exactly if each position
that it takes wrongly has the new status already**: those of the key behind its first one, and the
first of all for a key that is not in the list. -/
theorem Channel.handlerMultiKeyUpdate_exact_iff (unmarshal : Unmarshal) (ch : Channel)
    (c : StatusCall) :
    (∀ j, (ch.handlerMultiKeyUpdate unmarshal c).channelInfo.getStatus j =
      if (ch.getKeys unmarshal)[j]? = some c.usingKey then c.status
      else ch.channelInfo.getStatus j) ↔
      (c.usingKey ∉ ch.getKeys unmarshal → ch.getKeys unmarshal ≠ [] →
        ch.channelInfo.getStatus 0 = c.status) ∧
      ∀ i j, i < j → (ch.getKeys unmarshal)[i]? = some c.usingKey →
        (ch.getKeys unmarshal)[j]? = some c.usingKey → ch.channelInfo.getStatus j = c.status := by
  by_cases hKeys : ch.getKeys unmarshal = []
  · simp [handlerMultiKeyUpdate, hKeys]
  simp only [getStatus_handlerMultiKeyUpdate unmarshal c hKeys]
  by_cases hMem : c.usingKey ∈ ch.getKeys unmarshal
  · obtain ⟨hAt, hFirst⟩ := keyIndex_of_mem hMem
    generalize keyIndex (ch.getKeys unmarshal) c.usingKey = k at hAt hFirst ⊢
    constructor
    · intro h
      refine ⟨fun hNot => absurd hMem hNot, fun i j hLt hi hj => ?_⟩
      have hLe : k ≤ i := le_of_not_gt fun hLess => hFirst i hLess hi
      have hSame := h j
      rwa [if_neg (by omega), if_pos hj] at hSame
    · rintro ⟨-, h⟩ j
      by_cases hj : j = k
      · rw [if_pos hj, hj, if_pos hAt]
      · rw [if_neg hj]
        split
        · rename_i hSame
          have hLt : k < j :=
            lt_of_le_of_ne (le_of_not_gt fun hLess => hFirst j hLess hSame) (Ne.symm hj)
          exact h k j hLt hAt hSame
        · rfl
  · rw [keyIndex_of_not_mem hMem]
    have hNone (j : Nat) : (ch.getKeys unmarshal)[j]? ≠ some c.usingKey := fun hj =>
      hMem (List.mem_of_getElem? hj)
    constructor
    · intro h
      have hZero := h 0
      rw [if_pos rfl, if_neg (hNone 0)] at hZero
      exact ⟨fun _ _ => hZero.symm, fun i _ _ hi => absurd hi (hNone i)⟩
    · rintro ⟨h, -⟩ j
      rw [if_neg (hNone j)]
      split
      · rename_i hj
        rw [hj, h hMem hKeys]
      · rfl

/-- **An unknown key changes the first one**, and of two equal keys only one is changed. -/
theorem update_of_other_key :
    ((pairChannel ∅).handlerMultiKeyUpdate (fun _ => none)
        { disableFirst with usingKey := "key-3" }).channelInfo.getStatus 0 = .autoDisabled ∧
    (({ pairChannel ∅ with key := "key-1\nkey-1" } : Channel).handlerMultiKeyUpdate (fun _ => none)
        disableFirst).channelInfo.getStatus 1 = .enabled := by
  decide +kernel

end NewApi.Channels
