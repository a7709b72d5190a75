import NewApi.Channels.KeyAdmin
import NewApi.Channels.KeySync

/-!
# Enabled channels without an enabled key

`UpdateChannelStatus`, `ManageMultiKeys` and an update with a new text change keys; only the first
ever changes the status of the channel.  `Channel.Strips` lists what takes its last enabled key.
-/

namespace NewApi.Channels

open Core Go Option

/-! ## Operations -/

inductive KeyOp where
  | updateStatus (c : StatusCall)
  | manage (req : MultiKeyManageRequest)
  /-- `Channel.Update` with a new text of keys, as `UpdateChannel` calls it -/
  | edit (id : Int) (key : String)

def KeyOp.channelId : KeyOp → Int
  | updateStatus c => c.channelId
  | manage req => req.channelId
  | edit id _ => id

namespace Node

variable (unmarshal : Unmarshal) (sorting : Sorting Int) (memoryCacheEnabled : Bool)

def manageMultiKeys (s : Node) (req : MultiKeyManageRequest) : Node :=
  match s.tables.manageMultiKeys unmarshal req with
  | .error _ => s
  | .ok (tables, _) =>
    ⟨tables, if memoryCacheEnabled then tables.rebuild unmarshal sorting s.cache.channelsIDM
      else s.cache⟩

def editKeys (s : Node) (id : Int) (key : String) : Node :=
  match s.tables.channels.find? id with
  | none => s
  | some row =>
    match s.tables.updateKeys unmarshal { row.loaded with key := key } with
    | none => s
    | some (row, tables) =>
      ⟨tables, if memoryCacheEnabled then s.cache.cacheUpdateChannel unmarshal sorting row
        else s.cache⟩

def operate (s : Node) : KeyOp → Node
  | .updateStatus c => (s.updateChannelStatus unmarshal sorting memoryCacheEnabled c).1
  | .manage req => s.manageMultiKeys unmarshal sorting memoryCacheEnabled req
  | .edit id key => s.editKeys unmarshal sorting memoryCacheEnabled id key

/-- The operation gets to the database.  With the cache on, `UpdateChannelStatus` may return
before. -/
def Reaches (s : Node) : KeyOp → Prop
  | .updateStatus c => memoryCacheEnabled = true →
    (s.cache.updateChannelStatus unmarshal sorting c).isSome = true
  | _ => True

end Node

/-! ## A call on a view -/

namespace KeyView

def Usable (v : KeyView) : Prop :=
  v.status = .enabled → v.isMultiKey = true → ∃ j < v.keys.length, j ∉ v.disabled

/-- It enables a channel that has no keys, or it disables the last enabled one while the list is
shorter than `MultiKeySize`. -/
def StripsBy (v : KeyView) (c : StatusCall) : Prop :=
  let i := keyIndex v.keys c.usingKey
  v.status ≠ c.status ∧
    ((v.keys = [] ∧ c.status = .enabled) ∨
      (v.keys ≠ [] ∧ c.status ≠ .enabled ∧ v.status = .enabled ∧
        ((insert i v.entries).card : Int) < v.size ∧
        ∀ j < v.keys.length, j ≠ i → j ∈ v.disabled))

theorem usable_update_iff {v : KeyView} {c : StatusCall} (hMulti : v.isMultiKey = true)
    (hSame : v.status ≠ c.status) : (v.update c).Usable ↔ ¬ v.StripsBy c := by
  unfold Usable StripsBy update
  by_cases hKeys : v.keys = []
  · simp [hKeys, hMulti, hSame]
  have hLt := keyIndex_lt hKeys c.usingKey
  rw [if_neg hKeys]
  by_cases hOn : c.status = .enabled
  · -- the key of the call is enabled
    refine iff_of_true (fun _ _ => ⟨_, hLt, ?_⟩) (by simp [hKeys, hOn])
    simp [hOn]
  by_cases hFull : ((insert (keyIndex v.keys c.usingKey) v.entries).card : Int) ≥ v.size
  · refine iff_of_true (fun hStatus => ?_) ?_
    · simp [hOn, hFull] at hStatus
    simp only [not_and, not_or]
    intro _
    refine ⟨fun h => absurd h hKeys, fun _ _ _ hLess => ?_⟩
    omega
  · simp only [hOn, hFull, if_false]
    constructor
    · rintro h ⟨-, ⟨hNil, -⟩ | ⟨-, -, hStatus, -, hAll⟩⟩
      · exact hKeys hNil
      · obtain ⟨j, hj, hOut⟩ := h hStatus hMulti
        rw [Set.mem_insert_iff, not_or] at hOut
        exact hOut.2 (hAll j hj hOut.1)
    · intro h hStatus _
      by_contra hNone
      refine h ⟨hSame, .inr ⟨hKeys, hOn, hStatus, by omega, fun j hj hne => ?_⟩⟩
      by_contra hOut
      exact hNone ⟨j, hj, by simp [hne, hOut]⟩

theorem not_stripsBy_of_size {v : KeyView} (hKeys : v.keys ≠ []) (hSize : v.size ≤ v.keys.length)
    (hEntries : v.disabled ⊆ v.entries) (c : StatusCall) : ¬ v.StripsBy c := by
  rintro ⟨-, ⟨hNil, -⟩ | ⟨-, -, -, hLess, hAll⟩⟩
  · exact hKeys hNil
  have hCover : Finset.range v.keys.length ⊆
      insert (keyIndex v.keys c.usingKey) v.entries := by
    intro j hj
    rw [Finset.mem_insert]
    by_cases hji : j = keyIndex v.keys c.usingKey
    · exact .inl hji
    · exact .inr (hEntries (hAll j (Finset.mem_range.mp hj) hji))
  have hCard := Finset.card_le_card hCover
  rw [Finset.card_range] at hCard
  omega

end KeyView

variable {req : MultiKeyManageRequest}

namespace Channel

variable (unmarshal : Unmarshal)

def operated (row : Channel) : KeyOp → Channel
  | .updateStatus c =>
    if row.status = c.status then row else row.loaded.handlerMultiKeyUpdate unmarshal c
  | .manage req => (row.loaded.managed unmarshal req).elim row (row.updated unmarshal)
  | .edit _ key => row.updated unmarshal { row.loaded with key := key }

def Usable (row : Channel) : Prop := row.status = .enabled → row.loaded.HasKey unmarshal

/-! ## What takes the last key -/

def StripsByAction (row : Channel) (req : MultiKeyManageRequest) : Prop :=
  let keys := row.loaded.getKeys unmarshal
  match req.action with
  | .disableKey => ∃ i, row.index req.keyIndex = some i ∧
      ∀ j < keys.length, j ≠ i → row.channelInfo.getStatus j ≠ .enabled
  | .enableKey => False
  | .enableAllKeys => False
  | .disableAllKeys =>
      (∃ j < row.channelInfo.multiKeySize.toNat, row.channelInfo.getStatus j = .enabled) ∧
        ∀ j < keys.length, row.channelInfo.multiKeySize.toNat ≤ j →
          row.channelInfo.getStatus j ≠ .enabled
  | .deleteKey | .deleteDisabledKeys =>
      let kept := req.spares (row.loaded.keyed unmarshal)
      let text := join (kept.map Prod.fst) '\n'
      (row.loaded.managed unmarshal req).isSome = true ∧
        ∀ j < (textKeys unmarshal (if text = "" then row.key else text)).length,
          (kept[j]?).elim .enabled Prod.snd ≠ .enabled

def Strips (row : Channel) : KeyOp → Prop
  | .updateStatus c => (row.loaded.view unmarshal).StripsBy c
  | .manage req => row.status = .enabled ∧ row.StripsByAction unmarshal req
  | .edit _ key => row.status = .enabled ∧
      ∀ j < (textKeys unmarshal (if key = "" then row.key else key)).length,
        row.channelInfo.getStatus j ≠ .enabled

variable {unmarshal} {row ch : Channel}

/-! ## One operation on a row -/

theorem usable_iff_view : row.Usable unmarshal ↔ (row.loaded.view unmarshal).Usable := by
  simp [Usable, HasKey, KeyView.Usable, view, ChannelInfo.disabled, loaded]

theorem isMultiKey_updated (h : ch.channelInfo.isMultiKey = true) :
    (row.updated unmarshal ch).channelInfo.isMultiKey = true := by
  unfold updated recount
  rw [if_pos h]
  exact h

theorem usable_updated_iff (hMulti : ch.channelInfo.isMultiKey = true) :
    (row.updated unmarshal ch).Usable unmarshal ↔ (row.status = .enabled →
      ∃ j < (textKeys unmarshal (if ch.key = "" then row.key else ch.key)).length,
        ch.channelInfo.getStatus j = .enabled) := by
  have hMulti' : (row.updated unmarshal ch).channelInfo.isMultiKey = true :=
    isMultiKey_updated hMulti
  have hLoaded : (row.updated unmarshal ch).loaded = row.updated unmarshal ch := rfl
  unfold Usable HasKey
  rw [hLoaded, ← getKeys_updated]
  refine imp_congr_right fun _ => ⟨fun hKey => ?_, fun hKey _ => ?_⟩
  · obtain ⟨j, hj, hOn⟩ := hKey hMulti'
    exact ⟨j, hj, by rwa [getStatus_updated hMulti hj] at hOn⟩
  · obtain ⟨j, hj, hOn⟩ := hKey
    exact ⟨j, hj, by rwa [getStatus_updated hMulti hj]⟩

theorem disabled_subset_keys (info : ChannelInfo) :
    info.disabled ⊆ (info.multiKeyStatusList.keys : Set Nat) := by
  intro j hj
  by_contra hNone
  refine hj ?_
  have hLookup : info.multiKeyStatusList.lookup j = none := by
    rw [Finmap.lookup_eq_none]
    exact hNone
  rw [ChannelInfo.getStatus, hLookup]
  rfl

theorem usable_of_refused (h : row.Usable unmarshal)
    (hNone : row.loaded.managed unmarshal req = none) :
    (row.operated unmarshal (.manage req)).Usable unmarshal := by
  unfold operated
  dsimp only
  rw [hNone]
  exact h

theorem usable_managed_iff (hMulti : row.channelInfo.isMultiKey = true)
    (hSome : row.loaded.managed unmarshal req = some ch) :
    (row.operated unmarshal (.manage req)).Usable unmarshal ↔ ¬ (row.status = .enabled ∧
      ∀ j < (textKeys unmarshal (if ch.key = "" then row.key else ch.key)).length,
        ch.channelInfo.getStatus j ≠ .enabled) := by
  have hOperated : row.operated unmarshal (.manage req) = row.updated unmarshal ch := by
    unfold operated
    dsimp only
    rw [hSome]
    rfl
  rw [hOperated, usable_updated_iff ((managed_keeps hSome).2.trans hMulti)]
  push Not
  rfl

theorem usable_managed_same_iff (hMulti : row.channelInfo.isMultiKey = true)
    (hSome : row.loaded.managed unmarshal req = some ch) (hKey : ch.key = row.key) :
    (row.operated unmarshal (.manage req)).Usable unmarshal ↔ ¬ (row.status = .enabled ∧
      ∀ j < (row.loaded.getKeys unmarshal).length, ch.channelInfo.getStatus j ≠ .enabled) := by
  rw [usable_managed_iff hMulti hSome, hKey, ite_self, getKeys_loaded]

theorem managed_eq (unmarshal : Unmarshal) (ch : Channel) (req : MultiKeyManageRequest) :
    ch.managed unmarshal req =
    match req.action with
    | .disableKey => (ch.index req.keyIndex).map fun i =>
        ch.withList (ch.channelInfo.multiKeyStatusList.insert i .manuallyDisabled)
    | .enableKey => (ch.index req.keyIndex).map ch.forget
    | .enableAllKeys => some ch.enableAllKeys.1
    | .disableAllKeys =>
        if ∀ j < ch.channelInfo.multiKeySize.toNat, ch.channelInfo.getStatus j ≠ .enabled then none
        else some (ch.withList ((List.range ch.channelInfo.multiKeySize.toNat).foldl disableNext
          (ch.channelInfo.multiKeyStatusList, 0)).1)
    | _ => ch.managed unmarshal req := by
  unfold managed manage
  cases req.action with
  | disableKey => exact toOption_disableKey ..
  | enableKey => exact toOption_enableKey ..
  | enableAllKeys | deleteKey | deleteDisabledKeys => rfl
  | disableAllKeys => exact toOption_disableAllKeys ..

theorem isMultiKey_operated (h : row.channelInfo.isMultiKey = true) (op : KeyOp) :
    (row.operated unmarshal op).channelInfo.isMultiKey = true := by
  unfold operated
  cases op with dsimp only
  | updateStatus c =>
    split
    · exact h
    · have hView := congrArg KeyView.isMultiKey (row.loaded.view_handlerMultiKeyUpdate unmarshal c)
      rw [KeyView.isMultiKey_update] at hView
      exact hView.trans h
  | manage req =>
    cases hManaged : row.loaded.managed unmarshal req with
    | none => exact h
    | some ch => exact isMultiKey_updated ((managed_keeps hManaged).2.trans h)
  | edit id key => exact isMultiKey_updated h

section

variable (hMulti : row.channelInfo.isMultiKey = true) (h : row.Usable unmarshal)
include hMulti h

theorem usable_updateStatus_iff (c : StatusCall) :
    (row.operated unmarshal (.updateStatus c)).Usable unmarshal ↔
      ¬ (row.loaded.view unmarshal).StripsBy c := by
  unfold operated
  dsimp only
  split
  · next hSame => exact iff_of_true h fun hStrips => hStrips.1 hSame
  · next hSame =>
    rw [usable_iff_view, loaded_handlerMultiKeyUpdate, view_handlerMultiKeyUpdate]
    exact KeyView.usable_update_iff hMulti hSame

theorem exists_enabled (hOn : row.status = .enabled) :
    ∃ j < (row.loaded.getKeys unmarshal).length, row.channelInfo.getStatus j = .enabled :=
  h hOn hMulti

theorem usable_deletion_iff (hDelete : req.action = .deleteKey ∨ req.action = .deleteDisabledKeys) :
    (row.operated unmarshal (.manage req)).Usable unmarshal ↔
      ¬ (row.status = .enabled ∧ row.StripsByAction unmarshal req) := by
  have hStrips : row.StripsByAction unmarshal req ↔
      (row.loaded.managed unmarshal req).isSome = true ∧
        ∀ j < (textKeys unmarshal
          (if join ((req.spares (row.loaded.keyed unmarshal)).map Prod.fst) '\n' = "" then row.key
            else join ((req.spares (row.loaded.keyed unmarshal)).map Prod.fst) '\n')).length,
          ((req.spares (row.loaded.keyed unmarshal))[j]?).elim .enabled Prod.snd ≠
            ChannelStatus.enabled := by
    unfold StripsByAction
    rcases hDelete with hAction | hAction <;> rw [hAction]
  rw [hStrips]
  cases hManaged : row.loaded.managed unmarshal req with
  | none => exact iff_of_true (usable_of_refused h hManaged) (by simp)
  | some ch =>
    have hRetains := retains_managed hDelete hManaged
    rw [usable_managed_iff hMulti hManaged, hRetains.key]
    simp only [hRetains.status, isSome_some, true_and]

theorem usable_manage_iff (req : MultiKeyManageRequest) :
    (row.operated unmarshal (.manage req)).Usable unmarshal ↔
      ¬ (row.status = .enabled ∧ row.StripsByAction unmarshal req) := by
  have hManaged := row.loaded.managed_eq unmarshal req
  have hIndexEq : row.loaded.index req.keyIndex = row.index req.keyIndex := rfl
  cases hAction : req.action with
  | deleteKey => exact usable_deletion_iff hMulti h (.inl hAction)
  | deleteDisabledKeys => exact usable_deletion_iff hMulti h (.inr hAction)
  | disableKey =>
    simp only [hAction, hIndexEq] at hManaged
    simp only [StripsByAction, hAction]
    cases hIndex : row.index req.keyIndex with rw [hIndex] at hManaged
    | none => exact iff_of_true (usable_of_refused h hManaged) (by simp)
    | some i =>
      rw [usable_managed_same_iff hMulti hManaged rfl]
      simp only [getStatus_disabled_ne_iff, some.injEq, exists_eq_left']
      rw [channelInfo_loaded]
  | enableKey =>
    simp only [hAction, hIndexEq] at hManaged
    simp only [StripsByAction, hAction, and_false, not_false_eq_true, iff_true]
    cases hIndex : row.index req.keyIndex with rw [hIndex] at hManaged
    | none => exact usable_of_refused h hManaged
    | some i =>
      rw [usable_managed_same_iff hMulti hManaged rfl]
      rintro ⟨hOn, hAll⟩
      obtain ⟨j, hj, hEnabled⟩ := exists_enabled hMulti h hOn
      exact hAll j hj (getStatus_forget hEnabled i)
  | enableAllKeys =>
    simp only [hAction] at hManaged
    simp only [StripsByAction, hAction, and_false, not_false_eq_true, iff_true]
    rw [usable_managed_same_iff hMulti hManaged rfl]
    rintro ⟨hOn, hAll⟩
    obtain ⟨j, hj, -⟩ := exists_enabled hMulti h hOn
    exact hAll j hj rfl
  | disableAllKeys =>
    simp only [hAction] at hManaged
    simp only [StripsByAction, hAction]
    split at hManaged
    · next hNone =>
      refine iff_of_true (usable_of_refused h hManaged) ?_
      rintro ⟨-, ⟨j, hj, hOn⟩, -⟩
      exact hNone j hj hOn
    · next hNone =>
      push Not at hNone
      rw [channelInfo_loaded] at hNone
      rw [usable_managed_same_iff hMulti hManaged rfl]
      rw [and_iff_right hNone]
      simp only [getStatus_disableAll_ne_iff]
      rw [channelInfo_loaded]

theorem usable_operated_iff (op : KeyOp) :
    (row.operated unmarshal op).Usable unmarshal ↔ ¬ row.Strips unmarshal op := by
  cases op with
  | updateStatus c => exact usable_updateStatus_iff hMulti h c
  | manage req => exact usable_manage_iff hMulti h req
  | edit id key =>
    have hMulti' : ({ row.loaded with key := key } : Channel).channelInfo.isMultiKey = true :=
      hMulti
    refine (usable_updated_iff hMulti').trans ?_
    simp only [Strips, not_and, not_forall, not_not, exists_prop]
    rfl

end

end Channel

/-! ## Runs -/

namespace Node

variable (unmarshal : Unmarshal) (sorting : Sorting Int) (memoryCacheEnabled : Bool) (id : Int)

def Usable (s : Node) : Prop :=
  ∀ row, s.tables.channels.find? id = some row → row.Usable unmarshal

def Strips (s : Node) (op : KeyOp) : Prop :=
  op.channelId = id ∧ s.Reaches unmarshal sorting memoryCacheEnabled op ∧
    ∃ row, s.tables.channels.find? id = some row ∧ row.Strips unmarshal op

variable {unmarshal sorting memoryCacheEnabled id} {s : Node} {op : KeyOp} {row : Channel}

theorem find?_operate_of_ne (hne : id ≠ op.channelId) :
    (s.operate unmarshal sorting memoryCacheEnabled op).tables.channels.find? id =
      s.tables.channels.find? id := by
  cases op with
  | updateStatus c =>
    unfold operate updateChannelStatus
    dsimp only
    split
    · rfl
    · exact ChannelTables.updateChannelStatus_of_ne _ hne
  | manage req =>
    unfold operate manageMultiKeys
    dsimp only
    split
    · rfl
    · rename_i tables text hDone
      obtain ⟨row, ch, -, -, -, hRows⟩ := ChannelTables.manageMultiKeys_ok hDone
      exact (hRows id).trans (if_neg hne)
  | edit id' key =>
    unfold operate editKeys
    dsimp only
    split
    · rfl
    rename_i row hFind
    have hId : row.id = id' := (Table.find?_eq_some.mp hFind).2
    obtain ⟨u, hUpdate, hRows⟩ := ChannelTables.updateKeys_spec unmarshal
      (show s.tables.channels.find? ({ row.loaded with key := key } : Channel).id = some row from
        (congrArg _ hId).trans hFind)
    rw [hUpdate]
    exact (hRows id).trans (if_neg fun hEq => hne (hEq.trans hId))

theorem find?_operate (hFind : s.tables.channels.find? op.channelId = some row)
    (hMulti : row.channelInfo.isMultiKey = true)
    (hReaches : s.Reaches unmarshal sorting memoryCacheEnabled op) :
    (s.operate unmarshal sorting memoryCacheEnabled op).tables.channels.find? op.channelId =
      some (row.operated unmarshal op) := by
  cases op with
  | updateStatus c =>
    have hCache : ∃ cache, (if memoryCacheEnabled then
        s.cache.updateChannelStatus unmarshal sorting c else some s.cache) = some cache := by
      by_cases hMem : memoryCacheEnabled = true
      · rw [if_pos hMem]
        exact isSome_iff_exists.mp (hReaches hMem)
      · exact ⟨_, if_neg hMem⟩
    obtain ⟨cache, hCache⟩ := hCache
    unfold operate updateChannelStatus
    dsimp only
    rw [hCache]
    exact ChannelTables.find?_updateChannelStatus hFind hMulti
  | manage req =>
    have hSpec := ChannelTables.manageMultiKeys_spec unmarshal hFind hMulti
    unfold operate manageMultiKeys Channel.operated
    dsimp only
    cases hManaged : row.loaded.managed unmarshal req with rw [hManaged] at hSpec
    | none =>
      obtain ⟨text, hError⟩ := hSpec
      rw [hError]
      exact hFind
    | some ch =>
      obtain ⟨u, text, hOk, hRows⟩ := hSpec
      rw [hOk]
      exact (hRows req.channelId).trans (if_pos rfl)
  | edit id' key =>
    have hFind' : s.tables.channels.find? id' = some row := hFind
    have hId : row.id = id' := (Table.find?_eq_some.mp hFind').2
    obtain ⟨u, hUpdate, hRows⟩ := ChannelTables.updateKeys_spec unmarshal
      (show s.tables.channels.find? ({ row.loaded with key := key } : Channel).id = some row from
        (congrArg _ hId).trans hFind')
    unfold operate editKeys
    dsimp only
    rw [hFind']
    dsimp only
    rw [hUpdate]
    exact (hRows id').trans (if_pos hId.symm)

theorem operate_of_not_reaches (h : ¬ s.Reaches unmarshal sorting memoryCacheEnabled op) :
    s.operate unmarshal sorting memoryCacheEnabled op = s := by
  cases op with
  | updateStatus c =>
    unfold Reaches at h
    simp only [Classical.not_imp, Bool.not_eq_true, isSome_eq_false_iff, isNone_iff_eq_none] at h
    unfold operate updateChannelStatus
    dsimp only
    rw [if_pos h.1, h.2]
  | manage req | edit id key => exact absurd trivial h

/-- The channel is stored, with several keys. -/
def MultiStored (id : Int) (s : Node) : Prop :=
  ∃ row, s.tables.channels.find? id = some row ∧ row.channelInfo.isMultiKey = true

theorem MultiStored.operate (h : MultiStored id s) (op : KeyOp) :
    MultiStored id (s.operate unmarshal sorting memoryCacheEnabled op) := by
  obtain ⟨row, hFind, hMulti⟩ := h
  by_cases hId : id = op.channelId
  · subst hId
    by_cases hReaches : s.Reaches unmarshal sorting memoryCacheEnabled op
    · exact ⟨_, find?_operate hFind hMulti hReaches, Channel.isMultiKey_operated hMulti op⟩
    · rw [operate_of_not_reaches hReaches]
      exact ⟨row, hFind, hMulti⟩
  · exact ⟨row, (find?_operate_of_ne hId).trans hFind, hMulti⟩

theorem usable_operate_iff (hMulti : MultiStored id s) (h : s.Usable unmarshal id) (op : KeyOp) :
    (s.operate unmarshal sorting memoryCacheEnabled op).Usable unmarshal id ↔
      ¬ s.Strips unmarshal sorting memoryCacheEnabled id op := by
  obtain ⟨row, hFind, hMulti⟩ := hMulti
  by_cases hId : op.channelId = id
  · subst hId
    by_cases hReaches : s.Reaches unmarshal sorting memoryCacheEnabled op
    · have hAfter := find?_operate hFind hMulti hReaches
      have hStrips : s.Strips unmarshal sorting memoryCacheEnabled op.channelId op ↔
          row.Strips unmarshal op := by
        simp [Strips, hReaches, hFind]
      rw [hStrips, ← Channel.usable_operated_iff hMulti (h row hFind) op]
      unfold Usable
      rw [hAfter]
      simp
    · rw [operate_of_not_reaches hReaches]
      exact iff_of_true h fun hStrips => hReaches hStrips.2.1
  · refine iff_of_true ?_ fun hStrips => hId hStrips.1
    unfold Usable
    rw [find?_operate_of_ne (Ne.symm hId)]
    exact h

/-- **An enabled channel keeps an enabled key** exactly when no operation takes the last one. -/
theorem enabled_has_key_iff (unmarshal : Unmarshal) (sorting : Sorting Int)
    (memoryCacheEnabled : Bool) (hMulti : MultiStored id s) (h : s.Usable unmarshal id)
    (ops : List KeyOp) :
    (∀ t ∈ states (operate unmarshal sorting memoryCacheEnabled) s ops, t.Usable unmarshal id) ↔
      ∀ m ∈ moves (operate unmarshal sorting memoryCacheEnabled) s ops,
        ¬ m.1.Strips unmarshal sorting memoryCacheEnabled id m.2 :=
  states_forall_iff (operate unmarshal sorting memoryCacheEnabled) (I := MultiStored id)
    (fun _ op hM => hM.operate op) (fun _ op hM hU => usable_operate_iff hM hU op) ops s hMulti h

theorem usable_pairNode : (pairNode ∅).Usable (fun _ => none) 1 := by
  intro row hRow
  obtain rfl : pairChannel ∅ = row := some.inj hRow
  intro _ _
  exact ⟨0, by decide +kernel, rfl⟩

/-- A key fails, and the other is left. -/
theorem failed_key_leaves_other :
    MultiStored 1 (pairNode ∅) ∧
      ∀ t ∈ states (operate (fun _ => none) Sorting.ofStable true) (pairNode ∅)
        [.updateStatus disableFirst], t.Usable (fun _ => none) 1 := by
  refine ⟨⟨pairChannel ∅, rfl, rfl⟩, ?_⟩
  refine (enabled_has_key_iff _ _ _ ⟨pairChannel ∅, rfl, rfl⟩ usable_pairNode _).mpr ?_
  intro m hm
  obtain rfl := List.mem_singleton.mp hm
  rintro ⟨-, -, row, hRow, hStrips⟩
  obtain rfl : pairChannel ∅ = row := some.inj hRow
  refine KeyView.not_stripsBy_of_size ?_ ?_ (Channel.disabled_subset_keys _) disableFirst hStrips
  · exact (by decide +kernel : (pairChannel ∅).loaded.getKeys (fun _ => none) ≠ [])
  · exact (by decide +kernel :
      (2 : Int) ≤ ((pairChannel ∅).loaded.getKeys fun _ => none).length)

def disableAll : MultiKeyManageRequest := { channelId := 1, action := .disableAllKeys }

def emptiedNode : Node :=
  (pairNode ∅).operate (fun _ => none) Sorting.ofStable true (.manage disableAll)

/-- **`disable_all_keys` leaves the channel enabled**, without a key. -/
theorem disable_all_strips :
    MultiStored 1 (pairNode ∅) ∧ (pairNode ∅).Usable (fun _ => none) 1 ∧
      (emptiedNode.tables.channels.find? 1).map (fun row => row.status) = some .enabled ∧
      (emptiedNode.tables.channels.find? 1).map
        (fun row => row.loaded.keyed fun _ => none) =
          some [("key-1", .manuallyDisabled), ("key-2", .manuallyDisabled)] ∧
      ¬ emptiedNode.Usable (fun _ => none) 1 := by
  have hStatus : (emptiedNode.tables.channels.find? 1).map (fun row => row.status) =
      some .enabled := by decide +kernel
  have hKeyed : (emptiedNode.tables.channels.find? 1).map
      (fun row => row.loaded.keyed fun _ => none) =
        some [("key-1", .manuallyDisabled), ("key-2", .manuallyDisabled)] := by decide +kernel
  have hNoKey : (emptiedNode.tables.channels.find? 1).map
      (fun row => decide (row.loaded.HasKey fun _ => none)) = some false := by decide +kernel
  refine ⟨⟨pairChannel ∅, rfl, rfl⟩, usable_pairNode, hStatus, hKeyed, fun hUsable => ?_⟩
  obtain ⟨row, hRow, hOn⟩ := map_eq_some_iff.mp hStatus
  rw [hRow, map_some, some.injEq, decide_eq_false_iff_not] at hNoKey
  exact hNoKey (hUsable row hRow hOn)

end Node

end NewApi.Channels
