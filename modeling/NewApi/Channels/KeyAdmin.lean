import NewApi.Channels.Keys

/-!
# Managing the keys of a channel

`ManageMultiKeys` hands the changed channel to `Channel.Update`. Deleting numbers the rest anew and
writes it as lines of one text; `Update` takes an empty text to mean that the keys stay
(`deletion_exact_iff`).
-/

namespace NewApi.Channels

open Core Go List Option Channel Prod

/-! ## `Channel.Update` -/

def countKeys (unmarshal : Unmarshal) (keyStr : String) : Nat :=
  if keyStr = "" then 0
  else
    let keys := ((if hasPrefix (trimSpace keyStr) "[" then unmarshal (trimSpace keyStr)
      else none).getD [])
    if keys.length = 0 then (split (trimChar keyStr '\n') '\n').length else keys.length

/-- What `Update` does to a channel with several keys before it writes. -/
def Channel.recount (unmarshal : Unmarshal) (existing : String) (ch : Channel) : Channel :=
  if ch.channelInfo.isMultiKey then
    let size := countKeys unmarshal (if ch.key ≠ "" then ch.key else existing)
    { ch with
      channelInfo := { ch.channelInfo with
        multiKeySize := size
        multiKeyStatusList := ch.channelInfo.multiKeyStatusList.below size } }
  else ch

def ChannelTables.updateKeys (unmarshal : Unmarshal) (t : ChannelTables) (ch : Channel) :
    Option (Channel × ChannelTables) :=
  match t.channels.find? ch.id with
  | none => none
  | some existing => t.update (ch.recount unmarshal existing.key)

def Channel.updated (unmarshal : Unmarshal) (existing ch : Channel) : Channel :=
  { ch.recount unmarshal existing.key with
    status := existing.status
    key := if ch.key = "" then existing.key else ch.key
    keys := [] }

/-! ## Deleting keys -/

structure Remaining where
  remainingKeys : List String := []
  newStatusList : Sparse ChannelStatus := ∅
  newDisabledTime : Sparse Int := ∅
  newDisabledReason : Sparse String := ∅
  newIndex : Nat := 0

/-- A key is kept.  An entry that says enabled is not. -/
def Remaining.keep (info : ChannelInfo) (notes : Bool) (r : Remaining) (key : String × Nat) :
    Remaining where
  remainingKeys := r.remainingKeys ++ [key.1]
  newStatusList := r.newStatusList.put r.newIndex
    ((info.multiKeyStatusList.lookup key.2).filter (· ≠ .enabled))
  newDisabledTime := r.newDisabledTime.put r.newIndex
    (if notes then info.multiKeyDisabledTime.lookup key.2 else none)
  newDisabledReason := r.newDisabledReason.put r.newIndex
    (if notes then info.multiKeyDisabledReason.lookup key.2 else none)
  newIndex := r.newIndex + 1

/-- The loop.  `notes` are the keys whose time and reason are kept. -/
def remaining (info : ChannelInfo) (deleted notes : Nat → Bool) (keys : List String) :
    Remaining :=
  keys.zipIdx.foldl
    (fun r key => if deleted key.2 then r else r.keep info (notes key.2) key) {}

def Channel.retain (ch : Channel) (r : Remaining) : Channel :=
  { ch with
    key := join r.remainingKeys '\n'
    channelInfo := { ch.channelInfo with
      multiKeySize := r.remainingKeys.length
      multiKeyStatusList := r.newStatusList
      multiKeyDisabledTime := r.newDisabledTime
      multiKeyDisabledReason := r.newDisabledReason } }

/-! ## `ManageMultiKeys` -/

inductive MultiKeyAction where
  | disableKey
  | enableKey
  | enableAllKeys
  | disableAllKeys
  | deleteKey
  | deleteDisabledKeys
  deriving DecidableEq

structure MultiKeyManageRequest where
  channelId : Int
  action : MultiKeyAction
  keyIndex : Option Int := none

namespace Channel

variable (unmarshal : Unmarshal) (ch : Channel)

def withList (list : Sparse ChannelStatus) : Channel :=
  { ch with channelInfo := { ch.channelInfo with multiKeyStatusList := list } }

def checkIndex (missing : String) (keyIndex : Option Int) : Except String Nat :=
  match keyIndex with
  | none => .error missing
  | some i =>
    if i < 0 ∨ i ≥ ch.channelInfo.multiKeySize then .error "密钥索引超出范围" else .ok i.toNat

def disableKey (keyIndex : Option Int) : Except String (Channel × String) := do
  let i ← ch.checkIndex "未指定要禁用的密钥索引" keyIndex
  return (ch.withList (ch.channelInfo.multiKeyStatusList.insert i .manuallyDisabled), "密钥已禁用")

def enableKey (keyIndex : Option Int) : Except String (Channel × String) := do
  let i ← ch.checkIndex "未指定要启用的密钥索引" keyIndex
  return ({ ch with
    channelInfo := { ch.channelInfo with
      multiKeyStatusList := ch.channelInfo.multiKeyStatusList.erase i
      multiKeyDisabledTime := ch.channelInfo.multiKeyDisabledTime.erase i
      multiKeyDisabledReason := ch.channelInfo.multiKeyDisabledReason.erase i } }, "密钥已启用")

def enableAllKeys : Channel × String :=
  let enabledCount := ch.channelInfo.multiKeyStatusList.keys.card
  ({ ch with
    channelInfo := { ch.channelInfo with
      multiKeyStatusList := ∅, multiKeyDisabledTime := ∅, multiKeyDisabledReason := ∅ } },
    s!"已启用 {enabledCount} 个密钥")

def disableNext (st : Sparse ChannelStatus × Nat) (i : Nat) : Sparse ChannelStatus × Nat :=
  if (st.1.lookup i).getD .enabled = .enabled then (st.1.insert i .manuallyDisabled, st.2 + 1)
  else st

def disableAllKeys : Except String (Channel × String) :=
  let (list, disabledCount) := (List.range ch.channelInfo.multiKeySize.toNat).foldl disableNext
    (ch.channelInfo.multiKeyStatusList, 0)
  if disabledCount = 0 then .error "没有可禁用的密钥"
  else .ok (ch.withList list, s!"已禁用 {disabledCount} 个密钥")

def deleteKey (keyIndex : Option Int) : Except String (Channel × String) := do
  let i ← ch.checkIndex "未指定要删除的密钥索引" keyIndex
  let r := remaining ch.channelInfo (fun j => j = i) (fun _ => true) (ch.getKeys unmarshal)
  if r.remainingKeys.length = 0 then .error "不能删除最后一个密钥"
  else return (ch.retain r, "密钥已删除")

def deleteDisabledKeys : Except String (Channel × String) :=
  let info := ch.channelInfo
  let keys := ch.getKeys unmarshal
  let r := remaining info (fun j => info.getStatus j = .autoDisabled)
    (fun j => info.getStatus j ≠ .enabled) keys
  let deletedCount := (List.range keys.length).countP fun j => info.getStatus j = .autoDisabled
  if deletedCount = 0 then .error "没有需要删除的自动禁用密钥"
  else .ok (ch.retain r, s!"已删除 {deletedCount} 个自动禁用的密钥")

def manage (req : MultiKeyManageRequest) : Except String (Channel × String) :=
  match req.action with
  | .disableKey => ch.disableKey req.keyIndex
  | .enableKey => ch.enableKey req.keyIndex
  | .enableAllKeys => .ok ch.enableAllKeys
  | .disableAllKeys => ch.disableAllKeys
  | .deleteKey => ch.deleteKey unmarshal req.keyIndex
  | .deleteDisabledKeys => ch.deleteDisabledKeys unmarshal

end Channel

/-- `ManageMultiKeys`, with the answer.  The cache is built anew by the caller. -/
def ChannelTables.manageMultiKeys (unmarshal : Unmarshal) (t : ChannelTables)
    (req : MultiKeyManageRequest) : Except String (ChannelTables × String) :=
  match t.channels.find? req.channelId with
  | none => .error "渠道不存在"
  | some row =>
    if !row.channelInfo.isMultiKey then .error "该渠道不是多密钥模式"
    else
      match row.loaded.manage unmarshal req with
      | .error text => .error text
      | .ok (ch, text) =>
        match t.updateKeys unmarshal ch with
        | none => .error "record not found"
        | some (_, tables) => .ok (tables, text)

/-! ## What `Update` leaves -/

def textKeys (unmarshal : Unmarshal) (key : String) : List String :=
  if key = "" then [] else parseKeys unmarshal key

theorem Channel.getKeys_loaded (unmarshal : Unmarshal) (ch : Channel) :
    ch.loaded.getKeys unmarshal = textKeys unmarshal ch.key := by
  rw [getKeys_eq]
  exact if_congr Iff.rfl rfl (if_neg (by simp [loaded]))

theorem length_textKeys_le (unmarshal : Unmarshal) (key : String) :
    (textKeys unmarshal key).length ≤ countKeys unmarshal key := by
  unfold textKeys countKeys parseKeys
  by_cases hKey : key = ""
  · rw [if_pos hKey, if_pos hKey]
    exact le_rfl
  rw [if_neg hKey, if_neg hKey]
  cases (if hasPrefix (trimSpace key) "[" = true then unmarshal (trimSpace key) else none) with
  | none => simp
  | some arr =>
    by_cases hArr : arr.length = 0 <;> simp [hArr]

def Channel.keyed (unmarshal : Unmarshal) (ch : Channel) : List (String × ChannelStatus) :=
  (ch.getKeys unmarshal).zipIdx.map fun k => (k.1, ch.channelInfo.getStatus k.2)

variable {unmarshal : Unmarshal}

section Updated

variable {existing ch : Channel}

theorem Channel.getKeys_updated (unmarshal : Unmarshal) (existing ch : Channel) :
    (existing.updated unmarshal ch).getKeys unmarshal =
      textKeys unmarshal (if ch.key = "" then existing.key else ch.key) :=
  (existing.updated unmarshal ch).getKeys_loaded unmarshal

theorem Channel.getStatus_updated (hMulti : ch.channelInfo.isMultiKey = true) {j : Nat}
    (hj : j < ((existing.updated unmarshal ch).getKeys unmarshal).length) :
    (existing.updated unmarshal ch).channelInfo.getStatus j = ch.channelInfo.getStatus j := by
  have hSize : j < countKeys unmarshal (if ch.key ≠ "" then ch.key else existing.key) := by
    rw [ite_not]
    rw [getKeys_updated] at hj
    exact lt_of_lt_of_le hj (length_textKeys_le unmarshal _)
  unfold updated recount ChannelInfo.getStatus
  rw [if_pos hMulti]
  dsimp only
  rw [Sparse.lookup_below, if_pos hSize]

theorem Channel.keyed_updated (hMulti : ch.channelInfo.isMultiKey = true) :
    (existing.updated unmarshal ch).keyed unmarshal =
      (textKeys unmarshal (if ch.key = "" then existing.key else ch.key)).zipIdx.map
        fun k => (k.1, ch.channelInfo.getStatus k.2) := by
  rw [← getKeys_updated, keyed]
  refine map_congr_left fun k hk => ?_
  rw [getStatus_updated hMulti (snd_lt_of_mem_zipIdx hk)]

theorem ChannelTables.updateKeys_spec (unmarshal : Unmarshal) {t : ChannelTables}
    (hFind : t.channels.find? ch.id = some existing) :
    ∃ u, t.updateKeys unmarshal ch = some (existing.updated unmarshal ch, u) ∧
      ∀ k, u.channels.find? k =
        if k = ch.id then some (existing.updated unmarshal ch) else t.channels.find? k := by
  have hId : (ch.recount unmarshal existing.key).id = ch.id := by
    unfold recount
    split <;> rfl
  have hKey : (ch.recount unmarshal existing.key).key = ch.key := by
    unfold recount
    split <;> rfl
  have hFind' : t.channels.find? (ch.recount unmarshal existing.key).id = some existing :=
    (congrArg t.channels.find? hId).trans hFind
  refine ⟨t.write (existing.updated unmarshal ch), ?_, fun k => ?_⟩
  · unfold updateKeys
    rw [hFind]
    dsimp only
    unfold update updated
    rw [hFind', hKey]
  · have hFind'' : t.channels.find? (existing.updated unmarshal ch).id = some existing := hFind'
    rw [(writes_write hFind'').2 k]
    exact if_congr (by rw [← hId]; rfl) rfl rfl

end Updated

/-! ## What the loops compute -/

structure Remaining.Of (info : ChannelInfo) (notes : Nat → Bool) (l : List (String × Nat))
    (r : Remaining) : Prop where
  keys : r.remainingKeys = l.map Prod.fst
  index : r.newIndex = l.length
  statuses : r.newStatusList.Gathers
    (fun key => (info.multiKeyStatusList.lookup key.2).filter (· ≠ .enabled)) l
  times : r.newDisabledTime.Gathers
    (fun key => if notes key.2 then info.multiKeyDisabledTime.lookup key.2 else none) l
  reasons : r.newDisabledReason.Gathers
    (fun key => if notes key.2 then info.multiKeyDisabledReason.lookup key.2 else none) l

section Loop

variable {info : ChannelInfo} {deleted notes : Nat → Bool} {l : List (String × Nat)}
  {r : Remaining}

theorem Remaining.Of.keep (h : r.Of info notes l) (key : String × Nat) :
    (r.keep info (notes key.2) key).Of info notes (l ++ [key]) where
  keys := by simp [Remaining.keep, h.keys]
  index := by simp [Remaining.keep, h.index]
  statuses := by
    have hPut := h.statuses.put key
    rwa [← h.index] at hPut
  times := by
    have hPut := h.times.put key
    rwa [← h.index] at hPut
  reasons := by
    have hPut := h.reasons.put key
    rwa [← h.index] at hPut

theorem Remaining.Of.foldl (h : r.Of info notes l) (keys : List (String × Nat)) :
    (keys.foldl (fun r key => if deleted key.2 then r else r.keep info (notes key.2) key) r).Of
      info notes (l ++ keys.filter fun key => !deleted key.2) := by
  induction keys generalizing r l with
  | nil => simpa using h
  | cons key keys ih =>
    rw [foldl_cons]
    by_cases hDeleted : deleted key.2 = true
    · rw [if_pos hDeleted, filter_cons_of_neg (by simp [hDeleted])]
      exact ih h
    · rw [if_neg hDeleted, filter_cons_of_pos (by simpa using hDeleted), append_cons]
      exact ih (h.keep key)

theorem remaining_of (info : ChannelInfo) (deleted notes : Nat → Bool) (keys : List String) :
    (remaining info deleted notes keys).Of info notes
      (keys.zipIdx.filter fun key => !deleted key.2) :=
  Remaining.Of.foldl (l := [])
    ⟨rfl, rfl, Sparse.gathers_nil, Sparse.gathers_nil, Sparse.gathers_nil⟩ keys.zipIdx

theorem Channel.getStatus_retain (h : r.Of info notes l) (ch : Channel) (j : Nat) :
    (ch.retain r).channelInfo.getStatus j =
      (l[j]?).elim .enabled fun key => info.getStatus key.2 := by
  unfold retain ChannelInfo.getStatus
  dsimp only
  rw [h.statuses j]
  cases l[j]? with
  | none => rfl
  | some key =>
    rw [bind_some, elim_some]
    cases info.multiKeyStatusList.lookup key.2 with
    | none => rfl
    | some status => by_cases hOn : status = .enabled <;> simp [Option.filter, hOn]

end Loop

/-! ## What is left of the keys -/

def Channel.spared (unmarshal : Unmarshal) (ch : Channel) (deleted : Nat → Bool) :
    List (String × ChannelStatus) :=
  ((ch.getKeys unmarshal).zipIdx.filter fun key => !deleted key.2).map
    fun key => (key.1, ch.channelInfo.getStatus key.2)

theorem filter_zipIdx_ne {α : Type} (l : List α) (n i : Nat) :
    (l.zipIdx n).filter (fun k => !decide (k.2 = n + i)) = (l.zipIdx n).eraseIdx i := by
  induction l generalizing n i with
  | nil => rfl
  | cons a l ih =>
    rw [zipIdx_cons]
    cases i with
    | zero =>
      rw [filter_cons_of_neg (by simp), eraseIdx_cons_zero, filter_eq_self]
      intro k hk
      have hPast := le_snd_of_mem_zipIdx hk
      simp only [Bool.not_eq_true', decide_eq_false_iff_not]
      omega
    | succ i =>
      rw [filter_cons_of_pos (by simp), eraseIdx_cons_succ, ← ih (n + 1) i]
      simp only [Nat.add_assoc, Nat.add_comm 1 i]

theorem Channel.spared_eraseIdx (ch : Channel) (i : Nat) :
    ch.spared unmarshal (fun j => j = i) = (ch.keyed unmarshal).eraseIdx i := by
  have hFilter := filter_zipIdx_ne (ch.getKeys unmarshal) 0 i
  rw [Nat.zero_add] at hFilter
  rw [spared, hFilter, keyed, eraseIdx_map]

theorem Channel.spared_filter (ch : Channel) :
    ch.spared unmarshal (fun j => ch.channelInfo.getStatus j = .autoDisabled) =
      (ch.keyed unmarshal).filter fun k => k.2 ≠ .autoDisabled := by
  rw [spared, keyed, List.filter_map]
  congr 2
  funext key
  simp

structure Channel.Retains (ch : Channel) (kept : List (String × ChannelStatus)) : Prop where
  key : ch.key = join (kept.map Prod.fst) '\n'
  status : ∀ j, ch.channelInfo.getStatus j = (kept[j]?).elim .enabled Prod.snd

theorem Channel.retains_retain (ch : Channel) (deleted notes : Nat → Bool) :
    (ch.retain (remaining ch.channelInfo deleted notes (ch.getKeys unmarshal))).Retains
      (ch.spared unmarshal deleted) := by
  have hOf := remaining_of ch.channelInfo deleted notes (ch.getKeys unmarshal)
  refine ⟨?_, fun j => ?_⟩
  · rw [spared, List.map_map]
    exact congrArg (join · '\n') hOf.keys
  · rw [getStatus_retain hOf, spared, List.getElem?_map]
    cases ((ch.getKeys unmarshal).zipIdx.filter fun key => !deleted key.2)[j]? <;> rfl

theorem Channel.Retains.keyed_updated_iff {existing ch : Channel}
    {kept : List (String × ChannelStatus)} (h : ch.Retains kept)
    (hMulti : ch.channelInfo.isMultiKey = true) :
    (existing.updated unmarshal ch).keyed unmarshal = kept ↔
      textKeys unmarshal (if ch.key = "" then existing.key else ch.key) = kept.map fst := by
  rw [keyed_updated hMulti]
  constructor <;> intro hEq
  · rw [← hEq, List.map_map]
    exact (List.zipIdx_map_fst 0 _).symm
  · rw [hEq]
    refine ext_getElem? fun j => ?_
    rw [List.getElem?_map, List.getElem?_zipIdx, List.getElem?_map]
    cases hj : kept[j]? with
    | none => rfl
    | some k => simp [h.status, hj]

/-- The text is an array of these keys, or it is none and they are its lines. -/
def ReadsBack (unmarshal : Unmarshal) (keys : List String) : Prop :=
  match (if hasPrefix (trimSpace (join keys '\n')) "[" then
    unmarshal (trimSpace (join keys '\n')) else none) with
  | some arr => arr = keys
  | none => (∀ key ∈ keys, '\n' ∉ key.toList) ∧ keys.head? ≠ some "" ∧ keys.getLast? ≠ some ""

theorem textKeys_join_iff {keys : List String} (hText : join keys '\n' ≠ "") :
    textKeys unmarshal (join keys '\n') = keys ↔ ReadsBack unmarshal keys := by
  unfold textKeys parseKeys ReadsBack
  rw [if_neg hText]
  cases (if hasPrefix (trimSpace (join keys '\n')) "[" = true then
    unmarshal (trimSpace (join keys '\n')) else none) with
  | none => exact split_trimChar_join_iff hText
  | some arr => exact Iff.rfl

/-! ## What the actions do -/

theorem toOption_bind {ε α β : Type} (x : Except ε α) (f : α → Except ε β) :
    (x >>= f).toOption = x.toOption.bind fun a => (f a).toOption := by
  cases x <;> rfl

namespace Channel

variable {ch : Channel} {req : MultiKeyManageRequest}

def index (ch : Channel) (keyIndex : Option Int) : Option Nat :=
  keyIndex.bind fun i =>
    if 0 ≤ i ∧ i < ch.channelInfo.multiKeySize then some i.toNat else none

theorem toOption_checkIndex (ch : Channel) (missing : String) (keyIndex : Option Int) :
    (ch.checkIndex missing keyIndex).toOption = ch.index keyIndex := by
  unfold checkIndex index
  cases keyIndex with
  | none => rfl
  | some i =>
    by_cases hRange : i < 0 ∨ i ≥ ch.channelInfo.multiKeySize
    · have hOut : ¬ (0 ≤ i ∧ i < ch.channelInfo.multiKeySize) := by omega
      simp [hRange, hOut, Except.toOption]
    · have hIn : 0 ≤ i ∧ i < ch.channelInfo.multiKeySize := by omega
      simp [hRange, hIn, Except.toOption]

def managed (unmarshal : Unmarshal) (ch : Channel) (req : MultiKeyManageRequest) :
    Option Channel :=
  ((ch.manage unmarshal req).toOption).map Prod.fst

theorem remainingKeys_eq_nil_iff (unmarshal : Unmarshal) (ch : Channel)
    (deleted notes : Nat → Bool) :
    (remaining ch.channelInfo deleted notes (ch.getKeys unmarshal)).remainingKeys.length = 0 ↔
      ch.spared unmarshal deleted = [] := by
  rw [spared, map_eq_nil_iff,
    (remaining_of ch.channelInfo deleted notes (ch.getKeys unmarshal)).keys, length_map,
    length_eq_zero_iff]

theorem toOption_deleteKey (ch : Channel) (keyIndex : Option Int) :
    ((ch.deleteKey unmarshal keyIndex).toOption).map fst =
      (ch.index keyIndex).bind fun i =>
        if (ch.keyed unmarshal).eraseIdx i = [] then none
        else some (ch.retain (remaining ch.channelInfo (fun j => j = i) (fun _ => true)
          (ch.getKeys unmarshal))) := by
  unfold deleteKey
  rw [toOption_bind, toOption_checkIndex, Option.map_bind]
  refine congrArg (Option.bind _) (funext fun i => ?_)
  have hNil := ch.remainingKeys_eq_nil_iff unmarshal (fun j => j = i) fun _ => true
  rw [spared_eraseIdx] at hNil
  by_cases hLast : (ch.keyed unmarshal).eraseIdx i = []
  · simp only [Function.comp_apply, hNil.mpr hLast, hLast, if_true]
    rfl
  · simp only [Function.comp_apply, mt hNil.mp hLast, hLast, if_false]
    rfl

theorem toOption_deleteDisabledKeys (ch : Channel) :
    ((ch.deleteDisabledKeys unmarshal).toOption).map fst =
      if ∀ k ∈ ch.keyed unmarshal, k.2 ≠ .autoDisabled then none
      else some (ch.retain (remaining ch.channelInfo
        (fun j => ch.channelInfo.getStatus j = .autoDisabled)
        (fun j => ch.channelInfo.getStatus j ≠ .enabled) (ch.getKeys unmarshal))) := by
  have hCount : (range (ch.getKeys unmarshal).length).countP
      (fun j => ch.channelInfo.getStatus j = .autoDisabled) = 0 ↔
        ∀ k ∈ ch.keyed unmarshal, k.2 ≠ .autoDisabled := by
    rw [List.countP_eq_zero]
    simp only [List.mem_range, decide_eq_true_eq, keyed, List.forall_mem_map]
    constructor
    · intro h k hk
      exact h k.2 (List.snd_lt_of_mem_zipIdx hk)
    · intro h j hj
      exact h ((ch.getKeys unmarshal)[j], j) (List.mem_zipIdx_iff_getElem?.mpr (by simp [hj]))
  unfold deleteDisabledKeys
  by_cases hNone : ∀ k ∈ ch.keyed unmarshal, k.2 ≠ .autoDisabled
  · simp only [hCount.mpr hNone, if_true]
    rw [if_pos hNone]
    rfl
  · simp only [mt hCount.mp hNone, if_false]
    rw [if_neg hNone]
    rfl

theorem foldl_disableNext (list : Sparse ChannelStatus) (n : Nat) :
    (∀ j, (((range n).foldl disableNext (list, 0)).1.lookup j).getD .enabled =
      if j < n ∧ (list.lookup j).getD .enabled = .enabled then .manuallyDisabled
      else (list.lookup j).getD .enabled) ∧
    (((range n).foldl disableNext (list, 0)).2 = 0 ↔
      ∀ j < n, (list.lookup j).getD .enabled ≠ .enabled) := by
  induction n with
  | zero => simp
  | succ n ih =>
    rw [range_succ, foldl_append, foldl_cons, foldl_nil]
    generalize (range n).foldl disableNext (list, 0) = st at ih
    obtain ⟨hLookup, hCount⟩ := ih
    have hHere := hLookup n
    rw [if_neg (by omega)] at hHere
    unfold disableNext
    rw [hHere]
    split
    · next hOn =>
      refine ⟨fun j => ?_, iff_of_false (by simp) fun h => h n (by omega) hOn⟩
      by_cases hj : j = n
      · subst hj
        simp [hOn]
      · rw [Finmap.lookup_insert_of_ne _ hj, hLookup j]
        exact if_congr (and_congr_left fun _ => by omega) rfl rfl
    · next hOn =>
      refine ⟨fun j => ?_, hCount.trans ⟨fun h j hj => ?_, fun h j hj => h j (by omega)⟩⟩
      · rw [hLookup j]
        refine if_congr (and_congr_left fun hj => ?_) rfl rfl
        have hne : j ≠ n := fun hEq => hOn (hEq ▸ hj)
        omega
      · by_cases hEq : j = n
        · rwa [hEq]
        · exact h j (by omega)

theorem getStatus_disableAll (ch : Channel) (j : Nat) :
    (ch.withList ((range ch.channelInfo.multiKeySize.toNat).foldl disableNext
      (ch.channelInfo.multiKeyStatusList, 0)).1).channelInfo.getStatus j =
        if j < ch.channelInfo.multiKeySize.toNat ∧ ch.channelInfo.getStatus j = .enabled then
          .manuallyDisabled
        else ch.channelInfo.getStatus j :=
  (foldl_disableNext ch.channelInfo.multiKeyStatusList ch.channelInfo.multiKeySize.toNat).1 j

theorem getStatus_disableAll_ne_iff (ch : Channel) (j : Nat) :
    (ch.withList ((range ch.channelInfo.multiKeySize.toNat).foldl disableNext
      (ch.channelInfo.multiKeyStatusList, 0)).1).channelInfo.getStatus j ≠ .enabled ↔
        (ch.channelInfo.multiKeySize.toNat ≤ j → ch.channelInfo.getStatus j ≠ .enabled) := by
  rw [getStatus_disableAll]
  by_cases hj : j < ch.channelInfo.multiKeySize.toNat
  · refine iff_of_true ?_ fun hPast => absurd hj (Nat.not_lt.mpr hPast)
    by_cases hOn : ch.channelInfo.getStatus j = .enabled
    · rw [if_pos ⟨hj, hOn⟩]
      decide
    · rwa [if_neg fun hBoth => hOn hBoth.2]
  · rw [if_neg fun hBoth => hj hBoth.1]
    exact (imp_iff_right (Nat.le_of_not_lt hj)).symm

theorem getStatus_disabled_ne_iff (ch : Channel) (i j : Nat) :
    (ch.withList (ch.channelInfo.multiKeyStatusList.insert i
      .manuallyDisabled)).channelInfo.getStatus j ≠ .enabled ↔
        (j ≠ i → ch.channelInfo.getStatus j ≠ .enabled) := by
  unfold withList ChannelInfo.getStatus
  by_cases hj : j = i
  · subst hj
    simp
  · simp [hj]

theorem toOption_disableKey (ch : Channel) (keyIndex : Option Int) :
    ((ch.disableKey keyIndex).toOption).map fst = (ch.index keyIndex).map fun i =>
      ch.withList (ch.channelInfo.multiKeyStatusList.insert i .manuallyDisabled) := by
  unfold disableKey
  rw [toOption_bind, toOption_checkIndex]
  cases ch.index keyIndex <;> rfl

def forget (ch : Channel) (i : Nat) : Channel :=
  { ch with
    channelInfo := { ch.channelInfo with
      multiKeyStatusList := ch.channelInfo.multiKeyStatusList.erase i
      multiKeyDisabledTime := ch.channelInfo.multiKeyDisabledTime.erase i
      multiKeyDisabledReason := ch.channelInfo.multiKeyDisabledReason.erase i } }

theorem getStatus_forget {ch : Channel} {j : Nat} (h : ch.channelInfo.getStatus j = .enabled)
    (i : Nat) : (ch.forget i).channelInfo.getStatus j = .enabled := by
  unfold forget ChannelInfo.getStatus
  by_cases hj : j = i
  · subst hj
    simp
  · simpa [hj, ChannelInfo.getStatus] using h

theorem toOption_enableKey (ch : Channel) (keyIndex : Option Int) :
    ((ch.enableKey keyIndex).toOption).map fst = (ch.index keyIndex).map ch.forget := by
  unfold enableKey
  rw [toOption_bind, toOption_checkIndex]
  cases ch.index keyIndex <;> rfl

theorem toOption_disableAllKeys (ch : Channel) :
    ((ch.disableAllKeys).toOption).map fst =
      if ∀ j < ch.channelInfo.multiKeySize.toNat, ch.channelInfo.getStatus j ≠ .enabled then none
      else some (ch.withList ((range ch.channelInfo.multiKeySize.toNat).foldl disableNext
        (ch.channelInfo.multiKeyStatusList, 0)).1) := by
  have hCount := (foldl_disableNext ch.channelInfo.multiKeyStatusList
    ch.channelInfo.multiKeySize.toNat).2
  unfold disableAllKeys
  by_cases hNone : ∀ j < ch.channelInfo.multiKeySize.toNat, ch.channelInfo.getStatus j ≠ .enabled
  · rw [if_pos hNone]
    simp only [hCount.mpr hNone, if_true]
    rfl
  · rw [if_neg hNone]
    simp only [mt hCount.mp hNone, if_false]
    rfl

theorem managed_keeps {after : Channel} (h : ch.managed unmarshal req = some after) :
    after.id = ch.id ∧ after.channelInfo.isMultiKey = ch.channelInfo.isMultiKey := by
  unfold managed manage at h
  cases hAction : req.action with
  | disableKey =>
    simp only [hAction, toOption_disableKey, map_eq_some_iff] at h
    obtain ⟨i, -, rfl⟩ := h
    exact ⟨rfl, rfl⟩
  | enableKey =>
    simp only [hAction, toOption_enableKey, map_eq_some_iff] at h
    obtain ⟨i, -, rfl⟩ := h
    exact ⟨rfl, rfl⟩
  | enableAllKeys =>
    simp only [hAction] at h
    cases h
    exact ⟨rfl, rfl⟩
  | disableAllKeys =>
    simp only [hAction, toOption_disableAllKeys] at h
    split at h <;> cases h
    · exact ⟨rfl, rfl⟩
  | deleteKey =>
    simp only [hAction, toOption_deleteKey, bind_eq_some_iff] at h
    obtain ⟨i, -, h⟩ := h
    split at h
    · cases h
    · cases h
      exact ⟨rfl, rfl⟩
  | deleteDisabledKeys =>
    simp only [hAction, toOption_deleteDisabledKeys] at h
    split at h
    · cases h
    · cases h
      exact ⟨rfl, rfl⟩

end Channel

theorem ChannelTables.manageMultiKeys_spec (unmarshal : Unmarshal) {t : ChannelTables}
    {req : MultiKeyManageRequest} {row : Channel}
    (hFind : t.channels.find? req.channelId = some row)
    (hMulti : row.channelInfo.isMultiKey = true) :
    match row.loaded.managed unmarshal req with
    | none => ∃ text, t.manageMultiKeys unmarshal req = .error text
    | some ch => ∃ u text, t.manageMultiKeys unmarshal req = .ok (u, text) ∧
        ∀ k, u.channels.find? k =
          if k = req.channelId then some (row.updated unmarshal ch) else t.channels.find? k := by
  unfold manageMultiKeys
  rw [hFind]
  dsimp only
  rw [if_neg (by simp [hMulti])]
  cases hManage : row.loaded.manage unmarshal req with
  | error text =>
    have hNone : row.loaded.managed unmarshal req = none := by
      rw [managed, hManage]
      rfl
    rw [hNone]
    exact ⟨text, rfl⟩
  | ok r =>
    have hSome : row.loaded.managed unmarshal req = some r.1 := by
      rw [managed, hManage]
      rfl
    have hId : r.1.id = req.channelId :=
      (managed_keeps hSome).1.trans (Table.find?_eq_some.mp hFind).2
    obtain ⟨u, hUpdate, hRows⟩ := ChannelTables.updateKeys_spec unmarshal
      (hId ▸ hFind : t.channels.find? r.1.id = some row)
    rw [hSome]
    refine ⟨u, r.2, ?_, fun k => by rw [hRows, hId]⟩
    dsimp only
    rw [hUpdate]

theorem ChannelTables.manageMultiKeys_ok {t u : ChannelTables} {req : MultiKeyManageRequest}
    {text : String} (hDone : t.manageMultiKeys unmarshal req = .ok (u, text)) :
    ∃ row ch, t.channels.find? req.channelId = some row ∧
      row.channelInfo.isMultiKey = true ∧ row.loaded.managed unmarshal req = some ch ∧
      ∀ k, u.channels.find? k =
        if k = req.channelId then some (row.updated unmarshal ch) else t.channels.find? k := by
  cases hFind : t.channels.find? req.channelId with
  | none =>
    rw [manageMultiKeys, hFind] at hDone
    cases hDone
  | some row =>
    have hMulti : row.channelInfo.isMultiKey = true := by
      by_contra hSingle
      rw [manageMultiKeys, hFind] at hDone
      dsimp only at hDone
      rw [if_pos (by simpa using hSingle)] at hDone
      cases hDone
    have hSpec := manageMultiKeys_spec unmarshal hFind hMulti
    cases hManaged : row.loaded.managed unmarshal req with rw [hManaged] at hSpec
    | none =>
      obtain ⟨text', hError⟩ := hSpec
      rw [hDone] at hError
      cases hError
    | some ch =>
      obtain ⟨u', text', hOk, hRows⟩ := hSpec
      rw [hDone, Except.ok.injEq, Prod.mk.injEq] at hOk
      obtain ⟨rfl, rfl⟩ := hOk
      exact ⟨row, ch, rfl, hMulti, hManaged, hRows⟩

/-! ## Deletions -/

def MultiKeyManageRequest.spares (req : MultiKeyManageRequest)
    (keyed : List (String × ChannelStatus)) : List (String × ChannelStatus) :=
  match req.action with
  | .deleteKey => keyed.eraseIdx (req.keyIndex.getD 0).toNat
  | .deleteDisabledKeys => keyed.filter fun k => k.2 ≠ .autoDisabled
  | _ => keyed

theorem Channel.retains_managed {ch after : Channel} {req : MultiKeyManageRequest}
    (hDelete : req.action = .deleteKey ∨ req.action = .deleteDisabledKeys)
    (h : ch.managed unmarshal req = some after) :
    after.Retains (req.spares (ch.keyed unmarshal)) := by
  unfold managed manage at h
  unfold MultiKeyManageRequest.spares
  rcases hDelete with hAction | hAction
  · simp only [hAction, toOption_deleteKey, bind_eq_some_iff] at h ⊢
    obtain ⟨i, hIndex, h⟩ := h
    split at h
    · cases h
    have hi : (req.keyIndex.getD 0).toNat = i := by
      unfold index at hIndex
      obtain ⟨k, hKey, hRange⟩ := bind_eq_some_iff.mp hIndex
      split at hRange
      · rw [hKey]
        exact some.inj hRange
      · cases hRange
    rw [← some.inj h, hi, ← spared_eraseIdx]
    exact ch.retains_retain _ _
  · simp only [hAction, toOption_deleteDisabledKeys] at h ⊢
    split at h
    · cases h
    · rw [← some.inj h, ← spared_filter]
      exact ch.retains_retain _ _

/-- **When a deletion leaves exactly the other keys**: when their text reads back as these keys. -/
theorem deletion_exact_iff {t u : ChannelTables} {req : MultiKeyManageRequest} {row : Channel}
    {text : String} (hFind : t.channels.find? req.channelId = some row)
    (hDelete : req.action = .deleteKey ∨ req.action = .deleteDisabledKeys)
    (hDone : t.manageMultiKeys unmarshal req = .ok (u, text)) :
    ∃ after, u.channels.find? req.channelId = some after ∧
      (after.loaded.keyed unmarshal = req.spares (row.loaded.keyed unmarshal) ↔
        let keys := (req.spares (row.loaded.keyed unmarshal)).map fst
        if join keys '\n' = "" then keys = row.loaded.getKeys unmarshal
        else ReadsBack unmarshal keys) := by
  obtain ⟨row', ch, hFind', hMulti, hManaged, hRows⟩ := ChannelTables.manageMultiKeys_ok hDone
  obtain rfl : row = row' := some.inj (hFind.symm.trans hFind')
  refine ⟨_, (hRows req.channelId).trans (if_pos rfl), ?_⟩
  have hRetains := retains_managed hDelete hManaged
  have hKeep := (managed_keeps hManaged).2
  refine (hRetains.keyed_updated_iff (hKeep.trans hMulti)).trans ?_
  dsimp only
  rw [hRetains.key]
  by_cases hText : join ((req.spares (row.loaded.keyed unmarshal)).map fst) '\n' = ""
  · rw [if_pos hText, if_pos hText, getKeys_loaded]
    exact eq_comm
  · rw [if_neg hText, if_neg hText]
    exact textKeys_join_iff hText

def pairTables (list : Sparse ChannelStatus) : ChannelTables :=
  ChannelTables.solo (pairChannel list) Int.one_pos

def deleteSpent : MultiKeyManageRequest := { channelId := 1, action := .deleteDisabledKeys }

def pairAnswer (list : Sparse ChannelStatus) :
    Option (String × Option (List (String × ChannelStatus))) :=
  ((pairTables list).manageMultiKeys (fun _ => none) deleteSpent).toOption.map fun r =>
    (r.2, (r.1.channels.find? 1).map fun row => row.loaded.keyed fun _ => none)

theorem exists_of_pairAnswer {list : Sparse ChannelStatus} {text : String}
    {keys : Option (List (String × ChannelStatus))} (h : pairAnswer list = some (text, keys)) :
    ∃ u, (pairTables list).manageMultiKeys (fun _ => none) deleteSpent = .ok (u, text) ∧
      ((u.channels.find? 1).map fun row => row.loaded.keyed fun _ => none) = keys := by
  unfold pairAnswer at h
  cases hDone : (pairTables list).manageMultiKeys (fun _ => none) deleteSpent with rw [hDone] at h
  | error e => cases h
  | ok r =>
    obtain ⟨rfl, rfl⟩ := mk.inj (some.inj h)
    exact ⟨r.1, rfl, rfl⟩

theorem other_key_stays :
    ∃ u after, (pairTables (Finmap.singleton 0 .autoDisabled)).manageMultiKeys (fun _ => none)
        deleteSpent = .ok (u, "已删除 1 个自动禁用的密钥") ∧
      u.channels.find? 1 = some after ∧
      after.loaded.keyed (fun _ => none) = [("key-2", .enabled)] := by
  have hAnswer : pairAnswer (Finmap.singleton 0 .autoDisabled) =
      some ("已删除 1 个自动禁用的密钥", some [("key-2", .enabled)]) := by decide +kernel
  obtain ⟨u, hDone, -⟩ := exists_of_pairAnswer hAnswer
  obtain ⟨after, hAfter, hExact⟩ := deletion_exact_iff rfl (.inr rfl) hDone
  refine ⟨u, after, hDone, hAfter, ?_⟩
  have hSpares : deleteSpent.spares ((pairChannel (Finmap.singleton 0 .autoDisabled)).loaded.keyed
      fun _ => none) = [("key-2", .enabled)] := by decide +kernel
  have hNoArray : (if hasPrefix (trimSpace (join ["key-2"] '\n')) "[" = true then none
      else none : Option (List String)) = none := ite_self none
  refine Eq.trans (hExact.mpr ?_) hSpares
  show if join ((deleteSpent.spares _).map fst) '\n' = "" then _ else _
  rw [hSpares, map_cons, map_nil, if_neg (by decide +kernel)]
  unfold ReadsBack
  rw [hNoArray]
  decide +kernel

def spentList : Sparse ChannelStatus := (Finmap.singleton 0 .autoDisabled).insert 1 .autoDisabled

/-- **Deleting two disabled keys enables them both**: an empty text keeps the old ones. -/
theorem deleted_keys_enabled :
    deleteSpent.spares ((pairChannel spentList).loaded.keyed fun _ => none) = [] ∧
      ∃ u, (pairTables spentList).manageMultiKeys (fun _ => none) deleteSpent =
          .ok (u, "已删除 2 个自动禁用的密钥") ∧
        ((u.channels.find? 1).map fun row => row.loaded.keyed fun _ => none) =
          some [("key-1", .enabled), ("key-2", .enabled)] := by
  refine ⟨by decide +kernel, exists_of_pairAnswer ?_⟩
  decide +kernel

end NewApi.Channels
