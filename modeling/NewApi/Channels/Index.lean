import NewApi.Channels.Tables
import NewApi.Core.Postings

/-!
# The index of the memory cache

`InitChannelCache` builds which channels serve a group and a model; a channel that is written is
taken out and put back.  Only the latter trims names, drops empty ones and lists a channel once.
-/

namespace NewApi.Channels

open Core Go Function

/-! ## Where a channel is listed -/

abbrev Index := Postings (String × String) Int

def Channel.cells (ch : Channel) : List (String × String) :=
  split ch.group ',' ×ˢ split ch.models ','

def splitChannelCacheCSV (value : String) : List String :=
  ((split value ',').map trimSpace).filter (· ≠ "")

def Channel.csvCells (ch : Channel) : List (String × String) :=
  splitChannelCacheCSV ch.group ×ˢ splitChannelCacheCSV ch.models

/-- What the lists are sorted by.  A channel that is not cached comes last. -/
def priorityOf (channelsIDM : Int → Option Channel) (id : Int) : WithBot Int :=
  (channelsIDM id).elim ⊥ fun ch => (ch.getPriority : WithBot Int)

def Descending (channelsIDM : Int → Option Channel) : Index → Prop :=
  Postings.Arranged fun a b => priorityOf channelsIDM b ≤ priorityOf channelsIDM a

namespace Index

def removeChannelFromGroupModelIndex (index : Index) (id : Int) : Index := Postings.drop index id

def addChannelToGroupModelIndex (sorting : Sorting Int) (channelsIDM : Int → Option Channel)
    (index : Index) (ch : Channel) : Index :=
  Postings.putAll (sorting.sort (priorityOf channelsIDM)) index ch.csvCells ch.id

def list (index : Index) (ch : Channel) : Index :=
  if ch.status ≠ .enabled then index else Postings.postAll index ch.cells ch.id

def listAll (channels : List Channel) : Index := channels.foldl list fun _ => []

end Index

def Channel.entries (ch : Channel) (cell : String × String) : Nat :=
  if ch.status ≠ .enabled then 0 else ch.cells.count cell

def Channel.csvEntries (ch : Channel) (cell : String × String) : Nat :=
  if ch.status ≠ .enabled then 0 else if cell ∈ ch.csvCells then 1 else 0

theorem Index.count_list (index : Index) (ch : Channel) (cell : String × String) (id : Int) :
    (index.list ch cell).count id =
      (index cell).count id + if id = ch.id then ch.entries cell else 0 := by
  unfold Index.list Channel.entries
  by_cases hOff : ch.status ≠ .enabled
  · rw [if_pos hOff, if_pos hOff, ite_self, Nat.add_zero]
  · rw [if_neg hOff, if_neg hOff, Postings.count_postAll]

theorem Index.count_foldl_list (channels : List Channel)
    (hNodup : (channels.map Row.key).Nodup) (index : Index) (cell : String × String) (id : Int) :
    (channels.foldl Index.list index cell).count id = (index cell).count id +
      (channels.find? fun ch => ch.id = id).elim 0 fun ch => ch.entries cell := by
  induction channels generalizing index with
  | nil => rfl
  | cons ch channels ih =>
    obtain ⟨hFresh, hNodup⟩ := List.nodup_cons.mp hNodup
    rw [List.foldl_cons, ih hNodup, Index.count_list]
    by_cases hId : ch.id = id
    · have hNone : channels.find? (fun ch => ch.id = id) = none := by
        rw [List.find?_eq_none]
        intro other hMem hOther
        have hSame : other.id = ch.id := (of_decide_eq_true hOther).trans hId.symm
        exact hFresh (List.mem_map.mpr ⟨other, hMem, hSame⟩)
      simp [hNone, hId]
    · simp [hId, Ne.symm hId]

theorem Index.count_listAll (channels : Table Channel) (cell : String × String) (id : Int) :
    (Index.listAll channels.rows cell).count id =
      (channels.find? id).elim 0 fun ch => ch.entries cell := by
  refine (Index.count_foldl_list channels.rows channels.nodup _ cell id).trans ?_
  exact Nat.zero_add _

/-! ## The cache -/

/-- The channel as it is cached in place of `old`. -/
def Channel.cached (unmarshal : Unmarshal) (old : Option Channel) (ch : Channel) : Channel :=
  if ch.channelInfo.isMultiKey then
    let polling := match old with
      | some o =>
        if o.channelInfo.isMultiKey then o.channelInfo.multiKeyPollingIndex
        else ch.channelInfo.multiKeyPollingIndex
      | none => ch.channelInfo.multiKeyPollingIndex
    { ch with
      keys := ch.getKeys unmarshal
      channelInfo := { ch.channelInfo with multiKeyPollingIndex := polling } }
  else ch

def Channel.listing (ch : Channel) : Int × ChannelStatus × String × String × Option Int :=
  (ch.id, ch.status, ch.group, ch.models, ch.priority)

variable (unmarshal : Unmarshal)

@[simp] theorem Channel.listing_cached (old : Option Channel) (ch : Channel) :
    (ch.cached unmarshal old).listing = ch.listing := by
  unfold Channel.cached
  split <;> rfl

theorem Channel.id_of_listing {a b : Channel} (h : a.listing = b.listing) : a.id = b.id :=
  congrArg Prod.fst h

@[simp] theorem Channel.id_cached (old : Option Channel) (ch : Channel) :
    (ch.cached unmarshal old).id = ch.id :=
  Channel.id_of_listing (Channel.listing_cached unmarshal old ch)

def ChannelDb.rebuild (unmarshal : Unmarshal) (sorting : Sorting Int)
    (old : Int → Option Channel) (db : ChannelDb) : ChannelCache where
  group2model2channels group model :=
    sorting.sort (priorityOf db.channels.find?) (Index.listAll db.channels.rows (group, model))
  channelsIDM id := (db.channels.find? id).map fun ch => ch.cached unmarshal (old id)
  id_eq := by
    intro id ch h
    obtain ⟨row, hFind, rfl⟩ := Option.map_eq_some_iff.mp h
    rw [Channel.id_cached]
    exact (Table.find?_eq_some.mp hFind).2
  listed := by
    intro group model id h
    rw [(sorting.perm _ _).mem_iff, ← List.count_pos_iff, Index.count_listAll] at h
    rw [Option.isSome_map]
    cases hFind : db.channels.find? id with
    | none => simp [hFind] at h
    | some ch => rfl

/-- `none` is the panic on a group that no ability has. -/
def initChannelCache (unmarshal : Unmarshal) (sorting : Sorting Int)
    (old : Int → Option Channel) (db : ChannelDb) : Option ChannelCache :=
  if ∀ ch ∈ db.channels.rows, ch.status = .enabled →
      ∀ group ∈ split ch.group ',', group ∈ db.abilities.map Ability.group then
    some (db.rebuild unmarshal sorting old)
  else none

/-- **The build does not panic** where every channel has its abilities. -/
theorem initChannelCache_eq (sorting : Sorting Int) (old : Int → Option Channel)
    (t : ChannelTables) :
    initChannelCache unmarshal sorting old t.toChannelDb =
      some (t.rebuild unmarshal sorting old) := by
  refine if_pos fun ch hMem _ group hGroup => ?_
  obtain ⟨a, ha, _, rfl⟩ := t.covered ch hMem group hGroup
  exact List.mem_map_of_mem ha

variable (cache : ChannelCache)

namespace ChannelCache

def index (cache : ChannelCache) : Index := fun cell => cache.group2model2channels cell.1 cell.2

/-- The index after `ch` was cached, taken out and, if it is enabled, put back. -/
def reindexed (cache : ChannelCache) (sorting : Sorting Int) (ch : Channel) : Index :=
  let removed := cache.index.removeChannelFromGroupModelIndex ch.id
  if ch.status = .enabled then
    removed.addChannelToGroupModelIndex sorting
      (Function.update cache.channelsIDM ch.id (some ch)) ch
  else removed

theorem count_reindexed_self (sorting : Sorting Int) (ch : Channel) (cell : String × String) :
    (cache.reindexed sorting ch cell).count ch.id = ch.csvEntries cell := by
  have hGone : (cache.index.removeChannelFromGroupModelIndex ch.id cell).count ch.id = 0 := by
    rw [Index.removeChannelFromGroupModelIndex, Postings.count_drop, if_pos rfl]
  unfold reindexed Channel.csvEntries
  by_cases hOn : ch.status = .enabled
  · rw [if_pos hOn, if_neg (not_not.mpr hOn), Index.addChannelToGroupModelIndex,
      Postings.count_putAll_self (sorting.perm _), hGone]
    have hNot := List.count_eq_zero.mp hGone
    by_cases hCell : cell ∈ ch.csvCells
    · rw [if_neg (by simp [hNot, hCell]), if_pos hCell]
    · rw [if_pos (.inr hCell), if_neg hCell]
  · rw [if_neg hOn, if_pos hOn]
    exact hGone

theorem count_reindexed_of_ne (sorting : Sorting Int) {ch : Channel} {id : Int} (h : id ≠ ch.id)
    (cell : String × String) :
    (cache.reindexed sorting ch cell).count id = (cache.index cell).count id := by
  have hKept : (cache.index.removeChannelFromGroupModelIndex ch.id cell).count id =
      (cache.index cell).count id := by
    rw [Index.removeChannelFromGroupModelIndex, Postings.count_drop, if_neg h]
  unfold reindexed
  by_cases hOn : ch.status = .enabled
  · rw [if_pos hOn, Index.addChannelToGroupModelIndex,
      Postings.count_putAll_of_ne (sorting.perm _) _ _ h, hKept]
  · rw [if_neg hOn, hKept]

theorem id_eq_update (ch : Channel) {id : Int} {c : Channel}
    (h : update cache.channelsIDM ch.id (some ch) id = some c) : c.id = id := by
  by_cases hId : id = ch.id
  · subst hId
    rw [update_self] at h
    rw [Option.some.inj h]
  · rw [update_of_ne hId] at h
    exact cache.id_eq h

def reindex (cache : ChannelCache) (sorting : Sorting Int) (ch : Channel) : ChannelCache where
  group2model2channels group model := cache.reindexed sorting ch (group, model)
  channelsIDM := Function.update cache.channelsIDM ch.id (some ch)
  id_eq := @id_eq_update cache ch
  listed := by
    intro group model id h
    by_cases hId : id = ch.id
    · rw [hId, Function.update_self]
      rfl
    · rw [Function.update_of_ne hId]
      rw [← List.count_pos_iff, count_reindexed_of_ne cache sorting hId, List.count_pos_iff] at h
      exact cache.listed h

def cacheUpdateChannel (unmarshal : Unmarshal) (sorting : Sorting Int) (cache : ChannelCache)
    (ch : Channel) : ChannelCache :=
  cache.reindex sorting (ch.cached unmarshal (cache.channelsIDM ch.id))

def cacheUpdateChannelStatus (sorting : Sorting Int) (cache : ChannelCache) (id : Int)
    (status : ChannelStatus) : ChannelCache :=
  match cache.channelsIDM id with
  | none => cache
  | some ch => cache.reindex sorting { ch with status := status }

end ChannelCache

end NewApi.Channels
