import NewApi.Channels.Index

/-!
# The index after changes

A node changes channels one at a time after `InitChannelCache`. `Synced` says how often a channel is
listed then; `index_agrees_iff` compares this with a fresh build.
-/

namespace NewApi.Channels

open Core Go List Option

/-! ## Changes -/

structure Node where
  tables : ChannelTables
  cache : ChannelCache

inductive Change where
  | update (ch : Channel)
  | updatePart (id : Int) (patch : ChannelPatch)
  /-- `UpdateChannelStatus` of the administrator, which caches the row -/
  | setStatus (id : Int) (status : ChannelStatus)
  /-- `UpdateChannelStatus` of the model, which writes the cached status -/
  | switchStatus (id : Int) (status : ChannelStatus)

def Change.id : Change → Int
  | update ch => ch.id
  | updatePart id _ => id
  | setStatus id _ => id
  | switchStatus id _ => id

namespace Node

variable (unmarshal : Unmarshal) (sorting : Sorting Int)

def store (s : Node) : Option (Channel × ChannelTables) → Node
  | none => s
  | some (row, tables) => ⟨tables, s.cache.cacheUpdateChannel unmarshal sorting row⟩

def apply (s : Node) : Change → Node
  | .update ch => s.store unmarshal sorting (s.tables.update ch)
  | .updatePart id patch => s.store unmarshal sorting (s.tables.updateChannelPartialById id patch)
  | .setStatus id status =>
    s.store unmarshal sorting ((s.tables.channels.find? id).map fun row =>
      ({ row with status := status }, s.tables.updateChannelStatusById id status))
  | .switchStatus id status =>
    ⟨s.tables.updateChannelStatusById id status, s.cache.cacheUpdateChannelStatus sorting id status⟩

def run (s : Node) (changes : List Change) : Node := changes.foldl (apply unmarshal sorting) s

end Node

/-! ## What is listed after changes -/

/-- The cache has the channels of the table, and the index lists each of them by its columns. -/
structure Synced (channels : Int → Option Channel) (touched : List Int) (cache : ChannelCache) :
    Prop where
  mirrors : ∀ id, (cache.channelsIDM id).map Channel.listing = (channels id).map Channel.listing
  counts : ∀ cell id, (cache.index cell).count id = (channels id).elim 0 fun ch =>
    if id ∈ touched then ch.csvEntries cell else ch.entries cell
  descending : Descending channels cache.index

theorem csvEntries_congr {a b : Channel} (h : a.listing = b.listing) :
    a.csvEntries = b.csvEntries := by
  cases b
  obtain ⟨rfl, rfl, rfl, rfl, rfl⟩ := h
  rfl

theorem priorityOf_congr {f g : Int → Option Channel}
    (h : ∀ id, (f id).map Channel.listing = (g id).map Channel.listing) :
    priorityOf f = priorityOf g := by
  funext id
  have hId := h id
  unfold priorityOf
  cases hf : f id <;> cases hg : g id <;> simp_all [Channel.listing, Channel.getPriority]

variable {unmarshal : Unmarshal} {sorting : Sorting Int} {touched : List Int}
  {cache : ChannelCache}

theorem synced_rebuild (old : Int → Option Channel) (db : ChannelDb) :
    Synced db.channels.find? [] (db.rebuild unmarshal sorting old) := by
  refine ⟨fun id => ?_, fun cell id => ?_, fun cell => sorting.desc _ _⟩
  · show ((db.channels.find? id).map _).map _ = _
    rw [Option.map_map]
    exact congrArg (Option.map · _) (funext fun ch => Channel.listing_cached unmarshal _ ch)
  · refine ((sorting.perm _ _).count_eq id).trans ?_
    simpa using Index.count_listAll db.channels cell id

section Reindex

variable {t u : ChannelTables} {row ch : Channel}

section

variable (h : Synced t.channels.find? touched cache)
include h

theorem Synced.mirrors_reindex (hWrites : t.Writes row u) (hRow : ch.listing = row.listing)
    (id : Int) :
    ((cache.reindex sorting ch).channelsIDM id).map Channel.listing =
      (u.channels.find? id).map Channel.listing := by
  show (Function.update cache.channelsIDM ch.id (some ch) id).map Channel.listing = _
  rw [hWrites.2 id, Channel.id_of_listing hRow]
  by_cases hk : id = row.id
  · rw [hk, Function.update_self, if_pos rfl, map_some, map_some, hRow]
  · rw [Function.update_of_ne hk, if_neg hk]
    exact h.mirrors id

theorem Synced.descending_reindexed (hWrites : t.Writes row u) (hRow : ch.listing = row.listing) :
    Descending u.channels.find? (cache.reindexed sorting ch) := by
  have hRest : Descending u.channels.find?
      (cache.index.removeChannelFromGroupModelIndex ch.id) := by
    refine h.descending.drop ch.id fun a b ha hb hab => ?_
    rw [Channel.id_of_listing hRow] at ha hb
    simpa only [priorityOf, hWrites.2, if_neg ha, if_neg hb] using hab
  unfold ChannelCache.reindexed
  split
  · have hSort : ∀ l, (sorting.sort (priorityOf (cache.reindex sorting ch).channelsIDM)
        l).Pairwise fun a b => priorityOf u.channels.find? b ≤ priorityOf u.channels.find? a := by
      intro l
      rw [priorityOf_congr (h.mirrors_reindex hWrites hRow)]
      exact sorting.desc _ l
    exact hRest.putAll hSort _ _
  · exact hRest

theorem Synced.reindex (hWrites : t.Writes row u) (hRow : ch.listing = row.listing) :
    Synced u.channels.find? (row.id :: touched) (cache.reindex sorting ch) := by
  have hId : ch.id = row.id := Channel.id_of_listing hRow
  refine ⟨h.mirrors_reindex hWrites hRow, fun cell id => ?_, h.descending_reindexed hWrites hRow⟩
  show (cache.reindexed sorting ch cell).count id = _
  rw [hWrites.2 id]
  by_cases hk : id = row.id
  · subst hk
    rw [← hId, ChannelCache.count_reindexed_self, csvEntries_congr hRow]
    simp
  · rw [ChannelCache.count_reindexed_of_ne cache sorting (hId ▸ hk), h.counts]
    simp [hk]

end

end Reindex

theorem Synced.touch_missing {channels : Int → Option Channel} {id : Int}
    (h : Synced channels touched cache) (hNone : channels id = none) :
    Synced channels (id :: touched) cache := by
  refine ⟨h.mirrors, fun cell k => ?_, h.descending⟩
  rw [h.counts]
  by_cases hk : k = id
  · rw [hk, hNone]
    rfl
  · simp [hk]

def Node.Synced (s : Node) (touched : List Int) : Prop :=
  Channels.Synced s.tables.channels.find? touched s.cache

variable {s : Node}

section

variable (h : s.Synced touched)
include h

theorem Node.Synced.store {id : Int} {written : Option (Channel × ChannelTables)}
    (hWritten : s.tables.WritesAt id written) :
    (s.store unmarshal sorting written).Synced (id :: touched) := by
  cases written with
  | none => exact Channels.Synced.touch_missing h hWritten
  | some w =>
    obtain ⟨rfl, hWrites⟩ := hWritten
    exact Channels.Synced.reindex h hWrites (Channel.listing_cached unmarshal _ w.1)

theorem Node.Synced.switchStatus (id : Int) (status : ChannelStatus) :
    (s.apply unmarshal sorting (.switchStatus id status)).Synced (id :: touched) := by
  have hMirror := h.mirrors id
  show Channels.Synced (s.tables.updateChannelStatusById id status).channels.find? _
    (s.cache.cacheUpdateChannelStatus sorting id status)
  unfold ChannelCache.cacheUpdateChannelStatus
  cases hFind : s.tables.channels.find? id with
  | none =>
    rw [hFind, map_none, map_eq_none_iff] at hMirror
    rw [hMirror, funext (ChannelTables.find?_updateChannelStatusById_of_none hFind status)]
    exact Channels.Synced.touch_missing h hFind
  | some row =>
    rw [hFind, map_some, map_eq_some_iff] at hMirror
    obtain ⟨ch, hCached, hListing⟩ := hMirror
    have hId : row.id = id := (Table.find?_eq_some.mp hFind).2
    have hRow : ({ ch with status := status } : Channel).listing =
        ({ row with status := status } : Channel).listing := by
      simp only [Channel.listing, Prod.mk.injEq] at hListing ⊢
      exact ⟨hListing.1, trivial, hListing.2.2⟩
    rw [hCached]
    have hSynced : Channels.Synced _ _ (s.cache.reindex sorting { ch with status := status }) :=
      Channels.Synced.reindex h (ChannelTables.writes_updateChannelStatusById hFind status) hRow
    rwa [show ({ row with status := status } : Channel).id = id from hId] at hSynced

theorem Node.Synced.apply (c : Change) :
    (s.apply unmarshal sorting c).Synced (c.id :: touched) := by
  cases c with
  | update ch => exact h.store (s.tables.update_writesAt ch)
  | updatePart id patch => exact h.store (s.tables.updateChannelPartialById_writesAt id patch)
  | setStatus id status =>
    refine h.store ?_
    cases hFind : s.tables.channels.find? id with
    | none => exact hFind
    | some row =>
      exact ⟨(Table.find?_eq_some.mp hFind).2,
        ChannelTables.writes_updateChannelStatusById hFind status⟩
  | switchStatus id status => exact h.switchStatus id status

theorem Node.Synced.run (changes : List Change) :
    (s.run unmarshal sorting changes).Synced ((changes.map Change.id).reverse ++ touched) := by
  induction changes generalizing s touched with
  | nil => exact h
  | cons c changes ih =>
    rw [map_cons, reverse_cons, append_assoc]
    exact ih (h.apply c)

end

/-! ## The comparison -/

/-- No group and no model is listed twice. -/
def Channel.Distinct (ch : Channel) : Prop :=
  (split ch.group ',').Nodup ∧ (split ch.models ',').Nodup

/-- No name is empty or has space around it. -/
def Channel.Plain (ch : Channel) : Prop :=
  ∀ name ∈ split ch.group ',' ++ split ch.models ',', trimSpace name = name ∧ name ≠ ""

theorem Channel.distinct_iff (ch : Channel) : ch.Distinct ↔ ch.cells.Nodup :=
  (nodup_product_iff (split_ne_nil _ _) (split_ne_nil _ _)).symm

theorem trimmed_of_mem {value name : String} (h : name ∈ splitChannelCacheCSV value) :
    trimSpace name = name ∧ name ≠ "" := by
  obtain ⟨hMem, hne⟩ := mem_filter.mp h
  obtain ⟨part, _, rfl⟩ := mem_map.mp hMem
  exact ⟨trimSpace_trimSpace part, of_decide_eq_true hne⟩

theorem splitChannelCacheCSV_eq {value : String}
    (h : ∀ name ∈ split value ',', trimSpace name = name ∧ name ≠ "") :
    splitChannelCacheCSV value = split value ',' := by
  have hMap : (split value ',').map trimSpace = split value ',' :=
    (map_congr_left fun name hName => (h name hName).1).trans (map_id _)
  rw [splitChannelCacheCSV, hMap, filter_eq_self]
  exact fun name hName => decide_eq_true (h name hName).2

/-- **Both ways of splitting agree on plain names only.** -/
theorem Channel.plain_iff (ch : Channel) :
    ch.Plain ↔ ∀ cell, cell ∈ ch.csvCells ↔ cell ∈ ch.cells := by
  constructor
  · intro h cell
    rw [csvCells, cells, splitChannelCacheCSV_eq fun name hName => h name (by simp [hName]),
      splitChannelCacheCSV_eq fun name hName => h name (by simp [hName])]
  · intro h name hName
    obtain ⟨group, hGroup⟩ := exists_mem_of_ne_nil _ (split_ne_nil ch.group ',')
    obtain ⟨model, hModel⟩ := exists_mem_of_ne_nil _ (split_ne_nil ch.models ',')
    rcases mem_append.mp hName with hName | hName
    · have hCell := (h (name, model)).mpr (mem_product.mpr ⟨hName, hModel⟩)
      exact trimmed_of_mem (mem_product.mp hCell).1
    · have hCell := (h (group, name)).mpr (mem_product.mpr ⟨hGroup, hName⟩)
      exact trimmed_of_mem (mem_product.mp hCell).2

/-- Under every group and model the same channels, none twice, by descending priority. -/
def SameIndex (channels : Int → Option Channel) (a b : ChannelCache) : Prop :=
  (∀ cell id, id ∈ a.index cell ↔ id ∈ b.index cell) ∧
    (∀ cell, (a.index cell).Nodup ∧ (b.index cell).Nodup) ∧
      Descending channels a.index ∧ Descending channels b.index

theorem Channel.entries_le_one {ch : Channel} (h : ch.Distinct) (cell : String × String) :
    ch.entries cell ≤ 1 := by
  unfold entries
  split
  · exact Nat.zero_le 1
  · exact nodup_iff_count_le_one.mp (ch.distinct_iff.mp h) cell

theorem Channel.csvEntries_pos {ch : Channel} (hOn : ch.status = .enabled)
    {cell : String × String} : 0 < ch.csvEntries cell ↔ cell ∈ ch.csvCells := by
  rw [csvEntries, if_neg (not_not.mpr hOn)]
  by_cases hCell : cell ∈ ch.csvCells <;> simp [hCell]

theorem Channel.csvEntries_eq {ch : Channel} (hDistinct : ch.Distinct) (hPlain : ch.Plain)
    (cell : String × String) : ch.csvEntries cell = ch.entries cell := by
  unfold csvEntries entries
  by_cases hOff : ch.status ≠ .enabled
  · rw [if_pos hOff, if_pos hOff]
  · rw [if_neg hOff, if_neg hOff, List.Nodup.count (ch.distinct_iff.mp hDistinct)]
    simp only [ch.plain_iff.mp hPlain cell]

theorem sameIndex_iff {t : ChannelTables} {fresh : ChannelCache}
    (h : Synced t.channels.find? touched cache) (hFresh : Synced t.channels.find? [] fresh) :
    SameIndex t.channels.find? cache fresh ↔ ∀ ch ∈ t.channels.rows, ch.status = .enabled →
      ch.Distinct ∧ (ch.id ∈ touched → ch.Plain) := by
  constructor
  · rintro ⟨hSame, hNodup, _, _⟩ ch hMem hOn
    have hFind : t.channels.find? ch.id = some ch := Table.find?_key hMem
    have hCount : ∀ cell, (fresh.index cell).count ch.id = ch.cells.count cell := by
      intro cell
      rw [hFresh.counts, hFind]
      simp [Channel.entries, hOn]
    refine ⟨ch.distinct_iff.mpr (nodup_iff_count_le_one.mpr fun cell => ?_),
      fun hTouched => ch.plain_iff.mpr fun cell => ?_⟩
    · rw [← hCount cell]
      exact nodup_iff_count_le_one.mp (hNodup cell).2 ch.id
    have hCells : cell ∈ ch.cells ↔ ch.id ∈ fresh.index cell := by
      rw [← count_pos_iff, ← hCount cell, count_pos_iff]
    rw [hCells, ← hSame, ← count_pos_iff (l := cache.index cell), h.counts, hFind,
      ← Channel.csvEntries_pos hOn]
    simp [hTouched]
  · intro hRows
    have hCount : ∀ cell id, (cache.index cell).count id = (fresh.index cell).count id ∧
        (fresh.index cell).count id ≤ 1 := by
      intro cell id
      rw [h.counts, hFresh.counts]
      cases hFind : t.channels.find? id with
      | none => exact ⟨rfl, Nat.zero_le 1⟩
      | some ch =>
        obtain ⟨hMem, rfl⟩ := Table.find?_eq_some.mp hFind
        by_cases hOn : ch.status = .enabled
        · obtain ⟨hDistinct, hPlain⟩ := hRows ch hMem hOn
          by_cases hTouched : ch.id ∈ touched
          · simp [hTouched, Channel.csvEntries_eq hDistinct (hPlain hTouched),
              Channel.entries_le_one hDistinct]
          · simp [hTouched, Channel.entries_le_one hDistinct]
        · simp [Channel.csvEntries, Channel.entries, hOn]
    refine ⟨fun cell id => ?_, fun cell => ⟨?_, ?_⟩, h.descending, hFresh.descending⟩
    · rw [← count_pos_iff, (hCount cell id).1, count_pos_iff]
    · exact nodup_iff_count_le_one.mpr fun id =>
        (hCount cell id).1.trans_le (hCount cell id).2
    · exact nodup_iff_count_le_one.mpr fun id => (hCount cell id).2

/-- **The index agrees with a fresh build** exactly when no enabled channel names something twice
and no changed one has a name to trim. -/
theorem index_agrees_iff (unmarshal : Unmarshal) (sorting : Sorting Int)
    (old : Int → Option Channel) (t : ChannelTables) (changes : List Change) :
    ∃ start, initChannelCache unmarshal sorting old t.toChannelDb = some start ∧
      let s := Node.run unmarshal sorting ⟨t, start⟩ changes
      ∃ fresh, initChannelCache unmarshal sorting s.cache.channelsIDM s.tables.toChannelDb =
          some fresh ∧
        (SameIndex s.tables.channels.find? s.cache fresh ↔
          ∀ ch ∈ s.tables.channels.rows, ch.status = .enabled →
            ch.Distinct ∧ (ch.id ∈ changes.map Change.id → ch.Plain)) := by
  refine ⟨_, initChannelCache_eq unmarshal sorting old t, ?_⟩
  intro s
  refine ⟨_, initChannelCache_eq unmarshal sorting _ s.tables, ?_⟩
  have hStart : Node.Synced ⟨t, t.rebuild unmarshal sorting old⟩ [] := synced_rebuild old _
  have hSynced : s.Synced ((changes.map Change.id).reverse ++ []) := hStart.run changes
  rw [sameIndex_iff hSynced (synced_rebuild _ _)]
  simp only [append_nil, mem_reverse]

/-- **The index lists enabled channels only**, by falling priority, after any changes: one that the
table has disabled is not found. -/
theorem index_lists_enabled (unmarshal : Unmarshal) (sorting : Sorting Int)
    (old : Int → Option Channel) (t : ChannelTables) (changes : List Change) :
    ∃ start, initChannelCache unmarshal sorting old t.toChannelDb = some start ∧
      let s := Node.run unmarshal sorting ⟨t, start⟩ changes
      Descending s.tables.channels.find? s.cache.index ∧
        ∀ cell, ∀ id ∈ s.cache.index cell,
          ∃ ch, s.tables.channels.find? id = some ch ∧ ch.status = .enabled := by
  refine ⟨_, initChannelCache_eq unmarshal sorting old t, ?_⟩
  intro s
  have hStart : Node.Synced ⟨t, t.rebuild unmarshal sorting old⟩ [] := synced_rebuild old _
  have hSynced : s.Synced _ := hStart.run changes
  refine ⟨hSynced.descending, fun cell id hId => ?_⟩
  have hCount := hSynced.counts cell id
  have hPos := count_pos_iff.mpr hId
  cases hFind : s.tables.channels.find? id with
  | none =>
    rw [hFind] at hCount
    exact absurd hCount hPos.ne'
  | some ch =>
    refine ⟨ch, rfl, ?_⟩
    by_contra hOff
    rw [hFind, Option.elim_some, Channel.csvEntries, Channel.entries, if_pos hOff, if_pos hOff,
      ite_self] at hCount
    exact hPos.ne' hCount

def spacedChannel : Channel where
  id := 1
  key := "sk"
  status := .enabled
  models := "gpt-4, gpt-4o"
  group := "default"
  priority := some 0

def spacedTables : ChannelTables where
  channels :=
    { rows := [spacedChannel], next := 2, nodup := by decide, next_pos := by decide,
      key_range := by decide }
  abilities := spacedChannel.abilities
  nodup := spacedChannel.nodup_abilities
  covered := by
    intro ch hMem group hGroup
    rw [List.mem_singleton.mp hMem] at hGroup ⊢
    exact Channel.exists_ability hGroup

def spacedStart : ChannelCache :=
  spacedTables.rebuild (fun _ => none) Sorting.ofStable fun _ => none

def spacedNode : Node :=
  Node.run (fun _ => none) Sorting.ofStable ⟨spacedTables, spacedStart⟩
    [.switchStatus 1 .autoDisabled, .switchStatus 1 .enabled]

/-- Once it was put back the channel serves `gpt-4o`, and the next build takes that from it. -/
theorem rebuild_drops_model :
    initChannelCache (fun _ => none) Sorting.ofStable (fun _ => none) spacedTables.toChannelDb =
        some spacedStart ∧
      ∃ fresh, initChannelCache (fun _ => none) Sorting.ofStable spacedNode.cache.channelsIDM
          spacedNode.tables.toChannelDb = some fresh ∧
        spacedNode.cache.group2model2channels "default" "gpt-4o" = [1] ∧
        fresh.group2model2channels "default" "gpt-4o" = [] ∧
        fresh.group2model2channels "default" " gpt-4o" = [1] ∧
        ¬ SameIndex spacedNode.tables.channels.find? spacedNode.cache fresh := by
  refine ⟨initChannelCache_eq _ _ _ _, _, initChannelCache_eq _ _ _ _, by decide +kernel,
    by decide +kernel, by decide +kernel, fun h => ?_⟩
  exact absurd ((h.1 ("default", "gpt-4o") 1).mp (by decide +kernel)) (by decide +kernel)

end NewApi.Channels
