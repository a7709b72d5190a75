import NewApi.Channels.Index

/-!
# With the memory cache and without

With the cache a selection looks at the index, and if a model is not listed at its normalized name;
without it, at the abilities of that very name.
-/

namespace NewApi.Channels

open Core Go List Channel

/-! ## What can be returned -/

/-- Some polling state and retry make the selection return the channel. -/
def Store.CanReturn (s : Store) (group model : String) (id : Int) : Prop :=
  ∃ polling retry ch,
    (s.getRandomSatisfiedChannel polling group model retry).1 = .ok (some ch) ∧ ch.id = id

variable {group model : String} {id : Int}

theorem Store.canReturn_iff {s : Store} :
    s.CanReturn group model id ↔ ∃ ch, s.Enabled group model ch ∧ ch.id = id := by
  simp only [← Store.mem_candidates]
  constructor
  · rintro ⟨polling, retry, ch, hResult, hId⟩
    have hSelects := s.getRandomSatisfiedChannel_selects polling group model retry
    by_cases hSome : s.candidates group model = []
    · rw [hSelects.nothing hSome] at hResult
      cases hResult
    obtain ⟨x, hTurn, hAt⟩ := hSelects.turn hSome
    rw [hTurn] at hResult
    cases hResult
    exact ⟨ch, mem_of_getElem? hAt.1, hId⟩
  · rintro ⟨ch, hMem, hId⟩
    obtain ⟨i, hi, hAt⟩ := mem_iff_getElem.mp hMem
    -- a counter at the place of the channel
    obtain ⟨x, hResult, hTurn⟩ := (s.getRandomSatisfiedChannel_selects (fun _ _ => i) group model
      0).turn (ne_nil_of_mem hMem)
    refine ⟨fun _ _ => i, 0, x, hResult, ?_⟩
    have hPlace := hTurn.1
    rw [place_of_lt hi, getElem?_eq_getElem hi, hAt, Option.some_inj] at hPlace
    rw [← hPlace, hId]

/-! ## In terms of the columns -/

/-- The channel is enabled and lists the model in the group. -/
def Channel.Serves (ch : Channel) (group model : String) : Prop :=
  ch.status = .enabled ∧ (group, model) ∈ ch.cells

/-- One of the abilities made from the channel is of this group and model. -/
def Channel.HasAbility (ch : Channel) (group model : String) : Prop :=
  ∃ a ∈ ch.abilities, a.group = group ∧ a.model = model

/-- The abilities are those that `AddAbilities` creates for the channels. -/
def ChannelDb.Added (db : ChannelDb) : Prop :=
  db.abilities.Perm (db.channels.rows.flatMap Channel.abilities)

theorem Channel.mem_cells_of_hasAbility {ch : Channel} (h : ch.HasAbility group model) :
    (group, model) ∈ ch.cells := by
  obtain ⟨a, ha, rfl, rfl⟩ := h
  obtain ⟨⟨m, g⟩, hc, rfl⟩ := mem_map.mp ha
  obtain ⟨hModel, hGroup⟩ := pair_mem_product.mp (mem_of_mem_firstBy hc)
  exact pair_mem_product.mpr ⟨hGroup, hModel⟩

theorem ChannelDb.Added.mem {db : ChannelDb} (h : db.Added) {a : Ability} :
    a ∈ db.abilities ↔ ∃ ch ∈ db.channels.rows, a ∈ ch.abilities := by
  rw [List.Perm.mem_iff h, mem_flatMap]

theorem ChannelDb.Added.covered {db : ChannelDb} (h : db.Added) : db.Covered := by
  intro ch hMem group hGroup
  obtain ⟨a, ha, hOf⟩ := exists_ability hGroup
  exact ⟨a, h.mem.mpr ⟨ch, hMem, ha⟩, hOf⟩

section

variable {db : ChannelDb} {unmarshal : Unmarshal} {sorting : Sorting Int}
  {old : Int → Option Channel}

theorem ChannelDb.mem_rebuild :
    id ∈ (db.rebuild unmarshal sorting old).group2model2channels group model ↔
      ∃ ch, db.channels.find? id = some ch ∧ ch.Serves group model := by
  show id ∈ sorting.sort _ _ ↔ _
  rw [(sorting.perm _ _).mem_iff, ← count_pos_iff, Index.count_listAll]
  cases hFind : db.channels.find? id with
  | none => simp
  | some ch =>
    simp only [Option.elim_some, Option.some.injEq, exists_eq_left', Channel.Serves, entries]
    by_cases hOn : ch.status = .enabled <;> simp [hOn]

def ChannelDb.Served (db : ChannelDb) (group model : String) : Prop :=
  ∃ ch ∈ db.channels.rows, ch.Serves group model

theorem ChannelDb.rebuild_eq_nil (unmarshal : Unmarshal) (sorting : Sorting Int)
    (old : Int → Option Channel) :
    (db.rebuild unmarshal sorting old).group2model2channels group model = [] ↔
      ¬ db.Served group model := by
  rw [eq_nil_iff_forall_not_mem]
  constructor
  · rintro hNone ⟨ch, hMem, hServes⟩
    exact hNone ch.id (mem_rebuild.mpr ⟨ch, Table.find?_key hMem, hServes⟩)
  · intro hNone id hMem
    obtain ⟨ch, hFind, hServes⟩ := mem_rebuild.mp hMem
    exact hNone ⟨ch, (Table.find?_eq_some.mp hFind).1, hServes⟩

def ChannelDb.listedName (db : ChannelDb) (group model name : String) : Prop :=
  db.Served group model ∧ name = model ∨
    ¬ db.Served group model ∧ name = formatMatchingModelName model

theorem ChannelDb.mem_channelsOf_rebuild :
    id ∈ (db.rebuild unmarshal sorting old).channelsOf group model ↔
      ∃ name, db.listedName group model name ∧
        ∃ ch, db.channels.find? id = some ch ∧ ch.Serves group name := by
  unfold ChannelCache.channelsOf listedName
  by_cases hServed : db.Served group model
  · have hSome := mt (rebuild_eq_nil unmarshal sorting old).mp (not_not.mpr hServed)
    rw [if_neg (by simpa using hSome), mem_rebuild]
    simp [hServed]
  · rw [if_pos (by simpa using (rebuild_eq_nil _ _ _).mpr hServed), mem_rebuild]
    simp [hServed]

/-- **With the cache** the model is served, or its normalized name if no channel serves the model.
-/
theorem canReturn_cached (orderBy : Sorting Ability) :
    Store.CanReturn ⟨true, db.rebuild unmarshal sorting old, db, orderBy⟩ group model id ↔
      ∃ name, db.listedName group model name ∧
        ∃ ch ∈ db.channels.rows, ch.id = id ∧ ch.Serves group name := by
  rw [Store.canReturn_iff]
  constructor
  · rintro ⟨c, ⟨-, hListed, hCached⟩, rfl⟩
    obtain ⟨name, hName, ch, hFind, hServes⟩ := ChannelDb.mem_channelsOf_rebuild.mp hListed
    obtain ⟨hMem, hId⟩ := Table.find?_eq_some.mp hFind
    exact ⟨name, hName, ch, hMem, hId, hServes⟩
  · rintro ⟨name, hName, ch, hMem, rfl, hServes⟩
    have hFind := Table.find?_key hMem
    refine ⟨ch.cached unmarshal (old ch.id), ⟨?_, ?_, ?_⟩, id_cached ..⟩
    · exact (congrArg (fun l => l.2.1) (listing_cached unmarshal (old ch.id) ch)).trans
        hServes.1
    · rw [id_cached]
      exact ChannelDb.mem_channelsOf_rebuild.mpr ⟨name, hName, ch, hFind, hServes⟩
    · rw [id_cached]
      exact congrArg (Option.map fun c => c.cached unmarshal (old ch.id)) hFind

theorem canReturn_stored (hAdded : db.Added) (cache : ChannelCache)
    (orderBy : Sorting Ability) :
    Store.CanReturn ⟨false, cache, db, orderBy⟩ group model id ↔
      ∃ ch ∈ db.channels.rows, ch.id = id ∧ ch.status = .enabled ∧
        ch.HasAbility group model := by
  rw [Store.canReturn_iff]
  constructor
  · rintro ⟨ch, ⟨hOn, hFind, a, ha, hGroup, hModel, -, hOf⟩, rfl⟩
    obtain ⟨hMem, -⟩ := Table.find?_eq_some.mp hFind
    obtain ⟨owner, hOwner, haOwner⟩ := hAdded.mem.mp ha
    have hSame : owner = ch := by
      refine db.channels.key_inj hOwner hMem ?_
      rw [key_channel, key_channel, ← hOf, channelId_of_mem haOwner]
    exact ⟨ch, hMem, rfl, hOn, a, hSame ▸ haOwner, hGroup, hModel⟩
  · rintro ⟨ch, hMem, rfl, hOn, a, ha, hGroup, hModel⟩
    refine ⟨ch, ⟨hOn, Table.find?_key hMem, a, hAdded.mem.mpr ⟨ch, hMem, ha⟩, hGroup, hModel, ?_,
      channelId_of_mem ha⟩, rfl⟩
    obtain ⟨c, -, rfl⟩ := mem_map.mp ha
    simpa using hOn

end

/-! ## When they are the same -/

/-- **The cache and the database return the same channels exactly if** every channel has its ability
and no normalized name is served alone. -/
theorem selections_agree_iff {db : ChannelDb} (hAdded : db.Added) (unmarshal : Unmarshal)
    (sorting : Sorting Int) (old : Int → Option Channel) (orderBy : Sorting Ability)
    (group model : String) :
    ∃ cache, initChannelCache unmarshal sorting old db = some cache ∧
      ((∀ id, Store.CanReturn ⟨true, cache, db, orderBy⟩ group model id ↔
          Store.CanReturn ⟨false, cache, db, orderBy⟩ group model id) ↔
        (∀ ch ∈ db.channels.rows, ch.Serves group model → ch.HasAbility group model) ∧
          (db.Served group model ∨ ¬ db.Served group (formatMatchingModelName model))) := by
  refine ⟨_, initChannelCache_eq unmarshal sorting old ⟨db, hAdded.covered⟩, ?_⟩
  simp only [canReturn_cached, canReturn_stored hAdded]
  constructor
  · intro hSame
    refine ⟨fun ch hMem hServes => ?_, ?_⟩
    · obtain ⟨x, hx, hId, -, hHas⟩ := (hSame ch.id).mp
        ⟨model, .inl ⟨⟨ch, hMem, hServes⟩, rfl⟩, ch, hMem, rfl, hServes⟩
      rwa [db.channels.key_inj hx hMem hId] at hHas
    by_contra hOther
    push Not at hOther
    obtain ⟨hUnserved, ch, hMem, hServes⟩ := hOther
    obtain ⟨x, hx, -, hOn, hHas⟩ := (hSame ch.id).mp
      ⟨_, .inr ⟨hUnserved, rfl⟩, ch, hMem, rfl, hServes⟩
    exact hUnserved ⟨x, hx, hOn, mem_cells_of_hasAbility hHas⟩
  · rintro ⟨hHas, hName⟩ id
    constructor
    · rintro ⟨name, ⟨-, rfl⟩ | ⟨hUnserved, hFormat⟩, ch, hMem, hId, hServes⟩
      · exact ⟨ch, hMem, hId, hServes.1, hHas ch hMem hServes⟩
      · rw [hFormat] at hServes
        exact absurd ⟨ch, hMem, hServes⟩ (hName.resolve_left hUnserved)
    · rintro ⟨ch, hMem, hId, hOn, hHas'⟩
      have hServes : ch.Serves group model := ⟨hOn, mem_cells_of_hasAbility hHas'⟩
      exact ⟨model, .inl ⟨⟨ch, hMem, hServes⟩, rfl⟩, ch, hMem, hId, hServes⟩

theorem ChannelTables.added_solo (ch : Channel) (hId : 0 < ch.id) :
    (ChannelTables.solo ch hId).Added := by
  simp [ChannelDb.Added, ChannelTables.solo]

def plainDb : ChannelDb :=
  (ChannelTables.solo (demoChannel 1 .enabled 0) (by decide)).toChannelDb

theorem plain_selections_agree :
    ∃ cache, initChannelCache (fun _ => none) Sorting.ofStable (fun _ => none) plainDb =
        some cache ∧
      ∀ id, Store.CanReturn ⟨true, cache, plainDb, Sorting.ofStable⟩ "default" "gpt-test" id ↔
        Store.CanReturn ⟨false, cache, plainDb, Sorting.ofStable⟩ "default" "gpt-test" id := by
  obtain ⟨cache, hInit, hAgree⟩ := selections_agree_iff
    (ChannelTables.added_solo (demoChannel 1 .enabled 0) (by decide)) (fun _ => none)
    Sorting.ofStable (fun _ => none) Sorting.ofStable "default" "gpt-test"
  refine ⟨cache, hInit, hAgree.mpr ⟨fun ch hMem _ => ?_, .inl ⟨_, mem_singleton_self _, ?_⟩⟩⟩
  · rw [mem_singleton.mp hMem]
    exact ⟨⟨"default", "gpt-test", 1, true, some 0⟩, by decide +kernel, rfl, rfl⟩
  · exact ⟨rfl, by decide +kernel⟩

def gizmoDb : ChannelDb :=
  (ChannelTables.solo { demoChannel 1 .enabled 0 with models := "gpt-4-gizmo-*" }
    (by decide)).toChannelDb

/-- **A custom version is served with the cache, and without it there is no channel.** -/
theorem gizmo_needs_cache :
    gizmoDb.Added ∧
      ∃ cache, initChannelCache (fun _ => none) Sorting.ofStable (fun _ => none) gizmoDb =
          some cache ∧
        Store.CanReturn ⟨true, cache, gizmoDb, Sorting.ofStable⟩ "default" "gpt-4-gizmo-g-1" 1 ∧
        ∀ polling retry, Store.getRandomSatisfiedChannel
          ⟨false, cache, gizmoDb, Sorting.ofStable⟩ polling "default" "gpt-4-gizmo-g-1" retry =
            (.ok none, polling) := by
  have hAdded : gizmoDb.Added := ChannelTables.added_solo _ _
  refine ⟨hAdded, _, initChannelCache_eq _ _ _ ⟨gizmoDb, hAdded.covered⟩, ?_,
    fun polling retry => ?_⟩
  · refine (canReturn_cached _).mpr ⟨"gpt-4-gizmo-*", .inr ⟨?_, by decide +kernel⟩, _,
      mem_singleton_self _, rfl, rfl, by decide +kernel⟩
    rintro ⟨ch, hMem, -, hCell⟩
    rw [mem_singleton.mp hMem] at hCell
    exact absurd hCell (by decide +kernel)
  · have hNone : gizmoDb.query "default" "gpt-4-gizmo-g-1" = [] := by decide +kernel
    refine (Store.getRandomSatisfiedChannel_selects _ polling _ _ retry).nothing ?_
    simp [Store.candidates, hNone, Sorting.ofStable, stable]

end NewApi.Channels
