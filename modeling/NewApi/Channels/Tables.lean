import NewApi.Channels.Select

/-!
# Writing channels

Rebuilding the memory cache writes into a map that has an entry only for the groups of the
abilities; `ChannelTables` carries what makes this safe.
-/

namespace NewApi.Channels

open Core Go List Table

/-! ## First occurrences -/

section FirstBy

variable {α β : Type} [DecidableEq β] {key : α → β}

def firstBy (key : α → β) : List α → List α
  | [] => []
  | x :: xs => x :: (firstBy key xs).filter fun y => key y ≠ key x

theorem pairwise_firstBy (l : List α) : (firstBy key l).Pairwise fun x y => key x ≠ key y := by
  induction l with
  | nil => exact List.Pairwise.nil
  | cons x xs ih =>
    refine pairwise_cons.mpr ⟨fun y hy => ?_, ih.sublist filter_sublist⟩
    exact fun h => by simpa [h] using of_mem_filter hy

theorem mem_of_mem_firstBy {l : List α} {x : α} (h : x ∈ firstBy key l) : x ∈ l := by
  induction l with
  | nil => cases h
  | cons a l ih =>
    rcases mem_cons.mp h with rfl | hTail
    · exact mem_cons_self
    · exact mem_cons_of_mem _ (ih (mem_of_mem_filter hTail))

theorem mem_firstBy_append {l : List α} {x : α} (hx : x ∈ l)
    (hInj : ∀ y ∈ l, key y = key x → y = x) (rest : List α) : x ∈ firstBy key (l ++ rest) := by
  induction l with
  | nil => cases hx
  | cons a l ih =>
    by_cases hKey : key a = key x
    · rw [hInj a mem_cons_self hKey]
      exact mem_cons_self
    · have hTail : x ∈ l := (mem_cons.mp hx).resolve_left fun h => hKey (by rw [h])
      refine mem_cons_of_mem _ (mem_filter.mpr ⟨?_, by simpa using Ne.symm hKey⟩)
      exact ih hTail fun y hy => hInj y (mem_cons_of_mem _ hy)

end FirstBy

/-! ## Abilities of a channel -/

def abilityKey (c : String × String) : String := c.2 ++ "|" ++ c.1

theorem abilityKey_inj {model group g : String}
    (h : abilityKey (model, g) = abilityKey (model, group)) : g = group := by
  have hList := congrArg String.toList h
  simp only [abilityKey, String.toList_append, append_assoc] at hList
  exact String.toList_inj.mp (append_cancel_right hList)

def Channel.abilities (ch : Channel) : List Ability :=
  (firstBy abilityKey (split ch.models ',' ×ˢ split ch.group ',')).map fun c =>
    { group := c.2, model := c.1, channelId := ch.id, enabled := ch.status = .enabled,
      priority := ch.priority }

theorem Channel.channelId_of_mem {ch : Channel} {a : Ability} (h : a ∈ ch.abilities) :
    a.channelId = ch.id := by
  obtain ⟨c, _, rfl⟩ := mem_map.mp h
  rfl

theorem Channel.nodup_abilities (ch : Channel) : (ch.abilities.map Ability.key).Nodup := by
  rw [abilities, map_map]
  refine pairwise_map.mpr ((pairwise_firstBy _).imp ?_)
  rintro ⟨m, g⟩ ⟨m', g'⟩ hne hEq
  simp only [Function.comp_apply, Ability.key, Prod.mk.injEq] at hEq
  exact hne (by rw [hEq.1, hEq.2.1])

/-- **Every group of a channel has an ability.** A name with a bar may take another's place. -/
theorem Channel.exists_ability {ch : Channel} {group : String} (h : group ∈ split ch.group ',') :
    ∃ a ∈ ch.abilities, a.channelId = ch.id ∧ a.group = group := by
  obtain ⟨model, models, hModels⟩ := exists_cons_of_ne_nil (split_ne_nil ch.models ',')
  have hKept : (model, group) ∈
      firstBy abilityKey (split ch.models ',' ×ˢ split ch.group ',') := by
    rw [hModels]
    refine mem_firstBy_append (mem_map_of_mem h) ?_ _
    intro c hc hKey
    obtain ⟨g, _, rfl⟩ := mem_map.mp hc
    rw [abilityKey_inj hKey]
  exact ⟨_, mem_map_of_mem hKept, rfl, rfl⟩

/-! ## The tables -/

def ChannelDb.Covered (db : ChannelDb) : Prop :=
  ∀ ch ∈ db.channels.rows, ∀ group ∈ split ch.group ',',
    ∃ a ∈ db.abilities, a.channelId = ch.id ∧ a.group = group

structure ChannelTables extends ChannelDb where
  covered : toChannelDb.Covered

namespace ChannelTables

def solo (ch : Channel) (hId : 0 < ch.id) : ChannelTables where
  channels :=
    { rows := [ch], next := ch.id + 1, nodup := List.nodup_singleton _, next_pos := by omega
      key_range := by
        intro r hr
        rw [List.mem_singleton.mp hr, key_channel]
        omega }
  abilities := ch.abilities
  nodup := ch.nodup_abilities
  covered := by
    intro row hMem group hGroup
    rw [List.mem_singleton.mp hMem] at hGroup ⊢
    exact Channel.exists_ability hGroup

def write (t : ChannelTables) (row : Channel) : ChannelTables where
  channels := t.channels.save row
  abilities := t.abilities.filter (fun a => a.channelId ≠ row.id) ++ row.abilities
  nodup := by
    rw [List.map_append, List.nodup_append']
    refine ⟨t.nodup.sublist (List.filter_sublist.map _), row.nodup_abilities, ?_⟩
    intro k hOld hNew
    obtain ⟨a, ha, rfl⟩ := List.mem_map.mp hOld
    obtain ⟨b, hb, hKey⟩ := List.mem_map.mp hNew
    have hId : a.channelId = row.id := by
      rw [← Channel.channelId_of_mem hb]
      exact (congrArg (fun k => k.2.2) hKey).symm
    simpa [hId] using List.of_mem_filter ha
  covered := by
    intro ch hMem group hGroup
    rcases Table.mem_save hMem with ⟨rfl, _⟩ | ⟨hMem, hne⟩
    · obtain ⟨a, ha, hOf⟩ := Channel.exists_ability hGroup
      exact ⟨a, List.mem_append_right _ ha, hOf⟩
    · obtain ⟨a, ha, hId, hOf⟩ := t.covered ch hMem group hGroup
      refine ⟨a, List.mem_append_left _ (List.mem_filter.mpr ⟨ha, ?_⟩), hId, hOf⟩
      simpa [hId] using hne

def revise (t : ChannelTables) (id : Int) (f : Channel → Channel)
    (hf : ∀ ch, (f ch).id = ch.id ∧ (f ch).group = ch.group) (g : Ability → Ability)
    (hg : ∀ a, (g a).key = a.key) : ChannelTables where
  channels := t.channels.modify (fun ch => ch.id = id) f fun ch => (hf ch).1
  abilities := t.abilities.map fun a => if a.channelId = id then g a else a
  nodup := by
    rw [List.map_map]
    refine (congrArg List.Nodup (List.map_congr_left fun a _ => ?_)).mpr t.nodup
    show (if a.channelId = id then g a else a).key = a.key
    split
    · exact hg a
    · rfl
  covered := by
    intro ch hMem group hGroup
    obtain ⟨old, hOld, rfl⟩ := (Table.mem_modify fun ch => (hf ch).1).mp hMem
    have hSame : (if decide (old.id = id) = true then f old else old).id = old.id ∧
        (if decide (old.id = id) = true then f old else old).group = old.group := by
      split
      · exact hf old
      · exact ⟨rfl, rfl⟩
    rw [hSame.2] at hGroup
    obtain ⟨a, ha, hId, hOf⟩ := t.covered old hOld group hGroup
    refine ⟨_, List.mem_map_of_mem ha, ?_⟩
    rw [hSame.1, ← hId, ← hOf]
    split
    · have := hg a
      simp only [Ability.key, Prod.mk.injEq] at this
      exact ⟨this.2.2, this.1⟩
    · exact ⟨rfl, rfl⟩

/-! ## The functions -/

/-- `Channel.Update`, with the row it reads back. An empty key keeps the old one. -/
def update (t : ChannelTables) (ch : Channel) : Option (Channel × ChannelTables) :=
  match t.channels.find? ch.id with
  | none => none
  | some old =>
    let row := { ch with
      status := old.status, key := if ch.key = "" then old.key else ch.key, keys := [] }
    some (row, t.write row)

end ChannelTables

structure ChannelPatch where
  models : Option String := none
  group : Option String := none
  priority : Option Int := none

def ChannelPatch.apply (p : ChannelPatch) (ch : Channel) : Channel :=
  { ch with
    models := p.models.getD ch.models
    group := p.group.getD ch.group
    priority := p.priority <|> ch.priority }

namespace ChannelTables

/-- Without new models or groups only the priority of the abilities is written. -/
def updateChannelPartialById (t : ChannelTables) (id : Int) (p : ChannelPatch) :
    Option (Channel × ChannelTables) :=
  match t.channels.find? id with
  | none => none
  | some old =>
    let row := p.apply old
    if hKeep : p.models = none ∧ p.group = none then
      some (row, t.revise id p.apply (fun ch => ⟨rfl, by rw [ChannelPatch.apply, hKeep.2]; rfl⟩)
        (fun a => { a with priority := p.priority <|> a.priority }) fun _ => rfl)
    else some (row, t.write row)

def updateChannelStatusById (t : ChannelTables) (id : Int) (status : ChannelStatus) :
    ChannelTables :=
  t.revise id (fun ch => { ch with status := status }) (fun _ => ⟨rfl, rfl⟩)
    (fun a => { a with enabled := status = .enabled }) fun _ => rfl

/-! ## What is written -/

def Writes (t : ChannelTables) (row : Channel) (u : ChannelTables) : Prop :=
  (t.channels.find? row.id).isSome ∧
    ∀ k, u.channels.find? k = if k = row.id then some row else t.channels.find? k

def WritesAt (t : ChannelTables) (id : Int) : Option (Channel × ChannelTables) → Prop
  | none => t.channels.find? id = none
  | some (row, u) => row.id = id ∧ t.Writes row u

variable {t : ChannelTables} {id : Int} {old row : Channel}

theorem writes_write (h : t.channels.find? row.id = some old) : Writes t row (t.write row) := by
  refine ⟨by rw [h]; rfl, fun k => ?_⟩
  by_cases hk : k = row.id
  · subst hk
    rw [if_pos rfl]
    exact find?_save_self h
  · rw [if_neg hk]
    exact find?_save_of_ne (Ne.symm hk)

section Revise

variable {f : Channel → Channel} {hf : ∀ ch, (f ch).id = ch.id ∧ (f ch).group = ch.group}
  {g : Ability → Ability} {hg : ∀ a, (g a).key = a.key}

theorem find?_revise (k : Int) :
    (t.revise id f hf g hg).channels.find? k =
      if k = id then (t.channels.find? id).map f else t.channels.find? k := by
  refine (find?_modify (fun ch => (hf ch).1) k).trans ?_
  by_cases hk : k = id
  · subst hk
    rw [if_pos rfl]
    refine Option.map_congr fun ch hFind => ?_
    exact if_pos (decide_eq_true (find?_eq_some.mp hFind).2)
  rw [if_neg hk]
  cases hFind : t.channels.find? k with
  | none => rfl
  | some ch =>
    have hKey : ch.id = k := (find?_eq_some.mp hFind).2
    simp [hKey, hk]

theorem writes_revise (h : t.channels.find? id = some old) :
    Writes t (f old) (t.revise id f hf g hg) := by
  have hId : (f old).id = id := (hf old).1.trans (find?_eq_some.mp h).2
  refine ⟨by rw [hId, h]; rfl, fun k => ?_⟩
  rw [find?_revise, hId, h]
  rfl

end Revise

theorem update_writesAt (t : ChannelTables) (ch : Channel) : t.WritesAt ch.id (t.update ch) := by
  unfold update
  cases hFind : t.channels.find? ch.id with
  | none => exact hFind
  | some old => exact ⟨rfl, writes_write hFind⟩

theorem updateChannelPartialById_writesAt (t : ChannelTables) (id : Int) (p : ChannelPatch) :
    t.WritesAt id (t.updateChannelPartialById id p) := by
  unfold updateChannelPartialById
  cases hFind : t.channels.find? id with
  | none => exact hFind
  | some old =>
    have hId : (p.apply old).id = id := (find?_eq_some.mp hFind).2
    by_cases hKeep : p.models = none ∧ p.group = none
    · simp only [hKeep, and_self]
      exact ⟨hId, writes_revise hFind⟩
    · simp only [hKeep]
      exact ⟨hId, writes_write (by rw [hId]; exact hFind)⟩

theorem writes_updateChannelStatusById (h : t.channels.find? id = some old)
    (status : ChannelStatus) :
    Writes t { old with status := status } (t.updateChannelStatusById id status) :=
  writes_revise (f := fun ch => { ch with status := status }) h

theorem find?_updateChannelStatusById_of_none (h : t.channels.find? id = none)
    (status : ChannelStatus) (k : Int) :
    (t.updateChannelStatusById id status).channels.find? k = t.channels.find? k := by
  refine (find?_revise k).trans ?_
  split
  · next hk =>
    rw [hk, h]
    rfl
  · rfl

end ChannelTables

end NewApi.Channels
