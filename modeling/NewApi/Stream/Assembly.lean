import Mathlib.Data.List.Nodup
import NewApi.Stream.Responses

/-!
# What a stream of Responses events describes

`Assembly` puts the items of a stream together, and `accumulate` the completion of the chunks that a
client receives.  `step_moves` says what an event does to an assembly.
-/

namespace NewApi.Stream

open Go List

/-! ## What a client receives -/

def addCall (calls : List ChatCall) (t : ToolCall) : List ChatCall :=
  if (t.index.getD 0).toNat < calls.length then
    calls.modify (t.index.getD 0).toNat fun c =>
      ⟨c.id, c.name ++ t.name, c.arguments ++ t.arguments⟩
  else calls ++ [⟨t.id, t.name, t.arguments⟩]

def Completion.add (acc : Completion) (c : Chunk) : Completion where
  content := acc.content ++ c.delta.getContentString
  toolCalls := c.delta.toolCalls.foldl addCall acc.toolCalls
  finishReason := c.finish.getD acc.finishReason

def accumulate (chunks : List Chunk) : Completion := chunks.foldl Completion.add ⟨"", [], ""⟩

theorem accumulate_concat (chunks : List Chunk) (c : Chunk) :
    accumulate (chunks ++ [c]) = (accumulate chunks).add c := by
  simp [accumulate]

def ResponsesState.received (s : ResponsesState) : Completion := accumulate (s.sent.map (·.chunk))

/-! ## What a stream describes -/

structure Part where
  item : ResponsesOutput
  complete : Bool
  deriving DecidableEq, Repr

namespace Part

variable (p : Part)

def key : String := trimSpace p.item.callId

def call : ChatCall := ⟨p.key, trimSpace p.item.name, p.item.arguments⟩

def more (delta : String) : Part :=
  { p with item := { p.item with arguments := p.item.arguments ++ delta } }

end Part

def ResponsesOutput.ids (x : ResponsesOutput) : String × String :=
  (trimSpace x.id, trimSpace x.callId)

theorem ResponsesOutput.ids_inj {x y : ResponsesOutput} (h : x.ids = y.ids) :
    trimSpace x.id = trimSpace y.id ∧ trimSpace x.callId = trimSpace y.callId := by
  exact Prod.mk.inj h

/-- The second item completes the first: what is there does not change. -/
def ResponsesOutput.Begins (x y : ResponsesOutput) : Prop :=
  x.id = y.id ∧ (x.callId = "" ∨ x.callId = y.callId) ∧ (x.name = "" ∨ x.name = y.name) ∧
    x.arguments.toList <+: y.arguments.toList

instance (x y : ResponsesOutput) : Decidable (x.Begins y) :=
  inferInstanceAs (Decidable (_ ∧ _ ∧ _ ∧ _))

structure Assembly where
  text : String
  calls : List Part
  deriving DecidableEq, Repr

namespace Assembly

def start : Assembly := ⟨"", []⟩

def update (a : Assembly) (id : String) (f : Part → Part) : Assembly :=
  { a with calls := a.calls.map fun p => if p.item.id = id then f p else p }

def step (a : Assembly) : ResponsesEvent → Option Assembly
  | .outputTextDelta delta => some { a with text := a.text ++ delta }
  | .outputItemAdded item =>
    if item.type ≠ .functionCall then some a
    else if ∃ p ∈ a.calls, p.item.id = item.id then none
    else some { a with calls := a.calls ++ [⟨item, false⟩] }
  | .functionCallArgumentsDelta itemID delta =>
    if ∃ p ∈ a.calls, p.item.id = itemID ∧ p.complete = false then
      some (a.update itemID (·.more delta))
    else none
  | .outputItemDone item =>
    if item.type ≠ .functionCall then some a
    else if ∃ p ∈ a.calls, p.item.Begins item ∧ p.complete = false then
      some (a.update item.id fun _ => ⟨item, true⟩)
    else none
  | .completed _ => none
  | .failed => none
  | _ => some a

end Assembly

/-- **A stream describes a response**: only its last event completes it, and it has the function
calls and the text. -/
def Describes (events : List ResponsesEvent) (resp : ResponsesResponse) : Prop :=
  ∃ body last a, events = body ++ [.completed last] ∧
    body.foldlM Assembly.step .start = some a ∧ (∀ p ∈ a.calls, p.complete = true) ∧
    a.calls.map (·.item) = resp.functionCalls ∧ a.text = resp.messageText

/-- Function calls can be told apart by their ids, which are there. -/
structure Distinct (ids : List (String × String)) : Prop where
  items : (ids.map Prod.fst).Nodup
  calls : (ids.map Prod.snd).Nodup
  ne : ∀ x ∈ ids, x.1 ≠ "" ∧ x.2 ≠ ""

theorem Distinct.of_prefix {ids ids' : List (String × String)} (h : Distinct ids')
    (hPre : ids <+: ids') : Distinct ids :=
  ⟨h.items.sublist (hPre.sublist.map _), h.calls.sublist (hPre.sublist.map _),
    fun x hx => h.ne x (hPre.subset hx)⟩

/-! ## The calls of an assembly -/

namespace Assembly

variable {a a' : Assembly} {event : ResponsesEvent}

def ids (a : Assembly) : List (String × String) := a.calls.map (·.item.ids)

section

variable (h : Distinct a.ids)
include h

theorem keys_nodup : (a.calls.map Part.key).Nodup := by
  have hCalls := h.calls
  rwa [ids, map_map] at hCalls

theorem eq_of_key {p q : Part} (hp : p ∈ a.calls) (hq : q ∈ a.calls) (hKey : p.key = q.key) :
    p = q :=
  inj_on_of_nodup_map (keys_nodup h) hp hq hKey

theorem eq_of_itemKey {p q : Part} (hp : p ∈ a.calls) (hq : q ∈ a.calls)
    (hKey : trimSpace p.item.id = trimSpace q.item.id) : p = q := by
  have hItems := h.items
  rw [ids, map_map] at hItems
  exact inj_on_of_nodup_map hItems hp hq hKey

theorem key_ne {p : Part} (hp : p ∈ a.calls) : p.key ≠ "" :=
  (h.ne p.item.ids (mem_map_of_mem hp)).2

end

inductive Moves (a : Assembly) : ResponsesEvent → Assembly → Prop where
  | text (delta : String) : Moves a (.outputTextDelta delta) { a with text := a.text ++ delta }
  | added {item : ResponsesOutput} (hType : item.type = .functionCall)
      (hNew : ∀ p ∈ a.calls, p.item.id ≠ item.id) :
      Moves a (.outputItemAdded item) { a with calls := a.calls ++ [⟨item, false⟩] }
  | more {p : Part} (hp : p ∈ a.calls) (delta : String) :
      Moves a (.functionCallArgumentsDelta p.item.id delta) (a.update p.item.id (·.more delta))
  | done {p : Part} {item : ResponsesOutput} (hp : p ∈ a.calls) (hType : item.type = .functionCall)
      (hBegins : p.item.Begins item) :
      Moves a (.outputItemDone item) (a.update item.id fun _ => ⟨item, true⟩)
  | created (response : Option ResponsesResponse) : Moves a (.created response) a
  | summary (delta : String) : Moves a (.reasoningSummaryTextDelta delta) a
  | summaryDone : Moves a .reasoningSummaryTextDone a
  | itemAdded {item : ResponsesOutput} (hType : item.type ≠ .functionCall) :
      Moves a (.outputItemAdded item) a
  | itemDone {item : ResponsesOutput} (hType : item.type ≠ .functionCall) :
      Moves a (.outputItemDone item) a
  | other : Moves a .other a

theorem step_moves (h : a.step event = some a') : a.Moves event a' := by
  cases event with
  | outputTextDelta delta =>
    cases h
    exact .text delta
  | outputItemAdded item =>
    rw [step] at h
    split at h
    · cases h
      exact .itemAdded ‹_›
    split at h
    · cases h
    · rename_i hType hNew
      cases h
      exact .added (not_not.mp hType) fun p hp hId => hNew ⟨p, hp, hId⟩
  | functionCallArgumentsDelta itemID delta =>
    rw [step] at h
    split at h
    · rename_i hOpen
      obtain ⟨p, hp, rfl, -⟩ := hOpen
      cases h
      exact .more hp delta
    · cases h
  | outputItemDone item =>
    rw [step] at h
    split at h
    · cases h
      exact .itemDone ‹_›
    split at h
    · rename_i hType hOpen
      obtain ⟨p, hp, hBegins, -⟩ := hOpen
      cases h
      exact .done hp (not_not.mp hType) hBegins
    · cases h
  | completed response | failed => cases h
  | created response =>
    cases h
    exact .created response
  | reasoningSummaryTextDelta delta =>
    cases h
    exact .summary delta
  | reasoningSummaryTextDone =>
    cases h
    exact .summaryDone
  | other =>
    cases h
    exact .other

/-- Every function call that is announced has a call id. -/
def Named (events : List ResponsesEvent) : Prop :=
  ∀ item, .outputItemAdded item ∈ events → item.type = .functionCall → trimSpace item.callId ≠ ""

theorem ids_update {id : String} {f : Part → Part}
    (h : ∀ p ∈ a.calls, p.item.id = id → (f p).item.ids = p.item.ids) :
    (a.update id f).ids = a.ids := by
  rw [ids, update, map_map]
  refine map_congr_left fun p hp => ?_
  show (if p.item.id = id then f p else p).item.ids = p.item.ids
  split
  · exact h p hp ‹_›
  · rfl

theorem keys_eq_of_ids {b : Assembly} (h : b.ids = a.ids) :
    b.calls.map Part.key = a.calls.map Part.key := by
  have hSnd := congrArg (map Prod.snd) h
  rwa [ids, ids, map_map, map_map] at hSnd

theorem mem_update (h : Distinct a.ids) {p r : Part} (hp : p ∈ a.calls) {f : Part → Part}
    (hr : r ∈ (a.update p.item.id f).calls) : r = f p ∨ (r ∈ a.calls ∧ r.key ≠ p.key) := by
  obtain ⟨q, hq, rfl⟩ := mem_map.mp hr
  split
  · rename_i hId
    rw [eq_of_itemKey h hq hp (congrArg trimSpace hId)]
    exact .inl rfl
  · rename_i hId
    refine .inr ⟨hq, fun hKey => hId ?_⟩
    rw [eq_of_key h hq hp hKey]

theorem ne_of_new {item : ResponsesOutput} (h : Distinct (a.ids ++ [item.ids])) (q : Part)
    (hq : q ∈ a.calls) :
    q.key ≠ trimSpace item.callId ∧ trimSpace q.item.id ≠ trimSpace item.id := by
  have hMem : q.item.ids ∈ a.ids := mem_map_of_mem hq
  have hCalls := h.calls
  have hItems := h.items
  rw [map_append, nodup_append] at hCalls hItems
  constructor
  · exact hCalls.2.2 _ (mem_map_of_mem hMem) _ mem_cons_self
  · exact hItems.2.2 _ (mem_map_of_mem hMem) _ mem_cons_self

theorem key_not_mem_of_new {item : ResponsesOutput} (h : Distinct (a.ids ++ [item.ids])) :
    trimSpace item.callId ∉ a.calls.map Part.key := by
  intro hMem
  obtain ⟨q, hq, hEq⟩ := mem_map.mp hMem
  exact (ne_of_new h q hq).1 hEq

theorem ids_begins {x y : ResponsesOutput} (h : x.Begins y) (hNamed : trimSpace x.callId ≠ "") :
    y.ids = x.ids := by
  obtain ⟨hId, hCall, -, -⟩ := h
  rcases hCall with hNone | hCall
  · rw [hNone] at hNamed
    exact absurd trimSpace_empty hNamed
  · rw [ResponsesOutput.ids, ResponsesOutput.ids, hId, hCall]

structure Sound (a : Assembly) : Prop where
  nodup : (a.calls.map (·.item.id)).Nodup
  named : ∀ p ∈ a.calls, p.key ≠ ""

theorem sound_start : Sound start := ⟨List.nodup_nil, List.forall_mem_nil _⟩

theorem Sound.update (h : Sound a) (id : String) (f : Part → Part)
    (hIds : ∀ p ∈ a.calls, p.item.id = id → (f p).item.id = id ∧ (f p).item.ids = p.item.ids) :
    Sound (a.update id f) ∧ (a.update id f).ids = a.ids := by
  have hSame : (a.update id f).ids = a.ids := ids_update fun p hp hId => (hIds p hp hId).2
  refine ⟨⟨?_, ?_⟩, hSame⟩
  · have hRaw : (a.update id f).calls.map (·.item.id) = a.calls.map (·.item.id) := by
      rw [Assembly.update, map_map]
      refine map_congr_left fun p hp => ?_
      show (if p.item.id = id then f p else p).item.id = p.item.id
      split
      · rename_i hId
        rw [(hIds p hp hId).1, hId]
      · rfl
    rw [hRaw]
    exact h.nodup
  · intro p hp
    have hMem : p.item.ids ∈ a.ids := hSame ▸ mem_map_of_mem hp
    obtain ⟨q, hq, hEq⟩ := mem_map.mp hMem
    have hKey : q.key = p.key := (ResponsesOutput.ids_inj hEq).2
    rw [← hKey]
    exact h.named q hq

theorem Moves.sound (h : a.Moves event a') (hSound : Sound a) (hNamed : Named [event]) :
    Sound a' ∧ a.ids <+: a'.ids := by
  cases h with
  | added hType hNew =>
    rename_i item
    refine ⟨⟨?_, ?_⟩, ?_⟩
    · rw [map_append, map_singleton]
      refine hSound.nodup.append (nodup_singleton _) ?_
      rw [disjoint_singleton]
      intro hMem
      obtain ⟨p, hp, hId⟩ := mem_map.mp hMem
      exact hNew p hp hId
    · intro p hp
      rcases mem_append.mp hp with hp | hp
      · exact hSound.named p hp
      · rw [mem_singleton.mp hp]
        exact hNamed item mem_cons_self hType
    · rw [ids, ids, map_append]
      exact prefix_append ..
  | more hp delta =>
    obtain ⟨hSound', hSame⟩ := hSound.update _ (·.more delta) fun p _ hId => ⟨hId, rfl⟩
    exact ⟨hSound', hSame ▸ prefix_rfl⟩
  | done hp hType hBegins =>
    rename_i p item
    have hIds : ∀ q ∈ a.calls, q.item.id = item.id → item.id = item.id ∧ item.ids = q.item.ids := by
      intro q hq hId
      have hEq : q = p := inj_on_of_nodup_map hSound.nodup hq hp (hId.trans hBegins.1.symm)
      exact ⟨rfl, hEq ▸ ids_begins hBegins (hSound.named p hp)⟩
    obtain ⟨hSound', hSame⟩ := hSound.update item.id (fun _ => ⟨item, true⟩) hIds
    exact ⟨hSound', hSame ▸ prefix_rfl⟩
  | text delta => exact ⟨⟨hSound.nodup, hSound.named⟩, prefix_rfl⟩
  | _ => exact ⟨hSound, prefix_rfl⟩

theorem run_cons {events : List ResponsesEvent}
    (h : (event :: events).foldlM step a = some a') :
    ∃ a₁, a.Moves event a₁ ∧ events.foldlM step a₁ = some a' := by
  rw [foldlM_cons, Option.bind_eq_bind, Option.bind_eq_some_iff] at h
  obtain ⟨a₁, hStep, hRest⟩ := h
  exact ⟨a₁, step_moves hStep, hRest⟩

theorem run_sound {events : List ResponsesEvent} (hNamed : Named events) (hSound : Sound a)
    (h : events.foldlM step a = some a') : a.ids <+: a'.ids := by
  induction events generalizing a with
  | nil =>
    cases h
    exact prefix_rfl
  | cons event events ih =>
    obtain ⟨a₁, hMoves, hRest⟩ := run_cons h
    obtain ⟨hSound₁, hPre⟩ := hMoves.sound hSound fun item hItem =>
      hNamed item (mem_singleton.mp hItem ▸ mem_cons_self)
    have hNamed₁ : Named events := fun item hItem => hNamed item (mem_cons_of_mem _ hItem)
    exact hPre.trans (ih hNamed₁ hSound₁ hRest)

end Assembly

end NewApi.Stream
