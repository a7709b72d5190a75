import NewApi.Stream.Assembly

/-!
# The handler follows a stream

`Follows` relates the state of the handler to the assembly while no text has been sent.  Once there
is text, `frozen_step` says that the tool calls stay as they were.  The text itself is followed
throughout: `tracks_step`.
-/

namespace NewApi.Stream

open Go List Function

/-! ## Lists with keys -/

theorem lookup_zipIdx (keys : List String) (n : Nat) (k : String) :
    (keys.zipIdx n).lookup k = if k ∈ keys then some (n + keys.idxOf k) else none := by
  induction keys generalizing n with
  | nil => rfl
  | cons key keys ih =>
    rw [zipIdx_cons, lookup_cons, ih]
    by_cases hKey : k = key
    · simp [hKey]
    have hOther : ¬ key = k := fun h => hKey h.symm
    have hBeq : (k == key) = false := beq_false_of_ne hKey
    by_cases hMem : k ∈ keys
    · simp [hBeq, hMem, idxOf_cons_ne _ hOther, Nat.add_right_comm, Nat.add_assoc]
    · simp [hBeq, hKey, hMem]

variable {k : String}

theorem modify_idxOf {α β : Type} (key : α → String) (view : α → β) (f : β → β) {xs : List α}
    (hNodup : (xs.map key).Nodup) (hMem : k ∈ xs.map key) :
    (xs.map view).modify ((xs.map key).idxOf k) f =
      xs.map fun x => if key x = k then f (view x) else view x := by
  induction xs with
  | nil => cases hMem
  | cons x xs ih =>
    rw [map_cons, nodup_cons] at hNodup
    rw [map_cons, map_cons, map_cons]
    by_cases hKey : key x = k
    · have hRest : ∀ y ∈ xs, view y = if key y = k then f (view y) else view y := by
        intro y hy
        rw [if_neg]
        intro hSame
        exact hNodup.1 (mem_map.mpr ⟨y, hy, hSame.trans hKey.symm⟩)
      rw [hKey, idxOf_cons_self, modify_zero_cons, if_pos rfl, map_congr_left hRest]
    · rw [idxOf_cons_ne _ hKey, modify_succ_cons, if_neg hKey, ih hNodup.2]
      exact (mem_cons.mp hMem).resolve_left (Ne.symm hKey)

theorem mem_concat_of_new {α : Type} {key : α → String} {xs : List α} {x y : α}
    (hNew : ∀ z ∈ xs, key z ≠ key x) (hy : y ∈ xs ++ [x]) : y = x ∨ (y ∈ xs ∧ key y ≠ key x) := by
  rw [mem_append, mem_singleton] at hy
  rcases hy with hy | rfl
  · exact .inr ⟨hy, hNew y hy⟩
  · exact .inl rfl

theorem update_eq_view {α : Type} (key view : α → String) (x : α) {g : String → String}
    {xs : List α} {y : α} (hg : ∀ z ∈ xs, g (key z) = view z) (hk : key x = k)
    (hy : y = x ∨ (y ∈ xs ∧ key y ≠ k)) : update g k (view x) (key y) = view y := by
  rcases hy with rfl | ⟨hy, hOther⟩
  · rw [hk, update_self]
  · rw [update_of_ne hOther]
    exact hg y hy

/-! ## The handler -/

variable (delta : String) {a a' : Assembly}

namespace ResponsesRelay

variable (env : ResponsesRelay) {s s' : ResponsesState}

theorem received_of_sent {x : Sent} (h : s'.sent = s.sent ++ [x]) :
    s'.received = s.received.add x.chunk := by
  rw [ResponsesState.received, h, map_append]
  exact accumulate_concat ..

theorem received_sendDelta (d : Delta) :
    (env.sendDelta s d).received =
      ⟨s.received.content ++ d.getContentString, d.toolCalls.foldl addCall s.received.toolCalls,
        s.received.finishReason⟩ := by
  have hSent : (env.sendDelta s d).sent =
      s.sent ++ [⟨none, ⟨env.responseId, s.model, [⟨d, none⟩], none⟩⟩] := rfl
  rw [received_of_sent hSent]
  rfl

theorem sendStartIfNeeded_eq : ∃ sent, env.sendStartIfNeeded s = { s with
    sentStart := true, sent := sent } ∧ accumulate (sent.map (·.chunk)) = s.received := by
  unfold sendStartIfNeeded
  split
  · rename_i hStart
    exact ⟨s.sent, by rw [← hStart], rfl⟩
  refine ⟨_, rfl, ?_⟩
  refine (received_of_sent rfl).trans ?_
  simp [Completion.add, generateStartEmptyResponse, noDelta, Chunk.delta, Chunk.finish,
    Choice.finish, Delta.getContentString]

/-- What an event leaves alone that is not about a function call. -/
structure SameCalls (s s' : ResponsesState) : Prop where
  index : s'.toolCallIndexByID = s.toolCallIndexByID
  names : s'.toolCallNameByID = s.toolCallNameByID
  args : s'.toolCallArgsByID = s.toolCallArgsByID
  nameSent : s'.toolCallNameSent = s.toolCallNameSent
  canonical : s'.toolCallCanonicalIDByItemID = s.toolCallCanonicalIDByItemID
  saw : s'.sawToolCall = s.sawToolCall
  calls : s'.received.toolCalls = s.received.toolCalls

/-- The text of the handler is that of the stream, and the end has not been sent. -/
structure Tracks (text : String) (s : ResponsesState) : Prop where
  outputText : s.outputText = text
  content : s.received.content = text
  unfinished : s.received.finishReason = ""
  running : s.streamErr = false
  unstopped : s.sentStop = false

structure SendsCall (s s' : ResponsesState) (key piece : String) : Prop where
  index : s'.toolCallIndexByID =
    if (s.toolCallIndexByID.lookup key).isSome then s.toolCallIndexByID
    else s.toolCallIndexByID ++ [(key, s.toolCallIndexByID.length)]
  names : s'.toolCallNameByID = s.toolCallNameByID
  args : s'.toolCallArgsByID = s.toolCallArgsByID
  nameSent : s'.toolCallNameSent = Function.update s.toolCallNameSent key
    (s.toolCallNameSent key || decide (s.toolCallNameByID key ≠ ""))
  canonical : s'.toolCallCanonicalIDByItemID = s.toolCallCanonicalIDByItemID
  saw : s'.sawToolCall = true
  calls : s'.received.toolCalls = addCall s.received.toolCalls
    ⟨some (toolCallIndex s key), key,
      if s.toolCallNameSent key then "" else s.toolCallNameByID key, piece⟩

theorem sendToolCallDelta_frozen (h : s.outputText ≠ "") (key name args : String) :
    env.sendToolCallDelta s key name args = s := by
  unfold sendToolCallDelta
  rw [if_pos h, ite_self]

theorem sendToolCallDelta_sends {key name : String} (args : String) (hKey : key ≠ "")
    (hText : s.outputText = "") (hName : name = "" ∨ s.toolCallNameByID key = name) :
    SendsCall s (env.sendToolCallDelta s key name args) key args := by
  obtain ⟨sent, hStart, hSent⟩ := env.sendStartIfNeeded_eq (s := s)
  have hNames : (if name ≠ "" then update s.toolCallNameByID key name
      else s.toolCallNameByID) = s.toolCallNameByID := by
    rcases hName with rfl | rfl <;> simp
  have hOwn : (if s.toolCallNameByID key ≠ "" then s.toolCallNameByID key else name) =
      s.toolCallNameByID key := by
    rcases hName with rfl | rfl
    · simp
    · simp
  unfold sendToolCallDelta
  rw [if_neg hKey, if_neg (not_not_intro hText), hStart]
  dsimp only [registerToolCall, toolCallIndex]
  rw [hNames, hOwn]
  refine ⟨rfl, rfl, rfl, ?_, rfl, rfl, ?_⟩
  · show (if (if _ then s.toolCallNameByID key else "") ≠ "" then _ else s.toolCallNameSent) = _
    cases hSentName : s.toolCallNameSent key with
    | true => simp [hSentName]
    | false =>
      by_cases hEmpty : s.toolCallNameByID key = "" <;>
        simp [hSentName, hEmpty, sendDelta, sendChatChunk]
  · refine (congrArg Completion.toolCalls (env.received_sendDelta _)).trans ?_
    show addCall (accumulate (sent.map (·.chunk))).toolCalls _ = _
    congr 2
    cases s.toolCallNameSent key with
    | true => simp
    | false => by_cases hEmpty : s.toolCallNameByID key = "" <;> simp [hEmpty]

/-! ### Text -/

variable {text : String}

theorem SameSent.received (h : SameSent s s') : s'.received = s.received := by
  rw [ResponsesState.received, h.sent]
  rfl

section

variable (h : Tracks text s)
include h

theorem Tracks.sendStartIfNeeded : Tracks text (env.sendStartIfNeeded s) := by
  obtain ⟨sent, hStart, hSent⟩ := env.sendStartIfNeeded_eq (s := s)
  rw [hStart]
  exact ⟨h.outputText, (congrArg Completion.content hSent).trans h.content,
    (congrArg Completion.finishReason hSent).trans h.unfinished, h.running, h.unstopped⟩

theorem Tracks.sendDelta {d : Delta} (hd : d.getContentString = "") :
    Tracks text (env.sendDelta s d) := by
  have hSent := env.received_sendDelta (s := s) d
  refine ⟨h.outputText, ?_, ?_, h.running, h.unstopped⟩
  · rw [hSent, hd, String.append_empty]
    exact h.content
  · rw [hSent]
    exact h.unfinished

theorem Tracks.sendOutputTextDelta (delta : String) :
    Tracks (text ++ delta) (env.sendOutputTextDelta s delta) := by
  have hStart := h.sendStartIfNeeded env
  unfold ResponsesRelay.sendOutputTextDelta
  dsimp only
  split
  · refine ⟨congrArg (· ++ delta) hStart.outputText, ?_, ?_, hStart.running, hStart.unstopped⟩
    · rw [received_sendDelta]
      exact congrArg (· ++ delta) hStart.content
    · rw [received_sendDelta]
      exact hStart.unfinished
  · rename_i hDelta
    rw [not_not.mp hDelta, String.append_empty]
    exact hStart

end

theorem tracks_keeps : env.KeepsCalls (Tracks text) where
  note h _ _ _ _ _ _ := ⟨h.outputText, h.content, h.unfinished, h.running, h.unstopped⟩
  start h := h.sendStartIfNeeded env
  summary h _ := h.sendDelta env rfl
  register h _ _ _ _ _ _ _ := ⟨h.outputText, h.content, h.unfinished, h.running, h.unstopped⟩
  call h _ := h.sendDelta env rfl

theorem onEvent_running (h : s.streamErr = false) (event : ResponsesEvent) :
    env.onEvent s event = env.onType s event := by
  rw [onEvent, h]
  exact if_neg Bool.false_ne_true

variable {item : ResponsesOutput} {p : Part} {event : ResponsesEvent}

theorem tracks_step (h : a.Moves event a') (hs : Tracks a.text s) :
    Tracks a'.text (env.onEvent s event) := by
  rw [env.onEvent_running hs.running]
  cases h with
  | text delta => exact hs.sendOutputTextDelta env delta
  | added hType hNew | done hp hType hBegins | itemAdded hType | itemDone hType =>
    exact env.tracks_keeps.onOutputItem hs _
  | more hp delta => exact env.tracks_keeps.onArgumentsDelta hs _ delta
  | created response => exact env.tracks_keeps.setModel hs response
  | summary delta => exact env.tracks_keeps.sendReasoningSummaryDelta hs delta
  | summaryDone => exact env.tracks_keeps.summaryDone hs
  | other => exact hs

/-! ### Events that are not about function calls -/

theorem SameCalls.rfl : SameCalls s s := ⟨by rfl, by rfl, by rfl, by rfl, by rfl, by rfl, by rfl⟩

theorem SameCalls.sendStartIfNeeded (h : SameCalls s s') :
    SameCalls s (env.sendStartIfNeeded s') := by
  obtain ⟨sent, hStart, hSent⟩ := env.sendStartIfNeeded_eq (s := s')
  rw [hStart]
  exact ⟨h.index, h.names, h.args, h.nameSent, h.canonical, h.saw,
    (congrArg Completion.toolCalls hSent).trans h.calls⟩

theorem SameCalls.sendDelta (h : SameCalls s s') {d : Delta} (hd : d.toolCalls = []) :
    SameCalls s (env.sendDelta s' d) := by
  refine ⟨h.index, h.names, h.args, h.nameSent, h.canonical, h.saw, ?_⟩
  rw [received_sendDelta, hd]
  exact h.calls

theorem sameCalls_keeps : env.Keeps (SameCalls s) where
  note h _ _ _ _ _ _ :=
    ⟨h.index, h.names, h.args, h.nameSent, h.canonical, h.saw, h.calls⟩
  start h := h.sendStartIfNeeded env
  summary h _ := h.sendDelta env rfl

theorem sameCalls_sendOutputTextDelta : SameCalls s (env.sendOutputTextDelta s delta) := by
  have hStart := SameCalls.rfl.sendStartIfNeeded env (s := s)
  unfold sendOutputTextDelta
  dsimp only
  split
  · refine SameCalls.sendDelta env ?_ rfl
    exact ⟨hStart.index, hStart.names, hStart.args, hStart.nameSent, hStart.canonical, hStart.saw,
      hStart.calls⟩
  · exact hStart

theorem onOutputItem_of_other (h : item.type ≠ .functionCall) :
    env.onOutputItem s item = s := if_pos h

/-! ### Tool calls after text -/

theorem onOutputItem_frozen (h : s.outputText ≠ "") (item : ResponsesOutput) :
    (env.onOutputItem s item).received.toolCalls = s.received.toolCalls := by
  have hSame := noteItem_sameSent s item
  unfold onOutputItem
  split
  · rfl
  · rw [sendToolCallDelta_frozen _ (by rw [hSame.outputText]; exact h), hSame.received]

theorem onArgumentsDelta_frozen (h : s.outputText ≠ "") (itemID delta : String) :
    (env.onArgumentsDelta s itemID delta).received.toolCalls = s.received.toolCalls := by
  have hSame := noteArguments_sameSent s (canonicalID s itemID) delta
  unfold onArgumentsDelta
  dsimp only
  split
  · rfl
  · rw [sendToolCallDelta_frozen _ (by rw [hSame.outputText]; exact h), hSame.received]

theorem frozen_step (h : a.Moves event a') (hs : Tracks a.text s) (hText : a.text ≠ "") :
    (env.onEvent s event).received.toolCalls = s.received.toolCalls := by
  have hOut : s.outputText ≠ "" := by rw [hs.outputText]; exact hText
  rw [env.onEvent_running hs.running]
  cases h with
  | text delta => exact (env.sameCalls_sendOutputTextDelta delta).calls
  | added hType hNew | done hp hType hBegins | itemAdded hType | itemDone hType =>
    exact env.onOutputItem_frozen hOut _
  | more hp delta => exact env.onArgumentsDelta_frozen hOut _ delta
  | created response => exact (env.sameCalls_keeps.setModel .rfl response).calls
  | summary delta => exact (env.sameCalls_keeps.sendReasoningSummaryDelta .rfl delta).calls
  | summaryDone =>
    rw [onType]
    split <;> rfl
  | other => rfl

/-! ### Tool calls before text -/

/-- The maps of the handler and what it has sent are those of the function calls of the stream. -/
structure Follows (a : Assembly) (s : ResponsesState) : Prop where
  index : s.toolCallIndexByID = (a.calls.map Part.key).zipIdx
  canonical : ∀ p ∈ a.calls, s.toolCallCanonicalIDByItemID (trimSpace p.item.id) = p.key
  args : ∀ p ∈ a.calls, s.toolCallArgsByID p.key = p.item.arguments
  names : ∀ p ∈ a.calls, s.toolCallNameByID p.key = trimSpace p.item.name
  nameSent : ∀ k, s.toolCallNameSent k = decide (s.toolCallNameByID k ≠ "")
  fresh : ∀ k ∉ a.calls.map Part.key, s.toolCallArgsByID k = "" ∧ s.toolCallNameByID k = ""
  saw : s.sawToolCall = decide (a.calls ≠ [])
  calls : s.received.toolCalls = a.calls.map Part.call

theorem follows_start : Follows .start env.start :=
  ⟨rfl, nofun, nofun, nofun, fun _ => rfl, fun _ _ => ⟨rfl, rfl⟩, rfl, rfl⟩

theorem Follows.of_same (h : Follows a s) (hs : SameCalls s s') (hCalls : a'.calls = a.calls) :
    Follows a' s' := by
  obtain ⟨h₁, h₂, h₃, h₄, h₅, h₆, h₇, h₈⟩ := h
  constructor
  all_goals simp only [hs.index, hs.names, hs.args, hs.nameSent, hs.canonical, hs.saw, hs.calls,
    hCalls]
  all_goals assumption

structure Notes (s s' : ResponsesState) (key name args : String) : Prop extends SameSent s s' where
  names : s'.toolCallNameByID = Function.update s.toolCallNameByID key name
  args : s'.toolCallArgsByID = Function.update s.toolCallArgsByID key args

variable {a : Assembly}

theorem Follows.toolCallIndex_eq (h : Follows a s) (hk : k ∈ a.calls.map Part.key) :
    toolCallIndex s k = (a.calls.map Part.key).idxOf k := by
  rw [toolCallIndex, h.index, lookup_zipIdx, if_pos hk]
  exact Nat.zero_add _

theorem addCall_known (hIds : Distinct a.ids) (hp : p ∈ a.calls) {f : Part → Part}
    {name piece : String} (hCall : (f p).call = ⟨p.key, trimSpace p.item.name ++ name,
      p.item.arguments ++ piece⟩) :
    addCall (a.calls.map Part.call)
        ⟨some ((a.calls.map Part.key).idxOf p.key), p.key, name, piece⟩ =
      (a.update p.item.id f).calls.map Part.call := by
  have hMem : p.key ∈ a.calls.map Part.key := mem_map_of_mem hp
  have hLt : (a.calls.map Part.key).idxOf p.key < (a.calls.map Part.call).length := by
    have := idxOf_lt_length_of_mem hMem
    simpa using this
  rw [addCall]
  dsimp only [Option.getD_some, Int.toNat_natCast]
  rw [if_pos hLt, modify_idxOf _ _ _ (Assembly.keys_nodup hIds) hMem, Assembly.update, map_map]
  refine map_congr_left fun q hq => ?_
  show (if q.key = p.key then _ else q.call) = (if q.item.id = p.item.id then f q else q).call
  by_cases hq' : q = p
  · rw [hq', if_pos rfl, if_pos rfl, hCall]
    rfl
  · rw [if_neg fun hKey => hq' (Assembly.eq_of_key hIds hq hp hKey),
      if_neg fun hId => hq' (Assembly.eq_of_itemKey hIds hq hp (congrArg trimSpace hId))]

theorem Follows.known {s₀ : ResponsesState} (h : Follows a s) (hIds : Distinct a.ids)
    (hp : p ∈ a.calls) {f : Part → Part} (hSame : (f p).item.ids = p.item.ids) {piece : String}
    (hPiece : p.item.arguments ++ piece = (f p).item.arguments)
    (hName : trimSpace p.item.name = "" ∨ trimSpace (f p).item.name = trimSpace p.item.name)
    (hNotes : Notes s s₀ p.key (trimSpace (f p).item.name) (f p).item.arguments)
    (hCanonical : s₀.toolCallCanonicalIDByItemID = s.toolCallCanonicalIDByItemID)
    (hs : SendsCall s₀ s' p.key piece) : Follows (a.update p.item.id f) s' := by
  have hMem : p.key ∈ a.calls.map Part.key := mem_map_of_mem hp
  obtain ⟨hItem, hKey⟩ : trimSpace (f p).item.id = trimSpace p.item.id ∧ (f p).key = p.key :=
    ResponsesOutput.ids_inj hSame
  have hKeys : (a.update p.item.id f).calls.map Part.key = a.calls.map Part.key := by
    refine Assembly.keys_eq_of_ids (Assembly.ids_update fun q hq hId => ?_)
    rw [Assembly.eq_of_itemKey hIds hq hp (congrArg trimSpace hId)]
    exact hSame
  have hSentName : s.toolCallNameSent p.key = decide (trimSpace p.item.name ≠ "") := by
    rw [h.nameSent, h.names p hp]
  constructor
  · rw [hs.index, hNotes.index, hKeys, h.index, lookup_zipIdx, if_pos hMem]
    rfl
  · intro r hr
    rw [hs.canonical, hCanonical]
    rcases Assembly.mem_update hIds hp hr with rfl | ⟨hr, -⟩
    · rw [hItem, hKey]
      exact h.canonical p hp
    · exact h.canonical r hr
  · intro r hr
    rw [hs.args, hNotes.args]
    exact update_eq_view Part.key (·.item.arguments) (f p) h.args hKey
      (Assembly.mem_update hIds hp hr)
  · intro r hr
    rw [hs.names, hNotes.names]
    exact update_eq_view Part.key (trimSpace ·.item.name) (f p) h.names hKey
      (Assembly.mem_update hIds hp hr)
  · intro k
    rw [hs.nameSent, hs.names, hNotes.nameSent, hNotes.names]
    by_cases hk : k = p.key
    · rw [hk, update_self, update_self, hSentName]
      rcases hName with hEmpty | hEqual
      · simp [hEmpty]
      · simp [hEqual]
    · rw [update_of_ne hk, update_of_ne hk]
      exact h.nameSent k
  · intro k hk
    rw [hKeys] at hk
    have hOther : k ≠ p.key := fun hEq => hk (hEq ▸ hMem)
    rw [hs.args, hs.names, hNotes.args, hNotes.names, update_of_ne hOther, update_of_ne hOther]
    exact h.fresh k hk
  · have hNonempty : (a.update p.item.id f).calls ≠ [] := by
      intro hNil
      rw [hNil, map_nil] at hKeys
      rw [← hKeys] at hMem
      cases hMem
    rw [hs.saw, decide_eq_true hNonempty]
  · have hIndex : toolCallIndex s₀ p.key = (a.calls.map Part.key).idxOf p.key := by
      rw [toolCallIndex, hNotes.index]
      exact h.toolCallIndex_eq hMem
    rw [hs.calls, hNotes.received, h.calls, hIndex]
    refine addCall_known hIds hp ?_
    rw [Part.call, hKey, ← hPiece, hNotes.nameSent, hNotes.names, update_self, hSentName]
    rcases hName with hEmpty | hEqual
    · simp [hEmpty]
    · by_cases hEmpty : trimSpace p.item.name = "" <;> simp [hEqual, hEmpty]

theorem Follows.new {s₀ : ResponsesState} (h : Follows a s)
    (hIds : Distinct (a.ids ++ [item.ids]))
    (hNotes : Notes s s₀ (trimSpace item.callId) (trimSpace item.name) item.arguments)
    (hCanonical : s₀.toolCallCanonicalIDByItemID = update s.toolCallCanonicalIDByItemID
      (trimSpace item.id) (trimSpace item.callId))
    (hs : SendsCall s₀ s' (trimSpace item.callId) item.arguments) :
    Follows { a with calls := a.calls ++ [⟨item, false⟩] } s' := by
  have hKey : ∀ q ∈ a.calls, q.key ≠ (Part.mk item false).key := fun q hq =>
    (Assembly.ne_of_new hIds q hq).1
  have hItem : ∀ q ∈ a.calls, trimSpace q.item.id ≠ trimSpace (Part.mk item false).item.id :=
    fun q hq => (Assembly.ne_of_new hIds q hq).2
  have hNew := Assembly.key_not_mem_of_new hIds
  obtain ⟨-, hNoName⟩ := h.fresh _ hNew
  have hSentName : s.toolCallNameSent (trimSpace item.callId) = false := by
    rw [h.nameSent, hNoName]
    rfl
  have hLookup : s₀.toolCallIndexByID.lookup (trimSpace item.callId) = none := by
    rw [hNotes.index, h.index, lookup_zipIdx, if_neg hNew]
  constructor
  · rw [hs.index, hLookup, hNotes.index, h.index, map_append, zipIdx_append]
    simp [Part.key]
  · intro r hr
    rw [hs.canonical, hCanonical]
    exact update_eq_view (fun p : Part => trimSpace p.item.id) Part.key ⟨item, false⟩ h.canonical
      rfl (mem_concat_of_new hItem hr)
  · intro r hr
    rw [hs.args, hNotes.args]
    exact update_eq_view Part.key (·.item.arguments) ⟨item, false⟩ h.args rfl
      (mem_concat_of_new hKey hr)
  · intro r hr
    rw [hs.names, hNotes.names]
    exact update_eq_view Part.key (trimSpace ·.item.name) ⟨item, false⟩ h.names rfl
      (mem_concat_of_new hKey hr)
  · intro k
    rw [hs.nameSent, hs.names, hNotes.nameSent, hNotes.names]
    by_cases hk : k = trimSpace item.callId
    · rw [hk, update_self, update_self, hSentName]
      exact Bool.false_or _
    · rw [update_of_ne hk, update_of_ne hk]
      exact h.nameSent k
  · intro k hk
    rw [map_append, mem_append, not_or] at hk
    have hOther : k ≠ trimSpace item.callId := fun hEq => hk.2 (by simp [hEq, Part.key])
    rw [hs.args, hs.names, hNotes.args, hNotes.names, update_of_ne hOther, update_of_ne hOther]
    exact h.fresh k hk.1
  · rw [hs.saw]
    simp
  · have hIndex : toolCallIndex s₀ (trimSpace item.callId) = a.calls.length := by
      rw [toolCallIndex, hLookup, hNotes.index, h.index]
      simp
    rw [hs.calls, hNotes.received, h.calls, hIndex, hNotes.nameSent, hSentName, hNotes.names,
      update_self]
    simp [addCall, Part.call, Part.key]

theorem append_trimPrefix {x y : String} (h : x.toList <+: y.toList) : x ++ trimPrefix y x = y := by
  obtain ⟨rest, hRest⟩ := h
  rw [trimPrefix, if_pos (List.isPrefixOf_iff_prefix.mpr ⟨rest, hRest⟩), ← String.toList_inj,
    String.toList_append, String.toList_ofList, ← hRest, ← String.length_toList, drop_left]

theorem callID_eq (h : trimSpace item.callId ≠ "") :
    item.callID = trimSpace item.callId := if_neg h

theorem notes_noteItem (hKey : trimSpace item.callId ≠ "")
    (hName : trimSpace item.name = "" → s.toolCallNameByID (trimSpace item.callId) = "")
    (hArgs : item.arguments = "" → s.toolCallArgsByID (trimSpace item.callId) = "") :
    Notes s (noteItem s item) (trimSpace item.callId) (trimSpace item.name) item.arguments := by
  refine ⟨noteItem_sameSent s item, ?_, ?_⟩ <;> dsimp only [noteItem] <;> rw [callID_eq hKey]
  · split
    · rfl
    · rename_i hEmpty
      rw [not_not.mp hEmpty, ← hName (not_not.mp hEmpty), update_eq_self]
  · split
    · rfl
    · rename_i hEmpty
      rw [not_not.mp hEmpty, ← hArgs (not_not.mp hEmpty), update_eq_self]

theorem onOutputItem_sends (hText : s.outputText = "") (hType : item.type = .functionCall)
    (hKey : trimSpace item.callId ≠ "")
    (hNotes : Notes s (noteItem s item) (trimSpace item.callId) (trimSpace item.name)
      item.arguments) :
    SendsCall (noteItem s item) (env.onOutputItem s item) (trimSpace item.callId)
      (if item.arguments ≠ "" then
        trimPrefix item.arguments (s.toolCallArgsByID (trimSpace item.callId)) else "") := by
  rw [onOutputItem, if_neg (not_not_intro hType), callID_eq hKey]
  refine env.sendToolCallDelta_sends _ hKey (hNotes.outputText.trans hText) (.inr ?_)
  rw [hNotes.names, update_self]

theorem follows_added (h : Follows a s) (hOut : s.outputText = "")
    (hType : item.type = .functionCall) (hIds : Distinct (a.ids ++ [item.ids])) :
    Follows { a with calls := a.calls ++ [⟨item, false⟩] } (env.onOutputItem s item) := by
  obtain ⟨hItem, hKey⟩ := hIds.ne item.ids (by simp)
  have hFresh := h.fresh _ (Assembly.key_not_mem_of_new hIds)
  have hNotes := notes_noteItem hKey (fun _ => hFresh.2) fun _ => hFresh.1
  have hPiece : (if item.arguments ≠ "" then trimPrefix item.arguments
      (s.toolCallArgsByID (trimSpace item.callId)) else "") = item.arguments := by
    rw [hFresh.1]
    split
    · exact (String.empty_append).symm.trans (append_trimPrefix nil_prefix)
    · rename_i hEmpty
      exact (not_not.mp hEmpty).symm
  have hSends := env.onOutputItem_sends hOut hType hKey hNotes
  rw [hPiece] at hSends
  refine h.new hIds hNotes ?_ hSends
  rw [noteItem_canonical, callID_eq hKey]
  exact if_pos ⟨hItem, hKey⟩

theorem follows_more (h : Follows a s) (hOut : s.outputText = "") (hIds : Distinct a.ids)
    (hp : p ∈ a.calls) (delta : String) :
    Follows (a.update p.item.id (·.more delta)) (env.onArgumentsDelta s p.item.id delta) := by
  have hKey := Assembly.key_ne hIds hp
  have hCanonical : canonicalID s p.item.id = p.key := by
    rw [canonicalID, h.canonical p hp, if_neg hKey]
  have hNotes : Notes s (noteArguments s p.key delta) p.key (trimSpace (p.more delta).item.name)
      (p.more delta).item.arguments := by
    refine ⟨noteArguments_sameSent s p.key delta, ?_, ?_⟩
    · exact (update_eq_self_iff.mpr (h.names p hp).symm).symm
    · dsimp only [noteArguments]
      rw [h.args p hp]
      rfl
  have hSends : SendsCall (noteArguments s p.key delta)
      (env.sendToolCallDelta (noteArguments s p.key delta) p.key "" delta) p.key delta :=
    env.sendToolCallDelta_sends delta hKey (hNotes.outputText.trans hOut) (.inl rfl)
  have hPiece : p.item.arguments ++ delta = (p.more delta).item.arguments := rfl
  rw [onArgumentsDelta, hCanonical]
  rw [if_neg hKey]
  exact h.known hIds hp rfl hPiece (.inr rfl) hNotes rfl hSends

theorem follows_done (h : Follows a s) (hOut : s.outputText = "") (hIds : Distinct a.ids)
    (hp : p ∈ a.calls) (hType : item.type = .functionCall) (hBegins : p.item.Begins item) :
    Follows (a.update item.id fun _ => ⟨item, true⟩) (env.onOutputItem s item) := by
  have hSame : item.ids = p.item.ids := Assembly.ids_begins hBegins (Assembly.key_ne hIds hp)
  obtain ⟨hItemEq, hKeyEq⟩ : trimSpace item.id = trimSpace p.item.id ∧
      trimSpace item.callId = p.key := ResponsesOutput.ids_inj hSame
  have hKey : trimSpace item.callId ≠ "" := hKeyEq ▸ Assembly.key_ne hIds hp
  obtain ⟨hId, -, hName, hArgs⟩ := hBegins
  have hNameCases : trimSpace p.item.name = "" ∨ trimSpace item.name = trimSpace p.item.name := by
    rcases hName with hEmpty | hEqual
    · exact .inl (by rw [hEmpty, trimSpace_empty])
    · exact .inr (by rw [hEqual])
  have hNoArgs : item.arguments = "" → p.item.arguments = "" := by
    intro hEmpty
    rw [hEmpty] at hArgs
    exact String.toList_eq_nil_iff.mp (prefix_nil.mp hArgs)
  have hNotes : Notes s (noteItem s item) (trimSpace item.callId) (trimSpace item.name)
      item.arguments := by
    refine notes_noteItem hKey ?_ ?_ <;> intro hEmpty
    · rw [hKeyEq, h.names p hp]
      rcases hNameCases with hNone | hEqual
      · exact hNone
      · exact hEqual.symm.trans hEmpty
    · rw [hKeyEq, h.args p hp]
      exact hNoArgs hEmpty
  have hSends := env.onOutputItem_sends hOut hType hKey hNotes
  rw [hKeyEq] at hSends hNotes
  rw [h.args p hp] at hSends
  rw [← hId]
  refine h.known hIds hp hSame ?_ hNameCases hNotes ?_ hSends
  · split
    · exact append_trimPrefix hArgs
    · rename_i hEmpty
      rw [not_not.mp hEmpty, hNoArgs (not_not.mp hEmpty)]
      rfl
  · rw [noteItem_canonical, callID_eq hKey, hKeyEq, hItemEq, ← h.canonical p hp, update_eq_self,
      ite_self]

theorem follows_step (h : a.Moves event a') (hFollows : Follows a s) (hs : Tracks a.text s)
    (hText : a.text = "") (hIds : Distinct a.ids) (hIds' : Distinct a'.ids) :
    Follows a' (env.onEvent s event) := by
  have hOut : s.outputText = "" := hs.outputText.trans hText
  rw [env.onEvent_running hs.running]
  cases h with
  | text delta => exact hFollows.of_same (env.sameCalls_sendOutputTextDelta delta) rfl
  | added hType hNew =>
    rw [Assembly.ids, map_append] at hIds'
    exact env.follows_added hFollows hOut hType hIds'
  | more hp delta => exact env.follows_more hFollows hOut hIds hp delta
  | done hp hType hBegins => exact env.follows_done hFollows hOut hIds hp hType hBegins
  | created response => exact hFollows.of_same (env.sameCalls_keeps.setModel .rfl response) rfl
  | summary delta =>
    exact hFollows.of_same (env.sameCalls_keeps.sendReasoningSummaryDelta .rfl delta) rfl
  | summaryDone =>
    rw [onType]
    split
    · exact hFollows.of_same ⟨rfl, rfl, rfl, rfl, rfl, rfl, rfl⟩ rfl
    · exact hFollows
  | itemAdded hType | itemDone hType =>
    rw [onType, env.onOutputItem_of_other hType]
    exact hFollows
  | other => exact hFollows

end ResponsesRelay

end NewApi.Stream
