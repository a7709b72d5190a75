import NewApi.Stream.Assemble

/-!
# The fragments of the tool calls

A fragment has the index that the handler's map has for its call (`Indexed`), and that never
changes: so the fragments of an index are those of one call, and their concatenation is the call
(`Follows.calls`).
-/

namespace NewApi.Stream

open Upstream List

def ResponsesState.fragments (s : ResponsesState) : List ToolCall :=
  s.sent.flatMap (·.chunk.delta.toolCalls)

theorem ResponsesState.received_toolCalls (s : ResponsesState) :
    s.received.toolCalls = s.fragments.foldl addCall [] := by
  have hFold : ∀ (l : List Sent) (acc : Completion),
      ((l.map (·.chunk)).foldl Completion.add acc).toolCalls =
        (l.flatMap (·.chunk.delta.toolCalls)).foldl addCall acc.toolCalls := by
    intro l
    induction l with
    | nil => exact fun _ => rfl
    | cons x l ih =>
      intro acc
      rw [map_cons, foldl_cons, ih, flatMap_cons, foldl_append]
      rfl
  exact hFold s.sent _

namespace ResponsesRelay

variable (env : ResponsesRelay) {s s' : ResponsesState}

def Indexed (s : ResponsesState) : Prop :=
  ∀ t ∈ s.fragments, ∃ i : Nat, t.index = some (i : Int) ∧ s.toolCallIndexByID.lookup t.id = some i

structure Quiets (s s' : ResponsesState) : Prop where
  fragments : s'.fragments = s.fragments
  index : s'.toolCallIndexByID = s.toolCallIndexByID

theorem Quiets.trans {s₁ : ResponsesState} (h : Quiets s s₁) (h' : Quiets s₁ s') : Quiets s s' :=
  ⟨h'.fragments.trans h.fragments, h'.index.trans h.index⟩

theorem Quiets.indexed (h : Quiets s s') (hs : Indexed s) : Indexed s' := by
  intro t ht
  rw [h.index]
  exact hs t (h.fragments ▸ ht)

theorem quiets_send (x : Sent) (h : x.chunk.delta.toolCalls = []) :
    Quiets s { s with sent := s.sent ++ [x] } :=
  ⟨by simp [ResponsesState.fragments, h], rfl⟩

theorem quiets_sendStartIfNeeded : Quiets s (env.sendStartIfNeeded s) := by
  unfold sendStartIfNeeded
  split
  · exact ⟨rfl, rfl⟩
  · exact ⟨(quiets_send _ rfl).fragments, rfl⟩

theorem indexed_sendToolCallDelta (hs : Indexed s) (key name args : String) :
    Indexed (env.sendToolCallDelta s key name args) := by
  unfold sendToolCallDelta
  split
  · exact hs
  split
  · exact hs
  have hStart := env.quiets_sendStartIfNeeded.indexed hs
  generalize env.sendStartIfNeeded s = s at hStart ⊢
  intro t ht
  have hMem : t ∈ s.fragments ∨ t.index = some (toolCallIndex s key : Int) ∧ t.id = key := by
    simp only [ResponsesState.fragments, sendDelta, sendChatChunk, registerToolCall,
      flatMap_append, mem_append] at ht
    refine ht.imp id fun hNew => ?_
    obtain ⟨x, hx, hxt⟩ := mem_flatMap.mp hNew
    cases mem_singleton.mp hx
    cases mem_singleton.mp hxt
    exact ⟨rfl, rfl⟩
  show ∃ i : Nat, t.index = some (i : Int) ∧
    (registerToolCall s key name).toolCallIndexByID.lookup t.id = some i
  unfold registerToolCall
  rcases hMem with hOld | ⟨hIndex, hId⟩
  · obtain ⟨i, hIndex, hLookup⟩ := hStart t hOld
    refine ⟨i, hIndex, ?_⟩
    split
    · exact hLookup
    · rw [lookup_append, hLookup]
      rfl
  · refine ⟨_, hIndex, ?_⟩
    rw [hId, toolCallIndex]
    cases hLookup : s.toolCallIndexByID.lookup key with
    | some i => simpa using hLookup
    | none => simp [lookup_append, hLookup]

def NoCall : ResponsesEvent → Prop
  | .outputItemAdded item => item.type ≠ .functionCall
  | .outputItemDone item => item.type ≠ .functionCall
  | .functionCallArgumentsDelta .. => False
  | _ => True

theorem quiets_keeps : env.Keeps (Quiets s) where
  note h _ _ _ _ _ _ := ⟨h.fragments, h.index⟩
  start h := h.trans env.quiets_sendStartIfNeeded
  summary h _ := h.trans ⟨(quiets_send _ rfl).fragments, rfl⟩

theorem quiets_sendOutputTextDelta (delta : String) :
    Quiets s (env.sendOutputTextDelta s delta) := by
  have hStart := env.quiets_sendStartIfNeeded (s := s)
  unfold sendOutputTextDelta
  split
  · refine hStart.trans ?_
    exact ⟨(quiets_send _ rfl).fragments, rfl⟩
  · exact hStart

theorem quiets_onType {event : ResponsesEvent} (h : NoCall event) :
    Quiets s (env.onType s event) := by
  have hKeeps := env.quiets_keeps (s := s)
  have hSelf : Quiets s s := ⟨rfl, rfl⟩
  cases event with
  | created response => exact hKeeps.setModel hSelf response
  | reasoningSummaryTextDelta delta => exact hKeeps.sendReasoningSummaryDelta hSelf delta
  | reasoningSummaryTextDone => exact hKeeps.summaryDone hSelf
  | outputTextDelta delta => exact env.quiets_sendOutputTextDelta delta
  | outputItemAdded item | outputItemDone item =>
    rw [onType, env.onOutputItem_of_other h]
    exact hSelf
  | functionCallArgumentsDelta => exact h.elim
  | completed response =>
    have hUsage := hKeeps.setUsage (hKeeps.setModel hSelf response) response
    refine (hKeeps.start hUsage).trans ?_
    rw [onType, sendStop]
    split
    · exact ⟨rfl, rfl⟩
    · exact ⟨(quiets_send _ rfl).fragments, rfl⟩
  | failed | other => exact ⟨rfl, rfl⟩

theorem quiets_run {events : List ResponsesEvent} (h : ∀ event ∈ events, NoCall event) :
    Quiets s (events.foldl env.onEvent s) := by
  induction events generalizing s with
  | nil => exact ⟨rfl, rfl⟩
  | cons event events ih =>
    refine Quiets.trans ?_ (ih fun e he => h e (mem_cons_of_mem _ he))
    unfold onEvent
    split
    · exact ⟨rfl, rfl⟩
    · exact env.quiets_onType (h event mem_cons_self)

theorem indexed_onEvent (hs : Indexed s) (event : ResponsesEvent) :
    Indexed (env.onEvent s event) := by
  unfold onEvent
  split
  · exact hs
  by_cases hNo : NoCall event
  · exact (env.quiets_onType hNo).indexed hs
  have hItem : ∀ item, Indexed (env.onOutputItem s item) := by
    intro item
    unfold onOutputItem
    split
    · exact hs
    · exact env.indexed_sendToolCallDelta (s := noteItem s item) hs _ _ _
  cases event with
  | outputItemAdded item | outputItemDone item => exact hItem item
  | functionCallArgumentsDelta itemID delta =>
    rw [onType, onArgumentsDelta]
    split
    · exact hs
    · exact env.indexed_sendToolCallDelta (s := noteArguments s _ delta) hs _ _ _
  | _ => exact absurd trivial hNo

/-- **The tool calls of a stream without text before them**: what is sent for the `i`-th call has
the index `i`, and adds up to its name, once, and its final arguments. -/
theorem tool_calls_sent (body rest : List ResponsesEvent) (a : Assembly)
    (hRun : body.foldlM Assembly.step .start = some a) (hText : a.text = "")
    (hIds : Distinct a.ids) (hNamed : Assembly.Named body) (hRest : ∀ event ∈ rest, NoCall event) :
    let sent := ((body ++ rest).foldl env.onEvent env.start).fragments
    sent.foldl addCall [] = a.calls.map Part.call ∧
      ∀ t ∈ sent, ∃ i : Nat, t.index = some (i : Int) ∧ (a.calls.map Part.key)[i]? = some t.id := by
  have hReady : Ready .start a env.start body :=
    ⟨hRun, hNamed, Assembly.sound_start, hIds, rfl, rfl, rfl, rfl, rfl⟩
  have hFollows := env.follows_run hReady env.follows_start hText
  have hIndexed : Indexed (body.foldl env.onEvent env.start) := by
    refine foldlRecOn body env.onEvent (motive := Indexed) nofun fun s hs event _ => ?_
    exact env.indexed_onEvent hs event
  rw [foldl_append, (env.quiets_run hRest).fragments]
  refine ⟨by rw [← ResponsesState.received_toolCalls, hFollows.calls], fun t ht => ?_⟩
  obtain ⟨i, hIndex, hLookup⟩ := hIndexed t ht
  refine ⟨i, hIndex, ?_⟩
  rw [hFollows.index, lookup_zipIdx] at hLookup
  split at hLookup
  · rename_i hMem
    cases hLookup
    rw [Nat.zero_add, getElem?_idxOf hMem]
  · cases hLookup

def otherCall (arguments : String) : ResponsesOutput :=
  ⟨.functionCall, "fc_2", "", [], "call_2", "g", arguments⟩

/-- Two calls whose arguments come in turn. -/
def twoCallEvents : List ResponsesEvent :=
  [.outputItemAdded (demoCall ""), .outputItemAdded (otherCall ""),
    .functionCallArgumentsDelta "fc_2" "2", .functionCallArgumentsDelta "fc_1" "1",
    .functionCallArgumentsDelta "fc_2" "3", .outputItemDone (demoCall "1"),
    .outputItemDone (otherCall "23")]

theorem tool_calls_sent_two :
    ((twoCallEvents ++ [ResponsesEvent.outputTextDelta "hi"]).foldl demoResponses.onEvent
        demoResponses.start).fragments.foldl addCall [] =
      [⟨"call_1", "f", "1"⟩, ⟨"call_2", "g", "23"⟩] :=
  (demoResponses.tool_calls_sent twoCallEvents [.outputTextDelta "hi"]
    ⟨"", [⟨demoCall "1", true⟩, ⟨otherCall "23", true⟩]⟩ (by decide) rfl
    ⟨by decide, by decide, by decide⟩
    (by simp [Assembly.Named, twoCallEvents]; decide) (by simp [NoCall])).1

end ResponsesRelay

end NewApi.Stream
