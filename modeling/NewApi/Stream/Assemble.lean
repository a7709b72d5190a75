import NewApi.Stream.Follows

/-!
# A streamed response and the whole one

Whether the chunks of a stream add up to the completion of the response that the stream describes.
`follows_run` and `calls_run_iff` say what has been sent at the end of a stream without text and of
one with text.
-/

namespace NewApi.Stream

open Go List

namespace ResponsesRelay

variable (env : ResponsesRelay) {s s' : ResponsesState} {text : String} {a : Assembly}

/-! ## The end of a stream -/

theorem received_sendStop (hs : Tracks text s) :
    (env.sendStop s).received = ⟨text, s.received.toolCalls, finishReason s⟩ := by
  rw [sendStop, if_neg (by simp [hs.unstopped])]
  refine (received_of_sent rfl).trans ?_
  rw [Completion.add, hs.content]
  have hReason : finishReason s ≠ "" := by
    unfold finishReason
    split <;> decide
  simp [generateStopResponse, Chunk.delta, Chunk.finish, Choice.finish, noDelta,
    Delta.getContentString, Option.filter, hReason]

theorem afterStream_of_stopped (hStart : s.sentStart = true) (hStop : s.sentStop = true) :
    (env.afterStream s).sent = s.sent := by
  unfold afterStream
  split
  · rfl
  · simp [sendStartIfNeeded, sendStop, hStart, hStop]

theorem accumulate_openAIStream {body : List ResponsesEvent} (last : Option ResponsesResponse)
    (hs : Tracks text (body.foldl env.onEvent env.start)) :
    accumulate (env.openAIStream (body ++ [.completed last])) =
      ⟨text, (body.foldl env.onEvent env.start).received.toolCalls,
        finishReason (body.foldl env.onEvent env.start)⟩ := by
  generalize hEnd : body.foldl env.onEvent env.start = s at hs
  have hKeeps : env.KeepsCalls (Tracks text) := env.tracks_keeps
  have hTracks := hKeeps.start (hKeeps.setUsage (hKeeps.setModel hs last) last)
  have hCalls := env.sameCalls_keeps (s := s)
  have hSame := hCalls.start (hCalls.setUsage (hCalls.setModel .rfl last) last)
  generalize hStarted : env.sendStartIfNeeded (setUsage (setModel s last) last) = t at hTracks hSame
  have hReason : finishReason t = finishReason s := by
    rw [finishReason, finishReason, hSame.saw, hTracks.outputText, hs.outputText]
  have hSent : (env.oaiResponsesToChatStreamHandler (body ++ [.completed last])).sent =
      (env.sendStop t).sent := by
    rw [oaiResponsesToChatStreamHandler, foldl_append, hEnd, foldl_cons, foldl_nil,
      env.onEvent_running hs.running, onType, hStarted]
    have hStart : t.sentStart = true := by
      obtain ⟨sent, hStart, -⟩ := env.sendStartIfNeeded_eq (s := setUsage (setModel s last) last)
      rw [← hStarted, hStart]
    refine env.afterStream_of_stopped ?_ ?_ <;> rw [sendStop, if_neg (by simp [hTracks.unstopped])]
    · exact hStart
  have hReceived : accumulate ((env.sendStop t).sent.map (·.chunk)) =
      ⟨text, s.received.toolCalls, finishReason s⟩ := by
    rw [← hSame.calls, ← hReason]
    exact env.received_sendStop hTracks
  rw [openAIStream, hSent]
  split
  · rw [accumulate_concat, hReceived]
    simp [Completion.add, generateFinalUsageResponse, Chunk.delta, Chunk.finish,
      Delta.getContentString]
  · rw [append_nil, hReceived]

/-! ## Whole streams -/

def textFirst : List ResponsesEvent → Bool
  | [] => false
  | .outputTextDelta delta :: events => delta ≠ "" || textFirst events
  | .outputItemAdded item :: events => item.type ≠ .functionCall && textFirst events
  | _ :: events => textFirst events

theorem textFirst_concat (body : List ResponsesEvent) (last : Option ResponsesResponse) :
    textFirst (body ++ [.completed last]) = textFirst body := by
  induction body with
  | nil => rfl
  | cons event body ih => cases event <;> simp [textFirst, ih]

theorem tracks_run {a a' : Assembly} {events : List ResponsesEvent} (hs : Tracks a.text s)
    (h : events.foldlM Assembly.step a = some a') :
    Tracks a'.text (events.foldl env.onEvent s) := by
  induction events generalizing a s with
  | nil =>
    cases h
    exact hs
  | cons event events ih =>
    obtain ⟨a₁, hMoves, hRest⟩ := Assembly.run_cons h
    exact ih (env.tracks_step hMoves hs) hRest

theorem frozen_run {a a' : Assembly} {events : List ResponsesEvent} (hs : Tracks a.text s)
    (hText : a.text ≠ "") (h : events.foldlM Assembly.step a = some a') :
    (events.foldl env.onEvent s).received.toolCalls = s.received.toolCalls := by
  induction events generalizing a s with
  | nil => rfl
  | cons event events ih =>
    obtain ⟨a₁, hMoves, hRest⟩ := Assembly.run_cons h
    have hText₁ : a₁.text ≠ "" := by
      cases hMoves with
      | text delta => simp [hText]
      | _ => exact hText
    exact (ih (env.tracks_step hMoves hs) hText₁ hRest).trans (env.frozen_step hMoves hs hText)

structure Ready (a a' : Assembly) (s : ResponsesState) (events : List ResponsesEvent) : Prop where
  run : events.foldlM Assembly.step a = some a'
  named : Assembly.Named events
  sound : a.Sound
  distinct : Distinct a'.ids
  tracks : Tracks a.text s

variable {a₁ a' : Assembly} {event : ResponsesEvent} {events : List ResponsesEvent}

theorem Ready.step (h : Ready a a' s (event :: events)) :
    ∃ a₁, a.Moves event a₁ ∧ Distinct a.ids ∧ Distinct a₁.ids ∧
      Ready a₁ a' (env.onEvent s event) events := by
  obtain ⟨a₁, hMoves, hRest⟩ := Assembly.run_cons h.run
  have hNamed : Assembly.Named events := fun item hItem =>
    h.named item (mem_cons_of_mem _ hItem)
  obtain ⟨hSound, hPre⟩ := hMoves.sound h.sound fun item hItem =>
    h.named item (mem_singleton.mp hItem ▸ mem_cons_self)
  have hIds : Distinct a₁.ids := h.distinct.of_prefix (Assembly.run_sound hNamed hSound hRest)
  exact ⟨a₁, hMoves, hIds.of_prefix hPre, hIds,
    hRest, hNamed, hSound, h.distinct, env.tracks_step hMoves h.tracks⟩

theorem text_of_moves (h : a.Moves event a₁) (hText : a₁.text = "") : a.text = "" := by
  cases h with
  | text delta =>
    rw [String.append_eq_empty_iff] at hText
    exact hText.1
  | _ => exact hText

theorem text_of_run (h : events.foldlM Assembly.step a = some a') (hText : a'.text = "") :
    a.text = "" := by
  induction events generalizing a with
  | nil =>
    cases h
    exact hText
  | cons event events ih =>
    obtain ⟨a₁, hMoves, hRest⟩ := Assembly.run_cons h
    exact text_of_moves hMoves (ih hRest)

theorem follows_run (h : Ready a a' s events) (hFollows : Follows a s) (hText : a'.text = "") :
    Follows a' (events.foldl env.onEvent s) := by
  induction events generalizing a s with
  | nil =>
    cases h.run
    exact hFollows
  | cons event events ih =>
    obtain ⟨a₁, hMoves, hIds, hIds₁, hReady⟩ := h.step env
    exact ih hReady (env.follows_step hMoves hFollows h.tracks (text_of_run h.run hText) hIds hIds₁)

theorem update_ne_nil {p : Part} (hp : p ∈ a.calls) (id : String) (f : Part → Part) :
    (a.update id f).calls ≠ [] := by
  exact fun hNil => ne_nil_of_mem hp (map_eq_nil_iff.mp hNil)

theorem textFirst_step (h : a.Moves event a₁) (hText : a₁.text = "") :
    (a₁.calls = [] ∧ textFirst events = true) ↔
      (a.calls = [] ∧ textFirst (event :: events) = true) := by
  cases h with
  | text delta =>
    rw [String.append_eq_empty_iff] at hText
    simp [textFirst, hText.2]
  | added hType hNew => simp [textFirst, hType]
  | more hp delta | done hp hType hBegins =>
    exact iff_of_false (fun h => update_ne_nil hp _ _ h.1) fun h => ne_nil_of_mem hp h.1
  | itemAdded hType => simp [textFirst, hType]
  | _ => rfl

theorem textFirst_begin (events : List ResponsesEvent) (h : a.Moves event a₁) (hStart : a.text = "")
    (hText : a₁.text ≠ "") : a₁.calls = a.calls ∧ textFirst (event :: events) = true := by
  cases h with
  | text delta =>
    have hDelta : delta ≠ "" := by
      intro hEmpty
      exact hText (by rw [hStart, hEmpty]; rfl)
    exact ⟨rfl, by simp [textFirst, hDelta]⟩
  | _ => exact absurd hStart hText

theorem calls_run_iff (h : Ready a a' s events) (hFollows : Follows a s) (hStart : a.text = "")
    (hText : a'.text ≠ "") :
    (events.foldl env.onEvent s).received.toolCalls = [] ↔
      a.calls = [] ∧ textFirst events = true := by
  induction events generalizing a s with
  | nil =>
    cases h.run
    exact absurd hStart hText
  | cons event events ih =>
    obtain ⟨a₁, hMoves, hIds, hIds₁, hReady⟩ := h.step env
    have hFollows₁ := env.follows_step hMoves hFollows h.tracks hStart hIds hIds₁
    rw [foldl_cons]
    by_cases hStart₁ : a₁.text = ""
    · rw [ih hReady hFollows₁ hStart₁]
      exact textFirst_step hMoves hStart₁
    -- the text has just begun, so nothing changes any more
    obtain ⟨hCalls, hFirst⟩ := textFirst_begin events hMoves hStart hStart₁
    rw [env.frozen_run hReady.tracks hStart₁ hReady.run, hFollows₁.calls, hCalls, hFirst]
    simp

end ResponsesRelay

/-! ## The stream and the response -/

namespace ResponsesResponse

variable {resp : ResponsesResponse}

theorem toolCalls_eq (hIds : Distinct (resp.functionCalls.map (·.ids)))
    (hNames : ∀ x ∈ resp.functionCalls, trimSpace x.name ≠ "") :
    resp.toolCalls =
      resp.functionCalls.map fun x => ⟨trimSpace x.callId, trimSpace x.name, x.arguments⟩ := by
  rw [toolCalls, filter_eq_self.mpr fun x hx => decide_eq_true (hNames x hx)]
  refine map_congr_left fun x hx => ?_
  rw [ResponsesRelay.callID_eq (hIds.ne x.ids (mem_map_of_mem hx)).2]

theorem toChatCompletion_of_text (h : resp.messageText ≠ "") :
    resp.toChatCompletion = ⟨resp.messageText, [], "stop"⟩ := by
  simp [toChatCompletion, extractOutputText, h]

theorem toChatCompletion_of_other (h : resp.messageText = "") (hAny : resp.anyText ≠ "") :
    resp.toChatCompletion = ⟨resp.anyText, [], "stop"⟩ := by
  simp [toChatCompletion, extractOutputText, h, hAny]

theorem toChatCompletion_of_calls (h : resp.messageText = "") (hAny : resp.anyText = "") :
    resp.toChatCompletion =
      ⟨"", resp.toolCalls, if resp.toolCalls ≠ [] then "tool_calls" else "stop"⟩ := by
  simp [toChatCompletion, extractOutputText, h, hAny]

end ResponsesResponse

/-- **The completion of a stream is that of the response** when there is no text, or some comes
before the first function call. -/
theorem stream_completion_iff (env : ResponsesRelay) {events : List ResponsesEvent}
    {resp : ResponsesResponse} (h : Describes events resp)
    (hIds : Distinct (resp.functionCalls.map (·.ids)))
    (hNames : ∀ x ∈ resp.functionCalls, trimSpace x.name ≠ "") (hNamed : Assembly.Named events) :
    accumulate (env.openAIStream events) = resp.toChatCompletion ↔
      if resp.messageText = "" then resp.anyText = ""
      else ResponsesRelay.textFirst events = true := by
  obtain ⟨body, last, a, rfl, hRun, -, hCalls, hText⟩ := h
  have hReady : ResponsesRelay.Ready .start a env.start body :=
    { run := hRun
      named := fun item hItem => hNamed item (mem_append_left _ hItem)
      sound := Assembly.sound_start
      distinct := by
        rw [← hCalls, map_map] at hIds
        exact hIds
      tracks := ⟨rfl, rfl, rfl, rfl, rfl⟩ }
  have hTracks := env.tracks_run hReady.tracks hRun
  rw [env.accumulate_openAIStream last hTracks, ResponsesRelay.textFirst_concat, ← hText]
  generalize hEnd : body.foldl env.onEvent env.start = s at hTracks ⊢
  split
  · rename_i hEmpty
    have hFollows := env.follows_run hReady env.follows_start hEmpty
    rw [hEnd] at hFollows
    by_cases hAny : resp.anyText = ""
    · refine iff_of_true ?_ hAny
      have hSame : a.calls.map Part.call = resp.toolCalls := by
        rw [ResponsesResponse.toolCalls_eq hIds hNames, ← hCalls, map_map]
        rfl
      have hNil : a.calls ≠ [] ↔ resp.toolCalls ≠ [] := by
        rw [← hSame, Ne, Ne, map_eq_nil_iff]
      rw [ResponsesResponse.toChatCompletion_of_calls (hText.symm.trans hEmpty) hAny,
        ResponsesRelay.finishReason, hFollows.calls, hSame, hFollows.saw, hTracks.outputText,
        hEmpty]
      simp [hNil]
    · refine iff_of_false ?_ hAny
      rw [ResponsesResponse.toChatCompletion_of_other (hText.symm.trans hEmpty) hAny, hEmpty]
      intro hEq
      exact hAny (congrArg Completion.content hEq).symm
  · rename_i hSome
    have hIff := env.calls_run_iff hReady env.follows_start rfl hSome
    rw [hEnd] at hIff
    have hReason : ResponsesRelay.finishReason s = "stop" := by
      rw [ResponsesRelay.finishReason, hTracks.outputText, if_neg fun h => hSome h.2]
    rw [ResponsesResponse.toChatCompletion_of_text (hText ▸ hSome), hReason, ← hText]
    constructor
    · intro hEq
      exact (hIff.mp (congrArg Completion.toolCalls hEq)).2
    · intro hFirst
      rw [hIff.mpr ⟨rfl, hFirst⟩]

/-! ### A sample -/

def demoCall (arguments : String) : ResponsesOutput :=
  ⟨.functionCall, "fc_1", "", [], "call_1", "f", arguments⟩

def demoCallEvents : List ResponsesEvent :=
  [.outputItemAdded (demoCall ""), .functionCallArgumentsDelta "fc_1" "1",
    .outputItemDone (demoCall "1")]

def demoResponse : ResponsesResponse :=
  ⟨"gpt", [demoCall "1", ⟨.message, "msg_1", "assistant", [⟨.outputText, "hi"⟩], "", "", ""⟩], none⟩

/-- The text comes first, and the tool call is held back. -/
theorem stream_completion_of_text :
    accumulate (demoResponses.openAIStream
        (.outputTextDelta "hi" :: demoCallEvents ++ [.completed none])) =
      demoResponse.toChatCompletion := by
  have hDescribes : Describes (.outputTextDelta "hi" :: demoCallEvents ++ [.completed none])
      demoResponse :=
    ⟨.outputTextDelta "hi" :: demoCallEvents, none, ⟨"hi", [⟨demoCall "1", true⟩]⟩, rfl, by decide,
      by decide, by decide, by decide⟩
  have hIds : Distinct (demoResponse.functionCalls.map (·.ids)) := ⟨by decide, by decide, by decide⟩
  refine (stream_completion_iff demoResponses hDescribes hIds (by decide) ?_).mpr (by decide)
  intro item hItem _
  simp [demoCallEvents] at hItem
  rw [hItem]
  decide

/-- The tool call comes first: the client receives both, and the whole response has the text. -/
theorem stream_completion_of_call :
    Describes (demoCallEvents ++ [.outputTextDelta "hi"] ++ [.completed none]) demoResponse ∧
    accumulate (demoResponses.openAIStream
        (demoCallEvents ++ [.outputTextDelta "hi"] ++ [.completed none])) =
      ⟨"hi", [⟨"call_1", "f", "1"⟩], "stop"⟩ ∧
    demoResponse.toChatCompletion = ⟨"hi", [], "stop"⟩ :=
  ⟨⟨demoCallEvents ++ [.outputTextDelta "hi"], none, ⟨"hi", [⟨demoCall "1", true⟩]⟩, rfl, by decide,
      by decide, by decide, by decide⟩, by decide, by decide⟩

end NewApi.Stream
