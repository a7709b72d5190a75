import NewApi.Go.Strings
import NewApi.Stream.Handler

/-!
# Responses as chat completions

In a whole response tool calls count only when there is no text.  `OaiResponsesToChatStreamHandler`
holds them back only after it has sent some text.
-/

namespace NewApi.Stream

open Upstream Go

/-! ## Responses -/

inductive ContentType where
  | outputText
  | other
  deriving DecidableEq, Repr

structure ResponsesOutputContent where
  type : ContentType
  text : String
  deriving DecidableEq, Repr

inductive OutputType where
  | message
  | functionCall
  | other
  deriving DecidableEq, Repr

/-- `ResponsesOutput`, with the arguments as `ArgumentsString` reads them. -/
structure ResponsesOutput where
  type : OutputType
  id : String
  role : String
  content : List ResponsesOutputContent
  callId : String
  name : String
  arguments : String
  deriving DecidableEq, Repr

structure ResponsesUsage where
  inputTokens : Int
  outputTokens : Int
  totalTokens : Int
  inputTokensDetails : Option InputTokenDetails
  deriving DecidableEq, Repr

structure ResponsesResponse where
  model : String
  output : List ResponsesOutput
  usage : Option ResponsesUsage
  deriving DecidableEq, Repr

/-! ## A whole response -/

structure ChatCall where
  id : String
  name : String
  arguments : String
  deriving DecidableEq, Repr

structure Completion where
  content : String
  toolCalls : List ChatCall
  finishReason : String
  deriving DecidableEq, Repr

namespace ResponsesOutput

variable (out : ResponsesOutput)

def isAssistant : Bool := out.type = .message ∧ (out.role = "" ∨ out.role = "assistant")

def outputText : String :=
  "".intercalate ((out.content.filter fun c => c.type = .outputText).map (·.text))

def anyText : String := "".intercalate (out.content.map (·.text))

def callID : String := if trimSpace out.callId = "" then trimSpace out.id else trimSpace out.callId

end ResponsesOutput

namespace ResponsesResponse

variable (resp : ResponsesResponse)

def messageText : String :=
  "".intercalate ((resp.output.filter (·.isAssistant)).map (·.outputText))

def anyText : String := "".intercalate (resp.output.map (·.anyText))

def extractOutputText : String := if resp.messageText ≠ "" then resp.messageText else resp.anyText

def functionCalls : List ResponsesOutput := resp.output.filter fun out => out.type = .functionCall

def toolCalls : List ChatCall :=
  (resp.functionCalls.filter fun out => trimSpace out.name ≠ "").map fun out =>
    ⟨out.callID, trimSpace out.name, out.arguments⟩

def toChatCompletion : Completion :=
  let text := resp.extractOutputText
  let toolCalls := if text = "" then resp.toolCalls else []
  { content := if toolCalls ≠ [] then "" else text
    toolCalls := toolCalls
    finishReason := if toolCalls ≠ [] then "tool_calls" else "stop" }

end ResponsesResponse

/-! ## A stream -/

/-- `ResponsesStreamResponse` by its type.  An item event that has no item is one of the others. -/
inductive ResponsesEvent where
  | created (response : Option ResponsesResponse)
  | reasoningSummaryTextDelta (delta : String)
  | reasoningSummaryTextDone
  | outputTextDelta (delta : String)
  | outputItemAdded (item : ResponsesOutput)
  | outputItemDone (item : ResponsesOutput)
  | functionCallArgumentsDelta (itemID delta : String)
  | completed (response : Option ResponsesResponse)
  /-- `response.error` and `response.failed`. -/
  | failed
  | other
  deriving DecidableEq, Repr

structure Sent where
  usage : Option Usage
  chunk : Chunk

structure ResponsesRelay extends Relay where
  responseId : String
  upstreamModelName : String
  shouldIncludeUsage : Bool
  /-- `ResponseText2Usage` for the model and the estimate of the prompt. -/
  responseText2Usage : String → Usage

/-- The variables of `OaiResponsesToChatStreamHandler`.  A map that is read with a default is a
function. -/
structure ResponsesState where
  model : String
  usage : Usage
  totalTokens : Int
  outputText : String
  usageText : String
  sentStart : Bool
  sentStop : Bool
  sawToolCall : Bool
  streamErr : Bool
  toolCallIndexByID : List (String × Nat)
  toolCallNameByID : String → String
  toolCallArgsByID : String → String
  toolCallNameSent : String → Bool
  toolCallCanonicalIDByItemID : String → String
  hasSentReasoningSummary : Bool
  needsReasoningSummarySeparator : Bool
  sent : List Sent

def noDelta : Delta := ⟨none, none, none, []⟩

def generateStartEmptyResponse (id model : String) : Chunk :=
  ⟨id, model, [⟨{ noDelta with content := some "" }, none⟩], none⟩

def generateStopResponse (id model finishReason : String) : Chunk :=
  ⟨id, model, [⟨noDelta, some finishReason⟩], none⟩

def generateFinalUsageResponse (id model : String) (usage : Usage) : Chunk :=
  ⟨id, model, [], some usage⟩

def ResponsesUsage.into (u : ResponsesUsage) (usage : Usage) : Usage × Int :=
  let promptTokens := if u.inputTokens ≠ 0 then u.inputTokens else usage.promptTokens
  let completionTokens := if u.outputTokens ≠ 0 then u.outputTokens else usage.completionTokens
  let details :=
    match u.inputTokensDetails with
    | some d =>
      { usage.promptTokensDetails with
        cachedTokens := d.cachedTokens, imageTokens := d.imageTokens, audioTokens := d.audioTokens }
    | none => usage.promptTokensDetails
  ({ usage with
      promptTokens := promptTokens
      completionTokens := completionTokens
      promptTokensDetails := details },
    if u.totalTokens ≠ 0 then u.totalTokens else promptTokens + completionTokens)

namespace ResponsesRelay

variable (env : ResponsesRelay)

def start : ResponsesState where
  model := env.upstreamModelName
  usage := .ofTokens 0 0
  totalTokens := 0
  outputText := ""
  usageText := ""
  sentStart := false
  sentStop := false
  sawToolCall := false
  streamErr := false
  toolCallIndexByID := []
  toolCallNameByID := fun _ => ""
  toolCallArgsByID := fun _ => ""
  toolCallNameSent := fun _ => false
  toolCallCanonicalIDByItemID := fun _ => ""
  hasSentReasoningSummary := false
  needsReasoningSummarySeparator := false
  sent := []

def sendChatChunk (s : ResponsesState) (chunk : Chunk) : ResponsesState :=
  { s with sent := s.sent ++ [⟨none, chunk⟩] }

def sendStartIfNeeded (s : ResponsesState) : ResponsesState :=
  if s.sentStart then s
  else
    { sendChatChunk s (generateStartEmptyResponse env.responseId s.model) with sentStart := true }

def sendDelta (s : ResponsesState) (delta : Delta) : ResponsesState :=
  sendChatChunk s ⟨env.responseId, s.model, [⟨delta, none⟩], none⟩

def separated (delta : String) : String :=
  if hasPrefix delta "\n\n" then delta
  else if hasPrefix delta "\n" then "\n" ++ delta
  else "\n\n" ++ delta

def sendReasoningSummaryDelta (s : ResponsesState) (delta : String) : ResponsesState :=
  if delta = "" then s
  else
    let delta := if s.needsReasoningSummarySeparator then separated delta else delta
    let s := env.sendStartIfNeeded { s with needsReasoningSummarySeparator := false }
    let s := env.sendDelta { s with usageText := s.usageText ++ delta }
      { noDelta with reasoningContent := some delta }
    { s with hasSentReasoningSummary := true }

def sendOutputTextDelta (s : ResponsesState) (delta : String) : ResponsesState :=
  let s := env.sendStartIfNeeded s
  if delta ≠ "" then
    env.sendDelta
      { s with outputText := s.outputText ++ delta, usageText := s.usageText ++ delta }
      { noDelta with content := some delta }
  else s

def toolCallIndex (s : ResponsesState) (callID : String) : Nat :=
  (s.toolCallIndexByID.lookup callID).getD s.toolCallIndexByID.length

/-- The state in which the chunk of a tool call is sent: its index and its name are known. -/
def registerToolCall (s : ResponsesState) (callID name : String) : ResponsesState :=
  { s with
    toolCallIndexByID :=
      if (s.toolCallIndexByID.lookup callID).isSome then s.toolCallIndexByID
      else s.toolCallIndexByID ++ [(callID, s.toolCallIndexByID.length)]
    toolCallNameByID :=
      if name ≠ "" then Function.update s.toolCallNameByID callID name else s.toolCallNameByID }

def sendToolCallDelta (s : ResponsesState) (callID name argsDelta : String) : ResponsesState :=
  if callID = "" then s
  -- text that has been sent is preferred, to match the whole response
  else if s.outputText ≠ "" then s
  else
    let s := env.sendStartIfNeeded s
    let index := toolCallIndex s callID
    let s := registerToolCall s callID name
    let name := if s.toolCallNameByID callID ≠ "" then s.toolCallNameByID callID else name
    let sentName := if name ≠ "" ∧ s.toolCallNameSent callID = false then name else ""
    let s := env.sendDelta s
      { noDelta with toolCalls := [⟨some index, callID, sentName, argsDelta⟩] }
    { s with
      toolCallNameSent :=
        if sentName ≠ "" then Function.update s.toolCallNameSent callID true
        else s.toolCallNameSent
      sawToolCall := true
      usageText := s.usageText ++ sentName ++ argsDelta }

def noteItem (s : ResponsesState) (item : ResponsesOutput) : ResponsesState :=
  let itemID := trimSpace item.id
  let callID := item.callID
  let name := trimSpace item.name
  { s with
    toolCallCanonicalIDByItemID :=
      if itemID ≠ "" ∧ callID ≠ "" then
        Function.update s.toolCallCanonicalIDByItemID itemID callID
      else s.toolCallCanonicalIDByItemID
    toolCallNameByID :=
      if name ≠ "" then Function.update s.toolCallNameByID callID name else s.toolCallNameByID
    toolCallArgsByID :=
      if item.arguments ≠ "" then Function.update s.toolCallArgsByID callID item.arguments
      else s.toolCallArgsByID }

def onOutputItem (s : ResponsesState) (item : ResponsesOutput) : ResponsesState :=
  if item.type ≠ .functionCall then s
  else
    -- the arguments that have not been seen, or all of them if they do not continue those
    let delta :=
      if item.arguments ≠ "" then trimPrefix item.arguments (s.toolCallArgsByID item.callID) else ""
    env.sendToolCallDelta (noteItem s item) item.callID (trimSpace item.name) delta

def canonicalID (s : ResponsesState) (itemID : String) : String :=
  if s.toolCallCanonicalIDByItemID (trimSpace itemID) = "" then trimSpace itemID
  else s.toolCallCanonicalIDByItemID (trimSpace itemID)

def noteArguments (s : ResponsesState) (callID delta : String) : ResponsesState :=
  { s with
    toolCallArgsByID :=
      Function.update s.toolCallArgsByID callID (s.toolCallArgsByID callID ++ delta) }

def onArgumentsDelta (s : ResponsesState) (itemID delta : String) : ResponsesState :=
  let callID := canonicalID s itemID
  if callID = "" then s
  else env.sendToolCallDelta (noteArguments s callID delta) callID "" delta

structure SameSent (s s' : ResponsesState) : Prop where
  outputText : s'.outputText = s.outputText
  sent : s'.sent = s.sent
  sentStart : s'.sentStart = s.sentStart
  sentStop : s'.sentStop = s.sentStop
  streamErr : s'.streamErr = s.streamErr
  index : s'.toolCallIndexByID = s.toolCallIndexByID
  nameSent : s'.toolCallNameSent = s.toolCallNameSent

theorem noteItem_sameSent (s : ResponsesState) (item : ResponsesOutput) :
    SameSent s (noteItem s item) := by
  constructor <;> dsimp only [noteItem]

theorem noteArguments_sameSent (s : ResponsesState) (callID delta : String) :
    SameSent s (noteArguments s callID delta) := by
  constructor <;> dsimp only [noteArguments]

section

variable (s : ResponsesState) (item : ResponsesOutput)

theorem noteItem_canonical : (noteItem s item).toolCallCanonicalIDByItemID =
    if trimSpace item.id ≠ "" ∧ item.callID ≠ "" then
      Function.update s.toolCallCanonicalIDByItemID (trimSpace item.id) item.callID
    else s.toolCallCanonicalIDByItemID := by
  dsimp only [noteItem]

end

def finishReason (s : ResponsesState) : String :=
  if s.sawToolCall ∧ s.outputText = "" then "tool_calls" else "stop"

def sendStop (s : ResponsesState) : ResponsesState :=
  if s.sentStop then s
  else
    { s with
      sent := s.sent ++
        [⟨some s.usage, generateStopResponse env.responseId s.model (finishReason s)⟩]
      sentStop := true }

def setModel (s : ResponsesState) (response : Option ResponsesResponse) : ResponsesState :=
  match response with
  | some r => if r.model ≠ "" then { s with model := r.model } else s
  | none => s

def setUsage (s : ResponsesState) (response : Option ResponsesResponse) : ResponsesState :=
  match response.bind (·.usage) with
  | some u =>
    { s with
      usage := (u.into s.usage).1
      totalTokens := (u.into s.usage).2 }
  | none => s

def onType (s : ResponsesState) : ResponsesEvent → ResponsesState
  | .created response => setModel s response
  | .reasoningSummaryTextDelta delta => env.sendReasoningSummaryDelta s delta
  | .reasoningSummaryTextDone =>
    if s.hasSentReasoningSummary then { s with needsReasoningSummarySeparator := true } else s
  | .outputTextDelta delta => env.sendOutputTextDelta s delta
  | .outputItemAdded item => env.onOutputItem s item
  | .outputItemDone item => env.onOutputItem s item
  | .functionCallArgumentsDelta itemID delta => env.onArgumentsDelta s itemID delta
  | .completed response =>
    env.sendStop (env.sendStartIfNeeded (setUsage (setModel s response) response))
  | .failed => { s with streamErr := true }
  | .other => s

def onEvent (s : ResponsesState) (event : ResponsesEvent) : ResponsesState :=
  if s.streamErr then s else env.onType s event

def afterStream (s : ResponsesState) : ResponsesState :=
  if s.streamErr then s
  else
    let usage := if s.totalTokens = 0 then env.responseText2Usage s.usageText else s.usage
    env.sendStop (env.sendStartIfNeeded { s with usage := usage })

def oaiResponsesToChatStreamHandler (events : List ResponsesEvent) : ResponsesState :=
  env.afterStream (events.foldl env.onEvent env.start)

def openAIStream (events : List ResponsesEvent) : List Chunk :=
  let s := env.oaiResponsesToChatStreamHandler events
  s.sent.map (·.chunk) ++
    if env.shouldIncludeUsage ∧ s.streamErr = false then
      [generateFinalUsageResponse env.responseId s.model s.usage]
    else []

def give (info : ConvertInfo) (usage : Option Usage) : ConvertInfo :=
  { info with usage := usage.or info.usage }

def sendToClaude (info : ConvertInfo) (x : Sent) : ConvertInfo × List Event :=
  (give info x.usage).handleStreamFormat env.toRelay x.chunk

def toClaude (info : ConvertInfo) : List Sent → List Event
  | [] => []
  | x :: xs => (env.sendToClaude info x).2 ++ toClaude (env.sendToClaude info x).1 xs

def claudeStream (events : List ResponsesEvent) : List Event :=
  env.toClaude .start (env.oaiResponsesToChatStreamHandler events).sent

/-! ## What the handlers keep -/

/-- The model and the usage, the start chunk and a summary do not touch the property. -/
structure Keeps (P : ResponsesState → Prop) : Prop where
  note : ∀ {s}, P s → ∀ model usage totalTokens usageText summary separator,
    P { s with
      model, usage, totalTokens, usageText
      hasSentReasoningSummary := summary, needsReasoningSummarySeparator := separator }
  start : ∀ {s}, P s → P (env.sendStartIfNeeded s)
  summary : ∀ {s}, P s → ∀ text, P (env.sendDelta s { noDelta with reasoningContent := text })

structure KeepsCalls (P : ResponsesState → Prop) : Prop extends env.Keeps P where
  register : ∀ {s}, P s → ∀ usageText saw index names args sentNames canonical,
    P { s with
      usageText, sawToolCall := saw, toolCallIndexByID := index, toolCallNameByID := names
      toolCallArgsByID := args, toolCallNameSent := sentNames
      toolCallCanonicalIDByItemID := canonical }
  call : ∀ {s}, P s → ∀ toolCalls, P (env.sendDelta s { noDelta with toolCalls })

variable {env} {P : ResponsesState → Prop} {s : ResponsesState}

section

variable (h : env.Keeps P) (hs : P s)
include h hs

theorem Keeps.setModel (response : Option ResponsesResponse) : P (setModel s response) := by
  unfold ResponsesRelay.setModel
  split
  · split
    · exact h.note hs ..
    · exact hs
  · exact hs

theorem Keeps.setUsage (response : Option ResponsesResponse) : P (setUsage s response) := by
  unfold ResponsesRelay.setUsage
  split
  · exact h.note hs ..
  · exact hs

theorem Keeps.sendReasoningSummaryDelta (delta : String) :
    P (env.sendReasoningSummaryDelta s delta) := by
  unfold ResponsesRelay.sendReasoningSummaryDelta
  split
  · exact hs
  · refine h.note (h.summary (h.note ?_ ..) _) ..
    exact h.start (h.note hs ..)

theorem Keeps.summaryDone : P (env.onType s .reasoningSummaryTextDone) := by
  rw [onType]
  split
  · exact h.note hs ..
  · exact hs

end

section

variable (h : env.KeepsCalls P) (hs : P s)
include h hs

theorem KeepsCalls.sendToolCallDelta (callID name argsDelta : String) :
    P (env.sendToolCallDelta s callID name argsDelta) := by
  unfold ResponsesRelay.sendToolCallDelta
  split
  · exact hs
  split
  · exact hs
  · refine h.register (h.call ?_ _) ..
    exact h.register (h.start hs) ..

theorem KeepsCalls.onOutputItem (item : ResponsesOutput) : P (env.onOutputItem s item) := by
  unfold ResponsesRelay.onOutputItem
  split
  · exact hs
  · exact h.sendToolCallDelta (h.register hs ..) ..

theorem KeepsCalls.onArgumentsDelta (itemID delta : String) :
    P (env.onArgumentsDelta s itemID delta) := by
  unfold ResponsesRelay.onArgumentsDelta
  dsimp only
  split
  · exact hs
  · exact h.sendToolCallDelta (h.register hs ..) ..

theorem KeepsCalls.onType {event : ResponsesEvent}
    (hText : ∀ delta, P (env.sendOutputTextDelta s delta))
    (hStop : ∀ {t}, P t → P (env.sendStop (env.sendStartIfNeeded t)))
    (hFail : event = .failed → P { s with streamErr := true }) : P (env.onType s event) := by
  cases event with
  | created response => exact h.setModel hs response
  | reasoningSummaryTextDelta delta => exact h.sendReasoningSummaryDelta hs delta
  | reasoningSummaryTextDone => exact h.summaryDone hs
  | outputTextDelta delta => exact hText delta
  | outputItemAdded item | outputItemDone item => exact h.onOutputItem hs item
  | functionCallArgumentsDelta itemID delta => exact h.onArgumentsDelta hs itemID delta
  | completed response => exact hStop (h.setUsage (h.setModel hs response) response)
  | failed => exact hFail rfl
  | other => exact hs

end

/-! ## The stop chunk -/

def StopsOnce (s : ResponsesState) : Prop :=
  (s.sent.countP fun x => x.chunk.finish.isSome) = if s.sentStop then 1 else 0

theorem StopsOnce.append {s' : ResponsesState} {x : Sent} (h : StopsOnce s)
    (hSent : s'.sent = s.sent ++ [x]) (hStop : s'.sentStop = s.sentStop)
    (hChunk : x.chunk.finish = none) : StopsOnce s' := by
  rw [StopsOnce, hSent, hStop, List.countP_append, h, List.countP_singleton, hChunk]
  rfl

theorem StopsOnce.sendStartIfNeeded (h : StopsOnce s) : StopsOnce (env.sendStartIfNeeded s) := by
  unfold ResponsesRelay.sendStartIfNeeded
  split
  · exact h
  · exact h.append rfl rfl rfl

theorem stopsOnce_keeps : env.KeepsCalls StopsOnce where
  note h _ _ _ _ _ _ := h
  start h := h.sendStartIfNeeded
  summary h _ := h.append rfl rfl rfl
  register h _ _ _ _ _ _ _ := h
  call h _ := h.append rfl rfl rfl

theorem StopsOnce.sendStop (h : StopsOnce s) :
    StopsOnce (env.sendStop s) ∧ (env.sendStop s).sentStop = true := by
  unfold ResponsesRelay.sendStop
  split
  · exact ⟨h, ‹_›⟩
  · refine ⟨?_, rfl⟩
    rw [StopsOnce, if_neg ‹_›] at h
    have hReason : finishReason s ≠ "" := by
      unfold finishReason
      split <;> decide
    rw [StopsOnce, List.countP_append, h]
    simp [generateStopResponse, Chunk.finish, Choice.finish, hReason]

theorem StopsOnce.onEvent (h : StopsOnce s) (event : ResponsesEvent) :
    StopsOnce (env.onEvent s event) := by
  unfold ResponsesRelay.onEvent
  split
  · exact h
  refine stopsOnce_keeps.onType h (fun delta => ?_) (fun ht => ht.sendStartIfNeeded.sendStop.1)
    fun _ => h
  unfold sendOutputTextDelta
  split
  · exact h.sendStartIfNeeded.append rfl rfl rfl
  · exact h.sendStartIfNeeded

@[simp] theorem streamErr_sendStartIfNeeded (env : ResponsesRelay) (s : ResponsesState) :
    (env.sendStartIfNeeded s).streamErr = s.streamErr := by
  unfold sendStartIfNeeded
  split <;> rfl

@[simp] theorem streamErr_sendStop (env : ResponsesRelay) (s : ResponsesState) :
    (env.sendStop s).streamErr = s.streamErr := by
  unfold sendStop
  split <;> rfl

theorem streamErr_keeps (env : ResponsesRelay) (s : ResponsesState) :
    env.KeepsCalls fun t => t.streamErr = s.streamErr where
  note h _ _ _ _ _ _ := h
  start h := (streamErr_sendStartIfNeeded env _).trans h
  summary h _ := h
  register h _ _ _ _ _ _ _ := h
  call h _ := h

theorem streamErr_onType (env : ResponsesRelay) (s : ResponsesState) {event : ResponsesEvent}
    (h : event ≠ .failed) : (env.onType s event).streamErr = s.streamErr := by
  refine (streamErr_keeps env s).onType rfl (fun delta => ?_) (fun ht => by simpa using ht)
    fun hEq => absurd hEq h
  unfold sendOutputTextDelta
  split <;> exact streamErr_sendStartIfNeeded ..

theorem streamErr_handler (env : ResponsesRelay) {events : List ResponsesEvent}
    (h : .failed ∉ events) : (env.oaiResponsesToChatStreamHandler events).streamErr = false := by
  have hRun : (events.foldl env.onEvent env.start).streamErr = false :=
    List.foldlRecOn events env.onEvent (motive := fun s => s.streamErr = false) rfl
      fun s hs event hEvent => by
        rw [onEvent, if_neg (by simp [hs]), streamErr_onType env s fun hEq => h (hEq ▸ hEvent), hs]
  rw [oaiResponsesToChatStreamHandler, afterStream, if_neg (by simp [hRun])]
  simpa using hRun

/-- **One chunk has a finish reason**, whatever the upstream sends and in whatever order; after an
error there may be none. -/
theorem stops_once (env : ResponsesRelay) (events : List ResponsesEvent) :
    ((env.openAIStream events).countP fun c => c.finish.isSome) ≤ 1 ∧
      (.failed ∉ events → ((env.openAIStream events).countP fun c => c.finish.isSome) = 1) := by
  have hRun : StopsOnce (events.foldl env.onEvent env.start) :=
    List.foldlRecOn events env.onEvent (motive := StopsOnce) rfl fun s h event _ => h.onEvent event
  have hEnd : StopsOnce (env.oaiResponsesToChatStreamHandler events) ∧
      ((env.oaiResponsesToChatStreamHandler events).streamErr = false →
        (env.oaiResponsesToChatStreamHandler events).sentStop = true) := by
    unfold oaiResponsesToChatStreamHandler
    generalize events.foldl env.onEvent env.start = s at hRun ⊢
    unfold afterStream
    split
    · next hErr => exact ⟨hRun, fun h => absurd (hErr.symm.trans h) nofun⟩
    · have hStart : StopsOnce (env.sendStartIfNeeded { s with
          usage := if s.totalTokens = 0 then env.responseText2Usage s.usageText else s.usage }) :=
        StopsOnce.sendStartIfNeeded hRun
      exact ⟨hStart.sendStop.1, fun _ => hStart.sendStop.2⟩
  have hCount : ((env.openAIStream events).countP fun c => c.finish.isSome) =
      if (env.oaiResponsesToChatStreamHandler events).sentStop then 1 else 0 := by
    rw [← hEnd.1, openAIStream, List.countP_append, List.countP_map]
    split <;> rfl
  rw [hCount]
  exact ⟨by split <;> simp, fun h => if_pos (hEnd.2 (streamErr_handler env h))⟩

end ResponsesRelay

/-! ## A sample -/

def demoResponses : ResponsesRelay where
  toLower := id
  estimatePromptTokens := 5
  responseId := "chatcmpl-1"
  upstreamModelName := "gpt"
  shouldIncludeUsage := false
  responseText2Usage := fun _ => .ofTokens 5 1

end NewApi.Stream
