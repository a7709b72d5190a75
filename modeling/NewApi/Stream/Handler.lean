import Mathlib.Data.List.Induction
import NewApi.Stream.Claude

/-!
# The stream handler

`OaiStreamHandler` sends a chunk when the next one arrives, and the last one by
`HandleFinalResponse`, which does not count it.  `relayed` is what the chunks before the last one
give.
-/

namespace NewApi.Stream

open Upstream

/-! ## Sending a chunk -/

namespace ConvertInfo

def counted (info : ConvertInfo) (c : Chunk) : ConvertInfo :=
  { info with
    sendResponseCount := info.sendResponseCount + 1
    usage := c.usage.or info.usage }

def handleStreamFormat (r : Relay) (info : ConvertInfo) (c : Chunk) : ConvertInfo × List Event :=
  (info.counted c).streamResponseOpenAI2Claude r c

def relayed (r : Relay) (info : ConvertInfo) : List Chunk → ConvertInfo × List Event
  | [] => (info, [])
  | c :: cs =>
    let sent := info.handleStreamFormat r c
    let rest := sent.1.relayed r cs
    (rest.1, sent.2 ++ rest.2)

theorem relayed_append (r : Relay) (info : ConvertInfo) (cs ds : List Chunk) :
    info.relayed r (cs ++ ds) =
      (((info.relayed r cs).1.relayed r ds).1,
        (info.relayed r cs).2 ++ ((info.relayed r cs).1.relayed r ds).2) := by
  induction cs generalizing info with
  | nil => rfl
  | cons c cs ih =>
    simp only [List.cons_append, relayed, ih, List.append_assoc]

section

variable (r : Relay) {info : ConvertInfo} (c : Chunk)

theorem relayed_first : start.relayed r [c] = (start.counted c).firstChunk r c := by
  simp only [relayed, List.append_nil]
  rfl

theorem relayed_done (h : info.done = true) (cs : List Chunk) :
    (info.relayed r cs).2 = [] ∧ (info.relayed r cs).1.done = true := by
  induction cs generalizing info with
  | nil => exact ⟨rfl, h⟩
  | cons c cs ih =>
    have hNone : info.handleStreamFormat r c = (info.counted c, []) := by
      exact if_pos h
    rw [relayed, hNone]
    exact ih h

theorem handleStreamFormat_later (hOpen : info.done = false) (hCount : 1 ≤ info.sendResponseCount) :
    info.handleStreamFormat r c = (info.counted c).laterChunk r c := by
  have hLater : (info.counted c).sendResponseCount ≠ 1 := by
    show info.sendResponseCount + 1 ≠ 1
    omega
  rw [handleStreamFormat, streamResponseOpenAI2Claude, if_neg (by simp [counted, hOpen]),
    if_neg hLater]

end

end ConvertInfo

/-! ## The handler -/

structure StreamRelay extends Relay where
  isAudioModel : Bool
  /-- The relay mode is that of chat completions. -/
  chatCompletions : Bool
  /-- `ResponseText2Usage` for the model and the estimate of the prompt. -/
  responseText2Usage : String → Usage
  /-- `applyUsagePostProcessing`, which may read cached tokens from the last chunk. -/
  applyUsagePostProcessing : Usage → Chunk → Usage

structure StreamState where
  info : ConvertInfo
  lastStreamData : Option Chunk
  secondLastStreamData : Option Chunk
  streamItems : List Chunk
  sent : List Event

def StreamState.start : StreamState := ⟨.start, none, none, [], []⟩

def validUsage (usage : Usage) : Bool := usage.promptTokens ≠ 0 || usage.completionTokens ≠ 0

/-- The text of a chunk that tokens are counted of, in the order of `ProcessStreamResponse`. -/
def Choice.texts (c : Choice) : List String :=
  c.delta.getContentString :: c.delta.getReasoningContent ::
    c.delta.toolCalls.flatMap fun call => [call.name, call.arguments]

namespace StreamRelay

variable (env : StreamRelay)

def onData (s : StreamState) (data : Chunk) : StreamState :=
  let handled :=
    match s.lastStreamData with
    | some last => s.info.handleStreamFormat env.toRelay last
    | none => (s.info, [])
  { info := handled.1
    lastStreamData := some data
    secondLastStreamData :=
      if env.isAudioModel ∧ s.lastStreamData ≠ none then s.lastStreamData
      else s.secondLastStreamData
    streamItems := s.streamItems ++ [data]
    sent := s.sent ++ handled.2 }

def processTokens (items : List Chunk) : String × Nat :=
  if env.chatCompletions then
    let choices := items.flatMap Chunk.choices
    ("".intercalate (choices.flatMap Choice.texts),
      choices.foldl (fun n c => max n c.delta.toolCalls.length) 0)
  else ("", 0)

def finalUsage (s : StreamState) (last : Chunk) : Usage :=
  let second := s.secondLastStreamData.bind fun c => c.usage.filter validUsage
  let found := (last.usage.filter validUsage).or (if env.isAudioModel then second else none)
  let usage := found.getD <|
    let (text, toolCount) := env.processTokens s.streamItems
    let usage := env.responseText2Usage text
    { usage with completionTokens := usage.completionTokens + toolCount * 7 }
  env.applyUsagePostProcessing usage last

def handleFinalResponse (info : ConvertInfo) (last : Chunk) (usage : Usage) : List Event :=
  ({ info with usage := some usage }.streamResponseOpenAI2Claude env.toRelay last).2

/-- `OaiStreamHandler` for a Claude client, without a response override. -/
def oaiStreamHandler (chunks : List Chunk) : List Event :=
  let s := chunks.foldl env.onData .start
  match s.lastStreamData with
  | some last => s.sent ++ env.handleFinalResponse s.info last (env.finalUsage s last)
  | none => s.sent

theorem foldl_onData (cs : List Chunk) (c : Chunk) :
    ((cs ++ [c]).foldl env.onData .start).lastStreamData = some c ∧
      ((cs ++ [c]).foldl env.onData .start).info = (ConvertInfo.start.relayed env.toRelay cs).1 ∧
      ((cs ++ [c]).foldl env.onData .start).sent =
        (ConvertInfo.start.relayed env.toRelay cs).2 := by
  induction cs using List.reverseRecOn generalizing c with
  | nil => exact ⟨rfl, rfl, rfl⟩
  | append_singleton cs d ih =>
    obtain ⟨hLast, hInfo, hSent⟩ := ih d
    rw [List.foldl_append, List.foldl_cons, List.foldl_nil]
    refine ⟨rfl, ?_, ?_⟩
    · simp only [onData, hLast, hInfo, ConvertInfo.relayed_append, ConvertInfo.relayed]
    · simp only [onData, hLast, hInfo, hSent, ConvertInfo.relayed_append, ConvertInfo.relayed,
        List.append_nil]

theorem oaiStreamHandler_concat (cs : List Chunk) (c : Chunk) :
    ∃ usage, env.oaiStreamHandler (cs ++ [c]) =
      (ConvertInfo.start.relayed env.toRelay cs).2 ++
        env.handleFinalResponse (ConvertInfo.start.relayed env.toRelay cs).1 c usage := by
  obtain ⟨hLast, hInfo, hSent⟩ := env.foldl_onData cs c
  refine ⟨env.finalUsage ((cs ++ [c]).foldl env.onData .start) c, ?_⟩
  simp only [oaiStreamHandler, hLast, hInfo, hSent]

end StreamRelay

/-! ## A sample -/

def demoRelay : StreamRelay where
  toLower := id
  estimatePromptTokens := 5
  isAudioModel := false
  chatCompletions := true
  responseText2Usage := fun _ => .ofTokens 5 1
  applyUsagePostProcessing := fun usage _ => usage

def demoChunk (delta : Delta) (finishReason : Option String) (usage : Option Usage) : Chunk :=
  ⟨"chatcmpl-1", "gpt", [⟨delta, finishReason⟩], usage⟩

def demoText (text : String) : Delta := ⟨some text, none, none, []⟩

def demoTool (name arguments : String) : Delta :=
  ⟨none, none, none, [⟨some 0, "call_1", name, arguments⟩]⟩

end NewApi.Stream
