import Mathlib.Algebra.Ring.Int.Defs
import Mathlib.Data.List.Basic
import NewApi.Upstream.Usage

/-!
# From OpenAI chunks to Claude events

`StreamResponseOpenAI2Claude` numbers, starts and stops content blocks, one of text or thinking at a
time.  What is open is in `ConvertInfo`. The first chunk has code of its own.
-/

namespace NewApi.Stream

open Upstream

/-! ## Chunks -/

structure ToolCall where
  index : Option Int
  id : String
  name : String
  arguments : String
  deriving DecidableEq, Repr

structure Delta where
  content : Option String
  reasoningContent : Option String
  reasoning : Option String
  toolCalls : List ToolCall
  deriving DecidableEq, Repr

def Delta.getContentString (d : Delta) : String := d.content.getD ""

def Delta.getReasoningContent (d : Delta) : String := (d.reasoningContent.or d.reasoning).getD ""

structure Choice where
  delta : Delta
  finishReason : Option String
  deriving DecidableEq, Repr

structure Chunk where
  id : String
  model : String
  choices : List Choice
  usage : Option Usage
  deriving DecidableEq, Repr

def Choice.finish (c : Choice) : Option String := c.finishReason.filter (· ≠ "")

/-- What the first choice says, which is the only one that is translated. -/
def Chunk.delta (c : Chunk) : Delta :=
  (c.choices.head?.map Choice.delta).getD ⟨none, none, none, []⟩

def Chunk.finish (c : Chunk) : Option String := c.choices.head?.bind Choice.finish

/-! ## Events -/

structure ClaudeUsage where
  inputTokens : Int
  outputTokens : Int
  cacheCreationInputTokens : Int
  cacheReadInputTokens : Int
  /-- `Ephemeral5mInputTokens` and `Ephemeral1hInputTokens`. -/
  cacheCreation : Option (Int × Int)
  deriving DecidableEq, Repr

inductive BlockType where
  | text
  | thinking
  | toolUse
  deriving DecidableEq, Repr

inductive Block where
  | text
  | thinking
  | toolUse (id name : String)
  deriving DecidableEq, Repr

def Block.type : Block → BlockType
  | .text => .text
  | .thinking => .thinking
  | .toolUse .. => .toolUse

inductive Event where
  | messageStart (id model : String) (usage : ClaudeUsage)
  | contentBlockStart (index : Int) (block : Block)
  /-- A delta of a block of this type: `text_delta`, `thinking_delta` or `input_json_delta`. -/
  | contentBlockDelta (index : Int) (type : BlockType) (piece : String)
  | contentBlockStop (index : Int)
  | messageDelta (usage : ClaudeUsage) (stopReason : String)
  | messageStop
  deriving DecidableEq, Repr

def normalizeCacheCreationSplit (totalTokens tokens5m tokens1h : Int) : Int × Int :=
  let remainder := max (totalTokens - tokens5m - tokens1h) 0
  (tokens5m + remainder, tokens1h)

def buildClaudeUsageFromOpenAIUsage (oaiUsage : Usage) : ClaudeUsage :=
  let split := normalizeCacheCreationSplit oaiUsage.promptTokensDetails.cachedCreationTokens
    oaiUsage.claudeCacheCreation5mTokens oaiUsage.claudeCacheCreation1hTokens
  { inputTokens := oaiUsage.promptTokens
    outputTokens := oaiUsage.completionTokens
    cacheCreationInputTokens := oaiUsage.promptTokensDetails.cachedCreationTokens
    cacheReadInputTokens := oaiUsage.promptTokensDetails.cachedTokens
    cacheCreation := if split.1 > 0 ∨ split.2 > 0 then some split else none }

/-! ## The translator -/

structure Relay where
  toLower : String → String
  estimatePromptTokens : Int

def Relay.stopReason (r : Relay) (finishReason : String) : String :=
  let lower := r.toLower finishReason
  if lower = "stop" then "end_turn"
  else if lower = "stop_sequence" then "stop_sequence"
  else if lower = "length" ∨ lower = "max_tokens" then "max_tokens"
  else if lower = "content_filter" then "refusal"
  else if lower = "tool_calls" then "tool_use"
  else finishReason

inductive LastMessageType where
  | none
  | text
  | tools
  | thinking
  deriving DecidableEq, Repr

structure ConvertInfo where
  lastMessagesType : LastMessageType
  index : Int
  usage : Option Usage
  finishReason : String
  done : Bool
  toolCallBaseIndex : Int
  toolCallMaxIndexOffset : Int
  sendResponseCount : Nat
  deriving DecidableEq, Repr

def ConvertInfo.start : ConvertInfo := ⟨.none, 0, none, "", false, 0, 0, 0⟩

namespace ConvertInfo

def stopOpenBlocks (info : ConvertInfo) : List Event :=
  match info.lastMessagesType with
  | .none => []
  | .text => [.contentBlockStop info.index]
  | .thinking => [.contentBlockStop info.index]
  | .tools => (List.range (info.toolCallMaxIndexOffset + 1).toNat).map fun offset : Nat =>
      .contentBlockStop (info.toolCallBaseIndex + offset)

/-- The state after `stopOpenBlocksAndAdvance`, which has stopped what was open. -/
def advance (info : ConvertInfo) : ConvertInfo :=
  match info.lastMessagesType with
  | .none => info
  | .tools =>
    { info with
      index := info.toolCallBaseIndex + info.toolCallMaxIndexOffset + 1
      toolCallBaseIndex := 0
      toolCallMaxIndexOffset := 0
      lastMessagesType := .none }
  | _ => { info with index := info.index + 1, lastMessagesType := .none }

/-- The end of a message: the open blocks are stopped, and a usage is reported if there is one. -/
def close (r : Relay) (info : ConvertInfo) (usage : Option Usage) : List Event :=
  info.stopOpenBlocks ++
    (match usage with
      | some u =>
        [.messageDelta (buildClaudeUsageFromOpenAIUsage u) (r.stopReason info.finishReason)]
      | none => []) ++
    [.messageStop]

/-! ### The first chunk -/

/-- The part of the first chunk about tool calls: only the first of them is looked at. -/
def firstTool (info : ConvertInfo) : List ToolCall → ConvertInfo × List Event
  | [] => (info, [])
  | call :: _ =>
    ({ info with
        lastMessagesType := .tools, toolCallBaseIndex := 0, toolCallMaxIndexOffset := 0 },
      .contentBlockStart 0 (.toolUse call.id call.name) ::
        if call.arguments ≠ "" then [.contentBlockDelta 0 .toolUse call.arguments] else [])

def firstPiece (info : ConvertInfo) (last : LastMessageType) (block : Block) (piece : String) :
    ConvertInfo × List Event :=
  let stopped := if info.lastMessagesType ≠ last then info.stopOpenBlocks else []
  let info := if info.lastMessagesType ≠ last then info.advance else info
  ({ info with lastMessagesType := last }, stopped ++ [.contentBlockStart info.index block,
      .contentBlockDelta info.index block.type piece])

def firstContent (info : ConvertInfo) (d : Delta) : ConvertInfo × List Event :=
  if d.getReasoningContent ≠ "" then
    info.firstPiece .thinking .thinking d.getReasoningContent
  else if d.getContentString ≠ "" then info.firstPiece .text .text d.getContentString
  else (info, [])

def firstFinish (r : Relay) (info : ConvertInfo) (c : Chunk) : ConvertInfo × List Event :=
  match c.finish with
  | some reason =>
    let info := { info with finishReason := reason }
    ({ info with done := true }, info.close r (c.usage.or info.usage))
  | none => (info, [])

def firstChunk (r : Relay) (info : ConvertInfo) (c : Chunk) : ConvertInfo × List Event :=
  let tool := info.firstTool c.delta.toolCalls
  let content := tool.1.firstContent c.delta
  let finish := content.1.firstFinish r c
  (finish.1, .messageStart c.id c.model ⟨r.estimatePromptTokens, 0, 0, 0, none⟩ ::
      (tool.2 ++ content.2 ++ finish.2))

/-! ### Later chunks -/

def ToolCall.offset (call : ToolCall) (position : Nat) : Int := call.index.getD position

def ToolCall.events (base offset : Int) (call : ToolCall) : List Event :=
  (if call.name ≠ "" then [.contentBlockStart (base + offset) (.toolUse call.id call.name)]
    else []) ++
    if call.arguments ≠ "" then [.contentBlockDelta (base + offset) .toolUse call.arguments] else []

def offsets (calls : List ToolCall) : List (Int × ToolCall) :=
  calls.zipIdx.map fun (call, position) => (ToolCall.offset call position, call)

def openTools (info : ConvertInfo) : ConvertInfo :=
  if info.lastMessagesType ≠ .tools then
    { info.advance with
      toolCallBaseIndex := info.advance.index
      toolCallMaxIndexOffset := 0
      lastMessagesType := .tools }
  else info

def sendTools (info : ConvertInfo) (calls : List ToolCall) : ConvertInfo × List Event :=
  let stopped := if info.lastMessagesType ≠ .tools then info.stopOpenBlocks else []
  let info := info.openTools
  let maxOffset := (offsets calls).foldl (fun m x => max m x.1) info.toolCallMaxIndexOffset
  ({ info with toolCallMaxIndexOffset := maxOffset, index := info.toolCallBaseIndex + maxOffset },
    stopped ++ (offsets calls).flatMap fun x => ToolCall.events info.toolCallBaseIndex x.1 x.2)

def sendPiece (info : ConvertInfo) (last : LastMessageType) (block : Block) (piece : String) :
    ConvertInfo × List Event :=
  if info.lastMessagesType ≠ last then
    ({ info.advance with lastMessagesType := last },
      info.stopOpenBlocks ++ [.contentBlockStart info.advance.index block,
        .contentBlockDelta info.advance.index block.type piece])
  else (info, [.contentBlockDelta info.index block.type piece])

def sendDelta (info : ConvertInfo) (d : Delta) : ConvertInfo × List Event :=
  if d.toolCalls ≠ [] then info.sendTools d.toolCalls
  else if d.getReasoningContent ≠ "" then
    info.sendPiece .thinking .thinking d.getReasoningContent
  else if d.getContentString ≠ "" then info.sendPiece .text .text d.getContentString
  else (info, [])

/-- A chunk without choices reports the usage at the end of some streams. -/
def usageChunk (r : Relay) (info : ConvertInfo) (c : Chunk) : ConvertInfo × List Event :=
  match c.usage.or info.usage with
  | some u =>
    let stopReason :=
      if r.stopReason info.finishReason = "" then "end_turn" else r.stopReason info.finishReason
    ({ info with done := true }, info.stopOpenBlocks ++
        [.messageDelta (buildClaudeUsageFromOpenAIUsage u) stopReason, .messageStop])
  | none => (info, [])

def laterChunk (r : Relay) (info : ConvertInfo) (c : Chunk) : ConvertInfo × List Event :=
  if c.choices = [] then info.usageChunk r c
  else
    match c.finish with
    | none => info.sendDelta c.delta
    | some reason =>
      let info := { info with finishReason := reason }
      match c.usage with
      -- closing waits for a chunk with a usage
      | none => (info, [])
      | some u =>
        let sent := info.sendDelta c.delta
        ({ sent.1 with done := true }, sent.2 ++ sent.1.close r (some u))

inductive Later (r : Relay) (info : ConvertInfo) (c : Chunk) : ConvertInfo × List Event → Prop where
  /-- There is a usage to report, which ends the message. -/
  | usage {u : Usage} {reason : String} (hChoices : c.choices = [])
      (hUsage : c.usage.or info.usage = some u) (hReason : reason ≠ "") :
      Later r info c ({ info with done := true }, info.stopOpenBlocks ++
        [.messageDelta (buildClaudeUsageFromOpenAIUsage u) reason, .messageStop])
  | nothing (hChoices : c.choices = []) (hUsage : c.usage.or info.usage = none) :
      Later r info c (info, [])
  | delta (hChoices : c.choices ≠ []) (hFinish : c.finish = none) :
      Later r info c (info.sendDelta c.delta)
  /-- The message has a finish reason, and waits for a usage. -/
  | held {reason : String} (hChoices : c.choices ≠ []) (hFinish : c.finish = some reason)
      (hUsage : c.usage = none) : Later r info c ({ info with finishReason := reason }, [])
  | closed {reason : String} {u : Usage} {sent : ConvertInfo × List Event}
      (hChoices : c.choices ≠ []) (hFinish : c.finish = some reason) (hUsage : c.usage = some u)
      (hSent : { info with finishReason := reason }.sendDelta c.delta = sent) :
      Later r info c ({ sent.1 with done := true }, sent.2 ++ sent.1.close r (some u))

theorem later_laterChunk (r : Relay) (info : ConvertInfo) (c : Chunk) :
    Later r info c (info.laterChunk r c) := by
  unfold laterChunk
  split
  · rename_i hChoices
    unfold usageChunk
    split
    · rename_i u hUsage
      refine .usage hChoices hUsage ?_
      split
      · decide
      · assumption
    · exact .nothing hChoices ‹_›
  · rename_i hChoices
    split
    · exact .delta hChoices ‹_›
    rename_i reason hFinish
    split
    · exact .held hChoices hFinish ‹_›
    · exact .closed hChoices hFinish ‹_› rfl

def streamResponseOpenAI2Claude (r : Relay) (info : ConvertInfo) (c : Chunk) :
    ConvertInfo × List Event :=
  if info.done then (info, [])
  else if info.sendResponseCount = 1 then info.firstChunk r c
  else info.laterChunk r c

end ConvertInfo

end NewApi.Stream
