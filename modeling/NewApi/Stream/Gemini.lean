import NewApi.Stream.Assembly

/-!
# Gemini answers as chat completions

`responseGeminiChat2OpenAI` keeps the last thought of an answer only; `GeminiChatStreamHandler`
turns each event into a chunk with one text, reasoning if there is a thought in it.  The stop chunk
says `tool_calls` only if the first event had a call.
-/

namespace NewApi.Stream

open Upstream Go

def ToolCall.chat (t : ToolCall) : ChatCall := ⟨t.id, t.name, t.arguments⟩

/-! ## Answers -/

/-- Inline data, a function and its arguments as `json.Marshal` prints them, code in a language, or
the output of code. -/
structure GeminiPart where
  inlineData : Option (String × String)
  functionCall : Option (String × Option String)
  thought : Bool
  text : String
  executableCode : Option (String × String)
  codeExecutionResult : Option String
  deriving DecidableEq, Repr

structure GeminiCandidate where
  parts : List GeminiPart
  finishReason : Option String
  deriving DecidableEq, Repr

/-- What a handler is given: the id and the model of its chunks, and the ids that it makes up. -/
structure GeminiRelay where
  id : String
  model : String
  uuid : Nat → String

namespace GeminiRelay

variable (env : GeminiRelay)

def callID (n : Nat) : String := "call_" ++ env.uuid n

/-- The `n`-th call that is made; none if its arguments cannot be printed. -/
def getResponseToolCall (n : Nat) (call : String × Option String) : Option ToolCall :=
  call.2.map fun arguments => ⟨none, env.callID n, call.1, arguments⟩

def imageText (mimeType data : String) : String :=
  "![image](data:" ++ mimeType ++ ";base64," ++ data ++ ")"

def finishOf (reason : String) : String :=
  if reason = "STOP" then "stop"
  else if reason = "MAX_TOKENS" then "length"
  else "content_filter"

/-! ## A whole answer -/

/-- What the loop over the parts has so far; `made` counts the ids. -/
structure WholeLoop where
  texts : List String
  toolCalls : List ToolCall
  reasoning : String
  finishReason : String
  made : Nat

def wholePart (l : WholeLoop) (p : GeminiPart) : WholeLoop :=
  match p.inlineData with
  | some (mimeType, data) =>
    if hasPrefix mimeType "image" then { l with texts := l.texts ++ [imageText mimeType data] }
    else
      { l with texts := l.texts ++ ["[media](data:" ++ mimeType ++ ";base64," ++ data ++ ")"] }
  | none =>
    match p.functionCall with
    | some call =>
      let l := { l with finishReason := "tool_calls" }
      match env.getResponseToolCall l.made call with
      | some tool => { l with toolCalls := l.toolCalls ++ [tool], made := l.made + 1 }
      | none => l
    | none =>
      if p.thought then { l with reasoning := p.text }
      else
        match p.executableCode, p.codeExecutionResult with
        | some (language, code), _ =>
          { l with texts := l.texts ++ ["```" ++ language ++ "\n" ++ code ++ "\n```"] }
        | none, some output => { l with texts := l.texts ++ ["```output\n" ++ output ++ "\n```"] }
        | none, none => if p.text ≠ "\n" then { l with texts := l.texts ++ [p.text] } else l

structure ChatMessage where
  reasoning : String
  completion : Completion
  deriving DecidableEq, Repr

def responseGeminiChat2OpenAI (candidate : GeminiCandidate) : ChatMessage :=
  let l := candidate.parts.foldl env.wholePart ⟨[], [], "", "stop", 0⟩
  let finish := (candidate.finishReason.map finishOf).getD l.finishReason
  ⟨l.reasoning, join l.texts '\n', l.toolCalls.map ToolCall.chat,
    if l.toolCalls ≠ [] then "tool_calls" else finish⟩

/-! ## A stream -/

structure StreamLoop where
  texts : List String
  isTools : Bool
  isThought : Bool
  toolCalls : List ToolCall
  made : Nat

def streamPart (l : StreamLoop) (p : GeminiPart) : StreamLoop :=
  match p.inlineData with
  | some (mimeType, data) =>
    if hasPrefix mimeType "image" then { l with texts := l.texts ++ [imageText mimeType data] }
    else l
  | none =>
    match p.functionCall with
    | some call =>
      let l := { l with isTools := true }
      match env.getResponseToolCall l.made call with
      | some tool =>
        { l with
          toolCalls := l.toolCalls ++ [{ tool with index := some l.toolCalls.length }]
          made := l.made + 1 }
      | none => l
    | none =>
      if p.thought then { l with isThought := true, texts := l.texts ++ [p.text] }
      else
        match p.executableCode, p.codeExecutionResult with
        | some (language, code), _ =>
          { l with texts := l.texts ++ ["```" ++ language ++ "\n" ++ code ++ "\n```\n"] }
        | none, some output => { l with texts := l.texts ++ ["```output\n" ++ output ++ "\n```\n"] }
        | none, none => if p.text ≠ "\n" then { l with texts := l.texts ++ [p.text] } else l

def streamLoop (made : Nat) (candidate : GeminiCandidate) : StreamLoop :=
  candidate.parts.foldl env.streamPart ⟨[], false, false, [], made⟩

/-- The choice for the candidate of an event.  The reason `STOP` is not passed on here. -/
def streamChoice (made : Nat) (candidate : GeminiCandidate) : Choice :=
  let l := env.streamLoop made candidate
  let text := join l.texts '\n'
  let delta : Delta :=
    if l.isThought then ⟨none, some text, none, l.toolCalls⟩ else ⟨some text, none, none, l.toolCalls⟩
  ⟨delta, if l.isTools then some "tool_calls"
    else (candidate.finishReason.filter (· ≠ "STOP")).map finishOf⟩

def isStop (candidate : GeminiCandidate) : Bool := candidate.finishReason = some "STOP"

structure ToolIndexes where
  index : String → Option Nat
  next : Nat

/-- A tool call gets the index of its id, or the next one; a fragment without an id keeps its
own. -/
def ToolIndexes.assign (m : ToolIndexes) (tool : ToolCall) : ToolIndexes × ToolCall :=
  if tool.id = "" then (m, tool)
  else
    match m.index tool.id with
    | some i => (m, { tool with index := some i })
    | none =>
      (⟨Function.update m.index tool.id (some m.next), m.next + 1⟩,
        { tool with index := some m.next })

def ToolIndexes.assignAll (m : ToolIndexes) : List ToolCall → ToolIndexes × List ToolCall
  | [] => (m, [])
  | tool :: rest =>
    let (m', tool') := m.assign tool
    let (m'', rest') := m'.assignAll rest
    (m'', tool' :: rest')

structure GeminiState where
  indexes : ToolIndexes
  sendResponseCount : Nat
  finishReason : String
  made : Nat
  sent : List Chunk

def start : GeminiState := ⟨⟨fun _ => none, 0⟩, 0, "stop", 0, []⟩

def handleStream (s : GeminiState) (chunk : Chunk) : GeminiState :=
  { s with sendResponseCount := s.sendResponseCount + 1, sent := s.sent ++ [chunk] }

def clearToolCalls (choice : Choice) : Choice :=
  { choice with
    delta := { choice.delta with
      toolCalls := choice.delta.toolCalls.map fun t => { t with id := "", name := "" } } }

/-- The chunk before the first one has its tool calls without their arguments. -/
def sendFirst (s : GeminiState) (choice : Choice) : GeminiState × Choice :=
  if choice.delta.toolCalls ≠ [] then
    let calls := choice.delta.toolCalls.map fun t => { t with arguments := "" }
    (handleStream { s with finishReason := "tool_calls" }
        ⟨env.id, env.model, [⟨⟨some "", none, none, calls⟩, none⟩], none⟩,
      { clearToolCalls choice with
        finishReason := if choice.finish.isSome then none else choice.finishReason })
  else (handleStream s (generateStartEmptyResponse env.id env.model), choice)

def sendParts (s : GeminiState) (candidate : GeminiCandidate) : GeminiState :=
  let choice := env.streamChoice s.made candidate
  let (indexes, tools) := s.indexes.assignAll choice.delta.toolCalls
  let choice := { choice with delta := { choice.delta with toolCalls := tools } }
  let s := { s with indexes, made := (env.streamLoop s.made candidate).made }
  let (s, choice) := if s.sendResponseCount = 0 then env.sendFirst s choice else (s, choice)
  handleStream s ⟨env.id, env.model, [choice], none⟩

def onEvent (s : GeminiState) (candidate : GeminiCandidate) : GeminiState :=
  let s := env.sendParts s candidate
  if isStop candidate then handleStream s (generateStopResponse env.id env.model s.finishReason)
  else s

def geminiChatStream (usage : Option Usage) (events : List GeminiCandidate) : List Chunk :=
  (events.foldl env.onEvent start).sent ++
    (usage.map (generateFinalUsageResponse env.id env.model)).toList

end GeminiRelay

end NewApi.Stream
