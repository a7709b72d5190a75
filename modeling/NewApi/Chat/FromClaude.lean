import NewApi.Chat.Message

/-!
# Claude requests as chat requests

`ClaudeToOpenAIRequest` makes the results of tools messages of their own and collects calls, texts
and images.  A message with calls is sent without what else was collected.
-/

namespace NewApi.Chat.FromClaude

open List

inductive Block where
  | text (text : String)
  | image (mediaType data : String)
  | toolUse (id name arguments : String)
  | toolResult (toolUseId name content : String)
  | other
  deriving DecidableEq, Repr

inductive ClaudeContent where
  | string (s : String)
  | blocks (blocks : List Block)
  /-- What `ParseContent` rejects. -/
  | invalid

structure ClaudeMessage where
  role : String
  content : ClaudeContent

structure Converting where
  toolMessages : List Message := []
  toolCalls : List ToolCallRequest := []
  mediaMessages : List MediaContent := []

variable (searchToolName : String → String)

def Converting.add (s : Converting) : Block → Converting
  | .text text => { s with mediaMessages := s.mediaMessages ++ [.text text] }
  | .image mediaType data =>
    { s with mediaMessages := s.mediaMessages ++
        [.imageUrl ("data:" ++ mediaType ++ ";base64," ++ data) "" ""] }
  | .toolUse id name arguments => { s with toolCalls := s.toolCalls ++ [⟨id, name, arguments⟩] }
  | .toolResult toolUseId name content =>
    let toolName := if name = "" then searchToolName toolUseId else name
    { s with toolMessages := s.toolMessages ++
        [{ role := "tool", content := .json (.string content), name := some toolName,
           toolCallId := toolUseId }] }
  | .other => s

def convertMessage (m : ClaudeMessage) : List Message :=
  match m.content with
  | .string s => [{ role := m.role, content := .json (.string s) }]
  | .blocks blocks =>
    let s := blocks.foldl (Converting.add searchToolName) {}
    let media := if s.toolCalls = [] then s.mediaMessages else []
    let message : Message :=
      { role := m.role
        content := if media = [] then .json .null else .media media
        parsedContent := media
        toolCalls := if s.toolCalls = [] then none else some s.toolCalls }
    s.toolMessages ++
      if message.parseContent ≠ [] ∨ message.toolCalls.isSome then [message] else []
  | .invalid => []

def claudeToOpenAIRequest (system : List Message) (messages : List ClaudeMessage) :
    Option (List Message) :=
  if messages.any (·.content matches .invalid) then none
  else some (system ++ messages.flatMap (convertMessage searchToolName))

/-! ## What is kept -/

def Block.text? : Block → Option String
  | .text t => some t
  | _ => none

def Block.call? : Block → Option ToolCallRequest
  | .toolUse id name arguments => some ⟨id, name, arguments⟩
  | _ => none

def Block.result? : Block → Option String
  | .toolResult toolUseId .. => some toolUseId
  | _ => none

def mediaText? : MediaContent → Option String
  | .text text => some text
  | _ => none

def texts (ms : List Message) : List String := ms.flatMap (·.parsedContent.filterMap mediaText?)

def calls (ms : List Message) : List ToolCallRequest := ms.flatMap (·.parseToolCalls)

def results (ms : List Message) : List String := (ms.filter (·.name.isSome)).map (·.toolCallId)

/-- The converted messages hold the texts, calls and results of the blocks, each in order. -/
def Kept (m : ClaudeMessage) (converted : List Message) : Prop :=
  ∀ blocks, m.content = .blocks blocks → texts converted = blocks.filterMap Block.text? ∧
    calls converted = blocks.filterMap Block.call? ∧
    results converted = blocks.filterMap Block.result?

structure Collected (blocks : List Block) (s : Converting) : Prop where
  texts : s.mediaMessages.filterMap mediaText? = blocks.filterMap Block.text?
  calls : s.toolCalls = blocks.filterMap Block.call?
  results : results s.toolMessages = blocks.filterMap Block.result?
  tool : ∀ m ∈ s.toolMessages, m.parsedContent = [] ∧ m.toolCalls = none

theorem collected (blocks : List Block) :
    Collected blocks (blocks.foldl (Converting.add searchToolName) {}) := by
  induction blocks using reverseRecOn with
  | nil => exact ⟨rfl, rfl, rfl, nofun⟩
  | append_singleton blocks block ih =>
    rw [foldl_append]
    obtain ⟨hTexts, hCalls, hResults, hTool⟩ := ih
    cases block with
    | toolResult toolUseId name content =>
      refine ⟨?_, ?_, ?_, ?_⟩
      · simp [Converting.add, hTexts, Block.text?]
      · simp [Converting.add, hCalls, Block.call?]
      · simp only [results] at hResults
        simp [results, Converting.add, hResults, Block.result?]
      · intro m hm
        rcases mem_append.mp hm with hm | hm
        · exact hTool m hm
        · cases mem_singleton.mp hm
          exact ⟨rfl, rfl⟩
    | _ =>
      refine ⟨?_, ?_, ?_, hTool⟩ <;>
        simp [Converting.add, hTexts, hCalls, hResults, filterMap_cons, Block.text?, Block.call?,
          Block.result?, mediaText?]

theorem kept_iff (m : ClaudeMessage) :
    Kept m (convertMessage searchToolName m) ↔ ∀ blocks, m.content = .blocks blocks →
      blocks.filterMap Block.call? = [] ∨ blocks.filterMap Block.text? = [] := by
  refine forall_congr' fun blocks => forall_congr' fun hBlocks => ?_
  obtain ⟨hTexts, hCalls, hResults, hTool⟩ := collected searchToolName blocks
  simp only [convertMessage, hBlocks]
  generalize blocks.foldl (Converting.add searchToolName) {} = s at hTexts hCalls hResults hTool
  have hNoText : texts s.toolMessages = [] := by
    refine flatMap_eq_nil_iff.mpr fun m hm => ?_
    rw [(hTool m hm).1]
    rfl
  have hNoCall : calls s.toolMessages = [] := by
    refine flatMap_eq_nil_iff.mpr fun m hm => ?_
    rw [Message.parseToolCalls, (hTool m hm).2]
    rfl
  have hOne : ∀ message : Message, message.name = none →
      texts (s.toolMessages ++ [message]) = message.parsedContent.filterMap mediaText? ∧
        calls (s.toolMessages ++ [message]) = message.parseToolCalls ∧
        results (s.toolMessages ++ [message]) = results s.toolMessages := by
    intro message hName
    simp only [texts, calls, results] at hNoText hNoCall ⊢
    rw [flatMap_append, flatMap_append, hNoText, hNoCall]
    simp [hName]
  rw [← hTexts, ← hCalls, ← hResults]
  by_cases hNone : s.toolCalls = []
  · by_cases hMedia : s.mediaMessages = []
    · simp [hNone, hMedia, hNoText, hNoCall, Message.parseContent, Content.isNil]
    · simp [hNone, hMedia, hOne, Message.parseContent, Message.parseToolCalls, Content.isNil]
  simp only [hNone, if_false, Option.isSome_some, or_true, if_true]
  obtain ⟨hText, hCall, hResult⟩ := hOne ⟨m.role, .json .null, none, some s.toolCalls, "", []⟩ rfl
  constructor
  · rintro ⟨h, -⟩
    exact .inr (h.symm.trans hText)
  · rintro (h | h)
    · exact h.elim
    · exact ⟨hText.trans h.symm, hCall, hResult⟩

/-- **All blocks are converted exactly when** no message has both calls and text. -/
theorem claudeToOpenAIRequest_keeps_iff (system : List Message)
    (messages : List ClaudeMessage) {result : List Message}
    (h : claudeToOpenAIRequest searchToolName system messages = some result) :
    result = system ++ messages.flatMap (convertMessage searchToolName) ∧
      ((∀ m ∈ messages, Kept m (convertMessage searchToolName m)) ↔
        ∀ m ∈ messages, ∀ blocks, m.content = .blocks blocks →
          blocks.filterMap Block.call? = [] ∨ blocks.filterMap Block.text? = []) := by
  unfold claudeToOpenAIRequest at h
  split at h <;> cases h
  · exact ⟨rfl, forall_congr' fun m => forall_congr' fun _ => kept_iff searchToolName m⟩

theorem claudeToOpenAIRequest_keeps_result :
    Kept ⟨"user", .blocks [.toolResult "c1" "f" "4", .text "go on"]⟩
      (convertMessage id ⟨"user", .blocks [.toolResult "c1" "f" "4", .text "go on"]⟩) :=
  (claudeToOpenAIRequest_keeps_iff id []
    [⟨"user", .blocks [.toolResult "c1" "f" "4", .text "go on"]⟩] rfl).2.mpr
    (by simp [Block.call?]) _ mem_cons_self

/-- **Text next to a call is dropped.** -/
theorem text_next_to_call_dropped :
    texts (convertMessage id ⟨"assistant", .blocks [.text "a", .toolUse "c1" "f" "1"]⟩) = [] :=
  rfl

end NewApi.Chat.FromClaude
