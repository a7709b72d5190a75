import NewApi.Go.Strings

/-!
# Chat requests as Responses requests

Every tool call and every result of a tool becomes an item of its own.  The id of a result is
trimmed, the id of a call is not.  How contents are converted is left open.
-/

namespace NewApi.Chat.ToResponses

open Go List

structure ToolCall where
  id : String
  type : String
  name : String
  arguments : String

structure Message (C : Type) where
  role : String
  content : C
  toolCalls : List ToolCall := []
  toolCallId : String := ""

inductive InputItem (D : Type) where
  | message (role : String) (content : String ⊕ D)
  | functionCall (callId name arguments : String)
  | functionCallOutput (callId output : String)
  deriving DecidableEq

def InputItem.isCall {D : Type} : InputItem D → Bool
  | .functionCall .. => true
  | _ => false

def ToolCall.item (D : Type) (tc : ToolCall) : InputItem D :=
  .functionCall tc.id (trimSpace tc.name) tc.arguments

def ToolCall.isFunction (tc : ToolCall) : Bool := tc.type = "" || tc.type = "function"

variable {C D : Type} (convert : String → C → String ⊕ D) (output : C → String)

namespace Message

variable (m : Message C)

def isTool : Bool := trimSpace m.role = "tool" || trimSpace m.role = "function"

def namedCalls : List ToolCall :=
  if trimSpace m.role = "assistant" then
    m.toolCalls.filter fun tc => trimSpace tc.id ≠ "" ∧ trimSpace tc.name ≠ ""
  else []

def items : List (InputItem D) :=
  let role := trimSpace m.role
  if role = "" then []
  else if m.isTool then
    let callId := trimSpace m.toolCallId
    if callId = "" then
      [.message "user" (.inl ("[tool_output_missing_call_id] " ++ output m.content))]
    else [.functionCallOutput callId (output m.content)]
  else if role = "system" ∨ role = "developer" then []
  else
    .message role (convert role m.content) ::
      (m.namedCalls.filter (·.isFunction)).map (ToolCall.item D)

end Message

def chatCompletionsRequestToResponsesRequest (model : String) (n : Option Int)
    (messages : List (Message C)) : Option (List (InputItem D)) :=
  if model = "" ∨ n.getD 1 > 1 then none
  else some (messages.flatMap (·.items convert output))

variable {convert : String → C → String ⊕ D} {output : C → String} {m : Message C}
  {messages : List (Message C)}

theorem items_calls (m : Message C) : (m.items convert output).filter (·.isCall) =
    (m.namedCalls.filter (·.isFunction)).map (ToolCall.item D) := by
  have hNone : trimSpace m.role ≠ "assistant" → m.namedCalls = [] := fun hRole => if_neg hRole
  unfold Message.items
  dsimp only
  split_ifs with hBlank hTool hId hSystem
  · rw [hNone fun hRole => by simp [hRole] at hBlank]; rfl
  · rw [hNone fun hRole => by simp [Message.isTool, hRole] at hTool]; rfl
  · rw [hNone fun hRole => by simp [Message.isTool, hRole] at hTool]; rfl
  · rw [hNone fun hRole => by simp [hRole] at hSystem]; rfl
  · rw [filter_cons_of_neg (by simp [InputItem.isCall]), filter_eq_self]
    exact forall_mem_map.mpr fun tc _ => rfl

theorem flatMap_items_calls (messages : List (Message C)) :
    (messages.flatMap (·.items convert output)).filter (·.isCall) =
      ((messages.flatMap (·.namedCalls)).filter (·.isFunction)).map (ToolCall.item D) := by
  rw [filter_flatMap, filter_flatMap, map_flatMap]
  exact flatMap_congr fun m _ => items_calls m

theorem items_output {callId text : String}
    (h : .functionCallOutput callId text ∈ m.items convert output) :
    m.isTool ∧ callId = trimSpace m.toolCallId := by
  unfold Message.items at h
  dsimp only at h
  split_ifs at h with hBlank hTool hId hSystem
  · cases h
  · simp at h
  · cases mem_singleton.mp h
    exact ⟨hTool, rfl⟩
  · cases h
  · simp [ToolCall.item] at h

theorem items_of_isTool (hTool : m.isTool) (hId : trimSpace m.toolCallId ≠ "") :
    m.items convert output = [.functionCallOutput (trimSpace m.toolCallId) (output m.content)] := by
  have hRole : trimSpace m.role ≠ "" := by
    intro hBlank
    simp [Message.isTool, hBlank] at hTool
  simp [Message.items, hRole, hTool, hId]

/-- Where an element of a `flatMap` comes from. -/
theorem flatMap_split {α β : Type} {f : α → List β} {l : List α} {before after : List β} {x : β}
    (h : l.flatMap f = before ++ x :: after) :
    ∃ earlier a later rest, l = earlier ++ a :: later ∧ x ∈ f a ∧
      before = earlier.flatMap f ++ rest := by
  induction l generalizing before with
  | nil => simp at h
  | cons a l ih =>
    rw [flatMap_cons] at h
    have hLater (before') (hl : l.flatMap f = before' ++ x :: after)
        (hEq : before = f a ++ before') :
        ∃ earlier b later rest, a :: l = earlier ++ b :: later ∧ x ∈ f b ∧
          before = earlier.flatMap f ++ rest := by
      obtain ⟨earlier, b, later, rest, rfl, hx, hBefore⟩ := ih hl
      exact ⟨a :: earlier, b, later, rest, rfl, hx,
        by rw [hEq, hBefore, flatMap_cons, append_assoc]⟩
    rcases append_eq_append_iff.mp h with ⟨new, hEq, hNew⟩ | ⟨rest, hOld, hRest⟩
    · exact hLater new hNew hEq
    cases rest with
    | nil => exact hLater [] hRest.symm (by rw [hOld, append_nil, append_nil])
    | cons y rest =>
      obtain ⟨rfl, -⟩ := cons.inj hRest
      exact ⟨[], a, l, before, rfl, by simp [hOld], rfl⟩

/-- The id of a call before a result is the one that is sent with the result. -/
abbrev Named (messages : List (Message C)) : Prop :=
  ∀ earlier m later, messages = earlier ++ m :: later → m.isTool →
    ∃ tc ∈ earlier.flatMap (·.namedCalls), tc.id = trimSpace m.toolCallId

/-- **Every call is an item and every result has the id of a call before it exactly if the calls are
functions and results name them by their trimmed ids**, for results that answer a call. -/
theorem items_paired_iff {model : String} {n : Option Int} {items : List (InputItem D)}
    (hItems : chatCompletionsRequestToResponsesRequest convert output model n messages = some items)
    (hAnswers : ∀ earlier m later, messages = earlier ++ m :: later → m.isTool →
      ∃ tc ∈ earlier.flatMap (·.namedCalls), tc.id = m.toolCallId) :
    (items.filter (·.isCall) = (messages.flatMap (·.namedCalls)).map (ToolCall.item D) ∧
      ∀ earlier callId text later, items = earlier ++ .functionCallOutput callId text :: later →
        ∃ name arguments, .functionCall callId name arguments ∈ earlier) ↔
      (∀ tc ∈ messages.flatMap (·.namedCalls), tc.isFunction) ∧ Named messages := by
  unfold chatCompletionsRequestToResponsesRequest at hItems
  split_ifs at hItems
  cases hItems
  rw [flatMap_items_calls]
  constructor
  · rintro ⟨hCalls, hResults⟩
    have hFunction : ∀ tc ∈ messages.flatMap (·.namedCalls), tc.isFunction := by
      have hLength := congrArg length hCalls
      rw [length_map, length_map] at hLength
      exact length_filter_eq_length_iff.mp hLength
    refine ⟨hFunction, fun earlier m later hEq hTool => ?_⟩
    obtain ⟨tc, htc, hId⟩ := hAnswers earlier m later hEq hTool
    have hBlank : trimSpace m.toolCallId ≠ "" := by
      obtain ⟨c, -, hc⟩ := mem_flatMap.mp htc
      unfold Message.namedCalls at hc
      split at hc
      · rw [← hId]
        exact (of_decide_eq_true (mem_filter.mp hc).2).1
      · cases hc
    obtain ⟨name, arguments, hCall⟩ := hResults (earlier.flatMap (·.items convert output)) _ _ _ (by
      rw [hEq, flatMap_append, flatMap_cons, items_of_isTool hTool hBlank]
      rfl)
    have hMem := mem_filter.mpr ⟨hCall, (rfl : InputItem.isCall (.functionCall ..) = true)⟩
    rw [flatMap_items_calls] at hMem
    obtain ⟨other, hOther, hItem⟩ := mem_map.mp hMem
    exact ⟨other, mem_of_mem_filter hOther, (InputItem.functionCall.inj hItem).1⟩
  · rintro ⟨hFunction, hNamed⟩
    rw [filter_eq_self.mpr hFunction]
    refine ⟨rfl, fun before callId text after hEq => ?_⟩
    obtain ⟨earlier, m, later, rest, hMessages, hMem, rfl⟩ := flatMap_split hEq
    obtain ⟨hTool, rfl⟩ := items_output hMem
    obtain ⟨tc, htc, hId⟩ := hNamed earlier m later hMessages hTool
    have hAll : tc.isFunction := hFunction tc (by simp [hMessages, mem_flatMap.mp htc])
    have hCall : tc.item D ∈ (earlier.flatMap (·.items convert output)).filter (·.isCall) := by
      rw [flatMap_items_calls]
      exact mem_map_of_mem (mem_filter.mpr ⟨htc, hAll⟩)
    exact ⟨trimSpace tc.name, tc.arguments, mem_append_left _ (hId ▸ mem_of_mem_filter hCall)⟩

def demo (callId type : String) : Option (List (InputItem Unit)) :=
  chatCompletionsRequestToResponsesRequest (fun _ => .inl) id "gpt" none
    [⟨"assistant", "", [⟨callId, type, "f", ""⟩], ""⟩, ⟨"tool", "1", [], callId⟩]

theorem items_paired_demo :
    ∃ items, demo "a" "" = some items ∧ items.filter (·.isCall) = [.functionCall "a" "f" ""] := by
  obtain ⟨items, hItems⟩ : ∃ items, demo "a" "" = some items := ⟨_, rfl⟩
  have hAnswers : ∀ earlier m later, [⟨"assistant", "", [⟨"a", "", "f", ""⟩], ""⟩,
      (⟨"tool", "1", [], "a"⟩ : Message String)] = earlier ++ m :: later → m.isTool →
      ∃ tc ∈ earlier.flatMap (·.namedCalls),
        tc.id = m.toolCallId ∧ tc.id = trimSpace m.toolCallId := by
    intro earlier m later hEq hTool
    rcases earlier with _ | ⟨first, _ | ⟨second, rest⟩⟩
    · cases hEq
      exact absurd hTool (by decide)
    · cases hEq
      exact ⟨⟨"a", "", "f", ""⟩, .head _, rfl, by decide⟩
    · simp at hEq
  refine ⟨items, hItems, ((items_paired_iff hItems fun earlier m later hEq hTool => ?_).mpr
    ⟨by decide, fun earlier m later hEq hTool => ?_⟩).1⟩
  · obtain ⟨tc, htc, hId, -⟩ := hAnswers earlier m later hEq hTool
    exact ⟨tc, htc, hId⟩
  · obtain ⟨tc, htc, -, hId⟩ := hAnswers earlier m later hEq hTool
    exact ⟨tc, htc, hId⟩

/-- **The id of a call is not trimmed**, and a call of another type is left out. -/
theorem items_unpaired :
    demo " a" "" = some [.message "assistant" (.inl ""), .functionCall " a" "f" "",
        .functionCallOutput "a" "1"] ∧
      demo "a" "custom" = some [.message "assistant" (.inl ""), .functionCallOutput "a" "1"] := by
  decide

end NewApi.Chat.ToResponses
