import Mathlib.Data.List.Nodup
import NewApi.Chat.Message

/-!
# Gemini requests as chat requests

Gemini's function calls have no ids.  `GeminiToOpenAIRequest` makes them up from the number of calls
in the same content, and gives a response the id of the last call before it there.  But a response
usually comes in a later content.
-/

namespace NewApi.Chat.FromGemini

open List

inductive Part where
  | text (text : String)
  | inlineData (mimeType data : String)
  | fileData (fileUri mimeType : String)
  | functionCall (name arguments : String)
  | functionResponse (name response : String)
  | other

structure GeminiContent where
  role : String
  parts : List Part

def convertGeminiRoleToOpenAI (role : String) : String :=
  if role = "model" then "assistant" else if role = "function" then "function" else "user"

def callID (n : Nat) : String := "call_" ++ n.repr

structure Converting where
  toolMessages : List Message := []
  toolCalls : List ToolCallRequest := []
  mediaContents : List MediaContent := []

def Converting.add (s : Converting) : Part → Converting
  | .text t =>
    if t ≠ "" then { s with mediaContents := s.mediaContents ++ [.text t] } else s
  | .inlineData mimeType data =>
    { s with mediaContents := s.mediaContents ++
        [.imageUrl ("data:" ++ mimeType ++ ";base64," ++ data) "auto" mimeType] }
  | .fileData fileUri mimeType =>
    { s with mediaContents := s.mediaContents ++ [.imageUrl fileUri "auto" mimeType] }
  | .functionCall name arguments =>
    { s with toolCalls := s.toolCalls ++ [⟨callID (s.toolCalls.length + 1), name, arguments⟩] }
  | .functionResponse _ response =>
    { s with toolMessages := s.toolMessages ++
        [{ role := "tool", content := .json (.string response)
           toolCallId := callID s.toolCalls.length }] }
  | .other => s

def Converting.message (s : Converting) (role : String) : Message where
  role := convertGeminiRoleToOpenAI role
  content :=
    if s.toolCalls ≠ [] then .json .null
    else match s.mediaContents with
      | [] => .json .null
      | [.text t] => .json (.string t)
      | media => .media media
  parsedContent :=
    if s.toolCalls ≠ [] then []
    else match s.mediaContents with
      | [.text _] => []
      | media => media
  toolCalls := if s.toolCalls = [] then none else some s.toolCalls

def convertContent (c : GeminiContent) : List Message :=
  let s := c.parts.foldl Converting.add {}
  let message := s.message c.role
  s.toolMessages ++ if message.parseContent ≠ [] ∨ message.toolCalls.isSome then [message] else []

def geminiToOpenAIRequest (contents : List GeminiContent) : List Message :=
  contents.flatMap convertContent

def callIds (ms : List Message) : List String := ms.flatMap fun m => m.parseToolCalls.map (·.id)

def answeredIds (ms : List Message) : List String :=
  (ms.filter (·.role = "tool")).map (·.toolCallId)

/-! ## Calls by their number -/

def callCount (parts : List Part) : Nat := parts.countP (· matches .functionCall ..)

/-- For each response the number of calls before it, when there were `n` already. -/
def callsBefore : Nat → List Part → List Nat
  | _, [] => []
  | n, .functionCall .. :: parts => callsBefore (n + 1) parts
  | n, .functionResponse .. :: parts => n :: callsBefore n parts
  | n, _ :: parts => callsBefore n parts

theorem callID_injective : Function.Injective callID := by
  intro m n h
  have hRepr : m.repr = n.repr := by simpa [callID] using h
  have hDigits : Nat.toDigits 10 m = Nat.toDigits 10 n := String.ofList_inj.mp hRepr
  rw [← Nat.ofDigitChars_toDigits (b := 10) (n := m) (by decide) (by decide), hDigits,
    Nat.ofDigitChars_toDigits (by decide) (by decide)]

theorem foldl_add (parts : List Part) (s : Converting) :
    (parts.foldl Converting.add s).toolCalls.map (·.id) =
        s.toolCalls.map (·.id) ++
          (List.range' (s.toolCalls.length + 1) (callCount parts)).map callID ∧
      callIds (parts.foldl Converting.add s).toolMessages = callIds s.toolMessages ∧
      answeredIds (parts.foldl Converting.add s).toolMessages =
        answeredIds s.toolMessages ++ (callsBefore s.toolCalls.length parts).map callID := by
  induction parts generalizing s with
  | nil => simp [callCount, callsBefore]
  | cons part parts ih =>
    obtain ⟨hCalls, hNone, hAnswered⟩ := ih (s.add part)
    rw [foldl_cons, hCalls, hNone, hAnswered]
    cases part with
    | text t => by_cases h : t = "" <;> simp [Converting.add, h, callCount, callsBefore]
    | functionCall => simp [Converting.add, callCount, callsBefore, range'_succ]
    | _ =>
      simp [Converting.add, callCount, callsBefore, callIds, answeredIds, Message.parseToolCalls]

theorem convertContent_ids (c : GeminiContent) :
    callIds (convertContent c) = (List.range' 1 (callCount c.parts)).map callID ∧
      answeredIds (convertContent c) = (callsBefore 0 c.parts).map callID := by
  obtain ⟨hCalls, hNone, hAnswered⟩ := foldl_add c.parts {}
  dsimp only [convertContent]
  generalize c.parts.foldl Converting.add {} = s at hCalls hNone hAnswered ⊢
  have hRole : (s.message c.role).role ≠ "tool" := by
    unfold Converting.message convertGeminiRoleToOpenAI
    dsimp only
    split_ifs <;> decide
  have hTool : (s.message c.role).toolCalls = if s.toolCalls = [] then none else some s.toolCalls :=
    rfl
  generalize s.message c.role = m at hRole hTool ⊢
  refine ⟨Eq.trans ?_ hCalls, Eq.trans ?_ hAnswered⟩
  · have hIds : m.parseToolCalls = s.toolCalls := by
      rw [Message.parseToolCalls, hTool]
      by_cases hEmpty : s.toolCalls = [] <;> simp [hEmpty]
    simp only [callIds] at hNone ⊢
    rw [flatMap_append, hNone, ← hIds]
    split
    · simp
    rename_i hSkip
    have hEmpty : s.toolCalls = [] := by
      by_contra hSome
      exact hSkip (.inr (by simp [hTool, hSome]))
    simp [hIds, hEmpty]
  · split <;> simp [answeredIds, hRole]

/-- At most one content has calls, and each response stands directly behind its call there. -/
structure InPlace (contents : List GeminiContent) : Prop where
  calls : contents.Pairwise fun c d => callCount c.parts = 0 ∨ callCount d.parts = 0
  responses : ∀ k n, (contents.flatMap fun c => callsBefore 0 c.parts)[k]? = some n → n = k + 1

theorem range'_of_pairwise {contents : List GeminiContent}
    (h : contents.Pairwise fun c d => callCount c.parts = 0 ∨ callCount d.parts = 0) :
    ∃ n, contents.flatMap (fun c => List.range' 1 (callCount c.parts)) = List.range' 1 n ∧
      ∀ c ∈ contents, callCount c.parts ≤ n := by
  induction contents with
  | nil => exact ⟨0, rfl, nofun⟩
  | cons c contents ih =>
    obtain ⟨hFirst, hRest⟩ := pairwise_cons.mp h
    obtain ⟨n, hn, hLe⟩ := ih hRest
    by_cases hZero : callCount c.parts = 0
    · exact ⟨n, by simp [hZero, hn], forall_mem_cons.mpr ⟨by omega, hLe⟩⟩
    have hNone : ∀ d ∈ contents, callCount d.parts = 0 := fun d hd =>
      (hFirst d hd).resolve_left hZero
    refine ⟨callCount c.parts, ?_, forall_mem_cons.mpr ⟨le_rfl, fun d hd => ?_⟩⟩
    · rw [flatMap_cons, flatMap_eq_nil_iff.mpr fun d hd => by rw [hNone d hd]; rfl, append_nil]
    · rw [hNone d hd]
      exact Nat.zero_le _

theorem le_of_mem_callsBefore {n m : Nat} {parts : List Part} (h : m ∈ callsBefore n parts) :
    m ≤ n + callCount parts := by
  induction parts generalizing n with
  | nil => cases h
  | cons part parts ih =>
    cases part with
    | functionCall =>
      have hLe := ih h
      simp only [callCount] at hLe ⊢
      simp
      omega
    | functionResponse =>
      rcases mem_cons.mp h with rfl | h
      · exact Nat.le_add_right _ _
      · simpa [callCount] using ih h
    | _ => simpa [callCount] using ih h

theorem geminiToOpenAIRequest_ids (contents : List GeminiContent) :
    callIds (geminiToOpenAIRequest contents) =
        (contents.flatMap fun c => range' 1 (callCount c.parts)).map callID ∧
      answeredIds (geminiToOpenAIRequest contents) =
        (contents.flatMap fun c => callsBefore 0 c.parts).map callID := by
  constructor
  · simp only [callIds, geminiToOpenAIRequest, flatMap_assoc, map_flatMap]
    exact flatMap_congr fun c _ => (convertContent_ids c).1
  · simp only [answeredIds, geminiToOpenAIRequest, filter_flatMap, map_flatMap]
    exact flatMap_congr fun c _ => (convertContent_ids c).2

/-- Two contents with calls both have a first call, of the same number. -/
theorem pairwise_of_nodup {contents : List GeminiContent}
    (h : (contents.flatMap fun c => range' 1 (callCount c.parts)).Nodup) :
    contents.Pairwise fun c d => callCount c.parts = 0 ∨ callCount d.parts = 0 := by
  refine (nodup_flatMap.mp h).2.imp fun {c d} hDisjoint => ?_
  by_contra hBoth
  rw [not_or] at hBoth
  have hFirst : ∀ e : GeminiContent, callCount e.parts ≠ 0 → 1 ∈ range' 1 (callCount e.parts) :=
    fun e he => mem_range'_1.mpr ⟨le_rfl, by omega⟩
  exact hDisjoint (hFirst c hBoth.1) (hFirst d hBoth.2)

end NewApi.Chat.FromGemini
