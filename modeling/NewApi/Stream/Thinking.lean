import Mathlib.Data.List.Basic

/-!
# Thinking as content

With `ThinkingToContent` reasoning is sent as content between `<think>` and `</think>`. The tag is
closed at the first content after it, so perhaps never; and the content of a chunk that has
reasoning too is replaced.
-/

namespace NewApi.Stream.Thinking

open List

structure Choice where
  reasoning : String
  content : String

structure ThinkingContentInfo where
  isFirstThinkingContent : Bool := true
  sendLastThinkingContent : Bool := false
  hasSentThinkingContent : Bool := false

def joined (texts : List String) : String := texts.foldr (· ++ ·) ""

theorem joined_cons (text : String) (texts : List String) :
    joined (text :: texts) = text ++ joined texts := rfl

/-- The responses sent before the chunk, each with the contents of its choices, and its own
contents. -/
def sendChoices (hasContent : Bool) (n : Nat) :
    ThinkingContentInfo → List Choice → List (List String) × List String × ThinkingContentInfo
  | info, [] => ([], [], info)
  | info, choice :: choices =>
    let closes := hasContent && !info.sendLastThinkingContent && info.hasSentThinkingContent
    let info := if closes then { info with sendLastThinkingContent := true } else info
    let content := if choice.reasoning ≠ "" then choice.reasoning else choice.content
    let (sent, contents, info) := sendChoices hasContent n info choices
    ((if closes then [List.replicate n "\n</think>\n"] else []) ++ sent, content :: contents, info)

def sendStreamData (info : ThinkingContentInfo) (choices : List Choice) :
    List (List String) × ThinkingContentInfo :=
  let hasThinkingContent := choices.any (·.reasoning ≠ "")
  let hasContent := choices.any (·.content ≠ "")
  if info.isFirstThinkingContent ∧ hasThinkingContent then
    let thinkingContent := joined (choices.map (·.reasoning))
    ([choices.map fun _ => "<think>\n" ++ thinkingContent],
      { info with isFirstThinkingContent := false, hasSentThinkingContent := true })
  else
    let (sent, contents, info) := sendChoices hasContent choices.length info choices
    (sent ++ [contents], info)

def emitted : ThinkingContentInfo → List Choice → String
  | _, [] => ""
  | info, chunk :: chunks =>
    joined (sendStreamData info [chunk]).1.flatten ++ emitted (sendStreamData info [chunk]).2 chunks

def reasoning (chunks : List Choice) : String := joined (chunks.map (·.reasoning))

def content (chunks : List Choice) : String := joined (chunks.map (·.content))

theorem emitted_content {info : ThinkingContentInfo}
    (hInfo : info.hasSentThinkingContent = true → info.sendLastThinkingContent = true)
    {chunks : List Choice} (h : ∀ c ∈ chunks, c.reasoning = "") :
    emitted info chunks = content chunks := by
  induction chunks with
  | nil => rfl
  | cons chunk chunks ih =>
    have hSame : sendStreamData info [chunk] = ([[chunk.content]], info) := by
      obtain ⟨first, last, sent⟩ := info
      cases last <;> cases sent <;> simp_all [sendStreamData, sendChoices]
    rw [emitted, hSame, ih fun c hc => h c (mem_cons_of_mem _ hc)]
    simp [joined, content]

theorem emitted_after {first : Bool} {chunks : List Choice} (h : ∀ c ∈ chunks, c.reasoning = "") :
    emitted ⟨first, false, true⟩ chunks =
      if content chunks = "" then "" else "\n</think>\n" ++ content chunks := by
  induction chunks with
  | nil => rfl
  | cons chunk chunks ih =>
    have hNone := h chunk mem_cons_self
    have hRest := fun c hc => h c (mem_cons_of_mem chunk hc)
    have hContent : content (chunk :: chunks) = chunk.content ++ content chunks := rfl
    by_cases hEmpty : chunk.content = ""
    · have hSame : sendStreamData ⟨first, false, true⟩ [chunk] =
          ([[""]], ⟨first, false, true⟩) := by
        simp [sendStreamData, sendChoices, hNone, hEmpty]
      rw [emitted, hSame, ih hRest, hContent, hEmpty]
      simp [joined]
    · have hClose : sendStreamData ⟨first, false, true⟩ [chunk] =
          ([["\n</think>\n"], [chunk.content]], ⟨first, true, true⟩) := by
        simp [sendStreamData, sendChoices, hNone, hEmpty]
      rw [emitted, hClose, emitted_content (fun _ => rfl) hRest, hContent]
      simp [joined, hEmpty, String.append_assoc]

theorem emitted_reasoning {before after : List Choice} (h : ∀ c ∈ before, c.content = "") :
    emitted ⟨false, false, true⟩ (before ++ after) =
      reasoning before ++ emitted ⟨false, false, true⟩ after := by
  induction before with
  | nil => simp [reasoning, joined]
  | cons chunk before ih =>
    have hNone := h chunk mem_cons_self
    have hSame : sendStreamData ⟨false, false, true⟩ [chunk] =
        ([[chunk.reasoning]], ⟨false, false, true⟩) := by
      by_cases hEmpty : chunk.reasoning = "" <;> simp [sendStreamData, sendChoices, hNone, hEmpty]
    rw [cons_append, emitted, hSame, ih fun c hc => h c (mem_cons_of_mem _ hc)]
    simp [joined, reasoning, String.append_assoc]

theorem sendStreamData_open {chunk : Choice} (h : chunk.reasoning ≠ "") :
    sendStreamData {} [chunk] = ([["<think>\n" ++ chunk.reasoning]], ⟨false, false, true⟩) := by
  simp [sendStreamData, h, joined]

theorem sendStreamData_none {chunk : Choice} (h : chunk.reasoning = "")
    (hContent : chunk.content = "") : sendStreamData {} [chunk] = ([[""]], {}) := by
  simp [sendStreamData, sendChoices, h, hContent]

theorem emitted_eq (before after : List Choice) (hBefore : ∀ c ∈ before, c.content = "")
    (hAfter : ∀ c ∈ after, c.reasoning = "") :
    emitted {} (before ++ after) =
      if reasoning before = "" then content after
      else "<think>\n" ++ reasoning before ++
        if content after = "" then "" else "\n</think>\n" ++ content after := by
  induction before with
  | nil => exact emitted_content (fun h => absurd h Bool.false_ne_true) hAfter
  | cons chunk before ih =>
    have hNone := hBefore chunk mem_cons_self
    have hRest := fun c hc => hBefore c (mem_cons_of_mem chunk hc)
    have hReasoning : reasoning (chunk :: before) = chunk.reasoning ++ reasoning before := rfl
    by_cases hEmpty : chunk.reasoning = ""
    · rw [cons_append, emitted, sendStreamData_none hEmpty hNone, ih hRest, hReasoning, hEmpty]
      simp [joined]
    rw [cons_append, emitted, sendStreamData_open hEmpty, emitted_reasoning hRest,
      emitted_after hAfter, hReasoning]
    simp [joined, hEmpty, String.append_assoc]

theorem joined_append (l m : List String) : joined (l ++ m) = joined l ++ joined m := by
  induction l with
  | nil => simp [joined]
  | cons text l ih => rw [cons_append, joined_cons, joined_cons, ih, String.append_assoc]

theorem joined_eq_empty_iff {texts : List String} : joined texts = "" ↔ ∀ t ∈ texts, t = "" := by
  induction texts with
  | nil => simp [joined]
  | cons text texts ih => rw [joined_cons, String.append_eq_empty_iff, ih, forall_mem_cons]

theorem reasoning_append (before after : List Choice) :
    reasoning (before ++ after) = reasoning before ++ reasoning after := by
  rw [reasoning, map_append, joined_append, reasoning, reasoning]

theorem content_append (before after : List Choice) :
    content (before ++ after) = content before ++ content after := by
  rw [content, map_append, joined_append, content, content]

theorem reasoning_eq_empty_iff {chunks : List Choice} :
    reasoning chunks = "" ↔ ∀ c ∈ chunks, c.reasoning = "" := by
  rw [reasoning, joined_eq_empty_iff, forall_mem_map]

theorem content_eq_empty_iff {chunks : List Choice} :
    content chunks = "" ↔ ∀ c ∈ chunks, c.content = "" := by
  rw [content, joined_eq_empty_iff, forall_mem_map]

/-- The text a client should get from chunks that have reasoning. -/
def tagged (chunks : List Choice) : String :=
  "<think>\n" ++ reasoning chunks ++ "\n</think>\n" ++ content chunks

theorem emitted_pure_iff {before after : List Choice} (hBefore : ∀ c ∈ before, c.content = "")
    (hAfter : ∀ c ∈ after, c.reasoning = "") (hSome : reasoning before ≠ "") :
    emitted {} (before ++ after) = tagged (before ++ after) ↔ content after ≠ "" := by
  have hReasoning : reasoning (before ++ after) = reasoning before := by
    rw [reasoning_append, reasoning_eq_empty_iff.mpr hAfter, String.append_empty]
  have hContent : content (before ++ after) = content after := by
    rw [content_append, content_eq_empty_iff.mpr hBefore, String.empty_append]
  rw [emitted_eq before after hBefore hAfter, if_neg hSome, tagged, hReasoning, hContent]
  by_cases hNone : content after = ""
  · rw [if_pos hNone, hNone]
    refine iff_of_false (fun hEq => ?_) (not_not.mpr rfl)
    have hLength := congrArg String.length hEq
    simp only [String.length_append, String.append_empty] at hLength
    have hTag : "\n</think>\n".length = 10 := by decide
    omega
  · rw [if_neg hNone]
    exact iff_of_true (by simp only [String.append_assoc]) hNone

/-- A chunk with both kinds of text loses its content. -/
theorem length_emitted_mixed {before after : List Choice} {mid : Choice}
    (hBefore : ∀ c ∈ before, c.content = "") (hAfter : ∀ c ∈ after, c.reasoning = "")
    (hReasoning : mid.reasoning ≠ "") (hContent : mid.content ≠ "") :
    (emitted {} (before ++ mid :: after)).length < (tagged (before ++ mid :: after)).length := by
  have hLost : 0 < mid.content.length := by
    rw [Nat.pos_iff_ne_zero]
    exact fun hZero => hContent (String.length_eq_zero_iff.mp hZero)
  induction before with
  | nil =>
    have hHead : reasoning (mid :: after) = mid.reasoning ++ reasoning after := rfl
    have hText : content (mid :: after) = mid.content ++ content after := rfl
    rw [nil_append, emitted, sendStreamData_open hReasoning, emitted_after hAfter, tagged, hHead,
      hText]
    simp only [joined, flatten_cons, flatten_nil, append_nil, foldr_cons, foldr_nil,
      String.append_empty, String.length_append]
    split
    · rw [String.length_empty]
      omega
    · rw [String.length_append]
      omega
  | cons chunk before ih =>
    have hNone := hBefore chunk mem_cons_self
    have hRest := fun c hc => hBefore c (mem_cons_of_mem chunk hc)
    by_cases hEmpty : chunk.reasoning = ""
    · have hTagged : tagged (chunk :: (before ++ mid :: after)) =
          tagged (before ++ mid :: after) := by
        simp [tagged, reasoning, content, joined, hNone, hEmpty]
      rw [cons_append, emitted, sendStreamData_none hEmpty hNone, hTagged]
      simpa [joined] using ih hRest
    have hClose : sendStreamData ⟨false, false, true⟩ [mid] =
        ([["\n</think>\n"], [mid.reasoning]], ⟨false, true, true⟩) := by
      simp [sendStreamData, sendChoices, hReasoning, hContent]
    rw [cons_append, emitted, sendStreamData_open hEmpty, emitted_reasoning hRest, emitted, hClose,
      emitted_content (fun _ => rfl) hAfter, tagged, ← cons_append, reasoning_append,
      content_append]
    simp only [reasoning, content, joined, map_cons, foldr_cons, String.length_append,
      flatten_cons, flatten_nil, append_nil, foldr_nil, cons_append, nil_append,
      String.append_empty]
    omega

/-- **Reasoning stands between the tags**, exactly if no chunk has both kinds of text and some
content follows. -/
theorem emitted_eq_tagged_iff (before after : List Choice) (mid : Choice)
    (hBefore : ∀ c ∈ before, c.content = "") (hAfter : ∀ c ∈ after, c.reasoning = "") :
    let chunks := before ++ mid :: after
    (reasoning chunks ≠ "" → emitted {} chunks =
        "<think>\n" ++ reasoning chunks ++ "\n</think>\n" ++ content chunks) ↔
      ((∃ c ∈ chunks, c.reasoning ≠ "") →
        (∀ c ∈ chunks, c.reasoning = "" ∨ c.content = "") ∧ ∃ c ∈ chunks, c.content ≠ "") := by
  intro chunks
  change (_ → emitted {} chunks = tagged chunks) ↔ _
  have hSome : (∃ c ∈ chunks, c.reasoning ≠ "") ↔ reasoning chunks ≠ "" := by
    rw [ne_eq, reasoning_eq_empty_iff]
    push Not
    rfl
  have hText : (∃ c ∈ chunks, c.content ≠ "") ↔ content chunks ≠ "" := by
    rw [ne_eq, content_eq_empty_iff]
    push Not
    rfl
  rw [hSome, hText]
  refine imp_congr_right fun hReasoning => ?_
  have hOne : (∀ c ∈ chunks, c.reasoning = "" ∨ c.content = "") ↔
      mid.reasoning = "" ∨ mid.content = "" := by
    refine ⟨fun hAll => hAll mid (by simp [chunks]), fun hMid c hc => ?_⟩
    rcases mem_append.mp hc with hc | hc
    · exact .inr (hBefore c hc)
    rcases mem_cons.mp hc with rfl | hc
    · exact hMid
    · exact .inl (hAfter c hc)
  rw [hOne]
  by_cases hMid : mid.reasoning = ""
  · have hTail : ∀ c ∈ mid :: after, c.reasoning = "" := forall_mem_cons.mpr ⟨hMid, hAfter⟩
    have hContent : content chunks = content (mid :: after) := by
      rw [content_append, content_eq_empty_iff.mpr hBefore, String.empty_append]
    have hHead : reasoning before ≠ "" := by
      rwa [reasoning_append, reasoning_eq_empty_iff.mpr hTail, String.append_empty] at hReasoning
    rw [emitted_pure_iff hBefore hTail hHead, hContent]
    exact ⟨fun h => ⟨.inl hMid, h⟩, And.right⟩
  by_cases hMidText : mid.content = ""
  · have hFront : ∀ c ∈ before ++ [mid], c.content = "" := by
      intro c hc
      rcases mem_append.mp hc with hc | hc
      · exact hBefore c hc
      · rw [mem_singleton.mp hc]
        exact hMidText
    have hSplit : chunks = (before ++ [mid]) ++ after := by simp [chunks]
    rw [hSplit] at hReasoning ⊢
    have hContent : content ((before ++ [mid]) ++ after) = content after := by
      rw [content_append, content_eq_empty_iff.mpr hFront, String.empty_append]
    have hHead : reasoning (before ++ [mid]) ≠ "" := by
      rwa [reasoning_append, reasoning_eq_empty_iff.mpr hAfter, String.append_empty] at hReasoning
    rw [emitted_pure_iff hFront hAfter hHead, hContent]
    exact ⟨fun h => ⟨.inr hMidText, h⟩, And.right⟩
  · refine iff_of_false (fun hEq => ?_) (by simp [hMid, hMidText])
    have hLess := length_emitted_mixed hBefore hAfter hMid hMidText
    rw [show before ++ mid :: after = chunks from rfl, hEq] at hLess
    exact absurd hLess (Nat.lt_irrefl _)

theorem emitted_eq_tagged_short :
    emitted {} [⟨"a", ""⟩, ⟨"b", ""⟩, ⟨"", "c"⟩, ⟨"", "d"⟩] = "<think>\nab\n</think>\ncd" :=
  (emitted_eq_tagged_iff [⟨"a", ""⟩, ⟨"b", ""⟩] [⟨"", "d"⟩] ⟨"", "c"⟩ (by simp) (by simp)).mpr
    (by simp) (by decide)

/-- **A chunk with both** loses its content, and reasoning at the end is not closed. -/
theorem emitted_lost :
    emitted {} [⟨"a", ""⟩, ⟨"b", "c"⟩, ⟨"", "d"⟩] = "<think>\na\n</think>\nbd" ∧
      emitted {} [⟨"a", ""⟩] = "<think>\na" := by
  decide

end NewApi.Stream.Thinking
