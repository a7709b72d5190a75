import NewApi.Stream.Gemini

/-!
# Usage of Gemini answers

A whole answer is billed with the counts of its metadata.  A stream uses them only if they have a
total, and counts the text itself if no completion tokens are left.
-/

namespace NewApi.Stream.GeminiUsage

structure GeminiPromptTokensDetails where
  modality : String
  tokenCount : Int

structure GeminiUsageMetadata where
  promptTokenCount : Int := 0
  toolUsePromptTokenCount : Int := 0
  candidatesTokenCount : Int := 0
  totalTokenCount : Int := 0
  thoughtsTokenCount : Int := 0
  cachedContentTokenCount : Int := 0
  promptTokensDetails : List GeminiPromptTokensDetails := []
  toolUsePromptTokensDetails : List GeminiPromptTokensDetails := []
  candidatesTokensDetails : List GeminiPromptTokensDetails := []

structure TokenDetails where
  textTokens : Int := 0
  audioTokens : Int := 0
  imageTokens : Int := 0
  reasoningTokens : Int := 0
  cachedTokens : Int := 0
  deriving DecidableEq

structure Usage where
  promptTokens : Int := 0
  completionTokens : Int := 0
  totalTokens : Int := 0
  promptTokensDetails : TokenDetails := {}
  completionTokenDetails : TokenDetails := {}
  deriving DecidableEq

def tokensOf (modality : String) (details : List GeminiPromptTokensDetails) : Int :=
  ((details.filter (·.modality = modality)).map (·.tokenCount)).sum

def promptTokens (metadata : GeminiUsageMetadata) (fallbackPromptTokens : Int) : Int :=
  let promptTokens := metadata.promptTokenCount + metadata.toolUsePromptTokenCount
  if promptTokens ≤ 0 ∧ fallbackPromptTokens > 0 then fallbackPromptTokens else promptTokens

def completionTokens (metadata : GeminiUsageMetadata) (promptTokens : Int) : Int :=
  let completionTokens := metadata.candidatesTokenCount + metadata.thoughtsTokenCount
  if metadata.totalTokenCount > 0 ∧ completionTokens ≤ 0 then
    metadata.totalTokenCount - promptTokens
  else completionTokens

def buildUsageFromGeminiMetadata (metadata : GeminiUsageMetadata) (fallbackPromptTokens : Int) :
    Usage :=
  let prompt := promptTokens metadata fallbackPromptTokens
  let details := metadata.promptTokensDetails ++ metadata.toolUsePromptTokensDetails
  let text := tokensOf "TEXT" details
  let audio := tokensOf "AUDIO" details
  { promptTokens := prompt
    completionTokens := completionTokens metadata prompt
    totalTokens := metadata.totalTokenCount
    promptTokensDetails := {
      textTokens := if prompt > 0 ∧ text = 0 ∧ audio = 0 then prompt else text
      audioTokens := audio
      cachedTokens := metadata.cachedContentTokenCount }
    completionTokenDetails := {
      textTokens := tokensOf "TEXT" metadata.candidatesTokensDetails
      audioTokens := tokensOf "AUDIO" metadata.candidatesTokensDetails
      imageTokens := tokensOf "IMAGE" metadata.candidatesTokensDetails
      reasoningTokens := metadata.thoughtsTokenCount } }

structure GeminiChatResponse where
  parts : List GeminiPart
  usageMetadata : GeminiUsageMetadata

structure RelayInfo where
  estimatePromptTokens : Int
  estimateTokenByModel : String → Int

def responseText2Usage (info : RelayInfo) (text : String) : Usage where
  promptTokens := info.estimatePromptTokens
  completionTokens := info.estimateTokenByModel text
  totalTokens := info.estimatePromptTokens + info.estimateTokenByModel text

def geminiChatHandler (info : RelayInfo) (response : GeminiChatResponse) : Usage :=
  buildUsageFromGeminiMetadata response.usageMetadata info.estimatePromptTokens

def imageCount (parts : List GeminiPart) : Nat :=
  parts.countP fun part => part.inlineData.any (·.1 ≠ "")

def geminiStreamHandler (info : RelayInfo) (response : GeminiChatResponse) : Usage :=
  let usage :=
    if response.usageMetadata.totalTokenCount ≠ 0 then
      buildUsageFromGeminiMetadata response.usageMetadata info.estimatePromptTokens
    else {}
  let usage :=
    if imageCount response.parts ≠ 0 ∧ usage.completionTokens = 0 then
      { usage with completionTokens := imageCount response.parts * 1400 }
    else usage
  if usage.completionTokens ≤ 0 then
    responseText2Usage info (String.join (response.parts.map GeminiPart.text))
  else usage

variable (info : RelayInfo) (response : GeminiChatResponse)

/-- The counts of the metadata that the usage is made of are not negative. -/
structure GeminiUsageMetadata.Nonneg (metadata : GeminiUsageMetadata) : Prop where
  prompt : 0 ≤ metadata.promptTokenCount
  toolUse : 0 ≤ metadata.toolUsePromptTokenCount
  candidates : 0 ≤ metadata.candidatesTokenCount
  thoughts : 0 ≤ metadata.thoughtsTokenCount
  total : 0 ≤ metadata.totalTokenCount

/-- There is a total, and there are completion tokens: their own counts, or what the prompt leaves
of the total. -/
def Metered (info : RelayInfo) (metadata : GeminiUsageMetadata) : Prop :=
  metadata.totalTokenCount ≠ 0 ∧
    (0 < metadata.candidatesTokenCount + metadata.thoughtsTokenCount ∨
      metadata.promptTokenCount + metadata.toolUsePromptTokenCount < metadata.totalTokenCount ∧
        (metadata.promptTokenCount + metadata.toolUsePromptTokenCount = 0 →
          info.estimatePromptTokens < metadata.totalTokenCount))

/-- Nothing is counted but what the stream would count without metadata: the images, or a text
estimated at zero. -/
def Unmetered (info : RelayInfo) (response : GeminiChatResponse) : Prop :=
  let metadata := response.usageMetadata
  let details := metadata.promptTokensDetails ++ metadata.toolUsePromptTokensDetails
  metadata.totalTokenCount = 0 ∧ info.estimatePromptTokens = 0 ∧
    metadata.promptTokenCount = 0 ∧ metadata.toolUsePromptTokenCount = 0 ∧
    metadata.thoughtsTokenCount = 0 ∧ metadata.cachedContentTokenCount = 0 ∧
    (∀ modality ∈ ["TEXT", "AUDIO"], tokensOf modality details = 0) ∧
    (∀ modality ∈ ["TEXT", "AUDIO", "IMAGE"],
      tokensOf modality metadata.candidatesTokensDetails = 0) ∧
    metadata.candidatesTokenCount = imageCount response.parts * 1400 ∧
    (imageCount response.parts = 0 →
      info.estimateTokenByModel (String.join (response.parts.map GeminiPart.text)) = 0)

section

variable {info response}

theorem promptTokens_nonneg {metadata : GeminiUsageMetadata} {fallback : Int}
    (h : metadata.Nonneg) : 0 ≤ promptTokens metadata fallback := by
  have hPrompt := h.prompt
  have hTool := h.toolUse
  simp only [promptTokens]
  split_ifs <;> omega

theorem geminiStreamHandler_of_pos (hTotal : response.usageMetadata.totalTokenCount ≠ 0)
    (hPos : 0 < (geminiChatHandler info response).completionTokens) :
    geminiStreamHandler info response = geminiChatHandler info response := by
  unfold geminiChatHandler at hPos
  have hNonzero := Int.ne_of_gt hPos
  have hPositive := Int.not_le.mpr hPos
  simp [geminiStreamHandler, geminiChatHandler, hTotal, hNonzero, hPositive]

theorem geminiStreamHandler_of_no_total (hTotal : response.usageMetadata.totalTokenCount = 0) :
    geminiStreamHandler info response =
      if imageCount response.parts = 0 then
        responseText2Usage info (String.join (response.parts.map GeminiPart.text))
      else { completionTokens := imageCount response.parts * 1400 } := by
  by_cases hImages : imageCount response.parts = 0
  · simp [geminiStreamHandler, hTotal, hImages]
  · have hPos : ¬(imageCount response.parts : Int) * 1400 ≤ 0 := by omega
    simp [geminiStreamHandler, hTotal, hImages, hPos]

/-- Where the prompt takes the whole total the two differ: the whole answer has the details of its
prompt. -/
theorem geminiStreamHandler_ne (hTotal : 0 < response.usageMetadata.totalTokenCount)
    (hZero : (geminiChatHandler info response).completionTokens = 0)
    (hPrompt : 0 < (geminiChatHandler info response).promptTokens) :
    geminiStreamHandler info response ≠ geminiChatHandler info response := by
  intro hEq
  have hTotalNe : response.usageMetadata.totalTokenCount ≠ 0 := by omega
  by_cases hImages : imageCount response.parts = 0
  · have hStream : (geminiStreamHandler info response).promptTokensDetails = {} := by
      unfold geminiChatHandler at hZero
      simp [geminiStreamHandler, hTotalNe, hImages, hZero, responseText2Usage]
    rw [hEq] at hStream
    have hText := congrArg TokenDetails.textTokens hStream
    have hAudio := congrArg TokenDetails.audioTokens hStream
    simp only [geminiChatHandler, buildUsageFromGeminiMetadata] at hText hAudio hPrompt
    split_ifs at hText <;> omega
  · have hCount := congrArg (fun usage => usage.completionTokens) hEq
    have hPos : ¬(imageCount response.parts : Int) * 1400 ≤ 0 := by omega
    unfold geminiChatHandler at hZero hCount
    simp [geminiStreamHandler, hTotalNe, hImages, hZero, hPos] at hCount

theorem whole_of_no_total_iff (h : response.usageMetadata.Nonneg)
    (hEstimate : 0 ≤ info.estimatePromptTokens)
    (hText : ∀ text, 0 ≤ info.estimateTokenByModel text)
    (hTotal : response.usageMetadata.totalTokenCount = 0) :
    geminiStreamHandler info response = geminiChatHandler info response ↔
      Unmetered info response := by
  have hTextNonneg := hText (String.join (response.parts.map GeminiPart.text))
  obtain ⟨hPrompt, hTool, hCandidates, hThoughts, _⟩ := h
  rw [geminiStreamHandler_of_no_total hTotal]
  simp only [geminiChatHandler, buildUsageFromGeminiMetadata, Unmetered, completionTokens,
    promptTokens, hTotal, List.forall_mem_cons, List.not_mem_nil, false_implies, implies_true,
    and_true, true_and]
  split
  all_goals
    rename_i hImages
    simp only [responseText2Usage, Usage.mk.injEq, TokenDetails.mk.injEq]
    constructor
    · rintro ⟨hP, hC, hT, ⟨hPText, hPAudio, _, _, hCached⟩, hCText, hCAudio, hCImage, hCThought, _⟩
      split_ifs at hP hC hPText <;> omega
    · rintro ⟨hE, hP, hTo, hTh, hCached, ⟨hPText, hPAudio⟩, ⟨hCText, hCAudio, hCImage⟩, hCand, hT⟩
      simp_all

end

/-- **A stream of one event has the usage of the whole answer**, and neither has a negative count,
exactly if the answer is metered, or has nothing to meter. -/
theorem usage_stream_eq_whole_iff (h : response.usageMetadata.Nonneg)
    (hEstimate : 0 ≤ info.estimatePromptTokens)
    (hText : ∀ text, 0 ≤ info.estimateTokenByModel text) :
    (geminiStreamHandler info response = geminiChatHandler info response ∧
      (∀ usage ∈ [geminiStreamHandler info response, geminiChatHandler info response],
        0 ≤ usage.promptTokens ∧ 0 ≤ usage.completionTokens)) ↔
      Metered info response.usageMetadata ∨ Unmetered info response := by
  have hPrompt : 0 ≤ (geminiChatHandler info response).promptTokens := promptTokens_nonneg h
  have hWhole : (geminiChatHandler info response).completionTokens =
      completionTokens response.usageMetadata (geminiChatHandler info response).promptTokens := rfl
  have hPromptEq : (geminiChatHandler info response).promptTokens =
      promptTokens response.usageMetadata info.estimatePromptTokens := rfl
  by_cases hTotal : response.usageMetadata.totalTokenCount = 0
  · have hMetered : ¬Metered info response.usageMetadata := fun hM => hM.1 hTotal
    rw [or_iff_right hMetered, ← whole_of_no_total_iff h hEstimate hText hTotal]
    refine and_iff_left_of_imp fun hEq => ?_
    have hCompletion : 0 ≤ (geminiChatHandler info response).completionTokens := by
      rw [hWhole, completionTokens, hTotal, if_neg (by omega)]
      exact Int.add_nonneg h.candidates h.thoughts
    simp [hEq, hPrompt, hCompletion]
  · have hUnmetered : ¬Unmetered info response := fun hU => hTotal hU.1
    have hTotalPos : 0 < response.usageMetadata.totalTokenCount := by
      have hNonneg := h.total
      omega
    have hMetered : Metered info response.usageMetadata ↔
        0 < (geminiChatHandler info response).completionTokens := by
      obtain ⟨hP, hTo, hC, hTh, hT⟩ := h
      rw [hWhole, hPromptEq, Metered, completionTokens, promptTokens]
      split_ifs <;> omega
    rw [or_iff_left hUnmetered, hMetered]
    constructor
    · rintro ⟨hEq, hCounts⟩
      have hNonneg := (hCounts (geminiChatHandler info response) (by simp)).2
      by_contra hNot
      have hZero : (geminiChatHandler info response).completionTokens = 0 := by omega
      refine geminiStreamHandler_ne hTotalPos hZero ?_ hEq
      rw [hWhole, hPromptEq, completionTokens] at hZero
      have hC := h.candidates
      have hTh := h.thoughts
      rw [hPromptEq]
      split_ifs at hZero <;> omega
    · intro hPos
      have hEq := geminiStreamHandler_of_pos hTotal hPos
      simp [hEq, hPrompt, Int.le_of_lt hPos]

def fiveTokens : RelayInfo := ⟨5, fun _ => 1⟩

def twoLeft : GeminiChatResponse := ⟨[], { promptTokenCount := 7, totalTokenCount := 9 }⟩

theorem usage_stream_eq_whole_counts :
    geminiStreamHandler fiveTokens twoLeft = geminiChatHandler fiveTokens twoLeft :=
  ((usage_stream_eq_whole_iff fiveTokens twoLeft ⟨by decide, by decide, by decide, by decide,
    by decide⟩ (by decide) (fun _ => Int.one_nonneg)).mpr
    (.inl ⟨by decide, .inr ⟨by decide, by decide⟩⟩)).1

def noTotal : GeminiChatResponse := ⟨[], { promptTokenCount := 7, candidatesTokenCount := 3 }⟩

/-- **Without a total a stream forgets the counts**, and a total below the prompt makes the whole
answer's completion negative. -/
theorem usage_without_total :
    (geminiChatHandler fiveTokens noTotal).completionTokens = 3 ∧
      (geminiStreamHandler fiveTokens noTotal).completionTokens = 1 ∧
      (geminiChatHandler fiveTokens
        ⟨[], { promptTokenCount := 7, totalTokenCount := 4 }⟩).completionTokens = -3 := by
  decide

end NewApi.Stream.GeminiUsage
