import NewApi.Go.Decimal
import NewApi.Go.Strings
import NewApi.Upstream.Usage

/-!
# What a text request costs

`calculateTextQuotaSummary`. With a ratio, every category of tokens has a ratio of its own; with a
price, the tokens only decide whether anything is charged.  Decimals are rational numbers; the
package keeps sixteen digits of a quotient.
-/

namespace NewApi.Billing

open Go Upstream

structure TextPrice where
  modelPrice : ℚ
  modelRatio : ℚ
  completionRatio : ℚ
  cacheRatio : ℚ
  cacheCreationRatio : ℚ
  cacheCreation5mRatio : ℚ
  cacheCreation1hRatio : ℚ
  imageRatio : ℚ
  otherRatios : List (String × ℚ)
  usePrice : Bool
  groupRatio : ℚ

def TextPrice.addOtherRatio (price : TextPrice) (key : String) (ratio : ℚ) : TextPrice :=
  if ratio ≤ 0 then price
  else
    { price with
      otherRatios := (key, ratio) :: price.otherRatios.filter fun other => other.1 ≠ key }

structure ToolPrices where
  getToolPriceForModel : String → String → ℚ
  getGPTImage1PriceOnceCall : String → String → ℚ
  getGeminiInputAudioPricePerMillionTokens : String → ℚ
  defaultModelRatio : String → Option ℚ
  quotaPerUnit : ℚ

structure TextInfo where
  originModelName : String
  estimatePromptTokens : Int
  /-- The format of the request to the upstream is that of Claude. -/
  claudeFormat : Bool
  openRouter : Bool
  /-- The calls of each built-in tool, for requests with `ResponsesUsageInfo`. -/
  builtInTools : Option (String → Int)
  claudeWebSearchRequests : Int
  /-- Quality and size of an image generation call. -/
  imageGenerationCall : Option (String × String)
  price : TextPrice

/-- `dto.Usage` with the fields that only the settlement reads.  A cost that is no float is 0. -/
structure TextUsage extends Usage where
  usageSource : String
  cost : ℚ

def TextUsage.estimated (info : TextInfo) : TextUsage :=
  { Usage.ofTokens info.estimatePromptTokens 0 with usageSource := "", cost := 0 }

/-! ## Whose semantics -/

def usageSemanticFromUsage (info : TextInfo) (usage : Option TextUsage) : String :=
  match usage with
  | some u => if u.usageSemantic ≠ "" then u.usageSemantic
    else if info.claudeFormat then "anthropic" else "openai"
  | none => if info.claudeFormat then "anthropic" else "openai"

def isLegacyClaudeDerivedOpenAIUsage (info : TextInfo) (usage : TextUsage) : Bool :=
  if info.claudeFormat then false
  else if usage.usageSource ≠ "" ∨ usage.usageSemantic ≠ "" then false
  else usage.claudeCacheCreation5mTokens > 0 ∨ usage.claudeCacheCreation1hTokens > 0

/-! ## Surcharges -/

variable (cfg : ToolPrices) (info : TextInfo)

def webSearchSurcharge : ℚ :=
  let price := cfg.getToolPriceForModel "web_search_preview" info.originModelName
  match info.builtInTools with
  | some callCount =>
    if callCount "web_search_preview" > 0 then
      price * callCount "web_search_preview" / 1000 * info.price.groupRatio * cfg.quotaPerUnit
    else 0
  | none =>
    if hasSuffix info.originModelName "search-preview" then
      price / 1000 * info.price.groupRatio * cfg.quotaPerUnit
    else 0

def claudeWebSearchSurcharge : ℚ :=
  if info.claudeWebSearchRequests > 0 then
    cfg.getToolPriceForModel "web_search" "" / 1000 * info.price.groupRatio * cfg.quotaPerUnit *
      info.claudeWebSearchRequests
  else 0

def fileSearchSurcharge : ℚ :=
  match info.builtInTools with
  | some callCount =>
    if callCount "file_search" > 0 then
      cfg.getToolPriceForModel "file_search" "" * callCount "file_search" / 1000 *
        info.price.groupRatio * cfg.quotaPerUnit
    else 0
  | none => 0

def imageGenerationSurcharge : ℚ :=
  match info.imageGenerationCall with
  | some (quality, size) =>
    cfg.getGPTImage1PriceOnceCall quality size * info.price.groupRatio * cfg.quotaPerUnit
  | none => 0

def calculateTextToolCallSurcharge : ℚ :=
  webSearchSurcharge cfg info + claudeWebSearchSurcharge cfg info + fileSearchSurcharge cfg info +
    imageGenerationSurcharge cfg info

/-! ## Tokens -/

structure TextTokens where
  promptTokens : Int
  completionTokens : Int
  totalTokens : Int
  cacheTokens : Int
  cacheCreationTokens : Int
  cacheCreationTokens5m : Int
  cacheCreationTokens1h : Int
  imageTokens : Int
  audioTokens : Int
  isClaudeUsageSemantic : Bool
  legacyClaudeDerived : Bool
  deriving DecidableEq, Repr

def hasCustomModelRatio (modelName : String) (currentRatio : ℚ) : Bool :=
  match cfg.defaultModelRatio modelName with
  | none => true
  | some defaultRatio => currentRatio ≠ defaultRatio

/-- Where the source divides by zero, its caller takes over nothing; here the result is 0. -/
def calcOpenRouterCacheCreateTokens (usage : TextUsage) : Int :=
  if info.price.cacheCreationRatio = 1 then 0
  else
    let quotaPrice := info.price.modelRatio / cfg.quotaPerUnit
    let promptCacheCreatePrice := quotaPrice * info.price.cacheCreationRatio
    let promptCacheReadPrice := quotaPrice * info.price.cacheRatio
    let completionPrice := quotaPrice * info.price.completionRatio
    Decimal.round ((usage.cost - usage.promptTokens * quotaPrice +
      usage.promptTokensDetails.cachedTokens * (quotaPrice - promptCacheReadPrice) -
      usage.completionTokens * completionPrice) / (promptCacheCreatePrice - quotaPrice))

/-- OpenRouter reports totals for Claude, and no tokens written to the cache.  The source asks for a
cost that is not 0; this is the case of such a usage. -/
def openRouterClaude (usage : TextUsage) (t : TextTokens) : TextTokens :=
  let t := { t with promptTokens := t.promptTokens - t.cacheTokens }
  let isUsingCustomSettings :=
    info.price.usePrice || hasCustomModelRatio cfg info.originModelName info.price.modelRatio
  let t :=
    if t.cacheCreationTokens = 0 ∧ info.price.cacheCreationRatio ≠ 1 ∧ ¬isUsingCustomSettings then
      let maybe := calcOpenRouterCacheCreateTokens cfg info usage
      if maybe ≥ 0 ∧ t.promptTokens ≥ maybe then { t with cacheCreationTokens := maybe } else t
    else t
  { t with promptTokens := t.promptTokens - t.cacheCreationTokens }

def reportedTokens (semantic : String) (usage : TextUsage) : TextTokens where
  promptTokens := usage.promptTokens
  completionTokens := usage.completionTokens
  totalTokens := usage.promptTokens + usage.completionTokens
  cacheTokens := usage.promptTokensDetails.cachedTokens
  cacheCreationTokens := usage.promptTokensDetails.cachedCreationTokens
  cacheCreationTokens5m := usage.claudeCacheCreation5mTokens
  cacheCreationTokens1h := usage.claudeCacheCreation1hTokens
  imageTokens := usage.promptTokensDetails.imageTokens
  audioTokens := usage.promptTokensDetails.audioTokens
  isClaudeUsageSemantic := semantic = "anthropic"
  legacyClaudeDerived := isLegacyClaudeDerivedOpenAIUsage info usage

def textTokens (usage : Option TextUsage) : TextTokens :=
  let semantic := usageSemanticFromUsage info usage
  let usage := usage.getD (TextUsage.estimated info)
  let t := reportedTokens info semantic usage
  if info.openRouter ∧ t.isClaudeUsageSemantic then openRouterClaude cfg info usage t else t

/-! ## Amounts -/

def TextTokens.Separate (t : TextTokens) : Prop := ¬t.isClaudeUsageSemantic ∧ ¬t.legacyClaudeDerived

instance (t : TextTokens) : Decidable t.Separate := inferInstanceAs (Decidable (_ ∧ _))

def audioInputPrice (t : TextTokens) : ℚ :=
  if t.audioTokens ≠ 0 then cfg.getGeminiInputAudioPricePerMillionTokens info.originModelName else 0

def audioInputQuota (t : TextTokens) : ℚ :=
  if audioInputPrice cfg info t > 0 then
    audioInputPrice cfg info t / 1000000 * t.audioTokens * info.price.groupRatio * cfg.quotaPerUnit
  else 0

def cachedCreationTokensWithRatio (t : TextTokens) : ℚ :=
  if t.cacheCreationTokens ≠ 0 ∨ t.cacheCreationTokens5m > 0 ∨ t.cacheCreationTokens1h > 0 then
    if t.Separate then t.cacheCreationTokens * info.price.cacheCreationRatio
    else
      let remaining := t.cacheCreationTokens - t.cacheCreationTokens5m - t.cacheCreationTokens1h
      let remaining := if remaining < 0 then 0 else remaining
      remaining * info.price.cacheCreationRatio +
        t.cacheCreationTokens5m * info.price.cacheCreation5mRatio +
        t.cacheCreationTokens1h * info.price.cacheCreation1hRatio
  else 0

def promptQuota (t : TextTokens) : ℚ :=
  let baseTokens : ℚ := t.promptTokens
  let baseTokens := if t.cacheTokens ≠ 0 ∧ t.Separate then baseTokens - t.cacheTokens else baseTokens
  let cachedTokensWithRatio :=
    if t.cacheTokens ≠ 0 then t.cacheTokens * info.price.cacheRatio else 0
  let baseTokens :=
    if (t.cacheCreationTokens ≠ 0 ∨ t.cacheCreationTokens5m > 0 ∨ t.cacheCreationTokens1h > 0) ∧
      t.Separate then baseTokens - t.cacheCreationTokens else baseTokens
  let baseTokens := if t.imageTokens ≠ 0 then baseTokens - t.imageTokens else baseTokens
  let imageTokensWithRatio :=
    if t.imageTokens ≠ 0 then t.imageTokens * info.price.imageRatio else 0
  let baseTokens :=
    if audioInputPrice cfg info t > 0 then baseTokens - t.audioTokens else baseTokens
  baseTokens + cachedTokensWithRatio + imageTokensWithRatio + cachedCreationTokensWithRatio info t

def textTokenAmount (t : TextTokens) : ℚ :=
  (promptQuota cfg info t + t.completionTokens * info.price.completionRatio) *
    (info.price.modelRatio * info.price.groupRatio)

def withOtherRatios (amount : ℚ) : ℚ :=
  info.price.otherRatios.foldl (fun amount other => amount * other.2) amount

def textAmount (t : TextTokens) : ℚ :=
  if info.price.usePrice then
    withOtherRatios info (info.price.modelPrice * cfg.quotaPerUnit * info.price.groupRatio +
      calculateTextToolCallSurcharge cfg info)
  else
    withOtherRatios info (textTokenAmount cfg info t + calculateTextToolCallSurcharge cfg info +
      audioInputQuota cfg info t)

def quotaOfAmount (t : TextTokens) (amount : ℚ) : Int :=
  let ratio := info.price.modelRatio * info.price.groupRatio
  let amount := if ¬info.price.usePrice ∧ ratio ≠ 0 ∧ amount ≤ 0 then 1 else amount
  let quota := Decimal.round amount
  if t.totalTokens = 0 then 0 else if ratio ≠ 0 ∧ quota = 0 then 1 else quota

def calculateTextQuotaSummary (usage : Option TextUsage) : TextTokens × Int :=
  let t := textTokens cfg info usage
  (t, quotaOfAmount info t (textAmount cfg info t))

abbrev plainTokens (usage : TextUsage) : TextTokens :=
  reportedTokens info (usageSemanticFromUsage info (some usage)) usage

theorem exists_textTokens (usage : TextUsage) :
    ∃ prompt created, textTokens cfg info (some usage) =
      { plainTokens info usage with
        promptTokens := prompt, cacheCreationTokens := created } := by
  unfold textTokens
  dsimp only
  split
  · unfold openRouterClaude
    dsimp only
    split
    · split <;> exact ⟨_, _, rfl⟩
    · exact ⟨_, _, rfl⟩
  · exact ⟨_, _, rfl⟩

variable {cfg info}

theorem textTokens_of_not_openRouter (hChannel : info.openRouter = false) (usage : TextUsage) :
    textTokens cfg info (some usage) = plainTokens info usage :=
  if_neg fun hBoth => absurd hBoth.1 (by simp [hChannel])

/-! ## Requests without audio and with the totals of OpenAI -/

theorem ite_ne_zero_mul (tokens : Int) (ratio : ℚ) :
    (if tokens ≠ 0 then (tokens : ℚ) * ratio else 0) = tokens * ratio := by
  by_cases h : tokens = 0
  · rw [if_neg (not_not.mpr h), h, Int.cast_zero, zero_mul]
  · rw [if_pos h]

theorem ite_ne_zero_sub (total : ℚ) (tokens : Int) :
    (if tokens ≠ 0 then total - tokens else total) = total - tokens := by
  by_cases h : tokens = 0
  · rw [if_neg (not_not.mpr h), h, Int.cast_zero, sub_zero]
  · rw [if_pos h]

theorem not_audioInputPrice_pos {t : TextTokens} (hAudio : t.audioTokens = 0) :
    ¬audioInputPrice cfg info t > 0 := by
  rw [audioInputPrice, if_neg (not_not.mpr hAudio)]
  exact lt_irrefl 0

theorem textAmount_eq_textTokenAmount {t : TextTokens} (hPrice : info.price.usePrice = false)
    (hOther : info.price.otherRatios = []) (hAudio : t.audioTokens = 0)
    (hNone : calculateTextToolCallSurcharge cfg info = 0) :
    textAmount cfg info t = textTokenAmount cfg info t := by
  rw [textAmount, if_neg (by rw [hPrice]; decide), withOtherRatios, hOther, List.foldl_nil, hNone,
    audioInputQuota, if_neg (not_audioInputPrice_pos hAudio), add_zero, add_zero]

theorem promptQuota_of_separate {t : TextTokens} (hSeparate : t.Separate) (hAudio : t.audioTokens = 0)
    (h5m : t.cacheCreationTokens5m = 0) (h1h : t.cacheCreationTokens1h = 0) :
    promptQuota cfg info t =
      (t.promptTokens - t.cacheTokens - t.cacheCreationTokens - t.imageTokens) +
        t.cacheTokens * info.price.cacheRatio + t.imageTokens * info.price.imageRatio +
        t.cacheCreationTokens * info.price.cacheCreationRatio := by
  have hWritten : (t.cacheCreationTokens ≠ 0 ∨ t.cacheCreationTokens5m > 0 ∨
      t.cacheCreationTokens1h > 0) ↔ t.cacheCreationTokens ≠ 0 := by omega
  simp only [promptQuota, cachedCreationTokensWithRatio, hWritten, hSeparate, and_true, if_true,
    if_neg (not_audioInputPrice_pos hAudio), ite_ne_zero_sub, ite_ne_zero_mul]

end NewApi.Billing
