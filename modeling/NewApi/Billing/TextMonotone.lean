import Mathlib.Algebra.Order.BigOperators.GroupWithZero.List
import NewApi.Billing.TextQuota

/-!
# More tokens never cost less

What is reported of images, audio and the cache is subtracted from the prompt, and the base may get
negative.  The quota is monotone all the same: with a ratio it is the rounded amount or 1, whichever
is more (`quotaOfAmount_eq`).
-/

namespace NewApi.Billing

open Go

variable {cfg : ToolPrices} {info : TextInfo}

/-- Ratios, prices and surcharges are not negative, and the other ratios are positive. -/
structure NonnegPrices (cfg : ToolPrices) (info : TextInfo) : Prop where
  modelPrice : 0 ≤ info.price.modelPrice
  modelRatio : 0 ≤ info.price.modelRatio
  completionRatio : 0 ≤ info.price.completionRatio
  groupRatio : 0 ≤ info.price.groupRatio
  quotaPerUnit : 0 ≤ cfg.quotaPerUnit
  surcharge : 0 ≤ calculateTextToolCallSurcharge cfg info
  otherRatios : ∀ other ∈ info.price.otherRatios, 0 < other.2

section Amount

variable (h : NonnegPrices cfg info)
include h

theorem exists_factor :
    ∃ factor > 0, ∀ amount, withOtherRatios info amount = amount * factor := by
  refine ⟨(info.price.otherRatios.map Prod.snd).prod, List.prod_pos fun ratio hRatio => ?_,
    fun amount => ?_⟩
  · obtain ⟨other, hOther, rfl⟩ := List.mem_map.mp hRatio
    exact h.otherRatios other hOther
  unfold withOtherRatios
  induction info.price.otherRatios generalizing amount with
  | nil => simp
  | cons other rest ih => rw [List.foldl_cons, ih, List.map_cons, List.prod_cons, mul_assoc]

theorem textAmount_mono (t : TextTokens) {prompt completion : Int} (total : Int)
    (hPrompt : t.promptTokens ≤ prompt) (hCompletion : t.completionTokens ≤ completion) :
    textAmount cfg info t ≤ textAmount cfg info { t with
      promptTokens := prompt, completionTokens := completion, totalTokens := total } := by
  obtain ⟨factor, hFactor, hOther⟩ := exists_factor h
  let more : TextTokens := { t with
    promptTokens := prompt, completionTokens := completion, totalTokens := total }
  have hBase : promptQuota cfg info more - prompt = promptQuota cfg info t - t.promptTokens := by
    have hSeparate : more.Separate = t.Separate := rfl
    have hCreation :
      cachedCreationTokensWithRatio info more = cachedCreationTokensWithRatio info t := rfl
    simp only [promptQuota, audioInputPrice, hSeparate, hCreation]
    dsimp only [more]
    split_ifs <;> ring
  have hMore : (t.promptTokens : ℚ) ≤ prompt := Int.cast_le.mpr hPrompt
  have hWritten : (t.completionTokens : ℚ) * info.price.completionRatio ≤
      completion * info.price.completionRatio :=
    mul_le_mul_of_nonneg_right (Int.cast_le.mpr hCompletion) h.completionRatio
  have hTokens : textTokenAmount cfg info t ≤ textTokenAmount cfg info more := by
    refine mul_le_mul_of_nonneg_right ?_ (mul_nonneg h.modelRatio h.groupRatio)
    dsimp only [more] at hBase ⊢
    linarith
  unfold textAmount
  split
  · exact le_rfl
  · rw [hOther, hOther]
    refine mul_le_mul_of_nonneg_right ?_ (le_of_lt hFactor)
    exact add_le_add_left (add_le_add_left hTokens _) (audioInputQuota cfg info t)

theorem textAmount_nonneg {t : TextTokens} (hAudio : 0 ≤ t.audioTokens)
    (hNone : info.price.usePrice = true ∨ info.price.modelRatio * info.price.groupRatio = 0) :
    0 ≤ textAmount cfg info t := by
  obtain ⟨factor, hFactor, hOther⟩ := exists_factor h
  have hSurcharge := h.surcharge
  unfold textAmount
  rw [hOther, hOther]
  split
  · have hPrice := mul_nonneg (mul_nonneg h.modelPrice h.quotaPerUnit) h.groupRatio
    positivity
  · next hRatio =>
    have hQuota : 0 ≤ audioInputQuota cfg info t := by
      have hGroup := h.groupRatio
      have hUnit := h.quotaPerUnit
      unfold audioInputQuota
      split <;> positivity
    rw [textTokenAmount, hNone.resolve_left hRatio, mul_zero, zero_add]
    positivity

end Amount

theorem quotaOfAmount_eq (t : TextTokens) {amount : ℚ}
    (hAmount : info.price.usePrice = true ∨ info.price.modelRatio * info.price.groupRatio = 0 →
      0 ≤ amount) :
    quotaOfAmount info t amount =
      if t.totalTokens = 0 then 0
      else if info.price.modelRatio * info.price.groupRatio ≠ 0 then max 1 (Decimal.round amount)
      else Decimal.round amount := by
  unfold quotaOfAmount
  by_cases hTotal : t.totalTokens = 0
  · rw [if_pos hTotal, if_pos hTotal]
  rw [if_neg hTotal, if_neg hTotal]
  by_cases hRatio : info.price.modelRatio * info.price.groupRatio = 0
  · simp [hRatio]
  rw [if_pos hRatio]
  by_cases hNeg : amount ≤ 0
  · have hRound : Decimal.round amount ≤ 0 := Decimal.round_zero ▸ Decimal.round_mono hNeg
    have hClamp : (if ¬info.price.usePrice ∧ info.price.modelRatio * info.price.groupRatio ≠ 0 ∧
        amount ≤ 0 then 1 else amount) = if info.price.usePrice then 0 else 1 := by
      by_cases hPrice : info.price.usePrice = true
      · simp [hPrice, le_antisymm hNeg (hAmount (.inl hPrice))]
      · simp [hPrice, hRatio, hNeg]
    rw [hClamp, max_eq_left (by omega)]
    cases info.price.usePrice <;> simp [hRatio] <;> decide +kernel
  · have hRound := Decimal.round_nonneg (le_of_not_ge hNeg)
    simp only [hNeg, and_false, if_false, hRatio, ne_eq, not_false_eq_true, true_and]
    split <;> omega

def quotaOf (cfg : ToolPrices) (info : TextInfo) (usage : TextUsage) : Int :=
  (calculateTextQuotaSummary cfg info (some usage)).2

theorem quotaOf_eq (h : NonnegPrices cfg info) (hChannel : info.openRouter = false)
    (usage : TextUsage) (hAudio : 0 ≤ usage.promptTokensDetails.audioTokens) :
    quotaOf cfg info usage =
      if usage.promptTokens + usage.completionTokens = 0 then 0
      else if info.price.modelRatio * info.price.groupRatio ≠ 0 then
        max 1 (Decimal.round (textAmount cfg info (plainTokens info usage)))
      else Decimal.round (textAmount cfg info (plainTokens info usage)) := by
  rw [quotaOf, calculateTextQuotaSummary, textTokens_of_not_openRouter hChannel]
  exact quotaOfAmount_eq _ (textAmount_nonneg h hAudio)

def halfRatio : TextInfo :=
  ⟨"claude", 0, false, false, none, 0, none,
    ⟨0, 1 / 2, 1, 1 / 10, 5 / 4, 5 / 4, 2, 1, [], false, 1⟩⟩

def noPrices : ToolPrices := ⟨fun _ _ => 0, fun _ _ => 0, fun _ => 0, fun _ => none, 500000⟩

end NewApi.Billing
