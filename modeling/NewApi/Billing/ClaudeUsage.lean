import NewApi.Billing.TextMonotone
import NewApi.Tiered.UsedVars

/-!
# The usage of Claude, billed in two ways

Claude reports the tokens written to its cache as a total and split by duration.  Ratio billing
prices the split and what the total has beyond it; tiered billing reads the split alone.
-/

namespace NewApi.Billing

open Upstream

def TextTokens.remaining (t : TextTokens) : Int :=
  max 0 (t.cacheCreationTokens - t.cacheCreationTokens5m - t.cacheCreationTokens1h)

/-- **Both kinds of billing price the same tokens of the cache** where the split covers the total,
which is the one reported, or for OpenRouter the one derived from the cost. -/
theorem tiered_cacheCreation_iff (cfg : ToolPrices) (info : TextInfo) (usage : TextUsage)
    (usedVars : Option (Finset String)) (hSemantic : usage.usageSemantic = "anthropic") :
    let t := textTokens cfg info (some usage)
    let params := Tiered.buildTieredTokenParams usage.toUsage t.isClaudeUsageSemantic usedVars
    let created := t.remaining + t.cacheCreationTokens5m + t.cacheCreationTokens1h
    (params.cc + params.cc1h = created ∧ params.len =
        usage.promptTokens + usage.promptTokensDetails.cachedTokens + created) ↔
      t.cacheCreationTokens ≤ t.cacheCreationTokens5m + t.cacheCreationTokens1h := by
  obtain ⟨prompt, total, hTokens⟩ := exists_textTokens cfg info usage
  have hClaude : usageSemanticFromUsage info (some usage) = "anthropic" := by
    simp [usageSemanticFromUsage, hSemantic]
  simp only [hTokens, hClaude, reportedTokens, Tiered.buildTieredTokenParams, hSemantic,
    TextTokens.remaining, decide_true, if_true]
  omega

def cachedUsage (hour : Int) : TextUsage :=
  ⟨⟨10, 5, "anthropic", ⟨0, 100, 0, 0⟩, ⟨0, 0⟩, 0, hour⟩, "", 0⟩

theorem tiered_cacheCreation_split :
    (Tiered.buildTieredTokenParams (cachedUsage 100).toUsage true none).len = 110 :=
  ((tiered_cacheCreation_iff noPrices halfRatio (cachedUsage 100) none rfl).mpr
    (by decide +kernel)).2

/-- **An upstream that does not split the total**: nothing of it is in the tiered parameters. -/
theorem tiered_misses_unsplit :
    (Tiered.buildTieredTokenParams (cachedUsage 0).toUsage true none).cc +
        (Tiered.buildTieredTokenParams (cachedUsage 0).toUsage true none).cc1h = 0 ∧
      (textTokens noPrices halfRatio (some (cachedUsage 0))).remaining = 100 := by
  decide +kernel

end NewApi.Billing
