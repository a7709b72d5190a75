import NewApi.Billing.TextQuota
import NewApi.Tiered.UsedVars

/-!
# Ratios as billing expressions

The path of an expression takes a category off the prompt if the expression uses its variable; the
other takes off every category and adds it again with its ratio, 1 if it has none.
-/

namespace NewApi.Tiered

open Billing Upstream List

/-! ## Expressions of sums and products -/

inductive PriceExpr where
  | number (value : ℚ)
  | var (name : String)
  | add (left right : PriceExpr)
  | mul (left right : PriceExpr)

namespace PriceExpr

def run (env : String → ℚ) : PriceExpr → ℚ
  | .number value => value
  | .var name => env name
  | .add left right => left.run env + right.run env
  | .mul left right => left.run env * right.run env

def node : PriceExpr → Node
  | .number _ => .other []
  | .var name => .identifier name
  | .add left right => .other [left.node, right.node]
  | .mul left right => .other [left.node, right.node]

def term (coefficient : ℚ) (name : String) : PriceExpr := .mul (.number coefficient) (.var name)

end PriceExpr

def TokenParams.env (t : TokenParams) : String → ℚ
  | "p" => t.p
  | "c" => t.c
  | "len" => t.len
  | "cr" => t.cr
  | "cc" => t.cc
  | "cc1h" => t.cc1h
  | "img" => t.img
  | "img_o" => t.imgO
  | "ai" => t.ai
  | "ao" => t.ao
  | _ => 0

def categories : List String := ["cr", "cc", "img"]

/-- `a * p + a * k * c`, and `a * r v * v` for each of the categories in `U`. -/
def linearExpr (a k : ℚ) (r : String → ℚ) (U : Finset String) : PriceExpr :=
  (categories.filter fun v => v ∈ U).foldl (fun e v => e.add (.term (a * r v) v))
    (.add (.term a "p") (.term (a * k) "c"))

/-- The same prices as ratios: 1 for a category that is not in `U`. -/
structure RatioPrice (price : TextPrice) (a k : ℚ) (r : String → ℚ) (U : Finset String) : Prop where
  modelRatio : price.modelRatio = a
  completionRatio : price.completionRatio = k
  cacheRatio : price.cacheRatio = if "cr" ∈ U then r "cr" else 1
  cacheCreationRatio : price.cacheCreationRatio = if "cc" ∈ U then r "cc" else 1
  imageRatio : price.imageRatio = if "img" ∈ U then r "img" else 1
  groupRatio : price.groupRatio = 1
  usePrice : price.usePrice = false
  otherRatios : price.otherRatios = []

/-- A usage with the totals of OpenAI, without audio and image output, whose categories fit into
the prompt. -/
structure PlainUsage (info : TextInfo) (usage : TextUsage) : Prop where
  semantic : usageSemanticFromUsage info (some usage) ≠ "anthropic"
  no5m : usage.claudeCacheCreation5mTokens = 0
  no1h : usage.claudeCacheCreation1hTokens = 0
  noAudioIn : usage.promptTokensDetails.audioTokens = 0
  noAudioOut : usage.completionTokenDetails.audioTokens = 0
  noImageOut : usage.completionTokenDetails.imageTokens = 0
  completion : 0 ≤ usage.completionTokens
  cached : 0 ≤ usage.promptTokensDetails.cachedTokens
  created : 0 ≤ usage.promptTokensDetails.cachedCreationTokens
  image : 0 ≤ usage.promptTokensDetails.imageTokens
  fits : usage.promptTokensDetails.cachedTokens + usage.promptTokensDetails.cachedCreationTokens +
    usage.promptTokensDetails.imageTokens ≤ usage.promptTokens

/-! ## The value of the expression -/

theorem run_foldl_add (env : String → ℚ) (f : String → PriceExpr) (vs : List String)
    (e : PriceExpr) :
    (vs.foldl (fun e v => e.add (f v)) e).run env =
      e.run env + (vs.map fun v => (f v).run env).sum := by
  induction vs generalizing e with
  | nil => exact (add_zero _).symm
  | cons v vs ih =>
    rw [foldl_cons, ih, map_cons, sum_cons, PriceExpr.run, add_assoc]

theorem sum_map_filter (U : Finset String) (f : String → ℚ) (vs : List String) :
    ((vs.filter fun v => v ∈ U).map f).sum = (vs.map fun v => if v ∈ U then f v else 0).sum := by
  induction vs with
  | nil => rfl
  | cons v vs ih =>
    by_cases hv : v ∈ U
    · rw [filter_cons_of_pos (by simpa using hv), map_cons, sum_cons, ih, map_cons, sum_cons,
        if_pos hv]
    · rw [filter_cons_of_neg (by simpa using hv), ih, map_cons, sum_cons, if_neg hv, zero_add]

theorem linearExpr_run (a k : ℚ) (r : String → ℚ) (U : Finset String) (t : TokenParams) :
    (linearExpr a k r U).run t.env = a * t.p + a * k * t.c +
      ((if "cr" ∈ U then a * r "cr" * t.cr else 0) + ((if "cc" ∈ U then a * r "cc" * t.cc else 0) +
        (if "img" ∈ U then a * r "img" * t.img else 0))) := by
  unfold linearExpr
  rw [run_foldl_add, sum_map_filter]
  simp [categories, PriceExpr.run, PriceExpr.term, TokenParams.env]

/-! ## The variables of the expression -/

theorem mem_usedVars_other {name : String} {l r : Node} :
    name ∈ (Node.other [l, r]).usedVars ↔ name ∈ l.usedVars ∨ name ∈ r.usedVars := by
  simp only [Node.mem_usedVars]
  constructor
  · intro h
    cases h with
    | child hMem hOccurs =>
      rcases mem_pair.mp hMem with rfl | rfl
      · exact .inl hOccurs
      · exact .inr hOccurs
  · rintro (h | h)
    · exact .child (mem_cons_self ..) h
    · exact .child (mem_cons_of_mem _ (mem_singleton_self _)) h

theorem mem_usedVars_term {name : String} (coefficient : ℚ) (v : String) :
    name ∈ (PriceExpr.term coefficient v).node.usedVars ↔ name = v := by
  rw [PriceExpr.term, PriceExpr.node, mem_usedVars_other]
  simp [PriceExpr.node, Node.usedVars, Node.walk, Node.walkAll, Node.identifier?]

theorem mem_usedVars_foldl {name : String} (f : String → ℚ) (vs : List String) (e : PriceExpr) :
    name ∈ (vs.foldl (fun e v => e.add (.term (f v) v)) e).node.usedVars ↔
      name ∈ e.node.usedVars ∨ name ∈ vs := by
  induction vs generalizing e with
  | nil => simp
  | cons v vs ih =>
    rw [foldl_cons, ih, PriceExpr.node, mem_usedVars_other, mem_usedVars_term, mem_cons, or_assoc]

theorem mem_usedVars_linearExpr (a k : ℚ) (r : String → ℚ) (U : Finset String) {v : String}
    (hv : v ∈ categories) : v ∈ (linearExpr a k r U).node.usedVars ↔ v ∈ U := by
  have hPC : v ≠ "p" ∧ v ≠ "c" := by
    simp only [categories, mem_cons, not_mem_nil, or_false] at hv
    rcases hv with rfl | rfl | rfl <;> decide
  rw [linearExpr, mem_usedVars_foldl, PriceExpr.node, mem_usedVars_other, mem_usedVars_term,
    mem_usedVars_term, mem_filter, decide_eq_true_iff]
  constructor
  · rintro ((hP | hC) | ⟨-, hU⟩)
    · exact absurd hP hPC.1
    · exact absurd hC hPC.2
    · exact hU
  · exact fun hU => .inr ⟨hv, hU⟩

/-! ## Both paths -/

variable {cfg : ToolPrices} {info : TextInfo} {usage : TextUsage}

section

variable (h : PlainUsage info usage)
include h

theorem PlainUsage.textTokens :
    textTokens cfg info (some usage) =
      reportedTokens info (usageSemanticFromUsage info (some usage)) usage := by
  have hClaude : ¬(reportedTokens info (usageSemanticFromUsage info (some usage))
      usage).isClaudeUsageSemantic = true := fun hTrue => h.semantic (of_decide_eq_true hTrue)
  exact if_neg fun hBoth => hClaude hBoth.2

theorem PlainUsage.separate :
    (reportedTokens info (usageSemanticFromUsage info (some usage)) usage).Separate := by
  refine ⟨fun hTrue => h.semantic (of_decide_eq_true hTrue), fun hLegacy => ?_⟩
  simp [reportedTokens, isLegacyClaudeDerivedOpenAIUsage, h.no5m, h.no1h] at hLegacy

theorem PlainUsage.textTokenAmount {a k : ℚ} {r : String → ℚ} {U : Finset String}
    (hPrice : RatioPrice info.price a k r U) :
    textTokenAmount cfg info (Billing.textTokens cfg info (some usage)) =
      let d := usage.promptTokensDetails
      a * (usage.promptTokens - (if "cr" ∈ U then (d.cachedTokens : ℚ) else 0) -
        (if "cc" ∈ U then (d.cachedCreationTokens : ℚ) else 0) -
        (if "img" ∈ U then (d.imageTokens : ℚ) else 0)) + a * k * usage.completionTokens +
      ((if "cr" ∈ U then a * r "cr" * d.cachedTokens else 0) +
        ((if "cc" ∈ U then a * r "cc" * d.cachedCreationTokens else 0) +
          (if "img" ∈ U then a * r "img" * d.imageTokens else 0))) := by
  rw [h.textTokens, Billing.textTokenAmount,
    promptQuota_of_separate h.separate h.noAudioIn h.no5m h.no1h, hPrice.modelRatio,
    hPrice.completionRatio, hPrice.cacheRatio, hPrice.cacheCreationRatio, hPrice.imageRatio,
    hPrice.groupRatio]
  simp only [reportedTokens]
  split <;> split <;> split <;> ring

theorem PlainUsage.usageSemantic_ne :
    usage.usageSemantic ≠ "anthropic" := by
  intro hEq
  apply h.semantic
  simp only [usageSemanticFromUsage, hEq]
  rw [if_pos (by decide)]

theorem PlainUsage.tokenParams {U : Finset String} {vars : Option (Finset String)}
    (hVars : ∀ v ∈ categories, v ∈ varsOf vars ↔ v ∈ U) :
    let t := buildTieredTokenParams usage.toUsage false vars
    let d := usage.promptTokensDetails
    t.p = usage.promptTokens - (if "cr" ∈ U then d.cachedTokens else 0) -
        (if "cc" ∈ U then d.cachedCreationTokens else 0) - (if "img" ∈ U then d.imageTokens else 0) ∧
      t.c = usage.completionTokens ∧ t.cr = d.cachedTokens ∧ t.cc = d.cachedCreationTokens ∧
      t.img = d.imageTokens := by
  intro t d
  have hCreated : t.cc = d.cachedCreationTokens ∧ t.cc1h = 0 := by
    simp only [t, buildTieredTokenParams, if_neg h.usageSemantic_ne]
    exact ⟨rfl, trivial⟩
  have hCr : "cr" ∈ varsOf vars ↔ "cr" ∈ U := hVars _ (by decide)
  have hCc : "cc" ∈ varsOf vars ↔ "cc" ∈ U := hVars _ (by decide)
  have hImg : "img" ∈ varsOf vars ↔ "img" ∈ U := hVars _ (by decide)
  have hAudio : t.ai = 0 ∧ t.ao = 0 ∧ t.imgO = 0 := ⟨h.noAudioIn, h.noAudioOut, h.noImageOut⟩
  obtain ⟨hP, hC⟩ := buildTieredTokenParams_totals usage.toUsage vars
  have hNil : priced (varsOf vars) [] = 0 := rfl
  -- What is subtracted are the categories in `U`; the others are not there.
  simp only [TokenParams.inputs, priced_cons, hNil, hCr, hCc, hImg, hAudio.1, hCreated.1,
    hCreated.2, ite_self, t] at hP
  simp only [TokenParams.outputs, priced_cons, hNil, hAudio.2.1, hAudio.2.2, t] at hC
  have hFits : d.cachedTokens + d.cachedCreationTokens + d.imageTokens ≤ usage.promptTokens := h.fits
  have hCached : 0 ≤ d.cachedTokens := h.cached
  have hWritten : 0 ≤ d.cachedCreationTokens := h.created
  have hImage : 0 ≤ d.imageTokens := h.image
  have hCompletion := h.completion
  refine ⟨?_, ?_, rfl, hCreated.1, rfl⟩
  · have hP' : t.p = max 0 (usage.promptTokens - ((if "cr" ∈ U then d.cachedTokens else 0) +
        ((if "cc" ∈ U then d.cachedCreationTokens else 0) +
          (0 + ((if "img" ∈ U then d.imageTokens else 0) + (0 + 0)))))) := hP
    rw [hP']
    split <;> split <;> split <;> omega
  · rw [show t.c = _ from hC]
    omega

end

/-- **Both paths agree** on a usage with the totals of OpenAI, for the prices of a linear
expression. -/
theorem linearExpr_parity (cfg : ToolPrices) (info : TextInfo) (usage : TextUsage) (a k : ℚ)
    (r : String → ℚ) (U : Finset String) (hPrice : RatioPrice info.price a k r U)
    (h : PlainUsage info usage) :
    (∀ v ∈ categories, v ∈ (linearExpr a k r U).node.usedVars ↔ v ∈ U) ∧
    ∀ vars : Option (Finset String), (∀ v ∈ categories, v ∈ varsOf vars ↔ v ∈ U) →
      let value := (linearExpr a k r U).run (buildTieredTokenParams usage.toUsage false vars).env
      let t := Billing.textTokens cfg info (some usage)
      value = Billing.textTokenAmount cfg info t ∧
        (calculateTextToolCallSurcharge cfg info = 0 →
          calculateTextQuotaSummary cfg info (some usage) = (t, quotaOfAmount info t value)) := by
  refine ⟨fun v hv => mem_usedVars_linearExpr a k r U hv, fun vars hVars => ?_⟩
  intro value t
  have hValue : value = Billing.textTokenAmount cfg info t := by
    obtain ⟨hP, hC, hCr, hCc, hImg⟩ := h.tokenParams hVars
    rw [h.textTokenAmount hPrice]
    simp only [value, linearExpr_run, hP, hC, hCr, hCc]
    push_cast
    rfl
  refine ⟨hValue, fun hNone => ?_⟩
  have hAudio : t.audioTokens = 0 := by
    rw [show t = _ from h.textTokens]
    exact h.noAudioIn
  rw [calculateTextQuotaSummary, hValue,
    textAmount_eq_textTokenAmount hPrice.usePrice hPrice.otherRatios hAudio hNone]

def noToolPrices : ToolPrices := ⟨fun _ _ => 0, fun _ _ => 0, fun _ => 0, fun _ => none, 500000⟩

def ratioRequest : TextInfo :=
  ⟨"gpt", 0, false, false, none, 0, none, ⟨0, 5 / 4, 6, 1 / 10, 1, 1, 1, 1, [], false, 1⟩⟩

def ratioUsage : TextUsage := ⟨⟨10000, 2000, "", ⟨3000, 0, 0, 0⟩, ⟨0, 0⟩, 0, 0⟩, "", 0⟩

theorem ratioRequest_parity :
    (∀ v ∈ categories, v ∈ varsOf (some {"p", "c", "cr"}) ↔ v ∈ ({"cr"} : Finset String)) ∧
      (linearExpr (5 / 4) 6 (fun _ => 1 / 10) {"cr"}).run
        (buildTieredTokenParams ratioUsage.toUsage false (some {"p", "c", "cr"})).env =
      Billing.textTokenAmount noToolPrices ratioRequest
        (Billing.textTokens noToolPrices ratioRequest (some ratioUsage)) := by
  have hVars : ∀ v ∈ categories, v ∈ varsOf (some {"p", "c", "cr"}) ↔ v ∈ ({"cr"} : Finset String) :=
    by decide
  refine ⟨hVars, ?_⟩
  exact ((linearExpr_parity noToolPrices ratioRequest ratioUsage (5 / 4) 6 (fun _ => 1 / 10) {"cr"}
    ⟨rfl, rfl, (if_pos (by decide)).symm, (if_neg (by decide)).symm, (if_neg (by decide)).symm, rfl,
      rfl, rfl⟩
    ⟨by decide, rfl, rfl, rfl, rfl, rfl, by decide, by decide, by decide, by decide, by decide⟩).2 _
    hVars).1

end NewApi.Tiered
