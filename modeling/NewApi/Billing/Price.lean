import NewApi.Go.Decimal

/-!
# What a request is priced at

`ModelPriceHelper` sets only `quotaToPreConsume` of the two quotas of a `PriceData`. Floats are
rational numbers.
-/

namespace NewApi.Billing

open Go

structure PriceData where
  freeModel : Bool := false
  quota : Int := 0
  quotaToPreConsume : Int := 0
  deriving DecidableEq, Repr

/-- By an expression, whose cost for this request is `rawCost`, by a price for each call, or by a
ratio. -/
inductive ModelBilling where
  | tiered (rawCost : Except String ℚ)
  | price (modelPrice : ℚ)
  /-- The ratio; without one the model has a default that a user may accept. -/
  | ratio (modelRatio : ℚ) (configured : Bool)

structure PriceInput where
  billing : ModelBilling
  groupRatio : ℚ
  promptTokens : Int
  maxTokens : Int
  imagePriceRatio : ℚ
  acceptUnsetRatioModel : Bool
  notConfigured : String
  preConsumedQuota : Int
  quotaPerUnit : ℚ
  enableFreeModelPreConsume : Bool

/-- What is charged in advance, unless the model is free. -/
def PriceInput.data (input : PriceInput) (free : Bool) (quota : Int) : PriceData :=
  if input.enableFreeModelPreConsume = false ∧ free then { freeModel := true }
  else { quotaToPreConsume := quota }

def modelPriceHelperTiered (input : PriceInput) (rawCost : Except String ℚ) :
    Except String PriceData :=
  match rawCost with
  | .error text => .error text
  | .ok rawCost =>
    let quotaBeforeGroup := rawCost / 1000000 * input.quotaPerUnit
    .ok (input.data (input.groupRatio = 0) (Decimal.round (quotaBeforeGroup * input.groupRatio)))

def modelPriceHelper (input : PriceInput) : Except String PriceData :=
  match input.billing with
  | .tiered rawCost => modelPriceHelperTiered input rawCost
  | .ratio modelRatio configured =>
    if ¬configured ∧ ¬input.acceptUnsetRatioModel then .error input.notConfigured
    else
      let preConsumedTokens := max input.promptTokens input.preConsumedQuota + input.maxTokens
      .ok (input.data (input.groupRatio = 0 ∨ modelRatio = 0)
        (Decimal.intPart (preConsumedTokens * (modelRatio * input.groupRatio))))
  | .price modelPrice =>
    let modelPrice :=
      if input.imagePriceRatio ≠ 0 then modelPrice * input.imagePriceRatio else modelPrice
    .ok (input.data (input.groupRatio = 0 ∨ modelPrice = 0)
      (Decimal.intPart (modelPrice * input.quotaPerUnit * input.groupRatio)))

theorem PriceInput.data_quota (input : PriceInput) (free : Bool) (quota : Int) :
    (input.data free quota).quota = 0 := by
  unfold PriceInput.data
  split <;> rfl

theorem PriceInput.data_quotaToPreConsume {input : PriceInput} {free : Bool} {quota : Int}
    (h : (input.data free quota).freeModel = false) :
    (input.data free quota).quotaToPreConsume = quota := by
  unfold PriceInput.data at h ⊢
  split
  · rw [if_pos ‹_›] at h
    cases h
  · rfl

theorem modelPriceHelper_quota {input : PriceInput} {price : PriceData}
    (h : modelPriceHelper input = .ok price) : price.quota = 0 := by
  unfold modelPriceHelper at h
  split at h
  · rename_i rawCost _
    cases rawCost with cases h
    | ok rawCost => exact input.data_quota _ _
  · split at h <;> cases h
    · exact input.data_quota _ _
  · cases h
    exact input.data_quota _ _

end NewApi.Billing
