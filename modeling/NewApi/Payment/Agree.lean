import NewApi.Payment.Complete

/-!
# Two ways to complete an order

By the webhook of its provider or by an administrator.  The two add the same quota for epay, Waffo
and Waffo Pancake; for Stripe when the column rounds the fraction as `IntPart` cuts it; for Creem
practically never.
-/

namespace NewApi.Payment

open Core Go

/-! ## The order in the table -/

theorem key_withId (o : TopUp) (k : Int) : Row.key { o with id := k } = k := rfl

def Db.place (db : Db) (o : TopUp) : Db :=
  { db with orders := db.orders.insert (fun k => { o with id := k }) (key_withId o) }

def Db.placed (db : Db) (o : TopUp) : TopUp := { o with id := db.orders.next }

theorem getTopUpByTradeNo_place {db : Db} {o : TopUp}
    (hNew : ∀ r ∈ db.orders.rows, r.tradeNo ≠ o.tradeNo) :
    getTopUpByTradeNo (db.place o) o.tradeNo = some (db.placed o) := by
  have hOld : (db.orders.rows.find? fun r => r.tradeNo = o.tradeNo) = none := by
    rw [List.find?_eq_none]
    intro r hr
    simpa using hNew r hr
  show (db.orders.rows ++ [db.placed o]).find? _ = _
  rw [List.find?_append, hOld]
  simp [Db.placed]

/-! ## What a completion adds -/

def added (before : Db) (result : Except String Db) (userId : Int) : Int :=
  match result with
  | .ok db => db.quota userId - before.quota userId
  | .error _ => 0

theorem added_succeed (db : Db) (o : TopUp) (now add : Int) :
    added db (.ok ((db.succeed o now).addQuota o.userId add)) o.userId = add := by
  simp only [added, Db.addQuota, Function.update_self, Db.succeed]
  omega

theorem added_masked (db : Db) (result : Except String Db) (u : Int) :
    added db (masked result) u = added db result u := by
  cases result <;> rfl

def completeByWebhook (cfg : PaySettings) (now : Int) (paymentType : String) (db : Db)
    (tradeNo : String) : PaymentProvider → Except String Db
  | .unset => .error "payment method mismatch"
  | .epay => .ok (epayNotify cfg db ⟨true, true, tradeNo, paymentType⟩)
  | .stripe => recharge cfg now db tradeNo
  | .creem => rechargeCreem now db tradeNo
  | .waffo => rechargeWaffo cfg now db tradeNo
  | .waffoPancake => rechargeWaffoPancake cfg now db tradeNo

section Pending

variable {cfg : PaySettings} {db : Db} {o : TopUp} {tradeNo : String}

section

variable (hFind : getTopUpByTradeNo db tradeNo = some o) (hNo : tradeNo ≠ "")
  (hPending : o.status = .pending)
include hFind hNo hPending

theorem added_manual (now : Int) :
    added db (manualCompleteTopUp cfg now db tradeNo) o.userId = max 0 (manualQuota cfg o) := by
  unfold manualCompleteTopUp
  simp only [if_neg hNo, hFind, hPending, reduceCtorEq, if_false, ne_eq, not_true_eq_false]
  split
  · rename_i hLe
    exact (max_eq_left hLe).symm
  · rw [added_succeed]
    exact (max_eq_right (by omega)).symm

theorem added_webhook {provider : PaymentProvider} (hProvider : o.paymentProvider = provider)
    (again : Except String Db) (complete : TopUp → Except String Db) :
    added db (webhook provider tradeNo db again complete) o.userId =
      added db (complete o) o.userId := by
  subst hProvider
  unfold webhook
  rw [if_neg hNo, added_masked]
  simp only [hFind, hPending, ne_eq, not_true_eq_false, if_false, reduceCtorEq]

theorem added_rechargeUnits {provider : PaymentProvider} (hProvider : o.paymentProvider = provider)
    (cfg : PaySettings) (now : Int) :
    added db (rechargeUnits cfg provider now db tradeNo) o.userId =
      max 0 (cfg.quotaOf o.amount) := by
  unfold rechargeUnits
  rw [added_webhook hFind hNo hPending hProvider]
  split
  · rename_i hLe
    exact (max_eq_left hLe).symm
  · rw [added_succeed]
    exact (max_eq_right (by omega)).symm

theorem added_rechargeCreem (hProvider : o.paymentProvider = .creem) (now : Int) :
    added db (rechargeCreem now db tradeNo) o.userId = o.amount := by
  unfold rechargeCreem
  rw [added_webhook hFind hNo hPending hProvider]
  exact added_succeed db o now o.amount

theorem added_recharge (hProvider : o.paymentProvider = .stripe) (now : Int) :
    added db (recharge cfg now db tradeNo) o.userId =
      cfg.assign (db.quota o.userId + o.money * cfg.quotaPerUnit) - db.quota o.userId := by
  unfold recharge
  rw [added_webhook hFind hNo hPending hProvider]
  simp only [added, Function.update_self, Db.succeed]

end

theorem added_epayNotify (cfg : PaySettings) (hFind : getTopUpByTradeNo db tradeNo = some o)
    (hPending : o.status = .pending) (hProvider : o.paymentProvider = .epay)
    (paymentType : String) :
    added db (.ok (epayNotify cfg db ⟨true, true, tradeNo, paymentType⟩)) o.userId =
      max 0 (cfg.quotaOf o.amount) := by
  have hRead : EpayNotify.read ⟨true, true, tradeNo, paymentType⟩ db =
      some { o with paymentMethod := paymentType } := by
    simp [EpayNotify.read, hFind, hProvider, hPending]
  unfold epayNotify
  simp only [hRead, EpayNotify.credit]
  split
  · simp only [Option.getD_none, added, EpayNotify.save]
    omega
  · simp only [Option.getD_some, added, Db.addQuota, Function.update_self, EpayNotify.save]
    omega

end Pending

/-! ## Orders as they are created -/

def PayRequest.provider : PayRequest → PaymentProvider
  | .epay .. => .epay
  | .stripe .. => .stripe
  | .creem .. => .creem
  | .waffo .. => .waffo
  | .waffoPancake .. => .waffoPancake

def PayOutcome.For (env : Checkout) (provider : PaymentProvider) (out : PayOutcome) : Prop :=
  ∀ o, out.order = some o → o.tradeNo = env.tradeNo ∧ o.paymentProvider = provider

section For

variable {env : Checkout} {provider : PaymentProvider}

theorem for_refuse (text : String) : (PayOutcome.refuse text).For env provider := by
  intro o hOrder
  simp only [PayOutcome.refuse, reduceCtorEq] at hOrder

theorem for_guard {c : Prop} [Decidable c] {text : String} {rest : PayOutcome}
    (h : rest.For env provider) :
    (if c then .refuse text else rest : PayOutcome).For env provider :=
  iteInduction (fun _ => for_refuse text) fun _ => h

theorem for_created (method : String) (amount : Int) (money : ℚ) :
    (PayOutcome.created (env.order provider method amount money)).For env provider := by
  rintro o ⟨⟩
  exact ⟨rfl, rfl⟩

theorem for_placeOrder (cfg : PaySettings) (ready : Bool) (method : String) (amount : Int)
    (money : ℚ) : (placeOrder cfg env ready provider method amount money).For env provider := by
  refine for_guard (for_guard ?_)
  refine iteInduction ?_ fun _ => iteInduction ?_ fun _ => for_created _ _ _ <;> rintro - o ⟨⟩
  · exact ⟨rfl, rfl⟩
  · exact ⟨rfl, rfl⟩

end For

theorem handle_for (cfg : PaySettings) (env : Checkout) (req : PayRequest) :
    (req.handle cfg env).For env req.provider := by
  cases req with
  | epay amount method =>
    show (requestEpay cfg env amount method).For env .epay
    refine for_guard ?_
    cases env.group with
    | none => exact for_refuse _
    | some group =>
      refine for_guard (for_guard (for_guard (for_guard ?_)))
      exact for_guard (for_created _ _ _)
  | stripe amount method =>
    show (requestStripePay cfg env amount method).For env .stripe
    refine for_guard (for_guard (for_guard (for_guard (for_guard (for_guard (for_guard ?_))))))
    exact for_guard (for_created _ _ _)
  | creem productId method =>
    show (requestCreemPay cfg env productId method).For env .creem
    refine for_guard (for_guard ?_)
    cases cfg.creemProducts with
    | none => exact for_refuse _
    | some products =>
      cases hFind : products.find? fun p => p.productId = productId with simp only [hFind]
      | none => exact for_refuse _
      | some product =>
        refine for_guard (for_guard ?_)
        rintro o ⟨⟩
        exact ⟨rfl, rfl⟩
  | waffo amount methodValid =>
    show (requestWaffoPay cfg env amount methodValid).For env .waffo
    refine for_guard (for_guard (for_guard ?_))
    exact for_guard (for_placeOrder cfg _ _ _ _)
  | waffoPancake amount =>
    show (requestWaffoPancakePay cfg env amount).For env .waffoPancake
    refine for_guard (for_guard (for_guard (for_guard ?_)))
    cases env.group with
    | none => exact for_refuse _
    | some group => exact for_placeOrder cfg _ _ _ _

/-! ## When they agree -/

/-- Both completions credit the same.  For Stripe one adds `Money * QuotaPerUnit` and has the sum
assigned to an integer, the other adds the product cut to one. -/
def Agrees (cfg : PaySettings) (quota : Int) (o : TopUp) : Prop :=
  match o.paymentProvider with
  | .stripe =>
    cfg.assign (quota + o.money * cfg.quotaPerUnit) = quota + max 0 (cfg.quotaOf o.money)
  | .creem =>
    o.amount = 0 ∨
      0 < o.amount ∧ 1 ≤ cfg.quotaPerUnit ∧ o.amount * (cfg.quotaPerUnit - 1) < 1
  | _ => True

theorem max_quotaOf_eq_iff (cfg : PaySettings) (amount : Int) :
    max 0 (cfg.quotaOf amount) = amount ↔
      amount = 0 ∨
        0 < amount ∧ 1 ≤ cfg.quotaPerUnit ∧ amount * (cfg.quotaPerUnit - 1) < 1 := by
  unfold PaySettings.quotaOf
  rcases lt_trichotomy amount 0 with hNeg | rfl | hPos
  · refine iff_of_false (by omega) ?_
    rintro (h | ⟨h, -⟩) <;> omega
  · simp [Decimal.intPart]
  have hPosQ : (0 : ℚ) < amount := by exact_mod_cast hPos
  have hLeft : max 0 (Decimal.intPart (amount * cfg.quotaPerUnit)) = amount ↔
      Decimal.intPart (amount * cfg.quotaPerUnit) = amount := by omega
  have hRight : (amount = 0 ∨
      0 < amount ∧ 1 ≤ cfg.quotaPerUnit ∧ amount * (cfg.quotaPerUnit - 1) < 1) ↔
      1 ≤ cfg.quotaPerUnit ∧ amount * (cfg.quotaPerUnit - 1) < 1 := by
    constructor
    · rintro (h | ⟨-, h⟩)
      · omega
      · exact h
    · exact fun h => .inr ⟨hPos, h⟩
  rw [hLeft, hRight]
  by_cases hUnit : 0 ≤ amount * cfg.quotaPerUnit
  · rw [Decimal.intPart_of_nonneg hUnit, Int.floor_eq_iff]
    constructor
    · rintro ⟨hLe, hLt⟩
      refine ⟨?_, by linarith⟩
      by_contra hSmall
      have hMul : (amount : ℚ) * cfg.quotaPerUnit < amount * 1 :=
        mul_lt_mul_of_pos_left (not_le.mp hSmall) hPosQ
      linarith
    · rintro ⟨hOne, hLt⟩
      have hMul : (amount : ℚ) * 1 ≤ amount * cfg.quotaPerUnit :=
        mul_le_mul_of_nonneg_left hOne hPosQ.le
      exact ⟨by linarith, by linarith⟩
  · refine iff_of_false ?_ ?_
    · have hNonpos := Decimal.intPart_nonpos (le_of_not_ge hUnit)
      omega
    · rintro ⟨hOne, -⟩
      exact hUnit (mul_nonneg hPosQ.le (le_trans zero_le_one hOne))

/-- **When the webhook and the administrator add the same quota** for an order. -/
theorem completions_agree_iff (cfg : PaySettings) {env : Checkout} {req : PayRequest} {o : TopUp}
    (hOrder : (req.handle cfg env).order = some o) (hPending : o.status = .pending)
    (hNo : env.tradeNo ≠ "") {db : Db} (hNew : ∀ r ∈ db.orders.rows, r.tradeNo ≠ env.tradeNo)
    (now : Int) (paymentType : String) :
    added (db.place o) (manualCompleteTopUp cfg now (db.place o) o.tradeNo) o.userId =
        added (db.place o)
          (completeByWebhook cfg now paymentType (db.place o) o.tradeNo req.provider) o.userId ↔
      Agrees cfg (db.quota o.userId) o := by
  obtain ⟨hTrade, hProvider⟩ := handle_for cfg env req o hOrder
  rw [← hTrade] at hNo hNew
  have hFind : getTopUpByTradeNo (db.place o) o.tradeNo = some (db.placed o) :=
    getTopUpByTradeNo_place hNew
  have hManual : added (db.place o) (manualCompleteTopUp cfg now (db.place o) o.tradeNo) o.userId =
      max 0 (manualQuota cfg o) := added_manual hFind hNo hPending now
  rw [hManual, ← hProvider, manualQuota]
  cases hCase : o.paymentProvider with
  | unset =>
    rw [hProvider] at hCase
    cases req <;> cases hCase
  | epay =>
    have hWeb := added_epayNotify cfg hFind hPending hCase paymentType
    simp only [Agrees, hCase, reduceCtorEq, if_false, iff_true]
    exact hWeb.symm
  | waffo | waffoPancake =>
    have hWeb := added_rechargeUnits hFind hNo hPending hCase cfg now
    simp only [Agrees, hCase, reduceCtorEq, if_false, iff_true]
    exact hWeb.symm
  | creem =>
    have hWeb : added (db.place o) (rechargeCreem now (db.place o) o.tradeNo) o.userId =
        o.amount := added_rechargeCreem hFind hNo hPending hCase now
    simp only [Agrees, hCase, completeByWebhook, hWeb]
    exact max_quotaOf_eq_iff cfg o.amount
  | stripe =>
    have hWeb : added (db.place o) (recharge cfg now (db.place o) o.tradeNo) o.userId =
        cfg.assign (db.quota o.userId + o.money * cfg.quotaPerUnit) - db.quota o.userId :=
      added_recharge hFind hNo hPending hCase now
    simp only [Agrees, hCase, completeByWebhook, if_true]
    omega

def demoPay (tokens : Bool) : PaySettings where
  quotaPerUnit := 500000
  tokens := tokens
  topupGroupRatio := fun _ => 1
  amountDiscount := fun _ => none
  minTopUp := 1
  price := 73 / 10
  payMethods := ["alipay"]
  stripeMinTopUp := 1
  creemProducts := some [⟨"p", 10, 1000⟩]
  waffoEnabled := true
  waffoMinTopUp := 1
  waffoUnitPrice := 1
  waffoPancakeEnabled := true
  waffoPancakeComplete := true
  waffoPancakeMinTopUp := 1
  waffoPancakeUnitPrice := 1
  assign := Decimal.round

def demoCheckout : Checkout where
  userId := 7
  group := some "default"
  userExists := true
  configured := true
  accepted := true
  successTrusted := true
  cancelTrusted := true
  inserted := true
  tradeNo := "USR7NO1"
  now := 1900000000

def noOrders : Db := ⟨Table.empty, fun _ => 0⟩

theorem epayOrder_agrees :
    let o := demoCheckout.order .epay "alipay" 5 (73 / 2)
    ((PayRequest.epay 5 "alipay").handle (demoPay false) demoCheckout).order = some o ∧
      added (noOrders.place o)
          (manualCompleteTopUp (demoPay false) 1900000100 (noOrders.place o) o.tradeNo) o.userId =
        added (noOrders.place o)
          (completeByWebhook (demoPay false) 1900000100 "alipay" (noOrders.place o) o.tradeNo .epay)
          o.userId := by
  have hOrder : ((PayRequest.epay 5 "alipay").handle (demoPay false) demoCheckout).order =
      some (demoCheckout.order .epay "alipay" 5 (73 / 2)) := by decide +kernel
  refine ⟨hOrder, (completions_agree_iff (demoPay false) hOrder rfl (by decide) ?_ 1900000100
    "alipay").mpr trivial⟩
  exact fun r hr => absurd hr List.not_mem_nil

/-- **A Creem order of 1000 is worth 500000000 to the administrator.** -/
theorem creem_completions_differ :
    let o := demoCheckout.order .creem "creem" 1000 10
    ((PayRequest.creem "p" "creem").handle (demoPay false) demoCheckout).order = some o ∧
      added (noOrders.place o)
          (completeByWebhook (demoPay false) 1900000100 "" (noOrders.place o) o.tradeNo .creem)
          o.userId = 1000 ∧
      added (noOrders.place o)
          (manualCompleteTopUp (demoPay false) 1900000100 (noOrders.place o) o.tradeNo) o.userId =
        500000000 := by
  decide +kernel

/-! ## Tokens -/

theorem max_quotaOf_epayAmount_iff {cfg : PaySettings} (hTokens : cfg.tokens = true)
    (hUnit : 0 < cfg.quotaPerUnit) (tokens : Int) :
    max 0 (cfg.quotaOf (cfg.epayAmount tokens)) = tokens ↔
      0 ≤ tokens ∧ ∃ n : Int, (tokens : ℚ) = n * cfg.quotaPerUnit := by
  unfold PaySettings.quotaOf PaySettings.epayAmount
  rw [if_pos hTokens]
  by_cases hNonneg : 0 ≤ tokens
  · have hQuot : (0 : ℚ) ≤ tokens / cfg.quotaPerUnit :=
      div_nonneg (by exact_mod_cast hNonneg) hUnit.le
    rw [Decimal.intPart_of_nonneg hQuot]
    set m : Int := ⌊(tokens : ℚ) / cfg.quotaPerUnit⌋ with hm
    have hBack : (m : ℚ) * cfg.quotaPerUnit ≤ tokens := by
      rw [← le_div_iff₀ hUnit]
      exact Int.floor_le _
    have hBackNonneg : (0 : ℚ) ≤ m * cfg.quotaPerUnit :=
      mul_nonneg (by exact_mod_cast Int.floor_nonneg.mpr hQuot) hUnit.le
    have hFloor : 0 ≤ ⌊(m : ℚ) * cfg.quotaPerUnit⌋ := Int.floor_nonneg.mpr hBackNonneg
    rw [Decimal.intPart_of_nonneg hBackNonneg, max_eq_right hFloor]
    constructor
    · intro hEq
      refine ⟨hNonneg, m, le_antisymm ?_ hBack⟩
      rw [← hEq]
      exact Int.floor_le _
    · rintro ⟨-, n, hn⟩
      have hmn : m = n := by
        rw [hm, hn, mul_div_cancel_right₀ _ hUnit.ne', Int.floor_intCast]
      rw [hmn, ← hn, Int.floor_intCast]
  · have hNeg : (tokens : ℚ) ≤ 0 := by exact_mod_cast le_of_not_ge hNonneg
    have hAmount : (Decimal.intPart (tokens / cfg.quotaPerUnit) : ℚ) ≤ 0 := by
      exact_mod_cast Decimal.intPart_nonpos (div_nonpos_of_nonpos_of_nonneg hNeg hUnit.le)
    omega

theorem requestEpay_order {cfg : PaySettings} {env : Checkout} {amount : Int} {method : String}
    {o : TopUp} (h : (requestEpay cfg env amount method).order = some o) :
    ∃ group, env.group = some group ∧
      o = env.order .epay method (cfg.epayAmount amount) (cfg.getPayMoney amount group) := by
  unfold requestEpay at h
  split at h
  · cases h
  split at h
  · cases h
  rename_i group hGroup
  refine ⟨group, hGroup, ?_⟩
  iterate 5
    split at h
    · cases h
  cases h
  rfl

/-- **An order of tokens is credited with what it was priced for exactly when** it is whole units.
-/
theorem tokens_credited_iff {cfg : PaySettings} (hTokens : cfg.tokens = true)
    (hUnit : 0 < cfg.quotaPerUnit) {env : Checkout} {tokens : Int} {method : String} {o : TopUp}
    (hOrder : (requestEpay cfg env tokens method).order = some o) {db : Db}
    (hNew : ∀ r ∈ db.orders.rows, r.tradeNo ≠ env.tradeNo) (paymentType : String) :
    (∃ group, env.group = some group ∧ o.money = cfg.getPayMoney tokens group) ∧
      (added (db.place o)
          (.ok (epayNotify cfg (db.place o) ⟨true, true, o.tradeNo, paymentType⟩)) o.userId =
          tokens ↔
        0 ≤ tokens ∧ ∃ n : Int, (tokens : ℚ) = n * cfg.quotaPerUnit) := by
  obtain ⟨group, hGroup, rfl⟩ := requestEpay_order hOrder
  refine ⟨⟨group, hGroup, rfl⟩, ?_⟩
  rw [← max_quotaOf_epayAmount_iff hTokens hUnit]
  have hFind := getTopUpByTradeNo_place
    (o := env.order .epay method (cfg.epayAmount tokens) (cfg.getPayMoney tokens group)) hNew
  exact iff_of_eq (congrArg (· = tokens) (added_epayNotify cfg hFind rfl rfl paymentType))

theorem twoUnits_credited :
    let o := demoCheckout.order .epay "alipay" 2 (73 / 5)
    (requestEpay (demoPay true) demoCheckout 1000000 "alipay").order = some o ∧
      added (noOrders.place o)
          (.ok (epayNotify (demoPay true) (noOrders.place o) ⟨true, true, o.tradeNo, "alipay"⟩))
          o.userId = 1000000 := by
  have hOrder : (requestEpay (demoPay true) demoCheckout 1000000 "alipay").order =
      some (demoCheckout.order .epay "alipay" 2 (73 / 5)) := by decide +kernel
  refine ⟨hOrder, (tokens_credited_iff rfl (by decide +kernel) hOrder ?_ "alipay").2.mpr
    ⟨by decide, 2, by decide +kernel⟩⟩
  exact fun r hr => absurd hr List.not_mem_nil

/-- **750000 tokens are paid for as one and a half units and credited as one.** -/
theorem half_unit_not_credited :
    let o := demoCheckout.order .epay "alipay" 1 (219 / 20)
    (requestEpay (demoPay true) demoCheckout 750000 "alipay").order = some o ∧
      (demoPay true).getPayMoney 750000 "default" = 3 / 2 * (demoPay true).price ∧
      added (noOrders.place o)
          (.ok (epayNotify (demoPay true) (noOrders.place o) ⟨true, true, o.tradeNo, "alipay"⟩))
          o.userId = 500000 := by
  decide +kernel

end NewApi.Payment
