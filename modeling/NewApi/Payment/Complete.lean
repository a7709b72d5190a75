import NewApi.Payment.Basic

/-!
# Completing an order

All but `EpayNotify` are one transaction: a function of the stored rows, or an error that changes
nothing.  `EpayNotify` writes with two statements.
-/

namespace NewApi.Payment

open Core Go

structure Db where
  orders : Table TopUp
  quota : Int → Int

def getTopUpByTradeNo (db : Db) (tradeNo : String) : Option TopUp :=
  db.orders.rows.find? fun o => o.tradeNo = tradeNo

def Db.addQuota (db : Db) (userId add : Int) : Db :=
  { db with quota := Function.update db.quota userId (db.quota userId + add) }

def Db.succeed (db : Db) (o : TopUp) (now : Int) : Db :=
  { db with orders := db.orders.save { o with completeTime := now, status := .success } }

def PaySettings.quotaOf (cfg : PaySettings) (amount : ℚ) : Int :=
  Decimal.intPart (amount * cfg.quotaPerUnit)

variable (cfg : PaySettings)

/-! ## The administrator -/

def manualQuota (o : TopUp) : Int :=
  if o.paymentProvider = .stripe then cfg.quotaOf o.money else cfg.quotaOf o.amount

def manualCompleteTopUp (now : Int) (db : Db) (tradeNo : String) : Except String Db :=
  if tradeNo = "" then .error "未提供订单号"
  else
    match getTopUpByTradeNo db tradeNo with
    | none => .error "充值订单不存在"
    | some o =>
      if o.status = .success then .ok db
      else if o.status ≠ .pending then .error "订单状态不是待支付，无法补单"
      else if manualQuota cfg o ≤ 0 then .error "无效的充值额度"
      else .ok ((db.succeed o now).addQuota o.userId (manualQuota cfg o))

/-! ## Closing an order -/

def pendingOrder (db : Db) (tradeNo : String) (expected : Option PaymentProvider) :
    Except String TopUp :=
  if tradeNo = "" then .error "未提供支付单号"
  else
    match getTopUpByTradeNo db tradeNo with
    | none => .error "topup not found"
    | some o =>
      if expected ≠ none ∧ expected ≠ some o.paymentProvider then .error "payment method mismatch"
      else if o.status ≠ .pending then .error "topup status invalid"
      else .ok o

def updatePendingTopUpStatus (db : Db) (tradeNo : String) (expected : Option PaymentProvider)
    (target : TopUpStatus) : Except String Db :=
  match pendingOrder db tradeNo expected with
  | .error text => .error text
  | .ok o => .ok { db with orders := db.orders.save { o with status := target } }

/-! ## The webhooks -/

/-- Whatever goes wrong in the transaction, the caller learns only this. -/
def masked (result : Except String Db) : Except String Db :=
  match result with
  | .ok db => .ok db
  | .error _ => .error "充值失败，请稍后重试"

/-- The transaction of a webhook; `again` is for an order that succeeded before. -/
def webhook (provider : PaymentProvider) (tradeNo : String) (db : Db)
    (again : Except String Db) (complete : TopUp → Except String Db) : Except String Db :=
  if tradeNo = "" then .error "未提供支付单号"
  else masked <|
    match getTopUpByTradeNo db tradeNo with
    | none => .error "充值订单不存在"
    | some o =>
      if o.paymentProvider ≠ provider then .error "payment method mismatch"
      else if o.status = .success then again
      else if o.status ≠ .pending then .error "充值订单状态错误"
      else complete o

def recharge (now : Int) (db : Db) (tradeNo : String) : Except String Db :=
  webhook .stripe tradeNo db (.error "充值订单状态错误") fun o =>
    let db := db.succeed o now
    .ok { db with
      quota := Function.update db.quota o.userId
        (cfg.assign (db.quota o.userId + o.money * cfg.quotaPerUnit)) }

def rechargeCreem (now : Int) (db : Db) (tradeNo : String) : Except String Db :=
  webhook .creem tradeNo db (.error "充值订单状态错误") fun o =>
    .ok ((db.succeed o now).addQuota o.userId o.amount)

/-- `RechargeWaffo` and `RechargeWaffoPancake` differ in the provider. -/
def rechargeUnits (provider : PaymentProvider) (now : Int) (db : Db) (tradeNo : String) :
    Except String Db :=
  webhook provider tradeNo db (.ok db) fun o =>
    if cfg.quotaOf o.amount ≤ 0 then .error "无效的充值额度"
    else .ok ((db.succeed o now).addQuota o.userId (cfg.quotaOf o.amount))

def rechargeWaffo : Int → Db → String → Except String Db := rechargeUnits cfg .waffo

def rechargeWaffoPancake : Int → Db → String → Except String Db := rechargeUnits cfg .waffoPancake

structure EpayCallback where
  /-- The webhook is enabled and the signature is right. -/
  verified : Bool
  /-- `TRADE_SUCCESS`. -/
  tradeSuccess : Bool
  tradeNo : String
  paymentType : String

namespace EpayNotify

def read (cb : EpayCallback) (db : Db) : Option TopUp :=
  if cb.verified ∧ cb.tradeSuccess then
    match getTopUpByTradeNo db cb.tradeNo with
    | none => none
    | some o =>
      if o.paymentProvider = .epay ∧ o.status = .pending then
        some { o with paymentMethod := cb.paymentType }
      else none
  else none

def save (db : Db) (o : TopUp) : Db :=
  { db with orders := db.orders.save { o with status := .success } }

/-- The second statement, `IncreaseUserQuota`, which refuses a negative quota. -/
def credit (db : Db) (o : TopUp) : Option Db :=
  if cfg.quotaOf o.amount < 0 then none
  else some (db.addQuota o.userId (cfg.quotaOf o.amount))

end EpayNotify

def epayNotify (db : Db) (cb : EpayCallback) : Db :=
  match EpayNotify.read cb db with
  | none => db
  | some o => (EpayNotify.credit cfg (EpayNotify.save db o) o).getD (EpayNotify.save db o)

end NewApi.Payment
