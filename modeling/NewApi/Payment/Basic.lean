import NewApi.Core.Table
import NewApi.Go.Decimal

/-!
# Top-up orders

For epay, Waffo and Waffo Pancake `amount` counts units of currency, also when the user has asked
for tokens; for Creem it is a quota; for Stripe `money` is what is credited.  Decimals and floats
are rational numbers.
-/

namespace NewApi.Payment

open Core Go

/-! ## The order -/

inductive TopUpStatus where
  | pending
  | success
  | failed
  | expired
  deriving DecidableEq, Repr

/-- `PaymentProvider`; old orders have none. -/
inductive PaymentProvider where
  | unset
  | epay
  | stripe
  | creem
  | waffo
  | waffoPancake
  deriving DecidableEq, Repr

structure TopUp where
  id : Int
  userId : Int
  amount : Int
  money : ℚ
  tradeNo : String
  paymentMethod : String
  paymentProvider : PaymentProvider
  createTime : Int
  completeTime : Int
  status : TopUpStatus
  deriving DecidableEq

instance : Row TopUp := ⟨TopUp.id⟩

/-! ## Settings -/

structure CreemProduct where
  productId : String
  price : ℚ
  quota : Int
  deriving DecidableEq

/-- `assign` is what an integer column holds after it was assigned a fraction. -/
structure PaySettings where
  quotaPerUnit : ℚ
  /-- The quota display type is `TOKENS`. -/
  tokens : Bool
  topupGroupRatio : String → ℚ
  amountDiscount : Int → Option ℚ
  minTopUp : Int
  price : ℚ
  payMethods : List String
  stripeMinTopUp : Int
  /-- The products, when the setting is a list of them. -/
  creemProducts : Option (List CreemProduct)
  waffoEnabled : Bool
  waffoMinTopUp : Int
  waffoUnitPrice : ℚ
  waffoPancakeEnabled : Bool
  waffoPancakeComplete : Bool
  waffoPancakeMinTopUp : Int
  waffoPancakeUnitPrice : ℚ
  assign : ℚ → Int

namespace PaySettings

variable (cfg : PaySettings)

def units (amount : Int) : ℚ := if cfg.tokens then amount / cfg.quotaPerUnit else amount

def groupRatio (group : String) : ℚ :=
  if cfg.topupGroupRatio group = 0 then 1 else cfg.topupGroupRatio group

def discount (amount : Int) : ℚ :=
  match cfg.amountDiscount amount with
  | some ds => if 0 < ds then ds else 1
  | none => 1

def payMoney (unitPrice : ℚ) (amount : Int) (group : String) : ℚ :=
  cfg.units amount * unitPrice * cfg.groupRatio group * cfg.discount amount

def getPayMoney : Int → String → ℚ := cfg.payMoney cfg.price

def getWaffoPayMoney : Int → String → ℚ := cfg.payMoney cfg.waffoUnitPrice

def getWaffoPancakePayMoney : Int → String → ℚ := cfg.payMoney cfg.waffoPancakeUnitPrice

def getMinTopup : Int :=
  if cfg.tokens then Decimal.intPart (cfg.minTopUp * cfg.quotaPerUnit) else cfg.minTopUp

def getStripeMinTopup : Int :=
  if cfg.tokens then cfg.stripeMinTopUp * Decimal.intPart cfg.quotaPerUnit else cfg.stripeMinTopUp

def getChargedAmount (count : Int) (group : String) : ℚ := count * cfg.groupRatio group

def epayAmount (amount : Int) : Int :=
  if cfg.tokens then Decimal.intPart (amount / cfg.quotaPerUnit) else amount

def normalizedAmount (amount : Int) : Int :=
  if cfg.tokens then max 1 (Decimal.intPart (amount / cfg.quotaPerUnit)) else amount

end PaySettings

/-! ## The handlers -/

structure Checkout where
  userId : Int
  group : Option String
  userExists : Bool
  /-- The client of the provider can be built. -/
  configured : Bool
  accepted : Bool
  /-- The redirect addresses of a Stripe request are trusted. -/
  successTrusted : Bool
  cancelTrusted : Bool
  inserted : Bool
  tradeNo : String
  now : Int

structure PayOutcome where
  reply : Except String Unit
  order : Option TopUp

def PayOutcome.refuse (text : String) : PayOutcome := ⟨.error text, none⟩

def PayOutcome.created (order : TopUp) : PayOutcome := ⟨.ok (), some order⟩

def Checkout.order (env : Checkout) (provider : PaymentProvider) (method : String) (amount : Int)
    (money : ℚ) : TopUp where
  id := 0
  userId := env.userId
  amount := amount
  money := money
  tradeNo := env.tradeNo
  paymentMethod := method
  paymentProvider := provider
  createTime := env.now
  completeTime := 0
  status := .pending

section Handlers

variable (cfg : PaySettings) (env : Checkout)

def requestEpay (amount : Int) (method : String) : PayOutcome :=
  if amount < cfg.getMinTopup then .refuse s!"充值数量不能小于 {cfg.getMinTopup}"
  else
    match env.group with
    | none => .refuse "获取用户分组失败"
    | some group =>
      if cfg.getPayMoney amount group < 1 / 100 then .refuse "充值金额过低"
      else if method ∉ cfg.payMethods then .refuse "支付方式不存在"
      else if env.configured = false then .refuse "当前管理员未配置支付信息"
      else if env.accepted = false then .refuse "拉起支付失败"
      else if env.inserted = false then .refuse "创建订单失败"
      else .created
        (env.order .epay method (cfg.epayAmount amount) (cfg.getPayMoney amount group))

def requestStripePay (amount : Int) (method : String) : PayOutcome :=
  if method ≠ "stripe" then .refuse "不支持的支付渠道"
  else if amount < cfg.getStripeMinTopup then .refuse s!"充值数量不能小于 {cfg.getStripeMinTopup}"
  else if 10000 < amount then .refuse "充值数量不能大于 10000"
  else if env.successTrusted = false then .refuse "支付成功重定向URL不在可信任域名列表中"
  else if env.cancelTrusted = false then .refuse "支付取消重定向URL不在可信任域名列表中"
  else if env.userExists = false then
    -- the user that was not found is dereferenced
    .refuse "invalid memory address or nil pointer dereference"
  else if env.accepted = false then .refuse "拉起支付失败"
  else if env.inserted = false then .refuse "创建订单失败"
  else .created
    (env.order .stripe "stripe" amount (cfg.getChargedAmount amount (env.group.getD "")))

/-- `CreemAdaptor.RequestPay`. The order stays when the provider fails. -/
def requestCreemPay (productId : String) (method : String) : PayOutcome :=
  if method ≠ "creem" then .refuse "不支持的支付渠道"
  else if productId = "" then .refuse "请选择产品"
  else
    match cfg.creemProducts with
    | none => .refuse "产品配置错误"
    | some products =>
      match products.find? fun p => p.productId = productId with
      | none => .refuse "产品不存在"
      | some product =>
        if env.userExists = false then .refuse "invalid memory address or nil pointer dereference"
        else if env.inserted = false then .refuse "创建订单失败"
        else
          ⟨if env.accepted then .ok () else .error "拉起支付失败",
            some (env.order .creem "creem" product.quota product.price)⟩

/-- The order of Waffo and Waffo Pancake fails when the provider does not accept it. -/
def placeOrder (ready : Bool) (provider : PaymentProvider) (method : String) (amount : Int)
    (money : ℚ) : PayOutcome :=
  if money < 1 / 100 then .refuse "充值金额过低"
  else if env.inserted = false then .refuse "创建订单失败"
  else
    let order := env.order provider method (cfg.normalizedAmount amount) money
    if ready = false then ⟨.error "支付配置错误", some { order with status := .failed }⟩
    else if env.accepted = false then ⟨.error "拉起支付失败", some { order with status := .failed }⟩
    else .created order

/-- `RequestWaffoPay`; `methodValid` is whether the payment method is one of the setting. -/
def requestWaffoPay (amount : Int) (methodValid : Bool) : PayOutcome :=
  if cfg.waffoEnabled = false then .refuse "Waffo 支付未启用"
  else if amount < cfg.waffoMinTopUp then .refuse s!"充值数量不能小于 {cfg.waffoMinTopUp}"
  else if env.userExists = false then .refuse "用户不存在"
  else if methodValid = false then .refuse "不支持的支付方式"
  else placeOrder cfg env env.configured .waffo "waffo" amount
    (cfg.getWaffoPayMoney amount (env.group.getD ""))

def requestWaffoPancakePay (amount : Int) : PayOutcome :=
  if cfg.waffoPancakeEnabled = false then .refuse "Waffo Pancake 支付未启用"
  else if cfg.waffoPancakeComplete = false then .refuse "Waffo Pancake 配置不完整"
  else if amount < cfg.waffoPancakeMinTopUp then
    .refuse s!"充值数量不能小于 {cfg.waffoPancakeMinTopUp}"
  else if env.userExists = false then .refuse "用户不存在"
  else
    match env.group with
    | none => .refuse "获取用户分组失败"
    | some group =>
      placeOrder cfg env true .waffoPancake "waffo_pancake" amount
        (cfg.getWaffoPancakePayMoney amount group)

end Handlers

inductive PayRequest where
  | epay (amount : Int) (method : String)
  | stripe (amount : Int) (method : String)
  | creem (productId : String) (method : String)
  | waffo (amount : Int) (methodValid : Bool)
  | waffoPancake (amount : Int)

def PayRequest.handle (cfg : PaySettings) (env : Checkout) : PayRequest → PayOutcome
  | .epay amount method => requestEpay cfg env amount method
  | .stripe amount method => requestStripePay cfg env amount method
  | .creem productId method => requestCreemPay cfg env productId method
  | .waffo amount methodValid => requestWaffoPay cfg env amount methodValid
  | .waffoPancake amount => requestWaffoPancakePay cfg env amount

end NewApi.Payment
