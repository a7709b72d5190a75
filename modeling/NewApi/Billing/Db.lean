import NewApi.Billing.Funding

/-!
# The database under billing

The time and the faults of a call are a function of its number, so `dbStore outside` with `outside`
arbitrary is every pattern of failures.  The Redis caches and the batch updater are left out.
-/

namespace NewApi.Billing

open Core Subscription

structure User where
  id : Int
  quota : Int
  deriving DecidableEq, Repr

structure Token where
  id : Int
  key : String
  remainQuota : Int
  unlimitedQuota : Bool
  deriving DecidableEq, Repr

instance : Row User := ⟨User.id⟩

instance : Row Token := ⟨Token.id⟩

structure Db where
  users : Table User
  tokens : Table Token
  subs : SubStore

namespace Db

def addQuota (db : Db) (id a : Int) : Db :=
  { db with
    users := db.users.modify (fun u => decide (u.id = id))
      (fun u => { u with quota := u.quota + a }) fun _ => rfl }

def addRemain (db : Db) (id a : Int) : Db :=
  { db with
    tokens := db.tokens.modify (fun t => decide (t.id = id))
      (fun t => { t with remainQuota := t.remainQuota + a }) fun _ => rfl }

def quotaOf (db : Db) (id : Int) : Option Int := (db.users.find? id).map User.quota

def remainOf (db : Db) (id : Int) : Option Int := (db.tokens.find? id).map Token.remainQuota

def usedOf (db : Db) (id : Int) : Option Int := db.subs.usedOf id

def onSubs {α : Type} (p : Prog SubStore α) : Prog Db α := fun db =>
  match p db.subs with
  | (r, subs) => (r, { db with subs })

end Db

/-! ## The operations -/

def negativeQuota : String := "quota 不能为负数！"

structure Outside where
  env : Env
  fault : Option String := none
  plan : Option String := none
  preConsume : PreConsumeFaults := {}
  postConsume : PostConsumeFaults := {}
  refund : RefundFaults := {}

/-- `Find` leaves the zero when there is no row. -/
def getUserQuota (o : Outside) (id : Int) : Prog Db Int :=
  Prog.stmt o.fault (Prog.read fun db => (db.quotaOf id).getD 0)

def decreaseUserQuota (o : Outside) (id quota : Int) : Prog Db Unit :=
  if quota < 0 then Prog.fail negativeQuota
  else Prog.stmt o.fault (Prog.write fun db => db.addQuota id (-quota))

def increaseUserQuota (o : Outside) (id quota : Int) : Prog Db Unit :=
  if quota < 0 then Prog.fail negativeQuota
  else Prog.stmt o.fault (Prog.write fun db => db.addQuota id quota)

def getTokenByKey (o : Outside) (key : String) : Prog Db TokenQuota :=
  Prog.stmt o.fault fun db =>
    match db.tokens.rows.find? fun t => decide (t.key = key) with
    | some token => (.ok ⟨token.remainQuota, token.unlimitedQuota⟩, db)
    | none => (.error (.err recordNotFound), db)

def decreaseTokenQuota (o : Outside) (id quota : Int) : Prog Db Unit :=
  if quota < 0 then Prog.fail negativeQuota
  else Prog.stmt o.fault (Prog.write fun db => db.addRemain id (-quota))

def increaseTokenQuota (id quota : Int) : Prog Db Unit :=
  if quota < 0 then Prog.fail negativeQuota else Prog.write fun db => db.addRemain id quota

def hasActiveUserSubscription (o : Outside) (userId : Int) : Prog Db Bool :=
  if userId ≤ 0 then Prog.fail "invalid userId"
  else Prog.stmt o.fault (Prog.read fun db => decide (candidates o.env userId db.subs ≠ []))

def getSubscriptionPlanInfoByUserSubscriptionId (o : Outside) (id : Int) :
    Prog SubStore SubscriptionPlanInfo :=
  if id ≤ 0 then Prog.fail "invalid userSubscriptionId"
  else do
    let sub ← Prog.stmt o.fault (SubStore.firstSub id)
    let plan ← Prog.stmt o.plan (SubStore.getSubscriptionPlanByIdTx sub.planId)
    pure ⟨sub.planId, plan.title⟩

structure World where
  db : Db
  calls : Nat

def World.call {α : Type} (outside : Nat → Outside) (p : Outside → Prog Db α) : Prog World α :=
  fun w =>
    match p (outside w.calls) w.db with
    | (r, db) => (r, ⟨db, w.calls + 1⟩)

def dbStore (outside : Nat → Outside) : BillingStore World where
  getUserQuota id := World.call outside fun o => getUserQuota o id
  decreaseUserQuota id quota := World.call outside fun o => decreaseUserQuota o id quota
  increaseUserQuota id quota := World.call outside fun o => increaseUserQuota o id quota
  getTokenByKey key := World.call outside fun o => getTokenByKey o key
  decreaseTokenQuota id _ quota := World.call outside fun o => decreaseTokenQuota o id quota
  increaseTokenQuota id _ quota := World.call outside fun _ => increaseTokenQuota id quota
  hasActiveUserSubscription userId := World.call outside fun o => hasActiveUserSubscription o userId
  preConsumeUserSubscription requestId userId amount := World.call outside fun o =>
    Db.onSubs (preConsumeUserSubscription o.env o.preConsume requestId userId amount)
  getSubscriptionPlanInfoByUserSubscriptionId id := World.call outside fun o =>
    Db.onSubs (getSubscriptionPlanInfoByUserSubscriptionId o id)
  postConsumeUserSubscriptionDelta id delta := World.call outside fun o =>
    Db.onSubs (postConsumeUserSubscriptionDelta o.postConsume id delta)
  refundSubscriptionPreConsume requestId := World.call outside fun o =>
    Db.onSubs (refundSubscriptionPreConsume o.refund requestId)

end NewApi.Billing
