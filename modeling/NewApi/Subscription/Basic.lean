import NewApi.Core.Prog
import NewApi.Core.Table
import NewApi.Go.Strings
import NewApi.Go.Time
import Mathlib.Data.List.Sort

/-!
# Subscription rows and the subscription store

The tables of `model/subscription.go`, with the pre-consume records that make a charge idempotent
per request.  `SubStore.resets` is a history variable.
-/

namespace NewApi.Subscription

open Core Go

inductive DurationUnit where
  | year
  | month
  | day
  | hour
  | custom
  | other (name : String)
  deriving DecidableEq, Repr

structure SubscriptionPlan where
  id : Int
  title : String
  durationUnit : DurationUnit
  durationValue : Int
  customSeconds : Int
  maxPurchasePerUser : Int
  upgradeGroup : String
  totalAmount : Int
  quotaResetPeriod : String
  quotaResetCustomSeconds : Int
  deriving DecidableEq, Repr

inductive SubscriptionStatus where
  | active
  | expired
  | cancelled
  deriving DecidableEq, Repr

structure UserSubscription where
  id : Int
  userId : Int
  planId : Int
  amountTotal : Int
  amountUsed : Int
  startTime : Int
  endTime : Int
  status : SubscriptionStatus
  source : String
  lastResetTime : Int
  nextResetTime : Int
  upgradeGroup : String
  prevUserGroup : String
  deriving DecidableEq, Repr

instance : Row UserSubscription := ⟨UserSubscription.id⟩

@[simp] theorem key_eq_id (sub : UserSubscription) : Row.key sub = sub.id := rfl

inductive PreConsumeStatus where
  | consumed
  | refunded
  deriving DecidableEq, Repr

structure SubscriptionPreConsumeRecord where
  userId : Int
  userSubscriptionId : Int
  preConsumed : Int
  status : PreConsumeStatus
  deriving DecidableEq, Repr

structure SubStore where
  subs : Table UserSubscription
  records : String → Option SubscriptionPreConsumeRecord
  plans : Int → Option SubscriptionPlan
  /-- The `group` column of the user table; a missing row reads as the empty text. -/
  groups : Int → String
  resets : List Int

structure Env where
  now : Int
  loc : Location
  fuel : Nat

def recordNotFound : String := "record not found"

namespace SubStore

def firstSub (id : Int) : Prog SubStore UserSubscription := fun s =>
  match s.subs.find? id with
  | some sub => (.ok sub, s)
  | none => (.error (.err recordNotFound), s)

def firstRecord (requestId : String) : Prog SubStore SubscriptionPreConsumeRecord := fun s =>
  match s.records requestId with
  | some r => (.ok r, s)
  | none => (.error (.err recordNotFound), s)

def saveSub (sub : UserSubscription) : Prog SubStore Unit :=
  Prog.write fun s => { s with subs := s.subs.save sub }

def saveRecord (requestId : String) (r : SubscriptionPreConsumeRecord) : Prog SubStore Unit :=
  Prog.write fun s => { s with records := Function.update s.records requestId (some r) }

/-- `tx.Create(record)`: the unique index refuses a second record of a request. -/
def createRecord (requestId : String) (r : SubscriptionPreConsumeRecord) : Prog SubStore Unit :=
  fun s =>
    match s.records requestId with
    | some _ => (.error (.err "UNIQUE constraint failed"), s)
    | none => saveRecord requestId r s

def getUserGroupByIdTx (userId : Int) : Prog SubStore String :=
  if userId ≤ 0 then Prog.fail "invalid userId" else Prog.read fun s => s.groups userId

def updateGroup (userId : Int) (group : String) : Prog SubStore Unit :=
  Prog.write fun s => { s with groups := Function.update s.groups userId group }

/-- `getSubscriptionPlanByIdTx`, with the plan cache and the plan table as one map. -/
def getSubscriptionPlanByIdTx (id : Int) : Prog SubStore SubscriptionPlan := fun s =>
  if id ≤ 0 then (.error (.err "invalid plan id"), s)
  else
    match s.plans id with
    | some plan => (.ok plan, s)
    | none => (.error (.err recordNotFound), s)

end SubStore

/-! ## The orders of the queries -/

def endTimeAsc (a b : UserSubscription) : Prop :=
  a.endTime < b.endTime ∨ (a.endTime = b.endTime ∧ a.id ≤ b.id)

instance : DecidableRel endTimeAsc := fun a b => by unfold endTimeAsc; infer_instance

def endTimeDesc (a b : UserSubscription) : Prop := endTimeAsc b a

instance : DecidableRel endTimeDesc := fun a b => by unfold endTimeDesc; infer_instance

def nextResetAsc (a b : UserSubscription) : Prop := a.nextResetTime ≤ b.nextResetTime

instance : DecidableRel nextResetAsc := fun a b => by unfold nextResetAsc; infer_instance

def SubStore.query (s : SubStore) (p : UserSubscription → Bool)
    (r : UserSubscription → UserSubscription → Prop) [DecidableRel r] : List UserSubscription :=
  (s.subs.rows.filter p).insertionSort r

theorem SubStore.mem_query {s : SubStore} {p : UserSubscription → Bool}
    {r : UserSubscription → UserSubscription → Prop} [DecidableRel r] {sub : UserSubscription} :
    sub ∈ s.query p r ↔ sub ∈ s.subs.rows ∧ p sub = true := by
  rw [SubStore.query, List.mem_insertionSort, List.mem_filter]

/-! ## What the statements do -/

section Statements

open SubStore

variable {s t : SubStore}

theorem firstSub_ok {id : Int} {sub : UserSubscription} :
    firstSub id s = (.ok sub, t) ↔ s.subs.find? id = some sub ∧ t = s := by
  unfold firstSub
  cases s.subs.find? id <;> simp [eq_comm]

@[simp] theorem saveSub_run (sub : UserSubscription) :
    saveSub sub s = (.ok (), { s with subs := s.subs.save sub }) := rfl

@[simp] theorem saveRecord_run (requestId : String) (r : SubscriptionPreConsumeRecord) :
    saveRecord requestId r s =
      (.ok (), { s with records := Function.update s.records requestId (some r) }) := rfl

theorem createRecord_run {requestId : String} {r : SubscriptionPreConsumeRecord}
    (h : s.records requestId = none) :
    createRecord requestId r s =
      (.ok (), { s with records := Function.update s.records requestId (some r) }) := by
  rw [createRecord, h]
  rfl

theorem getUserGroupByIdTx_ok {userId : Int} {group : String}
    (h : getUserGroupByIdTx userId s = (.ok group, t)) : group = s.groups userId ∧ t = s := by
  unfold getUserGroupByIdTx at h
  split at h <;> cases h
  exact ⟨rfl, rfl⟩

theorem getSubscriptionPlanByIdTx_ok {id : Int} {plan : SubscriptionPlan}
    (h : getSubscriptionPlanByIdTx id s = (.ok plan, t)) : s.plans id = some plan ∧ t = s := by
  unfold getSubscriptionPlanByIdTx at h
  split at h
  · cases h
  · cases hp : s.plans id with
    | none => rw [hp] at h; cases h
    | some p => rw [hp] at h; cases h; exact ⟨rfl, rfl⟩

end Statements

end NewApi.Subscription
