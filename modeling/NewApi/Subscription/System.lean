import NewApi.Core.Run
import NewApi.Subscription.Charge
import NewApi.Subscription.Lifecycle

/-!
# Runs of the subscription store

`Op` is one call of an operation with its arguments, its time and the faults of its statements.
`InBounds`, the range of the usage, is kept by every write of every operation, whatever fails.
-/

namespace NewApi.Subscription

open Core SubStore Function

inductive Op where
  | create (env : Env) (f : CreateFaults) (userId : Int) (plan : SubscriptionPlan)
      (source : String)
  | preConsume (env : Env) (f : PreConsumeFaults) (requestId : String) (userId amount : Int)
  | postConsume (f : PostConsumeFaults) (userSubscriptionId delta : Int)
  | refund (f : RefundFaults) (requestId : String)
  | resetDue (env : Env) (f : ResetDueFaults) (limit : Int)
  | invalidate (env : Env) (f : AdminFaults) (userSubscriptionId : Int)
  | delete (env : Env) (f : AdminFaults) (userSubscriptionId : Int)
  | expire (env : Env) (f : ExpireFaults) (map : MapOrder) (limit : Int)
  | editPlans (plans : Int → Option SubscriptionPlan)

def Op.run (s : SubStore) : Op → SubStore
  | .create env f userId plan source => (createUserSubscription env f userId plan source s).2
  | .preConsume env f requestId userId amount =>
    (preConsumeUserSubscription env f requestId userId amount s).2
  | .postConsume f id delta => (postConsumeUserSubscriptionDelta f id delta s).2
  | .refund f requestId => (refundSubscriptionPreConsume f requestId s).2
  | .resetDue env f limit => (resetDueSubscriptions env f limit s).2
  | .invalidate env f id => (adminInvalidateUserSubscription env f id s).2
  | .delete env f id => (adminDeleteUserSubscription env f id s).2
  | .expire env f map limit => (expireDueSubscriptions env f map limit s).2
  | .editPlans plans => { s with plans := plans }

def SubStore.initial (plans : Int → Option SubscriptionPlan) (groups : Int → String) :
    SubStore where
  subs := Table.empty
  records := fun _ => none
  plans := plans
  groups := groups
  resets := []

def subscriptions : System SubStore Op :=
  System.ofFun Op.run fun s => ∃ plans groups, s = SubStore.initial plans groups

/-! ## The record of a request along a run -/

theorem run_record (s : SubStore) (op : Op) (requestId : String)
    (hOther : ∀ f, op ≠ .refund f requestId) :
    (op.run s).records requestId = s.records requestId ∨
      s.records requestId = none ∧
        (∃ env f userId amount, op = .preConsume env f requestId userId amount) ∧
        ∃ record, (op.run s).records requestId = some record ∧
          record.status = .consumed ∧ 0 < record.preConsumed := by
  cases op with
  | create env f userId plan source =>
    left
    rcases create_cases env f userId plan source s with ⟨e, hRun⟩ | ⟨endUnix, _, _, hRun⟩ <;>
      rw [Op.run, hRun]
  | preConsume env f rid userId amount =>
    rcases preConsume_cases env f rid userId amount s with
      ⟨e, hRun⟩ | ⟨record, sub, _, _, _, hRun⟩ | ⟨r, t, hNone, _, hAmount, hRun, hCharges⟩
    · left; rw [Op.run, hRun]
    · left; rw [Op.run, hRun]
    rw [Op.run, hRun]
    obtain ⟨s', sub, hResets, _, _, _, _, rfl⟩ := hCharges
    by_cases hId : requestId = rid
    · subst hId
      refine .inr ⟨hNone, ⟨_, _, _, _, rfl⟩, chargeRecord userId amount sub, ?_, rfl, hAmount⟩
      exact update_self ..
    · left
      show update s'.records rid _ requestId = _
      rw [update_of_ne hId, hResets.frame.1]
  | postConsume f id delta =>
    left
    rcases postConsume_cases f id delta s with ⟨e, hRun⟩ | ⟨_, hRun⟩ | ⟨sub, _, _, _, hRun⟩ <;>
      rw [Op.run, hRun]
    rfl
  | refund f rid =>
    have hId : requestId ≠ rid := by
      rintro rfl
      exact hOther f rfl
    left
    rcases refund_cases f rid s with
      ⟨_, r, hRun⟩ | ⟨record, _, _, _, _, hRun⟩ | ⟨record, s', _, _, _, _, hPost, hRun⟩
    · rw [Op.run, hRun]
    · rw [Op.run, hRun]
      exact update_of_ne hId ..
    have hFrame : s'.records = s.records := (postConsume_frame hPost).1
    rcases hRun with hRun | ⟨_, e, hRun⟩
    · rw [Op.run, hRun]
      show update s'.records rid _ requestId = _
      rw [update_of_ne hId, hFrame]
    · rw [Op.run, hRun, hFrame]
  | resetDue env f limit =>
    left
    rw [Op.run, (resetDue_resets env f limit s).frame.1]
  | invalidate env f id =>
    left
    rcases invalidate_cases env f id s with ⟨e, hRun⟩ | ⟨sub, text, _, hRun⟩ <;>
      rw [Op.run, hRun]
  | delete env f id =>
    left
    rcases delete_cases env f id s with ⟨e, hRun⟩ | ⟨sub, text, _, hRun⟩ <;>
      rw [Op.run, hRun]
  | expire env f map limit =>
    left
    rw [Op.run, expire_records]
  | editPlans plans => exact .inl rfl

/-! ## The range of the usage -/

structure InBounds (sub : UserSubscription) : Prop where
  nonneg : 0 ≤ sub.amountUsed
  le_total : 0 < sub.amountTotal → sub.amountUsed ≤ sub.amountTotal

def Bounded (s : SubStore) : Prop := ∀ sub ∈ s.subs.rows, InBounds sub

theorem InBounds.congr {x y : UserSubscription} (hx : InBounds x)
    (hUsed : y.amountUsed = x.amountUsed) (hTotal : y.amountTotal = x.amountTotal) :
    InBounds y where
  nonneg := by rw [hUsed]; exact hx.nonneg
  le_total := by rw [hUsed, hTotal]; exact hx.le_total

variable {s : SubStore}

theorem Bounded.save {new : UserSubscription} (h : Bounded s) (hNew : InBounds new) :
    ∀ x ∈ (s.subs.save new).rows, InBounds x := by
  intro x hx
  rcases Table.mem_save hx with ⟨rfl, _⟩ | ⟨hOld, _⟩
  · exact hNew
  · exact h x hOld

theorem InBounds.resetApply {sub : UserSubscription} (h : InBounds sub) (o : ResetOutcome) :
    InBounds (o.apply sub) := by
  cases o with
  | keep => exact h
  | schedule last next => exact h.congr rfl rfl
  | reset last next => exact ⟨le_refl 0, fun hTotal => le_of_lt hTotal⟩

theorem Bounded.resets {env : Env} {t : SubStore} (h : Bounded s) (hr : Resets env s t) :
    Bounded t := by
  induction hr with
  | refl => exact h
  | tail _ hMem _ ih =>
    intro x hx
    rcases ResetOutcome.mem_saveTo hMem hx with rfl | ⟨hOld, _⟩
    · exact (ih _ hMem).resetApply _
    · exact ih x hOld

theorem Bounded.preConsume (h : Bounded s) (env : Env) (f : PreConsumeFaults) (requestId : String)
    (userId amount : Int) :
    Bounded (preConsumeUserSubscription env f requestId userId amount s).2 := by
  rcases preConsume_cases env f requestId userId amount s with
    ⟨e, hRun⟩ | ⟨record, sub, _, _, _, hRun⟩ | ⟨r, t, _, _, hAmount, hRun, hCharges⟩
  · rw [hRun]; exact h
  · rw [hRun]; exact h
  rw [hRun]
  obtain ⟨s', sub, hResets, _, hRow, hRoom, _, rfl⟩ := hCharges
  have h' : Bounded s' := h.resets hResets
  have hSub : InBounds sub := h' sub hRow
  have hNonneg := hSub.nonneg
  -- The room check: what is left of the total covers the amount.
  have hNew : InBounds { sub with amountUsed := sub.amountUsed + amount } := by
    refine ⟨?_, ?_⟩
    · show 0 ≤ sub.amountUsed + amount
      omega
    intro hTotal
    have hTotal : 0 < sub.amountTotal := hTotal
    show sub.amountUsed + amount ≤ sub.amountTotal
    omega
  exact h'.save hNew

theorem newUsed_nonneg (sub : UserSubscription) (delta : Int) : 0 ≤ newUsed sub delta := by
  unfold newUsed
  split <;> omega

section

variable (h : Bounded s)
include h

theorem Bounded.postConsume (f : PostConsumeFaults) (id delta : Int) :
    Bounded (postConsumeUserSubscriptionDelta f id delta s).2 := by
  rcases postConsume_cases f id delta s with ⟨e, hRun⟩ | ⟨_, hRun⟩ | ⟨sub, _, _, hRoom, hRun⟩
  · rw [hRun]; exact h
  · rw [hRun]; exact h
  rw [hRun]
  refine h.save ⟨newUsed_nonneg sub delta, ?_⟩
  intro hTotal
  exact not_lt.mp fun hOver => hRoom ⟨hTotal, hOver⟩

theorem Bounded.refund (f : RefundFaults) (requestId : String) :
    Bounded (refundSubscriptionPreConsume f requestId s).2 := by
  rcases refund_cases f requestId s with
    ⟨_, r, hRun⟩ | ⟨record, _, _, _, _, hRun⟩ | ⟨record, s', _, _, _, _, hPost, hRun⟩
  · rw [hRun]; exact h
  · rw [hRun]; exact h
  have h' : Bounded s' := by
    have hKeep := h.postConsume f.post record.userSubscriptionId (-record.preConsumed)
    rw [hPost] at hKeep
    exact hKeep
  rcases hRun with hRun | ⟨_, e, hRun⟩
  · rw [hRun]; exact h'
  · rw [hRun]; exact h'

theorem Bounded.create (env : Env) (f : CreateFaults) (userId : Int) (plan : SubscriptionPlan)
    (source : String) :
    Bounded (createUserSubscription env f userId plan source s).2 := by
  rcases create_cases env f userId plan source s with ⟨e, hRun⟩ | ⟨endUnix, _, _, hRun⟩
  · rw [hRun]; exact h
  rw [hRun]
  intro x hx
  rcases (Table.mem_insert fun _ => rfl).mp hx with hOld | rfl
  · exact h x hOld
  · exact ⟨le_refl 0, fun hTotal => le_of_lt hTotal⟩

theorem Bounded.expireUser (f : ExpireFaults) (now userId : Int) :
    Bounded (expireUser f now userId s).2 := by
  rcases expireUser_cases f now userId s with ⟨e, hRun⟩ | ⟨n, groups, _, hRun⟩
  · rw [hRun]; exact h
  rw [hRun]
  intro x hx
  rcases mem_expireRows.mp hx with ⟨hOld, _⟩ | ⟨y, hy, _, rfl⟩
  · exact h x hOld
  · exact (h y hy).congr rfl rfl

theorem Bounded.run (op : Op) : Bounded (op.run s) := by
  cases op with
  | create env f userId plan source => exact h.create env f userId plan source
  | preConsume env f requestId userId amount => exact h.preConsume env f requestId userId amount
  | postConsume f id delta => exact h.postConsume f id delta
  | refund f requestId => exact h.refund f requestId
  | resetDue env f limit => exact h.resets (resetDue_resets env f limit s)
  | invalidate env f id =>
    rcases invalidate_cases env f id s with ⟨e, hRun⟩ | ⟨sub, text, hSub, hRun⟩
    · rw [Op.run, hRun]; exact h
    · rw [Op.run, hRun]
      exact h.save ((h sub (Table.find?_eq_some.mp hSub).1).congr rfl rfl)
  | delete env f id =>
    rcases delete_cases env f id s with ⟨e, hRun⟩ | ⟨sub, text, _, hRun⟩
    · rw [Op.run, hRun]; exact h
    · rw [Op.run, hRun]
      exact fun x hx => h x (Table.mem_remove.mp hx).1
  | expire env f map limit => exact expire_keeps (fun u t ht => ht.expireUser f env.now u) h
  | editPlans plans => exact h

end

theorem reach_bounded (h : subscriptions.Reach s) : Bounded s := by
  refine h.invariant ?_ ?_
  · rintro s ⟨plans, groups, rfl⟩ sub hSub
    cases hSub
  · rintro s op t hs rfl
    exact hs.run op

theorem preConsume_consumed {requestId : String} {record : SubscriptionPreConsumeRecord}
    (hRec : s.records requestId = some record) (env : Env) (f : PreConsumeFaults)
    (userId amount : Int) : (preConsumeUserSubscription env f requestId userId amount s).2 = s := by
  rcases preConsume_cases env f requestId userId amount s with
    ⟨e, hRun⟩ | ⟨_, sub, _, _, _, hRun⟩ | ⟨r, t, hNone, _⟩
  · rw [hRun]
  · rw [hRun]
  · rw [hRec] at hNone; cases hNone

/-- **The usage of every subscription stays within its bounds, and a request is charged once**,
after calls in any order and with any faults. -/
theorem usage_bounded_and_charge_idempotent (s : SubStore) (h : subscriptions.Reach s) :
    (∀ sub ∈ s.subs.rows, 0 ≤ sub.amountUsed ∧
      (0 < sub.amountTotal → sub.amountUsed ≤ sub.amountTotal)) ∧
    ∀ (requestId : String) (record : SubscriptionPreConsumeRecord),
      s.records requestId = some record → record.status = .consumed →
      ∀ (env : Env) (f : PreConsumeFaults) (userId amount : Int),
        (preConsumeUserSubscription env f requestId userId amount s).2 = s := by
  refine ⟨?_, ?_⟩
  · intro sub hSub
    have hIn := reach_bounded h sub hSub
    exact ⟨hIn.nonneg, hIn.le_total⟩
  · intro requestId record hRec _ env f userId amount
    exact preConsume_consumed hRec env f userId amount

def hourPlan : SubscriptionPlan where
  id := 1
  title := "hour"
  durationUnit := .hour
  durationValue := 1
  customSeconds := 0
  maxPurchasePerUser := 0
  upgradeGroup := ""
  totalAmount := 100
  quotaResetPeriod := "never"
  quotaResetCustomSeconds := 0

def envAt (now : Int) : Env where
  now := now
  loc := Go.utc
  fuel := 100

def shop : SubStore := SubStore.initial (fun _ => some hourPlan) (fun _ => "default")

def buyAndCharge : List Op :=
  [.create (envAt 1000) {} 1 hourPlan "order", .preConsume (envAt 1001) {} "r" 1 10]

def chargedOnce : SubStore := buyAndCharge.foldl Op.run shop

theorem chargedOnce_reach : subscriptions.Reach chargedOnce :=
  reach_foldl ⟨_, _, rfl⟩ buyAndCharge

theorem chargedOnce_usage_bounded :
    subscriptions.Reach chargedOnce ∧
      chargedOnce.subs.rows.map UserSubscription.amountUsed = [10] ∧
      (∀ sub ∈ chargedOnce.subs.rows, 0 ≤ sub.amountUsed ∧
        (0 < sub.amountTotal → sub.amountUsed ≤ sub.amountTotal)) ∧
      (preConsumeUserSubscription (envAt 1002) {} "r" 1 10 chargedOnce).2 = chargedOnce :=
  ⟨chargedOnce_reach, by decide,
    (usage_bounded_and_charge_idempotent chargedOnce chargedOnce_reach).1,
    (usage_bounded_and_charge_idempotent chargedOnce chargedOnce_reach).2 "r" ⟨1, 1, 10, .consumed⟩
      (by decide) rfl (envAt 1002) {} 1 10⟩

end NewApi.Subscription
