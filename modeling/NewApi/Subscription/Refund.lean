import NewApi.Subscription.System

/-!
# How much a refund gives back

The usage is given back in a transaction of its own, and the record is marked on the outer handle;
when that fails, the next call gives it back once more (`KeepsMark`).
-/

namespace NewApi.Subscription

open Core SubStore

def usedBy (requestId : String) (s : SubStore) : Int :=
  match s.records requestId with
  | none => 0
  | some record =>
    match s.subs.find? record.userSubscriptionId with
    | none => 0
    | some sub => sub.amountUsed

structure RefundState where
  store : SubStore
  given : Int

def givenBy (requestId : String) (s : SubStore) : Op → Int
  | .refund f rid =>
    if rid = requestId then
      usedBy requestId s - usedBy requestId (Op.run s (.refund f rid))
    else 0
  | _ => 0

def RefundState.next (requestId : String) (st : RefundState) (op : Op) : RefundState where
  store := op.run st.store
  given := st.given + givenBy requestId st.store op

@[simp] theorem RefundState.next_store (requestId : String) (st : RefundState) (op : Op) :
    (st.next requestId op).store = op.run st.store := rfl

def refunds (requestId : String) : System RefundState Op :=
  System.ofFun (RefundState.next requestId) fun st =>
    (∃ plans groups, st.store = SubStore.initial plans groups) ∧ st.given = 0

def KeepsMark (requestId : String) (st : RefundState) : Op → Prop
  | .refund f rid =>
    rid = requestId → refunding f rid st.store ≠ none → f.save = none ∧ f.commit = none
  | _ => True

/-! ## One call of the refund -/

variable {requestId : String} {s : SubStore}

theorem usedBy_sub_le {f : PostConsumeFaults} {t : SubStore} {record : SubscriptionPreConsumeRecord}
    (hRec : s.records requestId = some record) (hPos : 0 < record.preConsumed)
    (hPost : postConsumeUserSubscriptionDelta f record.userSubscriptionId (-record.preConsumed) s =
      (.ok (), t)) :
    usedBy requestId s - usedBy requestId t ≤ record.preConsumed := by
  have hRec' : t.records requestId = some record := by rw [(postConsume_frame hPost).1, hRec]
  simp only [usedBy, hRec, hRec']
  rcases postConsume_cases f record.userSubscriptionId (-record.preConsumed) s with
    ⟨e, hRun⟩ | ⟨hZero, _⟩ | ⟨sub, _, hSub, _, hRun⟩
  · rw [hRun] at hPost; cases hPost
  · omega
  rw [hRun] at hPost
  cases hPost
  have hKey : sub.id = record.userSubscriptionId := (Table.find?_eq_some.mp hSub).2
  have hNew : (s.setUsed sub (newUsed sub (-record.preConsumed))).subs.find?
      record.userSubscriptionId
        = some { sub with amountUsed := newUsed sub (-record.preConsumed) } := by
    rw [← hKey] at hSub ⊢
    exact Table.find?_save_self hSub
  rw [hSub, hNew]
  change sub.amountUsed - newUsed sub _ ≤ _
  unfold newUsed
  split <;> omega

theorem usedBy_markRefunded {record : SubscriptionPreConsumeRecord}
    (hRec : s.records requestId = some record) :
    usedBy requestId (s.markRefunded requestId record) = usedBy requestId s := by
  simp [usedBy, markRefunded, hRec]

theorem refund_step {f : RefundFaults}
    (hMark : refunding f requestId s ≠ none → f.save = none ∧ f.commit = none) :
    let t := Op.run s (.refund f requestId)
    t = s ∨ ∃ record, s.records requestId = some record ∧ record.status = .consumed ∧
      t.records requestId = some { record with status := .refunded } ∧
      usedBy requestId s - usedBy requestId t ≤ max record.preConsumed 0 := by
  intro t
  have ht : t = (refundSubscriptionPreConsume f requestId s).2 := rfl
  rcases refund_cases f requestId s with
    ⟨_, r, hRun⟩ | ⟨record, _, hRec, hStatus, _, hRun⟩ |
      ⟨record, s', hGives, hRec, hStatus, hPos, hPost, hRun⟩
  · left; rw [ht, hRun]
  · right
    rw [hRun] at ht
    refine ⟨record, hRec, hStatus, ?_, ?_⟩
    · rw [ht]; exact Function.update_self ..
    · rw [ht, usedBy_markRefunded hRec]
      omega
  · right
    rcases hRun with hRun | ⟨hFault, _⟩
    · rw [hRun] at ht
      have hRec' : s'.records requestId = some record := by rw [(postConsume_frame hPost).1, hRec]
      refine ⟨record, hRec, hStatus, ?_, ?_⟩
      · rw [ht]; exact Function.update_self ..
      · rw [ht, usedBy_markRefunded hRec']
        have hLe := usedBy_sub_le hRec hPos hPost
        omega
    · obtain ⟨hSave, hCommit⟩ := hMark (by simp [hGives])
      rcases hFault with h | h
      · exact absurd hSave h
      · exact absurd hCommit h

/-! ## Whole runs -/

/-- Nothing is given back before the record is marked, and at most the charge once
it is. -/
structure GivenOnce (requestId : String) (st : RefundState) : Prop where
  unmarked : (∀ record, st.store.records requestId = some record → record.status = .consumed) →
    st.given = 0
  marked : ∀ record, st.store.records requestId = some record →
    0 < record.preConsumed ∧ st.given ≤ record.preConsumed

theorem GivenOnce.step {st : RefundState} (h : GivenOnce requestId st) (op : Op)
    (hMark : KeepsMark requestId st op) : GivenOnce requestId (st.next requestId op) := by
  by_cases hRefund : ∃ f, op = .refund f requestId
  · obtain ⟨f, rfl⟩ := hRefund
    have hGiven : (st.next requestId (.refund f requestId)).given =
        st.given + (usedBy requestId st.store -
          usedBy requestId (Op.run st.store (.refund f requestId))) := by
      simp [RefundState.next, givenBy]
    rcases refund_step (hMark rfl) with hSame | ⟨record, hRec, hStatus, hRec', hLe⟩
    · have hStore : (st.next requestId (.refund f requestId)).store = st.store := by
        rw [RefundState.next_store, hSame]
      rw [hSame, Int.sub_self, Int.add_zero] at hGiven
      exact ⟨by rw [hStore, hGiven]; exact h.unmarked, by rw [hStore, hGiven]; exact h.marked⟩
    have hZero : st.given = 0 := by
      refine h.unmarked ?_
      intro record' hRecord'
      rw [hRec] at hRecord'
      cases hRecord'
      exact hStatus
    have hPos := (h.marked record hRec).1
    refine ⟨?_, ?_⟩
    · intro hAll
      rw [RefundState.next_store] at hAll
      have := hAll _ hRec'
      cases this
    intro record' hRecord'
    rw [RefundState.next_store, hRec'] at hRecord'
    cases hRecord'
    refine ⟨hPos, ?_⟩
    show _ ≤ record.preConsumed
    omega
  · have hOther : ∀ f, op ≠ .refund f requestId := fun f hf => hRefund ⟨f, hf⟩
    have hGiven : (st.next requestId op).given = st.given := by
      have hZero : givenBy requestId st.store op = 0 := by
        cases op with
        | refund f rid =>
          refine if_neg ?_
          rintro rfl
          exact hOther f rfl
        | _ => rfl
      simp [RefundState.next, hZero]
    rcases run_record st.store op requestId hOther with
      hSame | ⟨hNone, _, record, hRec, hStatus, hPos⟩
    · have hRec : (st.next requestId op).store.records requestId =
          st.store.records requestId := by rw [RefundState.next_store, hSame]
      exact ⟨by rw [hRec, hGiven]; exact h.unmarked, by rw [hRec, hGiven]; exact h.marked⟩
    have hZero : st.given = 0 := h.unmarked (by simp [hNone])
    refine ⟨fun _ => by rw [hGiven, hZero], ?_⟩
    intro record' hRecord'
    rw [RefundState.next_store, hRec] at hRecord'
    cases hRecord'
    exact ⟨hPos, by rw [hGiven, hZero]; exact le_of_lt hPos⟩

theorem reach_givenOnce {st : RefundState}
    (h : ((refunds requestId).only (KeepsMark requestId)).Reach st) : GivenOnce requestId st := by
  refine h.invariant ?_ ?_
  · rintro st ⟨⟨plans, groups, hStore⟩, hGiven⟩
    refine ⟨fun _ => hGiven, ?_⟩
    intro record hRec
    rw [hStore] at hRec
    cases hRec
  · rintro st op st' hSt ⟨hMark, rfl⟩
    exact hSt.step op hMark

theorem refundWithRetry_run (requestId : String) (fs : Nat → RefundFaults) (s : SubStore) :
    ∃ k ≤ 3, (refundWithRetry (fun i => refundSubscriptionPreConsume (fs i) requestId) s).2 =
      ((List.range k).map fun i => Op.refund (fs i) requestId).foldl Op.run s := by
  obtain ⟨k, hk, hEq⟩ :=
    attempts_eq_calls (fun i => refundSubscriptionPreConsume (fs i) requestId) 3 0 "" s
  refine ⟨k, hk, ?_⟩
  rw [refundWithRetry, hEq, List.foldl_map, List.range_eq_range']
  rfl

/-- **When every call that gives a charge back marks its record, no request is given back more than
it was charged.** -/
theorem given_le_preConsumed (requestId : String) (st : RefundState)
    (h : ((refunds requestId).only (KeepsMark requestId)).Reach st) :
    (∀ record, st.store.records requestId = some record → st.given ≤ record.preConsumed) ∧
    ∀ fs : Nat → RefundFaults, ∃ k ≤ 3,
      (refundWithRetry (fun i => refundSubscriptionPreConsume (fs i) requestId) st.store).2 =
        ((List.range k).map fun i => Op.refund (fs i) requestId).foldl Op.run st.store := by
  refine ⟨?_, ?_⟩
  · intro record hRec
    exact ((reach_givenOnce h).marked record hRec).2
  · intro fs
    exact refundWithRetry_run requestId fs st.store

def buyAndChargeTwice : List Op := buyAndCharge ++ [.preConsume (envAt 1002) {} "q" 1 10]

def retriedLookup : List Op :=
  buyAndChargeTwice ++ [.refund { find := some "timeout" } "r", .refund {} "r"]

theorem retriedLookup_given_le :
    let st := retriedLookup.foldl (RefundState.next "r") ⟨shop, 0⟩
    st.store.subs.rows.map UserSubscription.amountUsed = [10] ∧ st.given = 10 ∧
      ∀ record, st.store.records "r" = some record → st.given ≤ record.preConsumed := by
  refine ⟨by decide, by decide, ?_⟩
  refine (given_le_preConsumed "r" _ (reach_only_foldl ⟨⟨_, _, rfl⟩, rfl⟩ retriedLookup ?_)).1
  simp [retriedLookup, buyAndChargeTwice, buyAndCharge, KeepsMark]

def retriedMark : List Op :=
  buyAndChargeTwice ++ [.refund { save := some "timeout" } "r",
    .refund { save := some "timeout" } "r", .refund {} "r"]

/-- The request that was charged 10 takes 20 off the usage, 10 of them another
request's. -/
theorem retried_refund_gives_back_twice :
    ∃ st : RefundState, (refunds "r").Reach st ∧
      st.store.subs.rows.map UserSubscription.amountUsed = [0] ∧
      ∃ record, st.store.records "r" = some record ∧ record.preConsumed = 10 ∧ st.given = 20 := by
  refine ⟨_, reach_foldl (s := ⟨shop, 0⟩) ⟨⟨_, _, rfl⟩, rfl⟩ retriedMark, by decide, ?_⟩
  exact ⟨⟨1, 1, 10, .refunded⟩, by decide, rfl, by decide⟩

end NewApi.Subscription
