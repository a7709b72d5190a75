import NewApi.Subscription.Reset

/-!
# Charging, settling and refunding a subscription

`PreConsumeUserSubscription`, `PostConsumeUserSubscriptionDelta`, `RefundSubscriptionPreConsume` and
`refundWithRetry`. After each stands one lemma that says all it can do to the store (`…_cases`).
-/

namespace NewApi.Subscription

open Core Go SubStore List Prog

/-! ## `PreConsumeUserSubscription` -/

structure SubscriptionPreConsumeResult where
  userSubscriptionId : Int
  preConsumed : Int
  amountTotal : Int
  amountUsedBefore : Int
  amountUsedAfter : Int
  deriving DecidableEq, Repr

/-- The faults of one call; the plan lookup and the reset are per subscription. -/
structure PreConsumeFaults where
  findRecord : Option String := none
  firstSub : Option String := none
  findSubs : Option String := none
  plan : Int → Option String := fun _ => none
  reset : Int → Option String := fun _ => none
  create : Option String := none
  findDup : Option String := none
  save : Option String := none
  commit : Option String := none

def alreadyRefunded : String := "subscription pre-consume already refunded"

def repeated (sub : UserSubscription) (record : SubscriptionPreConsumeRecord) :
    SubscriptionPreConsumeResult where
  userSubscriptionId := sub.id
  preConsumed := record.preConsumed
  amountTotal := sub.amountTotal
  amountUsedBefore := sub.amountUsed
  amountUsedAfter := sub.amountUsed

def charged (sub : UserSubscription) (amount : Int) : SubscriptionPreConsumeResult where
  userSubscriptionId := sub.id
  preConsumed := amount
  amountTotal := sub.amountTotal
  amountUsedBefore := sub.amountUsed
  amountUsedAfter := sub.amountUsed + amount

def chargeRecord (userId amount : Int) (sub : UserSubscription) : SubscriptionPreConsumeRecord where
  userId := userId
  userSubscriptionId := sub.id
  preConsumed := amount
  status := .consumed

def chargeCandidate (f : PreConsumeFaults) (requestId : String) (userId amount : Int)
    (sub : UserSubscription) : Prog SubStore SubscriptionPreConsumeResult := do
  match ← Prog.attempt (Prog.stmt f.create
      (createRecord requestId (chargeRecord userId amount sub))) with
  | .error text =>
    match ← Prog.attempt (Prog.stmt f.findDup (firstRecord requestId)) with
    | .error _ => Prog.fail text
    | .ok dup =>
      if dup.status = .refunded then Prog.fail alreadyRefunded else pure (repeated sub dup)
  | .ok () =>
    Prog.stmt f.save (saveSub { sub with amountUsed := sub.amountUsed + amount })
    pure (charged sub amount)

def preConsumeLoop (env : Env) (f : PreConsumeFaults) (requestId : String)
    (userId amount : Int) : List UserSubscription → Prog SubStore SubscriptionPreConsumeResult
  | [] => Prog.fail ("subscription quota insufficient, need=" ++ toString amount)
  | candidate :: rest => do
    let plan ← Prog.stmt (f.plan candidate.id) (getSubscriptionPlanByIdTx candidate.planId)
    let sub ← maybeResetUserSubscriptionWithPlanTx env (f.reset candidate.id) candidate plan
    if 0 < sub.amountTotal ∧ sub.amountTotal - sub.amountUsed < amount then
      preConsumeLoop env f requestId userId amount rest
    else chargeCandidate f requestId userId amount sub

def candidates (env : Env) (userId : Int) (s : SubStore) : List UserSubscription :=
  s.query
    (fun sub => decide (sub.userId = userId ∧ sub.status = .active ∧ env.now < sub.endTime))
    endTimeAsc

/-- A request that has no record yet. A failing query reads as an empty one. -/
def preConsumeFresh (env : Env) (f : PreConsumeFaults) (requestId : String)
    (userId amount : Int) : Prog SubStore SubscriptionPreConsumeResult := do
  let subs ← Prog.read (candidates env userId)
  if f.findSubs.isSome ∨ subs = [] then Prog.fail "no active subscription"
  else preConsumeLoop env f requestId userId amount subs

def preConsumeRepeated (f : PreConsumeFaults) (existing : SubscriptionPreConsumeRecord) :
    Prog SubStore SubscriptionPreConsumeResult :=
  if existing.status = .refunded then Prog.fail alreadyRefunded
  else do
    let sub ← Prog.stmt f.firstSub (firstSub existing.userSubscriptionId)
    pure (repeated sub existing)

def preConsumeUserSubscription (env : Env) (f : PreConsumeFaults) (requestId : String)
    (userId amount : Int) : Prog SubStore SubscriptionPreConsumeResult :=
  if userId ≤ 0 then Prog.fail "invalid userId"
  else if trimSpace requestId = "" then Prog.fail "requestId is empty"
  else if amount ≤ 0 then Prog.fail "amount must be > 0"
  else Prog.transaction f.commit do
    match ← Prog.stmt f.findRecord (Prog.read fun s => s.records requestId) with
    | some existing => preConsumeRepeated f existing
    | none => preConsumeFresh env f requestId userId amount

/-! What a call does to the store. -/

def SubStore.charge (s : SubStore) (requestId : String) (userId amount : Int)
    (sub : UserSubscription) : SubStore :=
  { s with
    subs := s.subs.save { sub with amountUsed := sub.amountUsed + amount }
    records := Function.update s.records requestId (some (chargeRecord userId amount sub)) }

section PreConsume

variable {env : Env} {f : PreConsumeFaults} {requestId : String} {userId amount : Int}
  {s t : SubStore} {r : SubscriptionPreConsumeResult}

theorem chargeCandidate_ok {sub : UserSubscription} (hFresh : s.records requestId = none)
    (h : chargeCandidate f requestId userId amount sub s = (.ok r, t)) :
    r = charged sub amount ∧ t = s.charge requestId userId amount sub := by
  obtain ⟨created, s₁, hCreate, hRest⟩ := bind_eq_ok.mp h
  cases hc : f.create with
  | some text =>
    -- The record was not created, and there is no other one to find.
    rw [hc, stmt_some] at hCreate
    cases hCreate
    obtain ⟨dup, s₂, hDup, hRest⟩ := bind_eq_ok.mp hRest
    have hNone : ∃ e, attempt (stmt f.findDup (firstRecord requestId)) s
        = (.ok (.error e), s) := by
      cases f.findDup with
      | some e => exact ⟨e, attempt_err (fail_run e s)⟩
      | none => exact ⟨recordNotFound, attempt_err (by simp [firstRecord, hFresh])⟩
    obtain ⟨e, hNone⟩ := hNone
    rw [hNone] at hDup
    cases hDup; cases hRest
  | none =>
    rw [hc, stmt_none, attempt_ok (createRecord_run hFresh)] at hCreate
    cases hCreate
    obtain ⟨_, s', hSave, hRet⟩ := bind_eq_ok.mp hRest
    obtain ⟨_, hSave⟩ := stmt_eq_ok.mp hSave
    cases hSave; cases hRet
    exact ⟨rfl, rfl⟩

def Charges (env : Env) (requestId : String) (userId amount : Int) (l : List UserSubscription)
    (s : SubStore) (r : SubscriptionPreConsumeResult) (t : SubStore) : Prop :=
  ∃ s' sub, Resets env s s' ∧ (∃ c ∈ l, c.id = sub.id) ∧ sub ∈ s'.subs.rows ∧
    ¬(0 < sub.amountTotal ∧ sub.amountTotal - sub.amountUsed < amount) ∧
    r = charged sub amount ∧ t = s'.charge requestId userId amount sub

/-- **The loop charges once.** The row of each candidate is still the one that was read. -/
theorem preConsumeLoop_ok : ∀ (l : List UserSubscription) {s : SubStore},
    s.records requestId = none → (∀ c ∈ l, c ∈ s.subs.rows) →
    (l.map UserSubscription.id).Nodup →
    preConsumeLoop env f requestId userId amount l s = (.ok r, t) →
    Charges env requestId userId amount l s r t := by
  intro l
  induction l with
  | nil => intro s _ _ _ h; cases h
  | cons candidate rest ih =>
    intro s hFresh hMem hNodup h
    obtain ⟨plan, s₁, hPlan, hReset⟩ := bind_eq_ok.mp h
    obtain ⟨_, hPlan⟩ := stmt_eq_ok.mp hPlan
    obtain ⟨_, hs₁⟩ := getSubscriptionPlanByIdTx_ok hPlan
    rw [hs₁] at hReset
    obtain ⟨sub, s₂, hReset, hCharge⟩ := bind_eq_ok.mp hReset
    obtain ⟨o, ho, rfl, rfl⟩ := maybeReset_ok hReset
    have hCand : candidate ∈ s.subs.rows := hMem candidate mem_cons_self
    have hFresh' : (o.saveTo candidate s).records requestId = none := by
      rw [(o.saveTo_frame candidate s).1]
      exact hFresh
    split at hCharge
    · have hRest : ∀ c ∈ rest, c ∈ (o.saveTo candidate s).subs.rows := by
        intro c hc
        refine ResetOutcome.mem_saveTo_of_ne (hMem c (mem_cons_of_mem _ hc)) ?_
        intro hEq
        have hNotMem := (nodup_cons.mp hNodup).1
        exact hNotMem (hEq ▸ mem_map_of_mem hc)
      obtain ⟨s', sub', hResets, ⟨c, hc, hId⟩, hRow, hRoom, hr, ht⟩ :=
        ih hFresh' hRest (nodup_cons.mp hNodup).2 hCharge
      exact ⟨s', sub', (Resets.single hCand ho).trans hResets,
        ⟨c, mem_cons_of_mem _ hc, hId⟩, hRow, hRoom, hr, ht⟩
    · next hRoom =>
      obtain ⟨hr, ht⟩ := chargeCandidate_ok hFresh' hCharge
      exact ⟨_, _, Resets.single hCand ho, ⟨candidate, mem_cons_self, (o.apply_id _).symm⟩,
        o.apply_mem_saveTo hCand, hRoom, hr, ht⟩

theorem candidates_nodup (env : Env) (userId : Int) (s : SubStore) :
    ((candidates env userId s).map UserSubscription.id).Nodup := by
  have hPerm := (perm_insertionSort endTimeAsc (s.subs.rows.filter fun sub =>
    decide (sub.userId = userId ∧ sub.status = .active ∧ env.now < sub.endTime))).map
    UserSubscription.id
  refine hPerm.nodup_iff.mpr ?_
  exact s.subs.nodup.sublist (filter_sublist.map _)

/-- **`PreConsumeUserSubscription`** fails, repeats an earlier answer, or charges. -/
theorem preConsume_cases (env : Env) (f : PreConsumeFaults) (requestId : String)
    (userId amount : Int) (s : SubStore) :
    (∃ e, preConsumeUserSubscription env f requestId userId amount s = (.error e, s)) ∨
    (∃ record sub, s.records requestId = some record ∧ record.status = .consumed ∧
      s.subs.find? record.userSubscriptionId = some sub ∧
      preConsumeUserSubscription env f requestId userId amount s
        = (.ok (repeated sub record), s)) ∨
    (∃ r t, s.records requestId = none ∧ 0 < userId ∧ 0 < amount ∧
      preConsumeUserSubscription env f requestId userId amount s = (.ok r, t) ∧
      Charges env requestId userId amount (candidates env userId s) s r t) := by
  unfold preConsumeUserSubscription
  by_cases hUser : userId ≤ 0
  · rw [if_pos hUser]; exact .inl ⟨_, rfl⟩
  by_cases hRid : trimSpace requestId = ""
  · rw [if_neg hUser, if_pos hRid]; exact .inl ⟨_, rfl⟩
  by_cases hAmount : amount ≤ 0
  · rw [if_neg hUser, if_neg hRid, if_pos hAmount]; exact .inl ⟨_, rfl⟩
  rw [if_neg hUser, if_neg hRid, if_neg hAmount]
  rcases transaction_cases f.commit _ s with hErr | ⟨r, t, hTx, hBody⟩
  · exact .inl hErr
  obtain ⟨found, s₁, hFind, hBody⟩ := bind_eq_ok.mp hBody
  obtain ⟨_, hFind⟩ := stmt_eq_ok.mp hFind
  rw [read_run] at hFind
  cases hFind
  cases hRec : s.records requestId with rw [hRec] at hBody
  | some record =>
    simp only [preConsumeRepeated] at hBody
    split at hBody
    · cases hBody
    · next hStatus =>
      obtain ⟨sub, s₂, hSub, hRet⟩ := bind_eq_ok.mp hBody
      obtain ⟨_, hSub⟩ := stmt_eq_ok.mp hSub
      obtain ⟨hSub, rfl⟩ := firstSub_ok.mp hSub
      cases hRet
      refine .inr (.inl ⟨record, sub, rfl, ?_, hSub, hTx⟩)
      cases hs : record.status with
      | consumed => rfl
      | refunded => exact absurd hs hStatus
  | none =>
    obtain ⟨subs, s₂, hSubs, hBody⟩ := bind_eq_ok.mp hBody
    cases hSubs
    split at hBody
    · cases hBody
    · refine .inr (.inr ⟨r, t, rfl, by omega, by omega, hTx, ?_⟩)
      refine preConsumeLoop_ok _ hRec ?_ (candidates_nodup env userId s) hBody
      exact fun c hc => (mem_query.mp hc).1

theorem usedOf_charge {sub : UserSubscription} (hMem : sub ∈ s.subs.rows) (i : Int) :
    (s.charge requestId userId amount sub).usedOf i =
      (s.usedOf i).map fun used => used + if i = sub.id then amount else 0 := by
  have hSave := usedOf_save hMem { sub with amountUsed := sub.amountUsed + amount } rfl i
  refine Eq.trans hSave ?_
  by_cases hi : i = sub.id
  · subst hi
    simp [usedOf_self hMem]
  · simp [hi]

end PreConsume

/-! ## `PostConsumeUserSubscriptionDelta` -/

structure PostConsumeFaults where
  find : Option String := none
  save : Option String := none
  commit : Option String := none

def newUsed (sub : UserSubscription) (delta : Int) : Int :=
  if sub.amountUsed + delta < 0 then 0 else sub.amountUsed + delta

def postConsumeUserSubscriptionDelta (f : PostConsumeFaults) (userSubscriptionId delta : Int) :
    Prog SubStore Unit :=
  if userSubscriptionId ≤ 0 then Prog.fail "invalid userSubscriptionId"
  else if delta = 0 then pure ()
  else Prog.transaction f.commit do
    let sub ← Prog.stmt f.find (firstSub userSubscriptionId)
    if 0 < sub.amountTotal ∧ sub.amountTotal < newUsed sub delta then
      Prog.fail ("subscription used exceeds total, used=" ++ toString (newUsed sub delta) ++
        " total=" ++ toString sub.amountTotal)
    else Prog.stmt f.save (saveSub { sub with amountUsed := newUsed sub delta })

def SubStore.setUsed (s : SubStore) (sub : UserSubscription) (used : Int) : SubStore :=
  { s with subs := s.subs.save { sub with amountUsed := used } }

/-- **`PostConsumeUserSubscriptionDelta`** fails, does nothing, or writes a usage within the total.
-/
theorem postConsume_cases (f : PostConsumeFaults) (id delta : Int) (s : SubStore) :
    (∃ e, postConsumeUserSubscriptionDelta f id delta s = (.error e, s)) ∨
    (delta = 0 ∧ postConsumeUserSubscriptionDelta f id delta s = (.ok (), s)) ∨
    (∃ sub, delta ≠ 0 ∧ s.subs.find? id = some sub ∧
      ¬(0 < sub.amountTotal ∧ sub.amountTotal < newUsed sub delta) ∧
      postConsumeUserSubscriptionDelta f id delta s
        = (.ok (), s.setUsed sub (newUsed sub delta))) := by
  unfold postConsumeUserSubscriptionDelta
  by_cases hId : id ≤ 0
  · rw [if_pos hId]; exact .inl ⟨_, rfl⟩
  by_cases hDelta : delta = 0
  · rw [if_neg hId, if_pos hDelta]; exact .inr (.inl ⟨hDelta, rfl⟩)
  rw [if_neg hId, if_neg hDelta]
  rcases transaction_cases f.commit _ s with hErr | ⟨_, t, hTx, hBody⟩
  · exact .inl hErr
  obtain ⟨sub, s₁, hFind, hWrite⟩ := bind_eq_ok.mp hBody
  obtain ⟨hFind, rfl⟩ := firstSub_ok.mp (stmt_eq_ok.mp hFind).2
  split at hWrite
  · cases hWrite
  · next hRoom =>
    obtain ⟨_, hSave⟩ := stmt_eq_ok.mp hWrite
    cases hSave
    exact .inr (.inr ⟨sub, hDelta, hFind, hRoom, hTx⟩)

theorem postConsume_frame {f : PostConsumeFaults} {id delta : Int} {s t : SubStore}
    {r : Except Fail Unit} (h : postConsumeUserSubscriptionDelta f id delta s = (r, t)) :
    t.records = s.records ∧ t.subs.next = s.subs.next := by
  rcases postConsume_cases f id delta s with ⟨e, hRun⟩ | ⟨_, hRun⟩ | ⟨sub, _, _, _, hRun⟩ <;>
    rw [hRun] at h <;> cases h <;> exact ⟨rfl, rfl⟩

/-! ## `RefundSubscriptionPreConsume` -/

structure RefundFaults where
  find : Option String := none
  post : PostConsumeFaults := {}
  save : Option String := none
  commit : Option String := none

def SubStore.markRefunded (s : SubStore) (requestId : String)
    (record : SubscriptionPreConsumeRecord) : SubStore :=
  { s with
    records := Function.update s.records requestId (some { record with status := .refunded }) }

/-- `PostConsumeUserSubscriptionDelta` opens a transaction of its own, which stays when the outer
one is rolled back. -/
def refundSubscriptionPreConsume (f : RefundFaults) (requestId : String) : Prog SubStore Unit :=
  if trimSpace requestId = "" then Prog.fail "requestId is empty"
  else Prog.transactionWith (fun before after => { after with records := before.records })
      f.commit do
    let record ← Prog.stmt f.find (firstRecord requestId)
    if record.status = .refunded then pure ()
    else if record.preConsumed ≤ 0 then
      Prog.stmt f.save (saveRecord requestId { record with status := .refunded })
    else do
      postConsumeUserSubscriptionDelta f.post record.userSubscriptionId (-record.preConsumed)
      Prog.stmt f.save (saveRecord requestId { record with status := .refunded })

def refunding (f : RefundFaults) (requestId : String) (s : SubStore) :
    Option SubscriptionPreConsumeRecord :=
  if trimSpace requestId = "" ∨ f.find ≠ none then none
  else
    (s.records requestId).filter fun record =>
      decide (record.status = .consumed ∧ 0 < record.preConsumed) &&
        (postConsumeUserSubscriptionDelta f.post record.userSubscriptionId
          (-record.preConsumed) s).1.isOk

/-- **`RefundSubscriptionPreConsume`** changes nothing, marks a record that charged nothing, or
gives the charge back, and then marks the record or not. -/
theorem refund_cases (f : RefundFaults) (requestId : String) (s : SubStore) :
    (refunding f requestId s = none ∧
      ∃ r, refundSubscriptionPreConsume f requestId s = (r, s)) ∨
    (∃ record, refunding f requestId s = none ∧ s.records requestId = some record ∧
      record.status = .consumed ∧ record.preConsumed ≤ 0 ∧
      refundSubscriptionPreConsume f requestId s = (.ok (), s.markRefunded requestId record)) ∨
    (∃ record s', refunding f requestId s = some record ∧ s.records requestId = some record ∧
      record.status = .consumed ∧ 0 < record.preConsumed ∧
      postConsumeUserSubscriptionDelta f.post record.userSubscriptionId (-record.preConsumed) s
        = (.ok (), s') ∧
      (refundSubscriptionPreConsume f requestId s = (.ok (), s'.markRefunded requestId record) ∨
        (f.save ≠ none ∨ f.commit ≠ none) ∧
          ∃ e, refundSubscriptionPreConsume f requestId s = (.error e, s'))) := by
  unfold refundSubscriptionPreConsume refunding
  by_cases hRid : trimSpace requestId = ""
  · rw [if_pos hRid, if_pos (.inl hRid)]
    exact .inl ⟨rfl, _, rfl⟩
  rw [if_neg hRid]
  cases hFind : f.find with
  | some text =>
    rw [if_pos (.inr (by simp))]
    exact .inl ⟨rfl, _, rfl⟩
  | none =>
    rw [if_neg (by simp [hRid])]
    cases hRec : s.records requestId with
    | none =>
      simp [transactionWith, bind_run, firstRecord, hRec]
    | some record =>
      cases hStatus : record.status with
      | refunded =>
        left
        cases f.commit <;>
          simp [transactionWith, bind_run, firstRecord, hRec, hStatus]
      | consumed =>
        by_cases hPre : record.preConsumed ≤ 0
        · have hNot : ¬0 < record.preConsumed := by omega
          cases hSave : f.save <;> cases hCommit : f.commit <;>
            simp [transactionWith, bind_run, firstRecord, hRec, hStatus, hPre, hNot, markRefunded]
        have hPos : 0 < record.preConsumed := by omega
        rcases postConsume_cases f.post record.userSubscriptionId (-record.preConsumed) s with
          ⟨e, hPost⟩ | ⟨hZero, _⟩ | ⟨sub, _, _, _, hPost⟩
        · refine .inl ⟨by simp [hPost, Except.toBool], .error e, ?_⟩
          simp [transactionWith, bind_run, firstRecord, hRec, hStatus, hPre, hPost]
        · omega
        refine .inr (.inr ⟨record, _, ?_, rfl, hStatus, hPos, hPost, ?_⟩)
        · simp [hPost, hStatus, hPos, Except.toBool]
        · cases hSave : f.save <;> cases hCommit : f.commit <;>
            simp [transactionWith, bind_run, firstRecord, hRec, hStatus, hPre, hPost, markRefunded,
              setUsed]

/-! ## `refundWithRetry` -/

def attempts {σ : Type} (fn : Nat → Prog σ Unit) : Nat → Nat → String → Prog σ Unit
  | _, 0, lastErr => Prog.fail lastErr
  | i, left + 1, _ => do
    match ← Prog.attempt (fn i) with
    | .ok () => pure ()
    | .error e => attempts fn (i + 1) left e

def refundWithRetry {σ : Type} (fn : Nat → Prog σ Unit) : Prog σ Unit := attempts fn 0 3 ""

theorem attempts_eq_calls {σ : Type} (fn : Nat → Prog σ Unit) :
    ∀ (left i : Nat) (e : String) (s : σ), ∃ k ≤ left, (attempts fn i left e s).2
      = (List.range' i k).foldl (fun t j => (fn j t).2) s := by
  intro left
  induction left with
  | zero => exact fun i e s => ⟨0, le_refl 0, rfl⟩
  | succ left ih =>
    intro i e s
    rcases hCall : fn i s with ⟨(text | _) | _, t⟩
    · obtain ⟨k, hk, hEq⟩ := ih (i + 1) text t
      refine ⟨k + 1, by omega, ?_⟩
      rw [attempts, bind_ok (attempt_err hCall), range'_succ, foldl_cons, hCall]
      exact hEq
    · refine ⟨1, by omega, ?_⟩
      simp [attempts, bind_run, attempt, hCall]
    · refine ⟨1, by omega, ?_⟩
      simp [attempts, bind_run, attempt, hCall]

end NewApi.Subscription
