import Mathlib.Algebra.Group.Int.Defs
import NewApi.Billing.Db
import NewApi.Billing.Rules

/-!
# A new session charges one source, or nothing is changed

`NewBillingSession` with any pattern of failing operations.  An attempt that is given up leaves the
database as it found it, so the fallback starts from the same one.
-/

namespace NewApi.Billing

open Core Core.Prog Subscription Table

/-! ## The statement -/

def Unchanged (before after : Db) : Prop :=
  (∀ u, after.quotaOf u = before.quotaOf u) ∧ (∀ i, after.remainOf i = before.remainOf i) ∧
    ∀ i, after.usedOf i = before.usedOf i

def WalletCharged (before after : Db) (userId amount : Int) : Prop :=
  (before.quotaOf userId).isSome ∧
    (∀ u, after.quotaOf u = (before.quotaOf u).map fun q => if u = userId then q - amount else q) ∧
    ∀ i, after.usedOf i = before.usedOf i

def SubscriptionCharged (before after : Db) (id amount : Int) : Prop :=
  (before.usedOf id).isSome ∧ (∀ u, after.quotaOf u = before.quotaOf u) ∧
    ∃ resets, after.subs.resets = before.subs.resets ++ resets ∧
      ∀ i, after.usedOf i = (before.usedOf i).map fun used =>
        (if i ∈ resets then 0 else used) + if i = id then amount else 0

def Charged (before after : Db) (info : RelayInfo) (amount : Int) : Funding → Prop
  | .wallet _ => WalletCharged before after info.userId amount
  | .subscription f => SubscriptionCharged before after f.subscriptionId amount

/-- An error changes nothing, and a session has charged its source by `preConsumedQuota`. -/
def AllOrNothing (before after : Db) (info : RelayInfo) :
    Except APIError BillingSession → Prop
  | .error _ => Unchanged before after
  | .ok session => Charged before after info session.preConsumedQuota session.funding

/-! ## The operations on a given database -/

variable (o : Outside) (id : Int) {quota : Int} (db : Db)

section Operations

variable {d : Db}

theorem call_triple (outside : Nat → Outside) {α : Type} {p : Outside → Prog Db α}
    {P : Db → Prop} {Q : α → Db → Prop} {E : String → Db → Prop} (h : ∀ o, Triple P (p o) Q E) :
    Triple (fun w => P w.db) (World.call outside p) (fun a w => Q a w.db)
      (fun e w => E e w.db) := by
  intro w hw
  obtain ⟨hOk, hErr⟩ := h (outside w.calls) w.db hw
  unfold World.call
  rcases hRun : p (outside w.calls) w.db with ⟨r, db⟩
  refine ⟨?_, ?_⟩
  · intro a t ht
    cases ht
    exact hOk a db hRun
  · intro e t ht
    cases ht
    exact hErr e db hRun

theorem decreaseUserQuota_triple (hQuota : 0 ≤ quota) :
    Triple (· = d) (decreaseUserQuota o id quota) (fun _ db => db = d.addQuota id (-quota))
      (fun _ db => db = d) := by
  unfold decreaseUserQuota
  rw [if_neg (by omega)]
  exact (Triple.write fun db hdb => by rw [hdb]).stmt fun _ _ h => h

theorem getUserQuota_triple :
    Triple (· = d) (getUserQuota o id) (fun q db => db = d ∧ q = (d.quotaOf id).getD 0)
      (fun _ db => db = d) :=
  (Triple.read fun db hdb => ⟨hdb, by rw [hdb]⟩).stmt fun _ _ h => h

theorem getTokenByKey_triple (key : String) :
    Triple (· = d) (getTokenByKey o key) (fun _ db => db = d) (fun _ db => db = d) := by
  refine Triple.stmt (Triple.of_cases ?_) fun _ _ h => h
  intro db hdb
  cases hFind : db.tokens.rows.find? fun t => decide (t.key = key) with
  | none => exact .inl ⟨recordNotFound, db, rfl, hdb⟩
  | some token => exact .inr ⟨_, db, rfl, hdb⟩

theorem decreaseTokenQuota_triple (hQuota : 0 ≤ quota) :
    Triple (· = d) (decreaseTokenQuota o id quota) (fun _ db => db = d.addRemain id (-quota))
      (fun _ db => db = d) := by
  unfold decreaseTokenQuota
  rw [if_neg (by omega)]
  exact (Triple.write fun db hdb => by rw [hdb]).stmt fun _ _ h => h

theorem increaseTokenQuota_triple (hQuota : 0 ≤ quota) {E : String → Db → Prop} :
    Triple (· = d) (increaseTokenQuota id quota) (fun _ db => db = d.addRemain id quota) E := by
  unfold increaseTokenQuota
  rw [if_neg (by omega)]
  exact Triple.write fun db hdb => by rw [hdb]

theorem hasActiveUserSubscription_triple (userId : Int) :
    Triple (· = d) (hasActiveUserSubscription o userId) (fun _ db => db = d)
      (fun _ db => db = d) := by
  refine Triple.ite (fun _ => Triple.fail fun _ h => h) fun _ => ?_
  refine Triple.stmt (Triple.read ?_) ?_
  · exact fun _ h => h
  · exact fun _ _ h => h

theorem Db.addRemain_zero (id : Int) : db.addRemain id 0 = db := by
  unfold Db.addRemain
  rw [modify_eq_self _ fun t _ => by simp]

theorem Db.addRemain_neg (id a : Int) : (db.addRemain id (-a)).addRemain id a = db := by
  unfold Db.addRemain
  dsimp only
  rw [modify_modify, modify_eq_self]
  · simp
  · exact fun _ => rfl

theorem quotaOf_addQuota (id a u : Int) :
    (db.addQuota id a).quotaOf u = (db.quotaOf u).map fun q => if u = id then q + a else q := by
  unfold Db.quotaOf Db.addQuota
  rw [find?_modify]
  cases hFind : db.users.find? u with
  | none => rfl
  | some user =>
    obtain ⟨_, hId⟩ := find?_eq_some.mp hFind
    have hId : user.id = u := hId
    by_cases hu : u = id <;> simp [hu, hId]

theorem preConsumeUserSubscription_triple (info : RelayInfo) (amount : Int)
    (hFresh : d.subs.records info.requestId = none) :
    Triple (· = d) (Db.onSubs
        (preConsumeUserSubscription o.env o.preConsume info.requestId info.userId amount))
      (fun r db => SubscriptionCharged d db r.userSubscriptionId amount) (fun _ db => db = d) := by
  intro db hdb
  subst hdb
  unfold Db.onSubs
  rcases preConsume_cases o.env o.preConsume info.requestId info.userId amount db.subs with
    ⟨e, hRun⟩ | ⟨record, _, hRec, _⟩ | ⟨r, t, _, _, _, hRun, hCharges⟩
  · rw [hRun]
    refine ⟨nofun, ?_⟩
    intro e' t ht
    cases ht
    rfl
  · rw [hFresh] at hRec
    cases hRec
  · rw [hRun]
    refine ⟨?_, nofun⟩
    intro r' t' ht
    cases ht
    obtain ⟨s', sub, hResets, _, hMem, _, rfl, rfl⟩ := hCharges
    obtain ⟨ids, hIds, hUsed⟩ := usedOf_resets hResets
    refine ⟨?_, fun _ => rfl, ids, hIds, ?_⟩
    · -- The charged row is one of the rows that were there.
      have hOld := usedOf_self hMem
      rw [hUsed] at hOld
      show (db.subs.usedOf sub.id).isSome
      cases hStart : db.subs.usedOf sub.id with
      | none => rw [hStart] at hOld; cases hOld
      | some used => rfl
    · intro i
      show (s'.charge _ _ _ _).usedOf i = (db.subs.usedOf i).map _
      rw [usedOf_charge hMem, hUsed i, Option.map_map]
      rfl

theorem onSubs_keeps {α : Type} {p : Prog SubStore α} (h : ∀ s, (p s).2 = s) {P : Db → Prop} :
    Triple P (Db.onSubs p) (fun _ => P) (fun _ => P) := by
  intro db hdb
  have hSame : (Db.onSubs p db).2 = db := by
    show { db with subs := (p db.subs).2 } = db
    rw [h]
  refine ⟨?_, ?_⟩
  · intro a t ht
    rw [ht] at hSame
    have hEq : t = db := hSame
    rw [hEq]
    exact hdb
  · intro e t ht
    rw [ht] at hSame
    have hEq : t = db := hSame
    rw [hEq]
    exact hdb

theorem getSubscriptionPlanInfo_snd (s : SubStore) :
    (getSubscriptionPlanInfoByUserSubscriptionId o id s).2 = s := by
  unfold getSubscriptionPlanInfoByUserSubscriptionId
  split
  · rfl
  refine bind_snd_eq (stmt_snd_eq ?_) fun sub => ?_
  · unfold SubStore.firstSub
    cases s.subs.find? id <;> rfl
  refine bind_snd_eq (stmt_snd_eq ?_) fun plan => rfl
  unfold SubStore.getSubscriptionPlanByIdTx
  by_cases hPlan : sub.planId ≤ 0
  · simp [hPlan]
  · cases s.plans sub.planId <;> simp [hPlan]

end Operations

/-! ## One attempt -/

def Db.chargeRemain (d : Db) (info : RelayInfo) (quota : Int) : Db :=
  if info.isPlayground then d else d.addRemain info.tokenId (-quota)

variable (d : Db)

@[simp] theorem quotaOf_chargeRemain (info : RelayInfo) (quota u : Int) :
    (d.chargeRemain info quota).quotaOf u = d.quotaOf u := by
  unfold Db.chargeRemain
  split <;> rfl

@[simp] theorem subs_chargeRemain (info : RelayInfo) (quota : Int) :
    (d.chargeRemain info quota).subs = d.subs := by
  unfold Db.chargeRemain
  split <;> rfl

theorem Db.chargeRemain_zero (info : RelayInfo) : d.chargeRemain info 0 = d := by
  unfold Db.chargeRemain
  split
  · rfl
  · exact d.addRemain_zero info.tokenId

variable {amount : Int} {f : Funding}

theorem Charged.of_chargeRemain {d after : Db} {info : RelayInfo}
    (h : Charged (d.chargeRemain info quota) after info amount f) :
    Charged d after info amount f := by
  cases f with
  | wallet w => simpa [Charged, WalletCharged, Db.usedOf] using h
  | subscription sub => simpa [Charged, SubscriptionCharged, Db.usedOf] using h

section Attempts

variable {outside : Nat → Outside} {cfg : BillingConfig} {d : Db} {info : RelayInfo}

theorem preConsumeTokenQuota_triple (hQuota : 0 ≤ quota) :
    Triple (fun w => w.db = d) (preConsumeTokenQuota (dbStore outside) cfg info quota)
      (fun _ w => w.db = d.chargeRemain info quota) (fun _ w => w.db = d) := by
  unfold preConsumeTokenQuota Db.chargeRemain
  rw [if_neg (by omega)]
  refine Triple.ite (fun hPlay => Triple.pure fun w hw => ?_) fun hPlay => ?_
  · rw [if_pos hPlay]
    exact hw
  rw [if_neg hPlay]
  refine (call_triple outside fun o => getTokenByKey_triple o info.tokenKey).bind fun token => ?_
  refine Triple.ite (fun _ => Triple.fail fun w hw => hw) fun _ => ?_
  exact call_triple outside fun o => decreaseTokenQuota_triple o info.tokenId hQuota

theorem walletPreConsume_triple (hAmount : 0 ≤ amount) (hUser : (d.quotaOf info.userId).isSome) :
    Triple (fun w => w.db = d) (Funding.preConsume (dbStore outside) amount
        (.wallet ⟨info.userId, 0⟩))
      (fun f w => Charged d w.db info amount f) (fun _ w => w.db = d) := by
  refine Triple.ite (fun hNone => Triple.pure fun w hw => ?_) fun _ => ?_
  · have hZero : amount = 0 := by omega
    rw [hw]
    refine ⟨hUser, fun u => ?_, fun _ => rfl⟩
    simp [hZero]
  refine (call_triple outside fun o =>
    decreaseUserQuota_triple o info.userId hAmount).bind fun _ => ?_
  refine Triple.pure fun w hw => ?_
  rw [hw]
  refine ⟨hUser, fun u => ?_, fun _ => rfl⟩
  rw [quotaOf_addQuota]
  rfl

theorem subscriptionPreConsume_triple (hFresh : d.subs.records info.requestId = none) :
    Triple (fun w => w.db = d) (Funding.preConsume (dbStore outside) quota
        (.subscription (.ofRequest info amount)))
      (fun f w => Charged d w.db info amount f) (fun _ w => w.db = d) := by
  refine (call_triple outside fun o => preConsumeUserSubscription_triple o info amount hFresh).bind
    fun r => ?_
  have hPlan : Triple (fun w => SubscriptionCharged d w.db r.userSubscriptionId amount)
      ((dbStore outside).getSubscriptionPlanInfoByUserSubscriptionId r.userSubscriptionId)
      (fun _ w => SubscriptionCharged d w.db r.userSubscriptionId amount)
      (fun _ w => SubscriptionCharged d w.db r.userSubscriptionId amount) :=
    call_triple outside (P := fun db => SubscriptionCharged d db r.userSubscriptionId amount)
      fun o => onSubs_keeps (getSubscriptionPlanInfo_snd o r.userSubscriptionId)
  refine hPlan.attempt.bind fun plan => ?_
  cases plan with
  | ok info' | error text => exact Triple.pure fun w hw => hw

theorem attempt_triple {E : String → World → Prop} (hQuota : 0 ≤ quota)
    (hFund : ∀ d' : Db, d'.subs = d.subs → (∀ u, d'.quotaOf u = d.quotaOf u) → ∀ amount,
      amount = quota ∨ f.source = .wallet ∧ amount = 0 →
        Triple (fun w => w.db = d') (f.preConsume (dbStore outside) amount)
          (fun f' w => Charged d' w.db info amount f') (fun _ w => w.db = d'))
    {info' : RelayInfo} (hInfo : ∃ q, info' = { info with userQuota := q }) :
    Triple (fun w => w.db = d)
      ((BillingSession.fresh info' f).preConsume (dbStore outside) cfg quota)
      (Outcome (fun session w =>
          Charged d w.db info session.preConsumedQuota session.funding) (fun w => w.db = d)) E := by
  obtain ⟨q, rfl⟩ := hInfo
  generalize hTrusted :
    (BillingSession.fresh { info with userQuota := q } f).shouldTrust cfg = trusted
  generalize hEff : (if trusted = true then (0 : Int) else quota) = eff
  have hNonneg : 0 ≤ eff := by
    rw [← hEff]
    split
    · exact le_refl 0
    · exact hQuota
  have hAmount : eff = quota ∨ f.source = .wallet ∧ eff = 0 := by
    cases trusted with
    | false => exact .inl hEff.symm
    | true =>
      -- Only a wallet is trusted.
      refine .inr ⟨?_, hEff.symm⟩
      cases f with
      | wallet w => rfl
      | subscription sub =>
        simp [BillingSession.shouldTrust, BillingSession.fresh, Funding.source] at hTrusted
  refine preConsume_triple (C := fun w => w.db = d.chargeRemain info (max eff 0))
    (D := fun w => w.db = d.chargeRemain info (max eff 0)) hTrusted.symm hEff.symm ?_ ?_ ?_ ?_ ?_
  · intro _
    rw [max_eq_left hNonneg]
    exact preConsumeTokenQuota_triple hNonneg
  · intro hLe w hw
    rw [max_eq_right hLe, Db.chargeRemain_zero]
    exact hw
  · refine (hFund _ (subs_chargeRemain d info _) (quotaOf_chargeRemain d info _) eff hAmount).imp
      (fun _ h => h) ?_ (fun _ _ h => h)
    intro f' w hw
    simpa using hw.of_chargeRemain
  · intro _ hPlay
    refine (call_triple outside fun _ => increaseTokenQuota_triple info.tokenId hNonneg
      (E := fun _ db => db = d)).imp
      (fun _ h => h) ?_ (fun _ _ h => h)
    intro _ w hw
    rw [hw, max_eq_left hNonneg, Db.chargeRemain, if_neg hPlay]
    exact d.addRemain_neg info.tokenId eff
  · rintro (hLe | hPlay) w hw
    · rw [hw, max_eq_right hLe, Db.chargeRemain_zero]
    · rw [hw]
      exact if_pos hPlay

theorem userId_pos_of_quotaOf (h : (d.quotaOf info.userId).isSome) : 0 < info.userId := by
  obtain ⟨q, hq⟩ := Option.isSome_iff_exists.mp h
  obtain ⟨user, hFind, _⟩ := Option.map_eq_some_iff.mp hq
  obtain ⟨hMem, hId⟩ := find?_eq_some.mp hFind
  rw [← hId]
  exact (d.users.key_range user hMem).1

/-- The quota is not negative, or no wallet is tried or can be charged. -/
def WalletSafe (info : RelayInfo) (quota : Int) : Prop :=
  0 ≤ quota ∨ normalizeBillingPreference info.billingPreference = .subscriptionOnly ∨
    info.userId ≤ 0

theorem newBillingSession_db (hSafe : WalletSafe info quota)
    (hFresh : d.subs.records info.requestId = none) {E : String → World → Prop} :
    Triple (fun w => w.db = d) (newBillingSession (dbStore outside) cfg info quota)
      (Outcome (fun session w =>
        Charged d w.db info session.preConsumedQuota session.funding) (fun w => w.db = d)) E := by
  refine newBillingSession_triple ?_ ?_ ?_
  · exact call_triple outside fun o => hasActiveUserSubscription_triple o info.userId
  · intro hPref
    refine tryWallet_triple (R := fun q w => w.db = d ∧ q = (d.quotaOf info.userId).getD 0)
      (call_triple outside fun o => getUserQuota_triple o info.userId) (fun _ _ h => h.1) ?_
    intro q hPos _ w hw
    have hUser : (d.quotaOf info.userId).isSome := by
      cases hQuota : d.quotaOf info.userId with
      | none =>
        rw [hQuota] at hw
        have hZero : q = 0 := hw.2
        omega
      | some _ => rfl
    have hNonneg : 0 ≤ quota := by
      rcases hSafe with h | h | h
      · exact h
      · exact absurd h hPref
      · have := userId_pos_of_quotaOf hUser
        omega
    refine attempt_triple hNonneg ?_ ⟨q, rfl⟩ w hw.1
    intro d' _ hQuotas amount hAmount
    refine walletPreConsume_triple ?_ (by rw [hQuotas]; exact hUser)
    rcases hAmount with h | h <;> omega
  · intro q
    have hPos : 0 ≤ if quota ≤ 0 then 1 else quota := by split <;> omega
    refine attempt_triple hPos ?_ ⟨q, rfl⟩
    intro d' hSubs _ amount hAmount
    have hEq : amount = if quota ≤ 0 then 1 else quota := by
      rcases hAmount with h | ⟨h, _⟩
      · exact h
      · cases h
    subst hEq
    exact subscriptionPreConsume_triple (by rw [hSubs]; exact hFresh)

end Attempts

/-! ## The exception -/

def oneUser (id : Int) (hId : 0 < id) : Db where
  users :=
    { rows := [⟨id, 1⟩]
      next := id + 1
      nodup := by simp
      next_pos := by omega
      key_range := by
        intro r hr
        rw [List.mem_singleton.mp hr]
        show 0 < id ∧ id < id + 1
        omega }
  tokens := Table.empty
  subs := { subs := Table.empty, records := fun _ => none, plans := fun _ => none,
            groups := fun _ => "", resets := [] }

def noFaults (_ : Nat) : Outside where
  env := { now := 0, loc := Go.utc, fuel := 0 }

section Exception

variable {cfg : BillingConfig} {info : RelayInfo} {quota : Int}

theorem quotaOf_oneUser (hId : 0 < id) : (oneUser id hId).quotaOf id = some 1 := by
  simp [Db.quotaOf, oneUser, find?, Row.key]

theorem preConsumeFunding_ok {σ : Type} {B : BillingStore σ} (session : BillingSession) {s t : σ}
    (h : session.funding.preConsume B quota s = (.ok f, t)) :
    session.preConsumeFunding B quota s = (.ok (.ok
      { session with funding := f, preConsumedQuota := quota }.syncRelayInfo), t) := by
  rw [BillingSession.preConsumeFunding, bind_ok (attempt_ok h)]
  rfl

theorem preConsume_negative {σ : Type} {B : BillingStore σ} {userId : Int} (hQuota : quota < 0)
    (hTrust : (BillingSession.fresh info (.wallet ⟨userId, 0⟩)).shouldTrust cfg = false) (s : σ) :
    (BillingSession.fresh info (.wallet ⟨userId, 0⟩)).preConsume B cfg quota s
      = (.ok (.ok (BillingSession.charged info false quota (.wallet ⟨userId, 0⟩))), s) := by
  have hFund : Funding.preConsume B quota (.wallet ⟨userId, 0⟩) s
      = (.ok (.wallet ⟨userId, 0⟩), s) := by
    rw [Funding.preConsume, if_pos (le_of_lt hQuota)]
    rfl
  have hNot : ¬0 < if false = true then 0 else quota := by
    omega
  rw [BillingSession.preConsume, hTrust]
  rw [if_neg hNot]
  refine Eq.trans (preConsumeFunding_ok _ hFund) ?_
  rw [BillingSession.charged, max_eq_right (le_of_lt hQuota)]
  rfl

theorem tryWallet_negative (cfg : BillingConfig) (hUser : 0 < info.userId) (hQuota : quota < 0)
    (n : Nat) :
    ∃ session, tryWallet (dbStore noFaults) cfg info quota ⟨oneUser info.userId hUser, n⟩
        = (.ok (.ok session), ⟨oneUser info.userId hUser, n + 1⟩) ∧
      session.preConsumedQuota = quota ∧ session.funding = .wallet ⟨info.userId, 0⟩ := by
  have hRead : (dbStore noFaults).getUserQuota info.userId ⟨oneUser info.userId hUser, n⟩
      = (.ok 1, ⟨oneUser info.userId hUser, n + 1⟩) := by
    show (Except.ok (((oneUser info.userId hUser).quotaOf info.userId).getD 0), _) = _
    rw [quotaOf_oneUser]
    rfl
  have hTrust : (BillingSession.fresh { info with userQuota := 1 }
      (.wallet ⟨info.userId, 0⟩)).shouldTrust cfg = false := by
    -- A trust quota is positive, and the user has 1.
    rw [BillingSession.shouldTrust, Bool.and_eq_false_iff]
    by_cases hPos : 0 < cfg.trustQuota
    · right
      show decide (cfg.trustQuota < 1) = false
      rw [decide_eq_false_iff_not]
      omega
    · simp [hPos]
  unfold tryWallet
  rw [bind_ok (attempt_ok hRead)]
  dsimp only
  rw [if_neg (by decide), if_neg (by omega), bind_ok (preConsume_negative hQuota hTrust _)]
  exact ⟨_, rfl, BillingSession.charged_preConsumedQuota .., BillingSession.charged_funding ..⟩

theorem newBillingSession_negative (cfg : BillingConfig) (hUser : 0 < info.userId)
    (hQuota : quota < 0)
    (hPref : normalizeBillingPreference info.billingPreference ≠ .subscriptionOnly) :
    ∃ session n, newBillingSession (dbStore noFaults) cfg info quota
        ⟨oneUser info.userId hUser, 0⟩ = (.ok (.ok session), ⟨oneUser info.userId hUser, n⟩) ∧
      session.preConsumedQuota = quota ∧ session.funding = .wallet ⟨info.userId, 0⟩ := by
  have hOnly : ∀ n, ∃ session, newBillingSession.onlyWallet (dbStore noFaults) cfg info quota
      ⟨oneUser info.userId hUser, n⟩ = (.ok (.ok session), ⟨oneUser info.userId hUser, n + 1⟩) ∧
      session.preConsumedQuota = quota ∧ session.funding = .wallet ⟨info.userId, 0⟩ := by
    intro n
    obtain ⟨session, hRun, hRest⟩ := tryWallet_negative cfg hUser hQuota n
    exact ⟨session, by rw [newBillingSession.onlyWallet, bind_ok hRun]; rfl, hRest⟩
  unfold newBillingSession
  cases hCase : normalizeBillingPreference info.billingPreference with
  | subscriptionOnly => exact absurd hCase hPref
  | walletOnly =>
    obtain ⟨session, hRun, hRest⟩ := hOnly 0
    exact ⟨session, 1, hRun, hRest⟩
  | walletFirst =>
    obtain ⟨session, hRun, hRest⟩ := tryWallet_negative cfg hUser hQuota 0
    exact ⟨session, 1, by dsimp only; rw [bind_ok hRun]; rfl, hRest⟩
  | subscriptionFirst =>
    have hActive : (dbStore noFaults).hasActiveUserSubscription info.userId
        ⟨oneUser info.userId hUser, 0⟩ = (.ok false, ⟨oneUser info.userId hUser, 1⟩) := by
      have hId : ¬info.userId ≤ 0 := by omega
      simp only [dbStore, hasActiveUserSubscription, if_neg hId]
      rfl
    obtain ⟨session, hRun, hRest⟩ := hOnly 1
    exact ⟨session, 2, by dsimp only; rw [bind_ok (attempt_ok hActive)]; exact hRun, hRest⟩

end Exception

/-- **A new session charges one source by what it says, and an error changes nothing**, exactly when
the wallet is safe. -/
theorem newBillingSession_atomic_iff (cfg : BillingConfig) (info : RelayInfo) (quota : Int) :
    (∀ outside w r w', w.db.subs.records info.requestId = none →
      newBillingSession (dbStore outside) cfg info quota w = (.ok r, w') →
      AllOrNothing w.db w'.db info r) ↔ WalletSafe info quota := by
  constructor
  · intro hAll
    by_contra hNot
    simp only [WalletSafe, not_or, not_le] at hNot
    obtain ⟨hQuota, hPref, hUser⟩ := hNot
    obtain ⟨session, n, hRun, hPre, hFunding⟩ := newBillingSession_negative cfg hUser hQuota hPref
    have hCharged := hAll noFaults _ _ _ rfl hRun
    simp only [AllOrNothing, hFunding] at hCharged
    have hOwn := hCharged.2.1 info.userId
    rw [quotaOf_oneUser] at hOwn
    simp only [Option.map_some, if_true, Option.some.injEq] at hOwn
    omega
  · intro hSafe outside w r w' hFresh hRun
    have hOutcome := (newBillingSession_db hSafe hFresh (E := fun _ _ => False)).ok rfl hRun
    cases r with
    | ok session => exact hOutcome
    | error e =>
      have hSame : w'.db = w.db := hOutcome
      rw [hSame]
      exact ⟨fun _ => rfl, fun _ => rfl, fun _ => rfl⟩

/-- User 1 with a quota of 1 asks for -5: the session has reserved -5, and the wallet
still has 1. -/
theorem negative_quota_charges_nothing :
    ∃ session w', newBillingSession (dbStore noFaults) noTrust walletRequest (-5)
        ⟨oneUser 1 (by decide), 0⟩ = (.ok (.ok session), w') ∧
      session.funding = .wallet ⟨1, 0⟩ ∧ session.preConsumedQuota = -5 ∧
      (oneUser 1 (by decide)).quotaOf 1 = some 1 ∧ w'.db.quotaOf 1 = some 1 := by
  exact ⟨_, _, rfl, rfl, rfl, by decide, by decide⟩

end NewApi.Billing
