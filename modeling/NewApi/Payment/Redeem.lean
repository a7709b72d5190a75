import NewApi.Core.ReadCommitted
import NewApi.Payment.Agree

/-!
# Redemption codes and Stripe orders under concurrency

`Redeem` and `Recharge` select the row, check that it has not been used, credit the user and save
the row.  The select asks for a lock by an option that the ORM ignores.  Both are scripts of
`Core.ReadCommitted`.
-/

namespace NewApi.Payment

open Core Core.ReadCommitted List Function

/-! ## Redemption codes -/

inductive RedemptionStatus where
  | enabled
  | disabled
  | used
  deriving DecidableEq, Repr

structure Redemption where
  id : Int
  userId : Int
  key : String
  status : RedemptionStatus
  name : String
  quota : Int
  createdTime : Int
  redeemedTime : Int
  usedUserId : Int
  deletedAt : Option Int
  expiredTime : Int
  deriving DecidableEq

inductive CodeRow where
  | code
  | user (id : Int)
  deriving DecidableEq

abbrev CodeRow.Value : CodeRow → Type
  | .code => Redemption
  | .user _ => Int

def redeemCheck (userId now : Int) (r : Redemption) : Except String Unit :=
  if r.key = "" then .error "未提供兑换码"
  else if userId = 0 then .error "无效的 user id"
  else if r.deletedAt ≠ none then .error "无效的兑换码"
  else if r.status ≠ .enabled then .error "该兑换码已被使用"
  else if r.expiredTime ≠ 0 ∧ r.expiredTime < now then .error "该兑换码已过期"
  else .ok ()

def redeemWrites (userId : Int) (r : Redemption) : List (Int → Write CodeRow.Value) :=
  [fun _ => ⟨.user userId, fun quota => quota + r.quota⟩, fun now => ⟨.code, fun _ =>
      { r with redeemedTime := now, status := .used, usedUserId := userId }⟩]

def redeem (userOf : Nat → Int) : Script CodeRow.Value Nat Int where
  target := .code
  plan p now r :=
    match redeemCheck (userOf p) now r with
    | .ok _ => some (redeemWrites (userOf p) r)
    | .error _ => none

def codeRows (code : Redemption) (quota : Int → Int) : ∀ k, CodeRow.Value k
  | .code => code
  | .user id => quota id

variable {userId now : Int} {r : Redemption}

theorem redeemCheck_enabled (h : redeemCheck userId now r = .ok ()) : r.status = .enabled := by
  by_contra hUsed
  simp only [redeemCheck, ne_eq, hUsed] at h
  split at h
  · cases h
  · split at h
    · cases h
    · split at h <;> cases h

theorem redeem_plan {userOf : Nat → Int} {p : Nat} {planned : List (Int → Write CodeRow.Value)}
    (h : (redeem userOf).plan p now r = some planned) :
    redeemCheck (userOf p) now r = .ok () ∧ planned = redeemWrites (userOf p) r := by
  cases hCheck : redeemCheck (userOf p) now r with
  | error e => simp only [redeem, hCheck] at h; cases h
  | ok u =>
    simp only [redeem, hCheck] at h
    exact ⟨rfl, (Option.some.inj h).symm⟩

theorem resolves_redeemWrites {done : List (Write CodeRow.Value)}
    (h : Resolves (redeemWrites userId r) done) :
    ∃ now, done = [⟨.user userId, fun quota => quota + r.quota⟩, ⟨.code, fun _ =>
      { r with redeemedTime := now, status := .used, usedUserId := userId }⟩] := by
  obtain ⟨w, rest, ⟨_, rfl⟩, hRest, rfl⟩ := forall₂_cons_left_iff.mp h
  obtain ⟨w', rest', ⟨now, rfl⟩, hNil, rfl⟩ := forall₂_cons_left_iff.mp hRest
  rw [forall₂_nil_left_iff.mp hNil]
  exact ⟨now, rfl⟩

theorem redeem_spends (userOf : Nat → Int) :
    (redeem userOf).Spends fun r => r.status = .enabled := by
  intro p now r planned hPlan
  obtain ⟨hCheck, rfl⟩ := redeem_plan hPlan
  refine ⟨redeemCheck_enabled hCheck, fun done hDone rows => ?_⟩
  obtain ⟨later, rfl⟩ := resolves_redeemWrites hDone
  exact nofun

theorem applyAll_redeemWrites {done : List (Write CodeRow.Value)}
    (h : Resolves (redeemWrites userId r) done) (rows : ∀ k, CodeRow.Value k) (user : Int) :
    applyAll done rows (.user user) =
      rows (.user user) + if userId = user then r.quota else 0 := by
  obtain ⟨now, rfl⟩ := resolves_redeemWrites h
  rw [applyAll_cons, applyAll_cons, applyAll_nil, Write.apply, update_of_ne (by exact nofun),
    Write.apply]
  rcases eq_or_ne userId user with rfl | hne
  · rw [update_self, if_pos rfl]
  · rw [update_of_ne (fun hEq => hne (CodeRow.user.inj hEq).symm), if_neg hne, Int.add_zero]

/-- **What the calls have credited**: each that has committed, the quota of the code. -/
theorem redeem_quota (userOf : Nat → Int) (code : Redemption) (quota : Int → Int)
    (acts : List (Act Nat Int)) (user : Int) :
    (acts.foldl State.step (State.start (redeem userOf) (codeRows code quota))).committed
        (.user user) =
      quota user + code.quota * ((acts.foldl State.step
        (State.start (redeem userOf) (codeRows code quota))).commits.countP
          fun c => userOf c.1 = user) := by
  have hKeeps := (State.keeps_foldl (S := redeem userOf) (Q := fun r => r.quota = code.quota)
    (codeRows code quota) rfl (by
      intro p now r planned done rows hPlan hr hDone
      obtain ⟨-, rfl⟩ := redeem_plan hPlan
      obtain ⟨later, rfl⟩ := resolves_redeemWrites hDone
      exact hr) acts).commits
  rw [State.committed_eq]
  generalize (acts.foldl State.step (State.start (redeem userOf)
    (codeRows code quota))).commits = commits at hKeeps
  rw [show quota user = codeRows code quota (.user user) from rfl]
  generalize codeRows code quota = rows
  induction commits generalizing rows with
  | nil => simp
  | cons c commits ih =>
    obtain ⟨now, r, planned, hPlan, hDone, hr⟩ := hKeeps c mem_cons_self
    obtain ⟨-, rfl⟩ := redeem_plan hPlan
    rw [foldl_cons, ih (fun c' hc' => hKeeps c' (mem_cons_of_mem _ hc')),
      applyAll_redeemWrites hDone, hr, countP_cons]
    by_cases hUser : userOf c.1 = user
    · simp only [hUser, decide_true]
      push_cast
      ring
    · simp only [hUser, if_false, decide_false, Int.add_zero, Nat.add_zero, Bool.false_eq_true]

/-! ## Stripe orders -/

structure StripeUser where
  quota : Int
  stripeCustomer : String
  deriving DecidableEq

inductive OrderRow where
  | order
  | user (id : Int)
  deriving DecidableEq

abbrev OrderRow.Value : OrderRow → Type
  | .order => TopUp
  | .user _ => StripeUser

def rechargeCheck (o : TopUp) : Except String Unit :=
  if o.tradeNo = "" then .error "未提供支付单号"
  else if o.paymentProvider ≠ .stripe then .error "payment method mismatch"
  else if o.status ≠ .pending then .error "充值订单状态错误"
  else .ok ()

def PaySettings.credited (cfg : PaySettings) (o : TopUp) (quota : Int) : Int :=
  cfg.assign (quota + o.money * cfg.quotaPerUnit)

def rechargeWrites (cfg : PaySettings) (customerId : String) (o : TopUp) :
    List (Int → Write OrderRow.Value) :=
  [fun now => ⟨.order, fun _ => { o with completeTime := now, status := .success }⟩,
    fun _ => ⟨.user o.userId, fun user =>
      { quota := cfg.credited o user.quota, stripeCustomer := customerId }⟩]

def recharging (cfg : PaySettings) (customerOf : Nat → String) : Script OrderRow.Value Nat Int where
  target := .order
  plan p _ o :=
    match rechargeCheck o with
    | .ok _ => some (rechargeWrites cfg (customerOf p) o)
    | .error _ => none

def orderRows (order : TopUp) (users : Int → StripeUser) : ∀ k, OrderRow.Value k
  | .order => order
  | .user id => users id

variable {o : TopUp}

theorem rechargeCheck_pending (h : rechargeCheck o = .ok ()) : o.status = .pending := by
  by_contra hDone
  simp only [rechargeCheck, ne_eq, hDone] at h
  split at h
  · cases h
  · split at h <;> cases h

theorem recharging_plan {cfg : PaySettings} {customerOf : Nat → String} {p : Nat}
    {planned : List (Int → Write OrderRow.Value)}
    (h : (recharging cfg customerOf).plan p now o = some planned) :
    rechargeCheck o = .ok () ∧ planned = rechargeWrites cfg (customerOf p) o := by
  cases hCheck : rechargeCheck o with
  | error e => simp only [recharging, hCheck] at h; cases h
  | ok u =>
    simp only [recharging, hCheck] at h
    exact ⟨rfl, (Option.some.inj h).symm⟩

theorem resolves_rechargeWrites {cfg : PaySettings} {customerId : String}
    {done : List (Write OrderRow.Value)} (h : Resolves (rechargeWrites cfg customerId o) done) :
    ∃ now, done = [⟨.order, fun _ => { o with completeTime := now, status := .success }⟩,
      ⟨.user o.userId, fun user =>
        { quota := cfg.credited o user.quota, stripeCustomer := customerId }⟩] := by
  obtain ⟨w, rest, ⟨now, rfl⟩, hRest, rfl⟩ := forall₂_cons_left_iff.mp h
  obtain ⟨w', rest', ⟨_, rfl⟩, hNil, rfl⟩ := forall₂_cons_left_iff.mp hRest
  rw [forall₂_nil_left_iff.mp hNil]
  exact ⟨now, rfl⟩

theorem recharging_spends (cfg : PaySettings) (customerOf : Nat → String) :
    (recharging cfg customerOf).Spends fun o => o.status = .pending := by
  intro p now o planned hPlan
  obtain ⟨hCheck, rfl⟩ := recharging_plan hPlan
  refine ⟨rechargeCheck_pending hCheck, fun done hDone rows => ?_⟩
  obtain ⟨later, rfl⟩ := resolves_rechargeWrites hDone
  exact nofun

/-- **What the calls have credited**: each that has committed, the money of the order. -/
theorem recharge_quota (cfg : PaySettings) (customerOf : Nat → String) (order : TopUp)
    (users : Int → StripeUser) (acts : List (Act Nat Int)) :
    ((acts.foldl State.step (State.start (recharging cfg customerOf)
        (orderRows order users))).committed (.user order.userId)).quota =
      (cfg.credited order)^[(acts.foldl State.step (State.start (recharging cfg customerOf)
        (orderRows order users))).commits.length] (users order.userId).quota := by
  have hKeeps := (State.keeps_foldl (S := recharging cfg customerOf)
    (Q := fun o => o.userId = order.userId ∧ o.money = order.money) (orderRows order users)
    ⟨rfl, rfl⟩ (by
      intro p now o planned done rows hPlan ho hDone
      obtain ⟨-, rfl⟩ := recharging_plan hPlan
      obtain ⟨later, rfl⟩ := resolves_rechargeWrites hDone
      exact ho) acts).commits
  rw [State.committed_eq]
  generalize (acts.foldl State.step (State.start (recharging cfg customerOf)
    (orderRows order users))).commits = commits at hKeeps
  rw [show users order.userId = orderRows order users (.user order.userId) from rfl]
  generalize orderRows order users = rows
  induction commits generalizing rows with
  | nil => rfl
  | cons c commits ih =>
    obtain ⟨now, o, planned, hPlan, hDone, hUser, hMoney⟩ := hKeeps c mem_cons_self
    obtain ⟨-, rfl⟩ := recharging_plan hPlan
    obtain ⟨later, hWrites⟩ := resolves_rechargeWrites hDone
    rw [foldl_cons, ih (fun c' hc' => hKeeps c' (mem_cons_of_mem _ hc')), length_cons,
      iterate_succ_apply]
    congr 1
    rw [hWrites, applyAll_cons, applyAll_cons, applyAll_nil, Write.apply, hUser, update_self,
      Write.apply, update_of_ne (by exact nofun)]
    simp only [PaySettings.credited, hMoney]

/-! ## Credited once -/

def redeemed (userOf : Nat → Int) (code : Redemption) (quota : Int → Int)
    (acts : List (Act Nat Int)) : State (redeem userOf) :=
  acts.foldl State.step (State.start _ (codeRows code quota))

def recharged (cfg : PaySettings) (customerOf : Nat → String) (order : TopUp)
    (users : Int → StripeUser) (acts : List (Act Nat Int)) : State (recharging cfg customerOf) :=
  acts.foldl State.step (State.start _ (orderRows order users))

/-- **A code or an order is credited once** exactly if every call that commits finds the row as it
has read it. -/
theorem credited_once_iff (userOf : Nat → Int) (code : Redemption) (quota : Int → Int)
    (cfg : PaySettings) (customerOf : Nat → String) (order : TopUp) (users : Int → StripeUser)
    (acts : List (Act Nat Int)) :
    ((∀ user, (redeemed userOf code quota acts).committed (.user user) = quota user +
        code.quota * ((redeemed userOf code quota acts).commits.countP
          fun c => userOf c.1 = user)) ∧
      ((∀ t ∈ states State.step (State.start (redeem userOf) (codeRows code quota)) acts,
        t.commits.length ≤ 1) ↔
        ∀ m ∈ moves State.step (State.start (redeem userOf) (codeRows code quota)) acts,
          m.1.Current m.2)) ∧
      ((recharged cfg customerOf order users acts).committed (.user order.userId)).quota =
        (cfg.credited order)^[(recharged cfg customerOf order users acts).commits.length]
          (users order.userId).quota ∧
      ((∀ t ∈ states State.step (State.start (recharging cfg customerOf)
          (orderRows order users)) acts, t.commits.length ≤ 1) ↔
        ∀ m ∈ moves State.step (State.start (recharging cfg customerOf)
          (orderRows order users)) acts, m.1.Current m.2) := by
  refine ⟨⟨?_, ?_⟩, ?_, ?_⟩
  · exact redeem_quota userOf code quota acts
  · exact State.commits_le_one_iff (redeem_spends userOf) (codeRows code quota) acts
  · exact recharge_quota cfg customerOf order users acts
  · exact State.commits_le_one_iff (recharging_spends cfg customerOf) (orderRows order users) acts

def interleaved : List (Act Nat Int) :=
  [.select 0 10, .select 1 10, .write 0 10, .write 0 10, .commit 0, .write 1 11, .write 1 11,
    .commit 1]

def sampleCode : Redemption := ⟨1, 1, "code", .enabled, "", 100, 0, 0, 0, none, 0⟩

def sampleOrder : TopUp := ⟨1, 7, 2, 2, "ref", "stripe", .stripe, 0, 0, .pending⟩

def redeemedTwice : State (redeem fun p => p + 1) :=
  redeemed (fun p => p + 1) sampleCode (fun _ => 0) interleaved

def rechargedTwice : State (recharging (demoPay false) fun _ => "cus") :=
  recharged (demoPay false) (fun _ => "cus") sampleOrder (fun _ => ⟨0, ""⟩) interleaved

/-- **Credited twice**: one code of 100 gives both users 100, and an order four units for two. -/
theorem credited_twice :
    (redeemedTwice.commits.length = 2 ∧ redeemedTwice.committed (.user 1) = (100 : Int) ∧
      redeemedTwice.committed (.user 2) = (100 : Int)) ∧
      rechargedTwice.commits.length = 2 ∧
      (rechargedTwice.committed (.user 7)).quota = 2000000 := by
  decide +kernel

end NewApi.Payment
