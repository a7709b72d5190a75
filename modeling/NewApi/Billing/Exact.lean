import Mathlib.Algebra.Group.Int.Defs
import NewApi.Billing.Session

/-!
# Stores that apply exactly their deltas

Seen from a session the store is a ledger of what was taken.  `ExactStore` says that every operation
moves it by exactly its amount, so each step of a session is an equation on ledgers.
-/

namespace NewApi.Billing

open Core Subscription Function Prog

/-! ## The ledger -/

structure Ledger where
  wallet : Int → Int
  token : Int → Int
  sub : Int → Int
  held : String → Option (Int × Int)

namespace Ledger

def takeWallet (l : Ledger) (userId amount : Int) : Ledger :=
  { l with wallet := Function.update l.wallet userId (l.wallet userId + amount) }

def takeToken (l : Ledger) (tokenId amount : Int) : Ledger :=
  { l with token := Function.update l.token tokenId (l.token tokenId + amount) }

def takeSub (l : Ledger) (subscriptionId amount : Int) : Ledger :=
  { l with sub := Function.update l.sub subscriptionId (l.sub subscriptionId + amount) }

def hold (l : Ledger) (requestId : String) (subscriptionId amount : Int) : Ledger :=
  { l with held := Function.update l.held requestId (some (subscriptionId, amount)) }

def release (l : Ledger) (requestId : String) : Ledger :=
  { l with held := Function.update l.held requestId none }

def chargeToken (l : Ledger) (info : RelayInfo) (amount : Int) : Ledger :=
  if info.isPlayground then l else l.takeToken info.tokenId amount

def takeFunding (l : Ledger) (amount : Int) : Funding → Ledger
  | .wallet w => l.takeWallet w.userId amount
  | .subscription f => l.takeSub f.subscriptionId amount

variable (l : Ledger)

@[simp] theorem takeWallet_zero (u : Int) : l.takeWallet u 0 = l := by
  simp [takeWallet]

@[simp] theorem takeSub_zero (i : Int) : l.takeSub i 0 = l := by
  simp [takeSub]

@[simp] theorem held_takeFunding (a : Int) (f : Funding) :
    (l.takeFunding a f).held = l.held := by
  cases f <;> rfl

@[simp] theorem held_chargeToken (info : RelayInfo) (a : Int) :
    (l.chargeToken info a).held = l.held := by
  unfold chargeToken
  split <;> rfl

end Ledger

/-- **Every operation succeeds and applies exactly its delta**, but a subscription may refuse. -/
structure ExactStore {σ : Type} (B : BillingStore σ) (view : σ → Ledger) : Prop where
  getUserQuota : ∀ u s, ∃ q t, B.getUserQuota u s = (.ok q, t) ∧ view t = view s
  decreaseUserQuota : ∀ u a s, 0 ≤ a →
    ∃ t, B.decreaseUserQuota u a s = (.ok (), t) ∧ view t = (view s).takeWallet u a
  increaseUserQuota : ∀ u a s, 0 ≤ a →
    ∃ t, B.increaseUserQuota u a s = (.ok (), t) ∧ view t = (view s).takeWallet u (-a)
  getTokenByKey : ∀ k s, ∃ q t, B.getTokenByKey k s = (.ok q, t) ∧ view t = view s
  decreaseTokenQuota : ∀ i k a s, 0 ≤ a →
    ∃ t, B.decreaseTokenQuota i k a s = (.ok (), t) ∧ view t = (view s).takeToken i a
  increaseTokenQuota : ∀ i k a s, 0 ≤ a →
    ∃ t, B.increaseTokenQuota i k a s = (.ok (), t) ∧ view t = (view s).takeToken i (-a)
  hasActiveUserSubscription : ∀ u s, ∃ b t,
    B.hasActiveUserSubscription u s = (.ok b, t) ∧ view t = view s
  preConsumeUserSubscription : ∀ rid u a s, 0 < a → (view s).held rid = none →
    (∃ e t, B.preConsumeUserSubscription rid u a s = (.error (.err e), t) ∧ view t = view s) ∨
    ∃ r t, B.preConsumeUserSubscription rid u a s = (.ok r, t) ∧ 0 < r.userSubscriptionId ∧
      r.preConsumed = a ∧
      view t = ((view s).takeSub r.userSubscriptionId a).hold rid r.userSubscriptionId a
  getSubscriptionPlanInfo : ∀ i s, ∃ p t,
    B.getSubscriptionPlanInfoByUserSubscriptionId i s = (.ok p, t) ∧ view t = view s
  postConsumeUserSubscriptionDelta : ∀ i d s, 0 < i →
    ∃ t, B.postConsumeUserSubscriptionDelta i d s = (.ok (), t) ∧ view t = (view s).takeSub i d
  refundSubscriptionPreConsume : ∀ rid s i a, (view s).held rid = some (i, a) →
    ∃ t, B.refundSubscriptionPreConsume rid s = (.ok (), t) ∧
      view t = ((view s).takeSub i (-a)).release rid

/-! ## What is taken between two ledgers -/

def fundingTaken (before after : Ledger) : Funding → Int
  | .wallet w => after.wallet w.userId - before.wallet w.userId
  | .subscription f => after.sub f.subscriptionId - before.sub f.subscriptionId

def tokenTaken (before after : Ledger) (info : RelayInfo) : Int :=
  after.token info.tokenId - before.token info.tokenId

theorem fundingTaken_self (v : Ledger) (f : Funding) : fundingTaken v v f = 0 := by
  cases f <;> exact Int.sub_self _

theorem tokenTaken_self (v : Ledger) (info : RelayInfo) : tokenTaken v v info = 0 :=
  Int.sub_self _

theorem fundingTaken_trans (a b c : Ledger) (f : Funding) :
    fundingTaken a c f = fundingTaken a b f + fundingTaken b c f := by
  cases f <;> simp only [fundingTaken] <;> omega

theorem tokenTaken_trans (a b c : Ledger) (info : RelayInfo) :
    tokenTaken a c info = tokenTaken a b info + tokenTaken b c info := by
  simp only [tokenTaken]
  omega

variable (before after : Ledger)

@[simp] theorem fundingTaken_takeFunding (a : Int) (f : Funding) :
    fundingTaken before (after.takeFunding a f) f = fundingTaken before after f + a := by
  cases f with
  | wallet w =>
    show update after.wallet w.userId (after.wallet w.userId + a) w.userId - _ = _
    rw [update_self]
    show _ = after.wallet w.userId - before.wallet w.userId + a
    omega
  | subscription sub =>
    show update after.sub sub.subscriptionId (after.sub sub.subscriptionId + a)
      sub.subscriptionId - _ = _
    rw [update_self]
    show _ = after.sub sub.subscriptionId - before.sub sub.subscriptionId + a
    omega

@[simp] theorem fundingTaken_chargeToken (info : RelayInfo) (a : Int) (f : Funding) :
    fundingTaken before (after.chargeToken info a) f = fundingTaken before after f := by
  unfold Ledger.chargeToken
  split <;> cases f <;> rfl

@[simp] theorem fundingTaken_release (requestId : String) (f : Funding) :
    fundingTaken before (after.release requestId) f = fundingTaken before after f := by
  cases f <;> rfl

@[simp] theorem fundingTaken_hold (requestId : String) (i a : Int) (f : Funding) :
    fundingTaken before (after.hold requestId i a) f = fundingTaken before after f := by
  cases f <;> rfl

@[simp] theorem fundingTaken_addConsumed (delta : Int) (f : Funding) :
    fundingTaken before after (f.addConsumed delta) = fundingTaken before after f := by
  cases f <;> rfl

@[simp] theorem tokenTaken_takeFunding (info : RelayInfo) (a : Int) (f : Funding) :
    tokenTaken before (after.takeFunding a f) info = tokenTaken before after info := by
  cases f <;> rfl

theorem tokenTaken_chargeToken {info : RelayInfo} (a : Int) (hPlay : info.isPlayground = false) :
    tokenTaken before (after.chargeToken info a) info = tokenTaken before after info + a := by
  rw [Ledger.chargeToken, if_neg (by simp [hPlay])]
  show update after.token info.tokenId (after.token info.tokenId + a) info.tokenId - _ = _
  rw [update_self]
  show _ = after.token info.tokenId - before.token info.tokenId + a
  omega

theorem Ledger.chargeToken_neg (l : Ledger) (info : RelayInfo) (a : Int) :
    (l.chargeToken info a).chargeToken info (-a) = l := by
  unfold chargeToken
  split
  · rfl
  · simp [takeToken]

theorem Ledger.chargeToken_zero (l : Ledger) (info : RelayInfo) : l.chargeToken info 0 = l := by
  have h := l.chargeToken_neg info 0
  unfold chargeToken at h ⊢
  split
  · rfl
  · simp [takeToken]

/-! ## The steps of a session over an exact store -/

section Exact

variable {σ : Type} {B : BillingStore σ} {view : σ → Ledger}

variable {f : Funding} {delta : Int}

section

variable (hB : ExactStore B view)
include hB

theorem ExactStore.settleFunding (delta : Int) (s : σ)
    (hId : ∀ sub, f = .subscription sub → 0 < sub.subscriptionId) :
    ∃ t, f.settle B delta s = (.ok (), t) ∧ view t = (view s).takeFunding delta f := by
  cases f with
  | wallet w =>
    by_cases hZero : delta = 0
    · subst hZero
      exact ⟨s, rfl, by simp [Ledger.takeFunding]⟩
    by_cases hPos : 0 < delta
    · obtain ⟨t, hRun, hView⟩ := hB.decreaseUserQuota w.userId delta s (le_of_lt hPos)
      exact ⟨t, by rw [Funding.settle, if_neg hZero, if_pos hPos, hRun], hView⟩
    obtain ⟨t, hRun, hView⟩ := hB.increaseUserQuota w.userId (-delta) s (by omega)
    refine ⟨t, by rw [Funding.settle, if_neg hZero, if_neg hPos, hRun], ?_⟩
    rw [hView, Int.neg_neg]
    rfl
  | subscription sub =>
    by_cases hZero : delta = 0
    · subst hZero
      exact ⟨s, rfl, by simp [Ledger.takeFunding]⟩
    · obtain ⟨t, hRun, hView⟩ :=
        hB.postConsumeUserSubscriptionDelta sub.subscriptionId delta s (hId sub rfl)
      exact ⟨t, by rw [Funding.settle, if_neg hZero, hRun], hView⟩

theorem ExactStore.preConsumeToken (cfg : BillingConfig) (info : RelayInfo) {quota : Int}
    (hQuota : 0 ≤ quota) (s : σ) :
    (∃ e t, preConsumeTokenQuota B cfg info quota s = (.error (.err e), t) ∧ view t = view s) ∨
    ∃ t, preConsumeTokenQuota B cfg info quota s = (.ok (), t) ∧
      view t = (view s).chargeToken info quota := by
  unfold preConsumeTokenQuota Ledger.chargeToken
  rw [if_neg (by omega)]
  by_cases hPlay : info.isPlayground
  · rw [if_pos hPlay, if_pos hPlay]
    exact .inr ⟨s, rfl, rfl⟩
  rw [if_neg hPlay, if_neg hPlay]
  obtain ⟨token, t, hRead, hView⟩ := hB.getTokenByKey info.tokenKey s
  rw [bind_ok hRead]
  split
  · exact .inl ⟨_, t, rfl, hView⟩
  · obtain ⟨t', hDec, hView'⟩ := hB.decreaseTokenQuota info.tokenId info.tokenKey quota t hQuota
    exact .inr ⟨t', hDec, by rw [hView', hView]⟩

theorem ExactStore.settleToken (session : BillingSession) (delta : Int) (s : σ) :
    ∃ t, session.settleToken B delta s = (.ok (none, session.markSettled delta), t) ∧
      view t = (view s).chargeToken session.relayInfo delta := by
  unfold BillingSession.settleToken Ledger.chargeToken
  by_cases hPlay : session.relayInfo.isPlayground
  · simp only [if_pos hPlay]
    exact ⟨s, rfl, rfl⟩
  simp only [if_neg hPlay]
  by_cases hPos : 0 < delta
  · obtain ⟨t, hDec, hView⟩ := hB.decreaseTokenQuota session.relayInfo.tokenId
      session.relayInfo.tokenKey delta s (le_of_lt hPos)
    rw [if_pos hPos, bind_ok (attempt_ok hDec)]
    exact ⟨t, rfl, hView⟩
  obtain ⟨t, hInc, hView⟩ := hB.increaseTokenQuota session.relayInfo.tokenId
    session.relayInfo.tokenKey (-delta) s (by omega)
  rw [if_neg hPos, bind_ok (attempt_ok hInc)]
  rw [Int.neg_neg] at hView
  exact ⟨t, rfl, hView⟩

theorem ExactStore.returnToken {session : BillingSession} (hPos : 0 < session.tokenConsumed)
    (s : σ) :
    ∃ t, BillingSession.giveBack.returnToken B session session.relayInfo s = (.ok (), t) ∧
      view t = (view s).chargeToken session.relayInfo (-session.tokenConsumed) := by
  unfold BillingSession.giveBack.returnToken Ledger.chargeToken
  by_cases hPlay : session.relayInfo.isPlayground
  · rw [if_neg (by simp [hPlay]), if_pos hPlay]
    exact ⟨s, rfl, rfl⟩
  obtain ⟨t, hInc, hView⟩ := hB.increaseTokenQuota session.relayInfo.tokenId
    session.relayInfo.tokenKey session.tokenConsumed s (le_of_lt hPos)
  rw [if_pos ⟨hPos, hPlay⟩, if_neg hPlay, bind_ok (attempt_ok hInc)]
  exact ⟨t, rfl, hView⟩

end

theorem refundWithRetry_ok {fn : Nat → Prog σ Unit} {s t : σ} (h : fn 0 s = (.ok (), t)) :
    refundWithRetry fn s = (.ok (), t) := by
  rw [refundWithRetry, attempts, bind_ok (attempt_ok h)]
  rfl

theorem ExactStore.reserveFunding (hB : ExactStore B view) (hDelta : 0 < delta) (s : σ)
    (hId : ∀ sub, f = .subscription sub → 0 < sub.subscriptionId) :
    ∃ t, BillingSession.reserveFunding B delta f s = (.ok (.ok (f.addConsumed delta)), t) ∧
      view t = (view s).takeFunding delta f := by
  cases f with
  | wallet w =>
    obtain ⟨t, hDec, hView⟩ := hB.decreaseUserQuota w.userId delta s (le_of_lt hDelta)
    refine ⟨t, ?_, hView⟩
    rw [BillingSession.reserveFunding, bind_ok (attempt_ok hDec)]
    rfl
  | subscription sub =>
    obtain ⟨t, hPost, hView⟩ :=
      hB.postConsumeUserSubscriptionDelta sub.subscriptionId delta s (hId sub rfl)
    refine ⟨t, ?_, hView⟩
    rw [BillingSession.reserveFunding, bind_ok (attempt_ok hPost)]
    rfl

theorem ExactStore.rollback (hB : ExactStore B view) (hDelta : 0 < delta) (s : σ)
    (hId : ∀ sub, f = .subscription sub → 0 < sub.subscriptionId) :
    ∃ t, BillingSession.rollbackFundingReserve B delta (f.addConsumed delta) s = (.ok f, t) ∧
      view t = (view s).takeFunding (-delta) f := by
  cases f with
  | wallet w =>
    obtain ⟨t, hInc, hView⟩ := hB.increaseUserQuota w.userId delta s (le_of_lt hDelta)
    refine ⟨t, ?_, hView⟩
    rw [Funding.addConsumed, BillingSession.rollbackFundingReserve, bind_ok (attempt_ok hInc)]
    simp [Funding.addConsumed]
  | subscription sub =>
    obtain ⟨t, hPost, hView⟩ :=
      hB.postConsumeUserSubscriptionDelta sub.subscriptionId (-delta) s (hId sub rfl)
    refine ⟨t, ?_, hView⟩
    rw [Funding.addConsumed, BillingSession.rollbackFundingReserve, bind_ok (attempt_ok hPost)]
    rfl

theorem ExactStore.reserveToken (hB : ExactStore B view) (cfg : BillingConfig)
    (session : BillingSession) (hDelta : 0 < delta) (s : σ) :
    (∃ e t, session.reserveToken B cfg delta s = (.ok (.error e), t) ∧ view t = view s) ∨
    ∃ t, session.reserveToken B cfg delta s = (.ok (.ok ()), t) ∧
      view t = (view s).chargeToken session.relayInfo delta := by
  unfold BillingSession.reserveToken
  by_cases hPlay : session.relayInfo.isPlayground
  · rw [if_pos (.inr hPlay), Ledger.chargeToken, if_pos hPlay]
    exact .inr ⟨s, rfl, rfl⟩
  rw [if_neg (by simp [hPlay, hDelta])]
  rcases hB.preConsumeToken cfg session.relayInfo (le_of_lt hDelta) s with
    ⟨e, t, hRun, hView⟩ | ⟨t, hRun, hView⟩
  · rw [bind_ok (attempt_err hRun)]
    exact .inl ⟨_, t, rfl, hView⟩
  · rw [bind_ok (attempt_ok hRun)]
    exact .inr ⟨t, rfl, hView⟩

def Uncharged (v : Ledger) (quota : Int) : Funding → Prop
  | .wallet w => w.consumed = 0
  | .subscription f => 0 < quota ∧ f.amount = quota ∧ v.held f.requestId = none

def FundingCharged (before after : Ledger) (quota : Int) (f f' : Funding) : Prop :=
  f'.source = f.source ∧ fundingTaken before after f' = max quota 0 ∧
    (quota ≤ 0 → after = before) ∧ (∀ info, tokenTaken before after info = 0) ∧
    match f' with
    | .wallet w => w.consumed = max quota 0
    | .subscription sub => 0 < sub.subscriptionId ∧ sub.preConsumed = quota ∧
        after.held sub.requestId = some (sub.subscriptionId, quota)

theorem ExactStore.fundingPreConsume (hB : ExactStore B view) {quota : Int} {s : σ}
    (hF : Uncharged (view s) quota f) :
    (∃ e t, f.preConsume B quota s = (.error (.err e), t) ∧ view t = view s) ∨
    ∃ f' t, f.preConsume B quota s = (.ok f', t) ∧ FundingCharged (view s) (view t) quota f f' := by
  cases f with
  | wallet w =>
    right
    have hZero : w.consumed = 0 := hF
    by_cases hPos : quota ≤ 0
    · refine ⟨.wallet w, s, by rw [Funding.preConsume, if_pos hPos]; rfl, rfl, ?_, fun _ => rfl,
        fun info => tokenTaken_self _ info, ?_⟩
      · rw [fundingTaken_self]; omega
      · omega
    obtain ⟨t, hDec, hView⟩ := hB.decreaseUserQuota w.userId quota s (by omega)
    refine ⟨.wallet { w with consumed := quota }, t, ?_, rfl, ?_, fun h => absurd h hPos, ?_, ?_⟩
    · rw [Funding.preConsume, if_neg hPos, bind_ok hDec]
      rfl
    · have := fundingTaken_takeFunding (view s) (view s) quota
        (.wallet { w with consumed := quota })
      rw [fundingTaken_self] at this
      rw [hView]
      simp only [Ledger.takeFunding] at this
      omega
    · intro info
      rw [hView]
      exact tokenTaken_self _ info
    · show quota = max quota 0
      omega
  | subscription sub =>
    obtain ⟨hPos, hAmount, hHeld⟩ := hF
    rw [Funding.preConsume, hAmount]
    rcases hB.preConsumeUserSubscription sub.requestId sub.userId quota s hPos hHeld with
      ⟨e, t, hRun, hView⟩ | ⟨r, t, hRun, hId, hPre, hView⟩
    · exact .inl ⟨e, t, bind_error hRun, hView⟩
    right
    obtain ⟨plan, t', hPlan, hView'⟩ := hB.getSubscriptionPlanInfo r.userSubscriptionId t
    rw [bind_ok hRun]
    rw [bind_ok (attempt_ok hPlan)]
    refine ⟨_, t', rfl, rfl, ?_, by omega, ?_, ?_⟩
    · have := fundingTaken_takeFunding (view s) (view s) quota
        (.subscription { sub with subscriptionId := r.userSubscriptionId })
      rw [fundingTaken_self] at this
      simp only [Ledger.takeFunding] at this
      rw [hView', hView, fundingTaken_hold]
      show fundingTaken _ _
        (.subscription { sub with subscriptionId := r.userSubscriptionId }) = _
      omega
    · intro info
      rw [hView', hView]
      exact tokenTaken_self _ info
    · refine ⟨hId, hPre, ?_⟩
      rw [hView', hView]
      exact update_self ..

end Exact

/-! ## A store without failures -/

def idealStore (wallets : Int → Int) (tokens : String → TokenQuota) (subOf : Int → Option Nat) :
    BillingStore Ledger where
  getUserQuota u := Prog.read fun l => wallets u - l.wallet u
  decreaseUserQuota u a := Prog.write fun l => l.takeWallet u a
  increaseUserQuota u a := Prog.write fun l => l.takeWallet u (-a)
  getTokenByKey k := Prog.read fun _ => tokens k
  decreaseTokenQuota i _ a := Prog.write fun l => l.takeToken i a
  increaseTokenQuota i _ a := Prog.write fun l => l.takeToken i (-a)
  hasActiveUserSubscription u := pure (subOf u).isSome
  preConsumeUserSubscription rid u a :=
    match subOf u with
    | none => Prog.fail "no active subscription"
    | some i => do
      Prog.write fun l => (l.takeSub (i + 1) a).hold rid (i + 1) a
      pure {
        userSubscriptionId := i + 1
        preConsumed := a
        amountTotal := 0
        amountUsedBefore := 0
        amountUsedAfter := a }
  getSubscriptionPlanInfoByUserSubscriptionId _ := pure ⟨0, ""⟩
  postConsumeUserSubscriptionDelta i d := Prog.write fun l => l.takeSub i d
  refundSubscriptionPreConsume rid := do
    match ← Prog.read fun l : Ledger => l.held rid with
    | none => pure ()
    | some (i, a) => Prog.write fun l => (l.takeSub i (-a)).release rid

theorem idealStore_exact (wallets : Int → Int) (tokens : String → TokenQuota)
    (subOf : Int → Option Nat) : ExactStore (idealStore wallets tokens subOf) id where
  getUserQuota _ s := ⟨_, s, rfl, rfl⟩
  decreaseUserQuota _ _ _ _ := ⟨_, rfl, rfl⟩
  increaseUserQuota _ _ _ _ := ⟨_, rfl, rfl⟩
  getTokenByKey _ s := ⟨_, s, rfl, rfl⟩
  decreaseTokenQuota _ _ _ _ _ := ⟨_, rfl, rfl⟩
  increaseTokenQuota _ _ _ _ _ := ⟨_, rfl, rfl⟩
  hasActiveUserSubscription _ s := ⟨_, s, rfl, rfl⟩
  preConsumeUserSubscription rid u a s _ _ := by
    simp only [idealStore]
    cases subOf u with
    | none => exact .inl ⟨_, s, rfl, rfl⟩
    | some i => exact .inr ⟨_, _, rfl, by show (0 : Int) < i + 1; omega, rfl, rfl⟩
  getSubscriptionPlanInfo _ s := ⟨_, s, rfl, rfl⟩
  postConsumeUserSubscriptionDelta _ _ _ _ := ⟨_, rfl, rfl⟩
  refundSubscriptionPreConsume rid s i a h := by
    refine ⟨_, ?_, rfl⟩
    have hHeld : s.held rid = some (i, a) := h
    simp only [idealStore]
    rw [bind_ok (read_run _ s), hHeld]
    rfl

end NewApi.Billing
