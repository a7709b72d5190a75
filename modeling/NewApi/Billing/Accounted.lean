import NewApi.Billing.Exact
import NewApi.Billing.Rules

/-!
# What a session has taken

Over an exact store source and token are down by what was reserved, by what was settled, or by
nothing.  The one exception is a wallet session for a negative quota (`session_accounted_iff`).
-/

namespace NewApi.Billing

open Core Subscription List Prog

/-! ## Calls and what they should leave -/

inductive SessionCall where
  | reserve (targetQuota : Int)
  | settle (actualQuota : Int)
  | refund
  deriving DecidableEq, Repr

def SessionCall.run {σ : Type} (B : BillingStore σ) (cfg : BillingConfig)
    (st : σ × BillingSession) (call : SessionCall) : σ × BillingSession :=
  match call with
  | .reserve target =>
    match st.2.reserve B cfg target st.1 with
    | (.ok (_, session), t) => (t, session)
    | (.error _, t) => (t, st.2)
  | .settle actual =>
    match st.2.settle B actual st.1 with
    | (.ok (_, session), t) => (t, session)
    | (.error _, t) => (t, st.2)
  | .refund =>
    match st.2.refund B st.1 with
    | (.ok session, t) => (t, session)
    | (.error _, t) => (t, st.2)

def Orderly : List SessionCall → Bool
  | [] => true
  | .refund :: calls => calls.all fun c => match c with | .settle _ => false | _ => true
  | _ :: calls => Orderly calls

def firstSettle : List SessionCall → Option Int
  | [] => none
  | .settle actual :: _ => some actual
  | _ :: calls => firstSettle calls

def Taken (before after : Ledger) (s : BillingSession) (amount : Int) : Prop :=
  fundingTaken before after s.funding = amount ∧
    (s.relayInfo.isPlayground = false → tokenTaken before after s.relayInfo = amount)

def dueAmount (calls : List SessionCall) (s : BillingSession) : Int :=
  match firstSettle calls with
  | some actual => actual
  | none => if s.refunded then 0 else s.preConsumedQuota

/-- The right amount is taken, and a session that is done is not changed by one more call. -/
def Accounted {σ : Type} (B : BillingStore σ) (cfg : BillingConfig) (view : σ → Ledger)
    (before : Ledger) (start : σ × BillingSession) (calls : List SessionCall) : Prop :=
  let st := calls.foldl (SessionCall.run B cfg) start
  Taken before (view st.1) st.2 (dueAmount calls st.2) ∧
    ∀ call, Orderly (calls ++ [call]) → (firstSettle calls ≠ none ∨ st.2.refunded) →
      SessionCall.run B cfg st call = st

variable {before after : Ledger} {s : BillingSession}

theorem Taken.congr {s' : BillingSession} {amount : Int} (h : Taken before after s amount)
    (hFunding : fundingTaken before after s'.funding = fundingTaken before after s.funding)
    (hPlay : s'.relayInfo.isPlayground = s.relayInfo.isPlayground)
    (hToken : s'.relayInfo.tokenId = s.relayInfo.tokenId) : Taken before after s' amount := by
  refine ⟨by rw [hFunding, h.1], ?_⟩
  intro hNot
  rw [hPlay] at hNot
  rw [tokenTaken, hToken]
  exact h.2 hNot

theorem Taken.charge {amount : Int} (h : Taken before after s amount) (delta : Int) :
    Taken before ((after.takeFunding delta s.funding).chargeToken s.relayInfo delta) s
      (amount + delta) := by
  refine ⟨?_, ?_⟩
  · rw [fundingTaken_chargeToken, fundingTaken_takeFunding, h.1]
  · intro hPlay
    rw [tokenTaken_chargeToken _ _ _ hPlay, tokenTaken_takeFunding, h.2 hPlay]

/-! ## The phases of a session -/

variable {v : Ledger}

section Exact

variable {σ : Type} {B : BillingStore σ} {view : σ → Ledger} {cfg : BillingConfig}

def Counted (v : Ledger) (s : BillingSession) : Funding → Prop
  | .wallet w => w.consumed = s.preConsumedQuota
  | .subscription f =>
    0 < f.subscriptionId ∧ 0 < f.preConsumed ∧ 0 ≤ s.extraReserved ∧
      f.preConsumed + s.extraReserved = s.preConsumedQuota ∧
      s.relayInfo.subscriptionId = f.subscriptionId ∧
      v.held f.requestId = some (f.subscriptionId, f.preConsumed)

/-- Neither settled nor refunded: what was reserved is taken, and the refund's counters add up to
it. -/
structure Open (before after : Ledger) (s : BillingSession) : Prop where
  not_settled : s.settled = false
  not_refunded : s.refunded = false
  funding_open : s.fundingSettled = false
  taken : Taken before after s s.preConsumedQuota
  nonneg : 0 ≤ s.preConsumedQuota
  token : s.tokenConsumed = s.preConsumedQuota
  counted : Counted after s s.funding

structure Settled (before after : Ledger) (s : BillingSession) (actual : Int) : Prop where
  settled : s.settled = true
  taken : Taken before after s actual

structure Refunded (before after : Ledger) (s : BillingSession) : Prop where
  refunded : s.refunded = true
  taken : Taken before after s 0

theorem Open.subscriptionId_pos (h : Open before after s) :
    ∀ sub, s.funding = .subscription sub → 0 < sub.subscriptionId := by
  intro sub hSub
  have hCounted := h.counted
  rw [hSub] at hCounted
  exact hCounted.1

variable {session : BillingSession} {before : Ledger} {calls : List SessionCall} {quota : Int}

theorem Open.needsRefund (h : Open before after session) (hPos : 0 < session.preConsumedQuota) :
    session.needsRefund = true := by
  simp [BillingSession.needsRefund, h.not_settled, h.not_refunded, h.funding_open, h.token, hPos]

theorem Open.of_view {v' : Ledger} (h : Open before v session)
    (hFunding : fundingTaken before v' session.funding = fundingTaken before v session.funding)
    (hToken : tokenTaken before v' session.relayInfo = tokenTaken before v session.relayInfo)
    (hHeld : v'.held = v.held) :
    Open before v' session where
  not_settled := h.not_settled
  not_refunded := h.not_refunded
  funding_open := h.funding_open
  taken := ⟨by rw [hFunding]; exact h.taken.1, fun hPlay => by rw [hToken]; exact h.taken.2 hPlay⟩
  nonneg := h.nonneg
  token := h.token
  counted := by
    have hCounted := h.counted
    cases hFund : session.funding with
    | wallet w => rw [hFund] at hCounted; exact hCounted
    | subscription f =>
      rw [hFund] at hCounted
      simp only [Counted, hHeld]
      exact hCounted

def reserved (session : BillingSession) (delta : Int) : BillingSession :=
  { session with
    funding := session.funding.addConsumed delta
    preConsumedQuota := session.preConsumedQuota + delta
    tokenConsumed := session.tokenConsumed + delta
    extraReserved := session.extraReserved + delta }.syncRelayInfo

theorem Open.reserved (h : Open before v session) {delta : Int} (hDelta : 0 < delta) :
    Open before ((v.takeFunding delta session.funding).chargeToken session.relayInfo delta)
      (reserved session delta) := by
  have hNonneg := h.nonneg
  have hToken := h.token
  have hCounted := h.counted
  obtain ⟨info, hSync, hPlay, hTokenId, hSubId⟩ := BillingSession.syncRelayInfo_eq
    { session with
      funding := session.funding.addConsumed delta
      preConsumedQuota := session.preConsumedQuota + delta
      tokenConsumed := session.tokenConsumed + delta
      extraReserved := session.extraReserved + delta }
  rw [Billing.reserved, hSync]
  refine ⟨h.not_settled, h.not_refunded, h.funding_open, ?_, ?_, ?_, ?_⟩
  · exact (h.taken.charge delta).congr (fundingTaken_addConsumed _ _ _ _) hPlay hTokenId
  · show 0 ≤ session.preConsumedQuota + delta
    omega
  · show session.tokenConsumed + delta = session.preConsumedQuota + delta
    omega
  · show Counted _ _ (session.funding.addConsumed delta)
    cases hFund : session.funding with rw [hFund] at hCounted
    | wallet w =>
      have hCounted : w.consumed = session.preConsumedQuota := hCounted
      show w.consumed + delta = session.preConsumedQuota + delta
      omega
    | subscription f =>
      obtain ⟨hId, hPre, hExtra, hSum, _, hHeld⟩ := hCounted
      refine ⟨hId, hPre, ?_, ?_, ?_, ?_⟩
      · show 0 ≤ session.extraReserved + delta
        omega
      · show f.preConsumed + (session.extraReserved + delta) = session.preConsumedQuota + delta
        omega
      · exact hSubId f (by simp only [hFund, Funding.addConsumed])
      · rw [Ledger.held_chargeToken, Ledger.held_takeFunding]
        exact hHeld

section

variable {s : σ} (hB : ExactStore B view) (h : Open before (view s) session)
include hB h

theorem Open.settle_ok (actual : Int) :
    ∃ r t, session.settle B actual s = (.ok r, t) ∧ Settled before (view t) r.2 actual := by
  unfold BillingSession.settle
  rw [if_neg (by simp [h.not_settled])]
  by_cases hZero : actual - session.preConsumedQuota = 0
  · have hEq : session.preConsumedQuota = actual := by omega
    rw [if_pos hZero]
    exact ⟨_, s, rfl, rfl, hEq ▸ h.taken⟩
  obtain ⟨t, hFund, hView⟩ :=
    hB.settleFunding (actual - session.preConsumedQuota) s h.subscriptionId_pos
  obtain ⟨t', hTok, hView'⟩ := hB.settleToken session (actual - session.preConsumedQuota) t
  rw [if_neg hZero, if_neg (by simp [h.funding_open]), bind_ok (attempt_ok hFund)]
  refine ⟨_, t', hTok, rfl, ?_⟩
  have hTaken := h.taken.charge (actual - session.preConsumedQuota)
  rw [← hView, ← hView'] at hTaken
  have hSum : session.preConsumedQuota + (actual - session.preConsumedQuota) = actual := by omega
  rw [hSum] at hTaken
  exact hTaken

theorem Open.settle (cfg : BillingConfig) (actual : Int) :
    let st := SessionCall.run B cfg (s, session) (.settle actual)
    Settled before (view st.1) st.2 actual := by
  intro st
  obtain ⟨r, t, hRun, hSettled⟩ := h.settle_ok hB actual
  have hEnd : st = (t, r.2) := by
    show SessionCall.run B cfg (s, session) (.settle actual) = _
    simp only [SessionCall.run, hRun]
  rw [hEnd]
  exact hSettled

theorem Open.giveBack (hPos : 0 < session.preConsumedQuota) :
    ∃ t, session.giveBack B s = (.ok (), t) ∧ Taken before (view t) session 0 := by
  have hTokPos : 0 < session.tokenConsumed := by rw [h.token]; exact hPos
  -- It is enough that the steps before the token give the funding source back.
  have hToken : ∀ t, fundingTaken before (view t) session.funding = 0 →
      tokenTaken before (view t) session.relayInfo = tokenTaken before (view s) session.relayInfo →
      ∃ t', BillingSession.giveBack.returnToken B session session.relayInfo t = (.ok (), t') ∧
        Taken before (view t') session 0 := by
    intro t hFunding hTok
    obtain ⟨t', hRun, hView⟩ := hB.returnToken hTokPos t
    refine ⟨t', hRun, ?_, ?_⟩
    · rw [hView, fundingTaken_chargeToken, hFunding]
    · intro hPlay
      rw [hView, tokenTaken_chargeToken _ _ _ hPlay, hTok, h.taken.2 hPlay, h.token]
      omega
  have hFundTaken := h.taken.1
  have hCounted := h.counted
  unfold BillingSession.giveBack
  cases hFunding : session.funding with rw [hFunding] at hCounted hFundTaken
  | wallet w =>
    have hConsumed : w.consumed = session.preConsumedQuota := hCounted
    obtain ⟨t, hInc, hView⟩ := hB.increaseUserQuota w.userId w.consumed s (by omega)
    have hRefund : Funding.refund B (.wallet w) s = (.ok (), t) := by
      rw [Funding.refund, if_neg (by omega), hInc]
    rw [bind_ok (attempt_ok hRefund), if_neg (by simp [Funding.source])]
    refine hToken t ?_ ?_
    · rw [hFunding, hView]
      have := fundingTaken_takeFunding before (view s) (-w.consumed) (.wallet w)
      simp only [Ledger.takeFunding] at this
      omega
    · rw [hView]
      rfl
  | subscription f =>
    obtain ⟨hId, hPre, hExtra, hSum, hInfo, hHeld⟩ := hCounted
    obtain ⟨t, hRun, hView⟩ := hB.refundSubscriptionPreConsume f.requestId s _ _ hHeld
    have hRefund : Funding.refund B (.subscription f) s = (.ok (), t) := by
      rw [Funding.refund, if_neg (by omega)]
      exact refundWithRetry_ok hRun
    have hAfter : fundingTaken before (view t) (.subscription f) =
        session.preConsumedQuota - f.preConsumed := by
      have := fundingTaken_takeFunding before (view s) (-f.preConsumed) (.subscription f)
      simp only [Ledger.takeFunding] at this
      rw [hView, fundingTaken_release]
      omega
    have hTok : tokenTaken before (view t) session.relayInfo =
        tokenTaken before (view s) session.relayInfo := by
      rw [hView]
      rfl
    rw [bind_ok (attempt_ok hRefund)]
    by_cases hMore : 0 < session.extraReserved
    · obtain ⟨t', hPost, hView'⟩ := hB.postConsumeUserSubscriptionDelta
        session.relayInfo.subscriptionId (-session.extraReserved) t (by omega)
      rw [if_pos ⟨hMore, rfl, by omega⟩, bind_ok (attempt_ok hPost)]
      refine hToken t' ?_ ?_
      · have := fundingTaken_takeFunding before (view t) (-session.extraReserved) (.subscription f)
        rw [hFunding, hView', hInfo]
        simp only [Ledger.takeFunding] at this
        omega
      · rw [hView', ← hTok]
        rfl
    · rw [if_neg (by simp [hMore])]
      refine hToken t ?_ hTok
      rw [hFunding, hAfter]
      omega

theorem Open.refund (cfg : BillingConfig) :
    let st := SessionCall.run B cfg (s, session) .refund
    st = (s, session) ∨ Refunded before (view st.1) st.2 := by
  intro st
  have hRun : st = SessionCall.run B cfg (s, session) .refund := rfl
  simp only [SessionCall.run, BillingSession.refund] at hRun
  by_cases hPos : 0 < session.preConsumedQuota
  · right
    obtain ⟨t, hGive, hTaken⟩ := h.giveBack hB hPos
    rw [if_neg (by simp [h.not_settled, h.not_refunded, h.needsRefund hPos]), bind_ok hGive]
      at hRun
    rw [hRun]
    exact ⟨rfl, hTaken⟩
  · left
    have hNeeds : session.needsRefund = false := by
      have hCounted := h.counted
      have hNonneg := h.nonneg
      cases hFunding : session.funding with
      | wallet w =>
        simp [BillingSession.needsRefund, h.token, hPos, hFunding]
      | subscription f =>
        rw [hFunding] at hCounted
        obtain ⟨_, hPre, hExtra, hSum, _, _⟩ := hCounted
        omega
    rw [if_pos (by simp [hNeeds])] at hRun
    exact hRun

theorem Open.reserve (cfg : BillingConfig) (target : Int) :
    let st := SessionCall.run B cfg (s, session) (.reserve target)
    Open before (view st.1) st.2 := by
  intro st
  have hRun : st = SessionCall.run B cfg (s, session) (.reserve target) := rfl
  simp only [SessionCall.run, BillingSession.reserve] at hRun
  by_cases hSkip : session.settled = true ∨ session.refunded = true ∨ session.trusted = true ∨
      target ≤ session.preConsumedQuota
  · rw [if_pos hSkip] at hRun
    rw [hRun]
    exact h
  rw [if_neg hSkip] at hRun
  push Not at hSkip
  have hDelta : 0 < target - session.preConsumedQuota := by omega
  obtain ⟨t, hFund, hView⟩ := hB.reserveFunding hDelta s h.subscriptionId_pos
  rw [bind_ok hFund] at hRun
  dsimp only at hRun
  rcases hB.reserveToken cfg session hDelta t with ⟨e, t', hTok, hView'⟩ | ⟨t', hTok, hView'⟩
  · -- The token refuses: the funding source is rolled back.
    obtain ⟨t'', hBack, hView''⟩ := hB.rollback hDelta t' h.subscriptionId_pos
    rw [bind_ok hTok] at hRun
    dsimp only at hRun
    rw [bind_ok hBack] at hRun
    have hEnd : st = (t'', session) := hRun
    rw [hEnd]
    refine h.of_view ?_ ?_ ?_
    · rw [hView'', hView', hView, fundingTaken_takeFunding, fundingTaken_takeFunding]
      omega
    · rw [hView'', hView', hView, tokenTaken_takeFunding, tokenTaken_takeFunding]
    · rw [hView'', hView', hView, Ledger.held_takeFunding, Ledger.held_takeFunding]
  · rw [bind_ok hTok] at hRun
    have hEnd : st = (t', Billing.reserved session (target - session.preConsumedQuota)) := hRun
    rw [hEnd, hView', hView]
    exact h.reserved hDelta

end

/-! ## Closed sessions -/

theorem run_of_settled {st : σ × BillingSession} (h : st.2.settled = true) (call : SessionCall) :
    SessionCall.run B cfg st call = st := by
  cases call <;>
    simp [SessionCall.run, BillingSession.reserve, BillingSession.settle, BillingSession.refund, h]

theorem run_of_refunded {st : σ × BillingSession} (h : st.2.refunded = true) {call : SessionCall}
    (hCall : ∀ actual, call ≠ .settle actual) : SessionCall.run B cfg st call = st := by
  cases call with
  | reserve target => simp [SessionCall.run, BillingSession.reserve, h]
  | settle actual => exact absurd rfl (hCall actual)
  | refund => simp [SessionCall.run, BillingSession.refund, h]

theorem foldl_of_settled {st : σ × BillingSession} (h : st.2.settled = true)
    (calls : List SessionCall) : calls.foldl (SessionCall.run B cfg) st = st := by
  induction calls with
  | nil => rfl
  | cons call calls ih => rw [foldl_cons, run_of_settled h, ih]

theorem foldl_of_refunded {st : σ × BillingSession} (h : st.2.refunded = true)
    (hCalls : ∀ call ∈ calls, ∀ actual, call ≠ .settle actual) :
    calls.foldl (SessionCall.run B cfg) st = st := by
  induction calls with
  | nil => rfl
  | cons call calls ih =>
    rw [foldl_cons, run_of_refunded h (hCalls call mem_cons_self)]
    exact ih fun c hc => hCalls c (mem_cons_of_mem _ hc)

/-! ## A new session -/

/-- What a new session has taken: it is open, or it starts below zero and has taken
nothing. -/
structure New (before after : Ledger) (source : BillingSource) (quota : Int)
    (s : BillingSession) : Prop where
  source_eq : s.funding.source = source
  quota_eq : s.preConsumedQuota = if s.trusted then 0 else quota
  not_refunded : s.refunded = false
  is_open : 0 ≤ s.preConsumedQuota → Open before after s
  nothing : s.preConsumedQuota < 0 → after = before

theorem New.of_charged {v' : Ledger} {info : RelayInfo} {trusted : Bool} {quota eff : Int}
    {f f' : Funding} (hF : Uncharged v eff f) (hEff : eff = if trusted then 0 else quota)
    (hCharge : FundingCharged (v.chargeToken info (max eff 0)) v' eff f f') :
    New v v' f.source quota (BillingSession.charged info trusted eff f') := by
  obtain ⟨hSource, hTaken, hNone, hToken, hCounted⟩ := hCharge
  obtain ⟨info', hSession, hPlay, hTokenId, hSubId⟩ := BillingSession.charged_eq info trusted eff f'
  rw [hSession]
  refine ⟨hSource, hEff, rfl, ?_, ?_⟩
  · intro hNonneg
    have hNonneg : 0 ≤ eff := hNonneg
    have hMax : max eff 0 = eff := max_eq_left hNonneg
    refine ⟨rfl, rfl, rfl, ⟨?_, ?_⟩, hNonneg, hMax, ?_⟩
    · show fundingTaken v v' f' = eff
      rw [fundingTaken_trans v (v.chargeToken info (max eff 0)), hTaken, fundingTaken_chargeToken,
        fundingTaken_self, hMax]
      omega
    · intro hNot
      rw [hPlay] at hNot
      show tokenTaken v v' info' = eff
      have hInfo : tokenTaken v v' info' = tokenTaken v v' info := by
        rw [tokenTaken, hTokenId, tokenTaken]
      rw [hInfo, tokenTaken_trans v (v.chargeToken info (max eff 0)), hToken,
        tokenTaken_chargeToken _ _ _ hNot, tokenTaken_self, hMax]
      omega
    · show Counted _ _ f'
      cases f' with
      | wallet w =>
        have hCounted : w.consumed = max eff 0 := hCounted
        exact hCounted.trans hMax
      | subscription sub =>
        obtain ⟨hId, hPre, hHeld⟩ := hCounted
        have hPos : 0 < eff := by
          cases f with
          | wallet w => cases hSource
          | subscription g => exact hF.1
        refine ⟨hId, by omega, le_refl 0, ?_, hSubId sub rfl, ?_⟩
        · show sub.preConsumed + 0 = eff
          omega
        · rw [hPre]
          exact hHeld
  · intro hNeg
    have hNeg : eff < 0 := hNeg
    have hMax : max eff 0 = 0 := max_eq_right (le_of_lt hNeg)
    rw [hNone (le_of_lt hNeg), hMax, Ledger.chargeToken_zero]

theorem ExactStore.preConsume (hB : ExactStore B view) (info : RelayInfo) {f : Funding}
    {E : String → σ → Prop} (hF : Uncharged v quota f) :
    Prog.Triple (fun s => view s = v) ((BillingSession.fresh info f).preConsume B cfg quota)
      (Outcome (fun session t => New v (view t) f.source quota session) (fun t => view t = v))
      E := by
  generalize hTrusted : (BillingSession.fresh info f).shouldTrust cfg = trusted
  generalize hEff : (if trusted = true then (0 : Int) else quota) = eff
  have hF' : Uncharged v eff f := by
    cases f with
    | wallet w => exact hF
    | subscription sub =>
      -- A subscription is never trusted.
      have hNot : trusted = false := by
        rw [← hTrusted]
        simp [BillingSession.shouldTrust, BillingSession.fresh, Funding.source]
      rw [← hEff, hNot]
      exact hF
  have hCharged : Uncharged (v.chargeToken info (max eff 0)) eff f := by
    cases f with
    | wallet w => exact hF'
    | subscription sub => exact ⟨hF'.1, hF'.2.1, by rw [Ledger.held_chargeToken]; exact hF'.2.2⟩
  refine preConsume_triple (C := fun s => view s = v.chargeToken info (max eff 0))
    (D := fun s => view s = v.chargeToken info (max eff 0)) hTrusted.symm hEff.symm ?_ ?_ ?_ ?_ ?_
  · intro hPos
    refine Prog.Triple.of_cases ?_
    intro s hs
    rw [max_eq_left (le_of_lt hPos), ← hs]
    rcases hB.preConsumeToken cfg info (le_of_lt hPos) s with h | ⟨t, hRun, hView⟩
    · exact .inl h
    · exact .inr ⟨(), t, hRun, hView⟩
  · intro hLe s hs
    rw [max_eq_right hLe, Ledger.chargeToken_zero]
    exact hs
  · refine Prog.Triple.of_cases ?_
    intro s hs
    rw [← hs] at hCharged
    rcases hB.fundingPreConsume hCharged with ⟨e, t, hRun, hSame⟩ | ⟨f', t, hRun, hCharge⟩
    · exact .inl ⟨e, t, hRun, hSame.trans hs⟩
    · rw [hs] at hCharge
      exact .inr ⟨f', t, hRun, .of_charged hF' hEff.symm hCharge⟩
  · intro hPos hPlay
    refine Prog.Triple.of_cases ?_
    intro s hs
    obtain ⟨t, hRun, hView⟩ :=
      hB.increaseTokenQuota info.tokenId info.tokenKey eff s (le_of_lt hPos)
    have hCharge : ∀ l : Ledger, ∀ a, l.chargeToken info a = l.takeToken info.tokenId a :=
      fun l a => if_neg hPlay
    refine .inr ⟨(), t, hRun, ?_⟩
    rw [hView, hs, ← hCharge, max_eq_left (le_of_lt hPos)]
    exact v.chargeToken_neg info eff
  · rintro (hLe | hPlay) s hs
    · rw [hs, max_eq_right hLe, Ledger.chargeToken_zero]
    · rw [hs]
      exact if_pos hPlay

def NewSession (before after : Ledger) (quota : Int) (session : BillingSession) : Prop :=
  New before after .wallet quota session ∨
    New before after .subscription (if quota ≤ 0 then 1 else quota) session

theorem ExactStore.newBillingSession (hB : ExactStore B view) {info : RelayInfo} {s t : σ}
    (hHeld : (view s).held info.requestId = none)
    (h : newBillingSession B cfg info quota s = (.ok (.ok session), t)) :
    NewSession (view s) (view t) quota session := by
  have hTriple : Prog.Triple (fun s' => view s' = view s)
      (Billing.newBillingSession B cfg info quota)
      (Outcome (fun session' t' => NewSession (view s) (view t') quota session')
        (fun t' => view t' = view s)) (fun _ _ => False) := by
    refine newBillingSession_triple ?_ ?_ ?_
    · refine Prog.Triple.of_cases fun s' hs' => ?_
      obtain ⟨b, t', hRun, hView⟩ := hB.hasActiveUserSubscription info.userId s'
      exact .inr ⟨b, t', hRun, hView.trans hs'⟩
    · intro _
      refine tryWallet_triple (R := fun _ s' => view s' = view s) ?_ (fun _ _ h' => h') ?_
      · refine Prog.Triple.of_cases fun s' hs' => ?_
        obtain ⟨q, t', hRun, hView⟩ := hB.getUserQuota info.userId s'
        exact .inr ⟨q, t', hRun, hView.trans hs'⟩
      intro q _ _
      have hF : Uncharged (view s) quota (.wallet ⟨info.userId, 0⟩) := rfl
      refine (hB.preConsume { info with userQuota := q } hF).imp
        (fun _ h' => h') ?_ (fun _ _ h' => h')
      intro r t'
      cases r with
      | ok session' => exact .inl
      | error e => exact id
    · intro q
      have hPos : 0 < if quota ≤ 0 then 1 else quota := by split <;> omega
      have hF : Uncharged (view s) (if quota ≤ 0 then 1 else quota) (.subscription
          (.ofRequest { info with userQuota := q } (if quota ≤ 0 then 1 else quota))) :=
        ⟨hPos, rfl, hHeld⟩
      refine (hB.preConsume { info with userQuota := q } hF).imp
        (fun _ h' => h') ?_ (fun _ _ h' => h')
      intro r t'
      cases r with
      | ok session' => exact .inr
      | error e => exact id
  exact hTriple.ok rfl h

/-! ## Sequences of calls -/

def Phase (before after : Ledger) (calls : List SessionCall) (s : BillingSession) : Prop :=
  match firstSettle calls with
  | some actual => Settled before after s actual
  | none => Open before after s ∨ Refunded before after s ∧ .refund ∈ calls

theorem orderly_refund (h : Orderly (.refund :: calls)) :
    (∀ call ∈ calls, ∀ actual, call ≠ .settle actual) ∧ Orderly calls ∧
      firstSettle calls = none := by
  induction calls with
  | nil => simp [Orderly, firstSettle]
  | cons call calls ih =>
    cases call with
    | settle actual => simp [Orderly] at h
    | reserve target =>
      obtain ⟨hAll, hOrd, hFirst⟩ := ih (by simpa [Orderly] using h)
      refine ⟨?_, hOrd, hFirst⟩
      simpa using hAll
    | refund =>
      have hRest : Orderly (.refund :: calls) := by simpa [Orderly] using h
      obtain ⟨hAll, _, hFirst⟩ := ih hRest
      refine ⟨?_, hRest, hFirst⟩
      simpa using hAll

theorem not_settle_of_orderly {call : SessionCall} (h : Orderly (calls ++ [call]))
    (hMem : SessionCall.refund ∈ calls) :
    ∀ actual, call ≠ .settle actual := by
  induction calls with
  | nil => cases hMem
  | cons c calls ih =>
    by_cases hRefund : c = .refund
    · subst hRefund
      exact (orderly_refund h).1 call (by simp)
    have hMem' : SessionCall.refund ∈ calls := by
      rcases mem_cons.mp hMem with he | hm
      · exact absurd he.symm hRefund
      · exact hm
    cases c with
    | refund => exact absurd rfl hRefund
    | reserve target | settle actual => exact ih h hMem'

theorem Open.run (hB : ExactStore B view) (cfg : BillingConfig) (hOrd : Orderly calls) {s : σ}
    (h : Open before (view s) session) :
    let st := calls.foldl (SessionCall.run B cfg) (s, session)
    Phase before (view st.1) calls st.2 := by
  induction calls generalizing s session with
  | nil => exact .inl h
  | cons call calls ih =>
    intro st
    cases call with
    | reserve target =>
      have hPhase := ih hOrd (h.reserve hB cfg target)
      simp only [Phase, firstSettle, mem_cons, reduceCtorEq, false_or] at hPhase ⊢
      exact hPhase
    | settle actual =>
      have hSettled := h.settle hB cfg actual
      have hEnd : st = SessionCall.run B cfg (s, session) (.settle actual) :=
        foldl_of_settled hSettled.settled calls
      rw [hEnd]
      exact hSettled
    | refund =>
      obtain ⟨hAll, hRest, hFirst⟩ := orderly_refund hOrd
      rcases h.refund hB cfg with hSame | hRefunded
      · have hPhase := ih hRest h
        have hEnd : st = calls.foldl (SessionCall.run B cfg) (s, session) := by
          show calls.foldl _ (SessionCall.run B cfg (s, session) .refund) = _
          rw [hSame]
        rw [hEnd]
        simp only [Phase, firstSettle, hFirst] at hPhase ⊢
        exact hPhase.imp id fun hr => ⟨hr.1, mem_cons_self⟩
      · have hEnd : st = SessionCall.run B cfg (s, session) .refund :=
          foldl_of_refunded hRefunded.refunded hAll
        rw [hEnd]
        simp only [Phase, firstSettle, hFirst]
        exact .inr ⟨hRefunded, mem_cons_self⟩

theorem Open.accounted (hB : ExactStore B view) (hOrd : Orderly calls) {s : σ}
    (h : Open before (view s) session) :
    Accounted B cfg view before (s, session) calls := by
  have hPhase := h.run hB cfg hOrd
  unfold Accounted
  simp only [Phase] at hPhase
  cases hFirst : firstSettle calls with rw [hFirst] at hPhase
  | some actual =>
    refine ⟨?_, fun call _ _ => run_of_settled hPhase.settled call⟩
    rw [dueAmount, hFirst]
    exact hPhase.taken
  | none =>
    rcases hPhase with hOpen | ⟨hRefunded, hMem⟩
    · refine ⟨?_, ?_⟩
      · simp only [dueAmount, hFirst]
        rw [if_neg (by rw [hOpen.not_refunded]; decide)]
        exact hOpen.taken
      rintro call _ (hSettle | hRef)
      · exact absurd rfl hSettle
      · rw [hOpen.not_refunded] at hRef
        cases hRef
    · refine ⟨?_, ?_⟩
      · simp only [dueAmount, hFirst]
        rw [if_pos hRefunded.refunded]
        exact hRefunded.taken
      · intro call hNext _
        exact run_of_refunded hRefunded.refunded (not_settle_of_orderly hNext hMem)

theorem New.taken_iff {source : BillingSource} (h : New before after source quota session) :
    Taken before after session session.preConsumedQuota ↔ 0 ≤ session.preConsumedQuota := by
  constructor
  · intro hTaken
    by_contra hNeg
    have hFunding := hTaken.1
    rw [h.nothing (by omega), fundingTaken_self] at hFunding
    omega
  · intro hNonneg
    exact (h.is_open hNonneg).taken

theorem NewSession.nonneg_iff (h : NewSession before after quota session) :
    0 ≤ session.preConsumedQuota ↔
      0 ≤ quota ∨ session.trusted = true ∨ session.funding.source = .subscription := by
  rcases h with h | h
  · rw [h.quota_eq, h.source_eq]
    cases session.trusted <;> simp
  rw [h.quota_eq, h.source_eq]
  simp only [or_true, iff_true]
  split
  · exact le_refl _
  · split <;> omega

theorem NewSession.exists_new (h : NewSession before after quota session) :
    ∃ source q, New before after source q session := by
  rcases h with h | h <;> exact ⟨_, _, h⟩

/-- **What a session has taken is what it says**, exactly when it did not start below zero. -/
theorem session_accounted_iff (hB : ExactStore B view) {info : RelayInfo} {quota : Int} {s t : σ}
    {session : BillingSession} (hHeld : (view s).held info.requestId = none)
    (hNew : newBillingSession B cfg info quota s = (.ok (.ok session), t)) :
    (∀ calls, Orderly calls → Accounted B cfg view (view s) (t, session) calls) ↔
      0 ≤ quota ∨ session.trusted = true ∨ session.funding.source = .subscription := by
  have hSession := hB.newBillingSession hHeld hNew
  obtain ⟨source, q, hStart⟩ := hSession.exists_new
  rw [← hSession.nonneg_iff]
  constructor
  · intro hAll
    -- Already the empty sequence tells.
    have hTaken := (hAll [] rfl).1
    simp only [foldl_nil, dueAmount, firstSettle, hStart.not_refunded] at hTaken
    exact hStart.taken_iff.mp hTaken
  · intro hNonneg calls hOrd
    exact (hStart.is_open hNonneg).accounted hB hOrd

end Exact

def shop100 : BillingStore Ledger :=
  idealStore (fun _ => 100) (fun _ => ⟨100, false⟩) (fun _ => none)

def nothingTaken : Ledger := ⟨fun _ => 0, fun _ => 0, fun _ => 0, fun _ => none⟩

theorem walletRequest_accounted :
    ∃ session t, newBillingSession shop100 noTrust walletRequest 5 nothingTaken
        = (.ok (.ok session), t) ∧
      session.preConsumedQuota = 5 ∧
      ∀ calls, Orderly calls → Accounted shop100 noTrust id nothingTaken (t, session) calls := by
  have hHeld : (id nothingTaken).held walletRequest.requestId = none := rfl
  have hB : ExactStore shop100 id := idealStore_exact _ _ _
  have hNew : newBillingSession shop100 noTrust walletRequest 5 nothingTaken = _ := rfl
  exact ⟨_, _, hNew, rfl, (session_accounted_iff hB hHeld hNew).mpr (.inl (by decide))⟩

/-- A session for the quota -5 has taken nothing, and a settlement at 10 takes 15. -/
theorem negative_quota_overcharges :
    ExactStore shop100 id ∧
    ∃ session t, newBillingSession shop100 noTrust walletRequest (-5) nothingTaken
        = (.ok (.ok session), t) ∧
      session.preConsumedQuota = -5 ∧
      fundingTaken nothingTaken t session.funding = 0 ∧
      let st := SessionCall.run shop100 noTrust (t, session) (.settle 10)
      fundingTaken nothingTaken st.1 st.2.funding = 15 ∧
        tokenTaken nothingTaken st.1 st.2.relayInfo = 15 := by
  refine ⟨idealStore_exact _ _ _, _, _, rfl, rfl, ?_, ?_, ?_⟩ <;> decide

end NewApi.Billing
