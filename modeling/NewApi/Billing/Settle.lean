import NewApi.Billing.Accounted

/-!
# Settling a request

`SettleBilling` settles through the session of a request when there is one; `PostConsumeQuota` is
the older path that charges wallet and token directly.  Over an exact store both are equations on
the ledger.
-/

namespace NewApi.Billing

open Core Prog

section Functions

variable {σ : Type} (B : BillingStore σ)

/-- `PreConsumeBilling`, as the relay calls it: a free model has no session. -/
def preConsumeBilling (cfg : BillingConfig) (freeModel : Bool) (info : RelayInfo) (quota : Int) :
    Prog σ (Except APIError (Option BillingSession)) :=
  if freeModel then pure (.ok none)
  else do
    match ← newBillingSession B cfg info quota with
    | .ok session => pure (.ok (some session))
    | .error e => pure (.error e)

def postConsumeSource (info : RelayInfo) (quota : Int) : Prog σ Unit :=
  if info.billingSource = some .subscription then
    if info.subscriptionId = 0 then Prog.fail "subscription id is missing"
    else if quota ≠ 0 then B.postConsumeUserSubscriptionDelta info.subscriptionId quota
    else pure ()
  else if 0 < quota then B.decreaseUserQuota info.userId quota
  else B.increaseUserQuota info.userId (-quota)

/-- The mails it may send and the counter `SubscriptionPostDelta` are left out. -/
def postConsumeQuota (info : RelayInfo) (quota : Int) : Prog σ Unit := do
  postConsumeSource B info quota
  if info.isPlayground then pure ()
  else if 0 < quota then B.decreaseTokenQuota info.tokenId info.tokenKey quota
  else B.increaseTokenQuota info.tokenId info.tokenKey (-quota)

def settleBilling (billing : Option BillingSession) (info : RelayInfo) (actualQuota : Int) :
    Prog σ (Option String) :=
  match billing with
  | some session => do
    let r ← session.settle B actualQuota
    pure r.1
  | none => do
    let quotaDelta := actualQuota - info.finalPreConsumedQuota
    if quotaDelta ≠ 0 then
      match ← Prog.attempt (postConsumeQuota B info quotaDelta) with
      | .ok () => pure none
      | .error text => pure (some text)
    else pure none

end Functions

/-! ## Over an exact store -/

def Ledger.spend (l : Ledger) (info : RelayInfo) (amount : Int) : Ledger :=
  (l.takeWallet info.userId amount).chargeToken info amount

theorem Ledger.spend_wallet (l : Ledger) (info : RelayInfo) (amount : Int) :
    (l.spend info amount).wallet info.userId = l.wallet info.userId + amount := by
  have h : (l.spend info amount).wallet = (l.takeWallet info.userId amount).wallet := by
    unfold spend chargeToken
    split <;> rfl
  rw [h]
  exact Function.update_self ..

theorem Ledger.spend_token (l : Ledger) (info : RelayInfo) (amount : Int)
    (hPlay : info.isPlayground = false) :
    (l.spend info amount).token info.tokenId = l.token info.tokenId + amount := by
  rw [spend, chargeToken, if_neg (by simp [hPlay])]
  exact Function.update_self ..

section Exact

variable {σ : Type} {B : BillingStore σ} {view : σ → Ledger}

theorem ExactStore.postConsumeQuota (hB : ExactStore B view) {info : RelayInfo}
    (hWallet : info.billingSource ≠ some .subscription) (quota : Int) (s : σ) :
    ∃ t, postConsumeQuota B info quota s = (.ok (), t) ∧ view t = (view s).spend info quota := by
  have hSource : ∃ t, postConsumeSource B info quota s = (.ok (), t) ∧
      view t = (view s).takeWallet info.userId quota := by
    unfold postConsumeSource
    rw [if_neg hWallet]
    by_cases hPos : 0 < quota
    · obtain ⟨t, hRun, hView⟩ := hB.decreaseUserQuota info.userId quota s (le_of_lt hPos)
      exact ⟨t, by rw [if_pos hPos, hRun], hView⟩
    · obtain ⟨t, hRun, hView⟩ := hB.increaseUserQuota info.userId (-quota) s (by omega)
      rw [Int.neg_neg] at hView
      exact ⟨t, by rw [if_neg hPos, hRun], hView⟩
  obtain ⟨t, hRun, hView⟩ := hSource
  unfold Billing.postConsumeQuota Ledger.spend Ledger.chargeToken
  rw [bind_ok hRun, ← hView]
  by_cases hPlay : info.isPlayground = true
  · rw [if_pos hPlay, if_pos hPlay]
    exact ⟨t, rfl, rfl⟩
  rw [if_neg hPlay, if_neg hPlay]
  by_cases hPos : 0 < quota
  · obtain ⟨t', hTok, hView'⟩ :=
      hB.decreaseTokenQuota info.tokenId info.tokenKey quota t (le_of_lt hPos)
    exact ⟨t', by rw [if_pos hPos, hTok], hView'⟩
  obtain ⟨t', hTok, hView'⟩ :=
    hB.increaseTokenQuota info.tokenId info.tokenKey (-quota) t (by omega)
  rw [Int.neg_neg] at hView'
  exact ⟨t', by rw [if_neg hPos, hTok], hView'⟩

end Exact

/-! ## The session of a request -/

/-- The session has the request's user, token and playground flag, and says what it charges. -/
structure OfRequest (info : RelayInfo) (session : BillingSession) : Prop where
  userId : session.relayInfo.userId = info.userId
  tokenId : session.relayInfo.tokenId = info.tokenId
  isPlayground : session.relayInfo.isPlayground = info.isPlayground
  source : session.relayInfo.billingSource = some session.funding.source
  wallet : ∀ w, session.funding = .wallet w → w.userId = info.userId

variable {f : Funding}

theorem OfRequest.charged {info info' : RelayInfo}
    (hInfo : ∃ q, info' = { info with userQuota := q }) (trusted : Bool) (quota : Int)
    (hWallet : ∀ w, f = .wallet w → w.userId = info.userId) :
    OfRequest info (BillingSession.charged info' trusted quota f) := by
  obtain ⟨q, rfl⟩ := hInfo
  cases f with
  | wallet w | subscription sub => exact ⟨rfl, rfl, rfl, rfl, hWallet⟩

section Factory

variable {σ : Type} {B : BillingStore σ} {cfg : BillingConfig} {info : RelayInfo} {quota : Int}

theorem preConsume_wallet (f : Funding) (hWallet : ∀ w, f = .wallet w → w.userId = info.userId)
    (amount : Int) :
    Prog.Triple (fun _ => True) (f.preConsume B amount)
      (fun f' _ => ∀ w, f' = .wallet w → w.userId = info.userId) (fun _ _ => True) := by
  cases f with
  | wallet w =>
    refine Prog.Triple.ite (fun _ => Prog.Triple.pure fun _ _ => hWallet) fun _ => ?_
    refine Prog.Triple.trivial.bind fun _ => Prog.Triple.pure fun _ _ w' hw' => ?_
    cases hw'
    exact hWallet w rfl
  | subscription sub =>
    refine Prog.Triple.trivial.bind fun r => ?_
    refine Prog.Triple.trivial.attempt.bind fun plan => ?_
    cases plan with
    | ok _ | error _ => exact Prog.Triple.pure fun _ _ w hw => by cases hw

def BillingSession.IsCharged (session : BillingSession) : Prop :=
  ∃ i t q g, session = BillingSession.charged i t q g

theorem attempt_ofRequest (hWallet : ∀ w, f = .wallet w → w.userId = info.userId)
    {info' : RelayInfo} (hInfo : ∃ q, info' = { info with userQuota := q })
    {E : String → σ → Prop} :
    Prog.Triple (fun _ => True) ((BillingSession.fresh info' f).preConsume B cfg quota)
      (Outcome (fun session _ => OfRequest info session ∧ session.IsCharged) (fun _ => True)) E := by
  refine preConsume_triple (C := fun _ => True) (D := fun _ => True) rfl rfl
    (fun _ => Prog.Triple.trivial) (fun _ _ _ => True.intro) ?_ (fun _ _ => Prog.Triple.trivial)
    (fun _ _ _ => True.intro)
  exact (preConsume_wallet f hWallet _).imp (fun _ h => h)
    (fun f' _ h => ⟨.charged hInfo _ _ h, _, _, _, _, rfl⟩) (fun _ _ h => h)

theorem newBillingSession_ofRequest {session : BillingSession} {s t : σ}
    (h : newBillingSession B cfg info quota s = (.ok (.ok session), t)) :
    OfRequest info session ∧ session.IsCharged := by
  have hTriple : Prog.Triple (fun _ => True) (newBillingSession B cfg info quota)
      (Outcome (fun session _ => OfRequest info session ∧ session.IsCharged) (fun _ => True))
      (fun _ _ => False) := by
    refine newBillingSession_triple Prog.Triple.trivial (fun _ => ?_) fun q => ?_
    · refine tryWallet_triple (R := fun _ _ => True) Prog.Triple.trivial (fun _ _ _ => True.intro)
        fun q _ _ => ?_
      refine attempt_ofRequest ?_ ⟨q, rfl⟩
      intro w hw
      cases hw
      rfl
    · refine attempt_ofRequest ?_ ⟨q, rfl⟩
      exact nofun
  exact hTriple.ok True.intro h

theorem preConsumeBilling_ok {freeModel : Bool} {billing : Option BillingSession} {s t : σ}
    (h : preConsumeBilling B cfg freeModel info quota s = (.ok (.ok billing), t)) :
    (billing = none ∧ t = s) ∨
      ∃ session, billing = some session ∧
        newBillingSession B cfg info quota s = (.ok (.ok session), t) := by
  unfold preConsumeBilling at h
  split at h
  · cases h
    exact .inl ⟨rfl, rfl⟩
  obtain ⟨r, s', hRun, hRet⟩ := bind_eq_ok.mp h
  cases r with cases hRet
  | ok session => exact .inr ⟨session, rfl, hRun⟩

end Factory

/-! ## What a request has paid from its wallet -/

def relayOf (info : RelayInfo) : Option BillingSession → RelayInfo
  | some session => session.relayInfo
  | none => info

/-- An open session on the user's wallet, or none and nothing is taken from the wallet. -/
def Paid (before after : Ledger) (info : RelayInfo) : Option BillingSession → Prop
  | some session => Open before after session ∧
      ∃ w, session.funding = .wallet w ∧ w.userId = session.relayInfo.userId
  | none => after.wallet info.userId = before.wallet info.userId ∧ info.finalPreConsumedQuota = 0

section Paid

variable {σ : Type} {B : BillingStore σ} {view : σ → Ledger} {before : Ledger} {info : RelayInfo}
  {billing : Option BillingSession}

theorem Paid.spend {after : Ledger} (h : Paid before after info billing) (amount : Int) :
    Paid (before.spend (relayOf info billing) amount) (after.spend (relayOf info billing) amount)
      info billing := by
  cases billing with
  | none =>
    refine ⟨?_, h.2⟩
    show (after.spend info amount).wallet info.userId =
      (before.spend info amount).wallet info.userId
    rw [Ledger.spend_wallet, Ledger.spend_wallet, h.1]
  | some session =>
    obtain ⟨hOpen, w, hFund, hUser⟩ := h
    refine ⟨⟨hOpen.not_settled, hOpen.not_refunded, hOpen.funding_open, ⟨?_, ?_⟩, hOpen.nonneg,
      hOpen.token, ?_⟩, w, hFund, hUser⟩
    · have hTaken := hOpen.taken.1
      rw [hFund] at hTaken ⊢
      simp only [fundingTaken, hUser, relayOf, Ledger.spend_wallet] at hTaken ⊢
      omega
    · intro hPlay
      have hTaken := hOpen.taken.2 hPlay
      simp only [tokenTaken, relayOf, Ledger.spend_token _ _ _ hPlay] at hTaken ⊢
      omega
    · have hCounted := hOpen.counted
      rw [hFund] at hCounted ⊢
      exact hCounted

theorem settle_accounts (session : BillingSession) (actual : Int) {s t : σ}
    {r : Option String × BillingSession} (h : session.settle B actual s = (.ok r, t)) :
    r.2.funding = session.funding ∧ r.2.relayInfo.isPlayground = session.relayInfo.isPlayground ∧
      r.2.relayInfo.tokenId = session.relayInfo.tokenId := by
  have hToken : ∀ {s t : σ} {r : Option String × BillingSession} {delta : Int},
      session.settleToken B delta s = (.ok r, t) → r.2.funding = session.funding ∧
        r.2.relayInfo.isPlayground = session.relayInfo.isPlayground ∧
        r.2.relayInfo.tokenId = session.relayInfo.tokenId := by
    intro s t r delta hRun
    unfold BillingSession.settleToken at hRun
    by_cases hPlay : session.relayInfo.isPlayground = true <;> simp only [hPlay] at hRun
    · cases hRun
      exact ⟨rfl, rfl, rfl⟩
    · obtain ⟨out, s', _, hRet⟩ := bind_eq_ok.mp hRun
      cases out <;> cases hRet <;> exact ⟨rfl, rfl, rfl⟩
  unfold BillingSession.settle at h
  split at h
  · cases h
    exact ⟨rfl, rfl, rfl⟩
  split at h
  · cases h
    exact ⟨rfl, rfl, rfl⟩
  split at h
  · exact hToken h
  obtain ⟨out, s', _, hRest⟩ := bind_eq_ok.mp h
  cases out with
  | error text => cases hRest; exact ⟨rfl, rfl, rfl⟩
  | ok _ => exact hToken hRest

theorem taken_run_settle (hB : ExactStore B view) (cfg : BillingConfig) {s : σ}
    {session : BillingSession} (h : Open before (view s) session) (actual : Int) :
    Taken before (view (SessionCall.run B cfg (s, session) (.settle actual)).1) session actual := by
  obtain ⟨r, t, hRun, hSettled⟩ := h.settle_ok hB actual
  obtain ⟨hFunding, hPlay, hToken⟩ := settle_accounts session actual hRun
  have hEnd : (SessionCall.run B cfg (s, session) (.settle actual)).1 = t := by
    simp only [SessionCall.run, hRun]
  rw [hEnd]
  exact hSettled.taken.congr (by rw [hFunding]) hPlay.symm hToken.symm

theorem taken_run_refund (hB : ExactStore B view) (cfg : BillingConfig) {s : σ}
    {session : BillingSession} (h : Open before (view s) session)
    (hPos : 0 < session.preConsumedQuota) :
    Taken before (view (SessionCall.run B cfg (s, session) .refund).1) session 0 := by
  obtain ⟨t, hGive, hTaken⟩ := h.giveBack hB hPos
  have hEnd : (SessionCall.run B cfg (s, session) .refund).1 = t := by
    simp only [SessionCall.run, BillingSession.refund]
    rw [if_neg (by simp [h.not_settled, h.not_refunded, h.needsRefund hPos]), bind_ok hGive]
    rfl
  rw [hEnd]
  exact hTaken

theorem Paid.settle (hB : ExactStore B view) {s : σ} (h : Paid before (view s) info billing)
    (hWallet : (relayOf info billing).billingSource ≠ some .subscription) (actual : Int) :
    ∃ r t, settleBilling B billing (relayOf info billing) actual s = (.ok r, t) ∧
      (view t).wallet (relayOf info billing).userId =
        before.wallet (relayOf info billing).userId + actual := by
  cases billing with
  | none =>
    obtain ⟨hSame, hZero⟩ := h
    unfold settleBilling
    dsimp only [relayOf] at hWallet ⊢
    rw [hZero]
    by_cases hDelta : actual - 0 ≠ 0
    · obtain ⟨t, hRun, hView⟩ := hB.postConsumeQuota hWallet (actual - 0) s
      rw [if_pos hDelta, bind_ok (attempt_ok hRun)]
      refine ⟨none, t, rfl, ?_⟩
      rw [hView, Ledger.spend_wallet]
      omega
    · rw [if_neg hDelta]
      exact ⟨none, s, rfl, by omega⟩
  | some session =>
    obtain ⟨hOpen, w, hFund, hUser⟩ := h
    obtain ⟨r, t, hRun, hSettled⟩ := hOpen.settle_ok hB actual
    refine ⟨r.1, t, by rw [settleBilling, bind_ok hRun]; rfl, ?_⟩
    have hTaken := hSettled.taken.1
    rw [(settle_accounts session actual hRun).1, hFund] at hTaken
    simp only [fundingTaken, hUser] at hTaken
    show (view t).wallet session.relayInfo.userId = before.wallet session.relayInfo.userId + actual
    omega

end Paid

end NewApi.Billing
