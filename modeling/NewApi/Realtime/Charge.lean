import NewApi.Realtime.Handler

/-!
# What a realtime session costs

`PreWssConsumeQuota` charges every turn to the wallet, and `PostWssConsumeQuota` settles the session
at the price of the whole usage, so both are paid.
-/

namespace NewApi.Realtime

open Core Billing

section Session

variable {σ : Type} {S : Setup σ} {view : σ → Ledger} {before : Ledger} {info : RelayInfo}
  {billing : Option BillingSession}

theorem preWssConsumeQuota_cases (hB : ExactStore S.store view) (hRatio : S.price.usePrice = false)
    (hWallet : info.billingSource ≠ some .subscription) (usage : RealtimeUsage) (s : σ) :
    (∃ e t, preWssConsumeQuota S info usage s = (.error e, t) ∧ view t = view s) ∨
    ∃ t, preWssConsumeQuota S info usage s = (.ok (), t) ∧
      view t = (view s).spend info (preWssQuota S.ratios S.price usage) := by
  unfold preWssConsumeQuota
  rw [if_neg (by simp [hRatio])]
  obtain ⟨userQuota, s₁, hUser, hView₁⟩ := hB.getUserQuota info.userId s
  obtain ⟨token, s₂, hToken, hView₂⟩ := hB.getTokenByKey (Go.trimPrefix info.tokenKey "sk-") s₁
  rw [Prog.bind_ok hUser, Prog.bind_ok hToken]
  split
  · exact .inl ⟨_, s₂, rfl, hView₂.trans hView₁⟩
  split
  · exact .inl ⟨_, s₂, rfl, hView₂.trans hView₁⟩
  · obtain ⟨t, hRun, hView⟩ :=
      hB.postConsumeQuota hWallet (preWssQuota S.ratios S.price usage) s₂
    exact .inr ⟨t, hRun, by rw [hView, hView₂, hView₁]⟩

/-- The wallet of the request, apart from the charges of the turns. -/
def Live (view : σ → Ledger) (before : Ledger) (info : RelayInfo) (billing : Option BillingSession)
    (st : RealtimeState σ) : Prop :=
  Paid (before.spend (relayOf info billing) st.charged.sum) (view st.store) info billing

theorem spend_spend (l : Ledger) (info : RelayInfo) (a b : Int) :
    (l.spend info a).spend info b = l.spend info (a + b) := by
  unfold Ledger.spend Ledger.chargeToken
  split <;> simp [Ledger.takeWallet, Ledger.takeToken, add_assoc]

section

variable (hB : ExactStore S.store view)
include hB

section

variable (hRatio : S.price.usePrice = false)
  (hWallet : (relayOf info billing).billingSource ≠ some .subscription)
include hRatio hWallet

theorem Live.preConsumeUsage {st : RealtimeState σ} (h : Live view before info billing st)
    (usage : RealtimeUsage) :
    Live view before info billing (preConsumeUsage S (relayOf info billing) usage st).1 := by
  unfold Realtime.preConsumeUsage
  rcases preWssConsumeQuota_cases hB hRatio hWallet usage st.store with
    ⟨e, t, hRun, hView⟩ | ⟨t, hRun, hView⟩
  · simp only [hRun]
    show Paid _ (view t) info billing
    rw [hView]
    exact h
  simp only [hRun]
  have hSpend := Paid.spend h (preWssQuota S.ratios S.price usage)
  rw [spend_spend, ← hView] at hSpend
  simpa [Live, hRatio] using hSpend

/-- **A message keeps the invariant**: it charges at most one turn. -/
theorem Live.handle {st : RealtimeState σ} (h : Live view before info billing st)
    (event : RealtimeEvent) :
    Live view before info billing (handle S (relayOf info billing) st event) := by
  have hTurn : ∀ (st' : RealtimeState σ) (usage : RealtimeUsage), st'.store = st.store →
      st'.charged = st.charged →
      Live view before info billing
        (Realtime.preConsumeUsage S (relayOf info billing) usage st').1 := by
    intro st' usage hStore hCharged
    refine Live.preConsumeUsage hB hRatio hWallet ?_ usage
    rw [Live, hStore, hCharged]
    exact h
  unfold Realtime.handle
  split
  · exact h
  cases event with
  | client text audio | sessionUpdated | upstream text audio => exact h
  | responseDone usage text audio =>
    cases usage with
    | some usage =>
      have hDone := hTurn { st with usage := st.usage.add usage, responses := st.responses + 1 }
        (st.usage.add usage) rfl rfl
      dsimp only
      split <;> next hRun =>
        rw [hRun] at hDone
        exact hDone
    | none =>
      have hDone := hTurn { st with
          localUsage := st.localUsage.addInput text audio, responses := st.responses + 1 }
        (st.localUsage.addInput text audio) rfl rfl
      dsimp only
      split <;> next hRun =>
        rw [hRun] at hDone
        exact hDone

theorem Live.flush {st : RealtimeState σ} (h : Live view before info billing st) :
    Live view before info billing (flush S (relayOf info billing) st) := by
  have hFirst : Live view before info billing
      (if st.usage.totalTokens ≠ 0 then
        (Realtime.preConsumeUsage S (relayOf info billing) st.usage st).1 else st) := by
    split
    · exact h.preConsumeUsage hB hRatio hWallet st.usage
    · exact h
  unfold Realtime.flush
  dsimp only
  generalize (if st.usage.totalTokens ≠ 0 then
    (Realtime.preConsumeUsage S (relayOf info billing) st.usage st).1 else st) = st' at hFirst ⊢
  split
  · exact hFirst.preConsumeUsage hB hRatio hWallet _
  · exact hFirst

theorem Live.handler {s : σ} (h : Paid before (view s) info billing) (events : List RealtimeEvent) :
    Live view before info billing
      (openaiRealtimeHandler S (relayOf info billing) events s) := by
  refine Live.flush hB hRatio hWallet ?_
  have hStart : Live view before info billing (RealtimeState.start s) := by
    have hZero : before.spend (relayOf info billing) 0 = before := by
      rw [Ledger.spend, Ledger.takeWallet_zero, Ledger.chargeToken_zero]
    rw [Live, RealtimeState.start, List.sum_nil, hZero]
    exact h
  generalize RealtimeState.start s = st at hStart
  induction events generalizing st with
  | nil => exact hStart
  | cons event events ih => exact ih _ (hStart.handle hB hRatio hWallet event)

/-- **What is taken from the wallet** when `WssHelper` returns: the turns and the
settlement. -/
theorem wssHelper_wallet {s : σ} (h : Paid before (view s) info billing)
    (events : List RealtimeEvent) :
    let st := wssHelper S (relayOf info billing) billing events s
    (view st.store).wallet (relayOf info billing).userId -
        before.wallet (relayOf info billing).userId =
      st.charged.sum + settledQuota S.ratios S.price st.sumUsage := by
  intro st
  have hLive := Live.handler hB hRatio hWallet h events
  generalize hEnd : openaiRealtimeHandler S (relayOf info billing) events s = last at hLive
  have hSt : st = postWssConsumeQuota S (relayOf info billing) billing last := by
    show wssHelper S (relayOf info billing) billing events s = _
    rw [wssHelper, hEnd]
  obtain ⟨r, t, hRun, hTaken⟩ :=
    Paid.settle hB hLive hWallet (settledQuota S.ratios S.price last.sumUsage)
  rw [Ledger.spend_wallet] at hTaken
  rw [hSt]
  show (view (settleBilling S.store billing (relayOf info billing)
    (settledQuota S.ratios S.price last.sumUsage) last.store).2).wallet _ - _ =
      last.charged.sum + settledQuota S.ratios S.price last.sumUsage
  rw [hRun, hTaken]
  omega

end

theorem paid_of_preConsumeBilling {s s₁ : σ} {freeModel : Bool} {quota : Int}
    (hHeld : (view s).held info.requestId = none) (hQuota : 0 ≤ quota)
    (hNew : info.finalPreConsumedQuota = 0)
    (hPre : preConsumeBilling S.store S.billing freeModel info quota s = (.ok (.ok billing), s₁)) :
    (relayOf info billing).userId = info.userId ∧
      ((∀ session, billing = some session → session.funding.source = .wallet) →
        Paid (view s) (view s₁) info billing) := by
  rcases preConsumeBilling_ok hPre with ⟨rfl, rfl⟩ | ⟨session, rfl, hRun⟩
  · exact ⟨rfl, fun _ => ⟨rfl, hNew⟩⟩
  have hReq := (newBillingSession_ofRequest hRun).1
  refine ⟨hReq.userId, ?_⟩
  intro hWallet
  have hSource := hWallet session rfl
  have hSession := hB.newBillingSession hHeld hRun
  obtain ⟨source, q, hStart⟩ := hSession.exists_new
  refine ⟨hStart.is_open (hSession.nonneg_iff.mpr (.inl hQuota)), ?_⟩
  cases hFund : session.funding with
  | wallet w => exact ⟨w, rfl, (hReq.wallet w hFund).trans hReq.userId.symm⟩
  | subscription sub => rw [hFund] at hSource; cases hSource

end

theorem relayOf_wallet {s s₁ : σ} {freeModel : Bool} {quota : Int}
    (hNew : info.billingSource = none)
    (hPre : preConsumeBilling S.store S.billing freeModel info quota s = (.ok (.ok billing), s₁))
    (hWallet : ∀ session, billing = some session → session.funding.source = .wallet) :
    (relayOf info billing).billingSource ≠ some .subscription := by
  rcases preConsumeBilling_ok hPre with ⟨rfl, _⟩ | ⟨session, rfl, hRun⟩
  · simp [relayOf, hNew]
  · rw [relayOf, (newBillingSession_ofRequest hRun).1.source, hWallet session rfl]
    decide

/-! ## The turns of a session -/

/-- What the messages say was used: the usage of each `response.done`, or the tokens counted since
the last one if it has none, and what is counted after the last one. -/
def turnUsages : RealtimeUsage → List RealtimeEvent → List RealtimeUsage
  | counted, [] => if counted.totalTokens ≠ 0 then [counted] else []
  | counted, .client text audio :: events => turnUsages (counted.addInput text audio) events
  | _, .responseDone (some usage) _ _ :: events => usage :: turnUsages .empty events
  | counted, .responseDone none text audio :: events =>
    counted.addInput text audio :: turnUsages .empty events
  | counted, .sessionUpdated :: events => turnUsages counted events
  | counted, .upstream text audio :: events => turnUsages (counted.addOutput text audio) events

def responseCount (events : List RealtimeEvent) : Nat := events.countP (· matches .responseDone ..)

/-- No charge is refused when the usages are charged one after the other: the user and the token
have enough for all of them. -/
def accepted (S : Setup σ) (info : RelayInfo) : List RealtimeUsage → σ → Bool
  | [], _ => true
  | usage :: usages, s =>
    match preWssConsumeQuota S info usage s with
    | (.ok (), t) => accepted S info usages t
    | (.error _, _) => false

theorem accepted_cons {usage : RealtimeUsage} {usages : List RealtimeUsage} {s : σ}
    (h : accepted S info (usage :: usages) s) :
    ∃ t, preWssConsumeQuota S info usage s = (.ok (), t) ∧ accepted S info usages t := by
  rw [accepted] at h
  split at h
  · next t hCharge => exact ⟨t, hCharge, h⟩
  · cases h

theorem RealtimeUsage.empty_add (u : RealtimeUsage) : RealtimeUsage.empty.add u = u := by
  simp [RealtimeUsage.empty, RealtimeUsage.add]

theorem preConsumeUsage_accepted (st : RealtimeState σ) {usage : RealtimeUsage} {store : σ}
    (hRatio : S.price.usePrice = false)
    (h : preWssConsumeQuota S info usage st.store = (.ok (), store)) :
    preConsumeUsage S info usage st = ({ st with
      store
      sumUsage := st.sumUsage.add usage
      charged := st.charged ++ [preWssQuota S.ratios S.price usage] }, true) := by
  simp [preConsumeUsage, h, hRatio]

/-- Without refusals the handler charges the turns of the messages. -/
theorem flush_foldl_handle (hRatio : S.price.usePrice = false) (events : List RealtimeEvent)
    (st : RealtimeState σ) (hOpen : st.stopped = false) (hUsage : st.usage = .empty)
    (hAccept : accepted S info (turnUsages st.localUsage events) st.store) :
    let last := flush S info (events.foldl (handle S info) st)
    let turns := turnUsages st.localUsage events
    last.charged = st.charged ++ turns.map (preWssQuota S.ratios S.price) ∧
      last.sumUsage = turns.foldl RealtimeUsage.add st.sumUsage ∧
      last.responses = st.responses + responseCount events := by
  induction events generalizing st with
  | nil =>
    have hNone : st.usage.totalTokens = 0 := by rw [hUsage]; rfl
    by_cases hLeft : st.localUsage.totalTokens = 0
    · simp [flush, hNone, turnUsages, hLeft, responseCount]
    · rw [turnUsages, if_pos hLeft] at hAccept
      obtain ⟨store, hCharge, -⟩ := accepted_cons hAccept
      simp [flush, hNone, turnUsages, hLeft, responseCount, preConsumeUsage_accepted st hRatio
        hCharge]
  | cons event events ih =>
    have hNext := ih (handle S info st event)
    rw [List.foldl_cons]
    cases event with
    | client | upstream | sessionUpdated =>
      simpa [handle, hOpen, turnUsages, responseCount] using hNext (by simp [handle, hOpen])
        (by simp [handle, hOpen, hUsage]) (by simpa [handle, hOpen, turnUsages] using hAccept)
    | responseDone usage text audio =>
      have hTurns : turnUsages st.localUsage (.responseDone usage text audio :: events) =
          usage.getD (st.localUsage.addInput text audio) :: turnUsages .empty events := by
        cases usage <;> rfl
      rw [hTurns] at hAccept
      obtain ⟨store, hCharge, hRest⟩ := accepted_cons hAccept
      have hStep : handle S info st (.responseDone usage text audio) = { st with
          store
          usage := .empty
          localUsage := .empty
          sumUsage := st.sumUsage.add (usage.getD (st.localUsage.addInput text audio))
          responses := st.responses + 1
          charged := st.charged ++ [preWssQuota S.ratios S.price
            (usage.getD (st.localUsage.addInput text audio))] } := by
        cases usage with
        | some usage =>
          rw [Option.getD_some] at hCharge ⊢
          rw [handle, if_neg (by simp [hOpen])]
          simp only [hUsage, RealtimeUsage.empty_add, preConsumeUsage_accepted
            { st with usage := usage, responses := st.responses + 1 } hRatio hCharge]
        | none =>
          rw [Option.getD_none] at hCharge ⊢
          rw [handle, if_neg (by simp [hOpen])]
          simp only [preConsumeUsage_accepted { st with
            localUsage := st.localUsage.addInput text audio, responses := st.responses + 1 }
              hRatio hCharge, ← hUsage]
      have hLater := hNext (by rw [hStep]; exact hOpen) (by rw [hStep]) (by rw [hStep]; exact hRest)
      rw [hStep] at hLater ⊢
      simpa [hTurns, responseCount, add_assoc, add_comm] using hLater

end Session

/-! ## Two sessions -/

def flatRatios : RatioSettings where
  quotaPerUnit := 500000
  completionRatio _ := 1
  audioRatio _ := 1
  audioCompletionRatio _ := 1
  modelRatio _ := 1
  groupRatio _ := 1
  groupGroupRatio _ _ := none

def flatModel : PriceInfo where
  originModelName := "gpt-4o-realtime"
  upstreamModelName := "gpt-4o-realtime"
  usingGroup := "default"
  userGroup := "default"
  autoGroup := none
  usePrice := false
  priceData :=
    { freeModel := false
      usePrice := false
      modelPrice := 0
      modelRatio := 1
      groupRatio := 1
      quotaToPreConsume := 5 }

def flatSetup : Setup Ledger := ⟨shop100, noTrust, flatRatios, flatModel⟩

def turn (n : Int) : RealtimeEvent := .responseDone (some ⟨n, n, 0, 0, n, 0, 0, 0⟩) 0 0

end NewApi.Realtime
