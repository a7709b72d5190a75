import NewApi.Billing.Session
import NewApi.Core.Triple

/-!
# Rules for the charge in advance

One rule for each function between `NewBillingSession` and the store, from triples about the store's
operations: `P` holds before and after an attempt that was given up, `Q` says what a returned
session has done.
-/

namespace NewApi.Billing

open Core Core.Prog

def Outcome {σ ε : Type} (Q : BillingSession → σ → Prop) (P : σ → Prop) :
    Except ε BillingSession → σ → Prop
  | .ok session => Q session
  | .error _ => P

def WalletOutcome {σ : Type} (info : RelayInfo) (Q : BillingSession → σ → Prop) (P : σ → Prop) :
    Except (APIError × RelayInfo) BillingSession → σ → Prop
  | .ok session => Q session
  | .error (_, info') => fun s => P s ∧ ∃ q, info' = { info with userQuota := q }

def BillingSession.charged (info : RelayInfo) (trusted : Bool) (quota : Int) (funding : Funding) :
    BillingSession :=
  { BillingSession.fresh info funding with
    trusted
    tokenConsumed := max quota 0
    preConsumedQuota := quota }.syncRelayInfo

variable (info : RelayInfo) (trusted : Bool) (quota : Int) (funding : Funding)

theorem BillingSession.charged_eq :
    ∃ info' : RelayInfo, BillingSession.charged info trusted quota funding =
        { relayInfo := info'
          funding
          preConsumedQuota := quota
          tokenConsumed := max quota 0
          extraReserved := 0
          trusted
          fundingSettled := false
          settled := false
          refunded := false } ∧
      info'.isPlayground = info.isPlayground ∧ info'.tokenId = info.tokenId ∧
      ∀ sub, funding = .subscription sub → info'.subscriptionId = sub.subscriptionId :=
  BillingSession.syncRelayInfo_eq _

@[simp] theorem BillingSession.charged_funding :
    (BillingSession.charged info trusted quota funding).funding = funding := by
  obtain ⟨info', hEq, _⟩ := BillingSession.charged_eq info trusted quota funding
  rw [hEq]

@[simp] theorem BillingSession.charged_preConsumedQuota :
    (BillingSession.charged info trusted quota funding).preConsumedQuota = quota := by
  obtain ⟨info', hEq, _⟩ := BillingSession.charged_eq info trusted quota funding
  rw [hEq]

section Rules

variable {σ : Type} {B : BillingStore σ} {cfg : BillingConfig} {P C D : σ → Prop}
  {Q : BillingSession → σ → Prop} {E : String → σ → Prop}

variable {quota : Int} {info : RelayInfo}

/-- `C` holds when the token is charged, `D` when the source has refused after that. -/
theorem preConsumeFunding_triple {session : BillingSession}
    (hFund : Triple C (session.funding.preConsume B quota)
      (fun f => Q { session with funding := f, preConsumedQuota := quota }.syncRelayInfo)
      (fun _ => D)) (hBack : 0 < session.tokenConsumed ∧ ¬session.relayInfo.isPlayground = true →
      Triple D (B.increaseTokenQuota session.relayInfo.tokenId session.relayInfo.tokenKey
        session.tokenConsumed) (fun _ => P) (fun _ => P))
    (hSkip : ¬(0 < session.tokenConsumed ∧ ¬session.relayInfo.isPlayground = true) →
      ∀ s, D s → P s) :
    Triple C (session.preConsumeFunding B quota) (Outcome Q P) E := by
  refine hFund.attempt.bind ?_
  intro r
  cases r with
  | ok f => exact Triple.pure fun s hs => hs
  | error text =>
    refine Triple.ite ?_ ?_
    · intro hTaken
      refine (hBack hTaken).attempt.bind ?_
      intro r'
      cases r' with
      | ok _ | error _ => exact Triple.pure fun s hs => hs
    · intro hNone
      exact Triple.pure fun s hs => hSkip hNone s hs

theorem preConsume_triple {f : Funding} {quota eff : Int} {trusted : Bool}
    (hTrusted : trusted = (BillingSession.fresh info f).shouldTrust cfg)
    (hEff : eff = if trusted then 0 else quota)
    (hToken : 0 < eff → Triple P (preConsumeTokenQuota B cfg info eff) (fun _ => C) (fun _ => P))
    (hNone : eff ≤ 0 → ∀ s, P s → C s) (hFund : Triple C (f.preConsume B eff)
      (fun f' => Q (BillingSession.charged info trusted eff f')) (fun _ => D))
    (hBack : 0 < eff → ¬info.isPlayground = true →
      Triple D (B.increaseTokenQuota info.tokenId info.tokenKey eff) (fun _ => P) (fun _ => P))
    (hSkip : eff ≤ 0 ∨ info.isPlayground = true → ∀ s, D s → P s) :
    Triple P ((BillingSession.fresh info f).preConsume B cfg quota) (Outcome Q P) E := by
  unfold BillingSession.preConsume
  rw [← hTrusted]
  dsimp only
  rw [← hEff]
  refine Triple.ite ?_ ?_
  · intro hPos
    refine (hToken hPos).attempt.bind ?_
    intro r
    cases r with
    | error text => exact Triple.pure fun s hs => hs
    | ok _ =>
      refine preConsumeFunding_triple (D := D) ?_ ?_ ?_
      · have hMax : max eff 0 = eff := max_eq_left (le_of_lt hPos)
        simp only [BillingSession.charged, hMax] at hFund
        exact hFund
      · exact fun h => hBack hPos h.2
      intro hNot
      refine hSkip (.inr ?_)
      by_contra hPlay
      exact hNot ⟨hPos, hPlay⟩
  · intro hNot
    have hLe : eff ≤ 0 := by omega
    refine Triple.imp ?_ (hNone hLe) (fun _ _ h => h) (fun _ _ h => h)
    refine preConsumeFunding_triple (D := D) ?_ ?_ ?_
    · have hMax : max eff 0 = 0 := max_eq_right hLe
      simp only [BillingSession.charged, hMax] at hFund
      exact hFund
    · exact fun h => absurd h.1 (by simp [BillingSession.fresh])
    · exact fun _ => hSkip (.inl hLe)

theorem tryWallet_triple {R : Int → σ → Prop}
    (hRead : Triple P (B.getUserQuota info.userId) R (fun _ => P)) (hKeep : ∀ q s, R q s → P s)
    (hPre : ∀ q, 0 < q → quota ≤ q →
      Triple (R q) ((BillingSession.fresh { info with userQuota := q }
        (.wallet ⟨info.userId, 0⟩)).preConsume B cfg quota) (Outcome Q P) E) :
    Triple P (tryWallet B cfg info quota) (WalletOutcome info Q P) E := by
  refine hRead.attempt.bind ?_
  intro r
  cases r with
  | error text => exact Triple.pure fun s hs => ⟨hs, info.userQuota, rfl⟩
  | ok q =>
    refine Triple.ite ?_ ?_
    · exact fun _ => Triple.pure fun s hs => ⟨hKeep q s hs, info.userQuota, rfl⟩
    intro hPos
    refine Triple.ite ?_ ?_
    · exact fun _ => Triple.pure fun s hs => ⟨hKeep q s hs, info.userQuota, rfl⟩
    intro hEnough
    refine (hPre q (by omega) (by omega)).bind ?_
    intro r'
    cases r' with
    | ok session => exact Triple.pure fun s hs => hs
    | error e => exact Triple.pure fun s hs => ⟨hs, q, rfl⟩

/-- Whatever was tried and given up leaves `P`, from which the fallback starts. -/
theorem newBillingSession_triple
    (hActive : Triple P (B.hasActiveUserSubscription info.userId) (fun _ => P) (fun _ => P))
    (hWallet : normalizeBillingPreference info.billingPreference ≠ .subscriptionOnly →
      Triple P (tryWallet B cfg info quota) (WalletOutcome info Q P) E)
    (hSub : ∀ q, Triple P (trySubscription B cfg { info with userQuota := q } quota)
      (Outcome Q P) E) :
    Triple P (newBillingSession B cfg info quota) (Outcome Q P) E := by
  have hOnly : normalizeBillingPreference info.billingPreference ≠ .subscriptionOnly →
      Triple P (newBillingSession.onlyWallet B cfg info quota) (Outcome Q P) E := by
    intro hPref
    refine (hWallet hPref).bind ?_
    intro r
    cases r with
    | ok session => exact Triple.pure fun s hs => hs
    | error e => exact Triple.pure fun s hs => hs.1
  unfold newBillingSession
  cases hPref : normalizeBillingPreference info.billingPreference with
  | subscriptionOnly => exact hSub info.userQuota
  | walletOnly => exact hOnly (by simp [hPref])
  | walletFirst =>
    refine (hWallet (by simp [hPref])).bind ?_
    intro r
    cases r with
    | ok session => exact Triple.pure fun s hs => hs
    | error e =>
      refine Triple.ite ?_ ?_
      · intro _ s hs
        obtain ⟨hP, q, hInfo⟩ := hs
        rw [hInfo]
        exact hSub q s hP
      · exact fun _ => Triple.pure fun s hs => hs.1
  | subscriptionFirst =>
    refine hActive.attempt.bind ?_
    intro r
    cases r with
    | error text => exact Triple.pure fun s hs => hs
    | ok active =>
      cases active with
      | false => exact hOnly (by simp [hPref])
      | true =>
        refine (hSub info.userQuota).bind ?_
        intro r'
        cases r' with
        | ok session => exact Triple.pure fun s hs => hs
        | error e =>
          refine Triple.ite ?_ ?_
          · exact fun _ => hOnly (by simp [hPref])
          · exact fun _ => Triple.pure fun s hs => hs

end Rules

end NewApi.Billing
