import NewApi.Billing.Accounted

/-!
# `Settle` and `Refund` in any order

`Refund` marks the session under its lock; a goroutine gives the money back later.
`settle_or_giveBack` says when at most one of the two moves money.
-/

namespace NewApi.Billing

open Core Prog

/-- A session with the goroutines of `Refund` that have not run yet. -/
structure Finalizing (σ : Type) where
  store : σ
  session : BillingSession
  pending : List BillingSession

inductive FinalStep where
  | settle (actualQuota : Int)
  | refund
  | giveBack (i : Nat)

variable {σ : Type} (B : BillingStore σ)

def Finalizing.run (st : Finalizing σ) : FinalStep → Finalizing σ
  | .settle actual =>
    match st.session.settle B actual st.store with
    | (.ok (_, session), store) => { st with store, session }
    | (.error _, store) => { st with store }
  | .refund =>
    let s := st.session
    if s.settled ∨ s.refunded ∨ ¬s.needsRefund then st
    else { st with session := { s with refunded := true }, pending := st.pending ++ [s] }
  | .giveBack i =>
    match st.pending[i]? with
    | none => st
    | some s => { st with store := (s.giveBack B st.store).2, pending := st.pending.eraseIdx i }

def TakesEffect (step : FinalStep) : Finalizing σ → List FinalStep → Prop
  | _, [] => False
  | st, first :: steps =>
    (first = step ∧ (st.run B first).store ≠ st.store) ∨ TakesEffect step (st.run B first) steps

/-- Once `Refund` has been called, `Settle` only asks for what was reserved. -/
def SettlesReserved : Finalizing σ → List FinalStep → Prop
  | _, [] => True
  | st, first :: steps =>
    (∀ actual, first = .settle actual → st.session.refunded →
      actual = st.session.preConsumedQuota) ∧ SettlesReserved (st.run B first) steps

structure BillingStore.Succeeds : Prop where
  decreaseUser : ∀ id n t, (B.decreaseUserQuota id n t).1 = .ok ()
  increaseUser : ∀ id n t, (B.increaseUserQuota id n t).1 = .ok ()
  decreaseToken : ∀ id key n t, (B.decreaseTokenQuota id key n t).1 = .ok ()
  increaseToken : ∀ id key n t, (B.increaseTokenQuota id key n t).1 = .ok ()
  postConsume : ∀ id n t, (B.postConsumeUserSubscriptionDelta id n t).1 = .ok ()

variable {B}

theorem attempt_of_fst {p : Prog σ Unit} {t : σ} (h : (p t).1 = .ok ()) :
    attempt p t = (.ok (.ok ()), (p t).2) := attempt_ok (Prod.ext h rfl)

section

variable (hB : B.Succeeds)
include hB

theorem settleToken_run (s : BillingSession) (delta : Int) (t : σ) :
    ∃ t', s.settleToken B delta t = (.ok (none, s.markSettled delta), t') := by
  unfold BillingSession.settleToken
  split
  · exact ⟨t, rfl⟩
  · refine ⟨_, bind_ok (attempt_of_fst ?_)⟩
    split
    · exact hB.decreaseToken _ _ _ _
    · exact hB.increaseToken _ _ _ _

theorem run_settle (st : Finalizing σ) (actual : Int) :
    ∃ s' t', st.run B (.settle actual) = ⟨t', s', st.pending⟩ ∧ s'.settled = true ∧
      s'.refunded = st.session.refunded ∧
      (actual = st.session.preConsumedQuota → t' = st.store) := by
  obtain ⟨t, s, pending⟩ := st
  suffices h : ∃ s' t', s.settle B actual t = (.ok (none, s'), t') ∧ s'.settled = true ∧
      s'.refunded = s.refunded ∧ (actual = s.preConsumedQuota → t' = t) by
    obtain ⟨s', t', hRun, h⟩ := h
    exact ⟨s', t', by rw [Finalizing.run, hRun], h⟩
  unfold BillingSession.settle
  split_ifs with hSettled hZero hFunding
  · exact ⟨s, t, rfl, hSettled, rfl, fun _ => rfl⟩
  · exact ⟨_, t, rfl, rfl, rfl, fun _ => rfl⟩
  · obtain ⟨t', ht⟩ := settleToken_run hB s (actual - s.preConsumedQuota) t
    exact ⟨_, t', ht, rfl, rfl, fun h => absurd h (by omega)⟩
  · have hSettle : (s.funding.settle B (actual - s.preConsumedQuota) t).1 = .ok () := by
      cases s.funding with simp only [Funding.settle, if_neg hZero]
      | wallet w =>
        split
        · exact hB.decreaseUser _ _ _
        · exact hB.increaseUser _ _ _
      | subscription f => exact hB.postConsume _ _ _
    obtain ⟨t', ht⟩ := settleToken_run hB s (actual - s.preConsumedQuota)
      (s.funding.settle B (actual - s.preConsumedQuota) t).2
    exact ⟨_, t', (bind_ok (attempt_of_fst hSettle)).trans ht, rfl, rfl,
      fun h => absurd h (by omega)⟩

/-- The flags decide: a refunded session settles without effect, a settled one has no goroutine. -/
theorem effects_of_flags (st : Finalizing σ) (steps : List FinalStep)
    (hDue : SettlesReserved B st steps) :
    (st.session.refunded = true → ∀ actual, ¬TakesEffect B (.settle actual) st steps) ∧
      (st.session.settled = true → st.pending = [] →
        ∀ i, ¬TakesEffect B (.giveBack i) st steps) := by
  induction steps generalizing st with
  | nil => exact ⟨fun _ _ => id, fun _ _ _ => id⟩
  | cons step steps ih =>
    have hRest := ih _ hDue.2
    by_cases hRun : st.run B step = st
    · rw [hRun] at hRest
      simpa [TakesEffect, hRun] using hRest
    cases step with
    | settle q =>
      obtain ⟨s', t', hRun, hDone, hKeep, hSame⟩ := run_settle hB st q
      rw [hRun] at hRest
      refine ⟨fun hRef actual => ?_, fun _ hNone i => ?_⟩ <;> simp only [TakesEffect, hRun]
      · have hStore := hSame (hDue.1 q rfl hRef)
        simpa [hStore] using hRest.1 (hKeep.trans hRef) actual
      · simpa using hRest.2 hDone hNone i
    | refund =>
      refine ⟨fun hRef => absurd ?_ hRun, fun hDone => absurd ?_ hRun⟩
      · simp [Finalizing.run, hRef]
      · simp [Finalizing.run, hDone]
    | giveBack j =>
      refine ⟨fun hRef actual => ?_, fun _ hNone => absurd (by simp [Finalizing.run, hNone]) hRun⟩
      have hFlag : (st.run B (.giveBack j)).session.refunded = true := by
        simp only [Finalizing.run]
        split <;> exact hRef
      simpa [TakesEffect] using hRest.1 hFlag actual

/-- **At most one of the two moves money**, whatever the order, if a `Settle` after `Refund` asks
for what was reserved. -/
theorem settle_or_giveBack (st : Finalizing σ) (hNone : st.pending = [])
    (steps : List FinalStep) (hDue : SettlesReserved B st steps) :
    (∀ actual, ¬TakesEffect B (.settle actual) st steps) ∨
      ∀ i, ¬TakesEffect B (.giveBack i) st steps := by
  induction steps with
  | nil => exact .inl fun _ => id
  | cons step steps ih =>
    have hRest := hDue.2
    by_cases hRun : st.run B step = st
    · rw [hRun] at hRest
      simpa [TakesEffect, hRun] using ih hRest
    have hFlags := effects_of_flags hB _ _ hRest
    cases step with
    | settle q =>
      obtain ⟨s', t', hRun, hDone, -, -⟩ := run_settle hB st q
      rw [hRun] at hFlags
      exact .inr fun i => by simpa [TakesEffect, hRun] using hFlags.2 hDone hNone i
    | refund =>
      have hRef : (st.run B .refund).session.refunded = true := by
        simp only [Finalizing.run] at hRun ⊢
        split_ifs at hRun ⊢
        · exact absurd rfl hRun
        · rfl
      exact .inl fun actual => by simpa [TakesEffect] using hFlags.1 hRef actual
    | giveBack i => exact absurd (by simp [Finalizing.run, hNone]) hRun

end

theorem shop100_succeeds : shop100.Succeeds := by
  constructor <;> intros <;> rfl

def reserved5 : Finalizing Ledger :=
  ⟨nothingTaken, { BillingSession.fresh walletRequest (.wallet ⟨1, 5⟩) with
    preConsumedQuota := 5, tokenConsumed := 5 }, []⟩

theorem settle_or_giveBack_five :
    (∀ actual, ¬TakesEffect shop100 (.settle actual) reserved5 [.refund, .settle 5]) ∨
      ∀ i, ¬TakesEffect shop100 (.giveBack i) reserved5 [.refund, .settle 5] := by
  refine settle_or_giveBack shop100_succeeds reserved5 rfl _ ⟨nofun, ?_, trivial⟩
  rintro actual ⟨⟩ -
  rfl

/-- **A `Settle` at 10 after the refund takes money again.** -/
theorem settle_after_refund :
    TakesEffect shop100 (.giveBack 0) reserved5 [.refund, .giveBack 0, .settle 10] ∧
      TakesEffect shop100 (.settle 10) reserved5 [.refund, .giveBack 0, .settle 10] := by
  refine ⟨.inr (.inl ⟨rfl, fun h => ?_⟩), .inr (.inr (.inl ⟨rfl, fun h => ?_⟩))⟩ <;>
    exact absurd (congrArg (·.wallet 1) h) (by decide)

end NewApi.Billing
