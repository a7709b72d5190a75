import NewApi.Relay.Retry
import Mathlib.Algebra.BigOperators.Group.Finset.Basic

/-!
# Whose turn it is in the loop

A request that stays in one group takes some of the turns of its round robin: the channel of the
`i`-th iteration depends on the place where the counter was and the number of selections by others
so far (`seat`).
-/

namespace NewApi.Relay

open Core Go Channels

/-! ## Turns of others -/

theorem place_afterOthers {store : Store} {group model : String}
    (hSome : store.candidates group model ≠ []) (others : List Selection) (polling : Polling) :
    place (store.candidates group model).length (afterOthers store polling others group model) =
      (place (store.candidates group model).length (polling group model) +
        others.countP fun q => q.On group model) % (store.candidates group model).length := by
  have hPos : 0 < (store.candidates group model).length := List.length_pos_iff.mpr hSome
  induction others generalizing polling with
  | nil => exact (Nat.mod_eq_of_lt (place_lt hPos _)).symm
  | cons q others ih =>
    have hSelects := store.getRandomSatisfiedChannel_selects polling q.group q.model q.retry
    refine (ih (store.getRandomSatisfiedChannel polling q.group q.model q.retry).2).trans ?_
    by_cases hOn : q.On group model
    · obtain ⟨rfl, rfl⟩ := id hOn
      obtain ⟨ch, -, hTurn⟩ := hSelects.turn hSome
      rw [List.countP_cons_of_pos (by simpa using hOn), hTurn.2, Nat.mod_add_mod]
      congr 1
      omega
    · rw [List.countP_cons_of_neg (by simpa using hOn),
        hSelects.others group model fun h => hOn ⟨h.1.symm, h.2.symm⟩]

/-! ## Seats -/

def selectionsOf (group model : String) (turns : Nat → Turn) (i : Nat) : Nat :=
  (turns i).others.countP fun q => q.On group model

/-- The place of the counter when the `i`-th iteration selects.  The `0`-th does not. -/
def seat (n start : Nat) (others : Nat → Nat) (i : Nat) : Nat :=
  (start + ∑ j ∈ Finset.range (i + 1), others j + (i - 1)) % n

/-- The state before the `i`-th iteration of a request that stays in `group`. -/
structure Steady (cfg : Settings) (req : Request) (group : String) (start : Nat)
    (turns : Nat → Turn) (i : Nat) (s : Loop) : Prop where
  channelMeta : s.channelMeta = decide (0 < i)
  first : i = 0 → s.useChannel = []
  stays : retryGroup cfg req (s.param.autoGroupIndex.getD 0) = some group
  placed : place (cfg.store.candidates group req.modelName).length
      (s.shared.polling group req.modelName) =
    (start + ∑ j ∈ Finset.range i, selectionsOf group req.modelName turns j + (i - 1)) %
      (cfg.store.candidates group req.modelName).length

/-- The offers of a run in which the request stays in `group`. -/
def seatOffer (cfg : Settings) (req : Request) (group : String) (channelId : Int) (start : Nat)
    (turns : Nat → Turn) (i : Nat) : Offer Int :=
  if i = 0 then .give channelId ((turns i).outcome.again req)
  else
    match (cfg.store.candidates group req.modelName)[seat
        (cfg.store.candidates group req.modelName).length start
        (selectionsOf group req.modelName turns) i]? with
    | none => .stop
    | some ch =>
      if ch.HasKey cfg.unmarshal then .give ch.id ((turns i).outcome.again req) else .skip

variable {cfg : Settings} {req : Request} {group : String} {start : Nat} {turns : Nat → Turn}
  {i : Nat} {s : Loop}

theorem increaseRetry_autoGroupIndex (param : RetryParam) :
    param.increaseRetry.autoGroupIndex = param.autoGroupIndex := by
  unfold RetryParam.increaseRetry
  split <;> rfl

theorem Moves.stays (hStay : ¬ Crosses req) {param param' : RetryParam}
    (h : Moves cfg req (param.autoGroupIndex.getD 0) group param param')
    (hGroup : retryGroup cfg req (param.autoGroupIndex.getD 0) = some group) :
    retryGroup cfg req (param'.autoGroupIndex.getD 0) = some group := by
  unfold Moves at h
  split at h
  · rename_i hAuto
    obtain ⟨j, -, hFind, rfl⟩ := h
    have hSame : ¬ req.crossGroupRetry = true := fun hCross => hStay ⟨hAuto, hCross⟩
    rw [if_neg fun hCross => hSame hCross.1]
    simp only [retryGroup, if_pos hAuto]
    exact hFind
  · rw [h]
    exact hGroup

theorem retryGroup_ne_nil {k : Nat} (h : retryGroup cfg req k = some group) :
    cfg.store.candidates group req.modelName ≠ [] := by
  unfold retryGroup at h
  split at h
  · exact candidates_ne_nil (List.find?_some h)
  · obtain ⟨hServed, hGroup⟩ := Option.ite_none_right_eq_some.mp h
    cases hGroup
    exact candidates_ne_nil hServed

theorem Steady.place_interfere (h : Steady cfg req group start turns i s) :
    place (cfg.store.candidates group req.modelName).length
        (((turns i).interfere cfg.store s).shared.polling group req.modelName) =
      seat (cfg.store.candidates group req.modelName).length start
        (selectionsOf group req.modelName turns) i := by
  have hOthers := place_afterOthers (retryGroup_ne_nil h.stays) (turns i).others s.shared.polling
  rw [h.placed, Nat.mod_add_mod] at hOthers
  refine hOthers.trans ?_
  change (_ + selectionsOf group req.modelName turns i) % _ = _
  rw [seat, Finset.sum_range_succ]
  congr 1
  omega

theorem Steady.step (channelId : Int) (hStay : ¬ Crosses req)
    (h : Steady cfg req group start turns i s) :
    offer cfg req channelId (turns i).outcome ((turns i).interfere cfg.store s) =
        seatOffer cfg req group channelId start turns i ∧
      ((iterate cfg req channelId (turns i).outcome
          ((turns i).interfere cfg.store s)).finished = false →
        Steady cfg req group start turns (i + 1)
          (iterate cfg req channelId (turns i).outcome ((turns i).interfere cfg.store s))) := by
  have hNow := h.place_interfere
  obtain ⟨hMeta, hFirst, hGroup, -⟩ := h
  generalize hs : (turns i).interfere cfg.store s = s' at *
  have hGroup' : retryGroup cfg req (s'.param.autoGroupIndex.getD 0) = some group := by
    rw [← hs]
    exact hGroup
  have hMeta' : s'.channelMeta = decide (0 < i) := by
    rw [← hs]
    exact hMeta
  have hFirst' : s'.channelMeta = false → s'.useChannel = [] := by
    intro hUnset
    rw [← hs]
    refine hFirst ?_
    rw [hMeta'] at hUnset
    have hZero : ¬ 0 < i := by simpa using hUnset
    omega
  rcases Nat.eq_zero_or_pos i with rfl | hi
  · -- the channel of the context
    have hContext : getChannel cfg req channelId s' = (.ok channelId, s') := by
      rw [getChannel, if_pos (by rw [hMeta']; rfl)]
    refine ⟨?_, fun hGoes => ?_⟩
    · rw [offer, hContext]
      rfl
    obtain ⟨hShared, hParam, hSet⟩ := iterate_goes hGoes
    rw [hContext] at hShared hParam
    refine ⟨hSet hFirst', fun hZero => absurd hZero (Nat.succ_ne_zero _), ?_, ?_⟩
    · rw [hParam, increaseRetry_autoGroupIndex]
      exact hGroup'
    · rw [hShared]
      exact hNow
  · have hMetaTrue : s'.channelMeta = true := by rw [hMeta', decide_eq_true hi]
    obtain ⟨ch, hTurn, hMoves, hOffer⟩ := offer_turn channelId hMetaTrue hGroup'
    rw [IsTurn, hNow] at hTurn
    refine ⟨?_, fun hGoes => ?_⟩
    · rw [seatOffer, if_neg (by omega), hTurn.1]
      simp only
      split
      · rename_i hKey
        exact (hOffer _).1 hKey
      · rename_i hKey
        exact (hOffer _).2 hKey
    · obtain ⟨hShared, hParam, hSet⟩ := iterate_goes hGoes
      refine ⟨hSet hFirst', fun hZero => absurd hZero (Nat.succ_ne_zero _), ?_, ?_⟩
      · rw [hParam, increaseRetry_autoGroupIndex]
        exact hMoves.stays hStay hGroup'
      · rw [hShared, hTurn.2, seat, Nat.mod_add_mod]
        congr 1
        omega

/-- **The loop is the search through the seats**, for every interleaving with other requests. -/
theorem run_toVisit (channelId : Int) (hStay : ¬ Crosses req)
    (h : Steady cfg req group start turns 0 s) (i : Nat) :
    (run cfg req channelId turns s i).toVisit =
        s.toVisit.run 3 (seatOffer cfg req group channelId start turns) i ∧
      ((run cfg req channelId turns s i).finished = false →
        Steady cfg req group start turns i (run cfg req channelId turns s i)) := by
  induction i with
  | zero => exact ⟨rfl, fun _ => h⟩
  | succ i ih =>
    obtain ⟨hVisit, hSteady⟩ := ih
    simp only [run, Visit.run]
    rw [iterate_toVisit, ← hVisit]
    generalize run cfg req channelId turns s i = t at *
    cases hDone : t.finished with
    | true =>
      refine ⟨?_, fun hGoes => ?_⟩
      · rw [Visit.step_of_stopped (v := t.toVisit) hDone]
        exact Visit.step_of_stopped hDone _
      · rw [iterate, if_pos (show ((turns i).interfere cfg.store t).finished = true from hDone)]
          at hGoes
        exact absurd (hDone.symm.trans hGoes) (by simp)
    | false =>
      obtain ⟨hOffer, hNext⟩ := (hSteady hDone).step channelId hStay
      exact ⟨by rw [hOffer]; rfl, hNext⟩

end NewApi.Relay
