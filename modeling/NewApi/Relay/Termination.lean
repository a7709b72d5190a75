import NewApi.Relay.Seats

/-!
# Whether the retry loop ends

A channel error makes the loop go on without counting anything, and a channel all of whose keys are
disabled is such an error every time.  A request that crosses groups always ends.
-/

namespace NewApi.Relay

open Core Go Channels List

def Terminates (cfg : Settings) (req : Request) (channelId : Int) (turns : Nat → Turn) (s : Loop) :
    Prop :=
  ∃ i, (run cfg req channelId turns s i).finished = true

def alone (outcomes : Nat → Outcome) : Nat → Turn := fun i => ⟨[], id, outcomes i⟩

variable {cfg : Settings} {req : Request} {channelId : Int} {turns : Nat → Turn} {shared : Shared}
  {autoGroupIndex : Option Nat}

theorem iterate_selects {s : Loop} {outcome : Outcome} (hMeta : s.channelMeta = true)
    (hGoes : (iterate cfg req channelId outcome s).finished = false) :
    (iterate cfg req channelId outcome s).channelMeta = true ∧
      ∃ group param', retryGroup cfg req (s.param.autoGroupIndex.getD 0) = some group ∧
        Moves cfg req (s.param.autoGroupIndex.getD 0) group s.param param' ∧
        (iterate cfg req channelId outcome s).param = param'.increaseRetry := by
  obtain ⟨-, hParam, hSet⟩ := iterate_goes hGoes
  refine ⟨hSet fun hUnset => absurd (hMeta.symm.trans hUnset) (by simp), ?_⟩
  cases hGroup : retryGroup cfg req (s.param.autoGroupIndex.getD 0) with
  | some group =>
    obtain ⟨-, -, hMoves, -⟩ := offer_turn channelId hMeta hGroup
    exact ⟨group, _, rfl, hMoves, hParam⟩
  | none =>
    have hStep := congrArg Visit.stopped (iterate_toVisit cfg req channelId outcome s)
    rw [offer_stop hMeta hGroup] at hStep
    change (iterate cfg req channelId outcome s).finished = _ at hStep
    rw [hGoes] at hStep
    unfold Visit.step at hStep
    split at hStep
    · rename_i hStopped
      exact absurd (hStep.trans hStopped) Bool.false_ne_true
    · exact absurd hStep Bool.false_ne_true

theorem run_selects {s : Loop} {i : Nat}
    (hMeta : (run cfg req channelId turns s i).channelMeta = true)
    (hGoes : (run cfg req channelId turns s (i + 1)).finished = false) :
    (run cfg req channelId turns s (i + 1)).channelMeta = true ∧
      ∃ group param',
        retryGroup cfg req ((run cfg req channelId turns s i).param.autoGroupIndex.getD 0) =
          some group ∧
        Moves cfg req ((run cfg req channelId turns s i).param.autoGroupIndex.getD 0) group
          (run cfg req channelId turns s i).param param' ∧
        (run cfg req channelId turns s (i + 1)).param = param'.increaseRetry :=
  iterate_selects (s := (turns i).interfere cfg.store (run cfg req channelId turns s i)) hMeta hGoes

theorem run_one (hGoes :
      (run cfg req channelId turns (.start shared autoGroupIndex) 1).finished = false) :
    (run cfg req channelId turns (.start shared autoGroupIndex) 1).channelMeta = true ∧
      (run cfg req channelId turns (.start shared autoGroupIndex) 1).param =
        { retry := 1, autoGroupIndex := autoGroupIndex } := by
  obtain ⟨-, hParam, hSet⟩ := iterate_goes hGoes
  exact ⟨hSet fun _ => rfl, hParam⟩

theorem terminates_of_no_group (h : retryGroup cfg req (autoGroupIndex.getD 0) = none) :
    Terminates cfg req channelId turns (.start shared autoGroupIndex) := by
  by_contra hNever
  have hGoes : ∀ i,
      (run cfg req channelId turns (.start shared autoGroupIndex) i).finished = false := by
    simpa [Terminates] using hNever
  obtain ⟨hMeta, hParam⟩ := run_one (hGoes 1)
  obtain ⟨-, group, -, hGroup, -⟩ := run_selects hMeta (hGoes 2)
  rw [hParam, h] at hGroup
  cases hGroup

/-! ## Crossing -/

def crossRank (cfg : Settings) (req : Request) (param : RetryParam) : Nat :=
  ((getUserAutoGroup cfg req).length - param.autoGroupIndex.getD 0) * (cfg.retryTimes.toNat + 2) +
    (cfg.retryTimes.toNat + 1 - param.retry)

theorem crossRank_lt {cfg : Settings} {req : Request} {param param' : RetryParam}
    (hLess : param.autoGroupIndex.getD 0 < (getUserAutoGroup cfg req).length)
    (hNext : param.autoGroupIndex.getD 0 + 1 ≤ param'.autoGroupIndex.getD 0) :
    crossRank cfg req param' < crossRank cfg req param := by
  have hFewer := Nat.mul_le_mul_right (cfg.retryTimes.toNat + 2)
    (show (getUserAutoGroup cfg req).length - param'.autoGroupIndex.getD 0 + 1 ≤
      (getUserAutoGroup cfg req).length - param.autoGroupIndex.getD 0 by omega)
  rw [Nat.succ_mul] at hFewer
  unfold crossRank
  omega

theorem Moves.crossRank_lt {group : String} {param param' : RetryParam} (hCross : Crosses req)
    (hReset : param.resetNextTry = false)
    (h : Moves cfg req (param.autoGroupIndex.getD 0) group param param') :
    crossRank cfg req param'.increaseRetry < crossRank cfg req param ∧
      param'.increaseRetry.resetNextTry = false := by
  unfold Moves at h
  rw [if_pos hCross.1] at h
  obtain ⟨j, hj, hFind, rfl⟩ := h
  have hIn : j < (getUserAutoGroup cfg req).length := by
    by_contra hOut
    rw [drop_eq_nil_of_le (by omega)] at hFind
    cases hFind
  generalize hRetry : (if param.autoGroupIndex.getD 0 < j then 0 else param.retry) = retry
  split
  · refine ⟨Relay.crossRank_lt (by omega) ?_, rfl⟩
    exact Nat.succ_le_succ hj
  · next hUp =>
    have hFew : ¬ (retry : Int) ≥ cfg.retryTimes := fun hMany => hUp ⟨hCross.2, hMany⟩
    have hIncrease : RetryParam.increaseRetry ⟨retry, param.resetNextTry, some j⟩ =
        ⟨retry + 1, false, some j⟩ := by
      rw [hReset]
      rfl
    rw [hIncrease]
    refine ⟨?_, rfl⟩
    rcases Nat.lt_or_ge (param.autoGroupIndex.getD 0) j with hLater | hSame
    · exact Relay.crossRank_lt (by omega) hLater
    rw [if_neg (by omega)] at hRetry
    have hEq : param.autoGroupIndex.getD 0 = j := by omega
    simp only [crossRank, hEq, Option.getD_some]
    omega

theorem terminates_of_crosses (hCross : Crosses req) :
    Terminates cfg req channelId turns (.start shared autoGroupIndex) := by
  by_contra hNever
  set s := run cfg req channelId turns (.start shared autoGroupIndex) with hs
  have hGoes : ∀ i, (s i).finished = false := by
    simpa [Terminates, hs] using hNever
  -- from the first selection on, the rank falls with every iteration
  have hFalls : ∀ i, (s (i + 1)).channelMeta = true ∧ (s (i + 1)).param.resetNextTry = false ∧
      crossRank cfg req (s (i + 1)).param + i ≤ crossRank cfg req (s 1).param := by
    intro i
    induction i with
    | zero =>
      obtain ⟨hMeta, hParam⟩ := run_one (hGoes 1)
      exact ⟨hMeta, by rw [hs, hParam], le_rfl⟩
    | succ i ih =>
      obtain ⟨hMeta, hReset, hRank⟩ := ih
      obtain ⟨hMetaNext, group, param', -, hMoves, hParam⟩ := run_selects hMeta (hGoes (i + 2))
      obtain ⟨hLess, hResetNext⟩ := hMoves.crossRank_lt hCross hReset
      rw [← hs] at hParam
      rw [hParam]
      exact ⟨hMetaNext, hResetNext, by omega⟩
  have hEnd := (hFalls (crossRank cfg req (s 1).param + 1)).2.2
  omega

/-! ## Staying -/

variable {group : String} {start : Nat}

def firstPlace (cfg : Settings) (req : Request) (shared : Shared) (group : String) : Nat :=
  place (cfg.store.candidates group req.modelName).length (shared.polling group req.modelName)

theorem firstPlace_lt (shared : Shared)
    (hGroup : retryGroup cfg req (autoGroupIndex.getD 0) = some group) :
    firstPlace cfg req shared group < (cfg.store.candidates group req.modelName).length :=
  place_lt (length_pos_iff.mpr (retryGroup_ne_nil hGroup)) _

theorem steady_start (shared : Shared)
    (hGroup : retryGroup cfg req (autoGroupIndex.getD 0) = some group) (turns : Nat → Turn) :
    Steady cfg req group (firstPlace cfg req shared group) turns 0
      (.start shared autoGroupIndex) :=
  ⟨rfl, fun _ => rfl, hGroup, (Nat.mod_eq_of_lt (firstPlace_lt shared hGroup)).symm⟩

theorem seatOffer_succ (channelId : Int) (start : Nat) (turns : Nat → Turn)
    (hSome : cfg.store.candidates group req.modelName ≠ []) (i : Nat) :
    ∃ ch, (cfg.store.candidates group req.modelName)[seat
        (cfg.store.candidates group req.modelName).length start
        (selectionsOf group req.modelName turns) (i + 1)]? = some ch ∧
      seatOffer cfg req group channelId start turns (i + 1) =
        if ch.HasKey cfg.unmarshal then .give ch.id ((turns (i + 1)).outcome.again req)
        else .skip := by
  have hSeat : seat (cfg.store.candidates group req.modelName).length start
      (selectionsOf group req.modelName turns) (i + 1) <
        (cfg.store.candidates group req.modelName).length :=
    Nat.mod_lt _ (length_pos_iff.mpr hSome)
  refine ⟨_, getElem?_eq_getElem hSeat, ?_⟩
  rw [seatOffer, if_neg (Nat.succ_ne_zero i), getElem?_eq_getElem hSeat]

theorem seatOffer_mem (hSome : cfg.store.candidates group req.modelName ≠ []) {i : Nat} {b : Int}
    {again : Bool} (h : seatOffer cfg req group channelId start turns i = .give b again) :
    b ∈ channelId :: (cfg.store.candidates group req.modelName).map Channel.id := by
  cases i with
  | zero =>
    cases h
    exact mem_cons_self
  | succ i =>
    obtain ⟨ch, hSeat, hOffer⟩ := seatOffer_succ channelId start turns hSome i
    rw [hOffer] at h
    split at h <;> cases h
    · exact mem_cons_of_mem _ (mem_map_of_mem (mem_of_getElem? hSeat))

theorem seat_alone (n start i : Nat) (outcomes : Nat → Outcome) :
    seat n start (selectionsOf group req.modelName (alone outcomes)) (i + 1) = (start + i) % n := by
  have hNone : ∀ j, selectionsOf group req.modelName (alone outcomes) j = 0 := fun _ => rfl
  simp [seat, hNone]

def stealing (n start q : Nat) : Nat → Nat
  | 0 => 0
  | 1 => n + q - start
  | _ + 2 => n - 1

theorem seat_stealing {n start q : Nat} (hStart : start < n) (hq : q < n) (i : Nat) :
    seat n start (stealing n start q) (i + 1) = q := by
  have hSum : start + ∑ j ∈ Finset.range (i + 2), stealing n start q j + i = q + (i + 1) * n := by
    induction i with
    | zero =>
      simp only [Finset.sum_range_succ, Finset.sum_range_zero, stealing]
      omega
    | succ i ih =>
      rw [Finset.sum_range_succ, Nat.succ_mul]
      simp only [stealing] at ih ⊢
      omega
  rw [seat, Nat.add_sub_cancel, hSum, Nat.add_mul_mod_self_right, Nat.mod_eq_of_lt hq]

def thieves (group model : String) (others : Nat → Nat) : Nat → Turn := fun i =>
  ⟨List.replicate (others i) ⟨group, model, 0⟩, id, .failed (noAvailableKey "")⟩

theorem selectionsOf_thieves (group model : String) (others : Nat → Nat) :
    selectionsOf group model (thieves group model others) = others := by
  funext i
  have hOn : (⟨group, model, 0⟩ : Selection).On group model := ⟨rfl, rfl⟩
  simp [selectionsOf, thieves, countP_replicate, hOn]

section Stays

variable (hStay : ¬ Crosses req)
  (hGroup : retryGroup cfg req (autoGroupIndex.getD 0) = some group)
include hStay hGroup

theorem terminates_iff_visit :
    Terminates cfg req channelId turns (.start shared autoGroupIndex) ↔
      ∃ i, ((Visit.mk [] 0 false).run 3 (seatOffer cfg req group channelId
        (firstPlace cfg req shared group) turns) i).stopped = true := by
  refine exists_congr fun i => ?_
  have hVisit := (run_toVisit channelId hStay (steady_start shared hGroup turns) i).1
  change (run cfg req channelId turns (.start shared autoGroupIndex) i).toVisit.stopped = true ↔ _
  rw [hVisit]
  rfl

theorem terminates_of_recurring
    (hAgain : ∀ i, ∃ j, i ≤ j ∧ seatOffer cfg req group channelId
      (firstPlace cfg req shared group) turns j ≠ .skip) :
    Terminates cfg req channelId turns (.start shared autoGroupIndex) :=
  (terminates_iff_visit hStay hGroup).mpr (Visit.exists_stopped
    (fun _ _ _ h => seatOffer_mem (retryGroup_ne_nil hGroup) h) hAgain _)

theorem not_terminates (hFirst : (turns 0).outcome.again req = true)
    (hSkip : ∀ i, seatOffer cfg req group channelId (firstPlace cfg req shared group) turns
      (i + 1) = .skip) :
    ¬ Terminates cfg req channelId turns (.start shared autoGroupIndex) := by
  rw [terminates_iff_visit hStay hGroup]
  rintro ⟨i, hStopped⟩
  have hOne : ((Visit.mk [] 0 false).run 3 (seatOffer cfg req group channelId
      (firstPlace cfg req shared group) turns) 1).stopped = false := by
    simp [Visit.run, Visit.step, seatOffer, hFirst]
  have hNever := Visit.not_stopped hOne (fun j hj => by
    obtain ⟨k, rfl⟩ := Nat.exists_eq_succ_of_ne_zero (by omega : j ≠ 0)
    exact hSkip k)
  have hLater := Visit.run_of_stopped hStopped 1
  rw [Nat.add_comm] at hLater
  rw [← hLater] at hStopped
  exact absurd ((hNever i).symm.trans hStopped) Bool.false_ne_true

theorem terminates_alone_iff (outcomes : Nat → Outcome) :
    Terminates cfg req channelId (alone outcomes) (.start shared autoGroupIndex) ↔
      (outcomes 0).again req = false ∨
        ∃ ch ∈ cfg.store.candidates group req.modelName, ch.HasKey cfg.unmarshal := by
  have hSome := retryGroup_ne_nil hGroup
  constructor
  · intro hEnds
    by_contra hNone
    push Not at hNone
    obtain ⟨hFirst, hKeys⟩ := hNone
    have hAgain : (outcomes 0).again req = true := by simpa using hFirst
    refine not_terminates hStay hGroup hAgain (fun i => ?_) hEnds
    obtain ⟨ch, hSeat, hOffer⟩ := seatOffer_succ channelId (firstPlace cfg req shared group)
      (alone outcomes) hSome i
    rw [hOffer, if_neg (hKeys ch (mem_of_getElem? hSeat))]
  · rintro (hFinal | ⟨ch, hMem, hKey⟩)
    · refine (terminates_iff_visit hStay hGroup).mpr ⟨1, ?_⟩
      have hOffer : seatOffer cfg req group channelId (firstPlace cfg req shared group)
          (alone outcomes) 0 = .give channelId false := congrArg (Offer.give channelId) hFinal
      simp [Visit.run, Visit.step, hOffer]
    refine terminates_of_recurring hStay hGroup fun i => ?_
    obtain ⟨q, hq, hAt⟩ := mem_iff_getElem.mp hMem
    obtain ⟨t, -, hPlace⟩ := exists_place (w := firstPlace cfg req shared group + i) hq
    refine ⟨i + t + 1, by omega, ?_⟩
    obtain ⟨x, hSeat, hOffer⟩ := seatOffer_succ channelId (firstPlace cfg req shared group)
      (alone outcomes) hSome (i + t)
    rw [seat_alone, ← Nat.add_assoc, hPlace, getElem?_eq_getElem hq, hAt, Option.some_inj] at hSeat
    rw [hOffer, ← hSeat, if_pos hKey]
    intro hSkip
    cases hSkip

/-- **One channel without keys is enough**: others can always leave its turn to the request. -/
theorem not_terminates_thieves (channelId : Int) (shared : Shared)
    (hRetry : req.affinitySkipRetry = false) {ch : Channel}
    (hMem : ch ∈ cfg.store.candidates group req.modelName) (hKey : ¬ ch.HasKey cfg.unmarshal) :
    ∃ turns, ¬ Terminates cfg req channelId turns (.start shared autoGroupIndex) := by
  have hSome := retryGroup_ne_nil hGroup
  obtain ⟨q, hq, hAt⟩ := mem_iff_getElem.mp hMem
  refine ⟨thieves group req.modelName (stealing (cfg.store.candidates group req.modelName).length
    (firstPlace cfg req shared group) q), not_terminates hStay hGroup ?_ fun i => ?_⟩
  · show shouldRetry req (noAvailableKey "") 0 = true
    simp [shouldRetry, hRetry, isChannelError_noAvailableKey]
  obtain ⟨x, hSeat, hOffer⟩ := seatOffer_succ channelId (firstPlace cfg req shared group)
    (thieves group req.modelName (stealing (cfg.store.candidates group req.modelName).length
      (firstPlace cfg req shared group) q)) hSome i
  rw [selectionsOf_thieves, seat_stealing (firstPlace_lt shared hGroup) hq, getElem?_eq_getElem hq,
    hAt, Option.some_inj] at hSeat
  rw [hOffer, ← hSeat, if_neg hKey]

theorem terminates_of_keys
    (hKeys : ∀ ch ∈ cfg.store.candidates group req.modelName, ch.HasKey cfg.unmarshal)
    (turns : Nat → Turn) :
    Terminates cfg req channelId turns (.start shared autoGroupIndex) := by
  refine terminates_of_recurring hStay hGroup fun i => ⟨i + 1, Nat.le_succ i, ?_⟩
  obtain ⟨ch, hSeat, hOffer⟩ := seatOffer_succ channelId (firstPlace cfg req shared group) turns
    (retryGroup_ne_nil hGroup) i
  rw [hOffer, if_pos (hKeys ch (mem_of_getElem? hSeat))]
  nofun

end Stays

theorem terminates_of_final (h : (turns 0).outcome.again req = false) :
    Terminates cfg req channelId turns (.start shared autoGroupIndex) := by
  refine ⟨1, ?_⟩
  have hVisit := congrArg Visit.stopped (iterate_toVisit cfg req channelId (turns 0).outcome
    ((turns 0).interfere cfg.store (.start shared autoGroupIndex)))
  refine hVisit.trans ?_
  have hOffer : offer cfg req channelId (turns 0).outcome
      ((turns 0).interfere cfg.store (.start shared autoGroupIndex)) = .give channelId false :=
    congrArg (Offer.give channelId) h
  rw [hOffer]
  rfl

/-- **The retry loop ends** exactly if every channel that it may select has a key; alone, exactly if
one has, or there is none, or the first attempt is final. -/
theorem retry_loop_terminates_iff (cfg : Settings) (req : Request) (channelId : Int)
    (shared : Shared) (autoGroupIndex : Option Nat) :
    ((∀ turns, Terminates cfg req channelId turns (.start shared autoGroupIndex)) ↔
        req.affinitySkipRetry = true ∨ Crosses req ∨
          ∀ ch ∈ retryCandidates cfg req (autoGroupIndex.getD 0), ch.HasKey cfg.unmarshal) ∧
      ∀ outcomes : Nat → Outcome,
        (Terminates cfg req channelId (alone outcomes) (.start shared autoGroupIndex) ↔
          (outcomes 0).again req = false ∨ Crosses req ∨
            retryCandidates cfg req (autoGroupIndex.getD 0) = [] ∨
            ∃ ch ∈ retryCandidates cfg req (autoGroupIndex.getD 0), ch.HasKey cfg.unmarshal) := by
  by_cases hCross : Crosses req
  · exact ⟨iff_of_true (fun _ => terminates_of_crosses hCross) (.inr (.inl hCross)),
      fun _ => iff_of_true (terminates_of_crosses hCross) (.inr (.inl hCross))⟩
  cases hGroup : retryGroup cfg req (autoGroupIndex.getD 0) with
  | none =>
    have hNil : retryCandidates cfg req (autoGroupIndex.getD 0) = [] := by
      rw [retryCandidates, hGroup]
    rw [hNil]
    have hEnds : ∀ turns, Terminates cfg req channelId turns (.start shared autoGroupIndex) :=
      fun _ => terminates_of_no_group hGroup
    exact ⟨iff_of_true hEnds (.inr (.inr (forall_mem_nil _))),
      fun _ => iff_of_true (hEnds _) (.inr (.inr (.inl rfl)))⟩
  | some group =>
    have hCandidates : retryCandidates cfg req (autoGroupIndex.getD 0) =
        cfg.store.candidates group req.modelName := by rw [retryCandidates, hGroup]
    rw [hCandidates]
    refine ⟨⟨fun hAll => ?_, ?_⟩, fun outcomes => ?_⟩
    · by_contra hNot
      push Not at hNot
      obtain ⟨hRetry, -, ch, hMem, hKey⟩ := hNot
      obtain ⟨turns, hNever⟩ := not_terminates_thieves hCross hGroup channelId shared
        (by simpa using hRetry) hMem hKey
      exact hNever (hAll turns)
    · rintro (hSkip | hYes | hKeys) turns
      · refine terminates_of_final ?_
        cases (turns 0).outcome with
        | bodyFailed | answered => rfl
        | failed e =>
          show shouldRetry req e 0 = false
          simp [shouldRetry, hSkip]
      · exact absurd hYes hCross
      · exact terminates_of_keys hCross hGroup hKeys turns
    · rw [terminates_alone_iff hCross hGroup]
      simp only [hCross, retryGroup_ne_nil hGroup, false_or]

def demoSettings (channels : List Channel) : Settings where
  store := demoStore channels
  unmarshal := fun _ => none
  autoGroups := []
  usableGroups := fun _ => ["default"]
  retryTimes := 3

def demoRequest : Request where
  tokenGroup := "default"
  userGroup := "default"
  modelName := "gpt-test"
  crossGroupRetry := false
  specificChannel := false
  affinitySkipRetry := false

def demoShared : Shared := ⟨fun _ _ => 0, fun _ => 0⟩

def keylessChannel (id : Int) : Channel :=
  { demoChannel id .enabled 0 with
    key := "key-1\nkey-2"
    channelInfo :=
      { isMultiKey := true
        multiKeySize := 2
        multiKeyStatusList := (Finmap.singleton 0 .autoDisabled).insert 1 .autoDisabled } }

def unauthorized : Outcome :=
  .failed { err := "invalid key", errorCode := "bad_response_status_code", statusCode := 401 }

/-- **The only channel has no keys left**: it is selected forever. -/
theorem keyless_channel_forever :
    ∃ s, distribute (demoSettings [keylessChannel 7]) demoRequest {} demoShared = some (7, s) ∧
      ∀ i, (run (demoSettings [keylessChannel 7]) demoRequest 7 (alone fun _ => unauthorized)
        s i).finished = false := by
  have hStay : ¬ Crosses demoRequest := fun h => Bool.false_ne_true h.2
  have hGroup : retryGroup (demoSettings [keylessChannel 7]) demoRequest 0 = some "default" := by
    decide
  have hAgain : unauthorized.again demoRequest = true := by decide
  refine ⟨_, rfl, fun i => ?_⟩
  by_contra hEnds
  have hEnds' := (terminates_alone_iff hStay hGroup fun _ => unauthorized).mp
    ⟨i, by simpa using hEnds⟩
  rcases hEnds' with hFinal | ⟨ch, hMem, hKey⟩
  · exact absurd (hAgain.symm.trans hFinal) (by simp)
  · obtain rfl : ch = keylessChannel 7 := mem_singleton.mp hMem
    exact absurd hKey (by decide)

end NewApi.Relay
