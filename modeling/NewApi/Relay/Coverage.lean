import NewApi.Relay.Termination

/-!
# Which channels are attempted

A request whose attempts all fail goes on until it has drawn three channels in a row that it had
before.  Alone it has attempted every channel by then; other requests move the same counter.
-/

namespace NewApi.Relay

open Core Go Channels List

variable {cfg : Settings} {req : Request} {channelId : Int} {turns : Nat → Turn} {shared : Shared}

def drawn (cfg : Settings) (req : Request) (channelId : Int) (shared : Shared)
    (turns : Nat → Turn) (i : Nat) : Int :=
  if i = 0 then channelId
  else
    ((cfg.store.candidates req.tokenGroup req.modelName)[seat
      (cfg.store.candidates req.tokenGroup req.modelName).length
      (firstPlace cfg req shared req.tokenGroup)
      (selectionsOf req.tokenGroup req.modelName turns) i]?).elim channelId Channel.id

/-! ## The error that is returned -/

variable {s : Loop} {outcome : Outcome}

theorem iterate_newAPIError (hAgain : outcome.again req = true) (h : s.newAPIError.isSome = true) :
    (iterate cfg req channelId outcome s).newAPIError.isSome = true := by
  have hIterates := iterate_iterates cfg req channelId outcome s
  generalize iterate cfg req channelId outcome s = t at hIterates
  cases hIterates with
  | finished | channelError | giveUp | duplicate => exact h
  | noChannel | retry => rfl
  | last _ _ _ _ _ _ _ _ hLast => exact absurd (hAgain.symm.trans hLast) (by simp)

theorem iterate_start_newAPIError (hAgain : outcome.again req = true)
    (hMeta : s.channelMeta = false) (hFirst : s.useChannel = []) (hRunning : s.finished = false) :
    (iterate cfg req channelId outcome s).newAPIError.isSome = true := by
  have hIterates := iterate_iterates cfg req channelId outcome s
  generalize iterate cfg req channelId outcome s = t at hIterates
  cases hIterates with
  | finished hDone => exact absurd (hRunning.symm.trans hDone) (by simp)
  | noChannel | retry => rfl
  | channelError _ _ _ _ hGet =>
    rw [getChannel, if_pos (by rw [hMeta]; rfl)] at hGet
    cases hGet
  | giveUp _ _ _ _ _ hOld | duplicate _ _ _ _ _ hOld =>
    rw [hFirst] at hOld
    exact absurd hOld not_mem_nil
  | last _ _ _ _ _ _ _ _ hLast => exact absurd (hAgain.symm.trans hLast) (by simp)

theorem run_newAPIError {autoGroupIndex : Option Nat}
    (hAgain : ∀ i, (turns i).outcome.again req = true) (i : Nat) :
    (run cfg req channelId turns (.start shared autoGroupIndex)
      (i + 1)).newAPIError.isSome = true := by
  induction i with
  | zero => exact iterate_start_newAPIError (hAgain 0) rfl rfl rfl
  | succ i ih => exact iterate_newAPIError (hAgain (i + 1)) ih

theorem iterate_nodup (h : s.useChannel.Nodup) :
    (iterate cfg req channelId outcome s).useChannel.Nodup := by
  have hStep : (s.toVisit.step 3 (offer cfg req channelId outcome s)).visited.Nodup :=
    Visit.nodup_step h _
  rw [← iterate_toVisit] at hStep
  exact hStep

theorem run_nodup (i : Nat) :
    (run cfg req channelId turns (.start shared none) i).useChannel.Nodup := by
  induction i with
  | zero => exact nodup_nil
  | succ i ih => exact iterate_nodup ih

/-! ## Which interleavings are harmless -/

theorem seatOffer_eq_drawn (channelId : Int) (shared : Shared)
    (hSome : cfg.store.candidates req.tokenGroup req.modelName ≠ [])
    (hKeys : ∀ ch ∈ cfg.store.candidates req.tokenGroup req.modelName, ch.HasKey cfg.unmarshal)
    (hAgain : ∀ i, (turns i).outcome.again req = true) :
    seatOffer cfg req req.tokenGroup channelId (firstPlace cfg req shared req.tokenGroup) turns =
      fun i => .give (drawn cfg req channelId shared turns i) true := by
  funext i
  cases i with
  | zero => exact congrArg (Offer.give channelId) (hAgain 0)
  | succ i =>
    obtain ⟨ch, hSeat, hOffer⟩ := seatOffer_succ channelId
      (firstPlace cfg req shared req.tokenGroup) turns hSome i
    rw [hOffer, if_pos (hKeys ch (mem_of_getElem? hSeat)), hAgain, drawn,
      if_neg (Nat.succ_ne_zero i), hSeat]
    rfl

theorem run_toVisit_drawn (hGroup : req.tokenGroup ≠ "auto")
    (hSome : cfg.store.candidates req.tokenGroup req.modelName ≠ [])
    (hOffers : seatOffer cfg req req.tokenGroup channelId
      (firstPlace cfg req shared req.tokenGroup) turns =
        fun i => .give (drawn cfg req channelId shared turns i) true) (i : Nat) :
    (run cfg req channelId turns (.start shared none) i).toVisit =
      (Visit.mk [] 0 false).run 3
        (fun i => .give (drawn cfg req channelId shared turns i) true) i := by
  have hServes : retryGroup cfg req ((none : Option Nat).getD 0) = some req.tokenGroup := by
    simp [retryGroup, hGroup, served, hSome]
  rw [← hOffers]
  exact (run_toVisit channelId (fun h => hGroup h.1) (steady_start shared hServes turns) i).1

/-- **Every enabled channel is attempted once, exactly if** no three channels in a row are drawn
again before all were. -/
theorem attempts_all_iff (hGroup : req.tokenGroup ≠ "auto")
    (hKeys : ∀ ch, cfg.store.Enabled req.tokenGroup req.modelName ch → ch.HasKey cfg.unmarshal)
    (hAgain : ∀ i, (turns i).outcome.again req = true) :
    (∃ i, (run cfg req channelId turns (.start shared none) i).finished = true ∧
        (run cfg req channelId turns (.start shared none) i).newAPIError.isSome = true ∧
        ∀ ch, cfg.store.Enabled req.tokenGroup req.modelName ch →
          (run cfg req channelId turns (.start shared none) i).useChannel.count ch.id = 1) ↔
      ∀ i, (∀ j < 3, ∃ k < i, drawn cfg req channelId shared turns k =
          drawn cfg req channelId shared turns (i + j)) →
        ∀ ch, cfg.store.Enabled req.tokenGroup req.modelName ch →
          ∃ k < i, drawn cfg req channelId shared turns k = ch.id := by
  have hReturns : ∀ i, (run cfg req channelId turns (.start shared none) i).finished = true →
      (run cfg req channelId turns (.start shared none) i).newAPIError.isSome = true := by
    intro i hDone
    cases i with
    | zero => cases hDone
    | succ i => exact run_newAPIError hAgain i
  by_cases hSome : cfg.store.candidates req.tokenGroup req.modelName = []
  · -- nothing to attempt
    have hNone : ∀ ch, ¬ cfg.store.Enabled req.tokenGroup req.modelName ch := by
      intro ch hEnabled
      have hMem := Store.mem_candidates.mpr hEnabled
      rw [hSome] at hMem
      exact absurd hMem not_mem_nil
    have hNoGroup : retryGroup cfg req 0 = none := by
      simp [retryGroup, hGroup, served, hSome]
    have hEnds : Terminates cfg req channelId turns (.start shared none) :=
      terminates_of_no_group hNoGroup
    obtain ⟨i, hDone⟩ := hEnds
    exact iff_of_true ⟨i, hDone, hReturns i hDone, fun ch h => absurd h (hNone ch)⟩
      fun i _ ch h => absurd h (hNone ch)
  · have hOffers := seatOffer_eq_drawn channelId shared hSome
      (fun ch h => hKeys ch (Store.mem_candidates.mp h)) hAgain
    have hDrawn : ∀ i, drawn cfg req channelId shared turns i ∈
        channelId :: (cfg.store.candidates req.tokenGroup req.modelName).map Channel.id := by
      intro i
      exact seatOffer_mem hSome (congrFun hOffers i)
    have hAll := Visit.visits_all_iff 3 (v := ⟨[], 0, false⟩)
      (T := fun b => ∃ ch, cfg.store.Enabled req.tokenGroup req.modelName ch ∧ ch.id = b)
      hDrawn rfl rfl (by decide)
    refine Iff.trans (exists_congr fun i => ?_) (hAll.trans (forall_congr' fun i => ?_))
    · rw [← run_toVisit_drawn hGroup hSome hOffers i]
      constructor
      · rintro ⟨hDone, -, hCount⟩
        refine ⟨hDone, ?_⟩
        rintro b ⟨ch, hEnabled, rfl⟩
        exact count_pos_iff.mp (lt_of_lt_of_eq Nat.one_pos (hCount ch hEnabled).symm)
      · rintro ⟨hDone, hVisited⟩
        exact ⟨hDone, hReturns i hDone, fun ch hEnabled =>
          count_eq_one_of_mem (run_nodup i) (hVisited ch.id ⟨ch, hEnabled, rfl⟩)⟩
    · simp only [Visit.Stuck, Visit.Seen, not_mem_nil, false_or]
      refine imp_congr_right fun _ => ⟨fun h ch hEnabled => h ch.id ⟨ch, hEnabled, rfl⟩, ?_⟩
      rintro h b ⟨ch, hEnabled, rfl⟩
      exact h ch hEnabled

/-! ## Alone -/

theorem drawn_alone (hSome : cfg.store.candidates req.tokenGroup req.modelName ≠ [])
    (outcomes : Nat → Outcome) (i : Nat) :
    ((cfg.store.candidates req.tokenGroup req.modelName).map Channel.id)[
        (firstPlace cfg req shared req.tokenGroup + i) %
          ((cfg.store.candidates req.tokenGroup req.modelName).map Channel.id).length]? =
      some (drawn cfg req channelId shared (alone outcomes) (i + 1)) := by
  have hPlace : (firstPlace cfg req shared req.tokenGroup + i) %
      (cfg.store.candidates req.tokenGroup req.modelName).length <
        (cfg.store.candidates req.tokenGroup req.modelName).length :=
    Nat.mod_lt _ (length_pos_iff.mpr hSome)
  rw [drawn, if_neg (Nat.succ_ne_zero i), seat_alone, getElem?_map, length_map,
    getElem?_eq_getElem hPlace]
  rfl

/-- **Alone, a request has had every channel** before it draws three that it had before. -/
theorem alone_harmless (hNodup :
      ((cfg.store.candidates req.tokenGroup req.modelName).map Channel.id).Nodup)
    (outcomes : Nat → Outcome) (i : Nat)
    (hStuck : ∀ j < 3, ∃ k < i, drawn cfg req channelId shared (alone outcomes) k =
      drawn cfg req channelId shared (alone outcomes) (i + j)) (ch : Channel)
    (hEnabled : cfg.store.Enabled req.tokenGroup req.modelName ch) :
    ∃ k < i, drawn cfg req channelId shared (alone outcomes) k = ch.id := by
  have hMem := Store.mem_candidates.mpr hEnabled
  exact seen_all_of_repeats hNodup (drawn_alone (ne_nil_of_mem hMem) outcomes)
    (hStuck 0 (by decide)) (hStuck 1 (by decide)) (mem_map_of_mem hMem)

def twoChannels : Settings := demoSettings [demoChannel 101 .enabled 0, demoChannel 102 .enabled 0]

def aloneLoop : Nat → Loop :=
  run twoChannels demoRequest 101 (alone fun _ => unauthorized) (Loop.start demoShared none)

/-- Alone both are attempted. -/
theorem both_attempted :
    ∃ i, (aloneLoop i).finished = true ∧ (aloneLoop i).newAPIError.isSome = true ∧
      ∀ ch, twoChannels.store.Enabled "default" "gpt-test" ch →
        (aloneLoop i).useChannel.count ch.id = 1 := by
  have hAgain : unauthorized.again demoRequest = true := by decide
  refine (attempts_all_iff (by decide) ?_ fun _ => hAgain).mpr ?_
  · intro ch hEnabled
    have hMem := Store.mem_candidates.mpr hEnabled
    change ch ∈ [demoChannel 101 .enabled 0, demoChannel 102 .enabled 0] at hMem
    rcases mem_pair.mp hMem with rfl | rfl <;> exact fun hMulti => absurd hMulti Bool.false_ne_true
  · exact alone_harmless (by decide) _

/-- **Another request takes every second turn**: one channel is drawn again and again. -/
theorem other_channel_never_attempted :
    ∃ s, distribute twoChannels demoRequest {} demoShared = some (101, s) ∧
      (run twoChannels demoRequest 101
        (fun i => ⟨if i = 0 then [] else [⟨"default", "gpt-test", 0⟩], id, unauthorized⟩) s
          4).finished = true ∧
      (run twoChannels demoRequest 101
        (fun i => ⟨if i = 0 then [] else [⟨"default", "gpt-test", 0⟩], id, unauthorized⟩) s
          4).useChannel = [101] ∧
      twoChannels.store.Enabled "default" "gpt-test" (demoChannel 102 .enabled 0) := by
  refine ⟨_, rfl, ?_, ?_, ?_⟩
  · decide
  · decide
  · refine Store.mem_candidates.mp ?_
    exact mem_cons_of_mem _ mem_cons_self

end NewApi.Relay
