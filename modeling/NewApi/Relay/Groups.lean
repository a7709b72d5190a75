import NewApi.Core.Rounds
import NewApi.Relay.Coverage

/-!
# From one automatic group to the next

A request that crosses selects `RetryTimes + 1` times from each automatic group that has channels.
But the loop returns at the third channel in a row that is drawn again, over all groups.
-/

namespace NewApi.Relay

open Core Go Channels List Option

variable {cfg : Settings} {req : Request} {channelId : Int} {shared : Shared}

/-! ## What is drawn -/

def drawGroups (cfg : Settings) (req : Request) : List String → Nat → List String
  | [], _ => []
  | group :: groups, retry =>
    if served cfg req group then
      List.replicate (max 1 (cfg.retryTimes.toNat + 1 - retry)) group ++
        drawGroups cfg req groups 0
    else drawGroups cfg req groups 0

def drawAt (cfg : Settings) (req : Request) (polling : Polling) (draws : List String) (i : Nat) :
    Option Channel :=
  draws[i]?.bind fun group =>
    (cfg.store.candidates group req.modelName)[
      (place (cfg.store.candidates group req.modelName).length (polling group req.modelName) +
        (draws.take i).count group) % (cfg.store.candidates group req.modelName).length]?

variable {s : Loop} {group : String} {groups : List String} {outcomes : Nat → Outcome}

theorem drawGroups_eq_nil (h : groups.find? (served cfg req) = none) (retry : Nat) :
    drawGroups cfg req groups retry = [] := by
  induction groups generalizing retry with
  | nil => rfl
  | cons g gs ih =>
    rw [find?_eq_none] at h ih
    rw [drawGroups, if_neg (h g mem_cons_self)]
    exact ih (fun x hx => h x (mem_cons_of_mem _ hx)) 0

theorem drawGroups_of_no_retries (h : cfg.retryTimes.toNat = 0) (groups : List String)
    (retry : Nat) : drawGroups cfg req groups retry = drawGroups cfg req groups 0 := by
  cases groups with
  | nil => rfl
  | cons g gs =>
    have hOne : max 1 (cfg.retryTimes.toNat + 1 - retry) =
        max 1 (cfg.retryTimes.toNat + 1 - 0) := by omega
    rw [drawGroups, drawGroups, hOne]

theorem autoSelect_draws (hCross : req.crossGroupRetry = true) {start : Nat} (gs : List String)
    (i : Nat) (polling : Polling) (param : RetryParam)
    (hGroups : gs = (getUserAutoGroup cfg req).drop i) (hStart : start ≤ i)
    (hRetry : start < i → param.retry = 0) (hReset : param.resetNextTry = false)
    (hFind : gs.find? (served cfg req) = some group) :
    drawGroups cfg req gs param.retry = group :: drawGroups cfg req
        ((getUserAutoGroup cfg req).drop
          ((autoSelect cfg req start gs i polling param).param.increaseRetry.autoGroupIndex.getD 0))
        (autoSelect cfg req start gs i polling param).param.increaseRetry.retry ∧
      (autoSelect cfg req start gs i polling param).param.increaseRetry.resetNextTry = false ∧
      ∀ g, served cfg req g = true → g ≠ group →
        (autoSelect cfg req start gs i polling param).polling g req.modelName =
          polling g req.modelName := by
  induction gs generalizing i polling param with
  | nil => cases hFind
  | cons g gs ih =>
    have hSelects := cfg.store.getRandomSatisfiedChannel_selects polling g req.modelName
      (if i > start then 0 else param.retry)
    have hRest : gs = (getUserAutoGroup cfg req).drop (i + 1) := by
      rw [← tail_drop, ← hGroups, tail_cons]
    cases hServed : served cfg req g with
    | true =>
      rw [find?_cons_of_pos hServed, some_inj] at hFind
      subst hFind
      have hPriority : (if i > start then 0 else param.retry) = param.retry := by
        split
        · rename_i hLater
          exact (hRetry hLater).symm
        · rfl
      obtain ⟨ch, hResult, -⟩ := hSelects.turn (candidates_ne_nil hServed)
      have hOthers := hSelects.others
      simp only [autoSelect, drawGroups, hServed, if_true, hPriority] at hResult hOthers ⊢
      rcases hGet : cfg.store.getRandomSatisfiedChannel polling g req.modelName param.retry with
        ⟨result, polling'⟩
      rw [hGet] at hResult hOthers
      subst hResult
      have hOther : ∀ h, served cfg req h = true → h ≠ g →
          polling' h req.modelName = polling h req.modelName := fun h _ hne =>
        hOthers h req.modelName fun hSame => hne hSame.1
      by_cases hUp : (param.retry : Int) ≥ cfg.retryTimes
      · -- the last selection from this group
        have hOne : max 1 (cfg.retryTimes.toNat + 1 - param.retry) = 1 := by omega
        simp only [hCross, hUp, hOne]
        rw [hRest]
        exact ⟨rfl, rfl, hOther⟩
      · have hMore : max 1 (cfg.retryTimes.toNat + 1 - param.retry) =
            max 1 (cfg.retryTimes.toNat + 1 - (param.retry + 1)) + 1 := by omega
        have hNext : RetryParam.increaseRetry { param with autoGroupIndex := some i } =
            ⟨param.retry + 1, false, some i⟩ := by simp [RetryParam.increaseRetry, hReset]
        simp only [hUp, and_false, if_false, hNext, getD_some]
        refine ⟨?_, trivial, hOther⟩
        rw [← hGroups, drawGroups, if_pos hServed, hMore, replicate_succ, cons_append]
    | false =>
      have hResult := hSelects.nothing (candidates_eq_nil hServed)
      rw [find?_cons_of_neg (by simpa using hServed)] at hFind
      simp only [autoSelect, drawGroups, hResult, hServed]
      exact ih (i + 1) polling { param with retry := 0, autoGroupIndex := some (i + 1) } hRest
        (by omega) (fun _ => rfl) hReset hFind

/-- What is left to draw after `i` draws, and the places that the counters are at. -/
structure Drawing (cfg : Settings) (req : Request) (polling₀ : Polling) (draws : List String)
    (i : Nat) (polling : Polling) (param : RetryParam) : Prop where
  reset : param.resetNextTry = false
  left : drawGroups cfg req
      ((getUserAutoGroup cfg req).drop (param.autoGroupIndex.getD 0)) param.retry = draws.drop i
  placed : ∀ group, served cfg req group = true →
    place (cfg.store.candidates group req.modelName).length (polling group req.modelName) =
      (place (cfg.store.candidates group req.modelName).length (polling₀ group req.modelName) +
        (draws.take i).count group) % (cfg.store.candidates group req.modelName).length

variable {polling₀ polling : Polling} {draws : List String} {i : Nat} {param : RetryParam}

theorem Drawing.nothing (h : Drawing cfg req polling₀ draws i polling param)
    (hCross : Crosses req) (hGroup : retryGroup cfg req (param.autoGroupIndex.getD 0) = none) :
    drawAt cfg req polling₀ draws i = none := by
  rw [retryGroup_auto hCross.1] at hGroup
  have hLeft := h.left
  rw [drawGroups_eq_nil hGroup, eq_comm, drop_eq_nil_iff] at hLeft
  rw [drawAt, getElem?_eq_none hLeft]
  rfl

theorem Drawing.pick (h : Drawing cfg req polling₀ draws i polling param) (hCross : Crosses req)
    (hGroup : retryGroup cfg req (param.autoGroupIndex.getD 0) = some group) :
    drawAt cfg req polling₀ draws i = (cfg.store.candidates group req.modelName)[
        place (cfg.store.candidates group req.modelName).length (polling group req.modelName)]? ∧
      Drawing cfg req polling₀ draws (i + 1)
        (cacheGetRandomSatisfiedChannel cfg req polling param).polling
        (cacheGetRandomSatisfiedChannel cfg req polling param).param.increaseRetry := by
  obtain ⟨ch, -, hTurn, -⟩ := pick_turn polling hGroup
  rw [retryGroup_auto hCross.1] at hGroup
  have hServed : served cfg req group = true := find?_some hGroup
  obtain ⟨hDraw, hReset, hOther⟩ := autoSelect_draws hCross.2 _ _ polling param rfl le_rfl
    (fun hLt => absurd hLt (lt_irrefl _)) h.reset hGroup
  rw [← cacheGetRandomSatisfiedChannel_auto hCross.1 polling hGroup] at hDraw hReset hOther
  rw [h.left] at hDraw
  have hAt : draws[i]? = some group := by rw [← head?_drop, hDraw, head?_cons]
  have hLeft := congrArg tail hDraw
  rw [tail_drop] at hLeft
  refine ⟨?_, hReset, hLeft.symm, fun g hg => ?_⟩
  · rw [drawAt, hAt, bind_some, h.placed group hServed]
  rw [take_add_one, hAt, toList_some, count_append]
  by_cases hSame : g = group
  · subst hSame
    rw [hTurn.2, h.placed g hg, Nat.mod_add_mod, count_singleton_self, Nat.add_assoc]
  · rw [hOther g hg hSame, h.placed g hg, count_singleton, if_neg (by simpa using Ne.symm hSame),
      Nat.add_zero]

/-! ## The loop draws -/

def loopGroups (cfg : Settings) (req : Request) (s : Loop) : List String :=
  drawGroups cfg req ((getUserAutoGroup cfg req).drop (s.param.autoGroupIndex.getD 0)) 1

def drawOffer (cfg : Settings) (req : Request) (channelId : Int) (s : Loop) : Nat → Offer Int
  | 0 => .give channelId true
  | i + 1 =>
    match drawAt cfg req s.shared.polling (loopGroups cfg req s) i with
    | none => .stop
    | some ch => if ch.HasKey cfg.unmarshal then .give ch.id true else .skip

theorem getChannel_pick (cfg : Settings) (req : Request) (channelId : Int)
    (hMeta : s.channelMeta = true) :
    (getChannel cfg req channelId s).2.shared.polling =
        (cacheGetRandomSatisfiedChannel cfg req s.shared.polling s.param).polling ∧
      (getChannel cfg req channelId s).2.param =
        (cacheGetRandomSatisfiedChannel cfg req s.shared.polling s.param).param := by
  unfold getChannel
  rw [if_neg (by simp [hMeta])]
  simp only
  split
  · exact ⟨rfl, rfl⟩
  · exact ⟨rfl, rfl⟩
  · split <;> exact ⟨rfl, rfl⟩

/-- The state before the iteration that makes the `i`-th draw. -/
structure Crossing (cfg : Settings) (req : Request) (s₀ : Loop) (i : Nat) (s : Loop) : Prop where
  channelMeta : s.channelMeta = true
  drawing : Drawing cfg req s₀.shared.polling (loopGroups cfg req s₀) i s.shared.polling s.param

theorem Crossing.step {s₀ s : Loop} (h : Crossing cfg req s₀ i s) (hCross : Crosses req)
    (channelId : Int) {outcome : Outcome} (hAgain : outcome.again req = true) :
    offer cfg req channelId outcome s = drawOffer cfg req channelId s₀ (i + 1) ∧
      ((iterate cfg req channelId outcome s).finished = false →
        Crossing cfg req s₀ (i + 1) (iterate cfg req channelId outcome s)) := by
  cases hGroup : retryGroup cfg req (s.param.autoGroupIndex.getD 0) with
  | none =>
    refine ⟨?_, fun hGoes => ?_⟩
    · rw [offer_stop h.channelMeta hGroup, drawOffer, h.drawing.nothing hCross hGroup]
    · obtain ⟨-, group, -, hSome, -⟩ := iterate_selects h.channelMeta hGoes
      rw [hGroup] at hSome
      cases hSome
  | some group =>
    obtain ⟨ch, hTurn, -, hOffer⟩ := offer_turn channelId h.channelMeta hGroup
    obtain ⟨hDraw, hNext⟩ := h.drawing.pick hCross hGroup
    rw [hTurn.1] at hDraw
    refine ⟨?_, fun hGoes => ?_⟩
    · rw [drawOffer, hDraw]
      simp only
      split
      · rename_i hKey
        rw [(hOffer outcome).1 hKey, hAgain]
      · rename_i hKey
        exact (hOffer outcome).2 hKey
    · obtain ⟨hShared, hParam, hSet⟩ := iterate_goes hGoes
      obtain ⟨hPolling, hPick⟩ := getChannel_pick cfg req channelId h.channelMeta
      refine ⟨hSet fun hUnset => absurd (h.channelMeta.symm.trans hUnset) (by simp), ?_⟩
      rw [hShared, hParam, hPolling, hPick]
      exact hNext

theorem interfere_alone (store : Store) (outcomes : Nat → Outcome) (i : Nat) (s : Loop) :
    (alone outcomes i).interfere store s = s := rfl

theorem crossing_one {autoGroupIndex : Option Nat}
    (hGoes : (run cfg req channelId (alone outcomes) (.start shared autoGroupIndex) 1).finished =
      false) :
    Crossing cfg req (.start shared autoGroupIndex) 0
      (run cfg req channelId (alone outcomes) (.start shared autoGroupIndex) 1) := by
  obtain ⟨hMeta, hParam⟩ := run_one hGoes
  refine ⟨hMeta, by rw [hParam], by rw [hParam]; rfl, fun group hServed => ?_⟩
  have hShared : (run cfg req channelId (alone outcomes) (.start shared autoGroupIndex) 1).shared =
      shared := (iterate_goes hGoes).1
  have hPos := length_pos_iff.mpr (candidates_ne_nil hServed)
  rw [hShared, take_zero, count_nil]
  exact (Nat.mod_eq_of_lt (place_lt hPos _)).symm

theorem run_toVisit_draws (cfg : Settings) (channelId : Int) (shared : Shared)
    (autoGroupIndex : Option Nat) (hCross : Crosses req)
    (hAgain : ∀ i, (outcomes i).again req = true) (i : Nat) :
    (run cfg req channelId (alone outcomes) (.start shared autoGroupIndex) i).toVisit =
        (Visit.mk [] 0 false).run 3
          (drawOffer cfg req channelId (.start shared autoGroupIndex)) i ∧
      ((run cfg req channelId (alone outcomes) (.start shared autoGroupIndex) i).finished = false →
        ∀ j, i = j + 1 → Crossing cfg req (.start shared autoGroupIndex) j
          (run cfg req channelId (alone outcomes) (.start shared autoGroupIndex) i)) := by
  induction i with
  | zero => exact ⟨rfl, fun _ j hj => absurd hj (by omega)⟩
  | succ i ih =>
    obtain ⟨hVisit, hCrossing⟩ := ih
    cases i with
    | zero =>
      refine ⟨?_, fun hGoes j hj => ?_⟩
      · have hOffer : offer cfg req channelId (outcomes 0) (.start shared autoGroupIndex) =
            .give channelId true := congrArg (Offer.give channelId) (hAgain 0)
        rw [run, interfere_alone, run, show (alone outcomes 0).outcome = outcomes 0 from rfl,
          iterate_toVisit, hOffer]
        rfl
      · obtain rfl : j = 0 := by omega
        exact crossing_one hGoes
    | succ i =>
      rw [run, interfere_alone, Visit.run, iterate_toVisit, ← hVisit]
      generalize run cfg req channelId (alone outcomes) (.start shared autoGroupIndex) (i + 1) = t
        at *
      cases hDone : t.finished with
      | true =>
        refine ⟨?_, fun hGoes => ?_⟩
        · rw [Visit.step_of_stopped hDone, Visit.step_of_stopped hDone]
        · rw [iterate, if_pos hDone] at hGoes
          exact absurd (hDone.symm.trans hGoes) (by simp)
      | false =>
        obtain ⟨hOffer, hNext⟩ := (hCrossing hDone i rfl).step hCross channelId (hAgain (i + 1))
        refine ⟨by rw [← hOffer]; rfl, fun hGoes j hj => ?_⟩
        obtain rfl : j = i + 1 := by omega
        exact hNext hGoes

/-! ## Getting to a group -/

/-- The loop ends with an error after it has tried an enabled channel of the group. -/
def FailsAfter (cfg : Settings) (req : Request) (channelId : Int) (turns : Nat → Turn) (s : Loop)
    (group : String) : Prop :=
  ∃ i, (run cfg req channelId turns s i).finished = true ∧
    (run cfg req channelId turns s i).newAPIError.isSome = true ∧
    ∃ ch, cfg.store.Enabled group req.modelName ch ∧
      ch.id ∈ (run cfg req channelId turns s i).useChannel

theorem drawOffer_again (cfg : Settings) (req : Request) (channelId : Int) (s : Loop) (n : Nat)
    (b : Int) (again : Bool) (h : drawOffer cfg req channelId s n = .give b again) :
    again = true := by
  cases n with
  | zero =>
    cases h
    rfl
  | succ n =>
    rw [drawOffer] at h
    split at h
    · cases h
    split at h <;> cases h
    · rfl

/-- Some draw gives an enabled channel of the group before the visit is closed. -/
def GetsTo (cfg : Settings) (req : Request) (channelId : Int) (s : Loop) (group : String) : Prop :=
  ∃ n ch, cfg.store.Enabled group req.modelName ch ∧
    (drawOffer cfg req channelId s n).given = some ch.id ∧
    (Visit.mk [] 0 false).Open 3 (drawOffer cfg req channelId s) n

theorem failsAfter_iff (channelId : Int) (shared : Shared) (autoGroupIndex : Option Nat)
    (hCross : Crosses req) (hAgain : ∀ i, (outcomes i).again req = true) (group : String) :
    FailsAfter cfg req channelId (alone outcomes) (.start shared autoGroupIndex) group ↔
      GetsTo cfg req channelId (.start shared autoGroupIndex) group := by
  have hVisit := fun i =>
    (run_toVisit_draws cfg channelId shared autoGroupIndex hCross hAgain i).1
  have hUsed : ∀ i,
      (run cfg req channelId (alone outcomes) (.start shared autoGroupIndex) i).useChannel =
        ((Visit.mk [] 0 false).run 3 (drawOffer cfg req channelId (.start shared autoGroupIndex))
          i).visited := fun i => congrArg Visit.visited (hVisit i)
  have hSome := Visit.visits_some_iff 3 (v := ⟨[], 0, false⟩) rfl (by decide)
    (drawOffer_again cfg req channelId (.start shared autoGroupIndex))
    (T := fun b => ∃ ch, cfg.store.Enabled group req.modelName ch ∧ ch.id = b) (by simp)
  constructor
  · rintro ⟨i, -, -, ch, hEnabled, hMem⟩
    rw [hUsed] at hMem
    obtain ⟨n, b, hGiven, ⟨ch', hEnabled', rfl⟩, hOpen⟩ :=
      hSome.mp ⟨i, ch.id, hMem, ch, hEnabled, rfl⟩
    exact ⟨n, ch', hEnabled', hGiven, hOpen⟩
  · rintro ⟨n, ch, hEnabled, hGiven, hOpen⟩
    obtain ⟨i, b, hMem, ch', hEnabled', rfl⟩ :=
      hSome.mpr ⟨n, ch.id, hGiven, ⟨ch, hEnabled, rfl⟩, hOpen⟩
    have hEnds : Terminates cfg req channelId (alone outcomes) (.start shared autoGroupIndex) :=
      terminates_of_crosses hCross
    obtain ⟨k, hDone⟩ := hEnds
    cases k with
    | zero => cases hDone
    | succ k =>
      refine ⟨k + 1 + i, ?_, ?_, ch', hEnabled', ?_⟩
      · have hStopped := congrArg Visit.stopped (hVisit (k + 1))
        rw [show Visit.stopped (Loop.toVisit _) = true from hDone] at hStopped
        have hLater := congrArg Visit.stopped (hVisit (k + 1 + i))
        rw [Visit.run_of_stopped hStopped.symm, ← hStopped] at hLater
        exact hLater
      · rw [Nat.add_right_comm]
        exact run_newAPIError hAgain (k + i)
      · rw [hUsed]
        exact Visit.visited_subset_run _ _ (by omega) hMem

/-! ## Groups apart -/

theorem drawGroups_zero (cfg : Settings) (req : Request) (groups : List String) :
    drawGroups cfg req groups 0 =
      (groups.filter (served cfg req)).flatMap (replicate (cfg.retryTimes.toNat + 1)) := by
  induction groups with
  | nil => rfl
  | cons g gs ih =>
    rw [drawGroups, ih]
    cases hServed : served cfg req g with
    | true =>
      have hMax : max 1 (cfg.retryTimes.toNat + 1 - 0) = cfg.retryTimes.toNat + 1 := by omega
      rw [filter_cons_of_pos hServed, flatMap_cons, if_pos rfl, hMax]
    | false =>
      rw [filter_cons_of_neg (by simp [hServed]), if_neg Bool.false_ne_true]

theorem served_of_mem_drawGroups (h : group ∈ drawGroups cfg req groups 0) :
    served cfg req group = true := by
  rw [drawGroups_zero] at h
  obtain ⟨g, hg, hMem⟩ := mem_flatMap.mp h
  rw [eq_of_mem_replicate hMem]
  exact (mem_filter.mp hg).2

theorem drawing_start (cfg : Settings) (req : Request) (polling : Polling) :
    Drawing cfg req polling (drawGroups cfg req (getUserAutoGroup cfg req) 0) 0 polling {} := by
  refine ⟨rfl, rfl, fun group hServed => ?_⟩
  have hPos := length_pos_iff.mpr (candidates_ne_nil hServed)
  exact (Nat.mod_eq_of_lt (place_lt hPos _)).symm

theorem Drawing.drawAt_drop (h : Drawing cfg req polling₀ draws i polling param)
    (hServed : ∀ g ∈ draws, served cfg req g = true) (k : Nat) :
    drawAt cfg req polling (draws.drop i) k = drawAt cfg req polling₀ draws (i + k) := by
  unfold drawAt
  rw [getElem?_drop]
  cases hAt : draws[i + k]? with
  | none => rfl
  | some group =>
    have hPlaced := h.placed group (hServed group (mem_of_getElem? hAt))
    rw [bind_some, bind_some, hPlaced, Nat.mod_add_mod, take_add, count_append, Nat.add_assoc]

theorem drawGroups_resume (hCross : Crosses req) (h : Moves cfg req 0 group {} param) :
    drawGroups cfg req ((getUserAutoGroup cfg req).drop (param.autoGroupIndex.getD 0)) 1 =
      drawGroups cfg req
        ((getUserAutoGroup cfg req).drop (param.increaseRetry.autoGroupIndex.getD 0))
        param.increaseRetry.retry := by
  rw [Moves, if_pos hCross.1] at h
  obtain ⟨j, -, -, rfl⟩ := h
  simp only [ite_self, hCross.2, true_and]
  split
  · exact drawGroups_of_no_retries (by omega) _ 1
  · rfl

theorem fresh_draws (hCross : Crosses req)
    (h : distribute cfg req {} shared = some (channelId, s)) :
    (drawAt cfg req shared.polling (drawGroups cfg req (getUserAutoGroup cfg req) 0) 0).map
        Channel.id = some channelId ∧
      ∀ k, drawAt cfg req s.shared.polling (loopGroups cfg req s) k =
        drawAt cfg req shared.polling (drawGroups cfg req (getUserAutoGroup cfg req) 0)
          (k + 1) := by
  simp only [distribute, preferredChannel, bind_none] at h
  split at h
  · rename_i ch hResult
    cases h
    cases hGroup : retryGroup cfg req 0 with
    | none => exact absurd hResult (pick_nothing shared.polling hGroup ch)
    | some group =>
      obtain ⟨ch', hPick, hTurn, hMoves⟩ := pick_turn shared.polling
        (show retryGroup cfg req ((RetryParam.autoGroupIndex {}).getD 0) = some group from hGroup)
      rw [hResult] at hPick
      cases hPick
      obtain ⟨hFirst, hDrawing⟩ := (drawing_start cfg req shared.polling).pick hCross hGroup
      rw [hTurn.1] at hFirst
      refine ⟨by rw [hFirst]; rfl, fun k => ?_⟩
      rw [Nat.add_comm k 1, ← hDrawing.drawAt_drop fun _ => served_of_mem_drawGroups,
        ← hDrawing.left, ← drawGroups_resume hCross hMoves]
      rfl
  · cases h

/-- The automatic groups are apart: no channel is in two of them, and all have keys. -/
structure Apart (cfg : Settings) (req : Request) : Prop where
  nodup : (getUserAutoGroup cfg req).Nodup
  ids : ∀ g ∈ getUserAutoGroup cfg req,
    ((cfg.store.candidates g req.modelName).map Channel.id).Nodup
  disjoint : ∀ g ∈ getUserAutoGroup cfg req, ∀ g' ∈ getUserAutoGroup cfg req,
    ∀ id ∈ (cfg.store.candidates g req.modelName).map Channel.id,
      id ∈ (cfg.store.candidates g' req.modelName).map Channel.id → g = g'
  keys : ∀ g ∈ getUserAutoGroup cfg req, ∀ ch ∈ cfg.store.candidates g req.modelName,
    ch.HasKey cfg.unmarshal

def idsAt (cfg : Settings) (req : Request) (groups : List String) (b : Nat) : List Int :=
  groups[b]?.elim [] fun g => (cfg.store.candidates g req.modelName).map Channel.id

theorem idsAt_eq {b : Nat} {g : String} (h : groups[b]? = some g) :
    idsAt cfg req groups b = (cfg.store.candidates g req.modelName).map Channel.id := by
  rw [idsAt, h]
  rfl

theorem drawAt_flatMap (cfg : Settings) (req : Request) (polling : Polling)
    (hNodup : groups.Nodup) {b t L : Nat} {g : String} (hg : groups[b]? = some g) (ht : t < L) :
    drawAt cfg req polling (groups.flatMap (List.replicate L)) (b * L + t) =
      (cfg.store.candidates g req.modelName)[
        (place (cfg.store.candidates g req.modelName).length (polling g req.modelName) + t) %
          (cfg.store.candidates g req.modelName).length]? := by
  obtain ⟨hb, rfl⟩ := List.getElem?_eq_some_iff.mp hg
  have hBefore : ((groups.take b).flatMap (List.replicate L)).count groups[b] = 0 := by
    rw [List.count_eq_zero, List.mem_flatMap]
    rintro ⟨x, hx, hMem⟩
    rw [← eq_of_mem_replicate hMem, mem_take_iff_getElem] at hx
    obtain ⟨k, hk, hSame⟩ := hx
    have hIndex := hNodup.getElem_inj_iff.mp hSame
    omega
  rw [drawAt, getElem?_flatMap_replicate groups b ht, hg, bind_some,
    take_flatMap_replicate groups hb ht.le, count_append, hBefore, Nat.zero_add,
    count_replicate_self]

theorem mem_candidates_of_drawAt {polling : Polling} {draws : List String} {i : Nat} {ch : Channel}
    (h : drawAt cfg req polling draws i = some ch) :
    ∃ g ∈ draws, ch ∈ cfg.store.candidates g req.modelName := by
  obtain ⟨g, hg, hAt⟩ := bind_eq_some_iff.mp h
  exact ⟨g, mem_of_getElem? hg, mem_of_getElem? hAt⟩

section

variable (hApart : Apart cfg req) (hCross : Crosses req)
  (h : distribute cfg req {} shared = some (channelId, s))
include hApart hCross h

theorem fresh_given (n : Nat) :
    (drawOffer cfg req channelId s n).given = (drawAt cfg req shared.polling
      (drawGroups cfg req (getUserAutoGroup cfg req) 0) n).map Channel.id := by
  obtain ⟨hFirst, hRest⟩ := fresh_draws hCross h
  cases n with
  | zero => exact hFirst.symm
  | succ n =>
    rw [drawOffer, hRest]
    cases hDraw : drawAt cfg req shared.polling
        (drawGroups cfg req (getUserAutoGroup cfg req) 0) (n + 1) with
    | none => rfl
    | some ch =>
      obtain ⟨g, hg, hMem⟩ := mem_candidates_of_drawAt hDraw
      rw [drawGroups_zero] at hg
      obtain ⟨g', hg', hSame⟩ := mem_flatMap.mp hg
      rw [eq_of_mem_replicate hSame] at hMem
      simp only [if_pos (hApart.keys g' (mem_filter.mp hg').1 ch hMem)]
      rfl

theorem fresh_rounds :
    Visit.Rounds (drawOffer cfg req channelId s)
      (idsAt cfg req ((getUserAutoGroup cfg req).filter (served cfg req)))
      (cfg.retryTimes.toNat + 1) ((getUserAutoGroup cfg req).filter (served cfg req)).length := by
  have hGiven := fresh_given hApart hCross h
  rw [drawGroups_zero] at hGiven
  have hNodup := hApart.nodup.filter (served cfg req)
  have hMem : ∀ g ∈ (getUserAutoGroup cfg req).filter (served cfg req),
      g ∈ getUserAutoGroup cfg req ∧ served cfg req g = true := fun g hg => mem_filter.mp hg
  generalize (getUserAutoGroup cfg req).filter (served cfg req) = groups at *
  have hAt : ∀ b < groups.length, ∃ g ∈ groups, groups[b]? = some g := fun b hb =>
    ⟨groups[b], getElem_mem hb, getElem?_eq_getElem hb⟩
  refine ⟨?_, ?_, ?_, ?_, ?_⟩
  · intro b hb
    obtain ⟨g, -, hg⟩ := hAt b hb
    refine ⟨place (cfg.store.candidates g req.modelName).length (shared.polling g req.modelName),
      fun t ht => ?_⟩
    rw [hGiven, drawAt_flatMap cfg req shared.polling hNodup hg ht, idsAt_eq hg, length_map,
      getElem?_map]
  · intro n hn
    have hLength : (groups.flatMap (replicate (cfg.retryTimes.toNat + 1))).length ≤ n := by
      simpa [length_flatMap] using hn
    rw [hGiven, drawAt, getElem?_eq_none hLength]
    rfl
  · intro b hb
    obtain ⟨g, hIn, hg⟩ := hAt b hb
    rw [idsAt_eq hg]
    exact hApart.ids g (hMem g hIn).1
  · intro b hb
    obtain ⟨g, hIn, hg⟩ := hAt b hb
    rw [idsAt_eq hg]
    simpa using candidates_ne_nil (hMem g hIn).2
  · intro b hb b' hb' id hId hId'
    obtain ⟨g, hIn, hg⟩ := hAt b hb
    obtain ⟨g', hIn', hg'⟩ := hAt b' hb'
    rw [idsAt_eq hg] at hId
    rw [idsAt_eq hg'] at hId'
    have hSame := hApart.disjoint g (hMem g hIn).1 g' (hMem g' hIn').1 id hId hId'
    exact (getElem?_inj hb hNodup).mp (by rw [hg, hg', hSame])

theorem getsTo_iff {earlier later : List String}
    (hGroups : getUserAutoGroup cfg req = earlier ++ group :: later)
    (hServed : served cfg req group = true) :
    GetsTo cfg req channelId s group ↔ ∀ g ∈ earlier, served cfg req g = true →
      cfg.retryTimes ≤ (cfg.store.candidates g req.modelName).length + 1 := by
  have hRounds := fresh_rounds hApart hCross h
  have hSplit : (getUserAutoGroup cfg req).filter (served cfg req) =
      earlier.filter (served cfg req) ++ group :: later.filter (served cfg req) := by
    rw [hGroups, filter_append, filter_cons_of_pos hServed]
  rw [hSplit] at hRounds
  have hAt : (earlier.filter (served cfg req) ++ group :: later.filter (served cfg req))[
      (earlier.filter (served cfg req)).length]? = some group := by simp
  have hReach := hRounds.gets_to_iff (v := ⟨[], 0, false⟩) (Nat.succ_pos _) rfl
    (show 0 < 3 by decide) (by simp : (earlier.filter (served cfg req)).length < _)
  rw [idsAt_eq hAt] at hReach
  have hGets : GetsTo cfg req channelId s group ↔
      ∃ n c, (drawOffer cfg req channelId s n).given = some c ∧
        c ∈ (cfg.store.candidates group req.modelName).map Channel.id ∧
        (Visit.mk [] 0 false).Open 3 (drawOffer cfg req channelId s) n := by
    constructor
    · rintro ⟨n, ch, hEnabled, hGiven, hOpen⟩
      exact ⟨n, ch.id, hGiven, mem_map_of_mem (Store.mem_candidates.mpr hEnabled), hOpen⟩
    · rintro ⟨n, c, hGiven, hMem, hOpen⟩
      obtain ⟨ch, hCh, rfl⟩ := mem_map.mp hMem
      exact ⟨n, ch, Store.mem_candidates.mp hCh, hGiven, hOpen⟩
  rw [hGets, hReach]
  constructor
  · intro hAll g hg hOn
    obtain ⟨b, hb, rfl⟩ := mem_iff_getElem.mp (mem_filter.mpr ⟨hg, hOn⟩)
    have hFew := hAll b hb
    rw [idsAt_eq (by rw [getElem?_append_left hb, getElem?_eq_getElem hb]), length_map] at hFew
    omega
  · intro hAll b hb
    obtain ⟨hg, hOn⟩ := mem_filter.mp (getElem_mem hb)
    have hFew := hAll _ hg hOn
    rw [idsAt_eq (by rw [getElem?_append_left hb, getElem?_eq_getElem hb]), length_map]
    omega

end

theorem distribute_start {arrival : Arrival}
    (h : distribute cfg req arrival shared = some (channelId, s)) :
    ∃ shared' autoGroupIndex, s = .start shared' autoGroupIndex := by
  simp only [distribute] at h
  split at h
  · split at h
    · cases h
    split at h <;> cases h
    · exact ⟨_, _, rfl⟩
  · split at h
    · cases h
    · cases h
      exact ⟨_, _, rfl⟩
    split at h <;> cases h
    · exact ⟨_, _, rfl⟩

/-- **A failing request gets to a later automatic group** exactly if one of its channels is drawn
before three in a row are drawn again. -/
theorem later_group_iff {arrival : Arrival} {s : Loop} {outcomes : Nat → Outcome}
    {earlier later : List String} {group : String} (hCross : Crosses req)
    (hAgain : ∀ i, (outcomes i).again req = true)
    (hArrive : distribute cfg req arrival shared = some (channelId, s))
    (hGroups : getUserAutoGroup cfg req = earlier ++ group :: later)
    (hSome : ∃ ch, cfg.store.Enabled group req.modelName ch) :
    (FailsAfter cfg req channelId (alone outcomes) s group ↔
        GetsTo cfg req channelId s group) ∧
      (arrival = {} → Apart cfg req →
        (FailsAfter cfg req channelId (alone outcomes) s group ↔
          ∀ g ∈ earlier, served cfg req g = true →
            cfg.retryTimes ≤ (cfg.store.candidates g req.modelName).length + 1)) := by
  have hFails : FailsAfter cfg req channelId (alone outcomes) s group ↔
      GetsTo cfg req channelId s group := by
    obtain ⟨shared', autoGroupIndex, rfl⟩ := distribute_start hArrive
    exact failsAfter_iff channelId shared' autoGroupIndex hCross hAgain group
  refine ⟨hFails, ?_⟩
  rintro rfl hApart
  have hServed : served cfg req group = true := by
    obtain ⟨ch, hEnabled⟩ := hSome
    simpa [served] using ne_nil_of_mem (Store.mem_candidates.mpr hEnabled)
  exact hFails.trans (getsTo_iff hApart hCross hArrive hGroups hServed)

def twoGroups (retryTimes : Int) : Settings where
  store :=
    { memoryCacheEnabled := true
      cache :=
        { group2model2channels := fun group _ =>
            if group = "vip" then [101] else if group = "default" then [102] else []
          channelsIDM := fun id =>
            if id = 101 ∨ id = 102 then some (demoChannel id .enabled 0) else none
          id_eq := by
            intro id ch h
            split at h
            · cases h
              rfl
            · cases h
          listed := by
            intro group model id h
            split at h
            · simp_all
            · split at h <;> simp_all }
      db := (demoStore []).db
      orderBy := Sorting.ofStable }
  unmarshal := fun _ => none
  autoGroups := ["vip", "default"]
  usableGroups := fun _ => ["vip", "default"]
  retryTimes := retryTimes

def autoRequest : Request := { demoRequest with tokenGroup := "auto", crossGroupRetry := true }

theorem enabled_twoGroups (retryTimes : Int) :
    (twoGroups retryTimes).store.Enabled "default" "gpt-test" (demoChannel 102 .enabled 0) := by
  refine Store.mem_candidates.mp ?_
  exact mem_cons_self

/-- Two retries: the second group has its turn. -/
theorem second_group_attempted :
    ∃ s, distribute (twoGroups 2) autoRequest {} demoShared = some (101, s) ∧
      FailsAfter (twoGroups 2) autoRequest 101 (alone fun _ => unauthorized) s "default" := by
  have hAgain : unauthorized.again autoRequest = true := by decide
  have hGroups : getUserAutoGroup (twoGroups 2) autoRequest = ["vip"] ++ "default" :: [] := by
    decide
  refine ⟨_, rfl, ((later_group_iff ⟨rfl, rfl⟩ (fun _ => hAgain) rfl hGroups
    ⟨_, enabled_twoGroups 2⟩).2 rfl ⟨by decide, by decide, by decide, by decide⟩).mpr ?_⟩
  decide

/-- **Ten retries are too many for one channel**: the second group is never tried. -/
theorem second_group_never_attempted :
    ∃ s, distribute (twoGroups 10) autoRequest {} demoShared = some (101, s) ∧
      (run (twoGroups 10) autoRequest 101 (alone fun _ => unauthorized) s 4).finished = true ∧
      (run (twoGroups 10) autoRequest 101 (alone fun _ => unauthorized) s 4).useChannel = [101] ∧
      (twoGroups 10).store.Enabled "default" "gpt-test" (demoChannel 102 .enabled 0) := by
  refine ⟨_, rfl, ?_, ?_, enabled_twoGroups 10⟩ <;> decide

end NewApi.Relay
