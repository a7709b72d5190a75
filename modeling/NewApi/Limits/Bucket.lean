import NewApi.Core.TokenBucket
import NewApi.Go.Time
import NewApi.Lua.Number

/-!
# The token bucket in Redis

`rate_limit.lua` keeps the tokens of a key and the second it had them at, in doubles.  It computes
the exact token bucket as long as the capacity and the request fit a double.
-/

namespace NewApi.Limits

open Core Core.TokenBucket

structure BucketConfig where
  capacity : Int
  rate : Int
  requested : Int

abbrev BucketHash := Level Int

def currentTokens (capacity rate nowInSeconds : Int) : Option BucketHash → Int
  | none => capacity
  | some b =>
    let elapsed := Lua.sub nowInSeconds b.time
    let addTokens := Lua.mul elapsed rate
    min capacity (Lua.add b.tokens addTokens)

def rateLimit (config : BucketConfig) (now : Int) (bucket : Option BucketHash) :
    BucketHash × Bool :=
  let requested := Lua.round config.requested
  let rate := Lua.round config.rate
  let capacity := Lua.round config.capacity
  let nowInSeconds := Lua.round now
  let tokens := currentTokens capacity rate nowInSeconds bucket
  if requested ≤ tokens then (⟨Lua.sub tokens requested, nowInSeconds⟩, true)
  else (⟨tokens, nowInSeconds⟩, false)

namespace BucketConfig

variable (config : BucketConfig)

def executions : Option BucketHash → List Int → List (Int × BucketHash × Bool)
  | _, [] => []
  | b, t :: ts => (t, rateLimit config t b) :: executions (some (rateLimit config t b).1) ts

def allowedIn (s e : Int) (ts : List Int) : Nat :=
  (config.executions none ts).countP fun x => s ≤ x.1 ∧ x.1 ≤ e ∧ x.2.2

def exact : TokenBucket Int := ⟨config.capacity, config.rate, config.requested⟩

structure Fits : Prop where
  capacity_pos : 0 < config.capacity
  rate_pos : 0 < config.rate
  requested_pos : 0 < config.requested
  capacity_le : config.capacity ≤ 2 ^ 53
  requested_le : config.requested ≤ 2 ^ 53

end BucketConfig

/-- A time that a double holds exactly. -/
def IsSecond (t : Int) : Prop := 0 ≤ t ∧ t ≤ 2 ^ 53

instance (t : Int) : Decidable (IsSecond t) := inferInstanceAs (Decidable (_ ∧ _))

variable {config : BucketConfig}

/-- **A refill is exact** below the capacity, and above it the rounding does not matter. -/
theorem refill_eq {capacity rate tokens elapsed : Int} (hCapacity : capacity ≤ 2 ^ 53)
    (hRate : 0 < rate) (hTokens : 0 ≤ tokens) (hLe : tokens ≤ capacity) (hElapsed : 0 ≤ elapsed) :
    min capacity (Lua.add tokens (Lua.mul elapsed (Lua.round rate))) =
      min capacity (tokens + elapsed * rate) := by
  rcases hElapsed.eq_or_lt with rfl | hPos
  · -- no time has passed, whatever the rate
    rw [Lua.mul, zero_mul, zero_mul, Lua.round_eq le_rfl (by omega), Lua.add,
      Lua.round_eq (by omega) (by omega)]
  have hGain : rate ≤ elapsed * rate := le_mul_of_one_le_left hRate.le hPos
  rcases le_or_gt (elapsed * rate) (2 ^ 53) with hSmall | hLarge
  · rw [Lua.round_eq hRate.le (by omega), Lua.mul, Lua.round_eq (by omega) hSmall, Lua.add]
    rcases le_or_gt (tokens + elapsed * rate) (2 ^ 53) with hSum | hSum
    · rw [Lua.round_eq (by omega) hSum]
    · have := Lua.le_round hSum.le
      rw [min_eq_left (by omega), min_eq_left (by omega)]
  · -- the gain alone fills the bucket
    have hMul : 2 ^ 53 ≤ Lua.mul elapsed (Lua.round rate) := by
      refine Lua.le_round ?_
      rcases le_or_gt rate (2 ^ 53) with hRateLe | hRateGt
      · rw [Lua.round_eq hRate.le hRateLe]
        exact hLarge.le
      · have hRound := Lua.le_round hRateGt.le
        calc 2 ^ 53 ≤ Lua.round rate := hRound
          _ ≤ elapsed * Lua.round rate := le_mul_of_one_le_left (by omega) hPos
    have hAdd : 2 ^ 53 ≤ Lua.add tokens (Lua.mul elapsed (Lua.round rate)) :=
      Lua.le_round (by omega)
    rw [min_eq_left (by omega), min_eq_left (by omega)]

section Exact

variable (h : config.Fits) {now : Int} (hNow : IsSecond now) {bucket : Option BucketHash}
  (hBucket : ∀ b, bucket = some b → b.Within config.exact ∧ b.time ≤ now ∧ 0 ≤ b.time)

include h hNow hBucket

theorem currentTokens_eq :
    currentTokens config.capacity (Lua.round config.rate) now bucket =
      config.exact.refilled now bucket := by
  cases bucket with
  | none => rfl
  | some b =>
    obtain ⟨⟨hNonneg, hLe⟩, hTime, hFirst⟩ := hBucket b rfl
    have hSecond := hNow.2
    rw [currentTokens, Lua.sub, Lua.round_eq (by omega) (by omega)]
    exact refill_eq h.capacity_le h.rate_pos hNonneg hLe (by omega)

theorem rateLimit_eq : rateLimit config now bucket = config.exact.take now bucket := by
  have hTokens := currentTokens_eq h hNow hBucket
  have hLe := config.exact.refilled_le_capacity now bucket
  have hCapacity : config.exact.capacity ≤ 2 ^ 53 := h.capacity_le
  have hRequested := h.requested_pos
  rw [rateLimit, Lua.round_eq h.requested_pos.le h.requested_le,
    Lua.round_eq h.capacity_pos.le h.capacity_le, Lua.round_eq hNow.1 hNow.2]
  simp only [hTokens]
  by_cases hEnough : config.requested ≤ config.exact.refilled now bucket
  · rw [if_pos hEnough, take, if_pos (show config.exact.requested ≤ _ from hEnough), Lua.sub,
      Lua.round_eq (by omega) (by omega)]
    rfl
  · rw [if_neg hEnough, take, if_neg (show ¬ config.exact.requested ≤ _ from hEnough)]

end Exact

/-- A run of the script is a run of the exact bucket, and every level is between 0 and the
capacity. -/
theorem executions_eq (h : config.Fits) (ts : List Int) (bucket : Option BucketHash)
    (hBucket : ∀ b, bucket = some b →
      b.Within config.exact ∧ (∀ t ∈ ts, b.time ≤ t) ∧ 0 ≤ b.time)
    (hTimes : ∀ t ∈ ts, IsSecond t) (hSorted : ts.Pairwise (· ≤ ·)) :
    ((config.executions bucket ts).map fun x => (x.1, x.2.2)) = config.exact.answers bucket ts ∧
      ∀ x ∈ config.executions bucket ts, x.2.1.Within config.exact := by
  induction ts generalizing bucket with
  | nil => exact ⟨rfl, List.forall_mem_nil _⟩
  | cons t ts ih =>
    obtain ⟨hHead, hTail⟩ := List.pairwise_cons.mp hSorted
    have hNow := hTimes t List.mem_cons_self
    have hEq := rateLimit_eq h hNow fun b hb =>
      ⟨(hBucket b hb).1, (hBucket b hb).2.1 t List.mem_cons_self, (hBucket b hb).2.2⟩
    have hWithin : (config.exact.take t bucket).1.Within config.exact :=
      take_within h.rate_pos.le h.requested_pos.le h.capacity_pos.le _ _ fun b hb =>
        ⟨(hBucket b hb).1, (hBucket b hb).2.1 t List.mem_cons_self⟩
    obtain ⟨hAnswers, hLevels⟩ := ih (some (config.exact.take t bucket).1) (by
      intro b hb
      rw [← Option.some.inj hb, take_time]
      exact ⟨hWithin, hHead, hNow.1⟩) (fun u hu => hTimes u (List.mem_cons_of_mem _ hu)) hTail
    rw [BucketConfig.executions, hEq, List.map_cons, hAnswers]
    refine ⟨rfl, ?_⟩
    rw [List.forall_mem_cons]
    exact ⟨hWithin, hLevels⟩

def handlerConfig (max duration : Int) : BucketConfig where
  capacity := Go.int64 (max * duration)
  rate := max
  requested := duration

theorem handlerConfig_capacity {max duration : Int} (hMax : 0 < max) (hDuration : 0 < duration)
    (h : max * duration ≤ 2 ^ 53) : (handlerConfig max duration).capacity = max * duration := by
  have hPos := mul_pos hMax hDuration
  rw [handlerConfig, Go.int64, Int.bmod_eq_of_le] <;> omega

theorem handlerConfig_fits {max duration : Int} (hMax : 0 < max) (hDuration : 0 < duration)
    (h : max * duration ≤ 2 ^ 53) : (handlerConfig max duration).Fits where
  capacity_pos := by
    rw [handlerConfig_capacity hMax hDuration h]
    exact mul_pos hMax hDuration
  rate_pos := hMax
  requested_pos := hDuration
  capacity_le := by rwa [handlerConfig_capacity hMax hDuration h]
  requested_le := le_trans (le_mul_of_one_le_left hDuration.le hMax) h

theorem allowedIn_mul_le (h : config.Fits) {ts : List Int} (hTimes : ∀ t ∈ ts, IsSecond t)
    (hSorted : ts.Pairwise (· ≤ ·)) {s e : Int} (hWindow : s ≤ e) :
    config.allowedIn s e ts * config.requested ≤ config.capacity + config.rate * (e - s) := by
  obtain ⟨hAnswers, -⟩ := executions_eq h ts none nofun hTimes hSorted
  have hBound := taken_window_le (c := config.exact) h.rate_pos.le h.requested_pos.le
    h.capacity_pos.le hWindow ts (b := none) nofun hSorted
  rw [← hAnswers, allowed, List.countP_map, mul_comm (e - s)] at hBound
  exact hBound

/-- **The bucket's bounds**, for arguments that fit a double. -/
theorem bucket_bounds (ts : List Int) (hTimes : ∀ t ∈ ts, IsSecond t)
    (hSorted : ts.Pairwise (· ≤ ·)) :
    (∀ config : BucketConfig, config.Fits →
      (∀ x ∈ config.executions none ts, 0 ≤ x.2.1.tokens ∧ x.2.1.tokens ≤ config.capacity) ∧
        ∀ s e, s ≤ e → config.allowedIn s e ts * config.requested ≤
          config.capacity + config.rate * (e - s)) ∧
      ∀ max duration : Int, 0 < max → 0 < duration → max * duration ≤ 2 ^ 53 → ∀ s,
        (handlerConfig max duration).allowedIn s (s + duration) ts ≤ 2 * max := by
  refine ⟨fun config h => ⟨?_, fun s e => allowedIn_mul_le h hTimes hSorted⟩, ?_⟩
  · exact (executions_eq h ts none nofun hTimes hSorted).2
  intro max duration hMax hDuration hSmall s
  have hBound := allowedIn_mul_le (handlerConfig_fits hMax hDuration hSmall) hTimes hSorted
    (by omega : s ≤ s + duration)
  rw [handlerConfig_capacity hMax hDuration hSmall, add_sub_cancel_left] at hBound
  refine le_of_mul_le_mul_right ?_ hDuration
  calc _ ≤ max * duration + max * duration := hBound
    _ = 2 * max * duration := by ring

/-- Five requests a minute, asked for within a second. -/
theorem bucket_bounds_minute :
    (handlerConfig 5 60).Fits ∧
      ((handlerConfig 5 60).allowedIn 0 60 [0, 0, 1, 1, 1, 1] : Int) ≤ 2 * 5 :=
  ⟨handlerConfig_fits (by decide) (by decide) (by decide),
    (bucket_bounds [0, 0, 1, 1, 1, 1] (by decide) (by decide)).2 5 60 (by decide) (by decide)
      (by decide) 0⟩

/-- **Beyond what a double holds** the bounds fail. -/
theorem bucket_bounds_rounded :
    (((⟨2 ^ 53 + 3, 1, 2 ^ 53 + 8⟩ : BucketConfig).executions none [0]).map fun x =>
        x.2.1.tokens) = [2 ^ 53 + 4] ∧
      (⟨2 ^ 53, 1, 2 ^ 53 + 1⟩ : BucketConfig).allowedIn 0 0 [0] = 1 := by
  decide +kernel

end NewApi.Limits
