import NewApi.Core.Admission
import NewApi.Limits.Bucket
import NewApi.Limits.Memory

/-!
# The limit on successful requests

`redisRateLimitHandler` keeps the times at which the last successful requests ended.  The queue of
`memoryRateLimitHandler` records what passes, failed requests included.
-/

namespace NewApi.Limits

open Core Core.Window Core.Admission List

structure ModelLimits extends TotalLimit where
  successMaxCount : Nat

structure Request where
  start : Go.Time
  finish : Go.Time
  success : Bool
  /-- The passes of the cleanup until it has been processed. -/
  cleanupsDuring : List Go.Time
  /-- The passes of the cleanup until the next request. -/
  cleanupsAfter : List Go.Time
  deriving DecidableEq

/-- The times of a request do not decrease. -/
def Request.InOrder (r : Request) : Prop :=
  (r.start :: r.cleanupsDuring ++ r.finish :: r.cleanupsAfter).Pairwise fun t u =>
    t.nanos ≤ u.nanos

def Request.Before (r q : Request) : Prop :=
  r.finish.nanos ≤ q.start.nanos ∧ ∀ t ∈ r.cleanupsAfter, t.nanos ≤ q.start.nanos

/-- Each request ends before the next one begins. -/
def InTurn (rs : List Request) : Prop := (∀ r ∈ rs, r.InOrder) ∧ rs.Pairwise Request.Before

instance (r : Request) : Decidable r.InOrder := inferInstanceAs (Decidable (List.Pairwise _ _))

instance (r q : Request) : Decidable (r.Before q) := inferInstanceAs (Decidable (_ ∧ _))

instance (rs : List Request) : Decidable (InTurn rs) := inferInstanceAs (Decidable (_ ∧ _))

/-! ## In memory -/

def successKey (userId : Int) : String := "MRRLS" ++ toString userId

def checkKey (userId : Int) : String := successKey userId ++ "_check"

theorem checkKey_ne_successKey (userId : Int) : checkKey userId ≠ successKey userId := by
  intro h
  have hLength := congrArg String.length h
  rw [checkKey, String.length_append] at hLength
  have hSuffix : "_check".length = 6 := rfl
  omega

namespace ModelLimits

variable (c : ModelLimits)

/-- `memoryRateLimitHandler` up to the processing of a request. -/
def memoryEnter (limiter : Option InMemoryRateLimiter) (now : Int) :
    InMemoryRateLimiter × Bool :=
  let l := InMemoryRateLimiter.init c.expirationDuration limiter
  let (l, ok) := c.check l now
  if !ok then (l, false)
  else l.request (checkKey c.userId) c.successMaxCount c.duration now

def memoryRecord (l : InMemoryRateLimiter) (success : Bool) (now : Int) : InMemoryRateLimiter :=
  if success then (l.request (successKey c.userId) c.successMaxCount c.duration now).1 else l

def cleared (l : InMemoryRateLimiter) (times : List Go.Time) : InMemoryRateLimiter :=
  times.foldl (fun l t => l.clearExpiredItems t.unix) l

def memoryRateLimitHandler (limiter : Option InMemoryRateLimiter) (r : Request) :
    InMemoryRateLimiter × Bool :=
  let (l, ok) := c.memoryEnter limiter r.start.unix
  let l := cleared l r.cleanupsDuring
  let l := if ok then c.memoryRecord l r.success r.finish.unix else l
  (cleared l r.cleanupsAfter, ok)

def memoryAnswers : Option InMemoryRateLimiter → List Request → List Bool
  | _, [] => []
  | l, r :: rs => (c.memoryRateLimitHandler l r).2 ::
      memoryAnswers (some (c.memoryRateLimitHandler l r).1) rs

end ModelLimits

/-! ## In Redis -/

def millis (t : Go.Time) : Int := t.nanos / 1000000

theorem millis_mono {t u : Go.Time} (h : t.nanos ≤ u.nanos) : millis t ≤ millis u :=
  Int.ediv_le_ediv (by decide) h

structure RedisList where
  times : List Int
  expireAt : Int

def seen (now : Int) : Option RedisList → List Int
  | none => []
  | some list => if now ≤ list.expireAt then list.times else []

structure RedisState where
  success : Option RedisList
  bucket : Option BucketHash

namespace ModelLimits

variable (c : ModelLimits)

/-- When a key expires that `Expire` is called for now: the configured minutes later. -/
def expireAt (now : Int) : Int := now + Go.duration c.minutes nanosPerMinute / 1000000

/-- `checkRedisRateLimit` for the limit on successful requests. -/
def checkRedisRateLimit (key : Option RedisList) (now : Int) : Option RedisList × Bool :=
  if c.successMaxCount = 0 then (key, true)
  else
    let times := seen now key
    if times.length < c.successMaxCount then (key, true)
    else
      match times.getLast? with
      | some oldTime =>
        if (now - oldTime).tdiv 1000 < c.duration then (some ⟨times, c.expireAt now⟩, false)
        else (key, true)
      -- no list of that length is empty
      | none => (key, false)

def recordRedisRequest (key : Option RedisList) (now : Int) : Option RedisList :=
  if c.successMaxCount = 0 then key
  else
    some ⟨(now :: seen now key).take c.successMaxCount, c.expireAt now⟩

def redisRateLimitHandler (s : RedisState) (r : Request) : RedisState × Bool :=
  let (success, ok) := c.checkRedisRateLimit s.success (millis r.start)
  if !ok then (⟨success, s.bucket⟩, false)
  else
    let (bucket, allowed) :=
      if 0 < c.totalMaxCount then
        let config := handlerConfig c.totalMaxCount c.duration
        let (b, allowed) := rateLimit config r.start.unix s.bucket
        (some b, allowed)
      else (s.bucket, true)
    -- there is no return after the abort, but the chain is aborted and the status is 429
    if !allowed then (⟨success, bucket⟩, false)
    else
      let success := if r.success then c.recordRedisRequest success (millis r.finish) else success
      (⟨success, bucket⟩, true)

def redisAnswers : RedisState → List Request → List Bool
  | _, [] => []
  | s, r :: rs => (c.redisRateLimitHandler s r).2 :: redisAnswers (c.redisRateLimitHandler s r).1 rs

/-! ## The two policies -/

def starts (log : List Request) : List Int := log.map fun r => r.start.unix

def successes (log : List Request) : List Int :=
  (log.filter fun r => r.success).map fun r => millis r.finish

def memoryAdmits (log : List Request) (r : Request) : Bool :=
  within (c.minutes * 60) r.start.unix (starts log) < max c.successMaxCount 1

/-- All if the limit is 0, and else while fewer than the limit succeeded within the window. -/
def redisAdmits (log : List Request) (r : Request) : Bool :=
  c.successMaxCount = 0 ∨
    within (c.minutes * 60 * 1000) (millis r.start) (successes log) < c.successMaxCount

def instant (second : Int) (success : Bool) : Request :=
  ⟨Go.unixTime second, Go.unixTime second, success, [], []⟩

variable {c} {l : InMemoryRateLimiter} {log : List Request} {r q : Request} {now : Int}

/-! ## What the handler in memory computes -/

/-- What the limiter knows about the requests that were let pass, at a time not after the next. -/
structure Knows (c : ModelLimits) (log : List Request) (now : Int) (l : InMemoryRateLimiter) :
    Prop where
  sorted : (starts log).Pairwise (· ≤ ·)
  past : ∀ t ∈ starts log, t ≤ now
  period : l.expirationDuration ≤ 0 ∨ c.duration ≤ l.seconds + 1
  remembers : Remembers (max c.successMaxCount 1) c.duration now (starts log)
    (l.store (checkKey c.userId))

theorem Knows.later (h : c.Knows log now l) {now' : Int} (hLater : now ≤ now') :
    c.Knows log now' l :=
  ⟨h.sorted, fun t ht => le_trans (h.past t ht) hLater, h.period, h.remembers.later hLater⟩

theorem Knows.cleared (h : c.Knows log now l) (times : List Go.Time) {now' : Int}
    (hLater : now ≤ now') (hTimes : ∀ t ∈ times, now ≤ t.unix ∧ t.unix ≤ now')
    (hOrder : times.Pairwise fun t u => t.nanos ≤ u.nanos) :
    c.Knows log now' (cleared l times) := by
  induction times generalizing l now with
  | nil => exact h.later hLater
  | cons t times ih =>
    obtain ⟨hHead, hTail⟩ := pairwise_cons.mp hOrder
    obtain ⟨hFrom, hUntil⟩ := hTimes t mem_cons_self
    have hKnows := h.later hFrom
    have hNext : c.Knows log t.unix (l.clearExpiredItems t.unix) := by
      refine ⟨hKnows.sorted, hKnows.past, ?_,
        Remembers.clear hKnows.sorted (by omega) hKnows.period hKnows.remembers⟩
      rw [InMemoryRateLimiter.seconds, l.clearExpiredItems_expirationDuration]
      exact hKnows.period
    refine ih hNext hUntil (fun u hu => ⟨unix_mono (hHead u hu), ?_⟩) hTail
    exact (hTimes u (mem_cons_of_mem _ hu)).2

theorem Knows.request_of_ne (h : c.Knows log now l) {key : String} (hKey : checkKey c.userId ≠ key)
    (n : Nat) (d t : Int) : c.Knows log now (l.request key n d t).1 := by
  refine ⟨h.sorted, h.past, ?_, ?_⟩
  · rw [InMemoryRateLimiter.seconds, l.request_expirationDuration]
    exact h.period
  · rw [l.request_store_of_ne _ _ _ hKey]
    exact h.remembers

section Memory

variable (hTotal : c.totalMaxCount = 0) (hMinutes : 0 < c.minutes)
  (hSmall : c.minutes * nanosPerMinute < 2 ^ 63)

include hMinutes hSmall in
theorem duration_eq_minutes : c.duration = c.minutes * 60 := by
  refine TotalLimit.duration_eq hMinutes ?_
  rw [nanosPerMinute, Go.nanosPerSecond] at hSmall
  omega

include hTotal in
theorem memoryEnter_eq (limiter : Option InMemoryRateLimiter) (now : Int) :
    c.memoryEnter limiter now =
      (InMemoryRateLimiter.init c.expirationDuration limiter).request (checkKey c.userId)
        c.successMaxCount c.duration now := by
  simp [memoryEnter, TotalLimit.check, hTotal]

include hMinutes hSmall in
theorem Knows.check (h : c.Knows log r.start.unix l) :
    (l.request (checkKey c.userId) c.successMaxCount c.duration r.start.unix).2 =
        c.memoryAdmits log r ∧
      c.Knows (next c.memoryAdmits log r) r.start.unix
        (l.request (checkKey c.userId) c.successMaxCount c.duration r.start.unix).1 := by
  obtain ⟨hPass, hAfter⟩ := request_spec h.sorted h.remembers
  have hAdmits : c.memoryAdmits log r = true ↔
      within c.duration r.start.unix (starts log) < max c.successMaxCount 1 := by
    rw [memoryAdmits, decide_eq_true_eq, duration_eq_minutes hMinutes hSmall]
  refine ⟨Bool.eq_iff_iff.mpr (hPass.trans hAdmits.symm), ?_⟩
  have hPeriod : (l.request (checkKey c.userId) c.successMaxCount c.duration
      r.start.unix).1.expirationDuration = l.expirationDuration := l.request_expirationDuration ..
  split at hAfter
  · next hFew =>
    rw [Admission.next, if_pos (hAdmits.mpr hFew)]
    have hStarts : starts (log ++ [r]) = starts log ++ [r.start.unix] := by
      rw [starts, map_append]
      rfl
    obtain ⟨hSorted, hPast⟩ := sorted_concat h.sorted h.past
    rw [← hStarts] at hSorted hPast
    refine ⟨hSorted, hPast, ?_, ?_⟩
    · rw [InMemoryRateLimiter.seconds, hPeriod]
      exact h.period
    · rw [hStarts]
      exact hAfter
  · next hFew =>
    rw [Admission.next, if_neg (fun hOk => hFew (hAdmits.mp hOk))]
    refine ⟨h.sorted, h.past, ?_, hAfter⟩
    rw [InMemoryRateLimiter.seconds, hPeriod]
    exact h.period

include hTotal hMinutes hSmall in
theorem Knows.handler {limiter : Option InMemoryRateLimiter}
    (h : c.Knows log r.start.unix (.init c.expirationDuration limiter)) (hOrder : r.InOrder) :
    (c.memoryRateLimitHandler limiter r).2 = c.memoryAdmits log r ∧
      ∀ q, r.Before q → c.Knows (next c.memoryAdmits log r) q.start.unix
        (c.memoryRateLimitHandler limiter r).1 := by
  obtain ⟨hAnswer, hChecked⟩ := h.check hMinutes hSmall
  rw [← memoryEnter_eq hTotal] at hAnswer hChecked
  refine ⟨hAnswer, fun q hBefore => ?_⟩
  rw [Request.InOrder, cons_append, pairwise_cons, pairwise_append, pairwise_cons] at hOrder
  obtain ⟨hStart, hDuring, ⟨hFinish, hAfter⟩, hEnd⟩ := hOrder
  have hProcessed : c.Knows (next c.memoryAdmits log r) r.finish.unix
      (ModelLimits.cleared (c.memoryEnter limiter r.start.unix).1 r.cleanupsDuring) := by
    refine hChecked.cleared r.cleanupsDuring ?_ (fun t ht => ⟨?_, ?_⟩) hDuring
    · exact unix_mono (hStart _ (by simp))
    · exact unix_mono (hStart t (by simp [ht]))
    · exact unix_mono (hEnd t ht _ mem_cons_self)
  have hRecorded : c.Knows (next c.memoryAdmits log r) r.finish.unix
      (if (c.memoryEnter limiter r.start.unix).2 then
        c.memoryRecord (ModelLimits.cleared (c.memoryEnter limiter r.start.unix).1
          r.cleanupsDuring) r.success r.finish.unix
      else ModelLimits.cleared (c.memoryEnter limiter r.start.unix).1 r.cleanupsDuring) := by
    split
    · unfold memoryRecord
      split
      · exact hProcessed.request_of_ne (checkKey_ne_successKey _) ..
      · exact hProcessed
    · exact hProcessed
  exact hRecorded.cleared r.cleanupsAfter (unix_mono hBefore.1)
    (fun t ht => ⟨unix_mono (hFinish t ht), unix_mono (hBefore.2 t ht)⟩) hAfter

include hTotal hMinutes hSmall in
theorem memoryAnswers_eq (rs : List Request) {limiter : Option InMemoryRateLimiter}
    (hTurn : InTurn rs)
    (h : ∀ r ∈ rs.head?, c.Knows log r.start.unix (.init c.expirationDuration limiter)) :
    c.memoryAnswers limiter rs = decisions c.memoryAdmits log rs := by
  have hSimulates : Simulates
      (fun l r => (some (c.memoryRateLimitHandler l r).1, (c.memoryRateLimitHandler l r).2))
      c.memoryAdmits Request.InOrder Request.Before
      fun log r l => c.Knows log r.start.unix (.init c.expirationDuration l) :=
    fun _ _ _ hOrder hKnows => hKnows.handler hTotal hMinutes hSmall hOrder
  exact hSimulates.answers_eq (fun _ => rfl) (fun _ _ _ => rfl) rs hTurn.1 hTurn.2 h

end Memory

/-! ## What the handler in Redis computes -/

def windowMillis (c : ModelLimits) : Int := c.minutes * 60 * 1000

/-- The list has the newest successes that still count, and does not expire before they do. -/
structure Lists (c : ModelLimits) (log : List Request) (now : Int) (key : Option RedisList) :
    Prop where
  sorted : (successes log).Pairwise (· ≤ ·)
  past : ∀ t ∈ successes log, t ≤ now
  lists : c.successMaxCount ≠ 0 → ∃ forgotten kept, successes log = forgotten ++ kept ∧
    (∀ t ∈ forgotten, t + c.windowMillis ≤ now) ∧
    match key with
    | none => kept = []
    | some list => list.times = (newest c.successMaxCount kept).reverse ∧
        ∀ t ∈ kept, t + c.windowMillis ≤ list.expireAt

variable {key : Option RedisList}

theorem Lists.later (h : c.Lists log now key) {now' : Int} (hLater : now ≤ now') :
    c.Lists log now' key := by
  refine ⟨h.sorted, fun t ht => le_trans (h.past t ht) hLater, fun hZero => ?_⟩
  obtain ⟨forgotten, kept, hLog, hOld, hKey⟩ := h.lists hZero
  exact ⟨forgotten, kept, hLog, fun t ht => le_trans (hOld t ht) hLater, hKey⟩

theorem Lists.seen_eq (h : c.Lists log now key) (hZero : c.successMaxCount ≠ 0) :
    ∃ forgotten kept, successes log = forgotten ++ kept ∧
      (∀ t ∈ forgotten, t + c.windowMillis ≤ now) ∧
      seen now key = (newest c.successMaxCount kept).reverse := by
  obtain ⟨forgotten, kept, hLog, hOld, hKey⟩ := h.lists hZero
  cases key with
  | none =>
    refine ⟨forgotten, kept, hLog, hOld, ?_⟩
    rw [show kept = [] from hKey, newest_of_length_le (Nat.zero_le _)]
    rfl
  | some list =>
    obtain ⟨hTimes, hExpire⟩ := hKey
    by_cases hLive : now ≤ list.expireAt
    · refine ⟨forgotten, kept, hLog, hOld, ?_⟩
      rw [seen, if_pos hLive, hTimes]
    -- an expired list held nothing that still counts
    refine ⟨forgotten ++ kept, [], by rw [append_nil, hLog], fun t ht => ?_, ?_⟩
    · rcases mem_append.mp ht with ht | ht
      · exact hOld t ht
      · have := hExpire t ht
        omega
    · rw [seen, if_neg hLive, newest_of_length_le (Nat.zero_le _)]
      rfl

section Redis

variable (hTotal : c.totalMaxCount = 0) (hMinutes : 0 < c.minutes)
  (hSmall : c.minutes * nanosPerMinute < 2 ^ 63)

include hMinutes hSmall in
theorem expireAt_eq (now : Int) : c.expireAt now = now + c.windowMillis := by
  rw [nanosPerMinute, Go.nanosPerSecond] at hSmall
  rw [expireAt, windowMillis, Go.duration, nanosPerMinute, Go.nanosPerSecond, Go.int64,
    Int.bmod_eq_of_le] <;> omega

include hMinutes hSmall in
theorem Lists.check (h : c.Lists log (millis r.start) key) :
    (c.checkRedisRateLimit key (millis r.start)).2 = c.redisAdmits log r ∧
      c.Lists log (millis r.start) (c.checkRedisRateLimit key (millis r.start)).1 := by
  by_cases hZero : c.successMaxCount = 0
  · simp only [checkRedisRateLimit, redisAdmits, hZero, if_true, true_or, decide_true, true_and]
    exact h
  obtain ⟨forgotten, kept, hLog, hOld, hSeen⟩ := h.seen_eq hZero
  have hKept : kept.Pairwise (· ≤ ·) := (pairwise_append.mp (hLog ▸ h.sorted)).2.1
  have hPast : ∀ t ∈ kept, t ≤ millis r.start := fun t ht =>
    h.past t (by rw [hLog]; exact mem_append_right _ ht)
  have hWithin : within c.windowMillis (millis r.start) (successes log) =
      within c.windowMillis (millis r.start) kept := by
    rw [hLog, within_append, within_eq_zero hOld, Nat.zero_add]
  have hRecent : c.successMaxCount ≤ within c.windowMillis (millis r.start) kept ↔ _ :=
    within_ge_iff hKept (Nat.pos_of_ne_zero hZero)
  have hAdmits : c.redisAdmits log r =
      decide (within c.windowMillis (millis r.start) kept < c.successMaxCount) := by
    rw [redisAdmits, ← hWithin, windowMillis]
    simp [hZero]
  have hRefreshed : c.Lists log (millis r.start)
      (some ⟨seen (millis r.start) key, c.expireAt (millis r.start)⟩) := by
    refine ⟨h.sorted, h.past, fun _ => ⟨forgotten, kept, hLog, hOld, hSeen, fun t ht => ?_⟩⟩
    rw [expireAt_eq hMinutes hSmall]
    exact Int.add_le_add_right (hPast t ht) _
  have hLength : (seen (millis r.start) key).length = (newest c.successMaxCount kept).length := by
    rw [hSeen, length_reverse]
  have hLast : (seen (millis r.start) key).getLast? = (newest c.successMaxCount kept).head? := by
    rw [hSeen, getLast?_reverse]
  rw [checkRedisRateLimit, if_neg hZero, hAdmits]
  by_cases hRoom : (seen (millis r.start) key).length < c.successMaxCount
  · simp only [if_pos hRoom]
    exact ⟨(decide_eq_true (by omega)).symm, h⟩
  simp only [if_neg hRoom]
  cases hOldest : (newest c.successMaxCount kept).head? with
  | none =>
    rw [head?_eq_none_iff.mp hOldest, length_nil] at hLength
    omega
  | some oldTime =>
    rw [hOldest] at hRecent
    simp only [hLast, hOldest, Option.some_inj, forall_eq'] at hRecent ⊢
    have hMem : oldTime ∈ newest c.successMaxCount kept := mem_of_head? hOldest
    have hBefore := hPast oldTime (mem_of_mem_drop hMem)
    -- whole seconds since the oldest of them, against the window
    have hSeconds : (millis r.start - oldTime).tdiv 1000 < c.duration ↔
        millis r.start < oldTime + c.windowMillis := by
      rw [duration_eq_minutes hMinutes hSmall, windowMillis, Int.tdiv_eq_ediv_of_nonneg (by omega)]
      omega
    by_cases hIn : millis r.start < oldTime + c.windowMillis
    · rw [if_pos (hSeconds.mpr hIn)]
      exact ⟨(decide_eq_false (by omega)).symm, hRefreshed⟩
    · rw [if_neg (fun hLt => hIn (hSeconds.mp hLt))]
      exact ⟨(decide_eq_true (by omega)).symm, h⟩

theorem successes_concat (log : List Request) (r : Request) :
    successes (log ++ [r]) = successes log ++ if r.success then [millis r.finish] else [] := by
  cases hSuccess : r.success <;> simp [successes, hSuccess]

include hMinutes hSmall in
theorem Lists.record (h : c.Lists log (millis r.finish) key) :
    c.Lists (log ++ [r]) (millis r.finish)
      (if r.success then c.recordRedisRequest key (millis r.finish) else key) := by
  cases hSuccess : r.success with
  | false =>
    have hSame : successes (log ++ [r]) = successes log := by
      rw [successes_concat, hSuccess, if_neg (by simp), append_nil]
    exact ⟨hSame ▸ h.sorted, hSame ▸ h.past, hSame ▸ h.lists⟩
  | true =>
    have hMore : successes (log ++ [r]) = successes log ++ [millis r.finish] := by
      rw [successes_concat, hSuccess, if_pos rfl]
    obtain ⟨hSorted, hPast⟩ := sorted_concat h.sorted h.past
    rw [← hMore] at hSorted hPast
    refine ⟨hSorted, hPast, fun hZero => ?_⟩
    obtain ⟨forgotten, kept, hLog, hOld, hSeen⟩ := h.seen_eq hZero
    rw [if_pos rfl, recordRedisRequest, if_neg hZero]
    refine ⟨forgotten, kept ++ [millis r.finish], ?_, hOld, ?_, fun t ht => ?_⟩
    · rw [hMore, hLog, append_assoc]
    · rw [hSeen, reverse_newest_concat]
    rw [expireAt_eq hMinutes hSmall]
    refine Int.add_le_add_right (hPast t ?_) _
    rw [hMore, hLog, append_assoc]
    exact mem_append_right _ ht

include hTotal hMinutes hSmall in
theorem Lists.handler {s : RedisState} (h : c.Lists log (millis r.start) s.success)
    (hOrder : r.InOrder) :
    (c.redisRateLimitHandler s r).2 = c.redisAdmits log r ∧
      ∀ q, r.Before q → c.Lists (next c.redisAdmits log r) (millis q.start)
        (c.redisRateLimitHandler s r).1.success := by
  obtain ⟨hAnswer, hChecked⟩ := h.check hMinutes hSmall
  have hFinish : r.start.nanos ≤ r.finish.nanos := by
    rw [Request.InOrder, cons_append, pairwise_cons] at hOrder
    exact hOrder.1 r.finish (by simp)
  rw [redisRateLimitHandler, hTotal]
  cases hOk : c.redisAdmits log r with rw [hOk] at hAnswer
  | false =>
    simp only [hAnswer, Admission.next, hOk]
    refine ⟨rfl, fun q hBefore => hChecked.later (millis_mono ?_)⟩
    exact le_trans hFinish hBefore.1
  | true =>
    simp only [hAnswer, Admission.next, hOk]
    refine ⟨rfl, fun q hBefore => ?_⟩
    exact ((hChecked.later (millis_mono hFinish)).record hMinutes hSmall).later
      (millis_mono hBefore.1)

include hTotal hMinutes hSmall in
/-- **What the handler in Redis computes**: it counts the successful ones by their end. -/
theorem redisAnswers_eq (rs : List Request) {s : RedisState} (hTurn : InTurn rs)
    (h : ∀ r ∈ rs.head?, c.Lists log (millis r.start) s.success) :
    c.redisAnswers s rs = decisions c.redisAdmits log rs := by
  have hSimulates : Simulates c.redisRateLimitHandler c.redisAdmits Request.InOrder Request.Before
      fun log r s => c.Lists log (millis r.start) s.success :=
    fun _ _ _ hOrder hLists => hLists.handler hTotal hMinutes hSmall hOrder
  exact hSimulates.answers_eq (fun _ => rfl) (fun _ _ _ => rfl) rs hTurn.1 hTurn.2 h

end Redis

/-! ## When the handlers agree -/

def twice : ModelLimits := ⟨⟨7, 1, 0⟩, 2⟩

def once : ModelLimits := ⟨⟨7, 1, 0⟩, 1⟩

def unlimited : ModelLimits := ⟨⟨7, 1, 0⟩, 0⟩

end ModelLimits

end NewApi.Limits
