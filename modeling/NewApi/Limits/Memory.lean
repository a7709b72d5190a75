import NewApi.Core.Run
import NewApi.Core.Window
import NewApi.Go.Time

/-!
# The limiter in memory

Without Redis all rate limits share one `InMemoryRateLimiter`. The first call of `Init` decides how
long an unused key is kept by `clearExpiredItems`. Times are read in whole Unix seconds.
-/

namespace NewApi.Limits

open Core Core.Window List Option

structure InMemoryRateLimiter where
  store : String → Option (List Int)
  /-- In nanoseconds. -/
  expirationDuration : Int

namespace InMemoryRateLimiter

/-- `Init`, on a limiter without a store or on one that has been set up before. -/
def init (expirationDuration : Int) : Option InMemoryRateLimiter → InMemoryRateLimiter
  | none => ⟨fun _ => none, expirationDuration⟩
  | some l => l

def seconds (l : InMemoryRateLimiter) : Int := l.expirationDuration / Go.nanosPerSecond

def expired (l : InMemoryRateLimiter) (now : Int) (queue : List Int) : Bool :=
  match queue.getLast? with
  | none => true
  | some last => now - last > l.seconds

/-- One pass of the cleanup.  It is only started for a positive period. -/
def clearExpiredItems (l : InMemoryRateLimiter) (now : Int) : InMemoryRateLimiter :=
  if 0 < l.expirationDuration then
    { l with store := fun key => (l.store key).filter fun queue => !l.expired now queue }
  else l

def put (l : InMemoryRateLimiter) (key : String) (queue : List Int) : InMemoryRateLimiter :=
  { l with store := Function.update l.store key (some queue) }

def request (l : InMemoryRateLimiter) (key : String) (maxRequestNum : Nat) (duration now : Int) :
    InMemoryRateLimiter × Bool :=
  match l.store key with
  | some queue =>
    if queue.length < maxRequestNum then (l.put key (queue ++ [now]), true)
    else
      match queue with
      | oldest :: rest =>
        if now - oldest ≥ duration then (l.put key (rest ++ [now]), true) else (l, false)
      -- an empty queue is never stored
      | [] => (l, false)
  | none => (l.put key [now], true)

section

variable (l : InMemoryRateLimiter)
include l

@[simp] theorem put_store_self (key : String) (queue : List Int) :
    (l.put key queue).store key = some queue := Function.update_self ..

theorem request_cases (key : String) (n : Nat) (d now : Int) :
    l.request key n d now = (l, false) ∨
      ∃ queue, l.request key n d now = (l.put key queue, true) := by
  unfold request
  split
  · split
    · exact .inr ⟨_, rfl⟩
    split
    · split
      · exact .inr ⟨_, rfl⟩
      · exact .inl rfl
    · exact .inl rfl
  · exact .inr ⟨_, rfl⟩

theorem request_store_of_ne {key key' : String} (n : Nat) (d now : Int) (h : key' ≠ key) :
    (l.request key n d now).1.store key' = l.store key' := by
  rcases l.request_cases key n d now with hSame | ⟨queue, hPut⟩
  · rw [hSame]
  · rw [hPut]
    exact Function.update_of_ne h ..

theorem request_expirationDuration (key : String) (n : Nat) (d now : Int) :
    (l.request key n d now).1.expirationDuration = l.expirationDuration := by
  rcases l.request_cases key n d now with hSame | ⟨queue, hPut⟩
  · rw [hSame]
  · rw [hPut]
    rfl

theorem clearExpiredItems_expirationDuration (now : Int) :
    (l.clearExpiredItems now).expirationDuration = l.expirationDuration := by
  unfold clearExpiredItems
  split <;> rfl

end

end InMemoryRateLimiter

/-! ## What a queue remembers -/

/-- What the limiter stores for a key of limit `m` when these times are left of it. -/
def stored (m : Nat) (kept : List Int) : Option (List Int) :=
  if kept = [] then none else some (newest m kept)

/-- The queue has the newest of the times that passed, apart from some that no longer count. -/
def Remembers (m : Nat) (d now : Int) (passed : List Int) (queue : Option (List Int)) : Prop :=
  ∃ forgotten kept, passed = forgotten ++ kept ∧ (∀ t ∈ forgotten, t + d ≤ now) ∧
    queue = stored m kept

theorem Remembers.nil (m : Nat) (d now : Int) : Remembers m d now [] none :=
  ⟨[], [], rfl, forall_mem_nil _, rfl⟩

theorem Remembers.later {m : Nat} {d now now' : Int} {passed : List Int}
    {queue : Option (List Int)} (h : Remembers m d now passed queue) (hLater : now ≤ now') :
    Remembers m d now' passed queue := by
  obtain ⟨forgotten, kept, hPassed, hOld, hQueue⟩ := h
  refine ⟨forgotten, kept, hPassed, fun t ht => ?_, hQueue⟩
  have := hOld t ht
  omega

section Request

variable {l : InMemoryRateLimiter} {key : String} {n : Nat} {d now : Int} {kept : List Int}

theorem request_of_stored (hSorted : kept.Pairwise (· ≤ ·))
    (hQueue : l.store key = stored (max n 1) kept) :
    l.request key n d now =
      if within d now kept < max n 1 then (l.put key (newest (max n 1) (kept ++ [now])), true)
      else (l, false) := by
  have hm : 0 < max n 1 := by omega
  have hRecent : max n 1 ≤ within d now kept ↔ _ := within_ge_iff hSorted hm
  by_cases hKept : kept = []
  · subst hKept
    rw [if_pos (by rw [within_nil]; omega), nil_append,
      newest_of_length_le (by rw [length_singleton]; omega)]
    simp only [InMemoryRateLimiter.request, hQueue, stored, if_pos]
  have hLength := length_newest (max n 1) kept
  have hPos := length_pos_iff.mpr hKept
  rw [newest_concat hm]
  cases hNewest : newest (max n 1) kept with
  | nil =>
    rw [hNewest, length_nil] at hLength
    omega
  | cons oldest rest =>
    rw [hNewest] at hRecent hLength
    simp only [head?_cons, some_inj, forall_eq'] at hRecent
    simp only [InMemoryRateLimiter.request, hQueue, stored, if_neg hKept, hNewest]
    by_cases hRoom : (oldest :: rest).length < max n 1
    · have hRoom' : (oldest :: rest).length < n := by
        omega
      rw [if_pos hRoom', if_pos (by omega), if_pos hRoom]
    rw [if_neg (by omega), if_neg hRoom, tail_cons]
    split
    · rw [if_pos (by omega)]
    · rw [if_neg (by omega)]

end Request

/-- **One call** passes exactly if fewer than the limit are recent, and is then remembered. -/
theorem request_spec {l : InMemoryRateLimiter} {key : String} {n : Nat} {d now : Int}
    {passed : List Int} (hSorted : passed.Pairwise (· ≤ ·))
    (h : Remembers (max n 1) d now passed (l.store key)) :
    ((l.request key n d now).2 = true ↔ within d now passed < max n 1) ∧
      Remembers (max n 1) d now
        (if within d now passed < max n 1 then passed ++ [now] else passed)
        ((l.request key n d now).1.store key) := by
  obtain ⟨forgotten, kept, rfl, hOld, hQueue⟩ := h
  have hKept : kept.Pairwise (· ≤ ·) := (pairwise_append.mp hSorted).2.1
  have hSame : within d now (forgotten ++ kept) = within d now kept := by
    rw [within_append, within_eq_zero hOld, Nat.zero_add]
  rw [hSame, request_of_stored hKept hQueue]
  by_cases hFew : within d now kept < max n 1
  · rw [if_pos hFew, if_pos hFew]
    refine ⟨iff_of_true rfl hFew, forgotten, kept ++ [now], append_assoc .., hOld, ?_⟩
    rw [InMemoryRateLimiter.put_store_self, stored, if_neg (by simp)]
  · rw [if_neg hFew, if_neg hFew]
    exact ⟨iff_of_false (by simp) hFew, forgotten, kept, rfl, hOld, hQueue⟩

/-- **The cleanup is harmless** if a key is kept for as long as its times count. -/
theorem Remembers.clear {l : InMemoryRateLimiter} {key : String} {m : Nat} {d now : Int}
    {passed : List Int} (hSorted : passed.Pairwise (· ≤ ·)) (hm : 0 < m)
    (hPeriod : l.expirationDuration ≤ 0 ∨ d ≤ l.seconds + 1)
    (h : Remembers m d now passed (l.store key)) :
    Remembers m d now passed ((l.clearExpiredItems now).store key) := by
  unfold InMemoryRateLimiter.clearExpiredItems
  split
  case isFalse => exact h
  case isTrue hPos =>
    obtain ⟨forgotten, kept, rfl, hOld, hQueue⟩ := h
    rcases eq_nil_or_concat kept with rfl | ⟨kept, last, rfl⟩
    · exact ⟨forgotten, [], rfl, hOld, by simp [hQueue, stored]⟩
    rw [concat_eq_append] at hSorted hQueue ⊢
    have hNe : kept ++ [last] ≠ [] := by simp
    rw [stored, if_neg hNe] at hQueue
    have hLast : (newest m (kept ++ [last])).getLast? = some last := by
      rw [newest_concat hm, getLast?_concat]
    simp only [hQueue, filter_some, InMemoryRateLimiter.expired, hLast]
    by_cases hExpired : now - last > l.seconds
    · -- the last time is out of the window, and so are all before it
      refine ⟨forgotten ++ (kept ++ [last]), [], (append_nil _).symm, fun t ht => ?_,
        by simp [hExpired, stored]⟩
      have hLe : t ≤ last := by
        rw [← append_assoc] at ht hSorted
        rcases mem_append.mp ht with ht | ht
        · exact (pairwise_append.mp hSorted).2.2 t ht last mem_cons_self
        · rw [mem_singleton.mp ht]
      omega
    · exact ⟨forgotten, kept ++ [last], rfl, hOld, by simp [hExpired, stored]⟩

/-! ## The total limit of a user -/

structure TotalLimit where
  userId : Int
  /-- `ModelRequestRateLimitDurationMinutes`. -/
  minutes : Int
  totalMaxCount : Nat

def totalKey (userId : Int) : String := "MRRL" ++ toString userId

def windowSeconds (minutes : Int) : Int := Go.int64 (minutes * 60)

def nanosPerMinute : Int := 60 * Go.nanosPerSecond

def rateLimitKeyExpirationDuration : Int := Go.duration 20 nanosPerMinute

namespace TotalLimit

/-- What `memoryRateLimitHandler` passes to `Init`. -/
def expirationDuration (c : TotalLimit) : Int := Go.duration c.minutes nanosPerMinute

def duration (c : TotalLimit) : Int := windowSeconds c.minutes

def check (c : TotalLimit) (l : InMemoryRateLimiter) (now : Int) : InMemoryRateLimiter × Bool :=
  if 0 < c.totalMaxCount then l.request (totalKey c.userId) c.totalMaxCount c.duration now
  else (l, true)

end TotalLimit

inductive LimiterAct where
  /-- Another middleware calls `Init`. -/
  | init (expirationDuration : Int)
  /-- A request of the user reaches the total check of `memoryRateLimitHandler`. -/
  | total
  /-- Any other call of `Request`. -/
  | request (key : String) (maxRequestNum : Nat) (duration : Int)
  | clearExpiredItems

structure LimiterState where
  limiter : Option InMemoryRateLimiter
  /-- When requests of the user passed the total check, oldest first. -/
  passed : List Go.Time

namespace TotalLimit

variable (c : TotalLimit)

def step (s : LimiterState) (event : Go.Time × LimiterAct) : LimiterState :=
  match event.2 with
  | .init expirationDuration => { s with limiter := some (.init expirationDuration s.limiter) }
  | .total =>
    let (l, ok) := c.check (.init c.expirationDuration s.limiter) event.1.unix
    ⟨some l, if ok then s.passed ++ [event.1] else s.passed⟩
  -- a call before `Init` writes to a nil map and panics
  | .request key n d =>
    { s with limiter := s.limiter.map fun l => (l.request key n d event.1.unix).1 }
  | .clearExpiredItems =>
    { s with limiter := s.limiter.map fun l => l.clearExpiredItems event.1.unix }

def passed (events : List (Go.Time × LimiterAct)) : List Go.Time :=
  (events.foldl c.step ⟨none, []⟩).passed

def initOf : LimiterAct → Option Int
  | .init expirationDuration => some expirationDuration
  | .total => some c.expirationDuration
  | .request .. => none
  | .clearExpiredItems => none

def firstInit (events : List (Go.Time × LimiterAct)) : Option Int :=
  events.findSome? fun event => c.initOf event.2

/-- Nobody else uses the key of the user's total. -/
def KeyIsOwn (events : List (Go.Time × LimiterAct)) : Prop :=
  ∀ event ∈ events, ∀ key n d, event.2 = .request key n d → key ≠ totalKey c.userId

end TotalLimit

def InOrder (events : List (Go.Time × LimiterAct)) : Prop :=
  events.Pairwise fun e f => e.1.nanos ≤ f.1.nanos

/-- How many of the times are in the window of so many clock seconds from `start` on. -/
def inWindow (start seconds : Int) (times : List Go.Time) : Nat :=
  times.countP fun t => start ≤ t.unix ∧ t.unix < start + seconds

theorem inWindow_eq (start seconds : Int) (times : List Go.Time) :
    inWindow start seconds times =
      (times.map Go.Time.unix).countP fun t => start ≤ t ∧ t < start + seconds := by
  rw [countP_map]
  rfl

theorem unix_mono {t u : Go.Time} (h : t.nanos ≤ u.nanos) : t.unix ≤ u.unix :=
  Int.ediv_le_ediv (by decide) h

namespace TotalLimit

variable {c : TotalLimit}

/-- The state of a limiter whose period is harmless, at a time not after the next event. -/
structure Sound (c : TotalLimit) (E now : Int) (s : LimiterState) : Prop where
  sorted : (s.passed.map Go.Time.unix).Pairwise (· ≤ ·)
  past : ∀ t ∈ s.passed, t.unix ≤ now
  spaced : Spaced c.totalMaxCount c.duration (s.passed.map Go.Time.unix)
  unset : s.limiter = none → s.passed = []
  period : ∀ l, s.limiter = some l → l.expirationDuration = E
  remembers : ∀ l, s.limiter = some l → Remembers c.totalMaxCount c.duration now
    (s.passed.map Go.Time.unix) (l.store (totalKey c.userId))

variable {E now : Int} {s : LimiterState} {event : Go.Time × LimiterAct}

section

variable (h : c.Sound E now s)
include h

theorem Sound.with_limiter {now' : Int} (hNow : now ≤ now') {l' : InMemoryRateLimiter}
    (hPeriod : l'.expirationDuration = E)
    (hRemembers : Remembers c.totalMaxCount c.duration now' (s.passed.map Go.Time.unix)
      (l'.store (totalKey c.userId))) :
    c.Sound E now' ⟨some l', s.passed⟩ where
  sorted := h.sorted
  past t ht := le_trans (h.past t ht) hNow
  spaced := h.spaced
  unset := nofun
  period l hl := by rwa [← Option.some.inj hl]
  remembers l hl := by rwa [← Option.some.inj hl]

theorem Sound.without_limiter {now' : Int} (hNow : now ≤ now') (hLimiter : s.limiter = none) :
    c.Sound E now' ⟨none, s.passed⟩ where
  sorted := h.sorted
  past t ht := le_trans (h.past t ht) hNow
  spaced := h.spaced
  unset _ := h.unset hLimiter
  period := nofun
  remembers := nofun

theorem Sound.init {now' d : Int} (hNow : now ≤ now') (hE : s.limiter = none → d = E) :
    c.Sound E now' ⟨some (.init d s.limiter), s.passed⟩ := by
  cases hLimiter : s.limiter with
  | none =>
    refine h.with_limiter hNow (hE hLimiter) ?_
    rw [h.unset hLimiter]
    exact Remembers.nil ..
  | some l =>
    exact h.with_limiter hNow (h.period l hLimiter) ((h.remembers l hLimiter).later hNow)

theorem Sound.total (hMax : 0 < c.totalMaxCount) {l : InMemoryRateLimiter}
    (hLimiter : s.limiter = some l) {t : Go.Time} (ht : now ≤ t.unix) :
    c.Sound E t.unix ⟨some (c.check l t.unix).1,
      if (c.check l t.unix).2 then s.passed ++ [t] else s.passed⟩ := by
  have hm : max c.totalMaxCount 1 = c.totalMaxCount := by omega
  have hRemembers := (h.remembers l hLimiter).later ht
  rw [← hm] at hRemembers
  obtain ⟨hPass, hAfter⟩ := request_spec h.sorted hRemembers
  have hPeriod := (l.request_expirationDuration (totalKey c.userId) c.totalMaxCount c.duration
    t.unix).trans (h.period l hLimiter)
  rw [check, if_pos hMax]
  rw [hm] at hPass hAfter
  by_cases hFew : within c.duration t.unix (s.passed.map Go.Time.unix) < c.totalMaxCount
  · rw [if_pos (hPass.mpr hFew)]
    rw [if_pos hFew, ← map_singleton, ← map_append] at hAfter
    obtain ⟨hSorted, hPast⟩ := sorted_concat h.sorted fun u hu => by
      obtain ⟨v, hv, rfl⟩ := mem_map.mp hu
      exact le_trans (h.past v hv) ht
    have hMap : s.passed.map Go.Time.unix ++ [t.unix] = (s.passed ++ [t]).map Go.Time.unix := by
      rw [map_append, map_singleton]
    rw [hMap] at hSorted hPast
    refine ⟨hSorted, fun u hu => hPast _ (mem_map_of_mem hu), ?_, nofun, ?_, ?_⟩
    · rw [← hMap]
      exact h.spaced.concat hFew
    · exact fun l' hl' => by rwa [← some.inj hl']
    · exact fun l' hl' => by rwa [← some.inj hl']
  · rw [if_neg (fun hOk => hFew (hPass.mp hOk))]
    rw [if_neg hFew] at hAfter
    exact h.with_limiter ht hPeriod hAfter

theorem Sound.step (hMax : 0 < c.totalMaxCount)
    (hE : E ≤ 0 ∨ c.duration ≤ E / Go.nanosPerSecond + 1) (hNow : now ≤ event.1.unix)
    (hInit : s.limiter = none → ∀ d, c.initOf event.2 = some d → d = E)
    (hOwn : ∀ key n d, event.2 = .request key n d → key ≠ totalKey c.userId) :
    c.Sound E event.1.unix (c.step s event) := by
  obtain ⟨t, act⟩ := event
  cases act with
  | init d => exact h.init hNow fun hNone => hInit hNone d rfl
  | total =>
    have hSet := h.init (d := c.expirationDuration) le_rfl fun hNone => hInit hNone _ rfl
    exact hSet.total hMax rfl hNow
  | request key n d =>
    cases hLimiter : s.limiter with simp only [TotalLimit.step, hLimiter]
    | none => exact h.without_limiter hNow hLimiter
    | some l =>
      refine h.with_limiter hNow ?_ ?_
      · rw [l.request_expirationDuration, h.period l hLimiter]
      · rw [l.request_store_of_ne _ _ _ (hOwn key n d rfl).symm]
        exact (h.remembers l hLimiter).later hNow
  | clearExpiredItems =>
    cases hLimiter : s.limiter with simp only [TotalLimit.step, hLimiter]
    | none => exact h.without_limiter hNow hLimiter
    | some l =>
      refine h.with_limiter hNow ?_ ?_
      · rw [l.clearExpiredItems_expirationDuration, h.period l hLimiter]
      · refine Remembers.clear h.sorted hMax ?_ ((h.remembers l hLimiter).later hNow)
        rw [InMemoryRateLimiter.seconds, h.period l hLimiter]
        exact hE

end

theorem limiter_step (c : TotalLimit) (s : LimiterState) (event : Go.Time × LimiterAct) :
    (c.step s event).limiter.map (·.expirationDuration) =
      (s.limiter.map (·.expirationDuration)).or (c.initOf event.2) := by
  obtain ⟨t, act⟩ := event
  cases act with
  | init d =>
    simp only [TotalLimit.step]
    cases s.limiter <;> rfl
  | total =>
    have hCheck : ∀ l, (c.check l t.unix).1.expirationDuration = l.expirationDuration := by
      intro l
      unfold check
      split
      · exact l.request_expirationDuration ..
      · rfl
    simp only [TotalLimit.step, map_some, hCheck]
    cases s.limiter <;> rfl
  | request key n d =>
    cases hLimiter : s.limiter with
    | none => simp [TotalLimit.step, hLimiter, initOf]
    | some l => simp [TotalLimit.step, hLimiter, l.request_expirationDuration]
  | clearExpiredItems =>
    cases hLimiter : s.limiter with
    | none => simp [TotalLimit.step, hLimiter, initOf]
    | some l => simp [TotalLimit.step, hLimiter, l.clearExpiredItems_expirationDuration]

theorem Sound.run (hMax : 0 < c.totalMaxCount)
    (hE : E ≤ 0 ∨ c.duration ≤ E / Go.nanosPerSecond + 1) (events : List (Go.Time × LimiterAct))
    (h : c.Sound E now s) (hOrder : InOrder events) (hNow : ∀ e ∈ events, now ≤ e.1.unix)
    (hOwn : c.KeyIsOwn events)
    (hFirst : (s.limiter.map (·.expirationDuration)).or (c.firstInit events) = some E) :
    ∃ now', c.Sound E now' (events.foldl c.step s) := by
  induction events generalizing s now with
  | nil => exact ⟨now, h⟩
  | cons event events ih =>
    obtain ⟨hHead, hTail⟩ := pairwise_cons.mp hOrder
    have hNext : c.Sound E event.1.unix (c.step s event) := by
      refine h.step hMax hE (hNow event mem_cons_self) ?_ (hOwn event mem_cons_self)
      intro hNone d hd
      rw [hNone, map_none, firstInit, findSome?_cons, hd] at hFirst
      exact some.inj hFirst
    refine ih hNext hTail (fun e he => unix_mono (hHead e he)) ?_ ?_
    · exact fun e he => hOwn e (mem_cons_of_mem _ he)
    · rw [limiter_step, Option.or_assoc, ← hFirst, firstInit, firstInit, findSome?_cons]
      cases c.initOf event.2 <;> rfl

theorem total_replicate (hD : 0 < c.duration) (l : InMemoryRateLimiter) {t : Go.Time}
    (hNew : l.store (totalKey c.userId) = none) :
    ∀ k ≤ c.totalMaxCount, ∃ l', l'.expirationDuration = l.expirationDuration ∧
      l'.store (totalKey c.userId) = stored c.totalMaxCount (List.replicate k t.unix) ∧
      (List.replicate k (t, LimiterAct.total)).foldl c.step ⟨some l, []⟩ =
        ⟨some l', List.replicate k t⟩ := by
  intro k hk
  induction k with
  | zero => exact ⟨l, rfl, hNew, rfl⟩
  | succ k ih =>
    obtain ⟨l', hPeriod, hQueue, hRun⟩ := ih (by omega)
    have hm : max c.totalMaxCount 1 = c.totalMaxCount := by omega
    have hFew : within c.duration t.unix (replicate k t.unix) < max c.totalMaxCount 1 := by
      rw [within_eq_length, length_replicate]
      · omega
      · intro u hu
        rw [eq_of_mem_replicate hu]
        omega
    have hSorted : (replicate k t.unix).Pairwise (· ≤ ·) :=
      pairwise_replicate.mpr (.inr le_rfl)
    rw [← hm] at hQueue
    have hCheck : l'.request _ _ c.duration t.unix = _ := request_of_stored hSorted hQueue
    rw [if_pos hFew, hm] at hCheck
    refine ⟨l'.put (totalKey c.userId) (newest c.totalMaxCount (replicate (k + 1) t.unix)),
      hPeriod, ?_, ?_⟩
    · rw [InMemoryRateLimiter.put_store_self, stored, if_neg (by simp)]
    rw [replicate_succ', foldl_append, hRun, foldl_cons, foldl_nil]
    have hMax : 0 < c.totalMaxCount := by omega
    simp only [TotalLimit.step, InMemoryRateLimiter.init, check, if_pos hMax, hCheck, if_true,
      ← replicate_succ']

def forgetting (c : TotalLimit) (E : Int) : List (Go.Time × LimiterAct) :=
  let later := Go.unixTime (E / Go.nanosPerSecond + 1)
  (Go.unixTime 0, .init E) :: List.replicate c.totalMaxCount (Go.unixTime 0, .total) ++
    [(later, .clearExpiredItems), (later, .total)]

theorem unix_unixTime (sec : Int) : (Go.unixTime sec).unix = sec :=
  Int.mul_ediv_cancel sec (by decide)

theorem passed_forgetting (hMax : 0 < c.totalMaxCount) (hD : 0 < c.duration) (hE : 0 < E) :
    c.passed (c.forgetting E) = List.replicate c.totalMaxCount (Go.unixTime 0) ++
      [Go.unixTime (E / Go.nanosPerSecond + 1)] := by
  obtain ⟨l, hPeriod, hQueue, hRun⟩ := total_replicate hD (.init E none) (t := Go.unixTime 0)
    rfl c.totalMaxCount le_rfl
  have hStart : c.step ⟨none, []⟩ (Go.unixTime 0, .init E) = ⟨some (.init E none), []⟩ := rfl
  have hGone : (l.clearExpiredItems (E / Go.nanosPerSecond + 1)).store (totalKey c.userId) =
      none := by
    obtain ⟨k, hk⟩ := Nat.exists_eq_add_of_lt hMax
    have hLast : (newest c.totalMaxCount (replicate c.totalMaxCount (0 : Int))).getLast? =
        some 0 := by
      rw [hk, replicate_succ', newest_concat (by omega), getLast?_concat]
    rw [unix_unixTime, stored, if_neg (by simp; omega)] at hQueue
    rw [InMemoryRateLimiter.clearExpiredItems, if_pos (by rw [hPeriod]; exact hE)]
    have hSeconds : l.seconds = E / Go.nanosPerSecond := by
      rw [InMemoryRateLimiter.seconds, hPeriod]
      rfl
    simp only [hQueue, filter_some, InMemoryRateLimiter.expired, hLast, hSeconds]
    simp
  rw [passed, forgetting, cons_append, foldl_cons, hStart, foldl_append, hRun,
    foldl_cons, foldl_cons, foldl_nil]
  simp only [TotalLimit.step, map_some, InMemoryRateLimiter.init, check, if_pos hMax,
    unix_unixTime, InMemoryRateLimiter.request, hGone, if_true]

theorem forgetting_inOrder (c : TotalLimit) (hE : 0 < E) : InOrder (c.forgetting E) := by
  have hLater : (Go.unixTime 0).nanos ≤ (Go.unixTime (E / Go.nanosPerSecond + 1)).nanos := by
    have hNonneg : 0 ≤ E / Go.nanosPerSecond := Int.ediv_nonneg hE.le (by decide)
    simp only [Go.unixTime, Go.nanosPerSecond] at hNonneg ⊢
    omega
  rw [InOrder, forgetting, cons_append, ← cons_append, pairwise_append]
  refine ⟨?_, by simp, ?_⟩
  · rw [pairwise_cons]
    refine ⟨fun e he => ?_, pairwise_replicate.mpr (.inr le_rfl)⟩
    rw [eq_of_mem_replicate he]
  intro e he f hf
  have hFirst : e.1 = Go.unixTime 0 := by
    rcases mem_cons.mp he with rfl | he
    · rfl
    · rw [eq_of_mem_replicate he]
  have hSecond : f.1 = Go.unixTime (E / Go.nanosPerSecond + 1) := by
    rcases mem_pair.mp hf with rfl | rfl <;> rfl
  rw [hFirst, hSecond]
  exact hLater

theorem forgetting_keyIsOwn (c : TotalLimit) (E : Int) : c.KeyIsOwn (c.forgetting E) := by
  intro e he key n d hAct
  simp only [forgetting, mem_append, mem_cons, mem_replicate, not_mem_nil,
    or_false] at he
  rcases he with (rfl | ⟨-, rfl⟩) | rfl | rfl <;> cases hAct

theorem inWindow_forgetting (hMax : 0 < c.totalMaxCount) (hE : 0 < E)
    (hShort : E / Go.nanosPerSecond + 1 < c.duration) :
    inWindow 0 c.duration (c.passed (c.forgetting E)) = c.totalMaxCount + 1 := by
  have hNonneg : 0 ≤ E / Go.nanosPerSecond := Int.ediv_nonneg hE.le (by decide)
  rw [passed_forgetting hMax (by omega) hE, inWindow_eq, map_append, map_replicate,
    map_singleton, unix_unixTime, unix_unixTime, countP_append, countP_replicate,
    countP_singleton, if_pos, if_pos] <;> simp only [decide_eq_true_eq] <;> omega

theorem duration_eq {c : TotalLimit} (hMinutes : 0 < c.minutes) (hSmall : c.minutes * 60 < 2 ^ 63) :
    c.duration = c.minutes * 60 := by
  rw [duration, windowSeconds, Go.int64, Int.bmod_eq_of_le] <;> omega

def onceInThirty : TotalLimit := ⟨7, 30, 1⟩

def forgottenInThirty : List (Go.Time × LimiterAct) :=
  onceInThirty.forgetting rateLimitKeyExpirationDuration

end TotalLimit

end NewApi.Limits
