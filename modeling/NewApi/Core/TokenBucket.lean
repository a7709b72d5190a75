import Mathlib.Data.List.Basic
import Mathlib.Tactic.Linarith
import Mathlib.Tactic.Ring

/-!
# Token buckets

A bucket holds at most `capacity` tokens and gets `rate` of them per unit of time; a request takes
`requested` of them if they are there.  The level is a potential, which bounds what is taken.
-/

namespace Core

open List

universe u

structure TokenBucket (R : Type u) where
  capacity : R
  rate : R
  requested : R

namespace TokenBucket

variable {R : Type u} [CommRing R] [LinearOrder R]

structure Level (R : Type u) where
  tokens : R
  time : R

variable (c : TokenBucket R)

def refilled (now : R) : Option (Level R) → R
  | none => c.capacity
  | some b => min c.capacity (b.tokens + (now - b.time) * c.rate)

def take (now : R) (b : Option (Level R)) : Level R × Bool :=
  if c.requested ≤ c.refilled now b then (⟨c.refilled now b - c.requested, now⟩, true)
  else (⟨c.refilled now b, now⟩, false)

def answers : Option (Level R) → List R → List (R × Bool)
  | _, [] => []
  | b, t :: ts => (t, (c.take t b).2) :: answers (some (c.take t b).1) ts

def allowed (s e : R) (rs : List (R × Bool)) : Nat :=
  rs.countP fun r => s ≤ r.1 ∧ r.1 ≤ e ∧ r.2

variable {c}

@[simp] theorem take_time (now : R) (b : Option (Level R)) : (c.take now b).1.time = now := by
  unfold take
  split <;> rfl

theorem take_tokens (now : R) (b : Option (Level R)) :
    (c.take now b).1.tokens + (if (c.take now b).2 then 1 else 0) * c.requested =
      c.refilled now b := by
  unfold take
  split
  · rw [if_pos rfl, one_mul, sub_add_cancel]
  · rw [if_neg (by simp), zero_mul, add_zero]

theorem refilled_le_capacity (now : R) (b : Option (Level R)) : c.refilled now b ≤ c.capacity := by
  cases b with
  | none => exact le_rfl
  | some b => exact min_le_left ..

theorem refilled_le (now : R) (b : Level R) :
    c.refilled now (some b) ≤ b.tokens + (now - b.time) * c.rate := min_le_right ..

theorem mem_answers_time {b : Option (Level R)} {ts : List R} {r : R × Bool}
    (h : r ∈ c.answers b ts) : r.1 ∈ ts := by
  induction ts generalizing b with
  | nil => cases h
  | cons t ts ih =>
    rcases mem_cons.mp h with rfl | h
    · exact mem_cons_self
    · exact mem_cons_of_mem _ (ih h)

omit [CommRing R] in
theorem allowed_cons (s e : R) (r : R × Bool) (rs : List (R × Bool)) :
    allowed s e (r :: rs) = allowed s e rs + if s ≤ r.1 ∧ r.1 ≤ e ∧ r.2 then 1 else 0 := by
  rw [allowed, countP_cons]
  simp [allowed]

omit [CommRing R] in
theorem allowed_eq_zero {s e : R} {rs : List (R × Bool)} (h : ∀ r ∈ rs, e < r.1) :
    allowed s e rs = 0 := by
  rw [allowed, countP_eq_zero]
  intro r hr hIn
  simp only [decide_eq_true_eq] at hIn
  exact absurd hIn.2.1 (not_le.mpr (h r hr))

variable [IsStrictOrderedRing R]

section Bounds

variable (hRate : 0 ≤ c.rate) (hRequested : 0 ≤ c.requested) (hCapacity : 0 ≤ c.capacity)

def Level.Within (b : Level R) (c : TokenBucket R) : Prop := 0 ≤ b.tokens ∧ b.tokens ≤ c.capacity

include hRate hCapacity in
theorem refilled_nonneg {now : R} {b : Option (Level R)}
    (hLevel : ∀ l, b = some l → l.Within c ∧ l.time ≤ now) : 0 ≤ c.refilled now b := by
  cases b with
  | none => exact hCapacity
  | some b =>
    obtain ⟨⟨hTokens, -⟩, hTime⟩ := hLevel b rfl
    exact le_min hCapacity (add_nonneg hTokens (mul_nonneg (sub_nonneg.mpr hTime) hRate))

include hRate hRequested hCapacity in
theorem take_within (now : R) (b : Option (Level R))
    (hLevel : ∀ l, b = some l → l.Within c ∧ l.time ≤ now) : (c.take now b).1.Within c := by
  have hNonneg := refilled_nonneg hRate hCapacity hLevel
  have hLe := c.refilled_le_capacity now b
  unfold take
  split
  case isTrue hEnough =>
    exact ⟨sub_nonneg.mpr hEnough, le_trans (sub_le_self _ hRequested) hLe⟩
  case isFalse => exact ⟨hNonneg, hLe⟩

include hRate hRequested hCapacity in
/-- **What is taken until `e`** was there, or has been added since. -/
theorem taken_le {e : R} (ts : List R) {s : R} {b : Level R} (hLevel : b.Within c)
    (hSorted : (b.time :: ts).Pairwise (· ≤ ·)) (hEnd : b.time ≤ e) :
    (allowed s e (c.answers (some b) ts) : R) * c.requested ≤
      b.tokens + (e - b.time) * c.rate := by
  induction ts generalizing b with
  | nil =>
    rw [answers, allowed, countP_nil, Nat.cast_zero, zero_mul]
    exact add_nonneg hLevel.1 (mul_nonneg (sub_nonneg.mpr hEnd) hRate)
  | cons t ts ih =>
    obtain ⟨hHead, hTail⟩ := pairwise_cons.mp hSorted
    have ht : b.time ≤ t := hHead t mem_cons_self
    rcases le_or_gt t e with hIn | hOut
    · have hNext := take_within hRate hRequested hCapacity t (some b) (by
        rintro l hl
        rw [← Option.some.inj hl]
        exact ⟨hLevel, ht⟩)
      have hRest := ih hNext (by rwa [take_time]) (by rwa [take_time])
      have hTaken := take_tokens (c := c) t (some b)
      have hLe := c.refilled_le t b
      have hOne : ((if s ≤ t ∧ t ≤ e ∧ (c.take t (some b)).2 then 1 else 0 : Nat) : R) *
          c.requested ≤ (if (c.take t (some b)).2 then 1 else 0) * c.requested := by
        refine mul_le_mul_of_nonneg_right ?_ hRequested
        by_cases hOk : (c.take t (some b)).2
        · rw [if_pos hOk]
          split <;> simp
        · simp [hOk]
      rw [answers, allowed_cons, Nat.cast_add, add_mul]
      rw [take_time] at hRest
      have hSplit : (e - b.time) * c.rate = (t - b.time) * c.rate + (e - t) * c.rate := by ring
      linarith
    · -- sorted, so that nothing else is in the window either
      rw [allowed_eq_zero, Nat.cast_zero, zero_mul]
      · exact add_nonneg hLevel.1 (mul_nonneg (sub_nonneg.mpr hEnd) hRate)
      intro r hr
      rcases mem_cons.mp (mem_answers_time hr) with hEq | hLater
      · rwa [hEq]
      · exact lt_of_lt_of_le hOut (rel_of_pairwise_cons hTail hLater)

include hRate hRequested hCapacity in
/-- **What is taken between two times** is at most a full bucket and what is added between them. -/
theorem taken_window_le {s e : R} (hWindow : s ≤ e) (ts : List R) {b : Option (Level R)}
    (hLevel : ∀ l, b = some l → l.Within c ∧ ∀ t ∈ ts, l.time ≤ t)
    (hSorted : ts.Pairwise (· ≤ ·)) :
    (allowed s e (c.answers b ts) : R) * c.requested ≤ c.capacity + (e - s) * c.rate := by
  have hNonneg : 0 ≤ c.capacity + (e - s) * c.rate :=
    add_nonneg hCapacity (mul_nonneg (sub_nonneg.mpr hWindow) hRate)
  induction ts generalizing b with
  | nil =>
    rw [answers, allowed, countP_nil, Nat.cast_zero, zero_mul]
    exact hNonneg
  | cons t ts ih =>
    obtain ⟨hHead, hTail⟩ := pairwise_cons.mp hSorted
    have hNext := take_within hRate hRequested hCapacity t b fun l hl =>
      ⟨(hLevel l hl).1, (hLevel l hl).2 t mem_cons_self⟩
    rcases lt_or_ge t s with hBefore | hAfter
    · rw [answers, allowed_cons, if_neg (fun hIn => absurd hIn.1 (not_le.mpr hBefore)), add_zero]
      refine ih ?_ hTail
      intro l hl
      rw [← Option.some.inj hl]
      exact ⟨hNext, fun u hu => by rw [take_time]; exact hHead u hu⟩
    · rcases le_or_gt t e with hIn | hOut
      · -- the first request of the window finds at most a full bucket
        have hRest := taken_le hRate hRequested hCapacity (e := e) ts (s := s) hNext
          (by rwa [take_time]) (by rwa [take_time])
        have hTaken := take_tokens (c := c) t b
        have hLe := c.refilled_le_capacity t b
        have hSlack := mul_nonneg (sub_nonneg.mpr hAfter) hRate
        have hSplit : (e - s) * c.rate = (t - s) * c.rate + (e - t) * c.rate := by ring
        have hOne : ((if s ≤ t ∧ t ≤ e ∧ (c.take t b).2 then 1 else 0 : Nat) : R) =
            if (c.take t b).2 then 1 else 0 := by
          simp [hAfter, hIn]
        rw [answers, allowed_cons, Nat.cast_add, add_mul, hOne]
        rw [take_time] at hRest
        linarith
      · rw [allowed_eq_zero, Nat.cast_zero, zero_mul]
        · exact hNonneg
        intro r hr
        rcases mem_cons.mp (mem_answers_time hr) with hEq | hLater
        · rwa [hEq]
        · exact lt_of_lt_of_le hOut (hHead _ hLater)

end Bounds

end TokenBucket

end Core
