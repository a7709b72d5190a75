import Mathlib.Algebra.Order.Ring.Int
import Mathlib.Data.List.Induction

/-!
# Sliding windows

`within d now log` counts the times less than `d` ago.  If each was admitted while fewer than `m`
were recent (`Spaced`), no window of length `d` has more than `m`.
-/

namespace Core.Window

open List

/-- How many times of the log are less than `d` before `now`. -/
def within (d now : Int) (log : List Int) : Nat := log.countP fun t => now < t + d

@[simp] theorem within_nil (d now : Int) : within d now [] = 0 := rfl

theorem within_append (d now : Int) (log log' : List Int) :
    within d now (log ++ log') = within d now log + within d now log' :=
  countP_append

variable {log : List Int} {now : Int}

theorem sorted_concat (h : log.Pairwise (· ≤ ·)) (hPast : ∀ t ∈ log, t ≤ now) :
    (log ++ [now]).Pairwise (· ≤ ·) ∧ ∀ t ∈ log ++ [now], t ≤ now := by
  constructor
  · rw [pairwise_append]
    refine ⟨h, pairwise_singleton .., fun t ht u hu => ?_⟩
    rw [mem_singleton.mp hu]
    exact hPast t ht
  · intro t ht
    rcases mem_append.mp ht with ht | ht
    · exact hPast t ht
    · rw [mem_singleton.mp ht]

variable {d : Int}

theorem within_eq_zero (h : ∀ t ∈ log, t + d ≤ now) : within d now log = 0 := by
  rw [within, countP_eq_zero]
  intro t ht
  simpa using h t ht

theorem within_eq_length (h : ∀ t ∈ log, now < t + d) : within d now log = log.length := by
  rw [within, countP_eq_length]
  intro t ht
  simpa using h t ht

def newest (m : Nat) (log : List Int) : List Int := log.drop (log.length - m)

theorem length_newest (m : Nat) (log : List Int) :
    (newest m log).length = min m log.length := by
  rw [newest, length_drop]
  omega

variable {m : Nat}

theorem newest_of_length_le (h : log.length ≤ m) : newest m log = log := by
  rw [newest, Nat.sub_eq_zero_of_le h, drop_zero]

theorem newest_concat (hm : 0 < m) (log : List Int) (t : Int) :
    newest m (log ++ [t]) =
      (if (newest m log).length < m then newest m log else (newest m log).tail) ++ [t] := by
  rw [length_newest]
  by_cases hFew : log.length < m
  · rw [if_pos (by omega), newest_of_length_le (by simp; omega), newest_of_length_le (by omega)]
  rw [if_neg (by omega), newest, newest, tail_drop, drop_append_of_le_length]
  · congr 2
    rw [length_append, length_singleton]
    omega
  · rw [length_append, length_singleton]
    omega

theorem reverse_newest_concat (m : Nat) (log : List Int) (t : Int) :
    (t :: (newest m log).reverse).take m = (newest m (log ++ [t])).reverse := by
  rcases Nat.eq_zero_or_pos m with rfl | hm
  · simp [newest]
  rw [newest_concat hm, reverse_append, reverse_singleton, singleton_append]
  have hLength := length_newest m log
  split
  case isTrue hRoom => exact take_of_length_le (by simp; omega)
  case isFalse hFull =>
    have hOne : (newest m log).length - (m - 1) = 1 := by omega
    rw [take_cons hm, take_reverse, hOne, drop_one]

section Sorted

variable {d now : Int} {log : List Int}

/-- **The oldest of the newest `m` decides** whether `m` times are recent. -/
theorem within_ge_iff (hSorted : log.Pairwise (· ≤ ·)) (hm : 0 < m) :
    m ≤ within d now log ↔
      m ≤ (newest m log).length ∧ ∀ t, (newest m log).head? = some t → now < t + d := by
  rw [length_newest]
  by_cases hFew : log.length < m
  · have hLe : within d now log ≤ log.length := countP_le_length
    omega
  -- the log is what is older than the newest `m`, and these
  have hSplit : log = log.take (log.length - m) ++ newest m log := (take_append_drop _ _).symm
  have hLength : (newest m log).length = m := by
    rw [length_newest]
    omega
  rw [hSplit, pairwise_append] at hSorted
  obtain ⟨-, hNewest, hOlder⟩ := hSorted
  obtain ⟨t, rest, hCons⟩ : ∃ t rest, newest m log = t :: rest :=
    exists_cons_of_length_pos (by omega)
  rw [hCons] at hNewest hOlder hLength
  have hCount : within d now log =
      within d now (log.take (log.length - m)) + within d now (t :: rest) := by
    rw [← within_append, ← hCons, ← hSplit]
  constructor
  · intro hMany
    refine ⟨by omega, fun x hx => ?_⟩
    rw [hCons, head?_cons, Option.some_inj] at hx
    subst hx
    by_contra hOld
    have hNone : within d now (log.take (log.length - m)) = 0 :=
      within_eq_zero fun a ha => by
        have := hOlder a ha t mem_cons_self
        omega
    have hRest : within d now (t :: rest) ≤ rest.length := by
      rw [within, countP_cons_of_neg (by simpa using hOld)]
      exact countP_le_length
    rw [length_cons] at hLength
    omega
  · rintro ⟨-, hRecent⟩
    have ht : now < t + d := hRecent t (by rw [hCons, head?_cons])
    have hAll : within d now (t :: rest) = (t :: rest).length := by
      refine within_eq_length fun a ha => ?_
      rcases mem_cons.mp ha with rfl | ha
      · exact ht
      · have := rel_of_pairwise_cons hNewest ha
        omega
    omega

end Sorted

/-! ## Windows anywhere -/

/-- Each time was admitted while fewer than `m` were recent. -/
def Spaced (m : Nat) (d : Int) (log : List Int) : Prop :=
  ∀ older t newer, log = older ++ t :: newer → within d t older < m

theorem Spaced.nil (m : Nat) (d : Int) : Spaced m d [] := by
  intro older t newer h
  simp at h

theorem Spaced.concat {t : Int} (h : Spaced m d log) (hFew : within d t log < m) :
    Spaced m d (log ++ [t]) := by
  intro older x newer hEq
  rcases eq_nil_or_concat newer with rfl | ⟨newer', y, rfl⟩
  · obtain ⟨rfl, hx⟩ := append_inj' hEq rfl
    rw [cons.injEq] at hx
    rwa [← hx.1]
  · refine h older x newer' ?_
    rw [concat_eq_append, ← cons_append, ← append_assoc] at hEq
    exact (append_inj' hEq rfl).1

theorem Spaced.of_concat {t : Int} (h : Spaced m d (log ++ [t])) :
    Spaced m d log ∧ within d t log < m := by
  refine ⟨fun older x newer hEq => h older x (newer ++ [t]) ?_, h log t [] rfl⟩
  rw [hEq, append_assoc, cons_append]

theorem Spaced.count_window_le (h : Spaced m d log) (hSorted : log.Pairwise (· ≤ ·)) (a : Int) :
    (log.countP fun t => a ≤ t ∧ t < a + d) ≤ m := by
  induction log using reverseRecOn with
  | nil => simp
  | append_singleton log t ih =>
    obtain ⟨hLog, hFew⟩ := h.of_concat
    rw [pairwise_append] at hSorted
    obtain ⟨hOlder, -, -⟩ := hSorted
    rw [countP_append, countP_cons, countP_nil, Nat.zero_add]
    by_cases ht : a ≤ t ∧ t < a + d
    · -- what the window has is recent at the last time in it
      have hRecent : (log.countP fun x => a ≤ x ∧ x < a + d) ≤ within d t log := by
        refine countP_mono_left fun x _ hx => ?_
        simp only [decide_eq_true_eq] at hx ⊢
        omega
      rw [if_pos (by simpa using ht)]
      omega
    · rw [if_neg (by simpa using ht)]
      exact ih hLog hOlder

end Core.Window
