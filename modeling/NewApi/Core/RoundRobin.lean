import Mathlib.Data.List.Rotate
import Mathlib.Data.Nat.ModEq

/-!
# Round robin

A list of participants and a counter that says whose turn it is: `n` turns of `n` participants are a
rotation of the list.  Who takes every turn has had everything when they get two things in a row
again (`seen_all_of_repeats`). `IsTurn` leaves the stored counter open beyond its place.
-/

namespace Core

open List

variable {α : Type}

def place (n c : Nat) : Nat := if n ≤ c then 0 else c

theorem place_lt {n : Nat} (hPos : 0 < n) (c : Nat) : place n c < n := by
  unfold place
  split <;> omega

theorem place_of_lt {n c : Nat} (h : c < n) : place n c = c := if_neg (by omega)

def IsTurn (xs : List α) (c : Nat) (x : α) (c' : Nat) : Prop :=
  xs[place xs.length c]? = some x ∧ place xs.length c' = (place xs.length c + 1) % xs.length

def turns (xs : List α) : Nat → Nat → List α
  | _, 0 => []
  | w, k + 1 => xs[w]?.toList ++ turns xs ((w + 1) % xs.length) k

theorem IsTurn.turns_succ {xs : List α} {c c' : Nat} {x : α} (h : IsTurn xs c x c') (k : Nat) :
    turns xs (place xs.length c) (k + 1) = x :: turns xs (place xs.length c') k := by
  rw [turns, h.1, ← h.2]
  rfl

theorem isTurn_singleton (x : α) (c c' : Nat) : IsTurn [x] c x c' := by
  have hPlace : ∀ d, place [x].length d = 0 := fun d =>
    Nat.lt_one_iff.mp (place_lt Nat.zero_lt_one d)
  refine ⟨by rw [hPlace]; rfl, ?_⟩
  rw [hPlace, length_singleton, Nat.mod_one]

theorem turns_eq_take_rotate {xs : List α} {w k : Nat} (hw : w < xs.length)
    (hk : k ≤ xs.length) : turns xs w k = (xs.rotate w).take k := by
  induction k generalizing w with
  | zero => rfl
  | succ k ih =>
    have hNext : turns xs ((w + 1) % xs.length) k = (xs.rotate (w + 1)).take k := by
      rw [ih (Nat.mod_lt _ (by omega)) (by omega), rotate_mod]
    -- one more step of rotation moves the head to the end, out of reach of `take k`
    have hRotate : xs.rotate w = xs[w] :: (xs.drop (w + 1) ++ xs.take w) := by
      rw [rotate_eq_drop_append_take (by omega), drop_eq_getElem_cons hw, cons_append]
    rw [turns, hNext, ← rotate_rotate, hRotate, rotate_cons_succ, rotate_zero,
      getElem?_eq_getElem hw, Option.toList_some, singleton_append, take_succ_cons,
      take_append_of_le_length]
    simp only [length_append, length_drop, length_take]
    omega

/-- **`n` turns of `n` participants are a rotation.** -/
theorem turns_length {xs : List α} {w : Nat} (hw : w < xs.length) :
    turns xs w xs.length = xs.rotate w := by
  rw [turns_eq_take_rotate hw le_rfl, take_of_length_le (by rw [length_rotate])]

theorem turns_add_length {xs : List α} {w : Nat} (hw : w < xs.length) (k : Nat) :
    turns xs w (k + xs.length) = turns xs w k ++ xs.rotate (w + k) := by
  induction k generalizing w with
  | zero => rw [Nat.zero_add, turns_length hw]; rfl
  | succ k ih =>
    rw [Nat.succ_add, turns, ih (Nat.mod_lt _ (by omega)), turns, append_assoc, ← rotate_mod,
      Nat.mod_add_mod, rotate_mod, Nat.add_assoc, Nat.add_comm 1]

/-- **Everybody has the same share**, up to one turn. -/
theorem count_turns_le [DecidableEq α] {xs : List α} (hNodup : xs.Nodup) {w : Nat}
    (hw : w < xs.length) {x y : α} (hx : x ∈ xs) (hy : y ∈ xs) (k : Nat) :
    (turns xs w k).count x ≤ (turns xs w k).count y + 1 := by
  induction k using Nat.strongRecOn with
  | ind k ih =>
    rcases Nat.lt_or_ge k xs.length with hLess | hMore
    · have hOnce := nodup_iff_count_le_one.mp
        ((nodup_rotate.mpr hNodup).sublist (take_sublist k (xs.rotate w))) x
      rw [← turns_eq_take_rotate hw (by omega)] at hOnce
      omega
    · obtain ⟨m, rfl⟩ := Nat.exists_eq_add_of_le' hMore
      rw [turns_add_length hw, count_append, count_append, (rotate_perm xs _).count_eq,
        (rotate_perm xs _).count_eq, count_eq_one_of_mem hNodup hx, count_eq_one_of_mem hNodup hy]
      have := ih m (by omega)
      omega

/-! ## Somebody who takes every turn -/

theorem exists_place {n w q : Nat} (hq : q < n) : ∃ t < n, (w + t) % n = q := by
  have hLt := Nat.mod_lt w (by omega : 0 < n)
  refine ⟨(n + q - w % n) % n, Nat.mod_lt _ (by omega), ?_⟩
  rw [Nat.add_mod_mod, ← Nat.mod_add_mod, Nat.add_sub_cancel' (by omega), Nat.add_mod_left,
    Nat.mod_eq_of_lt hq]

/-- **One turn after the other**: whoever draws two in a row again has had everything. -/
theorem seen_all_of_repeats {ys : List α} (hNodup : ys.Nodup) {w : Nat} {x : Nat → α}
    (hTurns : ∀ i, ys[(w + i) % ys.length]? = some (x (i + 1))) {i : Nat}
    (hNow : ∃ k < i, x k = x i) (hNext : ∃ k < i, x k = x (i + 1)) {y : α} (hy : y ∈ ys) :
    ∃ k < i, x k = y := by
  have hPos : 0 < ys.length := length_pos_of_mem hy
  have hInj : ∀ a b, a < ys.length → b < ys.length → x (a + 1) = x (b + 1) → a = b := by
    intro a b ha hb hEq
    have hSame : (w + a) % ys.length = (w + b) % ys.length :=
      (getElem?_inj (Nat.mod_lt _ hPos) hNodup).mp (by rw [hTurns, hTurns, hEq])
    exact (Nat.ModEq.add_left_cancel' w hSame).eq_of_lt_of_lt ha hb
  obtain ⟨q, hq, rfl⟩ := mem_iff_getElem.mp hy
  obtain ⟨t, ht, hPlace⟩ := exists_place (w := w) hq
  have hAt : x (t + 1) = ys[q] := by
    have hTurn := hTurns t
    rw [hPlace, getElem?_eq_getElem hq, Option.some_inj] at hTurn
    exact hTurn.symm
  rw [← hAt]
  obtain ⟨k, hk, hEq⟩ := hNow
  obtain ⟨m, rfl⟩ := Nat.exists_eq_succ_of_ne_zero (by omega : i ≠ 0)
  rcases Nat.lt_or_ge t m with hEarlier | hLater
  · exact ⟨t + 1, by omega, rfl⟩
  -- within the first round a repeat is a repeat of the first thing
  obtain rfl : k = 0 := by
    by_contra hk0
    obtain ⟨k', rfl⟩ := Nat.exists_eq_succ_of_ne_zero hk0
    have := hInj k' m (by omega) (by omega) hEq
    omega
  obtain ⟨l, hl, hEq'⟩ := hNext
  have hLast : m + 1 = ys.length := by
    by_contra hMore
    rcases Nat.eq_zero_or_pos l with rfl | hl0
    · have := hInj m (m + 1) (by omega) (by omega) (hEq.symm.trans hEq')
      omega
    · obtain ⟨l', rfl⟩ := Nat.exists_eq_succ_of_ne_zero hl0.ne'
      have := hInj l' (m + 1) (by omega) (by omega) hEq'
      omega
  obtain rfl : t = m := by omega
  exact ⟨0, by omega, hEq⟩

/-! ## Turns that skip -/

def queue (p : Nat → Bool) (n w : Nat) : List Nat := ((range n).rotate w).filter p

theorem range_rotate (n w : Nat) : (range n).rotate w = (range n).map fun i => (w + i) % n := by
  apply ext_getElem
  · simp
  · intro i _ _
    simp [getElem_rotate, Nat.add_comm]

theorem queue_isRotated (p : Nat → Bool) (n w : Nat) :
    ∃ k, queue p n w = ((range n).filter p).rotate k := by
  refine ⟨(((range n).take (w % n)).filter p).length, ?_⟩
  have hSplit : (range n).filter p =
      ((range n).take (w % n)).filter p ++ ((range n).drop (w % n)).filter p := by
    rw [← filter_append, take_append_drop]
  rw [hSplit, rotate_append_length_eq, queue, rotate_eq_drop_append_take_mod, length_range,
    filter_append]

theorem queue_next {p : Nat → Bool} {n w idx : Nat} (h : ((range n).rotate w).find? p = some idx) :
    ∃ rest, queue p n w = idx :: rest ∧ queue p n ((idx + 1) % n) = rest ++ [idx] := by
  obtain ⟨hIdx, skipped, later, hSplit, hSkipped⟩ := find?_eq_some_iff_append.mp h
  have hNone : skipped.filter p = [] := by
    rw [filter_eq_nil_iff]
    intro x hx
    simpa using hSkipped x hx
  have hAt : idx = (w + skipped.length) % n := by
    have hGet : ((range n).rotate w)[skipped.length]? = some idx := by rw [hSplit]; simp
    rw [range_rotate, getElem?_map] at hGet
    obtain ⟨i, hi, rfl⟩ := Option.map_eq_some_iff.mp hGet
    obtain ⟨_, rfl⟩ := List.getElem?_eq_some_iff.mp hi
    rw [getElem_range]
  refine ⟨later.filter p, ?_, ?_⟩
  · rw [queue, hSplit, filter_append, hNone, filter_cons_of_pos hIdx, nil_append]
  have hRotate : (range n).rotate ((idx + 1) % n) = later ++ (skipped ++ [idx]) := by
    have hFrom : (range n).rotate ((idx + 1) % n) =
        ((range n).rotate w).rotate (skipped ++ [idx]).length := by
      rw [rotate_rotate, hAt, Nat.mod_add_mod, length_append, length_singleton, ← Nat.add_assoc]
      nth_rewrite 2 [← rotate_mod]
      rw [length_range]
    rw [hFrom, hSplit, append_cons, rotate_append_length_eq]
  rw [queue, hRotate, filter_append, filter_append, hNone, nil_append, filter_cons_of_pos hIdx,
    filter_nil]

end Core
