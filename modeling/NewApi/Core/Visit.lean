import Mathlib.Data.List.Nodup
import Mathlib.Order.Monotone.Basic

/-!
# Visiting what is offered, once

Somebody is offered one thing after another and visits those not visited before.  An offer may be
empty, or the end; after `limit` repeats in a row the search is given up.
-/

namespace Core

open List

variable {β : Type}

inductive Offer (β : Type) where
  | skip
  | stop
  | give (b : β) (again : Bool)
  deriving DecidableEq

structure Visit (β : Type) where
  visited : List β
  repeats : Nat
  stopped : Bool
  deriving DecidableEq

variable {v : Visit β} {i : Nat} {offers : Nat → Offer β} {all : List β} {b : β}

namespace Visit

variable [DecidableEq β] {limit : Nat}

def step (limit : Nat) (v : Visit β) (offer : Offer β) : Visit β :=
  if v.stopped then v
  else
    match offer with
    | .skip => v
    | .stop => { v with stopped := true }
    | .give b again =>
      if b ∈ v.visited then
        { v with repeats := v.repeats + 1, stopped := limit ≤ v.repeats + 1 }
      else { visited := v.visited ++ [b], repeats := 0, stopped := !again }

def run (limit : Nat) (offers : Nat → Offer β) (v : Visit β) : Nat → Visit β
  | 0 => v
  | i + 1 => (run limit offers v i).step limit (offers i)

theorem nodup_step (h : v.visited.Nodup) (offer : Offer β) :
    (v.step limit offer).visited.Nodup := by
  unfold step
  split
  · exact h
  cases offer with
  | skip | stop => exact h
  | give b again =>
    simp only
    split
    · exact h
    · rename_i hNew
      simpa using h.concat hNew

theorem mem_visited_step {offer : Offer β} (h : b ∈ (v.step limit offer).visited) :
    b ∈ v.visited ∨ ∃ again, offer = .give b again := by
  unfold step at h
  split at h
  · exact .inl h
  cases offer with
  | skip | stop => exact .inl h
  | give c again =>
    simp only at h
    split at h
    · exact .inl h
    · rcases mem_append.mp h with hOld | hNew
      · exact .inl hOld
      · exact .inr ⟨again, by rw [mem_singleton.mp hNew]⟩

theorem visited_subset_step (v : Visit β) (offer : Offer β) :
    v.visited ⊆ (v.step limit offer).visited := by
  unfold step
  split
  · exact List.Subset.refl _
  cases offer with
  | skip | stop => exact List.Subset.refl _
  | give b again =>
    simp only
    split
    · exact List.Subset.refl _
    · exact subset_append_left _ _

theorem visited_subset_run (v : Visit β) (offers : Nat → Offer β) {j : Nat} (h : i ≤ j) :
    (v.run limit offers i).visited ⊆ (v.run limit offers j).visited := by
  induction j, h using Nat.le_induction with
  | base => exact List.Subset.refl _
  | succ j _ ih => exact List.Subset.trans ih (visited_subset_step _ _)

/-! ## Whether it ends -/

theorem step_of_stopped (h : v.stopped = true) (offer : Offer β) : v.step limit offer = v := if_pos h

theorem run_of_stopped (h : (v.run limit offers i).stopped = true) (k : Nat) :
    v.run limit offers (i + k) = v.run limit offers i := by
  induction k with
  | zero => rfl
  | succ k ih =>
    show (v.run limit offers (i + k)).step limit _ = _
    rw [ih, step_of_stopped h]

theorem not_stopped (h : (v.run limit offers i).stopped = false)
    (hSkip : ∀ j, i ≤ j → offers j = .skip) (k : Nat) :
    (v.run limit offers (i + k)).stopped = false := by
  induction k with
  | zero => exact h
  | succ k ih =>
    show ((v.run limit offers (i + k)).step limit (offers (i + k))).stopped = false
    rw [hSkip _ (Nat.le_add_right i k), step, if_neg (by rw [ih]; exact Bool.false_ne_true)]
    exact ih

def rank (limit : Nat) (all : List β) (v : Visit β) : Nat :=
  (all.filter fun b => b ∉ v.visited).length * (limit + 1) + (limit - v.repeats)

theorem filter_length_lt {visited : List β} (hMem : b ∈ all) (hNew : b ∉ visited) :
    (all.filter fun x => x ∉ visited ++ [b]).length <
      (all.filter fun x => x ∉ visited).length := by
  have hSplit : (all.filter fun x => x ∉ visited ++ [b]) =
      (all.filter fun x => x ∉ visited).filter fun x => x ≠ b := by
    rw [filter_filter]
    simp [and_comm]
  rw [hSplit, length_filter_lt_length_iff_exists]
  exact ⟨b, mem_filter.mpr ⟨hMem, by simpa using hNew⟩, by simp⟩

theorem rank_step {offer : Offer β} (hMem : ∀ b again, offer = .give b again → b ∈ all)
    (hOffer : offer ≠ .skip) (hGoes : (v.step limit offer).stopped = false) :
    (v.step limit offer).rank limit all < v.rank limit all := by
  unfold step at hGoes ⊢
  split at hGoes
  · rename_i hStopped
    rw [hStopped] at hGoes
    cases hGoes
  rename_i hRunning
  rw [if_neg hRunning]
  cases offer with
  | skip => exact absurd rfl hOffer
  | stop => cases hGoes
  | give b again =>
    simp only at hGoes ⊢
    split at hGoes
    · rename_i hOld
      rw [if_pos hOld]
      have hLeft : ¬ limit ≤ v.repeats + 1 := by simpa using hGoes
      unfold rank
      simp only
      omega
    · rename_i hNew
      rw [if_neg hNew]
      have hLess := Nat.mul_le_mul_right (limit + 1) (filter_length_lt (hMem b again rfl) hNew)
      rw [Nat.succ_mul] at hLess
      unfold rank
      simp only
      omega

/-- **A search among finitely many things ends, if it is offered something again and again.** -/
theorem exists_stopped (hMem : ∀ i b again, offers i = .give b again → b ∈ all)
    (hAgain : ∀ i, ∃ j, i ≤ j ∧ offers j ≠ .skip) (v : Visit β) :
    ∃ i, (v.run limit offers i).stopped = true := by
  by_contra hNever
  push Not at hNever
  simp only [Bool.not_eq_true] at hNever
  -- the rank never grows, and falls at each of the infinitely many offers
  have hStep : ∀ i, (v.run limit offers (i + 1)).rank limit all ≤
      (v.run limit offers i).rank limit all := by
    intro i
    by_cases hSkip : offers i = .skip
    · show ((v.run limit offers i).step limit (offers i)).rank limit all ≤ _
      rw [hSkip, step]
      simp [hNever i]
    · exact (rank_step (hMem i) hSkip (hNever (i + 1))).le
  have hMono : Antitone fun i => (v.run limit offers i).rank limit all :=
    antitone_nat_of_succ_le hStep
  have hBelow : ∀ r i, r < (v.run limit offers i).rank limit all := by
    intro r
    induction r with intro i
    | zero =>
      obtain ⟨j, hij, hOffer⟩ := hAgain i
      have hFall := rank_step (hMem j) hOffer (hNever (j + 1))
      have hBound := hMono hij
      simp only at hBound
      omega
    | succ r ih =>
      obtain ⟨j, hij, hOffer⟩ := hAgain i
      have hFall := rank_step (hMem j) hOffer (hNever (j + 1))
      have hNext : r < ((v.run limit offers j).step limit (offers j)).rank limit all := ih (j + 1)
      have hBound := hMono hij
      simp only at hBound
      omega
  exact lt_irrefl _ (hBelow ((v.run limit offers 0).rank limit all) 0)

/-! ## Where it ends -/

def Seen (v : Visit β) (x : Nat → β) (i : Nat) (b : β) : Prop :=
  b ∈ v.visited ∨ ∃ j < i, x j = b

def Stuck (limit : Nat) (v : Visit β) (x : Nat → β) (i : Nat) : Prop :=
  ∀ j < limit, v.Seen x i (x (i + j))

variable {v w : Visit β} {x : Nat → β} {i : Nat}

omit [DecidableEq β] in
theorem Seen.mono {k : Nat} (h : v.Seen x i b) (hik : i ≤ k) : v.Seen x k b :=
  h.imp_right fun ⟨j, hj, hEq⟩ => ⟨j, by omega, hEq⟩

omit [DecidableEq β] in
theorem seen_succ : v.Seen x (i + 1) b ↔ v.Seen x i b ∨ x i = b := by
  constructor
  · rintro (h | ⟨j, hj, hEq⟩)
    · exact .inl (.inl h)
    · rcases Nat.lt_succ_iff_lt_or_eq.mp hj with hLt | rfl
      · exact .inl (.inr ⟨j, hLt, hEq⟩)
      · exact .inr hEq
  · rintro (h | hEq)
    · exact h.mono (Nat.le_succ i)
    · exact .inr ⟨i, Nat.lt_succ_self i, hEq⟩

omit [DecidableEq β] in
theorem Seen.of_repeats {r : Nat} (hRepeats : ∀ j < r, v.Seen x i (x (i + j)))
    (h : v.Seen x (i + r) b) : v.Seen x i b := by
  rcases h with h | ⟨j, hj, rfl⟩
  · exact .inl h
  by_cases hi : j < i
  · exact .inr ⟨j, hi, rfl⟩
  · have hAt := hRepeats (j - i) (by omega)
    rwa [Nat.add_sub_cancel' (by omega : i ≤ j)] at hAt

/-- The repeats began at `first`, and the offer before that was new. -/
structure Going (limit : Nat) (v : Visit β) (x : Nat → β) (i first : Nat) (w : Visit β) :
    Prop where
  running : w.stopped = false
  visited : ∀ b, b ∈ w.visited ↔ v.Seen x i b
  few : w.repeats < limit
  at_first : i = first + w.repeats
  repeats : ∀ j < w.repeats, v.Seen x first (x (first + j))
  before : first = 0 ∨ ∃ k, first = k + 1 ∧ ¬ v.Seen x k (x k)
  unstuck : ∀ k, k + limit ≤ i → ¬ v.Stuck limit x k

structure Ended (limit : Nat) (v : Visit β) (x : Nat → β) (first : Nat) (w : Visit β) :
    Prop where
  stopped : w.stopped = true
  visited : ∀ b, b ∈ w.visited ↔ v.Seen x first b
  stuck : v.Stuck limit x first
  least : ∀ k < first, ¬ v.Stuck limit x k

theorem Going.repeated {first : Nat} (h : Going limit v x i first w) (hOld : x i ∈ w.visited) :
    Going limit v x (i + 1) first (w.step limit (.give (x i) true)) ∨
      Ended limit v x first (w.step limit (.give (x i) true)) := by
  obtain ⟨hRunning, hVisited, hFew, hAt, hRepeats, hBefore, hUnstuck⟩ := h
  have hSeen : ∀ b, v.Seen x i b → v.Seen x first b := fun b hb =>
    Seen.of_repeats hRepeats (hAt ▸ hb)
  have hNow : ∀ j < w.repeats + 1, v.Seen x first (x (first + j)) := by
    intro j hj
    rcases Nat.lt_succ_iff_lt_or_eq.mp hj with hLt | rfl
    · exact hRepeats j hLt
    · rw [← hAt]
      exact hSeen _ ((hVisited _).mp hOld)
  rw [step, if_neg (by rw [hRunning]; exact Bool.false_ne_true)]
  simp only [if_pos hOld]
  by_cases hLimit : limit ≤ w.repeats + 1
  · refine .inr ⟨by simpa using hLimit, ?_, fun j hj => hNow j (by omega), ?_⟩
    · exact fun b => (hVisited b).trans ⟨hSeen b, fun hb => hb.mono (by omega)⟩
    · exact fun k hk => hUnstuck k (by omega)
  refine .inl ⟨by simpa using hLimit, ?_, by simp only; omega, by simp only; omega, hNow,
    hBefore, ?_⟩
  · intro b
    rw [seen_succ, ← hVisited]
    refine ⟨.inl, ?_⟩
    rintro (hb | rfl)
    · exact hb
    · exact hOld
  · intro k hk hStuck
    rcases Nat.lt_or_ge (i) (k + limit) with hLast | hEarlier
    · -- the window ends here, so it reaches back to the offer before the repeats
      rcases hBefore with rfl | ⟨k', rfl, hNew⟩
      · omega
      · have hAtNew := hStuck (k' - k) (by omega)
        rw [Nat.add_sub_cancel' (by omega : k ≤ k')] at hAtNew
        exact hNew (hAtNew.mono (by omega))
    · exact hUnstuck k hEarlier hStuck

theorem Going.fresh {first : Nat} (h : Going limit v x i first w) (hNew : x i ∉ w.visited) :
    Going limit v x (i + 1) (i + 1) (w.step limit (.give (x i) true)) := by
  obtain ⟨hRunning, hVisited, hFew, -, -, -, hUnstuck⟩ := h
  have hUnseen : ¬ v.Seen x i (x i) := fun hSeen => hNew ((hVisited _).mpr hSeen)
  rw [step, if_neg (by rw [hRunning]; exact Bool.false_ne_true)]
  simp only [if_neg hNew]
  refine ⟨rfl, ?_, by simp only; omega, rfl, ?_, .inr ⟨i, rfl, hUnseen⟩, ?_⟩
  · intro b
    rw [mem_append, mem_singleton, hVisited, seen_succ, eq_comm]
  · exact fun j hj => absurd hj (Nat.not_lt_zero j)
  intro k hk hStuck
  rcases Nat.lt_or_ge i (k + limit) with hLast | hEarlier
  · have hAtNew := hStuck (i - k) (by omega)
    rw [Nat.add_sub_cancel' (by omega : k ≤ i)] at hAtNew
    exact hUnseen (hAtNew.mono (by omega))
  · exact hUnstuck k hEarlier hStuck

/-- **Where a search is**, in which everything is offered and every visit wants another. -/
theorem going_or_ended (hRunning : v.stopped = false) (hRepeats : v.repeats = 0)
    (hLimit : 0 < limit) (i : Nat) :
    (∃ first, Going limit v x i first (v.run limit (fun i => .give (x i) true) i)) ∨
      ∃ first, Ended limit v x first (v.run limit (fun i => .give (x i) true) i) := by
  induction i with
  | zero =>
    refine .inl ⟨0, hRunning, ?_, by rw [run, hRepeats]; exact hLimit, by rw [run, hRepeats], ?_,
      .inl rfl, ?_⟩
    · simp [run, Seen]
    · rw [run, hRepeats]
      exact fun j hj => absurd hj (Nat.not_lt_zero j)
    · omega
  | succ i ih =>
    rw [run]
    rcases ih with ⟨first, hGoing⟩ | ⟨first, hEnded⟩
    · by_cases hOld : x i ∈ (v.run limit (fun i => .give (x i) true) i).visited
      · exact (hGoing.repeated hOld).imp (⟨first, ·⟩) (⟨first, ·⟩)
      · exact .inl ⟨i + 1, hGoing.fresh hOld⟩
    · rw [step_of_stopped hEnded.stopped]
      exact .inr ⟨first, hEnded⟩

/-- **A search visits all of `T` exactly when it is never stuck before that.** -/
theorem visits_all_iff (limit : Nat) {T : β → Prop} (hMem : ∀ i, x i ∈ all)
    (hRunning : v.stopped = false) (hRepeats : v.repeats = 0) (hLimit : 0 < limit) :
    (∃ i, (v.run limit (fun i => .give (x i) true) i).stopped = true ∧
        ∀ b, T b → b ∈ (v.run limit (fun i => .give (x i) true) i).visited) ↔
      ∀ i, v.Stuck limit x i → ∀ b, T b → v.Seen x i b := by
  have hEnd : ∀ i, (v.run limit (fun i => .give (x i) true) i).stopped = true →
      ∃ first, Ended limit v x first (v.run limit (fun i => .give (x i) true) i) := by
    intro i hStopped
    refine (going_or_ended hRunning hRepeats hLimit i).resolve_left ?_
    rintro ⟨first, hGoing⟩
    rw [hGoing.running] at hStopped
    cases hStopped
  constructor
  · rintro ⟨i, hStopped, hAll⟩ k hStuck b hb
    obtain ⟨first, hEnded⟩ := hEnd i hStopped
    have hLe : first ≤ k := by
      by_contra hLt
      exact hEnded.least k (by omega) hStuck
    exact ((hEnded.visited b).mp (hAll b hb)).mono hLe
  · intro h
    have hGiven : ∀ i b again, Offer.give (x i) true = .give b again → b ∈ all := by
      rintro i b again hGive
      cases hGive
      exact hMem i
    obtain ⟨i, hStopped⟩ := exists_stopped hGiven (fun i => ⟨i, le_rfl, nofun⟩) v
    obtain ⟨first, hEnded⟩ := hEnd i hStopped
    exact ⟨i, hStopped, fun b hb => (hEnded.visited b).mpr (h first hEnded.stuck b hb)⟩

/-! ## With empty offers between -/

end Visit

def Offer.given : Offer β → Option β
  | .give b _ => some b
  | _ => none

namespace Visit

section Given

variable [DecidableEq β] {limit : Nat} {v : Visit β} {offers : Nat → Offer β} {n : Nat}

def Given (v : Visit β) (offers : Nat → Offer β) (n : Nat) (b : β) : Prop :=
  b ∈ v.visited ∨ ∃ m < n, (offers m).given = some b

instance (v : Visit β) (offers : Nat → Offer β) (n : Nat) (b : β) :
    Decidable (v.Given offers n b) :=
  inferInstanceAs (Decidable (_ ∨ _))

/-- The repeats in a row before the `n`-th offer.  Empty offers do not count. -/
def repeatsBefore (v : Visit β) (offers : Nat → Offer β) : Nat → Nat
  | 0 => v.repeats
  | n + 1 =>
    match (offers n).given with
    | none => v.repeatsBefore offers n
    | some b => if v.Given offers n b then v.repeatsBefore offers n + 1 else 0

def Open (limit : Nat) (v : Visit β) (offers : Nat → Offer β) (n : Nat) : Prop :=
  (∀ m < n, offers m ≠ .stop) ∧ ∀ m ≤ n, v.repeatsBefore offers m < limit

theorem open_succ : v.Open limit offers (n + 1) ↔
    v.Open limit offers n ∧ offers n ≠ .stop ∧ v.repeatsBefore offers (n + 1) < limit := by
  constructor
  · rintro ⟨hStop, hFew⟩
    exact ⟨⟨fun m hm => hStop m (by omega), fun m hm => hFew m (by omega)⟩, hStop n (by omega),
      hFew (n + 1) le_rfl⟩
  · rintro ⟨⟨hStop, hFew⟩, hStop', hFew'⟩
    refine ⟨fun m hm => ?_, fun m hm => ?_⟩
    · rcases Nat.lt_succ_iff_lt_or_eq.mp hm with hLt | rfl
      · exact hStop m hLt
      · exact hStop'
    · rcases Nat.lt_or_eq_of_le hm with hLt | rfl
      · exact hFew m (by omega)
      · exact hFew'

theorem Open.mono {m : Nat} (h : v.Open limit offers n) (hm : m ≤ n) : v.Open limit offers m :=
  ⟨fun k hk => h.1 k (by omega), fun k hk => h.2 k (by omega)⟩

omit [DecidableEq β] in
theorem given_succ : v.Given offers (n + 1) b ↔ v.Given offers n b ∨ (offers n).given = some b := by
  constructor
  · rintro (h | ⟨m, hm, hGiven⟩)
    · exact .inl (.inl h)
    · rcases Nat.lt_succ_iff_lt_or_eq.mp hm with hLt | rfl
      · exact .inl (.inr ⟨m, hLt, hGiven⟩)
      · exact .inr hGiven
  · rintro ((h | ⟨m, hm, hGiven⟩) | hGiven)
    · exact .inl h
    · exact .inr ⟨m, by omega, hGiven⟩
    · exact .inr ⟨n, by omega, hGiven⟩

theorem repeatsBefore_of_none (h : (offers n).given = none) :
    v.repeatsBefore offers (n + 1) = v.repeatsBefore offers n := by
  rw [repeatsBefore, h]

theorem repeatsBefore_of_some (h : (offers n).given = some b) :
    v.repeatsBefore offers (n + 1) =
      if v.Given offers n b then v.repeatsBefore offers n + 1 else 0 := by
  rw [repeatsBefore, h]

structure AtOffer (limit : Nat) (v : Visit β) (offers : Nat → Offer β) (n : Nat) (w : Visit β) :
    Prop where
  running : w.stopped = false
  visited : ∀ b, b ∈ w.visited ↔ v.Given offers n b
  repeats : w.repeats = v.repeatsBefore offers n
  few : w.repeats < limit

theorem AtOffer.mem_visited_step {w : Visit β} (h : AtOffer limit v offers n w) (c : β) :
    c ∈ (w.step limit (offers n)).visited ↔ v.Given offers (n + 1) c := by
  unfold Visit.step
  rw [if_neg (by simp [h.running]), given_succ, ← h.visited]
  cases hOffer : offers n with
  | stop | skip => simp [Offer.given]
  | give b again =>
    simp only [Offer.given, Option.some_inj]
    split
    · next hOld =>
      refine ⟨.inl, ?_⟩
      rintro (hIn | rfl)
      · exact hIn
      · exact hOld
    · rw [mem_append, mem_singleton, eq_comm]

theorem AtOffer.next {w : Visit β} (h : AtOffer limit v offers n w)
    (hAgain : ∀ b again, offers n = .give b again → again = true) :
    (offers n ≠ .stop ∧ v.repeatsBefore offers (n + 1) < limit ∧
        AtOffer limit v offers (n + 1) (w.step limit (offers n))) ∨
      ((offers n = .stop ∨ limit ≤ v.repeatsBefore offers (n + 1)) ∧
        (w.step limit (offers n)).stopped = true) := by
  have hVisited := h.mem_visited_step
  unfold Visit.step at hVisited ⊢
  rw [if_neg (by simp [h.running])] at hVisited ⊢
  cases hOffer : offers n with
  | stop => exact .inr ⟨.inl rfl, rfl⟩
  | skip =>
    rw [hOffer] at hVisited
    have hSame := repeatsBefore_of_none (v := v) (show (offers n).given = none by rw [hOffer]; rfl)
    rw [← h.repeats] at hSame
    exact .inl ⟨nofun, hSame ▸ h.few, h.running, hVisited, hSame.symm, h.few⟩
  | give b again =>
    obtain rfl := hAgain b again hOffer
    rw [hOffer] at hVisited
    have hNext := repeatsBefore_of_some (v := v)
      (show (offers n).given = some b by rw [hOffer]; rfl)
    rw [← h.repeats] at hNext
    simp only at hVisited ⊢
    by_cases hOld : b ∈ w.visited
    · rw [if_pos ((h.visited b).mp hOld)] at hNext
      rw [if_pos hOld] at hVisited ⊢
      by_cases hLast : limit ≤ w.repeats + 1
      · exact .inr ⟨.inr (hNext ▸ hLast), by simp [hLast]⟩
      · exact .inl ⟨nofun, by omega, by simp [hLast], hVisited, hNext.symm, by simpa using hLast⟩
    · rw [if_neg fun hIn => hOld ((h.visited b).mpr hIn)] at hNext
      rw [if_neg hOld] at hVisited ⊢
      have hPos : 0 < limit := lt_of_le_of_lt (Nat.zero_le _) h.few
      exact .inl ⟨nofun, by omega, rfl, hVisited, hNext.symm, hPos⟩

/-- **Where a search is** before the `n`-th offer. -/
theorem atOffer_or_stopped (hRunning : v.stopped = false) (hFew : v.repeats < limit)
    (hAgain : ∀ n b again, offers n = .give b again → again = true) (n : Nat) :
    (v.Open limit offers n ∧ AtOffer limit v offers n (v.run limit offers n)) ∨
      (¬ v.Open limit offers n ∧ (v.run limit offers n).stopped = true) := by
  induction n with
  | zero =>
    refine .inl ⟨⟨nofun, fun m hm => ?_⟩, hRunning, ?_, rfl, hFew⟩
    · rw [Nat.le_zero.mp hm]
      exact hFew
    · simp [run, Given]
  | succ n ih =>
    rw [run, open_succ]
    rcases ih with ⟨hOpen, hAt⟩ | ⟨hShut, hStopped⟩
    · rcases hAt.next (hAgain n) with ⟨hStop, hFew', hAt'⟩ | ⟨hEnd, hStopped⟩
      · exact .inl ⟨⟨hOpen, hStop, hFew'⟩, hAt'⟩
      refine .inr ⟨?_, hStopped⟩
      rintro ⟨-, hStop, hFew'⟩
      rcases hEnd with hEnd | hEnd
      · exact hStop hEnd
      · omega
    · rw [step_of_stopped hStopped]
      exact .inr ⟨fun h => hShut h.1, hStopped⟩

/-- **A search visits something of `T` exactly when that is given while the search is open.** -/
theorem visits_some_iff (limit : Nat) (hRunning : v.stopped = false) (hFew : v.repeats < limit)
    (hAgain : ∀ n b again, offers n = .give b again → again = true) {T : β → Prop}
    (hNone : ∀ b ∈ v.visited, ¬ T b) :
    (∃ i, ∃ b ∈ (v.run limit offers i).visited, T b) ↔
      ∃ n b, (offers n).given = some b ∧ T b ∧ v.Open limit offers n := by
  have hPlace := atOffer_or_stopped hRunning hFew hAgain
  constructor
  · -- the first time that something of `T` is there
    rintro ⟨i, b, hMem, hT⟩
    induction i with
    | zero => exact absurd hT (hNone b hMem)
    | succ i ih =>
      rw [run] at hMem
      rcases hPlace i with ⟨hOpen, hAt⟩ | ⟨-, hStopped⟩
      · rcases given_succ.mp ((hAt.mem_visited_step b).mp hMem) with hGiven | hGiven
        · exact ih ((hAt.visited b).mpr hGiven)
        · exact ⟨i, b, hGiven, hT, hOpen⟩
      · rw [step_of_stopped hStopped] at hMem
        exact ih hMem
  · rintro ⟨n, b, hGiven, hT, hOpen⟩
    rcases hPlace n with ⟨-, hAt⟩ | ⟨hShut, -⟩
    · exact ⟨n + 1, b, (hAt.mem_visited_step b).mpr (given_succ.mpr (.inr hGiven)), hT⟩
    · exact absurd hOpen hShut

end Given

end Visit

end Core
