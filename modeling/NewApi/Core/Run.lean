import Mathlib.Algebra.BigOperators.Group.List.Basic

/-!
# Runs of a transition system

`Reach.invariant` is the induction that every safety proof uses.  For step functions
`states_forall_iff`, `foldl_iff_moves` and `stable_iff_moves` turn an exact criterion for one step
into one for all states of a run, the last one, or all from some state on.
-/

namespace Core

open List

universe u v w

structure System (σ : Type u) (α : Type v) where
  Init : σ → Prop
  Step : σ → α → σ → Prop

namespace System

variable {σ : Type u} {α : Type v} {S T : System σ α}

inductive Reach (S : System σ α) : σ → Prop
  | init {s : σ} : S.Init s → Reach S s
  | step {s t : σ} {a : α} : Reach S s → S.Step s a t → Reach S t

def only (S : System σ α) (G : σ → α → Prop) : System σ α where
  Init := S.Init
  Step s a t := G s a ∧ S.Step s a t

theorem Reach.invariant {I : σ → Prop} (hInit : ∀ s, S.Init s → I s)
    (hStep : ∀ s a t, I s → S.Step s a t → I t) {s : σ} (h : S.Reach s) : I s := by
  induction h with
  | init hi => exact hInit _ hi
  | step _ hs ih => exact hStep _ _ _ ih hs

theorem Reach.mono (hInit : ∀ s, S.Init s → T.Init s)
    (hStep : ∀ s a t, S.Step s a t → T.Step s a t) {s : σ} (h : S.Reach s) : T.Reach s := by
  induction h with
  | init hi => exact .init (hInit _ hi)
  | step _ hs ih => exact .step ih (hStep _ _ _ hs)

theorem Reach.of_only {G : σ → α → Prop} {s : σ} (h : (S.only G).Reach s) : S.Reach s := by
  refine Reach.mono (S := S.only G) ?_ ?_ h
  · exact fun _ hi => hi
  · exact fun _ _ _ hs => hs.2

end System

/-! ## Runs of a step function -/

section StepFunction

variable {σ : Type u} {α : Type v} (f : σ → α → σ)

def states (s : σ) : List α → List σ
  | [] => [s]
  | a :: as => s :: states (f s a) as

def moves (s : σ) : List α → List (σ × α)
  | [] => []
  | a :: as => (s, a) :: moves (f s a) as

@[simp] theorem states_nil (s : σ) : states f s [] = [s] := rfl

@[simp] theorem states_cons (s : σ) (a : α) (as : List α) :
    states f s (a :: as) = s :: states f (f s a) as := rfl

@[simp] theorem moves_nil (s : σ) : moves f s [] = [] := rfl

@[simp] theorem moves_cons (s : σ) (a : α) (as : List α) :
    moves f s (a :: as) = (s, a) :: moves f (f s a) as := rfl

theorem mem_moves_append (as : List α) (a : α) (bs : List α) (s : σ) :
    (as.foldl f s, a) ∈ moves f s (as ++ a :: bs) := by
  induction as generalizing s with
  | nil => exact mem_cons_self
  | cons b as ih => exact mem_cons_of_mem _ (ih (f s b))

/-- **An exact criterion for one step is one for a run.** -/
theorem states_forall_iff {I P : σ → Prop} {G : σ → α → Prop}
    (hKeep : ∀ s a, I s → I (f s a))
    (hExact : ∀ s a, I s → P s → (P (f s a) ↔ G s a)) :
    ∀ (as : List α) (s : σ), I s → P s →
      ((∀ t ∈ states f s as, P t) ↔ ∀ m ∈ moves f s as, G m.1 m.2) := by
  intro as
  induction as with
  | nil => intro s _ hP; simp [hP]
  | cons a as ih =>
    intro s hI hP
    simp only [states_cons, moves_cons, forall_mem_cons]
    constructor
    · rintro ⟨_, hAll⟩
      have hNext : P (f s a) := hAll _ (by cases as <;> simp)
      exact ⟨(hExact s a hI hP).mp hNext, (ih (f s a) (hKeep s a hI) hNext).mp hAll⟩
    · rintro ⟨hG, hAll⟩
      have hNext : P (f s a) := (hExact s a hI hP).mpr hG
      exact ⟨hP, (ih (f s a) (hKeep s a hI) hNext).mpr hAll⟩

theorem foldl_iff_moves {I P : σ → Prop} {G : σ → α → Prop}
    (hKeep : ∀ s a, I s → I (f s a))
    (hExact : ∀ s a, I s → P s → (P (f s a) ↔ G s a))
    (hLost : ∀ s a, I s → ¬ P s → ¬ P (f s a)) :
    ∀ (as : List α) (s : σ), I s → P s → (P (as.foldl f s) ↔ ∀ m ∈ moves f s as, G m.1 m.2) := by
  have hGone : ∀ (as : List α) (s : σ), I s → ¬ P s → ¬ P (as.foldl f s) := by
    intro as
    induction as with
    | nil => exact fun s _ hP => hP
    | cons a as ih => exact fun s hI hP => ih (f s a) (hKeep s a hI) (hLost s a hI hP)
  intro as
  induction as with
  | nil => intro s _ hP; simp [hP]
  | cons a as ih =>
    intro s hI hP
    rw [foldl_cons, moves_cons, forall_mem_cons]
    by_cases hNext : P (f s a)
    · rw [ih (f s a) (hKeep s a hI) hNext]
      exact (and_iff_right ((hExact s a hI hP).mp hNext)).symm
    · refine iff_of_false (hGone as _ (hKeep s a hI) hNext) ?_
      rintro ⟨hG, -⟩
      exact hNext ((hExact s a hI hP).mpr hG)

theorem moves_forall_iff {I : σ → Prop} {P G : σ → α → Prop}
    (hKeep : ∀ s a, I s → I (f s a)) (hExact : ∀ s a, I s → (P s a ↔ G s a)) :
    ∀ (as : List α) (s : σ), I s →
      ((∀ m ∈ moves f s as, P m.1 m.2) ↔ ∀ m ∈ moves f s as, G m.1 m.2) := by
  intro as
  induction as with
  | nil => simp
  | cons a as ih =>
    intro s hI
    simp only [moves_cons, forall_mem_cons]
    rw [hExact s a hI, ih (f s a) (hKeep s a hI)]

theorem stable_iff_moves {Q : σ → Prop} (as : List α) (s : σ) :
    (∀ n m, n ≤ m → Q ((as.take n).foldl f s) → Q ((as.take m).foldl f s)) ↔
      ∀ m ∈ moves f s as, Q m.1 → Q (f m.1 m.2) := by
  induction as generalizing s with
  | nil => simp
  | cons a as ih =>
    rw [moves_cons, forall_mem_cons, ← ih]
    constructor
    · intro h
      refine ⟨h 0 1 (by omega), fun n m hnm => ?_⟩
      exact h (n + 1) (m + 1) (by omega)
    · rintro ⟨hHead, hTail⟩ n m hnm hQ
      match n, m with
      | 0, 0 => exact hQ
      | 0, m + 1 => exact hTail 0 m (by omega) (hHead hQ)
      | n + 1, m + 1 => exact hTail n m (by omega) hQ

/-- **What every step changes by what comes in and goes out** has changed by the sums. -/
theorem foldl_add_sum_eq {M : Type w} [AddCommMonoid M] {I : σ → Prop} (q : σ → M)
    {gone come : σ → α → M} (hKeep : ∀ s a, I s → I (f s a))
    (hStep : ∀ s a, I s → q (f s a) + gone s a = q s + come s a) (as : List α) {s : σ} (hI : I s) :
    q (as.foldl f s) + ((moves f s as).map fun m => gone m.1 m.2).sum =
      q s + ((moves f s as).map fun m => come m.1 m.2).sum := by
  induction as generalizing s with
  | nil => simp
  | cons a as ih =>
    simp only [foldl_cons, moves_cons, map_cons, sum_cons]
    rw [add_left_comm, ih (hKeep s a hI), add_left_comm, ← add_assoc, hStep s a hI, add_assoc]

theorem map_moves_snd {β : Type w} (g : α → β) (as : List α) (s : σ) :
    (moves f s as).map (fun m => g m.2) = as.map g := by
  induction as generalizing s with
  | nil => rfl
  | cons a as ih => rw [moves_cons, map_cons, map_cons, ih]

def System.ofFun (Init : σ → Prop) : System σ α where
  Init := Init
  Step s a t := t = f s a

variable {f} {Init : σ → Prop} {G : σ → α → Prop}

theorem reach_foldl_of_reach {s : σ} (h : ((System.ofFun f Init).only G).Reach s) (as : List α)
    (hG : ∀ m ∈ moves f s as, G m.1 m.2) : ((System.ofFun f Init).only G).Reach (as.foldl f s) := by
  induction as generalizing s with
  | nil => exact h
  | cons a as ih =>
    rw [moves_cons, forall_mem_cons] at hG
    exact ih (.step h ⟨hG.1, rfl⟩) hG.2

theorem reach_only_foldl {s : σ} (h : Init s) (as : List α)
    (hG : ∀ m ∈ moves f s as, G m.1 m.2) : ((System.ofFun f Init).only G).Reach (as.foldl f s) :=
  reach_foldl_of_reach (.init h) as hG

theorem reach_foldl {s : σ} (h : Init s) (as : List α) :
    (System.ofFun f Init).Reach (as.foldl f s) :=
  (reach_only_foldl (G := fun _ _ => True) h as (by simp)).of_only

end StepFunction

end Core
