import Mathlib.Data.List.Basic

/-!
# Decisions made from what was admitted

A policy admits an item after looking at those admitted before.  Two policies differ on a sequence
exactly if they differ at some item about the same admitted items.  A program `Simulates` a policy
if its state knows enough about them.
-/

namespace Core.Admission

universe u v

variable {α : Type u} {σ : Type v}

def next (accept : List α → α → Bool) (log : List α) (a : α) : List α :=
  if accept log a then log ++ [a] else log

def decisions (accept : List α → α → Bool) : List α → List α → List Bool
  | _, [] => []
  | log, a :: as => accept log a :: decisions accept (next accept log a) as

def admitted (accept : List α → α → Bool) (log as : List α) : List α := as.foldl (next accept) log

theorem decisions_eq_iff {p q : List α → α → Bool} (as log : List α) :
    decisions p log as = decisions q log as ↔
      ∀ earlier a later, as = earlier ++ a :: later →
        p (admitted q log earlier) a = q (admitted q log earlier) a := by
  induction as generalizing log with
  | nil => simp [decisions]
  | cons a as ih =>
    rw [decisions, decisions, List.cons.injEq]
    constructor
    · rintro ⟨hHead, hTail⟩ earlier b later hEq
      have hNext : next p log a = next q log a := by rw [next, next, hHead]
      rw [hNext, ih] at hTail
      rcases List.cons_eq_append_iff.mp hEq with ⟨rfl, hCons⟩ | ⟨earlier', rfl, hRest⟩
      · rw [(List.cons.inj hCons).1]
        exact hHead
      · exact hTail earlier' b later hRest
    · intro hAll
      have hHead : p log a = q log a := hAll [] a as rfl
      refine ⟨hHead, ?_⟩
      have hNext : next p log a = next q log a := by rw [next, next, hHead]
      rw [hNext, ih]
      exact fun earlier b later hEq => hAll (a :: earlier) b later (by rw [hEq, List.cons_append])

/-- Each item is answered as the policy does, by a state that knows enough about what was admitted.
-/
def Simulates (handle : σ → α → σ × Bool) (accept : List α → α → Bool) (Valid : α → Prop)
    (Before : α → α → Prop) (Knows : List α → α → σ → Prop) : Prop :=
  ∀ log s a, Valid a → Knows log a s → (handle s a).2 = accept log a ∧
    ∀ b, Before a b → Knows (next accept log a) b (handle s a).1

theorem Simulates.answers_eq {handle : σ → α → σ × Bool} {accept : List α → α → Bool}
    {Valid : α → Prop} {Before : α → α → Prop} {Knows : List α → α → σ → Prop}
    (h : Simulates handle accept Valid Before Knows) {answers : σ → List α → List Bool}
    (hNil : ∀ s, answers s [] = [])
    (hCons : ∀ s a as, answers s (a :: as) = (handle s a).2 :: answers (handle s a).1 as)
    {log : List α} {s : σ} (as : List α) (hValid : ∀ a ∈ as, Valid a)
    (hOrder : as.Pairwise Before) (hFirst : ∀ a ∈ as.head?, Knows log a s) :
    answers s as = decisions accept log as := by
  induction as generalizing log s with
  | nil => exact hNil s
  | cons a as ih =>
    rw [List.forall_mem_cons] at hValid
    rw [List.pairwise_cons] at hOrder
    obtain ⟨hAnswer, hNext⟩ := h log s a hValid.1 (hFirst a rfl)
    rw [hCons, decisions, hAnswer]
    congr 1
    exact ih hValid.2 hOrder.2 fun b hb => hNext b (hOrder.1 b (List.mem_of_mem_head? hb))

end Core.Admission
