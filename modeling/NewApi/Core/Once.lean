import NewApi.Core.Run

/-!
# Paying at most once

A process first takes the claim of a thing, which closes it, and pays in a later step.  A `Move`
leaves the `Payment` alone, takes an open claim, or pays what one process owes.  `Stage.move` is the
step lemma, `Stage.paid_le_one` what it is for.
-/

namespace Core

/-- What a system with the states `σ` and the processes `π` shows of one payment. -/
structure Payment (σ π : Type) where
  closed : σ → Prop
  owes : σ → π → Prop
  paid : σ → Nat

namespace Payment

variable {σ π : Type} (T : Payment σ π)

inductive Move (s t : σ) : Prop
  | quiet (hOwes : ∀ q, T.owes t q ↔ T.owes s q) (hPaid : T.paid t = T.paid s)
      (hClosed : T.closed s → T.closed t)
  | claim (p : π) (hOpen : ¬ T.closed s) (hOwes : ∀ q, T.owes t q ↔ T.owes s q ∨ q = p)
      (hPaid : T.paid t = T.paid s) (hClosed : T.closed t)
  | pay (p : π) (hDue : T.owes s p) (hOwes : ∀ q, T.owes t q ↔ T.owes s q ∧ q ≠ p)
      (hPaid : T.paid t = T.paid s + 1) (hClosed : T.closed s → T.closed t)

inductive Stage (s : σ) : Prop
  | unclaimed (hOwes : ∀ q, ¬ T.owes s q) (hPaid : T.paid s = 0)
  | owed (p : π) (hOwes : ∀ q, T.owes s q ↔ q = p) (hPaid : T.paid s = 0) (hClosed : T.closed s)
  | paid (hOwes : ∀ q, ¬ T.owes s q) (hPaid : T.paid s = 1) (hClosed : T.closed s)

def Answered (s : σ) : Prop := (∃ p, T.owes s p) ∨ 0 < T.paid s

variable {T} {s t : σ}

theorem Stage.unclaimed_of_open (h : T.Stage s) (hOpen : ¬ T.closed s) :
    (∀ q, ¬ T.owes s q) ∧ T.paid s = 0 := by
  cases h with
  | unclaimed hOwes hPaid => exact ⟨hOwes, hPaid⟩
  | owed p hOwes hPaid hClosed | paid hOwes hPaid hClosed => exact absurd hClosed hOpen

theorem Stage.move (h : T.Stage s) (m : T.Move s t) : T.Stage t := by
  cases m with
  | quiet hOwes' hPaid' hClosed' =>
    cases h with
    | unclaimed hOwes hPaid =>
      exact .unclaimed (fun q hq => hOwes q ((hOwes' q).mp hq)) (hPaid'.trans hPaid)
    | owed p hOwes hPaid hClosed =>
      exact .owed p (fun q => (hOwes' q).trans (hOwes q)) (hPaid'.trans hPaid) (hClosed' hClosed)
    | paid hOwes hPaid hClosed =>
      exact .paid (fun q hq => hOwes q ((hOwes' q).mp hq)) (hPaid'.trans hPaid) (hClosed' hClosed)
  | claim p hOpen hOwes' hPaid' hClosed' =>
    obtain ⟨hOwes, hPaid⟩ := h.unclaimed_of_open hOpen
    refine .owed p ?_ (hPaid'.trans hPaid) hClosed'
    intro q
    rw [hOwes' q]
    exact or_iff_right (hOwes q)
  | pay p hDue hOwes' hPaid' hClosed' =>
    cases h with
    | unclaimed hOwes hPaid => exact absurd hDue (hOwes p)
    | owed r hOwes hPaid hClosed =>
      have hp : p = r := (hOwes p).mp hDue
      refine .paid ?_ (by rw [hPaid', hPaid]) (hClosed' hClosed)
      intro q hq
      have hBoth := (hOwes' q).mp hq
      exact hBoth.2 (((hOwes q).mp hBoth.1).trans hp.symm)
    | paid hOwes hPaid hClosed => exact absurd hDue (hOwes p)

theorem Stage.paid_le_one (h : T.Stage s) : T.paid s ≤ 1 := by
  cases h with
  | unclaimed hOwes hPaid | owed p hOwes hPaid hClosed | paid hOwes hPaid hClosed => omega

theorem Answered.move (h : T.Answered s) (m : T.Move s t) : T.Answered t := by
  cases m with
  | quiet hOwes hPaid hClosed =>
    rcases h with ⟨p, hp⟩ | hp
    · exact .inl ⟨p, (hOwes p).mpr hp⟩
    · exact .inr (by rw [hPaid]; exact hp)
  | claim p hOpen hOwes hPaid hClosed => exact .inl ⟨p, (hOwes p).mpr (.inr rfl)⟩
  | pay p hDue hOwes hPaid hClosed => exact .inr (by rw [hPaid]; exact Nat.succ_pos _)

/-! ## Whole runs -/

variable {α : Type} {S : System σ α}

/-- **The stages along a run.** `V` goes back along every step. -/
theorem Stage.reach {V : σ → Prop} (hInit : ∀ s, S.Init s → T.Stage s)
    (hBack : ∀ s a t, S.Reach s → S.Step s a t → V t → V s)
    (hStep : ∀ s a t, S.Reach s → S.Step s a t → V t → T.Move s t)
    (h : S.Reach s) (hV : V s) : T.Stage s := by
  induction h with
  | init hi => exact hInit _ hi
  | step hr hs ih => exact (ih (hBack _ _ _ hr hs hV)).move (hStep _ _ _ hr hs hV)

end Payment

end Core
