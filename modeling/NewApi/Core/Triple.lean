import NewApi.Core.Prog

/-!
# Rules of pre- and postconditions

`Triple P p Q E`: from a store with `P`, a program `p` that comes back leaves a value and a store
with `Q`, or an error and a store with `E`. There is one rule for each way `Prog` builds programs.
-/

namespace Core

namespace Prog

variable {σ α β : Type}

/-- Partial correctness, with one postcondition for values and one for errors. -/
def Triple (P : σ → Prop) (p : Prog σ α) (Q : α → σ → Prop) (E : String → σ → Prop) : Prop :=
  ∀ s, P s → (∀ a t, p s = (.ok a, t) → Q a t) ∧ ∀ e t, p s = (.error (.err e), t) → E e t

namespace Triple

variable {P P' : σ → Prop} {p : Prog σ α} {Q Q' : α → σ → Prop} {E E' : String → σ → Prop}

theorem ok (h : Triple P p Q E) {s t : σ} {a : α} (hP : P s) (hRun : p s = (.ok a, t)) : Q a t :=
  (h s hP).1 a t hRun

theorem of_cases (h : ∀ s, P s → (∃ e t, p s = (.error (.err e), t) ∧ E e t) ∨
    ∃ a t, p s = (.ok a, t) ∧ Q a t) : Triple P p Q E := by
  intro s hP
  rcases h s hP with ⟨e, t, hRun, hE⟩ | ⟨a, t, hRun, hQ⟩
  · refine ⟨?_, ?_⟩
    · intro a t' hRun'
      rw [hRun] at hRun'
      cases hRun'
    intro e' t' hRun'
    rw [hRun] at hRun'
    cases hRun'
    exact hE
  · refine ⟨?_, ?_⟩
    · intro a' t' hRun'
      rw [hRun] at hRun'
      cases hRun'
      exact hQ
    · intro e t' hRun'
      rw [hRun] at hRun'
      cases hRun'

theorem imp (h : Triple P p Q E) (hP : ∀ s, P' s → P s) (hQ : ∀ a s, Q a s → Q' a s)
    (hE : ∀ e s, E e s → E' e s) : Triple P' p Q' E' := by
  intro s hs
  obtain ⟨hOk, hErr⟩ := h s (hP s hs)
  exact ⟨fun a t hRun => hQ a t (hOk a t hRun), fun e t hRun => hE e t (hErr e t hRun)⟩

theorem trivial : Triple (fun _ => True) p (fun _ _ => True) (fun _ _ => True) :=
  fun _ _ => ⟨fun _ _ _ => True.intro, fun _ _ _ => True.intro⟩

theorem pure {a : α} (h : ∀ s, P s → Q a s) : Triple P (Pure.pure a : Prog σ α) Q E :=
  of_cases fun s hs => .inr ⟨a, s, rfl, h s hs⟩

theorem fail {text : String} (h : ∀ s, P s → E text s) : Triple P (Prog.fail text : Prog σ α) Q E :=
  of_cases fun s hs => .inl ⟨text, s, rfl, h s hs⟩

theorem read {f : σ → α} (h : ∀ s, P s → Q (f s) s) : Triple P (Prog.read f) Q E :=
  of_cases fun s hs => .inr ⟨f s, s, rfl, h s hs⟩

theorem write {f : σ → σ} {Q : Unit → σ → Prop} (h : ∀ s, P s → Q () (f s)) :
    Triple P (Prog.write f) Q E :=
  of_cases fun s hs => .inr ⟨(), f s, rfl, h s hs⟩

theorem stmt {fault : Option String} (hp : Triple P p Q E) (hE : ∀ e s, P s → E e s) :
    Triple P (Prog.stmt fault p) Q E := by
  cases fault with
  | none => exact hp
  | some text => exact fail fun s hs => hE text s hs

theorem bind {q : α → Prog σ β} {R : α → σ → Prop} {Q : β → σ → Prop} (hp : Triple P p R E)
    (hq : ∀ a, Triple (R a) (q a) Q E) : Triple P (p >>= q) Q E := by
  intro s hs
  obtain ⟨hOk, hErr⟩ := hp s hs
  rcases hRun : p s with ⟨e | a, s'⟩
  · refine ⟨?_, ?_⟩
    · intro b t hBind
      rw [bind_error hRun] at hBind
      cases hBind
    intro e' t hBind
    rw [bind_error hRun] at hBind
    cases hBind
    exact hErr e' s' hRun
  · have hNext := hq a s' (hOk a s' hRun)
    refine ⟨?_, ?_⟩
    · intro b t hBind
      rw [bind_ok hRun] at hBind
      exact hNext.1 b t hBind
    · intro e t hBind
      rw [bind_ok hRun] at hBind
      exact hNext.2 e t hBind

def Handled (Q : α → σ → Prop) (E : String → σ → Prop) : Except String α → σ → Prop
  | .ok a => Q a
  | .error e => E e

theorem attempt (h : Triple P p Q E) : Triple P (Prog.attempt p) (Handled Q E) E' := by
  intro s hs
  obtain ⟨hOk, hErr⟩ := h s hs
  unfold Prog.attempt
  rcases hRun : p s with ⟨(e | _) | a, s'⟩
  · refine ⟨?_, nofun⟩
    intro r t hr
    cases hr
    exact hErr e s' hRun
  · exact ⟨nofun, nofun⟩
  · refine ⟨?_, nofun⟩
    intro r t hr
    cases hr
    exact hOk a s' hRun

theorem ite {c : Prop} [Decidable c] {q : Prog σ α} (hp : c → Triple P p Q E)
    (hq : ¬c → Triple P q Q E) : Triple P (if c then p else q) Q E := by
  split
  · next hc => exact hp hc
  · next hc => exact hq hc

end Triple

end Prog

end Core
