import Mathlib.Logic.Basic

/-!
# Loops that stop at an error

`List.foldlM` in `Except`: a run that returns can be taken apart at each element, and what every
step keeps or appends is in the result.
-/

namespace Core.Fallible

variable {ε α β σ : Type}

theorem bind_eq_ok {x : Except ε α} {f : α → Except ε β} {b : β} :
    x >>= f = .ok b ↔ ∃ a, x = .ok a ∧ f a = .ok b := by
  cases x with
  | error e =>
    constructor
    · exact nofun
    · rintro ⟨a, h, -⟩
      exact nomatch h
  | ok a =>
    constructor
    · exact fun h => ⟨a, rfl, h⟩
    · rintro ⟨a', hEq, h⟩
      obtain rfl := Except.ok.inj hEq
      exact h

variable {f : σ → α → Except ε σ} {s s' : σ}

theorem foldlM_nil_eq_ok : List.foldlM f s [] = .ok s' ↔ s = s' :=
  ⟨fun h => Except.ok.inj h, fun h => congrArg _ h⟩

theorem foldlM_cons_eq_ok {x : α} {l : List α} :
    (x :: l).foldlM f s = .ok s' ↔ ∃ s₁, f s x = .ok s₁ ∧ l.foldlM f s₁ = .ok s' := by
  rw [List.foldlM_cons, bind_eq_ok]

theorem foldlM_append_eq_ok {l l' : List α} :
    (l ++ l').foldlM f s = .ok s' ↔ ∃ s₁, l.foldlM f s = .ok s₁ ∧ l'.foldlM f s₁ = .ok s' := by
  rw [List.foldlM_append, bind_eq_ok]

theorem foldlM_split {before after : List α} {x : α} :
    (before ++ x :: after).foldlM f s = .ok s' ↔
      ∃ s₁ s₂, before.foldlM f s = .ok s₁ ∧ f s₁ x = .ok s₂ ∧ after.foldlM f s₂ = .ok s' := by
  rw [foldlM_append_eq_ok]
  constructor
  · rintro ⟨s₁, hBefore, hRest⟩
    obtain ⟨s₂, hx, hAfter⟩ := foldlM_cons_eq_ok.mp hRest
    exact ⟨s₁, s₂, hBefore, hx, hAfter⟩
  · rintro ⟨s₁, s₂, hBefore, hx, hAfter⟩
    exact ⟨s₁, hBefore, foldlM_cons_eq_ok.mpr ⟨s₂, hx, hAfter⟩⟩

theorem foldlM_rel {R : σ → σ → Prop} (hRefl : ∀ s, R s s)
    (hTrans : ∀ {s₁ s₂ s₃}, R s₁ s₂ → R s₂ s₃ → R s₁ s₃)
    (hStep : ∀ {s x s'}, f s x = .ok s' → R s s') {l : List α} (h : l.foldlM f s = .ok s') :
    R s s' := by
  induction l generalizing s with
  | nil =>
    obtain rfl := foldlM_nil_eq_ok.mp h
    exact hRefl s
  | cons x l ih =>
    obtain ⟨s₁, hx, hRest⟩ := foldlM_cons_eq_ok.mp h
    exact hTrans (hStep hx) (ih hRest)

/-! ## Steps that append -/

/-- What is added to a list does not depend on it. -/
def Appends (g : List β → Except ε (List β)) : Prop := ∀ l, g l = (g []).map (l ++ ·)

theorem Appends.ok {g : List β → Except ε (List β)} (hg : Appends g) {l l' : List β}
    (h : g l = .ok l') : ∃ own, g [] = .ok own ∧ l' = l ++ own := by
  rw [hg l] at h
  cases hOwn : g [] with rw [hOwn] at h
  | error e => exact nomatch h
  | ok own => exact ⟨own, rfl, (Except.ok.inj h).symm⟩

section Loop

variable {g : List β → α → Except ε (List β)} (hg : ∀ x, Appends fun l => g l x)

include hg

theorem Appends.foldlM (xs : List α) : Appends fun l => xs.foldlM g l := by
  induction xs with intro l
  | nil =>
    show Except.ok l = Except.ok (l ++ [])
    rw [List.append_nil]
  | cons x xs ih =>
    have hx : g l x = (g [] x).map (l ++ ·) := hg x l
    have hRest : ∀ l, xs.foldlM g l = (xs.foldlM g []).map (l ++ ·) := ih
    show g l x >>= (fun l' => xs.foldlM g l') =
      (g [] x >>= fun l' => xs.foldlM g l').map (l ++ ·)
    rw [hx]
    cases g [] x with
    | error e => rfl
    | ok own =>
      show xs.foldlM g (l ++ own) = (xs.foldlM g own).map (l ++ ·)
      rw [hRest (l ++ own), hRest own]
      cases xs.foldlM g [] with
      | error e => rfl
      | ok rest =>
        show Except.ok (l ++ own ++ rest) = Except.ok (l ++ (own ++ rest))
        rw [List.append_assoc]

theorem Appends.split {before after : List α} {x : α} {l l' : List β}
    (h : (before ++ x :: after).foldlM g l = .ok l') :
    ∃ own earlier later, g [] x = .ok own ∧ l' = earlier ++ own ++ later := by
  obtain ⟨l₁, l₂, -, hx, hAfter⟩ := foldlM_split.mp h
  obtain ⟨own, hOwn, rfl⟩ := (hg x).ok hx
  obtain ⟨later, -, rfl⟩ := (Appends.foldlM hg after).ok hAfter
  exact ⟨own, l₁, later, hOwn, rfl⟩

end Loop

end Core.Fallible
