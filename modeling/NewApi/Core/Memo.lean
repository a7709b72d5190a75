import Mathlib.Logic.Function.Basic

/-!
# A shared memo table

What was loaded for an item is kept with the item and, under a key computed from it, in a table that
the items share.  Everything returned for an item was loaded for some item with the same key
(`of_mem_answers`).
-/

namespace Core.Memo

open Function

variable {ι κ δ ε : Type*}

structure State (ι κ δ : Type*) where
  own : ι → Option δ
  shared : κ → Option δ

def empty : State ι κ δ := ⟨fun _ => none, fun _ => none⟩

variable (key : ι → κ) (load : ι → Except ε δ)

def Loaded (k : κ) (d : δ) : Prop := ∃ j, key j = k ∧ load j = .ok d

structure Sound (s : State ι κ δ) : Prop where
  own : ∀ i d, s.own i = some d → Loaded key load (key i) d
  shared : ∀ k d, s.shared k = some d → Loaded key load k d

theorem Sound.empty : Sound key load (empty : State ι κ δ) := ⟨nofun, nofun⟩

variable [DecidableEq ι] [DecidableEq κ]

def get (s : State ι κ δ) (i : ι) : State ι κ δ × Except ε δ :=
  match s.own i with
  | some d => (s, .ok d)
  | none =>
    match s.shared (key i) with
    | some d => ({ s with own := Function.update s.own i (some d) }, .ok d)
    | none =>
      match load i with
      | .error e => (s, .error e)
      | .ok d =>
        ({ own := Function.update s.own i (some d),
           shared := Function.update s.shared (key i) (some d) }, .ok d)

def answers (s : State ι κ δ) : List ι → List (ι × Except ε δ)
  | [] => []
  | i :: rest => (i, (get key load s i).2) :: answers (get key load s i).1 rest

variable {key load}

variable {s : State ι κ δ} {i : ι} {d : δ}

theorem get_of_own (h : s.own i = some d) : get key load s i = (s, .ok d) := by
  simp only [get, h]

theorem get_of_shared (hOwn : s.own i = none) (h : s.shared (key i) = some d) :
    get key load s i = ({ s with own := update s.own i (some d) }, .ok d) := by
  simp only [get, hOwn, h]

theorem get_of_error {e : ε} (hOwn : s.own i = none) (hShared : s.shared (key i) = none)
    (h : load i = .error e) : get key load s i = (s, .error e) := by
  simp only [get, hOwn, hShared, h]

theorem get_of_load (hOwn : s.own i = none) (hShared : s.shared (key i) = none)
    (h : load i = .ok d) :
    get key load s i =
      (⟨update s.own i (some d), update s.shared (key i) (some d)⟩, .ok d) := by
  simp only [get, hOwn, hShared, h]

theorem forall_update {α : Type*} [DecidableEq α] {f : α → Option δ} {Q : α → δ → Prop}
    (h : ∀ a d, f a = some d → Q a d) {b : α} {e : δ} (hb : Q b e) :
    ∀ a d, update f b (some e) a = some d → Q a d := by
  intro a d hd
  by_cases ha : a = b
  · subst ha
    rw [update_self] at hd
    cases hd
    exact hb
  · rw [update_of_ne ha] at hd
    exact h a d hd

theorem Sound.get (h : Sound key load s) (i : ι) :
    Sound key load (get key load s i).1 ∧
      ∀ d, (Memo.get key load s i).2 = .ok d → Loaded key load (key i) d := by
  have hAnswer : ∀ {t : State ι κ δ} {d : δ}, Loaded key load (key i) d →
      ∀ e, (t, Except.ok (ε := ε) d).2 = .ok e → Loaded key load (key i) e := by
    rintro t d hd e he
    cases he
    exact hd
  unfold Memo.get
  split
  · next d hOwn => exact ⟨h, hAnswer (h.own i d hOwn)⟩
  split
  · next d hShared =>
    have hd : Loaded key load (key i) d := h.shared _ d hShared
    exact ⟨⟨forall_update h.own hd, h.shared⟩, hAnswer hd⟩
  split
  · exact ⟨h, nofun⟩
  · next d hLoad =>
    have hd : Loaded key load (key i) d := ⟨i, rfl, hLoad⟩
    exact ⟨⟨forall_update h.own hd, forall_update h.shared hd⟩, hAnswer hd⟩

theorem of_mem_answers (h : Sound key load s) {is : List ι}
    (hMem : (i, Except.ok d) ∈ answers key load s is) : Loaded key load (key i) d := by
  induction is generalizing s with
  | nil => exact absurd hMem List.not_mem_nil
  | cons j rest ih =>
    rcases List.mem_cons.mp hMem with hHead | hRest
    · obtain ⟨rfl, hAnswer⟩ := Prod.mk.inj hHead
      exact (h.get i).2 d hAnswer.symm
    · exact ih (h.get j).1 hRest

theorem mem_answers_pair {j : ι} (hKey : key i = key j) (hLoad : load i = .ok d) :
    (j, Except.ok d) ∈ answers key load empty [i, j] := by
  have hFirst : get key load empty i =
      (⟨update (fun _ => none) i (some d), update (fun _ => none) (key i) (some d)⟩, .ok d) :=
    get_of_load rfl rfl hLoad
  have hShared : (get key load empty i).1.shared (key j) = some d := by
    rw [hFirst, ← hKey]
    show update (fun _ => none) (key i) (some d) (key i) = some d
    rw [update_self]
  have hSecond : (get key load (get key load empty i).1 j).2 = .ok d := by
    cases hOwn : (get key load empty i).1.own j with
    | none => rw [get_of_shared hOwn hShared]
    | some e =>
      have he : e = d := by
        have hUpdate : update (fun _ => none) i (some d) j = some e := by
          rw [hFirst] at hOwn
          exact hOwn
        exact forall_update (Q := fun _ e => e = d) (by simp) rfl j e hUpdate
      rw [get_of_own hOwn, he]
  exact List.mem_cons_of_mem _ (List.mem_singleton.mpr (Prod.ext rfl hSecond.symm))

/-- **A property holds of all answers** exactly when the data of items with one key have it. -/
theorem answers_forall_iff {P : ι → δ → Prop} :
    (∀ is : List ι, ∀ i d, (i, Except.ok d) ∈ answers key load empty is → P i d) ↔
      ∀ i j d, key i = key j → load i = .ok d → P j d := by
  constructor
  · intro h i j d hKey hi
    exact h [i, j] j d (mem_answers_pair hKey hi)
  · intro h is i d hMem
    obtain ⟨j, hKey, hj⟩ := of_mem_answers (Sound.empty key load) hMem
    exact h j i d hKey hj

end Core.Memo
