import Mathlib.Data.Finmap

/-!
# Sparse lists

A finite map from positions.  A loop that keeps some elements of a list and puts their entries under
new numbers builds a map that is `Gathers` the old one.
-/

namespace Core

abbrev Sparse (β : Type) := Finmap fun _ : Nat => β

namespace Sparse

variable {β : Type}

def below (m : Sparse β) (n : Nat) : Sparse β where
  entries := m.entries.filter fun e => e.1 < n
  nodupKeys := by
    obtain ⟨entries, hNodup⟩ := m
    induction entries using Quotient.inductionOn with
    | h l => exact hNodup.sublist List.filter_sublist

theorem lookup_below (m : Sparse β) (n j : Nat) :
    (m.below n).lookup j = if j < n then m.lookup j else none := by
  ext b
  by_cases hj : j < n <;> simp [below, hj, Finmap.lookup_eq_some_iff]

def put (m : Sparse β) (i : Nat) (entry : Option β) : Sparse β := entry.elim m (m.insert i)

theorem lookup_put_self (m : Sparse β) {i : Nat} (hFree : m.lookup i = none) (entry : Option β) :
    (m.put i entry).lookup i = entry := by
  cases entry with
  | none => exact hFree
  | some b => exact Finmap.lookup_insert m

theorem lookup_put_of_ne (m : Sparse β) {i j : Nat} (h : j ≠ i) (entry : Option β) :
    (m.put i entry).lookup j = m.lookup j := by
  cases entry with
  | none => rfl
  | some b => exact Finmap.lookup_insert_of_ne m h

def Gathers {α : Type} (m : Sparse β) (entry : α → Option β) (l : List α) : Prop :=
  ∀ j, m.lookup j = l[j]?.bind entry

variable {α : Type} {m : Sparse β} {entry : α → Option β} {l : List α}

theorem gathers_nil : Gathers (∅ : Sparse β) entry [] := fun j => by
  rw [List.getElem?_nil]
  exact Finmap.lookup_empty j

theorem Gathers.put (h : m.Gathers entry l) (x : α) :
    (m.put l.length (entry x)).Gathers entry (l ++ [x]) := by
  intro j
  by_cases hj : j = l.length
  · subst hj
    have hFree : m.lookup l.length = none := by simp [h l.length]
    rw [lookup_put_self m hFree]
    simp
  rw [lookup_put_of_ne m hj, h j]
  rcases Nat.lt_or_gt_of_ne hj with hLt | hGt
  · rw [List.getElem?_append_left hLt]
  · rw [List.getElem?_eq_none (by omega), List.getElem?_eq_none (by simp; omega)]

end Sparse

end Core
