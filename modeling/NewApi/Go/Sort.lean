import Mathlib.Data.Int.ConditionallyCompleteOrder
import Mathlib.Data.List.Sort
import Mathlib.Order.ConditionallyCompleteLattice.Basic

/-!
# The `sort` package

`sort.Slice` and an `ORDER BY` promise a sorted permutation and nothing about equal elements: a
`Sorting` is any function that keeps the promise, the greatest key first and elements without a key
last.  `stable` is `sort.SliceStable`.
-/

namespace Go

structure Sorting (α : Type) where
  sort : (α → WithBot Int) → List α → List α
  perm : ∀ key l, (sort key l).Perm l
  desc : ∀ key l, (sort key l).Pairwise fun a b => key b ≤ key a

variable {α : Type}

def stable (key : α → WithBot Int) (l : List α) : List α :=
  l.insertionSort fun a b => key b ≤ key a

theorem stable_perm (key : α → WithBot Int) (l : List α) : (stable key l).Perm l :=
  List.perm_insertionSort _ l

def Sorting.ofStable : Sorting α where
  sort := stable
  perm := stable_perm
  desc key l := by
    have : Std.Total fun a b : α => key b ≤ key a := ⟨fun a b => le_total (key b) (key a)⟩
    have : IsTrans α fun a b => key b ≤ key a := ⟨fun a b c hab hbc => hbc.trans hab⟩
    exact List.pairwise_insertionSort _ l

end Go
