import Mathlib.Data.List.Nodup
import Mathlib.Data.List.ProdSigma

/-!
# Postings

An inverted index.  `postAll` writes an id under some keys, as often as they come; `putAll` where it
is missing, and arranges the list; `drop` takes it out everywhere.
-/

namespace Core

open List Function

abbrev Postings (κ ι : Type) := κ → List ι

namespace Postings

variable {κ ι : Type} [DecidableEq κ] [DecidableEq ι]

def post (p : Postings κ ι) (k : κ) (id : ι) : Postings κ ι :=
  Function.update p k (p k ++ [id])

def postAll (p : Postings κ ι) (ks : List κ) (id : ι) : Postings κ ι :=
  ks.foldl (fun p k => post p k id) p

def drop (p : Postings κ ι) (id : ι) : Postings κ ι := fun k => (p k).filter (· ≠ id)

def put (arrange : List ι → List ι) (p : Postings κ ι) (k : κ) (id : ι) : Postings κ ι :=
  Function.update p k (arrange (if id ∈ p k then p k else p k ++ [id]))

def putAll (arrange : List ι → List ι) (p : Postings κ ι) (ks : List κ) (id : ι) :
    Postings κ ι :=
  ks.foldl (fun p k => put arrange p k id) p

/-! ## How often an id is listed -/

theorem count_post (p : Postings κ ι) (j : κ) (id : ι) (k : κ) (x : ι) :
    (post p j id k).count x = (p k).count x + if x = id ∧ j = k then 1 else 0 := by
  by_cases hk : k = j
  · subst hk
    by_cases hx : id = x
    · simp [post, hx]
    · simp [post, hx, Ne.symm hx]
  · simp [post, update_of_ne hk, Ne.symm hk]

theorem count_postAll [BEq κ] [LawfulBEq κ] (p : Postings κ ι) (ks : List κ) (id : ι) (k : κ)
    (x : ι) : (postAll p ks id k).count x = (p k).count x + if x = id then ks.count k else 0 := by
  induction ks generalizing p with
  | nil => simp [postAll]
  | cons j ks ih =>
    have hStep : postAll p (j :: ks) id = postAll (post p j id) ks id := rfl
    rw [hStep, ih, count_post, count_cons]
    by_cases hx : x = id
    · by_cases hj : j = k <;> simp [hx, hj]
      · omega
    · simp [hx]

omit [DecidableEq κ] in
theorem count_drop (p : Postings κ ι) (id : ι) (k : κ) (x : ι) :
    (drop p id k).count x = if x = id then 0 else (p k).count x := by
  by_cases hx : x = id
  · rw [if_pos hx, count_eq_zero]
    simp [drop, hx]
  · rw [if_neg hx]
    exact count_filter (by simpa using hx)

section Put

variable {arrange : List ι → List ι} (hPerm : ∀ l, (arrange l).Perm l)

include hPerm

section

variable (p : Postings κ ι)
include p

theorem count_put_of_ne (j : κ) {id x : ι} (hx : x ≠ id) (k : κ) :
    (put arrange p j id k).count x = (p k).count x := by
  by_cases hk : k = j
  · subst hk
    rw [put, update_self, (hPerm _).count_eq]
    by_cases hMem : id ∈ p k
    · rw [if_pos hMem]
    · simp [hMem, Ne.symm hx]
  · rw [put, update_of_ne hk]

theorem count_putAll_of_ne (ks : List κ) {id x : ι} (hx : x ≠ id) (k : κ) :
    (putAll arrange p ks id k).count x = (p k).count x := by
  induction ks generalizing p with
  | nil => rfl
  | cons j ks ih => exact (ih _).trans (count_put_of_ne hPerm p j hx k)

theorem count_put_self (j : κ) (id : ι) (k : κ) :
    (put arrange p j id k).count id =
      if id ∈ p k ∨ k ≠ j then (p k).count id else 1 := by
  by_cases hk : k = j
  · subst hk
    rw [put, update_self, (hPerm _).count_eq]
    by_cases hMem : id ∈ p k
    · simp [hMem]
    · simp [hMem, count_eq_zero.mpr hMem]
  · rw [put, update_of_ne hk, if_pos (.inr hk)]

/-- **An id that was not listed is listed once under each key it is written to.** -/
theorem count_putAll_self (ks : List κ) (id : ι) (k : κ) :
    (putAll arrange p ks id k).count id =
      if id ∈ p k ∨ k ∉ ks then (p k).count id else 1 := by
  induction ks generalizing p with
  | nil => simp [putAll]
  | cons j ks ih =>
    have hStep : putAll arrange p (j :: ks) id =
        putAll arrange (put arrange p j id) ks id := rfl
    have hMem : id ∈ put arrange p j id k ↔ id ∈ p k ∨ k = j := by
      rw [← count_pos_iff, count_put_self hPerm]
      by_cases h : id ∈ p k ∨ k ≠ j <;> grind
    rw [hStep, ih, count_put_self hPerm]
    grind

end

end Put

/-! ## Arrangement -/

def Arranged (R : ι → ι → Prop) (p : Postings κ ι) : Prop := ∀ k, (p k).Pairwise R

variable {R R' : ι → ι → Prop} {p : Postings κ ι}

omit [DecidableEq κ] in
theorem Arranged.drop (h : Arranged R p) (id : ι)
    (hR : ∀ a b, a ≠ id → b ≠ id → R a b → R' a b) : Arranged R' (drop p id) := by
  intro k
  refine ((h k).sublist filter_sublist).imp_of_mem ?_
  intro a b ha hb hab
  exact hR a b (by simpa using of_mem_filter ha) (by simpa using of_mem_filter hb) hab

theorem Arranged.putAll {arrange : List ι → List ι} (hSort : ∀ l, (arrange l).Pairwise R)
    (h : Arranged R p) (ks : List κ) (id : ι) : Arranged R (putAll arrange p ks id) := by
  induction ks generalizing p with
  | nil => exact h
  | cons j ks ih =>
    refine ih fun k => ?_
    show (put arrange p j id k).Pairwise R
    by_cases hk : k = j
    · subst hk
      rw [put, update_self]
      exact hSort _
    · rw [put, update_of_ne hk]
      exact h k

end Postings

/-! ## Keys with two parts -/

theorem nodup_product_iff {α β : Type} {l₁ : List α} {l₂ : List β} (h₁ : l₁ ≠ [])
    (h₂ : l₂ ≠ []) : (l₁ ×ˢ l₂).Nodup ↔ l₁.Nodup ∧ l₂.Nodup := by
  refine ⟨fun h => ?_, fun h => h.1.product h.2⟩
  obtain ⟨hRows, hApart⟩ := nodup_flatMap.mp h
  refine ⟨hApart.imp fun {a b} hDisjoint hab => ?_, ?_⟩
  · obtain ⟨y, hy⟩ := exists_mem_of_ne_nil l₂ h₂
    subst hab
    exact hDisjoint (mem_map_of_mem hy) (mem_map_of_mem hy)
  · obtain ⟨a, ha⟩ := exists_mem_of_ne_nil l₁ h₁
    exact (hRows a ha).of_map _

end Core
