import NewApi.Core.Visit
import Mathlib.Data.Nat.ModEq

/-!
# Searching through one list after the other

The offers of a search come in blocks of one length.  Each goes round a list of its own, so that it
first offers new things and then repeats.
-/

namespace Core

open List

variable {α β : Type}

/-! ## Every element some times -/

theorem take_flatMap_replicate (xs : List α) {L b t : Nat} (hb : b < xs.length)
    (ht : t ≤ L) : (xs.flatMap (List.replicate L)).take (b * L + t) =
      (xs.take b).flatMap (List.replicate L) ++ List.replicate t xs[b] := by
  induction xs generalizing b with
  | nil => exact absurd hb (Nat.not_lt_zero b)
  | cons x xs ih =>
    rw [flatMap_cons]
    cases b with
    | zero =>
      rw [Nat.zero_mul, Nat.zero_add, take_append_of_le_length (by simpa using ht), take_replicate,
        Nat.min_eq_left ht]
      rfl
    | succ b =>
      have hAt : (b + 1) * L + t = (replicate L x).length + (b * L + t) := by
        rw [length_replicate, Nat.succ_mul]
        omega
      rw [hAt, take_length_add_append, ih (by simpa using hb), take_succ_cons, flatMap_cons,
        append_assoc, getElem_cons_succ]

theorem getElem?_flatMap_replicate (xs : List α) {L t : Nat} (b : Nat) (ht : t < L) :
    (xs.flatMap (List.replicate L))[b * L + t]? = xs[b]? := by
  induction xs generalizing b with
  | nil => rfl
  | cons x xs ih =>
    rw [flatMap_cons]
    cases b with
    | zero =>
      rw [Nat.zero_mul, Nat.zero_add, getElem?_append_left (by simpa using ht),
        getElem?_replicate_of_lt ht]
      rfl
    | succ b =>
      have hAt : (b + 1) * L + t - (replicate L x).length = b * L + t := by
        rw [length_replicate, Nat.succ_mul]
        omega
      rw [getElem?_append_right (by rw [length_replicate, Nat.succ_mul]; omega), hAt, ih,
        getElem?_cons_succ]

namespace Visit

variable [DecidableEq β] {limit : Nat} {v : Visit β} {offers : Nat → Offer β}

/-! ## Blocks -/

/-- The `L` offers from `k` on are new first, `size` of them, and then repeats. -/
def Block (v : Visit β) (offers : Nat → Offer β) (k L size : Nat) : Prop :=
  ∀ t < L, ∃ c, (offers (k + t)).given = some c ∧ (v.Given offers (k + t) c ↔ size ≤ t)

theorem Block.repeatsBefore_eq {k L size : Nat} (h : v.Block offers k L size) (hSize : 0 < size)
    {t : Nat} (ht : t < L) : v.repeatsBefore offers (k + t + 1) = t + 1 - size := by
  induction t with
  | zero =>
    obtain ⟨c, hGiven, hOld⟩ := h 0 ht
    rw [repeatsBefore_of_some hGiven, if_neg (by rw [hOld]; omega)]
    omega
  | succ t ih =>
    obtain ⟨c, hGiven, hOld⟩ := h (t + 1) ht
    rw [repeatsBefore_of_some hGiven]
    by_cases hNew : t + 1 < size
    · rw [if_neg (by rw [hOld]; omega)]
      omega
    · rw [if_pos (hOld.mpr (by omega)), ← Nat.add_assoc, ih (by omega)]
      omega

theorem Block.open_iff {k L size : Nat} (h : v.Block offers k L size) (hSize : 0 < size)
    (hLimit : 0 < limit) {t : Nat} (ht : t ≤ L) :
    v.Open limit offers (k + t) ↔ v.Open limit offers k ∧ t < size + limit := by
  induction t with
  | zero => exact ⟨fun hOpen => ⟨hOpen, by omega⟩, fun hBoth => hBoth.1⟩
  | succ t ih =>
    obtain ⟨c, hGiven, -⟩ := h t ht
    have hNotStop : offers (k + t) ≠ .stop := by
      intro hStop
      rw [hStop] at hGiven
      cases hGiven
    rw [← Nat.add_assoc, open_succ, ih (by omega), h.repeatsBefore_eq hSize ht]
    constructor
    · rintro ⟨⟨hOpen, -⟩, -, hFew⟩
      exact ⟨hOpen, by omega⟩
    · rintro ⟨hOpen, hFew⟩
      exact ⟨⟨hOpen, by omega⟩, hNotStop, by omega⟩

theorem open_blocks_iff {L : Nat} {size : Nat → Nat} {m : Nat}
    (hFew : v.repeats < limit) (h : ∀ b < m, v.Block offers (b * L) L (size b))
    (hSize : ∀ b < m, 0 < size b) :
    v.Open limit offers (m * L) ↔ ∀ b < m, L < size b + limit := by
  induction m with
  | zero =>
    refine iff_of_true ⟨?_, ?_⟩ nofun
    · omega
    · intro k hk
      obtain rfl : k = 0 := by omega
      exact hFew
  | succ m ih =>
    have hPos : 0 < limit := lt_of_le_of_lt (Nat.zero_le _) hFew
    rw [Nat.succ_mul, (h m (by omega)).open_iff (hSize m (by omega)) hPos le_rfl,
      ih (fun b hb => h b (by omega)) fun b hb => hSize b (by omega)]
    refine ⟨fun ⟨hAll, hLast⟩ b hb => ?_, fun hAll => ⟨fun b hb => hAll b (by omega), ?_⟩⟩
    · rcases Nat.lt_succ_iff_lt_or_eq.mp hb with hLt | rfl
      · exact hAll b hLt
      · exact hLast
    · exact hAll m (by omega)

/-! ## Rounds -/

/-- The offers go round the lists `ys`, each for `L` offers, and then end. -/
structure Rounds (offers : Nat → Offer β) (ys : Nat → List β) (L m : Nat) : Prop where
  given : ∀ b < m, ∃ w, ∀ t < L, (offers (b * L + t)).given = (ys b)[(w + t) % (ys b).length]?
  ended : ∀ n, m * L ≤ n → (offers n).given = none
  nodup : ∀ b < m, (ys b).Nodup
  nonempty : ∀ b < m, ys b ≠ []
  apart : ∀ b < m, ∀ b' < m, ∀ y ∈ ys b, y ∈ ys b' → b = b'

variable {ys : Nat → List β} {L m : Nat}

omit [DecidableEq β] in
theorem Rounds.exists_block (h : Rounds offers ys L m) (hL : 0 < L) {n : Nat} {c : β}
    (hGiven : (offers n).given = some c) :
    n / L < m ∧ c ∈ ys (n / L) := by
  have hIn : n < m * L := by
    by_contra hOut
    rw [h.ended n (by omega)] at hGiven
    cases hGiven
  have hb : n / L < m := Nat.div_lt_of_lt_mul (by rwa [Nat.mul_comm])
  obtain ⟨w, hw⟩ := h.given (n / L) hb
  have hAt := hw (n % L) (Nat.mod_lt _ hL)
  rw [Nat.mul_comm, Nat.div_add_mod, hGiven] at hAt
  exact ⟨hb, mem_of_getElem? hAt.symm⟩

omit [DecidableEq β] in
theorem Rounds.block (h : Rounds offers ys L m) (hVisited : v.visited = []) {b : Nat}
    (hb : b < m) : v.Block offers (b * L) L (ys b).length := by
  intro t ht
  have hL : 0 < L := by omega
  obtain ⟨w, hw⟩ := h.given b hb
  have hPlace := Nat.mod_lt (w + t) (length_pos_iff.mpr (h.nonempty b hb))
  refine ⟨_, (hw t ht).trans (getElem?_eq_getElem hPlace), ?_, fun hOld => ?_⟩
  · rintro (hIn | ⟨k, hk, hSame⟩)
    · rw [hVisited] at hIn
      exact absurd hIn not_mem_nil
    -- it was given in the same block, at another place
    obtain ⟨hb', hMem⟩ := h.exists_block hL hSame
    have hEq : b = k / L := h.apart b hb _ hb' _ (getElem_mem hPlace) hMem
    have hk' : b * L + k % L = k := by
      rw [hEq, Nat.mul_comm]
      exact Nat.div_add_mod k L
    have hAt := hw (k % L) (Nat.mod_lt _ hL)
    rw [hk', hSame, ← getElem?_eq_getElem hPlace] at hAt
    have hMod : t ≡ k % L [MOD (ys b).length] :=
      Nat.ModEq.add_left_cancel' w ((getElem?_inj hPlace (h.nodup b hb)).mp hAt)
    by_contra hNew
    have := hMod.eq_of_lt_of_lt (by omega) (by omega)
    omega
  · refine .inr ⟨b * L + (t - (ys b).length), ?_, ?_⟩
    · have hPos := length_pos_iff.mpr (h.nonempty b hb)
      omega
    have hBack : w + t = w + (t - (ys b).length) + (ys b).length := by omega
    rw [hw _ (by omega), ← getElem?_eq_getElem hPlace]
    congr 1
    rw [hBack, Nat.add_mod_right]

theorem Rounds.gets_to_iff (h : Rounds offers ys L m) (hL : 0 < L) (hVisited : v.visited = [])
    (hFew : v.repeats < limit) {k : Nat} (hk : k < m) :
    (∃ n c, (offers n).given = some c ∧ c ∈ ys k ∧ v.Open limit offers n) ↔
      ∀ b < k, L < (ys b).length + limit := by
  rw [← open_blocks_iff hFew (fun b hb => h.block hVisited (hb.trans hk)) fun b hb =>
    length_pos_iff.mpr (h.nonempty b (hb.trans hk))]
  constructor
  · rintro ⟨n, c, hGiven, hMem, hOpen⟩
    obtain ⟨hb, hMem'⟩ := h.exists_block hL hGiven
    rw [h.apart k hk _ hb c hMem hMem']
    exact hOpen.mono (Nat.div_mul_le_self n L)
  · intro hOpen
    obtain ⟨c, hGiven, -⟩ := h.block hVisited hk 0 hL
    obtain ⟨hb, hMem⟩ := h.exists_block hL hGiven
    rw [Nat.add_zero, Nat.mul_div_cancel k hL] at hMem
    exact ⟨k * L, c, hGiven, hMem, hOpen⟩

end Visit

end Core
