import Mathlib.Data.Rat.Floor

/-!
# Decimals

`shopspring/decimal` computes exactly with `Add` and `Mul`, so a decimal is a rational number.
`intPart` cuts the fraction off, `round` rounds halves away from zero.
-/

namespace Go.Decimal

def intPart (x : ℚ) : Int := if 0 ≤ x then ⌊x⌋ else -⌊-x⌋

def round (x : ℚ) : Int := if 0 ≤ x then ⌊x + 1 / 2⌋ else -⌊-x + 1 / 2⌋

example : round (5 / 2) = 3 ∧ round (-5 / 2) = -3 ∧ intPart (-5 / 2) = -2 := by decide +kernel

theorem round_mono {x y : ℚ} (h : x ≤ y) : round x ≤ round y := by
  unfold round
  split
  · next hx =>
    rw [if_pos (hx.trans h)]
    exact Int.floor_le_floor (by linarith)
  by_cases hy : 0 ≤ y
  · have hLow : 0 ≤ ⌊-x + 1 / 2⌋ := Int.floor_nonneg.mpr (by linarith)
    have hHigh : 0 ≤ ⌊y + 1 / 2⌋ := Int.floor_nonneg.mpr (by linarith)
    rw [if_pos hy]
    omega
  · rw [if_neg hy]
    exact Int.neg_le_neg (Int.floor_le_floor (by linarith))

theorem round_zero : round 0 = 0 := by decide +kernel

theorem round_nonneg {x : ℚ} (h : 0 ≤ x) : 0 ≤ round x := round_zero ▸ round_mono h

theorem intPart_of_nonneg {x : ℚ} (h : 0 ≤ x) : intPart x = ⌊x⌋ := if_pos h

theorem intPart_nonpos {x : ℚ} (h : x ≤ 0) : intPart x ≤ 0 := by
  unfold intPart
  split
  · rename_i hNonneg
    rw [le_antisymm h hNonneg]
    exact le_of_eq Int.floor_zero
  · have hFloor : 0 ≤ ⌊-x⌋ := Int.floor_nonneg.mpr (by linarith)
    omega

end Go.Decimal
