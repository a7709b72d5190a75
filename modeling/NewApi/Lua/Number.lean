import Mathlib.Algebra.Order.Ring.Int
import Mathlib.Data.Nat.Log

/-!
# Whole numbers in Lua

The numbers of Lua 5.1 are doubles.  A result is rounded to the nearest number with 53 significant
bits, to the even one of two, here without overflow.
-/

namespace Lua

def lost (n : Nat) : Nat := n.log2 - 52

/-- The nearest multiple of `unit`, the even one of two. -/
def roundTo (unit n : Nat) : Nat :=
  let low := n / unit
  if 2 * (n % unit) < unit then low * unit
  else if unit < 2 * (n % unit) then (low + 1) * unit
  else (low + low % 2) * unit

def roundNat (n : Nat) : Nat := roundTo (2 ^ lost n) n

def round (x : Int) : Int := x.sign * roundNat x.natAbs

def add (x y : Int) : Int := round (x + y)

def sub (x y : Int) : Int := round (x - y)

def mul (x y : Int) : Int := round (x * y)

theorem roundTo_of_dvd {unit n : Nat} (hUnit : 0 < unit) (h : unit ∣ n) : roundTo unit n = n := by
  rw [roundTo, if_pos]
  · exact Nat.div_mul_cancel h
  · omega

theorem le_roundTo {unit n k : Nat} (hUnit : 0 < unit) (h : k * unit ≤ n) :
    k * unit ≤ roundTo unit n := by
  have hLow : k ≤ n / unit := (Nat.le_div_iff_mul_le hUnit).mpr h
  unfold roundTo
  split
  · exact Nat.mul_le_mul_right unit hLow
  · split <;> exact Nat.mul_le_mul_right unit (by omega)

theorem roundNat_eq {n : Nat} (h : n ≤ 2 ^ 53) : roundNat n = n := by
  refine roundTo_of_dvd (Nat.two_pow_pos _) ?_
  rcases Nat.lt_or_eq_of_le h with hLt | rfl
  · have hLost : lost n = 0 := by
      rcases Nat.eq_zero_or_pos n with rfl | hPos
      · rfl
      · have := (Nat.log2_lt (by omega)).mpr hLt
        rw [lost]
        omega
    rw [hLost, pow_zero]
    exact one_dvd n
  · decide

theorem le_roundNat {n : Nat} (h : 2 ^ 53 ≤ n) : 2 ^ 53 ≤ roundNat n := by
  have hLog : 53 ≤ n.log2 := (Nat.le_log2 (by omega)).mpr h
  -- the leading 53 bits alone are at least half of `2 ^ 53` times the unit
  have hTop : 2 ^ 52 * 2 ^ lost n ≤ n := by
    rw [← pow_add, lost, Nat.add_sub_cancel' (by omega)]
    exact Nat.log2_self_le (by omega)
  calc 2 ^ 53 = 2 ^ 52 * 2 ^ 1 := rfl
    _ ≤ 2 ^ 52 * 2 ^ lost n := by
      refine Nat.mul_le_mul_left _ (Nat.pow_le_pow_right (by omega) ?_)
      rw [lost]
      omega
    _ ≤ roundNat n := le_roundTo (Nat.two_pow_pos _) hTop

theorem round_eq {x : Int} (hNonneg : 0 ≤ x) (h : x ≤ 2 ^ 53) : round x = x := by
  rw [round, roundNat_eq (by omega), Int.sign_mul_natAbs]

theorem le_round {x : Int} (h : 2 ^ 53 ≤ x) : 2 ^ 53 ≤ round x := by
  have hPos : 0 < x := by omega
  rw [round, Int.sign_eq_one_of_pos hPos, one_mul]
  exact_mod_cast le_roundNat (by omega : 2 ^ 53 ≤ x.natAbs)

end Lua
