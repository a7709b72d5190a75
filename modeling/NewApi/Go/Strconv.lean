import Mathlib.Algebra.Ring.Int.Defs

/-!
# Numbers and truth values in texts

`strconv.ParseInt` with base 10 and 64 bits, and `strconv.ParseBool`.
-/

namespace Go

def digit? (c : Char) : Option Nat :=
  if '0' ≤ c ∧ c ≤ '9' then some (c.toNat - '0'.toNat) else none

/-- The number that digits stand for, after the digits with the value `n`. -/
def parseDigits (n : Nat) : List Char → Option Nat
  | [] => some n
  | c :: cs =>
    match digit? c with
    | none => none
    | some d => parseDigits (10 * n + d) cs

def parseUnsigned : List Char → Option Nat
  | [] => none
  | c :: cs => parseDigits 0 (c :: cs)

def int64? (i : Int) : Option Int := if -2 ^ 63 ≤ i ∧ i < 2 ^ 63 then some i else none

def parseInt (s : String) : Option Int :=
  match s.toList with
  | '-' :: cs => (parseUnsigned cs).bind fun n => int64? (-n)
  | '+' :: cs => (parseUnsigned cs).bind fun n => int64? n
  | cs => (parseUnsigned cs).bind fun n => int64? n

def parseBool (s : String) : Option Bool :=
  if s ∈ ["1", "t", "T", "TRUE", "true", "True"] then some true
  else if s ∈ ["0", "f", "F", "FALSE", "false", "False"] then some false
  else none

example : parseInt "-120" = some (-120) ∧ parseInt "+7" = some 7 ∧ parseInt "" = none ∧
    parseInt "1e3" = none ∧ parseInt "9223372036854775808" = none := by decide +kernel

/-! ## Reading what was printed -/

theorem digit?_of_isDigit {c : Char} (h : c.isDigit) : digit? c = some (c.toNat - '0'.toNat) := by
  rw [Char.isDigit, Bool.and_eq_true, decide_eq_true_iff, decide_eq_true_iff] at h
  exact if_pos h

theorem parseDigits_of_isDigit {cs : List Char} (h : ∀ c ∈ cs, c.isDigit) (n : Nat) :
    parseDigits n cs = some (Nat.ofDigitChars 10 cs n) := by
  induction cs generalizing n with
  | nil => rfl
  | cons c cs ih =>
    obtain ⟨hc, hcs⟩ := List.forall_mem_cons.mp h
    rw [parseDigits, digit?_of_isDigit hc]
    exact ih hcs _

theorem isDigit_toDigits (n : Nat) : ∀ c ∈ Nat.toDigits 10 n, c.isDigit := fun _ hc =>
  Nat.isDigit_of_mem_toDigits (by decide) (by decide) hc

theorem parseUnsigned_toDigits (n : Nat) : parseUnsigned (Nat.toDigits 10 n) = some n := by
  cases hDigits : Nat.toDigits 10 n with
  | nil => exact absurd hDigits Nat.toDigits_ne_nil
  | cons c cs =>
    rw [parseUnsigned, ← hDigits, parseDigits_of_isDigit (isDigit_toDigits n)]
    exact congrArg some (Nat.ofDigitChars_toDigits (by decide) (by decide))

/-- **A number that is printed is read back.** -/
theorem parseInt_toString {i : Int} (h : -2 ^ 63 ≤ i ∧ i < 2 ^ 63) :
    parseInt (toString i) = some i := by
  cases i with
  | ofNat n =>
    have hList : (toString (Int.ofNat n)).toList = Nat.toDigits 10 n := String.toList_ofList
    have hSign := isDigit_toDigits n
    unfold parseInt
    rw [hList]
    split
    · next cs hEq => exact absurd (hSign '-' (hEq ▸ List.mem_cons_self)) (by decide)
    · next cs hEq => exact absurd (hSign '+' (hEq ▸ List.mem_cons_self)) (by decide)
    · rw [parseUnsigned_toDigits, Option.bind_some]
      exact if_pos h
  | negSucc n =>
    have hList : (toString (Int.negSucc n)).toList = '-' :: Nat.toDigits 10 (n + 1) := by
      change ("-" ++ (n + 1).repr).toList = _
      rw [String.toList_append]
      exact congrArg _ String.toList_ofList
    unfold parseInt
    rw [hList]
    change ((parseUnsigned (Nat.toDigits 10 (n + 1))).bind fun n => int64? (-n)) = _
    rw [parseUnsigned_toDigits, Option.bind_some]
    exact if_pos h

end Go
