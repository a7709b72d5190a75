
/-!
# The `encoding/base64` package

`StdEncoding` with padding.  `DecodeString` skips line breaks everywhere and does not look at bits
that are left over.
-/

namespace Go.Base64

def padding : UInt8 := 61

def digit (n : Nat) : UInt8 :=
  if n < 26 then .ofNat (65 + n)
  else if n < 52 then .ofNat (97 + (n - 26))
  else if n < 62 then .ofNat (48 + (n - 52))
  else if n = 62 then 43
  else 47

def value? (c : UInt8) : Option Nat :=
  if 65 ≤ c ∧ c ≤ 90 then some (c.toNat - 65)
  else if 97 ≤ c ∧ c ≤ 122 then some (c.toNat - 97 + 26)
  else if 48 ≤ c ∧ c ≤ 57 then some (c.toNat - 48 + 52)
  else if c = 43 then some 62
  else if c = 47 then some 63
  else none

def encode : List UInt8 → List UInt8
  | [] => []
  | [x] => [digit (x.toNat / 4), digit (x.toNat % 4 * 16), padding, padding]
  | [x, y] =>
    [digit (x.toNat / 4), digit (x.toNat % 4 * 16 + y.toNat / 16), digit (y.toNat % 16 * 4),
      padding]
  | x :: y :: z :: rest =>
    digit (x.toNat / 4) :: digit (x.toNat % 4 * 16 + y.toNat / 16) ::
      digit (y.toNat % 16 * 4 + z.toNat / 64) :: digit (z.toNat % 64) :: encode rest

def first (a b : Nat) : UInt8 := .ofNat (a * 4 + b / 16)

def second (b c : Nat) : UInt8 := .ofNat (b % 16 * 16 + c / 4)

def third (c d : Nat) : UInt8 := .ofNat (c % 4 * 64 + d)

def fullGroup (a b c d : UInt8) : Option (List UInt8) :=
  match value? a, value? b, value? c, value? d with
  | some a, some b, some c, some d => some [first a b, second b c, third c d]
  | _, _, _, _ => none

def lastGroup (a b c d : UInt8) : Option (List UInt8) :=
  if d = padding then
    match value? a, value? b with
    | some a, some b =>
      if c = padding then some [first a b] else (value? c).map fun c => [first a b, second b c]
    | _, _ => none
  else fullGroup a b c d

def decodeGroups : List UInt8 → Option (List UInt8)
  | [] => some []
  | [a, b, c, d] => lastGroup a b c d
  | a :: b :: c :: d :: rest =>
    (fullGroup a b c d).bind fun group => (decodeGroups rest).map (group ++ ·)
  | _ => none

def isBreak (c : UInt8) : Bool := c == 10 || c == 13

def decode (text : List UInt8) : Option (List UInt8) :=
  decodeGroups (text.filter fun c => !isBreak c)

/-! ## The round trip -/

theorem value?_digit {n : Nat} (h : n < 64) : value? (digit n) = some n := by
  have hAll : ∀ n : Fin 64, value? (digit n) = some n.1 := by decide
  exact hAll ⟨n, h⟩

theorem digit_plain {n : Nat} (h : n < 64) : digit n ≠ padding ∧ isBreak (digit n) = false := by
  have hAll : ∀ n : Fin 64, digit n ≠ padding ∧ isBreak (digit n) = false := by decide
  exact hAll ⟨n, h⟩

theorem decodeGroups_cons {a b c d : UInt8} (hd : d ≠ padding) (rest : List UInt8) :
    decodeGroups (a :: b :: c :: d :: rest) =
      (fullGroup a b c d).bind fun group => (decodeGroups rest).map (group ++ ·) := by
  cases rest with
  | nil =>
    show lastGroup a b c d = _
    rw [lastGroup, if_neg hd]
    cases fullGroup a b c d <;> simp [decodeGroups]
  | cons e rest =>
    rw [decodeGroups]
    exact nofun

theorem ofNat_eq {x : UInt8} {n : Nat} (h : n = x.toNat) : UInt8.ofNat n = x := by
  rw [h, UInt8.ofNat_toNat]

theorem encode_no_breaks (bytes : List UInt8) : ∀ c ∈ encode bytes, isBreak c = false := by
  induction bytes using encode.induct with
  | case1 => simp [encode]
  | case2 x =>
    have hx := x.toNat_lt
    simp only [encode, List.forall_mem_cons]
    exact ⟨(digit_plain (by omega)).2, (digit_plain (by omega)).2, rfl, rfl, by simp⟩
  | case3 x y =>
    have hx := x.toNat_lt
    have hy := y.toNat_lt
    simp only [encode, List.forall_mem_cons]
    exact ⟨(digit_plain (by omega)).2, (digit_plain (by omega)).2, (digit_plain (by omega)).2, rfl,
      by simp⟩
  | case4 x y z rest ih =>
    have hx := x.toNat_lt
    have hy := y.toNat_lt
    have hz := z.toNat_lt
    simp only [encode, List.forall_mem_cons]
    exact ⟨(digit_plain (by omega)).2, (digit_plain (by omega)).2, (digit_plain (by omega)).2,
      (digit_plain (by omega)).2, ih⟩

theorem decodeGroups_encode (bytes : List UInt8) : decodeGroups (encode bytes) = some bytes := by
  induction bytes using encode.induct with
  | case1 => rfl
  | case2 x =>
    have hx := x.toNat_lt
    have hFirst : first (x.toNat / 4) (x.toNat % 4 * 16) = x := ofNat_eq (by omega)
    rw [encode, decodeGroups, lastGroup, if_pos rfl, value?_digit (by omega),
      value?_digit (by omega)]
    exact congrArg (fun x => some [x]) hFirst
  | case3 x y =>
    have hx := x.toNat_lt
    have hy := y.toNat_lt
    have hFirst : first (x.toNat / 4) (x.toNat % 4 * 16 + y.toNat / 16) = x := ofNat_eq (by omega)
    have hSecond : second (x.toNat % 4 * 16 + y.toNat / 16) (y.toNat % 16 * 4) = y :=
      ofNat_eq (by omega)
    have hPlain : digit (y.toNat % 16 * 4) ≠ padding := (digit_plain (by omega)).1
    rw [encode, decodeGroups, lastGroup, if_pos rfl, value?_digit (by omega),
      value?_digit (by omega)]
    simp only [if_neg hPlain, value?_digit (show y.toNat % 16 * 4 < 64 by omega), Option.map_some,
      hFirst, hSecond]
  | case4 x y z rest ih =>
    have hx := x.toNat_lt
    have hy := y.toNat_lt
    have hz := z.toNat_lt
    have hFirst : first (x.toNat / 4) (x.toNat % 4 * 16 + y.toNat / 16) = x := ofNat_eq (by omega)
    have hSecond : second (x.toNat % 4 * 16 + y.toNat / 16) (y.toNat % 16 * 4 + z.toNat / 64) = y :=
      ofNat_eq (by omega)
    have hThird : third (y.toNat % 16 * 4 + z.toNat / 64) (z.toNat % 64) = z := ofNat_eq (by omega)
    rw [encode, decodeGroups_cons (digit_plain (by omega)).1, ih, fullGroup,
      value?_digit (by omega), value?_digit (by omega), value?_digit (by omega),
      value?_digit (by omega)]
    simp only [hFirst, hSecond, hThird, Option.bind_some, Option.map_some, List.cons_append,
      List.nil_append]

theorem decode_encode (bytes : List UInt8) : decode (encode bytes) = some bytes := by
  have hFilter : (encode bytes).filter (fun c => !isBreak c) = encode bytes := by
    rw [List.filter_eq_self]
    intro c hc
    rw [encode_no_breaks bytes c hc]
    rfl
  rw [decode, hFilter, decodeGroups_encode]

end Go.Base64
