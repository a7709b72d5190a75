import Mathlib.Logic.Function.Basic

/-!
# The `encoding/json` package

`Unmarshal` first checks the whole text with a scanner, which here also builds the value, on a stack
of what is open.  A value that does not fit its Go type is skipped: a map stores its key with the
zero value (`decodeMap`).
-/

namespace Go

inductive Json where
  | null
  | bool (b : Bool)
  | number (literal : String)
  | string (s : String)
  | array (items : List Json)
  | object (entries : List (String × Json))

namespace Json

/-! ## Texts of strings -/

/-- What stands between quotes: a character, or a unit of UTF-16 from a `\u` escape. -/
inductive Item where
  | char (c : Char)
  | unit (n : Nat)

def highSurrogate (n : Nat) : Bool := 0xd800 ≤ n && n < 0xdc00

def lowSurrogate (n : Nat) : Bool := 0xdc00 ≤ n && n < 0xe000

def ofUnit (n : Nat) : Char :=
  if highSurrogate n || lowSurrogate n then Char.ofNat 0xfffd else Char.ofNat n

def unquote : List Item → List Char
  | [] => []
  | .char c :: rest => c :: unquote rest
  | .unit high :: .unit low :: rest =>
    if highSurrogate high && lowSurrogate low then
      Char.ofNat (0x10000 + (high - 0xd800) * 0x400 + (low - 0xdc00)) :: unquote rest
    else ofUnit high :: unquote (.unit low :: rest)
  | .unit n :: rest => ofUnit n :: unquote rest

def hexDigit? (c : Char) : Option Nat :=
  if '0' ≤ c ∧ c ≤ '9' then some (c.toNat - '0'.toNat)
  else if 'a' ≤ c ∧ c ≤ 'f' then some (c.toNat - 'a'.toNat + 10)
  else if 'A' ≤ c ∧ c ≤ 'F' then some (c.toNat - 'A'.toNat + 10)
  else none

def escape? (c : Char) : Option Char :=
  match c with
  | '"' => some '"'
  | '\\' => some '\\'
  | '/' => some '/'
  | 'b' => some (Char.ofNat 8)
  | 'f' => some (Char.ofNat 12)
  | 'n' => some '\n'
  | 'r' => some '\r'
  | 't' => some '\t'
  | _ => none

/-! ## The scanner -/

inductive Frame where
  | array (items : List Json)
  | object (entries : List (String × Json))
  /-- An object that waits for the value of a key. -/
  | member (entries : List (String × Json)) (key : String)

inductive Digits where
  | neg
  | zero
  | int
  | dot
  | fraction
  | e
  | eSign
  | exponent
  deriving DecidableEq, Repr

inductive Scan where
  | beginValue
  | beginValueOrEmpty
  | beginKeyOrEmpty
  | beginKey
  | endKey (key : String)
  | endValue
  | endTop (value : Json)
  | inString (isKey : Bool) (items : List Item)
  | inStringEsc (isKey : Bool) (items : List Item)
  /-- So many hexadecimal digits are missing. -/
  | inStringEscU (isKey : Bool) (items : List Item) (missing n : Nat)
  | inNumber (digits : Digits) (text : List Char)
  | inWord (rest : List Char) (value : Json)

abbrev ScanState := Scan × List Frame

def isBlank (c : Char) : Bool := c == ' ' || c == '\t' || c == '\r' || c == '\n'

def maxNestingDepth : Nat := 10000

def push (frame : Frame) (scan : Scan) (stack : List Frame) : Option ScanState :=
  if stack.length < maxNestingDepth then some (scan, frame :: stack) else none

def close (value : Json) : List Frame → ScanState
  | [] => (.endTop value, [])
  | .array items :: rest => (.endValue, .array (value :: items) :: rest)
  | .member entries key :: rest => (.endValue, .object ((key, value) :: entries) :: rest)
  | .object entries :: rest => (.endValue, .object entries :: rest)

def beginValue (c : Char) (stack : List Frame) : Option ScanState :=
  match c with
  | '{' => push (.object []) .beginKeyOrEmpty stack
  | '[' => push (.array []) .beginValueOrEmpty stack
  | '"' => some (.inString false [], stack)
  | '-' => some (.inNumber .neg [c], stack)
  | '0' => some (.inNumber .zero [c], stack)
  | 't' => some (.inWord ['r', 'u', 'e'] (.bool true), stack)
  | 'f' => some (.inWord ['a', 'l', 's', 'e'] (.bool false), stack)
  | 'n' => some (.inWord ['u', 'l', 'l'] .null, stack)
  | _ => if c.isDigit then some (.inNumber .int [c], stack) else none

def endValue (c : Char) : List Frame → Option ScanState
  | .array items :: rest =>
    if c = ',' then some (.beginValue, .array items :: rest)
    else if c = ']' then some (close (.array items.reverse) rest)
    else none
  | .object entries :: rest =>
    if c = ',' then some (.beginKey, .object entries :: rest)
    else if c = '}' then some (close (.object entries.reverse) rest)
    else none
  | _ => none

def Digits.next (c : Char) : Digits → Option Digits
  | neg => if c = '0' then some zero else if c.isDigit then some int else none
  | zero => if c = '.' then some dot else if c = 'e' ∨ c = 'E' then some e else none
  | int =>
    if c.isDigit then some int
    else if c = '.' then some dot else if c = 'e' ∨ c = 'E' then some e else none
  | dot => if c.isDigit then some fraction else none
  | fraction => if c.isDigit then some fraction else if c = 'e' ∨ c = 'E' then some e else none
  | e => if c = '+' ∨ c = '-' then some eSign else if c.isDigit then some exponent else none
  | eSign => if c.isDigit then some exponent else none
  | exponent => if c.isDigit then some exponent else none

def Digits.final : Digits → Bool
  | zero | int | fraction | exponent => true
  | neg | dot | e | eSign => false

def closeString (isKey : Bool) (items : List Item) (stack : List Frame) : ScanState :=
  let s := String.ofList (unquote items.reverse)
  if isKey then (.endKey s, stack) else close (.string s) stack

def afterValue (c : Char) : ScanState → Option ScanState
  | (.endValue, stack) => if isBlank c then some (.endValue, stack) else endValue c stack
  | (.endTop value, stack) => if isBlank c then some (.endTop value, stack) else none
  | _ => none

def step (c : Char) : ScanState → Option ScanState
  | (.beginValue, stack) => if isBlank c then some (.beginValue, stack) else beginValue c stack
  | (.beginValueOrEmpty, stack) =>
    if isBlank c then some (.beginValueOrEmpty, stack)
    else if c = ']' then endValue c stack
    else beginValue c stack
  | (.beginKeyOrEmpty, stack) =>
    if isBlank c then some (.beginKeyOrEmpty, stack)
    else if c = '}' then endValue c stack
    else if c = '"' then some (.inString true [], stack)
    else none
  | (.beginKey, stack) =>
    if isBlank c then some (.beginKey, stack)
    else if c = '"' then some (.inString true [], stack)
    else none
  | (.endKey key, .object entries :: rest) =>
    if isBlank c then some (.endKey key, .object entries :: rest)
    else if c = ':' then some (.beginValue, .member entries key :: rest)
    else none
  | (.endKey _, _) => none
  | (.endValue, stack) => afterValue c (.endValue, stack)
  | (.endTop value, stack) => afterValue c (.endTop value, stack)
  | (.inString isKey items, stack) =>
    if c = '"' then some (closeString isKey items stack)
    else if c = '\\' then some (.inStringEsc isKey items, stack)
    else if c.toNat < 0x20 then none
    else some (.inString isKey (.char c :: items), stack)
  | (.inStringEsc isKey items, stack) =>
    if c = 'u' then some (.inStringEscU isKey items 4 0, stack)
    else (escape? c).map fun e => (.inString isKey (.char e :: items), stack)
  | (.inStringEscU isKey items missing n, stack) =>
    (hexDigit? c).map fun d =>
      if missing = 1 then (.inString isKey (.unit (16 * n + d) :: items), stack)
      else (.inStringEscU isKey items (missing - 1) (16 * n + d), stack)
  | (.inNumber digits text, stack) =>
    match digits.next c with
    | some digits => some (.inNumber digits (c :: text), stack)
    | none =>
      if digits.final then afterValue c (close (.number (String.ofList text.reverse)) stack)
      else none
  | (.inWord [] _, _) => none
  | (.inWord [last] value, stack) => if c = last then some (close value stack) else none
  | (.inWord (next :: rest) value, stack) =>
    if c = next then some (.inWord rest value, stack) else none

def scan (state : ScanState) : List Char → Option ScanState
  | [] => some state
  | c :: rest => (step c state).bind fun state => scan state rest

/-- The value of a well formed text. Its end is read as a blank, which ends a number. -/
def parse (s : String) : Option Json :=
  match scan (.beginValue, []) (s.toList ++ [' ']) with
  | some (.endTop value, _) => some value
  | _ => none

/-! ## Decoding into maps -/

inductive UnmarshalError where
  | syntaxError
  | typeError
  deriving DecidableEq, Repr

variable {V : Type}

/-- `null` leaves the zero value, and so, with an error, does what is no number or too large. -/
def decodeFloat [Zero V] (parseFloat : String → Option V) : Json → V × Option UnmarshalError
  | null => (0, none)
  | number literal =>
    match parseFloat literal with
    | some v => (v, none)
    | none => (0, some .typeError)
  | _ => (0, some .typeError)

/-- The entries of an object into a map; the first error is kept. -/
def decodeEntries (elem : Json → V × Option UnmarshalError)
    (m : (String → Option V) × Option UnmarshalError) :
    List (String × Json) → (String → Option V) × Option UnmarshalError
  | [] => m
  | (key, value) :: rest =>
    decodeEntries elem
      (Function.update m.1 key (some (elem value).1), m.2.or (elem value).2) rest

/-- An object into an empty map; `null` makes a nil map, which reads as an empty one. -/
def decodeMap (elem : Json → V × Option UnmarshalError) :
    Json → (String → Option V) × Option UnmarshalError
  | null => (fun _ => none, none)
  | object entries => decodeEntries elem (fun _ => none, none) entries
  | _ => (fun _ => none, some .typeError)

/-- `Unmarshal` into an empty map: a text that is not well formed is not decoded at all. -/
def unmarshalMap (elem : Json → V × Option UnmarshalError) (s : String) :
    (String → Option V) × Option UnmarshalError :=
  match parse s with
  | none => (fun _ => none, some .syntaxError)
  | some value => decodeMap elem value

end Json

end Go
