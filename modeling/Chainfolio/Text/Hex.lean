import Chainfolio.Word

/-! Hexadecimal text. Reading takes an exact number of digits after an optional lower-case marker,
in either letter case; writing uses lower-case letters. -/
namespace Chainfolio.Text.Hex

/-- The value of a digit in a base of at most 36, letters in either case. -/
def digitValue? (c : Char) : Option Nat :=
  if '0' ≤ c ∧ c ≤ '9' then some (c.toNat - '0'.toNat)
  else if 'a' ≤ c ∧ c ≤ 'z' then some (c.toNat - 'a'.toNat + 10)
  else if 'A' ≤ c ∧ c ≤ 'Z' then some (c.toNat - 'A'.toNat + 10)
  else none

/-- The lower-case hexadecimal digit of a number below 16. -/
def digit (n : Nat) : Char :=
  if n < 10 then Char.ofNat ('0'.toNat + n) else Char.ofNat ('a'.toNat + (n - 10))

def digits : Nat → Nat → List Char
  | 0, _ => []
  | count + 1, n => digits count (n / 16) ++ [digit (n % 16)]

/-- The number that hexadecimal digits spell, given what was read before them. -/
def value? : List Char → Nat → Option Nat
  | [], acc => some acc
  | c :: rest, acc => do
    let d ← digitValue? c
    if d < 16 then value? rest (16 * acc + d) else none

/-- The text without its leading marker. -/
def unmarked : List Char → List Char
  | '0' :: 'x' :: rest => rest
  | text => text

/-- The number spelled by exactly `count` digits after an optional marker. -/
def exactly? (count : Nat) (text : List Char) : Option Nat :=
  if (unmarked text).length = count then value? (unmarked text) 0 else none

/-- The bytes that pairs of digits spell. -/
def bytes? : List Char → Option (List UInt8)
  | [] => some []
  | [_] => none
  | high :: low :: rest => do
    let n ← value? [high, low] 0
    return UInt8.ofNat n :: (← bytes? rest)

end Chainfolio.Text.Hex

namespace Chainfolio

def Address.text (a : Address) : String :=
  "0x" ++ String.ofList (Text.Hex.digits 40 a.bits.toNat)

/-- The address that 40 hexadecimal digits name. -/
def Address.ofText? (s : String) : Option Address :=
  (Text.Hex.exactly? 40 s.toList).map fun n => ⟨BitVec.ofNat 160 n⟩

def Hash.text (h : Hash) : String :=
  "0x" ++ String.ofList (Text.Hex.digits 64 h.bits.toNat)

/-- The hash that 64 hexadecimal digits name. -/
def Hash.ofText? (s : String) : Option Hash :=
  (Text.Hex.exactly? 64 s.toList).map fun n => ⟨BitVec.ofNat 256 n⟩

end Chainfolio
