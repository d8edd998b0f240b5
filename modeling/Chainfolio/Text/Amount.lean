import Chainfolio.Text.Hex

/-! Text of raw amounts. An amount is written in decimal; it is read in the base that its first two
characters announce, skips underscores and is zero when no digit is left. -/
namespace Chainfolio.Text.Amount

/-- The base announced by the first two characters, and the digits after it. -/
def base : List Char → Nat × List Char
  | '0' :: 'x' :: rest => (16, rest)
  | '0' :: 'X' :: rest => (16, rest)
  | '0' :: 'o' :: rest => (8, rest)
  | '0' :: 'O' :: rest => (8, rest)
  | '0' :: 'b' :: rest => (2, rest)
  | '0' :: 'B' :: rest => (2, rest)
  | text => (10, text)

/-- The number that digits of a base spell, underscores apart. -/
def value? (b : Nat) : List Char → Nat → Option Nat
  | [], acc => some acc
  | '_' :: rest, acc => value? b rest acc
  | c :: rest, acc => do
    let d ← Hex.digitValue? c
    if d < b then value? b rest (b * acc + d) else none

end Chainfolio.Text.Amount

namespace Chainfolio

/-- The amount that a text spells, if it fits 256 bits. -/
def Word.ofText? (s : String) : Option Word := do
  let (b, digits) := Text.Amount.base s.toList
  Word.ofNat? (← Text.Amount.value? b digits 0)

def Word.text (w : Word) : String := String.ofList (Nat.toDigits 10 w.toNat)

def HalfWord.text (w : HalfWord) : String := String.ofList (Nat.toDigits 10 w.toNat)

end Chainfolio
