/-! Text of unsigned integers of a fixed width: an optional plus sign, then decimal digits. -/
namespace Chainfolio.Text

/-- Why a text is no unsigned integer. -/
inductive IntegerFault where
  | empty
  | invalidDigit
  | tooLarge
  deriving DecidableEq

namespace IntegerFault

def message : IntegerFault → String
  | empty => "cannot parse integer from empty string"
  | invalidDigit => "invalid digit found in string"
  | tooLarge => "number too large to fit in target type"

end IntegerFault

namespace Integer

/-- The number that decimal digits spell below a bound; the first offence in reading order wins. -/
def digits (bound : Nat) : List Char → Nat → Except IntegerFault Nat
  | [], acc => .ok acc
  | c :: rest, acc =>
    if c.isDigit then
      let next := 10 * acc + (c.toNat - '0'.toNat)
      if next < bound then digits bound rest next else .error .tooLarge
    else .error .invalidDigit

/-- Reads a text below a bound; a lone sign is an invalid digit. -/
def parse (bound : Nat) (text : List Char) : Except IntegerFault Nat :=
  match text with
  | [] => .error .empty
  | ['+'] => .error .invalidDigit
  | '+' :: rest => digits bound rest 0
  | text => digits bound text 0

end Integer

def parseUInt64 (s : String) : Except IntegerFault Nat := Integer.parse UInt64.size s.toList

end Chainfolio.Text
