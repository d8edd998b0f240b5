import Chainfolio.Json.Token

/-! Arrays that are read as a fixed number of bytes. After the last of them one more element may
stand, as long as it is no byte: it is given up where it first goes wrong, and nothing but the
closing bracket may follow there. -/
namespace Chainfolio.JsonText.Overrun

/-- The text after its first byte, unless that is only a part of a character. -/
def dropByte : List Char → Option (List Char)
  | [] => none
  | c :: rest => if c.toNat < 0x80 then some rest else none

/-- The text after a number of bytes, and the characters that these make up. -/
def takeBytes : Nat → List Char → Option (List Char × List Char)
  | 0, text => some ([], text)
  | _, [] => none
  | n, c :: rest =>
    if c.utf8Size ≤ n then do
      let (taken, rest) ← takeBytes (n - c.utf8Size) rest
      return (c :: taken, rest)
    else none

/-- Gives up a word at the first letter that differs, or after it. -/
def word : List Char → List Char → Option (List Char)
  | [], text => some text
  | e :: expected, c :: rest => if c = e then word expected rest else dropByte (c :: rest)
  | _ :: _, [] => none

/-- Gives up a number in the digits of its exponent, or after them. An exponent that is too large
ends there, unless the number stays zero. -/
def exponentDigits (vanishes : Bool) : Nat → List Char → List Char
  | _, [] => []
  | e, c :: rest =>
    if c.isDigit then
      let e := 10 * e + (c.toNat - '0'.toNat)
      if e ≤ JsonNumber.exponentLimit then exponentDigits vanishes e rest
      else if vanishes then rest.dropWhile Char.isDigit
      else rest
    else c :: rest

def exponent (isZero : Bool) (text : List Char) : Option (List Char) :=
  let (raises, text) := match text with
    | '-' :: rest => (false, rest)
    | '+' :: rest => (true, rest)
    | text => (true, text)
  match text with
  | [] => none
  | c :: _ => if c.isDigit then some (exponentDigits (isZero || !raises) 0 text) else dropByte text

/-- Gives up a number after its whole part. -/
def afterWhole (isZero : Bool) (text : List Char) : Option (List Char) :=
  match text with
  | '.' :: rest =>
    match rest.takeWhile Char.isDigit, rest.dropWhile Char.isDigit with
    | [], rest => some rest
    | digits, e :: rest =>
      if e = 'e' ∨ e = 'E' then exponent (isZero && digits.all (· = '0')) rest else some (e :: rest)
    | _, [] => none
  | e :: rest => if e = 'e' ∨ e = 'E' then exponent isZero rest else some (e :: rest)
  | [] => none

/-- Gives up a number, which must be no byte. -/
def number (minus : Bool) (text : List Char) : Option (List Char) :=
  let rest := text.dropWhile Char.isDigit
  match text.takeWhile Char.isDigit with
  | [] => dropByte text
  | '0' :: _ :: _ => none
  | digits =>
    let continues := rest.head?.any fun c => c = '.' || c = 'e' || c = 'E'
    if !minus && !continues && Nat.ofDigitChars 10 digits 0 < 256 then none
    else afterWhole (digits.all (· = '0')) rest

/-- How the text goes on after an escape: it was sound, or the string is given up. -/
inductive Escape where
  | sound (rest : List Char)
  | broken (rest : Option (List Char))

/-- The code unit after `\u`. -/
def unit (text : List Char) (next : Nat → List Char → Escape) : Escape :=
  match takeBytes 4 text with
  | none => .broken none
  | some (digits, rest) =>
    match (Text.Hex.value? digits 0).filter fun _ => digits.length = 4 with
    | some u => next u rest
    | none => .broken (some rest)

/-- What has to follow a high surrogate. -/
def afterHigh : List Char → Escape
  | '\\' :: 'u' :: rest =>
    unit rest fun u rest =>
      if 0xDC00 ≤ u ∧ u < 0xE000 then .sound rest else .broken (some rest)
  | '\\' :: rest => .broken (dropByte rest)
  | rest => .broken (dropByte rest)

def escape : List Char → Escape
  | 'u' :: rest =>
    unit rest fun u rest =>
      if 0xD800 ≤ u ∧ u < 0xDC00 then afterHigh rest
      else if 0xDC00 ≤ u ∧ u < 0xE000 then .broken (some rest)
      else .sound rest
  | c :: rest => if (escaped? c).isSome then .sound rest else .broken (dropByte (c :: rest))
  | [] => .broken none

/-- Gives up a string at its first fault, or after its end. -/
def string : Nat → List Char → Option (List Char)
  | 0, _ | _, [] => none
  | fuel + 1, c :: rest =>
    if c = '"' then some rest
    else if c = '\\' then
      match escape rest with
      | .sound rest => string fuel rest
      | .broken rest => rest
    else if c.toNat < 0x20 then some rest
    else string fuel rest

/-- Gives up an element that is no byte; what follows it is returned. -/
def element (text : List Char) : Option (List Char) :=
  match text with
  | ']' :: _ => some text
  | '"' :: rest => string text.length rest
  | 'n' :: rest => word ['u', 'l', 'l'] rest
  | 't' :: rest => word ['r', 'u', 'e'] rest
  | 'f' :: rest => word ['a', 'l', 's', 'e'] rest
  | '-' :: rest => number true rest
  | c :: _ => if c.isDigit then number false text else none
  | [] => none

/-- From the end of the last byte: what follows the array, if it goes on with a comma and an element
that can be given up, or with none. -/
def close? (text : List Char) : Option (List Char) :=
  match skipBlanks text with
  | ',' :: rest =>
    match (element (skipBlanks rest)).map skipBlanks with
    | some (']' :: rest) => some rest
    | _ => none
  | _ => none

end Chainfolio.JsonText.Overrun
