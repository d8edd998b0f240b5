import Chainfolio.Json.Number
import Chainfolio.Text.Hex

/-! Tokens of JSON text, cut off its front one by one. -/
namespace Chainfolio.JsonText

/-- A token; a string without a value carries none. -/
inductive Token where
  | leftBracket
  | rightBracket
  | leftBrace
  | rightBrace
  | comma
  | colon
  | string (s : Option String)
  | value (j : Json)

/-- What a string has gathered: its characters in reverse, a high surrogate that waits for its
partner, and whether it still has a value. -/
structure Gathered where
  chars : List Char
  high : Option Nat
  sound : Bool

def Gathered.empty : Gathered := ⟨[], none, true⟩

/-- An ordinary character; a waiting surrogate stays alone. -/
def Gathered.push (g : Gathered) (c : Char) : Gathered :=
  ⟨c :: g.chars, none, g.sound && g.high.isNone⟩

/-- A code unit written as an escape. -/
def Gathered.pushUnit (g : Gathered) (u : Nat) : Gathered :=
  match g.high with
  | some h =>
    if 0xDC00 ≤ u ∧ u < 0xE000 then
      ⟨Char.ofNat (0x10000 + 0x400 * (h - 0xD800) + (u - 0xDC00)) :: g.chars, none, g.sound⟩
    else ⟨g.chars, none, false⟩
  | none =>
    if 0xD800 ≤ u ∧ u < 0xDC00 then ⟨g.chars, some u, g.sound⟩
    else if 0xDC00 ≤ u ∧ u < 0xE000 then ⟨g.chars, none, false⟩
    else ⟨Char.ofNat u :: g.chars, none, g.sound⟩

/-- The text of a closed string. -/
def Gathered.text? (g : Gathered) : Option String :=
  if g.sound ∧ g.high.isNone then some (String.ofList g.chars.reverse) else none

def isBlank (c : Char) : Bool := c = ' ' || c = '\n' || c = '\t' || c = '\r'

def skipBlanks (text : List Char) : List Char := text.dropWhile isBlank

def isNumeric (c : Char) : Bool :=
  c.isDigit || c = '+' || c = '-' || c = '.' || c = 'e' || c = 'E'

def word? (chars : List Char) : Option Json :=
  match String.ofList chars with
  | "null" => some .null
  | "true" => some (.bool true)
  | "false" => some (.bool false)
  | _ => none

/-- The character that a letter stands for after a backslash. -/
def escaped? : Char → Option Char
  | '"' => some '"'
  | '\\' => some '\\'
  | '/' => some '/'
  | 'b' => some '\x08'
  | 'f' => some '\x0c'
  | 'n' => some '\n'
  | 'r' => some '\r'
  | 't' => some '\t'
  | _ => none

/-- The rest of a string that has been opened. -/
def string? : Gathered → List Char → Option (Token × List Char)
  | _, [] => none
  | g, '"' :: rest => some (.string g.text?, rest)
  | g, '\\' :: 'u' :: a :: b :: c :: d :: rest => do
    string? (g.pushUnit (← Text.Hex.value? [a, b, c, d] 0)) rest
  | g, '\\' :: c :: rest => do string? (g.push (← escaped? c)) rest
  | g, c :: rest => if c.toNat < 0x20 then none else string? (g.push c) rest

/-- The token that a text begins with, and what follows it. -/
def token? : List Char → Option (Token × List Char)
  | [] => none
  | '"' :: rest => string? .empty rest
  | '[' :: rest => some (.leftBracket, rest)
  | ']' :: rest => some (.rightBracket, rest)
  | '\x7b' :: rest => some (.leftBrace, rest)
  | '\x7d' :: rest => some (.rightBrace, rest)
  | ',' :: rest => some (.comma, rest)
  | ':' :: rest => some (.colon, rest)
  | text =>
    match text.takeWhile Char.isLower with
    | [] => do
      return (.value (← JsonNumber.parse? (text.takeWhile isNumeric)), text.dropWhile isNumeric)
    | word => do return (.value (← word? word), text.dropWhile Char.isLower)

end Chainfolio.JsonText
