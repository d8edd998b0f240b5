import Chainfolio.Json.Basic
import Chainfolio.Float.Shortest
import Chainfolio.Text.Hex

/-! Compact JSON text. -/
namespace Chainfolio.JsonText

/-- A character inside a string; controls are escaped. -/
def escape (c : Char) : List Char :=
  match c with
  | '"' => ['\\', '"']
  | '\\' => ['\\', '\\']
  | '\n' => ['\\', 'n']
  | '\r' => ['\\', 'r']
  | '\t' => ['\\', 't']
  | c => if c.toNat < 0x20 then '\\' :: 'u' :: Text.Hex.digits 4 c.toNat else [c]

def quote (s : String) : String :=
  "\"" ++ String.ofList (s.toList.flatMap escape) ++ "\""

def number : JsonNumber → String
  | .natural n => toString n
  | .negative n => "-" ++ toString n
  | .float x => (Shortest.text? x).getD "null"

mutual

def print : Json → String
  | .null | .unreadable | .malformed => "null"
  | .bool b => if b then "true" else "false"
  | .num n => number n
  | .str s => quote s
  | .arr items => "[" ++ printItems items ++ "]"
  | .obj fields => "\x7b" ++ printFields fields ++ "\x7d"
  | .sealed _ whole => print whole

def printItems : List Json → String
  | [] => ""
  | [j] => print j
  | j :: rest => print j ++ "," ++ printItems rest

def printFields : List (String × Json) → String
  | [] => ""
  | [(k, v)] => quote k ++ ":" ++ print v
  | (k, v) :: rest => quote k ++ ":" ++ print v ++ "," ++ printFields rest

end

end Chainfolio.JsonText

namespace Chainfolio

def Json.text (j : Json) : String := JsonText.print j

end Chainfolio
