import Chainfolio.Text.Hex

/-! Percent encoding: what a part of a URL may not hold is written as its UTF-8 bytes, two upper-case
digits each. In decoding, a percent sign without two digits stands for itself. -/
namespace Chainfolio.Percent

def digit (n : Nat) : Char := (Text.Hex.digit n).toUpper

def encodeByte (b : UInt8) : List Char := ['%', digit (b.toNat / 16), digit (b.toNat % 16)]

/-- Encodes the characters that a predicate picks, and all that are not printable ASCII. -/
def encode (picks : Char → Bool) (text : List Char) : List Char :=
  text.flatMap fun c =>
    if c.toNat < 0x20 ∨ 0x7E < c.toNat ∨ picks c then
      (String.singleton c).toUTF8.toList.flatMap encodeByte
    else [c]

/-- Encodes only what is not printable ASCII. -/
def encodeControls : List Char → List Char := encode fun _ => false

/-- The bytes that a text encodes. -/
def decode : List Char → List UInt8
  | [] => []
  | '%' :: a :: b :: rest =>
    match Text.Hex.value? [a, b] 0 with
    | some n => UInt8.ofNat n :: decode rest
    | none => '%'.toNat.toUInt8 :: decode (a :: b :: rest)
  | c :: rest => (String.singleton c).toUTF8.toList ++ decode rest

def inFragment (c : Char) : Bool := [' ', '"', '<', '>', '\x60'].contains c

def inQuery (special : Bool) (c : Char) : Bool :=
  [' ', '"', '#', '<', '>'].contains c || (special && c = '\'')

def inPath (c : Char) : Bool :=
  [' ', '"', '#', '<', '>', '?', '\x60', '\x7b', '\x7d'].contains c

def inUserinfo (c : Char) : Bool :=
  inPath c || ['/', ':', ';', '=', '@', '[', '\\', ']', '^', '|'].contains c

end Chainfolio.Percent
