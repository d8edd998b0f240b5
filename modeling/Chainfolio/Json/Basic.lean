/-! JSON values. Objects keep their fields in written order, repetitions included, so that a record
can refuse a repeated field while a map lets the last one win. -/
namespace Chainfolio

/-- A JSON number: an integer where it fits 64 bits, a float otherwise. -/
inductive JsonNumber where
  | natural (n : Nat)
  | negative (n : Nat)
  | float (x : Float)

/-- A JSON value. `unreadable` stands for well-formed text without a value, such as a number that is
too large or a lone surrogate; it may be skipped but not read. `malformed` text may not even be
skipped. `sealed` is an array that opens with some bytes and goes on with one element that is none:
it is the `whole` value, unless exactly those bytes are asked for. -/
inductive Json where
  | null
  | bool (b : Bool)
  | num (n : JsonNumber)
  | str (s : String)
  | arr (items : List Json)
  | obj (fields : List (String × Json))
  | unreadable
  | malformed
  | sealed (bytes : List UInt8) (whole : Json)

namespace Json

instance : Inhabited Json := ⟨.null⟩

def nat (n : Nat) : Json := .num (.natural n)

def field? (name : String) : List (String × Json) → Option Json
  | [] => none
  | (k, v) :: rest => if k = name then some v else field? name rest

def get? (j : Json) (name : String) : Option Json :=
  match j with
  | .obj fields => field? name fields
  | _ => none

mutual

def readable : Json → Bool
  | .unreadable | .malformed => false
  | .arr items => readableItems items
  | .obj fields => readableFields fields
  | .sealed _ whole => readable whole
  | _ => true

def readableItems : List Json → Bool
  | [] => true
  | j :: rest => readable j && readableItems rest

def readableFields : List (String × Json) → Bool
  | [] => true
  | (_, v) :: rest => readable v && readableFields rest

end

mutual

/-- Whether the value may be skipped: all of its text is well-formed. -/
def skippable : Json → Bool
  | .malformed => false
  | .arr items => skippableItems items
  | .obj fields => skippableFields fields
  | .sealed _ whole => skippable whole
  | _ => true

def skippableItems : List Json → Bool
  | [] => true
  | j :: rest => skippable j && skippableItems rest

def skippableFields : List (String × Json) → Bool
  | [] => true
  | (_, v) :: rest => skippable v && skippableFields rest

end

def text? : Json → Option String
  | .str s => some s
  | _ => none

def items? : Json → Option (List Json)
  | .arr items | .sealed _ (.arr items) => some items
  | _ => none

def natBelow? (bound : Nat) : Json → Option Nat
  | .num (.natural n) => if n < bound then some n else none
  | _ => none

def uint64? (j : Json) : Option UInt64 := (natBelow? UInt64.size j).map UInt64.ofNat

def byte? (j : Json) : Option UInt8 := (natBelow? 256 j).map UInt8.ofNat

def float? : Json → Option Float
  | .num (.natural n) => some (UInt64.ofNat n).toFloat
  | .num (.negative n) => some (-(UInt64.ofNat n).toFloat)
  | .num (.float x) => some x
  | _ => none

def bool? : Json → Option Bool
  | .bool b => some b
  | _ => none

def nullable {α : Type} (read : Json → Option α) : Json → Option (Option α)
  | .null => some none
  | j => (read j).map some

/-- Reads every item of an array. -/
def list? {α : Type} (read : Json → Option α) (j : Json) : Option (List α) :=
  j.items?.bind fun items => items.mapM read

end Json

end Chainfolio
