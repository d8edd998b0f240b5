import Chainfolio.Json.Basic
import Chainfolio.Radix

/-! Text of JSON numbers. Digits are gathered into 64 bits; what no longer fits only moves the
decimal point, and one multiplication or division by a power of ten gives the float. -/
namespace Chainfolio.JsonNumber

/-- Digits gathered so far and the power of ten that they are to be scaled by. -/
structure Gathered where
  significand : Nat
  exponent : Int

/-- The next digit, unless the significand would leave 64 bits. -/
def Gathered.push? (g : Gathered) (c : Char) : Option Nat :=
  let next := 10 * g.significand + (c.toNat - '0'.toNat)
  if next < UInt64.size then some next else none

/-- Digits before the point; once one does not fit, it and the later ones only raise the exponent. -/
def gatherWhole : List Char → Gathered → Gathered
  | [], g => g
  | c :: rest, g =>
    match g.push? c with
    | some n => gatherWhole rest { g with significand := n }
    | none => { g with exponent := (c :: rest).length }

/-- Digits after the point; once one does not fit, it and the later ones are dropped. -/
def gatherFraction : List Char → Gathered → Gathered
  | [], g => g
  | c :: rest, g =>
    match g.push? c with
    | some n => gatherFraction rest ⟨n, g.exponent - 1⟩
    | none => g

def powerOfTen (n : Nat) : Float := OfScientific.ofScientific 1 false n

/-- Scales a float by a power of ten in steps that floats can hold; `none` when it overflows. -/
def scale : Nat → Float → Int → Option Float
  | 0, x, _ => some x
  | steps + 1, x, e =>
    if e.natAbs ≤ 308 then
      if 0 ≤ e then
        let y := x * powerOfTen e.natAbs
        if y.isInf then none else some y
      else some (x / powerOfTen e.natAbs)
    else if x == 0 then some x
    else if 0 ≤ e then none
    else scale steps (x / powerOfTen 308) (e + 308)

/-- The float of gathered digits; four steps bring any of them to zero. -/
def Gathered.float? (g : Gathered) : Option Float :=
  scale 5 (UInt64.ofNat g.significand).toFloat g.exponent

structure Parts where
  minus : Bool
  whole : List Char
  fraction : Option (List Char)
  exponent : Option (Bool × List Char)

/-- Splits off digits; there has to be one. -/
def takeDigits? (text : List Char) : Option (List Char × List Char) :=
  match text.takeWhile Char.isDigit with
  | [] => none
  | ds => some (ds, text.dropWhile Char.isDigit)

def exponentPart? : List Char → Option (Option (Bool × List Char))
  | [] => some none
  | e :: rest =>
    if e = 'e' ∨ e = 'E' then
      let (raises, digits) := match rest with
        | '-' :: digits => (false, digits)
        | '+' :: digits => (true, digits)
        | digits => (true, digits)
      match takeDigits? digits with
      | some (ds, []) => some (some (raises, ds))
      | _ => none
    else none

/-- Splits the text of a number by the grammar; no zero leads another digit. -/
def Parts.ofText? (text : List Char) : Option Parts := do
  let (minus, text) := match text with
    | '-' :: rest => (true, rest)
    | text => (false, text)
  let (whole, rest) ← takeDigits? text
  if whole.head? = some '0' ∧ whole.length ≠ 1 then none
  else
    match rest with
    | '.' :: rest => do
      let (fraction, rest) ← takeDigits? rest
      return ⟨minus, whole, some fraction, ← exponentPart? rest⟩
    | rest => return ⟨minus, whole, none, ← exponentPart? rest⟩

/-- The largest exponent that is still counted. -/
def exponentLimit : Nat := 2147483647

/-- The value of exponent digits, unless it is past the limit. -/
def exponentValue? (ds : List Char) : Option Nat :=
  let n := Nat.ofDigitChars 10 ds 0
  if n ≤ exponentLimit then some n else none

/-- Brings an exponent into the range of 32 bits. -/
def clampExponent (e : Int) : Int := max (-(exponentLimit : Int) - 1) (min e exponentLimit)

/-- The float of a number that is no plain integer. -/
def Parts.float? (p : Parts) : Option Float := do
  let g := gatherFraction (p.fraction.getD []) (gatherWhole p.whole ⟨0, 0⟩)
  let x ← match p.exponent with
    | none => g.float?
    | some (raises, ds) =>
      match exponentValue? ds with
      | some n =>
        let e := if raises then g.exponent + n else g.exponent - n
        Gathered.float? { g with exponent := clampExponent e }
      | none => if g.significand ≠ 0 ∧ raises then none else some 0
  return if p.minus then -x else x

def Parts.value (p : Parts) : Json :=
  let asFloat := match p.float? with
    | some x => .num (.float x)
    | none => .unreadable
  match p.fraction, p.exponent with
  | none, none =>
    let n := Nat.ofDigitChars 10 p.whole 0
    if p.minus then
      if 0 < n ∧ n ≤ twoTo 63 then .num (.negative n) else asFloat
    else if n < UInt64.size then .num (.natural n) else asFloat
  | _, _ => asFloat

def parse? (text : List Char) : Option Json := (Parts.ofText? text).map Parts.value

end Chainfolio.JsonNumber
