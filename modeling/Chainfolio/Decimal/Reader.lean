import Chainfolio.Decimal.Arithmetic
import Chainfolio.Radix
import Chainfolio.Text.Integer

/-! Decimal text: a sign, digits with an optional point, underscores after the first digit. Digits
are taken up to 28 places or 96 bits; the next one rounds half up and those after it count for
nothing. -/
namespace Chainfolio.Decimal

/-- The least mantissa that is read on in wide arithmetic. -/
def wideMantissa : Nat := 1844674407370954906

/-- What has been read of a decimal: `wide` says that the mantissa outgrew one machine word, `held`
that an underscore has been passed over at the last place. -/
structure Reading where
  negative : Bool
  mantissa : Nat := 0
  scale : Nat := 0
  pointed : Bool := false
  digits : Bool := false
  wide : Bool := false
  held : Bool := false

/-- The decimal that was read; there has to be a digit, and zero has no sign. A place beyond the
last one starts the scale over. -/
def Reading.finish (r : Reading) : Option Decimal :=
  if r.digits then ofSigned? r.negative r.mantissa (r.scale % (maxScale + 1)) else none

/-- A digit or a separator. -/
def isFigure (c : Char) : Bool := c.isDigit || c = '_'

/-- The mantissa one larger; when it no longer fits, with one place less. -/
def Reading.roundUp (r : Reading) : Option Decimal :=
  let m := r.mantissa + 1
  if m < mantissaLimit then { r with mantissa := m }.finish
  else if r.scale = 0 then none
  else { r with mantissa := (m + 4) / 10, scale := r.scale - 1 }.finish

/-- Ends the reading at a character that no longer fits; a digit of five or more rounds up. Only
figures may follow. -/
def Reading.round (r : Reading) (c : Char) (rest : List Char) : Option Decimal :=
  if ¬rest.all isFigure then none
  else if c.isDigit ∧ '5' ≤ c then r.roundUp
  else if isFigure c ∨ c = '.' then r.finish
  else none

/-- All places are taken. -/
def Reading.isFull (r : Reading) : Bool := r.pointed && decide (maxScale ≤ r.scale)

/-- The reading with one more digit, if the mantissa still fits. -/
def Reading.take? (r : Reading) (c : Char) : Option Reading :=
  let m := 10 * r.mantissa + (c.toNat - '0'.toNat)
  if m < mantissaLimit then
    some { r with
      mantissa := m, scale := if r.pointed then r.scale + 1 else r.scale, digits := true,
      wide := r.wide || decide (wideMantissa ≤ m), held := false }
  else none

/-- Reads the characters after the sign. A full reading is rounded by the next character, except
that a wide one passes over underscores and then takes one more digit if it can. -/
def Reading.run (r : Reading) : List Char → Option Decimal
  | [] => r.finish
  | c :: rest =>
    if r.isFull ∧ r.wide ∧ c = '_' then run { r with held := true } rest
    else if r.isFull ∧ ¬r.held then r.round c rest
    else if c.isDigit then
      match r.take? c with
      | some r => run r rest
      | none => if r.pointed then r.round c rest else none
    else if c = '.' ∧ !r.pointed then run { r with pointed := true } rest
    else if c = '_' ∧ r.digits then run r rest
    else none

/-- Reads plain decimal text. -/
def ofPlain? (text : List Char) : Option Decimal :=
  match text with
  | '-' :: rest => Reading.run { negative := true } rest
  | '+' :: rest => Reading.run { negative := false } rest
  | text => Reading.run { negative := false } text

/-- The mantissa with `k` places dropped, rounded half away from zero. -/
def shortened (mantissa k : Nat) : Nat := (2 * mantissa + tenTo k) / (2 * tenTo k)

/-- A decimal with its point moved `e` places to the left. Places past the last one are rounded off
before the move; the sign stays. -/
def lowered (d : Decimal) (e : Nat) : Option Decimal :=
  if maxScale < e then none
  else if d.scale + e ≤ maxScale then ofParts? d.negative d.mantissa (d.scale + e)
  else ofParts? d.negative (shortened d.mantissa (d.scale + e - maxScale)) maxScale

/-- A decimal times ten to the `e`; past its own places the mantissa grows and loses its zeros. -/
def raised (d : Decimal) (e : Nat) : Option Decimal :=
  if e ≤ d.scale then ofParts? d.negative d.mantissa (d.scale - e)
  else if maxScale < e then none
  else do
    let p ← (ofParts? false (tenTo e) 0).bind d.mul
    trimmedParts p
where
  trimmedParts (p : Decimal) : Option Decimal :=
    let (m, s) := zeros p.scale (p.mantissa, p.scale)
    ofParts? (p.negative && m ≠ 0) m s
  zeros : Nat → Nat × Nat → Nat × Nat
    | 0, q => q
    | fuel + 1, q =>
      if 0 < q.2 ∧ q.1 % 10 = 0 then zeros fuel (q.1 / 10, q.2 - 1) else q

/-- Reads scientific text: a plain decimal, `e` and a signed exponent. -/
def ofScientific? (text : List Char) : Option Decimal := do
  let base := text.takeWhile fun c => c ≠ 'e' ∧ c ≠ 'E'
  let d ← ofPlain? base
  match text.drop base.length with
  | [] => none
  | _ :: '-' :: e => do
    let e ← (Text.Integer.parse UInt32.size e).toOption
    lowered d e
  | _ :: e => do
    let e ← (Text.Integer.parse UInt32.size e).toOption
    raised d e

/-- Reads plain text, else scientific text. -/
def ofText? (s : String) : Option Decimal :=
  (ofPlain? s.toList).orElse fun _ => ofScientific? s.toList

end Chainfolio.Decimal
