import Chainfolio.Decimal.Basic
import Chainfolio.Radix

/-! Sums, products and quotients of decimals; `none` is overflow. -/
namespace Chainfolio.Decimal

/-- Mantissas of one machine word, whose product is given up past `narrowScale` places. -/
def isNarrow (a : Decimal) : Bool := a.mantissa < twoTo 32

/-- The most places that a product of narrow decimals is rounded from. -/
def narrowScale : Nat := 47

/-- The product, with as many places as fit. Narrow operands with very many places give a plain
zero. -/
def mul (a b : Decimal) : Option Decimal :=
  if a.mantissa = 0 ∨ b.mantissa = 0 then some zero
  else if a.isNarrow ∧ b.isNarrow ∧ narrowScale < a.scale + b.scale then some zero
  else fit (a.negative != b.negative) (a.mantissa * b.mantissa) (a.scale + b.scale)

/-- The signed numerator of a decimal at a larger scale. -/
def numeratorAt (a : Decimal) (scale : Nat) : Int := a.numerator * tenTo (scale - a.scale)

/-- The sum at the larger of the two scales. A zero gives way to the other operand. -/
def add (a b : Decimal) : Option Decimal :=
  if a.mantissa = 0 then some b
  else if b.mantissa = 0 then some a
  else
    let scale := max a.scale b.scale
    let z := a.numeratorAt scale + b.numeratorAt scale
    fit (z < 0) z.natAbs scale

/-- The difference: the subtrahend enters the sum with its sign flipped, unless it is zero. -/
def sub (a b : Decimal) : Option Decimal :=
  if b.mantissa = 0 then add a b else add a b.neg

/-- A quotient under way: digits so far, remainder, and scale, which starts below zero when the
divisor has more places. -/
structure Division where
  quotient : Nat
  remainder : Nat
  scale : Int
  inexact : Bool

/-- The most digits, at most nine, that the quotient can still take. -/
def Division.room (d : Division) : Nat :=
  ((List.range 9).takeWhile fun (k : Nat) =>
    d.scale + k < (maxScale : Int) ∧ d.quotient * tenTo (k + 1) < mantissaLimit).length

/-- Appends `k` digits of the quotient by `divisor`. -/
def Division.extend (d : Division) (divisor k : Nat) : Division :=
  let n := d.remainder * tenTo k
  { quotient := d.quotient * tenTo k + n / divisor, remainder := n % divisor,
    scale := d.scale + k, inexact := d.inexact }

def Division.round (d : Division) (divisor : Nat) : Division :=
  let up := divisor < 2 * d.remainder ∨ (2 * d.remainder = divisor ∧ d.quotient % 2 = 1)
  if up then { d with quotient := d.quotient + 1 } else d

/-- Digit groups are appended until the division is exact or nothing more fits. -/
def Division.run (divisor : Nat) : Nat → Division → Option Division
  | 0, _ => none
  | fuel + 1, d =>
    if d.remainder = 0 then
      if 0 ≤ d.scale then some d
      else run divisor fuel (d.extend divisor (min 9 (-d.scale).toNat))
    else
      let k := d.room
      let d : Division := { d with inexact := true }
      if d.scale = (maxScale : Int) ∨ k = 0 then
        if d.scale < 0 then none else some (d.round divisor)
      else run divisor fuel (d.extend divisor k)

/-- Drops `e` trailing zeros at once, if there are that many. -/
def dropZeros (e : Nat) (q : Nat × Nat) : Nat × Nat :=
  if e ≤ q.2 ∧ q.1 % tenTo e = 0 then (q.1 / tenTo e, q.2 - e) else q

/-- Drops groups of eight zeros while the quotient's low 32 bits are zero. -/
def dropEights : Nat → Nat × Nat → Nat × Nat
  | 0, q => q
  | fuel + 1, q =>
    if q.1 % twoTo 32 = 0 ∧ 8 ≤ q.2 ∧ q.1 % tenTo 8 = 0 then
      dropEights fuel (q.1 / tenTo 8, q.2 - 8)
    else q

/-- An inexact quotient without the zeros at its end. -/
def unpadded (q : Nat × Nat) : Nat × Nat :=
  dropZeros 1 (dropZeros 2 (dropZeros 4 (dropEights 4 q)))

/-- The quotient to 28 places or as many digits as fit; `none` also when the divisor is zero. -/
def div (a b : Decimal) : Option Decimal :=
  if b.mantissa = 0 then none
  else if a.mantissa = 0 then some zero
  else do
    let d ← Division.run b.mantissa 64
      { quotient := a.mantissa / b.mantissa, remainder := a.mantissa % b.mantissa,
        scale := (a.scale : Int) - b.scale, inexact := false }
    let (q, s) := if d.inexact then unpadded (d.quotient, d.scale.toNat)
      else (d.quotient, d.scale.toNat)
    ofParts? (a.negative != b.negative) q s

end Chainfolio.Decimal
