import Chainfolio.Decimal.Arithmetic
import Chainfolio.Fault
import Chainfolio.Radix

/-! Raw amounts and decimals. `none` marks an argument outside a conversion's domain. -/
namespace Chainfolio.Wei

/-- A mantissa moved to a smaller scale; the most significant dropped digit rounds half away from
zero. -/
def lowerScale (mantissa drop : Nat) : Nat :=
  let kept := mantissa / tenTo drop
  if 5 ≤ mantissa / tenTo (drop - 1) % 10 then kept + 1 else kept

/-- A mantissa moved up to `places` more places, as long as it stays below the limit. -/
def raiseScale : Nat → Nat → Nat
  | 0, mantissa => mantissa
  | places + 1, mantissa =>
    if mantissa * 10 < Decimal.mantissaLimit then raiseScale places (mantissa * 10) else mantissa

def rescaled (size : Decimal) (scale : Nat) : Nat :=
  if size.mantissa = 0 then 0
  else if scale < size.scale then lowerScale size.mantissa (size.scale - scale)
  else raiseScale (scale - size.scale) size.mantissa

/-- The raw amount of a number that is not negative. -/
def ofDecimal? (size : Decimal) (decimals : UInt32) : Option Word :=
  let m := rescaled size decimals.toNat
  if size.negative ∧ m ≠ 0 then none else some (BitVec.ofNat 256 m)

/-- The decimal of a raw amount that keeps every digit, if there is one. -/
def toDecimal? (amount : Word) (decimals : UInt32) : Option Decimal :=
  Decimal.ofParts? false amount.toNat decimals.toNat

/-- Drops digits of a mantissa, at most `scale` of them, until it fits. -/
def shrink : Nat → Nat → Nat × Nat
  | mantissa, 0 => (mantissa, 0)
  | mantissa, scale + 1 =>
    if mantissa < Decimal.mantissaLimit then (mantissa, scale + 1) else shrink (mantissa / 10) scale

/-- The divisor that brings an amount of more than 28 decimals to 28. It wraps: from the 256th power
of ten on it is a multiple of two to the 256. -/
def excessScale (decimals : UInt32) : Word :=
  if 284 ≤ decimals.toNat then 0 else BitVec.ofNat 256 (tenTo (decimals.toNat - 28))

/-- The decimal of a raw amount with the lowest digits cut off as far as needed. The outer option is
empty when the scale itself wraps to zero. -/
def toDecimal (amount : Word) (decimals : UInt32) : Option (Except Fault Decimal) :=
  let scaled : Option (Nat × Nat) :=
    if 28 < decimals.toNat then
      if excessScale decimals = 0 then none
      else some ((amount / excessScale decimals).toNat, 28)
    else some (amount.toNat, decimals.toNat)
  scaled.map fun (mantissa, scale) =>
    let (mantissa, scale) := shrink mantissa scale
    match Decimal.ofParts? false mantissa scale with
    | some d => .ok d
    | none => .error (.math (.notADecimal amount))

end Chainfolio.Wei
