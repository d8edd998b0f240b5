import Chainfolio.Radix

/-! The parts of a binary floating-point number: sign, significand and exponent. -/
namespace Chainfolio

/-- What a float denotes: not a number, an infinity, or plus or minus `m * 2 ^ e`. -/
inductive FloatParts where
  | nan
  | infinite (negative : Bool)
  | finite (negative : Bool) (m : Nat) (e : Int)

def FloatParts.ofBits (bits : UInt64) : FloatParts :=
  let negative := bits >>> 63 = 1
  let exponent := ((bits >>> 52) &&& 0x7FF).toNat
  let fraction := (bits &&& 0xFFFFFFFFFFFFF).toNat
  if exponent = 0x7FF then
    if fraction = 0 then .infinite negative else .nan
  else if exponent = 0 then .finite negative fraction (-1074)
  else .finite negative (twoTo 52 + fraction) (exponent - 1075 : Int)

def FloatParts.ofFloat (x : Float) : FloatParts := .ofBits x.toBits

/-- The numerator and denominator of `m * 2 ^ e`. -/
def FloatParts.ratio (m : Nat) (e : Int) : Nat × Nat :=
  (m * twoTo e.toNat, twoTo (-e).toNat)

/-- The exponent of the leading decimal digit of a positive quotient. -/
def leadingExponent (num den : Nat) : Int :=
  if den ≤ num then ((Nat.toDigits 10 (num / den)).length - 1 : Nat)
  else
    Int.negOfNat (((List.range 400).find? fun k => den ≤ num * tenTo k).getD 0)

end Chainfolio
