import Chainfolio.Radix
import Chainfolio.Rounding

/-! Decimals of a bounded size: a sign, a mantissa below `2 ^ 96` and a scale of at most 28 places.
Results that carry more digits drop the fewest places that make them fit. -/
namespace Chainfolio

def Decimal.mantissaLimit : Nat := twoTo 96

def Decimal.maxScale : Nat := 28

/-- The number `± mantissa / 10 ^ scale`; trailing zeros and the sign of zero are kept. -/
structure Decimal where
  negative : Bool
  mantissa : Nat
  scale : Nat
  mantissa_lt : mantissa < Decimal.mantissaLimit
  scale_le : scale ≤ Decimal.maxScale
  deriving DecidableEq

namespace Decimal

theorem ext_fields {a b : Decimal} (hn : a.negative = b.negative) (hm : a.mantissa = b.mantissa)
    (hs : a.scale = b.scale) : a = b := by
  cases a; cases b; simp_all

/-- The decimal of given parts, if they are in range. -/
def ofParts? (negative : Bool) (mantissa scale : Nat) : Option Decimal :=
  if h : mantissa < mantissaLimit ∧ scale ≤ maxScale then
    some ⟨negative, mantissa, scale, h.1, h.2⟩
  else none

def zero : Decimal := ⟨false, 0, 0, by decide, by decide⟩

def one : Decimal := ⟨false, 1, 0, by decide, by decide⟩

def two : Decimal := ⟨false, 2, 0, by decide, by decide⟩

instance : Inhabited Decimal := ⟨zero⟩

def neg (a : Decimal) : Decimal := { a with negative := !a.negative }

def numerator (a : Decimal) : Int := if a.negative then -a.mantissa else a.mantissa

/-- The mantissa that is left when `k` places are dropped, rounded half to even. -/
def dropped (mantissa k : Nat) : Nat := roundHalfEven mantissa (tenTo k)

/-- The decimal of given parts, if they are in range; zero takes no sign. -/
def ofSigned? (negative : Bool) (mantissa scale : Nat) : Option Decimal :=
  ofParts? (negative && mantissa ≠ 0) mantissa scale

/-- Drops the fewest of the places from `k` on that make the mantissa fit; `fuel` more may go. -/
def fitFrom (negative : Bool) (mantissa scale k : Nat) : Nat → Option Decimal
  | 0 => none
  | fuel + 1 =>
    if k ≤ scale then
      match ofSigned? negative (dropped mantissa k) (scale - k) with
      | some d => some d
      | none => fitFrom negative mantissa scale (k + 1) fuel
    else none

/-- The decimal nearest to `± mantissa / 10 ^ scale`, with as many places as fit; `none` when the
integer part alone is too large. -/
def fit (negative : Bool) (mantissa scale : Nat) : Option Decimal :=
  fitFrom negative mantissa scale (scale - maxScale) (scale + 1)

def floor (a : Decimal) : Option Decimal :=
  let q := a.mantissa / tenTo a.scale
  if a.negative ∧ a.mantissa % tenTo a.scale ≠ 0 then ofParts? true (q + 1) 0
  else ofParts? a.negative q 0

/-- The integer part as a natural number; a negative number has none. -/
def toNat? (a : Decimal) : Option Nat :=
  if a.negative ∧ a.mantissa / tenTo a.scale ≠ 0 then none else some (a.mantissa / tenTo a.scale)

/-- The digits of a mantissa with a point before the last `scale` of them. -/
def layout (mantissa scale : Nat) : List Char :=
  let ds := Nat.toDigits 10 mantissa
  if scale = 0 then ds
  else
    let padded := List.replicate (scale + 1 - ds.length) '0' ++ ds
    padded.take (padded.length - scale) ++ '.' :: padded.drop (padded.length - scale)

def text (a : Decimal) : String :=
  (if a.negative then "-" else "") ++ String.ofList (layout a.mantissa a.scale)

end Decimal

end Chainfolio
