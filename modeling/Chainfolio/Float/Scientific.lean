import Chainfolio.Float.Parts
import Chainfolio.Radix
import Chainfolio.Rounding

/-! Scientific text of a float with a fixed number of places, rounded half to even on the exact
binary value. The exponent carries no padding and no plus sign. -/
namespace Chainfolio.Scientific

/-- The digits before and after the point, and the exponent, of a positive quotient. -/
def digits (places : Nat) (num den : Nat) : Nat × Int :=
  let d := leadingExponent num den
  let shift : Int := places - d
  let q := roundHalfEven (num * tenTo shift.toNat) (den * tenTo (-shift).toNat)
  if q = tenTo (places + 1) then (q / 10, d + 1) else (q, d)

/-- Writes the digits as one digit, a point and the places. -/
def layout (negative : Bool) (places q : Nat) (exponent : Int) : String :=
  let all := Nat.toDigits 10 q
  let padded := all ++ List.replicate (places + 1 - all.length) '0'
  let sign := if negative then "-" else ""
  sign ++ String.ofList (padded.take 1) ++ "." ++ String.ofList (padded.drop 1) ++ "e" ++
    toString exponent

def text (places : Nat) (x : Float) : String :=
  match FloatParts.ofFloat x with
  | .nan => "NaN"
  | .infinite negative => if negative then "-inf" else "inf"
  | .finite negative 0 _ => layout negative places 0 0
  | .finite negative m e =>
    let (num, den) := FloatParts.ratio m e
    let (q, exponent) := digits places num den
    layout negative places q exponent

end Chainfolio.Scientific
