import Chainfolio.Float.Parts
import Chainfolio.Radix
import Chainfolio.Rounding

/-! Shortest float text: the fewest decimal digits that read back as the same float, and of those
the nearest, or of two as near the even one. Numbers from `1e-5` up to `1e16` are written positionally. -/
namespace Chainfolio.Shortest

/-- The reals that round to a float, as numerators over one denominator. -/
structure Interval where
  lower : Nat
  value : Nat
  upper : Nat
  den : Nat
  closed : Bool

/-- The interval of `m * 2 ^ e`; below a power of two the gap is half as wide. -/
def interval (m : Nat) (e : Int) : Interval :=
  let scale := twoTo (e - 2).toNat
  let below := if m = twoTo 52 ∧ -1074 < e then 1 else 2
  { lower := (4 * m - below) * scale, value := 4 * m * scale, upper := (4 * m + 2) * scale,
    den := twoTo (2 - e).toNat, closed := m % 2 = 0 }

/-- Whether `c * 10 ^ g` rounds to the float. -/
def Interval.holds (i : Interval) (c : Nat) (g : Int) : Bool :=
  let x := c * tenTo g.toNat * i.den
  let s := tenTo (-g).toNat
  if i.closed then i.lower * s ≤ x && x ≤ i.upper * s else i.lower * s < x && x < i.upper * s

/-- The nearer of the two neighbours of the value on the grid `10 ^ g` that read back; half way
between them, the even one. -/
def Interval.onGrid? (i : Interval) (g : Int) : Option Nat :=
  let num := i.value * tenTo (-g).toNat
  let den := i.den * tenTo g.toNat
  let below := num / den
  match i.holds below g, i.holds (below + 1) g with
  | true, true => some (roundHalfEven num den)
  | true, false => some below
  | false, true => some (below + 1)
  | false, false => none

def digits (m : Nat) (e : Int) : Nat × Int :=
  let i := interval m e
  let d := leadingExponent i.value i.den
  let found := (List.range 17).findSome? fun (n : Nat) =>
    let g := d - (n : Int)
    (i.onGrid? g).map fun c => (c, g)
  found.getD (m, 0)

/-- Digits without trailing zeros, the zeros counted into the exponent. -/
def trim : List Char → Int → List Char × Int
  | [], g => ([], g)
  | c :: rest, g => if c = '0' then trim rest (g + 1) else (c :: rest, g)

def layout (ds : List Char) (g : Int) : List Char :=
  let point : Int := ds.length + g
  if 0 < point ∧ point ≤ 16 then
    if 0 ≤ g then ds ++ List.replicate g.toNat '0' ++ ['.', '0']
    else ds.take point.toNat ++ '.' :: ds.drop point.toNat
  else if -5 < point ∧ point ≤ 0 then
    '0' :: '.' :: List.replicate (-point).toNat '0' ++ ds
  else
    let exponent := toString (point - 1)
    match ds with
    | [d] => d :: 'e' :: exponent.toList
    | d :: rest => d :: '.' :: rest ++ 'e' :: exponent.toList
    | [] => []

/-- The text of a finite float; `none` for the others. -/
def text? (x : Float) : Option String :=
  match FloatParts.ofFloat x with
  | .finite negative 0 _ => some (if negative then "-0.0" else "0.0")
  | .finite negative m e =>
    let (q, g) := digits m e
    let (ds, g) := trim (Nat.toDigits 10 q).reverse g
    some ((if negative then "-" else "") ++ String.ofList (layout ds.reverse g))
  | _ => none

end Chainfolio.Shortest
