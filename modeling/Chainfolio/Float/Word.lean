import Chainfolio.Radix
import Chainfolio.Word

/-! Words as floats. The 64-bit limbs are folded from the highest, each rounded on its own. -/
namespace Chainfolio

def Word.limb (w : Word) (i : Nat) : UInt64 := UInt64.ofNat (w.toNat / twoTo (64 * i))

/-- The float near a word. -/
def Word.toFloat (w : Word) : Float :=
  [3, 2, 1, 0].foldl (fun acc i => acc * 18446744073709551616.0 + (w.limb i).toFloat) 0.0

/-- Square and multiply from the lowest bit of the exponent. -/
def floatPowerFrom : Nat → Float → Nat → Float → Float
  | 0, _, _, r => r
  | fuel + 1, a, n, r =>
    let r := if n % 2 = 1 then r * a else r
    if n / 2 = 0 then r else floatPowerFrom fuel (a * a) (n / 2) r

def floatPower (a : Float) (n : Nat) : Float := floatPowerFrom (n + 1) a n 1.0

def Word.scaledToFloat (w : Word) (decimals : UInt8) : Float :=
  Word.toFloat w / floatPower 10.0 decimals.toNat

/-- The float nearest to a half word: the significand is cut to 64 bits with a sticky bit, so that
the only rounding is the last one. -/
def HalfWord.toFloat (h : HalfWord) : Float :=
  let n := h.toNat
  let shift := n.log2 - 63
  if shift = 0 then (UInt64.ofNat n).toFloat
  else
    let top := n / twoTo shift
    let sticky := if n % twoTo shift = 0 then top else top ||| 1
    (UInt64.ofNat sticky).toFloat.scaleB shift

end Chainfolio
