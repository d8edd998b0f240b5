import Chainfolio.Float.Word

/-! Yearly rates from the encodings that contracts use. -/
namespace Chainfolio.Annual

def secondsPerYear : UInt64 := 31536000

/-- A simple rate, compounded a number of times per year. -/
def compound (apr : Float) (periods : UInt64) : Float :=
  if periods = 0 then apr
  else
    let n := periods.toFloat
    Float.pow (1.0 + apr / n) n - 1.0

/-- A yearly rate scaled by `10 ^ 27`. -/
def aprOfRay (rate : Word) : Float := Word.toFloat rate / 1e27

/-- A yearly rate scaled by `10 ^ 27`, compounded every second. -/
def apyOfRay (rate : Word) : Float := compound (aprOfRay rate) secondsPerYear

/-- A rate per block scaled by `10 ^ 18`, compounded daily. -/
def apyOfBlockRate (rate : Word) (blocksPerDay : UInt64) : Float :=
  let daily := Word.toFloat rate / 1e18 * blocksPerDay.toFloat
  floatPower (1.0 + daily) 365 - 1.0

/-- A rate per block scaled by `10 ^ 18`, without compounding. -/
def aprOfBlockRate (rate : Word) (blocksPerDay : UInt64) : Float :=
  Word.toFloat rate / 1e18 * blocksPerDay.toFloat * 365.0

end Chainfolio.Annual
