import Chainfolio.Decimal.Arithmetic

/-! Square roots of decimals by Newton's method: a guess gives way to the mean of itself and what the
number divided by it gives, until that makes no difference any more. -/
namespace Chainfolio.Decimal

/-- Whether two decimals are the same number, with whatever zeros at their ends. -/
def isSame (a b : Decimal) : Bool := a.numeratorAt maxScale = b.numeratorAt maxScale

def improve (a guess : Decimal) : Option Decimal := do
  (← guess.add (← a.div guess)).div two

/-- Improves a guess until it is the same as the one before; `fuel` bounds how often both are compared. -/
def improveAll (a : Decimal) : (fuel : Nat) → (guess last : Decimal) → Option Decimal
  | 0, _, _ => none
  | fuel + 1, guess, last =>
    if last.isSame guess then some guess
    else do improveAll a fuel (← a.improve guess) guess

def rootFuel : Nat := 1000

/-- The square root of a number that is not negative. Half of the number is the first guess, or the number
itself where its half is too small. -/
def sqrt? (a : Decimal) : Option Decimal :=
  if a.negative then none
  else if a.mantissa = 0 then some zero
  else do
    let half ← a.div two
    let guess := if half.mantissa = 0 then a else half
    improveAll a rootFuel guess (← guess.add one)

end Chainfolio.Decimal
