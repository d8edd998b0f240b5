import Chainfolio.Decimal.Power
import Chainfolio.Decimal.Root
import Chainfolio.Fault

/-! Token amounts behind concentrated liquidity. Prices are powers of the root of 1.0001, so that the
outermost ticks still fit a decimal. -/
namespace Chainfolio.Ticks

def fail {α : Type} (cause : TickFault) : Except Fault α := .error (.math (.tick cause))

def orFail {α : Type} (cause : TickFault) : Option α → Except Fault α
  | some a => .ok a
  | none => fail cause

/-- The price at a tick over the price at the tick below. -/
def tickRatio : Decimal := ⟨false, 10001, 4, by decide, by decide⟩

def sqrtPrice (tick : Int) : Except Fault Decimal := do
  let base ← orFail .root tickRatio.sqrt?
  orFail (.tickOutOfRange tick) (base.powInt tick)

/-- The square root of 1.0001 to 28 places. -/
def sqrtBase : Decimal := ⟨false, 10000499987500624960940234170, 28, by decide, by decide⟩

/-- Newton's method ends at the root with all its places. -/
theorem sqrt?_tickRatio : tickRatio.sqrt? = some sqrtBase := rfl

theorem sqrtPrice_eq (tick : Int) :
    sqrtPrice tick = orFail (.tickOutOfRange tick) (sqrtBase.powInt tick) := by
  rw [sqrtPrice, sqrt?_tickRatio]
  rfl

/-- How much of the first token liquidity holds between two square roots of prices. -/
def amount0Delta (liquidity sqrtA sqrtB : Decimal) : Except Fault Decimal := do
  let inverseA ← orFail .division (Decimal.one.div sqrtA)
  let inverseB ← orFail .division (Decimal.one.div sqrtB)
  orFail .amount0Overflow ((inverseA.sub inverseB).bind liquidity.mul)

/-- How much of the second token liquidity holds between two square roots of prices. -/
def amount1Delta (liquidity sqrtA sqrtB : Decimal) : Except Fault Decimal :=
  orFail .amount1Overflow ((sqrtB.sub sqrtA).bind liquidity.mul)

/-- The raw amount at or below a decimal. -/
def toRaw (amount : Decimal) : Except Fault Word :=
  match amount.floor.bind Decimal.toNat? with
  | some n => .ok (BitVec.ofNat 256 n)
  | none => fail (.notAnAmount amount)

/-- The amounts before they are cut to integers: below its range liquidity is all first token, above
it all second token. -/
def exactAmounts (liquidity : HalfWord) (lower upper current : Int) :
    Except Fault (Decimal × Decimal) := do
  let liquidity ← orFail .liquidityOverflow (Decimal.ofParts? false liquidity.toNat 0)
  let sqrtLower ← sqrtPrice lower
  let sqrtUpper ← sqrtPrice upper
  if current < lower then
    return (← amount0Delta liquidity sqrtLower sqrtUpper, .zero)
  else if upper ≤ current then
    return (.zero, ← amount1Delta liquidity sqrtLower sqrtUpper)
  else do
    let sqrtCurrent ← sqrtPrice current
    let amount0 ← amount0Delta liquidity sqrtCurrent sqrtUpper
    return (amount0, ← amount1Delta liquidity sqrtLower sqrtCurrent)

/-- The raw amounts of both tokens behind liquidity between two ticks. -/
def amounts (liquidity : HalfWord) (lower upper current : Int) : Except Fault (Word × Word) := do
  let (amount0, amount1) ← exactAmounts liquidity lower upper current
  let raw0 ← toRaw amount0
  return (raw0, ← toRaw amount1)

end Chainfolio.Ticks
