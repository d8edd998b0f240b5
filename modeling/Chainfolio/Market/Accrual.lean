import Chainfolio.Market.State
import Chainfolio.Rates.Annual

/-! Interest accrual of a lending market, and its yields. -/
namespace Chainfolio

namespace MarketState

def field (w : Word) : Except Fault HalfWord :=
  match Word.toHalf? w with
  | some h => .ok h
  | none => .error (.math (.overflow "u128 conversion"))

/-- The seconds from the last update to a time; none when the time is earlier. -/
def elapsed (m : MarketState) (timestamp : UInt64) : Nat := timestamp.toNat - m.lastUpdate.toNat

/-- The interest on the borrowed assets over some seconds. -/
def interest (m : MarketState) (rate : Word) (seconds : Nat) : Except Fault Word := do
  let growth ← FixedPoint.wTaylorCompounded rate (BitVec.ofNat 256 seconds)
  FixedPoint.wMulDown m.totalBorrowAssets.widen growth

/-- The supply shares after the fee on some interest is minted against a supply that holds the
interest; the fee itself is not part of that supply. -/
def sharesWithFee (m : MarketState) (interest : Word) (supply : HalfWord) : Except Fault HalfWord :=
  if m.fee = 0 then .ok m.totalSupplyShares
  else do
    let feeAmount ← FixedPoint.wMulDown interest m.fee.widen
    let feeShares ← Shares.ofAssetsDown feeAmount (supply.widen - feeAmount)
      m.totalSupplyShares.widen
    field (m.totalSupplyShares.widen + feeShares)

/-- The market with interest accrued up to a time, at a rate per second scaled by `10 ^ 18`. -/
def accrue (m : MarketState) (rate : Word) (timestamp : UInt64) : Except Fault MarketState :=
  if m.elapsed timestamp = 0 ∨ m.totalBorrowAssets = 0 then .ok m
  else do
    let interest ← m.interest rate (m.elapsed timestamp)
    let borrow ← field (m.totalBorrowAssets.widen + interest)
    let supply ← field (m.totalSupplyAssets.widen + interest)
    let shares ← m.sharesWithFee interest supply
    return { m with
      totalSupplyAssets := supply
      totalSupplyShares := shares
      totalBorrowAssets := borrow
      lastUpdate := BitVec.ofNat 128 timestamp.toNat }

end MarketState

namespace Annual

/-- The yield of a rate per second scaled by `10 ^ 18`, compounded continuously. -/
def borrowApy (ratePerSecond : Word) : Float :=
  let rate := Word.toFloat ratePerSecond / 1e18
  Float.exp (rate * secondsPerYear.toFloat) - 1.0

/-- The part of the borrow yield that suppliers get. -/
def supplyApy (borrowApy utilization fee : Float) : Float :=
  borrowApy * utilization * (1.0 - fee)

end Annual

end Chainfolio
