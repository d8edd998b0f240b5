import Chainfolio.Market.Accrual
import Chainfolio.MorphoBlue.Market

/-! Yields of lending markets, and of vaults that supply to several of them. -/
namespace Chainfolio

/-- The rates of a market: the borrow rate per second, and what it means per year. -/
structure PoolYield where
  market : MarketState
  rate : Word
  borrow : Float
  supply : Float

namespace PoolYield

def ofRate (market : MarketState) (rate : Word) : PoolYield :=
  let borrow := Annual.borrowApy rate
  ⟨market, rate, borrow, Annual.supplyApy borrow market.utilization market.feeFraction⟩

def borrowApr (p : PoolYield) : Float :=
  Word.toFloat p.rate / 1e18 * Annual.secondsPerYear.toFloat

def supplyApr (p : PoolYield) : Float :=
  p.borrowApr * p.market.utilization * (1.0 - p.market.feeFraction)

end PoolYield

/-- What a vault supplies to one market. -/
structure VaultSupply where
  suppliedAssets : Word
  pool : PoolYield

/-- The markets that a vault supplies to, its fee and all that it holds. -/
structure VaultYield where
  components : List VaultSupply
  fee : Float
  totalAssets : Word

/-- The supply yields weighted by what is supplied, net of the fee. -/
def VaultYield.apy (v : VaultYield) : Float :=
  if v.totalAssets = 0 then 0.0
  else
    let total := Word.toFloat v.totalAssets
    let sum := v.components.foldl
      (fun acc c => acc + Word.toFloat c.suppliedAssets * c.pool.supply / total) (-0.0)
    sum * (1.0 - v.fee)

end Chainfolio
