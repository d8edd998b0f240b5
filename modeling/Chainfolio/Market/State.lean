import Chainfolio.FixedPoint
import Chainfolio.Float.Word

/-! The accounts of a lending market, and what shares of it are worth. One virtual asset and a
million virtual shares stand behind every conversion. -/
namespace Chainfolio

/-- The totals of a market at its last update. -/
structure MarketState where
  totalSupplyAssets : HalfWord := 0
  totalSupplyShares : HalfWord := 0
  totalBorrowAssets : HalfWord := 0
  totalBorrowShares : HalfWord := 0
  lastUpdate : HalfWord := 0
  fee : HalfWord := 0
  deriving DecidableEq

namespace MarketState

/-- The share of the supplied assets that is lent out. -/
def utilization (m : MarketState) : Float :=
  if m.totalSupplyAssets = 0 then 0.0
  else m.totalBorrowAssets.toFloat / m.totalSupplyAssets.toFloat

def feeFraction (m : MarketState) : Float := m.fee.toFloat / 1e18

end MarketState

namespace Shares

def virtualShares : Word := 1000000

def virtualAssets : Word := 1

def ofAssetsDown (assets totalAssets totalShares : Word) : Except Fault Word :=
  FixedPoint.mulDivDown assets (totalShares + virtualShares) (totalAssets + virtualAssets)

def ofAssetsUp (assets totalAssets totalShares : Word) : Except Fault Word :=
  FixedPoint.mulDivUp assets (totalShares + virtualShares) (totalAssets + virtualAssets)

def toAssetsDown (shares totalAssets totalShares : Word) : Except Fault Word :=
  FixedPoint.mulDivDown shares (totalAssets + virtualAssets) (totalShares + virtualShares)

def toAssetsUp (shares totalAssets totalShares : Word) : Except Fault Word :=
  FixedPoint.mulDivUp shares (totalAssets + virtualAssets) (totalShares + virtualShares)

end Shares

/-- The side of a market that a holder is on. -/
inductive MarketSide where
  | supply
  | borrow
  deriving DecidableEq

/-- What the holder of shares owns (supply, rounded down) or owes (debt, rounded up). -/
def MarketSide.toAssets (side : MarketSide) (shares : Word) (m : MarketState) :
    Except Fault Word :=
  match side with
  | .supply => Shares.toAssetsDown shares m.totalSupplyAssets.widen m.totalSupplyShares.widen
  | .borrow => Shares.toAssetsUp shares m.totalBorrowAssets.widen m.totalBorrowShares.widen

def MarketSide.totalAssets (side : MarketSide) (m : MarketState) : Word :=
  match side with
  | .supply => m.totalSupplyAssets.widen
  | .borrow => m.totalBorrowAssets.widen

end Chainfolio
