import Chainfolio.Market.Accrual
import Chainfolio.MorphoBlue.Yield
import Chainfolio.Node.Basic

/-! Reads of the contract that holds all isolated lending markets, and of the rate models that the
markets name. -/
namespace Chainfolio

namespace MarketParams

/-- The five words of a market's parameters. -/
def ofWords? : List Word → Option MarketParams
  | [loanToken, collateralToken, oracle, irm, lltv] =>
    some ⟨Address.ofWord loanToken, Address.ofWord collateralToken, Address.ofWord oracle,
      Address.ofWord irm, lltv⟩
  | _ => none

def toValue (p : MarketParams) : AbiValue :=
  .list [.address p.loanToken, .address p.collateralToken, .address p.oracle, .address p.irm,
    .word p.lltv]

end MarketParams

namespace MarketState

/-- The six words of a market's accounts. -/
def ofWords? : List Word → Option MarketState
  | [supplyAssets, supplyShares, borrowAssets, borrowShares, lastUpdate, fee] =>
    some ⟨supplyAssets.setWidth 128, supplyShares.setWidth 128, borrowAssets.setWidth 128,
      borrowShares.setWidth 128, lastUpdate.setWidth 128, fee.setWidth 128⟩
  | _ => none

def toValue (m : MarketState) : AbiValue :=
  .list [.half m.totalSupplyAssets, .half m.totalSupplyShares, .half m.totalBorrowAssets,
    .half m.totalBorrowShares, .half m.lastUpdate, .half m.fee]

end MarketState

/-- What a holder has in a market. -/
structure MarketShares where
  supply : Word
  borrow : HalfWord
  collateral : HalfWord
  deriving DecidableEq

namespace MarketShares

/-- The three words of a holder's account. -/
def ofWords? : List Word → Option MarketShares
  | [supply, borrow, collateral] => some ⟨supply, borrow.setWidth 128, collateral.setWidth 128⟩
  | _ => none

def on (s : MarketShares) : MarketSide → Word
  | .supply => s.supply
  | .borrow => s.borrow.widen

end MarketShares

namespace MorphoBlue

variable {σ : Type}

def params (p : Provider σ) (contract : Address) (id : Hash) : Run σ MarketParams := do
  let words ← p.words ⟨contract, .idToMarketParams, [.hash id], none, none⟩
  Run.ofOption .contract (MarketParams.ofWords? words)

def market (p : Provider σ) (contract : Address) (id : Hash) (block : Option Block) :
    Run σ MarketState := do
  let words ← p.words ⟨contract, .market, [.hash id], block, none⟩
  Run.ofOption .contract (MarketState.ofWords? words)

def shares (p : Provider σ) (contract : Address) (id : Hash) (user : Address)
    (block : Option Block) : Run σ MarketShares := do
  let words ← p.words ⟨contract, .position, [.hash id, .address user], block, none⟩
  Run.ofOption .contract (MarketShares.ofWords? words)

/-- The borrow rate per second that a market's rate model gives. -/
def borrowRate (p : Provider σ) (params : MarketParams) (m : MarketState) (block : Option Block) :
    Run σ Word :=
  p.word ⟨params.irm, .borrowRateView, [params.toValue, m.toValue], block, none⟩

def poolYield (p : Provider σ) (params : MarketParams) (m : MarketState) (block : Option Block) :
    Run σ PoolYield := do
  return .ofRate m (← borrowRate p params m block)

/-- The market with the interest up to a block. Without debts there is none. -/
def accrued (p : Provider σ) (params : MarketParams) (m : MarketState) (block : Option Block) :
    Run σ MarketState := do
  if m.totalBorrowAssets = 0 then return m
  else
    let rate ← borrowRate p params m block
    let timestamp ← p.timestamp block
    Run.ofExcept (m.accrue rate timestamp)

end MorphoBlue

end Chainfolio
