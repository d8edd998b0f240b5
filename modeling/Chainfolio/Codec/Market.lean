import Chainfolio.Codec.Word
import Chainfolio.Codec.Yield
import Chainfolio.MorphoBlue.Yield

/-! JSON forms of lending markets and of what they and the vaults above them yield. -/
namespace Chainfolio

def HalfWord.ofJson? (j : Json) : Option HalfWord := (Word.ofJson? j).bind Word.toHalf?

namespace MarketState

/-- Reads the accounts of a market; what is missing is zero. -/
def ofJson? (j : Json) : Option MarketState := do
  let amount := fun name => match j.get? name with
    | some a => HalfWord.ofJson? a
    | none => some 0
  return {
    totalSupplyAssets := ← amount "totalSupplyAssets"
    totalSupplyShares := ← amount "totalSupplyShares"
    totalBorrowAssets := ← amount "totalBorrowAssets"
    totalBorrowShares := ← amount "totalBorrowShares"
    lastUpdate := ← amount "lastUpdate"
    fee := ← amount "fee" }

def fields (m : MarketState) : List (String × Json) :=
  [("totalSupplyAssets", m.totalSupplyAssets.toJson),
    ("totalSupplyShares", m.totalSupplyShares.toJson),
    ("totalBorrowAssets", m.totalBorrowAssets.toJson),
    ("totalBorrowShares", m.totalBorrowShares.toJson), ("lastUpdate", m.lastUpdate.toJson),
    ("fee", m.fee.toJson)]

end MarketState

namespace MarketParams

def ofJson? (j : Json) : Option MarketParams := do
  return {
    loanToken := ← Address.ofJson? (← j.get? "loanToken")
    collateralToken := ← Address.ofJson? (← j.get? "collateralToken")
    oracle := ← Address.ofJson? (← j.get? "oracle")
    irm := ← Address.ofJson? (← j.get? "irm")
    lltv := ← Word.ofJson? (← j.get? "lltv") }

def toJson (p : MarketParams) : Json :=
  .obj [("loanToken", p.loanToken.toJson), ("collateralToken", p.collateralToken.toJson),
    ("oracle", p.oracle.toJson), ("irm", p.irm.toJson), ("lltv", p.lltv.toJson)]

end MarketParams

def PoolYield.toJson (p : PoolYield) : Json :=
  .obj [("rate", p.rate.toJson), ("borrow", Json.scientific p.borrow),
    ("supply", Json.scientific p.supply), ("borrowApr", Json.scientific p.borrowApr),
    ("supplyApr", Json.scientific p.supplyApr)]

namespace VaultSupply

/-- Reads what a vault supplies to one market, with the market's yields. -/
def ofJson? (j : Json) : Option VaultSupply := do
  let pool : PoolYield := {
    market := ← MarketState.ofJson? (← j.get? "market")
    rate := ← Word.ofJson? (← j.get? "rate")
    borrow := ← (← j.get? "borrow").float?
    supply := ← (← j.get? "supply").float? }
  return ⟨← Word.ofJson? (← j.get? "suppliedAssets"), pool⟩

def toJson (s : VaultSupply) : Json :=
  .obj [("suppliedAssets", s.suppliedAssets.toJson), ("pool", s.pool.toJson)]

end VaultSupply

def VaultYield.toJson (v : VaultYield) : Json :=
  .obj [("components", .arr (v.components.map VaultSupply.toJson)), ("fee", Json.scientific v.fee),
    ("totalAssets", v.totalAssets.toJson), ("apy", Json.scientific v.apy)]

end Chainfolio
