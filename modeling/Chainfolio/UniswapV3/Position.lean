import Chainfolio.Position
import Chainfolio.Text.Amount

/-! Liquidity positions. Each is an NFT of the position manager and holds two tokens, with fees that
can be claimed beside them. -/
namespace Chainfolio.UniswapV3

/-- The liquidity of one NFT and what it is worth. -/
structure LiquidityPosition where
  tokenId : Word
  liquidity : HalfWord
  token0 : Token
  token1 : Token
  amount0 : Word
  amount1 : Word
  fees0 : Word
  fees1 : Word
  deriving DecidableEq

/-- Fees that can be claimed, unless there are none. -/
def claimable (t : Token) (fees : Word) : List Underlying :=
  if fees = 0 then [] else [.leaf t fees .underlyingClaimable]

def amountsOf (token0 token1 : Token) (amount0 amount1 : Word) : List Underlying :=
  [.leaf token0 amount0 .underlying, .leaf token1 amount1 .underlying]

/-- The position on the manager's token. -/
def LiquidityPosition.position (p : LiquidityPosition) (manager : Token) : Position where
  token := manager
  balance := p.liquidity.widen
  tokenId := some p.tokenId.text
  tokens := amountsOf p.token0 p.token1 p.amount0 p.amount1 ++ claimable p.token0 p.fees0 ++
    claimable p.token1 p.fees1

end Chainfolio.UniswapV3
