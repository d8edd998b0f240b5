import Chainfolio.Chain
import Chainfolio.Keccak
import Chainfolio.Rates.Unwrap
import Chainfolio.Text.Checksum

/-! Isolated lending markets. A market is known by the digest of its parameters; the protocol token
that stands for it carries the id and the parameters as text. -/
namespace Chainfolio

structure MarketParams where
  loanToken : Address
  collateralToken : Address
  oracle : Address
  irm : Address
  lltv : Word
  deriving DecidableEq

namespace MarketParams

def id (p : MarketParams) : Hash :=
  keccak256 ([p.loanToken.toWord, p.collateralToken.toWord, p.oracle.toWord, p.irm.toWord,
    p.lltv].flatMap Word.bytes)

def isIdle (p : MarketParams) : Bool :=
  p.irm = .zero || p.collateralToken = .zero || p.loanToken = .zero

end MarketParams

/-- The address of the protocol token that stands for a market. -/
def Hash.marketToken (id : Hash) : Address := Address.ofWord id.bits

namespace ProtocolToken

/-- A text under a name in the token's extra data, read as some kind of value. -/
def extraValue {α : Type} (t : ProtocolToken) (name : String) (read : String → Option α) :
    Except Fault α :=
  match (t.extra.text? name).bind read with
  | some a => .ok a
  | none => .error (.config (.invalidMetadata t.token.symbol name))

def market (t : ProtocolToken) : Except Fault (Hash × MarketParams) := do
  let loanToken ← t.extraValue "loanToken" Address.ofText?
  let collateralToken ← t.extraValue "collateralToken" Address.ofText?
  let oracle ← t.extraValue "oracle" Address.ofText?
  let irm ← t.extraValue "irm" Address.ofText?
  let lltv ← t.extraValue "lltv" Word.ofText?
  let id ← t.extraValue "marketId" Hash.ofText?
  return (id, ⟨loanToken, collateralToken, oracle, irm, lltv⟩)

/-- The protocol token of a market, named after its collateral and loan tokens. -/
def ofMarket (id : Hash) (p : MarketParams) (loan collateral : Token) : ProtocolToken :=
  let symbol := collateral.symbol ++ "/" ++ loan.symbol
  { token := ⟨id.marketToken, "Morpho Blue " ++ symbol, symbol, loan.decimals⟩
    underlyings := [loan]
    extra := Extra.empty
      |>.insertText "marketId" id.text
      |>.insertText "loanToken" p.loanToken.checksum
      |>.insertText "collateralToken" p.collateralToken.checksum
      |>.insertText "oracle" p.oracle.checksum
      |>.insertText "irm" p.irm.checksum
      |>.insertText "lltv" p.lltv.text }

end ProtocolToken

end Chainfolio
