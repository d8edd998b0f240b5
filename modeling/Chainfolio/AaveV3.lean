import Chainfolio.Adapter.Pool
import Chainfolio.Rates.Annual

/-! Aave v3 receipts and variable debt tokens. The pool's data provider lists the reserves. Both kinds
of token grow with the interest, so that each is worth one unit of its reserve asset. -/
namespace Chainfolio.AaveV3

def dataProvider : Chain → Option Address
  | .ethereum => some ⟨0x7B4EB56E7CD4b454BA8ff71E4518426369a138a3⟩
  | .optimism | .arbitrum | .polygon | .avalanche =>
    some ⟨0x69FA688f1Dc47d4B5d8029D5a35FB7a548310654⟩
  | .base => some ⟨0x2d8A3C5677189723C4cB8873CfC9C8976FDF38Ac⟩
  | _ => none

/-- The token of a reserve that a product lists. -/
inductive Reserve where
  | aToken
  | variableDebt
  deriving DecidableEq

namespace Reserve

def product : Reserve → String
  | aToken => "a-token"
  | variableDebt => "variable-debt-token"

def listing : Reserve → Listing
  | aToken =>
    { name := "Aave v3 AToken"
      description := "Aave v3 defi adapter for yield-generating token"
      siteUrl := "https://aave.com/"
      iconUrl := "https://cryptologos.cc/logos/aave-aave-logo.png"
      positionType := .supply
      assetType := .nonStandardToken }
  | variableDebt =>
    { name := "Aave v3 VariableDebtToken"
      description := "Aave v3 defi adapter for variable interest-accruing token"
      siteUrl := "https://aave.com/"
      iconUrl := "https://cryptologos.cc/logos/aave-aave-logo.png"
      positionType := .borrow
      assetType := .nonStandardToken }

/-- The product's token among the addresses of a reserve. -/
def address : Reserve → List Word → Option Address
  | aToken, [receipt, _, _] => some (Address.ofWord receipt)
  | variableDebt, [_, _, debt] => some (Address.ofWord debt)
  | _, _ => none

/-- The product's rate in the data of a reserve, scaled by a ray. -/
def rate (r : Reserve) (data : List Word) : Option Word :=
  match r with
  | aToken => data[5]?
  | variableDebt => data[6]?

end Reserve

variable {σ : Type}

/-- The asset of a listed reserve. -/
def assetOf? : AbiValue → Option Address
  | .list [_, .word asset] => some (Address.ofWord asset)
  | _ => none

def assets (c : AdapterContext σ) (provider : Address) : Run σ (List Address) := do
  match ← c.provider.call ⟨provider, .getAllReservesTokens, [], none, none⟩ with
  | [.list reserves] => Run.ofOption .contract (reserves.mapM assetOf?)
  | _ => throw .contract

def reserveToken (c : AdapterContext σ) (provider : Address) (reserve : Reserve) (asset : Address) :
    Run σ ProtocolToken := do
  let addresses ← c.provider.words
    ⟨provider, .getReserveTokensAddresses, [.address asset], none, none⟩
  let token ← c.token (← Run.ofOption .contract (reserve.address addresses))
  return { token := token, underlyings := [← c.token asset] }

def reserveTokens (c : AdapterContext σ) (provider : Address) (reserve : Reserve) :
    Run σ (List ProtocolToken) := do
  Run.forEach (reserveToken c provider reserve) (← assets c provider)

/-- A protocol token and its rate at a block. -/
def reserveRate (pool : Pool σ) (provider : Address) (reserve : Reserve) (r : RateRequest) :
    Run σ (Token × Word) := do
  let t ← pool.token r.token
  match t.underlyings with
  | [] => throw (.protocolTokenNotFound pool.chain r.token)
  | asset :: _ =>
    let data ← pool.provider.words
      ⟨provider, .getReserveData, [.address asset.address], r.block, none⟩
    return (t.token, ← Run.ofOption .contract (reserve.rate data))

def adapter (c : AdapterContext σ) (reserve : Reserve) (provider : Address) : Adapter σ :=
  let details : ProductDetails := ⟨c.key .aaveV3 reserve.product, reserve.listing⟩
  let fetch := reserveTokens c provider reserve
  let pool := Pool.oneToOne c.chain c.provider
    ((c.tokenCache .aaveV3 reserve.product).getOrFetch fetch)
  let offered := fun (on : Reserve) operation kind r =>
    if reserve = on then pool.movements kind r else throw (details.notImplemented operation)
  { details := details
    settings := { includeInUnwrap := reserve = .aToken }
    protocolTokens := pool.protocolTokens
    fetchProtocolTokens := fetch
    positions := pool.positions
    withdrawals := offered .aToken "withdrawals" .burn
    deposits := offered .aToken "deposits" .mint
    borrows := offered .variableDebt "borrows" .mint
    repays := offered .variableDebt "repays" .burn
    totalValueLocked := pool.totalValueLocked
    unwrap := pool.unwrap
    apy := fun r => do
      let (token, rate) ← reserveRate pool provider reserve r
      return ⟨token, Annual.apyOfRay rate⟩
    apr := fun r => do
      let (token, rate) ← reserveRate pool provider reserve r
      return ⟨token, Annual.aprOfRay rate⟩ }

def factory (reserve : Reserve) : AdapterFactory σ := fun c =>
  (dataProvider c.chain).map (adapter c reserve)

end Chainfolio.AaveV3
