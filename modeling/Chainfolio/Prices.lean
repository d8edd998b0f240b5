import Chainfolio.Adapter.Basic
import Chainfolio.Rates.Unwrap
import Chainfolio.Text.Checksum

/-! Prices in US dollars from aggregators. A priced token is listed as a protocol token that stands
for dollars, so that unwrapping it gives its price, with 18 decimals whatever the aggregator has. -/
namespace Chainfolio.Prices

def decimals : UInt8 := 18

def usd : Token := ⟨⟨0x0000000000000000000000000000000000000348⟩, "USD", "USD", decimals⟩

/-- A token and the contract that gives its price. -/
structure Feed where
  token : Token
  aggregator : Address
  deriving DecidableEq

/-- The feeds of a chain, and the aggregator of its native token. -/
structure FeedTable where
  feeds : List Feed
  native : Address
  deriving DecidableEq

namespace FeedTable

def ethereum : FeedTable where
  feeds :=
    [⟨⟨⟨0xC02aaA39b223FE8D0A0e5C4F27eAD9083C756Cc2⟩, "Wrapped Ether", "WETH", 18⟩,
        ⟨0x5f4eC3Df9cbd43714FE2740f5E3616155c5b8419⟩⟩,
      ⟨⟨⟨0xA0b86991c6218b36c1d19D4a2e9Eb0cE3606eB48⟩, "USD Coin", "USDC", 6⟩,
        ⟨0x8fFfFfd4AfB6115b954Bd326cbe7B4BA576818f6⟩⟩,
      ⟨⟨⟨0xdAC17F958D2ee523a2206206994597C13D831ec7⟩, "Tether USD", "USDT", 6⟩,
        ⟨0x3E7d1eAB13ad0104d2750B8863b489D65364e32D⟩⟩,
      ⟨⟨⟨0x6B175474E89094C44Da98b954EedeAC495271d0F⟩, "Dai Stablecoin", "DAI", 18⟩,
        ⟨0xAed0c38402a5d19df6E4c03F4E2DceD6e29c1ee9⟩⟩,
      ⟨⟨⟨0x2260FAC5E5542a773Aa44fBCfeDf7C193bc2C599⟩, "Wrapped BTC", "WBTC", 8⟩,
        ⟨0xF4030086522a5bEEa4988F8cA5B36dbC97BeE88c⟩⟩,
      ⟨⟨⟨0xae7ab96520DE3A18E5e111B5EaAb095312D7fE84⟩, "Liquid staked Ether 2.0", "stETH", 18⟩,
        ⟨0xCfE54B5cD566aB89272946F602D76Ea879CAb4a8⟩⟩]
  native := ⟨0x5f4eC3Df9cbd43714FE2740f5E3616155c5b8419⟩

def base : FeedTable where
  feeds :=
    [⟨⟨⟨0x4200000000000000000000000000000000000006⟩, "Wrapped Ether", "WETH", 18⟩,
        ⟨0x71041dddad3595F9CEd3DcCFBe3D1F4b0a16Bb70⟩⟩,
      ⟨⟨⟨0x833589fCD6eDb6E08f4c7C32D4f71b54bdA02913⟩, "USD Coin", "USDC", 6⟩,
        ⟨0x7e860098F58bBFC8648a4311b374B1D669a2bc6B⟩⟩]
  native := ⟨0x71041dddad3595F9CEd3DcCFBe3D1F4b0a16Bb70⟩

def arbitrum : FeedTable where
  feeds :=
    [⟨⟨⟨0x82aF49447D8a07e3bd95BD0d56f35241523fBab1⟩, "Wrapped Ether", "WETH", 18⟩,
        ⟨0x639Fe6ab55C921f74e7fac1ee960C0B6293ba612⟩⟩,
      ⟨⟨⟨0xaf88d065e77c8cC2239327C5EDb3A432268e5831⟩, "USD Coin", "USDC", 6⟩,
        ⟨0x50834F3163758fcC1Df9973b6e91f0F0F0434aD3⟩⟩]
  native := ⟨0x639Fe6ab55C921f74e7fac1ee960C0B6293ba612⟩

def ofChain? : Chain → Option FeedTable
  | .ethereum => some ethereum
  | .base => some base
  | .arbitrum => some arbitrum
  | _ => none

/-- All feeds of a chain, that of the native token last. -/
def all (t : FeedTable) (chain : Chain) : List Feed :=
  t.feeds ++ [⟨Token.native chain, t.native⟩]

end FeedTable

def product : String := "usd"

def listing : Listing where
  name := "Prices"
  description := "USD prices of underlying tokens from Chainlink feeds"
  siteUrl := "https://data.chain.link"
  iconUrl := "https://chain.link/images/chainlink-logo.svg"
  positionType := .fiatPrices
  assetType := .nonStandardToken

/-- An answer of an aggregator, rescaled to the decimals of prices. -/
def scaleAnswer (answer : Word) (feedDecimals : UInt8) : Except Fault Word :=
  if answer.toInt < 0 then .error (.math (.negativePrice answer))
  else if feedDecimals ≤ decimals then
    match Word.mul? answer (Word.pow10 (decimals - feedDecimals)) with
    | some price => .ok price
    | none => .error (.math (.price answer))
  else .ok (answer / Word.pow10 (feedDecimals - decimals))

/-- The protocol token of a feed. -/
def Feed.protocolToken (f : Feed) : ProtocolToken where
  token := f.token
  underlyings := [usd]
  extra := Extra.empty.insertText "aggregator" f.aggregator.checksum

variable {σ : Type}

def price (p : Provider σ) (f : Feed) (block : Option Block) : Run σ Word := do
  let feedDecimals ← p.word ⟨f.aggregator, .decimals, [], block, none⟩
  let round ← p.words ⟨f.aggregator, .latestRoundData, [], block, none⟩
  let answer ← Run.ofOption .contract round[1]?
  Run.ofExcept (scaleAnswer answer (UInt8.ofNat feedDecimals.toNat))

def feed (chain : Chain) (feeds : List Feed) (address : Address) : Except Fault Feed :=
  match feeds.find? fun f => f.token.address = address with
  | some f => .ok f
  | none => .error (.protocolTokenNotFound chain address)

def adapter (c : AdapterContext σ) (feeds : List Feed) : Adapter σ :=
  let details : ProductDetails := ⟨c.key .prices product, listing⟩
  { details := details
    settings := { detectByTransfer := false, includeInUnwrap := false }
    protocolTokens := pure (feeds.map Feed.protocolToken)
    positions := fun _ => throw (details.notImplemented "positions")
    withdrawals := fun _ => throw (details.notImplemented "withdrawals")
    deposits := fun _ => throw (details.notImplemented "deposits")
    totalValueLocked := fun _ => throw (details.notImplemented "total_value_locked")
    unwrap := fun r => do
      let f ← Run.ofExcept (feed c.chain feeds r.token)
      let price ← price c.provider f r.block
      return { token := f.token, tokens := [{ token := usd, kind := .fiat, rate := price }] } }

def factory : AdapterFactory σ := fun c =>
  (FeedTable.ofChain? c.chain).map fun t => adapter c (t.all c.chain)

end Chainfolio.Prices
