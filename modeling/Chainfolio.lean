import Chainfolio.AaveV3
import Chainfolio.Abi.Basic
import Chainfolio.Abi.Decode
import Chainfolio.Abi.Encode
import Chainfolio.Abi.Json
import Chainfolio.Adapter.Basic
import Chainfolio.Adapter.Cached
import Chainfolio.Adapter.Events
import Chainfolio.Adapter.Pool
import Chainfolio.Adapter.Rewards
import Chainfolio.Adapter.Scripted
import Chainfolio.Catalogue
import Chainfolio.Chain
import Chainfolio.Chain.Text
import Chainfolio.Codec.Market
import Chainfolio.Codec.Position
import Chainfolio.Codec.Product
import Chainfolio.Codec.Request
import Chainfolio.Codec.Token
import Chainfolio.Codec.Valuation
import Chainfolio.Codec.Word
import Chainfolio.Codec.Yield
import Chainfolio.CompoundV2
import Chainfolio.Config
import Chainfolio.Decimal.Arithmetic
import Chainfolio.Decimal.Basic
import Chainfolio.Decimal.Power
import Chainfolio.Decimal.Reader
import Chainfolio.Decimal.Root
import Chainfolio.Erc4626
import Chainfolio.Fault
import Chainfolio.FixedPoint
import Chainfolio.Float.Parts
import Chainfolio.Float.Scientific
import Chainfolio.Float.Shortest
import Chainfolio.Float.Word
import Chainfolio.Json.Basic
import Chainfolio.Json.Embedded
import Chainfolio.Json.Held
import Chainfolio.Json.Number
import Chainfolio.Json.Overrun
import Chainfolio.Json.Printer
import Chainfolio.Json.Reader
import Chainfolio.Json.Record
import Chainfolio.Json.Settled
import Chainfolio.Json.Token
import Chainfolio.Keccak
import Chainfolio.Lido
import Chainfolio.Market.Accrual
import Chainfolio.Market.State
import Chainfolio.MetaMorpho
import Chainfolio.MorphoBlue.Adapter
import Chainfolio.MorphoBlue.Contract
import Chainfolio.MorphoBlue.Market
import Chainfolio.MorphoBlue.Yield
import Chainfolio.Node.Basic
import Chainfolio.Node.Event
import Chainfolio.Node.Metadata
import Chainfolio.Node.Method
import Chainfolio.Node.Recorded
import Chainfolio.Position
import Chainfolio.Prices
import Chainfolio.Product
import Chainfolio.Proofs.Adapter.Agreement
import Chainfolio.Proofs.Adapter.Listings
import Chainfolio.Proofs.Adapter.Restriction
import Chainfolio.Proofs.Adapter.Rewards
import Chainfolio.Proofs.Chain
import Chainfolio.Proofs.Codec.Embedded
import Chainfolio.Proofs.Codec.Listing
import Chainfolio.Proofs.Codec.Market
import Chainfolio.Proofs.Codec.Reader
import Chainfolio.Proofs.Codec.Record
import Chainfolio.Proofs.Codec.RoundTrip
import Chainfolio.Proofs.Codec.Scalars
import Chainfolio.Proofs.Codec.Text
import Chainfolio.Proofs.CompoundV2
import Chainfolio.Proofs.Config
import Chainfolio.Proofs.Decimal.Division
import Chainfolio.Proofs.Decimal.Exact
import Chainfolio.Proofs.Decimal.Power
import Chainfolio.Proofs.Decimal.Rounding
import Chainfolio.Proofs.Decimal.Sums
import Chainfolio.Proofs.Decimal.Wide
import Chainfolio.Proofs.Environment
import Chainfolio.Proofs.FixedPoint
import Chainfolio.Proofs.Market.Accrual
import Chainfolio.Proofs.Market.Books
import Chainfolio.Proofs.Market.Conversions
import Chainfolio.Proofs.Market.Dilution
import Chainfolio.Proofs.Market.Growth
import Chainfolio.Proofs.Market.Shares
import Chainfolio.Proofs.MetaMorpho
import Chainfolio.Proofs.Movements.Announced
import Chainfolio.Proofs.Movements.Events
import Chainfolio.Proofs.Movements.Shared
import Chainfolio.Proofs.Movements.Transfers
import Chainfolio.Proofs.Node.Agreement
import Chainfolio.Proofs.Node.Answers
import Chainfolio.Proofs.Node.Metadata
import Chainfolio.Proofs.Rates.Scale
import Chainfolio.Proofs.Rates.Unwrap
import Chainfolio.Proofs.Registry.Adapters
import Chainfolio.Proofs.Registry.Answer
import Chainfolio.Proofs.Registry.History
import Chainfolio.Proofs.Registry.Index
import Chainfolio.Proofs.Registry.Library
import Chainfolio.Proofs.Registry.Map
import Chainfolio.Proofs.Registry.Prebuilt
import Chainfolio.Proofs.Resolution.Agreement
import Chainfolio.Proofs.Resolution.Derivation
import Chainfolio.Proofs.Resolution.Expansion
import Chainfolio.Proofs.Resolution.Extension
import Chainfolio.Proofs.Resolution.Pricing
import Chainfolio.Proofs.Resolution.Rates
import Chainfolio.Proofs.Resolution.Record
import Chainfolio.Proofs.Resolution.Stages
import Chainfolio.Proofs.Run
import Chainfolio.Proofs.Store.Files
import Chainfolio.Proofs.Store.Listings
import Chainfolio.Proofs.Store.Paths
import Chainfolio.Proofs.Store.TokenCache
import Chainfolio.Proofs.Store.Tree
import Chainfolio.Proofs.Ticks.Accuracy
import Chainfolio.Proofs.Ticks.Amounts
import Chainfolio.Proofs.Ticks.Computed
import Chainfolio.Proofs.Ticks.Order
import Chainfolio.Proofs.Ticks.Price
import Chainfolio.Proofs.Ticks.Regions
import Chainfolio.Proofs.Underlying
import Chainfolio.Proofs.Valuation.Aggregation
import Chainfolio.Proofs.Valuation.Balances
import Chainfolio.Proofs.Valuation.Keys
import Chainfolio.Proofs.Valuation.Missing
import Chainfolio.Proofs.Valuation.Ranges
import Chainfolio.Proofs.Valuation.Unpriced
import Chainfolio.Proofs.Wei
import Chainfolio.Protocol
import Chainfolio.Radix
import Chainfolio.Rates.Annual
import Chainfolio.Rates.Unwrap
import Chainfolio.Registry.Basic
import Chainfolio.Registry.Index
import Chainfolio.Registry.Order
import Chainfolio.Request
import Chainfolio.Resolution.Basic
import Chainfolio.Resolution.Registry
import Chainfolio.Rounding
import Chainfolio.Run
import Chainfolio.Session.Basic
import Chainfolio.Session.World
import Chainfolio.Store.Basic
import Chainfolio.Store.FileTree
import Chainfolio.Store.Files
import Chainfolio.Store.Place
import Chainfolio.Store.Timestamp
import Chainfolio.Store.TokenCache
import Chainfolio.Text.Amount
import Chainfolio.Text.Checksum
import Chainfolio.Text.Hex
import Chainfolio.Text.Integer
import Chainfolio.Text.Split
import Chainfolio.Text.Utf8
import Chainfolio.Token
import Chainfolio.Unicode.Composition
import Chainfolio.Unicode.Domain
import Chainfolio.UniswapV3.Adapter
import Chainfolio.UniswapV3.Position
import Chainfolio.UniswapV3.Ticks
import Chainfolio.Url.Basic
import Chainfolio.Url.DomainName
import Chainfolio.Url.Host
import Chainfolio.Valuation.Balance
import Chainfolio.Valuation.Profit
import Chainfolio.Wei
import Chainfolio.Word
