import Chainfolio.Chain
import Chainfolio.Protocol
import Chainfolio.Decimal.Basic
import Chainfolio.Text.Amount
import Chainfolio.Text.Checksum
import Chainfolio.Text.Integer

/-! Why an operation fails. Each cause is a constructor; its wording is given once, in `message`. -/
namespace Chainfolio

/-- Why amounts of a price range cannot be given. -/
inductive TickFault where
  | liquidityOverflow
  | root
  | tickOutOfRange (tick : Int)
  | division
  | amount0Overflow
  | amount1Overflow
  | notAnAmount (amount : Decimal)

/-- Overflow and conversions out of range. -/
inductive MathFault where
  | divisionByZero
  | overflow (operation : String)
  | notADecimal (amount : Word)
  | fiatValue (token : Address)
  | sum (a b : Decimal)
  | difference (a b : Decimal)
  | negativePrice (answer : Word)
  | price (answer : Word)
  | tick (cause : TickFault)

/-- Why a text is no URL. -/
inductive UrlFault where
  | relative
  | emptyHost
  | invalidPort
  | invalidHost
  | invalidDomain
  | invalidIpv4
  | invalidIpv6
  deriving DecidableEq

/-- Settings and metadata that cannot be used. -/
inductive ConfigFault where
  | unknownChain (text : String)
  | unknownProtocol (text : String)
  | invalidUrl (setting value : String) (cause : UrlFault)
  | invalidNumber (setting : String) (cause : Text.IntegerFault)
  | invalidMetadata (symbol key : String)
  | refused (text : String)

/-- Requests that lack what an operation needs. -/
inductive InputFault where
  | tokenIdMissing
  | tokenIdMalformed (text : String)
  | refused (text : String)

/-- The cause of a failure. `capacity` is an announced number of items that no memory can hold. -/
inductive Fault where
  | duplicateAdapter (chain : Chain) (protocol : Protocol) (product : String)
  | duplicateProtocolToken (chain : Chain) (address : Address) (existing duplicate : String)
  | adapterNotFound (chain : Chain) (protocol : Protocol) (product : String)
  | protocolTokenNotFound (chain : Chain) (address : Address)
  | notImplemented (operation : String) (protocol : Protocol) (product : String)
  | missingFiatLeaf (address : Address)
  | unsupportedChain (id : Nat)
  | missingProvider (chain : Chain)
  | blockNotFound (block : Option Block)
  | rpc
  | contract
  | multicall
  | tokenMetadata (address : Address) (member : Nat)
  | abi
  | io
  | json
  | capacity
  | input (cause : InputFault)
  | config (cause : ConfigFault)
  | math (cause : MathFault)

namespace TickFault

def message : TickFault → String
  | liquidityOverflow => "liquidity overflow"
  | root => "sqrt"
  | tickOutOfRange tick => "tick " ++ toString tick ++ " out of range"
  | division => "division"
  | amount0Overflow => "amount0 overflow"
  | amount1Overflow => "amount1 overflow"
  | notAnAmount amount => "amount " ++ amount.text ++ " is not a token amount"

end TickFault

namespace MathFault

def message : MathFault → String
  | divisionByZero => "division by zero"
  | overflow operation => "overflow in " ++ operation
  | notADecimal amount => amount.text ++ " does not fit a decimal"
  | fiatValue token => "fiat value of " ++ token.checksum ++ " overflows"
  | sum a b => a.text ++ " + " ++ b.text ++ " overflows"
  | difference a b => a.text ++ " - " ++ b.text ++ " overflows"
  | negativePrice answer => "negative price " ++ toString answer.toInt
  | price answer => "price " ++ answer.text ++ " overflows"
  | tick cause => "tick math: " ++ cause.message

end MathFault

namespace UrlFault

def message : UrlFault → String
  | relative => "relative URL without a base"
  | emptyHost => "empty host"
  | invalidPort => "invalid port number"
  | invalidHost => "invalid international domain name"
  | invalidDomain => "invalid domain character"
  | invalidIpv4 => "invalid IPv4 address"
  | invalidIpv6 => "invalid IPv6 address"

end UrlFault

namespace ConfigFault

def message : ConfigFault → String
  | unknownChain text => "unknown chain: " ++ text
  | unknownProtocol text => "unknown protocol: " ++ text
  | invalidUrl setting value cause =>
    setting ++ ": invalid url " ++ value ++ ": " ++ cause.message
  | invalidNumber setting cause => setting ++ ": " ++ cause.message
  | invalidMetadata symbol key => symbol ++ " metadata has no valid " ++ key
  | refused text => text

end ConfigFault

namespace InputFault

def message : InputFault → String
  | tokenIdMissing => "uniswap v3 positions need a token id"
  | tokenIdMalformed text => "token id " ++ text ++ " is not a number"
  | refused text => text

end InputFault

namespace Fault

def message : Fault → String
  | duplicateAdapter chain protocol product =>
    "duplicate adapter " ++ protocol.name ++ "/" ++ product ++ " on " ++ chain.name
  | duplicateProtocolToken chain address existing duplicate =>
    "protocol token " ++ address.checksum ++ " on " ++ chain.name ++ " claimed by " ++ existing ++
      " and " ++ duplicate
  | adapterNotFound chain protocol product =>
    "no adapter for " ++ protocol.name ++ "/" ++ product ++ " on " ++ chain.name
  | protocolTokenNotFound chain address =>
    "protocol token " ++ address.checksum ++ " not found on " ++ chain.name
  | notImplemented operation protocol product =>
    operation ++ " is not implemented by " ++ protocol.name ++ "/" ++ product
  | missingFiatLeaf address => "token " ++ address.checksum ++ " has no fiat price leaf"
  | unsupportedChain id => "chain id " ++ toString id ++ " is not supported"
  | missingProvider chain => "no provider configured for " ++ chain.name
  | blockNotFound none => "block latest not found"
  | blockNotFound (some block) => "block " ++ toString block.toNat ++ " not found"
  | rpc => "rpc"
  | contract => "contract call"
  | multicall => "multicall"
  | tokenMetadata address member =>
    "token " ++ address.checksum ++ " metadata call " ++ toString member
  | abi => "abi decoding"
  | io => "cache io"
  | json => "json"
  | capacity => "too many items"
  | input cause => "invalid input: " ++ cause.message
  | config cause => "config: " ++ cause.message
  | math cause => "math: " ++ cause.message

end Fault

end Chainfolio
