import Chainfolio.Chain
import Chainfolio.Protocol

/-! Products: what identifies one, how it is listed and how it wants to be treated. -/
namespace Chainfolio

structure ProductKey where
  chain : Chain
  protocol : Protocol
  product : String
  deriving DecidableEq

def ProductKey.label (k : ProductKey) : String := k.protocol.name ++ "/" ++ k.product

def ProductKey.text (k : ProductKey) : String := k.label ++ "/" ++ k.chain.name

/-- The exposure that a product gives. -/
inductive PositionType where
  | supply
  | lend
  | borrow
  | staked
  | reward
  | fiatPrices
  deriving DecidableEq

/-- Whether transfers alone tell who holds the protocol token. -/
inductive AssetType where
  | standardToken
  | nonStandardToken
  deriving DecidableEq

/-- What a product is listed with, whatever the chain. -/
structure Listing where
  name : String
  description : String
  siteUrl : String
  iconUrl : String
  positionType : PositionType
  assetType : AssetType
  deriving DecidableEq

structure ProductDetails where
  key : ProductKey
  listing : Listing
  deriving DecidableEq

/-- How a product wants to be treated. -/
structure AdapterSettings where
  detectByTransfer : Bool := true
  includeInUnwrap : Bool := true
  version : Option UInt32 := none
  deriving DecidableEq

end Chainfolio
