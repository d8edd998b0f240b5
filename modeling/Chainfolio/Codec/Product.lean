import Chainfolio.Json.Record
import Chainfolio.Product

/-! JSON forms of chains, protocols and product descriptions. -/
namespace Chainfolio

def Chain.toJson (c : Chain) : Json := .str c.name

def Chain.ofJson? (j : Json) : Option Chain := j.variant?.bind Chain.ofName?

def Protocol.toJson (p : Protocol) : Json := .str p.name

def Protocol.ofJson? (j : Json) : Option Protocol := j.variant?.bind Protocol.ofName?

namespace PositionType

def all : List PositionType := [supply, lend, borrow, staked, reward, fiatPrices]

def name : PositionType → String
  | supply => "supply"
  | lend => "lend"
  | borrow => "borrow"
  | staked => "stake"
  | reward => "reward"
  | fiatPrices => "fiat-prices"

def toJson (t : PositionType) : Json := .str t.name

def ofJson? (j : Json) : Option PositionType :=
  j.variant?.bind fun s => all.find? fun t => t.name = s

end PositionType

namespace AssetType

def name : AssetType → String
  | standardToken => "StandardToken"
  | nonStandardToken => "NonStandardToken"

def toJson (t : AssetType) : Json := .obj [("type", .str t.name)]

def ofJson? (j : Json) : Option AssetType := do
  let r ← JsonRecord.read? ["type"] j
  r.required "type" fun j => j.variant?.bind fun s =>
    [standardToken, nonStandardToken].find? fun t => t.name = s

end AssetType

namespace ProductDetails

def toJson (d : ProductDetails) : Json :=
  .obj [("protocolId", d.key.protocol.toJson), ("name", .str d.listing.name),
    ("description", .str d.listing.description), ("siteUrl", .str d.listing.siteUrl),
    ("iconUrl", .str d.listing.iconUrl), ("positionType", d.listing.positionType.toJson),
    ("chainId", d.key.chain.toJson), ("productId", .str d.key.product),
    ("assetDetails", d.listing.assetType.toJson)]

def ofJson? (j : Json) : Option ProductDetails := do
  let r ← JsonRecord.read? ["protocolId", "name", "description", "siteUrl", "iconUrl",
    "positionType", "chainId", "productId", "assetDetails"] j
  let key : ProductKey :=
    { chain := ← r.required "chainId" Chain.ofJson?
      protocol := ← r.required "protocolId" Protocol.ofJson?
      product := ← r.required "productId" Json.text? }
  let listing : Listing :=
    { name := ← r.required "name" Json.text?
      description := ← r.required "description" Json.text?
      siteUrl := ← r.required "siteUrl" Json.text?
      iconUrl := ← r.required "iconUrl" Json.text?
      positionType := ← r.required "positionType" PositionType.ofJson?
      assetType := ← r.required "assetDetails" AssetType.ofJson? }
  return ⟨key, listing⟩

end ProductDetails

namespace AdapterSettings

def toJson (s : AdapterSettings) : Json :=
  .obj ([("enablePositionDetectionByProtocolTokenTransfer", .bool s.detectByTransfer),
    ("includeInUnwrap", .bool s.includeInUnwrap)] ++
    Json.optionalField "version" (fun v => Json.nat v.toNat) s.version)

def ofJson? (j : Json) : Option AdapterSettings := do
  let r ← JsonRecord.read?
    ["enablePositionDetectionByProtocolTokenTransfer", "includeInUnwrap", "version"] j
  return {
    detectByTransfer := ← r.required "enablePositionDetectionByProtocolTokenTransfer" Json.bool?
    includeInUnwrap := ← r.required "includeInUnwrap" Json.bool?
    version := ← r.optional "version" fun j => (j.natBelow? UInt32.size).map UInt32.ofNat }

end AdapterSettings

end Chainfolio
