import Chainfolio.Codec.Word
import Chainfolio.Request

/-! JSON forms of requests. Absent parts are written as null. -/
namespace Chainfolio

def Block.optionToJson (b : Option Block) : Json := Json.ofOption (fun b => Json.nat b.toNat) b

def Address.optionListToJson (as : Option (List Address)) : Json :=
  Json.ofOption (fun as => .arr (as.map Address.toJson)) as

namespace PositionsRequest

def toJson (r : PositionsRequest) : Json :=
  .obj [("userAddress", r.user.toJson), ("blockNumber", Block.optionToJson r.block),
    ("protocolTokenAddresses", Address.optionListToJson r.tokens),
    ("tokenIds", Json.ofOption (fun ids => .arr (ids.map .str)) r.tokenIds)]

def ofJson? (j : Json) : Option PositionsRequest := do
  let r ← JsonRecord.read? ["userAddress", "blockNumber", "protocolTokenAddresses", "tokenIds"] j
  return {
    user := ← r.required "userAddress" Address.ofJson?
    block := ← r.optional "blockNumber" Json.uint64?
    tokens := ← r.optional "protocolTokenAddresses" (Json.list? Address.ofJson?)
    tokenIds := ← r.optional "tokenIds" (Json.list? Json.text?) }

end PositionsRequest

namespace EventsRequest

def toJson (r : EventsRequest) : Json :=
  .obj [("userAddress", r.user.toJson), ("protocolTokenAddress", r.token.toJson),
    ("fromBlock", Json.nat r.fromBlock.toNat), ("toBlock", Json.nat r.toBlock.toNat),
    ("tokenId", Json.ofOption .str r.tokenId)]

def ofJson? (j : Json) : Option EventsRequest := do
  let r ← JsonRecord.read?
    ["userAddress", "protocolTokenAddress", "fromBlock", "toBlock", "tokenId"] j
  return {
    user := ← r.required "userAddress" Address.ofJson?
    token := ← r.required "protocolTokenAddress" Address.ofJson?
    fromBlock := ← r.required "fromBlock" Json.uint64?
    toBlock := ← r.required "toBlock" Json.uint64?
    tokenId := ← r.optional "tokenId" Json.text? }

end EventsRequest

namespace SupplyRequest

def toJson (r : SupplyRequest) : Json :=
  .obj [("protocolTokenAddresses", Address.optionListToJson r.tokens),
    ("blockNumber", Block.optionToJson r.block)]

def ofJson? (j : Json) : Option SupplyRequest := do
  let r ← JsonRecord.read? ["protocolTokenAddresses", "blockNumber"] j
  return {
    tokens := ← r.optional "protocolTokenAddresses" (Json.list? Address.ofJson?)
    block := ← r.optional "blockNumber" Json.uint64? }

end SupplyRequest

namespace UnwrapRequest

def toJson (r : UnwrapRequest) : Json :=
  .obj [("protocolTokenAddress", r.token.toJson), ("blockNumber", Block.optionToJson r.block),
    ("tokenId", Json.ofOption .str r.tokenId)]

def ofJson? (j : Json) : Option UnwrapRequest := do
  let r ← JsonRecord.read? ["protocolTokenAddress", "blockNumber", "tokenId"] j
  return {
    token := ← r.required "protocolTokenAddress" Address.ofJson?
    block := ← r.optional "blockNumber" Json.uint64?
    tokenId := ← r.optional "tokenId" Json.text? }

end UnwrapRequest

namespace RateRequest

def toJson (r : RateRequest) : Json :=
  .obj [("protocolTokenAddress", r.token.toJson), ("blockNumber", Block.optionToJson r.block)]

def ofJson? (j : Json) : Option RateRequest := do
  let r ← JsonRecord.read? ["protocolTokenAddress", "blockNumber"] j
  return {
    token := ← r.required "protocolTokenAddress" Address.ofJson?
    block := ← r.optional "blockNumber" Json.uint64? }

end RateRequest

namespace RewardRequest

def toJson (r : RewardRequest) : Json :=
  .obj [("userAddress", r.user.toJson), ("protocolTokenAddress", r.token.toJson),
    ("blockNumber", Block.optionToJson r.block), ("tokenId", Json.ofOption .str r.tokenId)]

def ofJson? (j : Json) : Option RewardRequest := do
  let r ← JsonRecord.read? ["userAddress", "protocolTokenAddress", "blockNumber", "tokenId"] j
  return {
    user := ← r.required "userAddress" Address.ofJson?
    token := ← r.required "protocolTokenAddress" Address.ofJson?
    block := ← r.optional "blockNumber" Json.uint64?
    tokenId := ← r.optional "tokenId" Json.text? }

end RewardRequest

end Chainfolio
