import Chainfolio.Codec.Token
import Chainfolio.Position

/-! JSON forms of positions, movements and rates. Absent ids and empty lists of tokens are left out
when written. -/
namespace Chainfolio

namespace Underlying

mutual

def toJson : Underlying → Json
  | ⟨token, balance, kind, tokens⟩ =>
    .obj (token.fields ++ [("balanceRaw", balance.toJson), ("type", kind.toJson)] ++
      match tokens with
      | [] => []
      | u :: rest => [("tokens", .arr (toJson u :: listToJson rest))])

def listToJson : List Underlying → List Json
  | [] => []
  | u :: rest => toJson u :: listToJson rest

end

def fieldNames : List String := ["balanceRaw", "type", "tokens"]

mutual

def ofJson? : Json → Option Underlying
  | .obj fields => do
    let r ← JsonRecord.shared? Token.fieldNames fieldNames (.obj fields)
    return {
      token := ← Token.ofRecord? r
      balance := ← r.required "balanceRaw" Word.ofJson?
      kind := ← r.required "type" TokenKind.ofJson?
      tokens := ← childrenOf? fields }
  | _ => none

/-- The children among the fields of an object. -/
def childrenOf? : List (String × Json) → Option (List Underlying)
  | [] => some []
  | (name, .arr items) :: rest => if name = "tokens" then listOf? items else childrenOf? rest
  | (name, _) :: rest => if name = "tokens" then none else childrenOf? rest

def listOf? : List Json → Option (List Underlying)
  | [] => some []
  | j :: rest => do return (← ofJson? j) :: (← listOf? rest)

end

def listOfJson? : Json → Option (List Underlying)
  | .arr items => listOf? items
  | _ => none

end Underlying

namespace Position

def toJson (p : Position) : Json :=
  .obj (p.token.fields ++ [("balanceRaw", p.balance.toJson), ("type", p.kind.toJson)] ++
    Json.optionalField "tokenId" .str p.tokenId ++ Json.listField "tokens" Underlying.toJson p.tokens)

def ofJson? (j : Json) : Option Position := do
  let r ← JsonRecord.shared? Token.fieldNames ["balanceRaw", "type", "tokenId", "tokens"] j
  return {
    token := ← Token.ofRecord? r
    balance := ← r.required "balanceRaw" Word.ofJson?
    kind := ← r.required "type" TokenKind.ofJson?
    tokenId := ← r.optional "tokenId" Json.text?
    tokens := ← r.defaulted "tokens" Underlying.listOfJson? [] }

end Position

namespace MovementToken

def toJson (t : MovementToken) : Json :=
  .obj (t.token.fields ++ Json.optionalField "tokenId" .str t.tokenId)

def ofJson? (j : Json) : Option MovementToken := do
  let r ← JsonRecord.shared? Token.fieldNames ["tokenId"] j
  return { token := ← Token.ofRecord? r, tokenId := ← r.optional "tokenId" Json.text? }

end MovementToken

namespace Movement

def toJson (m : Movement) : Json :=
  .obj [("protocolToken", m.protocolToken.toJson), ("tokens", .arr (m.tokens.map Underlying.toJson)),
    ("blockNumber", Json.nat m.block.toNat), ("transactionHash", m.transaction.toJson)]

def ofJson? (j : Json) : Option Movement := do
  let r ← JsonRecord.read? ["protocolToken", "tokens", "blockNumber", "transactionHash"] j
  return {
    protocolToken := ← r.required "protocolToken" MovementToken.ofJson?
    tokens := ← r.required "tokens" Underlying.listOfJson?
    block := ← r.required "blockNumber" Json.uint64?
    transaction := ← r.required "transactionHash" Hash.ofJson? }

end Movement

namespace UnderlyingRate

def toJson (u : UnderlyingRate) : Json :=
  .obj (u.token.fields ++ [("type", u.kind.toJson), ("underlyingRateRaw", u.rate.toJson)])

def ofJson? (j : Json) : Option UnderlyingRate := do
  let r ← JsonRecord.shared? Token.fieldNames ["type", "underlyingRateRaw"] j
  return {
    token := ← Token.ofRecord? r
    kind := ← r.required "type" TokenKind.ofJson?
    rate := ← r.required "underlyingRateRaw" Word.ofJson? }

end UnderlyingRate

namespace UnwrapRate

def toJson (u : UnwrapRate) : Json :=
  .obj (u.token.fields ++ [("baseRate", Json.nat u.baseRate.toNat), ("type", u.kind.toJson)] ++
    Json.listField "tokens" UnderlyingRate.toJson u.tokens)

def ofJson? (j : Json) : Option UnwrapRate := do
  let r ← JsonRecord.shared? Token.fieldNames ["baseRate", "type", "tokens"] j
  return {
    token := ← Token.ofRecord? r
    baseRate := ← r.required "baseRate" Json.byte?
    kind := ← r.required "type" TokenKind.ofJson?
    tokens := ← r.defaulted "tokens" (Json.list? UnderlyingRate.ofJson?) [] }

end UnwrapRate

namespace UnderlyingSupply

def toJson (u : UnderlyingSupply) : Json :=
  .obj (u.token.fields ++ [("type", u.kind.toJson), ("totalSupplyRaw", u.totalSupply.toJson)])

def ofJson? (j : Json) : Option UnderlyingSupply := do
  let r ← JsonRecord.shared? Token.fieldNames ["type", "totalSupplyRaw"] j
  return {
    token := ← Token.ofRecord? r
    kind := ← r.required "type" TokenKind.ofJson?
    totalSupply := ← r.required "totalSupplyRaw" Word.ofJson? }

end UnderlyingSupply

namespace TokenSupply

def toJson (t : TokenSupply) : Json :=
  .obj (t.token.fields ++ [("type", t.kind.toJson), ("totalSupplyRaw", t.totalSupply.toJson)] ++
    Json.listField "tokens" UnderlyingSupply.toJson t.tokens)

def ofJson? (j : Json) : Option TokenSupply := do
  let r ← JsonRecord.shared? Token.fieldNames ["type", "totalSupplyRaw", "tokens"] j
  return {
    token := ← Token.ofRecord? r
    kind := ← r.required "type" TokenKind.ofJson?
    totalSupply := ← r.required "totalSupplyRaw" Word.ofJson?
    tokens := ← r.defaulted "tokens" (Json.list? UnderlyingSupply.ofJson?) [] }

end TokenSupply

end Chainfolio
