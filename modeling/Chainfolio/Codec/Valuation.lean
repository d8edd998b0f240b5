import Chainfolio.Codec.Token
import Chainfolio.Decimal.Reader
import Chainfolio.Valuation.Profit

/-! JSON forms of balances and profits. Decimals are texts with every place of their scale. -/
namespace Chainfolio

def Decimal.toJson (d : Decimal) : Json := .str d.text

def Decimal.ofJson? (j : Json) : Option Decimal := j.text?.bind Decimal.ofText?

namespace PositionKey

def toJson (k : PositionKey) : Json :=
  .obj (("address", k.address.toJson) :: Json.optionalField "tokenId" .str k.tokenId)

def ofJson? (j : Json) : Option PositionKey := do
  let r ← JsonRecord.read? ["address", "tokenId"] j
  return ⟨← r.required "address" Address.ofJson?, ← r.optional "tokenId" Json.text?⟩

end PositionKey

namespace FiatBalance

def toJson (b : FiatBalance) : Json :=
  .obj (b.token.fields ++ Json.optionalField "tokenId" .str b.tokenId ++
    [("fiatValue", b.value.toJson)])

def ofJson? (j : Json) : Option FiatBalance := do
  let r ← JsonRecord.shared? Token.fieldNames ["tokenId", "fiatValue"] j
  return {
    token := ← Token.ofRecord? r
    tokenId := ← r.optional "tokenId" Json.text?
    value := ← r.required "fiatValue" Decimal.ofJson? }

end FiatBalance

def Balances.toJson (b : Balances) : Json :=
  .arr (b.map fun (k, held) => .obj [("key", k.toJson), ("balance", held.toJson)])

namespace Profit

def toJson (p : Profit) : Json :=
  .obj (p.token.fields ++ Json.optionalField "tokenId" .str p.tokenId ++
    [("startValue", p.startValue.toJson), ("endValue", p.endValue.toJson),
      ("profit", p.profit.toJson)])

def ofJson? (j : Json) : Option Profit := do
  let r ← JsonRecord.shared?
    Token.fieldNames ["tokenId", "startValue", "endValue", "profit"] j
  return {
    token := ← Token.ofRecord? r
    tokenId := ← r.optional "tokenId" Json.text?
    startValue := ← r.required "startValue" Decimal.ofJson?
    endValue := ← r.required "endValue" Decimal.ofJson?
    profit := ← r.required "profit" Decimal.ofJson? }

end Profit

end Chainfolio
