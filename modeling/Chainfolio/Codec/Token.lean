import Chainfolio.Codec.Word
import Chainfolio.Json.Embedded
import Chainfolio.Json.Settled
import Chainfolio.Token

/-! JSON forms of tokens. A token's fields are spread into the object of whatever holds it. -/
namespace Chainfolio

namespace TokenKind

def all : List TokenKind := [protocol, reward, underlying, underlyingClaimable, fiat]

def name : TokenKind → String
  | protocol => "protocol"
  | reward => "claimable"
  | underlying => "underlying"
  | underlyingClaimable => "underlying-claimable"
  | fiat => "fiat"

def toJson (k : TokenKind) : Json := .str k.name

def ofJson? (j : Json) : Option TokenKind :=
  j.variant?.bind fun s => all.find? fun k => k.name = s

end TokenKind

namespace Token

def fieldNames : List String := ["address", "name", "symbol", "decimals"]

/-- The fields that a token contributes to an object. -/
def fields (t : Token) : List (String × Json) :=
  [("address", t.address.toJson), ("name", .str t.name), ("symbol", .str t.symbol),
    ("decimals", Json.nat t.decimals.toNat)]

/-- The token among the fields of a record. -/
def ofRecord? (r : JsonRecord) : Option Token := do
  return {
    address := ← r.required "address" Address.ofJson?
    name := ← r.required "name" Json.text?
    symbol := ← r.required "symbol" Json.text?
    decimals := ← r.required "decimals" Json.byte? }

def toJson (t : Token) : Json := .obj t.fields

def ofJson? (j : Json) : Option Token := (JsonRecord.read? fieldNames j).bind ofRecord?

end Token

namespace Extra

/-- Fields with the values that are embedded in theirs. -/
def expandEach? : List (String × Json) → Option (List (String × Json))
  | [] => some []
  | (name, v) :: rest => do return (name, ← v.expand?) :: (← expandEach? rest)

/-- Reads an object; its values are expanded and settled. -/
def ofJson? : Json → Option Extra
  | .obj fields =>
    match h : (expandEach? fields).bind fun fields => Json.settleFields? fields [] with
    | some entries => some ⟨entries, by
        obtain ⟨expanded, _, hs⟩ := Option.bind_eq_some_iff.1 h
        exact Json.settleFields?_orderly hs .nil⟩
    | none => none
  | _ => none

/-- The field of an object, left out when empty. -/
def field (e : Extra) : List (String × Json) :=
  match e.entries with
  | [] => []
  | entries => [("extra", .obj entries)]

end Extra

namespace ProtocolToken

def toJson (t : ProtocolToken) : Json :=
  .obj (t.token.fields ++ [("underlyingTokens", .arr (t.underlyings.map Token.toJson))] ++
    t.extra.field)

def ofJson? (j : Json) : Option ProtocolToken := do
  let r ← JsonRecord.shared? Token.fieldNames ["underlyingTokens", "extra"] j
  return {
    token := ← Token.ofRecord? r
    underlyings := ← r.required "underlyingTokens" (Json.list? Token.ofJson?)
    extra := ← r.defaulted "extra" Extra.ofJson? .empty }

end ProtocolToken

end Chainfolio
