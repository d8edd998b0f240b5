import Chainfolio.Chain
import Chainfolio.Json.Settled
import Chainfolio.Word

/-! Tokens and the protocol tokens that wrap them. -/
namespace Chainfolio

/-- A token as its contract describes itself. -/
structure Token where
  address : Address
  name : String
  symbol : String
  decimals : UInt8
  deriving DecidableEq

/-- The part a token plays in a position. -/
inductive TokenKind where
  | protocol
  | reward
  | underlying
  | underlyingClaimable
  | fiat
  deriving DecidableEq

/-- Data of a protocol beside a token: settled JSON values by name. -/
structure Extra where
  entries : List (String × Json)
  orderly : Json.Orderly entries

namespace Extra

def empty : Extra := ⟨[], .nil⟩

instance : Inhabited Extra := ⟨empty⟩

/-- Adds a text, replacing what stood under its name. -/
def insertText (name text : String) (e : Extra) : Extra :=
  ⟨Json.insertField name (.str text) e.entries, e.orderly.insertField rfl⟩

/-- The text under a name; nothing when another kind of value stands there. -/
def text? (e : Extra) (name : String) : Option String :=
  (Json.field? name e.entries).bind Json.text?

end Extra

/-- A token minted by a protocol, with the tokens that it stands for. -/
structure ProtocolToken where
  token : Token
  underlyings : List Token
  extra : Extra := .empty

def Token.native (chain : Chain) : Token :=
  ⟨.zero, chain.nativeName, chain.nativeSymbol, 18⟩

def ProtocolToken.find? (tokens : List ProtocolToken) (address : Address) : Option ProtocolToken :=
  tokens.find? fun t => t.token.address = address

end Chainfolio
