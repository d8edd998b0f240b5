import Chainfolio.Token

/-! Positions, movements and rates, expressed in trees of underlying tokens. -/
namespace Chainfolio

/-- An amount of a token and what it unwraps into. -/
structure Underlying where
  token : Token
  balance : Word
  kind : TokenKind
  tokens : List Underlying

/-- An amount that is not unwrapped yet. -/
def Underlying.leaf (token : Token) (balance : Word) (kind : TokenKind) : Underlying :=
  ⟨token, balance, kind, []⟩

/-- The first price directly below an amount. -/
def Underlying.fiatLeaf? (u : Underlying) : Option Underlying :=
  u.tokens.find? fun t => t.kind = .fiat

/-- What a user holds of a protocol token; positions kept as NFTs carry their id. -/
structure Position where
  token : Token
  balance : Word
  kind : TokenKind := .protocol
  tokenId : Option String := none
  tokens : List Underlying

/-- The protocol token that a movement is about. -/
structure MovementToken where
  token : Token
  tokenId : Option String := none
  deriving DecidableEq

/-- What a transaction moved into or out of a position. -/
structure Movement where
  protocolToken : MovementToken
  tokens : List Underlying
  block : Block
  transaction : Hash

/-- How much of an underlying token one whole protocol token is worth. -/
structure UnderlyingRate where
  token : Token
  kind : TokenKind := .underlying
  rate : Word
  deriving DecidableEq

structure UnwrapRate where
  token : Token
  baseRate : UInt8 := 1
  kind : TokenKind := .protocol
  tokens : List UnderlyingRate
  deriving DecidableEq

/-- The part of a total that one underlying token makes up. -/
structure UnderlyingSupply where
  token : Token
  kind : TokenKind := .underlying
  totalSupply : Word
  deriving DecidableEq

/-- The value locked behind a protocol token. -/
structure TokenSupply where
  token : Token
  kind : TokenKind := .protocol
  totalSupply : Word
  tokens : List UnderlyingSupply
  deriving DecidableEq

/-- The yearly yield of a protocol token with compounding. -/
structure TokenApy where
  token : Token
  apy : Float

/-- The yearly yield of a protocol token without compounding. -/
structure TokenApr where
  token : Token
  apr : Float

end Chainfolio
