import Chainfolio.FixedPoint
import Chainfolio.Position

/-! What an amount of a protocol token is worth at a rate. -/
namespace Chainfolio

/-- One unit of each underlying token for one whole protocol token. -/
def ProtocolToken.oneToOneRate (t : ProtocolToken) : UnwrapRate :=
  { token := t.token
    tokens := t.underlyings.map fun u => { token := u, rate := Word.pow10 u.decimals } }

/-- One underlying amount: the balance times the rate of a whole token, rounded down. -/
def UnderlyingRate.apply (u : UnderlyingRate) (balance scale : Word) : Except Fault Underlying :=
  (FixedPoint.mulDivDown balance u.rate scale).map fun amount => .leaf u.token amount u.kind

/-- The underlying amounts of a balance. -/
def UnwrapRate.underlyings (r : UnwrapRate) (balance : Word) : Except Fault (List Underlying) :=
  r.tokens.mapM fun u => u.apply balance (Word.pow10 r.token.decimals)

/-- Keeps the protocol tokens that a filter names, in the filter's order; all of them without one. -/
def ProtocolToken.filter (chain : Chain) (tokens : List ProtocolToken) :
    Option (List Address) → Except Fault (List ProtocolToken)
  | none => .ok tokens
  | some addresses => addresses.mapM fun a =>
    match ProtocolToken.find? tokens a with
    | some t => .ok t
    | none => .error (.protocolTokenNotFound chain a)

def ProtocolToken.get (chain : Chain) (tokens : List ProtocolToken) (address : Address) :
    Except Fault ProtocolToken :=
  match ProtocolToken.find? tokens address with
  | some t => .ok t
  | none => .error (.protocolTokenNotFound chain address)

end Chainfolio
