import Chainfolio.Prices
import Chainfolio.Registry.Index
import Chainfolio.Resolution.Basic

/-! Resolution by the adapters of a registry: the adapter that lists a token unwraps it, and the
adapter of prices gives its price. A token without a price feed has no price; any other failure of
the price adapter is a failure. -/
namespace Chainfolio.Registry

variable {σ : Type}

/-- The first rate of a price adapter's answer as a price. -/
def priceOf (rate : UnwrapRate) : Option Underlying :=
  rate.tokens.head?.map fun u => .leaf u.token u.rate .fiat

/-- The price in an answer; none if there is no feed. -/
def priceOrNone : Except Fault UnwrapRate → Except Fault (Option Underlying)
  | .ok rate => .ok (priceOf rate)
  | .error (.protocolTokenNotFound ..) => .ok none
  | .error fault => .error fault

def price (chain : Chain) (block : Option Block) (token : Token) :
    Run (Registry σ × σ) (Option Underlying) := do
  match (← Run.read Prod.fst).find? ⟨chain, .prices, Prices.product⟩ with
  | none => return none
  | some a =>
    let answer ← Run.outcome (Run.onSecond (a.unwrap { token := token.address, block := block }))
    Run.ofExcept (priceOrNone answer)

def oracle (chain : Chain) (block : Option Block) : Oracle (Registry σ × σ) where
  owner address := do
    return (← tokenAdapter chain address).map fun a =>
      Run.onSecond (a.unwrap { token := address, block := block })
  price := price chain block

end Chainfolio.Registry
