import Chainfolio.Config
import Chainfolio.Rates.Unwrap
import Chainfolio.Run

/-! Resolution: amounts that are protocol tokens themselves get what they unwrap into as children,
down to plain tokens or to a limit of nesting. Amounts that are not unwrapped may get a price. What an
amount already has below it is kept and resolved further. -/
namespace Chainfolio

/-- What resolution asks: how a token unwraps, if some product owns it, and what it costs. -/
structure Oracle (τ : Type) where
  owner : Address → Run τ (Option (Run τ UnwrapRate))
  price : Token → Run τ (Option Underlying)

namespace Resolution

/-- How deep to unwrap, and whether to add prices. -/
structure Options where
  depth : Nat := defaultResolveDepth
  fiatPrices : Bool := false
  deriving DecidableEq

variable {τ : Type}

mutual

/-- Gives children to every amount that has none and is no price. -/
def expand (children : Token → Word → Run τ (List Underlying)) : Underlying → Run τ Underlying
  | ⟨token, balance, kind, tokens⟩ =>
    if kind = .fiat then pure ⟨token, balance, kind, tokens⟩
    else
      match tokens with
      | [] => do return ⟨token, balance, kind, ← children token balance⟩
      | u :: rest => do
        let u ← expand children u
        return ⟨token, balance, kind, u :: (← expandAll children rest)⟩

def expandAll (children : Token → Word → Run τ (List Underlying)) :
    List Underlying → Run τ (List Underlying)
  | [] => pure []
  | u :: rest => do
    let u ← expand children u
    return u :: (← expandAll children rest)

end

/-- The price of a token as its only child, if it is asked for and known. -/
def priceLeaf (o : Oracle τ) (fiatPrices : Bool) (token : Token) : Run τ (List Underlying) := do
  if fiatPrices then return (← o.price token).toList
  else return []

/-- The children of an amount: what it unwraps into, resolved further, unless no product owns the
token or the limit is reached. -/
def children (o : Oracle τ) (fiatPrices : Bool)
    (deeper : Option (List Underlying → Run τ (List Underlying))) (token : Token) (balance : Word) :
    Run τ (List Underlying) := do
  match ← o.owner token.address, deeper with
  | some unwrap, some deeper =>
    let rate ← unwrap
    deeper (← Run.ofExcept (rate.underlyings balance))
  | _, _ => priceLeaf o fiatPrices token

/-- Resolves amounts, unwrapping at most `depth` times below each. -/
def resolveAll (o : Oracle τ) (fiatPrices : Bool) : Nat → List Underlying → Run τ (List Underlying)
  | 0 => expandAll (children o fiatPrices none)
  | depth + 1 => expandAll (children o fiatPrices (some (resolveAll o fiatPrices depth)))

def resolve (o : Oracle τ) (options : Options) : List Underlying → Run τ (List Underlying) :=
  resolveAll o options.fiatPrices options.depth

def positions (o : Oracle τ) (options : Options) : List Position → Run τ (List Position) :=
  Run.forEach fun p => do return { p with tokens := ← resolve o options p.tokens }

def movements (o : Option Block → Oracle τ) (options : Options) :
    List Movement → Run τ (List Movement) :=
  Run.forEach fun m => do return { m with tokens := ← resolve (o (some m.block)) options m.tokens }

/-- The amounts that one whole protocol token is worth. -/
def rateAmounts (r : UnwrapRate) : List Underlying :=
  r.tokens.map fun u => .leaf u.token u.rate u.kind

def rate (o : Oracle τ) (options : Options) (r : UnwrapRate) : Run τ (List Underlying) :=
  resolve o options (rateAmounts r)

end Resolution

end Chainfolio
