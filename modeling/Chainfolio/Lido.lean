import Chainfolio.Adapter.Pool

/-! Lido's liquid staking tokens: the rebasing one, which is worth the native token, and its wrapper,
which is worth a growing amount of it. -/
namespace Chainfolio.Lido

def stEth : Address := ⟨0xae7ab96520DE3A18E5e111B5EaAb095312D7fE84⟩

def wstEth : Address := ⟨0x7f39C581F595B53c5cb19bD0b3f8dA6c935E2Ca0⟩

/-- The token that a product lists. -/
inductive Staked where
  | rebasing
  | wrapped
  deriving DecidableEq

namespace Staked

def product : Staked → String
  | rebasing => "st-eth"
  | wrapped => "wst-eth"

def listing : Staked → Listing
  | rebasing =>
    { name := "Lido stETH"
      description := "Lido defi adapter for stETH"
      siteUrl := "https://lido.fi"
      iconUrl := "https://lido.fi/favicon-32x32.png"
      positionType := .staked
      assetType := .nonStandardToken }
  | wrapped =>
    { name := "Lido wstETH"
      description := "Lido defi adapter for wstETH"
      siteUrl := "https://lido.fi"
      iconUrl := "https://lido.fi/favicon-32x32.png"
      positionType := .staked
      assetType := .standardToken }

end Staked

variable {σ : Type}

def stakedTokens (c : AdapterContext σ) : Staked → Run σ (List ProtocolToken)
  | .rebasing => do
    return [{ token := ← c.token stEth, underlyings := [Token.native c.chain] }]
  | .wrapped => do
    let wrapper ← c.token wstEth
    return [{ token := wrapper, underlyings := [← c.token stEth] }]

/-- What one whole token is worth. -/
def rate (p : Provider σ) (t : ProtocolToken) (block : Option Block) :
    Staked → Run σ UnwrapRate
  | .rebasing => return t.oneToOneRate
  | .wrapped => do
    return t.uniformRate (← p.word ⟨t.token.address, .stEthPerToken, [], block, none⟩)

def pool (c : AdapterContext σ) (staked : Staked) (protocolTokens : Run σ (List ProtocolToken)) :
    Pool σ where
  chain := c.chain
  provider := c.provider
  protocolTokens := protocolTokens
  unwrap r := do
    let t ← Run.ofExcept (ProtocolToken.get c.chain (← protocolTokens) r.token)
    rate c.provider t r.block staked

def adapter (c : AdapterContext σ) (staked : Staked) : Adapter σ :=
  let fetch := stakedTokens c staked
  let p := pool c staked ((c.tokenCache .lido staked.product).getOrFetch fetch)
  { details := ⟨c.key .lido staked.product, staked.listing⟩
    protocolTokens := p.protocolTokens
    fetchProtocolTokens := fetch
    positions := p.positions
    withdrawals := p.movements .burn
    deposits := p.movements .mint
    totalValueLocked := p.totalValueLocked
    unwrap := p.unwrap }

def factory (staked : Staked) : AdapterFactory σ := fun c =>
  if c.chain = .ethereum then some (adapter c staked) else none

end Chainfolio.Lido
