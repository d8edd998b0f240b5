import Chainfolio.Adapter.Events
import Chainfolio.Market.State
import Chainfolio.Rates.Annual

/-! Compound v2 markets. Suppliers hold a receipt whose rate grows; debts are kept by the market in
units of the underlying token. The events of a market do not index the account. -/
namespace Chainfolio.CompoundV2

/-- The contract that lists the markets. -/
def comptroller : Address := ⟨0x3d9819210A31b4961b30EF54bE2aeD79B9c9Cd3B⟩

/-- The market of the native token, which names no underlying token. -/
def nativeMarket : Address := ⟨0x4Ddc2D193948926D02f9B1fE9e1daa0718270ED5⟩

def product : MarketSide → String
  | .supply => "supply-market"
  | .borrow => "borrow-market"

def listing : MarketSide → Listing
  | .supply =>
    { name := "Compound v2"
      description := "Compound v2 supply market adapter"
      siteUrl := "https://compound.finance"
      iconUrl := "https://compound.finance/compound-components/assets/compound-mark.svg"
      positionType := .supply
      assetType := .standardToken }
  | .borrow =>
    { name := "Compound v2"
      description := "Compound v2 borrow market adapter"
      siteUrl := "https://compound.finance"
      iconUrl := "https://compound.finance/compound-components/assets/compound-mark.svg"
      positionType := .borrow
      assetType := .nonStandardToken }

def settings : MarketSide → AdapterSettings
  | .supply => {}
  | .borrow => { detectByTransfer := false, includeInUnwrap := false }

variable {σ : Type}

def marketToken (c : AdapterContext σ) (market : Address) : Run σ ProtocolToken := do
  if market = nativeMarket then
    return { token := ← c.token market, underlyings := [Token.native c.chain] }
  else
    let underlying ← c.provider.address ⟨market, .underlying, [], none, none⟩
    let token ← c.token market
    return { token := token, underlyings := [← c.token underlying] }

def marketTokens (c : AdapterContext σ) (comptroller : Address) : Run σ (List ProtocolToken) := do
  let markets ← c.provider.words ⟨comptroller, .getAllMarkets, [], none, none⟩
  Run.forEach (fun m => marketToken c (Address.ofWord m)) markets

/-- The underlying amount of one whole receipt at an exchange rate scaled by a wad. -/
def receiptRate (exchangeRate : Word) (decimals : UInt8) : Except Fault Word :=
  FixedPoint.mulDivDown exchangeRate (Word.pow10 decimals) FixedPoint.wad

/-- The underlying amount of one whole protocol token. A debt is one to one. -/
def rate (provider : Provider σ) (side : MarketSide) (t : Token) (block : Option Block) :
    Run σ Word := do
  match side with
  | .supply =>
    let exchangeRate ← provider.word ⟨t.address, .exchangeRateStored, [], block, none⟩
    Run.ofExcept (receiptRate exchangeRate t.decimals)
  | .borrow => return Word.pow10 t.decimals

/-- The markets as a pool of receipts or of debts. -/
def pool (c : AdapterContext σ) (side : MarketSide) (comptroller : Address) : Pool σ where
  chain := c.chain
  provider := c.provider
  protocolTokens := (c.tokenCache .compoundV2 (product side)).getOrFetch (marketTokens c comptroller)
  unwrap r := do
    let tokens ← (c.tokenCache .compoundV2 (product side)).getOrFetch (marketTokens c comptroller)
    let t ← Run.ofExcept (ProtocolToken.get c.chain tokens r.token)
    return t.uniformRate (← rate c.provider side t.token r.block)

def movements (p : Pool σ) (kind : EventKind) (named : Event → Option (Address × Word))
    (r : EventsRequest) : Run σ (List Movement) := do
  let t ← p.token r.token
  p.provider.eventMovements ⟨t.token.address, kind, [], r.fromBlock, r.toBlock⟩ t
    fun e => (named e).bind (amountOf r.user)

/-- The redeemer of a receipt, with the amount taken out. -/
def redeemed : Event → Option (Address × Word)
  | .poolRedeem redeemer amount _ => some (redeemer, amount)
  | _ => none

/-- The minter of a receipt, with the amount put in. -/
def minted : Event → Option (Address × Word)
  | .poolMint minter amount _ => some (minter, amount)
  | _ => none

/-- The borrower, with the amount borrowed. -/
def borrowed : Event → Option (Address × Word)
  | .poolBorrow borrower amount _ _ => some (borrower, amount)
  | _ => none

/-- The borrower whose debt is repaid, with the amount. -/
def repaid : Event → Option (Address × Word)
  | .poolRepay _ borrower amount _ _ => some (borrower, amount)
  | _ => none

def totalDebts (p : Pool σ) (r : SupplyRequest) : Run σ (List TokenSupply) := do
  Run.forEach (fun t => do
    let total ← p.provider.word ⟨t.token.address, .totalBorrows, [], r.block, none⟩
    return t.supply total total) (← p.tokens r.tokens)

def ratePerBlock (p : Pool σ) (side : MarketSide) (r : RateRequest) : Run σ (Token × Word) := do
  let t ← p.token r.token
  let method : Method := match side with
    | .supply => .supplyRatePerBlock
    | .borrow => .borrowRatePerBlock
  return (t.token, ← p.provider.word ⟨t.token.address, method, [], r.block, none⟩)

/-- The adapter of a side of the markets that a contract lists. -/
def adapter (c : AdapterContext σ) (side : MarketSide) (comptroller : Address) : Adapter σ :=
  let details : ProductDetails := ⟨c.key .compoundV2 (product side), listing side⟩
  let p := pool c side comptroller
  let offered := fun (on : MarketSide) operation kind named r =>
    if side = on then movements p kind named r else throw (details.notImplemented operation)
  { details := details
    settings := settings side
    protocolTokens := p.protocolTokens
    fetchProtocolTokens := marketTokens c comptroller
    positions := match side with
      | .supply => p.positions
      | .borrow => p.positionsBy .borrowBalanceStored
    withdrawals := offered .supply "withdrawals" .poolRedeem redeemed
    deposits := offered .supply "deposits" .poolMint minted
    borrows := offered .borrow "borrows" .poolBorrow borrowed
    repays := offered .borrow "repays" .poolRepay repaid
    totalValueLocked := match side with
      | .supply => p.totalValueLocked
      | .borrow => totalDebts p
    unwrap := p.unwrap
    apy := fun r => do
      let (token, rate) ← ratePerBlock p side r
      return ⟨token, Annual.apyOfBlockRate rate c.chain.blocksPerDay⟩
    apr := fun r => do
      let (token, rate) ← ratePerBlock p side r
      return ⟨token, Annual.aprOfBlockRate rate c.chain.blocksPerDay⟩ }

def factory (side : MarketSide) : AdapterFactory σ := fun c =>
  if c.chain = .ethereum then some (adapter c side comptroller) else none

end Chainfolio.CompoundV2
