import Chainfolio.Adapter.Events
import Chainfolio.MorphoBlue.Contract

/-! Morpho Blue markets, one protocol token each. Balances are shares, converted with the interest up
to the block that is asked about, as the contract itself does. -/
namespace Chainfolio.MorphoBlue

/-- The contract, at the same address on every chain. -/
def contract : Address := ⟨0xBBBBBbbBBb9cC5e90e3b3Af64bdAF62C37EEFFCb⟩

def markets : Chain → List Hash
  | .ethereum =>
    [⟨0xc54d7acf14de29e0e5527cabd7a576506870346a78a11a6762e2cca66322ec41⟩,
      ⟨0x3a85e619751152991742810df6ec69ce473daef99e28a64ab2340d7b7ccfee49⟩,
      ⟨0xb323495f7e4148be5643a4ea4a8221eef163e4bccfdedc2a6f4696baacbc86cc⟩]
  | .base => [⟨0xdba352d93a64b17c71104cbddc6aef85cd432322a1446b5b65163cbbc615cd0c⟩]
  | _ => []

def product : MarketSide → String
  | .supply => "market-supply"
  | .borrow => "market-borrow"

def listing : MarketSide → Listing
  | .supply =>
    { name := "Morpho Blue"
      description := "Morpho Blue market supply positions"
      siteUrl := "https://morpho.org"
      iconUrl := "https://cdn.morpho.org/assets/logos/morpho.svg"
      positionType := .supply
      assetType := .nonStandardToken }
  | .borrow =>
    { name := "Morpho Blue"
      description := "Morpho Blue market borrow positions"
      siteUrl := "https://morpho.org"
      iconUrl := "https://cdn.morpho.org/assets/logos/morpho.svg"
      positionType := .borrow
      assetType := .nonStandardToken }

variable {σ : Type}

/-- The protocol token of a market; none for an idle one. -/
def marketToken (c : AdapterContext σ) (contract : Address) (id : Hash) :
    Run σ (Option ProtocolToken) := do
  let p ← params c.provider contract id
  if p.isIdle then return none
  else
    let loan ← c.token p.loanToken
    let collateral ← c.token p.collateralToken
    return some (.ofMarket id p loan collateral)

def balance (p : Provider σ) (contract : Address) (side : MarketSide) (t : ProtocolToken)
    (user : Address) (block : Option Block) : Run σ Word := do
  let (id, params) ← Run.ofExcept t.market
  let held := (← shares p contract id user block).on side
  if held = 0 then return 0
  else
    let m ← market p contract id block
    let m ← accrued p params m block
    Run.ofExcept (side.toAssets held m)

/-- The position of a user in a market, unless it is empty. -/
def position (p : Provider σ) (contract : Address) (side : MarketSide) (r : PositionsRequest)
    (t : ProtocolToken) : Run σ (Option Position) := do
  let assets ← balance p contract side t r.user r.block
  if assets = 0 then return none
  else
    let underlyings ← Run.ofExcept (t.oneToOneRate.underlyings assets)
    return some { token := t.token, balance := assets, tokens := underlyings }

/-- The movements of a user that a market's events announce. The user is the second or the third
indexed argument. -/
def movements (p : Pool σ) (contract : Address) (kind : EventKind)
    (userTopic : Option Word → List (Option Word)) (named : Event → Option (Address × Word))
    (r : EventsRequest) : Run σ (List Movement) := do
  let t ← p.token r.token
  let (id, _) ← Run.ofExcept t.market
  p.provider.eventMovements
    ⟨contract, kind, some id.bits :: userTopic (some r.user.toWord), r.fromBlock, r.toBlock⟩ t
    fun e => (named e).bind (amountOf r.user)

/-- The account that a supply is for, with the assets. -/
def supplied : Event → Option (Address × Word)
  | .marketSupply _ _ onBehalf assets _ => some (onBehalf, assets)
  | _ => none

/-- The account that a withdrawal is from, with the assets. -/
def withdrawn : Event → Option (Address × Word)
  | .marketWithdraw _ _ onBehalf _ assets _ => some (onBehalf, assets)
  | _ => none

/-- The account that a loan is for, with the assets. -/
def borrowed : Event → Option (Address × Word)
  | .marketBorrow _ _ onBehalf _ assets _ => some (onBehalf, assets)
  | _ => none

/-- The account that a repayment is for, with the assets. -/
def repaid : Event → Option (Address × Word)
  | .marketRepay _ _ onBehalf assets _ => some (onBehalf, assets)
  | _ => none

/-- The totals of one side of each market. -/
def totalValueLocked (p : Pool σ) (contract : Address) (side : MarketSide) (r : SupplyRequest) :
    Run σ (List TokenSupply) := do
  Run.forEach (fun t => do
    let (id, _) ← Run.ofExcept t.market
    let m ← market p.provider contract id r.block
    return t.supply (side.totalAssets m) (side.totalAssets m)) (← p.tokens r.tokens)

def yields (p : Pool σ) (contract : Address) (r : RateRequest) : Run σ (Token × PoolYield) := do
  let t ← p.token r.token
  let (id, params) ← Run.ofExcept t.market
  let m ← market p.provider contract id r.block
  return (t.token, ← poolYield p.provider params m r.block)

def adapter (c : AdapterContext σ) (side : MarketSide) (contract : Address) (markets : List Hash) :
    Adapter σ :=
  let details : ProductDetails := ⟨c.key .morphoBlue (product side), listing side⟩
  let fetch := Run.filterEach (marketToken c contract) markets
  let p := Pool.oneToOne c.chain c.provider
    ((c.tokenCache .morphoBlue (product side)).getOrFetch fetch)
  let second := fun (user : Option Word) => [user]
  let third := fun (user : Option Word) => [none, user]
  let offered := fun (on : MarketSide) operation kind userTopic named r =>
    if side = on then movements p contract kind userTopic named r
    else throw (details.notImplemented operation)
  { details := details
    settings := { detectByTransfer := false, includeInUnwrap := false }
    protocolTokens := p.protocolTokens
    fetchProtocolTokens := fetch
    positions := fun r => do
      Run.filterEach (position c.provider contract side r) (← p.tokens r.tokens)
    withdrawals := offered .supply "withdrawals" .marketWithdraw second withdrawn
    deposits := offered .supply "deposits" .marketSupply third supplied
    borrows := offered .borrow "borrows" .marketBorrow second borrowed
    repays := offered .borrow "repays" .marketRepay third repaid
    totalValueLocked := totalValueLocked p contract side
    unwrap := p.unwrap
    apy := fun r => do
      let (token, y) ← yields p contract r
      return ⟨token, match side with | .supply => y.supply | .borrow => y.borrow⟩
    apr := fun r => do
      let (token, y) ← yields p contract r
      return ⟨token, match side with | .supply => y.supplyApr | .borrow => y.borrowApr⟩ }

def factory (side : MarketSide) : AdapterFactory σ := fun c =>
  match markets c.chain with
  | [] => none
  | ids => some (adapter c side contract ids)

end Chainfolio.MorphoBlue
