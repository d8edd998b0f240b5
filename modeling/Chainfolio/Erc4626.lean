import Chainfolio.Adapter.Events
import Chainfolio.Float.Word
import Chainfolio.Rates.Annual

/-! Tokenized vaults: shares are the protocol token, the vault names its asset and says what shares
are worth. Deposits and withdrawals are the vault's own events, so that amounts are exact. -/
namespace Chainfolio.Erc4626

variable {σ : Type}

def convertToAssets (p : Provider σ) (vault : Address) (shares : Word) (block : Option Block) :
    Run σ Word :=
  p.word ⟨vault, .convertToAssets, [.word shares], block, none⟩

def vaultToken (c : AdapterContext σ) (vault : Address) : Run σ ProtocolToken := do
  let asset ← c.provider.address ⟨vault, .asset, [], none, none⟩
  let share ← c.token vault
  return { token := share, underlyings := [← c.token asset] }

/-- Vaults as a pool of shares. -/
def pool (c : AdapterContext σ) (protocolTokens : Run σ (List ProtocolToken)) : Pool σ where
  chain := c.chain
  provider := c.provider
  protocolTokens := protocolTokens
  unwrap r := do
    let t ← Run.ofExcept (ProtocolToken.get c.chain (← protocolTokens) r.token)
    let assets ← convertToAssets c.provider t.token.address (Word.pow10 t.token.decimals) r.block
    return t.uniformRate assets

/-- The movements of a user that a vault announces. The owner is the second or the third indexed
argument. -/
def movements (p : Pool σ) (kind : EventKind) (ownerTopic : Option Word → List (Option Word))
    (named : Event → Option (Address × Word)) (r : EventsRequest) : Run σ (List Movement) := do
  let t ← p.token r.token
  p.provider.eventMovements
    ⟨t.token.address, kind, ownerTopic (some r.user.toWord), r.fromBlock, r.toBlock⟩ t
    fun e => (named e).bind (amountOf r.user)

/-- The owner of new shares, with the assets paid in. -/
def deposited : Event → Option (Address × Word)
  | .vaultDeposit _ owner assets _ => some (owner, assets)
  | _ => none

/-- The owner of redeemed shares, with the assets paid out. -/
def withdrawn : Event → Option (Address × Word)
  | .vaultWithdraw _ _ owner assets _ => some (owner, assets)
  | _ => none

def totalValueLocked (p : Pool σ) (r : SupplyRequest) : Run σ (List TokenSupply) := do
  Run.forEach (fun t => do
    let shares ← p.provider.word ⟨t.token.address, .totalSupply, [], r.block, none⟩
    let assets ← p.provider.word ⟨t.token.address, .totalAssets, [], r.block, none⟩
    return t.supply shares assets) (← p.tokens r.tokens)

/-- How much the price of a share grew, as a fraction; nothing from a price of zero. -/
def growth (before now : Word) : Float :=
  if before = 0 then 0.0 else now.toFloat / before.toFloat - 1.0

def dayBefore (chain : Chain) (block : Block) : Block :=
  if block < chain.blocksPerDay then 0 else block - chain.blocksPerDay

/-- The growth of the share price over the last day, compounded daily. -/
def apy (p : Pool σ) (r : RateRequest) : Run σ TokenApy := do
  let t ← p.token r.token
  let block ← match r.block with
    | some block => pure block
    | none => p.provider.blockNumber
  let oneShare := Word.pow10 t.token.decimals
  let now ← convertToAssets p.provider t.token.address oneShare (some block)
  let before ← convertToAssets p.provider t.token.address oneShare (some (dayBefore p.chain block))
  return ⟨t.token, Annual.compound (growth before now * 365.0) 365⟩

def adapter (c : AdapterContext σ) (protocol : Protocol) (product : String) (listing : Listing)
    (vaults : List Address) : Adapter σ :=
  let fetch := Run.forEach (vaultToken c) vaults
  let p := pool c ((c.tokenCache protocol product).getOrFetch fetch)
  { details := ⟨c.key protocol product, listing⟩
    protocolTokens := p.protocolTokens
    fetchProtocolTokens := fetch
    positions := p.positions
    withdrawals := movements p .vaultWithdraw (fun owner => [none, none, owner]) withdrawn
    deposits := movements p .vaultDeposit (fun owner => [none, owner]) deposited
    totalValueLocked := totalValueLocked p
    unwrap := p.unwrap
    apy := apy p }

end Chainfolio.Erc4626
