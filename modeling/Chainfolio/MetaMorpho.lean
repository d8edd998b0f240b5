import Chainfolio.Erc4626
import Chainfolio.MorphoBlue.Contract

/-! MetaMorpho vaults: tokenized vaults that supply to Morpho Blue markets. Their yield is that of the
markets in their supply queue, weighted by what they supply, net of their fee. -/
namespace Chainfolio.MetaMorpho

def vaults : Chain → List Address
  | .ethereum =>
    [⟨0xBEEF01735c132Ada46AA9aA4c54623cAA92A64CB⟩, ⟨0x2371e134e3455e0593363cBF89d3b6cf53740618⟩,
      ⟨0x78Fc2c2eD1A4cDb5402365934aE5648aDAd094d0⟩]
  | .base => [⟨0xc1256Ae5FF1cf2719D4937adb3bbCCab2E00A2Ca⟩]
  | _ => []

def product : String := "vault"

def listing : Listing where
  name := "MetaMorpho"
  description := "MetaMorpho curated vaults on Morpho Blue"
  siteUrl := "https://morpho.org"
  iconUrl := "https://cdn.morpho.org/assets/logos/morpho.svg"
  positionType := .supply
  assetType := .standardToken

variable {σ : Type}

structure VaultView where
  fee : Word
  queueLength : Nat
  totalAssets : Word
  contract : Address

/-- The most entries that a queue is taken to have. -/
def queueLimit : Nat := UInt64.size - 1

def vaultView (p : Provider σ) (vault : Address) (block : Option Block) : Run σ VaultView := do
  let replies ← p.aggregate
    [⟨vault, .fee, [], block, none⟩, ⟨vault, .supplyQueueLength, [], block, none⟩,
      ⟨vault, .totalAssets, [], block, none⟩, ⟨vault, .morpho, [], block, none⟩]
  match replies with
  | [[.word fee], [.word length], [.word assets], [.word contract]] =>
    return ⟨fee, min length.toNat queueLimit, assets, Address.ofWord contract⟩
  | _ => throw .multicall

/-- A market as one of its vaults sees it. -/
structure MarketView where
  enabled : Bool
  params : MarketParams
  market : MarketState
  shares : MarketShares

/-- The market view that four replies make up. -/
def MarketView.ofReplies? : List (List AbiValue) → Option MarketView
  | [config, params, market, shares] => do
    match ← AbiValue.words? config with
    | [_, enabled, _] =>
      return {
        enabled := enabled ≠ 0
        params := ← MarketParams.ofWords? (← AbiValue.words? params)
        market := ← MarketState.ofWords? (← AbiValue.words? market)
        shares := ← MarketShares.ofWords? (← AbiValue.words? shares) }
    | _ => none
  | _ => none

def marketView (p : Provider σ) (vault contract : Address) (id : Hash) (block : Option Block) :
    Run σ MarketView := do
  let replies ← p.aggregate
    [⟨vault, .config, [.hash id], block, none⟩,
      ⟨contract, .idToMarketParams, [.hash id], block, none⟩,
      ⟨contract, .market, [.hash id], block, none⟩,
      ⟨contract, .position, [.hash id, .address vault], block, none⟩]
  Run.ofOption .multicall (MarketView.ofReplies? replies)

/-- What a vault supplies to the market at a place of its queue; none if the market is disabled or
idle. -/
def component (p : Provider σ) (vault contract : Address) (block : Option Block) (place : Nat) :
    Run σ (Option VaultSupply) := do
  let id ← p.word ⟨vault, .supplyQueue, [.word (BitVec.ofNat 256 place)], block, none⟩
  let view ← marketView p vault contract ⟨id⟩ block
  if !view.enabled || view.params.isIdle then return none
  else
    let supplied ← Run.ofExcept (MarketSide.supply.toAssets view.shares.supply view.market)
    return some ⟨supplied, ← MorphoBlue.poolYield p view.params view.market block⟩

/-- The yield of a vault, market by market. -/
def vaultYield (p : Provider σ) (vault : Address) (block : Option Block) : Run σ VaultYield := do
  let view ← vaultView p vault block
  let components ← Run.forRange (component p vault view.contract block) view.queueLength 0
  return ⟨components.filterMap id, Word.scaledToFloat view.fee 18, view.totalAssets⟩

def adapter (c : AdapterContext σ) (vaults : List Address) : Adapter σ :=
  let vault := Erc4626.adapter c .metaMorpho product listing vaults
  { vault with
    apy := fun r => do
      let t ← Run.ofExcept (ProtocolToken.get c.chain (← vault.protocolTokens) r.token)
      return ⟨t.token, (← vaultYield c.provider t.token.address r.block).apy⟩ }

def factory : AdapterFactory σ := fun c =>
  match vaults c.chain with
  | [] => none
  | vaults => some (adapter c vaults)

end Chainfolio.MetaMorpho
