import Chainfolio.Node.Metadata
import Chainfolio.Position
import Chainfolio.Product
import Chainfolio.Request
import Chainfolio.Store.TokenCache

/-! Adapters: the operations of one product on one chain. Operations that a product does not offer
say so; adapters that keep a listing read it anew on request. -/
namespace Chainfolio

/-- The fault of an operation that the product does not offer. -/
def ProductDetails.notImplemented (d : ProductDetails) (operation : String) : Fault :=
  .notImplemented operation d.key.protocol d.key.product

structure Adapter (σ : Type) where
  details : ProductDetails
  settings : AdapterSettings := {}
  protocolTokens : Run σ (List ProtocolToken)
  fetchProtocolTokens : Run σ (List ProtocolToken) := protocolTokens
  positions : PositionsRequest → Run σ (List Position)
  withdrawals : EventsRequest → Run σ (List Movement)
  deposits : EventsRequest → Run σ (List Movement)
  borrows : EventsRequest → Run σ (List Movement) :=
    fun _ => throw (details.notImplemented "borrows")
  repays : EventsRequest → Run σ (List Movement) :=
    fun _ => throw (details.notImplemented "repays")
  totalValueLocked : SupplyRequest → Run σ (List TokenSupply)
  unwrap : UnwrapRequest → Run σ UnwrapRate
  apy : RateRequest → Run σ TokenApy := fun _ => throw (details.notImplemented "apy")
  apr : RateRequest → Run σ TokenApr := fun _ => throw (details.notImplemented "apr")
  rewardPositions : RewardRequest → Run σ (List Underlying) :=
    fun _ => throw (details.notImplemented "reward_positions")
  rewardWithdrawals : EventsRequest → Run σ (List Movement) :=
    fun _ => throw (details.notImplemented "reward_withdrawals")

def Adapter.key {σ : Type} (a : Adapter σ) : ProductKey := a.details.key

/-- What an adapter is made from: a chain, its node, a store for listings if there is one, and a place
to remember the listing of each product. -/
structure AdapterContext (σ : Type) where
  chain : Chain
  provider : Provider σ
  store : Option (MetadataStore σ)
  memo : ProductKey → Slot σ TokenMemo

namespace AdapterContext

variable {σ : Type}

def key (c : AdapterContext σ) (protocol : Protocol) (product : String) : ProductKey :=
  ⟨c.chain, protocol, product⟩

def tokenCache (c : AdapterContext σ) (protocol : Protocol) (product : String) : TokenCache σ :=
  ⟨c.key protocol product, c.store, c.memo (c.key protocol product)⟩

def token (c : AdapterContext σ) (address : Address) : Run σ Token :=
  c.provider.token c.chain address

end AdapterContext

abbrev AdapterFactory (σ : Type) := AdapterContext σ → Option (Adapter σ)

end Chainfolio
