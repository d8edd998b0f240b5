import Chainfolio.AaveV3
import Chainfolio.Lido
import Chainfolio.Prices
import Chainfolio.Proofs.Movements.Announced
import Chainfolio.Proofs.Node.Agreement

/-! The listings of the products that have tokens of their own. All of them but prices are read through a
cache under the key of the product, and read anew they come from the node alone, at the latest block. -/
namespace Chainfolio

/-- The products that are not kept as NFTs. -/
inductive FungibleProduct where
  | announced (k : AnnouncedProduct)
  | reserves (reserve : AaveV3.Reserve) (provider : Address)
  | staked (token : Lido.Staked)
  | prices (feeds : List Prices.Feed)

def AdapterContext.cacheOf {σ : Type} (c : AdapterContext σ) (key : ProductKey) : TokenCache σ :=
  ⟨key, c.store, c.memo key⟩

namespace FungibleProduct

variable {σ : Type}

def adapter (c : AdapterContext σ) : FungibleProduct → Adapter σ
  | announced k => k.adapter c
  | reserves reserve provider => AaveV3.adapter c reserve provider
  | staked token => Lido.adapter c token
  | prices feeds => Prices.adapter c feeds

def isCached : FungibleProduct → Bool
  | prices _ => false
  | _ => true

theorem protocolTokens_eq {k : FungibleProduct} (h : k.isCached = true) (c : AdapterContext σ) :
    (k.adapter c).protocolTokens =
      (c.cacheOf (k.adapter c).key).getOrFetch (k.adapter c).fetchProtocolTokens := by
  rcases k with (_ | _ | _ | _) | _ | _ | _
  all_goals first | rfl | cases h

end FungibleProduct

/-! ### Read anew -/

section
variable {σ : Type} {c : AdapterContext σ} {R : σ → σ → Prop}
  (hnode : ∀ s s', R s s' → (c.provider s).AgreeAt none (c.provider s'))
include hnode

theorem AdapterContext.token_agrees (address : Address) : (c.token address).Agrees R :=
  Provider.token_agrees hnode c.chain address

theorem AaveV3.reserveTokens_agrees (provider : Address) (reserve : Reserve) :
    (reserveTokens c provider reserve).Agrees R := by
  have hassets : (assets c provider).Agrees R := by
    refine (Provider.call_agrees hnode rfl).bind fun values => ?_
    split
    · exact Run.agrees_ofOption _ _
    · exact Run.agrees_throw _
  refine hassets.bind fun assets => Run.agrees_forEach fun asset _ => ?_
  refine (Provider.words_agrees hnode rfl).bind fun addresses => ?_
  refine (Run.agrees_ofOption _ _).bind fun address => ?_
  refine (AdapterContext.token_agrees hnode address).bind fun token => ?_
  exact (AdapterContext.token_agrees hnode asset).bind fun _ => Run.agrees_pure _

theorem CompoundV2.marketTokens_agrees (comptroller : Address) :
    (marketTokens c comptroller).Agrees R := by
  refine (Provider.words_agrees hnode rfl).bind fun markets => Run.agrees_forEach fun m _ => ?_
  unfold marketToken
  split
  · exact (AdapterContext.token_agrees hnode _).bind fun _ => Run.agrees_pure _
  · refine (Provider.address_agrees hnode rfl).bind fun underlying => ?_
    refine (AdapterContext.token_agrees hnode _).bind fun token => ?_
    exact (AdapterContext.token_agrees hnode underlying).bind fun _ => Run.agrees_pure _

theorem Erc4626.vaultToken_agrees (vault : Address) : (vaultToken c vault).Agrees R := by
  refine (Provider.address_agrees hnode rfl).bind fun asset => ?_
  refine (AdapterContext.token_agrees hnode vault).bind fun share => ?_
  exact (AdapterContext.token_agrees hnode asset).bind fun _ => Run.agrees_pure _

theorem MorphoBlue.marketToken_agrees (contract : Address) (id : Hash) :
    (marketToken c contract id).Agrees R := by
  have hparams : (params c.provider contract id).Agrees R :=
    (Provider.words_agrees hnode rfl).bind fun _ => Run.agrees_ofOption _ _
  refine hparams.bind fun p => ?_
  split
  · exact Run.agrees_pure _
  · refine (AdapterContext.token_agrees hnode _).bind fun loan => ?_
    exact (AdapterContext.token_agrees hnode _).bind fun _ => Run.agrees_pure _

theorem Lido.stakedTokens_agrees (staked : Staked) : (stakedTokens c staked).Agrees R := by
  cases staked with
  | rebasing => exact (AdapterContext.token_agrees hnode _).bind fun _ => Run.agrees_pure _
  | wrapped =>
    refine (AdapterContext.token_agrees hnode _).bind fun wrapper => ?_
    exact (AdapterContext.token_agrees hnode _).bind fun _ => Run.agrees_pure _

/-- A listing that is read anew depends on the node alone. -/
theorem FungibleProduct.fetchProtocolTokens_agrees (k : FungibleProduct) :
    (k.adapter c).fetchProtocolTokens.Agrees R := by
  cases k with
  | announced k =>
    cases k with
    | markets side contract ids =>
      exact Run.agrees_filterEach fun id _ => MorphoBlue.marketToken_agrees hnode contract id
    | vaults | curatedVaults =>
      exact Run.agrees_forEach fun vault _ => Erc4626.vaultToken_agrees hnode vault
    | pools side comptroller => exact CompoundV2.marketTokens_agrees hnode comptroller
  | reserves reserve provider => exact AaveV3.reserveTokens_agrees hnode provider reserve
  | staked token => exact Lido.stakedTokens_agrees hnode token
  | prices feeds => exact Run.agrees_pure _

end

/-- Reading a listing anew changes nothing. -/
theorem FungibleProduct.fetchProtocolTokens_keeps {σ : Type} (k : FungibleProduct)
    (c : AdapterContext σ) (Inv : σ → Prop) : (k.adapter c).fetchProtocolTokens.Keeps Inv := by
  refine Run.Agrees.keeps fun s => k.fetchProtocolTokens_agrees ?_
  rintro _ _ ⟨rfl, rfl⟩
  exact .refl _ _

end Chainfolio
