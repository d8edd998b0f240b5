import Chainfolio.Proofs.Adapter.Listings
import Chainfolio.Proofs.Store.TokenCache
import Chainfolio.Session.World

/-! What adapters say about a block. Once the listing of a product is at hand, its positions, rates,
supplies and yields at a block are the same in all worlds whose nodes agree at that block, whatever the
nodes say about the latest block or any other one. -/
namespace Chainfolio

variable {σ : Type}

/-! ### Worlds with a listing at hand -/

/-- Whether the memories of a context are places of their own, which neither the node nor the store looks
at, and looking into the store changes nothing that the context can see. -/
structure AdapterContext.Separate (c : AdapterContext σ) : Prop where
  get_set : ∀ key other m s,
    (c.memo other).get ((c.memo key).set m s) = if key = other then m else (c.memo other).get s
  provider_set : ∀ key m s, c.provider ((c.memo key).set m s) = c.provider s
  store_set : ∀ store ∈ c.store, ∀ key other m s,
    (store.get other ((c.memo key).set m s)).1 = (store.get other s).1
  get_look : ∀ store ∈ c.store, ∀ key other s,
    (c.memo other).get (store.get key s).2 = (c.memo other).get s
  provider_look : ∀ store ∈ c.store, ∀ key s, c.provider (store.get key s).2 = c.provider s
  store_look : ∀ store ∈ c.store, ∀ key other s,
    (store.get other (store.get key s).2).1 = (store.get other s).1

/-- Whether the nodes of two worlds agree at a block, and both worlds have the same listings of some
products at hand, in memory or in the store. -/
structure AdapterContext.Alike (c : AdapterContext σ) (ks : List FungibleProduct) (block : Block)
    (s s' : σ) : Prop where
  node : (c.provider s).AgreeAt (some block) (c.provider s')
  listing : ∀ k ∈ ks, k.isCached = true → ∃ tokens,
    (c.cacheOf (k.adapter c).key).held? s = some tokens ∧
      (c.cacheOf (k.adapter c).key).held? s' = some tokens

section
variable {c : AdapterContext σ} {ks : List FungibleProduct} {block : Block} {s s' : σ}
  {key : ProductKey} {tokens : List ProtocolToken}

theorem AdapterContext.held?_congr (hmemo : (c.memo key).get s = (c.memo key).get s')
    (hstore : ∀ store ∈ c.store, (store.get key s).1 = (store.get key s').1) :
    (c.cacheOf key).held? s = (c.cacheOf key).held? s' := by
  simp only [TokenCache.held?, TokenCache.stored, cacheOf, hmemo]
  cases hc : c.store with
  | none => rfl
  | some store => simp only [hstore store hc]

/-- A listing at hand is answered, and what the context sees of the world stays as it is. -/
theorem AdapterContext.Separate.getOrFetch_of_held (hc : c.Separate)
    (fetch : Run σ (List ProtocolToken)) (hheld : (c.cacheOf key).held? s = some tokens) :
    ∃ after, (c.cacheOf key).getOrFetch fetch s = (.ok tokens, after) ∧
      c.provider after = c.provider s ∧
      ∀ other, (c.cacheOf other).held? after = (c.cacheOf other).held? s := by
  rw [TokenCache.getOrFetch_eq_call]
  rcases TokenCache.held?_eq_some.mp hheld with hmemo | ⟨hmemo, store, s₁, hstore, hget⟩
  · rw [TokenCache.call_of_remembered hmemo]
    exact ⟨s, rfl, rfl, fun _ => rfl⟩
  · rw [TokenCache.call_of_stored fetch hstore hmemo hget]
    have hlooked : (store.get key s).2 = s₁ := congrArg Prod.snd hget
    refine ⟨_, rfl, ?_, fun other => ?_⟩
    · exact (hc.provider_set ..).trans (hlooked ▸ hc.provider_look store hstore key s)
    · by_cases hother : key = other
      · subst hother
        rw [hheld]
        exact TokenCache.held?_eq_some.mpr (.inl ((hc.get_set ..).trans (if_pos rfl)))
      · refine AdapterContext.held?_congr ?_ fun store' hstore' => ?_
        · refine ((hc.get_set ..).trans (if_neg hother)).trans ?_
          exact hlooked ▸ hc.get_look store hstore key other s
        · obtain rfl := Option.some.inj (hstore.symm.trans hstore')
          exact (hc.store_set store hstore ..).trans (hlooked ▸ hc.store_look store hstore key other s)

/-- A listing that is answered is at hand from then on. -/
theorem AdapterContext.Separate.held?_of_getOrFetch (hc : c.Separate)
    {fetch : Run σ (List ProtocolToken)} (h : (c.cacheOf key).getOrFetch fetch s = (.ok tokens, s')) :
    (c.cacheOf key).held? s' = some tokens := by
  refine TokenCache.held?_eq_some.mpr (.inl ?_)
  rw [TokenCache.getOrFetch_eq_call] at h
  cases hmemo : (c.cacheOf key).memo.get s with
  | some remembered =>
    rw [TokenCache.call_of_remembered hmemo] at h
    cases h
    exact hmemo
  | none =>
    obtain ⟨middle, -, hafter⟩ := TokenCache.call_of_forgotten (c.cacheOf key) fetch hmemo
    obtain ⟨hanswer, rfl⟩ := Prod.mk.inj h
    rw [hafter, hanswer]
    exact (hc.get_set ..).trans (if_pos rfl)

theorem AdapterContext.Separate.getOrFetch_agrees (hc : c.Separate) {k : FungibleProduct}
    (hk : k ∈ ks) (hcached : k.isCached = true) (fetch : Run σ (List ProtocolToken)) :
    ((c.cacheOf (k.adapter c).key).getOrFetch fetch).Agrees (c.Alike ks block) := by
  intro s s' h
  obtain ⟨tokens, hheld, hheld'⟩ := h.listing k hk hcached
  obtain ⟨after, hrun, hprovider, hkept⟩ := hc.getOrFetch_of_held fetch hheld
  obtain ⟨after', hrun', hprovider', hkept'⟩ := hc.getOrFetch_of_held fetch hheld'
  rw [hrun, hrun']
  refine ⟨rfl, ⟨?_, fun k hk hcached => ?_⟩⟩
  · rw [hprovider, hprovider']
    exact h.node
  · rw [hkept, hkept']
    exact h.listing k hk hcached

end

/-- The parts of a session keep apart. -/
theorem World.separate (chain : Chain) (number memory : Nat) :
    (⟨chain, provider chain, some (MemoryStore.store (World.memory memory)), memo number⟩ :
      AdapterContext World).Separate where
  get_set key other m s := by
    by_cases h : key = other
    · simp [memo, h]
    · simp [memo, h, Ne.symm h]
  provider_set _ _ _ := rfl
  store_set := by
    rintro _ ⟨⟩ _ _ _ _
    rfl
  get_look := by
    rintro _ ⟨⟩ _ _ _
    rfl
  provider_look := by
    rintro _ ⟨⟩ _ _
    rfl
  store_look := by
    rintro _ ⟨⟩ _ _ _
    rfl

/-! ### Pools -/

section
variable {R : σ → σ → Prop} {block : Option Block} {p : Pool σ}

/-- Whether related worlds have the same listing and the same rates at a block, by nodes that agree
there. -/
structure Pool.ReadsAt (p : Pool σ) (block : Option Block) (R : σ → σ → Prop) : Prop where
  listing : p.protocolTokens.Agrees R
  node : ∀ s s', R s s' → (p.provider s).AgreeAt block (p.provider s')
  unwrap : ∀ r, r.block = block → (p.unwrap r).Agrees R

variable (h : p.ReadsAt block R)
include h

namespace Pool

theorem tokens_agrees (filter : Option (List Address)) : (p.tokens filter).Agrees R :=
  h.listing.bind fun _ => Run.agrees_ofExcept _

theorem token_agrees (address : Address) : (p.token address).Agrees R :=
  h.listing.bind fun _ => Run.agrees_ofExcept _

theorem position_agrees (t : ProtocolToken) (balance : Word) :
    (p.position t block balance).Agrees R := by
  unfold position
  split
  · exact Run.agrees_pure _
  · refine (h.unwrap _ rfl).bind fun rate => ?_
    exact (Run.agrees_ofExcept _).bind fun _ => Run.agrees_pure _

theorem positionsBy_agrees (method : Method) {r : PositionsRequest} (hr : r.block = block) :
    (p.positionsBy method r).Agrees R := by
  subst hr
  refine (tokens_agrees h r.tokens).bind fun tokens => Run.agrees_filterEach fun t _ => ?_
  exact (Provider.word_agrees h.node rfl).bind fun balance => position_agrees h t balance

theorem totalValueLocked_agrees {r : SupplyRequest} (hr : r.block = block) :
    (p.totalValueLocked r).Agrees R := by
  subst hr
  refine (tokens_agrees h r.tokens).bind fun tokens => Run.agrees_forEach fun t _ => ?_
  refine (Provider.word_agrees h.node rfl).bind fun total => ?_
  refine (h.unwrap _ rfl).bind fun rate => ?_
  exact (Run.agrees_ofExcept _).bind fun _ => Run.agrees_pure _

end Pool

theorem AaveV3.reserveRate_agrees (provider : Address) (reserve : Reserve) {r : RateRequest}
    (hr : r.block = block) : (reserveRate p provider reserve r).Agrees R := by
  refine (Pool.token_agrees h r.token).bind fun t => ?_
  split
  · exact Run.agrees_throw _
  · refine (Provider.words_agrees h.node hr).bind fun data => ?_
    exact (Run.agrees_ofOption _ _).bind fun _ => Run.agrees_pure _

theorem CompoundV2.totalDebts_agrees {r : SupplyRequest} (hr : r.block = block) :
    (totalDebts p r).Agrees R := by
  refine (Pool.tokens_agrees h r.tokens).bind fun tokens => Run.agrees_forEach fun t _ => ?_
  exact (Provider.word_agrees h.node hr).bind fun _ => Run.agrees_pure _

theorem CompoundV2.ratePerBlock_agrees (side : MarketSide) {r : RateRequest}
    (hr : r.block = block) : (ratePerBlock p side r).Agrees R := by
  refine (Pool.token_agrees h r.token).bind fun t => ?_
  exact (Provider.word_agrees h.node hr).bind fun _ => Run.agrees_pure _

theorem Erc4626.totalValueLocked_agrees {r : SupplyRequest} (hr : r.block = block) :
    (totalValueLocked p r).Agrees R := by
  refine (Pool.tokens_agrees h r.tokens).bind fun tokens => Run.agrees_forEach fun t _ => ?_
  refine (Provider.word_agrees h.node hr).bind fun shares => ?_
  exact (Provider.word_agrees h.node hr).bind fun _ => Run.agrees_pure _

end

/-! ### Markets -/

section
variable {R : σ → σ → Prop} {block : Option Block} {p : Provider σ}
  (hnode : ∀ s s', R s s' → (p s).AgreeAt block (p s'))
include hnode

namespace MorphoBlue

theorem market_agrees (contract : Address) (id : Hash) : (market p contract id block).Agrees R :=
  (Provider.words_agrees hnode rfl).bind fun _ => Run.agrees_ofOption _ _

theorem shares_agrees (contract : Address) (id : Hash) (user : Address) :
    (shares p contract id user block).Agrees R :=
  (Provider.words_agrees hnode rfl).bind fun _ => Run.agrees_ofOption _ _

theorem poolYield_agrees (params : MarketParams) (m : MarketState) :
    (poolYield p params m block).Agrees R :=
  (Provider.word_agrees hnode rfl).bind fun _ => Run.agrees_pure _

/-- Interest is due up to the time of the block. -/
theorem accrued_agrees (params : MarketParams) (m : MarketState) :
    (accrued p params m block).Agrees R := by
  unfold accrued
  split
  · exact Run.agrees_pure _
  · refine (Provider.word_agrees hnode rfl).bind fun rate => ?_
    exact (Provider.timestamp_agrees hnode).bind fun _ => Run.agrees_ofExcept _

theorem balance_agrees (contract : Address) (side : MarketSide) (t : ProtocolToken) (user : Address) :
    (balance p contract side t user block).Agrees R := by
  refine (Run.agrees_ofExcept _).bind fun market => ?_
  refine (shares_agrees hnode contract market.1 user).bind fun held => ?_
  dsimp only
  split
  · exact Run.agrees_pure _
  · refine (market_agrees hnode contract market.1).bind fun m => ?_
    exact (accrued_agrees hnode market.2 m).bind fun _ => Run.agrees_ofExcept _

theorem position_agrees (contract : Address) (side : MarketSide) {r : PositionsRequest}
    (hr : r.block = block) (t : ProtocolToken) : (position p contract side r t).Agrees R := by
  subst hr
  refine (balance_agrees hnode contract side t r.user).bind fun assets => ?_
  split
  · exact Run.agrees_pure _
  · exact (Run.agrees_ofExcept _).bind fun _ => Run.agrees_pure _

end MorphoBlue

/-- A vault's yield is made up of what its markets yield at the same block. -/
theorem MetaMorpho.vaultYield_agrees (vault : Address) : (vaultYield p vault block).Agrees R := by
  have hview : (vaultView p vault block).Agrees R := by
    refine (Provider.aggregate_agrees hnode (by simp)).bind fun replies => ?_
    split
    · exact Run.agrees_pure _
    · exact Run.agrees_throw _
  refine hview.bind fun view => ?_
  refine (Run.agrees_forRange (fun place => ?_) view.queueLength 0).bind fun _ => Run.agrees_pure _
  refine (Provider.word_agrees hnode rfl).bind fun id => ?_
  have hmarket : (marketView p vault view.contract ⟨id⟩ block).Agrees R :=
    (Provider.aggregate_agrees hnode (by simp)).bind fun _ => Run.agrees_ofOption _ _
  refine hmarket.bind fun m => ?_
  split
  · exact Run.agrees_pure _
  · refine (Run.agrees_ofExcept _).bind fun supplied => ?_
    exact (MorphoBlue.poolYield_agrees hnode m.params m.market).bind fun _ => Run.agrees_pure _

theorem Prices.price_agrees (f : Feed) : (price p f block).Agrees R := by
  refine (Provider.word_agrees hnode rfl).bind fun feedDecimals => ?_
  refine (Provider.words_agrees hnode rfl).bind fun round => ?_
  exact (Run.agrees_ofOption _ _).bind fun _ => Run.agrees_ofExcept _

end

section
variable {R : σ → σ → Prop} {block : Option Block} {p : Pool σ} (h : p.ReadsAt block R)
include h

theorem MorphoBlue.totalValueLocked_agrees (contract : Address) (side : MarketSide) {r : SupplyRequest}
    (hr : r.block = block) : (totalValueLocked p contract side r).Agrees R := by
  subst hr
  refine (Pool.tokens_agrees h r.tokens).bind fun tokens => Run.agrees_forEach fun t _ => ?_
  refine (Run.agrees_ofExcept _).bind fun found => ?_
  exact (market_agrees h.node contract found.1).bind fun _ => Run.agrees_pure _

theorem MorphoBlue.yields_agrees (contract : Address) {r : RateRequest} (hr : r.block = block) :
    (yields p contract r).Agrees R := by
  subst hr
  refine (Pool.token_agrees h r.token).bind fun t => ?_
  refine (Run.agrees_ofExcept _).bind fun found => ?_
  refine (market_agrees h.node contract found.1).bind fun m => ?_
  exact (poolYield_agrees h.node found.2 m).bind fun _ => Run.agrees_pure _

end

/-! ### Adapters -/

/-- Whether the answers of an adapter at a block are alike in related worlds. -/
structure Adapter.AgreesAt (a : Adapter σ) (block : Option Block) (R : σ → σ → Prop) : Prop where
  protocolTokens : a.protocolTokens.Agrees R
  positions : ∀ r : PositionsRequest, r.block = block → (a.positions r).Agrees R
  unwrap : ∀ r : UnwrapRequest, r.block = block → (a.unwrap r).Agrees R
  totalValueLocked : ∀ r : SupplyRequest, r.block = block → (a.totalValueLocked r).Agrees R
  apr : ∀ r : RateRequest, r.block = block → (a.apr r).Agrees R

section
variable {R : σ → σ → Prop} {block : Option Block} {c : AdapterContext σ}
  (hnode : ∀ s s', R s s' → (c.provider s).AgreeAt block (c.provider s'))
include hnode

theorem Pool.oneToOne_readsAt {listing : Run σ (List ProtocolToken)} (hlisting : listing.Agrees R) :
    (Pool.oneToOne c.chain c.provider listing).ReadsAt block R where
  listing := hlisting
  node := hnode
  unwrap _ _ := hlisting.bind fun _ => (Run.agrees_ofExcept _).bind fun _ => Run.agrees_pure _

theorem Erc4626.pool_readsAt {listing : Run σ (List ProtocolToken)} (hlisting : listing.Agrees R) :
    (Erc4626.pool c listing).ReadsAt block R where
  listing := hlisting
  node := hnode
  unwrap _ hr := hlisting.bind fun _ => (Run.agrees_ofExcept _).bind fun _ =>
    (Provider.word_agrees hnode hr).bind fun _ => Run.agrees_pure _

theorem Lido.pool_readsAt (token : Staked) {listing : Run σ (List ProtocolToken)}
    (hlisting : listing.Agrees R) : (Lido.pool c token listing).ReadsAt block R where
  listing := hlisting
  node := hnode
  unwrap r hr := by
    refine hlisting.bind fun _ => (Run.agrees_ofExcept _).bind fun t => ?_
    cases token with
    | rebasing => exact Run.agrees_pure _
    | wrapped => exact (Provider.word_agrees hnode hr).bind fun _ => Run.agrees_pure _

theorem CompoundV2.pool_readsAt (side : MarketSide) (comptroller : Address)
    (hlisting : (CompoundV2.pool c side comptroller).protocolTokens.Agrees R) :
    (CompoundV2.pool c side comptroller).ReadsAt block R where
  listing := hlisting
  node := hnode
  unwrap r hr := by
    refine Run.Agrees.bind hlisting fun _ => (Run.agrees_ofExcept _).bind fun t => ?_
    refine Run.Agrees.bind ?_ fun _ => Run.agrees_pure _
    cases side with
    | supply => exact (Provider.word_agrees hnode hr).bind fun _ => Run.agrees_ofExcept _
    | borrow => exact Run.agrees_pure _

/-- The receipts of an announced product. -/
theorem AnnouncedProduct.pool_readsAt (k : AnnouncedProduct)
    (hlisting : (k.adapter c).protocolTokens.Agrees R) : (k.pool c).ReadsAt block R := by
  rw [← pool_protocolTokens] at hlisting
  cases k with
  | markets => exact Pool.oneToOne_readsAt hnode hlisting
  | vaults | curatedVaults => exact Erc4626.pool_readsAt hnode hlisting
  | pools side comptroller => exact CompoundV2.pool_readsAt hnode side comptroller hlisting

theorem AnnouncedProduct.agreesAt (k : AnnouncedProduct)
    (hlisting : (k.adapter c).protocolTokens.Agrees R) : (k.adapter c).AgreesAt block R := by
  have hpool := k.pool_readsAt hnode hlisting
  cases k with
  | markets side contract ids =>
    refine ⟨hlisting, fun r hr => ?_, hpool.unwrap, fun r hr => ?_, fun r hr => ?_⟩
    · exact (Pool.tokens_agrees hpool r.tokens).bind fun tokens =>
        Run.agrees_filterEach fun t _ => MorphoBlue.position_agrees hnode contract side hr t
    · exact MorphoBlue.totalValueLocked_agrees hpool contract side hr
    · exact (MorphoBlue.yields_agrees hpool contract hr).bind fun _ => Run.agrees_pure _
  | vaults | curatedVaults =>
    refine ⟨hlisting, fun r hr => ?_, hpool.unwrap, fun r hr => ?_, fun _ _ => Run.agrees_throw _⟩
    · exact Pool.positionsBy_agrees hpool .balanceOf hr
    · exact Erc4626.totalValueLocked_agrees hpool hr
  | pools side comptroller =>
    refine ⟨hlisting, fun r hr => ?_, hpool.unwrap, fun r hr => ?_, fun r hr => ?_⟩
    · cases side with
      | supply => exact Pool.positionsBy_agrees hpool .balanceOf hr
      | borrow => exact Pool.positionsBy_agrees hpool .borrowBalanceStored hr
    · cases side with
      | supply => exact Pool.totalValueLocked_agrees hpool hr
      | borrow => exact CompoundV2.totalDebts_agrees hpool hr
    · exact (CompoundV2.ratePerBlock_agrees hpool side hr).bind fun _ => Run.agrees_pure _

/-- All that a product says about a block comes from its listing and from what the node says there. -/
theorem FungibleProduct.agreesAt (k : FungibleProduct)
    (hlisting : (k.adapter c).protocolTokens.Agrees R) : (k.adapter c).AgreesAt block R := by
  cases k with
  | announced k => exact k.agreesAt hnode hlisting
  | reserves reserve provider =>
    have hpool : (Pool.oneToOne c.chain c.provider
        (adapter c (.reserves reserve provider)).protocolTokens).ReadsAt block R :=
      Pool.oneToOne_readsAt hnode hlisting
    refine ⟨hlisting, fun r hr => ?_, hpool.unwrap, fun r hr => ?_, fun r hr => ?_⟩
    · exact Pool.positionsBy_agrees hpool .balanceOf hr
    · exact Pool.totalValueLocked_agrees hpool hr
    · exact (AaveV3.reserveRate_agrees hpool provider reserve hr).bind fun _ => Run.agrees_pure _
  | staked token =>
    have hpool := Lido.pool_readsAt hnode token hlisting
    refine ⟨hlisting, fun r hr => ?_, hpool.unwrap, fun r hr => ?_, fun _ _ => Run.agrees_throw _⟩
    · exact Pool.positionsBy_agrees hpool .balanceOf hr
    · exact Pool.totalValueLocked_agrees hpool hr
  | prices feeds =>
    refine ⟨hlisting, fun _ _ => Run.agrees_throw _, fun r hr => ?_, fun _ _ => Run.agrees_throw _,
      fun _ _ => Run.agrees_throw _⟩
    subst hr
    refine (Run.agrees_ofExcept _).bind fun f => ?_
    exact (Prices.price_agrees hnode f).bind fun _ => Run.agrees_pure _

/-- Whether the yield with compounding is read at one block. Plain vaults compare two days. -/
def FungibleProduct.hasBlockYield : FungibleProduct → Bool
  | announced (.vaults ..) => false
  | _ => true

theorem FungibleProduct.apy_agrees {k : FungibleProduct} (hyield : k.hasBlockYield = true)
    (hlisting : (k.adapter c).protocolTokens.Agrees R) {r : RateRequest} (hr : r.block = block) :
    ((k.adapter c).apy r).Agrees R := by
  cases k with
  | announced k =>
    have hpool := k.pool_readsAt hnode hlisting
    cases k with
    | markets side contract ids =>
      exact (MorphoBlue.yields_agrees hpool contract hr).bind fun _ => Run.agrees_pure _
    | vaults => cases hyield
    | curatedVaults =>
      subst hr
      refine Run.Agrees.bind hlisting fun _ => (Run.agrees_ofExcept _).bind fun t => ?_
      exact (MetaMorpho.vaultYield_agrees hnode t.token.address).bind fun _ => Run.agrees_pure _
    | pools side comptroller =>
      exact (CompoundV2.ratePerBlock_agrees hpool side hr).bind fun _ => Run.agrees_pure _
  | reserves reserve provider =>
    have hpool : (Pool.oneToOne c.chain c.provider
        (adapter c (.reserves reserve provider)).protocolTokens).ReadsAt block R :=
      Pool.oneToOne_readsAt hnode hlisting
    exact (AaveV3.reserveRate_agrees hpool provider reserve hr).bind fun _ => Run.agrees_pure _
  | staked token => exact Run.agrees_throw _
  | prices feeds => exact Run.agrees_throw _

end

/-- With the listings of some products at hand, each of them lists the same in worlds that are alike. -/
theorem FungibleProduct.protocolTokens_agrees {c : AdapterContext σ} (hc : c.Separate)
    {ks : List FungibleProduct} {k : FungibleProduct} (hk : k ∈ ks) (block : Block) :
    (k.adapter c).protocolTokens.Agrees (c.Alike ks block) := by
  by_cases hcached : k.isCached = true
  · rw [protocolTokens_eq hcached]
    exact hc.getOrFetch_agrees hk hcached _
  · cases k with
    | prices feeds => exact Run.agrees_pure _
    | _ => exact absurd rfl hcached

end Chainfolio
