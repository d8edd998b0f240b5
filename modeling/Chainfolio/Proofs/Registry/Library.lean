import Mathlib.Data.List.Forall2
import Chainfolio.Catalogue
import Chainfolio.Proofs.Adapter.Restriction
import Chainfolio.Proofs.Registry.Map
import Chainfolio.Proofs.Registry.Prebuilt

/-! The registry of the products that come with the library. No two of them share a key on a chain, so a
configuration gives a registry whenever its nodes can be reached; and each adapter in it is that of a
product made in the context of its chain, of which listings and filters are known to behave. -/
namespace Chainfolio

variable {σ : Type} {c : AdapterContext σ} {a : Adapter σ}

/-! ### Products -/

namespace Catalogue

/-- What the library makes adapters of: fungible products, and one that is kept as NFTs. -/
inductive Made (c : AdapterContext σ) : Adapter σ → Prop
  | fungible (k : FungibleProduct) : Made c (k.adapter c)
  | liquidity (contracts : UniswapV3.Contracts) : Made c (UniswapV3.adapter c contracts)

/-- A protocol and the name of one of its products. -/
abbrev Label := Protocol × String

def Label.key (label : Label) (c : AdapterContext σ) : ProductKey := c.key label.1 label.2

/-- Whether all that a factory makes are adapters of one product. -/
def Makes (f : AdapterFactory σ) (label : Label) : Prop :=
  ∀ c a, f c = some a → a.key = label.key c ∧ Made c a

section
variable {label : Label}

/-- A product that is made from what is known of a chain, if anything is. -/
theorem makes_map {α : Type} {lookup : Chain → Option α} {make : AdapterContext σ → α → Adapter σ}
    (h : ∀ c x, (make c x).key = label.key c ∧ Made c (make c x)) :
    Makes (fun c => (lookup c.chain).map (make c)) label := by
  intro c a hmade
  obtain ⟨x, -, rfl⟩ := Option.map_eq_some_iff.mp hmade
  exact h c x

/-- A product that is made on one chain only. -/
theorem makes_on {chain : Chain} {make : AdapterContext σ → Adapter σ}
    (h : ∀ c, (make c).key = label.key c ∧ Made c (make c)) :
    Makes (fun c => if c.chain = chain then some (make c) else none) label := by
  intro c a hmade
  dsimp only at hmade
  split at hmade
  · cases hmade
    exact h c
  · cases hmade

end

theorem makes_reserves (reserve : AaveV3.Reserve) :
    Makes (AaveV3.factory (σ := σ) reserve) (.aaveV3, reserve.product) :=
  makes_map fun _ provider => ⟨rfl, .fungible (.reserves reserve provider)⟩

theorem makes_pools (side : MarketSide) :
    Makes (CompoundV2.factory (σ := σ) side) (.compoundV2, CompoundV2.product side) :=
  makes_on fun _ => ⟨rfl, .fungible (.announced (.pools side CompoundV2.comptroller))⟩

theorem makes_markets (side : MarketSide) :
    Makes (MorphoBlue.factory (σ := σ) side) (.morphoBlue, MorphoBlue.product side) := by
  intro c a h
  unfold MorphoBlue.factory at h
  split at h
  · cases h
  · cases h
    exact ⟨rfl, .fungible (.announced (.markets side MorphoBlue.contract _))⟩

theorem makes_vaults : Makes (MetaMorpho.factory (σ := σ)) (.metaMorpho, MetaMorpho.product) := by
  intro c a h
  unfold MetaMorpho.factory at h
  split at h
  · cases h
  · cases h
    exact ⟨rfl, .fungible (.announced (.curatedVaults _))⟩

theorem makes_staked (token : Lido.Staked) :
    Makes (Lido.factory (σ := σ) token) (.lido, token.product) :=
  makes_on fun _ => ⟨rfl, .fungible (.staked token)⟩

theorem makes_liquidity : Makes (UniswapV3.factory (σ := σ)) (.uniswapV3, UniswapV3.product) :=
  makes_map fun _ contracts => ⟨rfl, .liquidity contracts⟩

theorem makes_prices : Makes (Prices.factory (σ := σ)) (.prices, Prices.product) :=
  makes_map fun _ _ => ⟨rfl, .fungible (.prices _)⟩

/-- The labels of the products, in the order in which they are registered. -/
def labels : List Label :=
  [(.aaveV3, AaveV3.Reserve.aToken.product), (.aaveV3, AaveV3.Reserve.variableDebt.product),
    (.compoundV2, CompoundV2.product .supply), (.compoundV2, CompoundV2.product .borrow),
    (.morphoBlue, MorphoBlue.product .supply), (.morphoBlue, MorphoBlue.product .borrow),
    (.metaMorpho, MetaMorpho.product), (.lido, Lido.Staked.rebasing.product),
    (.lido, Lido.Staked.wrapped.product), (.uniswapV3, UniswapV3.product), (.prices, Prices.product)]

theorem factories_make : List.Forall₂ Makes (factories (σ := σ)) labels :=
  .cons (makes_reserves .aToken) <| .cons (makes_reserves .variableDebt) <|
    .cons (makes_pools .supply) <| .cons (makes_pools .borrow) <|
    .cons (makes_markets .supply) <| .cons (makes_markets .borrow) <| .cons makes_vaults <|
    .cons (makes_staked .rebasing) <| .cons (makes_staked .wrapped) <|
    .cons makes_liquidity <| .cons makes_prices .nil

/-- What is made in a context has the keys of some of the products, in their order. -/
theorem keys_sublist {fs : List (AdapterFactory σ)} {ls : List Label}
    (h : List.Forall₂ Makes fs ls) (c : AdapterContext σ) :
    ((fs.filterMap fun f => f c).map Adapter.key).Sublist (ls.map fun label => label.key c) := by
  induction h with
  | nil => exact .refl _
  | @cons f label fs ls hf _ ih =>
    cases hmade : f c with
    | none =>
      have hskips : (f :: fs).filterMap (fun f => f c) = fs.filterMap fun f => f c :=
        List.filterMap_cons_none hmade
      exact hskips ▸ ih.cons _
    | some a =>
      have hkeeps : (f :: fs).filterMap (fun f => f c) = a :: fs.filterMap fun f => f c :=
        List.filterMap_cons_some hmade
      rw [hkeeps, List.map_cons, List.map_cons, (hf c a hmade).1]
      exact ih.cons_cons _

/-- No two products have the same key on a chain. -/
theorem nodup_keys (c : AdapterContext σ) :
    ((factories.filterMap fun f => f c).map Adapter.key).Nodup := by
  refine List.Nodup.sublist (keys_sublist factories_make c) (List.Nodup.map ?_ (by decide +kernel))
  rintro ⟨protocol, product⟩ ⟨protocol', product'⟩ h
  cases h
  rfl

/-- All that is made in a context is of its chain, and one of the adapters that are known. -/
theorem made_of_mem (h : a ∈ factories.filterMap fun f => f c) : a.key.chain = c.chain ∧ Made c a := by
  obtain ⟨f, hf, hmade⟩ := List.mem_filterMap.mp h
  obtain ⟨label, -, hmakes⟩ := forall₂_mem_right factories_make.flip hf
  obtain ⟨hkey, hmade⟩ := hmakes c a hmade
  exact ⟨congrArg ProductKey.chain hkey, hmade⟩

/-- Reading the listing of a product anew touches no store. -/
theorem Made.bypasses (h : Made c a) (store : MetadataStore σ) (keys : ProductKey → Prop) :
    a.Bypasses store keys := by
  cases h with
  | fungible k => exact k.bypasses c store keys
  | liquidity contracts => exact fun _ _ _ => Run.keeps_pure _

/-- A filter picks positions of every product that has tokens of its own. -/
theorem Made.picks (h : Made c a) (hc : c.Separate) (hprices : a.key.protocol ≠ .prices)
    (hliquidity : a.key.protocol ≠ .uniswapV3) : a.Picks c := by
  cases h with
  | fungible k =>
    refine FungibleProduct.picks hc ?_
    cases k with
    | announced | reserves | staked => rfl
    | prices feeds => exact absurd rfl hprices
  | liquidity contracts => exact absurd rfl hliquidity

end Catalogue

/-! ### Registries -/

namespace Registry

variable {r : Registry σ} {adapters : List (Adapter σ)}

/-- Adapters are registered one after the other when their keys are free and all different. -/
theorem exists_registerAll (hnodup : (adapters.map Adapter.key).Nodup)
    (hfree : ∀ a ∈ adapters, r.find? a.key = none) :
    ∃ r', r.registerAll adapters = .ok r' ∧ ∀ a, a ∈ r'.adapters ↔ a ∈ r.adapters ∨ a ∈ adapters := by
  induction adapters generalizing r with
  | nil => exact ⟨r, rfl, fun a => by simp⟩
  | cons b rest ih =>
    obtain ⟨hb, hrest⟩ := List.forall_mem_cons.mp hfree
    obtain ⟨hnew, hnodup⟩ := List.nodup_cons.mp hnodup
    obtain ⟨r₁, hregister⟩ := register_of_free hb
    have hfree₁ : ∀ a ∈ rest, r₁.find? a.key = none := by
      intro a ha
      have hne : b.key ≠ a.key := fun heq => hnew (heq ▸ List.mem_map_of_mem ha)
      rw [find?_register hregister, hrest a ha, Option.none_or]
      simp [firstOf, hne]
    obtain ⟨r', hall, hmem⟩ := ih hnodup hfree₁
    refine ⟨r', ?_, fun a => ?_⟩
    · rw [registerAll, hregister]
      exact hall
    · rw [hmem, (register_eq_ok hregister).1, mem_insertAdapter, List.mem_cons]
      exact or_assoc.trans or_left_comm

variable {providers : Chain → Option (Provider σ)} {store : Option (MetadataStore σ)}
  {memo : ProductKey → Slot σ TokenMemo}

theorem contexts_pairwise :
    (contexts providers store memo).Pairwise fun c c' => c.chain ≠ c'.chain := by
  have hchains : Chain.all.Nodup := by decide
  refine List.pairwise_filterMap.mpr (hchains.imp fun hne c hc c' hc' => ?_)
  obtain ⟨p, -, rfl⟩ := Option.map_eq_some_iff.mp hc
  obtain ⟨p', -, rfl⟩ := Option.map_eq_some_iff.mp hc'
  exact hne

/-- The products of the library have different keys across all chains. -/
theorem nodup_keys_of_contexts :
    (((contexts providers store memo).flatMap fun c =>
      Catalogue.factories.filterMap fun f => f c).map Adapter.key).Nodup := by
  rw [List.map_flatMap]
  refine List.nodup_flatMap.mpr ⟨fun c _ => Catalogue.nodup_keys c, ?_⟩
  refine contexts_pairwise.imp fun {c c'} hne key hkey hkey' => hne ?_
  obtain ⟨a, ha, rfl⟩ := List.mem_map.mp hkey
  obtain ⟨a', ha', heq⟩ := List.mem_map.mp hkey'
  rw [← (Catalogue.made_of_mem ha).1, ← (Catalogue.made_of_mem ha').1, heq]

/-- Products of the library are registered on every chain that has a node. -/
theorem exists_ofProviders (providers : Chain → Option (Provider σ)) (store : Option (MetadataStore σ))
    (memo : ProductKey → Slot σ TokenMemo) :
    ∃ r, ofProviders providers Catalogue.factories store memo = .ok r ∧
      ∀ a, a ∈ r.adapters ↔ ∃ chain p, providers chain = some p ∧
        ∃ f ∈ Catalogue.factories, f ⟨chain, p, store, memo⟩ = some a := by
  obtain ⟨r, hall, hmem⟩ :=
    exists_registerAll (r := empty providers) nodup_keys_of_contexts fun _ _ => rfl
  refine ⟨r, hall, fun a => ?_⟩
  rw [hmem]
  simp [empty, contexts, Chain.mem_all]

variable {config : Config} {connect : Chain → Provider σ}

/-- A configuration gives a registry of the library exactly when its nodes can be reached. -/
theorem ofConfig_ok_iff :
    (∃ r, ofConfig config connect Catalogue.factories store memo = .ok r) ↔
      ∀ chain, ∀ url ∈ config.rpc chain, isReachable url := by
  have hreach : (Chain.all.all fun c => (config.rpc c).all isReachable) = true ↔
      ∀ chain, ∀ url ∈ config.rpc chain, isReachable url := by
    simp [Chain.mem_all, Option.all_eq_true]
  unfold ofConfig
  rw [← hreach]
  constructor
  · rintro ⟨r, h⟩
    by_contra hnot
    rw [if_neg hnot] at h
    cases h
  · intro hall
    obtain ⟨r, hr, -⟩ :=
      exists_ofProviders (fun c => (config.rpc c).map fun _ => connect c) store memo
    exact ⟨r, (if_pos hall).trans hr⟩

/-- The registry of a configuration holds what is made on the chains of its nodes, and nothing else. Reading
a listing anew touches no store; and where memories are kept apart, each product that has tokens of its own,
prices apart, answers a filter with the positions that it picks. -/
theorem adapters_of_ofConfig (h : ofConfig config connect Catalogue.factories store memo = .ok r) :
    let context (chain : Chain) : AdapterContext σ := ⟨chain, connect chain, store, memo⟩
    (∀ a, a ∈ r.adapters ↔ ∃ chain, (config.rpc chain).isSome ∧
      ∃ f ∈ Catalogue.factories, f (context chain) = some a) ∧
    ∀ a ∈ r.adapters, (∀ disk keys, a.Bypasses disk keys) ∧
      ((context a.key.chain).Separate → a.key.protocol ≠ .prices → a.key.protocol ≠ .uniswapV3 →
        a.Picks (context a.key.chain)) := by
  intro context
  unfold ofConfig at h
  split at h
  · obtain ⟨r', hr', hmem⟩ :=
      exists_ofProviders (fun c => (config.rpc c).map fun _ => connect c) store memo
    obtain rfl := Except.ok.inj (hr'.symm.trans h)
    have hadapters (a : Adapter σ) : a ∈ r'.adapters ↔ ∃ chain, (config.rpc chain).isSome ∧
        ∃ f ∈ Catalogue.factories, f (context chain) = some a := by
      rw [hmem]
      simp [context, Option.isSome_iff_exists]
    refine ⟨hadapters, fun a ha => ?_⟩
    obtain ⟨chain, -, f, hf, hmade⟩ := (hadapters a).mp ha
    obtain ⟨rfl, hmade⟩ := Catalogue.made_of_mem (List.mem_filterMap.mpr ⟨f, hf, hmade⟩)
    exact ⟨hmade.bypasses, hmade.picks⟩
  · cases h

end Registry

end Chainfolio
