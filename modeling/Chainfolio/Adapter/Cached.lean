import Chainfolio.Adapter.Basic

/-! Adapters whose listing is read through a cache; all other operations stay as they are. -/
namespace Chainfolio

/-- The adapter with its listing behind a cache under its own key. -/
def Adapter.cached {σ : Type} (inner : Adapter σ) (store : Option (MetadataStore σ))
    (memo : Slot σ TokenMemo) : Adapter σ :=
  { inner with
    protocolTokens := TokenCache.getOrFetch ⟨inner.key, store, memo⟩ inner.fetchProtocolTokens }

end Chainfolio
