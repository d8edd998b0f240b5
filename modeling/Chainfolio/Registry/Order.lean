import Chainfolio.Product

/-! The order of product keys: by chain, then by protocol, then by the text of the product. -/
namespace Chainfolio.ProductKey

def Before (a b : ProductKey) : Prop :=
  a.chain.rank < b.chain.rank ∨ a.chain.rank = b.chain.rank ∧
    (a.protocol.rank < b.protocol.rank ∨ a.protocol.rank = b.protocol.rank ∧ a.product < b.product)

instance (a b : ProductKey) : Decidable (a.Before b) := by
  unfold Before
  infer_instance

theorem before_irrefl (a : ProductKey) : ¬ a.Before a := by
  rintro (h | ⟨_, h | ⟨_, h⟩⟩)
  · exact Nat.lt_irrefl _ h
  · exact Nat.lt_irrefl _ h
  · exact String.lt_irrefl _ h

theorem before_trans {a b c : ProductKey} (h : a.Before b) (h' : b.Before c) : a.Before c := by
  unfold Before at *
  rcases h with h | ⟨h1, h | ⟨h2, h⟩⟩
  · rcases h' with h' | ⟨h', _⟩ <;> exact Or.inl (by omega)
  · rcases h' with h' | ⟨h1', h' | ⟨h2', _⟩⟩
    · exact Or.inl (by omega)
    · exact Or.inr ⟨by omega, Or.inl (by omega)⟩
    · exact Or.inr ⟨by omega, Or.inl (by omega)⟩
  · rcases h' with h' | ⟨h1', h' | ⟨h2', h'⟩⟩
    · exact Or.inl (by omega)
    · exact Or.inr ⟨by omega, Or.inl (by omega)⟩
    · exact Or.inr ⟨by omega, Or.inr ⟨by omega, String.lt_trans h h'⟩⟩

/-- Two different keys have an order. -/
theorem before_or_before {a b : ProductKey} (h : a ≠ b) : a.Before b ∨ b.Before a := by
  unfold Before
  rcases Nat.lt_trichotomy a.chain.rank b.chain.rank with hc | hc | hc
  · exact Or.inl (Or.inl hc)
  · rcases Nat.lt_trichotomy a.protocol.rank b.protocol.rank with hp | hp | hp
    · exact Or.inl (Or.inr ⟨hc, Or.inl hp⟩)
    · by_cases ht : a.product < b.product
      · exact Or.inl (Or.inr ⟨hc, Or.inr ⟨hp, ht⟩⟩)
      · have hne : a.product ≠ b.product := by
          intro ht
          exact h ((ProductKey.mk.injEq ..).mpr ⟨Chain.rank_inj hc, Protocol.rank_inj hp, ht⟩)
        exact Or.inr (Or.inr ⟨hc.symm, Or.inr ⟨hp.symm, Std.lt_of_le_of_ne ht hne.symm⟩⟩)
    · exact Or.inr (Or.inr ⟨hc.symm, Or.inl hp⟩)
  · exact Or.inr (Or.inl hc)

end Chainfolio.ProductKey
