import Chainfolio.Proofs.Run
import Chainfolio.Proofs.Underlying
import Chainfolio.Valuation.Balance

/-! Which amounts make a valuation fail for want of a price: those with nothing below them that no price
stands above. All other failures are arithmetic ones. -/
namespace Chainfolio

/-- `Unpriced us token`: somewhere in the forest stands an amount of `token` with nothing below it, and
neither this amount nor one that it is below is a price. -/
inductive Underlying.Unpriced : List Underlying → Token → Prop
  | here {token balance kind us} (hkind : kind ≠ .fiat) :
      Unpriced (⟨token, balance, kind, []⟩ :: us) token
  | under {token balance kind below us leaf} (hkind : kind ≠ .fiat) (h : Unpriced below leaf) :
      Unpriced (⟨token, balance, kind, below⟩ :: us) leaf
  | later {u us leaf} (h : Unpriced us leaf) : Unpriced (u :: us) leaf

section
variable {a : Address}

theorem Valuation.add_ne_missing {x y : Decimal} : Valuation.add x y ≠ .error (.missingFiatLeaf a) := by
  unfold Valuation.add
  split <;> simp

theorem Wei.toDecimal_ne_missing {balance : Word} {decimals : UInt32} :
    Wei.toDecimal balance decimals ≠ some (.error (.missingFiatLeaf a)) := by
  intro h
  obtain ⟨⟨mantissa, scale⟩, -, h⟩ := Option.map_eq_some_iff.mp h
  dsimp only at h
  split at h <;> simp at h

theorem Valuation.amount_ne_missing {balance : Word} {decimals : UInt8} :
    Valuation.amount balance decimals ≠ .error (.missingFiatLeaf a) := by
  unfold Valuation.amount
  cases h : Wei.toDecimal balance decimals.toUInt32 with
  | none => simp
  | some r =>
    rintro rfl
    exact Wei.toDecimal_ne_missing h

theorem Valuation.priced_ne_missing {token : Token} {balance : Word} {price : Underlying} :
    Valuation.priced token balance price ≠ .error (.missingFiatLeaf a) := by
  intro h
  rcases bind_eq_error_iff.mp h with h | ⟨amount, -, h⟩
  · exact Valuation.amount_ne_missing h
  rcases bind_eq_error_iff.mp h with h | ⟨rate, -, h⟩
  · exact Valuation.amount_ne_missing h
  split at h <;> simp at h

theorem Balances.credit_ne_missing {b : FiatBalance} {balances : Balances} :
    balances.credit b ≠ .error (.missingFiatLeaf a) := by
  intro h
  unfold Balances.credit at h
  split at h
  · cases h
  · rcases bind_eq_error_iff.mp h with h | ⟨value, -, h⟩
    · exact Valuation.add_ne_missing h
    · cases h

namespace Underlying

/-- An amount lacks a price when nothing is below it, or when the sum of what is below it lacks one and
there is no price among it. -/
theorem value_eq_missing {token : Token} {balance : Word} {kind : TokenKind} {below : List Underlying}
    (h : value ⟨token, balance, kind, below⟩ = .error (.missingFiatLeaf a)) :
    (below = [] ∧ token.address = a) ∨
      (∀ u ∈ below, u.kind ≠ .fiat) ∧ sumValues below .zero = .error (.missingFiatLeaf a) := by
  unfold value at h
  split at h
  · exact absurd h Valuation.priced_ne_missing
  · rename_i hnone
    cases below with
    | nil =>
      cases h
      exact .inl ⟨rfl, rfl⟩
    | cons u us => exact .inr ⟨by simpa using hnone, h⟩

/-- A sum of amounts that are no prices lacks a price of an amount among them or below them. -/
theorem sumValues_eq_missing {us : List Underlying} {sum : Decimal}
    (h : sumValues us sum = .error (.missingFiatLeaf a)) (hprices : ∀ u ∈ us, u.kind ≠ .fiat) :
    ∃ token, Unpriced us token ∧ token.address = a := by
  induction us using forest_induction generalizing sum with
  | nil => cases h
  | cons token balance kind below us ihbelow ihus =>
    obtain ⟨hkind, hprices⟩ := List.forall_mem_cons.mp hprices
    rw [sumValues] at h
    rcases bind_eq_error_iff.mp h with hvalue | ⟨v, -, h⟩
    · rcases value_eq_missing hvalue with ⟨rfl, ha⟩ | ⟨hbelow, hsum⟩
      · exact ⟨token, .here hkind, ha⟩
      · obtain ⟨leaf, hleaf, ha⟩ := ihbelow hsum hbelow
        exact ⟨leaf, .under hkind hleaf, ha⟩
    · rcases bind_eq_error_iff.mp h with hadd | ⟨sum', -, h⟩
      · exact absurd hadd Valuation.add_ne_missing
      · obtain ⟨leaf, hleaf, ha⟩ := ihus h hprices
        exact ⟨leaf, .later hleaf, ha⟩

end Underlying

/-- A position that consists of something lacks a price of what it consists of. -/
theorem Position.value_eq_missing {p : Position} (h : p.value = .error (.missingFiatLeaf a))
    (htokens : p.tokens ≠ []) : ∃ token, Underlying.Unpriced p.tokens token ∧ token.address = a := by
  rcases Underlying.value_eq_missing h with ⟨hnil, -⟩ | ⟨hprices, hsum⟩
  · exact absurd hnil htokens
  · exact Underlying.sumValues_eq_missing hsum hprices

theorem Balances.ofPositions_eq_missing {ps : List Position} {balances : Balances}
    (h : Balances.ofPositions ps balances = .error (.missingFiatLeaf a)) :
    ∃ p ∈ ps, p.value = .error (.missingFiatLeaf a) := by
  induction ps generalizing balances with
  | nil => cases h
  | cons p ps ih =>
    rcases bind_eq_error_iff.mp h with hvalue | ⟨v, -, h⟩
    · exact ⟨p, List.mem_cons_self, hvalue⟩
    rcases bind_eq_error_iff.mp h with hcredit | ⟨balances', -, h⟩
    · exact absurd hcredit Balances.credit_ne_missing
    · obtain ⟨q, hq, hvalue⟩ := ih h
      exact ⟨q, List.mem_cons_of_mem _ hq, hvalue⟩

end

end Chainfolio
