import Chainfolio.Proofs.Rates.Unwrap
import Chainfolio.Proofs.Resolution.Extension

/-! Rates beside positions. One whole protocol token is worth its rates, whatever its decimals are, so that
resolving a rate is resolving a position of one whole token. -/
namespace Chainfolio

/-- A whole token, multiplied by a rate and divided by itself, gives back the rate. -/
theorem UnwrapRate.amounts_pow10 {rate : UnwrapRate}
    (h : rate.Converts (Word.pow10 rate.token.decimals).toNat) :
    rate.amounts (Word.pow10 rate.token.decimals) = Resolution.rateAmounts rate := by
  refine List.map_congr_left fun r hr => ?_
  have hrate : r.amount rate.token.decimals (Word.pow10 rate.token.decimals) = r.rate := by
    apply BitVec.eq_of_toNat_eq
    rw [UnderlyingRate.toNat_amount (h r hr), Nat.mul_div_cancel_left _ (Word.pow10_pos _)]
  rw [hrate]

theorem UnwrapRate.underlyings_pow10_eq_ok_iff {rate : UnwrapRate} {us : List Underlying} :
    rate.underlyings (Word.pow10 rate.token.decimals) = .ok us ↔
      rate.Converts (Word.pow10 rate.token.decimals).toNat ∧ us = Resolution.rateAmounts rate := by
  rw [underlyings_eq_ok_iff]
  exact and_congr_right fun h => by rw [amounts_pow10 h]

namespace Resolution

/-- A single position is resolved when its amounts are. -/
theorem positions_singleton {τ : Type} (o : Oracle τ) (options : Options) (p : Position) (s : τ) :
    positions o options [p] s =
      ((resolve o options p.tokens s).1.map fun us => [{ p with tokens := us }],
        (resolve o options p.tokens s).2) := by
  rcases h : resolve o options p.tokens s with ⟨e | us, s'⟩
  · exact Run.bind_error (Run.bind_error h)
  · exact Run.bind_ok (Run.bind_ok h)

/-- Resolving a rate is resolving one whole token. The power of ten of the protocol token, wrapped or not,
can be converted as a balance exactly when its products with the rates fit a word. Then a position of this
balance and of the amounts that it is worth is resolved as the rate is: to the same forest or with the same
failure, and with the same questions asked on the way. -/
theorem rate_eq_whole_position {σ : Type} (chain : Chain) (block : Option Block) (options : Options)
    (r : UnwrapRate) (s : Registry σ × σ) :
    ((∃ us, r.underlyings (Word.pow10 r.token.decimals) = .ok us) ↔
      ∀ u ∈ r.tokens, u.rate.toNat * (tenTo r.token.decimals.toNat % twoTo 256) < twoTo 256) ∧
    ∀ (us : List Underlying) (p : Position), r.underlyings (Word.pow10 r.token.decimals) = .ok us →
      p.balance = Word.pow10 r.token.decimals → p.tokens = us →
      positions (Registry.oracle chain block) options [p] s =
        ((rate (Registry.oracle chain block) options r s).1.map fun vs => [{ p with tokens := vs }],
          (rate (Registry.oracle chain block) options r s).2) := by
  have hconverts : r.Converts (Word.pow10 r.token.decimals).toNat ↔
      ∀ u ∈ r.tokens, u.rate.toNat * (tenTo r.token.decimals.toNat % twoTo 256) < twoTo 256 := by
    refine forall₂_congr fun u _ => ?_
    rw [Word.pow10, BitVec.toNat_ofNat, Nat.mul_comm]
    rfl
  refine ⟨?_, fun us p hus _ htokens => ?_⟩
  · simp only [UnwrapRate.underlyings_pow10_eq_ok_iff, exists_and_left, exists_eq, and_true, hconverts]
  · obtain ⟨-, rfl⟩ := UnwrapRate.underlyings_pow10_eq_ok_iff.mp hus
    rw [positions_singleton, htokens]
    rfl

/-- A token with so many decimals that their power of ten wraps, worth a thousand units of a token that is
unwrapped twice. -/
theorem rate_eq_whole_position_wrapped :
    let a : Token := ⟨⟨0xA⟩, "Vault A", "vA", 2⟩
    let b : Token := ⟨⟨0xB⟩, "Vault B", "vB", 3⟩
    let fine : Token := ⟨⟨0xC⟩, "Fine", "F", 117⟩
    let r : UnwrapRate := { token := fine, tokens := [{ token := a, rate := 1000 }] }
    let oracle := Registry.oracle (σ := Nat) .ethereum none
    let s := (Registry.cycle a b, 0)
    let p : Position :=
      { token := fine, balance := Word.pow10 117, tokens := [.leaf a 1000 .underlying] }
    let vs : List Underlying :=
      [⟨a, 1000, .underlying, [⟨b, 10000, .underlying, [.leaf a 1000 .underlying]⟩]⟩]
    (∀ u ∈ r.tokens, u.rate.toNat * (tenTo r.token.decimals.toNat % twoTo 256) < twoTo 256) ∧
      (∃ us, r.underlyings (Word.pow10 117) = .ok us) ∧
      r.underlyings (Word.pow10 117) = .ok p.tokens ∧
      (rate oracle { depth := 2 } r s).1 = .ok vs ∧
      (positions oracle { depth := 2 } [p] s).1 = .ok [{ p with tokens := vs }] := by
  intro a b fine r oracle s p vs
  have hfits : ∀ u ∈ r.tokens,
      u.rate.toNat * (tenTo r.token.decimals.toNat % twoTo 256) < twoTo 256 := by decide +kernel
  have hamounts : r.underlyings (Word.pow10 117) = .ok p.tokens := by
    simp only [r, p, fine, a]
    rfl
  have hrate : (rate oracle { depth := 2 } r s).1 = .ok vs := by
    simp only [oracle, r, s, vs, fine, a, b]
    rfl
  obtain ⟨hconverts, hresolved⟩ := rate_eq_whole_position .ethereum none { depth := 2 } r s
  refine ⟨hfits, hconverts.mpr hfits, hamounts, hrate, ?_⟩
  rw [hresolved p.tokens p hamounts rfl rfl, hrate]
  rfl

end Resolution

end Chainfolio
