import Chainfolio.Prices
import Chainfolio.Proofs.Rates.Unwrap

/-! Amounts and prices against the true powers of ten. Amounts are words and a power of ten that is no word is
larger than all of them, so that the exact quotient is zero from there on. The power that is divided by is
wrapped, and the quotient by it is the exact one just where it vanishes too. -/
namespace Chainfolio

namespace Word

variable {decimals : UInt8} {n : Nat}

theorem toNat_pow10_eq_mod (decimals : UInt8) :
    (pow10 decimals).toNat = tenTo decimals.toNat % twoTo 256 := BitVec.toNat_ofNat ..

/-- A power of ten that is no word is larger than all words. -/
theorem lt_tenTo_of_maxDecimals_lt {k : Nat} (h : maxDecimals < k) (hn : n < twoTo 256) : n < tenTo k := by
  have hlimit : twoTo 256 ≤ tenTo (maxDecimals + 1) := by decide
  exact hn.trans_le (hlimit.trans (Nat.pow_le_pow_right (by decide) h))

/-- The quotient of a word by the wrapped power of ten is the one by the true power exactly if the power is a
word or the quotient vanishes. -/
theorem div_pow10_eq_iff (hn : n < twoTo 256) :
    n / (pow10 decimals).toNat = n / tenTo decimals.toNat ↔
      decimals.toNat ≤ maxDecimals ∨ n < (pow10 decimals).toNat := by
  rcases Nat.lt_or_ge maxDecimals decimals.toNat with hlarge | hsmall
  · rw [Nat.div_eq_of_lt (lt_tenTo_of_maxDecimals_lt hlarge hn), Nat.div_eq_zero_iff_lt (pow10_pos decimals)]
    exact (or_iff_right (Nat.not_le_of_lt hlarge)).symm
  · rw [toNat_pow10 hsmall]
    exact iff_of_true rfl (.inl hsmall)

end Word

namespace Prices

variable {answer price : Word} {feedDecimals : UInt8}

/-- An answer of few decimals is multiplied, as long as the product is a word. -/
theorem toNat_of_scaleAnswer_le (h : scaleAnswer answer feedDecimals = .ok price) (hle : feedDecimals ≤ decimals) :
    price.toNat = answer.toNat * tenTo (decimals.toNat - feedDecimals.toNat) := by
  have hplaces : (decimals - feedDecimals).toNat = decimals.toNat - feedDecimals.toNat :=
    UInt8.toNat_sub_of_le _ _ hle
  have hfew : (decimals - feedDecimals).toNat ≤ Word.maxDecimals := by
    rw [hplaces]
    exact (Nat.sub_le ..).trans (by decide)
  rw [scaleAnswer] at h
  split at h
  · cases h
  split at h
  · next p hproduct =>
    cases h
    rw [Word.toNat_mul? hproduct, Word.toNat_pow10 hfew, hplaces]
  · cases h

/-- An answer of many decimals is divided by the wrapped power of ten. -/
theorem toNat_of_scaleAnswer_gt (h : scaleAnswer answer feedDecimals = .ok price) (hgt : ¬ feedDecimals ≤ decimals) :
    price.toNat = answer.toNat / (Word.pow10 (feedDecimals - decimals)).toNat := by
  rw [scaleAnswer] at h
  split at h
  · cases h
  cases h
  exact BitVec.toNat_udiv

/-- The decimals that are divided out of an answer. -/
theorem toNat_sub_decimals (hgt : ¬ feedDecimals ≤ decimals) :
    (feedDecimals - decimals).toNat = feedDecimals.toNat - decimals.toNat :=
  UInt8.toNat_sub_of_le _ _ (UInt8.le_of_lt (UInt8.not_le.mp hgt))

/-- The price is the exact one just if the power of ten that is divided by is a word or larger than the answer
after it is wrapped. -/
theorem scaleAnswer_exact_iff (h : scaleAnswer answer feedDecimals = .ok price) :
    price.toNat = answer.toNat * tenTo decimals.toNat / tenTo feedDecimals.toNat ↔
      feedDecimals.toNat ≤ decimals.toNat + Word.maxDecimals ∨
        answer.toNat < tenTo (feedDecimals.toNat - decimals.toNat) % twoTo 256 := by
  by_cases hle : feedDecimals ≤ decimals
  · have hle' : feedDecimals.toNat ≤ decimals.toNat := UInt8.le_iff_toNat_le.mp hle
    refine iff_of_true ?_ (.inl (Nat.le_add_right_of_le hle'))
    rw [toNat_of_scaleAnswer_le h hle, ← Nat.sub_add_cancel hle', tenTo_add, ← Nat.mul_assoc,
      Nat.mul_div_cancel _ (tenTo_pos _), Nat.add_sub_cancel]
  · have hlt : decimals.toNat ≤ feedDecimals.toNat := by
      have := UInt8.lt_iff_toNat_lt.mp (UInt8.not_le.mp hle)
      omega
    have hquotient : answer.toNat * tenTo decimals.toNat / tenTo feedDecimals.toNat =
        answer.toNat / tenTo (feedDecimals - decimals).toNat := by
      rw [toNat_sub_decimals hle, ← Nat.sub_add_cancel hlt, tenTo_add, Nat.mul_div_mul_right _ _ (tenTo_pos _),
        Nat.add_sub_cancel]
    rw [toNat_of_scaleAnswer_gt h hle, hquotient, Word.div_pow10_eq_iff answer.isLt, Word.toNat_pow10_eq_mod,
      toNat_sub_decimals hle, Nat.sub_le_iff_le_add']

end Prices

/-- An amount is the exact one just if the power of ten of the protocol token is a word or larger than the product
after it is wrapped. -/
theorem UnderlyingRate.amount_exact_iff {r : UnderlyingRate} {decimals : UInt8} {balance : Word}
    (h : balance.toNat * r.rate.toNat < twoTo 256) :
    (r.amount decimals balance).toNat = balance.toNat * r.rate.toNat / tenTo decimals.toNat ↔
      decimals.toNat ≤ Word.maxDecimals ∨
        balance.toNat * r.rate.toNat < tenTo decimals.toNat % twoTo 256 := by
  rw [toNat_amount h, Word.div_pow10_eq_iff h, Word.toNat_pow10_eq_mod]

/-- Scaling by decimals is exact up to 77 of them. The amounts of a balance are its products with the rates
divided by the power of ten of the protocol token modulo `2 ^ 256`, and an amount is the floor of the exact
quotient just if the token has at most 77 decimals or the product is below that modulus. A price is the floor
of the exact one just if the feed has at most 77 decimals more than prices have or the answer is below the
modulus of the power of ten that is left. -/
theorem scaling_exact_iff (rate : UnwrapRate) (balance answer : Word) (feedDecimals : UInt8) :
    (∀ us : List Underlying, rate.underlyings balance = .ok us →
      List.Forall₂ (fun (r : UnderlyingRate) (u : Underlying) =>
        u.token = r.token ∧ u.kind = r.kind ∧
        u.balance.toNat =
          balance.toNat * r.rate.toNat / (tenTo rate.token.decimals.toNat % twoTo 256) ∧
        (u.balance.toNat = balance.toNat * r.rate.toNat / tenTo rate.token.decimals.toNat ↔
          rate.token.decimals.toNat ≤ 77 ∨
            balance.toNat * r.rate.toNat < tenTo rate.token.decimals.toNat % twoTo 256)) rate.tokens us) ∧
    ∀ price : Word, Prices.scaleAnswer answer feedDecimals = .ok price →
      (price.toNat = answer.toNat * tenTo 18 / tenTo feedDecimals.toNat ↔
        feedDecimals.toNat ≤ 95 ∨ answer.toNat < tenTo (feedDecimals.toNat - 18) % twoTo 256) := by
  refine ⟨fun us h => ?_, fun price h => Prices.scaleAnswer_exact_iff h⟩
  obtain ⟨hconverts, rfl⟩ := UnwrapRate.underlyings_eq_ok_iff.mp h
  rw [UnwrapRate.amounts, List.forall₂_map_right_iff, List.forall₂_same]
  intro r hr
  refine ⟨rfl, rfl, ?_, UnderlyingRate.amount_exact_iff (hconverts r hr)⟩
  rw [← Word.toNat_pow10_eq_mod]
  exact UnderlyingRate.toNat_amount (hconverts r hr)

/-- An amount of a token of 78 decimals is less than one unit, and it is none; a feed of 94 decimals is exact to
its last unit. -/
theorem scaling_exact_iff_fine :
    let dollar : Token := ⟨⟨0xD⟩, "Dollar", "D", 18⟩
    let fine : Token := ⟨⟨0xF⟩, "Fine", "F", 78⟩
    let one : Word := BitVec.ofNat 256 (tenTo 38)
    let rate : UnwrapRate := { token := fine, tokens := [{ token := dollar, rate := one }] }
    let answer : Word := BitVec.ofNat 256 (3 * tenTo 76)
    (rate.underlyings one = .ok [.leaf dollar 0 .underlying] ∧ 0 = one.toNat * one.toNat / tenTo 78) ∧
      Prices.scaleAnswer answer 94 = .ok 3 ∧ 3 = answer.toNat * tenTo 18 / tenTo 94 := by
  intro dollar fine one rate answer
  obtain ⟨hamounts, hprices⟩ := scaling_exact_iff rate one answer 94
  have hus : rate.underlyings one = .ok [.leaf dollar 0 .underlying] := by
    dsimp only [rate, fine, dollar, one]
    rfl
  have hprice : Prices.scaleAnswer answer 94 = .ok 3 := by
    dsimp only [answer]
    rfl
  obtain ⟨-, -, -, hexact⟩ := (List.forall₂_cons.mp (hamounts _ hus)).1
  refine ⟨⟨hus, hexact.mpr (.inr ?_)⟩, hprice, (hprices 3 hprice).mpr (.inl (by decide))⟩
  decide

/-- Of a token of 78 decimals an amount that is smaller than one unit comes out as one, and a feed of 97 decimals
whose answer is less than one unit of a price gives one, too. -/
theorem scaling_wraps :
    let dollar : Token := ⟨⟨0xD⟩, "Dollar", "D", 18⟩
    let fine : Token := ⟨⟨0xF⟩, "Fine", "F", 78⟩
    let rate : UnwrapRate := { token := fine, tokens := [{ token := dollar, rate := BitVec.ofNat 256 (tenTo 39) }] }
    (rate.underlyings (BitVec.ofNat 256 (tenTo 38)) = .ok [.leaf dollar 1 .underlying] ∧
      tenTo 38 * tenTo 39 / tenTo 78 = 0) ∧
    Prices.scaleAnswer (BitVec.ofNat 256 (5 * tenTo 76)) 97 = .ok 1 ∧ 5 * tenTo 76 * tenTo 18 / tenTo 97 = 0 := by
  refine ⟨⟨?_, ?_⟩, ?_, ?_⟩
  · rfl
  · decide
  · rfl
  · decide

end Chainfolio
