import Chainfolio.Market.Accrual
import Chainfolio.Proofs.Market.Shares

/-! Interest accrual over the natural numbers. When an accrual succeeds nothing has wrapped: both totals
have grown by the exact interest, and the supply shares by the exact shares that pay the fee. -/
namespace Chainfolio

namespace FixedPoint

/-- What a unit of `10 ^ 18` earns at a rate per second: three terms of the exponential, each rounded
down. -/
def exactGrowth (rate seconds : Nat) : Nat :=
  let first := rate * seconds
  let second := first * first / (2 * tenTo 18)
  first + second + second * first / (3 * tenTo 18)

@[simp] theorem exactGrowth_zero (rate : Nat) : exactGrowth rate 0 = 0 := by
  simp [exactGrowth]

/-- The checked products keep the unchecked sum of the three terms in range. -/
theorem toNat_wTaylorCompounded {x n growth : Word} (h : wTaylorCompounded x n = .ok growth) :
    growth.toNat = exactGrowth x.toNat n.toNat := by
  simp only [wTaylorCompounded, bind_eq_ok_iff, checked_eq_ok_iff, Word.mul?_eq_some_iff,
    mulDivDown_eq_ok_iff, pure, Except.pure, Except.ok.injEq] at h
  obtain ⟨first, hfirst, second, ⟨-, hsquare, hsecond⟩, third, ⟨-, hcube, hthird⟩, rfl⟩ := h
  have htwo : (wad * 2).toNat = 2 * tenTo 18 := by decide
  have hthree : (wad * 3).toNat = 3 * tenTo 18 := by decide
  rw [htwo] at hsecond
  rw [hthree] at hthird
  -- a square below the limit has a root below the limit's root
  have hroot : first.toNat < twoTo 128 := by
    by_contra hge
    have hmul := Nat.mul_le_mul (not_lt.mp hge) (not_lt.mp hge)
    rw [← twoTo_add 128 128] at hmul
    exact absurd hsquare (not_lt.mpr hmul)
  have hsecond' : second.toNat < twoTo 254 := by
    rw [hsecond, Nat.div_lt_iff_lt_mul (by decide)]
    exact lt_of_lt_of_le hsquare (by decide)
  have hthird' : third.toNat < twoTo 254 := by
    rw [hthird, Nat.div_lt_iff_lt_mul (by decide)]
    exact lt_of_lt_of_le hcube (by decide)
  have hlimit : twoTo 128 + twoTo 254 + twoTo 254 ≤ twoTo 256 := by decide
  have hsum : (first + second).toNat = first.toNat + second.toNat :=
    BitVec.toNat_add_of_lt (show first.toNat + second.toNat < twoTo 256 by omega)
  rw [BitVec.toNat_add_of_lt (show (first + second).toNat + third.toNat < twoTo 256 by omega),
    hsum, hthird, hsecond, hfirst, exactGrowth]

end FixedPoint

namespace MarketState

variable {m accrued : MarketState} {rate : Word} {timestamp : UInt64}

/-- The interest that the borrowers of a market owe at a time. -/
def exactInterest (m : MarketState) (rate : Word) (timestamp : UInt64) : Nat :=
  m.totalBorrowAssets.toNat * FixedPoint.exactGrowth rate.toNat (m.elapsed timestamp) / tenTo 18

/-- The part of some interest that is kept as a fee. -/
def exactFee (m : MarketState) (interest : Nat) : Nat := interest * m.fee.toNat / tenTo 18

/-- The shares that the fee buys of a supply that holds the interest without the fee. -/
def exactFeeShares (m : MarketState) (interest : Nat) : Nat :=
  m.exactFee interest * (m.totalSupplyShares.toNat + 1000000) /
    (m.totalSupplyAssets.toNat + interest - m.exactFee interest + 1)

theorem exactFee_le (hfee : m.fee.toNat ≤ tenTo 18) (interest : Nat) :
    m.exactFee interest ≤ interest := by
  apply Nat.div_le_of_le_mul
  rw [Nat.mul_comm (tenTo 18)]
  exact Nat.mul_le_mul_left interest hfee

theorem field_eq_ok_iff {w : Word} {h : HalfWord} : field w = .ok h ↔ h.toNat = w.toNat := by
  have hlt : h.toNat < twoTo 128 := h.isLt
  by_cases hw : w.toNat < twoTo 128
  · have hvalue : (w.setWidth 128 : HalfWord).toNat = w.toNat := by
      rw [BitVec.toNat_setWidth]
      exact Nat.mod_eq_of_lt hw
    simp only [field, Word.toHalf?, hw, if_true, Except.ok.injEq]
    rw [← BitVec.toNat_inj, hvalue, eq_comm]
  · simp only [field, Word.toHalf?, hw, if_false, reduceCtorEq, false_iff]
    omega

theorem interest_ok {seconds : Nat} {interest : Word} (hs : seconds < twoTo 64)
    (h : m.interest rate seconds = .ok interest) :
    interest.toNat * tenTo 18 < twoTo 256 ∧
      interest.toNat =
        m.totalBorrowAssets.toNat * FixedPoint.exactGrowth rate.toNat seconds / tenTo 18 := by
  have hwad : FixedPoint.wad.toNat = tenTo 18 := by decide
  have hseconds : (BitVec.ofNat 256 seconds).toNat = seconds := by
    rw [BitVec.toNat_ofNat]
    exact Nat.mod_eq_of_lt (lt_trans hs (show twoTo 64 < twoTo 256 by decide))
  simp only [MarketState.interest, bind_eq_ok_iff, FixedPoint.wMulDown,
    FixedPoint.mulDivDown_eq_ok_iff, HalfWord.toNat_widen, hwad] at h
  obtain ⟨growth, hgrowth, -, hfits, hvalue⟩ := h
  have hgrowth := FixedPoint.toNat_wTaylorCompounded hgrowth
  rw [hseconds] at hgrowth
  rw [hgrowth] at hfits hvalue
  refine ⟨lt_of_le_of_lt ?_ hfits, hvalue⟩
  rw [hvalue]
  exact Nat.div_mul_le_self _ _

/-- Nothing wraps while the fee is minted, since some supply is left when the fee is taken off. -/
theorem sharesWithFee_ok {interest : Word} {supply shares : HalfWord}
    (hfee : m.fee.toNat ≤ tenTo 18) (hsupplied : 0 < m.totalSupplyAssets.toNat)
    (hsupply : supply.toNat = m.totalSupplyAssets.toNat + interest.toNat)
    (h : m.sharesWithFee interest supply = .ok shares) :
    shares.toNat = m.totalSupplyShares.toNat + m.exactFeeShares interest.toNat := by
  unfold sharesWithFee at h
  split at h
  · next hzero =>
    cases h
    simp [exactFeeShares, exactFee, hzero]
  have hwad : FixedPoint.wad.toNat = tenTo 18 := by decide
  simp only [bind_eq_ok_iff, FixedPoint.wMulDown, Shares.ofAssetsDown,
    FixedPoint.mulDivDown_eq_ok_iff, field_eq_ok_iff, HalfWord.toNat_widen,
    HalfWord.toNat_widen_add_virtualShares, hwad] at h
  obtain ⟨feeAmount, ⟨-, -, hamount⟩, minted, ⟨-, hfits, hminted⟩, hshares⟩ := h
  have hamount : feeAmount.toNat = m.exactFee interest.toNat := hamount
  have hle := exactFee_le hfee interest.toNat
  rw [HalfWord.toNat_widen_sub_add_virtualAssets (by omega), hsupply, hamount] at hminted
  rw [hamount] at hfits
  have hhalf : minted.toNat < twoTo 255 := by
    rw [hminted, Nat.div_lt_iff_lt_mul (by omega)]
    calc m.exactFee interest.toNat * (m.totalSupplyShares.toNat + 1000000)
        < twoTo 256 := hfits
      _ = twoTo 255 * 2 := twoTo_succ 255
      _ ≤ twoTo 255 * (m.totalSupplyAssets.toNat + interest.toNat -
            m.exactFee interest.toNat + 1) := Nat.mul_le_mul_left _ (by omega)
  rw [hshares, HalfWord.toNat_widen_add hhalf, hminted, exactFeeShares]

/-- What an accrual has added to a market. -/
structure Accrues (m accrued : MarketState) (interest : Nat) : Prop where
  borrowAssets : accrued.totalBorrowAssets.toNat = m.totalBorrowAssets.toNat + interest
  supplyAssets : accrued.totalSupplyAssets.toNat = m.totalSupplyAssets.toNat + interest
  supplyShares :
    accrued.totalSupplyShares.toNat = m.totalSupplyShares.toNat + m.exactFeeShares interest
  borrowShares : accrued.totalBorrowShares = m.totalBorrowShares
  fee : accrued.fee = m.fee

theorem Accrues.refl (m : MarketState) : Accrues m m 0 := by
  constructor <;> simp [exactFeeShares, exactFee]

/-- An accrual that succeeds adds the exact interest and the exact fee shares. -/
theorem accrue_ok (hlent : m.totalBorrowAssets.toNat ≤ m.totalSupplyAssets.toNat)
    (hfee : m.fee.toNat ≤ tenTo 18) (h : m.accrue rate timestamp = .ok accrued) :
    Accrues m accrued (m.exactInterest rate timestamp) := by
  unfold accrue at h
  split at h
  · next hidle =>
    cases h
    have hnone : m.exactInterest rate timestamp = 0 := by
      rcases hidle with hnow | hnothing
      · simp [exactInterest, hnow]
      · simp [exactInterest, hnothing]
    rw [hnone]
    exact Accrues.refl m
  · next hactive =>
    obtain ⟨-, hborrowed⟩ := not_or.mp hactive
    have hsupplied : 0 < m.totalSupplyAssets.toNat := by
      have hpos : m.totalBorrowAssets.toNat ≠ 0 := fun h0 => hborrowed (BitVec.eq_of_toNat_eq h0)
      omega
    simp only [bind_eq_ok_iff, field_eq_ok_iff, pure, Except.pure, Except.ok.injEq] at h
    obtain ⟨interest, hinterest, borrow, hborrow, supply, hsupply, shares, hshares, rfl⟩ := h
    have hseconds : m.elapsed timestamp < twoTo 64 :=
      lt_of_le_of_lt (Nat.sub_le _ _) timestamp.toNat_lt
    obtain ⟨hsmall, hvalue⟩ := interest_ok hseconds hinterest
    have hvalue : interest.toNat = m.exactInterest rate timestamp := hvalue
    have hhalf : interest.toNat < twoTo 255 :=
      Nat.lt_of_mul_lt_mul_right
        (lt_of_lt_of_le hsmall (show twoTo 256 ≤ twoTo 255 * tenTo 18 by decide))
    rw [HalfWord.toNat_widen_add hhalf] at hborrow hsupply
    have hminted := sharesWithFee_ok hfee hsupplied hsupply hshares
    rw [hvalue] at hborrow hsupply hminted
    exact ⟨hborrow, hsupply, hminted, rfl, rfl⟩

end MarketState

end Chainfolio
