import Mathlib.Tactic.Ring
import Chainfolio.Proofs.Market.Accrual

/-! Interest accrual takes nothing from holders. The fee is paid in shares at a price that leaves the
rest of the interest to the suppliers, so that a share is worth no less than before. -/
namespace Chainfolio.MarketState

variable {m accrued : MarketState} {interest : Nat}

/-- The fee shares are at most what the fee buys of the supply without the fee. -/
theorem exactFeeShares_mul_le (m : MarketState) (interest : Nat) :
    m.exactFeeShares interest *
        (m.totalSupplyAssets.toNat + interest - m.exactFee interest + 1) ≤
      m.exactFee interest * (m.totalSupplyShares.toNat + 1000000) :=
  Nat.div_mul_le_self _ _

/-- The price of a share, assets over shares, does not fall. -/
theorem Accrues.price_le (h : Accrues m accrued interest) (hfee : m.fee.toNat ≤ tenTo 18) :
    (m.totalSupplyAssets.toNat + 1) * (accrued.totalSupplyShares.toNat + 1000000) ≤
      (accrued.totalSupplyAssets.toNat + 1) * (m.totalSupplyShares.toNat + 1000000) := by
  have hle := exactFee_le hfee interest
  have hminted : (m.totalSupplyAssets.toNat + 1) * m.exactFeeShares interest ≤
      interest * (m.totalSupplyShares.toNat + 1000000) :=
    calc (m.totalSupplyAssets.toNat + 1) * m.exactFeeShares interest
        ≤ (m.totalSupplyAssets.toNat + interest - m.exactFee interest + 1) *
            m.exactFeeShares interest := Nat.mul_le_mul_right _ (by omega)
      _ ≤ m.exactFee interest * (m.totalSupplyShares.toNat + 1000000) := by
          rw [Nat.mul_comm]
          exact exactFeeShares_mul_le m interest
      _ ≤ interest * (m.totalSupplyShares.toNat + 1000000) := Nat.mul_le_mul_right _ hle
  rw [h.supplyShares, h.supplyAssets]
  linarith

/-- At a price that has not fallen, shares are worth no less. -/
theorem floor_le_floor_of_price_le {shares assets total assets' total' : Nat} (htotal : 0 < total)
    (htotal' : 0 < total') (hassets : 0 < assets) (h : assets * total' ≤ assets' * total) :
    shares * assets / total ≤ shares * assets' / total' := by
  rw [Nat.le_div_iff_mul_le htotal']
  apply Nat.le_of_mul_le_mul_left _ (Nat.mul_pos hassets htotal)
  have hfloor := Nat.div_mul_le_self (shares * assets) total
  calc assets * total * (shares * assets / total * total')
      = (shares * assets / total * total) * (assets * total') := by ring
    _ ≤ shares * assets * (assets' * total) := Nat.mul_le_mul hfloor h
    _ = assets * total * (shares * assets') := by ring

/-- The fee shares together are worth no more than the fee. -/
theorem Accrues.minted_worth_le (h : Accrues m accrued interest) (hfee : m.fee.toNat ≤ tenTo 18) :
    m.exactFeeShares interest * (accrued.totalSupplyAssets.toNat + 1) /
      (accrued.totalSupplyShares.toNat + 1000000) ≤ m.exactFee interest := by
  have hle := exactFee_le hfee interest
  have hminted := exactFeeShares_mul_le m interest
  apply Nat.div_le_of_le_mul
  rw [h.supplyAssets, h.supplyShares]
  obtain ⟨rest, hrest⟩ : ∃ rest, m.totalSupplyAssets.toNat + interest =
      rest + m.exactFee interest := ⟨_, (Nat.sub_add_cancel (by omega)).symm⟩
  rw [hrest] at hminted ⊢
  rw [Nat.add_sub_cancel] at hminted
  linarith

/-- Debt in shares grows with the borrowed assets. -/
theorem Accrues.debt_le (h : Accrues m accrued interest) {shares before after : Word}
    (hbefore : MarketSide.borrow.toAssets shares m = .ok before)
    (hafter : MarketSide.borrow.toAssets shares accrued = .ok after) :
    before.toNat ≤ after.toNat := by
  rw [(MarketSide.borrow_toAssets_eq_ok_iff.mp hbefore).2,
    (MarketSide.borrow_toAssets_eq_ok_iff.mp hafter).2, h.borrowShares, h.borrowAssets,
    ceilDiv_le_iff_le_mul (by omega)]
  calc shares.toNat * (m.totalBorrowAssets.toNat + 1)
      ≤ shares.toNat * (m.totalBorrowAssets.toNat + interest + 1) :=
        Nat.mul_le_mul_left _ (by omega)
    _ ≤ _ := (ceilDiv_le_iff_le_mul (by omega)).mp le_rfl

/-- Interest accrual takes nothing from holders. What any supplier of the market owns can be told
before and after and has not become less, no debt has become less, and the shares minted as the fee are
worth at most the fee's part of the interest. -/
theorem accrue_never_dilutes {rate : Word} {timestamp : UInt64}
    (hlent : m.totalBorrowAssets.toNat ≤ m.totalSupplyAssets.toNat)
    (hfee : m.fee.toNat ≤ tenTo 18) (h : m.accrue rate timestamp = .ok accrued) :
    (∀ shares : Word, shares.toNat ≤ m.totalSupplyShares.toNat →
      ∃ before after, MarketSide.supply.toAssets shares m = .ok before ∧
        MarketSide.supply.toAssets shares accrued = .ok after ∧ before.toNat ≤ after.toNat) ∧
    (∀ shares before after : Word, MarketSide.borrow.toAssets shares m = .ok before →
      MarketSide.borrow.toAssets shares accrued = .ok after → before.toNat ≤ after.toNat) ∧
    accrued.totalSupplyAssets.toNat =
      m.totalSupplyAssets.toNat + m.exactInterest rate timestamp ∧
    m.totalSupplyShares.toNat ≤ accrued.totalSupplyShares.toNat ∧
    ∃ worth, MarketSide.supply.toAssets
        (accrued.totalSupplyShares.widen - m.totalSupplyShares.widen) accrued = .ok worth ∧
      worth.toNat ≤ m.exactInterest rate timestamp * m.fee.toNat / tenTo 18 := by
  have hacc := accrue_ok hlent hfee h
  have hgrown : m.totalSupplyShares.toNat ≤ accrued.totalSupplyShares.toNat := by
    rw [hacc.supplyShares]
    exact Nat.le_add_right _ _
  refine ⟨?_, fun shares before after => hacc.debt_le,
    hacc.supplyAssets, hgrown, ?_⟩
  · intro shares hshares
    have hsmall := lt_of_le_of_lt hshares m.totalSupplyShares.isLt
    obtain ⟨before, hbefore⟩ := MarketSide.supply_toAssets_ok (m := m) hsmall
    obtain ⟨after, hafter⟩ := MarketSide.supply_toAssets_ok (m := accrued) hsmall
    refine ⟨before, after, hbefore, hafter, ?_⟩
    rw [(MarketSide.supply_toAssets_eq_ok_iff.mp hbefore).2,
      (MarketSide.supply_toAssets_eq_ok_iff.mp hafter).2]
    exact floor_le_floor_of_price_le (by omega) (by omega) (by omega) (hacc.price_le hfee)
  · have hminted : (accrued.totalSupplyShares.widen - m.totalSupplyShares.widen).toNat =
        m.exactFeeShares (m.exactInterest rate timestamp) := by
      rw [BitVec.toNat_sub_of_le, HalfWord.toNat_widen, HalfWord.toNat_widen, hacc.supplyShares,
        Nat.add_sub_cancel_left]
      rwa [BitVec.le_def, HalfWord.toNat_widen, HalfWord.toNat_widen]
    have hsmall : (accrued.totalSupplyShares.widen - m.totalSupplyShares.widen).toNat <
        twoTo 128 := by
      have hshares := accrued.totalSupplyShares.isLt
      rw [hacc.supplyShares] at hshares
      rw [hminted]
      exact lt_of_le_of_lt (Nat.le_add_left _ _) hshares
    obtain ⟨worth, hworth⟩ := MarketSide.supply_toAssets_ok (m := accrued) hsmall
    refine ⟨worth, hworth, ?_⟩
    rw [(MarketSide.supply_toAssets_eq_ok_iff.mp hworth).2, hminted]
    exact hacc.minted_worth_le hfee

/-- A second of interest on a market that is half lent out and keeps a tenth as its fee. -/
theorem accrue_never_dilutes_second :
    let m : MarketState :=
      { totalSupplyAssets := 1000000, totalSupplyShares := 1000000000000,
        totalBorrowAssets := 500000, totalBorrowShares := 500000000000, lastUpdate := 100,
        fee := 100000000000000000 }
    let accrued : MarketState :=
      { totalSupplyAssets := 1005025, totalSupplyShares := 1000499739679,
        totalBorrowAssets := 505025, totalBorrowShares := 500000000000, lastUpdate := 101,
        fee := 100000000000000000 }
    let rate : Word := 10000000000000000
    (m.totalBorrowAssets.toNat ≤ m.totalSupplyAssets.toNat ∧ m.fee.toNat ≤ tenTo 18 ∧
      m.accrue rate 101 = .ok accrued) ∧
    (∀ shares : Word, shares.toNat ≤ m.totalSupplyShares.toNat →
      ∃ before after, MarketSide.supply.toAssets shares m = .ok before ∧
        MarketSide.supply.toAssets shares accrued = .ok after ∧ before.toNat ≤ after.toNat) ∧
    (∀ shares before after : Word, MarketSide.borrow.toAssets shares m = .ok before →
      MarketSide.borrow.toAssets shares accrued = .ok after → before.toNat ≤ after.toNat) ∧
    accrued.totalSupplyAssets.toNat = m.totalSupplyAssets.toNat + m.exactInterest rate 101 ∧
    m.totalSupplyShares.toNat ≤ accrued.totalSupplyShares.toNat ∧
    ∃ worth, MarketSide.supply.toAssets
        (accrued.totalSupplyShares.widen - m.totalSupplyShares.widen) accrued = .ok worth ∧
      worth.toNat ≤ m.exactInterest rate 101 * m.fee.toNat / tenTo 18 := by
  intro m accrued rate
  have hlent : m.totalBorrowAssets.toNat ≤ m.totalSupplyAssets.toNat := by decide
  have hfee : m.fee.toNat ≤ tenTo 18 := by decide
  have haccrued : m.accrue rate 101 = .ok accrued := by
    simp only [m, accrued, rate]
    rfl
  exact ⟨⟨hlent, hfee, haccrued⟩, accrue_never_dilutes hlent hfee haccrued⟩

end Chainfolio.MarketState
