import Chainfolio.Proofs.Market.Accrual

/-! Interest accrual keeps a market's books. Both totals grow by the same exact interest, so that no
more is lent than was supplied, and a market that is up to date stays as it is. -/
namespace Chainfolio.MarketState

variable {m accrued : MarketState} {rate : Word} {timestamp : UInt64}

theorem accrue_of_idle (h : m.elapsed timestamp = 0 ∨ m.totalBorrowAssets = 0) (rate : Word) :
    m.accrue rate timestamp = .ok m := by
  rw [accrue, if_pos h]

/-- An accrual leaves an idle market as it is, and brings any other one up to date. -/
theorem accrue_idle_or_updated (h : m.accrue rate timestamp = .ok accrued) :
    (accrued = m ∧ (m.elapsed timestamp = 0 ∨ m.totalBorrowAssets = 0)) ∨
      (accrued.lastUpdate.toNat = timestamp.toNat ∧ m.lastUpdate.toNat < timestamp.toNat) := by
  by_cases hidle : m.elapsed timestamp = 0 ∨ m.totalBorrowAssets = 0
  · rw [accrue_of_idle hidle] at h
    cases h
    exact .inl ⟨rfl, hidle⟩
  · obtain ⟨hlater, -⟩ := not_or.mp hidle
    rw [accrue, if_neg hidle] at h
    simp only [bind_eq_ok_iff, pure, Except.pure, Except.ok.injEq] at h
    obtain ⟨-, -, -, -, -, -, -, -, rfl⟩ := h
    have hfits : timestamp.toNat < twoTo 128 :=
      lt_trans timestamp.toNat_lt (show twoTo 64 < twoTo 128 by decide)
    refine .inr ⟨?_, Nat.lt_of_sub_ne_zero hlater⟩
    rw [BitVec.toNat_ofNat]
    exact Nat.mod_eq_of_lt hfits

theorem lastUpdate_le_of_accrue (h : m.accrue rate timestamp = .ok accrued) :
    m.lastUpdate.toNat ≤ accrued.lastUpdate.toNat := by
  rcases accrue_idle_or_updated h with ⟨rfl, -⟩ | ⟨hnow, hlater⟩
  · exact le_rfl
  · rw [hnow]
    exact hlater.le

/-- A market that has accrued up to a time has nothing more to accrue at that time. -/
theorem accrue_again (h : m.accrue rate timestamp = .ok accrued) (again : Word) :
    accrued.accrue again timestamp = .ok accrued := by
  rcases accrue_idle_or_updated h with ⟨rfl, hidle⟩ | ⟨hnow, -⟩
  · exact accrue_of_idle hidle again
  · have hnone : accrued.elapsed timestamp = 0 := by
      rw [elapsed, hnow, Nat.sub_self]
    exact accrue_of_idle (.inl hnone) again

theorem Accrues.lent_le {interest : Nat} (h : Accrues m accrued interest)
    (hlent : m.totalBorrowAssets.toNat ≤ m.totalSupplyAssets.toNat) :
    accrued.totalBorrowAssets.toNat ≤ accrued.totalSupplyAssets.toNat := by
  rw [h.borrowAssets, h.supplyAssets]
  exact Nat.add_le_add_right hlent interest

/-- Accrual keeps the books of every market that has lent no more than was supplied and keeps no more
than all interest as its fee. Supply and debt grow by the interest as it is over the natural numbers,
supply shares by those that pay the fee; debts stay covered, debt shares and fee stay the same, time
does not go back, and accruing once more up to the same time changes nothing at any rate. -/
theorem accrue_keeps_books (hlent : m.totalBorrowAssets.toNat ≤ m.totalSupplyAssets.toNat)
    (hfee : m.fee.toNat ≤ tenTo 18) (h : m.accrue rate timestamp = .ok accrued) :
    accrued.totalSupplyAssets.toNat = m.totalSupplyAssets.toNat + m.exactInterest rate timestamp ∧
    accrued.totalBorrowAssets.toNat = m.totalBorrowAssets.toNat + m.exactInterest rate timestamp ∧
    accrued.totalSupplyShares.toNat =
      m.totalSupplyShares.toNat + m.exactFeeShares (m.exactInterest rate timestamp) ∧
    accrued.totalBorrowAssets.toNat ≤ accrued.totalSupplyAssets.toNat ∧
    accrued.totalBorrowShares = m.totalBorrowShares ∧
    accrued.fee = m.fee ∧
    m.totalSupplyShares.toNat ≤ accrued.totalSupplyShares.toNat ∧
    m.lastUpdate.toNat ≤ accrued.lastUpdate.toNat ∧
    ∀ again, accrued.accrue again timestamp = .ok accrued := by
  have hacc := accrue_ok hlent hfee h
  have hgrown : m.totalSupplyShares.toNat ≤ accrued.totalSupplyShares.toNat := by
    rw [hacc.supplyShares]
    exact Nat.le_add_right _ _
  exact ⟨hacc.supplyAssets, hacc.borrowAssets, hacc.supplyShares, hacc.lent_le hlent,
    hacc.borrowShares, hacc.fee, hgrown, lastUpdate_le_of_accrue h, accrue_again h⟩

/-- A day of interest on a market that fills half of its fields, lends out all that was supplied and
keeps a quarter as its fee. -/
theorem accrue_keeps_books_day :
    let m : MarketState :=
      { totalSupplyAssets := 170141183460469231731687303715884105728,
        totalSupplyShares := 170141183460469231731687303715884105728,
        totalBorrowAssets := 170141183460469231731687303715884105728, totalBorrowShares := 1,
        lastUpdate := 1700000000, fee := 250000000000000000 }
    let accrued : MarketState :=
      { totalSupplyAssets := 170145844926598914902544519791979338921,
        totalSupplyShares := 170142348803055928948478377732535533300,
        totalBorrowAssets := 170145844926598914902544519791979338921, totalBorrowShares := 1,
        lastUpdate := 1700086400, fee := 250000000000000000 }
    let rate : Word := 317097919
    (m.totalBorrowAssets.toNat ≤ m.totalSupplyAssets.toNat ∧ m.fee.toNat ≤ tenTo 18 ∧
      m.accrue rate 1700086400 = .ok accrued) ∧
    accrued.totalSupplyAssets.toNat = m.totalSupplyAssets.toNat + m.exactInterest rate 1700086400 ∧
    accrued.totalBorrowAssets.toNat = m.totalBorrowAssets.toNat + m.exactInterest rate 1700086400 ∧
    accrued.totalSupplyShares.toNat =
      m.totalSupplyShares.toNat + m.exactFeeShares (m.exactInterest rate 1700086400) ∧
    accrued.totalBorrowAssets.toNat ≤ accrued.totalSupplyAssets.toNat ∧
    accrued.totalBorrowShares = m.totalBorrowShares ∧
    accrued.fee = m.fee ∧
    m.totalSupplyShares.toNat ≤ accrued.totalSupplyShares.toNat ∧
    m.lastUpdate.toNat ≤ accrued.lastUpdate.toNat ∧
    ∀ again, accrued.accrue again 1700086400 = .ok accrued := by
  intro m accrued rate
  have hlent : m.totalBorrowAssets.toNat ≤ m.totalSupplyAssets.toNat := by decide
  have hfee : m.fee.toNat ≤ tenTo 18 := by decide
  have haccrued : m.accrue rate 1700086400 = .ok accrued := by
    simp only [m, accrued, rate]
    rfl
  exact ⟨⟨hlent, hfee, haccrued⟩, accrue_keeps_books hlent hfee haccrued⟩

end Chainfolio.MarketState
