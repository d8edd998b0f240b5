import Chainfolio.Proofs.Market.Shares

/-! Conversions between assets and shares, there and back. Rounding up one way is adjoint to rounding
down the other way, so that nobody profits by converting twice. -/
namespace Chainfolio

namespace FixedPoint

variable {x y d up down : Word}

/-- Scaling up by `y / d` is below a bound exactly when the bound, scaled down by `d / y`, is above. -/
theorem mulDivUp_le_iff {bound : Word} (hup : mulDivUp x y d = .ok up)
    (hdown : mulDivDown bound d y = .ok down) :
    up.toNat ≤ bound.toNat ↔ x.toNat ≤ down.toNat := by
  obtain ⟨hd, -, hup⟩ := mulDivUp_eq_ok_iff.mp hup
  obtain ⟨hy, -, hdown⟩ := mulDivDown_eq_ok_iff.mp hdown
  rw [hup, hdown, ceilDiv_le_iff_le_mul hd, Nat.le_div_iff_mul_le hy, Nat.mul_comm d.toNat]

/-- What was rounded down can be scaled back, to no more than it came from. -/
theorem mulDivDown_back (hd : 0 < d.toNat) (h : mulDivDown x d y = .ok down) :
    ∃ back, mulDivDown down y d = .ok back ∧ back.toNat ≤ x.toNat := by
  obtain ⟨-, hfits, hdown⟩ := mulDivDown_eq_ok_iff.mp h
  have hproduct : down.toNat * y.toNat ≤ x.toNat * d.toNat := by
    rw [hdown]
    exact Nat.div_mul_le_self _ _
  have hle : down.toNat * y.toNat / d.toNat ≤ x.toNat := by
    apply Nat.div_le_of_le_mul
    rwa [Nat.mul_comm d.toNat]
  obtain ⟨back, hback⟩ := Word.exists_toNat_eq (lt_of_le_of_lt hle x.isLt)
  exact ⟨back, mulDivDown_eq_ok_iff.mpr ⟨hd, lt_of_le_of_lt hproduct hfits, hback⟩, hback ▸ hle⟩

/-- What was rounded up comes back as no less than it came from. -/
theorem le_mulDivUp_back {back : Word} (h : mulDivUp x d y = .ok up)
    (hback : mulDivUp up y d = .ok back) : x.toNat ≤ back.toNat := by
  obtain ⟨hy, -, hup⟩ := mulDivUp_eq_ok_iff.mp h
  obtain ⟨hd, -, hback⟩ := mulDivUp_eq_ok_iff.mp hback
  have hthere : x.toNat * d.toNat ≤ y.toNat * up.toNat :=
    (ceilDiv_le_iff_le_mul hy).mp hup.ge
  have hhere : up.toNat * y.toNat ≤ d.toNat * back.toNat :=
    (ceilDiv_le_iff_le_mul hd).mp hback.ge
  apply Nat.le_of_mul_le_mul_left _ hd
  calc d.toNat * x.toNat = x.toNat * d.toNat := Nat.mul_comm _ _
    _ ≤ y.toNat * up.toNat := hthere
    _ = up.toNat * y.toNat := Nat.mul_comm _ _
    _ ≤ d.toNat * back.toNat := hhere

/-- Where rounding up succeeds so does rounding down, and they are at most one apart. -/
theorem mulDivUp_le_succ (h : mulDivUp x y d = .ok up) :
    ∃ down, mulDivDown x y d = .ok down ∧ down.toNat ≤ up.toNat ∧ up.toNat ≤ down.toNat + 1 := by
  obtain ⟨hd, hcarry, hup⟩ := mulDivUp_eq_ok_iff.mp h
  have hfits := lt_of_le_of_lt (Nat.le_add_right _ _) hcarry
  obtain ⟨down, hdown⟩ := Word.exists_toNat_eq (lt_of_le_of_lt (Nat.div_le_self _ d.toNat) hfits)
  refine ⟨down, mulDivDown_eq_ok_iff.mpr ⟨hd, hfits, hdown⟩, ?_, ?_⟩
  · rw [hup, hdown, ceilDiv_eq_carry_div _ hd]
    exact Nat.div_le_div_right (Nat.le_add_right _ _)
  · rw [hup, hdown, ceilDiv_le_iff_le_mul hd]
    exact (Nat.lt_mul_div_succ _ hd).le

end FixedPoint

namespace Shares

/-- Converting there and back never profits. The assets that shares cost and the shares that assets buy
are two sides of a Galois connection, and so are the shares that a withdrawal costs and the assets that
shares are worth. What is rounded down twice can always be converted back, to no more than it was; what
is rounded up twice is no less than it was; the two roundings of one conversion are at most one apart. -/
theorem conversions_never_profit (assets shares : Word) (totalAssets totalShares : HalfWord) :
    let a := totalAssets.widen
    let s := totalShares.widen
    (∀ cost bought, toAssetsUp shares a s = .ok cost → ofAssetsDown assets a s = .ok bought →
      (cost.toNat ≤ assets.toNat ↔ shares.toNat ≤ bought.toNat)) ∧
    (∀ cost worth, ofAssetsUp assets a s = .ok cost → toAssetsDown shares a s = .ok worth →
      (cost.toNat ≤ shares.toNat ↔ assets.toNat ≤ worth.toNat)) ∧
    (∀ bought, ofAssetsDown assets a s = .ok bought →
      ∃ back, toAssetsDown bought a s = .ok back ∧ back.toNat ≤ assets.toNat) ∧
    (∀ worth, toAssetsDown shares a s = .ok worth →
      ∃ back, ofAssetsDown worth a s = .ok back ∧ back.toNat ≤ shares.toNat) ∧
    (∀ cost back, ofAssetsUp assets a s = .ok cost → toAssetsUp cost a s = .ok back →
      assets.toNat ≤ back.toNat) ∧
    (∀ up, ofAssetsUp assets a s = .ok up → ∃ down, ofAssetsDown assets a s = .ok down ∧
      down.toNat ≤ up.toNat ∧ up.toNat ≤ down.toNat + 1) ∧
    (∀ up, toAssetsUp shares a s = .ok up → ∃ down, toAssetsDown shares a s = .ok down ∧
      down.toNat ≤ up.toNat ∧ up.toNat ≤ down.toNat + 1) := by
  intro a s
  have hassets : 0 < (a + virtualAssets).toNat := by
    rw [HalfWord.toNat_widen_add_virtualAssets]
    exact Nat.succ_pos _
  have hshares : 0 < (s + virtualShares).toNat := by
    rw [HalfWord.toNat_widen_add_virtualShares]
    exact Nat.succ_pos _
  refine ⟨?_, ?_, ?_, ?_, ?_, ?_, ?_⟩
  · exact fun _ _ hcost hbought => FixedPoint.mulDivUp_le_iff hcost hbought
  · exact fun _ _ hcost hworth => FixedPoint.mulDivUp_le_iff hcost hworth
  · exact fun _ hbought => FixedPoint.mulDivDown_back hshares hbought
  · exact fun _ hworth => FixedPoint.mulDivDown_back hassets hworth
  · exact fun _ _ hcost hback => FixedPoint.le_mulDivUp_back hcost hback
  · exact fun _ hup => FixedPoint.mulDivUp_le_succ hup
  · exact fun _ hup => FixedPoint.mulDivUp_le_succ hup

/-- A market whose assets fill their field and that has few shares: thirty shares cost more than the
assets buy, and are worth as much as the assets cost. -/
theorem conversions_never_profit_near_limit :
    let totalAssets : HalfWord := BitVec.allOnes 128
    let totalShares : HalfWord := 12345
    let a := totalAssets.widen
    let s := totalShares.widen
    let assets : Word := 10000000000000000000000000000000000
    let cost : Word := 10083984222402593882422729625723490
    let worth : Word := 10083984222402593882422729625723489
    (toAssetsUp 30 a s = .ok cost ∧ ofAssetsDown assets a s = .ok 29 ∧
      ofAssetsUp assets a s = .ok 30 ∧ toAssetsDown 30 a s = .ok worth) ∧
    (cost.toNat ≤ assets.toNat ↔ (30 : Word).toNat ≤ (29 : Word).toNat) ∧
    ((30 : Word).toNat ≤ (30 : Word).toNat ↔ assets.toNat ≤ worth.toNat) ∧
    (∃ back, toAssetsDown 29 a s = .ok back ∧ back.toNat ≤ assets.toNat) ∧
    (∃ back, ofAssetsDown worth a s = .ok back ∧ back.toNat ≤ (30 : Word).toNat) ∧
    assets.toNat ≤ cost.toNat ∧
    (∃ down, ofAssetsDown assets a s = .ok down ∧
      down.toNat ≤ (30 : Word).toNat ∧ (30 : Word).toNat ≤ down.toNat + 1) ∧
    (∃ down, toAssetsDown 30 a s = .ok down ∧
      down.toNat ≤ cost.toNat ∧ cost.toNat ≤ down.toNat + 1) := by
  intro totalAssets totalShares a s assets cost worth
  have hcost : toAssetsUp 30 a s = .ok cost := FixedPoint.mulDivUp_eq_ok_iff.mpr (by decide)
  have hbought : ofAssetsDown assets a s = .ok 29 :=
    FixedPoint.mulDivDown_eq_ok_iff.mpr (by decide)
  have hshares : ofAssetsUp assets a s = .ok 30 := FixedPoint.mulDivUp_eq_ok_iff.mpr (by decide)
  have hworth : toAssetsDown 30 a s = .ok worth := FixedPoint.mulDivDown_eq_ok_iff.mpr (by decide)
  obtain ⟨hbuy, hredeem, hdown, hdown', hup, hclose, hclose'⟩ :=
    conversions_never_profit assets 30 totalAssets totalShares
  exact ⟨⟨hcost, hbought, hshares, hworth⟩, hbuy cost 29 hcost hbought, hredeem 30 worth hshares hworth,
    hdown 29 hbought, hdown' worth hworth, hup 30 cost hshares hcost, hclose 30 hshares,
    hclose' cost hcost⟩

end Shares

end Chainfolio
