import Mathlib.Algebra.Order.BigOperators.Group.List
import Mathlib.Data.BitVec
import Mathlib.Tactic.NormNum
import Chainfolio.Market.State
import Chainfolio.Proofs.FixedPoint

/-! What shares are worth, over the natural numbers. Supply is a floor and debt is a ceiling of the
exact worth, so that splitting shares among holders never makes a market owe more or be owed less. -/
namespace Chainfolio

namespace HalfWord

theorem toNat_widen_add {x : HalfWord} {y : Word} (h : y.toNat < twoTo 255) :
    (x.widen + y).toNat = x.toNat + y.toNat := by
  have hx : x.toNat < twoTo 128 := x.isLt
  have hroom : twoTo 128 + twoTo 255 < twoTo 256 := by decide
  rw [BitVec.toNat_add_of_lt, toNat_widen]
  rw [toNat_widen]
  exact show _ < twoTo 256 by omega

/-- The virtual asset behind every conversion never wraps. -/
theorem toNat_widen_add_virtualAssets (x : HalfWord) :
    (x.widen + Shares.virtualAssets).toNat = x.toNat + 1 :=
  toNat_widen_add (by decide)

/-- The virtual shares behind every conversion never wrap. -/
theorem toNat_widen_add_virtualShares (x : HalfWord) :
    (x.widen + Shares.virtualShares).toNat = x.toNat + 1000000 :=
  toNat_widen_add (by decide)

theorem toNat_widen_sub_add_virtualAssets {x : HalfWord} {y : Word} (h : y.toNat ≤ x.toNat) :
    (x.widen - y + Shares.virtualAssets).toNat = x.toNat - y.toNat + 1 := by
  have hx : x.toNat < twoTo 128 := x.isLt
  have hroom : twoTo 128 + 1 < twoTo 256 := by decide
  have hone : Shares.virtualAssets.toNat = 1 := by decide
  have hsub : (x.widen - y).toNat = x.toNat - y.toNat := by
    rw [BitVec.toNat_sub_of_le, toNat_widen]
    rwa [BitVec.le_def, toNat_widen]
  rw [BitVec.toNat_add_of_lt, hsub, hone]
  rw [hsub, hone]
  exact show _ < twoTo 256 by omega

end HalfWord

namespace MarketSide

theorem supply_toAssets_eq_ok_iff {m : MarketState} {shares assets : Word} :
    supply.toAssets shares m = .ok assets ↔
      shares.toNat * (m.totalSupplyAssets.toNat + 1) < twoTo 256 ∧
        assets.toNat = shares.toNat * (m.totalSupplyAssets.toNat + 1) /
          (m.totalSupplyShares.toNat + 1000000) := by
  rw [toAssets, Shares.toAssetsDown, FixedPoint.mulDivDown_eq_ok_iff,
    HalfWord.toNat_widen_add_virtualAssets, HalfWord.toNat_widen_add_virtualShares]
  exact and_iff_right (by omega)

theorem borrow_toAssets_eq_ok_iff {m : MarketState} {shares assets : Word} :
    borrow.toAssets shares m = .ok assets ↔
      shares.toNat * (m.totalBorrowAssets.toNat + 1) + (m.totalBorrowShares.toNat + 1000000 - 1) <
          twoTo 256 ∧
        assets.toNat = (shares.toNat * (m.totalBorrowAssets.toNat + 1)) ⌈/⌉
          (m.totalBorrowShares.toNat + 1000000) := by
  rw [toAssets, Shares.toAssetsUp, FixedPoint.mulDivUp_eq_ok_iff,
    HalfWord.toNat_widen_add_virtualAssets, HalfWord.toNat_widen_add_virtualShares]
  exact and_iff_right (by omega)

/-- Shares that a half word can count are worth something at any total. -/
theorem supply_toAssets_ok {m : MarketState} {shares : Word} (h : shares.toNat < twoTo 128) :
    ∃ assets, supply.toAssets shares m = .ok assets := by
  have hassets : m.totalSupplyAssets.toNat + 1 ≤ twoTo 128 := m.totalSupplyAssets.isLt
  have hfits : shares.toNat * (m.totalSupplyAssets.toNat + 1) < twoTo 256 :=
    calc shares.toNat * (m.totalSupplyAssets.toNat + 1)
        < twoTo 128 * twoTo 128 :=
          Nat.mul_lt_mul_of_lt_of_le h hassets (by omega)
      _ = twoTo 256 := (twoTo_add 128 128).symm
  obtain ⟨assets, hvalue⟩ := Word.exists_toNat_eq (lt_of_le_of_lt (Nat.div_le_self _ _) hfits)
  exact ⟨assets, supply_toAssets_eq_ok_iff.mpr ⟨hfits, hvalue⟩⟩

/-- A debt that can be converted makes every smaller one convertible. -/
theorem borrow_toAssets_ok_of_le {m : MarketState} {shares more assets : Word}
    (h : borrow.toAssets more m = .ok assets) (hle : shares.toNat ≤ more.toNat) :
    ∃ less, borrow.toAssets shares m = .ok less := by
  obtain ⟨hfits, -⟩ := borrow_toAssets_eq_ok_iff.mp h
  have hless := lt_of_le_of_lt
    (Nat.add_le_add_right (Nat.mul_le_mul_right (m.totalBorrowAssets.toNat + 1) hle) _) hfits
  have hvalue : (shares.toNat * (m.totalBorrowAssets.toNat + 1)) ⌈/⌉
      (m.totalBorrowShares.toNat + 1000000) < twoTo 256 := by
    rw [FixedPoint.ceilDiv_eq_carry_div _ (by omega)]
    exact lt_of_le_of_lt (Nat.div_le_self _ _) hless
  obtain ⟨less, hvalue⟩ := Word.exists_toNat_eq hvalue
  exact ⟨less, borrow_toAssets_eq_ok_iff.mpr ⟨hless, hvalue⟩⟩

/-- All supply shares together are worth no more than the supplied assets. -/
theorem supply_toAssets_le_total {m : MarketState} {shares assets : Word}
    (h : supply.toAssets shares m = .ok assets)
    (hle : shares.toNat ≤ m.totalSupplyShares.toNat) :
    assets.toNat ≤ m.totalSupplyAssets.toNat := by
  obtain ⟨-, hvalue⟩ := supply_toAssets_eq_ok_iff.mp h
  rw [hvalue]
  apply Nat.le_of_lt_succ
  rw [Nat.div_lt_iff_lt_mul (by omega), Nat.succ_eq_add_one, Nat.mul_comm]
  exact Nat.mul_lt_mul_of_pos_left (by omega) (by omega)

/-- Whoever borrows owes something. -/
theorem borrow_toAssets_pos {m : MarketState} {shares assets : Word}
    (h : borrow.toAssets shares m = .ok assets) (hpos : 0 < shares.toNat) : 0 < assets.toNat := by
  obtain ⟨-, hvalue⟩ := borrow_toAssets_eq_ok_iff.mp h
  rw [hvalue, ← not_le, ceilDiv_le_iff_le_mul (by omega), Nat.mul_zero, not_le]
  exact Nat.mul_pos hpos (by omega)

/-! ### Sums over holders -/

variable {n d : Nat} {holders results : List Word}

/-- Words whose values add up to a word add up to it as words. -/
theorem toNat_sum_of_lt (h : (holders.map BitVec.toNat).sum < twoTo 256) :
    holders.sum.toNat = (holders.map BitVec.toNat).sum := by
  induction holders with
  | nil => rfl
  | cons x holders ih =>
    simp only [List.map_cons, List.sum_cons] at h ⊢
    have hrest := ih (lt_of_le_of_lt (Nat.le_add_left _ _) h)
    rw [BitVec.toNat_add_of_lt (by rwa [hrest]), hrest]

theorem exists_results {f : Word → Except Fault Word}
    (h : ∀ shares ∈ holders, ∃ assets, f shares = .ok assets) :
    ∃ results, List.Forall₂ (fun shares assets => f shares = .ok assets) holders results := by
  induction holders with
  | nil => exact ⟨[], .nil⟩
  | cons shares holders ih =>
    obtain ⟨assets, hassets⟩ := h shares (by simp)
    obtain ⟨results, hresults⟩ := ih fun s hs => h s (by simp [hs])
    exact ⟨assets :: results, .cons hassets hresults⟩

/-- Floors add up to at most the floor of the whole. -/
theorem sum_floor_le
    (h : List.Forall₂ (fun s a : Word => a.toNat = s.toNat * n / d) holders results) :
    (results.map BitVec.toNat).sum ≤ (holders.map BitVec.toNat).sum * n / d := by
  induction h with
  | nil => simp
  | cons hone _ ih =>
    simp only [List.map_cons, List.sum_cons, Nat.add_mul, hone]
    exact (Nat.add_le_add_left ih _).trans Nat.div_add_div_le_add_div

/-- Floors fall short of the floor of the whole by less than one for each of them. -/
theorem floor_le_sum_add (hd : 0 < d) (hne : holders ≠ [])
    (h : List.Forall₂ (fun s a : Word => a.toNat = s.toNat * n / d) holders results) :
    (holders.map BitVec.toNat).sum * n / d ≤
      (results.map BitVec.toNat).sum + (holders.length - 1) := by
  -- Each floor and one more are above the exact part, so the gap grows by at least one with each of them.
  have hgap : (holders.map BitVec.toNat).sum * n + holders.length ≤
      ((results.map BitVec.toNat).sum + holders.length) * d := by
    clear hne
    induction h with
    | nil => simp
    | @cons s a holders results hone _ ih =>
      have habove : s.toNat * n + 1 ≤ d * (a.toNat + 1) := hone ▸ Nat.lt_mul_div_succ _ hd
      simp only [List.map_cons, List.sum_cons, List.length_cons]
      linarith
  have hlength := List.length_pos_of_ne_nil hne
  have hlt : (holders.map BitVec.toNat).sum * n / d <
      (results.map BitVec.toNat).sum + holders.length :=
    (Nat.div_lt_iff_lt_mul hd).mpr (by omega)
  omega

/-- Ceilings add up to at least the ceiling of the whole. -/
theorem ceil_le_sum (hd : 0 < d)
    (h : List.Forall₂ (fun s a : Word => a.toNat = (s.toNat * n) ⌈/⌉ d) holders results) :
    ((holders.map BitVec.toNat).sum * n) ⌈/⌉ d ≤ (results.map BitVec.toNat).sum := by
  induction h with
  | nil => simp
  | cons hone _ ih =>
    simp only [List.map_cons, List.sum_cons, Nat.add_mul, hone]
    rw [ceilDiv_le_iff_le_mul hd] at ih ⊢
    rw [Nat.mul_add]
    exact Nat.add_le_add ((ceilDiv_le_iff_le_mul hd).mp le_rfl) ih

/-- Rounding is safe for any set of holders. Suppliers can always be paid, together no more than
their shares are worth at once, and that no more than was supplied. Borrowers whose joint debt can be
told owe, each at least one, together no less than that debt. -/
theorem toAssets_rounds_for_the_market (m : MarketState) (holders : List Word) :
    ((holders.map BitVec.toNat).sum ≤ m.totalSupplyShares.toNat →
      ∃ assets whole,
        List.Forall₂ (fun shares a => supply.toAssets shares m = .ok a) holders assets ∧
        supply.toAssets holders.sum m = .ok whole ∧
        (assets.map BitVec.toNat).sum ≤ whole.toNat ∧
        whole.toNat ≤ m.totalSupplyAssets.toNat) ∧
    ((holders.map BitVec.toNat).sum ≤ m.totalBorrowShares.toNat →
      ∀ whole, borrow.toAssets holders.sum m = .ok whole →
      ∃ debts,
        List.Forall₂ (fun shares a => borrow.toAssets shares m = .ok a ∧ (shares ≠ 0 → 1 ≤ a.toNat))
          holders debts ∧
        whole.toNat ≤ (debts.map BitVec.toNat).sum) := by
  have hhalf : twoTo 128 < twoTo 256 := by decide
  have hmem : ∀ shares ∈ holders, shares.toNat ≤ (holders.map BitVec.toNat).sum :=
    fun shares hs => List.le_sum_of_mem (List.mem_map_of_mem hs)
  constructor
  · intro hshares
    have hlt : (holders.map BitVec.toNat).sum < twoTo 128 :=
      lt_of_le_of_lt hshares m.totalSupplyShares.isLt
    have hsum := toNat_sum_of_lt (hlt.trans hhalf)
    obtain ⟨assets, heach⟩ := exists_results (f := (supply.toAssets · m)) fun shares hs =>
      supply_toAssets_ok (lt_of_le_of_lt (hmem shares hs) hlt)
    obtain ⟨whole, hwhole⟩ := supply_toAssets_ok (m := m) (hsum ▸ hlt)
    refine ⟨assets, whole, heach, hwhole, ?_, supply_toAssets_le_total hwhole (hsum ▸ hshares)⟩
    rw [(supply_toAssets_eq_ok_iff.mp hwhole).2, hsum]
    exact sum_floor_le (heach.imp fun _ _ h => (supply_toAssets_eq_ok_iff.mp h).2)
  · intro hshares whole hwhole
    have hsum := toNat_sum_of_lt
      ((lt_of_le_of_lt hshares m.totalBorrowShares.isLt).trans hhalf)
    obtain ⟨debts, heach⟩ := exists_results (f := (borrow.toAssets · m)) fun shares hs =>
      borrow_toAssets_ok_of_le hwhole (hsum ▸ hmem shares hs)
    refine ⟨debts, heach.imp fun _ _ h =>
      ⟨h, fun hne => borrow_toAssets_pos h (Word.toNat_pos_iff.mpr hne)⟩, ?_⟩
    rw [(borrow_toAssets_eq_ok_iff.mp hwhole).2, hsum]
    exact ceil_le_sum (by omega)
      (heach.imp fun _ _ h => (borrow_toAssets_eq_ok_iff.mp h).2)

/-- Both sides of a market whose supply fills its fields, shared by three holders. -/
theorem toAssets_rounds_for_three_holders :
    let m : MarketState :=
      { totalSupplyAssets := BitVec.allOnes 128, totalSupplyShares := BitVec.allOnes 128,
        totalBorrowAssets := 500001, totalBorrowShares := 500000000000 }
    let holders : List Word := [7, 0, 499999999900]
    ((holders.map BitVec.toNat).sum ≤ m.totalSupplyShares.toNat ∧ ∃ assets whole,
        List.Forall₂ (fun shares a => supply.toAssets shares m = .ok a) holders assets ∧
        supply.toAssets holders.sum m = .ok whole ∧
        (assets.map BitVec.toNat).sum ≤ whole.toNat ∧
        whole.toNat ≤ m.totalSupplyAssets.toNat) ∧
    ((holders.map BitVec.toNat).sum ≤ m.totalBorrowShares.toNat ∧
      borrow.toAssets holders.sum m = .ok 500001 ∧ ∃ debts,
        List.Forall₂ (fun shares a => borrow.toAssets shares m = .ok a ∧ (shares ≠ 0 → 1 ≤ a.toNat))
          holders debts ∧
        (500001 : Word).toNat ≤ (debts.map BitVec.toNat).sum) := by
  intro m holders
  have hsupply : (holders.map BitVec.toNat).sum ≤ m.totalSupplyShares.toNat := by decide
  have hborrow : (holders.map BitVec.toNat).sum ≤ m.totalBorrowShares.toNat := by decide
  have hwhole : borrow.toAssets holders.sum m = .ok 500001 :=
    borrow_toAssets_eq_ok_iff.mpr (by decide)
  exact ⟨⟨hsupply, (toAssets_rounds_for_the_market m holders).1 hsupply⟩, hborrow, hwhole,
    (toAssets_rounds_for_the_market m holders).2 hborrow _ hwhole⟩

end MarketSide

end Chainfolio
