import Mathlib.Analysis.Complex.Exponential
import Mathlib.Data.Nat.Cast.Order.Field
import Chainfolio.Proofs.Market.Accrual

/-! The growth of a debt at a rate per second: three terms of the exponential, each rounded down. It is
computed exactly when two products fit a word; it never exceeds continuous compounding, and a lower rate or a
shorter time gives no more. -/
namespace Chainfolio.FixedPoint

variable {rate rate' seconds seconds' : Nat}

/-- The products that the second and the third term are made of fit a word. -/
structure GrowthFits (rate seconds : Nat) : Prop where
  square : rate * seconds * (rate * seconds) < twoTo 256
  cube : rate * seconds * (rate * seconds) / (2 * tenTo 18) * (rate * seconds) < twoTo 256

theorem GrowthFits.mono (h : GrowthFits rate seconds) (hrate : rate' ≤ rate)
    (hseconds : seconds' ≤ seconds) : GrowthFits rate' seconds' := by
  have hfirst : rate' * seconds' ≤ rate * seconds := Nat.mul_le_mul hrate hseconds
  have hsquare := Nat.mul_le_mul hfirst hfirst
  have hcube := Nat.mul_le_mul (Nat.div_le_div_right (c := 2 * tenTo 18) hsquare) hfirst
  exact ⟨hsquare.trans_lt h.square, hcube.trans_lt h.cube⟩

/-- The growth is computed exactly when its products fit, and is then exact. -/
theorem wTaylorCompounded_eq_ok_iff {x n growth : Word} :
    wTaylorCompounded x n = .ok growth ↔
      GrowthFits x.toNat n.toNat ∧ growth.toNat = exactGrowth x.toNat n.toNat := by
  have htwo : (wad * 2).toNat = 2 * tenTo 18 := by decide
  have hthree : (wad * 3).toNat = 3 * tenTo 18 := by decide
  constructor
  · intro h
    refine ⟨?_, toNat_wTaylorCompounded h⟩
    simp only [wTaylorCompounded, bind_eq_ok_iff, checked_eq_ok_iff, Word.mul?_eq_some_iff,
      mulDivDown_eq_ok_iff, htwo] at h
    obtain ⟨first, hfirst, second, ⟨-, hsquare, hsecond⟩, third, ⟨-, hcube, -⟩, -⟩ := h
    rw [hsecond] at hcube
    rw [hfirst] at hsquare hcube
    exact ⟨hsquare, hcube⟩
  · rintro ⟨hfits, hgrowth⟩
    -- a factor of a square below the limit is below the limit
    have hroot : x.toNat * n.toNat < twoTo 256 := (Nat.le_mul_self _).trans_lt hfits.square
    obtain ⟨first, hfirst⟩ := Word.exists_toNat_eq hroot
    obtain ⟨second, hsecond⟩ := Word.exists_toNat_eq ((Nat.div_le_self _ _).trans_lt hfits.square)
    obtain ⟨third, hthird⟩ := Word.exists_toNat_eq ((Nat.div_le_self _ (3 * tenTo 18)).trans_lt hfits.cube)
    have hterms : wTaylorCompounded x n = .ok (first + second + third) := by
      simp only [wTaylorCompounded, bind_eq_ok_iff, checked_eq_ok_iff, Word.mul?_eq_some_iff,
        mulDivDown_eq_ok_iff, htwo, hthree, pure, Except.pure]
      refine ⟨first, hfirst, second, ⟨by decide, ?_, ?_⟩, third, ⟨by decide, ?_, ?_⟩, rfl⟩
      · rw [hfirst]
        exact hfits.square
      · rw [hfirst, hsecond]
      · rw [hfirst, hsecond]
        exact hfits.cube
      · rw [hfirst, hsecond, hthird]
    have hsum : first + second + third = growth := by
      apply BitVec.eq_of_toNat_eq
      rw [toNat_wTaylorCompounded hterms, hgrowth]
    rw [hterms, hsum]

theorem exactGrowth_mono (hrate : rate' ≤ rate) (hseconds : seconds' ≤ seconds) :
    exactGrowth rate' seconds' ≤ exactGrowth rate seconds := by
  have hfirst : rate' * seconds' ≤ rate * seconds := Nat.mul_le_mul hrate hseconds
  have hsecond := Nat.div_le_div_right (c := 2 * tenTo 18) (Nat.mul_le_mul hfirst hfirst)
  have hthird := Nat.div_le_div_right (c := 3 * tenTo 18) (Nat.mul_le_mul hsecond hfirst)
  exact Nat.add_le_add (Nat.add_le_add hfirst hsecond) hthird

/-- Each rounded term is at most the term of the exponential that it stands for. -/
theorem exactGrowth_le_exp (rate seconds : Nat) :
    (exactGrowth rate seconds : ℝ) / tenTo 18 ≤ Real.exp ((rate * seconds : ℕ) / tenTo 18) - 1 := by
  let first := rate * seconds
  let second := first * first / (2 * tenTo 18)
  let unit : ℝ := tenTo 18
  have hunit : 0 < unit := Nat.cast_pos.mpr (tenTo_pos 18)
  have hsecond : (second : ℝ) ≤ first ^ 2 / (2 * unit) := by
    refine Nat.cast_div_le.trans (le_of_eq ?_)
    push_cast
    rw [pow_two]
  have hthird : ((second * first / (3 * tenTo 18) : ℕ) : ℝ) ≤ first ^ 3 / (6 * unit ^ 2) := by
    calc ((second * first / (3 * tenTo 18) : ℕ) : ℝ)
        ≤ second * first / (3 * unit) := by
          refine Nat.cast_div_le.trans (le_of_eq ?_)
          push_cast
          rfl
      _ ≤ first ^ 2 / (2 * unit) * first / (3 * unit) := by gcongr
      _ = first ^ 3 / (6 * unit ^ 2) := by field_simp; ring
  have hpolynomial : 1 + first / unit + (first / unit) ^ 2 / 2 + (first / unit) ^ 3 / 6 ≤
      Real.exp (first / unit) := by
    have hsum := Real.sum_le_exp_of_nonneg (x := first / unit) (by positivity) 4
    norm_num [Finset.sum_range_succ, Nat.factorial] at hsum
    exact hsum
  have hgrowth : (exactGrowth rate seconds : ℝ) =
      first + second + (second * first / (3 * tenTo 18) : ℕ) := by
    rw [← Nat.cast_add, ← Nat.cast_add]
    rfl
  calc (exactGrowth rate seconds : ℝ) / unit
      ≤ (first + first ^ 2 / (2 * unit) + first ^ 3 / (6 * unit ^ 2)) / unit := by
        rw [hgrowth]
        gcongr
    _ = first / unit + (first / unit) ^ 2 / 2 + (first / unit) ^ 3 / 6 := by field_simp
    _ ≤ Real.exp (first / unit) - 1 := by linarith

/-- A growth that is computed is the sum of its three rounded terms over the natural numbers. It is at most
what continuous compounding gives, and every lower rate over no longer a time has a growth that is no
higher. -/
theorem growth_below_exponential {x n growth : Word} (h : wTaylorCompounded x n = .ok growth) :
    (let first := x.toNat * n.toNat
      let second := first ^ 2 / (2 * wad.toNat)
      growth.toNat = first + second + second * first / (3 * wad.toNat)) ∧
    (growth.toNat : ℝ) / wad.toNat ≤ Real.exp ((x.toNat * n.toNat : ℕ) / wad.toNat) - 1 ∧
    ∀ x' n' : Word, x' ≤ x → n' ≤ n →
      ∃ growth', wTaylorCompounded x' n' = .ok growth' ∧ growth' ≤ growth := by
  have hwad : wad.toNat = tenTo 18 := by decide
  obtain ⟨hfits, hgrowth⟩ := wTaylorCompounded_eq_ok_iff.mp h
  rw [hwad, hgrowth]
  refine ⟨?_, exactGrowth_le_exp _ _, fun x' n' hx hn => ?_⟩
  · simp only [exactGrowth, pow_two]
  · have hle : exactGrowth x'.toNat n'.toNat ≤ growth.toNat :=
      hgrowth ▸ exactGrowth_mono (BitVec.le_def.mp hx) (BitVec.le_def.mp hn)
    obtain ⟨growth', hgrowth'⟩ := Word.exists_toNat_eq (hle.trans_lt growth.isLt)
    refine ⟨growth', wTaylorCompounded_eq_ok_iff.mpr ⟨?_, hgrowth'⟩, BitVec.le_def.mpr (hgrowth' ▸ hle)⟩
    exact hfits.mono (BitVec.le_def.mp hx) (BitVec.le_def.mp hn)

/-- A twentieth per second for two seconds, against a fiftieth for one. -/
theorem growth_below_exponential_tenth :
    wTaylorCompounded 50000000000000000 2 = .ok 105166666666666666 ∧
      (105166666666666666 : ℝ) / wad.toNat ≤ Real.exp ((50000000000000000 * 2 : ℕ) / wad.toNat) - 1 ∧
      ∃ growth', wTaylorCompounded 20000000000000000 1 = .ok growth' ∧ growth' ≤ 105166666666666666 := by
  have h : wTaylorCompounded 50000000000000000 2 = .ok 105166666666666666 := rfl
  obtain ⟨-, hexp, hmono⟩ := growth_below_exponential h
  exact ⟨h, by exact_mod_cast hexp, hmono _ _ (by decide) (by decide)⟩

end Chainfolio.FixedPoint
