import Mathlib.Algebra.Order.Floor.Div
import Mathlib.Tactic.Linarith
import Chainfolio.FixedPoint
import Chainfolio.Proofs.Run

/-! Fixed-point arithmetic over the natural numbers. Each operation succeeds exactly when its
intermediate values fit a word, and then it gives the floor or the ceiling of the exact quotient. -/
namespace Chainfolio

namespace Word

theorem ofNat?_eq_some_iff {n : Nat} {w : Word} : ofNat? n = some w ↔ w.toNat = n := by
  constructor
  · exact ofNat?_eq_some
  · rintro rfl
    have h : w.toNat < twoTo 256 := w.isLt
    simp [ofNat?, h]

theorem mul?_eq_some_iff {x y z : Word} : mul? x y = some z ↔ z.toNat = x.toNat * y.toNat :=
  ofNat?_eq_some_iff

theorem add?_eq_some_iff {x y z : Word} : add? x y = some z ↔ z.toNat = x.toNat + y.toNat :=
  ofNat?_eq_some_iff

/-- Every number below the limit is the value of a word. -/
theorem exists_toNat_eq {n : Nat} (h : n < twoTo 256) : ∃ w : Word, w.toNat = n :=
  ⟨BitVec.ofNat 256 n, by rw [BitVec.toNat_ofNat]; exact Nat.mod_eq_of_lt h⟩

theorem toNat_mul_div {x y : Word} (d : Word) (h : x.toNat * y.toNat < twoTo 256) :
    (x * y / d).toNat = x.toNat * y.toNat / d.toNat := by
  have hproduct : (x * y).toNat = x.toNat * y.toNat := BitVec.toNat_mul_of_lt h
  rw [BitVec.toNat_udiv, hproduct]

theorem toNat_pos_iff {x : Word} : 0 < x.toNat ↔ x ≠ 0 := by
  rw [Nat.pos_iff_ne_zero, ne_eq, ne_eq, BitVec.toNat_eq]
  rfl

end Word

namespace FixedPoint

theorem checked_eq_ok_iff {operation : String} {r : Option Word} {w : Word} :
    checked operation r = .ok w ↔ r = some w := by
  cases r <;> simp [checked]

/-- The quotient rounded down succeeds exactly when the product fits, and is the exact floor. -/
theorem mulDivDown_eq_ok_iff {x y d z : Word} :
    mulDivDown x y d = .ok z ↔
      0 < d.toNat ∧ x.toNat * y.toNat < twoTo 256 ∧ z.toNat = x.toNat * y.toNat / d.toNat := by
  rw [Word.toNat_pos_iff]
  by_cases hd : d = 0
  · simp [mulDivDown, hd]
  simp only [mulDivDown, hd, if_false, bind_eq_ok_iff, checked_eq_ok_iff, Word.mul?_eq_some_iff,
    pure, Except.pure, Except.ok.injEq, ne_eq, not_false_eq_true, true_and]
  constructor
  · rintro ⟨p, hp, rfl⟩
    rw [← hp]
    exact ⟨p.isLt, BitVec.toNat_udiv⟩
  · rintro ⟨hfits, hz⟩
    obtain ⟨p, hp⟩ := Word.exists_toNat_eq hfits
    refine ⟨p, hp, BitVec.eq_of_toNat_eq ?_⟩
    rw [hz, ← hp]
    exact BitVec.toNat_udiv

/-- The quotient that is rounded down is the plain one, once the product fits. -/
theorem mulDivDown_eq_ok_div_iff {x y d z : Word} :
    mulDivDown x y d = .ok z ↔ 0 < d.toNat ∧ x.toNat * y.toNat < twoTo 256 ∧ z = x * y / d := by
  rw [mulDivDown_eq_ok_iff]
  refine and_congr_right fun _ => and_congr_right fun hfits => ?_
  rw [← Word.toNat_mul_div d hfits, BitVec.toNat_inj]

theorem ceilDiv_eq_carry_div (n : Nat) {d : Nat} (hd : 0 < d) : n ⌈/⌉ d = (n + (d - 1)) / d := by
  rw [Nat.ceilDiv_eq_add_pred_div, Nat.add_sub_assoc hd]

/-- The quotient rounded up succeeds exactly when the product and the carry fit, and is the exact
ceiling. -/
theorem mulDivUp_eq_ok_iff {x y d z : Word} :
    mulDivUp x y d = .ok z ↔
      0 < d.toNat ∧ x.toNat * y.toNat + (d.toNat - 1) < twoTo 256 ∧
        z.toNat = (x.toNat * y.toNat) ⌈/⌉ d.toNat := by
  rw [Word.toNat_pos_iff]
  by_cases hd : d = 0
  · simp [mulDivUp, hd]
  have hpos : 0 < d.toNat := Word.toNat_pos_iff.mpr hd
  have hcarry : (d - 1).toNat = d.toNat - 1 :=
    BitVec.toNat_sub_of_le (BitVec.le_def.mpr hpos)
  simp only [mulDivUp, hd, if_false, bind_eq_ok_iff, checked_eq_ok_iff, Word.mul?_eq_some_iff,
    Word.add?_eq_some_iff, hcarry, pure, Except.pure, Except.ok.injEq, ne_eq, not_false_eq_true,
    true_and, ceilDiv_eq_carry_div _ hpos]
  constructor
  · rintro ⟨p, hp, n, hn, rfl⟩
    rw [← hp, ← hn]
    exact ⟨n.isLt, BitVec.toNat_udiv⟩
  · rintro ⟨hfits, hz⟩
    obtain ⟨p, hp⟩ := Word.exists_toNat_eq (lt_of_le_of_lt (Nat.le_add_right _ _) hfits)
    obtain ⟨n, hn⟩ := Word.exists_toNat_eq hfits
    refine ⟨p, hp, n, by rw [hn, hp], BitVec.eq_of_toNat_eq ?_⟩
    rw [hz, ← hn]
    exact BitVec.toNat_udiv

end FixedPoint

end Chainfolio
