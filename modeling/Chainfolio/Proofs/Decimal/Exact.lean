import Mathlib.Algebra.Group.Subgroup.ZPowers.Basic
import Mathlib.Algebra.Order.Field.Basic
import Mathlib.Data.Rat.Cast.Order
import Mathlib.Tactic.Zify
import Chainfolio.Decimal.Arithmetic

/-! The numbers that decimals stand for. A sum or a difference is exact whenever some decimal stands for
the result, however many places the operands have. -/
namespace Chainfolio.Decimal

/-- The number that a decimal stands for. -/
def toRat (a : Decimal) : ℚ := a.numerator / tenTo a.scale

/-! ### Dropping zeros -/

section
variable {negative : Bool} {mantissa scale n s k fuel : Nat}

theorem dropped_mul (q k : Nat) : dropped (q * tenTo k) k = q := by
  have hpos := tenTo_pos k
  rw [dropped, roundHalfEven, Nat.mul_div_cancel _ hpos, Nat.mul_mod_left]
  simp only [Nat.mul_zero, Nat.not_lt_zero, false_or]
  split <;> omega

theorem ofSigned?_eq_some (negative : Bool) (hm : mantissa < mantissaLimit) (hs : scale ≤ maxScale) :
    ∃ d, ofSigned? negative mantissa scale = some d ∧
      d.negative = (negative && mantissa ≠ 0) ∧ d.mantissa = mantissa ∧ d.scale = scale := by
  rw [ofSigned?, ofParts?, dif_pos ⟨hm, hs⟩]
  exact ⟨_, rfl, rfl, rfl, rfl⟩

theorem ofSigned?_eq_none (hm : ¬ mantissa < mantissaLimit) :
    ofSigned? negative mantissa scale = none := by
  rw [ofSigned?, ofParts?, dif_neg fun h => hm h.1]

/-- Dropping places loses nothing as long as the number can be told with fewer places still. -/
theorem exists_mul_tenTo_eq (h : mantissa * tenTo s = n * tenTo scale) (hk : k ≤ scale - s) :
    ∃ q, mantissa = q * tenTo k := by
  rcases Nat.le_total s scale with hle | hle
  · refine ⟨n * tenTo (scale - s - k), Nat.eq_of_mul_eq_mul_right (tenTo_pos s) ?_⟩
    have hscale : scale = scale - s - k + k + s := by omega
    rw [h, Nat.mul_assoc, Nat.mul_assoc, ← tenTo_add, ← tenTo_add, ← Nat.add_assoc, ← hscale]
  · have hk : k = 0 := by omega
    subst hk
    exact ⟨mantissa, (Nat.mul_one _).symm⟩

/-- With all places dropped that the number can do without, the mantissa fits. -/
theorem lt_mantissaLimit_of_drop {q : Nat} (hn : n < mantissaLimit)
    (h : q * tenTo (scale - s) * tenTo s = n * tenTo scale) : q < mantissaLimit := by
  refine lt_of_le_of_lt ?_ hn
  apply Nat.le_of_mul_le_mul_right _ (tenTo_pos scale)
  rw [← h, Nat.mul_assoc, ← tenTo_add]
  exact Nat.mul_le_mul_left q (Nat.pow_le_pow_right (by decide) (by omega))

theorem fitFrom_eq_some (hn : n < mantissaLimit) (h : mantissa * tenTo s = n * tenTo scale)
    (hk : scale - maxScale ≤ k) (hks : k ≤ scale - s) (hfuel : scale - s < k + fuel) :
    ∃ d, fitFrom negative mantissa scale k fuel = some d ∧
      d.negative = (negative && mantissa ≠ 0) ∧
      d.mantissa * tenTo scale = mantissa * tenTo d.scale := by
  -- Up to `scale - s` places are dropped without loss, and by then the mantissa fits.
  induction fuel generalizing k with
  | zero => omega
  | succ fuel ih =>
    obtain ⟨q, hq⟩ := exists_mul_tenTo_eq h hks
    have hdropped : dropped mantissa k = q := by rw [hq, dropped_mul]
    rw [fitFrom, if_pos (by omega), hdropped]
    by_cases hfits : q < mantissaLimit
    · obtain ⟨d, hd, hnegative, hmantissa, hscale⟩ :=
        ofSigned?_eq_some negative hfits (show scale - k ≤ maxScale by omega)
      have hzero : mantissa ≠ 0 ↔ q ≠ 0 := by
        rw [hq, Nat.mul_ne_zero_iff]
        exact and_iff_left (tenTo_pos k).ne'
      refine ⟨d, by rw [hd], by simp only [hnegative, hzero], ?_⟩
      rw [hmantissa, hscale, hq, Nat.mul_assoc, ← tenTo_add, Nat.add_sub_cancel' (by omega)]
    · rw [ofSigned?_eq_none hfits]
      have hne : k ≠ scale - s := by
        rintro rfl
        exact hfits (lt_mantissaLimit_of_drop hn (hq ▸ h))
      exact ih (by omega) (by omega) (by omega)

/-- A number that some decimal stands for is fitted exactly. -/
theorem fit_eq_some (negative : Bool) (hs : s ≤ maxScale) (hn : n < mantissaLimit)
    (h : mantissa * tenTo s = n * tenTo scale) :
    ∃ d, fit negative mantissa scale = some d ∧ d.negative = (negative && mantissa ≠ 0) ∧
      d.mantissa * tenTo scale = mantissa * tenTo d.scale :=
  fitFrom_eq_some hn h le_rfl (by omega) (by omega)

end

/-! ### Numbers -/

variable {a b : Decimal} {s : Nat} {p q : ℚ}

@[simp] theorem toRat_zero : zero.toRat = 0 := by simp [toRat, numerator, zero]

@[simp] theorem toRat_neg (a : Decimal) : a.neg.toRat = -a.toRat := by
  rcases a with ⟨_ | _, m, s, hm, hs⟩ <;> simp [toRat, numerator, neg, neg_div]

theorem toRat_of_mantissa_eq_zero (h : a.mantissa = 0) : a.toRat = 0 := by
  simp [toRat, numerator, h]

theorem tenTo_cast_ne_zero (k : Nat) : (tenTo k : ℚ) ≠ 0 := Nat.cast_ne_zero.mpr (tenTo_pos k).ne'

theorem tenTo_cast_pos (k : Nat) : (0 : ℚ) < tenTo k := Nat.cast_pos.mpr (tenTo_pos k)

/-- The numbers that need at most `s` places after the point. -/
def grid (s : Nat) : AddSubgroup ℚ := AddSubgroup.zmultiples (1 / (tenTo s : ℚ))

theorem mem_grid_iff : q ∈ grid s ↔ ∃ z : ℤ, q * tenTo s = z := by
  rw [grid, AddSubgroup.mem_zmultiples_iff]
  refine exists_congr fun z => ?_
  rw [zsmul_eq_mul, mul_one_div, div_eq_iff (tenTo_cast_ne_zero s), eq_comm]

theorem toRat_eq_numeratorAt (h : a.scale ≤ s) : a.toRat = a.numeratorAt s / tenTo s := by
  have hs : tenTo s = tenTo (s - a.scale) * tenTo a.scale := by
    rw [← tenTo_add, Nat.sub_add_cancel h]
  rw [toRat, numeratorAt, hs]
  push_cast
  rw [mul_comm (tenTo (s - a.scale) : ℚ) (tenTo a.scale : ℚ),
    mul_div_mul_right _ _ (tenTo_cast_ne_zero _)]

theorem toRat_mem_grid (h : a.scale ≤ s) : a.toRat ∈ grid s := by
  rw [mem_grid_iff, toRat_eq_numeratorAt h]
  exact ⟨a.numeratorAt s, div_mul_cancel₀ _ (tenTo_cast_ne_zero s)⟩

/-- Whether mantissas have room for numbers of at most `s` places that are no larger than a bound. -/
structure Room (s : Nat) (bound : ℚ) : Prop where
  scale_le : s ≤ maxScale
  lt_limit : bound * tenTo s < mantissaLimit

theorem Room.mono (h : Room s q) (hle : p ≤ q) : Room s p :=
  ⟨h.scale_le, lt_of_le_of_lt (mul_le_mul_of_nonneg_right hle (tenTo_cast_pos s).le) h.lt_limit⟩

/-- Whether some decimal of at most `s` places stands for a number. -/
structure Fits (s : Nat) (q : ℚ) : Prop where
  mem_grid : q ∈ grid s
  room : Room s |q|

theorem Fits.exists_int (h : Fits s q) : ∃ z : ℤ, q * tenTo s = z ∧ z.natAbs < mantissaLimit := by
  obtain ⟨z, hz⟩ := mem_grid_iff.mp h.mem_grid
  refine ⟨z, hz, ?_⟩
  have hlt := h.room.lt_limit
  rw [← abs_of_pos (tenTo_cast_pos s), ← abs_mul, hz] at hlt
  rw [← Int.ofNat_lt, Int.natCast_natAbs]
  exact_mod_cast hlt

/-- A quotient is fitted exactly if some decimal stands for it. -/
theorem fit_toRat {z : Int} {scale : Nat} (h : Fits s (z / tenTo scale)) :
    ∃ c, fit (z < 0) z.natAbs scale = some c ∧ c.toRat = z / tenTo scale := by
  obtain ⟨w, hw, hlt⟩ := h.exists_int
  have hscale := tenTo_cast_ne_zero scale
  have hint : z * tenTo s = w * tenTo scale := by
    rw [div_mul_eq_mul_div, div_eq_iff hscale] at hw
    exact_mod_cast hw
  have hnat : z.natAbs * tenTo s = w.natAbs * tenTo scale := by
    have h := congrArg Int.natAbs hint
    rwa [Int.natAbs_mul, Int.natAbs_mul, Int.natAbs_natCast, Int.natAbs_natCast] at h
  obtain ⟨c, hc, hnegative, hmantissa⟩ := fit_eq_some (decide (z < 0)) h.room.scale_le hlt hnat
  refine ⟨c, hc, ?_⟩
  have hnumerator : c.numerator * tenTo scale = z * tenTo c.scale := by
    rw [numerator, hnegative]
    zify at hmantissa
    by_cases hz : z < 0
    · have hne : z.natAbs ≠ 0 := by omega
      rw [abs_of_neg hz] at hmantissa
      simp only [hz, hne, decide_true, ne_eq, not_false_eq_true, Bool.and_self, if_true, neg_mul]
      rw [hmantissa, neg_mul, neg_neg]
    · rw [abs_of_nonneg (not_lt.mp hz)] at hmantissa
      simpa [hz] using hmantissa
  rw [toRat, div_eq_div_iff (tenTo_cast_ne_zero _) hscale]
  exact_mod_cast hnumerator

/-- Addition is exact whenever some decimal stands for the sum. -/
theorem add_eq_some (h : Fits s (a.toRat + b.toRat)) :
    ∃ c, a.add b = some c ∧ c.toRat = a.toRat + b.toRat := by
  by_cases ha : a.mantissa = 0
  · exact ⟨b, if_pos ha, by rw [toRat_of_mantissa_eq_zero ha, zero_add]⟩
  by_cases hb : b.mantissa = 0
  · exact ⟨a, by rw [add, if_neg ha, if_pos hb], by rw [toRat_of_mantissa_eq_zero hb, add_zero]⟩
  have hsum : a.toRat + b.toRat =
      ((a.numeratorAt (max a.scale b.scale) + b.numeratorAt (max a.scale b.scale) : ℤ) : ℚ) /
        tenTo (max a.scale b.scale) := by
    rw [toRat_eq_numeratorAt (le_max_left a.scale b.scale),
      toRat_eq_numeratorAt (le_max_right a.scale b.scale), ← add_div]
    push_cast
    rfl
  rw [hsum] at h ⊢
  rw [add, if_neg ha, if_neg hb]
  exact fit_toRat h

/-- Subtraction is exact whenever some decimal stands for the difference. -/
theorem sub_eq_some (h : Fits s (a.toRat - b.toRat)) :
    ∃ c, a.sub b = some c ∧ c.toRat = a.toRat - b.toRat := by
  by_cases hb : b.mantissa = 0
  · have hzero := toRat_of_mantissa_eq_zero hb
    rw [hzero, sub_zero, ← add_zero a.toRat, ← hzero] at h ⊢
    rw [sub, if_pos hb]
    exact add_eq_some h
  · rw [sub_eq_add_neg, ← toRat_neg] at h ⊢
    rw [sub, if_neg hb]
    exact add_eq_some h

theorem mantissa_eq_zero_of_toRat (h : a.toRat = 0) : a.mantissa = 0 := by
  have hnumerator : a.numerator = 0 := by
    rw [toRat, div_eq_zero_iff, or_iff_left (tenTo_cast_ne_zero _)] at h
    exact_mod_cast h
  rw [numerator] at hnumerator
  split at hnumerator <;> omega

/-- A number less itself is nothing. -/
theorem sub_self_eq_some (a : Decimal) : ∃ c, a.sub a = some c ∧ c.mantissa = 0 := by
  have hfits : Fits 0 (a.toRat - a.toRat) := by
    rw [sub_self]
    refine ⟨zero_mem _, Nat.zero_le _, ?_⟩
    rw [abs_zero, zero_mul]
    exact Nat.cast_pos.mpr (twoTo_pos 96)
  obtain ⟨c, hc, hvalue⟩ := sub_eq_some hfits
  exact ⟨c, hc, mantissa_eq_zero_of_toRat (hvalue.trans (sub_self _))⟩

theorem mul_of_mantissa_eq_zero (a : Decimal) (h : b.mantissa = 0) : a.mul b = some zero := if_pos (.inr h)

end Chainfolio.Decimal
