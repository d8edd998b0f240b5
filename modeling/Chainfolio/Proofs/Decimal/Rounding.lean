import Mathlib.Data.Real.Basic
import Mathlib.Tactic.FieldSimp
import Mathlib.Tactic.Linarith
import Mathlib.Tactic.Positivity
import Mathlib.Tactic.Ring
import Chainfolio.Decimal.Arithmetic

/-! How far rounding takes decimals off. A result that has to drop digits keeps as many as fit, so that it
is off by a small part of itself; one that has to drop places after the last one that decimals have is off
by half a unit of that place. -/
namespace Chainfolio

/-- Whether `x` is `y`, which is not negative, up to a part `u` of it. -/
structure Near (u x y : ℝ) : Prop where
  lower : y * (1 - u) ≤ x
  upper : x ≤ y * (1 + u)

namespace Near

variable {u v w x y z : ℝ}

theorem of_abs (h : |x - y| ≤ y * u) : Near u x y := by
  rw [abs_le] at h
  constructor <;> linarith

theorem abs (h : Near u x y) : |x - y| ≤ y * u := by
  have hlower := h.lower
  have hupper := h.upper
  rw [abs_le]
  constructor <;> linarith

theorem mono (h : Near u x y) (hy : 0 ≤ y) (huv : u ≤ v) : Near v x y where
  lower := le_trans (mul_le_mul_of_nonneg_left (by linarith) hy) h.lower
  upper := h.upper.trans (mul_le_mul_of_nonneg_left (by linarith) hy)

/-- The parts of two steps add up, with a little more. -/
theorem trans (h : Near u x y) (h' : Near v y z) (hz : 0 ≤ z) (hu : 0 ≤ u) (hu' : u ≤ 1) (hv : 0 ≤ v)
    (hw : u + v + u * v ≤ w) : Near w x z where
  lower := by
    have huv : 0 ≤ u * v := mul_nonneg hu hv
    calc z * (1 - w) ≤ z * ((1 - v) * (1 - u)) := mul_le_mul_of_nonneg_left (by linarith) hz
      _ = z * (1 - v) * (1 - u) := (mul_assoc ..).symm
      _ ≤ y * (1 - u) := mul_le_mul_of_nonneg_right h'.lower (by linarith)
      _ ≤ x := h.lower
  upper := by
    calc x ≤ y * (1 + u) := h.upper
      _ ≤ z * (1 + v) * (1 + u) := mul_le_mul_of_nonneg_right h'.upper (by linarith)
      _ = z * ((1 + v) * (1 + u)) := mul_assoc ..
      _ ≤ z * (1 + w) := mul_le_mul_of_nonneg_left (by linarith) hz

theorem mul_left (h : Near u x y) (hz : 0 ≤ z) : Near u (z * x) (z * y) where
  lower := by
    rw [mul_assoc]
    exact mul_le_mul_of_nonneg_left h.lower hz
  upper := by
    rw [mul_assoc]
    exact mul_le_mul_of_nonneg_left h.upper hz

theorem pos (h : Near u x y) (hy : 0 < y) (hu : u < 1) : 0 < x :=
  (mul_pos hy (by linarith)).trans_le h.lower

/-- The reciprocal is off by a little more. -/
theorem inv (h : Near u x y) (hy : 0 < y) (hu : u < 1) (huv : u ≤ v) (hv : 1 ≤ (1 - u) * (1 + v)) :
    Near v (1 / x) (1 / y) := by
  have hx := h.pos hy hu
  have hpos : 0 < 1 + v := (pos_iff_pos_of_mul_pos (zero_lt_one.trans_le hv)).mp (by linarith)
  constructor
  · rw [div_mul_eq_mul_div, one_mul, div_le_div_iff₀ hy hx, one_mul]
    calc (1 - v) * x ≤ (1 - u) * x := mul_le_mul_of_nonneg_right (by linarith) hx.le
      _ ≤ (1 - u) * (y * (1 + u)) := mul_le_mul_of_nonneg_left h.upper (by linarith)
      _ = y * (1 - u ^ 2) := by ring
      _ ≤ y := mul_le_of_le_one_right hy.le (sub_le_self _ (sq_nonneg u))
  · rw [div_mul_eq_mul_div, one_mul, div_le_div_iff₀ hx hy, one_mul]
    calc y ≤ y * ((1 - u) * (1 + v)) := le_mul_of_one_le_right hy.le hv
      _ = (1 + v) * (y * (1 - u)) := by ring
      _ ≤ (1 + v) * x := mul_le_mul_of_nonneg_left h.lower hpos.le

end Near

theorem roundHalfEven_error (num : Nat) {den : Nat} (hden : 0 < den) :
    |(roundHalfEven num den : ℝ) - num / den| ≤ 1 / 2 := by
  have hpos : (0 : ℝ) < den := Nat.cast_pos.mpr hden
  have hvalue : (num : ℝ) / den = (num / den : Nat) + (num % den : Nat) / den := by
    rw [div_eq_iff hpos.ne', add_mul, div_mul_cancel₀ _ hpos.ne', mul_comm]
    exact_mod_cast (Nat.div_add_mod num den).symm
  have hlt : ((num % den : Nat) : ℝ) / den < 1 := by
    rw [div_lt_one hpos]
    exact_mod_cast Nat.mod_lt num hden
  rw [hvalue, roundHalfEven]
  split
  · next hup =>
    have hhalf : (1 : ℝ) / 2 ≤ (num % den : Nat) / den := by
      have h : den ≤ 2 * (num % den) := by omega
      rw [div_le_div_iff₀ two_pos hpos]
      exact_mod_cast (by omega : 1 * den ≤ num % den * 2)
    push_cast
    rw [abs_le]
    constructor <;> linarith
  · next hdown =>
    have hhalf : ((num % den : Nat) : ℝ) / den ≤ 1 / 2 := by
      have h : 2 * (num % den) ≤ den := by omega
      rw [div_le_div_iff₀ hpos two_pos]
      exact_mod_cast (by omega : num % den * 2 ≤ 1 * den)
    have hnonneg : (0 : ℝ) ≤ (num % den : Nat) / den := by positivity
    rw [abs_le]
    constructor <;> linarith

namespace Decimal

/-! ### Mantissas and places -/

section
variable {mantissa scale j k : Nat}

/-- The number that a mantissa with some places stands for. -/
noncomputable def placed (mantissa scale : Nat) : ℝ := mantissa / tenTo scale

theorem tenTo_real (k : Nat) : (tenTo k : ℝ) = 10 ^ k := by
  rw [show tenTo k = 10 ^ k from rfl]
  push_cast
  rfl

theorem twoTo_real (k : Nat) : (twoTo k : ℝ) = 2 ^ k := by
  rw [show twoTo k = 2 ^ k from rfl]
  push_cast
  rfl

theorem tenTo_real_pos (k : Nat) : (0 : ℝ) < tenTo k := Nat.cast_pos.mpr (tenTo_pos k)

theorem placed_nonneg (mantissa scale : Nat) : 0 ≤ placed mantissa scale := by
  rw [placed]
  positivity

theorem placed_mul (m s m' s' : Nat) : placed m s * placed m' s' = placed (m * m') (s + s') := by
  rw [placed, placed, placed, tenTo_add, div_mul_div_comm]
  push_cast
  rfl

/-- Moving the point of a number takes some of its places. -/
theorem placed_eq (hk : k ≤ scale) : placed mantissa scale = mantissa / tenTo k / tenTo (scale - k) := by
  rw [placed, div_div, ← Nat.cast_mul, ← tenTo_add, Nat.add_sub_cancel' hk]

/-- Half a unit of the last place that is left is lost at most. -/
theorem placed_dropped (mantissa : Nat) (hk : k ≤ scale) :
    |placed (dropped mantissa k) (scale - k) - placed mantissa scale| ≤ 1 / 2 / tenTo (scale - k) := by
  have hpos := tenTo_real_pos (scale - k)
  rw [placed_eq hk, placed, dropped, ← sub_div, abs_div, abs_of_pos hpos]
  exact div_le_div_of_nonneg_right (roundHalfEven_error mantissa (tenTo_pos k)) hpos.le

/-! ### Fitting -/

variable {negative : Bool} {fuel : Nat}

/-- Fitting drops the fewest of the places from `k` on, or fails as even the integer part is too large. -/
theorem fitFrom_cases (negative : Bool) (mantissa scale k fuel : Nat) (hfuel : scale < k + fuel) (hk : k ≤ scale)
    (hplaces : scale - k ≤ maxScale) :
    (∃ j d, k ≤ j ∧ j ≤ scale ∧ (j = k ∨ mantissaLimit ≤ dropped mantissa (j - 1)) ∧
      fitFrom negative mantissa scale k fuel = some d ∧
      d.negative = (negative && dropped mantissa j ≠ 0) ∧ d.mantissa = dropped mantissa j ∧
      d.scale = scale - j) ∨
    (fitFrom negative mantissa scale k fuel = none ∧ mantissaLimit ≤ dropped mantissa scale) := by
  induction fuel generalizing k with
  | zero => omega
  | succ fuel ih =>
    rw [fitFrom, if_pos hk]
    by_cases hfits : dropped mantissa k < mantissaLimit
    · refine .inl ⟨k, ⟨negative && dropped mantissa k ≠ 0, dropped mantissa k, scale - k, hfits, hplaces⟩,
        le_rfl, hk, .inl rfl, ?_, rfl, rfl, rfl⟩
      rw [ofSigned?, ofParts?, dif_pos ⟨hfits, hplaces⟩]
    · rw [ofSigned?, ofParts?, dif_neg fun h => hfits h.1]
      have hlimit := Nat.le_of_not_lt hfits
      rcases Nat.lt_or_ge k scale with hlt | hge
      · rcases ih (k + 1) (by omega) hlt (by omega) with ⟨j, d, hj, hjs, hfirst, hd⟩ | hnone
        · refine .inl ⟨j, d, by omega, hjs, .inr ?_, hd⟩
          rcases hfirst with rfl | hbefore
          · exact hlimit
          · exact hbefore
        · exact .inr hnone
      · obtain rfl : k = scale := by omega
        refine .inr ⟨?_, hlimit⟩
        cases fuel with
        | zero => rfl
        | succ fuel => exact if_neg (by omega)

/-- A part of a number that is enough for what rounding to a full mantissa takes off. -/
noncomputable def unit : ℝ := 1 / tenTo maxScale

theorem unit_eq : unit = 1 / 10 ^ 28 := by
  rw [unit, tenTo_real, maxScale]

theorem unit_pos : 0 < unit := div_pos one_pos (tenTo_real_pos _)

theorem mantissaLimit_cast : (mantissaLimit : ℝ) = 2 ^ 96 := by
  rw [mantissaLimit, twoTo_real]

/-- A mantissa that is full before its last place is dropped keeps enough digits. -/
theorem half_le_of_full (hj : 0 < j) (hjs : j ≤ scale)
    (hfull : (mantissaLimit : ℝ) - 1 / 2 ≤ mantissa / tenTo (j - 1)) :
    1 / 2 / tenTo (scale - j) ≤ placed mantissa scale * unit := by
  have hpos := tenTo_real_pos (scale - j)
  have hten : (tenTo (scale - (j - 1)) : ℝ) = tenTo (scale - j) * 10 := by
    rw [show scale - (j - 1) = scale - j + 1 by omega, tenTo_succ]
    push_cast
    rfl
  rw [mantissaLimit_cast] at hfull
  rw [placed_eq (k := j - 1) (by omega), hten, unit_eq, div_mul_eq_mul_div, div_le_div_iff₀ hpos (by positivity)]
  nlinarith

/-- Numbers that have room are fitted, up to a part of a unit of themselves and, if there are places after
the last one that decimals have, half a unit. -/
theorem fit_cases (negative : Bool) (mantissa scale : Nat) :
    (∃ d, fit negative mantissa scale = some d ∧ (d.negative = true → negative = true ∧ d.mantissa ≠ 0) ∧
      |placed d.mantissa d.scale - placed mantissa scale| ≤
        placed mantissa scale * unit + (if scale ≤ maxScale then 0 else unit / 2)) ∨
    (fit negative mantissa scale = none ∧ (mantissaLimit : ℝ) - 1 / 2 ≤ placed mantissa scale) := by
  have hfull {j : Nat} (h : mantissaLimit ≤ dropped mantissa j) :
      (mantissaLimit : ℝ) - 1 / 2 ≤ mantissa / tenTo j := by
    have hrounded := (abs_le.mp (roundHalfEven_error mantissa (tenTo_pos j))).2
    have hlimit : (mantissaLimit : ℝ) ≤ dropped mantissa j := by exact_mod_cast h
    rw [dropped] at hlimit
    linarith
  rcases fitFrom_cases negative mantissa scale (scale - maxScale) (scale + 1) (by omega) (by omega)
      (by omega) with ⟨j, d, hj, hjs, hfirst, hd, hnegative, hmantissa, hscale⟩ | ⟨hnone, hlimit⟩
  · refine .inl ⟨d, hd, by simp [hnegative, hmantissa], ?_⟩
    have hpart : 0 ≤ placed mantissa scale * unit := mul_nonneg (placed_nonneg _ _) unit_pos.le
    have hdropped := placed_dropped mantissa hjs
    rw [hmantissa, hscale]
    by_cases hplaces : scale ≤ maxScale
    · rw [if_pos hplaces, add_zero]
      rcases Nat.eq_zero_or_pos j with rfl | hpos
      · rw [dropped, tenTo_zero, roundHalfEven_one, Nat.sub_zero, sub_self, abs_zero]
        exact hpart
      · exact hdropped.trans (half_le_of_full hpos hjs (hfull (hfirst.resolve_left (by omega))))
    · rw [if_neg hplaces]
      rcases hfirst with rfl | hfirst
      · rw [Nat.sub_sub_self (by omega)] at hdropped ⊢
        have hhalf : 1 / 2 / (tenTo maxScale : ℝ) = unit / 2 := div_right_comm _ _ _
        linarith
      · have hlost := half_le_of_full (by omega) hjs (hfull hfirst)
        linarith [unit_pos]
  · exact .inr ⟨hnone, hfull hlimit⟩

end

/-! ### Products and differences -/

variable {a b : Decimal}

/-- The number that a decimal stands for, without its sign. -/
noncomputable def magnitude (a : Decimal) : ℝ := placed a.mantissa a.scale

theorem magnitude_nonneg (a : Decimal) : 0 ≤ a.magnitude := placed_nonneg _ _

theorem magnitude_eq_zero (h : a.mantissa = 0) : a.magnitude = 0 := by
  rw [magnitude, placed, h, Nat.cast_zero, zero_div]

theorem magnitude_lt (a : Decimal) : a.magnitude < mantissaLimit - 1 / 2 := by
  have hone : (1 : ℝ) ≤ tenTo a.scale := by exact_mod_cast tenTo_pos a.scale
  have hmantissa : (a.mantissa : ℝ) + 1 ≤ mantissaLimit := by exact_mod_cast a.mantissa_lt
  have hle : a.magnitude ≤ a.mantissa := div_le_self (Nat.cast_nonneg _) hone
  linarith

/-- A product that has room is off by a part of a unit of itself, and by half a unit if there are places
after the last one that decimals have. -/
theorem mul_cases (ha : a.negative = false) (hb : b.negative = false)
    (hwide : ¬ (a.isNarrow ∧ b.isNarrow ∧ narrowScale < a.scale + b.scale)) :
    (∃ d, a.mul b = some d ∧ d.negative = false ∧
      |d.magnitude - a.magnitude * b.magnitude| ≤
        a.magnitude * b.magnitude * unit + (if a.scale + b.scale ≤ maxScale then 0 else unit / 2)) ∨
    (a.mul b = none ∧ (mantissaLimit : ℝ) - 1 / 2 ≤ a.magnitude * b.magnitude) := by
  rw [mul]
  by_cases hzero : a.mantissa = 0 ∨ b.mantissa = 0
  · have hproduct : a.magnitude * b.magnitude = 0 := by
      rcases hzero with h | h
      · rw [magnitude_eq_zero h, zero_mul]
      · rw [magnitude_eq_zero h, mul_zero]
    refine .inl ⟨zero, if_pos hzero, rfl, ?_⟩
    rw [hproduct, magnitude_eq_zero rfl, sub_zero, abs_zero, zero_mul, zero_add]
    have := unit_pos
    split <;> positivity
  · rw [if_neg hzero, if_neg hwide, ha, hb]
    rcases fit_cases (false != false) (a.mantissa * b.mantissa) (a.scale + b.scale) with
      ⟨d, hd, hnegative, herror⟩ | ⟨hnone, hlimit⟩
    · rw [← placed_mul] at herror
      exact .inl ⟨d, hd, by simpa using mt hnegative (by simp), herror⟩
    · rw [← placed_mul] at hlimit
      exact .inr ⟨hnone, hlimit⟩

theorem numeratorAt_eq (ha : a.negative = false) {scale : Nat} (hscale : a.scale ≤ scale) :
    (a.numeratorAt scale : ℝ) = a.magnitude * tenTo scale := by
  rw [numeratorAt, numerator, ha, if_neg Bool.false_ne_true, magnitude, placed, div_mul_eq_mul_div,
    eq_div_iff (tenTo_real_pos a.scale).ne', ← Nat.sub_add_cancel hscale, tenTo_add, Nat.add_sub_cancel]
  push_cast
  ring

theorem numeratorAt_neg (b : Decimal) (scale : Nat) : b.neg.numeratorAt scale = -b.numeratorAt scale := by
  rcases b with ⟨_ | _, m, s, hm, hs⟩ <;> simp [numeratorAt, numerator, neg]

/-- The difference of a number and one that is not larger is off by a part of a unit of itself. -/
theorem sub_of_le (ha : a.negative = false) (hb : b.negative = false) (hle : b.magnitude ≤ a.magnitude) :
    ∃ d, a.sub b = some d ∧ d.negative = false ∧
      |d.magnitude - (a.magnitude - b.magnitude)| ≤ (a.magnitude - b.magnitude) * unit := by
  by_cases hbzero : b.mantissa = 0
  · have hbvalue := magnitude_eq_zero hbzero
    by_cases hazero : a.mantissa = 0
    · refine ⟨b, by rw [sub, if_pos hbzero, add, if_pos hazero], hb, ?_⟩
      rw [hbvalue, magnitude_eq_zero hazero, sub_self, sub_self, abs_zero, zero_mul]
    · refine ⟨a, by rw [sub, if_pos hbzero, add, if_neg hazero, if_pos hbzero], ha, ?_⟩
      rw [hbvalue, sub_zero, sub_self, abs_zero]
      exact mul_nonneg (magnitude_nonneg a) unit_pos.le
  · have hbpos : 0 < b.magnitude :=
      div_pos (Nat.cast_pos.mpr (Nat.pos_of_ne_zero hbzero)) (tenTo_real_pos b.scale)
    have hane : a.mantissa ≠ 0 := fun h => (hbpos.trans_le hle).ne' (magnitude_eq_zero h)
    have hscale : max a.scale b.neg.scale ≤ maxScale := max_le a.scale_le b.scale_le
    have hz : ((a.numeratorAt (max a.scale b.neg.scale) + b.neg.numeratorAt (max a.scale b.neg.scale) :
        Int) : ℝ) = (a.magnitude - b.magnitude) * tenTo (max a.scale b.neg.scale) := by
      rw [numeratorAt_neg]
      push_cast
      rw [numeratorAt_eq ha (le_max_left _ _),
        numeratorAt_eq hb (show b.scale ≤ _ from le_max_right a.scale b.neg.scale)]
      ring
    rw [sub, if_neg hbzero, add, if_neg hane, if_neg (show ¬ b.neg.mantissa = 0 from hbzero)]
    dsimp only
    generalize max a.scale b.neg.scale = scale at hscale hz ⊢
    generalize a.numeratorAt scale + b.neg.numeratorAt scale = z at hz ⊢
    have hznonneg : (0 : ℝ) ≤ z := hz ▸ mul_nonneg (sub_nonneg.mpr hle) (tenTo_real_pos scale).le
    obtain ⟨n, rfl⟩ := Int.eq_ofNat_of_zero_le (Int.cast_nonneg_iff.mp hznonneg)
    have hplaced : placed n scale = a.magnitude - b.magnitude := by
      rw [placed, div_eq_iff (tenTo_real_pos scale).ne']
      exact_mod_cast hz
    rcases fit_cases ((n : Int) < 0) n scale with ⟨d, hd, hnegative, herror⟩ | ⟨-, hlimit⟩
    · rw [hplaced, if_pos hscale, add_zero] at herror
      exact ⟨d, hd, by simpa using mt hnegative (by simp), herror⟩
    · have := magnitude_lt a
      have := magnitude_nonneg b
      linarith

end Decimal

end Chainfolio
