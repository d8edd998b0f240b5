import Mathlib.Analysis.Complex.ExponentialBounds
import Mathlib.Analysis.SpecialFunctions.Sqrt
import Chainfolio.Proofs.Decimal.Power
import Chainfolio.UniswapV3.Ticks

/-! The prices that are computed at ticks. At all ticks that a pool can have they are the powers of the root
of 1.0001 up to a few parts in a billion, and so are their inverses: the last of 28 places is what tells the
lowest prices apart. -/
namespace Chainfolio.Ticks

open Decimal

/-! ### Exact prices -/

/-- The square root of 1.0001. -/
noncomputable def root : ℝ := Real.sqrt (10001 / 10000)

/-- The square root of the price at a tick. -/
noncomputable def exactPrice (tick : Int) : ℝ := root ^ tick

def maxTick : Nat := 887272

/-- Whether a pool can have a tick. -/
def InRange (tick : Int) : Prop := tick.natAbs ≤ maxTick

theorem root_sq : root ^ 2 = 10001 / 10000 := Real.sq_sqrt (by norm_num)

theorem root_pos : 0 < root := Real.sqrt_pos.mpr (by norm_num)

theorem root_le : root ≤ 1 + 1 / 20000 := by
  rw [root, Real.sqrt_le_left (by norm_num)]
  norm_num

theorem le_root : 1 + 49998 / 10 ^ 9 ≤ root := Real.le_sqrt_of_sq_le (by norm_num)

theorem one_le_root : 1 ≤ root := le_trans (by norm_num) le_root

section
variable {e : Nat} {t u v x : ℝ}

/-- A base that is a little smaller than the root. -/
theorem one_le_root_mul (hu : u ≤ 1 / 10 ^ 25) : 1 ≤ root * (1 - u) := by
  calc (1 : ℝ) ≤ (1 + 49998 / 10 ^ 9) * (1 - 1 / 10 ^ 25) := by norm_num
    _ ≤ root * (1 - u) := mul_le_mul le_root (by linarith) (by norm_num) root_pos.le

/-- The largest price, also of a base that is a little larger than the root. -/
theorem root_mul_pow_le (hu : 0 ≤ u) (hu' : u ≤ 1 / 10 ^ 25) (he : e ≤ maxTick) :
    (root * (1 + u)) ^ e ≤ 3494 * 10 ^ 16 := by
  have hnonneg : 0 ≤ root * (1 + u) := mul_nonneg root_pos.le (by linarith)
  have hbase : root * (1 + u) ≤ Real.exp (1 / 19999) := by
    calc root * (1 + u) ≤ (1 + 1 / 20000) * (1 + 1 / 10 ^ 25) :=
          mul_le_mul root_le (by linarith) (by linarith) (by norm_num)
      _ ≤ 1 / 19999 + 1 := by norm_num
      _ ≤ Real.exp (1 / 19999) := Real.add_one_le_exp _
  calc (root * (1 + u)) ^ e ≤ Real.exp (1 / 19999) ^ e := pow_le_pow_left₀ hnonneg hbase e
    _ = Real.exp (e * (1 / 19999)) := (Real.exp_nat_mul ..).symm
    _ ≤ Real.exp (45 * 1) := by
      have he : (e : ℝ) ≤ 887272 := by exact_mod_cast he
      exact Real.exp_le_exp.mpr (by linarith)
    _ = Real.exp 1 ^ 45 := by exact_mod_cast Real.exp_nat_mul 1 45
    _ ≤ 2.7182818286 ^ 45 := pow_le_pow_left₀ (Real.exp_pos 1).le Real.exp_one_lt_d9.le 45
    _ ≤ 3494 * 10 ^ 16 := by norm_num

theorem root_pow_le (he : e ≤ maxTick) : root ^ e ≤ 35 * 10 ^ 18 := by
  have h := root_mul_pow_le le_rfl (by positivity) he
  rw [add_zero, mul_one] at h
  exact h.trans (by norm_num)

/-! ### Powers of the root -/

theorem root_error : |sqrtBase.magnitude - root| ≤ 1 / 10 ^ 29 := by
  have hvalue : sqrtBase.magnitude = 10000499987500624960940234170 / 10 ^ 28 := by
    rw [magnitude, placed, tenTo_real]
    norm_num [sqrtBase]
  have hupper : root ≤ (10000499987500624960940234170 + 1 / 10) / 10 ^ 28 := by
    rw [root, Real.sqrt_le_left (by norm_num)]
    norm_num
  have hlower : (10000499987500624960940234170 - 1 / 10) / 10 ^ 28 ≤ root :=
    Real.le_sqrt_of_sq_le (by norm_num)
  rw [hvalue, abs_le]
  constructor <;> linarith

/-- The computed root has a part of itself to spare beside bases that are off by more. -/
theorem sqrtBase_hasSlack (ht : 0 ≤ t) (ht' : t ≤ 1) (hu : t + (1 + t) / 10 ^ 29 ≤ u) :
    HasSlack t (root * (1 - u)) (root * (1 + u)) 1 sqrtBase.magnitude := by
  obtain ⟨hlower, hupper⟩ := abs_le.mp root_error
  have hspare : (1 + t) / 10 ^ 29 ≤ root * (u - t) := by
    have hpart : 0 ≤ (1 + t) / 10 ^ 29 := by positivity
    have hle : (1 + t) / 10 ^ 29 ≤ u - t := by linarith
    exact hle.trans (le_mul_of_one_le_left (hpart.trans hle) one_le_root)
  constructor
  · rw [pow_one]
    calc root * (1 - u) ≤ (root - 1 / 10 ^ 29) * (1 - t) := by linarith
      _ ≤ sqrtBase.magnitude * (1 - t) := mul_le_mul_of_nonneg_right (by linarith) (by linarith)
  · rw [pow_one]
    calc sqrtBase.magnitude * (1 + t) ≤ (root + 1 / 10 ^ 29) * (1 + t) :=
          mul_le_mul_of_nonneg_right (by linarith) (by linarith)
      _ ≤ root * (1 + u) := by linarith

/-- The part of itself that a power may be off by. -/
theorem near_of_isPower (hu : 0 ≤ u) (hu' : u ≤ 1) (hv : e * u ≤ v) (hv' : 1 ≤ (1 + v) * (1 - e * u))
    (h : IsPower (root * (1 - u)) (root * (1 + u)) e x) : Near v x (root ^ e) := by
  have hpos : 0 ≤ root ^ e := (pow_pos root_pos e).le
  have hdown : 1 - e * u ≤ (1 - u) ^ e := by
    have hbernoulli := one_add_mul_le_pow (a := -u) (by linarith) e
    rw [← sub_eq_add_neg] at hbernoulli
    linarith
  have hup : (1 + u) ^ e ≤ 1 + v := by
    have heu : 0 ≤ e * u := mul_nonneg (Nat.cast_nonneg e) hu
    have hrest : 0 < 1 - e * u := pos_of_mul_pos_right (zero_lt_one.trans_le hv') (by linarith)
    refine le_of_mul_le_mul_right ?_ hrest
    calc (1 + u) ^ e * (1 - e * u) ≤ (1 + u) ^ e * (1 - u) ^ e :=
          mul_le_mul_of_nonneg_left hdown (pow_nonneg (by linarith) e)
      _ = (1 - u ^ 2) ^ e := by rw [← mul_pow]; ring
      _ ≤ 1 := pow_le_one₀ (by nlinarith) (by nlinarith)
      _ ≤ (1 + v) * (1 - e * u) := hv'
  have hlower := h.lower
  have hupper := h.upper
  rw [mul_pow] at hlower hupper
  constructor
  · exact le_trans (mul_le_mul_of_nonneg_left (by linarith) hpos) hlower
  · exact hupper.trans (mul_le_mul_of_nonneg_left hup hpos)

/-- The part of itself that the price at a tick that is not negative may be off by. -/
noncomputable def powerSlack : ℝ := (978 : Nat) / tenTo 26

theorem powerSlack_eq : powerSlack = 978 / 10 ^ 26 := by
  rw [powerSlack, tenTo_real]
  norm_num

theorem powNat_near_of_small (hsmall : e < wideExponent) :
    ∃ d, sqrtBase.powNat e = some d ∧ d.negative = false ∧ 1 ≤ d.magnitude ∧
      Near powerSlack d.magnitude (root ^ e) := by
  have he : (e : ℝ) ≤ 1023 := by exact_mod_cast Nat.le_of_lt_succ hsmall
  have hlimit := root_mul_pow_le (u := 2 / 10 ^ 27) (by positivity) (by norm_num)
    (hsmall.le.trans (by decide))
  have hlo := one_le_root_mul (u := 2 / 10 ^ 27) (by norm_num)
  obtain ⟨d, hd, hsign, hpower⟩ := powNat_of_small (b := sqrtBase) rfl hlo
    (sqrtBase_hasSlack (by positivity) (by norm_num) (by norm_num)) (hlimit.trans (by norm_num)) hsmall
  refine ⟨d, hd, hsign, hpower.one_le hlo, near_of_isPower (by positivity) (by norm_num) ?_ ?_ hpower⟩
  · rw [powerSlack_eq]
    linarith
  · rw [powerSlack_eq]
    linarith

theorem powNat_near_of_large (he : e ≤ maxTick) (hlarge : wideExponent ≤ e) :
    ∃ d, sqrtBase.powNat e = some d ∧ d.negative = false ∧ 1 ≤ d.magnitude ∧
      Near powerSlack d.magnitude (root ^ e) := by
  have hle : (e : ℝ) ≤ 887272 := by exact_mod_cast he
  have hlimit := root_mul_pow_le (u := 11 / 10 ^ 30) (by positivity) (by norm_num) he
  have hlo := one_le_root_mul (u := 11 / 10 ^ 30) (by norm_num)
  have hslack : HasSlack Wide.slack (root * (1 - 11 / 10 ^ 30)) (root * (1 + 11 / 10 ^ 30)) 1 sqrtBase.magnitude := by
    apply sqrtBase_hasSlack <;> norm_num [Wide.slack_eq]
  obtain ⟨d, x, hd, hsign, hpower, hcut⟩ := powNat_of_large hlo hslack (hlimit.trans (by norm_num)) hlarge
  have hpos : 0 ≤ root ^ e := (pow_pos root_pos e).le
  have hx : Near (9765 / 10 ^ 27) x (root ^ e) :=
    near_of_isPower (by positivity) (by norm_num) (by linarith) (by linarith) hpower
  have hnear : Near powerSlack d.magnitude (root ^ e) := by
    apply hcut.trans hx hpos <;> norm_num [cutSlack_eq, powerSlack_eq]
  have hroot : root ≤ root ^ e := le_self_pow₀ one_le_root (Nat.lt_of_lt_of_le (by decide) hlarge).ne'
  refine ⟨d, hd, hsign, ?_, hnear⟩
  have hlower := hnear.lower
  have hone := le_root
  rw [powerSlack_eq] at hlower
  linarith

theorem powNat_near (he : e ≤ maxTick) :
    ∃ d, sqrtBase.powNat e = some d ∧ d.negative = false ∧ 1 ≤ d.magnitude ∧ d.magnitude ≤ 35 * 10 ^ 18 ∧
      Near powerSlack d.magnitude (root ^ e) := by
  obtain ⟨d, hd, hsign, hone, hnear⟩ : ∃ d, sqrtBase.powNat e = some d ∧ d.negative = false ∧
      1 ≤ d.magnitude ∧ Near powerSlack d.magnitude (root ^ e) := by
    rcases Nat.lt_or_ge e wideExponent with hsmall | hlarge
    · exact powNat_near_of_small hsmall
    · exact powNat_near_of_large he hlarge
  have hlimit := root_mul_pow_le le_rfl (by positivity) he
  have hupper := hnear.upper
  rw [add_zero, mul_one] at hlimit
  rw [powerSlack_eq] at hupper
  exact ⟨d, hd, hsign, hone, by linarith, hnear⟩

end

/-! ### Powers beside the largest mantissa -/

theorem root_even (k : Nat) : root ^ (2 * k) = 10001 ^ k / 10000 ^ k := by
  rw [pow_mul, root_sq, div_pow]

theorem root_even_le {k a b : Nat} (h : 10001 ^ k * a ≤ b * 10000 ^ k) : root ^ (2 * k) * a ≤ b := by
  rw [root_even, div_mul_eq_mul_div, div_le_iff₀ (by positivity)]
  exact_mod_cast h

theorem le_root_even {k a b : Nat} (h : b * 10000 ^ k ≤ 10001 ^ k * a) : b ≤ root ^ (2 * k) * a := by
  rw [root_even, div_mul_eq_mul_div, le_div_iff₀ (by positivity)]
  exact_mod_cast h

/-- The ticks between a price and the next one that is about ten times as large. -/
def tenfold : Nat := 2 * 23027

/-- The first tick whose price has digits beyond the largest mantissa. -/
def beyond : Nat := 2 * 20699

/-- The leading digits of the largest mantissa. -/
noncomputable def leading : ℝ := mantissaLimit / tenTo maxScale

theorem leading_pos : 0 < leading := div_pos (Nat.cast_pos.mpr (twoTo_pos 96)) (tenTo_real_pos maxScale)

theorem leading_eq : leading = 2 ^ 96 / 10 ^ 28 := by rw [leading, mantissaLimit_cast, tenTo_real, maxScale]

-- The kernel compares numbers of some hundred thousand bits here, which it multiplies at once.
theorem root_tenfold : 10 * (1 - 23 / 10 ^ 8) ≤ root ^ tenfold ∧ root ^ tenfold ≤ 10 := by
  have hlower : ((10 ^ 8 - 23 : Nat) * 10 : Nat) ≤ root ^ tenfold * (10 ^ 8 : Nat) :=
    le_root_even (by decide +kernel)
  have hupper : root ^ tenfold * (1 : Nat) ≤ (10 : Nat) := root_even_le (by decide +kernel)
  push_cast at hlower hupper
  constructor <;> linarith

theorem root_beyond :
    leading * (1 + 49 / 10 ^ 6) ≤ root ^ beyond ∧ root ^ beyond ≤ leading * (1 + 4979 / 10 ^ 8) := by
  have hlower : (2 ^ 96 * (10 ^ 6 + 49) : Nat) ≤ root ^ beyond * (10 ^ 34 : Nat) :=
    le_root_even (by decide +kernel)
  have hupper : root ^ beyond * (10 ^ 36 : Nat) ≤ (2 ^ 96 * (10 ^ 8 + 4979) : Nat) :=
    root_even_le (by decide +kernel)
  push_cast at hlower hupper
  rw [leading_eq]
  constructor <;> linarith

/-- No price has the leading digits of the largest mantissa. -/
theorem root_pow_clear (n : Nat) {i : Nat} (hi : i ≤ maxScale) :
    root ^ n ≤ leading * 10 ^ i * (1 - 2 / 10 ^ 7) ∨ leading * 10 ^ i * (1 + 4 / 10 ^ 5) ≤ root ^ n := by
  have hone := one_le_root
  have hpos := root_pos
  have hleading := leading_pos
  have hten : (0 : ℝ) < 10 ^ i := by positivity
  obtain ⟨hdown, hup⟩ := root_tenfold
  obtain ⟨hbeyond, hbeyond'⟩ := root_beyond
  -- the last price below the limit, and the first one above it, with `i` more digits before their points
  rcases Nat.lt_or_ge n (beyond + tenfold * i) with hlt | hge
  · left
    have hbefore : root ^ (beyond - 1) ≤ leading * (1 - 2 / 10 ^ 7) := by
      have hsucc : root ^ beyond = root ^ (beyond - 1) * root := (pow_succ root (beyond - 1)).symm
      have hroot := le_root
      have hleft : root ^ (beyond - 1) * (1 + 49998 / 10 ^ 9) ≤ leading * (1 + 4979 / 10 ^ 8) := by
        refine le_trans (mul_le_mul_of_nonneg_left hroot (pow_pos hpos _).le) ?_
        rwa [← hsucc]
      linarith
    calc root ^ n ≤ root ^ (beyond - 1 + tenfold * i) := pow_le_pow_right₀ hone (by simp only [beyond] at *; omega)
      _ = root ^ (beyond - 1) * (root ^ tenfold) ^ i := by rw [pow_add, pow_mul]
      _ ≤ leading * (1 - 2 / 10 ^ 7) * 10 ^ i :=
        mul_le_mul hbefore (pow_le_pow_left₀ (pow_pos hpos _).le hup i) (by positivity)
          (mul_nonneg hleading.le (by norm_num))
      _ = leading * 10 ^ i * (1 - 2 / 10 ^ 7) := by ring
  · right
    have hi : (i : ℝ) ≤ 28 := by exact_mod_cast hi
    have hpart : 1 - 7 / 10 ^ 6 ≤ (1 - 23 / 10 ^ 8 : ℝ) ^ i := by
      have hbernoulli := one_add_mul_le_pow (a := -(23 / 10 ^ 8 : ℝ)) (by norm_num) i
      rw [← sub_eq_add_neg] at hbernoulli
      linarith
    calc leading * 10 ^ i * (1 + 4 / 10 ^ 5)
        ≤ leading * 10 ^ i * ((1 + 49 / 10 ^ 6) * (1 - 7 / 10 ^ 6)) :=
          mul_le_mul_of_nonneg_left (by norm_num) (mul_pos hleading hten).le
      _ ≤ leading * 10 ^ i * ((1 + 49 / 10 ^ 6) * (1 - 23 / 10 ^ 8) ^ i) := by
          refine mul_le_mul_of_nonneg_left ?_ (mul_pos hleading hten).le
          exact mul_le_mul_of_nonneg_left hpart (by norm_num)
      _ = leading * (1 + 49 / 10 ^ 6) * (10 * (1 - 23 / 10 ^ 8)) ^ i := by
          rw [mul_pow]
          ring
      _ ≤ root ^ beyond * (root ^ tenfold) ^ i :=
          mul_le_mul hbeyond (pow_le_pow_left₀ (by norm_num) hdown i) (by positivity) (pow_pos hpos _).le
      _ = root ^ (beyond + tenfold * i) := by rw [pow_add, pow_mul]
      _ ≤ root ^ n := pow_le_pow_right₀ hone hge

/-- Numbers that are about a price are clear of the largest mantissa, so that a quotient may come out as one. -/
theorem clearOfLimit_of_near {n : Nat} {v : ℝ} (h : Near (2 / 10 ^ 9) v (root ^ n)) : Division.ClearOfLimit v := by
  intro places hplaces
  have hten : (0 : ℝ) < 10 ^ places := by positivity
  have hlimit : leading * 10 ^ (maxScale - places) * 10 ^ places = 2 ^ 96 := by
    rw [mul_assoc, ← pow_add, Nat.sub_add_cancel hplaces, leading_eq, maxScale]
    exact div_mul_cancel₀ _ (by norm_num)
  rw [mantissaLimit_cast, tenTo_real]
  rcases root_pow_clear n (Nat.sub_le maxScale places) with hbelow | habove
  · left
    have hle : v ≤ leading * 10 ^ (maxScale - places) * (1 - 1 / 10 ^ 7) := by
      have := h.upper
      have := mul_pos leading_pos (pow_pos (show (0 : ℝ) < 10 by norm_num) (maxScale - places))
      nlinarith
    have hscaled := mul_le_mul_of_nonneg_right hle hten.le
    rw [mul_right_comm, hlimit] at hscaled
    exact hscaled.trans_lt (by norm_num)
  · right
    have hle : leading * 10 ^ (maxScale - places) * (1 + 3 / 10 ^ 5) ≤ v := by
      have := h.lower
      have := mul_pos leading_pos (pow_pos (show (0 : ℝ) < 10 by norm_num) (maxScale - places))
      nlinarith
    have hscaled := mul_le_mul_of_nonneg_right hle hten.le
    rw [mul_right_comm, hlimit] at hscaled
    refine le_trans ?_ hscaled
    rw [Division.groupDigits]
    norm_num

/-! ### Prices and their inverses -/

theorem clearOfLimit_of_le_one {v : ℝ} (h : v ≤ 1) : Division.ClearOfLimit v := by
  intro places hplaces
  left
  calc v * 10 ^ places ≤ 1 * 10 ^ maxScale := by
        have hten : (10 : ℝ) ^ places ≤ 10 ^ maxScale := pow_le_pow_right₀ (by norm_num) hplaces
        exact mul_le_mul h hten (by positivity) zero_le_one
    _ < mantissaLimit - 1 := by
        rw [mantissaLimit_cast, maxScale]
        norm_num

theorem one_div_error {d : Decimal} (hsign : d.negative = false) (hpos : 0 < d.magnitude)
    (hlt : 1 / d.magnitude < mantissaLimit) (hclear : Division.ClearOfLimit (1 / d.magnitude)) :
    ∃ r, one.div d = some r ∧ r.negative = false ∧
      |r.magnitude - 1 / d.magnitude| ≤ 1 / d.magnitude * unit + unit / 2 := by
  have hne : d.mantissa ≠ 0 := fun h => hpos.ne' (magnitude_eq_zero h)
  rw [← magnitude_one] at hlt hclear ⊢
  exact div_of_clear (a := one) rfl hsign hne hlt hclear

/-- The smaller a number is, the larger a part of it is half a unit. -/
theorem near_of_half_unit {x v m u : ℝ} (hm : 0 < m) (hv : 1 / m ≤ v) (h : |x - v| ≤ v * u + unit / 2) :
    Near (u + unit * (m / 2)) x v := by
  refine .of_abs (h.trans ?_)
  have hone : 1 ≤ v * m := (div_le_iff₀ hm).mp hv
  have hunit := unit_pos
  have hhalf : unit / 2 * 1 ≤ unit / 2 * (v * m) := mul_le_mul_of_nonneg_left hone (by linarith)
  linarith

/-- The part of itself that the price at a negative tick may be off by, beside half a unit. -/
noncomputable def inverseSlack : ℝ := (981 : Nat) / tenTo 26

theorem inverseSlack_eq : inverseSlack = 981 / 10 ^ 26 := by
  rw [inverseSlack, tenTo_real]
  norm_num

/-- The price at a tick that is not negative, and the reciprocal that is the price at the opposite one. -/
theorem powNat_inverse {e : Nat} (he : e ≤ maxTick) :
    ∃ d r, sqrtBase.powNat e = some d ∧ one.div d = some r ∧ d.negative = false ∧ r.negative = false ∧
      Near powerSlack d.magnitude (root ^ e) ∧
      |r.magnitude - 1 / root ^ e| ≤ 1 / root ^ e * inverseSlack + unit / 2 := by
  obtain ⟨d, hd, hsign, hone, -, hnear⟩ := powNat_near he
  have hinv : 1 / d.magnitude ≤ 1 := (div_le_one (by linarith)).mpr hone
  have hlimit : (1 : ℝ) < mantissaLimit := by
    rw [mantissaLimit_cast]
    norm_num
  obtain ⟨r, hr, hsign', herror⟩ := one_div_error hsign (by linarith) (hinv.trans_lt hlimit)
    (clearOfLimit_of_le_one hinv)
  have hpos : 0 < root ^ e := pow_pos root_pos e
  have hinvpos := one_div_pos.mpr hpos
  have hinverse : Near (979 / 10 ^ 26) (1 / d.magnitude) (1 / root ^ e) := by
    apply hnear.inv hpos <;> norm_num [powerSlack_eq]
  refine ⟨d, r, hd, hr, hsign, hsign', hnear, ?_⟩
  have hupper := hinverse.upper
  calc |r.magnitude - 1 / root ^ e| ≤ |r.magnitude - 1 / d.magnitude| + |1 / d.magnitude - 1 / root ^ e| :=
        abs_sub_le ..
    _ ≤ 1 / d.magnitude * unit + unit / 2 + 1 / root ^ e * (979 / 10 ^ 26) := add_le_add herror hinverse.abs
    _ ≤ 1 / root ^ e * inverseSlack + unit / 2 := by
      rw [inverseSlack_eq, unit_eq]
      linarith

/-- The part of itself that a price or its inverse may be off by. -/
noncomputable def slack : ℝ := (18 : Nat) / tenTo 10

theorem slack_eq : slack = 18 / 10 ^ 10 := by
  rw [slack, tenTo_real]
  norm_num

/-- The part of itself that a price may be off by as long as it has digits enough. -/
noncomputable def digitSlack : ℝ := 1 / tenTo 23

theorem digitSlack_eq : digitSlack = 1 / 10 ^ 23 := by rw [digitSlack, tenTo_real]

/-- How far the price at a tick may be off. -/
noncomputable def priceError (tick : Int) : ℝ := exactPrice tick * digitSlack + unit / 2

/-- How far the inverse of the price at a tick may be off. That of a price below one is the reciprocal of a number
whose last place is rounded. -/
noncomputable def inverseError (tick : Int) : ℝ :=
  1 / exactPrice tick * digitSlack + if 0 ≤ tick then unit / 2 else (1 / exactPrice tick) ^ 2 * unit

/-- Whether decimals are about the price at a tick and its inverse. -/
structure Quotes (tick : Int) (price inverse : Decimal) : Prop where
  price_sign : price.negative = false
  inverse_sign : inverse.negative = false
  price_near : Near slack price.magnitude (exactPrice tick)
  inverse_near : Near slack inverse.magnitude (1 / exactPrice tick)
  price_error : |price.magnitude - exactPrice tick| ≤ priceError tick
  inverse_error : |inverse.magnitude - 1 / exactPrice tick| ≤ inverseError tick

/-- Half a unit is a small part of the inverse of the largest price. -/
theorem near_of_inverse_error {e : Nat} {x : ℝ} (he : e ≤ maxTick)
    (h : |x - 1 / root ^ e| ≤ 1 / root ^ e * inverseSlack + unit / 2) : Near (1752 / 10 ^ 12) x (1 / root ^ e) := by
  have hpos : 0 < root ^ e := pow_pos root_pos e
  have hsmall : 1 / (35 * 10 ^ 18) ≤ 1 / root ^ e := one_div_le_one_div_of_le hpos (root_pow_le he)
  refine (near_of_half_unit (by norm_num) hsmall h).mono (one_div_pos.mpr hpos).le ?_
  norm_num [inverseSlack_eq, unit_eq]

theorem exists_quotes_of_nonneg {tick : Int} (h : InRange tick) (hnonneg : 0 ≤ tick) :
    ∃ price inverse, sqrtPrice tick = .ok price ∧ one.div price = some inverse ∧ Quotes tick price inverse := by
  obtain ⟨d, r, hd, hr, hsign, hsign', hnear, herror⟩ := powNat_inverse h
  have hpos : 0 < root ^ tick.natAbs := pow_pos root_pos _
  have hinvpos := one_div_pos.mpr hpos
  have hexact : exactPrice tick = root ^ tick.natAbs := by
    rw [exactPrice, ← zpow_natCast, Int.natAbs_of_nonneg hnonneg]
  refine ⟨d, r, ?_, hr, hsign, hsign', ?_, ?_, ?_, ?_⟩
  · rw [sqrtPrice_eq, powInt, if_pos hnonneg, show tick.toNat = tick.natAbs by omega, hd]
    rfl
  · exact hexact ▸ hnear.mono hpos.le (by norm_num [powerSlack_eq, slack_eq])
  · exact hexact ▸ (near_of_inverse_error h herror).mono hinvpos.le (by norm_num [slack_eq])
  · rw [priceError, hexact]
    refine hnear.abs.trans (le_add_of_le_of_nonneg ?_ (half_pos unit_pos).le)
    exact mul_le_mul_of_nonneg_left (by norm_num [powerSlack_eq, digitSlack_eq]) hpos.le
  · rw [inverseError, if_pos hnonneg, hexact]
    refine herror.trans (add_le_add_left ?_ _)
    exact mul_le_mul_of_nonneg_left (by norm_num [inverseSlack_eq, digitSlack_eq]) hinvpos.le

/-- The reciprocal of a number is off by the part that the number is off by. -/
theorem reciprocal_error {x y u w : ℝ} (hx : 0 < x) (hy : 0 < y) (h : |x - y| ≤ y * u + w) :
    |1 / x - 1 / y| ≤ 1 / x * u + w * (1 / x * (1 / y)) := by
  have hpos : 0 < 1 / x * (1 / y) := mul_pos (one_div_pos.mpr hx) (one_div_pos.mpr hy)
  have hdifference : 1 / x - 1 / y = (y - x) * (1 / x * (1 / y)) := by
    field_simp
  rw [hdifference, abs_mul, abs_of_pos hpos, abs_sub_comm]
  calc |x - y| * (1 / x * (1 / y)) ≤ (y * u + w) * (1 / x * (1 / y)) := mul_le_mul_of_nonneg_right h hpos.le
    _ = 1 / x * u + w * (1 / x * (1 / y)) := by
      field_simp

/-- What a reciprocal of a reciprocal may be off by is the square of it in units of the last place, beside the part
that the digits take: a price that differs from one does so by more than the parts that are lost on the way. -/
theorem reciprocal_twice_error {x w y : ℝ} (hy : root ≤ y) (hw : w ≤ y * (1 + 1753 / 10 ^ 12))
    (hx : |x - w| ≤ w * unit + unit / 2) (hback : |w - y| ≤ w * inverseSlack + unit / 2 * (w * y)) :
    |x - y| ≤ y * digitSlack + y ^ 2 * unit := by
  have hone : 1 + 49998 / 10 ^ 9 ≤ y := le_root.trans hy
  have hsquare : (1 + 49998 / 10 ^ 9) * (1 + 49998 / 10 ^ 9) ≤ y * y :=
    mul_self_le_mul_self (by norm_num) hone
  have hproduct : w * y ≤ y * (1 + 1753 / 10 ^ 12) * y := mul_le_mul_of_nonneg_right hw (by linarith)
  calc |x - y| ≤ |x - w| + |w - y| := abs_sub_le ..
    _ ≤ w * unit + unit / 2 + (w * inverseSlack + unit / 2 * (w * y)) := add_le_add hx hback
    _ ≤ y * digitSlack + y ^ 2 * unit := by
      rw [unit_eq, inverseSlack_eq, digitSlack_eq, sq]
      linarith

/-- The inverse of a price below one is the reciprocal of a reciprocal, with digits before its point. -/
theorem exists_quotes_of_neg {tick : Int} (h : InRange tick) (hneg : tick < 0) :
    ∃ price inverse, sqrtPrice tick = .ok price ∧ one.div price = some inverse ∧ Quotes tick price inverse := by
  obtain ⟨p, d, hp, hd, -, hsign, -, herror⟩ := powNat_inverse h
  have hnear := near_of_inverse_error h herror
  have hpos : 0 < root ^ tick.natAbs := pow_pos root_pos _
  have hinvpos := one_div_pos.mpr hpos
  have hdpos := hnear.pos hinvpos (by norm_num)
  have hexact : exactPrice tick = 1 / root ^ tick.natAbs := by
    rw [exactPrice, one_div, ← zpow_natCast, ← zpow_neg, Int.ofNat_natAbs_of_nonpos hneg.le, neg_neg]
  have hback := hnear.inv (v := 1753 / 10 ^ 12) hinvpos (by norm_num) (by norm_num) (by norm_num)
  rw [one_div_one_div] at hback
  have htwo : 1 / 2 ≤ 1 / d.magnitude := by
    have hone : 1 / root ^ tick.natAbs ≤ 1 := (div_le_one hpos).mpr (one_le_pow₀ one_le_root)
    exact one_div_le_one_div_of_le hdpos (by linarith [hnear.upper])
  have hlimit : 1 / d.magnitude < mantissaLimit := by
    have hroom : (36 * 10 ^ 18 : ℝ) < 2 ^ 96 := by norm_num
    rw [mantissaLimit_cast]
    linarith [hback.upper, root_pow_le h]
  obtain ⟨r, hr, hsign', hreciprocal⟩ := one_div_error hsign hdpos hlimit
    (clearOfLimit_of_near (hback.mono hpos.le (by norm_num)))
  refine ⟨d, r, ?_, hr, hsign, hsign', ?_, ?_, ?_, ?_⟩
  · rw [sqrtPrice_eq, powInt, if_neg (not_le.mpr hneg), show (-tick).toNat = tick.natAbs by omega, hp,
      Option.bind_some, hd]
    rfl
  · exact hexact ▸ hnear.mono hinvpos.le (by norm_num [slack_eq])
  · rw [hexact, one_div_one_div]
    exact (near_of_half_unit two_pos htwo hreciprocal).trans hback hpos.le (by norm_num [unit_eq])
      (by norm_num [unit_eq]) (by norm_num) (by norm_num [unit_eq, slack_eq])
  · rw [priceError, hexact]
    refine herror.trans (add_le_add_left ?_ _)
    exact mul_le_mul_of_nonneg_left (by norm_num [inverseSlack_eq, digitSlack_eq]) hinvpos.le
  · have hflip := reciprocal_error hdpos hinvpos herror
    have hroot : root ≤ root ^ tick.natAbs := le_self_pow₀ one_le_root (by omega)
    rw [inverseError, if_neg (not_le.mpr hneg), hexact]
    rw [one_div_one_div] at hflip ⊢
    exact reciprocal_twice_error hroot hback.upper hreciprocal hflip

/-- All ticks that a pool can have have a price and an inverse. -/
theorem exists_quotes {tick : Int} (h : InRange tick) :
    ∃ price inverse, sqrtPrice tick = .ok price ∧ one.div price = some inverse ∧ Quotes tick price inverse := by
  rcases le_or_gt 0 tick with hnonneg | hneg
  · exact exists_quotes_of_nonneg h hnonneg
  · exact exists_quotes_of_neg h hneg

/-! ### Prices apart -/

theorem exactPrice_pos (tick : Int) : 0 < exactPrice tick := zpow_pos root_pos tick

/-- The prices at two ticks are apart by the root at least. -/
theorem root_mul_exactPrice_le {a b : Int} (h : a < b) : root * exactPrice a ≤ exactPrice b := by
  rw [exactPrice, exactPrice, ← zpow_one_add₀ root_pos.ne']
  exact zpow_le_zpow_right₀ one_le_root (by omega)

theorem root_mul_inverse_le {a b : Int} (h : a < b) : root * (1 / exactPrice b) ≤ 1 / exactPrice a := by
  rw [mul_one_div, div_le_div_iff₀ (exactPrice_pos b) (exactPrice_pos a), one_mul]
  exact root_mul_exactPrice_le h

theorem exactPrice_le {tick : Int} (h : InRange tick) : exactPrice tick ≤ 35 * 10 ^ 18 := by
  refine le_trans ?_ (root_pow_le h)
  rw [exactPrice, ← zpow_natCast]
  exact zpow_le_zpow_right₀ one_le_root (by omega)

/-- The inverse of a price is the price at the opposite tick. -/
theorem one_div_exactPrice (tick : Int) : 1 / exactPrice tick = exactPrice (-tick) := by
  rw [exactPrice, exactPrice, zpow_neg, one_div]

theorem exactPrice_even (k : Nat) : exactPrice (2 * k : Nat) = root ^ (2 * k) := zpow_natCast root (2 * k)

theorem exactPrice_even_le {k b : Nat} (h : 10001 ^ k ≤ b * 10000 ^ k) : exactPrice (2 * k : Nat) ≤ b := by
  have hroot : root ^ (2 * k) * (1 : Nat) ≤ b := root_even_le (by rwa [Nat.mul_one])
  rwa [exactPrice_even, ← mul_one (root ^ (2 * k)), ← Nat.cast_one]

theorem le_exactPrice_even {k b : Nat} (h : b * 10000 ^ k ≤ 10001 ^ k) : b ≤ exactPrice (2 * k : Nat) := by
  have hroot : b ≤ root ^ (2 * k) * (1 : Nat) := le_root_even (by rwa [Nat.mul_one])
  rwa [exactPrice_even, ← mul_one (root ^ (2 * k)), ← Nat.cast_one]

theorem inverse_le {tick : Int} (h : InRange tick) : 1 / exactPrice tick ≤ 35 * 10 ^ 18 := by
  rw [one_div_exactPrice]
  exact exactPrice_le (by rwa [InRange, Int.natAbs_neg])

/-- The part of itself that the difference of two prices may be off by. -/
noncomputable def spreadSlack : ℝ := (73 : Nat) / tenTo 6

theorem spreadSlack_eq : spreadSlack = 73 / 10 ^ 6 := by
  rw [spreadSlack, tenTo_real]
  norm_num

/-- The difference of prices that are apart is off by a larger part than they are. -/
theorem sub_near {x y p q : ℝ} (hx : Near slack x p) (hy : Near slack y q) (hq : 0 < q) (hgap : root * q ≤ p) :
    Near spreadSlack (x - y) (p - q) := by
  have hpart : (p + q) * slack ≤ (p - q) * spreadSlack := by
    have hleft : (1 + 49998 / 10 ^ 9) * q ≤ p := le_trans (mul_le_mul_of_nonneg_right le_root hq.le) hgap
    rw [slack_eq, spreadSlack_eq]
    linarith
  have hx_lower := hx.lower
  have hx_upper := hx.upper
  have hy_lower := hy.lower
  have hy_upper := hy.upper
  constructor <;> linarith

end Chainfolio.Ticks
