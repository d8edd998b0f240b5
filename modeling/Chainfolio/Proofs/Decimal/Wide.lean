import Mathlib.Algebra.Order.Ring.Pow
import Mathlib.Data.Nat.Cast.Order.Field
import Chainfolio.Decimal.Power
import Chainfolio.Proofs.Decimal.Division

/-! Numbers with wide mantissas. They are shortened and cut by whole digits, each time by little, so that a
wide product is off by a tiny part of itself. -/
namespace Chainfolio.Decimal

/-! ### Cutting digits off -/

namespace Cut

variable {bits k k' K group j : Nat} {c c' : Cut}

/-- What remains when the last digits are dropped at once. -/
def drop (c : Cut) (group : Nat) : Cut :=
  ⟨c.mantissa / tenTo group, c.scale - group, c.mantissa % tenTo group⟩

/-- Whether `c'` is left of `c` in `bits` bits when the last `K` digits are dropped: the `k` digits that have
to go, or more of them because without the last one too many bits would remain. -/
structure Leaves (bits k : Nat) (c : Cut) (K : Nat) (c' : Cut) : Prop where
  wanted : k ≤ K
  places : K ≤ c.scale
  mantissa : c'.mantissa = c.mantissa / tenTo K
  scale : c'.scale = c.scale - K
  fits : c'.mantissa < twoTo bits
  reason : K = k ∨ ∃ J, K = J + 1 ∧ twoTo bits ≤ c.mantissa / tenTo J

theorem Leaves.refl (hfits : c.mantissa < twoTo bits) : Leaves bits 0 c 0 c where
  wanted := le_rfl
  places := Nat.zero_le _
  mantissa := by rw [tenTo_zero, Nat.div_one]
  scale := rfl
  fits := hfits
  reason := .inl rfl

/-- A group of digits goes before others do. -/
theorem Leaves.after_drop (h : Leaves bits k' (c.drop group) K c') (hgroup : group ≤ c.scale)
    (hwanted : k ≤ group + k')
    (hreason : group + k' = k ∨ ∃ J, group + k' = J + 1 ∧ twoTo bits ≤ c.mantissa / tenTo J) :
    Leaves bits k c (group + K) c' := by
  have hsum (J : Nat) : (c.drop group).mantissa / tenTo J = c.mantissa / tenTo (group + J) := by
    rw [drop, Nat.div_div_eq_div_mul, tenTo_add]
  have hwanted' := h.wanted
  have hplaces : K ≤ c.scale - group := h.places
  refine ⟨by omega, by omega, h.mantissa.trans (hsum K), h.scale.trans (Nat.sub_sub ..), h.fits, ?_⟩
  rcases h.reason with rfl | ⟨J, rfl, hJ⟩
  · exact hreason
  · exact .inr ⟨group + J, rfl, hsum J ▸ hJ⟩

theorem drop_room (c : Cut) (hgroup : group ≤ c.scale) (hroom : c.mantissa < tenTo c.scale * twoTo bits) :
    (c.drop group).mantissa < tenTo (c.drop group).scale * twoTo bits := by
  apply Nat.div_lt_of_lt_mul
  rwa [← Nat.mul_assoc, ← tenTo_add, drop, Nat.add_sub_cancel' hgroup]

/-- A number with too many bits has a digit after its point, if there is room for what is before it. -/
theorem scale_ne_zero (hroom : c.mantissa < tenTo c.scale * twoTo bits) (hlarge : twoTo bits ≤ c.mantissa) :
    c.scale ≠ 0 := by
  intro hscale
  rw [hscale, tenTo_zero, Nat.one_mul] at hroom
  exact absurd hlarge (Nat.not_le_of_lt hroom)

/-- Every digit that goes takes more than three bits. -/
theorem drop_lt (c : Cut) (h : c.mantissa < twoTo j) (hgroup : 0 < group) :
    (c.drop group).mantissa < twoTo (j - 3) := by
  have hone : (c.drop group).mantissa ≤ c.mantissa / 10 :=
    Nat.div_le_div_left (Nat.le_self_pow (by omega) 10) (by decide)
  have height : twoTo j ≤ 8 * twoTo (j - 3) := by
    rw [show 8 = twoTo 3 from rfl, ← twoTo_add]
    exact Nat.pow_le_pow_right (by decide) (by omega)
  omega

end Cut

/-! ### Wide numbers -/

namespace Wide

variable {w : Wide} {bits places k : Nat}

/-- The number that a wide mantissa stands for. -/
noncomputable def size (w : Wide) : ℝ := placed w.mantissa w.scale

/-- The groups that are dropped to shorten a number are rounded half to even. -/
theorem roundHalfEven_tenTo (m : Nat) {group : Nat} (hgroup : 0 < group) :
    roundHalfEven m (tenTo group) =
      if tenTo group / 2 < m % tenTo group ∨ (m % tenTo group = tenTo group / 2 ∧ m / tenTo group % 2 = 1)
      then m / tenTo group + 1 else m / tenTo group := by
  have heven : tenTo group % 2 = 0 := by
    rw [← Nat.sub_add_cancel hgroup, tenTo_succ]
    omega
  rw [roundHalfEven]
  congr 1
  apply propext
  constructor <;> omega

theorem shorten_succ (fuel : Nat) (hlong : places < w.scale) :
    w.shorten places (fuel + 1) = shorten places fuel
      ⟨dropped w.mantissa (min (w.scale - places) 9), w.scale - min (w.scale - places) 9⟩ := by
  rw [dropped, roundHalfEven_tenTo _ (by omega), shorten, if_neg (by omega)]

/-- Each group that is dropped takes half a unit of the last place that is left, at most. -/
theorem shorten_error (places fuel : Nat) (w : Wide) :
    |(w.shorten places fuel).size - w.size| ≤ fuel * (1 / 2 / tenTo places) := by
  induction fuel generalizing w with
  | zero => simp [shorten]
  | succ fuel ih =>
    by_cases hlong : places < w.scale
    · rw [shorten_succ fuel hlong]
      generalize hgroup : min (w.scale - places) 9 = group
      have hleft : (tenTo places : ℝ) ≤ tenTo (w.scale - group) := by
        exact_mod_cast Nat.pow_le_pow_right (by decide) (by omega)
      have hdropped := placed_dropped w.mantissa (show group ≤ w.scale by omega)
      have hhalf : 1 / 2 / (tenTo (w.scale - group) : ℝ) ≤ 1 / 2 / tenTo places :=
        div_le_div_of_nonneg_left (by norm_num) (tenTo_real_pos places) hleft
      refine (abs_sub_le _ (placed (dropped w.mantissa group) (w.scale - group)) _).trans ?_
      refine (add_le_add (ih _) (hdropped.trans hhalf)).trans ?_
      push_cast
      linarith
    · rw [shorten, if_pos (Nat.le_of_not_lt hlong), sub_self, abs_zero]
      positivity

/-! ### Cutting -/

theorem cut_succ (bits fuel k : Nat) (c : Cut) :
    cut bits (fuel + 1) k c =
      if k = 0 ∧ c.mantissa < twoTo bits then some c
      else
        let group := min (max k 1) 9
        if twoTo bits ≤ (c.drop group).mantissa ∧ k ≤ group then
          if (c.drop group).scale = 0 then none else cut bits fuel 1 (c.drop group)
        else cut bits fuel (k - group) (c.drop group) := rfl

/-- Cutting drops the digits that it is told to, and more of them only while too many bits remain. -/
theorem cut_leaves (bits fuel k : Nat) (c : Cut) {j : Nat} (hfuel : k + j < fuel) (hj : c.mantissa < twoTo j)
    (hk : k ≤ c.scale) (hroom : c.mantissa < tenTo c.scale * twoTo bits) :
    ∃ c' K, cut bits fuel k c = some c' ∧ c.Leaves bits k K c' := by
  induction fuel generalizing k c j with
  | zero => omega
  | succ fuel ih =>
    rw [cut_succ]
    by_cases hdone : k = 0 ∧ c.mantissa < twoTo bits
    · obtain ⟨rfl, hfits⟩ := hdone
      exact ⟨c, 0, if_pos ⟨rfl, hfits⟩, .refl hfits⟩
    rw [if_neg hdone]
    have hlarge (hzero : k = 0) : twoTo bits ≤ c.mantissa := Nat.le_of_not_lt fun h => hdone ⟨hzero, h⟩
    dsimp only
    generalize hgroup : min (max k 1) 9 = group
    have hplaces : group ≤ c.scale := by
      have hpoint (hzero : k = 0) := Cut.scale_ne_zero hroom (hlarge hzero)
      omega
    have hleft := c.drop_room hplaces hroom
    have hshorter := c.drop_lt hj (show 0 < group by omega)
    by_cases hagain : twoTo bits ≤ (c.drop group).mantissa ∧ k ≤ group
    · have hpoint := Cut.scale_ne_zero hleft hagain.1
      have hbits : 3 < j := by
        by_contra hlt
        rw [Nat.sub_eq_zero_of_le (Nat.le_of_not_lt hlt), twoTo_zero] at hshorter
        exact absurd (hagain.1.trans_lt hshorter) (Nat.not_lt.mpr (twoTo_pos bits))
      obtain ⟨c', K, hcut, hleaves⟩ :=
        ih 1 (c.drop group) (by omega) hshorter (Nat.one_le_iff_ne_zero.mpr hpoint) hleft
      refine ⟨c', group + K, ?_, hleaves.after_drop hplaces (by omega) (.inr ⟨group, rfl, hagain.1⟩)⟩
      rw [if_pos hagain, if_neg hpoint, hcut]
    · have hbits (hzero : k = 0) : j ≠ 0 := by
        rintro rfl
        exact absurd ((hlarge hzero).trans_lt hj) (Nat.not_lt.mpr (twoTo_pos bits))
      obtain ⟨c', K, hcut, hleaves⟩ := ih (k - group) (c.drop group)
        (by omega) hshorter (Nat.sub_le_sub_right hk group) hleft
      refine ⟨c', group + K, ?_, hleaves.after_drop hplaces (by omega) ?_⟩
      · rw [if_neg hagain, hcut]
      · rcases Nat.eq_zero_or_pos k with hzero | hpos
        · refine .inr ⟨0, by omega, ?_⟩
          rw [tenTo_zero, Nat.div_one]
          exact hlarge hzero
        · exact .inl (by omega)

/-- So many digits are no more than the bits that they are counted from. -/
theorem tenTo_le_twoTo (bits : Nat) : tenTo (bits * 77 / 256) ≤ twoTo bits := by
  have hle : 256 * (bits * 77 / 256) ≤ bits * 77 := Nat.mul_div_le _ _
  refine (Nat.pow_le_pow_iff_left (show 77 ≠ 0 by decide)).mp ?_
  calc (10 ^ (bits * 77 / 256)) ^ 77
      = (10 ^ 77) ^ (bits * 77 / 256) := by rw [← pow_mul, ← pow_mul, Nat.mul_comm]
    _ ≤ (2 ^ 256) ^ (bits * 77 / 256) := Nat.pow_le_pow_left (by decide) _
    _ = 2 ^ (256 * (bits * 77 / 256)) := by rw [← pow_mul]
    _ ≤ 2 ^ (bits * 77) := Nat.pow_le_pow_right (by decide) hle
    _ = (2 ^ bits) ^ 77 := by rw [← pow_mul]

/-- The digits that are dropped for the sake of the bits leave most of the bits that may stay. -/
theorem tenTo_excess (h : twoTo bits ≤ w.mantissa) :
    tenTo ((w.mantissa.log2 + 1 - bits) * 77 / 256 + 1) * twoTo bits ≤ 20 * w.mantissa := by
  have hne : w.mantissa ≠ 0 := (Nat.pos_of_ne_zero (twoTo_pos bits).ne').trans_le h |>.ne'
  have hbits : bits ≤ w.mantissa.log2 := (Nat.le_log2 hne).mpr h
  have hself : twoTo w.mantissa.log2 ≤ w.mantissa := Nat.log2_self_le hne
  have hdigits := Nat.mul_le_mul_right (twoTo bits) (tenTo_le_twoTo (w.mantissa.log2 + 1 - bits))
  rw [← twoTo_add, Nat.sub_add_cancel (by omega), twoTo_succ] at hdigits
  rw [tenTo_succ, Nat.mul_right_comm]
  omega

/-- Digits are dropped from a number only where it has them after its point. -/
theorem excess_le (hroom : 20 * w.mantissa < tenTo w.scale * twoTo bits) (places : Nat) :
    w.excess bits places ≤ w.scale := by
  refine max_le ?_ (Nat.sub_le ..)
  split
  · next hlarge =>
    have hlt := (tenTo_excess hlarge).trans_lt hroom
    have := (Nat.pow_lt_pow_iff_right (by decide)).mp (Nat.lt_of_mul_lt_mul_right hlt)
    exact this.le
  · exact Nat.zero_le _

/-- What a unit of the last digit that stays makes up of the number, or else a unit of the last place. -/
theorem unit_le {K : Nat} (hover : twoTo bits ≤ w.mantissa ∨ places < w.scale)
    (hK : K = w.excess bits places ∨ ∃ J, K = J + 1 ∧ twoTo bits ≤ w.mantissa / tenTo J) :
    placed (tenTo K) w.scale ≤ w.size * 20 / twoTo bits + 1 / tenTo places := by
  have hscale := tenTo_real_pos w.scale
  have hbits : (0 : ℝ) < twoTo bits := Nat.cast_pos.mpr (twoTo_pos bits)
  have hplace : (0 : ℝ) < 1 / tenTo places := one_div_pos.mpr (tenTo_real_pos places)
  have hpart (h : tenTo K * twoTo bits ≤ 20 * w.mantissa) :
      placed (tenTo K) w.scale ≤ w.size * 20 / twoTo bits := by
    rw [size, placed, placed, div_mul_eq_mul_div, div_div, div_le_div_iff₀ hscale (mul_pos hscale hbits)]
    have h : (tenTo K * twoTo bits : ℝ) ≤ 20 * w.mantissa := by exact_mod_cast h
    nlinarith
  rcases hK with hK | ⟨J, rfl, hJ⟩
  · by_cases hlong : places < w.scale ∧ K = w.scale - places
    · obtain ⟨hlong, rfl⟩ := hlong
      refine le_add_of_nonneg_of_le (div_nonneg (mul_nonneg (placed_nonneg _ _) (by norm_num)) hbits.le) ?_
      have hsum : tenTo w.scale = tenTo (w.scale - places) * tenTo places := by
        rw [← tenTo_add, Nat.sub_add_cancel hlong.le]
      rw [placed, hsum, Nat.cast_mul, ← div_div, div_self (tenTo_real_pos _).ne']
    · have hlarge : twoTo bits ≤ w.mantissa := by
        by_contra hsmall
        rw [excess, if_neg hsmall] at hK
        exact hlong ⟨hover.resolve_left hsmall, by omega⟩
      refine (hpart ?_).trans (le_add_of_nonneg_right hplace.le)
      rw [excess, if_pos hlarge] at hK
      have : K = (w.mantissa.log2 + 1 - bits) * 77 / 256 + 1 := by omega
      exact this ▸ tenTo_excess hlarge
  · refine (hpart ?_).trans (le_add_of_nonneg_right hplace.le)
    rw [tenTo_succ]
    have := Nat.mul_le_of_le_div _ _ _ hJ
    nlinarith

section
variable {c : Cut} {K last : Nat} (h : Cut.Leaves bits k ⟨w.mantissa, w.scale, last⟩ K c)
include h

/-- What is left, in units of its last digit. -/
theorem placed_of_leaves (m : Nat) : placed m c.scale = m * placed (tenTo K) w.scale := by
  have hscale : c.scale = w.scale - K := h.scale
  have hplaces : K ≤ w.scale := h.places
  rw [hscale, placed, placed_eq hplaces, div_self (tenTo_real_pos K).ne', mul_one_div]

/-- A number near to the digits that are left is near to the whole number. -/
theorem near_of_leaves {m : Nat} (hlow : c.mantissa ≤ m + 8) (hhigh : m ≤ c.mantissa + 1) :
    |placed m c.scale - w.size| ≤ 10 * placed (tenTo K) w.scale := by
  have hunit : 0 ≤ placed (tenTo K) w.scale := placed_nonneg _ _
  have hsize : w.size = w.mantissa / tenTo K * placed (tenTo K) w.scale := by
    rw [size, placed, placed, div_mul_div_cancel₀ (tenTo_real_pos K).ne']
  have hfloor : (c.mantissa : ℝ) ≤ w.mantissa / tenTo K := by
    rw [h.mantissa]
    exact Nat.cast_div_le
  have hceil : (w.mantissa : ℝ) / tenTo K ≤ c.mantissa + 1 := by
    rw [h.mantissa, div_le_iff₀ (tenTo_real_pos K), mul_comm]
    exact_mod_cast (Nat.lt_mul_div_succ w.mantissa (tenTo_pos K)).le
  have hlow : (c.mantissa : ℝ) ≤ m + 8 := by exact_mod_cast hlow
  have hhigh : (m : ℝ) ≤ c.mantissa + 1 := by exact_mod_cast hhigh
  rw [placed_of_leaves h, hsize, ← sub_mul, abs_mul, abs_of_nonneg hunit]
  exact mul_le_mul_of_nonneg_right (abs_le.mpr ⟨by linarith, by linarith⟩) hunit

/-- What is left keeps a digit after its point where rounding it up takes one bit too many. -/
theorem scale_ne_zero_of_carry (hbits : 0 < bits) (hroom : 20 * w.mantissa < tenTo w.scale * twoTo bits)
    (hcarry : ¬ c.mantissa + 1 < twoTo bits) : c.scale ≠ 0 := by
  intro hzero
  have hplaces : K ≤ w.scale := h.places
  have hscale : c.scale = w.scale - K := h.scale
  obtain rfl : K = w.scale := by omega
  have hfloor : c.mantissa * tenTo w.scale ≤ w.mantissa := Nat.mul_le_of_le_div _ _ _ h.mantissa.le
  have hlt : 20 * c.mantissa < twoTo bits := by
    refine Nat.lt_of_mul_lt_mul_right (a := tenTo w.scale) ?_
    nlinarith
  have htwo : 2 ≤ twoTo bits := Nat.le_self_pow hbits.ne' 2
  omega

end

theorem placed_pred (m : Nat) {scale : Nat} (h : scale ≠ 0) :
    placed m (scale - 1) = placed (m * 10) scale := by
  rw [placed, placed, ← Nat.sub_add_cancel (Nat.pos_of_ne_zero h), tenTo_succ, Nat.add_sub_cancel,
    Nat.cast_mul, Nat.cast_mul, Nat.cast_ofNat, mul_div_mul_right _ _ (by norm_num)]

/-- A number that is cut to some bits and places is off by ten units of its last digit at most. -/
theorem fit_error (places : Nat) (hbits : 0 < bits) (hover : twoTo bits ≤ w.mantissa ∨ places < w.scale)
    (hroom : 20 * w.mantissa < tenTo w.scale * twoTo bits) :
    ∃ r, w.fit bits places = some r ∧ r.mantissa < twoTo bits ∧ r.scale ≤ places ∧
      |r.size - w.size| ≤ 10 * (w.size * 20 / twoTo bits + 1 / tenTo places) := by
  have hexcess := excess_le hroom places
  obtain ⟨c, K, hcut, hleaves⟩ :=
    cut_leaves bits (w.mantissa.log2 + w.excess bits places + 2) (w.excess bits places)
      ⟨w.mantissa, w.scale, 0⟩ (j := w.mantissa.log2 + 1) (by omega) Nat.lt_log2_self hexcess
      (by dsimp only; omega)
  have hplaces : c.scale ≤ places := by
    have hover : w.scale - places ≤ K := (le_max_right _ _).trans hleaves.wanted
    have hscale : c.scale = w.scale - K := hleaves.scale
    omega
  have herror (m : Nat) (hlow : c.mantissa ≤ m + 8) (hhigh : m ≤ c.mantissa + 1) :
      |placed m c.scale - w.size| ≤ 10 * (w.size * 20 / twoTo bits + 1 / tenTo places) := by
    have hunit := unit_le hover hleaves.reason
    exact (near_of_leaves hleaves hlow hhigh).trans (by linarith)
  rw [fit, if_neg (Nat.not_lt.mpr hexcess), hcut]
  simp only [Option.bind_eq_bind, Option.bind_some]
  split
  · split
    · next hfits => exact ⟨_, rfl, hfits, hplaces, herror (c.mantissa + 1) (by omega) le_rfl⟩
    · next hcarry =>
      have hpoint := scale_ne_zero_of_carry hleaves hbits hroom hcarry
      have hfits := hleaves.fits
      rw [if_neg hpoint]
      refine ⟨_, rfl, by dsimp only; omega, by dsimp only; omega, ?_⟩
      rw [size, placed_pred _ hpoint]
      exact herror ((c.mantissa + 1) / 10 * 10) (by omega) (by omega)
  · exact ⟨_, rfl, hleaves.fits, hplaces, herror c.mantissa (by omega) (by omega)⟩

variable {a b : Wide}

/-- The part of itself that a wide product may be off by. -/
noncomputable def slack : ℝ := 1 / tenTo 50

theorem slack_eq : slack = 1 / 10 ^ 50 := by rw [slack, tenTo_real]

/-- Numbers up to the powers that are looked at have room in mantissas of 96 bits and more. -/
theorem room_of_size (h : w.size ≤ 10 ^ 20) (hbits : 96 ≤ bits) :
    20 * w.mantissa < tenTo w.scale * twoTo bits := by
  have hscale := tenTo_real_pos w.scale
  rw [size, placed, div_le_iff₀ hscale] at h
  have hlimit : (2 : ℝ) ^ 96 ≤ twoTo bits := by
    rw [twoTo_real]
    exact pow_le_pow_right₀ (by norm_num) hbits
  have hroom : (20 * w.mantissa : ℝ) < tenTo w.scale * twoTo bits := by nlinarith
  exact_mod_cast hroom

/-- A wide product of numbers that are not below one is off by a tiny part of itself. -/
theorem mul_near (ha : 1 ≤ a.size) (hb : 1 ≤ b.size) (hlimit : a.size * b.size ≤ 10 ^ 20) :
    ∃ c, a.mul b = some c ∧ Near slack c.size (a.size * b.size) := by
  generalize hw : (⟨a.mantissa * b.mantissa, a.scale + b.scale⟩ : Wide) = w
  have hsize : a.size * b.size = w.size := by rw [← hw]; exact placed_mul ..
  have hone : 1 ≤ w.size := hsize ▸ one_le_mul_of_one_le_of_one_le ha hb
  rw [hsize] at hlimit ⊢
  rw [mul, hw]
  by_cases hsmall : w.mantissa < twoTo 192
  · refine ⟨_, if_pos hsmall, .of_abs ((shorten_error 57 16 w).trans ?_)⟩
    rw [tenTo_real, slack_eq]
    norm_num
    linarith
  · have hroom := room_of_size hlimit (show 96 ≤ 192 by decide)
    obtain ⟨r, hr, -, -, herror⟩ := fit_error 57 (by decide) (.inl (Nat.le_of_not_lt hsmall)) hroom
    refine ⟨r, (if_neg hsmall).trans hr, .of_abs (herror.trans ?_)⟩
    rw [tenTo_real, twoTo_real, slack_eq]
    norm_num
    linarith

/-! ### Trailing zeros -/

theorem sheds_trim (fuel : Nat) (w : Wide) :
    Sheds (w.mantissa, w.scale) ((w.trim fuel).mantissa, (w.trim fuel).scale) := by
  induction fuel generalizing w with
  | zero => exact .refl _
  | succ fuel ih =>
    rw [trim]
    split
    · next h =>
      exact (sheds_zeros (e := 1) (p := (w.mantissa, w.scale)) h.1 h.2).trans
        (ih ⟨w.mantissa / 10, w.scale - 1⟩)
    · exact .refl _

end Wide

end Chainfolio.Decimal
