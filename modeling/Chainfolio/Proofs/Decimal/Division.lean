import Mathlib.Algebra.Order.Field.Power
import Mathlib.Data.List.TakeWhile
import Chainfolio.Proofs.Decimal.Rounding

/-! Quotients of decimals. Digits are appended in groups, and a group is as large as the digits so far
allow without a look at those that come. So a quotient whose digits come out just at the largest mantissa
is given up; all others are off by a small part of themselves or by half a unit of the last place. -/
namespace Chainfolio.Decimal

/-! ### Zeros at the end -/

/-- Whether the second mantissa and scale are the first ones without some zeros at the end. -/
def Sheds (p q : Nat × Nat) : Prop := ∃ zeros, p.1 = q.1 * tenTo zeros ∧ p.2 = q.2 + zeros

namespace Sheds

variable {p q r : Nat × Nat}

theorem refl (p : Nat × Nat) : Sheds p p := ⟨0, by simp, rfl⟩

theorem trans (h : Sheds p q) (h' : Sheds q r) : Sheds p r := by
  obtain ⟨i, hmantissa, hscale⟩ := h
  obtain ⟨j, hmantissa', hscale'⟩ := h'
  refine ⟨i + j, ?_, by omega⟩
  rw [hmantissa, hmantissa', Nat.mul_assoc, Nat.add_comm, tenTo_add]

theorem placed_eq (h : Sheds p q) : placed q.1 q.2 = placed p.1 p.2 := by
  obtain ⟨zeros, hmantissa, hscale⟩ := h
  rw [placed, placed, hmantissa, hscale, tenTo_add]
  push_cast
  rw [mul_div_mul_right _ _ (tenTo_real_pos zeros).ne']

theorem mantissa_le (h : Sheds p q) : q.1 ≤ p.1 := by
  obtain ⟨zeros, hmantissa, -⟩ := h
  rw [hmantissa]
  exact Nat.le_mul_of_pos_right _ (tenTo_pos zeros)

theorem scale_le (h : Sheds p q) : q.2 ≤ p.2 := by
  obtain ⟨zeros, -, hscale⟩ := h
  omega

end Sheds

theorem sheds_zeros {e : Nat} {p : Nat × Nat} (hscale : e ≤ p.2) (hzeros : p.1 % tenTo e = 0) :
    Sheds p (p.1 / tenTo e, p.2 - e) :=
  ⟨e, (Nat.div_mul_cancel (Nat.dvd_of_mod_eq_zero hzeros)).symm, (Nat.sub_add_cancel hscale).symm⟩

theorem sheds_dropZeros (e : Nat) (p : Nat × Nat) : Sheds p (dropZeros e p) := by
  rw [dropZeros]
  split
  · next h => exact sheds_zeros h.1 h.2
  · exact .refl p

theorem sheds_dropEights (fuel : Nat) (p : Nat × Nat) : Sheds p (dropEights fuel p) := by
  induction fuel generalizing p with
  | zero => exact .refl p
  | succ fuel ih =>
    rw [dropEights]
    split
    · next h => exact (sheds_zeros h.2.1 h.2.2).trans (ih _)
    · exact .refl p

theorem sheds_unpadded (p : Nat × Nat) : Sheds p (unpadded p) :=
  (((sheds_dropEights 4 p).trans (sheds_dropZeros 4 _)).trans (sheds_dropZeros 2 _)).trans
    (sheds_dropZeros 1 _)

/-! ### Digits -/

namespace Division

variable {d : Division} {divisor k : Nat} {v : ℝ}

/-- The most digits of a group. -/
def groupDigits : Nat := 9

/-- A quotient under way that stands for the number `v`. -/
structure StandsFor (d : Division) (divisor : Nat) (v : ℝ) : Prop where
  value : (d.quotient + d.remainder / divisor : ℝ) = v * 10 ^ d.scale
  remainder_lt : d.remainder < divisor
  scale_le : d.scale ≤ maxScale
  quotient_lt : d.quotient < mantissaLimit + tenTo groupDigits

/-- A group ends with the last place that decimals have, and takes no more digits than those so far leave
room for. -/
theorem room_pos (h : 0 < d.room) :
    d.scale + d.room ≤ maxScale ∧ d.quotient * tenTo d.room < mantissaLimit ∧ d.room ≤ groupDigits := by
  have hle : d.room ≤ groupDigits := by
    simpa [groupDigits, room] using List.Sublist.length_le (List.takeWhile_sublist (l := List.range 9) _)
  have htake := List.prefix_iff_eq_take.mp (List.takeWhile_prefix (l := List.range 9)
    fun k : Nat => d.scale + k < (maxScale : Int) ∧ d.quotient * tenTo (k + 1) < mantissaLimit)
  rw [← room, List.take_range, min_eq_left (show d.room ≤ 9 from hle)] at htake
  have hmem := List.mem_takeWhile_imp (htake ▸ List.mem_range.mpr (Nat.sub_one_lt_of_lt h))
  rw [Nat.sub_add_cancel h, decide_eq_true_iff] at hmem
  exact ⟨by omega, hmem.2, hle⟩

/-- Where a group has no digits the quotient is full. -/
theorem room_eq_zero (h : d.room = 0) (hscale : d.scale < maxScale) : mantissaLimit ≤ d.quotient * 10 := by
  rw [room, show List.range 9 = 0 :: (List.range 8).map (· + 1) from rfl, List.takeWhile_cons] at h
  split at h
  · simp at h
  · next hfull =>
    rw [decide_eq_true_iff, not_and, Nat.not_lt] at hfull
    exact hfull (by simpa using hscale)

theorem StandsFor.extend (h : d.StandsFor divisor v) (hscale : d.scale + k ≤ maxScale)
    (hroom : d.quotient * tenTo k + d.remainder * tenTo k / divisor < mantissaLimit + tenTo groupDigits) :
    (d.extend divisor k).StandsFor divisor v where
  value := by
    have hdivisor : (0 : ℝ) < divisor := Nat.cast_pos.mpr (Nat.zero_lt_of_lt h.remainder_lt)
    have hdigits : (d.remainder * tenTo k / divisor : Nat) +
        ((d.remainder * tenTo k % divisor : Nat) : ℝ) / divisor = d.remainder * tenTo k / divisor := by
      rw [eq_div_iff hdivisor.ne', add_mul, div_mul_cancel₀ _ hdivisor.ne', mul_comm]
      exact_mod_cast Nat.div_add_mod (d.remainder * tenTo k) divisor
    simp only [Division.extend]
    push_cast at hdigits ⊢
    rw [add_assoc, hdigits, zpow_add₀ (by norm_num), ← mul_assoc, ← h.value, zpow_natCast, tenTo_real]
    ring
  remainder_lt := Nat.mod_lt _ (Nat.zero_lt_of_lt h.remainder_lt)
  scale_le := hscale
  quotient_lt := hroom

theorem StandsFor.extend_room (h : d.StandsFor divisor v) (hpos : 0 < d.room) :
    (d.extend divisor d.room).StandsFor divisor v := by
  obtain ⟨hscale, hquotient, hgroup⟩ := room_pos hpos
  refine h.extend hscale ?_
  have hdigits : d.remainder * tenTo d.room / divisor < tenTo d.room :=
    Nat.div_lt_of_lt_mul (Nat.mul_lt_mul_of_pos_right h.remainder_lt (tenTo_pos _))
  have hmost : tenTo d.room ≤ tenTo groupDigits := Nat.pow_le_pow_right (by decide) hgroup
  omega

/-- Whether no leading digits of a number lie just at the largest mantissa. -/
def ClearOfLimit (v : ℝ) : Prop :=
  ∀ places, places ≤ maxScale →
    v * 10 ^ places < mantissaLimit - 1 ∨ (mantissaLimit : ℝ) + tenTo groupDigits ≤ v * 10 ^ places

/-- What a division may end with: a quotient with room in a mantissa, and how far it may be off. -/
structure Result (d : Division) (v : ℝ) : Prop where
  quotient_lt : d.quotient < mantissaLimit
  scale_nonneg : 0 ≤ d.scale
  scale_le : d.scale ≤ maxScale
  error : |placed d.quotient d.scale.toNat - v| ≤ v * unit + unit / 2

theorem StandsFor.remainder_part (h : d.StandsFor divisor v) :
    (0 : ℝ) ≤ d.remainder / divisor ∧ (d.remainder / divisor : ℝ) < 1 := by
  have hdivisor : (0 : ℝ) < divisor := Nat.cast_pos.mpr (Nat.zero_lt_of_lt h.remainder_lt)
  refine ⟨by positivity, (div_lt_one hdivisor).mpr ?_⟩
  exact_mod_cast h.remainder_lt

theorem StandsFor.lt_of_clear (h : d.StandsFor divisor v) (hclear : ClearOfLimit v)
    {places : Nat} (hplaces : d.scale = places) :
    (d.quotient + d.remainder / divisor : ℝ) < mantissaLimit - 1 := by
  have hlt : (d.quotient : ℝ) + 1 ≤ mantissaLimit + tenTo groupDigits := by
    exact_mod_cast h.quotient_lt
  have hvalue := h.value
  have hle := h.scale_le
  have hpart := h.remainder_part.2
  rw [hplaces] at hvalue hle
  rw [zpow_natCast] at hvalue
  rw [hvalue]
  refine (hclear places (by exact_mod_cast hle)).resolve_right fun hover => ?_
  linarith

theorem StandsFor.result_of_exact (h : d.StandsFor divisor v) (hclear : ClearOfLimit v)
    (hv : 0 ≤ v) (hscale : 0 ≤ d.scale) (hexact : d.remainder = 0) : d.Result v := by
  obtain ⟨places, hplaces⟩ := Int.eq_ofNat_of_zero_le hscale
  have hlt := h.lt_of_clear hclear hplaces
  have hvalue := h.value
  rw [hexact, Nat.cast_zero, zero_div, add_zero] at hlt hvalue
  refine ⟨?_, hscale, h.scale_le, ?_⟩
  · have : (d.quotient : ℝ) < mantissaLimit := by linarith
    exact_mod_cast this
  · have hunit := unit_pos
    have hplaced : placed d.quotient d.scale.toNat = v := by
      rw [placed, hvalue, hplaces, Int.toNat_natCast, zpow_natCast, tenTo_real, mul_div_assoc,
        div_self (by positivity), mul_one]
    rw [hplaced, sub_self, abs_zero]
    positivity

/-- A quotient that is full has as many places as the number. -/
theorem StandsFor.scale_nonneg_of_full (h : d.StandsFor divisor v) (hv : v < mantissaLimit)
    (hfull : d.scale = maxScale ∨ d.room = 0) : 0 ≤ d.scale := by
  by_contra hneg
  have hscale : d.scale ≤ -1 := by omega
  have hroom : d.room = 0 := hfull.resolve_left (by omega)
  have hdigits : (mantissaLimit : ℝ) ≤ d.quotient * 10 := by
    exact_mod_cast room_eq_zero hroom (by omega)
  have hpart := h.remainder_part.1
  have hvnonneg : 0 ≤ v := by
    have hpow : (0 : ℝ) < 10 ^ d.scale := by positivity
    have : 0 ≤ v * 10 ^ d.scale := h.value ▸ by positivity
    exact nonneg_of_mul_nonneg_left this hpow
  have htenth : (10 : ℝ) ^ d.scale ≤ 10 ^ (-1 : ℤ) := zpow_le_zpow_right₀ (by norm_num) hscale
  have hvalue : (d.quotient : ℝ) ≤ v * (10 ^ (-1 : ℤ)) := by
    have := mul_le_mul_of_nonneg_left htenth hvnonneg
    rw [← h.value] at this
    linarith
  rw [zpow_neg_one] at hvalue
  linarith

theorem round_scale (d : Division) (divisor : Nat) : (d.round divisor).scale = d.scale := by
  rw [round]
  split <;> rfl

/-- The last digit is rounded by half of it at most. -/
theorem StandsFor.round_error (h : d.StandsFor divisor v) :
    |((d.round divisor).quotient : ℝ) - (d.quotient + d.remainder / divisor)| ≤ 1 / 2 := by
  have hdivisor : (0 : ℝ) < divisor := Nat.cast_pos.mpr (Nat.zero_lt_of_lt h.remainder_lt)
  obtain ⟨hnonneg, hlt⟩ := h.remainder_part
  rw [round, abs_le]
  split
  · next hup =>
    have hhalf : (1 : ℝ) / 2 ≤ d.remainder / divisor := by
      rw [div_le_div_iff₀ two_pos hdivisor]
      exact_mod_cast (by omega : 1 * divisor ≤ d.remainder * 2)
    push_cast
    constructor <;> linarith
  · next hdown =>
    have hhalf : (d.remainder / divisor : ℝ) ≤ 1 / 2 := by
      rw [div_le_div_iff₀ hdivisor two_pos]
      exact_mod_cast (by omega : d.remainder * 2 ≤ 1 * divisor)
    constructor <;> linarith

theorem StandsFor.result_of_round (h : d.StandsFor divisor v) (hclear : ClearOfLimit v)
    (hv : 0 ≤ v) (hscale : 0 ≤ d.scale) (hfull : d.scale = maxScale ∨ d.room = 0) :
    (d.round divisor).Result v := by
  obtain ⟨places, hplaces⟩ := Int.eq_ofNat_of_zero_le hscale
  have hlt := h.lt_of_clear hclear hplaces
  have hround := abs_le.mp h.round_error
  have hvalue := h.value
  have hpow : (0 : ℝ) < tenTo places := tenTo_real_pos places
  rw [hplaces, zpow_natCast, ← tenTo_real] at hvalue
  refine ⟨?_, round_scale d divisor ▸ hscale, round_scale d divisor ▸ h.scale_le, ?_⟩
  · have : ((d.round divisor).quotient : ℝ) < mantissaLimit := by linarith
    exact_mod_cast this
  · rw [round_scale, hplaces, Int.toNat_natCast, placed]
    have herror : |((d.round divisor).quotient : ℝ) / tenTo places - v| ≤ 1 / 2 / tenTo places := by
      rw [hvalue] at hround
      rw [abs_le, div_sub' hpow.ne', ← neg_div, div_le_div_iff_of_pos_right hpow,
        div_le_div_iff_of_pos_right hpow]
      constructor <;> linarith
    refine herror.trans ?_
    have hunit := unit_pos
    by_cases hlast : d.scale = maxScale
    · obtain rfl : places = maxScale := by exact_mod_cast hplaces.symm.trans hlast
      rw [div_right_comm, ← unit]
      exact le_add_of_nonneg_left (by positivity)
    · have hdigits : (mantissaLimit : ℝ) ≤ d.quotient * 10 := by
        exact_mod_cast room_eq_zero (hfull.resolve_left hlast) (lt_of_le_of_ne h.scale_le hlast)
      have hpart := h.remainder_part.1
      rw [mantissaLimit_cast] at hdigits
      refine le_add_of_le_of_nonneg ?_ (by positivity)
      rw [div_le_iff₀ hpow, unit_eq, mul_right_comm, ← hvalue]
      linarith

theorem run_of_clear (hv : 0 ≤ v) (hlt : v < mantissaLimit) (hclear : ClearOfLimit v) (fuel : Nat)
    (h : d.StandsFor divisor v) (hfuel : maxScale < d.scale + fuel) :
    ∃ d', run divisor fuel d = some d' ∧ d'.Result v := by
  induction fuel generalizing d with
  | zero =>
    have := h.scale_le
    omega
  | succ fuel ih =>
    rw [run]
    by_cases hexact : d.remainder = 0
    · rw [if_pos hexact]
      by_cases hscale : 0 ≤ d.scale
      · exact ⟨d, if_pos hscale, h.result_of_exact hclear hv hscale hexact⟩
      · rw [if_neg hscale]
        -- no digits are left, so that the quotient only gets the zeros before the point
        generalize hgroup : min 9 (-d.scale).toNat = group
        have hafter : d.scale + group ≤ 0 := by omega
        refine ih (h.extend (hafter.trans (by decide)) ?_) (by simp only [extend]; omega)
        rw [hexact, Nat.zero_mul, Nat.zero_div, Nat.add_zero]
        have hvalue := h.value
        rw [hexact, Nat.cast_zero, zero_div, add_zero] at hvalue
        have hquotient : (d.quotient * tenTo group : ℝ) ≤ v := by
          rw [hvalue, tenTo_real, mul_assoc, ← zpow_natCast, ← zpow_add₀ (by norm_num)]
          exact mul_le_of_le_one_right hv (zpow_le_one_of_nonpos₀ (by norm_num) hafter)
        have hroom : (d.quotient * tenTo group : ℝ) < mantissaLimit := hquotient.trans_lt hlt
        exact Nat.lt_add_right _ (by exact_mod_cast hroom)
    · rw [if_neg hexact]
      have h : StandsFor { d with inexact := true } divisor v :=
        ⟨h.value, h.remainder_lt, h.scale_le, h.quotient_lt⟩
      by_cases hfull : d.scale = maxScale ∨ d.room = 0
      · have hscale := h.scale_nonneg_of_full hlt hfull
        rw [if_pos hfull, if_neg (not_lt.mpr hscale)]
        exact ⟨_, rfl, h.result_of_round hclear hv hscale hfull⟩
      · rw [if_neg hfull]
        have hpos : 0 < d.room := by omega
        exact ih (h.extend_room hpos) (by simp only [extend]; omega)

/-- The integer part of a quotient, to which the places are appended. -/
theorem standsFor_start {a b : Decimal} (hb : b.mantissa ≠ 0) (inexact : Bool) :
    StandsFor ⟨a.mantissa / b.mantissa, a.mantissa % b.mantissa, (a.scale : Int) - b.scale, inexact⟩
      b.mantissa (a.magnitude / b.magnitude) where
  value := by
    have hdivisor : (0 : ℝ) < b.mantissa := Nat.cast_pos.mpr (Nat.pos_of_ne_zero hb)
    have hdigits : ((a.mantissa / b.mantissa : Nat) : ℝ) + (a.mantissa % b.mantissa : Nat) / b.mantissa =
        a.mantissa / b.mantissa := by
      rw [eq_div_iff hdivisor.ne', add_mul, div_mul_cancel₀ _ hdivisor.ne', mul_comm]
      exact_mod_cast Nat.div_add_mod a.mantissa b.mantissa
    rw [hdigits, magnitude, magnitude, placed, placed, tenTo_real, tenTo_real, zpow_sub₀ (by norm_num),
      zpow_natCast, zpow_natCast]
    field_simp
  remainder_lt := Nat.mod_lt _ (Nat.pos_of_ne_zero hb)
  scale_le := by
    have := a.scale_le
    dsimp only
    omega
  quotient_lt := (Nat.div_le_self ..).trans_lt (Nat.lt_add_right _ a.mantissa_lt)

end Division

/-- A quotient that has room and is clear of the largest mantissa is off by a part of a unit of itself and
half a unit at most. -/
theorem div_of_clear {a b : Decimal} (ha : a.negative = false) (hb : b.negative = false)
    (hne : b.mantissa ≠ 0) (hlt : a.magnitude / b.magnitude < mantissaLimit)
    (hclear : Division.ClearOfLimit (a.magnitude / b.magnitude)) :
    ∃ d, a.div b = some d ∧ d.negative = false ∧
      |d.magnitude - a.magnitude / b.magnitude| ≤ a.magnitude / b.magnitude * unit + unit / 2 := by
  have hnonneg : 0 ≤ a.magnitude / b.magnitude := div_nonneg (magnitude_nonneg a) (magnitude_nonneg b)
  rw [div, if_neg hne]
  by_cases hzero : a.mantissa = 0
  · refine ⟨zero, if_pos hzero, rfl, ?_⟩
    rw [magnitude_eq_zero hzero, magnitude_eq_zero rfl, zero_div, sub_zero, abs_zero, zero_mul, zero_add]
    exact (half_pos unit_pos).le
  · obtain ⟨q, hrun, hresult⟩ := Division.run_of_clear hnonneg hlt hclear 64
      (Division.standsFor_start hne false) (by have := b.scale_le; simp only [maxScale] at *; omega)
    rw [if_neg hzero, hrun, ha, hb]
    have hsheds : Sheds (q.quotient, q.scale.toNat) (if q.inexact then
        unpadded (q.quotient, q.scale.toNat) else (q.quotient, q.scale.toNat)) := by
      split
      · exact sheds_unpadded _
      · exact .refl _
    simp only [Option.bind_eq_bind, Option.bind_some]
    generalize (if q.inexact then _ else _) = p at hsheds ⊢
    have hmantissa : p.1 < mantissaLimit := hsheds.mantissa_le.trans_lt hresult.quotient_lt
    have hscale : p.2 ≤ maxScale := hsheds.scale_le.trans (by have := hresult.scale_le; dsimp only; omega)
    refine ⟨⟨false, p.1, p.2, hmantissa, hscale⟩, by simp [ofParts?, hmantissa, hscale], rfl, ?_⟩
    rw [magnitude, hsheds.placed_eq]
    exact hresult.error

end Chainfolio.Decimal
