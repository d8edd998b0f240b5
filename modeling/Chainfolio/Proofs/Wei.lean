import Mathlib.Algebra.Order.Round
import Mathlib.Data.Nat.Cast.Order.Field
import Mathlib.Data.Rat.Floor
import Mathlib.Order.Bounds.Basic
import Mathlib.Tactic.FieldSimp
import Mathlib.Tactic.Ring
import Chainfolio.Proofs.Decimal.Exact
import Chainfolio.Wei

/-! Raw amounts of decimals. Digits that an amount has no room for are rounded, ties away from zero. Digits
that it lacks are zeros, but only as many of them are written as fit a mantissa: a larger amount comes
out too small by a power of ten. The other way around, the decimal of an amount has the leading digits of
the amount, as many of them as fit. -/
namespace Chainfolio.Wei

open Decimal

variable {mantissa places drop : Nat} {size : Decimal} {amount : Word} {decimals : UInt32}

/-! ### Amounts of decimals -/

/-- The integer nearest to a number at some scale, ties up. -/
def nearest (size : Decimal) (decimals : Nat) : Int := round (size.toRat * tenTo decimals)

theorem round_div_eq (num den : Nat) (hden : 0 < den) :
    round ((num : ℚ) / den) = ((2 * num + den) / (2 * den) : Nat) := by
  have hhalf : (num : ℚ) / den + 1 / 2 = ((2 * num + den : Nat) : ℚ) / (2 * den : Nat) := by
    have hne : (den : ℚ) ≠ 0 := Nat.cast_ne_zero.mpr hden.ne'
    push_cast
    field_simp
  rw [round_eq, hhalf, Rat.floor_natCast_div_natCast]
  rfl

/-- The most significant digit that is dropped tells on which side of one half the rest is. -/
theorem lowerScale_eq (mantissa : Nat) (hdrop : 0 < drop) :
    lowerScale mantissa drop = (2 * mantissa + tenTo drop) / (2 * tenTo drop) := by
  obtain ⟨k, rfl⟩ := Nat.exists_eq_succ_of_ne_zero hdrop.ne'
  have hpos := tenTo_pos k
  simp only [lowerScale, Nat.succ_eq_add_one, Nat.add_sub_cancel, tenTo_succ]
  have hdigit : mantissa / tenTo k % 10 = mantissa % (tenTo k * 10) / tenTo k :=
    (Nat.mod_mul_right_div_self ..).symm
  have hsplit := Nat.div_add_mod mantissa (tenTo k * 10)
  have hrest := Nat.mod_lt mantissa (show 0 < tenTo k * 10 by omega)
  simp only [hdigit, Nat.le_div_iff_mul_le hpos]
  generalize mantissa / (tenTo k * 10) = kept at *
  generalize mantissa % (tenTo k * 10) = rest at *
  have hsum : 2 * mantissa + tenTo k * 10 = (2 * rest + tenTo k * 10) + kept * (2 * (tenTo k * 10)) := by
    rw [← hsplit]
    ring
  rw [hsum, Nat.add_mul_div_right _ _ (by omega)]
  split
  · have hone : (2 * rest + tenTo k * 10) / (2 * (tenTo k * 10)) = 1 :=
      Nat.div_eq_of_lt_le (by omega) (by omega)
    omega
  · have hzero : (2 * rest + tenTo k * 10) / (2 * (tenTo k * 10)) = 0 :=
      Nat.div_eq_of_lt (by omega)
    omega

/-- Zeros are appended one by one, up to the places asked for or to the limit. -/
theorem raiseScale_eq (places : Nat) (hfits : mantissa < mantissaLimit) :
    ∃ zeros ≤ places, raiseScale places mantissa = mantissa * tenTo zeros ∧
      mantissa * tenTo zeros < mantissaLimit ∧
      (zeros < places → mantissaLimit ≤ mantissa * tenTo (zeros + 1)) := by
  induction places generalizing mantissa with
  | zero => exact ⟨0, le_rfl, by simp [raiseScale], by simpa using hfits, by omega⟩
  | succ places ih =>
    by_cases hroom : mantissa * 10 < mantissaLimit
    · obtain ⟨zeros, hzeros, heq, hlt, hfull⟩ := ih hroom
      have hshift (n : Nat) : mantissa * 10 * tenTo n = mantissa * tenTo (n + 1) := by
        rw [tenTo_succ]
        ring
      rw [hshift] at heq hlt hfull
      refine ⟨zeros + 1, by omega, ?_, hlt, fun h => hfull (by omega)⟩
      rw [raiseScale, if_pos hroom, heq]
    · refine ⟨0, by omega, by simp [raiseScale, hroom], by simpa using hfits, fun _ => ?_⟩
      simpa [tenTo_succ] using hroom

theorem mantissa_eq_zero (hsize : 0 ≤ size.toRat) (hsign : size.negative) : size.mantissa = 0 := by
  rw [toRat, le_div_iff₀ (tenTo_cast_pos _), zero_mul, numerator, if_pos hsign] at hsize
  have hle : (0 : Int) ≤ -size.mantissa := by exact_mod_cast hsize
  omega

theorem toRat_of_nonneg (hsize : 0 ≤ size.toRat) : size.toRat = size.mantissa / tenTo size.scale := by
  by_cases hsign : size.negative
  · simp [toRat, numerator, mantissa_eq_zero hsize hsign]
  · simp [toRat, numerator, hsign]

/-- With fewer places than the number has, the amount is a quotient that is rounded. -/
theorem nearest_of_lt (hsize : 0 ≤ size.toRat) {places : Nat} (hplaces : places < size.scale) :
    nearest size places = lowerScale size.mantissa (size.scale - places) := by
  have hscale : tenTo size.scale = tenTo (size.scale - places) * tenTo places := by
    rw [← tenTo_add, Nat.sub_add_cancel hplaces.le]
  rw [nearest, toRat_of_nonneg hsize, hscale, Nat.cast_mul, div_mul_eq_mul_div,
    mul_div_mul_right _ _ (tenTo_cast_ne_zero places), round_div_eq _ _ (tenTo_pos _),
    lowerScale_eq _ (by omega)]

/-- With at least as many places, it is the mantissa with zeros behind it. -/
theorem nearest_of_le (hsize : 0 ≤ size.toRat) {places : Nat} (hplaces : size.scale ≤ places) :
    nearest size places = (size.mantissa * tenTo (places - size.scale) : Nat) := by
  have hplaces : tenTo places = tenTo (places - size.scale) * tenTo size.scale := by
    rw [← tenTo_add, Nat.sub_add_cancel hplaces]
  have hvalue : size.toRat * tenTo places = (size.mantissa * tenTo (places - size.scale) : Nat) := by
    rw [toRat_of_nonneg hsize, hplaces, Nat.cast_mul, Nat.cast_mul, div_mul_eq_mul_div, ← mul_assoc,
      mul_div_assoc, div_self (tenTo_cast_ne_zero _), mul_one]
  rw [nearest, hvalue, round_natCast]

theorem lowerScale_lt (hfits : mantissa < mantissaLimit) (hdrop : 0 < drop) :
    lowerScale mantissa drop < mantissaLimit := by
  have hlimit : 10 < mantissaLimit := by decide
  have hten : 10 ≤ tenTo drop := Nat.le_self_pow hdrop.ne' 10
  have hkept : mantissa / tenTo drop ≤ mantissa / 10 := Nat.div_le_div_left hten (by decide)
  rw [lowerScale]
  split <;> omega

/-- A number at another scale is the nearest integer less some zeros, which it has no room for. -/
theorem rescaled_mul (hsize : 0 ≤ size.toRat) (places : Nat) :
    rescaled size places < mantissaLimit ∧
      ∃ short, (rescaled size places * tenTo short : Nat) = nearest size places ∧
        (0 < short → mantissaLimit ≤ rescaled size places * 10) := by
  by_cases hzero : size.mantissa = 0
  · have hnearest : nearest size places = 0 := by
      rw [nearest, toRat_of_mantissa_eq_zero hzero, zero_mul, round_zero]
    rw [rescaled, if_pos hzero]
    exact ⟨by decide, 0, by simp [hnearest], by omega⟩
  rw [rescaled, if_neg hzero]
  rcases Nat.lt_or_ge places size.scale with hlt | hle
  · rw [if_pos hlt, nearest_of_lt hsize hlt]
    exact ⟨lowerScale_lt size.mantissa_lt (by omega), 0, by simp, by omega⟩
  · rw [if_neg (by omega), nearest_of_le hsize hle]
    obtain ⟨zeros, hzeros, heq, hlt, hfull⟩ := raiseScale_eq (places - size.scale) size.mantissa_lt
    rw [heq]
    refine ⟨hlt, places - size.scale - zeros, ?_, fun hshort => ?_⟩
    · rw [Nat.mul_assoc, ← tenTo_add, Nat.add_sub_cancel' hzeros]
    · rw [Nat.mul_assoc, ← tenTo_succ]
      exact hfull (by omega)

theorem nearest_lt (hsize : 0 ≤ size.toRat) {places : Nat} (hplaces : places ≤ maxScale) :
    nearest size places < twoTo 256 := by
  rcases Nat.lt_or_ge places size.scale with hlt | hle
  · have hlimit : mantissaLimit < twoTo 256 := by decide
    have h := lowerScale_lt size.mantissa_lt (Nat.sub_pos_of_lt hlt)
    rw [nearest_of_lt hsize hlt]
    omega
  · have hzeros : tenTo (places - size.scale) ≤ tenTo maxScale :=
      Nat.pow_le_pow_right (by decide) (by omega)
    have hlimit : mantissaLimit * tenTo maxScale < twoTo 256 := by decide
    have h := (Nat.mul_le_mul size.mantissa_lt.le hzeros).trans_lt hlimit
    rw [nearest_of_le hsize hle]
    exact_mod_cast h

/-- A number that is not negative always has a raw amount. It is the nearest integer exactly when that one
has room in a mantissa. A larger one comes out with some of its zeros left out, although a word would
hold it up to the largest scale. -/
theorem ofDecimal?_eq_nearest_iff (hsize : 0 ≤ size.toRat) :
    ∃ amount, ofDecimal? size decimals = some amount ∧
      (amount.toNat = nearest size decimals.toNat ↔
        nearest size decimals.toNat < mantissaLimit) ∧
      (mantissaLimit ≤ nearest size decimals.toNat →
        ∃ short, 0 < short ∧ (amount.toNat * tenTo short : Nat) = nearest size decimals.toNat) ∧
      (decimals.toNat ≤ maxScale → nearest size decimals.toNat < twoTo 256) := by
  obtain ⟨hlt, short, hnearest, hshort⟩ := rescaled_mul hsize decimals.toNat
  have hsign : ¬ (size.negative ∧ rescaled size decimals.toNat ≠ 0) := by
    rintro ⟨hsign, hne⟩
    exact hne (if_pos (mantissa_eq_zero hsize hsign))
  have hword : (BitVec.ofNat 256 (rescaled size decimals.toNat)).toNat =
      rescaled size decimals.toNat := by
    have hlimit : mantissaLimit < twoTo 256 := by decide
    rw [BitVec.toNat_ofNat]
    exact Nat.mod_eq_of_lt (hlt.trans hlimit)
  have hexact : short = 0 ↔ nearest size decimals.toNat < mantissaLimit := by
    constructor
    · rintro rfl
      rw [← hnearest, tenTo_zero, Nat.mul_one]
      exact_mod_cast hlt
    · intro hfits
      by_contra hne
      have hten : 10 ≤ tenTo short := Nat.le_self_pow hne 10
      have hlarge := Nat.mul_le_mul_left (rescaled size decimals.toNat) hten
      have hfull := hshort (Nat.pos_of_ne_zero hne)
      omega
  refine ⟨_, if_neg hsign, ?_, ?_, nearest_lt hsize⟩
  · rw [hword]
    constructor
    · intro heq
      rw [← heq]
      exact_mod_cast hlt
    · intro hfits
      rw [← hnearest, hexact.mpr hfits, tenTo_zero, Nat.mul_one]
  · intro hlarge
    rw [hword]
    exact ⟨short, Nat.pos_of_ne_zero fun h => absurd (hexact.mp h) (not_lt.mpr hlarge), hnearest⟩

theorem toRat_nonneg (hsign : size.negative = false) : 0 ≤ size.toRat := by
  rw [toRat, numerator, hsign]
  exact div_nonneg (by simp) (tenTo_cast_pos _).le

/-- A tie is rounded up. -/
theorem ofDecimal?_eq_nearest_iff_tie :
    let size : Decimal := ⟨false, 155, 2, by decide, by decide⟩
    0 ≤ size.toRat ∧ nearest size 1 = 16 ∧
      ∃ amount, ofDecimal? size 1 = some amount ∧ amount.toNat = 16 := by
  intro size
  have hsize : 0 ≤ size.toRat := toRat_nonneg rfl
  have hnearest : nearest size 1 = 16 :=
    (nearest_of_lt hsize (show 1 < 2 by decide)).trans (by decide +kernel)
  obtain ⟨amount, hamount, hexact, -⟩ := @ofDecimal?_eq_nearest_iff size 1 hsize
  have hvalue : (amount.toNat : Int) = nearest size 1 := hexact.mpr (hnearest ▸ by decide)
  exact ⟨hsize, hnearest, amount, hamount, by omega⟩

/-- A hundred billion units of a token with 18 places come out ten times too small. -/
theorem ofDecimal?_short_by_a_zero :
    let size : Decimal := ⟨false, 100000000000, 0, by decide, by decide⟩
    0 ≤ size.toRat ∧ nearest size 18 = 100000000000000000000000000000 ∧
      ofDecimal? size 18 = some 10000000000000000000000000000 := by
  intro size
  have hsize : 0 ≤ size.toRat := toRat_nonneg rfl
  have hnearest : nearest size 18 = 100000000000000000000000000000 :=
    (nearest_of_le hsize (show 0 ≤ 18 by decide)).trans (by decide +kernel)
  exact ⟨hsize, hnearest, by decide +kernel⟩

/-! ### Decimals of amounts -/

/-- The digits of an amount that stand before its last `decimals - scale` ones. -/
def leading (amount : Word) (decimals scale : Nat) : Nat := amount.toNat / tenTo (decimals - scale)

/-- The scales at which the leading digits of an amount have room in a decimal. -/
def scalesWithRoom (amount : Word) (decimals : Nat) : Set Nat :=
  {scale | scale ≤ min decimals maxScale ∧ leading amount decimals scale < mantissaLimit}

/-- Digits are cut off one by one: the greatest scale that leaves room is kept. -/
theorem shrink_eq (mantissa scale : Nat) :
    ∃ kept ≤ scale, shrink mantissa scale = (mantissa / tenTo (scale - kept), kept) ∧
      (0 < kept → mantissa / tenTo (scale - kept) < mantissaLimit) ∧
      ∀ s ≤ scale, mantissa / tenTo (scale - s) < mantissaLimit → s ≤ kept := by
  induction scale generalizing mantissa with
  | zero => exact ⟨0, le_rfl, by simp [shrink], by omega, fun s hs _ => hs⟩
  | succ scale ih =>
    by_cases hfits : mantissa < mantissaLimit
    · exact ⟨scale + 1, le_rfl, by simp [shrink, hfits], by simpa using hfits, fun s hs _ => hs⟩
    · obtain ⟨kept, hkept, heq, hroom, hgreatest⟩ := ih (mantissa / 10)
      have hcut {s : Nat} (hs : s ≤ scale) :
          mantissa / 10 / tenTo (scale - s) = mantissa / tenTo (scale + 1 - s) := by
        rw [Nat.div_div_eq_div_mul, Nat.sub_add_comm hs, tenTo_succ, Nat.mul_comm]
      rw [hcut hkept] at heq hroom
      refine ⟨kept, by omega, by rw [shrink, if_neg hfits, heq], hroom, fun s hs hlt => ?_⟩
      by_cases hlast : s ≤ scale
      · exact hgreatest s hlast (by rwa [hcut hlast])
      · obtain rfl : s = scale + 1 := by omega
        rw [Nat.sub_self, tenTo_zero, Nat.div_one] at hlt
        exact absurd hlt hfits

/-- Up to 105 places the divisor that brings an amount to 28 places does not wrap. -/
theorem toNat_excessScale (hplaces : decimals.toNat ≤ 105) :
    (excessScale decimals).toNat = tenTo (decimals.toNat - 28) := by
  have hle : tenTo (decimals.toNat - 28) ≤ tenTo 77 := Nat.pow_le_pow_right (by decide) (by omega)
  have hlt : tenTo 77 < 2 ^ 256 := by decide
  rw [excessScale, if_neg (by omega), BitVec.toNat_ofNat, Nat.mod_eq_of_lt (by omega)]

/-- An amount is brought to the most places that a decimal has before it is cut further. -/
theorem toDecimal_eq (hplaces : decimals.toNat ≤ 105) :
    let most := min decimals.toNat maxScale
    let shrunk := shrink (leading amount decimals.toNat most) most
    toDecimal amount decimals = some
      (match ofParts? false shrunk.1 shrunk.2 with
      | some d => .ok d
      | none => .error (.math (.notADecimal amount))) := by
  intro most shrunk
  suffices hscaled : (if 28 < decimals.toNat then
        if excessScale decimals = 0 then none else some ((amount / excessScale decimals).toNat, 28)
      else some (amount.toNat, decimals.toNat)) = some (leading amount decimals.toNat most, most) from
    congrArg (Option.map _) hscaled
  by_cases hmany : 28 < decimals.toNat
  · have hscale := toNat_excessScale hplaces
    have hne : excessScale decimals ≠ 0 := by
      intro hzero
      rw [hzero] at hscale
      exact (tenTo_pos _).ne hscale
    have hmost : most = 28 := Nat.min_eq_right hmany.le
    have hleading : (amount / excessScale decimals).toNat = leading amount decimals.toNat most := by
      rw [BitVec.toNat_udiv, hscale, leading, hmost]
    rw [if_pos hmany, if_neg hne, hleading, hmost]
  · have hmost : most = decimals.toNat := Nat.min_eq_left (not_lt.mp hmany)
    have hleading : amount.toNat = leading amount decimals.toNat most := by
      rw [leading, hmost, Nat.sub_self, tenTo_zero, Nat.div_one]
    rw [if_neg hmany, hleading, hmost]

theorem leading_cut (amount : Word) {decimals scale most : Nat} (hscale : scale ≤ most)
    (hmost : most ≤ decimals) :
    leading amount decimals most / tenTo (most - scale) = leading amount decimals scale := by
  rw [leading, leading, Nat.div_div_eq_div_mul, ← tenTo_add, Nat.sub_add_sub_cancel hmost hscale]

/-- An amount comes out with as many of its digits as have room, or not at all. -/
theorem toDecimal_cases (amount : Word) (hplaces : decimals.toNat ≤ 105) :
    (toDecimal amount decimals = some (.error (.math (.notADecimal amount))) ∧
      mantissaLimit ≤ leading amount decimals.toNat 0) ∨
    ∃ d, toDecimal amount decimals = some (.ok d) ∧ d.negative = false ∧
      d.mantissa = leading amount decimals.toNat d.scale ∧
      IsGreatest (scalesWithRoom amount decimals.toNat) d.scale := by
  obtain ⟨kept, hkept, heq, hroom, hgreatest⟩ :=
    shrink_eq (leading amount decimals.toNat (min decimals.toNat maxScale)) (min decimals.toNat maxScale)
  have hcut {s : Nat} (hs : s ≤ min decimals.toNat maxScale) :=
    leading_cut amount hs (Nat.min_le_left ..)
  rw [toDecimal_eq hplaces, heq, hcut hkept]
  rw [hcut hkept] at hroom
  by_cases hfits : leading amount decimals.toNat kept < mantissaLimit
  · right
    have hscale : kept ≤ maxScale := hkept.trans (Nat.min_le_right ..)
    refine ⟨⟨false, _, kept, hfits, hscale⟩, ?_, rfl, rfl, ⟨hkept, hfits⟩, fun s hs => ?_⟩
    · simp [ofParts?, hfits, hscale]
    · exact hgreatest s hs.1 (by rw [hcut hs.1]; exact hs.2)
  · left
    obtain rfl : kept = 0 := Nat.eq_zero_of_not_pos fun hpos => hfits (hroom hpos)
    exact ⟨by simp [ofParts?, hfits], not_lt.mp hfits⟩

theorem leading_mono (amount : Word) {decimals scale scale' : Nat} (h : scale ≤ scale') :
    leading amount decimals scale ≤ leading amount decimals scale' :=
  Nat.div_le_div_left (Nat.pow_le_pow_right (by decide) (by omega)) (tenTo_pos _)

/-- A decimal that holds the leading digits of an amount is less than one unit of its last digit below it. -/
theorem toRat_of_leading {d : Decimal} {decimals : Nat} (hsign : d.negative = false)
    (hmantissa : d.mantissa = leading amount decimals d.scale) (hscale : d.scale ≤ decimals) :
    d.toRat ≤ amount.toNat / tenTo decimals ∧
      (amount.toNat / tenTo decimals : ℚ) < d.toRat + 1 / tenTo d.scale := by
  have hsplit : (tenTo decimals : ℚ) = tenTo (decimals - d.scale) * tenTo d.scale := by
    rw [← Nat.cast_mul, ← tenTo_add, Nat.sub_add_cancel hscale]
  have hvalue : d.toRat = leading amount decimals d.scale / tenTo d.scale := by
    simp [toRat, numerator, hsign, hmantissa]
  have hpos := tenTo_cast_pos (decimals - d.scale)
  have hpos' := tenTo_cast_pos d.scale
  rw [hvalue, hsplit, ← div_div, ← add_div]
  constructor
  · gcongr
    exact Nat.cast_div_le
  · gcongr
    rw [div_lt_iff₀ hpos]
    exact_mod_cast Nat.lt_mul_of_div_lt (Nat.lt_succ_self _) (tenTo_pos _)

/-- A decimal with every digit of an amount has the greatest scale with room. -/
theorem toDecimal_of_toDecimal? {d : Decimal} (hplaces : decimals.toNat ≤ 105)
    (h : toDecimal? amount decimals = some d) : toDecimal amount decimals = some (.ok d) := by
  rw [toDecimal?, ofParts?, Option.dite_none_right_eq_some] at h
  obtain ⟨⟨hfits, hscale⟩, hd⟩ := h
  obtain rfl := Option.some.inj hd
  have hall : leading amount decimals.toNat decimals.toNat = amount.toNat := by
    rw [leading, Nat.sub_self, tenTo_zero, Nat.div_one]
  obtain ⟨-, hlarge⟩ | ⟨d, hd, hsign, hmantissa, hroom, hgreatest⟩ := toDecimal_cases amount hplaces
  · exact absurd ((Nat.div_le_self ..).trans_lt hfits) (not_lt.mpr hlarge)
  · have hkept : d.scale = decimals.toNat :=
      (hroom.1.trans (Nat.min_le_left ..)).antisymm
        (hgreatest ⟨Nat.le_min.mpr ⟨le_rfl, hscale⟩, hall.trans_lt hfits⟩)
    have hdigits : d.mantissa = amount.toNat := by rw [hmantissa, hkept, hall]
    rw [hd]
    exact congrArg (fun d => some (Except.ok d)) (ext_fields hsign hdigits hkept)

/-- An amount of up to 105 places has a decimal unless its integer part alone is too large. The decimal has
the leading digits of the amount at the greatest scale at which they have room, so that less than one unit
of the last digit is cut off. Where every digit has room, all of them are kept. -/
theorem toDecimal_keeps_most_digits (hplaces : decimals.toNat ≤ 105) :
    (toDecimal amount decimals = some (.error (.math (.notADecimal amount))) ↔
      mantissaLimit ≤ amount.toNat / tenTo decimals.toNat) ∧
    (amount.toNat / tenTo decimals.toNat < mantissaLimit →
      ∃ d, toDecimal amount decimals = some (.ok d) ∧ d.negative = false ∧
        IsGreatest (scalesWithRoom amount decimals.toNat) d.scale ∧
        d.mantissa = leading amount decimals.toNat d.scale ∧
        d.toRat ≤ amount.toNat / tenTo decimals.toNat ∧
        (amount.toNat / tenTo decimals.toNat : ℚ) < d.toRat + 1 / tenTo d.scale) ∧
    ∀ d, toDecimal? amount decimals = some d → toDecimal amount decimals = some (.ok d) := by
  have hinteger : leading amount decimals.toNat 0 = amount.toNat / tenTo decimals.toNat := rfl
  rw [← hinteger, ← and_assoc]
  refine ⟨?_, fun d => toDecimal_of_toDecimal? hplaces⟩
  obtain ⟨herror, hlarge⟩ | ⟨d, hd, hsign, hmantissa, hgreatest⟩ := toDecimal_cases amount hplaces
  · exact ⟨iff_of_true herror hlarge, fun hfits => absurd hfits (not_lt.mpr hlarge)⟩
  · have hscale : d.scale ≤ decimals.toNat := hgreatest.1.1.trans (Nat.min_le_left ..)
    have hfits : leading amount decimals.toNat 0 < mantissaLimit :=
      (leading_mono amount (Nat.zero_le d.scale)).trans_lt hgreatest.1.2
    refine ⟨iff_of_false (by simp [hd]) (not_le.mpr hfits), fun _ => ?_⟩
    exact ⟨d, hd, hsign, hgreatest, hmantissa, toRat_of_leading hsign hmantissa hscale⟩

/-- The greatest amount of a token with 60 places keeps 29 of its 78 digits; with 48 places it has no
decimal. -/
theorem toDecimal_keeps_most_digits_full :
    (60 : UInt32).toNat ≤ 105 ∧ (48 : UInt32).toNat ≤ 105 ∧
      (∃ d, toDecimal (BitVec.allOnes 256) 60 = some (.ok d) ∧ d.scale = 11 ∧
        d.mantissa = 11579208923731619542357098500) ∧
      toDecimal (BitVec.allOnes 256) 48 = some (.error (.math (.notADecimal (BitVec.allOnes 256)))) := by
  have hplaces : (60 : UInt32).toNat ≤ 105 := by decide
  have hplaces' : (48 : UInt32).toNat ≤ 105 := by decide
  obtain ⟨-, hok, -⟩ := @toDecimal_keeps_most_digits (BitVec.allOnes 256) 60 hplaces
  obtain ⟨hfail, -, -⟩ := @toDecimal_keeps_most_digits (BitVec.allOnes 256) 48 hplaces'
  obtain ⟨d, hd, -, hgreatest, hmantissa, -⟩ := hok (by decide +kernel)
  have hscale : d.scale = 11 := by
    refine hgreatest.unique ⟨⟨by decide, by decide +kernel⟩, fun s hs => ?_⟩
    by_contra hlt
    have hmore : leading (BitVec.allOnes 256) 60 12 < mantissaLimit :=
      (leading_mono _ (not_le.mp hlt)).trans_lt hs.2
    exact absurd hmore (by decide +kernel)
  refine ⟨hplaces, hplaces', ⟨d, hd, hscale, ?_⟩, hfail.mpr (by decide +kernel)⟩
  rw [hmantissa, hscale]
  decide +kernel

end Chainfolio.Wei
