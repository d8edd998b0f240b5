import Mathlib.Tactic.IntervalCases
import Chainfolio.Proofs.Decimal.Wide

/-! How far powers of decimals are off. Squaring doubles the part that a power is off by, and each product
adds a part of its own, so that a power is off by no more than the same power of a base that is a little
smaller or larger. -/
namespace Chainfolio.Decimal

theorem trimmed_eq {w : Wide} (hmantissa : w.mantissa < mantissaLimit) (hscale : w.scale ≤ maxScale) :
    ∃ d, trimmed false w = some d ∧ d.negative = false ∧ d.magnitude = w.size := by
  have hsheds := Wide.sheds_trim w.scale w
  have hmantissa' := hsheds.mantissa_le.trans_lt hmantissa
  have hscale' := hsheds.scale_le.trans hscale
  exact ⟨⟨false, _, _, hmantissa', hscale'⟩, dif_pos ⟨hmantissa', hscale'⟩, rfl, hsheds.placed_eq⟩

/-- A product of numbers that are not below one is off by a small part of itself. -/
theorem mul_near {a b : Decimal} (ha : a.negative = false) (hb : b.negative = false)
    (hone : 1 ≤ a.magnitude) (hone' : 1 ≤ b.magnitude) (hlimit : a.magnitude * b.magnitude ≤ 10 ^ 20) :
    ∃ d, a.mul b = some d ∧ d.negative = false ∧
      Near (1 / 10 ^ 27) d.magnitude (a.magnitude * b.magnitude) := by
  have hproduct : 1 ≤ a.magnitude * b.magnitude := one_le_mul_of_one_le_of_one_le hone hone'
  have hwide : ¬ (a.isNarrow ∧ b.isNarrow ∧ narrowScale < a.scale + b.scale) := by
    rintro ⟨hnarrow, -, hplaces⟩
    have hmantissa : (a.mantissa : ℝ) < 2 ^ 32 := by
      rw [← twoTo_real]
      exact_mod_cast of_decide_eq_true hnarrow
    have hscale : (10 : ℝ) ^ 20 ≤ tenTo a.scale := by
      have := b.scale_le
      rw [tenTo_real]
      exact pow_le_pow_right₀ (by norm_num) (by simp only [narrowScale, maxScale] at *; omega)
    have hshort : (2 : ℝ) ^ 32 < 10 ^ 20 := by norm_num
    rw [magnitude, placed, le_div_iff₀ (tenTo_real_pos _)] at hone
    linarith
  rcases mul_cases ha hb hwide with ⟨d, hd, hsign, herror⟩ | ⟨-, hfull⟩
  · have hplaces : (if a.scale + b.scale ≤ maxScale then 0 else unit / 2) ≤ unit / 2 := by
      have := unit_pos
      split <;> linarith
    refine ⟨d, hd, hsign, .of_abs (herror.trans ((add_le_add_right hplaces _).trans ?_))⟩
    rw [unit_eq]
    linarith
  · rw [mantissaLimit_cast] at hfull
    norm_num at hfull hlimit
    linarith

/-! ### Powers -/

/-- Whether a number is a power of a base that is somewhere between two others. -/
structure IsPower (lo hi : ℝ) (k : Nat) (x : ℝ) : Prop where
  lower : lo ^ k ≤ x
  upper : x ≤ hi ^ k

/-- Whether this is so with a part `u` of the number to spare on both sides. -/
structure HasSlack (u lo hi : ℝ) (k : Nat) (x : ℝ) : Prop where
  lower : lo ^ k ≤ x * (1 - u)
  upper : x * (1 + u) ≤ hi ^ k

section
variable {u lo hi x y p : ℝ} {j k : Nat}

theorem IsPower.one_le (h : IsPower lo hi k x) (hlo : 1 ≤ lo) : 1 ≤ x :=
  (one_le_pow₀ hlo).trans h.lower

theorem HasSlack.isPower (h : HasSlack u lo hi k x) (hu : 0 ≤ u) (hx : 0 ≤ x) : IsPower lo hi k x where
  lower := h.lower.trans (by nlinarith)
  upper := le_trans (by nlinarith) h.upper

theorem HasSlack.square (h : HasSlack u lo hi k x) (hu : 0 ≤ u) (hu' : u ≤ 1) (hlo : 0 ≤ lo) (hx : 0 ≤ x)
    (hy : Near u y (x * x)) : HasSlack u lo hi (2 * k) y := by
  have hpow : 0 ≤ lo ^ k := pow_nonneg hlo k
  constructor
  · calc lo ^ (2 * k) = lo ^ k * lo ^ k := by rw [two_mul, pow_add]
      _ ≤ x * (1 - u) * (x * (1 - u)) := mul_self_le_mul_self hpow h.lower
      _ = x * x * (1 - u) * (1 - u) := by ring
      _ ≤ y * (1 - u) := mul_le_mul_of_nonneg_right hy.lower (by linarith)
  · calc y * (1 + u) ≤ x * x * (1 + u) * (1 + u) := mul_le_mul_of_nonneg_right hy.upper (by linarith)
      _ = x * (1 + u) * (x * (1 + u)) := by ring
      _ ≤ hi ^ k * hi ^ k := mul_self_le_mul_self (by positivity) h.upper
      _ = hi ^ (2 * k) := by rw [two_mul, pow_add]

theorem IsPower.mul (h : IsPower lo hi j p) (h' : HasSlack u lo hi k x) (hu : 0 ≤ u) (hlo : 0 ≤ lo)
    (hx : 0 ≤ x) (hp : 0 ≤ p) (hy : Near u y (p * x)) : IsPower lo hi (j + k) y where
  lower := by
    calc lo ^ (j + k) = lo ^ j * lo ^ k := pow_add ..
      _ ≤ p * (x * (1 - u)) := mul_le_mul h.lower h'.lower (pow_nonneg hlo k) hp
      _ = p * x * (1 - u) := by ring
      _ ≤ y := hy.lower
  upper := by
    calc y ≤ p * x * (1 + u) := hy.upper
      _ = p * (x * (1 + u)) := by ring
      _ ≤ hi ^ j * hi ^ k := mul_le_mul h.upper h'.upper (by positivity) (hp.trans h.upper)
      _ = hi ^ (j + k) := (pow_add ..).symm

/-- The exponent of a product takes in one more bit. -/
theorem mod_twoTo_succ (e n : Nat) :
    e % twoTo (n + 1) = e % twoTo n + if bit e n then twoTo n else 0 := by
  have h : e % twoTo (n + 1) = e % twoTo n + twoTo n * (e / twoTo n % 2) := Nat.mod_pow_succ
  rw [h, bit]
  rcases Nat.mod_two_eq_zero_or_one (e / twoTo n) with hbit | hbit <;> simp [hbit]

variable {α : Type} {mul : α → α → Option α} {Valid : α → Prop} {size : α → ℝ} {limit : ℝ} {e : Nat}

theorem squareMultiply_succ (count n : Nat) (power product : α) :
    squareMultiply mul e (count + 1) n power product =
      (if n = 0 then some power else mul power power).bind fun power =>
        (if bit e n then mul product power else some product).bind
          (squareMultiply mul e count (n + 1) power) := by
  cases n with
  | zero => cases hbit : bit e 0 <;> simp [squareMultiply, hbit]
  | succ n => cases hbit : bit e (n + 1) <;> simp [squareMultiply, hbit]

/-- Whether numbers that are not below one have a product, as far as it is within a limit, that is off by a
part of itself at most. -/
def MultipliesWithin (mul : α → α → Option α) (Valid : α → Prop) (size : α → ℝ) (u limit : ℝ) : Prop :=
  ∀ a b, Valid a → Valid b → 1 ≤ size a → 1 ≤ size b → size a * size b ≤ limit →
    ∃ c, mul a b = some c ∧ Valid c ∧ Near u (size c) (size a * size b)

/-- A part of an exponent that takes in one more bit is a part of the exponent. -/
theorem add_twoTo_le {n : Nat} (hbit : bit e n) : e % twoTo n + twoTo n ≤ e := by
  have h := mod_twoTo_succ e n
  rw [if_pos hbit] at h
  exact h ▸ Nat.mod_le ..

section
variable (hmul : MultipliesWithin mul Valid size u limit) (hu : 0 ≤ u) (hlo : 1 ≤ lo) (hhi : 1 ≤ hi)
  (hlimit : hi ^ e ≤ limit) {n : Nat} {power product : α} (hpower : Valid power) (hpos : 0 ≤ size power)
include hmul hu hlo hhi hlimit hpower hpos

/-- The power is squared for each bit but the lowest, and keeps a part to spare. -/
theorem exists_squared (hu' : u ≤ 1) (hbits : twoTo n ≤ e)
    (hslack : HasSlack u lo hi (twoTo (n - 1)) (size power)) :
    ∃ power', (if n = 0 then some power else mul power power) = some power' ∧ Valid power' ∧
      0 ≤ size power' ∧ HasSlack u lo hi (twoTo n) (size power') := by
  by_cases hn : n = 0
  · subst hn
    exact ⟨power, if_pos rfl, hpower, hpos, hslack⟩
  have hdouble : 2 * twoTo (n - 1) = twoTo n := by
    rw [← Nat.sub_add_cancel (Nat.pos_of_ne_zero hn), twoTo_succ, Nat.add_sub_cancel, Nat.mul_comm]
  have hroot := hslack.isPower hu hpos
  have hone := hroot.one_le hlo
  have hle : size power * size power ≤ limit := by
    calc size power * size power ≤ hi ^ twoTo (n - 1) * hi ^ twoTo (n - 1) :=
          mul_self_le_mul_self hpos hroot.upper
      _ = hi ^ twoTo n := by rw [← pow_add, ← two_mul, hdouble]
      _ ≤ hi ^ e := pow_le_pow_right₀ hhi hbits
      _ ≤ limit := hlimit
  obtain ⟨c, hc, hvalid, hnear⟩ := hmul power power hpower hpower hone hone hle
  have hsquare := hslack.square hu hu' (zero_le_one.trans hlo) hpos hnear
  rw [hdouble] at hsquare
  refine ⟨c, (if_neg hn).trans hc, hvalid, le_trans ?_ hnear.lower, hsquare⟩
  exact mul_nonneg (mul_self_nonneg _) (by linarith)

/-- The product takes in the power where the bit of the exponent is set, and uses up the part to spare. -/
theorem exists_multiplied (hproduct : Valid product) (hslack : HasSlack u lo hi (twoTo n) (size power))
    (hpartial : IsPower lo hi (e % twoTo n) (size product)) :
    ∃ product', (if bit e n then mul product power else some product) = some product' ∧ Valid product' ∧
      IsPower lo hi (e % twoTo (n + 1)) (size product') := by
  rw [mod_twoTo_succ]
  by_cases hbit : bit e n
  · have hone := hpartial.one_le hlo
    have hroot := hslack.isPower hu hpos
    have hle : size product * size power ≤ limit := by
      calc size product * size power ≤ hi ^ (e % twoTo n) * hi ^ twoTo n :=
            mul_le_mul hpartial.upper hroot.upper hpos (pow_nonneg (zero_le_one.trans hhi) _)
        _ = hi ^ (e % twoTo n + twoTo n) := (pow_add ..).symm
        _ ≤ hi ^ e := pow_le_pow_right₀ hhi (add_twoTo_le hbit)
        _ ≤ limit := hlimit
    obtain ⟨c, hc, hvalid, hnear⟩ := hmul product power hproduct hpower hone (hroot.one_le hlo) hle
    rw [if_pos hbit, if_pos hbit]
    exact ⟨c, hc, hvalid,
      hpartial.mul hslack hu (zero_le_one.trans hlo) hpos (zero_le_one.trans hone) hnear⟩
  · rw [if_neg hbit, if_neg hbit]
    exact ⟨product, rfl, hproduct, hpartial⟩

/-- Squaring and multiplying gives a power if products up to it are off by a part of themselves: the power
that is squared keeps the part to spare that the next product uses up. -/
theorem squareMultiply_isPower (hu' : u ≤ 1) (he : e ≠ 0) (count : Nat) (hcount : n + count = e.log2 + 1)
    (hproduct : Valid product) (hslack : HasSlack u lo hi (twoTo (n - 1)) (size power))
    (hpartial : IsPower lo hi (e % twoTo n) (size product)) :
    ∃ r, squareMultiply mul e count n power product = some r ∧ Valid r ∧ IsPower lo hi e (size r) := by
  induction count generalizing n power product with
  | zero =>
    have hlt : e < twoTo n := by
      rw [show n = e.log2 + 1 by omega]
      exact Nat.lt_log2_self
    exact ⟨product, rfl, hproduct, Nat.mod_eq_of_lt hlt ▸ hpartial⟩
  | succ count ih =>
    have hbits : twoTo n ≤ e := (Nat.le_log2 he).mp (by omega)
    obtain ⟨power', hsquared, hpower', hpos', hslack'⟩ :=
      exists_squared hmul hu hlo hhi hlimit hpower hpos hu' hbits hslack
    obtain ⟨product', hmultiplied, hproduct', hpartial'⟩ :=
      exists_multiplied hmul hu hlo hhi hlimit hpower' hpos' hproduct hslack' hpartial
    rw [squareMultiply_succ, hsquared, Option.bind_some, hmultiplied, Option.bind_some]
    exact ih hpower' hpos' (by omega) hproduct' hslack' hpartial'

end

end

section
variable {b : Decimal} {lo hi : ℝ} {e : Nat}

/-- The part of itself that a power with a large exponent may be off by in the end. -/
noncomputable def cutSlack : ℝ := 1 / tenTo 26

theorem cutSlack_eq : cutSlack = 1 / 10 ^ 26 := by rw [cutSlack, tenTo_real]

theorem isPower_zero {x : ℝ} (hx : x = 1) : IsPower lo hi 0 x := by
  constructor <;> simp [hx]

theorem magnitude_one : one.magnitude = 1 := by simp [magnitude, placed, one]

theorem powNat_eq_small (b : Decimal) (he : 2 < e) (hsmall : e < wideExponent) :
    b.powNat e = (squareMultiply mul e (e.log2 + 1) 0 b one).bind fun p =>
      trimmed p.negative ⟨p.mantissa, p.scale⟩ := by
  obtain ⟨n, rfl⟩ : ∃ n, e = n + 3 := ⟨e - 3, by omega⟩
  exact if_pos hsmall

theorem powNat_eq_large (b : Decimal) (hlarge : wideExponent ≤ e) :
    b.powNat e = (squareMultiply Wide.mul e (e.log2 + 1) 0 ⟨b.mantissa, b.scale⟩ ⟨1, 0⟩).bind fun w =>
      (if w.mantissa < mantissaLimit ∧ w.scale ≤ maxScale then some w else w.fit 96 maxScale).bind
        (trimmed false) := by
  have he : 2 < e := Nat.lt_of_lt_of_le (by decide) hlarge
  obtain ⟨n, rfl⟩ : ∃ n, e = n + 3 := ⟨e - 3, by omega⟩
  refine (if_neg (Nat.not_lt.mpr hlarge)).trans ?_
  simp only [Option.bind_eq_bind]
  congr 1
  funext w
  split <;> rfl

/-- Powers with small exponents multiply decimals. -/
theorem powNat_of_small (hb : b.negative = false) (hlo : 1 ≤ lo)
    (hslack : HasSlack (1 / 10 ^ 27) lo hi 1 b.magnitude) (hlimit : hi ^ e ≤ 10 ^ 20)
    (hsmall : e < wideExponent) :
    ∃ d, b.powNat e = some d ∧ d.negative = false ∧ IsPower lo hi e d.magnitude := by
  have hnonneg := magnitude_nonneg b
  have hbase := hslack.isPower (by norm_num) hnonneg
  have hone := hbase.one_le hlo
  have hhi : 1 ≤ hi := hone.trans (pow_one hi ▸ hbase.upper)
  rcases Nat.lt_or_ge 2 e with he | hle
  · have hmul : MultipliesWithin mul (·.negative = false) magnitude (1 / 10 ^ 27) (10 ^ 20) :=
      fun a b ha hb hone hone' hle => mul_near ha hb hone hone' hle
    have hstart : IsPower lo hi (e % twoTo 0) one.magnitude := by
      rw [twoTo_zero, Nat.mod_one]
      exact isPower_zero magnitude_one
    obtain ⟨p, hp, hsign, hpower⟩ := squareMultiply_isPower hmul (by norm_num) hlo hhi hlimit hb hnonneg
      (by norm_num) (show e ≠ 0 by omega) (e.log2 + 1) (Nat.zero_add _) rfl hslack hstart
    obtain ⟨d, hd, hsign', hmagnitude⟩ := trimmed_eq (w := ⟨p.mantissa, p.scale⟩) p.mantissa_lt p.scale_le
    refine ⟨d, ?_, hsign', hmagnitude ▸ hpower⟩
    rw [powNat_eq_small b he hsmall, hp, Option.bind_some, hsign]
    exact hd
  · -- the first powers are not multiplied bit by bit
    interval_cases e
    · exact ⟨one, rfl, rfl, isPower_zero magnitude_one⟩
    · exact ⟨b, rfl, hb, hbase⟩
    · have hle : b.magnitude * b.magnitude ≤ 10 ^ 20 := by
        refine le_trans ?_ hlimit
        rw [sq]
        exact mul_self_le_mul_self hnonneg (pow_one hi ▸ hbase.upper)
      obtain ⟨d, hd, hsign, hnear⟩ := mul_near hb hb hone hone hle
      have hsquare := hslack.square (by norm_num) (by norm_num) (by linarith) hnonneg hnear
      exact ⟨d, hd, hsign, hsquare.isPower (by norm_num) (magnitude_nonneg d)⟩

/-- A wide power is cut back to a decimal. -/
theorem exists_cut {w : Wide} (hone : 1 ≤ w.size) (hlimit : w.size ≤ 10 ^ 20) :
    ∃ r, (if w.mantissa < mantissaLimit ∧ w.scale ≤ maxScale then some w else w.fit 96 maxScale) = some r ∧
      r.mantissa < mantissaLimit ∧ r.scale ≤ maxScale ∧ Near cutSlack r.size w.size := by
  by_cases hfits : w.mantissa < mantissaLimit ∧ w.scale ≤ maxScale
  · have hslack : 0 ≤ w.size * cutSlack := mul_nonneg (by linarith) (by rw [cutSlack_eq]; positivity)
    exact ⟨w, if_pos hfits, hfits.1, hfits.2, by linarith, by linarith⟩
  · have hover : twoTo 96 ≤ w.mantissa ∨ maxScale < w.scale := by
      rw [not_and_or, Nat.not_lt, Nat.not_le] at hfits
      exact hfits
    obtain ⟨r, hr, hmantissa, hscale, herror⟩ :=
      Wide.fit_error maxScale (by decide) hover (Wide.room_of_size hlimit le_rfl)
    refine ⟨r, (if_neg hfits).trans hr, hmantissa, hscale, .of_abs (herror.trans ?_)⟩
    rw [tenTo_real, twoTo_real, cutSlack_eq, maxScale]
    norm_num
    linarith

/-- Powers with large exponents multiply wide numbers, and are cut back to a decimal in the end. -/
theorem powNat_of_large (hlo : 1 ≤ lo) (hslack : HasSlack Wide.slack lo hi 1 b.magnitude)
    (hlimit : hi ^ e ≤ 10 ^ 20) (hlarge : wideExponent ≤ e) :
    ∃ d x, b.powNat e = some d ∧ d.negative = false ∧ IsPower lo hi e x ∧ Near cutSlack d.magnitude x := by
  have hmul : MultipliesWithin Wide.mul (fun _ => True) Wide.size Wide.slack (10 ^ 20) := by
    intro a b _ _ hone hone' hle
    obtain ⟨c, hc, hnear⟩ := Wide.mul_near hone hone' hle
    exact ⟨c, hc, trivial, hnear⟩
  have he : e ≠ 0 := (Nat.lt_of_lt_of_le (by decide) hlarge).ne'
  have hpart : 0 ≤ Wide.slack ∧ Wide.slack ≤ 1 := by
    rw [Wide.slack_eq]
    norm_num
  have hb := magnitude_nonneg b
  have hbase := hslack.isPower hpart.1 hb
  have hhi : 1 ≤ hi := (hbase.one_le hlo).trans (pow_one hi ▸ hbase.upper)
  have hstart : IsPower lo hi (e % twoTo 0) (Wide.size ⟨1, 0⟩) := by
    rw [twoTo_zero, Nat.mod_one]
    exact isPower_zero (by simp [Wide.size, placed])
  have hwide : 0 ≤ Wide.size ⟨b.mantissa, b.scale⟩ := hb
  obtain ⟨w, hw, -, hpower⟩ := squareMultiply_isPower hmul hpart.1 hlo hhi hlimit trivial hwide hpart.2 he
    (e.log2 + 1) (Nat.zero_add _) trivial hslack hstart
  obtain ⟨r, hr, hmantissa, hscale, hnear⟩ := exists_cut (hpower.one_le hlo) (hpower.upper.trans hlimit)
  obtain ⟨d, hd, hsign, hmagnitude⟩ := trimmed_eq hmantissa hscale
  refine ⟨d, w.size, ?_, hsign, hpower, hmagnitude ▸ hnear⟩
  rw [powNat_eq_large b hlarge, hw, Option.bind_some, hr, Option.bind_some, hd]

end

end Chainfolio.Decimal
