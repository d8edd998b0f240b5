import Chainfolio.Proofs.Ticks.Computed

/-! How far amounts are off. Rounding a price takes off digits that the liquidity brings before the point again. As
long as the liquidity and the prices are ordinary the amounts are off by a few wei; a price far below one has so few
digits that its inverse is off by far more. -/
namespace Chainfolio.Ticks

open Decimal

/-! ### The error of an amount -/

/-- What an amount may be off by if `lost` is lost before two roundings and a cut to an integer. -/
noncomputable def amountError (exact lost : ℝ) : ℝ := lost + (exact + lost) * roundSlack + 1

section
variable {liquidity : HalfWord} {lower upper current tick a b : Int} {s t e : ℝ} {raw raw0 raw1 : Word}

/-- What the liquidity makes of what the prices at two ticks are off by. -/
noncomputable def lost0 (liquidity : HalfWord) (current upper : Int) : ℝ :=
  liquidity.toNat * (inverseError current + inverseError upper)

noncomputable def lost1 (liquidity : HalfWord) (lower current : Int) : ℝ :=
  liquidity.toNat * (priceError current + priceError lower)

/-- An amount is off by what its difference of prices is off by, and by what is rounded afterwards. -/
theorem FloorOf.error (h : FloorOf liquidity s raw) (hs : 0 ≤ s) (herror : |s - t| ≤ e) :
    |raw.toNat - liquidity.toNat * t| ≤ amountError (liquidity.toNat * t) (liquidity.toNat * e) := by
  obtain ⟨m, hm, hraw⟩ := h
  have hliquidity : (0 : ℝ) ≤ liquidity.toNat := Nat.cast_nonneg _
  have hslack : 0 ≤ roundSlack ∧ roundSlack ≤ 1 := by
    rw [roundSlack_eq]
    norm_num
  have hm_nonneg : 0 ≤ m :=
    (mul_nonneg (mul_nonneg hliquidity hs) (sub_nonneg.mpr hslack.2)).trans hm.lower
  have hcut : |(raw.toNat : ℝ) - m| ≤ 1 := by
    have hle := Nat.floor_le hm_nonneg
    have hlt := Nat.lt_floor_add_one m
    rw [hraw, abs_le]
    constructor <;> linarith
  have hspread : |liquidity.toNat * s - liquidity.toNat * t| ≤ liquidity.toNat * e := by
    rw [← mul_sub, abs_mul, abs_of_nonneg hliquidity]
    exact mul_le_mul_of_nonneg_left herror hliquidity
  have hrounded : |m - liquidity.toNat * s| ≤ (liquidity.toNat * t + liquidity.toNat * e) * roundSlack := by
    refine hm.abs.trans (mul_le_mul_of_nonneg_right ?_ hslack.1)
    linarith [(abs_le.mp hspread).2]
  calc |(raw.toNat : ℝ) - liquidity.toNat * t|
      ≤ |raw.toNat - m| + |m - liquidity.toNat * s| + |liquidity.toNat * s - liquidity.toNat * t| := by
        have hfirst := abs_sub_le (raw.toNat : ℝ) m (liquidity.toNat * t)
        have hsecond := abs_sub_le m (liquidity.toNat * s) (liquidity.toNat * t)
        linarith
    _ ≤ amountError (liquidity.toNat * t) (liquidity.toNat * e) := by
        rw [amountError]
        linarith

theorem spread0_error (ha : InRange a) (hb : InRange b) :
    |spread0 a b - (1 / exactPrice a - 1 / exactPrice b)| ≤ inverseError a + inverseError b := by
  have hfirst := abs_le.mp (quotes_at ha).inverse_error
  have hsecond := abs_le.mp (quotes_at hb).inverse_error
  rw [spread0, abs_le]
  constructor <;> linarith

theorem spread1_error (ha : InRange a) (hb : InRange b) :
    |spread1 a b - (exactPrice b - exactPrice a)| ≤ priceError b + priceError a := by
  have hfirst := abs_le.mp (quotes_at ha).price_error
  have hsecond := abs_le.mp (quotes_at hb).price_error
  rw [spread1, abs_le]
  constructor <;> linarith

/-- Both amounts are off by no more than what the computed prices make of it. -/
theorem amounts_error (hlower : InRange lower) (hupper : InRange upper) (hcurrent : InRange current)
    (hlt : lower < upper) (h : amounts liquidity lower upper current = .ok (raw0, raw1)) :
    |raw0.toNat - exactAmount0 liquidity (clamped lower upper current) upper| ≤
        amountError (exactAmount0 liquidity (clamped lower upper current) upper)
          (lost0 liquidity (clamped lower upper current) upper) ∧
      |raw1.toNat - exactAmount1 liquidity lower (clamped lower upper current)| ≤
        amountError (exactAmount1 liquidity lower (clamped lower upper current))
          (lost1 liquidity lower (clamped lower upper current)) := by
  have hclamped := inRange_clamped hlower hupper hcurrent
  obtain ⟨h0, h1⟩ := floorOf_amounts hlower hupper hcurrent hlt h
  exact ⟨h0.error (sub_nonneg.mpr (inverseAt_anti hclamped hupper (clamped_le hlt.le))) (spread0_error hclamped hupper),
    h1.error (sub_nonneg.mpr (priceAt_mono hlower hclamped (le_clamped ..))) (spread1_error hlower hclamped)⟩

/-! ### A few wei -/

theorem exactPrice_mono (h : a ≤ b) : exactPrice a ≤ exactPrice b := zpow_le_zpow_right₀ one_le_root h

theorem inverse_anti (h : a ≤ b) : 1 / exactPrice b ≤ 1 / exactPrice a :=
  one_div_le_one_div_of_le (exactPrice_pos a) (exactPrice_mono h)

/-- Whether liquidity brings no digit of the price at a tick before the point that rounding takes off. -/
structure FinePrice (liquidity : HalfWord) (tick : Int) : Prop where
  digits : liquidity.toNat * exactPrice tick ≤ 5 * 10 ^ 22

/-- Whether liquidity brings no digit of the inverse of a price before the point that rounding takes off. A price
below one has a place less for every digit of its inverse, so that its square counts. -/
structure FineInverse (liquidity : HalfWord) (tick : Int) : Prop where
  digits : liquidity.toNat * (1 / exactPrice tick) ≤ 5 * 10 ^ 22
  places : 0 ≤ tick ∨ liquidity.toNat * (1 / exactPrice tick) ^ 2 ≤ 3 * 10 ^ 28

theorem FinePrice.anti (h : FinePrice liquidity b) (hab : a ≤ b) : FinePrice liquidity a where
  digits := (mul_le_mul_of_nonneg_left (exactPrice_mono hab) (Nat.cast_nonneg _)).trans h.digits

theorem FineInverse.mono (h : FineInverse liquidity a) (hab : a ≤ b) : FineInverse liquidity b where
  digits := (mul_le_mul_of_nonneg_left (inverse_anti hab) (Nat.cast_nonneg _)).trans h.digits
  places := by
    have hpos := one_div_pos.mpr (exactPrice_pos b)
    have hsquare := pow_le_pow_left₀ hpos.le (inverse_anti hab) 2
    exact h.places.imp hab.trans' (mul_le_mul_of_nonneg_left hsquare (Nat.cast_nonneg _)).trans

/-- Liquidity that has room is worth a few units of the last place. -/
theorem liquidity_mul_unit_le (hroom : liquidity.toNat < mantissaLimit) : liquidity.toNat * unit ≤ 793 / 100 := by
  have hle : (liquidity.toNat : ℝ) ≤ 2 ^ 96 := by
    rw [← mantissaLimit_cast]
    exact_mod_cast hroom.le
  rw [unit_eq]
  linarith

theorem FinePrice.error_le (h : FinePrice liquidity tick) (hroom : liquidity.toNat < mantissaLimit) :
    liquidity.toNat * priceError tick ≤ 447 / 100 := by
  have hunit := liquidity_mul_unit_le hroom
  have hdigits := h.digits
  rw [priceError, digitSlack_eq]
  linarith

theorem FineInverse.error_le (h : FineInverse liquidity tick) (hroom : liquidity.toNat < mantissaLimit) :
    liquidity.toNat * inverseError tick ≤ 447 / 100 := by
  have hunit := liquidity_mul_unit_le hroom
  have hdigits := h.digits
  rw [inverseError, digitSlack_eq]
  split
  · linarith
  · next hneg =>
    have hplaces := h.places.resolve_left hneg
    rw [unit_eq]
    linarith

/-- What is rounded after an amount of few digits is next to nothing. -/
theorem amountError_le {exact e e' : ℝ} (hexact : exact ≤ 5 * 10 ^ 22) (h : liquidity.toNat * e ≤ 447 / 100)
    (h' : liquidity.toNat * e' ≤ 447 / 100) : amountError exact (liquidity.toNat * (e + e')) ≤ 10 := by
  rw [amountError, roundSlack_eq]
  linarith

theorem amountError0_le (hroom : liquidity.toNat < mantissaLimit) (h : FineInverse liquidity a) (hab : a ≤ b) :
    amountError (exactAmount0 liquidity a b) (lost0 liquidity a b) ≤ 10 := by
  refine amountError_le (le_trans ?_ h.digits) (h.error_le hroom) ((h.mono hab).error_le hroom)
  exact mul_le_mul_of_nonneg_left (sub_le_self _ (one_div_pos.mpr (exactPrice_pos b)).le) (Nat.cast_nonneg _)

theorem amountError1_le (hroom : liquidity.toNat < mantissaLimit) (h : FinePrice liquidity b) (hab : a ≤ b) :
    amountError (exactAmount1 liquidity a b) (lost1 liquidity a b) ≤ 10 := by
  refine amountError_le (le_trans ?_ h.digits) (h.error_le hroom) ((h.anti hab).error_le hroom)
  exact mul_le_mul_of_nonneg_left (sub_le_self _ (exactPrice_pos a).le) (Nat.cast_nonneg _)

/-- The amounts that come out are off by what the liquidity makes of the rounded digits of prices and inverses, which
is a few wei where it brings none of them before the point. -/
theorem amounts_accurate (liquidity : HalfWord) (hlower : InRange lower) (hupper : InRange upper)
    (hcurrent : InRange current) (hlt : lower < upper)
    (h : amounts liquidity lower upper current = .ok (raw0, raw1)) :
    (|raw0.toNat - exactAmount0 liquidity (clamped lower upper current) upper| ≤
        amountError (exactAmount0 liquidity (clamped lower upper current) upper)
          (lost0 liquidity (clamped lower upper current) upper) ∧
      (FineInverse liquidity (clamped lower upper current) →
        |raw0.toNat - exactAmount0 liquidity (clamped lower upper current) upper| ≤ 10)) ∧
    (|raw1.toNat - exactAmount1 liquidity lower (clamped lower upper current)| ≤
        amountError (exactAmount1 liquidity lower (clamped lower upper current))
          (lost1 liquidity lower (clamped lower upper current)) ∧
      (FinePrice liquidity (clamped lower upper current) →
        |raw1.toNat - exactAmount1 liquidity lower (clamped lower upper current)| ≤ 10)) := by
  have hroom := toNat_lt_of_amounts h
  obtain ⟨h0, h1⟩ := amounts_error hlower hupper hcurrent hlt h
  exact ⟨⟨h0, fun hfine => h0.trans (amountError0_le hroom hfine (clamped_le hlt.le))⟩,
    h1, fun hfine => h1.trans (amountError1_le hroom hfine (le_clamped ..))⟩

theorem ok_of_toOption {α : Type} {x : Except Fault α} {a : α} (h : x.toOption = some a) : x = .ok a := by
  cases x with
  | error e => cases h
  | ok b => exact congrArg Except.ok (Option.some.inj h)

end

/-- A position of two tokens of 6 and 18 decimals is off by a few wei. -/
theorem amounts_accurate_usual :
    let liquidity : HalfWord := BitVec.ofNat 128 (10 ^ 18)
    (InRange 190000 ∧ InRange 200000 ∧ InRange 195000 ∧ FineInverse liquidity 195000 ∧ FinePrice liquidity 195000) ∧
      amounts liquidity 190000 200000 195000 = .ok (12900453522921, 3792485828870265655901) ∧
      |12900453522921 - exactAmount0 liquidity 195000 200000| ≤ 10 ∧
      |3792485828870265655901 - exactAmount1 liquidity 190000 195000| ≤ 10 := by
  intro liquidity
  have hlower : InRange 190000 := by simp [InRange, maxTick]
  have hupper : InRange 200000 := by simp [InRange, maxTick]
  have hcurrent : InRange 195000 := by simp [InRange, maxTick]
  have hliquidity : (liquidity.toNat : ℝ) = 10 ^ 18 := by
    rw [show liquidity.toNat = 10 ^ 18 from rfl]
    norm_num
  have hone : 1 ≤ exactPrice 195000 := one_le_zpow₀ one_le_root (by decide)
  have hprice : exactPrice 195000 ≤ (50000 : Nat) := exactPrice_even_le (k := 97500) (by decide +kernel)
  rw [Nat.cast_ofNat] at hprice
  have hfine : FinePrice liquidity 195000 := by
    constructor
    rw [hliquidity]
    linarith
  have hfine' : FineInverse liquidity 195000 := by
    refine ⟨?_, .inl (by decide)⟩
    have hinverse : 1 / exactPrice 195000 ≤ 1 := (div_le_one (by linarith)).mpr hone
    rw [hliquidity]
    linarith
  have hamounts : amounts liquidity 190000 200000 195000 = .ok (12900453522921, 3792485828870265655901) :=
    ok_of_toOption (by decide +kernel)
  obtain ⟨⟨-, h0⟩, -, h1⟩ := amounts_accurate liquidity hlower hupper hcurrent (by decide) hamounts
  exact ⟨⟨hlower, hupper, hcurrent, hfine', hfine⟩, hamounts, h0 hfine', h1 hfine⟩

/-- A position of little liquidity at a price far below one is off by some quadrillion wei. -/
theorem amounts_inaccurate :
    let liquidity : HalfWord := BitVec.ofNat 128 (10 ^ 9)
    (InRange (-800000) ∧ InRange (-799940) ∧ clamped (-800000) (-799940) (-800000) = -800000) ∧
      amounts liquidity (-800000) (-799940) (-800000) = .ok (703653807753017466114605, 0) ∧
      4 * 10 ^ 15 ≤ |703653807753017466114605 - exactAmount0 liquidity (-800000) (-799940)| := by
  intro liquidity
  refine ⟨⟨by simp [InRange, maxTick], by simp [InRange, maxTick], by decide⟩,
    ok_of_toOption (by decide +kernel), ?_⟩
  have hliquidity : (liquidity.toNat : ℝ) = 10 ^ 9 := by
    rw [show liquidity.toNat = 10 ^ 9 from rfl]
    norm_num
  -- the inverses are known to the integer, which is enough beside the liquidity
  have hcurrent : exactPrice 800000 ≤ (234914998079838152 : Nat) :=
    exactPrice_even_le (k := 400000) (by decide +kernel)
  have hupper : (234211344276121937 : Nat) ≤ exactPrice 799940 :=
    le_exactPrice_even (k := 399970) (by decide +kernel)
  rw [Nat.cast_ofNat] at hcurrent hupper
  refine le_trans ?_ (le_abs_self _)
  rw [exactAmount0, hliquidity, one_div_exactPrice, one_div_exactPrice, neg_neg, neg_neg]
  linarith

end Chainfolio.Ticks
