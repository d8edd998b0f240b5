import Mathlib.Algebra.Order.Floor.Semifield
import Chainfolio.Proofs.Run
import Chainfolio.Proofs.Ticks.Amounts

/-! Amounts as floors. At ticks that a pool can have, the amounts that come out are floors of the liquidity times
differences of computed prices, or of their inverses, up to what two roundings take off. So what is to be known of
amounts is known from the prices. -/
namespace Chainfolio.Ticks

open Decimal

/-! ### Computed prices -/

/-- The price that is computed at a tick that has one. -/
def priceAt (tick : Int) : Decimal :=
  match sqrtPrice tick with
  | .ok price => price
  | .error _ => .zero

/-- The inverse of the price that is computed at a tick. -/
def inverseAt (tick : Int) : Decimal := (Decimal.one.div (priceAt tick)).getD .zero

section
variable {tick a b : Int}

theorem computed_at (h : InRange tick) :
    sqrtPrice tick = .ok (priceAt tick) ∧ one.div (priceAt tick) = some (inverseAt tick) ∧
      Quotes tick (priceAt tick) (inverseAt tick) := by
  obtain ⟨p, i, hp, hi, hquotes⟩ := exists_quotes h
  obtain rfl : p = priceAt tick := by rw [priceAt, hp]
  obtain rfl : i = inverseAt tick := by rw [inverseAt, hi, Option.getD_some]
  exact ⟨hp, hi, hquotes⟩

theorem quotes_at (h : InRange tick) : Quotes tick (priceAt tick) (inverseAt tick) := (computed_at h).2.2

/-- What is left between the computed prices at two ticks. -/
noncomputable def gap : ℝ := (4 : Nat) / tenTo 5

theorem gap_eq : gap = 4 / 10 ^ 5 := by
  rw [gap, tenTo_real]
  norm_num

/-- Numbers that are apart by the root are still apart when they are computed. -/
theorem gap_of_near {x y p q : ℝ} (hx : Near slack x p) (hy : Near slack y q) (hq : 0 < q) (hroot : root * q ≤ p) :
    y * (1 + gap) ≤ x := by
  have hleft : (1 + 49998 / 10 ^ 9) * q ≤ p := le_trans (mul_le_mul_of_nonneg_right le_root hq.le) hroot
  have hx_lower := hx.lower
  have hy_upper := hy.upper
  rw [slack_eq] at hx_lower hy_upper
  rw [gap_eq]
  linarith

/-- Computed prices grow with the tick. -/
theorem priceAt_gap (ha : InRange a) (hb : InRange b) (hab : a < b) :
    (priceAt a).magnitude * (1 + gap) ≤ (priceAt b).magnitude :=
  gap_of_near (quotes_at hb).price_near (quotes_at ha).price_near (exactPrice_pos a) (root_mul_exactPrice_le hab)

/-- Inverses of computed prices shrink as the tick grows. -/
theorem inverseAt_gap (ha : InRange a) (hb : InRange b) (hab : a < b) :
    (inverseAt b).magnitude * (1 + gap) ≤ (inverseAt a).magnitude :=
  gap_of_near (quotes_at ha).inverse_near (quotes_at hb).inverse_near (one_div_pos.mpr (exactPrice_pos b))
    (root_mul_inverse_le hab)

theorem gap_pos : 0 < gap := by
  rw [gap_eq]
  norm_num

theorem le_of_gap {x y : ℝ} (hx : 0 ≤ x) (h : x * (1 + gap) ≤ y) : x ≤ y :=
  (le_mul_of_one_le_right hx (by linarith [gap_pos])).trans h

theorem priceAt_mono (ha : InRange a) (hb : InRange b) (hab : a ≤ b) :
    (priceAt a).magnitude ≤ (priceAt b).magnitude := by
  rcases lt_or_eq_of_le hab with hlt | rfl
  · exact le_of_gap (magnitude_nonneg _) (priceAt_gap ha hb hlt)
  · exact le_rfl

theorem inverseAt_anti (ha : InRange a) (hb : InRange b) (hab : a ≤ b) :
    (inverseAt b).magnitude ≤ (inverseAt a).magnitude := by
  rcases lt_or_eq_of_le hab with hlt | rfl
  · exact le_of_gap (magnitude_nonneg _) (inverseAt_gap ha hb hlt)
  · exact le_rfl

end

/-! ### Amounts -/

section
variable {liquidity : HalfWord} {lower upper current : Int} {raw raw0 raw1 : Word}

/-- The differences of prices that the amounts come from. -/
noncomputable def spread0 (current upper : Int) : ℝ := (inverseAt current).magnitude - (inverseAt upper).magnitude

noncomputable def spread1 (lower current : Int) : ℝ := (priceAt current).magnitude - (priceAt lower).magnitude

/-- Whether a raw amount is the floor of liquidity times a difference, up to what rounding takes off the product. -/
def FloorOf (liquidity : HalfWord) (spread : ℝ) (raw : Word) : Prop :=
  ∃ m : ℝ, Near roundSlack m (liquidity.toNat * spread) ∧ raw.toNat = ⌊m⌋₊

theorem toNat_of_toRaw {d : Decimal} (hsign : d.negative = false) (h : toRaw d = .ok raw) :
    raw.toNat = ⌊d.magnitude⌋₊ := by
  rw [toRaw_of_nonneg hsign] at h
  cases h
  have hlt : d.mantissa / tenTo d.scale < 2 ^ 256 :=
    (Nat.div_le_self ..).trans_lt (d.mantissa_lt.trans_le (Nat.pow_le_pow_right (by decide) (by decide)))
  rw [BitVec.toNat_ofNat, Nat.mod_eq_of_lt hlt, magnitude, placed, Nat.floor_div_eq_div]

/-- A product that comes out is cut to a floor. -/
theorem floorOf_of_toRaw {x y m : Decimal} (hroom : liquidity.toNat < mantissaLimit) (hx : x.negative = false)
    (hy : y.negative = false) (hle : y.magnitude ≤ x.magnitude)
    (hproduct : (x.sub y).bind (whole liquidity hroom).mul = some m) (hraw : toRaw m = .ok raw) :
    FloorOf liquidity (x.magnitude - y.magnitude) raw := by
  rcases product_cases (l := whole liquidity hroom) rfl rfl hx hy hle with ⟨m', hm', hsign, hnear⟩ | ⟨hnone, -⟩
  · obtain rfl : m' = m := Option.some.inj (hm'.symm.trans hproduct)
    rw [magnitude_whole] at hnear
    exact ⟨m'.magnitude, hnear, toNat_of_toRaw hsign hraw⟩
  · rw [hnone] at hproduct
    cases hproduct

theorem orFail_eq_ok_iff {α : Type} {cause : TickFault} {x : Option α} {a : α} :
    orFail cause x = .ok a ↔ x = some a := by
  cases x <;> simp [orFail, fail]

theorem amount0Delta_eq {l p q i j : Decimal} (hi : one.div p = some i) (hj : one.div q = some j) :
    amount0Delta l p q = orFail .amount0Overflow ((i.sub j).bind l.mul) := by
  rw [amount0Delta, hi, hj]
  rfl

/-- Liquidity without room in a mantissa has no amounts. -/
theorem amounts_of_wide (h : ¬ liquidity.toNat < mantissaLimit) :
    amounts liquidity lower upper current = fail .liquidityOverflow := by
  have hnone : ofParts? false liquidity.toNat 0 = none := dif_neg fun hparts => h hparts.1
  rw [amounts, exactAmounts, hnone]
  rfl

theorem toNat_lt_of_amounts (h : amounts liquidity lower upper current = .ok (raw0, raw1)) :
    liquidity.toNat < mantissaLimit := by
  by_contra hwide
  rw [amounts_of_wide hwide] at h
  cases h

/-- Both amounts are floors of the liquidity times differences of computed prices. -/
theorem floorOf_amounts (hlower : InRange lower) (hupper : InRange upper) (hcurrent : InRange current)
    (hlt : lower < upper) (h : amounts liquidity lower upper current = .ok (raw0, raw1)) :
    FloorOf liquidity (spread0 (clamped lower upper current) upper) raw0 ∧
      FloorOf liquidity (spread1 lower (clamped lower upper current)) raw1 := by
  have hclamped := inRange_clamped hlower hupper hcurrent
  have hroom := toNat_lt_of_amounts h
  obtain ⟨hl, -, hlquotes⟩ := computed_at hlower
  obtain ⟨hu, hui, huquotes⟩ := computed_at hupper
  obtain ⟨hc, hci, hcquotes⟩ := computed_at hclamped
  rw [amounts, exactAmounts_eq_deltas hlt hroom hl hu (hasInverse_of_inRange hupper) hc, amount0Delta_eq hci hui,
    amount1Delta] at h
  obtain ⟨⟨m0, m1⟩, hdeltas, h⟩ := bind_eq_ok_iff.mp h
  obtain ⟨r0, hraw0, h⟩ := bind_eq_ok_iff.mp h
  obtain ⟨r1, hraw1, h⟩ := bind_eq_ok_iff.mp h
  cases h
  obtain ⟨n0, hn0, hdeltas⟩ := bind_eq_ok_iff.mp hdeltas
  obtain ⟨n1, hn1, hdeltas⟩ := bind_eq_ok_iff.mp hdeltas
  cases hdeltas
  rw [orFail_eq_ok_iff] at hn0 hn1
  exact ⟨floorOf_of_toRaw hroom hcquotes.inverse_sign huquotes.inverse_sign
      (inverseAt_anti hclamped hupper (clamped_le hlt.le)) hn0 hraw0,
    floorOf_of_toRaw hroom hcquotes.price_sign hlquotes.price_sign
      (priceAt_mono hlower hclamped (le_clamped ..)) hn1 hraw1⟩

end

end Chainfolio.Ticks
