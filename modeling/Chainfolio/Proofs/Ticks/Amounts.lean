import Chainfolio.Proofs.Ticks.Price
import Chainfolio.Proofs.Ticks.Regions

/-! The amounts behind liquidity. At all ticks that a pool can have they are the exact ones up to a small part
of them, unless the liquidity or an amount has no room in a mantissa: a tick, a quotient or the sign of an
amount never is the cause of a failure. -/
namespace Chainfolio.Ticks

open Decimal

/-- The exact amount of the first token between a tick and the end of a range. -/
noncomputable def exactAmount0 (liquidity : HalfWord) (current upper : Int) : ℝ :=
  liquidity.toNat * (1 / exactPrice current - 1 / exactPrice upper)

/-- The exact amount of the second token between the start of a range and a tick. -/
noncomputable def exactAmount1 (liquidity : HalfWord) (lower current : Int) : ℝ :=
  liquidity.toNat * (exactPrice current - exactPrice lower)

/-! ### One amount -/

/-- The part of itself that rounding takes off liquidity times a difference. -/
noncomputable def roundSlack : ℝ := (3 : Nat) / tenTo 28

theorem roundSlack_eq : roundSlack = 3 / 10 ^ 28 := by
  rw [roundSlack, tenTo_real]
  norm_num

/-- The part of itself that an amount may be off by. -/
noncomputable def amountSlack : ℝ := (75 : Nat) / tenTo 6

theorem amountSlack_eq : amountSlack = 75 / 10 ^ 6 := by
  rw [amountSlack, tenTo_real]
  norm_num

/-- What may come out where an exact amount is looked for. -/
inductive Yields (cause : TickFault) (exact : ℝ) : Except Fault Decimal → Prop where
  | amount (m : Decimal) (sign : m.negative = false) (near : Near amountSlack m.magnitude exact) :
      Yields cause exact (.ok m)
  | overflow (full : (mantissaLimit : ℝ) - 1 / 2 ≤ exact * (1 + amountSlack)) : Yields cause exact (fail cause)

section
variable {cause : TickFault} {l p q i j : Decimal} {a b : Int}

theorem Yields.zero (cause : TickFault) : Yields cause 0 (.ok Decimal.zero) :=
  .amount _ rfl ⟨by rw [magnitude_eq_zero rfl, zero_mul], by rw [magnitude_eq_zero rfl, zero_mul]⟩

/-- Liquidity times the difference of a number and one that is not larger is rounded twice, unless it is too large
for a mantissa. -/
theorem product_cases {x y : Decimal} (hl : l.negative = false) (hscale : l.scale = 0) (hx : x.negative = false)
    (hy : y.negative = false) (hle : y.magnitude ≤ x.magnitude) :
    (∃ m, (x.sub y).bind l.mul = some m ∧ m.negative = false ∧
      Near roundSlack m.magnitude (l.magnitude * (x.magnitude - y.magnitude))) ∨
    ((x.sub y).bind l.mul = none ∧
      (mantissaLimit : ℝ) - 1 / 2 ≤ l.magnitude * (x.magnitude - y.magnitude) * (1 + roundSlack)) := by
  have hl_nonneg := magnitude_nonneg l
  have hproduct : 0 ≤ l.magnitude * (x.magnitude - y.magnitude) := mul_nonneg hl_nonneg (sub_nonneg.mpr hle)
  obtain ⟨d, hd, hd_sign, hd_error⟩ := sub_of_le hx hy hle
  have hd_near := (Near.of_abs hd_error).mul_left hl_nonneg
  have hplaces : l.scale + d.scale ≤ maxScale := by
    rw [hscale, Nat.zero_add]
    exact d.scale_le
  rw [hd, Option.bind_some]
  rcases mul_cases hl hd_sign (fun h => absurd (h.2.2.trans_le hplaces) (by decide)) with
    ⟨m, hm, hm_sign, hm_error⟩ | ⟨hnone, hlimit⟩
  · rw [if_pos hplaces, add_zero] at hm_error
    refine .inl ⟨m, hm, hm_sign, (Near.of_abs hm_error).trans hd_near hproduct unit_pos.le ?_ unit_pos.le ?_⟩ <;>
      norm_num [unit_eq, roundSlack_eq]
  · refine .inr ⟨hnone, hlimit.trans (hd_near.upper.trans (mul_le_mul_of_nonneg_left ?_ hproduct))⟩
    norm_num [unit_eq, roundSlack_eq]

/-- An amount is off by little more than the difference of prices that it comes from. -/
theorem yields_of_spread {x y : Decimal} {spread : ℝ} (cause : TickFault) (hl : l.negative = false)
    (hscale : l.scale = 0) (hx : x.negative = false) (hy : y.negative = false) (hle : y.magnitude ≤ x.magnitude)
    (hnear : Near spreadSlack (x.magnitude - y.magnitude) spread) (hspread : 0 ≤ spread) :
    Yields cause (l.magnitude * spread) (orFail cause ((x.sub y).bind l.mul)) := by
  have hnonneg : 0 ≤ l.magnitude * spread := mul_nonneg (magnitude_nonneg l) hspread
  have hproduct := hnear.mul_left (magnitude_nonneg l)
  rcases product_cases hl hscale hx hy hle with ⟨m, hm, hm_sign, hm_near⟩ | ⟨hnone, hlimit⟩
  · rw [hm]
    refine .amount m hm_sign (hm_near.trans hproduct hnonneg ?_ ?_ ?_ ?_) <;>
      norm_num [roundSlack_eq, spreadSlack_eq, amountSlack_eq]
  · rw [hnone]
    refine .overflow (hlimit.trans ?_)
    calc l.magnitude * (x.magnitude - y.magnitude) * (1 + roundSlack)
        ≤ l.magnitude * spread * (1 + spreadSlack) * (1 + roundSlack) :=
          mul_le_mul_of_nonneg_right hproduct.upper (by norm_num [roundSlack_eq])
      _ ≤ l.magnitude * spread * (1 + amountSlack) := by
          rw [mul_assoc]
          exact mul_le_mul_of_nonneg_left (by norm_num [roundSlack_eq, spreadSlack_eq, amountSlack_eq]) hnonneg

/-- Prices that are apart are still in order when they are computed. -/
theorem yields_of_gap {x y : Decimal} {s t : ℝ} (cause : TickFault) (hl : l.negative = false) (hscale : l.scale = 0)
    (hx : x.negative = false) (hy : y.negative = false) (hxs : Near slack x.magnitude s)
    (hyt : Near slack y.magnitude t) (ht : 0 < t) (hgap : root * t ≤ s) :
    Yields cause (l.magnitude * (s - t)) (orFail cause ((x.sub y).bind l.mul)) := by
  have hspread : 0 ≤ s - t := sub_nonneg.mpr ((le_mul_of_one_le_left ht.le one_le_root).trans hgap)
  have hnear := sub_near hxs hyt ht hgap
  have hle : 0 ≤ x.magnitude - y.magnitude := by
    refine le_trans (mul_nonneg hspread ?_) hnear.lower
    norm_num [spreadSlack_eq]
  exact yields_of_spread cause hl hscale hx hy (sub_nonneg.mp hle) hnear hspread

/-- The inverses of the prices at two ticks that are in order are so, too. -/
theorem amount0Delta_yields (hl : l.negative = false) (hscale : l.scale = 0) (hi : one.div p = some i)
    (hj : one.div q = some j) (hp : Quotes a p i) (hq : Quotes b q j) (hab : a < b ∨ a = b ∧ p = q) :
    Yields .amount0Overflow (l.magnitude * (1 / exactPrice a - 1 / exactPrice b)) (amount0Delta l p q) := by
  rcases hab with hlt | ⟨rfl, rfl⟩
  · rw [amount0Delta, hi, hj]
    exact yields_of_gap _ hl hscale hp.inverse_sign hq.inverse_sign hp.inverse_near hq.inverse_near
      (one_div_pos.mpr (exactPrice_pos b)) (root_mul_inverse_le hlt)
  · rw [sub_self, mul_zero, amount0Delta_self hi]
    exact .zero _

theorem amount1Delta_yields (hl : l.negative = false) (hscale : l.scale = 0) (hp : Quotes a p i)
    (hq : Quotes b q j) (hab : a < b ∨ a = b ∧ p = q) :
    Yields .amount1Overflow (l.magnitude * (exactPrice b - exactPrice a)) (amount1Delta l p q) := by
  rcases hab with hlt | ⟨rfl, rfl⟩
  · exact yields_of_gap _ hl hscale hq.price_sign hp.price_sign hq.price_near hp.price_near (exactPrice_pos a)
      (root_mul_exactPrice_le hlt)
  · rw [sub_self, mul_zero, amount1Delta_self]
    exact .zero _

end

/-! ### Both amounts -/

section
variable {liquidity : HalfWord} {lower upper current : Int} {p q r : Decimal}

theorem inRange_clamped (hlower : InRange lower) (hupper : InRange upper) (hcurrent : InRange current) :
    InRange (clamped lower upper current) := by
  simp only [InRange, clamped] at *
  omega

theorem hasInverse_of_inRange {tick : Int} (h : InRange tick) : HasInverse tick := by
  obtain ⟨p, i, hp, hi, -⟩ := exists_quotes h
  intro q hq
  exact ⟨i, Except.ok.inj (hp.symm.trans hq) ▸ hi⟩

/-- The liquidity that has room, as a decimal. -/
def whole (liquidity : HalfWord) (hroom : liquidity.toNat < mantissaLimit) : Decimal :=
  ⟨false, liquidity.toNat, 0, hroom, Nat.zero_le _⟩

theorem magnitude_whole (hroom : liquidity.toNat < mantissaLimit) :
    (whole liquidity hroom).magnitude = liquidity.toNat := by
  rw [magnitude, placed, whole, tenTo_zero, Nat.cast_one, div_one]

/-- At all ticks that a pool can have the amounts come from the prices at the ends of the range and at the tick of it
that is closest to the current one. -/
theorem exactAmounts_eq_deltas (hlt : lower < upper) (hroom : liquidity.toNat < mantissaLimit)
    (hl : sqrtPrice lower = .ok p) (hu : sqrtPrice upper = .ok q) (hinverse : HasInverse upper)
    (hc : sqrtPrice (clamped lower upper current) = .ok r) :
    exactAmounts liquidity lower upper current =
      (do return (← amount0Delta (whole liquidity hroom) r q, ← amount1Delta (whole liquidity hroom) p r)) := by
  have hparts : ofParts? false liquidity.toNat 0 = some (whole liquidity hroom) := dif_pos ⟨hroom, Nat.zero_le _⟩
  rw [exactAmounts_eq_inside hlt hinverse, exactInside, hparts, hl, hu, hc]
  rfl

/-- The amount of the first token and then that of the second one are looked for. -/
theorem exists_yields (hlower : InRange lower) (hupper : InRange upper) (hcurrent : InRange current)
    (hlt : lower < upper) (hroom : liquidity.toNat < mantissaLimit) :
    ∃ r0 r1, Yields .amount0Overflow (exactAmount0 liquidity (clamped lower upper current) upper) r0 ∧
      Yields .amount1Overflow (exactAmount1 liquidity lower (clamped lower upper current)) r1 ∧
      exactAmounts liquidity lower upper current = (do return (← r0, ← r1)) := by
  obtain ⟨pl, il, hpl, -, hl⟩ := exists_quotes hlower
  obtain ⟨pu, iu, hpu, hiu, hu⟩ := exists_quotes hupper
  obtain ⟨pc, ic, hpc, hic, hc⟩ := exists_quotes (inRange_clamped hlower hupper hcurrent)
  rw [exactAmount0, exactAmount1, ← magnitude_whole hroom]
  refine ⟨_, _, amount0Delta_yields rfl rfl hic hiu hc hu ?_, amount1Delta_yields rfl rfl hl hc ?_,
    exactAmounts_eq_deltas hlt hroom hpl hpu (hasInverse_of_inRange hupper) hpc⟩
  -- at an end of the range both prices are the same, and not only close to each other
  · rcases lt_or_eq_of_le (clamped_le hlt.le) with h | h
    · exact .inl h
    · exact .inr ⟨h, Except.ok.inj (hpc.symm.trans ((congrArg sqrtPrice h).trans hpu))⟩
  · rcases lt_or_eq_of_le (le_clamped lower upper current) with h | h
    · exact .inl h
    · exact .inr ⟨h, Except.ok.inj (hpl.symm.trans ((congrArg sqrtPrice h).trans hpc))⟩

/-- An amount that is not negative is rounded down. -/
theorem toRaw_of_nonneg {d : Decimal} (h : d.negative = false) :
    toRaw d = .ok (BitVec.ofNat 256 (d.mantissa / tenTo d.scale)) := by
  have hlt : d.mantissa / tenTo d.scale < mantissaLimit := (Nat.div_le_self ..).trans_lt d.mantissa_lt
  have hfloor : d.floor = some ⟨false, d.mantissa / tenTo d.scale, 0, hlt, Nat.zero_le _⟩ := by
    rw [floor, if_neg (by simp [h]), h]
    exact dif_pos ⟨hlt, Nat.zero_le _⟩
  rw [toRaw, hfloor]
  simp [toNat?]

/-- An exact amount whose computed one has room is not larger than a mantissa by more than the slack. -/
theorem exact_le_of_near {m : Decimal} {exact : ℝ} (h : Near amountSlack m.magnitude exact) :
    exact ≤ 2 ^ 96 * (1 + 1 / 10 ^ 4) := by
  have hroom := magnitude_lt m
  have hlower := h.lower
  rw [mantissaLimit_cast] at hroom
  rw [amountSlack_eq] at hlower
  linarith

theorem lt_exact_of_full {exact : ℝ} (h : (mantissaLimit : ℝ) - 1 / 2 ≤ exact * (1 + amountSlack)) :
    2 ^ 96 * (1 - 1 / 10 ^ 4) < exact := by
  rw [mantissaLimit_cast, amountSlack_eq] at h
  linarith

/-- Liquidity times a difference of prices always has room in a word. -/
theorem liquidity_mul_lt (liquidity : HalfWord) {price price' : ℝ} (hprice : price ≤ 35 * 10 ^ 18)
    (hprice' : 0 < price') : liquidity.toNat * (price - price') < 2 ^ 256 := by
  have hliquidity : (liquidity.toNat : ℝ) ≤ 2 ^ 128 := by exact_mod_cast liquidity.isLt.le
  calc liquidity.toNat * (price - price') ≤ liquidity.toNat * (35 * 10 ^ 18) :=
        mul_le_mul_of_nonneg_left (by linarith) (Nat.cast_nonneg _)
    _ ≤ 2 ^ 128 * (35 * 10 ^ 18) := mul_le_mul_of_nonneg_right hliquidity (by norm_num)
    _ < 2 ^ 256 := by norm_num

/-- Amounts come out, unless the liquidity has no room in a mantissa or an exact amount has none, up to one
part in ten thousand. The exact amounts themselves always have room in a word. -/
theorem amounts_reportable (liquidity : HalfWord) (hlower : InRange lower) (hupper : InRange upper)
    (hcurrent : InRange current) (hlt : lower < upper) :
    (2 ^ 96 ≤ liquidity.toNat → amounts liquidity lower upper current = fail .liquidityOverflow) ∧
    (liquidity.toNat < 2 ^ 96 →
      (∃ raw0 raw1, amounts liquidity lower upper current = .ok (raw0, raw1) ∧
        exactAmount0 liquidity (clamped lower upper current) upper ≤ 2 ^ 96 * (1 + 1 / 10 ^ 4) ∧
        exactAmount1 liquidity lower (clamped lower upper current) ≤ 2 ^ 96 * (1 + 1 / 10 ^ 4)) ∨
      (amounts liquidity lower upper current = fail .amount0Overflow ∧
        2 ^ 96 * (1 - 1 / 10 ^ 4) < exactAmount0 liquidity (clamped lower upper current) upper) ∨
      (amounts liquidity lower upper current = fail .amount1Overflow ∧
        2 ^ 96 * (1 - 1 / 10 ^ 4) < exactAmount1 liquidity lower (clamped lower upper current))) ∧
    exactAmount0 liquidity (clamped lower upper current) upper < 2 ^ 256 ∧
    exactAmount1 liquidity lower (clamped lower upper current) < 2 ^ 256 := by
  have hclamped := inRange_clamped hlower hupper hcurrent
  refine ⟨fun hwide => ?_, fun hroom => ?_, ?_, ?_⟩
  · have hnone : ofParts? false liquidity.toNat 0 = none := dif_neg fun h => absurd h.1 (Nat.not_lt.mpr hwide)
    rw [amounts, exactAmounts, hnone]
    rfl
  · obtain ⟨r0, r1, h0, h1, hexact⟩ := exists_yields hlower hupper hcurrent hlt hroom
    rw [amounts, hexact]
    cases h0 with
    | overflow hfull => exact .inr (.inl ⟨rfl, lt_exact_of_full hfull⟩)
    | amount m0 hsign0 hnear0 =>
      cases h1 with
      | overflow hfull => exact .inr (.inr ⟨rfl, lt_exact_of_full hfull⟩)
      | amount m1 hsign1 hnear1 =>
        refine .inl ⟨BitVec.ofNat 256 (m0.mantissa / tenTo m0.scale),
          BitVec.ofNat 256 (m1.mantissa / tenTo m1.scale), ?_, exact_le_of_near hnear0, exact_le_of_near hnear1⟩
        simp only [bind, Except.bind, pure, Except.pure, toRaw_of_nonneg hsign0, toRaw_of_nonneg hsign1]
  · exact liquidity_mul_lt liquidity (inverse_le hclamped) (one_div_pos.mpr (exactPrice_pos _))
  · exact liquidity_mul_lt liquidity (exactPrice_le hclamped) (exactPrice_pos _)

/-- The liquidity of a usual position around the price one has amounts. -/
theorem amounts_reportable_around_one :
    (InRange (-60) ∧ InRange 60 ∧ InRange 0 ∧ (-60 : Int) < 60) ∧
    ∃ raw0 raw1, amounts (BitVec.ofNat 128 (10 ^ 18)) (-60) 60 0 = .ok (raw0, raw1) := by
  have hlower : InRange (-60) := by simp [InRange, maxTick]
  have hupper : InRange 60 := by simp [InRange, maxTick]
  have hcurrent : InRange 0 := by simp [InRange, maxTick]
  refine ⟨⟨hlower, hupper, hcurrent, by decide⟩, ?_⟩
  have hone : exactPrice 0 = 1 := zpow_zero root
  have hroom : ((BitVec.ofNat 128 (10 ^ 18)).toNat : ℝ) = 10 ^ 18 := by
    rw [show (BitVec.ofNat 128 (10 ^ 18)).toNat = 10 ^ 18 from rfl]
    norm_num
  have hlimit : (10 : ℝ) ^ 18 < 2 ^ 96 * (1 - 1 / 10 ^ 4) := by norm_num
  have hpos := one_div_pos.mpr (exactPrice_pos 60)
  have hpos' := exactPrice_pos (-60)
  rcases (amounts_reportable (BitVec.ofNat 128 (10 ^ 18)) hlower hupper hcurrent (by decide)).2.1 (by decide) with
    ⟨raw0, raw1, hamounts, -⟩ | ⟨-, hfull⟩ | ⟨-, hfull⟩
  · exact ⟨raw0, raw1, hamounts⟩
  · rw [exactAmount0, show clamped (-60) 60 0 = 0 from rfl, hone, hroom] at hfull
    linarith
  · rw [exactAmount1, show clamped (-60) 60 0 = 0 from rfl, hone, hroom] at hfull
    linarith

/-- Liquidity of more bits than a mantissa has no amounts, and usual liquidity has none at the lowest price. -/
theorem amounts_without_room :
    (InRange (-60) ∧ InRange 60 ∧ InRange 0 ∧
      amounts (BitVec.ofNat 128 (2 ^ 96)) (-60) 60 0 = fail .liquidityOverflow) ∧
    (InRange (-887272) ∧ InRange (-887271) ∧
      (amounts (BitVec.ofNat 128 (10 ^ 18)) (-887272) (-887271) (-887272)).isOk = false) := by
  refine ⟨⟨?_, ?_, ?_, rfl⟩, ?_, ?_, by decide +kernel⟩ <;> simp [InRange, maxTick]

end

end Chainfolio.Ticks
