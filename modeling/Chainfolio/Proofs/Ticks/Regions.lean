import Chainfolio.Proofs.Decimal.Exact
import Chainfolio.UniswapV3.Ticks

/-! The regions of a position. Below its range liquidity holds what it holds at the start of it, and above the
range what it holds at its end. A number less itself is nothing in decimals, too, so that the formula for ticks
inside the range goes on to both ends of it. -/
namespace Chainfolio.Ticks

open Decimal

/-- The current tick, moved to the closest tick of a range. -/
def clamped (lower upper current : Int) : Int := max lower (min current upper)

theorem le_clamped (lower upper current : Int) : lower ≤ clamped lower upper current := le_max_left ..

theorem clamped_le {lower upper current : Int} (h : lower ≤ upper) : clamped lower upper current ≤ upper :=
  max_le h (min_le_right ..)

theorem clamped_below {lower upper current : Int} (hlt : lower < upper) (h : current < lower) :
    clamped lower upper current = lower := by
  rw [clamped]
  omega

theorem clamped_inside {lower upper current : Int} (hlower : lower ≤ current) (hupper : current ≤ upper) :
    clamped lower upper current = current := by
  rw [clamped]
  omega

theorem clamped_above {lower upper current : Int} (hlt : lower < upper) (h : upper ≤ current) :
    clamped lower upper current = upper := by
  rw [clamped]
  omega

/-- The amounts by the formula for ticks inside the range, before they are cut to integers. -/
def exactInside (liquidity : HalfWord) (lower upper current : Int) : Except Fault (Decimal × Decimal) := do
  let liquidity ← orFail .liquidityOverflow (Decimal.ofParts? false liquidity.toNat 0)
  let sqrtLower ← sqrtPrice lower
  let sqrtUpper ← sqrtPrice upper
  let sqrtCurrent ← sqrtPrice current
  let amount0 ← amount0Delta liquidity sqrtCurrent sqrtUpper
  return (amount0, ← amount1Delta liquidity sqrtLower sqrtCurrent)

/-- The raw amounts by the formula for ticks inside the range. -/
def amountsInside (liquidity : HalfWord) (lower upper current : Int) : Except Fault (Word × Word) := do
  let (amount0, amount1) ← exactInside liquidity lower upper current
  let raw0 ← toRaw amount0
  return (raw0, ← toRaw amount1)

section
variable {liquidity : HalfWord} {lower upper current : Int} {l p i : Decimal}

/-! ### Nothing between a price and itself -/

theorem amount1Delta_self (l p : Decimal) : amount1Delta l p p = .ok .zero := by
  obtain ⟨c, hc, hzero⟩ := sub_self_eq_some p
  rw [amount1Delta, hc, Option.bind_some, mul_of_mantissa_eq_zero l hzero, orFail]

theorem amount0Delta_self (h : Decimal.one.div p = some i) : amount0Delta l p p = .ok .zero := by
  obtain ⟨c, hc, hzero⟩ := sub_self_eq_some i
  have hproduct : (i.sub i).bind l.mul = some .zero := by
    rw [hc, Option.bind_some, mul_of_mantissa_eq_zero l hzero]
  rw [amount0Delta, h]
  exact congrArg (orFail .amount0Overflow) hproduct

/-! ### The ends of the range -/

/-- Whether there is an inverse of the price at a tick that has a price. -/
def HasInverse (tick : Int) : Prop := ∀ p, sqrtPrice tick = .ok p → ∃ i, Decimal.one.div p = some i

/-- The formula for ticks below the range says what the one for ticks inside it says at its start. -/
theorem exactAmounts_below (hbelow : current < lower) :
    exactAmounts liquidity lower upper current = exactInside liquidity lower upper lower := by
  simp only [exactAmounts, exactInside, if_pos hbelow]
  refine bind_congr fun l => ?_
  cases sqrtPrice lower with
  | error e => rfl
  | ok p =>
    change (do let q ← sqrtPrice upper; let amount0 ← amount0Delta l p q; pure (amount0, Decimal.zero)) =
      (do let q ← sqrtPrice upper; let amount0 ← amount0Delta l p q; return (amount0, ← amount1Delta l p p))
    simp only [amount1Delta_self]
    rfl

/-- The formula for ticks above the range says what the one for ticks inside it says at its end. -/
theorem exactAmounts_above (hlt : lower < upper) (habove : upper ≤ current) (h : HasInverse upper) :
    exactAmounts liquidity lower upper current = exactInside liquidity lower upper upper := by
  have hbelow : ¬ current < lower := by omega
  simp only [exactAmounts, exactInside, if_neg hbelow, if_pos habove]
  refine bind_congr fun l => bind_congr fun p => ?_
  cases hq : sqrtPrice upper with
  | error e => rfl
  | ok q =>
    obtain ⟨i, hi⟩ := h q hq
    change (do return (Decimal.zero, ← amount1Delta l p q)) =
      (do let amount0 ← amount0Delta l q q; return (amount0, ← amount1Delta l p q))
    rw [amount0Delta_self hi]
    rfl

theorem exactAmounts_inside (hlower : lower ≤ current) (hupper : current < upper) :
    exactAmounts liquidity lower upper current = exactInside liquidity lower upper current := by
  simp only [exactAmounts, exactInside, if_neg (not_lt.mpr hlower), if_neg (not_le.mpr hupper)]

/-- Outside its range liquidity holds what it holds at the closest tick of it. -/
theorem exactAmounts_clamped (hlt : lower < upper) :
    exactAmounts liquidity lower upper current =
      exactAmounts liquidity lower upper (clamped lower upper current) := by
  rcases lt_or_ge current lower with hbelow | hlower
  · rw [clamped_below hlt hbelow, exactAmounts_below hbelow, exactAmounts_inside le_rfl hlt]
  rcases lt_or_ge current upper with hupper | habove
  · rw [clamped_inside hlower hupper.le]
  · rw [clamped_above hlt habove]
    simp only [exactAmounts, if_neg (not_lt.mpr hlower), if_neg (not_lt.mpr hlt.le), if_pos habove, if_pos le_rfl]

/-- Where the price at the end of the range has an inverse the formula for ticks inside the range is right for all
ticks, at the closest tick of the range. -/
theorem exactAmounts_eq_inside (hlt : lower < upper) (h : HasInverse upper) :
    exactAmounts liquidity lower upper current =
      exactInside liquidity lower upper (clamped lower upper current) := by
  rcases lt_or_ge current lower with hbelow | hlower
  · rw [clamped_below hlt hbelow, exactAmounts_below hbelow]
  rcases lt_or_ge current upper with hupper | habove
  · rw [clamped_inside hlower hupper.le, exactAmounts_inside hlower hupper]
  · rw [clamped_above hlt habove, exactAmounts_above hlt habove h]

theorem amounts_eq_inside (hlt : lower < upper) (h : HasInverse upper) :
    amounts liquidity lower upper current =
      amountsInside liquidity lower upper (clamped lower upper current) := by
  rw [amounts, amountsInside, exactAmounts_eq_inside hlt h]

/-- The regions join without a seam. Liquidity at a tick outside of its range has the amounts, or the failure, that
it has at the closest tick of the range, whatever the ticks are. The formula for ticks inside the range is the one
that is used there, and at the end of the range it gives the same result as the one for ticks above, if the price
there has an inverse. -/
theorem regions_join (liquidity : HalfWord) (hlt : lower < upper) (current : Int) :
    amounts liquidity lower upper current = amounts liquidity lower upper (clamped lower upper current) ∧
    (lower ≤ current → current < upper →
      amounts liquidity lower upper current = amountsInside liquidity lower upper current) ∧
    (HasInverse upper → amountsInside liquidity lower upper upper = amounts liquidity lower upper upper) := by
  refine ⟨by rw [amounts, amounts, exactAmounts_clamped hlt], fun hlower hupper => ?_, fun h => ?_⟩
  · rw [amounts, amountsInside, exactAmounts_inside hlower hupper]
  · rw [amounts_eq_inside hlt h, clamped_above hlt le_rfl]

end

/-- Above the range all liquidity is second token, and just as much at the end of the range, by both formulas. -/
theorem regions_join_above :
    let liquidity : HalfWord := BitVec.ofNat 128 (10 ^ 18)
    ((-60 : Int) < 60 ∧ HasInverse 60) ∧ amounts liquidity (-60) 60 75 = .ok (0, 5999709018652706) ∧
      amounts liquidity (-60) 60 60 = .ok (0, 5999709018652706) ∧
      amountsInside liquidity (-60) 60 60 = .ok (0, 5999709018652706) := by
  intro liquidity
  have hinverse : HasInverse 60 := by
    intro p hp
    obtain rfl := Except.ok.inj hp
    exact ⟨_, rfl⟩
  have hend : amounts liquidity (-60) 60 60 = .ok (0, 5999709018652706) := by
    dsimp only [liquidity]
    rfl
  obtain ⟨houtside, -, hboth⟩ := regions_join liquidity (show (-60 : Int) < 60 by decide) 75
  exact ⟨⟨by decide, hinverse⟩, houtside.trans hend, hend, (hboth hinverse).trans hend⟩

end Chainfolio.Ticks
