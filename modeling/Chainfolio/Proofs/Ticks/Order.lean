import Chainfolio.Proofs.Ticks.Computed

/-! Amounts and the order of ticks. Computed prices of different ticks are so much apart that no rounding changes the
order of what is computed from them: as the price grows, a position turns from its first token into the second one,
and no amount of a position is ever negative. -/
namespace Chainfolio.Ticks

open Decimal

section
variable {liquidity : HalfWord} {lower upper current c₁ c₂ tick : Int} {s s' : ℝ} {raw raw' x₁ y₁ x₂ y₂ : Word}

/-! ### The order of amounts -/

/-- Rounding does not change the order of products whose differences are apart. -/
theorem FloorOf.le (h : FloorOf liquidity s raw) (h' : FloorOf liquidity s' raw') (hs : 0 ≤ s)
    (hgap : s * (1 + gap) ≤ s') : raw.toNat ≤ raw'.toNat := by
  obtain ⟨m, hm, hraw⟩ := h
  obtain ⟨m', hm', hraw'⟩ := h'
  have hliquidity : (0 : ℝ) ≤ liquidity.toNat := Nat.cast_nonneg _
  have hproduct : 0 ≤ liquidity.toNat * s := mul_nonneg hliquidity hs
  have hslack : 1 + roundSlack ≤ (1 + gap) * (1 - roundSlack) ∧ 0 ≤ 1 - roundSlack := by
    rw [gap_eq, roundSlack_eq]
    norm_num
  have hle : m ≤ m' := by
    calc m ≤ liquidity.toNat * s * (1 + roundSlack) := hm.upper
      _ ≤ liquidity.toNat * s * ((1 + gap) * (1 - roundSlack)) := mul_le_mul_of_nonneg_left hslack.1 hproduct
      _ = liquidity.toNat * (s * (1 + gap)) * (1 - roundSlack) := by ring
      _ ≤ liquidity.toNat * s' * (1 - roundSlack) :=
        mul_le_mul_of_nonneg_right (mul_le_mul_of_nonneg_left hgap hliquidity) hslack.2
      _ ≤ m' := hm'.lower
  rw [hraw, hraw']
  exact Nat.floor_mono hle

/-- What is taken off both of two numbers that are apart does not bring them together. -/
theorem sub_gap {x y z : ℝ} (hz : 0 ≤ z) (h : x * (1 + gap) ≤ y) : (x - z) * (1 + gap) ≤ y - z := by
  have hrest : 0 ≤ z * gap := mul_nonneg hz gap_pos.le
  linarith

theorem spread0_gap (h₁ : InRange c₁) (h₂ : InRange c₂) (hupper : InRange upper) (hlt : c₁ < c₂) (hle : c₂ ≤ upper) :
    0 ≤ spread0 c₂ upper ∧ spread0 c₂ upper * (1 + gap) ≤ spread0 c₁ upper :=
  ⟨sub_nonneg.mpr (inverseAt_anti h₂ hupper hle), sub_gap (magnitude_nonneg _) (inverseAt_gap h₁ h₂ hlt)⟩

theorem spread1_gap (hlower : InRange lower) (h₁ : InRange c₁) (h₂ : InRange c₂) (hle : lower ≤ c₁) (hlt : c₁ < c₂) :
    0 ≤ spread1 lower c₁ ∧ spread1 lower c₁ * (1 + gap) ≤ spread1 lower c₂ :=
  ⟨sub_nonneg.mpr (priceAt_mono hlower h₁ hle), sub_gap (magnitude_nonneg _) (priceAt_gap h₁ h₂ hlt)⟩

theorem clamped_mono (lower upper : Int) (h : c₁ ≤ c₂) : clamped lower upper c₁ ≤ clamped lower upper c₂ :=
  max_le_max_left lower (min_le_min_right upper h)

/-- As the tick grows a position has less of the first token and more of the second one. -/
theorem amounts_in_order (hlower : InRange lower) (hupper : InRange upper) (h₁ : InRange c₁) (h₂ : InRange c₂)
    (hlt : lower < upper) (hle : c₁ ≤ c₂) (hamounts₁ : amounts liquidity lower upper c₁ = .ok (x₁, y₁))
    (hamounts₂ : amounts liquidity lower upper c₂ = .ok (x₂, y₂)) :
    x₂.toNat ≤ x₁.toNat ∧ y₁.toNat ≤ y₂.toNat := by
  have hclamped₁ := inRange_clamped hlower hupper h₁
  have hclamped₂ := inRange_clamped hlower hupper h₂
  obtain ⟨hx₁, hy₁⟩ := floorOf_amounts hlower hupper h₁ hlt hamounts₁
  obtain ⟨hx₂, hy₂⟩ := floorOf_amounts hlower hupper h₂ hlt hamounts₂
  rcases lt_or_eq_of_le (clamped_mono lower upper hle) with hmoved | hsame
  · obtain ⟨hnonneg₀, hgap₀⟩ := spread0_gap hclamped₁ hclamped₂ hupper hmoved (clamped_le hlt.le)
    obtain ⟨hnonneg₁, hgap₁⟩ := spread1_gap hlower hclamped₁ hclamped₂ (le_clamped ..) hmoved
    exact ⟨hx₂.le hx₁ hnonneg₀ hgap₀, hy₁.le hy₂ hnonneg₁ hgap₁⟩
  · -- both ticks are on one side of the range, where the amounts are the same
    rw [amounts, exactAmounts_clamped hlt, hsame, ← exactAmounts_clamped hlt, ← amounts, hamounts₂] at hamounts₁
    cases hamounts₁
    exact ⟨le_rfl, le_rfl⟩

/-! ### The sign of amounts -/

/-- Liquidity without a range has no amounts. -/
theorem exactAmounts_point (h : InRange tick) (hroom : liquidity.toNat < mantissaLimit) :
    exactAmounts liquidity tick tick current = .ok (.zero, .zero) := by
  obtain ⟨hp, hi, -⟩ := computed_at h
  have hparts : ofParts? false liquidity.toNat 0 = some (whole liquidity hroom) := dif_pos ⟨hroom, Nat.zero_le _⟩
  rw [exactAmounts, hparts, hp]
  rcases lt_or_ge current tick with hbelow | habove
  · simp [orFail, hbelow, amount0Delta_self hi, pure, Except.pure, bind, Except.bind]
  · simp [orFail, not_lt.mpr habove, habove, amount1Delta_self, pure, Except.pure, bind, Except.bind]

/-- Whatever prevents amounts, it is not their sign. -/
theorem amounts_ne_notAnAmount (hlower : InRange lower) (hupper : InRange upper) (hcurrent : InRange current)
    (hle : lower ≤ upper) (amount : Decimal) :
    amounts liquidity lower upper current ≠ fail (.notAnAmount amount) := by
  by_cases hroom : liquidity.toNat < mantissaLimit
  · rcases lt_or_eq_of_le hle with hlt | rfl
    · obtain ⟨r0, r1, h0, h1, hexact⟩ := exists_yields hlower hupper hcurrent hlt hroom
      rw [amounts, hexact]
      cases h0 with
      | overflow => rintro ⟨⟩
      | amount m0 hsign0 =>
        cases h1 with
        | overflow => rintro ⟨⟩
        | amount m1 hsign1 =>
          simp only [bind, Except.bind, pure, Except.pure, toRaw_of_nonneg hsign0, toRaw_of_nonneg hsign1]
          rintro ⟨⟩
    · rw [amounts, exactAmounts_point hlower hroom]
      rintro ⟨⟩
  · rw [amounts_of_wide hroom]
    rintro ⟨⟩

/-- The amounts move with the price. Of two ticks that have amounts the larger one has no more of the first token and
no less of the second one; and at no ticks is it the sign of an amount that prevents them, also if the range is a
single tick. -/
theorem amounts_move_with_price (liquidity : HalfWord) (hlower : InRange lower) (hupper : InRange upper) :
    (∀ (c₁ c₂ : Int) (x₁ y₁ x₂ y₂ : Word), lower < upper → InRange c₁ → InRange c₂ → c₁ ≤ c₂ →
      amounts liquidity lower upper c₁ = .ok (x₁, y₁) → amounts liquidity lower upper c₂ = .ok (x₂, y₂) →
      x₂.toNat ≤ x₁.toNat ∧ y₁.toNat ≤ y₂.toNat) ∧
    ∀ (current : Int) (amount : Decimal), lower ≤ upper → InRange current →
      amounts liquidity lower upper current ≠ fail (.notAnAmount amount) :=
  ⟨fun _ _ _ _ _ _ hlt h₁ h₂ hle => amounts_in_order hlower hupper h₁ h₂ hlt hle,
    fun _ amount hle hcurrent => amounts_ne_notAnAmount hlower hupper hcurrent hle amount⟩

end

/-- Twenty ticks around the price one, and a range of a single tick. -/
theorem amounts_move_with_price_around_one :
    let liquidity : HalfWord := BitVec.ofNat 128 (10 ^ 18)
    let less : Word := 2495504920917779
    let more : Word := 3495454965911280
    (InRange (-60) ∧ InRange 60 ∧ InRange (-10) ∧ InRange 10) ∧
      (amounts liquidity (-60) 60 (-10) = .ok (more, less) ∧ amounts liquidity (-60) 60 10 = .ok (less, more) ∧
        less.toNat ≤ more.toNat) ∧
      ∀ amount, amounts liquidity 60 60 10 ≠ fail (.notAnAmount amount) := by
  intro liquidity less more
  have hlower : InRange (-60) := by simp [InRange, maxTick]
  have hupper : InRange 60 := by simp [InRange, maxTick]
  have h₁ : InRange (-10) := by simp [InRange, maxTick]
  have h₂ : InRange 10 := by simp [InRange, maxTick]
  have hamounts₁ : amounts liquidity (-60) 60 (-10) = .ok (more, less) := by
    dsimp only [liquidity, less, more]
    rfl
  have hamounts₂ : amounts liquidity (-60) 60 10 = .ok (less, more) := by
    dsimp only [liquidity, less, more]
    rfl
  have hmoved := (amounts_move_with_price liquidity hlower hupper).1 (-10) 10 more less less more
    (by decide) h₁ h₂ (by decide) hamounts₁ hamounts₂
  exact ⟨⟨hlower, hupper, h₁, h₂⟩, ⟨hamounts₁, hamounts₂, hmoved.1⟩, fun amount =>
    (amounts_move_with_price liquidity hupper hupper).2 10 amount le_rfl h₂⟩

end Chainfolio.Ticks
