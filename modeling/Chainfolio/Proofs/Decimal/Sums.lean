import Mathlib.Algebra.BigOperators.Ring.Finset
import Mathlib.Algebra.Group.Submonoid.BigOperators
import Mathlib.Algebra.Order.BigOperators.Group.List
import Chainfolio.Proofs.Decimal.Exact

/-! Sums of decimals that have room for each other: at the scale of the one with the most places they all
add up, signs aside, to a mantissa. -/
namespace Chainfolio.Decimal

variable {a : Decimal} {s : Nat}

/-- The most places that one of some decimals has. -/
def largestScale (values : List Decimal) : Nat := (values.map scale).foldr max 0

/-- Whether decimals, signs aside, add up to a mantissa at the largest scale among them. -/
def FitTogether (values : List Decimal) : Prop :=
  (values.map fun d => d.mantissa * tenTo (largestScale values - d.scale)).sum < mantissaLimit

instance (values : List Decimal) : Decidable (FitTogether values) := Nat.decLt _ _

/-- The number that decimals add up to. -/
def total (values : List Decimal) : ℚ := (values.map toRat).sum

/-- The number that decimals add up to, signs aside. -/
def size (values : List Decimal) : ℚ := (values.map fun d => |d.toRat|).sum

/-- Whether decimals need at most `s` places each and have room for each other at that scale. -/
structure FitAt (s : Nat) (values : List Decimal) : Prop where
  mem_grid : ∀ d ∈ values, d.toRat ∈ grid s
  room : Room s (size values)

theorem scale_le_largestScale {values : List Decimal} {d : Decimal} (h : d ∈ values) :
    d.scale ≤ largestScale values := by
  induction values with
  | nil => cases h
  | cons first rest ih =>
    rcases List.mem_cons.mp h with rfl | h
    · exact le_max_left _ _
    · exact (ih h).trans (le_max_right _ _)

theorem largestScale_le (values : List Decimal) : largestScale values ≤ maxScale := by
  induction values with
  | nil => exact Nat.zero_le _
  | cons first rest ih => exact max_le first.scale_le ih

theorem abs_numerator (a : Decimal) : |a.numerator| = a.mantissa := by
  rcases a with ⟨_ | _, m, s, hm, hs⟩ <;> simp [numerator]

theorem abs_toRat_mul (h : a.scale ≤ s) :
    |a.toRat| * tenTo s = (a.mantissa * tenTo (s - a.scale) : ℕ) := by
  rw [toRat_eq_numeratorAt h, abs_div, abs_of_pos (tenTo_cast_pos s),
    div_mul_cancel₀ _ (tenTo_cast_ne_zero s), numeratorAt, ← Int.cast_abs, abs_mul, abs_numerator,
    Nat.abs_cast]
  push_cast
  rfl

theorem FitTogether.fitAt {values : List Decimal} (h : FitTogether values) :
    FitAt (largestScale values) values where
  mem_grid d hd := toRat_mem_grid (scale_le_largestScale hd)
  room := by
    refine ⟨largestScale_le values, ?_⟩
    have hsize : size values * tenTo (largestScale values) =
        ((values.map fun d => d.mantissa * tenTo (largestScale values - d.scale)).sum : ℕ) := by
      rw [size, ← List.sum_map_mul_right, Nat.cast_list_sum, List.map_map]
      congr 1
      exact List.map_congr_left fun d hd => abs_toRat_mul (scale_le_largestScale hd)
    rw [hsize]
    exact Nat.cast_lt.mpr h

section
variable {values more : List Decimal} {d : Decimal}

@[simp] theorem total_nil : total [] = 0 := rfl

@[simp] theorem total_cons (d : Decimal) (values : List Decimal) :
    total (d :: values) = d.toRat + total values := rfl

@[simp] theorem total_append (values more : List Decimal) :
    total (values ++ more) = total values + total more := by
  simp [total]

theorem total_perm (h : values.Perm more) : total values = total more := (h.map toRat).sum_eq

@[simp] theorem size_nil : size [] = 0 := rfl

@[simp] theorem size_cons (d : Decimal) (values : List Decimal) :
    size (d :: values) = |d.toRat| + size values := rfl

@[simp] theorem size_append (values more : List Decimal) :
    size (values ++ more) = size values + size more := by
  simp [size]

theorem size_nonneg (values : List Decimal) : 0 ≤ size values := by
  induction values with
  | nil => exact le_rfl
  | cons d rest ih => exact add_nonneg (abs_nonneg _) ih

theorem abs_toRat_le_size (h : d ∈ values) : |d.toRat| ≤ size values := by
  induction values with
  | nil => cases h
  | cons first rest ih =>
    rcases List.mem_cons.mp h with rfl | h
    · exact le_add_of_nonneg_right (size_nonneg rest)
    · exact (ih h).trans (le_add_of_nonneg_left (abs_nonneg _))

theorem abs_total_le_size (values : List Decimal) : |total values| ≤ size values := by
  induction values with
  | nil => simp
  | cons d rest ih => exact (abs_add_le _ _).trans (add_le_add_right ih _)

theorem FitAt.of_sublist (h : FitAt s values) (hsub : more.Sublist values) : FitAt s more where
  mem_grid d hd := h.mem_grid d (hsub.subset hd)
  room := h.room.mono <| (hsub.map _).sum_le_sum fun x hx => by
    obtain ⟨d, -, rfl⟩ := List.mem_map.mp hx
    exact abs_nonneg _

theorem FitAt.of_perm (h : FitAt s values) (hperm : more.Perm values) : FitAt s more where
  mem_grid d hd := h.mem_grid d (hperm.subset hd)
  room := h.room.mono (hperm.map _).sum_eq.le

theorem FitAt.total_mem_grid (h : FitAt s values) : total values ∈ grid s :=
  list_sum_mem fun x hx => by
    obtain ⟨d, hd, rfl⟩ := List.mem_map.mp hx
    exact h.mem_grid d hd

theorem FitAt.fits_total (h : FitAt s values) : Fits s (total values) :=
  ⟨h.total_mem_grid, h.room.mono (abs_total_le_size values)⟩

/-- Values that are replaced by their total have room as before. -/
theorem FitAt.collapse (values : List Decimal) (h : FitAt s (values ++ more))
    (hd : d.toRat = total values) : FitAt s (d :: more) where
  mem_grid e he := by
    rcases List.mem_cons.mp he with rfl | he
    · exact hd ▸ (h.of_sublist (List.sublist_append_left values more)).total_mem_grid
    · exact h.mem_grid e (List.mem_append_right values he)
  room := by
    refine h.room.mono ?_
    rw [size_cons, size_append, hd]
    exact add_le_add_left (abs_total_le_size values) _

end

end Chainfolio.Decimal
