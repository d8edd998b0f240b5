import Chainfolio.Proofs.Decimal.Sums
import Chainfolio.Valuation.Profit

/-! Maps of balances by key, and the numbers that they hold. A balance that is put under its key is found
there and changes nothing under any other key. -/
namespace Chainfolio

open Decimal (grid Fits)

namespace Valuation

variable {a b : Decimal} {s : Nat}

theorem add_eq_ok (h : Fits s (a.toRat + b.toRat)) :
    ∃ c, Valuation.add a b = .ok c ∧ c.toRat = a.toRat + b.toRat := by
  obtain ⟨c, hc, hvalue⟩ := Decimal.add_eq_some h
  exact ⟨c, by rw [Valuation.add, hc], hvalue⟩

theorem sub_eq_ok (h : Fits s (a.toRat - b.toRat)) :
    ∃ c, Valuation.sub a b = .ok c ∧ c.toRat = a.toRat - b.toRat := by
  obtain ⟨c, hc, hvalue⟩ := Decimal.sub_eq_some h
  exact ⟨c, by rw [Valuation.sub, hc], hvalue⟩

end Valuation

namespace Balances

variable {b : FiatBalance} {balances : Balances} {key : PositionKey} {held : FiatBalance}

def keys (balances : Balances) : List PositionKey := balances.map Prod.fst

def values (balances : Balances) : List Decimal := balances.map fun e => e.2.value

theorem find?_eq_none_iff : balances.find? key = none ↔ key ∉ balances.keys := by
  induction balances with
  | nil => simp [find?, keys]
  | cons e rest ih =>
    by_cases h : e.1 = key
    · simp [find?, keys, h]
    · simp only [find?, h, if_false, ih, keys, List.map_cons, List.mem_cons, Ne.symm h, false_or]

theorem mem_of_find?_eq_some (h : balances.find? key = some held) : (key, held) ∈ balances := by
  induction balances with
  | nil => cases h
  | cons e rest ih =>
    obtain ⟨k, c⟩ := e
    simp only [find?] at h
    split at h
    · next hk =>
      cases h
      exact hk ▸ List.mem_cons_self
    · exact List.mem_cons_of_mem _ (ih h)

/-- A balance is found under its own key, and all others stay as they were. -/
theorem find?_insert (b : FiatBalance) (balances : Balances) (key : PositionKey) :
    (balances.insert b).find? key = if b.key = key then some b else balances.find? key := by
  induction balances with
  | nil => rfl
  | cons e rest ih =>
    obtain ⟨k, c⟩ := e
    simp only [insert]
    split
    · next hk =>
      subst hk
      by_cases h : b.key = key <;> simp [find?, h]
    · next hk =>
      split
      · rfl
      · by_cases h : k = key
        · subst h
          simp [find?, Ne.symm hk]
        · simp only [find?, h, if_false, ih]

/-! ### Numbers -/

section
variable {b : Balances} {s : Nat}

/-- The number under a key, zero where nothing is held. -/
def number (b : Balances) (key : PositionKey) : ℚ := (Profit.valueOf b key).toRat

/-- Whether balances are the sum of two others, key by key. -/
structure IsSum (whole first second : Balances) : Prop where
  mem_keys : ∀ key, key ∈ whole.keys ↔ key ∈ first.keys ∨ key ∈ second.keys
  number : ∀ key, whole.number key = first.number key + second.number key

@[simp] theorem number_nil (key : PositionKey) : number [] key = 0 := Decimal.toRat_zero

theorem number_cons (e : PositionKey × FiatBalance) (b : Balances) (key : PositionKey) :
    number (e :: b) key = if e.1 = key then e.2.value.toRat else b.number key := by
  by_cases h : e.1 = key <;> simp [number, Profit.valueOf, find?, h]

theorem number_insert (held : FiatBalance) (b : Balances) (key : PositionKey) :
    (b.insert held).number key = if held.key = key then held.value.toRat else b.number key := by
  rw [number, Profit.valueOf, find?_insert]
  by_cases h : held.key = key <;> simp [h, number, Profit.valueOf]

theorem number_eq_zero (h : key ∉ b.keys) : b.number key = 0 := by
  rw [number, Profit.valueOf, find?_eq_none_iff.mpr h, Decimal.toRat_zero]

theorem valueOf_mem_values (h : key ∈ b.keys) : Profit.valueOf b key ∈ b.values := by
  cases hfind : b.find? key with
  | none => exact absurd h (find?_eq_none_iff.mp hfind)
  | some held =>
    rw [Profit.valueOf, hfind]
    exact List.mem_map_of_mem (mem_of_find?_eq_some hfind)

theorem number_mem_grid (h : ∀ d ∈ b.values, d.toRat ∈ grid s) : b.number key ∈ grid s := by
  by_cases hkey : key ∈ b.keys
  · exact h _ (valueOf_mem_values hkey)
  · exact number_eq_zero hkey ▸ (grid s).zero_mem

theorem abs_number_le_size : |b.number key| ≤ Decimal.size b.values := by
  by_cases hkey : key ∈ b.keys
  · exact Decimal.abs_toRat_le_size (valueOf_mem_values hkey)
  · rw [number_eq_zero hkey, abs_zero]
    exact Decimal.size_nonneg _

end

end Balances

end Chainfolio
