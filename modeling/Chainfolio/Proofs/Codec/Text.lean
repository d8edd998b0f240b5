import Mathlib.Data.Nat.Digits.Defs
import Mathlib.Tactic.Ring
import Chainfolio.Text.Amount

/-! Texts of amounts, addresses and hashes. What is written is read back, and an amount that is read from
any text has the value that the text spells, so that writing it changes no more than its spelling. -/
namespace Chainfolio

/-! ### Amounts -/

namespace Text.Amount

/-- The markers that announce a base. -/
def markers : List (List Char × Nat) :=
  [(['0', 'x'], 16), (['0', 'X'], 16), (['0', 'o'], 8), (['0', 'O'], 8), (['0', 'b'], 2),
    (['0', 'B'], 2), ([], 10)]

/-- Whether a text spells a number: a marker or none, then digits of its base, the most significant one
first, with underscores among them. -/
def Spells (text : List Char) (n : Nat) : Prop :=
  ∃ (marker : List Char) (b : Nat) (written : List Char) (digits : List Nat), (marker, b) ∈ markers ∧
    text = marker ++ written ∧ (written.filter (· ≠ '_')).map Hex.digitValue? = digits.map some ∧
    (∀ d ∈ digits, d < b) ∧ n = digits.foldl (fun n d => b * n + d) 0

variable {b n : Nat} {c : Char} {text : List Char}

theorem value?_cons (hc : c ≠ '_') (acc : Nat) :
    value? b (c :: text) acc =
      (Hex.digitValue? c).bind fun d => if d < b then value? b text (b * acc + d) else none := by
  rw [value?]
  · rfl
  · exact hc

/-- What is read are the digits that are left without underscores. -/
theorem value?_eq_some {acc : Nat} (h : value? b text acc = some n) :
    ∃ digits : List Nat, (text.filter (· ≠ '_')).map Hex.digitValue? = digits.map some ∧
      (∀ d ∈ digits, d < b) ∧ n = digits.foldl (fun n d => b * n + d) acc := by
  induction text generalizing acc with
  | nil =>
    cases h
    exact ⟨[], rfl, by simp, rfl⟩
  | cons c text ih =>
    by_cases hc : c = '_'
    · subst hc
      obtain ⟨digits, hdigits⟩ := ih h
      exact ⟨digits, by simpa using hdigits⟩
    · rw [value?_cons hc] at h
      obtain ⟨d, hd, h⟩ := Option.bind_eq_some_iff.mp h
      split at h
      · next hlt =>
        obtain ⟨digits, hwritten, hbelow, hn⟩ := ih h
        refine ⟨d :: digits, ?_, List.forall_mem_cons.mpr ⟨hlt, hbelow⟩, hn⟩
        rw [List.filter_cons_of_pos (by simpa using hc), List.map_cons, hd, hwritten, List.map_cons]
      · cases h

theorem base_mem (text : List Char) : ∃ marker, (marker, (base text).1) ∈ markers ∧
    text = marker ++ (base text).2 := by
  unfold base
  split
  · exact ⟨['0', 'x'], by simp [markers], rfl⟩
  · exact ⟨['0', 'X'], by simp [markers], rfl⟩
  · exact ⟨['0', 'o'], by simp [markers], rfl⟩
  · exact ⟨['0', 'O'], by simp [markers], rfl⟩
  · exact ⟨['0', 'b'], by simp [markers], rfl⟩
  · exact ⟨['0', 'B'], by simp [markers], rfl⟩
  · exact ⟨[], by simp [markers], rfl⟩

/-- Decimal digits announce no other base. -/
theorem base_of_digits (h : ∀ c ∈ text, c.isDigit = true) : base text = (10, text) := by
  unfold base
  split <;> first | rfl | simp [Char.isDigit] at h

theorem digitValue?_of_isDigit (h : c.isDigit = true) :
    Hex.digitValue? c = some (c.toNat - '0'.toNat) := by
  have hrange : '0' ≤ c ∧ c ≤ '9' := by
    simpa [Char.isDigit, Char.le_def] using h
  rw [Hex.digitValue?, if_pos hrange]

theorem value?_of_digits (h : ∀ c ∈ text, c.isDigit = true) (acc : Nat) :
    value? 10 text acc = some (Nat.ofDigitChars 10 text acc) := by
  induction text generalizing acc with
  | nil => rfl
  | cons c text ih =>
    obtain ⟨hc, htext⟩ := List.forall_mem_cons.mp h
    have hne : c ≠ '_' := by
      rintro rfl
      cases hc
    have hlt : c.toNat - '0'.toNat < 10 := by
      have := (Char.isDigit_iff_toNat.mp hc).2
      simp only [Char.reduceToNat] at this ⊢
      omega
    rw [value?_cons hne, digitValue?_of_isDigit hc, Option.bind_some, if_pos hlt, ih htext,
      Nat.ofDigitChars_cons]

end Text.Amount

theorem Word.ofNat?_toNat (w : Word) : Word.ofNat? w.toNat = some w := by
  have hlt : w.toNat < twoTo 256 := w.isLt
  rw [Word.ofNat?, if_pos hlt, BitVec.ofNat_toNat, BitVec.setWidth_eq]

/-- An amount that is written is read back. -/
theorem Word.ofText?_text (w : Word) : Word.ofText? w.text = some w := by
  have hdigits : ∀ c ∈ Nat.toDigits 10 w.toNat, c.isDigit = true := fun c =>
    Nat.isDigit_of_mem_toDigits (by decide) (by decide)
  rw [Word.ofText?, Word.text, String.toList_ofList, Text.Amount.base_of_digits hdigits]
  simp only [Text.Amount.value?_of_digits hdigits, Nat.ofDigitChars_ten_toDigits, Option.bind_eq_bind,
    Option.bind_some, Word.ofNat?_toNat]

/-- An amount has the value that its text spells, in whatever base. -/
theorem Word.spells_of_ofText? {s : String} {w : Word} (h : Word.ofText? s = some w) :
    Text.Amount.Spells s.toList w.toNat := by
  have hread : (Text.Amount.value? (Text.Amount.base s.toList).1 (Text.Amount.base s.toList).2 0).bind
      Word.ofNat? = some w := h
  obtain ⟨n, hn, hw⟩ := Option.bind_eq_some_iff.mp hread
  obtain ⟨digits, hwritten, hbelow, hvalue⟩ := Text.Amount.value?_eq_some hn
  obtain ⟨marker, hmarker, htext⟩ := Text.Amount.base_mem s.toList
  exact ⟨marker, _, _, digits, hmarker, htext, hwritten, hbelow, (Word.ofNat?_eq_some hw).trans hvalue⟩

/-! ### Addresses and hashes -/

namespace Text.Hex

theorem digitValue?_digit {d : Nat} (h : d < 16) : digitValue? (digit d) = some d := by
  revert d
  decide

theorem value?_append (text rest : List Char) (acc : Nat) :
    value? (text ++ rest) acc = (value? text acc).bind (value? rest) := by
  induction text generalizing acc with
  | nil => rfl
  | cons c text ih =>
    simp only [List.cons_append, value?, Option.bind_eq_bind, Option.bind_assoc]
    congr 1
    funext d
    split
    · exact ih _
    · rfl

theorem length_digits (count n : Nat) : (digits count n).length = count := by
  induction count generalizing n with
  | zero => rfl
  | succ count ih => rw [digits, List.length_append, ih, List.length_singleton]

theorem value?_digits (count n acc : Nat) :
    value? (digits count n) acc = some (acc * 16 ^ count + n % 16 ^ count) := by
  induction count generalizing n acc with
  | zero => simp [digits, value?, Nat.mod_one]
  | succ count ih =>
    have hlt : n % 16 < 16 := Nat.mod_lt _ (by decide)
    rw [digits, value?_append, ih, Option.bind_some, value?, digitValue?_digit hlt]
    simp only [Option.bind_eq_bind, Option.bind_some, hlt, if_true, value?, Option.some.injEq]
    rw [Nat.pow_succ', Nat.mod_mul]
    ring

/-- A number that is written with all of its digits is read back. -/
theorem exactly?_digits {count n : Nat} (h : n < 16 ^ count) :
    exactly? count ('0' :: 'x' :: digits count n) = some n := by
  have hlength : (unmarked ('0' :: 'x' :: digits count n)).length = count := length_digits count n
  rw [exactly?, if_pos hlength, unmarked, value?_digits, Nat.zero_mul, Nat.zero_add, Nat.mod_eq_of_lt h]

end Text.Hex

theorem Address.ofText?_text (a : Address) : Address.ofText? a.text = some a := by
  have htext : a.text.toList = '0' :: 'x' :: Text.Hex.digits 40 a.bits.toNat := by
    simp [Address.text]
  rw [Address.ofText?, htext, Text.Hex.exactly?_digits a.bits.isLt]
  simp

theorem Hash.ofText?_text (h : Hash) : Hash.ofText? h.text = some h := by
  have htext : h.text.toList = '0' :: 'x' :: Text.Hex.digits 64 h.bits.toNat := by
    simp [Hash.text]
  rw [Hash.ofText?, htext, Text.Hex.exactly?_digits h.bits.isLt]
  simp

end Chainfolio
