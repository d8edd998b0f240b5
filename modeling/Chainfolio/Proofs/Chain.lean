import Mathlib.Data.Nat.Digits.Defs
import Chainfolio.Chain.Text
import Chainfolio.Proofs.Run

/-! Texts that name a chain. An id may be written with a plus sign and with leading zeros, a name in any letter
case. No name is a number, so that a text names one chain at most; every other text is at fault, as an id
that no chain has or as an unknown name. -/
namespace Chainfolio

/-! ### Integers -/

namespace Text.Integer

/-- A text spells a number: decimal digits, the most significant one first, behind a plus sign or none. -/
def Spells (text : List Char) (n : Nat) : Prop :=
  ∃ written : List Char, written ≠ [] ∧ (∀ c ∈ written, c.isDigit = true) ∧
    (text = written ∨ text = '+' :: written) ∧ n = Nat.ofDigitChars 10 written 0

variable {bound acc n : Nat} {text : List Char}

theorem le_ofDigitChars (text : List Char) (acc : Nat) : acc ≤ Nat.ofDigitChars 10 text acc := by
  rw [Nat.ofDigitChars_eq_ofDigitChars_zero]
  exact (Nat.le_mul_of_pos_left acc (Nat.pow_pos (by decide))).trans (Nat.le_add_right _ _)

/-- Digits are read exactly when their number is below the bound. -/
theorem digits_eq_ok_iff (hacc : acc < bound) :
    digits bound text acc = .ok n ↔
      (∀ c ∈ text, c.isDigit = true) ∧ n = Nat.ofDigitChars 10 text acc ∧ n < bound := by
  induction text generalizing acc with
  | nil =>
    simp only [digits, Except.ok.injEq, Nat.ofDigitChars_nil, List.not_mem_nil, false_imp_iff,
      implies_true, true_and]
    omega
  | cons c text ih =>
    rw [digits, List.forall_mem_cons, Nat.ofDigitChars_cons]
    by_cases hc : c.isDigit = true
    · by_cases hnext : 10 * acc + (c.toNat - '0'.toNat) < bound
      · simp only [hc, hnext, if_true, ih hnext, true_and]
      · -- further digits make the number only larger
        have hle := le_ofDigitChars text (10 * acc + (c.toNat - '0'.toNat))
        simp only [hc, hnext, if_true, if_false, reduceCtorEq, true_and, false_iff]
        omega
    · simp [hc]

theorem spells_signed : Spells ('+' :: text) n ↔
    text ≠ [] ∧ (∀ c ∈ text, c.isDigit = true) ∧ n = Nat.ofDigitChars 10 text 0 := by
  constructor
  · rintro ⟨written, hne, hdigits, rfl | hsigned, hn⟩
    · cases hdigits '+' List.mem_cons_self
    · cases hsigned
      exact ⟨hne, hdigits, hn⟩
  · rintro ⟨hne, hdigits, hn⟩
    exact ⟨text, hne, hdigits, .inr rfl, hn⟩

theorem spells_unsigned (hsign : ∀ rest, text ≠ '+' :: rest) : Spells text n ↔
    text ≠ [] ∧ (∀ c ∈ text, c.isDigit = true) ∧ n = Nat.ofDigitChars 10 text 0 := by
  constructor
  · rintro ⟨written, hne, hdigits, rfl | hsigned, hn⟩
    · exact ⟨hne, hdigits, hn⟩
    · exact absurd hsigned (hsign written)
  · rintro ⟨hne, hdigits, hn⟩
    exact ⟨text, hne, hdigits, .inl rfl, hn⟩

/-- A text is read exactly when it spells a number below the bound. -/
theorem parse_eq_ok_iff (hbound : 0 < bound) :
    parse bound text = .ok n ↔ Spells text n ∧ n < bound := by
  unfold parse
  split
  · simp [Spells]
  · simp [spells_signed]
  · next rest hrest =>
    have hne : rest ≠ [] := fun h => hrest (by rw [h])
    rw [digits_eq_ok_iff hbound, spells_signed]
    simp only [hne, ne_eq, not_false_eq_true, true_and, and_assoc]
  · next hne _ hsign =>
    have hne : text ≠ [] := hne
    rw [digits_eq_ok_iff hbound, spells_unsigned hsign]
    simp only [hne, ne_eq, not_false_eq_true, true_and, and_assoc]

/-- A text that spells a number has a digit. -/
theorem Spells.exists_isDigit (h : Spells text n) : ∃ c ∈ text, c.isDigit = true := by
  obtain ⟨written, hne, hdigits, htext, -⟩ := h
  obtain ⟨c, rest, rfl⟩ := List.exists_cons_of_ne_nil hne
  refine ⟨c, ?_, hdigits c List.mem_cons_self⟩
  obtain rfl | rfl := htext <;> simp

end Text.Integer

theorem Text.parseUInt64_eq_ok_iff {s : String} {n : Nat} :
    Text.parseUInt64 s = .ok n ↔ Text.Integer.Spells s.toList n ∧ n < UInt64.size :=
  Text.Integer.parse_eq_ok_iff (by decide)

/-! ### Names -/

namespace Chain

variable {text : String} {chain : Chain} {fault : Fault}

/-- A text names a chain by its id or, in any letter case, by its name. -/
def IsNamed (chain : Chain) (text : String) : Prop :=
  Text.Integer.Spells text.toList chain.id ∨ text.map Char.toLower = chain.name

/-- A text names no chain: it spells an id that no chain has, or it spells none and is no name. -/
inductive Misnamed (text : String) : Fault → Prop
  | id {id : Nat} (hid : Text.Integer.Spells text.toList id) (hsize : id < UInt64.size)
      (hnone : ∀ chain : Chain, chain.id ≠ id) : Misnamed text (.unsupportedChain id)
  | name (hid : ∀ id < UInt64.size, ¬ Text.Integer.Spells text.toList id)
      (hnone : ∀ chain : Chain, text.map Char.toLower ≠ chain.name) :
      Misnamed text (.config (.unknownChain text))

theorem id_lt_size (chain : Chain) : chain.id < UInt64.size := by cases chain <;> decide

theorem ofId?_eq_some_iff {id : Nat} : ofId? id = some chain ↔ chain.id = id := by
  constructor
  · intro h
    simpa using List.find?_some h
  · rintro rfl
    exact ofId?_id chain

theorem ofName?_eq_some_iff {name : String} : ofName? name = some chain ↔ chain.name = name := by
  constructor
  · intro h
    simpa using List.find?_some h
  · rintro rfl
    exact ofName?_name chain

theorem ofId_eq_ok_iff {id : Nat} : Chain.ofId id = .ok chain ↔ chain.id = id := by
  rw [Chain.ofId, ← ofId?_eq_some_iff]
  cases ofId? id <;> simp

theorem ofId_eq_error_iff {id : Nat} :
    Chain.ofId id = .error fault ↔ (∀ chain : Chain, chain.id ≠ id) ∧ .unsupportedChain id = fault := by
  have hnone : ofId? id = none ↔ ∀ chain : Chain, chain.id ≠ id := by
    simp only [Option.eq_none_iff_forall_ne_some, ne_eq, ofId?_eq_some_iff]
  rw [Chain.ofId, ← hnone]
  cases ofId? id <;> simp

/-- No text is both a number and a name. -/
theorem not_spells_of_name (h : text.map Char.toLower = chain.name) (id : Nat) :
    ¬ Text.Integer.Spells text.toList id := by
  intro hid
  obtain ⟨c, hc, hdigit⟩ := hid.exists_isDigit
  have hlower : c.toLower = c := by
    have hrange := Char.isDigit_iff_toNat.mp hdigit
    have hbelow : ¬ 'A'.val ≤ c.val := by
      rw [UInt32.not_le]
      exact UInt32.lt_iff_toNat_lt.mpr (Nat.lt_of_le_of_lt hrange.2 (by decide))
    exact dif_neg fun hupper => hbelow hupper.1
  have hname : c ∈ chain.name.toList := by
    rw [← h, String.toList_map, ← hlower]
    exact List.mem_map_of_mem hc
  have hletters : (chain.name.toList.all fun c => !c.isDigit) = true := by cases chain <;> decide
  have hletter := List.all_eq_true.mp hletters c hname
  rw [hdigit] at hletter
  exact absurd hletter (by decide)

/-- A text is read as the chain that it names. -/
theorem parse_eq_ok_iff : Chain.parse text = .ok chain ↔ chain.IsNamed text := by
  rw [Chain.parse]
  cases hnumber : Text.parseUInt64 text with
  | ok id =>
    obtain ⟨hid, -⟩ := Text.parseUInt64_eq_ok_iff.mp hnumber
    constructor
    · intro h
      refine .inl ?_
      rw [ofId_eq_ok_iff.mp h]
      exact hid
    · rintro (hown | hname)
      · have hsame := Text.parseUInt64_eq_ok_iff.mpr ⟨hown, chain.id_lt_size⟩
        rw [hnumber] at hsame
        exact ofId_eq_ok_iff.mpr (Except.ok.inj hsame).symm
      · exact absurd hid (not_spells_of_name hname id)
  | error cause =>
    constructor
    · intro h
      cases hname : ofName? (text.map Char.toLower) with
      | none => simp [hname] at h
      | some c =>
        obtain rfl : c = chain := by simpa [hname] using h
        exact .inr (ofName?_eq_some_iff.mp hname).symm
    · rintro (hown | hname)
      · have hsame := Text.parseUInt64_eq_ok_iff.mpr ⟨hown, chain.id_lt_size⟩
        rw [hnumber] at hsame
        cases hsame
      · simp only [ofName?_eq_some_iff.mpr hname.symm]

/-- A text that names no chain is at fault. -/
theorem parse_eq_error_iff : Chain.parse text = .error fault ↔ Misnamed text fault := by
  rw [Chain.parse]
  cases hnumber : Text.parseUInt64 text with
  | ok id =>
    obtain ⟨hid, hsize⟩ := Text.parseUInt64_eq_ok_iff.mp hnumber
    constructor
    · intro h
      obtain ⟨hnone, rfl⟩ := ofId_eq_error_iff.mp h
      exact .id hid hsize hnone
    · intro h
      cases h with
      | id hid' hsize' hnone =>
        have hsame := Text.parseUInt64_eq_ok_iff.mpr ⟨hid', hsize'⟩
        rw [hnumber] at hsame
        exact ofId_eq_error_iff.mpr ⟨Except.ok.inj hsame ▸ hnone, by rw [Except.ok.inj hsame]⟩
      | name hid' _ => exact absurd hid (hid' id hsize)
  | error cause =>
    have hid : ∀ id < UInt64.size, ¬ Text.Integer.Spells text.toList id := by
      intro id hsize hid
      have hread := Text.parseUInt64_eq_ok_iff.mpr ⟨hid, hsize⟩
      rw [hnumber] at hread
      cases hread
    cases hname : ofName? (text.map Char.toLower) with
    | some c =>
      simp only [reduceCtorEq, false_iff]
      rintro (⟨hid', hsize, -⟩ | ⟨-, hnone⟩)
      · exact hid _ hsize hid'
      · exact hnone c (ofName?_eq_some_iff.mp hname).symm
    | none =>
      have hnone : ∀ c : Chain, text.map Char.toLower ≠ c.name := by
        intro c hc
        rw [ofName?_eq_some_iff.mpr hc.symm] at hname
        cases hname
      simp only [Except.error.injEq]
      constructor
      · rintro rfl
        exact .name hid hnone
      · rintro (⟨hid', hsize, -⟩ | _)
        · exact absurd hid' (hid _ hsize)
        · rfl

end Chain

end Chainfolio
