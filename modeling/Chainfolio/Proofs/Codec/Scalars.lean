import Mathlib.Data.List.Forall2
import Mathlib.Data.Nat.Digits.Defs
import Chainfolio.Json.Printer
import Chainfolio.Json.Reader
import Chainfolio.Proofs.Codec.Text

/-! Values without parts: null, truth values, numbers and strings. The text of such a value is one token of
the reader. -/
namespace Chainfolio.JsonText

/-! ### Strings -/

section
variable {g : Gathered} {c : Char} {text rest : List Char}

theorem string?_of_ordinary (hquote : c ≠ '"') (hescape : c ≠ '\\') (hcontrol : ¬ c.toNat < 0x20) :
    string? g (c :: text) = string? (g.push c) text := by
  rw [string?]
  · rw [if_neg hcontrol]
  · exact hquote
  · exact fun _ _ _ _ _ h => absurd h hescape
  · exact fun _ _ h => absurd h hescape

theorem string?_of_escaped (hc : c ≠ 'u') :
    string? g ('\\' :: c :: text) = (escaped? c).bind fun d => string? (g.push d) text := by
  rw [string?]
  · rfl
  · exact fun _ _ _ _ _ h => absurd h hc

/-- A control is written by its code unit. -/
theorem string?_of_control (hg : g.high = none) (hc : c.toNat < 0x20) :
    string? g ('\\' :: 'u' :: (Text.Hex.digits 4 c.toNat ++ text)) = string? (g.push c) text := by
  have hvalue : Text.Hex.value? (Text.Hex.digits 4 c.toNat) 0 = some c.toNat := by
    rw [Text.Hex.value?_digits, Nat.zero_mul, Nat.zero_add, Nat.mod_eq_of_lt (by omega)]
  have hunit : g.pushUnit c.toNat = g.push c := by
    have hlow : ¬ (0xD800 ≤ c.toNat ∧ c.toNat < 0xDC00) := by omega
    have hlow' : ¬ (0xDC00 ≤ c.toNat ∧ c.toNat < 0xE000) := by omega
    simp only [Gathered.pushUnit, Gathered.push, hg, if_neg hlow, if_neg hlow', Char.ofNat_toNat,
      Option.isNone_none, Bool.and_true]
  simp only [Text.Hex.digits, List.nil_append, List.cons_append] at hvalue ⊢
  rw [string?, hvalue]
  simp only [Option.bind_eq_bind, Option.bind_some, hunit]

/-- An escaped character stands for itself. -/
theorem string?_escape (hg : g.high = none) : string? g (escape c ++ text) = string? (g.push c) text := by
  unfold escape
  split
  case h_6 c hquote hescape _ _ _ =>
    split
    · next hcontrol => exact string?_of_control hg hcontrol
    · next hcontrol => exact string?_of_ordinary hquote hescape hcontrol
  all_goals exact string?_of_escaped (by decide)

/-- A string that has been opened is read up to the quotation mark that closes it. -/
theorem string?_quoted (hg : g.high = none) (hsound : g.sound = true) (chars rest : List Char) :
    string? g (chars.flatMap escape ++ '"' :: rest) =
      some (.string (some (String.ofList (g.chars.reverse ++ chars))), rest) := by
  induction chars generalizing g with
  | nil => simp [string?, Gathered.text?, hg, hsound]
  | cons c chars ih =>
    rw [List.flatMap_cons, List.append_assoc, string?_escape hg,
      ih rfl (by simp [Gathered.push, hg, hsound])]
    simp [Gathered.push]

theorem toList_quote (s : String) : (quote s).toList = '"' :: (s.toList.flatMap escape ++ ['"']) := by
  simp [quote]

theorem token?_quote (s : String) (rest : List Char) :
    token? ((quote s).toList ++ rest) = some (.string (some s), rest) := by
  rw [toList_quote, List.cons_append, List.append_assoc, List.singleton_append, token?,
    string?_quoted rfl rfl]
  simp [Gathered.empty]

end

/-! ### Numbers -/

/-- What may follow a value: the end of the text or of its container, or a comma. -/
def Ends (rest : List Char) : Prop := ∀ c ∈ rest.head?, c = ',' ∨ c = ']' ∨ c = '\x7d'

section
variable {n : Nat} {rest : List Char}

/-- No zero leads the digits of another number than zero. -/
theorem head?_toDigits (hn : 0 < n) : (Nat.toDigits 10 n).head? ≠ some '0' := by
  induction n using Nat.strong_induction_on with
  | _ n ih =>
    rcases Nat.lt_or_ge n 10 with hlt | hle
    · have hsmall : ∀ d < 10, 0 < d → [Nat.digitChar d].head? ≠ some '0' := by decide
      rw [Nat.toDigits_of_lt_base hlt]
      exact hsmall n hlt hn
    · rw [Nat.toDigits_of_base_le (by decide) hle, List.head?_append_of_ne_nil _ Nat.toDigits_ne_nil]
      exact ih (n / 10) (by omega) (by omega)

theorem isNumeric_of_isDigit {c : Char} (h : c.isDigit = true) : isNumeric c = true := by
  simp [isNumeric, h]

/-- A text of one kind of characters is cut off where another kind follows. -/
theorem takeWhile_append {p : Char → Bool} {text : List Char} (h : ∀ c ∈ text, p c = true)
    (hrest : ∀ c ∈ rest.head?, p c = false) :
    (text ++ rest).takeWhile p = text ∧ (text ++ rest).dropWhile p = rest := by
  rw [List.takeWhile_append_of_pos h, List.dropWhile_append_of_pos h]
  cases rest with
  | nil => simp
  | cons c rest => simp [hrest c rfl]

/-- The text of an integer, with the sign in front. -/
def signed (minus : Bool) (n : Nat) : List Char :=
  if minus then '-' :: Nat.toDigits 10 n else Nat.toDigits 10 n

theorem isDigit_of_mem_toDigits {c : Char} (h : c ∈ Nat.toDigits 10 n) : c.isDigit = true :=
  Nat.isDigit_of_mem_toDigits (by decide) (by decide) h

theorem ofText?_signed (minus : Bool) (n : Nat) :
    JsonNumber.Parts.ofText? (signed minus n) = some ⟨minus, Nat.toDigits 10 n, none, none⟩ := by
  have hleading : ¬ ((Nat.toDigits 10 n).head? = some '0' ∧ (Nat.toDigits 10 n).length ≠ 1) := by
    rintro ⟨hhead, hlength⟩
    rcases Nat.eq_zero_or_pos n with rfl | hpos
    · exact hlength rfl
    · exact head?_toDigits hpos hhead
  obtain ⟨c, digits, hcons⟩ := List.exists_cons_of_ne_nil (Nat.toDigits_ne_nil (n := n) (b := 10))
  obtain ⟨htake, hdrop⟩ := @takeWhile_append [] _ _ (fun c => isDigit_of_mem_toDigits (n := n)) (by simp)
  rw [List.append_nil] at htake hdrop
  have htaken : JsonNumber.takeDigits? (Nat.toDigits 10 n) = some (Nat.toDigits 10 n, []) := by
    rw [JsonNumber.takeDigits?, htake, hdrop, hcons]
  cases minus with
  | true =>
    simp only [JsonNumber.Parts.ofText?, signed, if_true, htaken, Option.bind_eq_bind, Option.bind_some,
      if_neg hleading]
    rfl
  | false =>
    rw [signed, if_neg Bool.false_ne_true, JsonNumber.Parts.ofText?]
    · simp only [htaken, Option.bind_eq_bind, Option.bind_some, if_neg hleading]
      rfl
    · exact fun _ h => absurd (isDigit_of_mem_toDigits (h ▸ List.mem_cons_self)) (by decide)

theorem parse?_natural (hn : n < UInt64.size) :
    JsonNumber.parse? (signed false n) = some (.num (.natural n)) := by
  rw [JsonNumber.parse?, ofText?_signed, Option.map_some, JsonNumber.Parts.value]
  simp [Nat.ofDigitChars_ten_toDigits, hn]

theorem parse?_negative (hpos : 0 < n) (hn : n ≤ twoTo 63) :
    JsonNumber.parse? (signed true n) = some (.num (.negative n)) := by
  rw [JsonNumber.parse?, ofText?_signed, Option.map_some, JsonNumber.Parts.value]
  simp [Nat.ofDigitChars_ten_toDigits, hpos, hn]

/-! ### Single values -/

theorem token?_plain {c : Char} {text : List Char} (hc : c ∉ ['"', '[', ']', '\x7b', '\x7d', ',', ':']) :
    token? (c :: text) =
      match (c :: text).takeWhile Char.isLower with
      | [] => do
        return (.value (← JsonNumber.parse? ((c :: text).takeWhile isNumeric)),
          (c :: text).dropWhile isNumeric)
      | word => do return (.value (← word? word), (c :: text).dropWhile Char.isLower) := by
  simp only [List.mem_cons, List.not_mem_nil, or_false, not_or] at hc
  obtain ⟨h₁, h₂, h₃, h₄, h₅, h₆, h₇⟩ := hc
  -- the equation for all other characters asks that this is none of the marks
  rw [token?] <;> first | rfl | simp_all

/-- An ending belongs neither to a number nor to a word. -/
theorem Ends.not_numeric (h : Ends rest) : ∀ c ∈ rest.head?, isNumeric c = false := by
  intro c hc
  obtain rfl | rfl | rfl := h c hc <;> rfl

theorem Ends.not_lower (h : Ends rest) : ∀ c ∈ rest.head?, c.isLower = false := by
  intro c hc
  obtain rfl | rfl | rfl := h c hc <;> rfl

theorem token?_signed {minus : Bool} {j : Json} (hparse : JsonNumber.parse? (signed minus n) = some j)
    (hends : Ends rest) : token? (signed minus n ++ rest) = some (.value j, rest) := by
  have hchars : ∀ c ∈ signed minus n, c = '-' ∨ c.isDigit = true := by
    intro c hc
    cases minus with
    | true => exact (List.mem_cons.mp hc).imp_right isDigit_of_mem_toDigits
    | false => exact .inr (isDigit_of_mem_toDigits hc)
  have hnumeric : ∀ c ∈ signed minus n, isNumeric c = true := by
    intro c hc
    obtain rfl | hdigit := hchars c hc
    · rfl
    · exact isNumeric_of_isDigit hdigit
  obtain ⟨htake, hdrop⟩ := takeWhile_append hnumeric hends.not_numeric
  obtain ⟨c, text, hcons⟩ : ∃ c text, signed minus n = c :: text := by
    cases minus with
    | true => exact ⟨_, _, rfl⟩
    | false => exact List.exists_cons_of_ne_nil Nat.toDigits_ne_nil
  rw [hcons] at hchars htake hdrop hparse ⊢
  have hc := hchars c List.mem_cons_self
  have hplain : c ∉ ['"', '[', ']', '\x7b', '\x7d', ',', ':'] := by
    intro hmem
    simp only [List.mem_cons, List.not_mem_nil, or_false] at hmem
    obtain rfl | rfl | rfl | rfl | rfl | rfl | rfl := hmem <;> simp at hc
  have hlower : c.isLower = false := by
    obtain rfl | hdigit := hc
    · rfl
    · have hrange := Char.isDigit_iff_toNat.mp hdigit
      have hbelow : c.val < 'a'.val :=
        UInt32.lt_iff_toNat_lt.mpr (Nat.lt_of_le_of_lt hrange.2 (by decide))
      exact Bool.and_eq_false_iff.mpr (.inl (decide_eq_false (UInt32.not_le.mpr hbelow)))
  rw [List.cons_append] at htake hdrop ⊢
  rw [token?_plain hplain, List.takeWhile_cons_of_neg (by simp [hlower])]
  simp only [htake, hdrop, hparse]
  rfl

theorem word_of_word? {word : List Char} {j : Json} (h : word? word = some j) :
    word = "null".toList ∨ word = "true".toList ∨ word = "false".toList := by
  unfold word? at h
  split at h
  · next heq => exact .inl (by rw [← heq, String.toList_ofList])
  · next heq => exact .inr (.inl (by rw [← heq, String.toList_ofList]))
  · next heq => exact .inr (.inr (by rw [← heq, String.toList_ofList]))
  · cases h

theorem token?_word {word : List Char} {j : Json} (h : word? word = some j) (hends : Ends rest) :
    token? (word ++ rest) = some (.value j, rest) := by
  have hword := word_of_word? h
  have hlower : ∀ c ∈ word, c.isLower = true := by
    rw [← List.all_eq_true]
    obtain rfl | rfl | rfl := hword <;> decide
  obtain ⟨htake, hdrop⟩ := takeWhile_append hlower hends.not_lower
  obtain ⟨c, letters, hcons, hplain⟩ : ∃ c letters, word = c :: letters ∧
      c ∉ ['"', '[', ']', '\x7b', '\x7d', ',', ':'] := by
    obtain rfl | rfl | rfl := hword <;> exact ⟨_, _, rfl, by decide⟩
  subst hcons
  rw [List.cons_append] at htake hdrop ⊢
  rw [token?_plain hplain, htake, hdrop]
  simp only [h]
  rfl

end

/-! ### Elements that are given up -/

namespace Overrun

section
variable {fuel : Nat} {c : Char} {text rest : List Char}

theorem word_append (word rest : List Char) : Overrun.word word (word ++ rest) = some rest := by
  induction word with
  | nil => rfl
  | cons c word ih => rw [List.cons_append, Overrun.word, if_pos rfl, ih]

theorem takeBytes_append (taken rest : List Char) (h : ∀ c ∈ taken, c.utf8Size = 1) :
    takeBytes taken.length (taken ++ rest) = some (taken, rest) := by
  induction taken with
  | nil => simp [takeBytes]
  | cons c taken ih =>
    obtain ⟨hc, htaken⟩ := List.forall_mem_cons.mp h
    rw [List.length_cons, List.cons_append, takeBytes]
    · rw [if_pos (by omega), hc, Nat.add_sub_cancel, ih htaken]
      rfl
    · exact Nat.succ_ne_zero _

theorem utf8Size_of_mem_digits {count n : Nat} (h : c ∈ Text.Hex.digits count n) : c.utf8Size = 1 := by
  have hdigit : ∀ d < 16, (Text.Hex.digit d).utf8Size = 1 := by decide
  induction count generalizing n with
  | zero => cases h
  | succ count ih =>
    rw [Text.Hex.digits, List.mem_append, List.mem_singleton] at h
    obtain h | rfl := h
    · exact ih h
    · exact hdigit _ (Nat.mod_lt _ (by decide))

/-- A control that is written by its code unit is a sound escape. -/
theorem escape_control (hc : c.toNat < 0x20) :
    Overrun.escape ('u' :: (Text.Hex.digits 4 c.toNat ++ rest)) = .sound rest := by
  have hlength := Text.Hex.length_digits 4 c.toNat
  have htake := takeBytes_append (Text.Hex.digits 4 c.toNat) rest fun _ => utf8Size_of_mem_digits
  have hvalue : Text.Hex.value? (Text.Hex.digits 4 c.toNat) 0 = some c.toNat := by
    rw [Text.Hex.value?_digits, Nat.zero_mul, Nat.zero_add, Nat.mod_eq_of_lt (by omega)]
  have hhigh : ¬ (0xD800 ≤ c.toNat ∧ c.toNat < 0xDC00) := by omega
  have hlow : ¬ (0xDC00 ≤ c.toNat ∧ c.toNat < 0xE000) := by omega
  rw [hlength] at htake
  simp only [Overrun.escape, unit, htake, hvalue, hlength, Option.filter_some, decide_true, if_true,
    if_neg hhigh, if_neg hlow]

/-- An escaped character is a sound part of a string. -/
theorem string_escape (fuel : Nat) (c : Char) (text : List Char) :
    string (fuel + 1) (JsonText.escape c ++ text) = string fuel text := by
  unfold JsonText.escape
  split
  case h_6 hquote hescape _ _ _ =>
    split
    · next hcontrol => simp [string, escape_control hcontrol]
    · next hcontrol =>
      rw [List.singleton_append, string, if_neg hquote, if_neg hescape, if_neg hcontrol]
  all_goals rfl

/-- A string is given up after the quotation mark that closes it. -/
theorem string_quoted (chars rest : List Char) (hfuel : chars.length < fuel) :
    string fuel (chars.flatMap JsonText.escape ++ '"' :: rest) = some rest := by
  obtain ⟨fuel, rfl⟩ := Nat.exists_eq_succ_of_ne_zero (Nat.ne_zero_of_lt hfuel)
  induction chars generalizing fuel with
  | nil => simp [string]
  | cons c chars ih =>
    rw [List.length_cons] at hfuel
    obtain ⟨fuel, rfl⟩ := Nat.exists_eq_succ_of_ne_zero (show fuel ≠ 0 by omega)
    rw [List.flatMap_cons, List.append_assoc, string_escape]
    exact ih fuel (by omega)

/-- A number is given up at its end, if it is no byte. -/
theorem number_toDigits (minus : Bool) (n : Nat) (hends : Ends rest) :
    number minus (Nat.toDigits 10 n ++ rest) = none ∨
      number minus (Nat.toDigits 10 n ++ rest) = some rest := by
  have hdigits : ∀ c ∈ Nat.toDigits 10 n, c.isDigit = true := fun c =>
    Nat.isDigit_of_mem_toDigits (by decide) (by decide)
  have hfollows : ∀ c ∈ rest.head?, c.isDigit = false ∧ c ≠ '.' ∧ c ≠ 'e' ∧ c ≠ 'E' := by
    intro c hc
    obtain rfl | rfl | rfl := hends c hc <;> decide
  obtain ⟨htake, hdrop⟩ := takeWhile_append hdigits fun c hc => (hfollows c hc).1
  have hafter (isZero : Bool) : afterWhole isZero rest = none ∨ afterWhole isZero rest = some rest := by
    cases rest with
    | nil => exact .inl rfl
    | cons c rest =>
      obtain ⟨-, hpoint, hlower, hupper⟩ := hfollows c rfl
      right
      rw [afterWhole]
      · rw [if_neg (by simp [hlower, hupper])]
      · exact hpoint
  unfold number
  simp only [htake, hdrop]
  split
  · next hnil => exact absurd hnil Nat.toDigits_ne_nil
  · exact .inl rfl
  · split
    · exact .inl rfl
    · exact hafter _

theorem element_of_isDigit (hc : c.isDigit = true) : element (c :: text) = number false (c :: text) := by
  unfold element
  split
  case h_7 heq =>
    cases heq
    rw [if_pos hc]
  all_goals simp_all

end

end Overrun

/-! ### Values without parts -/

/-- The token of a value without parts. -/
def scalarToken : Json → Token
  | .str s => .string (some s)
  | j => .value j

/-- A value without parts is one token. Where it is given up as an element, it is given up at its end. -/
structure IsScalar (j : Json) : Prop where
  token : ∀ rest, Ends rest → token? ((print j).toList ++ rest) = some (scalarToken j, rest)
  first : ∃ c text, (print j).toList = c :: text ∧ isBlank c = false
  givenUp : ∀ rest, Ends rest → Overrun.element ((print j).toList ++ rest) = none ∨
    Overrun.element ((print j).toList ++ rest) = some rest

theorem length_flatMap_escape (chars : List Char) : chars.length ≤ (chars.flatMap escape).length := by
  have hescape (c : Char) : 1 ≤ (escape c).length := by
    unfold escape
    split
    case h_6 => split <;> simp
    all_goals decide
  induction chars with
  | nil => exact le_rfl
  | cons c chars ih =>
    have hc := hescape c
    rw [List.flatMap_cons, List.length_append, List.length_cons]
    omega

theorem isScalar_str (s : String) : IsScalar (.str s) := by
  have htext : (print (.str s)).toList = '"' :: (s.toList.flatMap escape ++ ['"']) := by
    rw [print, toList_quote]
  refine ⟨fun rest _ => ?_, ⟨_, _, htext, rfl⟩, fun rest _ => .inr ?_⟩
  · rw [print, token?_quote]
    rfl
  · rw [htext, List.cons_append, List.append_assoc, List.singleton_append, Overrun.element]
    refine Overrun.string_quoted _ _ ?_
    have hlength := length_flatMap_escape s.toList
    simp only [List.length_cons, List.length_append]
    omega

theorem isScalar_word {j : Json} {word : List Char} (hprint : (print j).toList = word)
    (hword : word? word = some j) (hscalar : scalarToken j = .value j) : IsScalar j := by
  have hletters := word_of_word? hword
  refine ⟨fun rest hends => ?_, ?_, fun rest _ => .inr ?_⟩
  · rw [hprint, hscalar, token?_word hword hends]
  · rw [hprint]
    obtain rfl | rfl | rfl := hletters <;> exact ⟨_, _, rfl, rfl⟩
  · rw [hprint]
    obtain rfl | rfl | rfl := hletters
    · exact Overrun.word_append ['u', 'l', 'l'] rest
    · exact Overrun.word_append ['r', 'u', 'e'] rest
    · exact Overrun.word_append ['a', 'l', 's', 'e'] rest

theorem isScalar_null : IsScalar .null := isScalar_word rfl rfl rfl

theorem isScalar_bool (b : Bool) : IsScalar (.bool b) := by
  cases b <;> exact isScalar_word rfl rfl rfl

theorem isScalar_signed {number : JsonNumber} {n : Nat} (minus : Bool)
    (hprint : (print (.num number)).toList = signed minus n)
    (hparse : JsonNumber.parse? (signed minus n) = some (.num number)) : IsScalar (.num number) := by
  obtain ⟨c, digits, hcons⟩ := List.exists_cons_of_ne_nil (Nat.toDigits_ne_nil (n := n) (b := 10))
  have hdigit : c.isDigit = true := isDigit_of_mem_toDigits (hcons ▸ List.mem_cons_self)
  refine ⟨fun rest hends => ?_, ?_, fun rest hends => ?_⟩
  · rw [hprint, token?_signed hparse hends]
    rfl
  · rw [hprint]
    cases minus with
    | true => exact ⟨_, _, rfl, rfl⟩
    | false =>
      refine ⟨c, digits, hcons, ?_⟩
      simp only [isBlank, Bool.or_eq_false_iff, decide_eq_false_iff_not]
      refine ⟨⟨⟨?_, ?_⟩, ?_⟩, ?_⟩ <;> rintro rfl <;> cases hdigit
  · have hnumber (minus : Bool) := Overrun.number_toDigits minus n hends
    rw [hprint]
    cases minus with
    | true => exact hnumber true
    | false =>
      have hfalse := hnumber false
      rw [hcons, List.cons_append, ← Overrun.element_of_isDigit hdigit, ← List.cons_append, ← hcons] at hfalse
      exact hfalse

theorem isScalar_natural {n : Nat} (hn : n < UInt64.size) : IsScalar (.num (.natural n)) :=
  isScalar_signed false Nat.toList_repr (parse?_natural hn)

theorem isScalar_negative {n : Nat} (hpos : 0 < n) (hn : n ≤ twoTo 63) : IsScalar (.num (.negative n)) := by
  refine isScalar_signed true ?_ (parse?_negative hpos hn)
  rw [print, number, String.toList_append]
  exact congrArg ('-' :: ·) Nat.toList_repr

end Chainfolio.JsonText
