import Chainfolio.Unicode.CompositionRows
import Chainfolio.Unicode.Trait

/-! The composed form of text. Composed characters are taken apart, marks on one letter are sorted by
their combining class, and what can be composed again is. Hangul syllables follow from arithmetic. -/
namespace Chainfolio.Unicode

/-- A character with the two that it is composed of. -/
structure Composition where
  whole : Char
  first : Char
  second : Char

namespace Composition

def ofEntry (entry : List Char × List Char) : List Composition :=
  (Text.splitOn ',' entry.2).zipIdx.filterMap fun (parts, i) =>
    match Text.splitOn '.' parts with
    | [first, second] => some ⟨Char.ofNat (codePoint entry.1 + i), Char.ofNat (codePoint first),
        Char.ofNat (codePoint second)⟩
    | _ => none

end Composition

def compositions : Array Composition := ((entries compositionRows).flatMap Composition.ofEntry).toArray

namespace Hangul

def syllables : Nat := 0xAC00
def leads : Nat := 0x1100
def vowels : Nat := 0x1161

/-- One before the first tail. -/
def tails : Nat := 0x11A7
def leadCount : Nat := 19
def vowelCount : Nat := 21
def tailCount : Nat := 28

/-- The parts of a syllable. -/
def parts? (c : Char) : Option (List Char) :=
  let n := c.toNat - syllables
  if c.toNat < syllables ∨ leadCount * vowelCount * tailCount ≤ n then none
  else
    let body := [Char.ofNat (leads + n / (vowelCount * tailCount)),
      Char.ofNat (vowels + n / tailCount % vowelCount)]
    some (if n % tailCount = 0 then body else body ++ [Char.ofNat (tails + n % tailCount)])

/-- The syllable of a lead and a vowel, or of a syllable without a tail and a tail. -/
def compose? (a b : Char) : Option Char :=
  if leads ≤ a.toNat ∧ a.toNat < leads + leadCount ∧ vowels ≤ b.toNat ∧
      b.toNat < vowels + vowelCount then
    some (Char.ofNat (syllables +
      ((a.toNat - leads) * vowelCount + (b.toNat - vowels)) * tailCount))
  else if syllables ≤ a.toNat ∧ a.toNat < syllables + leadCount * vowelCount * tailCount ∧
      (a.toNat - syllables) % tailCount = 0 ∧ tails < b.toNat ∧ b.toNat < tails + tailCount then
    some (Char.ofNat (a.toNat + (b.toNat - tails)))
  else none

end Hangul

/-- The deepest nesting of composed characters. -/
def compositionDepth : Nat := 4

/-- The parts of a character, taken apart as far as they can be. -/
def decompose : Nat → Char → List Char
  | 0, c => [c]
  | fuel + 1, c =>
    match Hangul.parts? c with
    | some parts => parts
    | none =>
      match compositions.find? fun p => p.whole = c with
      | some p => decompose fuel p.first ++ decompose fuel p.second
      | none => [c]

/-- The character that two compose. -/
def compose? (a b : Char) : Option Char :=
  (Hangul.compose? a b).orElse fun _ =>
    (compositions.find? fun p => p.first = a ∧ p.second = b).map Composition.whole

def combiningClass (c : Char) : Nat := (traitOf c).combining

/-- Inserts a character behind those before it, given in reverse, that do not follow it. -/
def insertOrdered (c : Char) : List Char → List Char
  | [] => [c]
  | d :: before =>
    if combiningClass c ≠ 0 ∧ combiningClass c < combiningClass d then d :: insertOrdered c before
    else c :: d :: before

/-- Sorts marks by their combining class; marks of one class keep their order. -/
def ordered (text : List Char) : List Char :=
  (text.foldl (fun before c => insertOrdered c before) []).reverse

/-- Composes a letter with what follows it. Marks that stay, in reverse, keep later ones of the same
class or a smaller one from the letter. -/
def recompose (letter : Char) (marks : List Char) : List Char → List Char
  | [] => letter :: marks.reverse
  | c :: rest =>
    let free := match marks with
      | [] => true
      | d :: _ => decide (combiningClass d < combiningClass c)
    match if free then compose? letter c else none with
    | some whole => recompose whole marks rest
    | none =>
      if combiningClass c = 0 then letter :: marks.reverse ++ recompose c [] rest
      else recompose letter (c :: marks) rest

/-- Composes text whose marks are in order; marks that no letter precedes stay. -/
def composed : List Char → List Char
  | [] => []
  | c :: rest => if combiningClass c = 0 then recompose c [] rest else c :: composed rest

def normalForm (text : List Char) : List Char :=
  if text.all fun c => c.toNat < 0x80 then text
  else composed (ordered (text.flatMap (decompose compositionDepth)))

end Chainfolio.Unicode
