import Chainfolio.Text.Integer
import Chainfolio.Unicode.Span
import Chainfolio.Unicode.TraitRows

/-! Traits of characters: the direction that they are written in, whether they are marks, how they
combine with the character before them and how they join with both neighbours. -/
namespace Chainfolio.Unicode

inductive Direction where
  | left
  | right
  | europeanNumber
  | arabicNumber
  | neutral
  | nonspacing
  | other
  deriving DecidableEq

/-- How a character joins with those beside it. -/
inductive Joining where
  | none
  | left
  | right
  | dual
  | causing
  | transparent
  deriving DecidableEq

structure Trait where
  direction : Direction := .left
  isMark : Bool := false
  combining : Nat := 0
  joining : Joining := .none
  deriving DecidableEq

namespace Trait

/-- The combining class of characters that silence the vowel before them. -/
def virama : Nat := 9

/-- Adds what a letter or a digit says. -/
def add (t : Trait) (c : Char) : Trait :=
  match c with
  | 'R' => { t with direction := .right }
  | 'E' => { t with direction := .europeanNumber }
  | 'A' => { t with direction := .arabicNumber }
  | 'N' => { t with direction := .neutral }
  | 'X' => { t with direction := .nonspacing }
  | 'O' => { t with direction := .other }
  | 'M' => { t with isMark := true }
  | 'l' => { t with joining := .left }
  | 'r' => { t with joining := .right }
  | 'd' => { t with joining := .dual }
  | 'c' => { t with joining := .causing }
  | 't' => { t with joining := .transparent }
  | c => { t with combining := 10 * t.combining + (c.toNat - '0'.toNat) }

def ofEntry (entry : List Char × List Char) : Span Trait :=
  let (first, last) := ends '-' entry.1
  ⟨first, last, entry.2.foldl add {}⟩

end Trait

def traits : Array (Span Trait) := ((entries traitRows).map Trait.ofEntry).toArray

def traitOf (c : Char) : Trait :=
  match Span.find? traits c.toNat with
  | some s => s.value
  | none => {}

end Chainfolio.Unicode
