import Chainfolio.Text.Hex
import Chainfolio.Text.Split

/-! Tables over spans of code points. The spans of a table ascend and do not overlap, so that the one
around a code point is found by halving. -/
namespace Chainfolio.Unicode

/-- What is said about the code points from `first` to `last`. -/
structure Span (α : Type) where
  first : Nat
  last : Nat
  value : α

namespace Span

variable {α : Type}

/-- Looks for the span around a code point between two positions. -/
def search (spans : Array (Span α)) (n : Nat) : (fuel low high : Nat) → Option (Span α)
  | 0, _, _ => none
  | fuel + 1, low, high =>
    let middle := (low + high) / 2
    match spans[middle]? with
    | none => none
    | some s =>
      if high ≤ low then none
      else if n < s.first then search spans n fuel low middle
      else if s.last < n then search spans n fuel (middle + 1) high
      else some s

def find? (spans : Array (Span α)) (n : Nat) : Option (Span α) :=
  search spans n spans.size 0 spans.size

end Span

def codePoint (digits : List Char) : Nat := (Text.Hex.value? digits 0).getD 0

/-- The entries of a table, which blanks separate: what stands before and after the colon. -/
def entries (rows : List String) : List (List Char × List Char) :=
  rows.flatMap fun row =>
    (Text.splitOn ' ' row.toList).map fun entry =>
      (entry.takeWhile (· ≠ ':'), (entry.dropWhile (· ≠ ':')).drop 1)

/-- The ends of a span that is written with a character between them, or of one code point. -/
def ends (between : Char) (text : List Char) : Nat × Nat :=
  match Text.splitOn between text with
  | [first, last] => (codePoint first, codePoint last)
  | _ => (codePoint text, codePoint text)

end Chainfolio.Unicode
