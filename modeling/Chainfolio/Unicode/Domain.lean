import Chainfolio.Unicode.DomainRows
import Chainfolio.Unicode.Span

/-! How the characters of domain names are taken: kept, replaced by others, dropped or refused. Letters
lose their case and variants of a character become one. -/
namespace Chainfolio.Unicode

/-- What becomes of the characters of a span. -/
inductive Taking where
  | refused
  | dropped
  | moved (step target : Nat)
  | replaced (targets : Array (List Char))

namespace Taking

/-- Reads what becomes of a span. -/
def ofEntry (entry : List Char × List Char) : Span Taking :=
  let (place, what) := entry
  let (first, last) := ends '-' place
  if what = ['!'] then ⟨first, last, .refused⟩
  else if what.isEmpty then ⟨first, last, .dropped⟩
  else if place.contains '-' then ⟨first, last, .moved 1 (codePoint what)⟩
  else if place.contains '/' then
    let (first, last) := ends '/' place
    ⟨first, last, .moved 2 (codePoint what)⟩
  else
    let targets := (Text.splitOn ',' what).map fun target =>
      (Text.splitOn '.' target).map fun digits => Char.ofNat (codePoint digits)
    ⟨first, first + (targets.length - 1), .replaced targets.toArray⟩

/-- The characters that one of a span becomes; none if it is refused. -/
def apply (first : Nat) (c : Char) : Taking → Option (List Char)
  | .refused => none
  | .dropped => some []
  | .moved step target =>
    let offset := c.toNat - first
    some [if offset % step = 0 then Char.ofNat (target + offset) else c]
  | .replaced targets => some (targets[c.toNat - first]?.getD [c])

end Taking

def takings : Array (Span Taking) := ((entries domainRows).map Taking.ofEntry).toArray

/-- The characters that a character of a domain name stands for; none if it is refused. -/
def take (c : Char) : Option (List Char) :=
  match Span.find? takings c.toNat with
  | some s => s.value.apply s.first c
  | none => some [c]

end Chainfolio.Unicode
