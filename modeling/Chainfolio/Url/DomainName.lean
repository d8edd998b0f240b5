import Chainfolio.Unicode.Composition
import Chainfolio.Unicode.Domain
import Chainfolio.Url.Punycode

/-! Domain names in ASCII. Characters are first taken as domain names take them, and composed; a label
with characters outside ASCII is then checked and written in its ASCII name. -/
namespace Chainfolio.DomainName

open Unicode

/-- What an ASCII name of a label begins with. -/
def marker : List Char := ['x', 'n', '-', '-']

def labelLimit : Nat := 1000

/-- The most characters of an ASCII name after the marker. -/
def nameLimit : Nat := 2000

def isAscii (text : List Char) : Bool := text.all fun c => c.toNat < 0x80

/-- ASCII characters that no domain name holds. -/
def isDenied (c : Char) : Bool :=
  c.toNat ≤ 0x20 || c.toNat = 0x7F ||
    ['%', '#', '/', ':', '<', '>', '?', '@', '[', '\\', ']', '^', '|'].contains c

/-- The characters that a text stands for in a domain name, composed. -/
def normal? (text : List Char) : Option (List Char) := do
  let taken := normalForm (← text.mapM take).flatten
  if taken.any isDenied then none else some taken

/-- Whether a character in front is silenced. -/
def followsVirama (before : List Char) : Bool :=
  before.head?.any fun c => combiningClass c = Trait.virama

/-- Whether the next character that joins at all is one of some kinds. -/
def joinsWith (kinds : List Joining) (text : List Char) : Bool :=
  ((text.map fun c => (traitOf c).joining).find? (· ≠ .transparent)).any kinds.contains

/-- Joiners stand after a virama; a non-joiner also between letters that would join. `before` is in
reverse. -/
def joinersFit (before : List Char) : List Char → Bool
  | [] => true
  | c :: rest =>
    let fits :=
      if c = '\u200D' then followsVirama before
      else if c = '\u200C' then
        followsVirama before || (joinsWith [.left, .dual] before && joinsWith [.right, .dual] rest)
      else true
    fits && joinersFit (c :: before) rest

/-- Whether a label outside ASCII is sound. -/
def isSound (label : List Char) : Bool :=
  label.head?.all (fun c => !(traitOf c).isMark) && joinersFit [] label

/-- A label with its ASCII name. -/
structure Label where
  text : List Char
  name : List Char

/-- The label of normal text. -/
def Label.ofText? (text : List Char) : Option Label :=
  if marker.isPrefixOf text then do
    let name := text.drop marker.length
    let label ← Punycode.decode? name
    if isAscii text && name.length ≤ nameLimit && name.getLast? ≠ some '-' && !isAscii label &&
        normal? label = some label && isSound label then
      some ⟨label, text⟩
    else none
  else if isAscii text then some ⟨text, text⟩
  else if text.length ≤ labelLimit && isSound text then
    some ⟨text, marker ++ Punycode.encode text⟩
  else none

def direction (c : Char) : Direction := (traitOf c).direction

/-- Whether some text is written from right to left, in part at least. -/
def isBidirectional (text : List Char) : Bool :=
  text.any fun c => direction c = .right || direction c = .arabicNumber

/-- Whether a label keeps to one direction: it begins and ends with characters of it, and what stands
between is neutral or of it. Both kinds of numbers do not go together from right to left. -/
def keepsDirection (label : List Char) : Bool :=
  let directions := label.map direction
  let core := (directions.reverse.dropWhile (· = .nonspacing)).reverse
  match directions.head? with
  | none => true
  | some .left =>
    directions.all (fun d => d = .left || d = .europeanNumber || d = .neutral || d = .nonspacing) &&
      core.getLast?.all fun d => d = .left || d = .europeanNumber
  | some .right =>
    directions.all (fun d => d ≠ .left && d ≠ .other) &&
      core.getLast?.all (fun d => d = .right || d = .europeanNumber || d = .arabicNumber) &&
      !(directions.contains .europeanNumber && directions.contains .arabicNumber)
  | some _ => false

/-- The domain name in ASCII, if it is one. -/
def toAscii? (name : List Char) : Option (List Char) := do
  let labels ← (Text.splitOn '.' (← normal? name)).mapM Label.ofText?
  if labels.any (fun l => isBidirectional l.text) && !labels.all fun l => keepsDirection l.text then
    none
  else some (List.intercalate ['.'] (labels.map Label.name))

end Chainfolio.DomainName
