import Chainfolio.Fault
import Chainfolio.Radix
import Chainfolio.Text.Split
import Chainfolio.Text.Utf8
import Chainfolio.Url.DomainName
import Chainfolio.Url.Encoding

/-! Hosts of URLs: domain names in ASCII, IPv4 addresses in dotted decimals, IPv6 addresses with the
longest run of zero groups left out. -/
namespace Chainfolio.Host

/-- The number of an IPv4 part: hexadecimal, octal or decimal. -/
def ipv4Number? (part : List Char) : Option Nat :=
  let read (base : Nat) (ds : List Char) : Option Nat :=
    ds.foldlM (fun acc c => do
      let d ← Text.Hex.digitValue? c
      if d < base then some (base * acc + d) else none) 0
  match part with
  | [] => none
  | '0' :: 'x' :: ds => read 16 ds
  | '0' :: 'X' :: ds => read 16 ds
  | ['0'] => some 0
  | '0' :: ds => read 8 ds
  | ds => read 10 ds

def labels (name : List Char) : List (List Char) :=
  let parts := Text.splitOn '.' name
  match parts.reverse with
  | [] :: rest@(_ :: _) => rest.reverse
  | _ => parts

/-- Whether the last part of a name is a number, so that the name has to be an IPv4 address. -/
def endsInNumber (name : List Char) : Bool :=
  match (labels name).getLast? with
  | none => false
  | some [] => false
  | some part => part.all Char.isDigit ||
    (match part with
      | '0' :: 'x' :: ds | '0' :: 'X' :: ds => ds.all fun c => (Text.Hex.digitValue? c).any (· < 16)
      | _ => false)

/-- The value of IPv4 parts: the last one fills the bytes that are left. -/
def ipv4Value? (numbers : List Nat) : Option Nat :=
  match numbers.reverse with
  | [] => none
  | last :: firsts =>
    let firsts := firsts.reverse
    if firsts.length ≤ 3 ∧ firsts.all (· < 256) ∧ last < twoTo (8 * (4 - firsts.length)) then
      some (firsts.zipIdx.foldl (fun acc (n, i) => acc + n * twoTo (8 * (3 - i))) last)
    else none

def dotted (n : Nat) : List Char :=
  [n / 16777216, n / 65536 % 256, n / 256 % 256, n % 256].map (fun b => (toString b).toList)
    |> List.intersperse ['.'] |> List.flatten

def group? (ds : List Char) : Option Nat :=
  if ds.isEmpty ∨ 4 < ds.length then none else Text.Hex.value? ds 0

/-- The groups of a colon-separated text; a dotted tail makes two groups. -/
def groups? (text : List Char) : Option (List Nat) :=
  if text.isEmpty then some []
  else do
    let parts := Text.splitOn ':' text
    let last := parts.getLastD []
    let heads ← parts.dropLast.mapM group?
    if last.contains '.' then
      let bytes := Text.splitOn '.' last
      let numbers ← bytes.mapM fun ds =>
        if ds.isEmpty ∨ !ds.all Char.isDigit ∨ (ds.head? = some '0' ∧ ds.length ≠ 1) then none
        else some (Nat.ofDigitChars 10 ds 0)
      match numbers with
      | [a, b, c, d] =>
        if [a, b, c, d].all (· < 256) then some (heads ++ [256 * a + b, 256 * c + d]) else none
      | _ => none
    else return heads ++ [← group? last]

/-- Splits a text at its first double colon. -/
def splitGap : List Char → Option (List Char × List Char)
  | [] => none
  | ':' :: ':' :: rest => some ([], rest)
  | c :: rest => (splitGap rest).map fun (a, b) => (c :: a, b)

def ipv6? (text : List Char) : Option (List Nat) := do
  match splitGap text with
  | some (left, right) =>
    if left.contains '.' then failure
    let left ← groups? left
    let right ← groups? right
    if left.length + right.length < 8 then
      some (left ++ List.replicate (8 - left.length - right.length) 0 ++ right)
    else none
  | none =>
    let groups ← groups? text
    if groups.length = 8 then some groups else none

/-- How many leading groups are zero. -/
def zeroRun (groups : List Nat) : Nat := (groups.takeWhile (· = 0)).length

/-- The start and the length of the first longest run of at least two zero groups. -/
def longestZeros (groups : List Nat) : Option (Nat × Nat) :=
  (List.range groups.length).foldl (fun best i =>
    let n := zeroRun (groups.drop i)
    match best with
    | some (_, m) => if m < n then some (i, n) else best
    | none => if 2 ≤ n then some (i, n) else none) none

def hexGroup (n : Nat) : List Char := Nat.toDigits 16 n

def joinGroups (groups : List Nat) : List Char :=
  (groups.map hexGroup |> List.intersperse [':']).flatten

def ipv6Text (groups : List Nat) : List Char :=
  match longestZeros groups with
  | none => joinGroups groups
  | some (start, n) =>
    joinGroups (groups.take start) ++ [':', ':'] ++ joinGroups (groups.drop (start + n))

/-- The normal form of an IPv6 address in brackets. -/
def parseBracketed (text : List Char) : Except UrlFault (List Char) :=
  match text.getLast?, ipv6? (text.drop 1).dropLast with
  | some ']', some groups => .ok ('[' :: ipv6Text groups ++ [']'])
  | _, _ => .error .invalidIpv6

def parseName (text : List Char) : Except UrlFault (List Char) :=
  match DomainName.toAscii? (Text.Utf8.decodeLossy (Percent.decode text)).toList with
  | none => .error .invalidHost
  | some [] => .error .emptyHost
  | some name =>
    if endsInNumber name then
      match (labels name).mapM ipv4Number? >>= ipv4Value? with
      | some n => .ok (dotted n)
      | none => .error .invalidIpv4
    else .ok name

def parse (text : List Char) : Except UrlFault (List Char) :=
  if text.head? = some '[' then parseBracketed text else parseName text

/-- Characters that the host of another address does not hold. -/
def isForbidden (c : Char) : Bool :=
  ['\x00', '\t', '\n', '\r', ' ', '#', '/', ':', '<', '>', '?', '@', '[', '\\', ']', '^',
    '|'].contains c

/-- The host of another address, kept as it stands. -/
def parseOpaque (text : List Char) : Except UrlFault (List Char) :=
  if text.head? = some '[' then parseBracketed text
  else if text.any isForbidden then .error .invalidDomain
  else .ok (Percent.encodeControls text)

end Chainfolio.Host
