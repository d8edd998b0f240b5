import Chainfolio.Text.Hex
import Chainfolio.Text.Split

/-! Names in ASCII for labels that hold other characters. The ASCII characters of a label come first;
the others follow as insertions, each the distance to the next one as a number with digits in base 36
whose weights adapt to the distances before it. -/
namespace Chainfolio.Punycode

def base : Nat := 36

/-- The code point before the first insertion. -/
def initialPoint : Nat := 128

def initialBias : Nat := 72

/-- Numbers have to stay below this. -/
def wordLimit : Nat := UInt32.size

/-- A digit of at least the threshold of its place is followed by another one. -/
def threshold (bias place : Nat) : Nat :=
  if place ≤ bias then 1 else if bias + 26 ≤ place then 26 else place - bias

theorem threshold_pos (bias place : Nat) : 0 < threshold bias place := by
  simp only [threshold]
  split
  · omega
  · split <;> omega

/-- Brings a distance into the range of biases, which grow by one base for each division. -/
def shrink (distance bias : Nat) : Nat :=
  if _h : 455 < distance then shrink (distance / 35) (bias + base)
  else bias + 36 * distance / (distance + 38)
termination_by distance
decreasing_by exact Nat.div_lt_self (by omega) (by omega)

def adapt (distance count : Nat) (isFirst : Bool) : Nat :=
  let distance := if isFirst then distance / 700 else distance / 2
  shrink (distance + distance / count) 0

/-- The value of a digit: the letters, then the ten figures. -/
def digitValue? (c : Char) : Option Nat :=
  if c.isLower then some (c.toNat - 'a'.toNat)
  else if c.isDigit then some (c.toNat - '0'.toNat + 26)
  else none

def digit (n : Nat) : Char :=
  if n < 26 then Char.ofNat ('a'.toNat + n) else Char.ofNat ('0'.toNat + (n - 26))

def digits (bias place distance : Nat) : List Char :=
  let t := threshold bias place
  if _h : distance < t then [digit distance]
  else
    digit (t + (distance - t) % (base - t)) ::
      digits bias (place + base) ((distance - t) / (base - t))
termination_by distance
decreasing_by
  have h₁ := threshold_pos bias place
  have h₂ := Nat.div_le_self (distance - threshold bias place) (base - threshold bias place)
  simp only [t] at _h ⊢
  omega

/-- A character that goes into a label: its code point, and how many characters stand before it when
it comes. -/
structure Insertion where
  point : Nat
  position : Nat

/-- The insertions that make up a label, from left to right. `before` is in reverse. A character comes
after all lesser ones, and after equal ones to its left. -/
def insertionsAfter (before : List Char) : List Char → List Insertion
  | [] => []
  | c :: rest =>
    let others := insertionsAfter (c :: before) rest
    if c.toNat < initialPoint then others
    else ⟨c.toNat, before.countP fun b => b.toNat ≤ c.toNat⟩ :: others

/-- The insertions that make up a label, in the order in which they come. -/
def insertions (label : List Char) : List Insertion :=
  (insertionsAfter [] label).mergeSort fun i j => i.point ≤ j.point

/-- The distances to insertions into a label of `count` characters, where the next one is no earlier
than `position` for the code point `point`. -/
def writeInsertions : (bias point position count : Nat) → List Insertion → List Char
  | _, _, _, _, [] => []
  | bias, point, position, count, i :: rest =>
    let distance := (i.point - point) * (count + 1) + i.position - position
    digits bias base distance ++
      writeInsertions (adapt distance (count + 1) (position = 0)) i.point (i.position + 1) (count + 1)
        rest

def encode (label : List Char) : List Char :=
  let basic := label.filter fun c => c.toNat < initialPoint
  let start := if basic.isEmpty then [] else basic ++ ['-']
  start ++ writeInsertions initialBias initialPoint 0 basic.length (insertions label)

/-- Reads a distance and adds it to `n`; none when a word is too small for it. -/
def readDistance? (bias : Nat) : (place weight n : Nat) → List Char → Option (Nat × List Char)
  | _, _, _, [] => none
  | place, weight, n, c :: rest => do
    let d ← digitValue? c
    let n := n + d * weight
    if wordLimit ≤ n then none
    else
      let t := threshold bias place
      if d < t then some (n, rest)
      else
        let weight := weight * (base - t)
        if wordLimit ≤ weight then none else readDistance? bias (place + base) weight n rest

/-- Reads insertions into a label, the next of which is no earlier than `position` for the code point
`point`. -/
def readInsertions? :
    (fuel bias point position : Nat) → List Char → List Char → Option (List Char)
  | _, _, _, _, label, [] => some label
  | 0, _, _, _, _, _ :: _ => none
  | fuel + 1, bias, point, position, label, text => do
    let (n, rest) ← readDistance? bias base 1 position text
    let count := label.length + 1
    let point := point + n / count
    if point.isValidChar then
      readInsertions? fuel (adapt (n - position) count (position = 0)) point (n % count + 1)
        (label.insertIdx (n % count) (Char.ofNat point)) rest
    else none

/-- The label that an ASCII name in lower case stands for. -/
def decode? (name : List Char) : Option (List Char) :=
  let (basic, insertions) := match name.reverse.span (· ≠ '-') with
    | (after, '-' :: before@(_ :: _)) => (before.reverse, after.reverse)
    | _ => ([], name)
  readInsertions? (name.length + 1) initialBias initialPoint 0 basic insertions

end Chainfolio.Punycode
