import Chainfolio.Decimal.Arithmetic
import Chainfolio.Radix

/-! Integer powers of decimals by squaring. Large exponents keep 192-bit intermediate mantissas with
up to 57 places and are cut back to a decimal at the end. -/
namespace Chainfolio.Decimal

/-- A mantissa and a scale without the bounds of a decimal. -/
structure Wide where
  mantissa : Nat
  scale : Nat

/-- The places to drop so that about `bits` bits remain, and at most `places` places. -/
def Wide.excess (w : Wide) (bits places : Nat) : Nat :=
  let k := if twoTo bits ≤ w.mantissa then (w.mantissa.log2 + 1 - bits) * 77 / 256 + 1 else 0
  max k (w.scale - places)

/-- The result of dropping digits: what remains, and the last group that was dropped. -/
structure Cut where
  mantissa : Nat
  scale : Nat
  last : Nat

/-- Drops `k` digits in groups of at most nine, then single digits until `bits` bits remain. -/
def Wide.cut (bits : Nat) : Nat → Nat → Cut → Option Cut
  | 0, _, _ => none
  | fuel + 1, k, c =>
    if k = 0 ∧ c.mantissa < twoTo bits then some c
    else
      let group := min (max k 1) 9
      let m := c.mantissa / tenTo group
      let next : Cut := ⟨m, c.scale - group, c.mantissa % tenTo group⟩
      if twoTo bits ≤ m ∧ k ≤ group then
        if next.scale = 0 then none else cut bits fuel 1 next
      else cut bits fuel (k - group) next

/-- Cuts a number to `bits` bits and `places` places. It is rounded up unless the last group dropped
was zero, or was one after an even digit. -/
def Wide.fit (bits places : Nat) (w : Wide) : Option Wide := do
  let k := w.excess bits places
  if w.scale < k then none
  else
    let c ← cut bits (w.mantissa.log2 + k + 2) k ⟨w.mantissa, w.scale, 0⟩
    if 0 < c.last ∧ (c.mantissa % 2 = 1 ∨ 1 < c.last) then
      let m := c.mantissa + 1
      if m < twoTo bits then some ⟨m, c.scale⟩
      else if c.scale = 0 then none
      else some ⟨m / 10, c.scale - 1⟩
    else some ⟨c.mantissa, c.scale⟩

/-- Drops places down to `places` in groups of at most nine, each rounded half to even. -/
def Wide.shorten (places : Nat) : Nat → Wide → Wide
  | 0, w => w
  | fuel + 1, w =>
    if w.scale ≤ places then w
    else
      let group := min (w.scale - places) 9
      let p := tenTo group
      let q := w.mantissa / p
      let r := w.mantissa % p
      let up := p / 2 < r ∨ (r = p / 2 ∧ q % 2 = 1)
      shorten places fuel ⟨if up then q + 1 else q, w.scale - group⟩

def Wide.mul (a b : Wide) : Option Wide :=
  let w : Wide := ⟨a.mantissa * b.mantissa, a.scale + b.scale⟩
  if w.mantissa < twoTo 192 then some (w.shorten 57 16) else w.fit 192 57

def bit (e n : Nat) : Bool := e / twoTo n % 2 = 1

/-- Square and multiply from the lowest bit of `e`, `count` bits in all from bit `n` on. -/
def squareMultiply {α : Type} (mul : α → α → Option α) (e : Nat) :
    (count n : Nat) → (power product : α) → Option α
  | 0, _, _, product => some product
  | count + 1, n, power, product => do
    let power ← if n = 0 then some power else mul power power
    let product ← if bit e n then mul product power else some product
    squareMultiply mul e count (n + 1) power product

/-- Drops every trailing zero after the point. -/
def Wide.trim : Nat → Wide → Wide
  | 0, w => w
  | fuel + 1, w =>
    if 0 < w.scale ∧ w.mantissa % 10 = 0 then trim fuel ⟨w.mantissa / 10, w.scale - 1⟩ else w

/-- The number with its trailing zeros dropped; zero keeps no places. -/
def trimmed (negative : Bool) (w : Wide) : Option Decimal :=
  let w := w.trim w.scale
  ofParts? negative w.mantissa w.scale

/-- The exponent from which intermediate results are wide. -/
def wideExponent : Nat := 1024

/-- A non-negative decimal to a natural power. -/
def powNat (b : Decimal) (e : Nat) : Option Decimal :=
  match e with
  | 0 => some one
  | 1 => some b
  | 2 => mul b b
  | e =>
    if e < wideExponent then do
      let p ← squareMultiply mul e (e.log2 + 1) 0 b one
      trimmed p.negative ⟨p.mantissa, p.scale⟩
    else do
      let w ← squareMultiply Wide.mul e (e.log2 + 1) 0 ⟨b.mantissa, b.scale⟩ ⟨1, 0⟩
      let w ← if w.mantissa < mantissaLimit ∧ w.scale ≤ maxScale then some w
        else w.fit 96 maxScale
      trimmed false w

/-- A non-negative decimal to an integer power; a negative one is the reciprocal of the positive. -/
def powInt (b : Decimal) (e : Int) : Option Decimal :=
  if 0 ≤ e then powNat b e.toNat else (powNat b (-e).toNat).bind one.div

end Chainfolio.Decimal
